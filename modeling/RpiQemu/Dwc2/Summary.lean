import RpiQemu.Dwc2.Machine

/-! # The interrupt summary of device mode

    DAINT summarises the interrupts of the endpoints, and GINTSTS summarises
    DAINT.  An interrupt bit is set in many places, some of them inside calls of
    the host that run inside other calls; the summary is made in one.

    `Summed` is what the summary should say.  `dwc2_device_update_irq` makes it
    so whatever went before, and what changes no interrupt keeps it. -/

namespace Dwc2

open Register

/-! ## What the summary says -/

/-- The interrupts of an IN endpoint that the guest wants to hear of. -/
def diep_mask (s : DWC2State) (n : Nat) : Nat :=
  if s.diepempmsk.testBit n then raise DXEPINT_TXFEMP s.diepmsk else s.diepmsk

/-- The summary is that of the endpoints' interrupts, bit by bit. -/
structure Summed (s : DWC2State) : Prop where
  inEps : ∀ n, n < DWC2_NB_EP →
    (s.daint.testBit n = true ↔ (s.iepreg n).int &&& diep_mask s n ≠ 0)
  outEps : ∀ n, n < DWC2_NB_EP →
    (s.daint.testBit (16 + n) = true ↔ (s.oepreg n).int &&& s.doepmsk ≠ 0)
  iepint : on GINTSTS_IEPINT s.gintsts = true ↔ (s.daint &&& s.daintmsk) % 2 ^ 16 ≠ 0
  oepint : on GINTSTS_OEPINT s.gintsts = true ↔
    (s.daint &&& s.daintmsk) / 2 ^ 16 % 2 ^ 16 ≠ 0

/-! ## The summary is made -/

theorem daint_ep_eq (s : DWC2State) (daint n : Nat) :
    daint_ep s daint n =
      if (s.oepreg n).int &&& s.doepmsk ≠ 0 then
        raise ⟨16 + n, 1⟩
          (if (s.iepreg n).int &&& diep_mask s n ≠ 0 then raise ⟨n, 1⟩ daint else daint)
      else if (s.iepreg n).int &&& diep_mask s n ≠ 0 then raise ⟨n, 1⟩ daint else daint := by
  unfold daint_ep diep_mask
  simp only [on_bit]

theorem testBit_daint_ep (s : DWC2State) (daint n i : Nat) :
    (daint_ep s daint n).testBit i = true ↔ daint.testBit i = true ∨
      (i = n ∧ (s.iepreg n).int &&& diep_mask s n ≠ 0 ∨
        i = 16 + n ∧ (s.oepreg n).int &&& s.doepmsk ≠ 0) := by
  rw [daint_ep_eq]
  by_cases hin : (s.iepreg n).int &&& diep_mask s n ≠ 0 <;>
    by_cases hout : (s.oepreg n).int &&& s.doepmsk ≠ 0 <;>
    simp [hin, hout, testBit_raise_bit, or_assoc]

/-- The bits of the summary: the induction is over the endpoints. -/
theorem testBit_daint (s : DWC2State) (eps : List Nat) (daint i : Nat) :
    (eps.foldl (daint_ep s) daint).testBit i = true ↔ daint.testBit i = true ∨
      ∃ n ∈ eps, i = n ∧ (s.iepreg n).int &&& diep_mask s n ≠ 0 ∨
        i = 16 + n ∧ (s.oepreg n).int &&& s.doepmsk ≠ 0 := by
  induction eps generalizing daint with
  | nil => simp
  | cons n eps ih =>
    rw [List.foldl_cons, ih, testBit_daint_ep]
    simp only [List.mem_cons, exists_eq_or_imp, or_assoc]

theorem on_gintsts (s : DWC2State) {bits : Field} (h : 0 < bits.length) (val : Bool) :
    on bits (dwc2_set_gintsts s bits val).gintsts = val := by
  unfold dwc2_set_gintsts
  cases val
  · exact on_clear _
  · exact on_raise h _

theorem on_gintsts_other (s : DWC2State) {bits other : Field} (h : Register.Disjoint bits other)
    (val : Bool) : on other (dwc2_set_gintsts s bits val).gintsts = on other s.gintsts := by
  unfold dwc2_set_gintsts
  cases val
  · exact on_clear_of_disjoint h _
  · exact on_raise_of_disjoint h _

/-- Whatever went before. -/
theorem update_irq_summed (s : DWC2State) : Summed (dwc2_device_update_irq s) := by
  have hdaint : (dwc2_device_update_irq s).daint = daint_of s := rfl
  refine ⟨fun n hn => ?_, fun n hn => ?_, ?_, ?_⟩
  · rw [hdaint, daint_of, testBit_daint]
    constructor
    · rintro (h | ⟨k, hk, ⟨rfl, h⟩ | ⟨heq, _⟩⟩)
      · simp at h
      · exact h
      · -- the bits of the OUT endpoints are above those of the IN endpoints
        have hk' := List.mem_range.mp hk
        unfold DWC2_NB_EP at hn
        omega
    · intro h
      exact .inr ⟨n, List.mem_range.mpr hn, .inl ⟨rfl, h⟩⟩
  · rw [hdaint, daint_of, testBit_daint]
    constructor
    · rintro (h | ⟨k, hk, ⟨heq, _⟩ | ⟨heq, h⟩⟩)
      · simp at h
      · have hk' := List.mem_range.mp hk
        unfold DWC2_NB_EP at hk'
        omega
      · have hkn : n = k := by omega
        rw [hkn]
        exact h
    · intro h
      exact .inr ⟨n, List.mem_range.mpr hn, .inr ⟨rfl, h⟩⟩
  · unfold dwc2_device_update_irq
    dsimp only
    rw [on_gintsts_other _ (by decide), on_gintsts _ (by decide), on, ex, decide_eq_true_eq]
    simp only [pow_zero, Nat.div_one]
    rfl
  · unfold dwc2_device_update_irq
    dsimp only
    rw [on_gintsts _ (by decide), on, ex, decide_eq_true_eq]
    rfl

/-! ## The summary is kept -/

/-- Nothing changed that the summary is made of, nor the summary. -/
structure SameIrq (s s' : DWC2State) : Prop where
  ins : s'.iepreg = s.iepreg
  outs : s'.oepreg = s.oepreg
  inMask : s'.diepmsk = s.diepmsk
  outMask : s'.doepmsk = s.doepmsk
  empMask : s'.diepempmsk = s.diepempmsk
  mask : s'.daintmsk = s.daintmsk
  daint : s'.daint = s.daint
  iepint : on GINTSTS_IEPINT s'.gintsts = on GINTSTS_IEPINT s.gintsts
  oepint : on GINTSTS_OEPINT s'.gintsts = on GINTSTS_OEPINT s.gintsts

theorem Summed.same {s s' : DWC2State} (hs : Summed s) (h : SameIrq s s') : Summed s' := by
  have hmask : diep_mask s' = diep_mask s := by
    funext n
    unfold diep_mask
    rw [h.empMask, h.inMask]
  refine ⟨fun n hn => ?_, fun n hn => ?_, ?_, ?_⟩
  · rw [h.daint, h.ins, hmask]
    exact hs.inEps n hn
  · rw [h.daint, h.outs, h.outMask]
    exact hs.outEps n hn
  · rw [h.iepint, h.daint, h.mask]
    exact hs.iepint
  · rw [h.oepint, h.daint, h.mask]
    exact hs.oepint

theorem SameIrq.refl (s : DWC2State) : SameIrq s s := ⟨rfl, rfl, rfl, rfl, rfl, rfl, rfl, rfl, rfl⟩

theorem SameIrq.trans {s s' s'' : DWC2State} (h : SameIrq s s') (h' : SameIrq s' s'') :
    SameIrq s s'' :=
  ⟨h'.ins.trans h.ins, h'.outs.trans h.outs, h'.inMask.trans h.inMask, h'.outMask.trans h.outMask,
    h'.empMask.trans h.empMask, h'.mask.trans h.mask, h'.daint.trans h.daint,
    h'.iepint.trans h.iepint, h'.oepint.trans h.oepint⟩

theorem sameIrq_gintsts (s : DWC2State) (bits : Field) (hin : Register.Disjoint bits GINTSTS_IEPINT)
    (hout : Register.Disjoint bits GINTSTS_OEPINT) (val : Bool) :
    SameIrq s (dwc2_set_gintsts s bits val) :=
  ⟨rfl, rfl, rfl, rfl, rfl, rfl, rfl, on_gintsts_other s hin val, on_gintsts_other s hout val⟩

theorem sameIrq_dsts (s : DWC2State) (dsts : Nat) : SameIrq s { s with dsts := dsts } :=
  ⟨rfl, rfl, rfl, rfl, rfl, rfl, rfl, rfl, rfl⟩

/-- The end of a session. -/
theorem sameIrq_session_end (s : DWC2State) :
    SameIrq s { dwc2_set_gintsts { s with gotgint := raise GOTGINT_SES_END_DET s.gotgint }
      GINTSTS_OTGINT true with dsts := raise DSTS_SUSPSTS s.dsts } := by
  have hint := sameIrq_gintsts { s with gotgint := raise GOTGINT_SES_END_DET s.gotgint }
    GINTSTS_OTGINT (by decide) (by decide) true
  exact ⟨rfl, rfl, rfl, rfl, rfl, rfl, rfl, hint.iepint, hint.oepint⟩

theorem sameIrq_events (s : DWC2State) (old : Nat) : SameIrq s (session_events s old) := by
  unfold session_events
  have hconid : SameIrq s
      (if on GOTGCTL_CONID_B old != on GOTGCTL_CONID_B s.gotgctl then
        dwc2_set_gintsts s GINTSTS_CONIDSTSCHNG true
      else s) := by
    split
    · exact sameIrq_gintsts s _ (by decide) (by decide) true
    · exact SameIrq.refl s
  revert hconid
  generalize (if on GOTGCTL_CONID_B old != on GOTGCTL_CONID_B s.gotgctl then
    dwc2_set_gintsts s GINTSTS_CONIDSTSCHNG true else s) = s₁
  intro hconid
  apply hconid.trans
  dsimp only
  split
  · exact sameIrq_gintsts _ _ (by decide) (by decide) true
  split
  · exact sameIrq_session_end s₁
  · exact SameIrq.refl _

theorem update_connection_dwc2 (g : DWC2GadgetState) :
    (dwc2_device_update_connection g).dwc2 = g.dwc2 := by
  unfold dwc2_device_update_connection
  split <;> rfl

theorem sameIrq_session (g : DWC2GadgetState) (events : Bool) :
    SameIrq g.dwc2 (dwc2_session_apply g events).dwc2 := by
  unfold dwc2_session_apply
  dsimp only
  rw [update_connection_dwc2]
  have hbits : SameIrq g.dwc2 { g.dwc2 with gotgctl := session_bits g g.dwc2.gotgctl } :=
    ⟨rfl, rfl, rfl, rfl, rfl, rfl, rfl, rfl, rfl⟩
  cases events
  · exact hbits
  · exact hbits.trans (sameIrq_events _ _)

/-- Completing a packet keeps the summary. -/
def KeepsSummary (complete : Completion) : Prop :=
  ∀ g p, Summed g.dwc2 → Summed (complete g p).dwc2

theorem device_run_summed (complete : Completion) {g : DWC2GadgetState} (h : Summed g.dwc2) :
    Summed (dwc2_device_run complete g).dwc2 := by
  unfold dwc2_device_run
  split
  · exact h
  · exact update_irq_summed _

theorem reset_timer_summed (complete : Completion) {g : DWC2GadgetState} (h : Summed g.dwc2) :
    Summed (dwc2_gadget_reset_timer complete g).dwc2 := by
  unfold dwc2_gadget_reset_timer
  dsimp only
  split
  · exact h
  split
  · exact h.same ((sameIrq_dsts _ _).trans (sameIrq_gintsts _ _ (by decide) (by decide) true))
  · exact device_run_summed complete h

section operations

variable {complete : Completion} (hc : KeepsSummary complete)

include hc

theorem ctrl_complete_summed {g : DWC2GadgetState} (h : Summed g.dwc2) (status : Usbip.UsbRet) :
    Summed (dwc2_ctrl_complete complete g status).dwc2 := by
  unfold dwc2_ctrl_complete
  split
  · exact h
  · exact hc _ _ h

theorem fail_packet_summed {g : DWC2GadgetState} (h : Summed g.dwc2) (q : Option USBPacket) :
    Summed (fail_packet complete g q).dwc2 := by
  cases q with
  | none => exact h
  | some p => exact hc _ _ h

theorem fail_packets_summed {g : DWC2GadgetState} (h : Summed g.dwc2) :
    Summed (dwc2_gadget_fail_packets complete g).dwc2 := by
  unfold dwc2_gadget_fail_packets
  have hctrl : Summed
      (if g.ctrl_p.isSome then dwc2_ctrl_complete complete g .ioerror else g).dwc2 := by
    split
    · exact ctrl_complete_summed hc h _
    · exact h
  revert hctrl
  generalize (if g.ctrl_p.isSome then dwc2_ctrl_complete complete g .ioerror else g) = g₁
  intro hg
  generalize List.range DWC2_NB_EP = eps
  induction eps generalizing g₁ with
  | nil => exact hg
  | cons n eps ih =>
    apply ih
    apply fail_packet_summed hc
    apply fail_packet_summed hc
    exact hg

theorem handle_reset_summed {g : DWC2GadgetState} (h : Summed g.dwc2) :
    Summed (dwc2_gadget_handle_reset complete g).dwc2 := by
  unfold dwc2_gadget_handle_reset
  split
  · exact h
  have hfail := fail_packets_summed hc h
  dsimp only
  split
  · apply Summed.same _ (sameIrq_gintsts _ _ (by decide) (by decide) true)
    exact hfail.same ((sameIrq_dsts _ _).trans (sameIrq_gintsts _ _ (by decide) (by decide) true))
  · exact hfail.same (sameIrq_gintsts _ _ (by decide) (by decide) true)

theorem handle_control_summed {g : DWC2GadgetState} (h : Summed g.dwc2) (p : USBPacket)
    (length : Nat) : Summed (dwc2_gadget_handle_control complete g p length).dwc2 := by
  unfold dwc2_gadget_handle_control
  apply device_run_summed complete
  dsimp only
  split
  · exact ctrl_complete_summed hc h _
  · exact h

end operations

theorem handle_iso_summed (g : DWC2GadgetState) (p : USBPacket) (n : Nat) (in_ : Bool) :
    Summed (dwc2_gadget_handle_iso g p n in_).1.dwc2 := by
  unfold dwc2_gadget_handle_iso
  dsimp only
  split <;> exact update_irq_summed _

theorem handle_data_summed {g : DWC2GadgetState} (h : Summed g.dwc2) (p : USBPacket) :
    Summed (dwc2_gadget_handle_data g p).1.dwc2 := by
  unfold dwc2_gadget_handle_data
  dsimp only
  split
  · exact h
  split
  · exact h
  split
  · exact handle_iso_summed g p _ _
  -- a data packet: the summary is made before the call returns
  split <;> split <;> exact update_irq_summed _

theorem cancel_dwc2 (g : DWC2GadgetState) (id : Nat) :
    (dwc2_gadget_cancel_packet g id).dwc2 = g.dwc2 := by
  unfold dwc2_gadget_cancel_packet
  dsimp only
  split <;> rfl

/-! ## The host -/

theorem act_summed {complete : Completion} (hc : KeepsSummary complete) {g : DWC2GadgetState}
    (h : Summed g.dwc2) (a : HostAct) : Summed (act complete g a).dwc2 := by
  cases a with
  | control p setup data =>
    simp only [act]
    split
    · have hcontrol := handle_control_summed hc (g := { g with
        setup_buf := setup
        data_buf := splice g.data_buf 0 (data.take (setup_length setup)) }) h p (setup_length setup)
      split <;> exact hcontrol
    · exact h
  | data p =>
    have hdata := handle_data_summed h p
    simp only [act]
    by_cases hfree : (fresh g p.id && decide (0 < p.nr) &&
        (if p.in_ then g.in_p p.nr else g.out_p p.nr).isNone) = true
    · rw [if_pos hfree]
      split <;> exact hdata
    · rw [if_neg hfree]
      exact h
  | cancel id =>
    simp only [act]
    split
    · rw [cancel_dwc2]
      exact h
    · exact h
  | bus_reset => exact handle_reset_summed hc h
  | vbus val =>
    simp only [act]
    split
    · exact h
    · unfold dwc2_gadget_vbus_changed
      split
      · exact h.same (sameIrq_session { g with port_vbus := val } true)
      · exact h
  | ret => exact h

theorem acts_summed {complete : Completion} (hc : KeepsSummary complete) (k : Nat)
    {g : DWC2GadgetState} (h : Summed g.dwc2) : Summed (acts complete k g).dwc2 := by
  induction k generalizing g with
  | zero => exact h
  | succ k ih =>
    unfold acts
    split
    · exact h
    · exact h
    · apply ih
      apply act_summed hc
      exact h

/-- However deep the host acts from inside its acts. -/
theorem complete_summed (depth : Nat) : KeepsSummary (usb_packet_complete depth) := by
  induction depth with
  | zero =>
    intro g p h
    unfold usb_packet_complete
    split <;> exact h
  | succ depth ih =>
    intro g p h
    unfold usb_packet_complete
    split
    · exact acts_summed ih _ h
    · exact h

/-! ## Steps -/

theorem dreg_write_summed {complete : Completion} {g : DWC2GadgetState} (h : Summed g.dwc2)
    (addr val : Nat) : Summed (dwc2_dreg_write complete g addr val).dwc2 := by
  have hend : ∀ g', Summed (dreg_written complete g').dwc2 := fun g' => update_irq_summed _
  have hskip : ∀ (b : Bool) (n : Nat) (g' : Bool → Nat → DWC2GadgetState),
      Summed (if DWC2_NB_EP ≤ n then g else dreg_written complete (g' b n)).dwc2 := by
    intro b n g'
    split
    · exact h
    · exact hend _
  unfold dwc2_dreg_write
  dsimp only
  by_cases hdreg : DCFG ≤ addr ∧ addr < DCFG + DWC2_DREG_SIZE
  · rw [if_pos hdreg]
    exact hend _
  rw [if_neg hdreg]
  by_cases hep : DIEPCTL 0 ≤ addr ∧ addr < DIEPCTL DWC2_EP_BLOCKS ∨
      DOEPCTL 0 ≤ addr ∧ addr < DOEPCTL DWC2_EP_BLOCKS
  · rw [if_pos hep]
    exact hskip _ _ (fun b n => ep_store g n b (addr / 4 % 8) val)
  · rw [if_neg hep]
    exact hend _

theorem gusbcfg_write_summed (complete : Completion) {g : DWC2GadgetState} (h : Summed g.dwc2)
    (val : Nat) :
    Summed (gusbcfg_write complete g val).dwc2 := by
  have hcfg : Summed { g.dwc2 with gusbcfg := val } :=
    h.same ⟨rfl, rfl, rfl, rfl, rfl, rfl, rfl, rfl, rfl⟩
  unfold gusbcfg_write
  dsimp only
  split
  · apply device_run_summed complete
    rw [update_connection_dwc2]
    exact hcfg
  · exact hcfg

/-- After a reset nothing is masked in, so there is nothing to report. -/
theorem reset_regs_summed {s : DWC2State} (hin : on GINTSTS_IEPINT s.gintsts = false)
    (hout : on GINTSTS_OEPINT s.gintsts = false) : Summed (device_reset_regs s) := by
  refine ⟨fun n _ => ?_, fun n _ => ?_, ?_, ?_⟩
  · simp [device_reset_regs, diep_mask]
  · simp [device_reset_regs]
  · simp [device_reset_regs, hin]
  · simp [device_reset_regs, hout]

theorem device_reset_summed {complete : Completion} (hc : KeepsSummary complete)
    {g : DWC2GadgetState} (hin : on GINTSTS_IEPINT g.dwc2.gintsts = false)
    (hout : on GINTSTS_OEPINT g.dwc2.gintsts = false) :
    Summed (dwc2_device_reset complete g).dwc2 := by
  have hregs : Summed ({ g with dwc2 := device_reset_regs g.dwc2 } : DWC2GadgetState).dwc2 :=
    reset_regs_summed hin hout
  unfold dwc2_device_reset
  dsimp only
  refine Summed.same ?_ (sameIrq_session _ false)
  split
  · exact fail_packets_summed hc hregs
  · exact hregs

section connection

variable {host : DWC2GadgetState → DWC2GadgetState}
  (hhost : ∀ g, Summed g.dwc2 → Summed (host g).dwc2)

include hhost

theorem attach_summed {g : DWC2GadgetState} (h : Summed g.dwc2) :
    Summed (usb_device_attach host g).dwc2 := by
  unfold usb_device_attach
  split
  · exact h
  · exact hhost _ h

theorem connect_bh_summed {g : DWC2GadgetState} (h : Summed g.dwc2) :
    Summed (dwc2_gadget_connect_bh host g).dwc2 := by
  unfold dwc2_gadget_connect_bh
  dsimp only
  split
  · exact h
  split
  · exact attach_summed hhost h
  · exact hhost _ h

omit hhost in
theorem unrealize_summed {g : DWC2GadgetState} (h : Summed g.dwc2) :
    Summed (dwc2_gadget_unrealize g).dwc2 := by
  unfold dwc2_gadget_unrealize
  dsimp only
  split
  · exact h.same (sameIrq_session { g with gadget := false } true)
  · exact h

theorem unplug_summed {g : DWC2GadgetState} (h : Summed g.dwc2) :
    Summed (usb_device_unplug host g).dwc2 := by
  unfold usb_device_unplug
  apply unrealize_summed
  split
  · exact hhost _ h
  · exact h

end connection

theorem realize_summed {g : DWC2GadgetState} (h : Summed g.dwc2) :
    Summed (dwc2_gadget_realize g).dwc2 := by
  have hnew : ∀ g' : DWC2GadgetState, g'.dwc2 = g.dwc2 →
      Summed (dwc2_device_update_session g').dwc2 := by
    intro g' heq
    apply Summed.same _ (sameIrq_session g' true)
    rw [heq]
    exact h
  unfold dwc2_gadget_realize
  split
  · exact h
  · exact hnew _ rfl

/-- The base function clears GINTSTS in a reset, before `dwc2_device_reset`. -/
def Op.clears (op : Op) : Prop :=
  ∀ gotgctl gotgint gusbcfg gintsts, op.kind = .reset gotgctl gotgint gusbcfg gintsts →
    on GINTSTS_IEPINT gintsts = false ∧ on GINTSTS_OEPINT gintsts = false

theorem on_take_field (f : Field) (val v : Nat) : on f (take_field f val v) = on f val := by
  have hlt : ex f val < 2 ^ f.length := ex_lt val
  rw [on, on, take_field, ex_dp, Nat.mod_eq_of_lt hlt]

theorem gintsts_fields_keep (val old : Nat) :
    on GINTSTS_IEPINT (gintsts_fields val old) = on GINTSTS_IEPINT old ∧
      on GINTSTS_OEPINT (gintsts_fields val old) = on GINTSTS_OEPINT old := by
  have hother : Register.Disjoint GINTSTS_IEPINT GINTSTS_OEPINT := by decide
  unfold gintsts_fields
  refine ⟨on_take_field _ _ _, ?_⟩
  rw [take_field, on_dp hother]
  exact on_take_field _ _ _

theorem step_summed {g : DWC2GadgetState} (h : Summed g.dwc2) {op : Op} (hop : op.clears) :
    Summed (step g op).dwc2 := by
  have hc : KeepsSummary (usb_packet_complete op.depth) := complete_summed op.depth
  have hg : Summed { g.dwc2 with dma_results := op.dma_results } :=
    h.same ⟨rfl, rfl, rfl, rfl, rfl, rfl, rfl, rfl, rfl⟩
  have hhost : ∀ g : DWC2GadgetState, Summed g.dwc2 →
      Summed (acts (usb_packet_complete op.depth) g.script.length g).dwc2 :=
    fun g h => acts_summed hc _ h
  unfold step Op.run
  dsimp only
  split
  · exact dreg_write_summed hg _ _
  · exact gusbcfg_write_summed _ hg _
  · exact hg.same ⟨rfl, rfl, rfl, rfl, rfl, rfl, rfl, rfl, rfl⟩
  · obtain ⟨hin, hout⟩ := gintsts_fields_keep _ g.dwc2.gintsts
    exact hg.same ⟨rfl, rfl, rfl, rfl, rfl, rfl, rfl, hin, hout⟩
  · exact hg.same ⟨rfl, rfl, rfl, rfl, rfl, rfl, rfl, rfl, rfl⟩
  · exact act_summed hc hg _
  · exact hg
  · split
    · exact reset_timer_summed _ hg
    · exact hg
  · split
    · exact connect_bh_summed hhost hg
    · exact hg
  · rename_i gotgctl gotgint gusbcfg gintsts hkind
    obtain ⟨hin, hout⟩ := hop _ _ _ _ hkind
    exact device_reset_summed hc hin hout
  · exact realize_summed hg
  · exact unplug_summed hhost hg

/-- Nothing is masked in before the first reset. -/
theorem blank_summed (cable : Cable) (port_vbus : Bool) (port_speedmask : Nat) :
    Summed (blank cable port_vbus port_speedmask).dwc2 := by
  have hint : on GINTSTS_IEPINT 0 = false ∧ on GINTSTS_OEPINT 0 = false := by decide
  refine ⟨fun n _ => ?_, fun n _ => ?_, ?_, ?_⟩
  · simp [blank]
  · simp [blank]
  · simp [blank, hint.1]
  · simp [blank, hint.2]

/-- **After every step of every run the summary is that of the endpoints'
    interrupts.** -/
theorem summary_never_stale (cable : Cable) (port_vbus : Bool) (port_speedmask : Nat)
    (ops : List Op) (hops : ∀ op ∈ ops, op.clears) :
    Summed (run (blank cable port_vbus port_speedmask) ops).dwc2 := by
  have hrun : ∀ g : DWC2GadgetState, Summed g.dwc2 → Summed (run g ops).dwc2 := by
    induction ops with
    | nil => exact fun g h => h
    | cons op ops ih =>
      intro g h
      exact ih (fun o ho => hops o (List.mem_cons_of_mem _ ho)) _
        (step_summed h (hops op List.mem_cons_self))
  exact hrun _ (blank_summed cable port_vbus port_speedmask)

/-- A controller whose guest asks for the interrupts of endpoint 0's FIFO. -/
def fifo_asked : List Op :=
  [{ kind := .reset 0 0 0 0 }, { kind := .realize }, { kind := .dreg DIEPMSK 0x80 },
    { kind := .dreg DAINTMSK 1 }]

/-- It hears of them. -/
theorem fifo_reported : Summed (run (blank .device true 6) fifo_asked).dwc2 ∧
    on GINTSTS_IEPINT (run (blank .device true 6) fifo_asked).dwc2.gintsts = true := by
  refine ⟨summary_never_stale .device true 6 fifo_asked (fun op hop => ?_), by decide +kernel⟩
  intro gotgctl gotgint gusbcfg gintsts hkind
  simp only [fifo_asked, List.mem_cons, List.not_mem_nil, or_false] at hop
  rcases hop with rfl | rfl | rfl | rfl
  · cases hkind
    exact ⟨by decide, by decide⟩
  · cases hkind
  · cases hkind
  · cases hkind

end Dwc2
