import RpiQemu.Dwc2.Idle

/-! # Settled packets

    A host packet is `Settled` when its endpoint has nothing to do for it.

    * `ep0_run_calm`, `run_in_calm`, `run_out_calm`: a run settles each packet as
      it comes to it, but for a stage of the control transfer that is armed already
      (`StageArmed`).
    * `complete_quiets`: a host that acts from inside a completion unsettles no
      packet, by induction on how deep its acts nest. -/

namespace Dwc2

open Register
open Usbip (UsbRet)
open DWC2CtrlPhase

variable {g g' g'' : DWC2GadgetState} {complete : Completion}

/-! ## Settled packets -/

/-- The host packets that a run looks at. -/
inductive Slot where
  | ctrl
  | data (n : Nat) (in_ : Bool)
  deriving DecidableEq, Repr

def DWC2GadgetState.data_p (g : DWC2GadgetState) (n : Nat) (in_ : Bool) : Option USBPacket :=
  if in_ then g.in_p n else g.out_p n

/-- EP0 has nothing to do for the control transfer. -/
def ctrl_settled (g : DWC2GadgetState) : Prop :=
  match g.ctrl_phase with
  | DWC2_CTRL_SETUP =>
    g.reset_phase ≠ 0 ∨ on DXEPCTL_EPENA (dwc2_ep g.dwc2 0 false).ctl = false
  | DWC2_CTRL_IDLE => ep0_stalled g.dwc2 = false
  | DWC2_CTRL_DATA_IN => ep0_stalled g.dwc2 = false ∧ ep_idle g.dwc2 0 true
  | DWC2_CTRL_STATUS_IN => ep0_stalled g.dwc2 = false ∧ ep_idle g.dwc2 0 true
  | DWC2_CTRL_DATA_OUT => ep0_stalled g.dwc2 = false ∧ ep_idle g.dwc2 0 false
  | DWC2_CTRL_STATUS_OUT => ep0_stalled g.dwc2 = false ∧ ep_idle g.dwc2 0 false

/-- The packet cannot move. -/
def Settled (g : DWC2GadgetState) : Slot → Prop
  | .ctrl => g.ctrl_p = none ∨ ctrl_settled g
  | .data n in_ => g.data_p n in_ = none ∨
      on DXEPCTL_STALL (dwc2_ep g.dwc2 n in_).ctl = false ∧ ep_idle g.dwc2 n in_

/-- The controller is a peripheral with a gadget: a run does something. -/
def running (g : DWC2GadgetState) : Bool := g.gadget && !dwc2_is_host_role g.dwc2

/-- A host role is the cable's, or forced: it is not left for the other one. -/
def Stable (g : DWC2GadgetState) : Prop :=
  dwc2_is_host_role g.dwc2 = true → on GOTGCTL_CONID_B g.dwc2.gotgctl = dwc2_cable_is_device g

/-- The packet cannot move while the controller is a peripheral, and stays so. -/
structure Calm (g : DWC2GadgetState) (x : Slot) : Prop where
  stable : Stable g
  settled : running g = true → Settled g x

/-- The registers, role and reset of `g'` allow no more than those of `g`. -/
structure Frame (g g' : DWC2GadgetState) : Prop where
  eases : Eases g.dwc2 g'.dwc2
  gadget : g'.gadget = g.gadget
  reset : g.reset_phase ≠ 0 → g'.reset_phase ≠ 0

/-- The packet of `g'` is the one of `g`, if there is one. -/
def Held (g g' : DWC2GadgetState) : Slot → Prop
  | .ctrl => g'.ctrl_p = none ∨ g.ctrl_p ≠ none ∧ g'.ctrl_phase = g.ctrl_phase
  | .data n in_ => g'.data_p n in_ = none ∨ g.data_p n in_ ≠ none

theorem Frame.refl (g : DWC2GadgetState) : Frame g g := ⟨Eases.refl _, rfl, id⟩

theorem Frame.trans (h : Frame g g') (h' : Frame g' g'') : Frame g g'' :=
  ⟨h.eases.trans h'.eases, h'.gadget.trans h.gadget, fun hr => h'.reset (h.reset hr)⟩

theorem Frame.role (h : Frame g g') : dwc2_is_host_role g'.dwc2 = dwc2_is_host_role g.dwc2 := by
  unfold dwc2_is_host_role
  rw [h.eases.gusbcfg, h.eases.gotgctl]

theorem Frame.running (h : Frame g g') : running g' = running g := by
  unfold Dwc2.running
  rw [h.gadget, h.role]

theorem Frame.stable (h : Frame g g') (hs : Stable g) : Stable g' := by
  intro hrole
  rw [h.role] at hrole
  have hcable : dwc2_cable_is_device g' = dwc2_cable_is_device g := by
    unfold dwc2_cable_is_device
    rw [h.gadget, h.eases.cable]
  rw [h.eases.gotgctl, hcable]
  exact hs hrole

theorem stalled_mono {s t : DWC2State} (h : ∀ n in_, EpEases s t n in_)
    (hs : ep0_stalled s = false) : ep0_stalled t = false := by
  unfold ep0_stalled at hs ⊢
  rw [Bool.or_eq_false_iff] at hs ⊢
  refine ⟨?_, ?_⟩
  · by_contra hne
    rw [(h 0 true).stall (by simpa using hne)] at hs
    exact Bool.noConfusion hs.1
  · by_contra hne
    rw [(h 0 false).stall (by simpa using hne)] at hs
    exact Bool.noConfusion hs.2

/-- What cannot move in `g` cannot move in `g'`. -/
theorem Settled.mono {x : Slot} (hep : ∀ n in_, EpEases g.dwc2 g'.dwc2 n in_)
    (hreset : g.reset_phase ≠ 0 → g'.reset_phase ≠ 0) (hx : Held g g' x) (h : Settled g x) :
    Settled g' x := by
  cases x with
  | ctrl =>
    rcases hx with hnone | ⟨hsome, hphase⟩
    · exact Or.inl hnone
    · refine Or.inr ?_
      have hc := h.resolve_left hsome
      unfold ctrl_settled at hc ⊢
      rw [hphase]
      cases hp : g.ctrl_phase with
      | DWC2_CTRL_SETUP =>
        simp only [hp] at hc ⊢
        refine hc.imp hreset fun hena => ?_
        by_contra hne
        rw [(hep 0 false).ena (by simpa using hne)] at hena
        cases hena
      | DWC2_CTRL_IDLE =>
        simp only [hp] at hc ⊢
        exact stalled_mono hep hc
      | DWC2_CTRL_DATA_IN | DWC2_CTRL_STATUS_IN | DWC2_CTRL_DATA_OUT | DWC2_CTRL_STATUS_OUT =>
        simp only [hp] at hc ⊢
        exact ⟨stalled_mono hep hc.1, (hep 0 _).idle hc.2⟩
  | data n in_ =>
    rcases hx with hnone | hsome
    · exact Or.inl hnone
    · obtain ⟨hstall, hidle⟩ := h.resolve_left hsome
      refine Or.inr ⟨?_, (hep n in_).idle hidle⟩
      by_contra hne
      rw [(hep n in_).stall (by simpa using hne)] at hstall
      cases hstall

theorem Calm.mono {x : Slot} (hf : Frame g g') (hx : Held g g' x) (h : Calm g x) : Calm g' x := by
  refine ⟨hf.stable h.stable, fun hr => ?_⟩
  rw [hf.running] at hr
  exact (h.settled hr).mono hf.eases.ep hf.reset hx

/-- No packet that could not move can move now. -/
structure Quiets (g g' : DWC2GadgetState) : Prop where
  stable : Stable g → Stable g'
  calm : ∀ x, Calm g x → Calm g' x

theorem Quiets.refl (g : DWC2GadgetState) : Quiets g g := ⟨id, fun _ => id⟩

theorem Quiets.trans (h : Quiets g g') (h' : Quiets g' g'') : Quiets g g'' :=
  ⟨fun hs => h'.stable (h.stable hs), fun x hx => h'.calm x (h.calm x hx)⟩

theorem Quiets.ite {c : Prop} [Decidable c] (h : Quiets g g') (h' : Quiets g g'') :
    Quiets g (if c then g' else g'') := by
  split
  · exact h
  · exact h'

theorem quiets_of_frame (hf : Frame g g') (hx : ∀ x, Held g g' x) : Quiets g g' :=
  ⟨hf.stable, fun x h => h.mono hf (hx x)⟩

/-- The completion unsettles no packet. -/
def Keeps (complete : Completion) : Prop := ∀ g p, Quiets g (complete g p)

/-! ## The control transfer -/

/-- A packet other than the control transfer's. -/
theorem held_data {x : Slot} (hx : x ≠ .ctrl) (hin : g'.in_p = g.in_p) (hout : g'.out_p = g.out_p) :
    Held g g' x := by
  cases x with
  | ctrl => exact absurd rfl hx
  | data n in_ =>
    have heq : g'.data_p n in_ = g.data_p n in_ := by
      unfold DWC2GadgetState.data_p
      rw [hin, hout]
    by_cases hd : g.data_p n in_ = none
    · exact Or.inl (heq.trans hd)
    · exact Or.inr hd

/-- The transfer is over before its packet is handed back. -/
theorem ctrl_complete_calm (hk : Keeps complete) (status : UsbRet) {x : Slot}
    (h : Stable g) (hx : x ≠ .ctrl → Calm g x) (hp : g.ctrl_p ≠ none) :
    Calm (dwc2_ctrl_complete complete g status) x := by
  unfold dwc2_ctrl_complete
  cases hc : g.ctrl_p with
  | none => exact absurd hc hp
  | some p =>
    dsimp only
    unfold usb_generic_async_ctrl_complete
    apply (hk _ _).calm
    by_cases hctrl : x = .ctrl
    · subst hctrl
      exact ⟨h, fun _ => Or.inl rfl⟩
    · have hf : Frame g g := Frame.refl g
      exact (hx hctrl).mono (g := g) ⟨hf.eases, rfl, id⟩ (held_data hctrl rfl rfl)

theorem ep0_mps_pos (s : DWC2State) (in_ : Bool) : 0 < dwc2_ep_mps s 0 in_ := by
  unfold dwc2_ep_mps
  rw [if_pos rfl]
  have hlt : ex D0EPCTL_MPS (dwc2_ep s 0 in_).ctl < 4 := ex_lt _
  generalize ex D0EPCTL_MPS (dwc2_ep s 0 in_).ctl = i at hlt
  have hall : ∀ i < 4, 0 < ep0_mps.getD i 0 := by decide
  exact hall i hlt

/-- The DMA access of a SETUP packet. -/
theorem setup_dma (s : DWC2State) (buf : List UInt8) :
    Eases s (dwc2_ep_dma s 0 false buf 8).1 := by
  have hacc := ep_dma_access s 0 false buf 8
  generalize dwc2_ep_dma s 0 false buf 8 = r at hacc
  cases hacc with
  | none h => exact Eases.refl s
  | ok t _ _ honly hep _ _ _ =>
    refine honly.eases ⟨(ep_idle_congr ?_ ?_ honly.dctl).mpr, ?_, ?_⟩
    all_goals rw [hep]
    · rfl
    · rfl
    · exact id
    · exact id
  | fail t _ _ honly hep _ _ _ =>
    refine honly.eases (epEases_disabled ?_ ?_)
    · rw [hep]
      exact on_clear _
    · rw [hep]
      exact on_clear_of_disjoint (by decide) _

/-- After a SETUP packet EP0 NAKs in both directions and does not stall. -/
theorem setup_delivered_ep (s : DWC2State) (in_ : Bool) :
    on DXEPCTL_NAKSTS (dwc2_ep (setup_delivered s) 0 in_).ctl = true ∧
      on DXEPCTL_STALL (dwc2_ep (setup_delivered s) 0 in_).ctl = false ∧
      (on DXEPCTL_EPENA (dwc2_ep (setup_delivered s) 0 in_).ctl = true →
        on DXEPCTL_EPENA (dwc2_ep s 0 in_).ctl = true) := by
  have hstall : Register.Disjoint DXEPCTL_NAKSTS DXEPCTL_STALL := by decide
  have hena : Register.Disjoint DXEPCTL_NAKSTS DXEPCTL_EPENA := by decide
  have hena' : Register.Disjoint DXEPCTL_STALL DXEPCTL_EPENA := by decide
  cases in_ with
  | true =>
    have hctl : (dwc2_ep (setup_delivered s) 0 true).ctl =
        raise DXEPCTL_NAKSTS (clear DXEPCTL_STALL (dwc2_ep s 0 true).ctl) := by
      unfold setup_delivered
      dsimp only
      rw [ep_set_ep]
      rfl
    rw [hctl]
    refine ⟨on_raise (by decide) _, ?_, ?_⟩
    · rw [on_raise_of_disjoint hstall, on_clear]
    · rw [on_raise_of_disjoint hena, on_clear_of_disjoint hena']
      exact id
  | false =>
    have hctl : (dwc2_ep (setup_delivered s) 0 false).ctl =
        raise DXEPCTL_NAKSTS (clear DXEPCTL_STALL (clear DXEPCTL_EPENA
          (dwc2_ep s 0 false).ctl)) := by
      unfold setup_delivered
      dsimp only
      rw [ep_set_ep_of_ne (by simp), ep_set_ep]
      unfold dwc2_tsiz_set
      rw [ep_set_ep]
    rw [hctl]
    refine ⟨on_raise (by decide) _, ?_, ?_⟩
    · rw [on_raise_of_disjoint hstall, on_clear]
    · rw [on_raise_of_disjoint hena, on_clear_of_disjoint hena', on_clear]
      exact fun h => Bool.noConfusion h

theorem setup_delivered_eases (s : DWC2State) : Eases s (setup_delivered s) := by
  refine ⟨fun n in_ => ?_, rfl, rfl, rfl⟩
  by_cases hn : n = 0
  · subst hn
    obtain ⟨hnak, hstall, hena⟩ := setup_delivered_ep s in_
    refine ⟨fun _ => Or.inl (blocked_of_nak hnak), ?_, hena⟩
    rw [hstall]
    exact fun h => Bool.noConfusion h
  · refine epEases_of_eq ?_ rfl
    unfold setup_delivered dwc2_tsiz_set
    dsimp only
    rw [ep_set_ep_of_ne (by simp [hn]), ep_set_ep_of_ne (by simp [hn]),
      ep_set_ep_of_ne (by simp [hn])]

/-! ## A stage of the control transfer -/

/-- The data stage ends with what is armed. -/
def StageEnds (g : DWC2GadgetState) (in_ : Bool) : Prop :=
  ep_blocked g.dwc2 0 in_ = false ∧
    ∃ k, EndsAt in_ (dwc2_ep_mps g.dwc2 0 in_) (ctrl_left g) (dwc2_tsiz_get g.dwc2 0 in_).2
      g.dwc2 (dwc2_tsiz_get g.dwc2 0 in_).1 0 k

/-- The data stage ends in this run, and the status stage, in the other direction,
    is armed already. -/
def StageArmed (g : DWC2GadgetState) : Prop :=
  running g = true ∧ g.ctrl_p ≠ none ∧ ep0_stalled g.dwc2 = false ∧
    (g.ctrl_phase = DWC2_CTRL_DATA_IN ∧ StageEnds g true ∧ ¬ ep_idle g.dwc2 0 false ∨
      g.ctrl_phase = DWC2_CTRL_DATA_OUT ∧ StageEnds g false ∧ ¬ ep_idle g.dwc2 0 true)

theorem call_done {s : DWC2State} {n size : Nat} {in_ : Bool} {data : List UInt8} {m : Moved}
    (hmps : 0 < dwc2_ep_mps s n in_) (h : Call s n in_ data size m) :
    (m.host_done = true ∧ m.babble = false) ↔ ep_blocked s n in_ = false ∧
      ∃ k, EndsAt in_ (dwc2_ep_mps s n in_) size (dwc2_tsiz_get s n in_).2 s
        (dwc2_tsiz_get s n in_).1 0 k := by
  cases h with
  | blocked hb => simp [hb]
  | failed m hb hturns _ => simpa [hb] using turns_done hmps hturns
  | ended m hb hturns _ => simpa [hb] using turns_done hmps hturns

/-- An OUT call does not babble. -/
theorem turns_out_babble {s : DWC2State} {n mps size pkt xfer moved : Nat} {in_ : Bool}
    {data : List UInt8} {packets : List (List UInt8)} {m : Moved}
    (h : Turns n in_ mps size data pkt s xfer moved packets m) :
    in_ = false → m.babble = false := by
  induction h with
  | used_up | fails | stops => exact fun _ => rfl
  | refused _ _ _ _ _ hin => exact fun hout => absurd (hin.symm.trans hout) (by decide)
  | goes_on _ _ _ _ _ _ _ _ _ _ _ _ _ _ _ ih => exact ih

theorem out_packets_babble (s : DWC2State) (n : Nat) (data : List UInt8) (remaining : Nat) :
    (dwc2_ep_out_packets s n data remaining).babble = false := by
  have hcall := out_packets_call s n data remaining
  generalize dwc2_ep_out_packets s n data remaining = m at hcall
  cases hcall with
  | blocked _ => rfl
  | failed m _ hturns _ => exact turns_out_babble hturns rfl
  | ended m _ hturns _ =>
    have hb : m.babble = false := turns_out_babble hturns rfl
    exact hb

/-- What a stage leaves: the transfer settled, with changes to the controller only, or
    the transfer completed after them. -/
inductive StageRun (complete : Completion) (g : DWC2GadgetState) : DWC2GadgetState → Prop where
  | settles (g' : DWC2GadgetState) : Frame g g' → g'.in_p = g.in_p → g'.out_p = g.out_p →
      ctrl_settled g' → StageRun complete g g'
  | completes (g' : DWC2GadgetState) (status : UsbRet) : Frame g g' → g'.in_p = g.in_p →
      g'.out_p = g.out_p → g'.ctrl_p = g.ctrl_p →
      StageRun complete g (dwc2_ctrl_complete complete g' status)

theorem StageRun.calm (h : StageRun complete g g') (hk : Keeps complete) {x : Slot}
    (hs : Stable g) (hx : x ≠ .ctrl → Calm g x) (hsome : g.ctrl_p ≠ none) : Calm g' x := by
  cases h with
  | settles _ hf hin hout hctrl =>
    by_cases hxc : x = .ctrl
    · subst hxc
      exact ⟨hf.stable hs, fun _ => Or.inr hctrl⟩
    · exact (hx hxc).mono hf (held_data hxc hin hout)
  | completes g' status hf hin hout hctrl =>
    refine ctrl_complete_calm hk status (hf.stable hs) (fun hxc => ?_) (by rwa [hctrl])
    exact (hx hxc).mono hf (held_data hxc hin hout)

/-- EP0 after a SETUP packet: the next stage is not armed. -/
theorem setup_delivered_settled (g : DWC2GadgetState) (s : DWC2State) :
    ctrl_settled { g with
      dwc2 := setup_delivered s
      ctrl_phase :=
        if g.ctrl_len = 0 then DWC2_CTRL_STATUS_IN
        else if g.setup_buf.getD 0 0 &&& 0x80 ≠ 0 then DWC2_CTRL_DATA_IN
        else DWC2_CTRL_DATA_OUT } := by
  have hns : ep0_stalled (setup_delivered s) = false := by
    unfold ep0_stalled
    rw [(setup_delivered_ep s true).2.1, (setup_delivered_ep s false).2.1]
    rfl
  have hidle : ∀ d, ep_idle (setup_delivered s) 0 d := fun d =>
    Or.inl (blocked_of_nak (setup_delivered_ep s d).1)
  unfold ctrl_settled
  dsimp only
  by_cases hlen : g.ctrl_len = 0
  · rw [if_pos hlen]
    exact ⟨hns, hidle true⟩
  rw [if_neg hlen]
  by_cases hdir : g.setup_buf.getD 0 0 &&& 0x80 ≠ 0
  · rw [if_pos hdir]
    exact ⟨hns, hidle true⟩
  · rw [if_neg hdir]
    exact ⟨hns, hidle false⟩

theorem setup_stage (hphase : g.ctrl_phase = DWC2_CTRL_SETUP) :
    StageRun complete g (ep0_stage complete g) := by
  unfold ep0_stage
  rw [hphase]
  dsimp only
  by_cases hreset : g.reset_phase ≠ 0
  · rw [if_pos hreset]
    refine .settles g (Frame.refl g) rfl rfl ?_
    unfold ctrl_settled
    rw [hphase]
    exact Or.inl hreset
  rw [if_neg hreset]
  by_cases hena : on DXEPCTL_EPENA (dwc2_ep g.dwc2 0 false).ctl = true
  · have hna : ¬ (!on DXEPCTL_EPENA (dwc2_ep g.dwc2 0 false).ctl) = true := by simp [hena]
    rw [if_neg hna]
    have hease := setup_dma g.dwc2 g.setup_buf
    generalize dwc2_ep_dma g.dwc2 0 false g.setup_buf 8 = r at hease
    obtain ⟨s, _ | bytes⟩ := r
    · exact .completes _ _ ⟨hease, rfl, id⟩ rfl rfl rfl
    · exact .settles _ ⟨hease.trans (setup_delivered_eases s), rfl, id⟩ rfl rfl
        (setup_delivered_settled g s)
  · have hna : (!on DXEPCTL_EPENA (dwc2_ep g.dwc2 0 false).ctl) = true := by simp [hena]
    rw [if_pos hna]
    refine .settles g (Frame.refl g) rfl rfl ?_
    unfold ctrl_settled
    rw [hphase]
    exact Or.inr (by simpa using hena)

/-- The data stage goes on, babbles, or ends where the status stage is not armed. -/
theorem data_in_stage (hphase : g.ctrl_phase = DWC2_CTRL_DATA_IN)
    (hns : ep0_stalled g.dwc2 = false) (hidle : StageEnds g true → ep_idle g.dwc2 0 false) :
    StageRun complete g (ep0_stage complete g) := by
  unfold ep0_stage
  rw [hphase]
  dsimp only
  have hcall := in_packets_call g.dwc2 0 (ctrl_left g)
  generalize dwc2_ep_in_packets g.dwc2 0 (ctrl_left g) = m at hcall
  have hease := call_eases hcall
  cases hb : m.babble with
  | true => exact .completes _ _ ⟨hease, rfl, id⟩ rfl rfl rfl
  | false =>
    cases hd : m.host_done with
    | true =>
      refine .settles _ ⟨hease, rfl, id⟩ rfl rfl ⟨stalled_mono hease.ep hns, ?_⟩
      apply (hease.ep 0 false).idle
      exact hidle ((call_done (ep0_mps_pos g.dwc2 true) hcall).mp ⟨hd, hb⟩)
    | false =>
      refine .settles _ ⟨hease, rfl, id⟩ rfl rfl ?_
      unfold ctrl_settled
      simp only [Bool.false_eq_true, if_false]
      exact ⟨stalled_mono hease.ep hns, call_idles hcall hd⟩

theorem data_out_stage (hphase : g.ctrl_phase = DWC2_CTRL_DATA_OUT)
    (hns : ep0_stalled g.dwc2 = false) (hidle : StageEnds g false → ep_idle g.dwc2 0 true) :
    StageRun complete g (ep0_stage complete g) := by
  unfold ep0_stage
  rw [hphase]
  dsimp only
  have hcall := out_packets_call g.dwc2 0 (g.data_buf.drop g.ctrl_done) (ctrl_left g)
  have hb := out_packets_babble g.dwc2 0 (g.data_buf.drop g.ctrl_done) (ctrl_left g)
  generalize dwc2_ep_out_packets g.dwc2 0 (g.data_buf.drop g.ctrl_done) (ctrl_left g) = m
    at hcall hb
  have hease := call_eases hcall
  cases hd : m.host_done with
  | true =>
    refine .settles _ ⟨hease, rfl, id⟩ rfl rfl ⟨stalled_mono hease.ep hns, ?_⟩
    apply (hease.ep 0 true).idle
    exact hidle ((call_done (ep0_mps_pos g.dwc2 false) hcall).mp ⟨hd, hb⟩)
  | false =>
    refine .settles _ ⟨hease, rfl, id⟩ rfl rfl ?_
    unfold ctrl_settled
    simp only [Bool.false_eq_true, if_false]
    exact ⟨stalled_mono hease.ep hns, call_idles hcall hd⟩

theorem status_in_stage (hphase : g.ctrl_phase = DWC2_CTRL_STATUS_IN)
    (hns : ep0_stalled g.dwc2 = false) : StageRun complete g (ep0_stage complete g) := by
  unfold ep0_stage
  rw [hphase]
  dsimp only
  have hcall := in_packets_call g.dwc2 0 0
  generalize dwc2_ep_in_packets g.dwc2 0 0 = m at hcall
  have hease := call_eases hcall
  cases hd : m.host_done with
  | true => exact .completes _ _ ⟨hease, rfl, id⟩ rfl rfl rfl
  | false =>
    refine .settles _ ⟨hease, rfl, id⟩ rfl rfl ?_
    unfold ctrl_settled
    simp only [Bool.false_eq_true, if_false]
    exact ⟨stalled_mono hease.ep hns, call_idles hcall hd⟩

theorem status_out_stage (hphase : g.ctrl_phase = DWC2_CTRL_STATUS_OUT)
    (hns : ep0_stalled g.dwc2 = false) : StageRun complete g (ep0_stage complete g) := by
  unfold ep0_stage
  rw [hphase]
  dsimp only
  have hcall := out_packets_call g.dwc2 0 [] 0
  generalize dwc2_ep_out_packets g.dwc2 0 [] 0 = m at hcall
  have hease := call_eases hcall
  cases hd : m.host_done with
  | true => exact .completes _ _ ⟨hease, rfl, id⟩ rfl rfl rfl
  | false =>
    refine .settles _ ⟨hease, rfl, id⟩ rfl rfl ?_
    unfold ctrl_settled
    simp only [Bool.false_eq_true, if_false]
    exact ⟨stalled_mono hease.ep hns, call_idles hcall hd⟩

/-- Any stage, but for one whose successor is armed already. -/
theorem stage_runs (hrun : running g = true) (hsome : g.ctrl_p ≠ none)
    (hstall : g.ctrl_phase ≠ DWC2_CTRL_SETUP → ep0_stalled g.dwc2 = false)
    (harmed : ¬ StageArmed g) : StageRun complete g (ep0_stage complete g) := by
  cases hphase : g.ctrl_phase with
  | DWC2_CTRL_SETUP => exact setup_stage hphase
  | DWC2_CTRL_DATA_IN =>
    have hns := hstall (by simp [hphase])
    refine data_in_stage hphase hns fun hends => ?_
    by_contra hidle
    exact harmed ⟨hrun, hsome, hns, Or.inl ⟨hphase, hends, hidle⟩⟩
  | DWC2_CTRL_DATA_OUT =>
    have hns := hstall (by simp [hphase])
    refine data_out_stage hphase hns fun hends => ?_
    by_contra hidle
    exact harmed ⟨hrun, hsome, hns, Or.inr ⟨hphase, hends, hidle⟩⟩
  | DWC2_CTRL_STATUS_IN => exact status_in_stage hphase (hstall (by simp [hphase]))
  | DWC2_CTRL_STATUS_OUT => exact status_out_stage hphase (hstall (by simp [hphase]))
  | DWC2_CTRL_IDLE =>
    have hsame : ep0_stage complete g = g := by
      unfold ep0_stage
      rw [hphase]
    rw [hsame]
    refine .settles g (Frame.refl g) rfl rfl ?_
    unfold ctrl_settled
    rw [hphase]
    exact hstall (by simp [hphase])

/-- The run's step on EP0 settles the control transfer, but for a stage that is
    armed already. -/
theorem ep0_run_calm (hk : Keeps complete) {x : Slot} (hs : Stable g)
    (hx : x ≠ .ctrl → Calm g x) (hrun : running g = true) (harmed : ¬ StageArmed g) :
    Calm (dwc2_ep0_run complete g) x := by
  unfold dwc2_ep0_run
  by_cases hp : g.ctrl_p.isNone = true
  · -- there is no transfer
    rw [if_pos hp]
    by_cases hxc : x = .ctrl
    · subst hxc
      exact ⟨hs, fun _ => Or.inl (by simpa using hp)⟩
    · exact hx hxc
  rw [if_neg hp]
  have hsome : g.ctrl_p ≠ none := by simpa using hp
  by_cases hstall : g.ctrl_phase ≠ DWC2_CTRL_SETUP ∧ ep0_stalled g.dwc2 = true
  · rw [if_pos hstall]
    exact ctrl_complete_calm hk _ hs hx hsome
  rw [if_neg hstall]
  refine (stage_runs hrun hsome (fun hphase => ?_) harmed).calm hk hs hx hsome
  by_contra hne
  exact hstall ⟨hphase, by simpa using hne⟩

/-! ## Data endpoints -/

/-- The host's IN packet after a call. -/
def in_packet (p : USBPacket) (m : Moved) : USBPacket :=
  let p := usb_packet_copy p m.packets.flatten
  if m.babble then { p with status := .babble } else p

/-- What `dwc2_ep_in_run` can do. -/
inductive InRun (g : DWC2GadgetState) (n : Nat) (p : USBPacket) :
    DWC2GadgetState × Bool → Prop where
  | stalled : on DXEPCTL_STALL (dwc2_ep g.dwc2 n true).ctl = true →
      InRun g n p (g.set_in n (some { p with status := .stall }), true)
  | waits : on DXEPCTL_STALL (dwc2_ep g.dwc2 n true).ctl = false →
      ep_blocked g.dwc2 n true = true → InRun g n p (g, false)
  | moves (m : Moved) : on DXEPCTL_STALL (dwc2_ep g.dwc2 n true).ctl = false →
      m = dwc2_ep_in_packets g.dwc2 n (room_left p p.actual_length) →
      InRun g n p
        (({ g with dwc2 := m.s } : DWC2GadgetState).set_in n (some (in_packet p m)), m.host_done)

theorem blocked_of_not_armed {s : DWC2State} {n : Nat} {in_ : Bool}
    (h : dwc2_ep_armed s n in_ = false) : ep_blocked s n in_ = true := by
  unfold dwc2_ep_armed at h
  simp only [Bool.and_eq_false_iff, Bool.not_eq_false'] at h
  rcases h with hena | hnak
  · exact blocked_of_disabled hena
  · exact blocked_of_nak hnak

theorem ep_in_run_cases (g : DWC2GadgetState) (n : Nat) (p : USBPacket) :
    InRun g n p (dwc2_ep_in_run g n p) := by
  unfold dwc2_ep_in_run
  dsimp only
  by_cases hstall : on DXEPCTL_STALL (dwc2_ep g.dwc2 n true).ctl = true
  · rw [if_pos hstall]
    exact .stalled hstall
  rw [if_neg hstall]
  have hns : on DXEPCTL_STALL (dwc2_ep g.dwc2 n true).ctl = false := by simpa using hstall
  cases harmed : dwc2_ep_armed g.dwc2 n true with
  | false => exact .waits hns (blocked_of_not_armed harmed)
  | true => exact .moves _ hns rfl

/-- What `dwc2_ep_out_run` can do. -/
inductive OutRun (g : DWC2GadgetState) (n : Nat) (p : USBPacket) :
    DWC2GadgetState × Bool → Prop where
  | stalled : on DXEPCTL_STALL (dwc2_ep g.dwc2 n false).ctl = true →
      OutRun g n p (g.set_out n (some { p with status := .stall }), true)
  | waits : on DXEPCTL_STALL (dwc2_ep g.dwc2 n false).ctl = false →
      ep_blocked g.dwc2 n false = true → OutRun g n p (g, false)
  | moves (m : Moved) : on DXEPCTL_STALL (dwc2_ep g.dwc2 n false).ctl = false →
      m = dwc2_ep_out_packets g.dwc2 n
        ((p.iov.drop (g.out_off n)).take
          (min (p.iov.length - g.out_off n) (dwc2_tsiz_get g.dwc2 n false).1))
        (room_left p (g.out_off n)) →
      OutRun g n p
        (({ g with
            dwc2 := m.s
            out_off := Function.update g.out_off n ((g.out_off n + m.moved) % 2 ^ 32) } :
            DWC2GadgetState).set_out n
          (some (if m.host_done then { p with actual_length := p.iov.length } else p)),
          m.host_done)

theorem ep_out_run_cases (g : DWC2GadgetState) (n : Nat) (p : USBPacket) :
    OutRun g n p (dwc2_ep_out_run g n p) := by
  unfold dwc2_ep_out_run
  dsimp only
  by_cases hstall : on DXEPCTL_STALL (dwc2_ep g.dwc2 n false).ctl = true
  · rw [if_pos hstall]
    exact .stalled hstall
  rw [if_neg hstall]
  have hns : on DXEPCTL_STALL (dwc2_ep g.dwc2 n false).ctl = false := by simpa using hstall
  cases harmed : dwc2_ep_armed g.dwc2 n false with
  | false => exact .waits hns (blocked_of_not_armed harmed)
  | true => exact .moves _ hns rfl

theorem data_set_in (g : DWC2GadgetState) (n k : Nat) (p : Option USBPacket) (d : Bool) :
    (g.set_in n p).data_p k d = if k = n ∧ d = true then p else g.data_p k d := by
  unfold DWC2GadgetState.set_in DWC2GadgetState.data_p
  cases d with
  | true =>
    by_cases hk : k = n
    · simp [hk]
    · simp [hk]
  | false => simp

theorem data_set_out (g : DWC2GadgetState) (n k : Nat) (p : Option USBPacket) (d : Bool) :
    (g.set_out n p).data_p k d = if k = n ∧ d = false then p else g.data_p k d := by
  unfold DWC2GadgetState.set_out DWC2GadgetState.data_p
  cases d with
  | true => simp
  | false =>
    by_cases hk : k = n
    · simp [hk]
    · simp [hk]

/-- The pointer of a packet that ran, in either direction. -/
def DWC2GadgetState.set_data (g : DWC2GadgetState) (n : Nat) (in_ : Bool) (p : Option USBPacket) :
    DWC2GadgetState :=
  if in_ then g.set_in n p else g.set_out n p

theorem data_set_data (g : DWC2GadgetState) (n k : Nat) (in_ d : Bool) (p : Option USBPacket) :
    (g.set_data n in_ p).data_p k d = if k = n ∧ d = in_ then p else g.data_p k d := by
  unfold DWC2GadgetState.set_data
  cases in_ with
  | true => exact data_set_in g n k p d
  | false => exact data_set_out g n k p d

/-- What a call for one packet leaves: nothing more to do anywhere, the other
    packets as they were, and this one settled if it is not finished. -/
structure Ran (g : DWC2GadgetState) (n : Nat) (in_ : Bool) (r : DWC2GadgetState × Bool) : Prop where
  frame : Frame g r.1
  ctrl : r.1.ctrl_p = g.ctrl_p ∧ r.1.ctrl_phase = g.ctrl_phase
  others : ∀ k d, ¬ (k = n ∧ d = in_) → r.1.data_p k d = g.data_p k d
  settled : r.2 = false → on DXEPCTL_STALL (dwc2_ep r.1.dwc2 n in_).ctl = false ∧
    ep_idle r.1.dwc2 n in_

theorem Eases.no_stall {s t : DWC2State} {n : Nat} {in_ : Bool} (h : Eases s t)
    (hs : on DXEPCTL_STALL (dwc2_ep s n in_).ctl = false) :
    on DXEPCTL_STALL (dwc2_ep t n in_).ctl = false := by
  by_contra hne
  rw [(h.ep n in_).stall (by simpa using hne)] at hs
  cases hs

theorem in_run_ran (g : DWC2GadgetState) (n : Nat) (p : USBPacket) :
    Ran g n true (dwc2_ep_in_run g n p) := by
  have hothers : ∀ q k d, ¬ (k = n ∧ d = true) → (g.set_in n q).data_p k d = g.data_p k d := by
    intro q k d hk
    rw [data_set_in, if_neg hk]
  have h := ep_in_run_cases g n p
  generalize dwc2_ep_in_run g n p = r at h
  cases h with
  | stalled _ =>
    exact ⟨⟨Eases.refl _, rfl, id⟩, ⟨rfl, rfl⟩, hothers _, fun h => Bool.noConfusion h⟩
  | waits hns hb => exact ⟨Frame.refl g, ⟨rfl, rfl⟩, fun _ _ _ => rfl, fun _ => ⟨hns, Or.inl hb⟩⟩
  | moves m hns hm =>
    have hcall := in_packets_call g.dwc2 n (room_left p p.actual_length)
    rw [← hm] at hcall
    have hease := call_eases hcall
    exact ⟨⟨hease, rfl, id⟩, ⟨rfl, rfl⟩, hothers _,
      fun hd => ⟨hease.no_stall hns, call_idles hcall hd⟩⟩

theorem out_run_ran (g : DWC2GadgetState) (n : Nat) (p : USBPacket) :
    Ran g n false (dwc2_ep_out_run g n p) := by
  have hothers : ∀ q k d, ¬ (k = n ∧ d = false) → (g.set_out n q).data_p k d = g.data_p k d := by
    intro q k d hk
    rw [data_set_out, if_neg hk]
  have h := ep_out_run_cases g n p
  generalize dwc2_ep_out_run g n p = r at h
  cases h with
  | stalled _ =>
    exact ⟨⟨Eases.refl _, rfl, id⟩, ⟨rfl, rfl⟩, hothers _, fun h => Bool.noConfusion h⟩
  | waits hns hb => exact ⟨Frame.refl g, ⟨rfl, rfl⟩, fun _ _ _ => rfl, fun _ => ⟨hns, Or.inl hb⟩⟩
  | moves m hns hm =>
    have hcall := out_packets_call g.dwc2 n
      ((p.iov.drop (g.out_off n)).take
        (min (p.iov.length - g.out_off n) (dwc2_tsiz_get g.dwc2 n false).1))
      (room_left p (g.out_off n))
    rw [← hm] at hcall
    have hease := call_eases hcall
    exact ⟨⟨hease, rfl, id⟩, ⟨rfl, rfl⟩, hothers _,
      fun hd => ⟨hease.no_stall hns, call_idles hcall hd⟩⟩

/-- A packet that runs is there still. -/
theorem in_run_held (g : DWC2GadgetState) (n : Nat) (p : USBPacket) (hp : g.in_p n ≠ none) :
    (dwc2_ep_in_run g n p).1.data_p n true ≠ none := by
  have h := ep_in_run_cases g n p
  generalize dwc2_ep_in_run g n p = r at h
  cases h with
  | stalled _ | moves _ _ _ =>
    rw [data_set_in, if_pos ⟨rfl, rfl⟩]
    exact Option.some_ne_none _
  | waits _ _ => exact hp

theorem out_run_held (g : DWC2GadgetState) (n : Nat) (p : USBPacket) (hp : g.out_p n ≠ none) :
    (dwc2_ep_out_run g n p).1.data_p n false ≠ none := by
  have h := ep_out_run_cases g n p
  generalize dwc2_ep_out_run g n p = r at h
  cases h with
  | stalled _ | moves _ _ _ =>
    rw [data_set_out, if_pos ⟨rfl, rfl⟩]
    exact Option.some_ne_none _
  | waits _ _ => exact hp

/-- Settled packets but the one that ran. -/
theorem Ran.calm {n : Nat} {in_ : Bool} {r : DWC2GadgetState × Bool} {x : Slot}
    (h : Ran g n in_ r) (hx : x ≠ .data n in_) (hc : Calm g x) : Calm r.1 x := by
  refine hc.mono h.frame ?_
  cases x with
  | ctrl =>
    by_cases hp : g.ctrl_p = none
    · exact Or.inl (h.ctrl.1.trans hp)
    · exact Or.inr ⟨hp, h.ctrl.2⟩
  | data k d =>
    have hk : ¬ (k = n ∧ d = in_) := by
      rintro ⟨rfl, rfl⟩
      exact hx rfl
    by_cases hp : g.data_p k d = none
    · exact Or.inl ((h.others k d hk).trans hp)
    · exact Or.inr hp

/-- The packet is not there any more. -/
theorem calm_dropped {n : Nat} {in_ : Bool} (hs : Stable g) : Calm (g.set_data n in_ none)
    (.data n in_) := by
  have hstable : Stable (g.set_data n in_ none) := by
    cases in_ with
    | true => exact hs
    | false => exact hs
  refine ⟨hstable, fun _ => Or.inl ?_⟩
  rw [data_set_data, if_pos ⟨rfl, rfl⟩]

/-- Another packet's pointer is set. -/
theorem calm_set {n : Nat} {in_ : Bool} {q : Option USBPacket} {x : Slot} (hx : x ≠ .data n in_)
    (hc : Calm g x) : Calm (g.set_data n in_ q) x := by
  have hf : Frame g (g.set_data n in_ q) := by
    cases in_ with
    | true => exact ⟨Eases.refl _, rfl, id⟩
    | false => exact ⟨Eases.refl _, rfl, id⟩
  have hctrl : (g.set_data n in_ q).ctrl_p = g.ctrl_p ∧
      (g.set_data n in_ q).ctrl_phase = g.ctrl_phase := by
    cases in_ with
    | true => exact ⟨rfl, rfl⟩
    | false => exact ⟨rfl, rfl⟩
  have hran : Ran g n in_ (g.set_data n in_ q, true) :=
    ⟨hf, hctrl, fun k d hk => by rw [data_set_data, if_neg hk], fun h => Bool.noConfusion h⟩
  exact hran.calm hx hc

/-- The packet is not finished, and waits. -/
theorem Ran.calm_self {n : Nat} {in_ : Bool} {r : DWC2GadgetState × Bool} (h : Ran g n in_ r)
    (hs : Stable g) (hr : r.2 = false) : Calm r.1 (.data n in_) :=
  ⟨h.frame.stable hs, fun _ => Or.inr (h.settled hr)⟩

/-- The run's step on an endpoint, for one direction: `ran` is the call for its
    packet. -/
theorem run_data_calm (hk : Keeps complete) {n : Nat} {in_ : Bool} {x : Slot} (hs : Stable g)
    (hx : x ≠ .data n in_ → Calm g x) {r : DWC2GadgetState × Bool} (hr : Ran g n in_ r)
    (q : USBPacket) :
    Calm (if r.2 then dwc2_gadget_packet_done complete (r.1.set_data n in_ none) q else r.1) x := by
  cases hd : r.2 with
  | true =>
    rw [if_pos rfl]
    unfold dwc2_gadget_packet_done
    apply (hk _ _).calm
    by_cases hxd : x = .data n in_
    · subst hxd
      exact calm_dropped (hr.frame.stable hs)
    · exact calm_set hxd (hr.calm hxd (hx hxd))
  | false =>
    rw [if_neg (by decide)]
    by_cases hxd : x = .data n in_
    · subst hxd
      exact hr.calm_self hs hd
    · exact hr.calm hxd (hx hxd)

theorem run_in_calm (hk : Keeps complete) {n : Nat} {x : Slot} (hs : Stable g)
    (hx : x ≠ .data n true → Calm g x) : Calm (run_in complete g n) x := by
  unfold run_in
  cases hp : g.in_p n with
  | none =>
    dsimp only
    by_cases hxd : x = .data n true
    · subst hxd
      exact ⟨hs, fun _ => Or.inl hp⟩
    · exact hx hxd
  | some p =>
    dsimp only
    have h := run_data_calm hk hs hx (in_run_ran g n p)
      (((dwc2_ep_in_run g n p).1.in_p n).getD p)
    generalize dwc2_ep_in_run g n p = r at h
    obtain ⟨g', _ | _⟩ := r
    · exact h
    · exact h

theorem run_out_calm (hk : Keeps complete) {n : Nat} {x : Slot} (hs : Stable g)
    (hx : x ≠ .data n false → Calm g x) : Calm (run_out complete g n) x := by
  unfold run_out
  cases hp : g.out_p n with
  | none =>
    dsimp only
    by_cases hxd : x = .data n false
    · subst hxd
      exact ⟨hs, fun _ => Or.inl hp⟩
    · exact hx hxd
  | some p =>
    dsimp only
    have h := run_data_calm hk hs hx (out_run_ran g n p)
      (((dwc2_ep_out_run g n p).1.out_p n).getD p)
    generalize dwc2_ep_out_run g n p = r at h
    obtain ⟨g', _ | _⟩ := r
    · exact h
    · exact h

/-! ## A run -/

theorem run_eps_calm (hk : Keeps complete) {x : Slot} (l : List Nat) :
    ∀ g, Stable g → ((∀ n ∈ l, ∀ d, x ≠ .data n d) → Calm g x) →
      Stable (l.foldl (fun g n => run_out complete (run_in complete g n) n) g) ∧
        Calm (l.foldl (fun g n => run_out complete (run_in complete g n) n) g) x := by
  induction l with
  | nil =>
    intro g hs hx
    exact ⟨hs, hx (by simp)⟩
  | cons n l ih =>
    intro g hs hx
    have hin : Stable (run_in complete g n) :=
      (run_in_calm hk (x := .data n true) hs fun h => absurd rfl h).stable
    have hout : Stable (run_out complete (run_in complete g n) n) :=
      (run_out_calm hk (x := .data n false) hin fun h => absurd rfl h).stable
    refine ih _ hout fun hl => run_out_calm hk hin fun hxo => run_in_calm hk hs fun hxi => hx ?_
    intro k hkl d
    rcases List.mem_cons.mp hkl with rfl | hkl
    · cases d with
      | true => exact hxi
      | false => exact hxo
    · exact hl k hkl d

theorem update_irq_frame (g : DWC2GadgetState) : Frame g g.update_irq :=
  ⟨eases_update_irq g.dwc2, rfl, id⟩

/-- The pointers are as they were. -/
theorem held_of_eq {x : Slot} (hctrl : g'.ctrl_p = g.ctrl_p) (hphase : g'.ctrl_phase = g.ctrl_phase)
    (hin : g'.in_p = g.in_p) (hout : g'.out_p = g.out_p) : Held g g' x := by
  cases x with
  | ctrl =>
    by_cases hp : g.ctrl_p = none
    · exact Or.inl (hctrl.trans hp)
    · exact Or.inr ⟨hp, hphase⟩
  | data n d => exact held_data (by simp) hin hout

/-- A run settles the packets that it looks at, and unsettles none. -/
theorem device_run_calm (hk : Keeps complete) {x : Slot} (hs : Stable g)
    (hx : x ≠ .ctrl → (∀ n ∈ List.range' 1 (DWC2_NB_EP - 1), ∀ d, x ≠ .data n d) → Calm g x)
    (harmed : ¬ StageArmed g) : Calm (dwc2_device_run complete g) x := by
  unfold dwc2_device_run
  by_cases hrun : running g = true
  · have hneg : ¬ (!g.gadget || dwc2_is_host_role g.dwc2) = true := by
      unfold running at hrun
      simpa using hrun
    rw [if_neg hneg]
    have hstable : Stable (dwc2_ep0_run complete g) :=
      (ep0_run_calm hk (x := .ctrl) hs (fun h => absurd rfl h) hrun harmed).stable
    have hloop := (run_eps_calm hk (x := x) (List.range' 1 (DWC2_NB_EP - 1)) _ hstable
      fun hl => ep0_run_calm hk hs (fun hxc => hx hxc hl) hrun harmed).2
    exact hloop.mono (update_irq_frame _) (held_of_eq rfl rfl rfl rfl)
  · have hpos : (!g.gadget || dwc2_is_host_role g.dwc2) = true := by
      unfold running at hrun
      cases hg : g.gadget with
      | false => rfl
      | true => simpa [hg] using hrun
    rw [if_pos hpos]
    exact ⟨hs, fun h => absurd h hrun⟩

/-! ## The host -/

theorem fail_packet_quiets (hk : Keeps complete) (g : DWC2GadgetState) (p : Option USBPacket) :
    Quiets g (fail_packet complete g p) := by
  cases p with
  | none => exact Quiets.refl g
  | some p => exact hk g _

/-- Pointers are dropped. -/
theorem quiets_dropped (hdwc2 : g'.dwc2 = g.dwc2) (hgadget : g'.gadget = g.gadget)
    (hreset : g'.reset_phase = g.reset_phase)
    (hctrl : g'.ctrl_p = none ∨ g'.ctrl_p = g.ctrl_p ∧ g'.ctrl_phase = g.ctrl_phase)
    (hdata : ∀ n d, g.data_p n d = none → g'.data_p n d = none) : Quiets g g' := by
  refine quiets_of_frame ⟨?_, hgadget, ?_⟩ fun x => ?_
  · rw [hdwc2]
    exact Eases.refl _
  · rw [hreset]
    exact id
  · cases x with
    | ctrl =>
      rcases hctrl with hnone | ⟨hp, hphase⟩
      · exact Or.inl hnone
      · by_cases hg : g.ctrl_p = none
        · exact Or.inl (hp.trans hg)
        · exact Or.inr ⟨hg, hphase⟩
    | data n d =>
      by_cases hp : g.data_p n d = none
      · exact Or.inl (hdata n d hp)
      · exact Or.inr hp

theorem ctrl_complete_quiets (hk : Keeps complete) (g : DWC2GadgetState) (status : UsbRet) :
    Quiets g (dwc2_ctrl_complete complete g status) := by
  unfold dwc2_ctrl_complete
  cases g.ctrl_p with
  | none => exact Quiets.refl g
  | some p =>
    refine Quiets.trans ?_ (hk _ _)
    exact quiets_dropped rfl rfl rfl (Or.inl rfl) fun _ _ h => h

theorem fail_packets_quiets (hk : Keeps complete) (g : DWC2GadgetState) :
    Quiets g (dwc2_gadget_fail_packets complete g) := by
  unfold dwc2_gadget_fail_packets
  have hloop : ∀ (l : List Nat) (g : DWC2GadgetState), Quiets g (l.foldl (fun g n =>
      fail_packet complete (fail_packet complete ((g.set_in n none).set_out n none) (g.in_p n))
        (g.out_p n)) g) := by
    intro l
    induction l with
    | nil => exact Quiets.refl
    | cons n l ih =>
      intro g
      have hdrop : Quiets g ((g.set_in n none).set_out n none) := by
        refine quiets_dropped rfl rfl rfl (Or.inr ⟨rfl, rfl⟩) fun k d hp => ?_
        rw [data_set_out, data_set_in]
        split
        · rfl
        · split
          · rfl
          · exact hp
      exact ((hdrop.trans (fail_packet_quiets hk _ _)).trans (fail_packet_quiets hk _ _)).trans
        (ih _)
  refine Quiets.trans ?_ (hloop _ _)
  split
  · exact ctrl_complete_quiets hk g .ioerror
  · exact Quiets.refl g

theorem handle_reset_quiets (hk : Keeps complete) (g : DWC2GadgetState) :
    Quiets g (dwc2_gadget_handle_reset complete g) := by
  unfold dwc2_gadget_handle_reset
  split
  · exact Quiets.refl g
  · refine (fail_packets_quiets hk g).trans ?_
    generalize dwc2_gadget_fail_packets complete g = g'
    have hwake : Eases g'.dwc2 (if on DSTS_SUSPSTS g'.dwc2.dsts then
        dwc2_set_gintsts { g'.dwc2 with dsts := clear DSTS_SUSPSTS g'.dwc2.dsts }
          GINTSTS_WKUPINT true
      else g'.dwc2) := by
      refine Eases.ite ?_ (Eases.refl _)
      exact eases_of_same rfl rfl rfl rfl rfl rfl
    exact quiets_of_frame ⟨hwake.trans (eases_set_gintsts _ _ _), rfl, fun _ => Nat.one_ne_zero⟩
      fun x => held_of_eq rfl rfl rfl rfl

/-- The session's CONID bit is the cable's. -/
theorem session_conid (g : DWC2GadgetState) (v : Nat) :
    on GOTGCTL_CONID_B (session_bits g v) = dwc2_cable_is_device g := by
  have ha : Register.Disjoint GOTGCTL_ASESVLD GOTGCTL_CONID_B := by decide
  have hb : Register.Disjoint GOTGCTL_BSESVLD GOTGCTL_CONID_B := by decide
  unfold session_bits
  cases hc : dwc2_cable_is_device g with
  | false =>
    simp only [Bool.not_false, if_true]
    rw [on_raise_of_disjoint hb, on_raise_of_disjoint ha, on_clear_of_disjoint hb,
      on_clear_of_disjoint ha, on_clear]
  | true =>
    simp only [Bool.not_true, Bool.false_eq_true, if_false]
    have hraise : ∀ v, on GOTGCTL_CONID_B (raise GOTGCTL_CONID_B v) = true :=
      on_raise (by decide)
    cases dwc2_vbus g with
    | false =>
      rw [if_neg (by decide)]
      exact hraise _
    | true => rw [if_pos rfl, on_raise_of_disjoint hb, on_raise_of_disjoint ha, hraise]

/-- The interrupts of a change of session leave the endpoints and the role. -/
theorem session_events_keep (s : DWC2State) (old : Nat) :
    (session_events s old).iepreg = s.iepreg ∧ (session_events s old).oepreg = s.oepreg ∧
      (session_events s old).dctl = s.dctl ∧ (session_events s old).gusbcfg = s.gusbcfg ∧
      (session_events s old).gotgctl = s.gotgctl ∧
      (session_events s old).otg_cable = s.otg_cable := by
  unfold session_events dwc2_set_gintsts
  dsimp only
  refine ⟨?_, ?_, ?_, ?_, ?_, ?_⟩ <;> split_ifs <;> rfl

/-- A session that follows the cable: a host role stays one. -/
theorem quiets_session (hin : g'.dwc2.iepreg = g.dwc2.iepreg)
    (hout : g'.dwc2.oepreg = g.dwc2.oepreg) (hdctl : g'.dwc2.dctl = g.dwc2.dctl)
    (hcfg : g'.dwc2.gusbcfg = g.dwc2.gusbcfg) (hcable : g'.dwc2.otg_cable = g.dwc2.otg_cable)
    (hconid : on GOTGCTL_CONID_B g'.dwc2.gotgctl = dwc2_cable_is_device g')
    (hgadget : g'.gadget = g.gadget) (hreset : g'.reset_phase = g.reset_phase)
    (hheld : ∀ x, Held g g' x) : Quiets g g' := by
  have hsame : dwc2_cable_is_device g' = dwc2_cable_is_device g := by
    unfold dwc2_cable_is_device
    rw [hgadget, hcable]
  refine ⟨fun _ _ => hconid, fun x hx => ⟨fun _ => hconid, fun hr => ?_⟩⟩
  have hrun : running g = true := by
    have hstable := hx.stable
    unfold Stable dwc2_is_host_role at hstable
    unfold running dwc2_is_host_role at hr ⊢
    rw [hcfg, hgadget, hconid, hsame] at hr
    by_cases hhost : on GUSBCFG_FORCEHOSTMODE g.dwc2.gusbcfg = true
    · simp [hhost] at hr
    by_cases hdev : on GUSBCFG_FORCEDEVMODE g.dwc2.gusbcfg = true
    · simpa [hhost, hdev] using hr
    · simp only [hhost, hdev, Bool.false_eq_true, if_false, Bool.not_eq_true'] at hr hstable ⊢
      cases hon : on GOTGCTL_CONID_B g.dwc2.gotgctl with
      | true => simpa using (Bool.and_eq_true_iff.mp hr).1
      | false =>
        rw [← hstable hon, hon] at hr
        simp at hr
  refine (hx.settled hrun).mono (fun n d => epEases_of_eq ?_ hdctl) ?_ (hheld x)
  · unfold dwc2_ep
    rw [hin, hout]
  · rw [hreset]
    exact id

/-- The controller after `dwc2_session_apply`. -/
def session_applied (g : DWC2GadgetState) (events : Bool) : DWC2State :=
  if events then
    session_events { g.dwc2 with gotgctl := session_bits g g.dwc2.gotgctl } g.dwc2.gotgctl
  else { g.dwc2 with gotgctl := session_bits g g.dwc2.gotgctl }

theorem session_apply_eq (g : DWC2GadgetState) (events : Bool) :
    dwc2_session_apply g events = { g with
      dwc2 := session_applied g events
      connect_bh := g.gadget || g.connect_bh } := by
  unfold dwc2_session_apply dwc2_device_update_connection
  dsimp only
  cases hg : g.gadget with
  | false => rfl
  | true => rfl

theorem session_applied_keeps (g : DWC2GadgetState) (events : Bool) :
    (session_applied g events).iepreg = g.dwc2.iepreg ∧
      (session_applied g events).oepreg = g.dwc2.oepreg ∧
      (session_applied g events).dctl = g.dwc2.dctl ∧
      (session_applied g events).gusbcfg = g.dwc2.gusbcfg ∧
      (session_applied g events).gotgctl = session_bits g g.dwc2.gotgctl ∧
      (session_applied g events).otg_cable = g.dwc2.otg_cable := by
  unfold session_applied
  split
  · exact session_events_keep _ _
  · exact ⟨rfl, rfl, rfl, rfl, rfl, rfl⟩

theorem session_apply_quiets (g : DWC2GadgetState) (events : Bool) :
    Quiets g (dwc2_session_apply g events) := by
  rw [session_apply_eq]
  obtain ⟨hin, hout, hdctl, hcfg, hgotg, hcable⟩ := session_applied_keeps g events
  refine quiets_session hin hout hdctl hcfg hcable ?_ rfl rfl fun x => held_of_eq rfl rfl rfl rfl
  dsimp only
  rw [hgotg, session_conid]
  unfold dwc2_cable_is_device
  dsimp only
  rw [hcable]

theorem vbus_changed_quiets (g : DWC2GadgetState) :
    Quiets g (dwc2_gadget_vbus_changed g) := by
  unfold dwc2_gadget_vbus_changed
  split
  · exact session_apply_quiets g true
  · exact Quiets.refl g

theorem cancel_quiets (g : DWC2GadgetState) (id : Nat) :
    Quiets g (dwc2_gadget_cancel_packet g id) := by
  have hdrop : ∀ q : Option USBPacket, q = none → drop_packet id q = none := by
    rintro _ rfl
    rfl
  have hdata : ∀ g' : DWC2GadgetState,
      g'.in_p = (fun n => if n < DWC2_NB_EP then drop_packet id (g.in_p n) else g.in_p n) →
      g'.out_p = (fun n => if n < DWC2_NB_EP then drop_packet id (g.out_p n) else g.out_p n) →
      ∀ n d, g.data_p n d = none → g'.data_p n d = none := by
    intro g' hin hout n d hp
    unfold DWC2GadgetState.data_p at hp ⊢
    rw [hin, hout]
    cases d with
    | true =>
      have hp' : g.in_p n = none := hp
      simp [hp', hdrop]
    | false =>
      have hp' : g.out_p n = none := hp
      simp [hp', hdrop]
  unfold dwc2_gadget_cancel_packet
  split
  · exact quiets_dropped rfl rfl rfl (Or.inl rfl) (hdata _ rfl rfl)
  · exact quiets_dropped rfl rfl rfl (Or.inr ⟨rfl, rfl⟩) (hdata _ rfl rfl)

theorem handle_control_quiets (hk : Keeps complete) (g : DWC2GadgetState) (p : USBPacket)
    (length : Nat) : Quiets g (dwc2_gadget_handle_control complete g p length) := by
  unfold dwc2_gadget_handle_control
  have hfirst :
      Quiets g (if g.ctrl_p.isSome then dwc2_ctrl_complete complete g .ioerror else g) := by
    split
    · exact ctrl_complete_quiets hk g .ioerror
    · exact Quiets.refl g
  refine hfirst.trans ?_
  generalize (if g.ctrl_p.isSome then dwc2_ctrl_complete complete g .ioerror else g) = g'
  dsimp only
  -- a SETUP is not a data stage, so the run settles it
  have hrun : ∀ x, Stable g' → (x ≠ .ctrl → Calm g' x) → Calm (dwc2_device_run complete
      { g' with
        ctrl_p := some { p with status := .async }
        ctrl_len := length
        ctrl_done := 0
        ctrl_phase := DWC2_CTRL_SETUP }) x := by
    intro x hs hx
    refine device_run_calm hk hs (fun hxc _ => ?_) ?_
    · exact (hx hxc).mono (g := g') ⟨Eases.refl _, rfl, id⟩ (held_data hxc rfl rfl)
    · rintro ⟨_, _, _, ⟨hphase, _⟩ | ⟨hphase, _⟩⟩
      · cases hphase
      · cases hphase
  exact ⟨fun hs => (hrun .ctrl hs fun h => absurd rfl h).stable,
    fun x hx => hrun x hx.stable fun _ => hx⟩

/-- The registers of an endpoint, with an interrupt raised. -/
theorem eases_set_int (s : DWC2State) (n : Nat) (in_ : Bool) (int : Nat) :
    Eases s (s.set_ep n in_ { dwc2_ep s n in_ with int := int }) := by
  refine (only_set_ep s n in_ _).eases ⟨(ep_idle_congr ?_ ?_ ?_).mpr, ?_, ?_⟩
  · rw [ep_set_ep]
  · rw [ep_set_ep]
  · exact (only_set_ep s n in_ _).dctl
  all_goals
    rw [ep_set_ep]
    exact id

theorem handle_iso_quiets (g : DWC2GadgetState) (p : USBPacket) (n : Nat) (in_ : Bool) :
    Quiets g (dwc2_gadget_handle_iso g p n in_).1 := by
  have hquiets : ∀ s, Eases g.dwc2 s → Quiets g { g with dwc2 := dwc2_device_update_irq s } :=
    fun s hs => quiets_of_frame ⟨hs.trans (eases_update_irq s), rfl, id⟩
      fun x => held_of_eq rfl rfl rfl rfl
  unfold dwc2_gadget_handle_iso
  cases in_ with
  | true =>
    have hcall := in_packets_call g.dwc2 n (p.iov.length % 2 ^ 32)
    dsimp only
    generalize dwc2_ep_in_packets g.dwc2 n (p.iov.length % 2 ^ 32) = m at hcall
    apply hquiets
    exact ((call_eases hcall).trans (eases_set_int m.s n true _)).ite (call_eases hcall)
  | false =>
    apply hquiets
    have htoken : Eases g.dwc2 (if on DXEPCTL_EPENA (dwc2_ep g.dwc2 n false).ctl then g.dwc2
        else g.dwc2.set_ep n false { dwc2_ep g.dwc2 n false with
          int := raise DXEPINT_OUTTKNEPDIS (dwc2_ep g.dwc2 n false).int }) :=
      (Eases.refl _).ite (eases_set_int _ _ _ _)
    exact htoken.trans (call_eases (out_packets_call _ n p.iov (p.iov.length % 2 ^ 32)))

/-- A packet that runs as it is handed over: it is answered, or waits and is
    settled. -/
theorem handed_over_quiets {n : Nat} {in_ : Bool} {q : USBPacket} {r : DWC2GadgetState × Bool}
    (hran : Ran (g.set_data n in_ (some q)) n in_ r) (hheld : r.2 = false → r.1.data_p n in_ ≠ none)
    (q' : USBPacket) :
    Quiets g (if r.2 then r.1.update_irq.set_data n in_ none
      else r.1.update_irq.set_data n in_ (some q')) := by
  have hstable : Stable g → Stable r.1.update_irq := by
    intro hs
    have hset : Stable (g.set_data n in_ (some q)) := by
      cases in_ with
      | true => exact hs
      | false => exact hs
    exact (update_irq_frame _).stable (hran.frame.stable hset)
  have hother : ∀ x, x ≠ .data n in_ → Calm g x → Calm r.1.update_irq x := by
    intro x hx hc
    exact (hran.calm hx (calm_set hx hc)).mono (update_irq_frame _) (held_of_eq rfl rfl rfl rfl)
  cases hd : r.2 with
  | true =>
    rw [if_pos rfl]
    refine ⟨fun hs => (calm_dropped (hstable hs)).stable, fun x hx => ?_⟩
    by_cases hxd : x = .data n in_
    · subst hxd
      exact calm_dropped (hstable hx.stable)
    · exact calm_set hxd (hother x hxd hx)
  | false =>
    rw [if_neg (by decide)]
    have hself : ∀ hs : Stable r.1.update_irq,
        Calm (r.1.update_irq.set_data n in_ (some q')) (.data n in_) := by
      intro hs
      have hsettled := hran.settled hd
      cases in_ with
      | true =>
        refine Calm.mono (g := r.1.update_irq) ⟨Eases.refl _, rfl, id⟩ (Or.inr (hheld hd))
          ⟨hs, fun _ => Or.inr ⟨hsettled.1, ((eases_update_irq _).ep n true).idle hsettled.2⟩⟩
      | false =>
        refine Calm.mono (g := r.1.update_irq) ⟨Eases.refl _, rfl, id⟩ (Or.inr (hheld hd))
          ⟨hs, fun _ => Or.inr ⟨hsettled.1, ((eases_update_irq _).ep n false).idle hsettled.2⟩⟩
    refine ⟨fun hs => (hself (hstable hs)).stable, fun x hx => ?_⟩
    by_cases hxd : x = .data n in_
    · subst hxd
      exact hself (hstable hx.stable)
    · exact calm_set hxd (hother x hxd hx)

theorem handle_data_quiets (g : DWC2GadgetState) (p : USBPacket) :
    Quiets g (dwc2_gadget_handle_data g p).1 := by
  unfold dwc2_gadget_handle_data
  dsimp only
  by_cases hn : DWC2_NB_EP ≤ p.nr
  · rw [if_pos hn]
    exact Quiets.refl g
  rw [if_neg hn]
  by_cases hstall : (!on DXEPCTL_USBACTEP (dwc2_ep g.dwc2 p.nr p.in_).ctl ||
      on DXEPCTL_STALL (dwc2_ep g.dwc2 p.nr p.in_).ctl) = true
  · rw [if_pos hstall]
    exact Quiets.refl g
  rw [if_neg hstall]
  by_cases hiso : ex DXEPCTL_EPTYPE (dwc2_ep g.dwc2 p.nr p.in_).ctl = DXEPCTL_EPTYPE_ISO
  · rw [if_pos hiso]
    exact handle_iso_quiets g p p.nr p.in_
  rw [if_neg hiso]
  by_cases hin : p.in_ = true
  · rw [if_pos hin]
    generalize hq : ({ p with status := UsbRet.success } : USBPacket) = q
    have hran : Ran (g.set_data p.nr true (some q)) p.nr true _ :=
      in_run_ran (g.set_in p.nr (some q)) p.nr q
    have hheld := in_run_held (g.set_in p.nr (some q)) p.nr q (by simp [DWC2GadgetState.set_in])
    generalize dwc2_ep_in_run (g.set_in p.nr (some q)) p.nr q = r at hran hheld
    have hquiets := handed_over_quiets hran (fun _ => hheld)
      { (r.1.update_irq.in_p p.nr).getD q with status := .async }
    obtain ⟨g', _ | _⟩ := r
    · exact hquiets
    · exact hquiets
  · rw [if_neg hin]
    generalize hq : ({ p with status := UsbRet.success } : USBPacket) = q
    generalize hg0 : ({ g with out_off := Function.update g.out_off p.nr 0 } : DWC2GadgetState) = g0
    have hfirst : Quiets g g0 := by
      rw [← hg0]
      exact quiets_dropped rfl rfl rfl (Or.inr ⟨rfl, rfl⟩) fun _ _ h => h
    refine hfirst.trans ?_
    have hran : Ran (g0.set_data p.nr false (some q)) p.nr false _ :=
      out_run_ran (g0.set_out p.nr (some q)) p.nr q
    have hheld := out_run_held (g0.set_out p.nr (some q)) p.nr q (by simp [DWC2GadgetState.set_out])
    generalize dwc2_ep_out_run (g0.set_out p.nr (some q)) p.nr q = r at hran hheld
    have hquiets := handed_over_quiets hran (fun _ => hheld)
      { (r.1.update_irq.out_p p.nr).getD q with status := .async }
    obtain ⟨g', _ | _⟩ := r
    · exact hquiets
    · exact hquiets

/-! ## Depth -/

theorem act_quiets (hk : Keeps complete) (g : DWC2GadgetState) (a : HostAct) :
    Quiets g (act complete g a) := by
  -- what the core notes for itself
  have hnote : ∀ (g : DWC2GadgetState) (l : List Nat), Quiets g { g with pending := l } :=
    fun g l => quiets_dropped rfl rfl rfl (Or.inr ⟨rfl, rfl⟩) fun _ _ h => h
  cases a with
  | control p setup data =>
    unfold act
    dsimp only
    split
    · have hbuf : Quiets g { g with
          setup_buf := setup
          data_buf := splice g.data_buf 0 (data.take (setup_length setup)) } :=
        quiets_dropped rfl rfl rfl (Or.inr ⟨rfl, rfl⟩) fun _ _ h => h
      have hq := hbuf.trans (handle_control_quiets hk _ p (setup_length setup))
      generalize dwc2_gadget_handle_control complete { g with
          setup_buf := setup
          data_buf := splice g.data_buf 0 (data.take (setup_length setup)) } p
        (setup_length setup) = g' at hq ⊢
      split
      · exact hq.trans (hnote _ _)
      · exact hq
    · exact Quiets.refl g
  | data p =>
    unfold act
    refine Quiets.ite ?_ (Quiets.refl g)
    have hq := handle_data_quiets g p
    generalize dwc2_gadget_handle_data g p = r at hq
    obtain ⟨g', p'⟩ := r
    exact Quiets.ite (hq.trans (hnote g' _)) hq
  | cancel id =>
    unfold act
    dsimp only
    split
    · exact (hnote g _).trans (cancel_quiets _ id)
    · exact Quiets.refl g
  | bus_reset => exact handle_reset_quiets hk g
  | vbus val =>
    unfold act
    dsimp only
    split
    · exact Quiets.refl g
    · have hport : Quiets g { g with port_vbus := val } :=
        quiets_dropped rfl rfl rfl (Or.inr ⟨rfl, rfl⟩) fun _ _ h => h
      exact hport.trans (vbus_changed_quiets _)
  | ret => exact Quiets.refl g

theorem acts_quiets (hk : Keeps complete) (k : Nat) (g : DWC2GadgetState) :
    Quiets g (acts complete k g) := by
  have hscript : ∀ (g : DWC2GadgetState) (l : List HostAct), Quiets g { g with script := l } :=
    fun g l => quiets_dropped rfl rfl rfl (Or.inr ⟨rfl, rfl⟩) fun _ _ h => h
  induction k generalizing g with
  | zero => exact Quiets.refl g
  | succ k ih =>
    unfold acts
    split
    · exact Quiets.refl g
    · exact hscript g _
    · exact ((hscript g _).trans (act_quiets hk _ _)).trans (ih _)

/-- A completion unsettles no packet, whatever the host does in it. -/
theorem complete_quiets (depth : Nat) : Keeps (usb_packet_complete depth) := by
  have hnote : ∀ (g : DWC2GadgetState) (p : USBPacket), Quiets g { g with
      pending := g.pending.filter (· != p.id)
      completed := g.completed ++ [p] } :=
    fun g p => quiets_dropped rfl rfl rfl (Or.inr ⟨rfl, rfl⟩) fun _ _ h => h
  have habort : ∀ g : DWC2GadgetState, Quiets g { g with aborted := true } :=
    fun g => quiets_dropped rfl rfl rfl (Or.inr ⟨rfl, rfl⟩) fun _ _ h => h
  induction depth with
  | zero =>
    intro g p
    unfold usb_packet_complete
    split
    · exact hnote g p
    · exact habort g
  | succ depth ih =>
    intro g p
    unfold usb_packet_complete
    split
    · exact (hnote g p).trans (acts_quiets ih _ _)
    · exact habort g

end Dwc2
