import RpiQemu.Dwc2.Babble
import RpiQemu.Dwc2.Quiescent
import RpiQemu.Framework.Run

/-! # The stages of a control transfer

    EP0 takes a control transfer through its stages, from register writes, timers and
    the host's calls, and any of them may end the transfer and hand the host a chance
    to start another from inside the call.

    * **One stage** (`ep0_stage_staged`): a data stage moves no more than is left of
      the transfer, inside the device's buffer.
    * **Runs** (`stages_hold`): the gadget holds a control packet exactly while it is
      in a stage, and the progress of the data stage stays within the transfer and the
      transfer within the buffer. -/

namespace Dwc2

open Register
open Usbip (UsbRet)
open DWC2CtrlPhase

variable {g g' : DWC2GadgetState} {complete : Completion}

/-- The control transfer in progress. -/
structure Staged (g : DWC2GadgetState) : Prop where
  held : g.ctrl_p.isSome = true ↔ g.ctrl_phase ≠ DWC2_CTRL_IDLE
  done : g.ctrl_done ≤ g.ctrl_len
  len : g.ctrl_len ≤ DATA_BUF_SIZE
  buf : g.data_buf.length = DATA_BUF_SIZE

/-- Nothing of the control transfer changed. -/
structure SameStages (g g' : DWC2GadgetState) : Prop where
  p : g'.ctrl_p = g.ctrl_p
  phase : g'.ctrl_phase = g.ctrl_phase
  done : g'.ctrl_done = g.ctrl_done
  len : g'.ctrl_len = g.ctrl_len
  buf : g'.data_buf = g.data_buf

theorem Staged.congr (h : Staged g) (hs : SameStages g g') : Staged g' where
  held := by
    rw [hs.p, hs.phase]
    exact h.held
  done := by
    rw [hs.done, hs.len]
    exact h.done
  len := by
    rw [hs.len]
    exact h.len
  buf := by
    rw [hs.buf]
    exact h.buf

theorem Staged.ite {c : Prop} [Decidable c] (h : Staged g) (h' : Staged g') :
    Staged (if c then g else g') := by
  split
  · exact h
  · exact h'

/-- The completion keeps the stages. -/
def KeepsStages (complete : Completion) : Prop := ∀ g p, Staged g → Staged (complete g p)

/-! ## One stage -/

theorem turns_moved_le {n mps size xfer pkt moved : Nat} {in_ : Bool} {data : List UInt8}
    {s : DWC2State} {packets : List (List UInt8)} {m : Moved}
    (h : Turns n in_ mps size data pkt s xfer moved packets m) (hmoved : moved ≤ size) :
    m.moved ≤ size := by
  induction h with
  | used_up | refused | fails => exact hmoved
  | stops pkt s t xfer moved c packets bytes hc hfit hacc hstop =>
    dsimp only
    omega
  | goes_on pkt s t xfer moved c packets bytes m hc hfit hacc hfull hmore _ ih =>
    exact ih (by omega)

theorem call_moved_le {s : DWC2State} {n size : Nat} {in_ : Bool} {data : List UInt8} {m : Moved}
    (h : Call s n in_ data size m) : m.moved ≤ size := by
  cases h with
  | blocked _ => exact Nat.zero_le _
  | failed m _ h _ => exact turns_moved_le h (Nat.zero_le _)
  | ended m _ h _ =>
    have hmoved := turns_moved_le h (Nat.zero_le _)
    exact hmoved

theorem splice_length {buf bytes : List UInt8} {off : Nat}
    (h : off + bytes.length ≤ buf.length) : (splice buf off bytes).length = buf.length := by
  unfold splice
  rw [List.length_append, List.length_append, List.length_take, List.length_drop]
  omega

/-- What is left of the data stage does not wrap. -/
theorem Staged.left (h : Staged g) : ctrl_left g = g.ctrl_len - g.ctrl_done := by
  have hdone := h.done
  have hlen := h.len
  unfold DATA_BUF_SIZE at hlen
  unfold ctrl_left
  omega

/-- The data stage moved some bytes. -/
theorem Staged.advance (h : Staged g) {moved : Nat} (hmoved : moved ≤ ctrl_left g) :
    (g.ctrl_done + moved) % 2 ^ 32 = g.ctrl_done + moved ∧ g.ctrl_done + moved ≤ g.ctrl_len := by
  have hdone := h.done
  have hlen := h.len
  rw [h.left] at hmoved
  unfold DATA_BUF_SIZE at hlen
  exact ⟨Nat.mod_eq_of_lt (by omega), by omega⟩

theorem ctrl_complete_staged (hk : KeepsStages complete) (h : Staged g) (status : UsbRet) :
    Staged (dwc2_ctrl_complete complete g status) := by
  unfold dwc2_ctrl_complete
  cases g.ctrl_p with
  | none => exact h
  | some p =>
    apply hk
    exact ⟨by simp, h.done, h.len, h.buf⟩

theorem Staged.regs (h : Staged g) (s : DWC2State) : Staged { g with dwc2 := s } :=
  h.congr ⟨rfl, rfl, rfl, rfl, rfl⟩

/-- The stage that the transfer goes to, with its packet still held. -/
theorem Staged.next (h : Staged g) (hp : g.ctrl_p.isSome = true) {phase : DWC2CtrlPhase}
    (hphase : phase ≠ DWC2_CTRL_IDLE) (s : DWC2State) :
    Staged { g with dwc2 := s, ctrl_phase := phase } :=
  ⟨⟨fun _ => hphase, fun _ => hp⟩, h.done, h.len, h.buf⟩

theorem ep0_stage_staged (hk : KeepsStages complete) (h : Staged g)
    (hp : g.ctrl_p.isSome = true) : Staged (ep0_stage complete g) := by
  unfold ep0_stage
  cases g.ctrl_phase with
  | DWC2_CTRL_SETUP =>
    dsimp only
    apply Staged.ite h
    apply Staged.ite h
    generalize dwc2_ep_dma g.dwc2 0 false g.setup_buf 8 = r
    obtain ⟨s, _ | bytes⟩ := r
    -- a SETUP that cannot be written fails the transfer
    · exact ctrl_complete_staged hk (h.next hp (by decide) s) _
    · refine h.next hp ?_ (setup_delivered s)
      split_ifs <;> decide
  | DWC2_CTRL_DATA_IN =>
    dsimp only
    -- the bytes that arrive are those counted, and no more than are left
    have hsent := (in_packets_sent g.dwc2 0 (ctrl_left g)).bytes
    obtain ⟨hmod, hle⟩ := h.advance (call_moved_le (in_packets_call g.dwc2 0 (ctrl_left g)))
    generalize dwc2_ep_in_packets g.dwc2 0 (ctrl_left g) = m at hsent hmod hle
    have hlen := h.len
    have hmoved : ∀ phase, phase ≠ DWC2_CTRL_IDLE → Staged { g with
        dwc2 := m.s
        data_buf := splice g.data_buf g.ctrl_done m.packets.flatten
        ctrl_done := (g.ctrl_done + m.moved) % 2 ^ 32
        ctrl_phase := phase } := by
      intro phase hphase
      refine ⟨⟨fun _ => hphase, fun _ => hp⟩, ?_, h.len, ?_⟩
      · dsimp only
        rw [hmod]
        exact hle
      -- and they land inside the buffer
      · have hbuf := h.buf
        exact (splice_length (by rw [hsent, hbuf]; omega)).trans hbuf
    apply Staged.ite (ctrl_complete_staged hk (hmoved _ (by decide)) _)
    exact Staged.ite (hmoved _ (by decide)) (hmoved _ (by decide))
  | DWC2_CTRL_DATA_OUT =>
    dsimp only
    obtain ⟨hmod, hle⟩ := h.advance (call_moved_le
      (out_packets_call g.dwc2 0 (g.data_buf.drop g.ctrl_done) (ctrl_left g)))
    generalize dwc2_ep_out_packets g.dwc2 0 (g.data_buf.drop g.ctrl_done) (ctrl_left g) = m
      at hmod hle
    have hmoved : ∀ phase, phase ≠ DWC2_CTRL_IDLE → Staged { g with
        dwc2 := m.s
        ctrl_done := (g.ctrl_done + m.moved) % 2 ^ 32
        ctrl_phase := phase } := by
      intro phase hphase
      refine ⟨⟨fun _ => hphase, fun _ => hp⟩, ?_, h.len, h.buf⟩
      dsimp only
      rw [hmod]
      exact hle
    exact Staged.ite (hmoved _ (by decide)) (hmoved _ (by decide))
  | DWC2_CTRL_STATUS_IN =>
    dsimp only
    exact Staged.ite (ctrl_complete_staged hk (h.next hp (by decide) _) _)
      (h.next hp (by decide) _)
  | DWC2_CTRL_STATUS_OUT =>
    dsimp only
    exact Staged.ite (ctrl_complete_staged hk (h.next hp (by decide) _) _)
      (h.next hp (by decide) _)
  | DWC2_CTRL_IDLE => exact h

theorem ep0_run_staged (hk : KeepsStages complete) (h : Staged g) :
    Staged (dwc2_ep0_run complete g) := by
  unfold dwc2_ep0_run
  split
  · exact h
  · next hsome =>
    have hp : g.ctrl_p.isSome = true := by
      cases hc : g.ctrl_p with
      | none => exact absurd (by rw [hc]; rfl) hsome
      | some p => rfl
    exact Staged.ite (ctrl_complete_staged hk h _) (ep0_stage_staged hk h hp)

/-! ## The endpoints and the host -/

theorem foldl_staged {α : Type} {f : DWC2GadgetState → α → DWC2GadgetState}
    (hf : ∀ g a, Staged g → Staged (f g a)) (l : List α) (h : Staged g) :
    Staged (l.foldl f g) := by
  induction l generalizing g with
  | nil => exact h
  | cons a l ih => exact ih (hf g a h)

theorem in_run_same (g : DWC2GadgetState) (n : Nat) (p : USBPacket) :
    SameStages g (dwc2_ep_in_run g n p).1 := by
  have hrun := ep_in_run_cases g n p
  generalize dwc2_ep_in_run g n p = r at hrun
  cases hrun with
  | stalled _ | waits _ _ | moves m _ _ => exact ⟨rfl, rfl, rfl, rfl, rfl⟩

theorem out_run_same (g : DWC2GadgetState) (n : Nat) (p : USBPacket) :
    SameStages g (dwc2_ep_out_run g n p).1 := by
  have hrun := ep_out_run_cases g n p
  generalize dwc2_ep_out_run g n p = r at hrun
  cases hrun with
  | stalled _ | waits _ _ | moves m _ _ => exact ⟨rfl, rfl, rfl, rfl, rfl⟩

theorem run_in_staged (hk : KeepsStages complete) (h : Staged g) (n : Nat) :
    Staged (run_in complete g n) := by
  unfold run_in
  cases g.in_p n with
  | none => exact h
  | some p =>
    have hrun := h.congr (in_run_same g n p)
    dsimp only
    generalize dwc2_ep_in_run g n p = r at hrun
    obtain ⟨g', _ | _⟩ := r
    -- the packet is taken off the endpoint before the core may act
    · exact hrun
    · exact hk _ _ ⟨hrun.held, hrun.done, hrun.len, hrun.buf⟩

theorem run_out_staged (hk : KeepsStages complete) (h : Staged g) (n : Nat) :
    Staged (run_out complete g n) := by
  unfold run_out
  cases g.out_p n with
  | none => exact h
  | some p =>
    have hrun := h.congr (out_run_same g n p)
    dsimp only
    generalize dwc2_ep_out_run g n p = r at hrun
    obtain ⟨g', _ | _⟩ := r
    · exact hrun
    · exact hk _ _ ⟨hrun.held, hrun.done, hrun.len, hrun.buf⟩

theorem device_run_staged (hk : KeepsStages complete) (h : Staged g) :
    Staged (dwc2_device_run complete g) := by
  unfold dwc2_device_run
  apply Staged.ite h
  have hrun := foldl_staged
    (fun g n (h : Staged g) => run_out_staged hk (run_in_staged hk h n) n)
    (List.range' 1 (DWC2_NB_EP - 1)) (ep0_run_staged hk h)
  exact hrun.congr ⟨rfl, rfl, rfl, rfl, rfl⟩

theorem fail_packets_staged (hk : KeepsStages complete) (h : Staged g) :
    Staged (dwc2_gadget_fail_packets complete g) := by
  unfold dwc2_gadget_fail_packets
  have hfail : ∀ (g : DWC2GadgetState) (q : Option USBPacket), Staged g →
      Staged (fail_packet complete g q) := by
    intro g q h
    cases q with
    | none => exact h
    | some p => exact hk _ _ h
  apply foldl_staged _ _ (Staged.ite (ctrl_complete_staged hk h _) h)
  intro g n h
  exact hfail _ _ (hfail _ _ ⟨h.held, h.done, h.len, h.buf⟩)

theorem handle_reset_staged (hk : KeepsStages complete) (h : Staged g) :
    Staged (dwc2_gadget_handle_reset complete g) := by
  unfold dwc2_gadget_handle_reset
  apply Staged.ite h
  exact (fail_packets_staged hk h).congr ⟨rfl, rfl, rfl, rfl, rfl⟩

theorem handle_control_staged (hk : KeepsStages complete) (h : Staged g) (p : USBPacket)
    {length : Nat} (hlen : length ≤ DATA_BUF_SIZE) :
    Staged (dwc2_gadget_handle_control complete g p length) := by
  have hsetup : DWC2_CTRL_SETUP ≠ DWC2_CTRL_IDLE := by decide
  have hfirst : Staged (if g.ctrl_p.isSome then dwc2_ctrl_complete complete g .ioerror else g) :=
    Staged.ite (ctrl_complete_staged hk h _) h
  unfold dwc2_gadget_handle_control
  -- the transfer it supersedes is gone, whatever the host did from inside its completion
  apply device_run_staged hk
  exact ⟨⟨fun _ => hsetup, fun _ => rfl⟩, Nat.zero_le _, hlen, hfirst.buf⟩

theorem handle_iso_staged (h : Staged g) (p : USBPacket) (n : Nat) (in_ : Bool) :
    Staged (dwc2_gadget_handle_iso g p n in_).1 := by
  unfold dwc2_gadget_handle_iso
  cases in_ with
  | true => exact h.regs _
  | false => exact h.regs _

theorem handle_data_staged (h : Staged g) (p : USBPacket) :
    Staged (dwc2_gadget_handle_data g p).1 := by
  unfold dwc2_gadget_handle_data
  dsimp only
  split
  · exact h
  split
  · exact h
  split
  · exact handle_iso_staged h p _ _
  split
  · have hset : Staged (g.set_in p.nr (some { p with status := .success })) :=
      h.congr ⟨rfl, rfl, rfl, rfl, rfl⟩
    have hrun := hset.congr (in_run_same _ p.nr { p with status := .success })
    split
    all_goals exact hrun.congr ⟨rfl, rfl, rfl, rfl, rfl⟩
  · have hset : Staged (({ g with out_off := Function.update g.out_off p.nr 0 } :
        DWC2GadgetState).set_out p.nr (some { p with status := .success })) :=
      h.congr ⟨rfl, rfl, rfl, rfl, rfl⟩
    have hrun := hset.congr (out_run_same _ p.nr { p with status := .success })
    split
    all_goals exact hrun.congr ⟨rfl, rfl, rfl, rfl, rfl⟩

/-- A control transfer that is cancelled leaves no stage. -/
theorem cancel_staged (h : Staged g) (id : Nat) : Staged (dwc2_gadget_cancel_packet g id) := by
  unfold dwc2_gadget_cancel_packet
  dsimp only
  split
  · exact ⟨by simp, h.done, h.len, h.buf⟩
  · exact h.congr ⟨rfl, rfl, rfl, rfl, rfl⟩

theorem update_connection_staged (h : Staged g) : Staged (dwc2_device_update_connection g) := by
  unfold dwc2_device_update_connection
  exact Staged.ite (h.congr ⟨rfl, rfl, rfl, rfl, rfl⟩) h

theorem session_apply_staged (h : Staged g) (events : Bool) :
    Staged (dwc2_session_apply g events) := by
  unfold dwc2_session_apply
  exact update_connection_staged (h.regs _)

theorem act_staged (hk : KeepsStages complete) (h : Staged g) (a : HostAct) :
    Staged (act complete g a) := by
  cases a with
  | control p setup data =>
    unfold act
    dsimp only
    split
    · next hok =>
      have hlen : setup_length setup ≤ DATA_BUF_SIZE := by
        rw [Bool.and_eq_true, decide_eq_true_eq] at hok
        exact hok.2.2
      -- what the host sends fits the device's buffer
      have hbuf : Staged { g with
          setup_buf := setup
          data_buf := splice g.data_buf 0 (data.take (setup_length setup)) } := by
        have hbuf := h.buf
        refine ⟨h.held, h.done, h.len, (splice_length ?_).trans hbuf⟩
        rw [List.length_take, hbuf]
        omega
      have hs := handle_control_staged hk hbuf p hlen
      generalize dwc2_gadget_handle_control complete { g with
          setup_buf := setup
          data_buf := splice g.data_buf 0 (data.take (setup_length setup)) } p
        (setup_length setup) = g' at hs ⊢
      split
      · exact hs.congr ⟨rfl, rfl, rfl, rfl, rfl⟩
      · exact hs
    · exact h
  | data p =>
    unfold act
    refine Staged.ite ?_ h
    have hs := handle_data_staged h p
    generalize dwc2_gadget_handle_data g p = r at hs
    obtain ⟨g', p'⟩ := r
    exact Staged.ite (hs.congr ⟨rfl, rfl, rfl, rfl, rfl⟩) hs
  | cancel id =>
    unfold act
    dsimp only
    split
    · have hnote : Staged { g with pending := g.pending.filter (· != id) } :=
        h.congr ⟨rfl, rfl, rfl, rfl, rfl⟩
      exact cancel_staged hnote id
    · exact h
  | bus_reset => exact handle_reset_staged hk h
  | vbus val =>
    unfold act dwc2_gadget_vbus_changed
    have hport : Staged { g with port_vbus := val } := h.congr ⟨rfl, rfl, rfl, rfl, rfl⟩
    exact Staged.ite h (Staged.ite (session_apply_staged hport true) hport)
  | ret => exact h

theorem acts_staged (hk : KeepsStages complete) (k : Nat) (h : Staged g) :
    Staged (acts complete k g) := by
  induction k generalizing g with
  | zero => exact h
  | succ k ih =>
    unfold acts
    have hrest : ∀ rest, Staged { g with script := rest } := fun rest =>
      h.congr ⟨rfl, rfl, rfl, rfl, rfl⟩
    split
    · exact h
    · exact hrest _
    · exact ih (act_staged hk (hrest _) _)

/-- However deep the host acts from inside its acts. -/
theorem complete_staged (depth : Nat) : KeepsStages (usb_packet_complete depth) := by
  induction depth with
  | zero =>
    intro g p h
    exact Staged.ite (h.congr ⟨rfl, rfl, rfl, rfl, rfl⟩) (h.congr ⟨rfl, rfl, rfl, rfl, rfl⟩)
  | succ depth ih =>
    intro g p h
    exact Staged.ite (acts_staged ih _ (h.congr ⟨rfl, rfl, rfl, rfl, rfl⟩))
      (h.congr ⟨rfl, rfl, rfl, rfl, rfl⟩)

/-! ## Steps -/

theorem ep_store_staged (h : Staged g) (n : Nat) (in_ : Bool) (word val : Nat) :
    Staged (ep_store g n in_ word val) := by
  have hctl : Staged (dwc2_epctl_write g n in_ val) := by
    unfold dwc2_epctl_write
    dsimp only
    split
    all_goals exact h.congr ⟨rfl, rfl, rfl, rfl, rfl⟩
  unfold ep_store
  exact Staged.ite hctl (Staged.ite (h.regs _) (Staged.ite (h.regs _) (Staged.ite (h.regs _) h)))

theorem dreg_write_staged (hk : KeepsStages complete) (h : Staged g) (addr val : Nat) :
    Staged (dwc2_dreg_write complete g addr val) := by
  -- every write ends with a run of the endpoints
  have hend : ∀ {g' : DWC2GadgetState}, Staged g' → Staged (dreg_written complete g') :=
    fun h' => (device_run_staged hk h').congr ⟨rfl, rfl, rfl, rfl, rfl⟩
  have hdctl : Staged (dwc2_dctl_write g val) := by
    unfold dwc2_dctl_write
    exact Staged.ite (update_connection_staged (h.regs _)) (h.regs _)
  unfold dwc2_dreg_write
  apply Staged.ite (hend (Staged.ite hdctl (Staged.ite h (h.regs _))))
  exact Staged.ite (Staged.ite h (hend (ep_store_staged h _ _ _ _))) (hend h)

theorem gusbcfg_write_staged (hk : KeepsStages complete) (h : Staged g) (val : Nat) :
    Staged (gusbcfg_write complete g val) := by
  unfold gusbcfg_write
  exact Staged.ite (device_run_staged hk (update_connection_staged (h.regs _))) (h.regs _)

theorem reset_timer_staged (hk : KeepsStages complete) (h : Staged g) :
    Staged (dwc2_gadget_reset_timer complete g) := by
  unfold dwc2_gadget_reset_timer
  dsimp only
  split
  · exact h.congr ⟨rfl, rfl, rfl, rfl, rfl⟩
  split
  · exact h.congr ⟨rfl, rfl, rfl, rfl, rfl⟩
  · exact device_run_staged hk (h.congr ⟨rfl, rfl, rfl, rfl, rfl⟩)

theorem device_reset_staged (hk : KeepsStages complete) (h : Staged g) :
    Staged (dwc2_device_reset complete g) := by
  unfold dwc2_device_reset
  apply session_apply_staged
  have hfail := fail_packets_staged hk (h.regs (device_reset_regs g.dwc2))
  exact Staged.ite (hfail.congr ⟨rfl, rfl, rfl, rfl, rfl⟩) (h.regs _)

theorem connect_bh_staged {host : DWC2GadgetState → DWC2GadgetState}
    (hhost : ∀ g, Staged g → Staged (host g)) (h : Staged g) :
    Staged (dwc2_gadget_connect_bh host g) := by
  have hbh : Staged { g with connect_bh := false } := h.congr ⟨rfl, rfl, rfl, rfl, rfl⟩
  unfold dwc2_gadget_connect_bh usb_device_attach usb_device_detach
  dsimp only
  split
  · exact hbh
  split
  · exact Staged.ite (h.congr ⟨rfl, rfl, rfl, rfl, rfl⟩)
      (hhost _ (h.congr ⟨rfl, rfl, rfl, rfl, rfl⟩))
  · have hcall : Staged { g with connect_bh := false, reset_timer := none, reset_phase := 0 } :=
      h.congr ⟨rfl, rfl, rfl, rfl, rfl⟩
    exact (hhost _ hcall).congr ⟨rfl, rfl, rfl, rfl, rfl⟩

/-- A new gadget is in no transfer. -/
theorem realize_staged (h : Staged g) : Staged (dwc2_gadget_realize g) := by
  unfold dwc2_gadget_realize
  apply Staged.ite h
  apply session_apply_staged
  exact ⟨by simp, Nat.le_refl _, Nat.zero_le _, List.length_replicate⟩

theorem unplug_staged {host : DWC2GadgetState → DWC2GadgetState}
    (hhost : ∀ g, Staged g → Staged (host g)) (h : Staged g) :
    Staged (usb_device_unplug host g) := by
  -- the host still sees the device as it is detached
  have hdetach : Staged (if g.attached then usb_device_detach host g else g) :=
    Staged.ite ((hhost g h).congr ⟨rfl, rfl, rfl, rfl, rfl⟩) h
  unfold usb_device_unplug
  generalize (if g.attached then usb_device_detach host g else g) = g' at hdetach
  have hoff : Staged { g' with gadget := false } := hdetach.congr ⟨rfl, rfl, rfl, rfl, rfl⟩
  have hgone : Staged (if g'.gadget then dwc2_device_update_session { g' with gadget := false }
      else g') :=
    Staged.ite (session_apply_staged hoff true) hdetach
  exact hgone.congr ⟨rfl, rfl, rfl, rfl, rfl⟩

theorem step_staged (h : Staged g) (op : Op) : Staged (step g op) := by
  have hk : KeepsStages (usb_packet_complete op.depth) := complete_staged op.depth
  have hhost : ∀ g, Staged g →
      Staged (acts (usb_packet_complete op.depth) g.script.length g) := fun g h =>
    acts_staged hk _ h
  have h1 : Staged { g with
      script := op.script
      dwc2 := { g.dwc2 with dma_results := op.dma_results } } := h.congr ⟨rfl, rfl, rfl, rfl, rfl⟩
  unfold step
  generalize ({ g with
      script := op.script
      dwc2 := { g.dwc2 with dma_results := op.dma_results } } : DWC2GadgetState) = g₁ at h1
  unfold Op.run
  dsimp only
  cases op.kind with
  | dreg addr val => exact dreg_write_staged hk h1 _ _
  | gusbcfg val => exact gusbcfg_write_staged hk h1 _
  | gotgctl val | gintsts val | memory mem => exact h1.regs _
  | host a => exact act_staged hk h1 a
  | clock now => exact h1.congr ⟨rfl, rfl, rfl, rfl, rfl⟩
  | timer => exact Staged.ite (reset_timer_staged hk h1) h1
  | bh => exact Staged.ite (connect_bh_staged hhost h1) h1
  | reset gotgctl gotgint gusbcfg gintsts => exact device_reset_staged hk (h1.regs _)
  | realize => exact realize_staged h1
  | unrealize => exact unplug_staged hhost h1

theorem run_staged (h : Staged g) (ops : List Op) : Staged (run g ops) :=
  Run.along_invariant (I := Staged) (Q := fun _ _ => True) (fun _ op h _ => step_staged h op) h
    (Run.along_of_forall (fun _ _ => trivial) g ops)

/-- **The stages of a control transfer**, in every run: the gadget holds a control
    packet exactly while it is in a stage; what the data stage has moved is within the
    transfer, and the transfer within the buffer, so that what is left does not wrap
    and a further run stays in the buffer. -/
theorem stages_hold (h : Reachable g) :
    (g.ctrl_p.isSome = true ↔ g.ctrl_phase ≠ DWC2_CTRL_IDLE) ∧
      g.ctrl_done ≤ g.ctrl_len ∧ g.ctrl_len ≤ g.data_buf.length ∧
      ctrl_left g = g.ctrl_len - g.ctrl_done ∧
      g.ctrl_done + (dwc2_ep_in_packets g.dwc2 0 (ctrl_left g)).packets.flatten.length ≤
        g.data_buf.length := by
  obtain ⟨cable, port_vbus, port_speedmask, gotgctl, gotgint, gusbcfg, gintsts, ops, rfl⟩ := h
  -- a controller that was never reset is in no transfer
  have hblank : Staged (blank cable port_vbus port_speedmask) :=
    ⟨by simp [blank], Nat.le_refl _, Nat.zero_le _, List.length_replicate⟩
  have hg := run_staged hblank ({ kind := .reset gotgctl gotgint gusbcfg gintsts } :: ops)
  generalize run (blank cable port_vbus port_speedmask) _ = g at hg
  have hbuf := hg.buf
  have hlen := hg.len
  obtain ⟨-, hle⟩ := hg.advance (call_moved_le (in_packets_call g.dwc2 0 (ctrl_left g)))
  have hsent := (in_packets_sent g.dwc2 0 (ctrl_left g)).bytes
  exact ⟨hg.held, hg.done, by omega, hg.left, by omega⟩

/-- The guest has its data stage programmed, and not yet armed. -/
theorem armed_early_stages :
    armed_early.ctrl_p.isSome = true ∧ ctrl_left armed_early = 18 ∧
      armed_early.ctrl_done +
          (dwc2_ep_in_packets armed_early.dwc2 0 (ctrl_left armed_early)).packets.flatten.length ≤
        armed_early.data_buf.length := by
  have hreach : Reachable armed_early := ⟨_, _, _, _, _, _, _, _, rfl⟩
  obtain ⟨hheld, -, -, hleft, hroom⟩ := stages_hold hreach
  refine ⟨hheld.mpr (by decide +kernel), ?_, hroom⟩
  rw [hleft]
  decide +kernel

end Dwc2
