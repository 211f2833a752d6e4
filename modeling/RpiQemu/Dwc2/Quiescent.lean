import RpiQemu.Dwc2.Settled
import RpiQemu.Dwc2.Machine

/-! # What a run leaves

    `dwc2_device_run` runs every transfer that the guest's endpoint programming
    allows: a second run straight after it should move no byte, change no control
    phase and complete no packet.

    * `settled_rests`: a run on settled packets changes nothing of the kind.
    * `run_leaves_nothing`: a run leaves something only when the data stage of the
      control transfer ends in it and the guest has armed the status stage already:
      EP0 takes one stage in a run. -/

namespace Dwc2

open Register
open Usbip (UsbRet)
open DWC2CtrlPhase

variable {g g' g'' : DWC2GadgetState} {complete : Completion}

/-! ## A run on settled packets -/

/-- No byte moved, no control phase changed and no packet completed. -/
structure Still (g g' : DWC2GadgetState) : Prop where
  ctrl_p : g'.ctrl_p = g.ctrl_p
  ctrl_phase : g'.ctrl_phase = g.ctrl_phase
  ctrl_done : g'.ctrl_done % 2 ^ 32 = g.ctrl_done % 2 ^ 32
  data_buf : g'.data_buf = g.data_buf
  in_p : g'.in_p = g.in_p
  out_p : g'.out_p = g.out_p
  out_off : ∀ n, g'.out_off n % 2 ^ 32 = g.out_off n % 2 ^ 32
  completed : g'.completed = g.completed
  aborted : g'.aborted = g.aborted
  dma_log : g'.dwc2.dma_log = g.dwc2.dma_log
  mem : g'.dwc2.mem = g.dwc2.mem

theorem Still.refl (g : DWC2GadgetState) : Still g g :=
  ⟨rfl, rfl, rfl, rfl, rfl, rfl, fun _ => rfl, rfl, rfl, rfl, rfl⟩

theorem Still.trans (h : Still g g') (h' : Still g' g'') : Still g g'' :=
  ⟨h'.ctrl_p.trans h.ctrl_p, h'.ctrl_phase.trans h.ctrl_phase, h'.ctrl_done.trans h.ctrl_done,
    h'.data_buf.trans h.data_buf, h'.in_p.trans h.in_p, h'.out_p.trans h.out_p,
    fun n => (h'.out_off n).trans (h.out_off n), h'.completed.trans h.completed,
    h'.aborted.trans h.aborted, h'.dma_log.trans h.dma_log, h'.mem.trans h.mem⟩

/-- Still, and nothing has more to do. -/
structure Rests (g g' : DWC2GadgetState) : Prop where
  still : Still g g'
  frame : Frame g g'

theorem Rests.refl (g : DWC2GadgetState) : Rests g g := ⟨Still.refl g, Frame.refl g⟩

theorem Rests.trans (h : Rests g g') (h' : Rests g' g'') : Rests g g'' :=
  ⟨h.still.trans h'.still, h.frame.trans h'.frame⟩

theorem Rests.settled (h : Rests g g') {x : Slot} (hx : Settled g x) : Settled g' x :=
  hx.mono h.frame.eases.ep h.frame.reset
    (held_of_eq h.still.ctrl_p h.still.ctrl_phase h.still.in_p h.still.out_p)

/-- A call on an idle endpoint. -/
theorem rests_call {n size : Nat} {in_ : Bool} {data : List UInt8} {m : Moved}
    (hcall : Call g.dwc2 n in_ data size m) (hidle : ep_idle g.dwc2 n in_) :
    Rests g { g with dwc2 := m.s } := by
  obtain ⟨_, _, _, _, hlog, hmem⟩ := idle_call hcall hidle
  exact ⟨⟨rfl, rfl, rfl, rfl, rfl, rfl, fun _ => rfl, rfl, rfl, hlog, hmem⟩,
    ⟨call_eases hcall, rfl, id⟩⟩

theorem splice_nil (buf : List UInt8) (off : Nat) : splice buf off [] = buf := by
  simp [splice]

theorem ctrl_settled_rests (h : Settled g .ctrl) : Rests g (dwc2_ep0_run complete g) := by
  unfold dwc2_ep0_run
  by_cases hp : g.ctrl_p.isNone = true
  · rw [if_pos hp]
    exact Rests.refl g
  rw [if_neg hp]
  have hsome : g.ctrl_p ≠ none := by simpa using hp
  have hc := h.resolve_left hsome
  -- Past the SETUP stage a settled endpoint 0 is not stalled: the run would end it.
  have hns : g.ctrl_phase ≠ DWC2_CTRL_SETUP → ep0_stalled g.dwc2 = false := by
    intro hphase
    unfold ctrl_settled at hc
    cases hp : g.ctrl_phase with
    | DWC2_CTRL_SETUP => exact absurd hp hphase
    | DWC2_CTRL_IDLE => simpa only [hp] using hc
    | DWC2_CTRL_DATA_IN | DWC2_CTRL_DATA_OUT | DWC2_CTRL_STATUS_IN | DWC2_CTRL_STATUS_OUT =>
      simp only [hp] at hc
      exact hc.1
  have hstall : ¬ (g.ctrl_phase ≠ DWC2_CTRL_SETUP ∧ ep0_stalled g.dwc2 = true) := by
    rintro ⟨hphase, hs⟩
    rw [hns hphase] at hs
    cases hs
  rw [if_neg hstall]
  unfold ep0_stage
  unfold ctrl_settled at hc
  cases hphase : g.ctrl_phase with
  | DWC2_CTRL_SETUP =>
    simp only [hphase] at hc
    dsimp only
    by_cases hreset : g.reset_phase ≠ 0
    · rw [if_pos hreset]
      exact Rests.refl g
    · rw [if_neg hreset, if_pos (by simp [hc.resolve_left hreset])]
      exact Rests.refl g
  | DWC2_CTRL_IDLE => exact Rests.refl g
  | DWC2_CTRL_DATA_IN =>
    simp only [hphase] at hc
    have hcall := in_packets_call g.dwc2 0 (ctrl_left g)
    dsimp only
    generalize dwc2_ep_in_packets g.dwc2 0 (ctrl_left g) = m at hcall
    obtain ⟨hmoved, hpackets, hdone, hbabble, hlog, hmem⟩ := idle_call hcall hc.2
    rw [hbabble, hdone, if_neg (by decide), if_neg (by decide), hmoved, hpackets]
    have hbuf : splice g.data_buf g.ctrl_done [] = g.data_buf := splice_nil _ _
    exact ⟨⟨rfl, hphase.symm, Nat.mod_mod _ _, hbuf, rfl, rfl, fun _ => rfl, rfl, rfl, hlog, hmem⟩,
      ⟨call_eases hcall, rfl, id⟩⟩
  | DWC2_CTRL_DATA_OUT =>
    simp only [hphase] at hc
    have hcall := out_packets_call g.dwc2 0 (g.data_buf.drop g.ctrl_done) (ctrl_left g)
    dsimp only
    generalize dwc2_ep_out_packets g.dwc2 0 (g.data_buf.drop g.ctrl_done) (ctrl_left g) = m at hcall
    obtain ⟨hmoved, _, hdone, _, hlog, hmem⟩ := idle_call hcall hc.2
    rw [hdone, if_neg (by decide), hmoved]
    exact ⟨⟨rfl, hphase.symm, Nat.mod_mod _ _, rfl, rfl, rfl, fun _ => rfl, rfl, rfl, hlog, hmem⟩,
      ⟨call_eases hcall, rfl, id⟩⟩
  | DWC2_CTRL_STATUS_IN =>
    simp only [hphase] at hc
    have hcall := in_packets_call g.dwc2 0 0
    dsimp only
    generalize dwc2_ep_in_packets g.dwc2 0 0 = m at hcall
    rw [(idle_call hcall hc.2).2.2.1, if_neg (by decide), ← hphase]
    exact rests_call hcall hc.2
  | DWC2_CTRL_STATUS_OUT =>
    simp only [hphase] at hc
    have hcall := out_packets_call g.dwc2 0 [] 0
    dsimp only
    generalize dwc2_ep_out_packets g.dwc2 0 [] 0 = m at hcall
    rw [(idle_call hcall hc.2).2.2.1, if_neg (by decide), ← hphase]
    exact rests_call hcall hc.2

theorem copy_nothing (p : USBPacket) : usb_packet_copy p [] = p := by
  unfold usb_packet_copy
  simp

theorem in_settled_rests {n : Nat} (h : Settled g (.data n true)) :
    Rests g (run_in complete g n) := by
  unfold run_in
  cases hp : g.in_p n with
  | none => exact Rests.refl g
  | some p =>
    have hdata : g.data_p n true ≠ none := by
      show g.in_p n ≠ none
      rw [hp]
      exact Option.some_ne_none p
    obtain ⟨hns, hidle⟩ := h.resolve_left hdata
    dsimp only
    have hrun := ep_in_run_cases g n p
    generalize dwc2_ep_in_run g n p = r at hrun
    cases hrun with
    | stalled hstall =>
      rw [hns] at hstall
      cases hstall
    | waits _ _ => exact Rests.refl g
    | moves m _ hm =>
      have hcall := in_packets_call g.dwc2 n (room_left p p.actual_length)
      rw [← hm] at hcall
      obtain ⟨_, hpackets, hdone, hbabble, _, _⟩ := idle_call hcall hidle
      have hsame : in_packet p m = p := by
        unfold in_packet
        rw [hpackets, hbabble]
        exact copy_nothing p
      have hupd : Function.update g.in_p n (some p) = g.in_p := by
        rw [← hp]
        exact Function.update_eq_self n g.in_p
      rw [hdone, hsame]
      dsimp only
      unfold DWC2GadgetState.set_in
      rw [hupd]
      exact rests_call hcall hidle

theorem out_settled_rests {n : Nat} (h : Settled g (.data n false)) :
    Rests g (run_out complete g n) := by
  unfold run_out
  cases hp : g.out_p n with
  | none => exact Rests.refl g
  | some p =>
    have hdata : g.data_p n false ≠ none := by
      show g.out_p n ≠ none
      rw [hp]
      exact Option.some_ne_none p
    obtain ⟨hns, hidle⟩ := h.resolve_left hdata
    dsimp only
    have hrun := ep_out_run_cases g n p
    generalize dwc2_ep_out_run g n p = r at hrun
    cases hrun with
    | stalled hstall =>
      rw [hns] at hstall
      cases hstall
    | waits _ _ => exact Rests.refl g
    | moves m _ hm =>
      have hcall := out_packets_call g.dwc2 n
        ((p.iov.drop (g.out_off n)).take
          (min (p.iov.length - g.out_off n) (dwc2_tsiz_get g.dwc2 n false).1))
        (room_left p (g.out_off n))
      rw [← hm] at hcall
      obtain ⟨hmoved, _, hdone, _, hlog, hmem⟩ := idle_call hcall hidle
      have hupd : Function.update g.out_p n (some p) = g.out_p := by
        rw [← hp]
        exact Function.update_eq_self n g.out_p
      rw [hdone, hmoved]
      simp only [Bool.false_eq_true, if_false]
      unfold DWC2GadgetState.set_out
      rw [hupd]
      refine ⟨⟨rfl, rfl, rfl, rfl, rfl, rfl, fun k => ?_, rfl, rfl, hlog, hmem⟩,
        ⟨call_eases hcall, rfl, id⟩⟩
      dsimp only
      by_cases hk : k = n
      · rw [hk, Function.update_self, Nat.add_zero, Nat.mod_mod]
      · rw [Function.update_of_ne hk]

theorem eps_settled_rests (l : List Nat) :
    ∀ g, (∀ n ∈ l, ∀ d, Settled g (.data n d)) →
      Rests g (l.foldl (fun g n => run_out complete (run_in complete g n) n) g) := by
  -- on the endpoints left: what one leaves alone stays settled for the next
  induction l with
  | nil => exact fun g _ => Rests.refl g
  | cons n l ih =>
    intro g h
    have hin : Rests g (run_in complete g n) := in_settled_rests (h n List.mem_cons_self true)
    have hout : Rests (run_in complete g n) (run_out complete (run_in complete g n) n) :=
      out_settled_rests (hin.settled (h n List.mem_cons_self false))
    refine (hin.trans hout).trans (ih _ fun k hk d => ?_)
    exact (hin.trans hout).settled (h k (List.mem_cons_of_mem n hk) d)

theorem update_irq_rests (g : DWC2GadgetState) : Rests g g.update_irq :=
  ⟨⟨rfl, rfl, rfl, rfl, rfl, rfl, fun _ => rfl, rfl, rfl, rfl, rfl⟩, update_irq_frame g⟩

/-- The packets that a run looks at. -/
def InRunSlots (x : Slot) : Prop :=
  x = .ctrl ∨ ∃ n ∈ List.range' 1 (DWC2_NB_EP - 1), ∃ d, x = .data n d

theorem settled_rests (h : running g = true → ∀ x, InRunSlots x → Settled g x) :
    Rests g (dwc2_device_run complete g) := by
  unfold dwc2_device_run
  by_cases hrun : running g = true
  · have hneg : ¬ (!g.gadget || dwc2_is_host_role g.dwc2) = true := by
      unfold running at hrun
      simpa using hrun
    rw [if_neg hneg]
    have hctrl : Rests g (dwc2_ep0_run complete g) :=
      ctrl_settled_rests (h hrun .ctrl (Or.inl rfl))
    refine (hctrl.trans (eps_settled_rests (List.range' 1 (DWC2_NB_EP - 1)) _ ?_)).trans
      (update_irq_rests _)
    exact fun n hn d => hctrl.settled (h hrun _ (Or.inr ⟨n, hn, d, rfl⟩))
  · have hpos : (!g.gadget || dwc2_is_host_role g.dwc2) = true := by
      unfold running at hrun
      cases hg : g.gadget with
      | false => rfl
      | true => simpa [hg] using hrun
    rw [if_pos hpos]
    exact Rests.refl g

/-- A run that does not end an armed stage leaves every packet settled. -/
theorem run_settles (depth : Nat) (g : DWC2GadgetState) (h : ¬ StageArmed g) :
    running (dwc2_device_run (usb_packet_complete depth) g) = true →
      ∀ x, InRunSlots x → Settled (dwc2_device_run (usb_packet_complete depth) g) x := by
  intro hrun' x hx
  by_cases hrun : running g = true
  · have hstable : Stable g := by
      intro hrole
      unfold running at hrun
      rw [hrole] at hrun
      simp at hrun
    refine (device_run_calm (complete_quiets depth) hstable (fun hxc hxd => ?_) h).settled hrun'
    rcases hx with hx | ⟨n, hn, d, hx⟩
    · exact absurd hx hxc
    · exact absurd hx (hxd n hn d)
  · -- the run did nothing, so the controller would not be a peripheral now
    have hpos : (!g.gadget || dwc2_is_host_role g.dwc2) = true := by
      unfold running at hrun
      cases hg : g.gadget with
      | false => rfl
      | true => simpa [hg] using hrun
    unfold dwc2_device_run at hrun'
    rw [if_pos hpos] at hrun'
    exact absurd hrun' hrun

/-! ## A stage that is armed already -/

/-- The host does not act, and EP0, its transfer and the role are as they were. -/
structure Aside (g g' : DWC2GadgetState) : Prop where
  script : g'.script = []
  ctrl_p : g'.ctrl_p = g.ctrl_p
  ctrl_phase : g'.ctrl_phase = g.ctrl_phase
  gadget : g'.gadget = g.gadget
  ep0 : ∀ d, dwc2_ep g'.dwc2 0 d = dwc2_ep g.dwc2 0 d
  dctl : g'.dwc2.dctl = g.dwc2.dctl
  gusbcfg : g'.dwc2.gusbcfg = g.dwc2.gusbcfg
  gotgctl : g'.dwc2.gotgctl = g.dwc2.gotgctl

theorem Aside.refl (h : g.script = []) : Aside g g :=
  ⟨h, rfl, rfl, rfl, fun _ => rfl, rfl, rfl, rfl⟩

theorem Aside.trans (h : Aside g g') (h' : Aside g' g'') : Aside g g'' :=
  ⟨h'.script, h'.ctrl_p.trans h.ctrl_p, h'.ctrl_phase.trans h.ctrl_phase,
    h'.gadget.trans h.gadget, fun d => (h'.ep0 d).trans (h.ep0 d), h'.dctl.trans h.dctl,
    h'.gusbcfg.trans h.gusbcfg, h'.gotgctl.trans h.gotgctl⟩

theorem Aside.running (h : Aside g g') : running g' = running g := by
  unfold Dwc2.running dwc2_is_host_role
  rw [h.gadget, h.gusbcfg, h.gotgctl]

theorem Aside.stalled (h : Aside g g') : ep0_stalled g'.dwc2 = ep0_stalled g.dwc2 := by
  unfold ep0_stalled
  rw [h.ep0, h.ep0]

theorem Aside.idle (h : Aside g g') (d : Bool) : ep_idle g'.dwc2 0 d ↔ ep_idle g.dwc2 0 d :=
  ep_idle_congr (by rw [h.ep0]) (by rw [h.ep0]) h.dctl

/-- A completion in which the host does not act. -/
theorem complete_no_script (depth : Nat) (g : DWC2GadgetState) (p : USBPacket)
    (h : g.script = []) :
    ∃ pending completed aborted, usb_packet_complete depth g p =
      { g with pending := pending, completed := completed, aborted := aborted } := by
  cases depth with
  | zero =>
    unfold usb_packet_complete
    split
    · exact ⟨_, _, g.aborted, rfl⟩
    · exact ⟨g.pending, g.completed, true, rfl⟩
  | succ depth =>
    unfold usb_packet_complete
    rw [h]
    split
    · exact ⟨_, _, g.aborted, rfl⟩
    · exact ⟨g.pending, g.completed, true, rfl⟩

theorem complete_aside (depth : Nat) (g : DWC2GadgetState) (p : USBPacket) (h : g.script = []) :
    Aside g (usb_packet_complete depth g p) := by
  obtain ⟨_, _, _, heq⟩ := complete_no_script depth g p h
  rw [heq]
  exact ⟨h, rfl, rfl, rfl, fun _ => rfl, rfl, rfl, rfl⟩

/-- A call on another endpoint. -/
theorem call_aside {n size : Nat} {in_ : Bool} {data : List UInt8} {m : Moved}
    (hcall : Call g.dwc2 n in_ data size m) (hn : n ≠ 0) (h : g.script = []) :
    Aside g { g with dwc2 := m.s } := by
  have honly := call_only hcall
  have hease := call_eases hcall
  refine ⟨h, rfl, rfl, rfl, fun d => honly.others 0 d ?_, honly.dctl, hease.gusbcfg, hease.gotgctl⟩
  rintro ⟨h0, _⟩
  exact hn h0.symm

theorem run_in_aside (depth : Nat) (g : DWC2GadgetState) {n : Nat} (hn : n ≠ 0)
    (h : g.script = []) : Aside g (run_in (usb_packet_complete depth) g n) := by
  unfold run_in
  cases hp : g.in_p n with
  | none => exact Aside.refl h
  | some p =>
    dsimp only
    have hrun := ep_in_run_cases g n p
    generalize dwc2_ep_in_run g n p = r at hrun
    have hset : ∀ g' : DWC2GadgetState, g'.script = [] → ∀ q, Aside g' (g'.set_in n q) :=
      fun g' hs q => ⟨hs, rfl, rfl, rfl, fun _ => rfl, rfl, rfl, rfl⟩
    have hran : Aside g r.1 := by
      cases hrun with
      | stalled _ => exact hset g h _
      | waits _ _ => exact Aside.refl h
      | moves m _ hm =>
        have hcall := in_packets_call g.dwc2 n (room_left p p.actual_length)
        rw [← hm] at hcall
        have haside := call_aside hcall hn h
        exact haside.trans (hset _ haside.script _)
    obtain ⟨g', _ | _⟩ := r
    · exact hran
    · exact (hran.trans (hset g' hran.script none)).trans
        (complete_aside depth _ _ (hset g' hran.script none).script)

theorem run_out_aside (depth : Nat) (g : DWC2GadgetState) {n : Nat} (hn : n ≠ 0)
    (h : g.script = []) : Aside g (run_out (usb_packet_complete depth) g n) := by
  unfold run_out
  cases hp : g.out_p n with
  | none => exact Aside.refl h
  | some p =>
    dsimp only
    have hrun := ep_out_run_cases g n p
    generalize dwc2_ep_out_run g n p = r at hrun
    have hset : ∀ g' : DWC2GadgetState, g'.script = [] → ∀ q, Aside g' (g'.set_out n q) :=
      fun g' hs q => ⟨hs, rfl, rfl, rfl, fun _ => rfl, rfl, rfl, rfl⟩
    have hran : Aside g r.1 := by
      cases hrun with
      | stalled _ => exact hset g h _
      | waits _ _ => exact Aside.refl h
      | moves m _ hm =>
        have hcall := out_packets_call g.dwc2 n
          ((p.iov.drop (g.out_off n)).take
            (min (p.iov.length - g.out_off n) (dwc2_tsiz_get g.dwc2 n false).1))
          (room_left p (g.out_off n))
        rw [← hm] at hcall
        have haside := call_aside hcall hn h
        exact ⟨h, rfl, rfl, rfl, haside.ep0, haside.dctl, haside.gusbcfg, haside.gotgctl⟩
    obtain ⟨g', _ | _⟩ := r
    · exact hran
    · exact (hran.trans (hset g' hran.script none)).trans
        (complete_aside depth _ _ (hset g' hran.script none).script)

theorem eps_aside (depth : Nat) (l : List Nat) :
    (∀ n ∈ l, n ≠ 0) → ∀ g : DWC2GadgetState, g.script = [] → Aside g (l.foldl
      (fun g n => run_out (usb_packet_complete depth) (run_in (usb_packet_complete depth) g n) n)
      g) := by
  induction l with
  | nil => exact fun _ g h => Aside.refl h
  | cons n l ih =>
    intro hl g h
    have hn : n ≠ 0 := hl n List.mem_cons_self
    have hin := run_in_aside depth g hn h
    have hout := run_out_aside depth _ hn hin.script
    exact (hin.trans hout).trans
      (ih (fun k hk => hl k (List.mem_cons_of_mem n hk)) _ hout.script)

/-- A run, past EP0. -/
theorem device_run_aside (depth : Nat) (hrun : running g = true)
    (h : (dwc2_ep0_run (usb_packet_complete depth) g).script = []) :
    Aside (dwc2_ep0_run (usb_packet_complete depth) g)
      (dwc2_device_run (usb_packet_complete depth) g) := by
  have hneg : ¬ (!g.gadget || dwc2_is_host_role g.dwc2) = true := by
    unfold running at hrun
    simpa using hrun
  unfold dwc2_device_run
  rw [if_neg hneg]
  have heps := eps_aside depth (List.range' 1 (DWC2_NB_EP - 1)) (by decide) _ h
  exact heps.trans ⟨heps.script, rfl, rfl, rfl, fun _ => rfl, rfl, rfl, rfl⟩

/-- A status stage is one packet, of no bytes. -/
theorem turns_status {s : DWC2State} {n mps pkt xfer : Nat} {in_ : Bool} {data : List UInt8}
    {m : Moved} (h : Turns n in_ mps 0 data pkt s xfer 0 [] m) (hpkt : pkt ≠ 0) :
    m.host_done = true := by
  cases h with
  | used_up => exact absurd rfl hpkt
  | refused => rfl
  | fails _ _ _ _ _ _ _ _ hfit hacc =>
    cases hacc with
    | fail _ hlen => omega
  | stops _ _ _ _ _ c _ _ _ hfit =>
    have hc : c = 0 := by omega
    simp [hc]
  | goes_on _ _ _ _ _ c _ _ _ _ hfit _ _ hmore =>
    have hc : c = 0 := by omega
    exact absurd hc (by omega)

theorem status_done {s : DWC2State} {n : Nat} {in_ : Bool} {data : List UInt8} {m : Moved}
    (h : Call s n in_ data 0 m) (hidle : ¬ ep_idle s n in_) : m.host_done = true := by
  have hpkt : (dwc2_tsiz_get s n in_).2 ≠ 0 := fun h0 => hidle (Or.inr h0)
  cases h with
  | blocked hb => exact absurd (Or.inl hb) hidle
  | failed m _ hturns _ => exact turns_status hturns hpkt
  | ended m _ hturns _ =>
    have hdone : m.host_done = true := turns_status hturns hpkt
    exact hdone

theorem ctrl_complete_gone (depth : Nat) (g : DWC2GadgetState) (status : UsbRet)
    (h : g.script = []) :
    (dwc2_ctrl_complete (usb_packet_complete depth) g status).ctrl_p = none ∧
      (dwc2_ctrl_complete (usb_packet_complete depth) g status).script = [] := by
  unfold dwc2_ctrl_complete
  cases hp : g.ctrl_p with
  | none => exact ⟨hp, h⟩
  | some p =>
    unfold usb_generic_async_ctrl_complete
    dsimp only
    generalize hg : ({ g with
        addr := if status = .success ∧ set_address g.setup_buf = true then
          (g.setup_buf.getD 2 0).toNat else g.addr
        ctrl_p := none
        ctrl_phase := DWC2_CTRL_IDLE } : DWC2GadgetState) = g₁
    have hs : g₁.script = [] := by rw [← hg]; exact h
    have hnone : g₁.ctrl_p = none := by rw [← hg]
    have haside := fun q => complete_aside depth g₁ q hs
    exact ⟨(haside _).ctrl_p.trans hnone, (haside _).script⟩

/-- The status stage in the direction `in_`. -/
def status_phase (in_ : Bool) : DWC2CtrlPhase :=
  if in_ then DWC2_CTRL_STATUS_IN else DWC2_CTRL_STATUS_OUT

/-- A status stage whose endpoint is armed completes the transfer. -/
theorem status_completes (depth : Nat) {in_ : Bool} (hrun : running g = true)
    (hscript : g.script = []) (hp : g.ctrl_p ≠ none) (hns : ep0_stalled g.dwc2 = false)
    (hphase : g.ctrl_phase = status_phase in_) (hidle : ¬ ep_idle g.dwc2 0 in_) :
    (dwc2_device_run (usb_packet_complete depth) g).ctrl_p = none := by
  have hgone : (dwc2_ep0_run (usb_packet_complete depth) g).ctrl_p = none ∧
      (dwc2_ep0_run (usb_packet_complete depth) g).script = [] := by
    unfold dwc2_ep0_run ep0_stage
    rw [if_neg (by simpa using hp), if_neg (by simp [hns])]
    cases in_ with
    | true =>
      have hphase' : g.ctrl_phase = DWC2_CTRL_STATUS_IN := hphase
      rw [hphase']
      dsimp only
      rw [if_pos (status_done (in_packets_call g.dwc2 0 0) hidle)]
      apply ctrl_complete_gone
      exact hscript
    | false =>
      have hphase' : g.ctrl_phase = DWC2_CTRL_STATUS_OUT := hphase
      rw [hphase']
      dsimp only
      rw [if_pos (status_done (out_packets_call g.dwc2 0 [] 0) hidle)]
      apply ctrl_complete_gone
      exact hscript
  exact (device_run_aside depth hrun hgone.2).ctrl_p.trans hgone.1

/-- The data stage ends, and the status stage is left armed. -/
theorem stage_left (depth : Nat) (h : StageArmed g) (hscript : g.script = []) :
    ∃ in_, (dwc2_ep0_run (usb_packet_complete depth) g).ctrl_phase = status_phase in_ ∧
      ¬ ep_idle (dwc2_ep0_run (usb_packet_complete depth) g).dwc2 0 in_ ∧
      ep0_stalled (dwc2_ep0_run (usb_packet_complete depth) g).dwc2 = false ∧
      (dwc2_ep0_run (usb_packet_complete depth) g).ctrl_p = g.ctrl_p ∧
      (dwc2_ep0_run (usb_packet_complete depth) g).script = [] ∧
      running (dwc2_ep0_run (usb_packet_complete depth) g) = true := by
  obtain ⟨hrun, hp, hns, hstage⟩ := h
  have hrunning : ∀ g', Frame g g' → running g' = true := fun g' hf => hf.running.trans hrun
  unfold dwc2_ep0_run ep0_stage
  rw [if_neg (by simpa using hp), if_neg (by simp [hns])]
  rcases hstage with ⟨hphase, hends, hidle⟩ | ⟨hphase, hends, hidle⟩
  · have hcall := in_packets_call g.dwc2 0 (ctrl_left g)
    rw [hphase]
    dsimp only
    generalize dwc2_ep_in_packets g.dwc2 0 (ctrl_left g) = m at hcall
    obtain ⟨hdone, hbabble⟩ := (call_done (ep0_mps_pos g.dwc2 true) hcall).mpr hends
    have honly := call_only hcall
    have hother : dwc2_ep m.s 0 false = dwc2_ep g.dwc2 0 false := honly.others 0 false (by simp)
    rw [if_neg (by simp [hbabble]), if_pos hdone]
    refine ⟨false, rfl, fun hi => hidle ?_, stalled_mono (call_eases hcall).ep hns, rfl, hscript,
      hrunning _ ⟨call_eases hcall, rfl, id⟩⟩
    exact (ep_idle_congr (by rw [hother]) (by rw [hother]) honly.dctl).mp hi
  · have hcall := out_packets_call g.dwc2 0 (g.data_buf.drop g.ctrl_done) (ctrl_left g)
    rw [hphase]
    dsimp only
    generalize dwc2_ep_out_packets g.dwc2 0 (g.data_buf.drop g.ctrl_done) (ctrl_left g) = m at hcall
    obtain ⟨hdone, _⟩ := (call_done (ep0_mps_pos g.dwc2 false) hcall).mpr hends
    have honly := call_only hcall
    have hother : dwc2_ep m.s 0 true = dwc2_ep g.dwc2 0 true := honly.others 0 true (by simp)
    rw [if_pos hdone]
    refine ⟨true, rfl, fun hi => hidle ?_, stalled_mono (call_eases hcall).ep hns, rfl, hscript,
      hrunning _ ⟨call_eases hcall, rfl, id⟩⟩
    exact (ep_idle_congr (by rw [hother]) (by rw [hother]) honly.dctl).mp hi

/-- An armed status stage is left to the next run. -/
theorem stage_armed_moves (depth depth' : Nat) (h : StageArmed g) (hscript : g.script = []) :
    ¬ Still (dwc2_device_run (usb_packet_complete depth) g)
      (dwc2_device_run (usb_packet_complete depth')
        (dwc2_device_run (usb_packet_complete depth) g)) := by
  obtain ⟨in_, hphase, hidle, hns, hp, hs, hrun⟩ := stage_left depth h hscript
  have haside := device_run_aside depth h.1 hs
  generalize dwc2_ep0_run (usb_packet_complete depth) g = g₁ at *
  have hgone := status_completes depth' (haside.running.trans hrun) haside.script
    (by rw [haside.ctrl_p, hp]; exact h.2.1) (haside.stalled.trans hns)
    (haside.ctrl_phase.trans hphase) (fun hi => hidle ((haside.idle in_).mp hi))
  intro hstill
  have heq := hstill.ctrl_p
  rw [hgone, haside.ctrl_p, hp] at heq
  exact h.2.1 heq.symm

/-! ## What a run leaves -/

/-- A run leaves a packet that another run would move when the data stage of the
    control transfer ends in it, and the status stage is armed; while the host does
    not take the transfer back from inside the run, only then. -/
theorem run_leaves_nothing (depth depth' : Nat) (g : DWC2GadgetState) :
    (¬ StageArmed g → Still (dwc2_device_run (usb_packet_complete depth) g)
      (dwc2_device_run (usb_packet_complete depth')
        (dwc2_device_run (usb_packet_complete depth) g))) ∧
    (StageArmed g ∧ g.script = [] → ¬ Still (dwc2_device_run (usb_packet_complete depth) g)
      (dwc2_device_run (usb_packet_complete depth')
        (dwc2_device_run (usb_packet_complete depth) g))) :=
  ⟨fun h => (settled_rests (run_settles depth g h)).still,
    fun h => stage_armed_moves depth depth' h.1 h.2⟩

/-- The host asks for the device descriptor. -/
def get_descriptor : HostAct :=
  .control { id := 1, in_ := true, iov := List.replicate 18 0 } [0x80, 6, 0, 1, 0, 0, 18, 0] []

/-- The guest arms EP0 for a SETUP packet, then OUT for the status stage, and is about
    to arm IN for the data stage. -/
def status_first : List Op := [
  { kind := .realize },
  { kind := .dreg (DOEPCTL 0 + 0x10) (3 * 2 ^ 29 + 2 ^ 19 + 8) },
  { kind := .dreg (DOEPCTL 0 + 0x14) 0x1000 },
  { kind := .dreg (DOEPCTL 0) (2 ^ 31 + 2 ^ 26) },
  { kind := .host get_descriptor },
  { kind := .dreg (DOEPCTL 0 + 0x10) (2 ^ 19 + 64) },
  { kind := .dreg (DOEPCTL 0) (2 ^ 31 + 2 ^ 26) },
  { kind := .dreg (DIEPCTL 0 + 0x10) (2 ^ 19 + 18) },
  { kind := .dreg (DIEPCTL 0 + 0x14) 0x2000 }]

/-- The controller in that state. -/
def armed_early : DWC2GadgetState :=
  run (blank .auto true 6) ({ kind := .reset 0 0 0 0 } :: status_first)

/-- Before that write EP0 IN is not armed, and a run leaves nothing. -/
theorem run_waits_for_data : Still (dwc2_device_run (usb_packet_complete 1) armed_early)
    (dwc2_device_run (usb_packet_complete 1)
      (dwc2_device_run (usb_packet_complete 1) armed_early)) := by
  have hblocked : ep_blocked armed_early.dwc2 0 true = true := by decide +kernel
  have hphase : armed_early.ctrl_phase = DWC2_CTRL_DATA_IN := by decide +kernel
  refine (run_leaves_nothing 1 1 armed_early).1 ?_
  rintro ⟨_, _, _, ⟨_, hends, _⟩ | ⟨hout, _⟩⟩
  · rw [hends.1] at hblocked
    cases hblocked
  · rw [hphase] at hout
    cases hout

/-- The write that arms IN runs the data stage, and leaves the status stage to the
    next write. -/
theorem run_leaves_status : ¬ ∀ g, Reachable g → ∀ n in_ word val depth depth',
    running (ep_store g n in_ word val) = true →
    Still (dwc2_device_run (usb_packet_complete depth) (ep_store g n in_ word val))
      (dwc2_device_run (usb_packet_complete depth')
        (dwc2_device_run (usb_packet_complete depth) (ep_store g n in_ word val))) := by
  intro h
  have hreach : Reachable armed_early := ⟨_, _, _, _, _, _, _, _, rfl⟩
  have hstill := h armed_early hreach 0 true DEP_CTL (2 ^ 31 + 2 ^ 26) 0 0 (by decide +kernel)
  have hphase := hstill.ctrl_phase
  revert hphase
  decide +kernel

end Dwc2
