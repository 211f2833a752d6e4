import RpiQemu.Dwc2.Settled
import RpiQemu.Dwc2.Summary
import RpiQemu.Framework.Run
import RpiQemu.Usbip.Connection

/-! # The session and the connection of the gadget

    GOTGCTL follows the cable, the gadget and VBUS; whether the host sees the
    gadget follows GOTGCTL, the forced role and the soft disconnect.  The attach
    itself is left to a bottom half, which whatever changes one of them must
    schedule.

    * **Calls**: what a call of the host or a run of the endpoints does to the
      connection (`Tracks`): nothing, or it schedules the bottom half.
    * **Runs**: the session bits are those of the cable and VBUS, and a device
      that is attached wrongly has the bottom half scheduled
      (`session_follows`). -/

namespace Dwc2

open Register
open Usbip (UsbRet)
open DWC2CtrlPhase

variable {g g' g'' : DWC2GadgetState} {complete : Completion}

/-! ## The session bits -/

/-- What the cable and VBUS make of a session: it is valid. -/
def session_valid (g : DWC2GadgetState) : Bool := !dwc2_cable_is_device g || dwc2_vbus g

/-- GOTGCTL says what `dwc2_session_apply` makes of the cable and VBUS. -/
structure Derived (g : DWC2GadgetState) : Prop where
  conid : on GOTGCTL_CONID_B g.dwc2.gotgctl =
    on GOTGCTL_CONID_B (session_bits g g.dwc2.gotgctl)
  asesvld : on GOTGCTL_ASESVLD g.dwc2.gotgctl =
    on GOTGCTL_ASESVLD (session_bits g g.dwc2.gotgctl)
  bsesvld : on GOTGCTL_BSESVLD g.dwc2.gotgctl =
    on GOTGCTL_BSESVLD (session_bits g g.dwc2.gotgctl)

theorem session_bsesvld (g : DWC2GadgetState) (v : Nat) :
    on GOTGCTL_BSESVLD (session_bits g v) = session_valid g := by
  have hraise : ∀ v, on GOTGCTL_BSESVLD (raise GOTGCTL_BSESVLD v) = true := on_raise (by decide)
  have hconid : Register.Disjoint GOTGCTL_CONID_B GOTGCTL_BSESVLD := by decide
  unfold session_bits session_valid
  cases dwc2_cable_is_device g with
  | false => exact hraise _
  | true =>
    cases dwc2_vbus g with
    | false =>
      rw [if_neg (by decide)]
      exact (on_raise_of_disjoint hconid _).trans (on_clear _)
    | true => exact hraise _

theorem session_asesvld (g : DWC2GadgetState) (v : Nat) :
    on GOTGCTL_ASESVLD (session_bits g v) = session_valid g := by
  have hraise : ∀ v, on GOTGCTL_ASESVLD (raise GOTGCTL_ASESVLD v) = true := on_raise (by decide)
  have hconid : Register.Disjoint GOTGCTL_CONID_B GOTGCTL_ASESVLD := by decide
  have hb : Register.Disjoint GOTGCTL_BSESVLD GOTGCTL_ASESVLD := by decide
  unfold session_bits session_valid
  cases dwc2_cable_is_device g with
  | false => exact (on_raise_of_disjoint hb _).trans (hraise _)
  | true =>
    cases dwc2_vbus g with
    | false =>
      rw [if_neg (by decide)]
      refine (on_raise_of_disjoint hconid _).trans ((on_clear_of_disjoint hb _).trans (on_clear _))
    | true => exact (on_raise_of_disjoint hb _).trans (hraise _)

theorem derived_iff (g : DWC2GadgetState) : Derived g ↔
    on GOTGCTL_CONID_B g.dwc2.gotgctl = dwc2_cable_is_device g ∧
      on GOTGCTL_ASESVLD g.dwc2.gotgctl = session_valid g ∧
      on GOTGCTL_BSESVLD g.dwc2.gotgctl = session_valid g := by
  constructor
  · rintro ⟨h1, h2, h3⟩
    rw [session_conid] at h1
    rw [session_asesvld] at h2
    rw [session_bsesvld] at h3
    exact ⟨h1, h2, h3⟩
  · rintro ⟨h1, h2, h3⟩
    constructor
    · rw [session_conid, h1]
    · rw [session_asesvld, h2]
    · rw [session_bsesvld, h3]

/-- The bits and what they are made of are the same. -/
theorem Derived.congr (h : Derived g)
    (hconid : on GOTGCTL_CONID_B g'.dwc2.gotgctl = on GOTGCTL_CONID_B g.dwc2.gotgctl)
    (hase : on GOTGCTL_ASESVLD g'.dwc2.gotgctl = on GOTGCTL_ASESVLD g.dwc2.gotgctl)
    (hbse : on GOTGCTL_BSESVLD g'.dwc2.gotgctl = on GOTGCTL_BSESVLD g.dwc2.gotgctl)
    (hdev : dwc2_cable_is_device g' = dwc2_cable_is_device g)
    (hvalid : session_valid g' = session_valid g) : Derived g' := by
  obtain ⟨h1, h2, h3⟩ := (derived_iff g).mp h
  rw [derived_iff, hconid, hase, hbse, hdev, hvalid]
  exact ⟨h1, h2, h3⟩

theorem session_apply_derived (g : DWC2GadgetState) (events : Bool) :
    Derived (dwc2_session_apply g events) := by
  rw [session_apply_eq]
  obtain ⟨-, -, -, -, hgotg, hcable⟩ := session_applied_keeps g events
  have hdev : dwc2_cable_is_device { g with
      dwc2 := session_applied g events, connect_bh := g.gadget || g.connect_bh }
      = dwc2_cable_is_device g := by
    unfold dwc2_cable_is_device
    dsimp only
    rw [hcable]
  have hvalid : session_valid { g with
      dwc2 := session_applied g events, connect_bh := g.gadget || g.connect_bh }
      = session_valid g := by
    unfold session_valid
    rw [hdev]
    rfl
  rw [derived_iff, hdev, hvalid]
  dsimp only
  rw [hgotg, session_conid, session_asesvld, session_bsesvld]
  exact ⟨rfl, rfl, rfl⟩

/-! ## What the connection depends on -/

/-- The registers of the role and the pull-up. -/
structure SameRole (s t : DWC2State) : Prop where
  gusbcfg : t.gusbcfg = s.gusbcfg
  gotgctl : t.gotgctl = s.gotgctl
  dctl : t.dctl = s.dctl
  cable : t.otg_cable = s.otg_cable

theorem SameRole.refl (s : DWC2State) : SameRole s s := ⟨rfl, rfl, rfl, rfl⟩

theorem SameRole.trans {s t u : DWC2State} (h : SameRole s t) (h' : SameRole t u) :
    SameRole s u :=
  ⟨h'.gusbcfg.trans h.gusbcfg, h'.gotgctl.trans h.gotgctl, h'.dctl.trans h.dctl,
    h'.cable.trans h.cable⟩

theorem SameRole.ite {s t u : DWC2State} {c : Prop} [Decidable c] (h : SameRole s t)
    (h' : SameRole s u) : SameRole s (if c then t else u) := by
  split
  · exact h
  · exact h'

theorem OnlyEp.role {s t : DWC2State} {n : Nat} {in_ : Bool} (h : OnlyEp n in_ s t) :
    SameRole s t := by
  obtain ⟨_, _, _, _, _, rfl⟩ := h.rest
  exact ⟨rfl, rfl, rfl, rfl⟩

/-- Nothing changed that the connection depends on. -/
structure SameSession (g g' : DWC2GadgetState) : Prop where
  role : SameRole g.dwc2 g'.dwc2
  gadget : g'.gadget = g.gadget
  port : g'.port = g.port
  port_vbus : g'.port_vbus = g.port_vbus
  attached : g'.attached = g.attached
  connect_bh : g'.connect_bh = g.connect_bh

theorem SameSession.cable (h : SameSession g g') :
    dwc2_cable_is_device g' = dwc2_cable_is_device g := by
  unfold dwc2_cable_is_device
  rw [h.role.cable, h.gadget]

theorem SameSession.valid (h : SameSession g g') : session_valid g' = session_valid g := by
  unfold session_valid dwc2_vbus
  rw [h.cable, h.gadget, h.port, h.port_vbus]

theorem SameRole.host {s t : DWC2State} (h : SameRole s t) :
    dwc2_is_host_role t = dwc2_is_host_role s := by
  unfold dwc2_is_host_role
  rw [h.gusbcfg, h.gotgctl]

theorem SameSession.visible (h : SameSession g g') :
    dwc2_pullup_visible g' = dwc2_pullup_visible g := by
  unfold dwc2_pullup_visible
  rw [h.gadget, h.role.host, h.role.gotgctl, h.role.dctl]

/-! ## What a call does to the connection -/

/-- The device that the host sees changes only with the bottom half scheduled. -/
structure Tracks (g g' : DWC2GadgetState) : Prop where
  gadget : g'.gadget = g.gadget
  port : g'.port = g.port
  attached : g'.attached = g.attached
  scheduled : g.connect_bh = true → g'.connect_bh = true
  visible : dwc2_pullup_visible g' = dwc2_pullup_visible g ∨ g'.connect_bh = true
  derived : Derived g → Derived g'

/-- What the host's acts switch VBUS to. -/
def switches (script : List HostAct) : List Bool :=
  script.filterMap fun a => match a with
    | .vbus val => some val
    | _ => none

/-- The acts of a host that switches VBUS only to what it sees already change
    nothing of it. -/
structure Steady (g g' : DWC2GadgetState) : Prop where
  tracks : Tracks g g'
  switches : ∀ val ∈ switches g'.script, val ∈ switches g.script
  steady : ∀ want, Derived g → (∀ val ∈ Dwc2.switches g.script, val = want) →
    dwc2_pullup_visible g = want → dwc2_pullup_visible g' = want

theorem Tracks.trans (h : Tracks g g') (h' : Tracks g' g'') : Tracks g g'' where
  gadget := h'.gadget.trans h.gadget
  port := h'.port.trans h.port
  attached := h'.attached.trans h.attached
  scheduled := fun hbh => h'.scheduled (h.scheduled hbh)
  visible := by
    rcases h'.visible with hv' | hbh'
    · rcases h.visible with hv | hbh
      · exact .inl (hv'.trans hv)
      · exact .inr (h'.scheduled hbh)
    · exact .inr hbh'
  derived := fun hd => h'.derived (h.derived hd)

theorem Steady.trans (h : Steady g g') (h' : Steady g' g'') : Steady g g'' where
  tracks := h.tracks.trans h'.tracks
  switches := fun val hval => h.switches val (h'.switches val hval)
  steady := fun want hd hall hv =>
    h'.steady want (h.tracks.derived hd) (fun val hval => hall val (h.switches val hval))
      (h.steady want hd hall hv)

theorem SameSession.tracks (h : SameSession g g') : Tracks g g' where
  gadget := h.gadget
  port := h.port
  attached := h.attached
  scheduled := fun hbh => h.connect_bh.trans hbh
  visible := .inl h.visible
  derived := fun hd => by
    apply hd.congr _ _ _ h.cable h.valid
    all_goals rw [h.role.gotgctl]

theorem SameSession.steady (h : SameSession g g') (hscript : g'.script = g.script) :
    Steady g g' where
  tracks := h.tracks
  switches := by
    rw [hscript]
    exact fun _ => id
  steady := fun _ _ _ hv => h.visible.trans hv

theorem SameSession.refl (g : DWC2GadgetState) : SameSession g g :=
  ⟨SameRole.refl _, rfl, rfl, rfl, rfl, rfl⟩

theorem Steady.refl (g : DWC2GadgetState) : Steady g g := (SameSession.refl g).steady rfl

theorem Steady.ite {c : Prop} [Decidable c] (h : Steady g g') (h' : Steady g g'') :
    Steady g (if c then g' else g'') := by
  split
  · exact h
  · exact h'

/-- Only the controller changed, and not in its role. -/
theorem steady_dwc2 {s : DWC2State} (h : SameRole g.dwc2 s) : Steady g { g with dwc2 := s } :=
  SameSession.steady ⟨h, rfl, rfl, rfl, rfl, rfl⟩ rfl

/-- The completion keeps the connection steady. -/
def KeepsSteady (complete : Completion) : Prop := ∀ g p, Steady g (complete g p)

/-! ## The endpoints -/

theorem call_role {s : DWC2State} {n size : Nat} {in_ : Bool} {data : List UInt8} {m : Moved}
    (h : Call s n in_ data size m) : SameRole s m.s :=
  (call_only h).role

theorem dma_role (s : DWC2State) (n : Nat) (in_ : Bool) (buf : List UInt8) (len : Nat) :
    SameRole s (dwc2_ep_dma s n in_ buf len).1 := by
  have hacc := ep_dma_access s n in_ buf len
  generalize dwc2_ep_dma s n in_ buf len = r at hacc
  cases hacc with
  | none _ => exact SameRole.refl s
  | ok t _ _ honly _ _ _ _ => exact honly.role
  | fail t _ _ honly _ _ _ _ => exact honly.role

theorem setup_delivered_role (s : DWC2State) : SameRole s (setup_delivered s) :=
  ⟨rfl, rfl, rfl, rfl⟩

theorem update_irq_steady (g : DWC2GadgetState) : Steady g g.update_irq :=
  steady_dwc2 ⟨rfl, rfl, rfl, rfl⟩

theorem ctrl_complete_steady (hk : KeepsSteady complete) (g : DWC2GadgetState) (status : UsbRet) :
    Steady g (dwc2_ctrl_complete complete g status) := by
  unfold dwc2_ctrl_complete
  cases g.ctrl_p with
  | none => exact Steady.refl g
  | some p =>
    apply Steady.trans _ (hk _ _)
    exact SameSession.steady ⟨SameRole.refl _, rfl, rfl, rfl, rfl, rfl⟩ rfl

theorem ep0_stage_steady (hk : KeepsSteady complete) (g : DWC2GadgetState) :
    Steady g (ep0_stage complete g) := by
  -- the transfer is over after `g'`
  have hover : ∀ {g' : DWC2GadgetState} {status : UsbRet}, Steady g g' →
      Steady g (dwc2_ctrl_complete complete g' status) := fun h =>
    h.trans (ctrl_complete_steady hk _ _)
  unfold ep0_stage
  cases g.ctrl_phase with
  | DWC2_CTRL_SETUP =>
    dsimp only
    apply Steady.ite (Steady.refl g)
    apply Steady.ite (Steady.refl g)
    have hdma := dma_role g.dwc2 0 false g.setup_buf 8
    generalize dwc2_ep_dma g.dwc2 0 false g.setup_buf 8 = r at hdma
    obtain ⟨s, _ | bytes⟩ := r
    · apply hover
      exact SameSession.steady ⟨hdma, rfl, rfl, rfl, rfl, rfl⟩ rfl
    · exact SameSession.steady
        ⟨hdma.trans (setup_delivered_role s), rfl, rfl, rfl, rfl, rfl⟩ rfl
  | DWC2_CTRL_DATA_IN =>
    dsimp only
    have hrole := call_role (in_packets_call g.dwc2 0 (ctrl_left g))
    apply Steady.ite
    · apply hover
      exact SameSession.steady ⟨hrole, rfl, rfl, rfl, rfl, rfl⟩ rfl
    apply Steady.ite
    all_goals exact SameSession.steady ⟨hrole, rfl, rfl, rfl, rfl, rfl⟩ rfl
  | DWC2_CTRL_DATA_OUT =>
    dsimp only
    have hrole := call_role
      (out_packets_call g.dwc2 0 (g.data_buf.drop g.ctrl_done) (ctrl_left g))
    apply Steady.ite
    all_goals exact SameSession.steady ⟨hrole, rfl, rfl, rfl, rfl, rfl⟩ rfl
  | DWC2_CTRL_STATUS_IN =>
    dsimp only
    have hrole := call_role (in_packets_call g.dwc2 0 0)
    apply Steady.ite
    · apply hover
      exact SameSession.steady ⟨hrole, rfl, rfl, rfl, rfl, rfl⟩ rfl
    · exact SameSession.steady ⟨hrole, rfl, rfl, rfl, rfl, rfl⟩ rfl
  | DWC2_CTRL_STATUS_OUT =>
    dsimp only
    have hrole := call_role (out_packets_call g.dwc2 0 [] 0)
    apply Steady.ite
    · apply hover
      exact SameSession.steady ⟨hrole, rfl, rfl, rfl, rfl, rfl⟩ rfl
    · exact SameSession.steady ⟨hrole, rfl, rfl, rfl, rfl, rfl⟩ rfl
  | DWC2_CTRL_IDLE => exact Steady.refl g

theorem in_run_steady (g : DWC2GadgetState) (n : Nat) (p : USBPacket) :
    Steady g (dwc2_ep_in_run g n p).1 := by
  have hrun := ep_in_run_cases g n p
  generalize dwc2_ep_in_run g n p = r at hrun
  cases hrun with
  | stalled _ => exact SameSession.steady ⟨SameRole.refl _, rfl, rfl, rfl, rfl, rfl⟩ rfl
  | waits _ _ => exact Steady.refl g
  | moves m _ hm =>
    subst hm
    have hrole := call_role (in_packets_call g.dwc2 n (room_left p p.actual_length))
    exact SameSession.steady ⟨hrole, rfl, rfl, rfl, rfl, rfl⟩ rfl

theorem out_run_steady (g : DWC2GadgetState) (n : Nat) (p : USBPacket) :
    Steady g (dwc2_ep_out_run g n p).1 := by
  have hrun := ep_out_run_cases g n p
  generalize dwc2_ep_out_run g n p = r at hrun
  cases hrun with
  | stalled _ => exact SameSession.steady ⟨SameRole.refl _, rfl, rfl, rfl, rfl, rfl⟩ rfl
  | waits _ _ => exact Steady.refl g
  | moves m _ hm =>
    subst hm
    have hrole := call_role (out_packets_call g.dwc2 n
      ((p.iov.drop (g.out_off n)).take
        (min (p.iov.length - g.out_off n) (dwc2_tsiz_get g.dwc2 n false).1))
      (room_left p (g.out_off n)))
    exact SameSession.steady ⟨hrole, rfl, rfl, rfl, rfl, rfl⟩ rfl

theorem run_in_steady (hk : KeepsSteady complete) (g : DWC2GadgetState) (n : Nat) :
    Steady g (run_in complete g n) := by
  unfold run_in
  cases g.in_p n with
  | none => exact Steady.refl g
  | some p =>
    have hrun := in_run_steady g n p
    dsimp only
    generalize dwc2_ep_in_run g n p = r at hrun ⊢
    obtain ⟨g', _ | _⟩ := r
    · exact hrun
    · have hset : Steady g' (g'.set_in n none) :=
        SameSession.steady ⟨SameRole.refl _, rfl, rfl, rfl, rfl, rfl⟩ rfl
      exact (hrun.trans hset).trans (hk _ _)

theorem run_out_steady (hk : KeepsSteady complete) (g : DWC2GadgetState) (n : Nat) :
    Steady g (run_out complete g n) := by
  unfold run_out
  cases g.out_p n with
  | none => exact Steady.refl g
  | some p =>
    have hrun := out_run_steady g n p
    dsimp only
    generalize dwc2_ep_out_run g n p = r at hrun ⊢
    obtain ⟨g', _ | _⟩ := r
    · exact hrun
    · have hset : Steady g' (g'.set_out n none) :=
        SameSession.steady ⟨SameRole.refl _, rfl, rfl, rfl, rfl, rfl⟩ rfl
      exact (hrun.trans hset).trans (hk _ _)

/-- A fold of steady steps. -/
theorem foldl_steady {α : Type} {f : DWC2GadgetState → α → DWC2GadgetState}
    (hf : ∀ g a, Steady g (f g a)) (l : List α) (g : DWC2GadgetState) :
    Steady g (l.foldl f g) := by
  induction l generalizing g with
  | nil => exact Steady.refl g
  | cons a l ih => exact (hf g a).trans (ih _)

theorem device_run_steady (hk : KeepsSteady complete) (g : DWC2GadgetState) :
    Steady g (dwc2_device_run complete g) := by
  unfold dwc2_device_run
  apply Steady.ite (Steady.refl g)
  have hep0 : Steady g (dwc2_ep0_run complete g) := by
    unfold dwc2_ep0_run
    apply Steady.ite (Steady.refl g)
    exact Steady.ite (ctrl_complete_steady hk g _) (ep0_stage_steady hk g)
  apply Steady.trans _ (update_irq_steady _)
  apply hep0.trans
  apply foldl_steady
  exact fun g n => (run_in_steady hk g n).trans (run_out_steady hk _ n)

/-! ## The host -/

theorem fail_packet_steady (hk : KeepsSteady complete) (g : DWC2GadgetState)
    (q : Option USBPacket) : Steady g (fail_packet complete g q) := by
  cases q with
  | none => exact Steady.refl g
  | some p => exact hk g _

theorem fail_packets_steady (hk : KeepsSteady complete) (g : DWC2GadgetState) :
    Steady g (dwc2_gadget_fail_packets complete g) := by
  unfold dwc2_gadget_fail_packets
  have hctrl : Steady g (if g.ctrl_p.isSome then dwc2_ctrl_complete complete g .ioerror else g) :=
    Steady.ite (ctrl_complete_steady hk g .ioerror) (Steady.refl g)
  apply hctrl.trans
  apply foldl_steady
  intro g n
  have hdrop : Steady g ((g.set_in n none).set_out n none) :=
    SameSession.steady ⟨SameRole.refl _, rfl, rfl, rfl, rfl, rfl⟩ rfl
  exact (hdrop.trans (fail_packet_steady hk _ _)).trans (fail_packet_steady hk _ _)

theorem handle_reset_steady (hk : KeepsSteady complete) (g : DWC2GadgetState) :
    Steady g (dwc2_gadget_handle_reset complete g) := by
  unfold dwc2_gadget_handle_reset
  apply Steady.ite (Steady.refl g)
  apply (fail_packets_steady hk g).trans
  generalize dwc2_gadget_fail_packets complete g = g'
  have hwake : SameRole g'.dwc2 (if on DSTS_SUSPSTS g'.dwc2.dsts then
      dwc2_set_gintsts { g'.dwc2 with dsts := clear DSTS_SUSPSTS g'.dwc2.dsts }
        GINTSTS_WKUPINT true
    else g'.dwc2) := SameRole.ite ⟨rfl, rfl, rfl, rfl⟩ (SameRole.refl _)
  exact SameSession.steady ⟨hwake.trans ⟨rfl, rfl, rfl, rfl⟩, rfl, rfl, rfl, rfl, rfl⟩ rfl

theorem handle_control_steady (hk : KeepsSteady complete) (g : DWC2GadgetState) (p : USBPacket)
    (length : Nat) : Steady g (dwc2_gadget_handle_control complete g p length) := by
  unfold dwc2_gadget_handle_control
  have hfirst : Steady g (if g.ctrl_p.isSome then dwc2_ctrl_complete complete g .ioerror else g) :=
    Steady.ite (ctrl_complete_steady hk g _) (Steady.refl g)
  refine (hfirst.trans ?_).trans (device_run_steady hk _)
  exact SameSession.steady ⟨SameRole.refl _, rfl, rfl, rfl, rfl, rfl⟩ rfl

theorem handle_iso_steady (g : DWC2GadgetState) (p : USBPacket) (n : Nat) (in_ : Bool) :
    Steady g (dwc2_gadget_handle_iso g p n in_).1 := by
  have hsteady : ∀ s, SameRole g.dwc2 s → Steady g { g with dwc2 := dwc2_device_update_irq s } :=
    fun s hs => steady_dwc2 (hs.trans ⟨rfl, rfl, rfl, rfl⟩)
  unfold dwc2_gadget_handle_iso
  cases in_ with
  | true =>
    have hrole := call_role (in_packets_call g.dwc2 n (p.iov.length % 2 ^ 32))
    apply hsteady
    exact (hrole.trans (only_set_ep _ n true _).role).ite hrole
  | false =>
    have htoken : SameRole g.dwc2 (if on DXEPCTL_EPENA (dwc2_ep g.dwc2 n false).ctl then g.dwc2
        else g.dwc2.set_ep n false { dwc2_ep g.dwc2 n false with
          int := raise DXEPINT_OUTTKNEPDIS (dwc2_ep g.dwc2 n false).int }) :=
      (SameRole.refl _).ite (only_set_ep _ n false _).role
    apply hsteady
    exact htoken.trans (call_role (out_packets_call _ n p.iov (p.iov.length % 2 ^ 32)))

theorem handle_data_steady (g : DWC2GadgetState) (p : USBPacket) :
    Steady g (dwc2_gadget_handle_data g p).1 := by
  have hset : ∀ (g' : DWC2GadgetState) (n : Nat) (q : Option USBPacket),
      Steady g' (g'.set_in n q) ∧ Steady g' (g'.set_out n q) := fun g' n q =>
    ⟨SameSession.steady ⟨SameRole.refl _, rfl, rfl, rfl, rfl, rfl⟩ rfl,
      SameSession.steady ⟨SameRole.refl _, rfl, rfl, rfl, rfl, rfl⟩ rfl⟩
  unfold dwc2_gadget_handle_data
  dsimp only
  split
  · exact Steady.refl g
  split
  · exact Steady.refl g
  split
  · exact handle_iso_steady g p _ _
  split
  · -- an IN packet
    have hrun := ((hset g p.nr (some { p with status := .success })).1.trans
      (in_run_steady _ p.nr { p with status := .success })).trans (update_irq_steady _)
    split
    · exact hrun.trans (hset _ _ _).1
    · exact hrun.trans (hset _ _ _).1
  · have hoff : Steady g { g with out_off := Function.update g.out_off p.nr 0 } :=
      SameSession.steady ⟨SameRole.refl _, rfl, rfl, rfl, rfl, rfl⟩ rfl
    have hrun := ((hoff.trans (hset _ p.nr (some { p with status := .success })).2).trans
      (out_run_steady _ p.nr { p with status := .success })).trans (update_irq_steady _)
    split
    · exact hrun.trans (hset _ _ _).2
    · exact hrun.trans (hset _ _ _).2

theorem cancel_steady (g : DWC2GadgetState) (id : Nat) :
    Steady g (dwc2_gadget_cancel_packet g id) := by
  unfold dwc2_gadget_cancel_packet
  dsimp only
  split
  all_goals exact SameSession.steady ⟨SameRole.refl _, rfl, rfl, rfl, rfl, rfl⟩ rfl

/-- What the host sees, of a session that follows the cable and VBUS. -/
theorem visible_eq (h : Derived g) : dwc2_pullup_visible g =
    (g.gadget && !(if on GUSBCFG_FORCEHOSTMODE g.dwc2.gusbcfg then true
      else if on GUSBCFG_FORCEDEVMODE g.dwc2.gusbcfg then false
      else !dwc2_cable_is_device g) &&
      session_valid g && !on DCTL_SFTDISCON g.dwc2.dctl) := by
  obtain ⟨hconid, -, hbse⟩ := (derived_iff g).mp h
  unfold dwc2_pullup_visible dwc2_is_host_role
  rw [hconid, hbse]

theorem session_steady (g : DWC2GadgetState) (val : Bool) (hg : g.gadget = true)
    {g' : DWC2GadgetState} (hg' : g' = dwc2_session_apply { g with port_vbus := val } true) :
    Tracks g g' ∧ g'.script = g.script ∧
      (Derived g → dwc2_pullup_visible g = val → dwc2_pullup_visible g' = val) := by
  have hderived := session_apply_derived { g with port_vbus := val } true
  rw [← hg'] at hderived
  rw [session_apply_eq] at hg'
  obtain ⟨-, -, hdctl, hcfg, -, hcable⟩ := session_applied_keeps { g with port_vbus := val } true
  have hdev : dwc2_cable_is_device g' = dwc2_cable_is_device g := by
    unfold dwc2_cable_is_device
    rw [hg']
    dsimp only
    rw [hcable]
  have hbh : g'.connect_bh = true := by
    rw [hg']
    dsimp only
    rw [hg]
    rfl
  refine ⟨⟨?_, ?_, ?_, fun _ => hbh, .inr hbh, fun _ => hderived⟩, ?_, ?_⟩
  · rw [hg']
  · rw [hg']
  · rw [hg']
  · rw [hg']
  · intro hd hv
    -- only the validity of the session can differ
    have hgadget : g'.gadget = true := by
      rw [hg']
      exact hg
    have hport : g'.port = g.port := by rw [hg']
    have hval : g'.port_vbus = val := by rw [hg']
    have hdctl' : g'.dwc2.dctl = g.dwc2.dctl := by
      rw [hg']
      exact hdctl
    have hcfg' : g'.dwc2.gusbcfg = g.dwc2.gusbcfg := by
      rw [hg']
      exact hcfg
    rw [visible_eq hd] at hv
    rw [visible_eq hderived, hgadget, hdctl', hcfg', hdev]
    rw [hg] at hv
    unfold session_valid dwc2_vbus at hv ⊢
    rw [hdev, hgadget, hport, hval]
    rw [hg] at hv
    cases val with
    | false =>
      cases hc : dwc2_cable_is_device g with
      | false => simpa [hc] using hv
      | true => simp
    | true =>
      cases hc : dwc2_cable_is_device g with
      | false => simpa [hc] using hv
      | true =>
        simp only [hc, Bool.not_true, Bool.false_or, Bool.true_and, Bool.and_eq_true] at hv ⊢
        obtain ⟨⟨hrole, hport', -⟩, hsoft⟩ := hv
        exact ⟨⟨hrole, hport', trivial⟩, hsoft⟩

theorem vbus_steady (g : DWC2GadgetState) (val : Bool) :
    Tracks g (act complete g (.vbus val)) ∧ (act complete g (.vbus val)).script = g.script ∧
      (Derived g → dwc2_pullup_visible g = val →
        dwc2_pullup_visible (act complete g (.vbus val)) = val) := by
  unfold act
  dsimp only
  by_cases hsame : val = g.port_vbus
  · rw [if_pos hsame]
    exact ⟨(Steady.refl g).tracks, rfl, fun _ => id⟩
  rw [if_neg hsame]
  unfold dwc2_gadget_vbus_changed
  by_cases hg : g.gadget = true
  · rw [if_pos hg]
    exact session_steady g val hg rfl
  · rw [if_neg hg]
    rw [Bool.not_eq_true] at hg
    have hvalid : session_valid { g with port_vbus := val } = session_valid g := by
      unfold session_valid dwc2_vbus dwc2_cable_is_device
      rw [hg]
      rfl
    refine ⟨⟨rfl, rfl, rfl, id, .inl rfl, fun hd => ?_⟩, rfl, fun _ hv => hv⟩
    exact hd.congr rfl rfl rfl rfl hvalid

/-- An act that leaves VBUS. -/
theorem act_steady (hk : KeepsSteady complete) (g : DWC2GadgetState) {a : HostAct}
    (ha : ∀ val, a ≠ .vbus val) : Steady g (act complete g a) := by
  -- what the core notes for itself
  have hnote : ∀ (g : DWC2GadgetState) (l : List Nat), Steady g { g with pending := l } :=
    fun g l => SameSession.steady ⟨SameRole.refl _, rfl, rfl, rfl, rfl, rfl⟩ rfl
  cases a with
  | control p setup data =>
    unfold act
    dsimp only
    split
    · have hbuf : Steady g { g with
          setup_buf := setup
          data_buf := splice g.data_buf 0 (data.take (setup_length setup)) } :=
        SameSession.steady ⟨SameRole.refl _, rfl, rfl, rfl, rfl, rfl⟩ rfl
      have hs := hbuf.trans (handle_control_steady hk _ p (setup_length setup))
      generalize dwc2_gadget_handle_control complete { g with
          setup_buf := setup
          data_buf := splice g.data_buf 0 (data.take (setup_length setup)) } p
        (setup_length setup) = g' at hs ⊢
      split
      · exact hs.trans (hnote _ _)
      · exact hs
    · exact Steady.refl g
  | data p =>
    unfold act
    refine Steady.ite ?_ (Steady.refl g)
    have hs := handle_data_steady g p
    generalize dwc2_gadget_handle_data g p = r at hs
    obtain ⟨g', p'⟩ := r
    exact Steady.ite (hs.trans (hnote g' _)) hs
  | cancel id =>
    unfold act
    dsimp only
    split
    · exact (hnote g _).trans (cancel_steady _ id)
    · exact Steady.refl g
  | bus_reset => exact handle_reset_steady hk g
  | vbus val => exact absurd rfl (ha val)
  | ret => exact Steady.refl g

theorem act_tracks (hk : KeepsSteady complete) (g : DWC2GadgetState) (a : HostAct) :
    Tracks g (act complete g a) := by
  by_cases ha : ∃ val, a = .vbus val
  · obtain ⟨val, rfl⟩ := ha
    exact (vbus_steady g val).1
  · exact (act_steady hk g fun val h => ha ⟨val, h⟩).tracks

theorem acts_steady (hk : KeepsSteady complete) (k : Nat) (g : DWC2GadgetState) :
    Steady g (acts complete k g) := by
  induction k generalizing g with
  | zero => exact Steady.refl g
  | succ k ih =>
    unfold acts
    have hsame : ∀ rest, SameSession g { g with script := rest } := fun rest =>
      ⟨SameRole.refl _, rfl, rfl, rfl, rfl, rfl⟩
    -- the acts that are left switch VBUS no other way
    have hrest : ∀ a rest, g.script = a :: rest →
        ∀ val ∈ switches rest, val ∈ switches g.script := by
      intro a rest hscript val hval
      rw [hscript]
      exact ((List.sublist_cons_self a rest).filterMap _).subset hval
    split
    · exact Steady.refl g
    · next rest hscript =>
      exact ⟨(hsame rest).tracks, hrest _ rest hscript,
        fun want _ _ hv => (hsame rest).visible.trans hv⟩
    · next a rest _ hscript =>
      apply Steady.trans _ (ih _)
      have htrack : Tracks g (act complete { g with script := rest } a) :=
        (hsame rest).tracks.trans (act_tracks hk _ a)
      by_cases ha : ∃ val, a = .vbus val
      · obtain ⟨val, rfl⟩ := ha
        obtain ⟨-, hkeep, hsteady⟩ := @vbus_steady complete { g with script := rest } val
        refine ⟨htrack, ?_, fun want hd hall hv => ?_⟩
        · rw [hkeep]
          exact hrest _ rest hscript
        · have hval : val = want := hall val (by rw [hscript]; exact List.mem_cons_self ..)
          subst hval
          exact hsteady ((hsame rest).tracks.derived hd) ((hsame rest).visible.trans hv)
      · have hs := act_steady hk { g with script := rest } fun val h => ha ⟨val, h⟩
        refine ⟨htrack, fun val hval => hrest _ rest hscript val (hs.switches val hval),
          fun want hd hall hv => ?_⟩
        exact hs.steady want ((hsame rest).tracks.derived hd)
          (fun val hval => hall val (hrest _ rest hscript val hval))
          ((hsame rest).visible.trans hv)

/-- However deep the host acts from inside its acts. -/
theorem complete_steady (depth : Nat) : KeepsSteady (usb_packet_complete depth) := by
  have hnote : ∀ (g : DWC2GadgetState) (p : USBPacket), Steady g { g with
      pending := g.pending.filter (· != p.id)
      completed := g.completed ++ [p] } := fun g p =>
    SameSession.steady ⟨SameRole.refl _, rfl, rfl, rfl, rfl, rfl⟩ rfl
  have habort : ∀ g : DWC2GadgetState, Steady g { g with aborted := true } := fun g =>
    SameSession.steady ⟨SameRole.refl _, rfl, rfl, rfl, rfl, rfl⟩ rfl
  induction depth with
  | zero =>
    intro g p
    exact Steady.ite (hnote g p) (habort g)
  | succ depth ih =>
    intro g p
    exact Steady.ite ((hnote g p).trans (acts_steady ih _ _)) (habort g)

/-! ## Steps -/

/-- What holds after every step. -/
structure Follows (g : DWC2GadgetState) : Prop where
  derived : Derived g
  port : g.gadget = true → g.port = true
  detached : g.gadget = false → g.attached = false

/-- The device is attached as the host should see it, or the bottom half will see
    to it. -/
def Scheduled (g : DWC2GadgetState) : Prop :=
  g.attached = dwc2_pullup_visible g ∨ g.connect_bh = true

theorem Tracks.follows (h : Tracks g g') (hf : Follows g) : Follows g' where
  derived := h.derived hf.derived
  port := by
    rw [h.gadget, h.port]
    exact hf.port
  detached := by
    rw [h.gadget, h.attached]
    exact hf.detached

theorem Tracks.sched (h : Tracks g g') (hs : Scheduled g) : Scheduled g' := by
  rcases hs with hs | hs
  · rcases h.visible with hv | hbh
    · exact .inl (by rw [h.attached, hv, hs])
    · exact .inr hbh
  · exact .inr (h.scheduled hs)

theorem visible_of_no_gadget (h : g.gadget = false) : dwc2_pullup_visible g = false := by
  unfold dwc2_pullup_visible
  rw [h]
  rfl

theorem update_connection_eq (g : DWC2GadgetState) :
    dwc2_device_update_connection g = { g with connect_bh := g.gadget || g.connect_bh } := by
  unfold dwc2_device_update_connection
  obtain ⟨_, gadget⟩ := g
  cases gadget <;> rfl

/-- The registers changed, and the session did not. -/
theorem derived_registers {s : DWC2State} (hgotg : s.gotgctl = g.dwc2.gotgctl)
    (hcable : s.otg_cable = g.dwc2.otg_cable) (bh : Bool) (hd : Derived g) :
    Derived { g with dwc2 := s, connect_bh := bh } := by
  have hdev : dwc2_cable_is_device { g with dwc2 := s, connect_bh := bh }
      = dwc2_cable_is_device g := by
    unfold dwc2_cable_is_device
    dsimp only
    rw [hcable]
  apply hd.congr _ _ _ hdev
  · unfold session_valid
    rw [hdev]
    rfl
  all_goals
    dsimp only
    rw [hgotg]

/-- A change of the registers after which the bottom half is scheduled, if there is
    a gadget. -/
theorem tracks_connection {s : DWC2State} (hgotg : s.gotgctl = g.dwc2.gotgctl)
    (hcable : s.otg_cable = g.dwc2.otg_cable) :
    Tracks g (dwc2_device_update_connection { g with dwc2 := s }) := by
  rw [update_connection_eq]
  refine ⟨rfl, rfl, rfl, fun h => ?_, ?_, derived_registers hgotg hcable _⟩
  · dsimp only
    rw [h, Bool.or_true]
  · cases hg : g.gadget with
    | true => exact .inr rfl
    | false =>
      rw [visible_of_no_gadget hg]
      exact .inl (visible_of_no_gadget rfl)

/-- The registers changed, and not what the host sees of the device. -/
theorem tracks_registers {s : DWC2State} (hgotg : s.gotgctl = g.dwc2.gotgctl)
    (hcable : s.otg_cable = g.dwc2.otg_cable)
    (hhost : dwc2_is_host_role s = dwc2_is_host_role g.dwc2)
    (hsoft : on DCTL_SFTDISCON s.dctl = on DCTL_SFTDISCON g.dwc2.dctl) :
    Tracks g { g with dwc2 := s } := by
  refine ⟨rfl, rfl, rfl, id, .inl ?_, derived_registers hgotg hcable _⟩
  unfold dwc2_pullup_visible
  dsimp only
  rw [hhost, hsoft, hgotg]

/-- The interrupts of the global NAKs. -/
theorem ite_gintsts_role (s t : DWC2State) (h : SameRole s t) (c : Prop) [Decidable c] (f : Field)
    (b : Bool) : SameRole s (if c then dwc2_set_gintsts t f b else t) :=
  h.trans ((SameRole.ite ⟨rfl, rfl, rfl, rfl⟩ (SameRole.refl _)))

theorem dctl_write_tracks (g : DWC2GadgetState) (val : Nat) :
    Tracks g (dwc2_dctl_write g val) := by
  unfold dwc2_dctl_write
  dsimp only
  -- the registers but DCTL
  have hrole := ite_gintsts_role _ _ (ite_gintsts_role _ _ (ite_gintsts_role _ _
    (ite_gintsts_role _ _ (SameRole.refl g.dwc2) (on DCTL_SGNPINNAK val = true)
      GINTSTS_GINNAKEFF true) (on DCTL_CGNPINNAK val = true) GINTSTS_GINNAKEFF false)
    (on DCTL_SGOUTNAK val = true) GINTSTS_GOUTNAKEFF true)
    (on DCTL_CGOUTNAK val = true) GINTSTS_GOUTNAKEFF false
  revert hrole
  generalize (if on DCTL_CGOUTNAK val = true then dwc2_set_gintsts _ GINTSTS_GOUTNAKEFF false
    else _) = s
  intro hrole
  generalize (if on DCTL_CGOUTNAK val then clear DCTL_GOUTNAKSTS _ else _) = v
  split
  · exact tracks_connection hrole.gotgctl hrole.cable
  · next hsame =>
    have hhost : dwc2_is_host_role { s with dctl := v } = dwc2_is_host_role g.dwc2 := hrole.host
    have hsoft : on DCTL_SFTDISCON v = on DCTL_SFTDISCON g.dwc2.dctl := by
      simp only [bne_iff_ne, ne_eq, not_not] at hsame
      exact hsame.symm
    exact tracks_registers (s := { s with dctl := v }) hrole.gotgctl hrole.cable hhost hsoft

theorem epctl_write_steady (g : DWC2GadgetState) (n : Nat) (in_ : Bool) (val : Nat) :
    Steady g (dwc2_epctl_write g n in_ val) := by
  unfold dwc2_epctl_write
  dsimp only
  have hrole := (only_set_ep g.dwc2 n in_ (epctl_written n in_ val (dwc2_ep g.dwc2 n in_))).role
  split
  all_goals exact SameSession.steady ⟨hrole, rfl, rfl, rfl, rfl, rfl⟩ rfl

theorem ep_store_steady (g : DWC2GadgetState) (n : Nat) (in_ : Bool) (word val : Nat) :
    Steady g (ep_store g n in_ word val) := by
  unfold ep_store
  dsimp only
  split
  · exact epctl_write_steady g n in_ val
  split
  · exact steady_dwc2 (only_set_ep _ n in_ _).role
  split
  · exact steady_dwc2 (only_set_ep _ n in_ _).role
  split
  · exact steady_dwc2 (only_set_ep _ n in_ _).role
  · exact Steady.refl g

theorem dreg_store_role (s : DWC2State) {index : Nat} (h : index ≠ 1) (val : Nat) :
    SameRole s (dreg_store s index val) := by
  unfold dreg_store
  split
  case h_2 => exact absurd rfl h
  all_goals exact ⟨rfl, rfl, rfl, rfl⟩

/-- A write that does not store DCTL as it is tracks the connection. -/
theorem dreg_write_tracks (hk : KeepsSteady complete) (g : DWC2GadgetState) {addr : Nat}
    (hraw : ¬ (DCTL < addr ∧ addr < DCTL + 4)) (val : Nat) :
    Tracks g (dwc2_dreg_write complete g addr val) := by
  have hend : ∀ g', Steady g' (dreg_written complete g') := fun g' =>
    (device_run_steady hk g').trans (update_irq_steady _)
  have hep : ∀ (n : Nat) (in_ : Bool), Tracks g
      (if DWC2_NB_EP ≤ n then g
      else dreg_written complete (ep_store g n in_ (addr / 4 % 8) val)) := by
    intro n in_
    split
    · exact (Steady.refl g).tracks
    · exact ((ep_store_steady g n in_ _ val).trans (hend _)).tracks
  unfold dwc2_dreg_write
  by_cases hdreg : DCFG ≤ addr ∧ addr < DCFG + DWC2_DREG_SIZE
  · rw [if_pos hdreg]
    refine Tracks.trans ?_ (hend _).tracks
    by_cases hdctl : addr = DCTL
    · rw [if_pos hdctl]
      exact dctl_write_tracks g val
    rw [if_neg hdctl]
    split
    · exact (Steady.refl g).tracks
    · have hindex : (addr - DCFG) / 4 ≠ 1 := by
        unfold DCFG DCTL at *
        omega
      exact (steady_dwc2 (dreg_store_role g.dwc2 hindex val)).tracks
  rw [if_neg hdreg]
  by_cases hin : DIEPCTL 0 ≤ addr ∧ addr < DIEPCTL DWC2_EP_BLOCKS ∨
      DOEPCTL 0 ≤ addr ∧ addr < DOEPCTL DWC2_EP_BLOCKS
  · rw [if_pos hin]
    exact hep _ _
  · rw [if_neg hin]
    exact (hend g).tracks

theorem gusbcfg_write_tracks (hk : KeepsSteady complete) (g : DWC2GadgetState) (val : Nat) :
    Tracks g (gusbcfg_write complete g val) := by
  unfold gusbcfg_write
  dsimp only
  split
  · exact (tracks_connection (s := { g.dwc2 with gusbcfg := val }) rfl rfl).trans
      (device_run_steady hk _).tracks
  · next hsame =>
    simp only [Bool.or_eq_true, bne_iff_ne, ne_eq, not_or, not_not] at hsame
    have hhost : dwc2_is_host_role { g.dwc2 with gusbcfg := val } = dwc2_is_host_role g.dwc2 := by
      unfold dwc2_is_host_role
      dsimp only
      rw [hsame.1, hsame.2]
    exact tracks_registers rfl rfl hhost rfl

/-- The session's bits in GOTGCTL are not the guest's. -/
theorem gotgctl_fields_keep (val old : Nat) :
    on GOTGCTL_CONID_B (gotgctl_fields val old) = on GOTGCTL_CONID_B old ∧
      on GOTGCTL_ASESVLD (gotgctl_fields val old) = on GOTGCTL_ASESVLD old ∧
      on GOTGCTL_BSESVLD (gotgctl_fields val old) = on GOTGCTL_BSESVLD old := by
  have hac : Register.Disjoint GOTGCTL_CONID_B GOTGCTL_ASESVLD := by decide
  have hbc : Register.Disjoint GOTGCTL_CONID_B GOTGCTL_BSESVLD := by decide
  have hba : Register.Disjoint GOTGCTL_ASESVLD GOTGCTL_BSESVLD := by decide
  unfold gotgctl_fields
  refine ⟨on_take_field _ _ _, ?_, ?_⟩
  · rw [take_field, on_dp hac]
    exact on_take_field _ _ _
  · rw [take_field, on_dp hbc, take_field, on_dp hba]
    exact on_take_field _ _ _

theorem gotgctl_write_tracks (g : DWC2GadgetState) (val : Nat) :
    Tracks g { g with dwc2 := { g.dwc2 with
      gotgctl := gotgctl_fields val g.dwc2.gotgctl } } := by
  obtain ⟨hconid, hase, hbse⟩ := gotgctl_fields_keep val g.dwc2.gotgctl
  refine ⟨rfl, rfl, rfl, id, .inl ?_, fun hd => hd.congr hconid hase hbse rfl rfl⟩
  unfold dwc2_pullup_visible dwc2_is_host_role
  dsimp only
  rw [hconid, hbse]

theorem reset_timer_steady (hk : KeepsSteady complete) (g : DWC2GadgetState) :
    Steady g (dwc2_gadget_reset_timer complete g) := by
  unfold dwc2_gadget_reset_timer
  dsimp only
  split
  · exact SameSession.steady ⟨SameRole.refl _, rfl, rfl, rfl, rfl, rfl⟩ rfl
  split
  · exact SameSession.steady ⟨⟨rfl, rfl, rfl, rfl⟩, rfl, rfl, rfl, rfl, rfl⟩ rfl
  · refine Steady.trans ?_ (device_run_steady hk _)
    exact SameSession.steady ⟨SameRole.refl _, rfl, rfl, rfl, rfl, rfl⟩ rfl

/-- A session that was just applied, with whatever came before. -/
theorem session_apply_follows (g : DWC2GadgetState) (events : Bool)
    (hport : g.gadget = true → g.port = true) (hdetached : g.gadget = false → g.attached = false) :
    Follows (dwc2_session_apply g events) ∧ Scheduled (dwc2_session_apply g events) := by
  have hderived := session_apply_derived g events
  rw [session_apply_eq] at hderived ⊢
  refine ⟨⟨hderived, hport, hdetached⟩, ?_⟩
  cases hg : g.gadget with
  | true => exact .inr rfl
  | false =>
    rw [Scheduled, visible_of_no_gadget rfl]
    exact .inl (hdetached hg)

theorem device_reset_follows (hk : KeepsSteady complete) (g : DWC2GadgetState)
    (hport : g.gadget = true → g.port = true) (hdetached : g.gadget = false → g.attached = false) :
    Follows (dwc2_device_reset complete g) ∧ Scheduled (dwc2_device_reset complete g) := by
  unfold dwc2_device_reset
  dsimp only
  by_cases hg : g.gadget = true
  · rw [if_pos hg]
    have hfail := (fail_packets_steady hk { g with dwc2 := device_reset_regs g.dwc2 }).tracks
    generalize dwc2_gadget_fail_packets complete { g with dwc2 := device_reset_regs g.dwc2 } = g'
      at hfail ⊢
    apply session_apply_follows
    · intro _
      exact hfail.port.trans (hport hg)
    · intro hno
      exact absurd (hfail.gadget.symm.trans hno) (by simp [hg])
  · rw [if_neg hg]
    exact session_apply_follows _ false hport hdetached

/-! ## The bottom half -/

/-- The speeds that the gadget attaches with, by DCFG. -/
def offered (g : DWC2GadgetState) : Nat :=
  USB_SPEED_MASK_FULL +
    if ex DCFG_DEVSPD g.dwc2.dcfg = DCFG_DEVSPD_HS then USB_SPEED_MASK_HIGH else 0

/-- The port has none of the speeds of a device that is to be attached. -/
def Refused (g : DWC2GadgetState) : Prop :=
  dwc2_pullup_visible g = true ∧ g.attached = false ∧ offered g &&& g.port_speedmask = 0

theorem Follows.congr (hf : Follows g) (hs : SameRole g.dwc2 g'.dwc2)
    (hgadget : g'.gadget = g.gadget) (hport : g'.port = g.port) (hvbus : g'.port_vbus = g.port_vbus)
    (hdetached : g'.gadget = false → g'.attached = false) : Follows g' := by
  have hdev : dwc2_cable_is_device g' = dwc2_cable_is_device g := by
    unfold dwc2_cable_is_device
    rw [hs.cable, hgadget]
  refine ⟨?_, ?_, hdetached⟩
  · apply hf.derived.congr _ _ _ hdev
    · unfold session_valid dwc2_vbus
      rw [hdev, hgadget, hport, hvbus]
    all_goals rw [hs.gotgctl]
  · rw [hgadget, hport]
    exact hf.port

/-- The core attaches the device, and the host acts. -/
theorem attach_follows {host : DWC2GadgetState → DWC2GadgetState}
    (hhost : ∀ g, Steady g (host g)) (hf : Follows g) (hgadget : g.gadget = true)
    (hmask : g.speedmask &&& g.port_speedmask ≠ 0) (hwant : dwc2_pullup_visible g = true) :
    Follows (usb_device_attach host g) ∧ Scheduled (usb_device_attach host g) ∧
      (usb_device_attach host g).attached = true ∧
      ((∀ val ∈ switches g.script, val = true) →
        dwc2_pullup_visible (usb_device_attach host g) = true) := by
  rw [usb_device_attach, if_neg hmask]
  have hf1 : Follows { g with attached := true, speed := usb_pick_speed g } :=
    hf.congr (SameRole.refl _) rfl rfl rfl fun hno =>
      absurd (hgadget.symm.trans hno) (by decide)
  have h := hhost { g with attached := true, speed := usb_pick_speed g }
  exact ⟨h.tracks.follows hf1, h.tracks.sched (.inl hwant.symm), h.tracks.attached,
    fun hall => h.steady true hf1.derived hall hwant⟩

/-- What the bottom half does when the port does not refuse the device: the host sees
    what it should as the bottom half runs, and in the end too unless it switched VBUS
    in between, which schedules the bottom half again. -/
theorem connect_bh_follows {host : DWC2GadgetState → DWC2GadgetState}
    (hhost : ∀ g, Steady g (host g)) (hf : Follows g) :
    Follows (dwc2_gadget_connect_bh host g) ∧
      (¬ Refused g → Scheduled (dwc2_gadget_connect_bh host g) ∧
        (dwc2_gadget_connect_bh host g).attached = dwc2_pullup_visible g ∧
        ((∀ val ∈ switches g.script, val = dwc2_pullup_visible g) →
          dwc2_pullup_visible (dwc2_gadget_connect_bh host g) = dwc2_pullup_visible g)) := by
  have hrole : SameRole g.dwc2 g.dwc2 := SameRole.refl g.dwc2
  unfold dwc2_gadget_connect_bh
  dsimp only
  have hsees : dwc2_pullup_visible { g with connect_bh := false } = dwc2_pullup_visible g := rfl
  rw [hsees]
  split
  · next hnothing =>
    -- Nothing to change, or no port: then no gadget, which is neither seen nor attached.
    have hatt : g.attached = dwc2_pullup_visible g := by
      rcases hnothing with hsame | hport
      · exact hsame.symm
      · have hno : g.gadget = false := by
          by_contra hg
          rw [Bool.not_eq_false] at hg
          exact absurd (hf.port hg) (by simp [hport])
        rw [visible_of_no_gadget hno]
        exact hf.detached hno
    exact ⟨hf.congr hrole rfl rfl rfl hf.detached, fun _ => ⟨.inl hatt, hatt, fun _ => rfl⟩⟩
  · next hchange =>
    rw [not_or] at hchange
    split
    · next hwant =>
      have hdet : g.attached = false := by
        cases ha : g.attached with
        | false => rfl
        | true => exact absurd (hwant.trans ha.symm) hchange.1
      have hgadget : g.gadget = true := by
        cases hg : g.gadget with
        | true => rfl
        | false => exact absurd ((visible_of_no_gadget hg).symm.trans hwant) (by decide)
      have hspeeds : USB_SPEED_MASK_FULL +
          (if ex DCFG_DEVSPD g.dwc2.dcfg = DCFG_DEVSPD_HS then USB_SPEED_MASK_HIGH else 0)
          = offered g := rfl
      rw [hspeeds]
      have hf1 : Follows { g with connect_bh := false, speedmask := offered g } :=
        hf.congr hrole rfl rfl rfl hf.detached
      by_cases hmask : offered g &&& g.port_speedmask = 0
      · rw [usb_device_attach, if_pos hmask]
        exact ⟨hf1, fun hyes => absurd ⟨hwant, hdet, hmask⟩ hyes⟩
      · obtain ⟨hf', hs', hatt', hsteady⟩ := attach_follows hhost hf1 hgadget hmask hwant
        exact ⟨hf', fun _ => ⟨hs', hatt'.trans hwant.symm, fun hall =>
          (hsteady (hwant ▸ hall)).trans hwant.symm⟩⟩
    · next hwant =>
      rw [Bool.not_eq_true] at hwant
      unfold usb_device_detach
      have hf1 : Follows { g with connect_bh := false, reset_timer := none, reset_phase := 0 } :=
        hf.congr hrole rfl rfl rfl hf.detached
      -- The detach runs host code, which may switch the pull-up again.
      have h := hhost { g with connect_bh := false, reset_timer := none, reset_phase := 0 }
      have hvis : dwc2_pullup_visible
          { g with connect_bh := false, reset_timer := none, reset_phase := 0 }
          = dwc2_pullup_visible g := rfl
      refine ⟨(h.tracks.follows hf1).congr (SameRole.refl _) rfl rfl rfl fun _ => rfl,
        fun _ => ⟨?_, hwant.symm, fun hall => h.steady _ hf1.derived hall hvis⟩⟩
      rcases h.tracks.visible with hv | hbh
      · exact .inl ((hv.trans (hvis.trans hwant)).symm)
      · exact .inr hbh

/-! ## The gadget comes and goes -/

/-- Without a gadget there is nothing to attach. -/
theorem absent_follows (hno : g.gadget = false) (hdet : g.attached = false) (hd : Derived g) :
    Follows g ∧ Scheduled g := by
  refine ⟨⟨hd, fun hyes => absurd (hno.symm.trans hyes) (by decide), fun _ => hdet⟩, .inl ?_⟩
  rw [hdet, visible_of_no_gadget hno]

theorem realize_follows (hf : Follows g) : Follows (dwc2_gadget_realize g) ∧
    (Scheduled g → Scheduled (dwc2_gadget_realize g)) := by
  unfold dwc2_gadget_realize
  split
  · exact ⟨hf, id⟩
  · obtain ⟨hf', hs'⟩ := session_apply_follows
      { dwc2 := g.dwc2
        gadget := true
        data_buf := List.replicate DATA_BUF_SIZE 0
        speedmask := USB_SPEED_MASK_FULL + USB_SPEED_MASK_HIGH
        port_vbus := g.port_vbus
        port_speedmask := g.port_speedmask
        now := g.now
        aborted := g.aborted
        completed := g.completed
        script := g.script } true (fun _ => rfl) (fun hno => Bool.noConfusion hno)
    exact ⟨hf', fun _ => hs'⟩

theorem unplug_follows {host : DWC2GadgetState → DWC2GadgetState} (hhost : ∀ g, Steady g (host g))
    (hf : Follows g) :
    Follows (usb_device_unplug host g) ∧ Scheduled (usb_device_unplug host g) := by
  unfold usb_device_unplug dwc2_gadget_unrealize
  dsimp only
  have hout : Follows (if g.attached = true then usb_device_detach host g else g) ∧
      (if g.attached = true then usb_device_detach host g else g).attached = false := by
    split
    · exact ⟨((hhost g).tracks.follows hf).congr (SameRole.refl _) rfl rfl rfl fun _ => rfl, rfl⟩
    · next hno => exact ⟨hf, by simpa using hno⟩
  generalize (if g.attached = true then usb_device_detach host g else g) = g₁ at hout ⊢
  obtain ⟨hf1, hdet⟩ := hout
  -- what is left is a controller without a gadget, and off its port
  have hleft : ∀ g₂ : DWC2GadgetState, g₂.gadget = false → g₂.attached = false → Derived g₂ →
      Follows { g₂ with connect_bh := false, reset_timer := none, port := false } ∧
        Scheduled { g₂ with connect_bh := false, reset_timer := none, port := false } := by
    intro g₂ hno hdet hd
    refine @absent_follows { g₂ with connect_bh := false, reset_timer := none, port := false }
      hno hdet (hd.congr rfl rfl rfl rfl ?_)
    unfold session_valid dwc2_vbus dwc2_cable_is_device
    dsimp only
    rw [hno]
    rfl
  split
  · have hd := session_apply_derived { g₁ with gadget := false } true
    unfold dwc2_device_update_session
    generalize hg2 : dwc2_session_apply { g₁ with gadget := false } true = g₂ at hd ⊢
    rw [session_apply_eq] at hg2
    refine hleft g₂ ?_ ?_ hd
    · rw [← hg2]
    · rw [← hg2]
      exact hdet
  · next hno => exact hleft g₁ (by simpa using hno) hdet hf1.derived

/-! ## Runs -/

/-- The bottom half runs, and the port refuses the device. -/
def RefusesAttach (g : DWC2GadgetState) (op : Op) : Prop :=
  op.kind = .bh ∧ g.connect_bh = true ∧ Refused g

/-- The state that a step starts from. -/
theorem step_prepared (g : DWC2GadgetState) (op : Op) :
    SameSession g { g with
      script := op.script
      dwc2 := { g.dwc2 with dma_results := op.dma_results } } :=
  ⟨⟨rfl, rfl, rfl, rfl⟩, rfl, rfl, rfl, rfl, rfl⟩

theorem step_follows (hf : Follows g) {op : Op} (hraw : op.kind.raw_dctl = false) :
    Follows (step g op) ∧ (Scheduled g → ¬ RefusesAttach g op → Scheduled (step g op)) := by
  have hk : KeepsSteady (usb_packet_complete op.depth) := complete_steady op.depth
  have hprep := (step_prepared g op).tracks
  have hf1 := hprep.follows hf
  -- a step that only tracks the connection
  have htracks : ∀ {g₂ : DWC2GadgetState}, Tracks { g with
      script := op.script
      dwc2 := { g.dwc2 with dma_results := op.dma_results } } g₂ →
      Follows g₂ ∧ (Scheduled g → ¬ RefusesAttach g op → Scheduled g₂) := fun h =>
    ⟨h.follows hf1, fun hs _ => h.sched (hprep.sched hs)⟩
  have hhost : ∀ g : DWC2GadgetState,
      Steady g (acts (usb_packet_complete op.depth) g.script.length g) := fun g =>
    acts_steady hk _ g
  unfold step
  generalize hg1 : ({ g with
      script := op.script
      dwc2 := { g.dwc2 with dma_results := op.dma_results } } : DWC2GadgetState) = g₁
    at hprep hf1 htracks ⊢
  unfold Op.run
  dsimp only
  cases hkind : op.kind with
  | dreg addr val =>
    refine htracks (dreg_write_tracks hk g₁ (fun hin => ?_) _)
    rw [hkind, Kind.raw_dctl, decide_eq_true hin.1, decide_eq_true hin.2] at hraw
    cases hraw
  | gusbcfg val => exact htracks (gusbcfg_write_tracks hk g₁ _)
  | gotgctl val => exact htracks (gotgctl_write_tracks g₁ _)
  | gintsts val =>
    exact htracks (steady_dwc2 (s := { g₁.dwc2 with
      gintsts := gintsts_fields (val % 2 ^ 32) g₁.dwc2.gintsts }) ⟨rfl, rfl, rfl, rfl⟩).tracks
  | memory mem =>
    exact htracks (steady_dwc2 (s := { g₁.dwc2 with mem := mem }) ⟨rfl, rfl, rfl, rfl⟩).tracks
  | host a => exact htracks (act_tracks hk g₁ a)
  | clock now =>
    exact htracks (SameSession.tracks ⟨SameRole.refl _, rfl, rfl, rfl, rfl, rfl⟩)
  | timer => exact htracks (Steady.ite (reset_timer_steady hk g₁) (Steady.refl g₁)).tracks
  | bh =>
    dsimp only
    split
    · next hbh =>
      obtain ⟨hf2, hgo⟩ := connect_bh_follows hhost hf1
      refine ⟨hf2, fun _ hyes => (hgo fun hno => hyes ⟨hkind, ?_, ?_⟩).1⟩
      · rw [← hg1] at hbh
        exact hbh
      · rw [← hg1] at hno
        exact hno
    · exact htracks (Steady.refl g₁).tracks
  | reset gotgctl gotgint gusbcfg gintsts =>
    obtain ⟨hf2, hs2⟩ := device_reset_follows hk
      { g₁ with dwc2 := { g₁.dwc2 with
        gotgctl := gotgctl, gotgint := gotgint, gusbcfg := gusbcfg, gintsts := gintsts } }
      hf1.port hf1.detached
    exact ⟨hf2, fun _ _ => hs2⟩
  | realize =>
    obtain ⟨hf2, hs2⟩ := realize_follows hf1
    exact ⟨hf2, fun hs _ => hs2 (hprep.sched hs)⟩
  | unrealize =>
    obtain ⟨hf2, hs2⟩ := unplug_follows hhost hf1
    exact ⟨hf2, fun _ _ => hs2⟩

theorem run_follows (hf : Follows g) {ops : List Op}
    (hraw : ∀ op ∈ ops, op.kind.raw_dctl = false) : Follows (run g ops) :=
  Run.along_invariant (I := Follows) (Q := fun _ op => op.kind.raw_dctl = false)
    (fun _ _ h hop => (step_follows h hop).1) hf
    (Run.along_of_mem g fun op hop _ => hraw op hop)

/-- The port refused the device when the bottom half last ran, and nothing has
    scheduled it since. -/
def RefusedLast (g : DWC2GadgetState) (ops : List Op) : Prop :=
  ∃ pre op post, ops = pre ++ op :: post ∧ RefusesAttach (run g pre) op ∧
    ∀ mid, mid <+: post → (run (step (run g pre) op) mid).connect_bh = false

theorem run_snoc (g : DWC2GadgetState) (ops : List Op) (op : Op) :
    run g (ops ++ [op]) = step (run g ops) op := by
  unfold run
  rw [List.foldl_append]
  rfl

/-- By induction on the run, its last step outermost. -/
theorem scheduled_or_refused (hf : Follows g) (hs : Scheduled g) (ops : List Op)
    (hraw : ∀ op ∈ ops, op.kind.raw_dctl = false) :
    Scheduled (run g ops) ∨ RefusedLast g ops := by
  induction ops using List.reverseRecOn with
  | nil => exact .inl hs
  | append_singleton ops op ih =>
    have hbefore : ∀ op ∈ ops, op.kind.raw_dctl = false :=
      fun op' h => hraw op' (List.mem_append_left _ h)
    rw [run_snoc]
    by_cases hnow : Scheduled (step (run g ops) op)
    · exact .inl hnow
    have hbh : (step (run g ops) op).connect_bh = false := by
      rw [Scheduled, not_or, Bool.not_eq_true] at hnow
      exact hnow.2
    refine .inr ?_
    rcases ih hbefore with hsched | ⟨pre, op', post, hops, href, hsince⟩
    · -- this very step was refused
      have href : RefusesAttach (run g ops) op := by
        by_contra hno
        exact hnow ((step_follows (run_follows hf hbefore)
          (hraw op (List.mem_append_right _ List.mem_cons_self))).2 hsched hno)
      refine ⟨ops, op, [], rfl, href, fun mid hmid => ?_⟩
      rw [List.prefix_nil.mp hmid]
      exact hbh
    · -- still nothing happened since
      refine ⟨pre, op', post ++ [op], by rw [hops]; simp, href, fun mid hmid => ?_⟩
      rcases List.prefix_concat_iff.mp hmid with hall | hpart
      · have hrun : run g ops = run (step (run g pre) op') post := by
          rw [hops]
          unfold run
          rw [List.foldl_append]
          rfl
        rw [hall, run_snoc, ← hrun]
        exact hbh
      · exact hsince mid hpart

/-- What a bottom half leaves, that the port does not refuse. -/
theorem bh_step (hf : Follows g) {op : Op} (hkind : op.kind = .bh) (hbh : g.connect_bh = true)
    (hyes : ¬ Refused g) : (step g op).attached = dwc2_pullup_visible g ∧
      ((∀ val ∈ switches op.script, val = dwc2_pullup_visible g) →
        (step g op).attached = dwc2_pullup_visible (step g op)) := by
  have hf1 := (step_prepared g op).tracks.follows hf
  obtain ⟨-, hgo⟩ := connect_bh_follows
    (fun g => acts_steady (complete_steady op.depth) g.script.length g) hf1
  obtain ⟨-, hatt, hvis⟩ := hgo hyes
  have hstep : step g op = dwc2_gadget_connect_bh
      (fun g => acts (usb_packet_complete op.depth) g.script.length g)
      { g with script := op.script, dwc2 := { g.dwc2 with dma_results := op.dma_results } } := by
    unfold step Op.run
    dsimp only
    rw [hkind]
    exact if_pos hbh
  rw [hstep]
  exact ⟨hatt, fun hall => hatt.trans (hvis hall).symm⟩

/-- On a port of the USB/IP server, VBUS is on while a client is connected. -/
theorem bsesvld_connected (hf : Follows g) {s : Usbip.Server} (hs : Usbip.Reachable s)
    (hport : g.port_vbus = s.vbus) (hg : g.gadget = true)
    (hplug : dwc2_cable_is_device g = true) :
    on GOTGCTL_BSESVLD g.dwc2.gotgctl = true ↔ s.conn ≠ .none := by
  obtain ⟨-, -, hbse⟩ := (derived_iff g).mp hf.derived
  rw [hbse, session_valid, dwc2_vbus, hplug, hg, hf.port hg, hport]
  exact (Usbip.reachable_stage hs).vbus

/-- **The session and the connection.**  After every run in which DCTL is written at its
    own address only, the session bits are those of the cable, the gadget and VBUS.  A
    device that is not attached as the host should see it has the bottom half scheduled,
    unless the port refused it when the bottom half last ran.  A bottom half that is not
    refused attaches the device as the host should see it, and a host that switches VBUS
    meanwhile only to what it is leaves it so.  On a B-plug and a port of the USB/IP
    server the session is valid exactly while a client is connected. -/
theorem session_follows {cable : Cable} {port_vbus : Bool}
    {port_speedmask gotgctl gotgint gusbcfg gintsts : Nat} {g₀ g : DWC2GadgetState}
    (hg₀ : g₀ = step (blank cable port_vbus port_speedmask)
      { kind := .reset gotgctl gotgint gusbcfg gintsts })
    (ops : List Op) (hraw : ∀ op ∈ ops, op.kind.raw_dctl = false) (hg : g = run g₀ ops) :
    Derived g ∧
    (g.attached = dwc2_pullup_visible g ∨ g.connect_bh = true ∨ RefusedLast g₀ ops) ∧
    (∀ op : Op, op.kind = .bh → g.connect_bh = true → ¬ Refused g →
      (step g op).attached = dwc2_pullup_visible g ∧
      ((∀ val ∈ switches op.script, val = dwc2_pullup_visible g) →
        (step g op).attached = dwc2_pullup_visible (step g op))) ∧
    (∀ s, Usbip.Reachable s → g.port_vbus = s.vbus → g.gadget = true →
      dwc2_cable_is_device g = true →
      (on GOTGCTL_BSESVLD g.dwc2.gotgctl = true ↔ s.conn ≠ .none)) := by
  have hfirst : Follows g₀ ∧ Scheduled g₀ := by
    rw [hg₀]
    refine device_reset_follows (complete_steady 0) { blank cable port_vbus port_speedmask with
      dwc2 := { (blank cable port_vbus port_speedmask).dwc2 with
        gotgctl := gotgctl, gotgint := gotgint, gusbcfg := gusbcfg, gintsts := gintsts } } ?_ ?_
    · exact fun hyes => Bool.noConfusion hyes
    · exact fun _ => rfl
  have hf : Follows g := by
    rw [hg]
    exact run_follows hfirst.1 hraw
  refine ⟨hf.derived, ?_, fun op hkind hbh hyes => bh_step hf hkind hbh hyes,
    fun s hs hport hgadget hplug => bsesvld_connected hf hs hport hgadget hplug⟩
  rw [← or_assoc, hg]
  exact scheduled_or_refused hfirst.1 hfirst.2 ops hraw

/-- A gadget comes to a B-plug, connects its pull-up, and a client to its port. -/
def plugged_ops : List Op :=
  [{ kind := .realize }, { kind := .dreg DCTL 0 }, { kind := .host (.vbus true) }]

theorem plugged_session_follows :
    let g := run (step (blank .device false 7) { kind := .reset 0 0 0 0 }) plugged_ops
    on GOTGCTL_BSESVLD g.dwc2.gotgctl = true ∧ dwc2_pullup_visible g = true ∧
      (step g { kind := .bh }).attached = dwc2_pullup_visible (step g { kind := .bh }) := by
  intro g
  obtain ⟨-, -, hbh, hconn⟩ := session_follows rfl plugged_ops (g := g) (by decide) rfl
  have hvisible : dwc2_pullup_visible g = true := by decide +kernel
  have hclient := hconn (Usbip.run (Usbip.Server.init true) [{ event := .chr .opened }])
    ⟨true, _, rfl⟩ (by decide +kernel) (by decide +kernel) (by decide +kernel)
  refine ⟨hclient.mpr (by decide +kernel), hvisible, ?_⟩
  apply (hbh { kind := .bh } rfl (by decide +kernel) _).2 (by decide +kernel)
  rintro ⟨-, -, hmask⟩
  exact absurd hmask (by decide +kernel)

/-- A full-speed gadget at a port that is high-speed only: the attach is refused, and
    nothing is left that would try again. -/
theorem refused_attach_unscheduled :
    let g := run (step (blank .device true USB_SPEED_MASK_HIGH) { kind := .reset 0 0 0 0 })
      [{ kind := .realize }, { kind := .dreg DCFG 1 }, { kind := .dreg DCTL 0 }, { kind := .bh }]
    g.attached ≠ dwc2_pullup_visible g ∧ g.connect_bh = false := by
  decide +kernel

end Dwc2
