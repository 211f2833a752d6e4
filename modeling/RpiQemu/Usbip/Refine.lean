import RpiQemu.Usbip.Frame
import RpiQemu.Usbip.Framing

/-! # Every event is a run of the stack machine

    The functions of `Usbip.Server` and `Usbip.Device` are shown, one by one, to
    be runs of `Step` from the configuration in which they are called to the one
    in which they return.  The recursion through the device is closed by
    induction on its budget. -/

namespace Usbip

open Bytes
open Relation (ReflTransGen)

/-! ## Lemmas on the state -/

@[simp] theorem set_ep_eps_self (s : Server) (k : Nat) (e : Ep) : (s.set_ep k e).eps k = e := by
  simp [Server.set_ep]

theorem set_ep_eps_ne (s : Server) {j k : Nat} (e : Ep) (h : j ≠ k) :
    (s.set_ep k e).eps j = s.eps j := by
  simp [Server.set_ep, h]

@[simp] theorem set_ep_set_ep (s : Server) (k : Nat) (e e' : Ep) :
    (s.set_ep k e).set_ep k e' = s.set_ep k e' := by
  simp [Server.set_ep]

@[simp] theorem set_waiting_self (s : Server) (k : Nat) (l : List USBIPURB) :
    (s.set_waiting k l).waiting k = l := by
  simp [Server.set_waiting]

theorem set_waiting_ne (s : Server) {j k : Nat} (l : List USBIPURB) (h : j ≠ k) :
    (s.set_waiting k l).waiting j = s.waiting j := by
  simp [Server.set_waiting, h]

@[simp] theorem answer_status (u : USBIPURB) (r : Resp) :
    (u.answer r).packet.status = r.status := by
  unfold USBIPURB.answer
  dsimp only
  split <;> rfl

/-! ## The same URB -/

theorem Same.refl (u : USBIPURB) : Same u u := ⟨rfl, rfl, rfl, rfl, rfl, rfl, rfl, rfl⟩

theorem Same.trans {u v w : USBIPURB} (h : Same u v) (h' : Same v w) : Same u w :=
  ⟨h'.id.trans h.id, h'.seqnum.trans h.seqnum, h'.epnum.trans h.epnum, h'.in_.trans h.in_,
    h'.internal.trans h.internal, h'.np.trans h.np, h'.len.trans h.len,
    h'.state.trans h.state⟩

theorem Same.key {u v : USBIPURB} (h : Same u v) : usbip_urb_key v = usbip_urb_key u := by
  simp [usbip_urb_key, h.epnum, h.in_]

theorem same_answer (u : USBIPURB) (r : Resp) : Same u (u.answer r) := by
  unfold USBIPURB.answer
  dsimp only
  split <;> exact ⟨rfl, rfl, rfl, rfl, rfl, rfl, rfl, rfl⟩

theorem same_set_packet_state (u : USBIPURB) (st : PacketState) :
    Same u (u.set_packet_state st) := ⟨rfl, rfl, rfl, rfl, rfl, rfl, rfl, rfl⟩

theorem same_urb_packet (u : USBIPURB) : Same u (usbip_urb_packet u) := by
  unfold usbip_urb_packet
  dsimp only
  split <;> split <;> exact ⟨rfl, rfl, rfl, rfl, rfl, rfl, rfl, rfl⟩

theorem urb_packet_ep (u : USBIPURB) : (usbip_urb_packet u).packet.ep = usbip_urb_key u := by
  unfold usbip_urb_packet
  dsimp only
  split <;> split <;> rfl

theorem same_iso_schedule (s : Server) (u : USBIPURB) : Same u (iso_schedule s u) := by
  unfold iso_schedule
  split
  · exact ⟨rfl, rfl, rfl, rfl, rfl, rfl, rfl, rfl⟩
  · exact Same.refl u

theorem same_iso_advance (s : Server) (u : USBIPURB) (d : USBIPIsoDesc) :
    Same u (iso_advance s u d).2 := ⟨rfl, rfl, rfl, rfl, rfl, rfl, rfl, rfl⟩

theorem same_iso_answered (s : Server) (u : USBIPURB) (i : Nat) (d : USBIPIsoDesc) :
    Same u (iso_answered s u i d).2 := by
  unfold iso_answered
  dsimp only
  split <;> exact ⟨rfl, rfl, rfl, rfl, rfl, rfl, rfl, rfl⟩

theorem same_packet_done (s : Server) (u : USBIPURB) (r : Resp) :
    Same u (usb_packet_done s u r).2 :=
  (same_answer u r).trans (same_set_packet_state _ _)

/-! ## The receive buffer -/

theorem usbip_enum_reply_rx (s : Server) (ok : Bool) : (usbip_enum_reply s ok).rx = s.rx := by
  obtain ⟨t, ⟨_, _, _, _, rfl⟩, h⟩ := usbip_enum_reply_eq s ok
  rw [h]
  split <;> rfl

theorem usbip_drop_client_rx (s : Server) : (usbip_drop_client s).rx = [] := by
  obtain ⟨_, _, _, _, _, _, _, h⟩ := usbip_drop_client_closed s
  rw [h]

theorem submit_accept_rx (s : Server) (d : List UInt8) :
    (submit_accept s d).1.rx.length ≤ s.rx.length := by
  rcases submit_accept_cases s d with ⟨t, _, h⟩ | ⟨np, iso, h, _⟩
  · rw [h, usbip_drop_client_rx]
    exact Nat.zero_le _
  · rw [h]
    exact Nat.le_refl _

theorem rx_le {H H' : List Tok} {s t : Server} (h : t.rx.length ≤ s.rx.length) :
    ((H', t) : Cfg).2.rx.length ≤ ((H, s) : Cfg).2.rx.length := h

/-- A call takes messages off the receive buffer and never adds to it. -/
theorem step_rx {c c' : Cfg} (h : Step c c') : c'.2.rx.length ≤ c.2.rx.length := by
  cases h with
  | answer s u _ =>
    obtain ⟨_, _, _, _, h⟩ := usbip_send_ret_submit_sent s u
    obtain ⟨_, _, _, _, _, _, h'⟩ := usbip_urb_free_moved (usbip_send_ret_submit s u) u
    rw [h', h]
    exact Nat.le_refl _
  | loop_flush s k _ =>
    obtain ⟨_, _, _, _, h⟩ := usb_ep_flush_shifted hold_env (s.note_halt k) k
    rw [h]
    exact Nat.le_refl _
  | enum_next s u _ _ _ =>
    obtain ⟨_, _, _, h⟩ := usbip_enum_result_eq s u
    simp only [h, Nat.le_refl]
  | enum_end s u _ _ _ =>
    obtain ⟨_, _, _, h⟩ := usbip_enum_result_eq s u
    simp only [usbip_enum_reply_rx, h, Nat.le_refl]
  | enum_fail s u _ _ =>
    obtain ⟨_, _, _, h⟩ := usbip_enum_result_eq s u
    simp only [usbip_enum_reply_rx, h, Nat.le_refl]
  | behind s u _ | held_tail s u =>
    obtain ⟨_, h⟩ := usbip_urb_wait_eq s u
    rw [h]
    exact Nat.le_refl _
  | run_async s b u r _ h =>
    simp only [usb_packet_started, h]
    exact Nat.le_refl _
  | retry_arm s =>
    obtain ⟨_, h⟩ := usbip_arm_retry_eq s
    simp only [h, Nat.le_refl]
  | parse_drop s _ =>
    simp only [usbip_drop_client_rx, List.length_nil, Nat.zero_le]
  | parse_msg s _ =>
    simp only [Server.note_msg, Server.note, Server.rest, List.length_drop]
    omega
  | op_devlist s d _ _ _ =>
    obtain ⟨_, _, _, _, h⟩ := usbip_reply_devlist_sent s
    simp only [h, Nat.le_refl]
  | op_import s d _ _ _ =>
    obtain ⟨_, _, _, _, h⟩ := usbip_reply_import_false_sent s
    simp only [h, Nat.le_refl]
  | reject s d _ _ _ | accept s d _ _ _ _ _ => exact rx_le (submit_accept_rx s d)
  | unlink s d _ _ =>
    obtain ⟨t, _, _, ⟨_, _, _, _, _, _, rfl⟩, _, _, _, _, h⟩ :=
      usbip_handle_unlink_moved s (be32At d 0x04) (be32At d 0x14)
    rw [h]
    exact Nat.le_refl _
  | _ => exact Nat.le_refl _

theorem steps_rx {c c' : Cfg} (h : Steps c c') : c'.2.rx.length ≤ c.2.rx.length := by
  induction h with
  | refl => exact Nat.le_refl _
  | tail _ hstep ih => exact Nat.le_trans (step_rx hstep) ih

/-! ## Environments -/

/-- The environment's calls are runs of the machine.  `full` is false for
    `hold_env`, whose `enum_done` is never reached. -/
structure EnvOk (env : Env) (full : Prop) : Prop where
  process : ∀ {H : List Tok} (s : Server), dev H → Steps (H, s) (H, (env.process_one s).1)
  sync : ∀ s, (env.process_one s).2.status ≠ .async → full
  enum : ∀ {H : List Tok} (s : Server) (u : USBIPURB), u.internal = true →
    full ∨ u.number_of_packets ≠ 0 → Steps (.done u :: H, s) (H, env.enum_done s u)

theorem hold_env_ok : EnvOk hold_env False where
  process _ _ := .refl
  sync _ h := h rfl
  enum s u hi h := by
    rcases h with h | h
    · exact h.elim
    · exact .single (.lost s u hi h)

section Calls

variable {env : Env} {full : Prop} (ok : EnvOk env full) {H : List Tok}
include ok

/-! ## Completing -/

theorem complete_steps (s : Server) (u : USBIPURB)
    (h : u.internal = true → full ∨ u.number_of_packets ≠ 0) :
    Steps (.done u :: H, s) (H, usbip_urb_complete env s u) := by
  unfold usbip_urb_complete
  split
  · rename_i hi
    exact ok.enum s u hi (h hi)
  · rename_i hi
    exact .single (.answer s u (by simpa using hi))

/-! ## Handing over -/

/-- What `usbip_urb_try` leaves on the stack: nothing, or the URB it returns. -/
def held_on (b : Bool) (H : List Tok) : Option USBIPURB → List Tok
  | none => H
  | some v => .held b v :: H

omit ok in
/-- After the device returned from an ISO packet. -/
theorem iso_returned (b : Bool) (s : Server) (u : USBIPURB) (r : Resp) (i : Nat)
    (d : USBIPIsoDesc) (hn : u.number_of_packets ≠ 0) (hep : u.packet.ep = usbip_urb_key u) :
    let p := usb_packet_started s u r
    let q := iso_answered p.1 p.2 i d
    Step (.run b u :: H, s) (.iso b q.2 :: H, q.1) := by
  intro p q
  have hsame : Same u q.2 := by
    refine Same.trans ?_ (same_iso_answered p.1 p.2 i d)
    show Same u (usb_packet_started s u r).2
    unfold usb_packet_started
    dsimp only
    split
    · exact (same_answer u r).trans (same_set_packet_state _ _)
    · exact same_answer u r
    · exact (same_answer u r).trans (same_set_packet_state _ _)
  by_cases ha : r.status = .async
  · -- the packet joined the queue and is cancelled at once
    have hq : q.1 = bounce s u := by
      have hid : (u.answer r).id = u.id := (same_answer u r).id
      have hpep : (u.answer r).packet.ep = usbip_urb_key u := by
        rw [← hep]
        unfold USBIPURB.answer
        dsimp only
        split <;> rfl
      simp [q, p, usb_packet_started, ha, iso_answered, USBIPURB.set_packet_state,
        usb_cancel_packet, bounce, hep, hid, hpep]
    rw [hq]
    exact .iso_bounce s b u q.2 hn hsame
  · have hq : q.1 = s := by
      by_cases hk : r.status = .nak
      · simp [q, p, usb_packet_started, hk, iso_answered]
      · have hp : p = (s, (u.answer r).set_packet_state .complete) := by
          show usb_packet_started s u r = _
          unfold usb_packet_started
          dsimp only
          split <;> first | rfl | contradiction
        simp [q, hp, iso_answered, USBIPURB.set_packet_state, ha]
    rw [hq]
    exact .iso_back s b u q.2 hn hsame

/-- The part of `usbip_urb_iso` that services the packet that is due. -/
theorem iso_service_steps (b : Bool) (s : Server) (u : USBIPURB) (d : USBIPIsoDesc)
    (hn : u.number_of_packets ≠ 0) :
    let v := iso_schedule s u
    let q := usbip_iso_service env s v d
    Steps (.hand b u :: H, s) (.iso b q.2 :: H, q.1) := by
  intro v q
  have hv : Same u v := same_iso_schedule _ u
  let s₁ := (iso_advance s v d).1
  let w := (iso_advance s v d).2
  have hw : Same u w := hv.trans (same_iso_advance _ v d)
  have hwep : w.packet.ep = usbip_urb_key w := rfl
  have hk : usbip_urb_key w = usbip_urb_key u := hw.key
  have hs₁ : s₁ = { s with iso_next_due := s₁.iso_next_due } := rfl
  have hqd : q = iso_answered (usb_handle_packet env s₁ w).1 (usb_handle_packet env s₁ w).2
      v.iso_next d := rfl
  have heps : (usb_clear_halt s₁ (usbip_urb_key u)).eps (usbip_urb_key u) =
      { s.eps (usbip_urb_key u) with halted := false } := by
    rw [hs₁]
    simp [usb_clear_halt]
  by_cases hempty : (s.eps (usbip_urb_key u)).queue = []
  · -- the device gets the packet
    have hh : usb_handle_packet env s₁ w =
        usb_packet_started
          (env.process_one ((usb_clear_halt s₁ (usbip_urb_key u)).note (.start u.id))).1 w
          (env.process_one ((usb_clear_halt s₁ (usbip_urb_key u)).note (.start u.id))).2 := by
      unfold usb_handle_packet
      simp only [hwep, hk, heps, hempty, hw.id, List.isEmpty_nil, if_true]
    have hstart : Step (.hand b u :: H, s) (.run b w :: H,
        (usb_clear_halt s₁ (usbip_urb_key u)).note (.start u.id)) := by
      rw [hs₁]
      exact .iso_start s b u w _ hn hw hwep hempty
    refine .head hstart (.trans (ok.process _ trivial) (.single ?_))
    rw [hqd, hh]
    exact iso_returned b _ w _ _ d (by rw [hw.np]; exact hn) hwep
  · -- the packet is queued behind another one and cancelled at once
    have hh : usb_handle_packet env s₁ w =
        usb_queue_one (usb_clear_halt s₁ (usbip_urb_key u)) w := by
      unfold usb_handle_packet
      simp only [hwep, hk, heps, List.isEmpty_iff, hempty, if_false]
    have hq : q.1 = bounce (usb_clear_halt s₁ (usbip_urb_key u)) u := by
      rw [hqd, hh]
      simp [usb_queue_one, iso_answered, usb_cancel_packet, bounce, hwep, hk, hw.id]
    have hsame : Same u q.2 := by
      rw [hqd, hh]
      refine hw.trans (Same.trans ?_ (same_iso_answered _ _ _ d))
      exact ⟨rfl, rfl, rfl, rfl, rfl, rfl, rfl, rfl⟩
    rw [hq, hs₁]
    exact .single (.iso_queued s b u q.2 _ hn hsame hempty)

omit ok in
theorem timer_anticipate_le (t : Option Int) (due : Int) :
    ∃ t', timer_anticipate t due = some t' ∧ t' ≤ due := by
  cases t with
  | none => exact ⟨due, rfl, Int.le_refl _⟩
  | some t => exact ⟨min t due, rfl, by omega⟩

/-- The end of `usbip_urb_iso`: the URB waits for its next frame or is complete. -/
theorem iso_finish_steps (b : Bool) (s : Server) (u : USBIPURB)
    (hn : u.number_of_packets ≠ 0) :
    Steps (.iso b u :: H, s) (held_on b H (iso_finish env s u).2, (iso_finish env s u).1) := by
  unfold iso_finish
  split
  · obtain ⟨t, ht, hle⟩ := timer_anticipate_le s.iso_timer u.iso_due
    rw [ht]
    exact .single (.iso_more s b u t hle)
  · exact .head (.iso_end s b u) (complete_steps ok s u fun _ => .inr hn)

omit ok in
theorem same_handle_packet (s : Server) (u : USBIPURB) :
    Same u (usb_handle_packet env s u).2 := by
  unfold usb_handle_packet usb_packet_started
  dsimp only
  split
  · split
    · exact (same_answer _ _).trans (same_set_packet_state _ _)
    · exact same_answer _ _
    · exact (same_answer _ _).trans (same_set_packet_state _ _)
  · exact ⟨rfl, rfl, rfl, rfl, rfl, rfl, rfl, rfl⟩

omit ok in
theorem same_iso_service (s : Server) (u : USBIPURB) (d : USBIPIsoDesc) :
    Same u (usbip_iso_service env s u d).2 :=
  (same_iso_advance s u d).trans
    ((same_handle_packet _ _).trans (same_iso_answered _ _ _ _))

theorem urb_iso_steps (b : Bool) (s : Server) (u : USBIPURB) (hn : u.number_of_packets ≠ 0) :
    Steps (.hand b u :: H, s)
      (held_on b H (usbip_urb_iso env s u).2, (usbip_urb_iso env s u).1) := by
  have hv : Same u (iso_schedule s u) := same_iso_schedule _ u
  have hvn : (iso_schedule s u).number_of_packets ≠ 0 := by rw [hv.np]; exact hn
  have hskip : Steps (.hand b u :: H, s)
      (.iso b (iso_schedule s u) :: H, s) :=
    .single (.iso_skip s b u _ hn hv)
  unfold usbip_urb_iso iso_serve
  dsimp only
  split
  · rename_i d _
    split
    · exact (iso_service_steps ok b s u d hn).trans
        (iso_finish_steps ok b _ _ (by rw [(same_iso_service _ _ d).np]; exact hvn))
    · exact hskip.trans (iso_finish_steps ok b _ _ hvn)
  · exact hskip.trans (iso_finish_steps ok b _ _ hvn)

/-- A packet that is not isochronous, after the device answered it. -/
theorem run_returned (b : Bool) (s : Server) (u : USBIPURB) (r : Resp)
    (hn : u.number_of_packets = 0) (hfull : r.status ≠ .async → full) :
    let q := usb_packet_started s u r
    let t := match q.2.packet.status with
      | .nak => (q.1, some q.2)
      | .async => (usbip_urb_inflight q.1 q.2, none)
      | _ => (usbip_urb_complete env q.1 q.2, none)
    Steps (.run b u :: H, s) (held_on b H t.2, t.1) := by
  intro q t
  by_cases ha : r.status = .async
  · have hq : q.2.packet.status = .async := by
      simp [q, usb_packet_started, ha, USBIPURB.set_packet_state]
    have ht : t = (usbip_urb_inflight q.1 q.2, none) := by simp only [t, hq]
    rw [ht]
    exact .single (.run_async s b u r hn ha)
  by_cases hk : r.status = .nak
  · have hq : q = (s, u.answer r) := by simp [q, usb_packet_started, hk]
    have ht : t = (s, some (u.answer r)) := by simp [t, hq, hk]
    rw [ht]
    exact .single (.run_nak s b u _ hn (same_answer u r) ⟨r, _, rfl⟩)
  · have hq : q = (s, (u.answer r).set_packet_state .complete) := by
      show usb_packet_started s u r = _
      unfold usb_packet_started
      dsimp only
      split <;> first | rfl | contradiction
    have ht : t = (usbip_urb_complete env s ((u.answer r).set_packet_state .complete), none) := by
      have hst : ((u.answer r).set_packet_state .complete).packet.status = r.status := by
        simp [USBIPURB.set_packet_state]
      simp only [t, hq, hst]
    rw [ht]
    have hsame := (same_answer u r).trans (same_set_packet_state (u.answer r) .complete)
    exact .head (.run_done s b u _ hn hsame ⟨r, _, rfl⟩)
      (complete_steps ok _ _ fun _ => .inl (hfull ha))

theorem urb_try_steps (b : Bool) (s : Server) (u : USBIPURB) :
    Steps (.hand b u :: H, s)
      (held_on b H (usbip_urb_try env s u).2, (usbip_urb_try env s u).1) := by
  unfold usbip_urb_try
  by_cases hn : u.number_of_packets = 0
  · have hep : (usbip_urb_packet u).packet.ep = usbip_urb_key u := urb_packet_ep u
    have hid : (usbip_urb_packet u).id = u.id := (same_urb_packet u).id
    have hpn : (usbip_urb_packet u).number_of_packets = 0 := by
      rw [(same_urb_packet u).np, hn]
    rw [if_neg (not_not.mpr hn)]
    unfold usb_handle_packet
    simp only [hep, hid]
    by_cases hq : (s.eps (usbip_urb_key u)).queue = []
    · have he : ((usb_clear_halt s (usbip_urb_key u)).eps (usbip_urb_key u)).queue.isEmpty
          = true := by
        simp [usb_clear_halt, hq]
      rw [if_pos he]
      refine .head (.start s b u hn hq) (.trans (ok.process _ trivial) ?_)
      exact run_returned ok b _ _ _ hpn (ok.sync _)
    · have he : ¬ ((usb_clear_halt s (usbip_urb_key u)).eps (usbip_urb_key u)).queue.isEmpty
          = true := by
        simp [usb_clear_halt, hq]
      rw [if_neg he]
      exact .single (.enqueue s b u hn hq)
  · rw [if_pos hn]
    split
    · exact .head (.iso_stall s b u hn) (complete_steps ok s _ fun _ => .inr hn)
    · exact urb_iso_steps ok b s u hn

theorem urb_submit_steps (s : Server) (u : USBIPURB) :
    Steps (.fresh u :: H, s) (H, usbip_urb_submit env s u) := by
  unfold usbip_urb_submit
  by_cases hw : s.waiting (usbip_urb_key u) = []
  · rw [hw]
    have htry := urb_try_steps ok (H := H) true s u
    refine .head (.try_fresh s u hw) ?_
    simp only [List.isEmpty_nil, if_true]
    cases hres : usbip_urb_try env s u with
    | mk s' o =>
      rw [hres] at htry
      cases o with
      | none => exact htry
      | some v => exact htry.tail (.held_tail s' v)
  · rw [if_neg (by simpa using hw)]
    exact .single (.behind s u hw)

theorem enum_issue_steps (s : Server) : Steps (.issue :: H, s) (H, usbip_enum_issue env s) :=
  .head (.issue s) (urb_submit_steps ok _ _)

/-! ## Messages -/

omit ok in
theorem be16At_take (d : List UInt8) (n o : Nat) (h : o + 2 ≤ n) (hn : n ≤ d.length) :
    be16At (d.take n) o = be16At d o := by
  have happ := be16At_append_left (d.take n) (d.drop n) o (by rw [List.length_take]; omega)
  rw [List.take_append_drop] at happ
  exact happ.symm

omit ok in
theorem be32At_take (d : List UInt8) (n o : Nat) (h : o + 4 ≤ n) (hn : n ≤ d.length) :
    be32At (d.take n) o = be32At d o := by
  have happ := be32At_append_left (d.take n) (d.drop n) o (by rw [List.length_take]; omega)
  rw [List.take_append_drop] at happ
  exact happ.symm

theorem enumerate_steps (s : Server) (op : Nat) :
    Steps (.reset :: H, usbip_enum_begin s op) (H, usbip_enumerate env s op) := by
  have hdetach : usbip_port_detach (usbip_enum_begin s op) = usbip_enum_begin s op := rfl
  unfold usbip_enumerate usb_port_reset
  rw [hdetach]
  refine (ok.process (H := .reset :: H) _ trivial).trans ?_
  exact .head (.reset_done _) (enum_issue_steps ok _)

theorem handle_op_steps (s : Server) (d : List UInt8) (hc : s.conn = .op)
    (hd : be16At d 2 = usbip_op_req_devlist ∨ be16At d 2 = usbip_op_req_import) :
    Steps (.msg d :: H, s) (H, usbip_handle_op env s d) := by
  unfold usbip_handle_op
  split
  · rename_i hop
    split
    · rename_i hp
      exact .head (.op_enum s d _ hc hp hop.symm (.inl rfl)) (enumerate_steps ok s _)
    · rename_i hp
      exact .single (.op_devlist s d hc hop (by simpa using hp))
  · rename_i hop
    split
    · rename_i hp
      exact .head (.op_enum s d _ hc hp.1 (hd.resolve_left hop).symm (.inr ⟨rfl, hp.2⟩))
        (enumerate_steps ok s _)
    · rename_i hp
      exact .single (.op_import s d hc hop hp)

theorem handle_submit_steps (s : Server) (d : List UInt8) (hc : s.conn = .attached)
    (hcmd : be32At d 0 = usbip_cmd_submit) (hep : be32At d 0x10 ≤ 15) :
    Steps (.msg d :: H, s) (H, usbip_handle_submit env s d) := by
  have hrej := @Step.reject H s d hc hcmd
  have hacc := fun u => @Step.accept H s d u hc hcmd hep
  cases hsub : submit_accept s d with
  | mk t o =>
    rw [handle_submit_of env hsub]
    rw [hsub] at hrej hacc
    cases o with
    | none => exact .single (hrej rfl)
    | some u => exact .head (hacc u rfl) (urb_submit_steps ok t u)

/-- A message that may be dispatched in the connection state. -/
def dispatchable (conn : USBIPConn) (d : List UInt8) : Prop :=
  conn = .op ∧ (be16At d 2 = usbip_op_req_devlist ∨ be16At d 2 = usbip_op_req_import) ∨
    conn = .attached ∧
      (be32At d 0 = usbip_cmd_submit ∧ be32At d 0x10 ≤ 15 ∨ be32At d 0 = usbip_cmd_unlink)

omit ok in
theorem ready_dispatchable {s : Server} (h : ready s) : dispatchable s.conn s.message := by
  obtain ⟨hconn, hpos, hle⟩ := h
  unfold Server.message
  rcases hconn with hc | hc
  · rw [hc] at hpos hle ⊢
    refine .inl ⟨rfl, ?_⟩
    obtain ⟨_, _, ⟨h, h'⟩ | ⟨h, h'⟩⟩ := msg_len_op hpos
    · rw [be16At_take _ _ _ (by omega) (by omega)]
      exact .inl h
    · rw [be16At_take _ _ _ (by omega) (by omega)]
      exact .inr h
  · obtain ⟨_, hl, hcmd⟩ := msg_len_urb (by rw [hc]; decide) hpos
    simp only [usbip_hdr_len] at hl
    rw [dispatchable, be32At_take _ _ _ (by omega) (by omega),
      be32At_take _ _ _ (by omega) (by omega)]
    exact .inr ⟨hc, hcmd⟩

/-- The body of `usbip_dispatch`. -/
theorem dispatch_steps (s : Server) (d : List UInt8) (hd : dispatchable s.conn d) :
    Steps (.msg d :: H, s.note_msg d) (H, usbip_dispatch env s d) := by
  have hconn : (s.note_msg d).conn = s.conn := rfl
  have hdef : usbip_dispatch env s d =
      if s.conn = .op then usbip_handle_op env (s.note_msg d) d
      else if be32At d 0 = usbip_cmd_submit then usbip_handle_submit env (s.note_msg d) d
      else usbip_handle_unlink (s.note_msg d) (be32At d 0x04) (be32At d 0x14) := rfl
  rw [hdef]
  rcases hd with ⟨hc, hop⟩ | ⟨hc, hcmd⟩
  · rw [if_pos hc]
    exact handle_op_steps ok _ d hc hop
  · rw [if_neg (by rw [hc]; decide)]
    split
    · rename_i hs
      refine handle_submit_steps ok _ d hc hs ?_
      rcases hcmd with hcmd | hcmd
      · exact hcmd.2
      · rw [hs] at hcmd
        exact absurd hcmd (by decide)
    · rename_i hs
      exact .single (.unlink _ d hc hs)

omit ok in
theorem rest_rx_lt {s : Server} (h : ready s) : s.rest.rx.length < s.rx.length := by
  obtain ⟨_, hpos, hle⟩ := h
  simp only [Server.rest, List.length_drop]
  omega

/-- The loop of `usbip_parse` goes on until no message is left. -/
theorem parse_loop_steps (n : Nat) (s : Server) (hn : s.rx.length < n) :
    Steps (.parse :: H, s) (.parse :: H, usbip_parse_loop env n s) ∧
      ¬ ready (usbip_parse_loop env n s) ∧ ¬ malformed (usbip_parse_loop env n s) := by
  -- on the fuel: every turn takes a message off the buffer, so it does not run out
  induction n generalizing s with
  | zero => omega
  | succ n ih =>
    unfold usbip_parse_loop
    by_cases hc : s.conn = .op ∨ s.conn = .attached
    · rw [if_pos hc]
      dsimp only
      split
      · rename_i hneg
        have hnone : (usbip_drop_client s).conn = .none := by
          obtain ⟨_, _, _, _, _, _, _, h⟩ := usbip_drop_client_closed s
          rw [h]
        have hrun : Steps (.parse :: H, s) (.parse :: H, usbip_drop_client s) :=
          .single (.parse_drop s ⟨hc, hneg⟩)
        generalize usbip_drop_client s = t at hnone hrun
        refine ⟨hrun, ?_, ?_⟩
        · rintro ⟨hup, _⟩
          rw [hnone] at hup
          exact absurd hup (by decide)
        · rintro ⟨hup, _⟩
          rw [hnone] at hup
          exact absurd hup (by decide)
      split
      · rename_i hneg hinc
        refine ⟨.refl, ?_, ?_⟩
        · intro hr
          have := hr.2
          omega
        · intro hm
          exact hneg hm.2
      · rename_i hneg hinc
        have hr : ready s := ⟨hc, by omega, by omega⟩
        have hd := ready_dispatchable hr
        have hc' : s.rest.conn = s.conn := rfl
        rw [← hc'] at hd
        have hrun := dispatch_steps ok (H := .parse :: H) s.rest s.message hd
        have hrx := steps_rx hrun
        have hlt := rest_rx_lt hr
        have hrx' : (usbip_dispatch env s.rest s.message).rx.length < n := by
          simp only [Server.note_msg, Server.note] at hrx
          omega
        obtain ⟨hsteps, hend⟩ := ih _ hrx'
        have hfirst : Step (.parse :: H, s)
            (.msg s.message :: .parse :: H, s.rest.note_msg s.message) := .parse_msg s hr
        exact ⟨.head hfirst (hrun.trans hsteps), hend⟩
    · rw [if_neg hc]
      exact ⟨.refl, fun hr => hc hr.1, fun hm => hc hm.1⟩

theorem parse_steps (s : Server) : Steps (.fin :: H, s) (H, usbip_parse env s) := by
  unfold usbip_parse
  split
  · rename_i hp
    exact .single (.parse_skip s hp)
  · rename_i hp
    obtain ⟨hsteps, hr, hm⟩ :=
      parse_loop_steps ok (H := H) (s.rx.length + 1) { s with parsing := true } (by simp)
    exact .head (.parse_begin s (by simpa using hp)) (hsteps.tail (.parse_end _ hr hm))

/-! ## Enumeration -/

theorem enum_done_steps (s : Server) (u : USBIPURB) (hi : u.internal = true) :
    Steps (.done u :: H, s) (H, usbip_enum_done env s u) := by
  have hfree : ∀ t, usbip_urb_free t u = t := fun t => by simp [usbip_urb_free, hi]
  have hstep : (usbip_enum_result s u).1.enum_step = s.enum_step := by
    obtain ⟨_, _, _, h⟩ := usbip_enum_result_eq s u
    rw [h]
  unfold usbip_enum_done
  dsimp only
  rw [hfree]
  cases hok : (usbip_enum_result s u).2 with
  | false =>
    rw [if_neg (by decide)]
    exact .head (.enum_fail s u hi hok) (parse_steps ok _)
  | true =>
    rw [if_pos rfl, hstep]
    split
    · rename_i h4
      rw [h4]
      exact .head (.enum_end s u hi hok h4) (parse_steps ok _)
    · rename_i h4
      exact .head (.enum_next s u hi hok h4) (enum_issue_steps ok _)

/-! ## Completions -/

omit ok in
theorem ep_flush_env (s : Server) (k : Nat) :
    usb_ep_flush env s k = usb_ep_flush hold_env s k := rfl

omit ok in
theorem complete_one_eq (s : Server) (u : USBIPURB) (r : Resp) :
    usb_packet_complete_one env s u r =
      usbip_urb_complete env ((usb_packet_done s u r).1.take_off u.id)
        (usb_packet_done s u r).2 := by
  have hst : (usb_packet_done s u r).2.packet.status = r.status := answer_status u r
  have hid : (usb_packet_done s u r).2.id = u.id := (same_packet_done s u r).id
  unfold usb_packet_complete_one usbip_port_complete
  dsimp only
  rw [hst, if_neg r.of_device, hid]
  rfl

theorem complete_turn_steps (again : Server → Nat → Server) (s : Server) (k : Nat)
    (hagain : full → ∀ s, Steps (.loop k :: H, s) (H, again s k)) :
    Steps (.loop k :: H, s) (H, usb_packet_complete_turn env again s k) := by
  unfold usb_packet_complete_turn
  split
  · rename_i hh
    exact .single (.loop_none s k hh)
  · rename_i u hh
    split
    · rename_i hhalt
      rw [ep_flush_env]
      exact .single (.loop_flush s k hhalt)
    rename_i hhalt
    split
    · rename_i hst
      exact .single (.loop_async s k u hh hst)
    · rename_i hst
      dsimp only
      refine .head (.loop_start s k u hh (by simpa using hhalt) hst)
        (.trans (ok.process _ trivial) ?_)
      split
      · exact .single (.runq_hold _ k u)
      · rename_i hr
        have hr' := not_or.mp hr
        have hf := ok.sync _ hr'.1
        rw [complete_one_eq]
        exact .head (.runq_done _ u _ hr') (.trans (complete_steps ok _ _ fun _ => .inl hf)
          (hagain hf _))

end Calls

theorem packet_complete_steps {env : Env} (ok : EnvOk env True) {H : List Tok} (hdev : dev H)
    (again : Server → Nat → Server) (s : Server) (k : Nat) (r : Resp)
    (hagain : ∀ s, Steps (.loop k :: H, s) (H, again s k)) :
    Steps (H, s) (H, usb_packet_complete env again s k r) := by
  unfold usb_packet_complete
  split
  · exact .refl
  · rename_i u hh
    split
    · rename_i hr
      rw [complete_one_eq]
      exact .head (.complete s k u r hdev hh hr.1 hr.2)
        (.trans (complete_steps ok _ _ fun _ => .inl trivial) (hagain _))
    · exact .refl

/-! ## Retrying -/

theorem complete_hold_waiting (s : Server) (u : USBIPURB) :
    (usbip_urb_complete hold_env s u).waiting = s.waiting := by
  unfold usbip_urb_complete
  split
  · rfl
  · obtain ⟨_, _, _, _, h⟩ := usbip_send_ret_submit_sent s u
    rw [usbip_urb_free]
    split <;> rw [h] <;> rfl

theorem handle_packet_hold_waiting (s : Server) (u : USBIPURB) :
    (usb_handle_packet hold_env s u).1.waiting = s.waiting := by
  unfold usb_handle_packet
  dsimp only
  split <;> rfl

theorem iso_hold_waiting (s : Server) (u : USBIPURB) :
    (usbip_urb_iso hold_env s u).1.waiting = s.waiting := by
  have hserve : ∀ v, (iso_serve hold_env s v).1.waiting = s.waiting := by
    intro v
    unfold iso_serve usbip_iso_service iso_answered
    dsimp only
    split
    · split
      · split
        · exact handle_packet_hold_waiting _ _
        · exact handle_packet_hold_waiting _ _
      · rfl
    · rfl
  unfold usbip_urb_iso iso_finish
  dsimp only
  split
  · exact hserve _
  · rw [complete_hold_waiting]
    exact hserve _

/-- A device that holds every packet lets no waiting list grow. -/
theorem try_hold_waiting (s : Server) (u : USBIPURB) :
    (usbip_urb_try hold_env s u).1.waiting = s.waiting := by
  unfold usbip_urb_try
  split
  · split
    · exact complete_hold_waiting _ _
    · exact iso_hold_waiting s u
  · have h := handle_packet_hold_waiting s (usbip_urb_packet u)
    dsimp only
    split
    · exact h
    · exact h
    · rw [complete_hold_waiting]
      exact h

theorem retry_turn_steps {env : Env} {full : Prop} (ok : EnvOk env full) {H : List Tok}
    (again : Server → Nat → Server) (s : Server) (k : Nat) (hk : k < usbip_num_keys)
    (hagain : ∀ u rest, s.waiting k = u :: rest →
      Steps (.retry k :: H, (usbip_urb_try env (s.set_waiting k rest) u).1)
        (.retry (k + 1) :: H, again (usbip_urb_try env (s.set_waiting k rest) u).1 k)) :
    Steps (.retry k :: H, s) (.retry (k + 1) :: H, usbip_retry_turn env again s k) := by
  unfold usbip_retry_turn
  split
  · rename_i hw
    exact .single (.retry_next s k hw)
  · rename_i u rest hw
    have htry := urb_try_steps ok (H := .retry k :: H) false (s.set_waiting k rest) u
    refine .head (.take s k u rest hk hw) ?_
    have hag := hagain u rest hw
    cases hres : usbip_urb_try env (s.set_waiting k rest) u with
    | mk s' o =>
      rw [hres] at htry hag
      cases o with
      | none => exact htry.trans hag
      | some v => exact htry.tail (.held_head s' k v)

theorem retry_hold_steps {H : List Tok} (n : Nat) (s : Server) (k : Nat)
    (hk : k < usbip_num_keys) (hn : (s.waiting k).length ≤ n) :
    Steps (.retry k :: H, s) (.retry (k + 1) :: H, retry_hold n s k) := by
  -- on the fuel, which the waiting list is no longer than
  induction n generalizing s with
  | zero => exact .single (.retry_next s k (List.length_eq_zero_iff.mp (by omega)))
  | succ n ih =>
    refine retry_turn_steps hold_env_ok (retry_hold n) s k hk ?_
    intro u rest hw
    refine ih _ ?_
    rw [try_hold_waiting, set_waiting_self]
    rw [hw, List.length_cons] at hn
    omega

theorem retry_steps {loop : Server → Nat → Server} {H : List Tok}
    (hloop : ∀ s k, k < usbip_num_keys →
      Steps (.retry k :: H, s) (.retry (k + 1) :: H, loop s k)) (s : Server) :
    Steps (.retry 0 :: H, s) (H, usbip_retry loop s) := by
  have hfold : ∀ n ≤ usbip_num_keys,
      Steps (.retry 0 :: H, s) (.retry n :: H, (List.range n).foldl loop s) := by
    intro n
    -- on how many keys the fold has been through
    induction n with
    | zero => exact fun _ => .refl
    | succ n ih =>
      intro hn
      rw [List.range_succ, List.foldl_append]
      exact (ih (by omega)).trans (hloop _ n (by omega))
  unfold usbip_retry
  dsimp only
  refine (hfold _ (Nat.le_refl _)).trans ?_
  split
  · rename_i hall
    refine .single (.retry_end _ ?_)
    intro k hk
    simpa using List.all_eq_true.mp hall k (List.mem_range.mpr hk)
  · exact .single (.retry_arm _)

/-! ## The budget -/

structure LoopsOk (l : Loops) : Prop where
  env : EnvOk l.toEnv True
  complete : ∀ {H : List Tok} (s : Server) (k : Nat),
    Steps (.loop k :: H, s) (H, l.complete_loop s k)
  retry : ∀ {H : List Tok} (s : Server) (k : Nat), k < usbip_num_keys →
    Steps (.retry k :: H, s) (.retry (k + 1) :: H, l.retry_loop s k)

theorem process_one_steps {l : Loops} (ok : LoopsOk l) {H : List Tok} (s : Server)
    (hdev : dev H) : Steps (H, s) (H, (usb_process_one l s).1) := by
  unfold usb_process_one
  split
  · exact .refl
  · exact .single (.act s _ hdev)
  · rename_i k r rest _
    exact .head (.act s rest hdev) (.trans
      (packet_complete_steps ok.env hdev _ _ k r fun s => ok.complete s k)
      (ok.env.process _ hdev))
  · rename_i rest _
    exact .head (.act s rest hdev) (.head (.wakeup _ hdev) (ok.env.process _ hdev))
  · rename_i k isoc rest _
    exact .head (.act s rest hdev) (.head (.set_type _ k isoc hdev) (ok.env.process _ hdev))

/-- **Every budget gives a device whose calls are runs of the machine.** -/
theorem loops_ok (n : Nat) : LoopsOk (loops n) := by
  -- the device of one budget more calls that of one less
  induction n with
  | zero =>
    exact
      { env :=
          { process := fun _ _ => .refl
            sync := fun _ _ => trivial
            enum := fun s u hi _ => enum_done_steps hold_env_ok s u hi }
        complete := fun s k => complete_turn_steps hold_env_ok (fun s _ => s) s k fun h => h.elim
        retry := fun s k hk => retry_hold_steps _ s k hk (Nat.le_refl _) }
  | succ n ih =>
    exact
      { env :=
          { process := fun s hdev => process_one_steps ih s hdev
            sync := fun _ _ => trivial
            enum := fun s u hi _ => enum_done_steps ih.env s u hi }
        complete := fun s k => complete_turn_steps ih.env _ s k fun _ s => ih.complete s k
        retry := fun s k hk => retry_turn_steps ih.env _ s k hk fun _ _ _ => ih.retry _ k hk }

/-! ## Runs -/

/-- One event: it arrives, and its calls return. -/
def Turn (s s' : Server) : Prop := ∃ c, Arrive s c ∧ Steps c ([], s')

/-- An event whose handler runs on the state it arrives in. -/
private theorem turn_of_steps {s s' : Server} (h : Steps ([], s) ([], s')) : Turn s s' :=
  ⟨_, .input s s.script s.chr_write, h⟩

theorem handle_turn (s : Server) (budget : Nat) (e : Event) : Turn s (handle s budget e) := by
  have ok := loops_ok budget
  have hretry := fun s => retry_steps (H := []) (fun s k hk => ok.retry s k hk) s
  cases e with
  | chr e => exact ⟨_, .chr s e, .refl⟩
  | read buf =>
    show Turn s (if _ then _ else _)
    split
    · rename_i hr
      by_cases hc : s.conn = .op ∨ s.conn = .attached
      · exact ⟨_, .read s buf hc, parse_steps ok.env _⟩
      -- The character device hands over no more than was asked for, here nothing.
      · have hcan : usbip_can_read s = 0 := by
          unfold usbip_can_read
          rw [if_pos]
          revert hc
          cases s.conn <;> simp
        omega
    · exact turn_of_steps .refl
  | tx_ready =>
    show Turn s (if _ then _ else _)
    split
    · exact ⟨_, .tx_ready s, .refl⟩
    · exact turn_of_steps .refl
  | complete k r =>
    show Turn s (if _ then _ else _)
    split
    · exact turn_of_steps
        (packet_complete_steps (H := []) ok.env trivial _ s k r fun s => ok.complete s k)
    · exact turn_of_steps .refl
  | wakeup => exact turn_of_steps (.single (.wakeup s trivial))
  | set_type k isoc => exact turn_of_steps (.single (.set_type s k isoc trivial))
  | retry_timer =>
    show Turn s (if _ then _ else _)
    split
    · exact ⟨_, .fire_retry s, hretry _⟩
    · exact turn_of_steps .refl
  | iso_timer =>
    show Turn s (if _ then _ else _)
    split
    · exact ⟨_, .fire_iso s, hretry _⟩
    · exact turn_of_steps .refl
  | retry_bh =>
    show Turn s (if _ then _ else _)
    split
    · exact ⟨_, .fire_bh s, hretry _⟩
    · exact turn_of_steps .refl
  | detach =>
    show Turn s (if _ then _ else _)
    split
    · exact ⟨_, .detach s, .refl⟩
    · exact turn_of_steps .refl
  | attach speed =>
    show Turn s (if _ then _ else _)
    split
    · exact turn_of_steps .refl
    · rename_i hp
      exact ⟨_, .attach s speed (by simpa using hp), .refl⟩
  | reset => exact ⟨_, .system_reset s, .refl⟩
  | tick ns => exact ⟨_, .tick s ns, .refl⟩

/-- **Invariant rule**: what arrivals and steps preserve holds at every event
    boundary of every run. -/
theorem reachable_invariant (inv : Cfg → Prop) (hinit : ∀ c, inv ([], Server.init c))
    (harrive : ∀ s c, inv ([], s) → Arrive s c → inv c)
    (hstep : ∀ c c', inv c → Step c c' → inv c') {s : Server} (hs : Reachable s) :
    inv ([], s) := by
  have hsteps : ∀ {c c'}, Steps c c' → inv c → inv c' := by
    intro c c' h hc
    induction h with
    | refl => exact hc
    | tail _ h ih => exact hstep _ _ ih h
  have hturn : ∀ {s s'}, Turn s s' → inv ([], s) → inv ([], s') := by
    rintro s s' ⟨c, ha, hc⟩ h
    exact hsteps hc (harrive s c h ha)
  have hrun : ∀ is s, inv ([], s) → inv ([], run s is) := by
    intro is
    -- on the inputs, each a turn of the event loop
    induction is with
    | nil => exact fun s h => h
    | cons i is ih =>
      intro s h
      exact ih _ (hturn (handle_turn _ _ _) (harrive s _ h (.input s i.script i.chr_write)))
  obtain ⟨c, is, rfl⟩ := hs
  exact hrun is _ (hinit c)

end Usbip
