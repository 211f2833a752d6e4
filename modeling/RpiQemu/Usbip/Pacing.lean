import RpiQemu.Usbip.Frame
import Mathlib.Data.Int.ModEq
import Mathlib.Logic.Relation

/-! # Isochronous pacing

    `usbip_urb_iso` services one packet of an URB in each (micro)frame of its
    interval.  It is called when the URB is submitted, by the timers, the
    bottom half and every other retry, so at any time; the schedule is in the
    URB (`iso_next`, `iso_due`) and in `iso_next_due` for its endpoint.

    * **Arithmetic**: what aligning and catching up yield (`align_up_spec`,
      `iso_catch_up_spec`).
    * **Calls**: one call of `usbip_urb_iso`, whatever the device does while it
      has control (`usbip_urb_iso_call`).
    * **Runs**: the services of an endpoint, over any calls for any URBs
      (`iso_pacing`). -/

namespace Usbip

/-! ## Arithmetic -/

theorem align_up_spec (n : Int) {m : Int} (hm : 0 < m) :
    m ∣ align_up n m ∧ n ≤ align_up n m ∧ align_up n m < n + m := by
  unfold align_up
  have hdiv := Int.mul_ediv_add_emod (n + m - 1) m
  have hlo := Int.emod_nonneg (n + m - 1) (ne_of_gt hm)
  have hhi := Int.emod_lt_of_pos (n + m - 1) hm
  rw [Int.mul_comm] at hdiv
  exact ⟨Int.dvd_mul_left _ _, by omega, by omega⟩

/-- The catch-up loop ends behind `now`, at most a period later, and keeps the
    phase. -/
theorem iso_catch_up_spec {fuel : Nat} (due : Int) {period now : Int} (hperiod : 0 < period)
    (hfuel : (now - due).toNat ≤ fuel) (hdue : due ≤ now) :
    now < iso_catch_up fuel due period now ∧
      iso_catch_up fuel due period now ≤ now + period ∧
      period ∣ iso_catch_up fuel due period now - due := by
  induction fuel generalizing due with
  | zero =>
    unfold iso_catch_up
    refine ⟨by omega, by omega, ?_⟩
    rw [add_sub_cancel_left]
  | succ fuel ih =>
    unfold iso_catch_up
    by_cases hlate : due + period ≤ now
    · rw [if_pos hlate]
      obtain ⟨h₁, h₂, h₃⟩ := ih (due + period) (by omega) hlate
      refine ⟨h₁, h₂, ?_⟩
      have hsum := Int.dvd_add h₃ (Int.dvd_refl period)
      rwa [show iso_catch_up fuel (due + period) period now - (due + period) + period =
        iso_catch_up fuel (due + period) period now - due by omega] at hsum
    · rw [if_neg hlate]
      refine ⟨by omega, by omega, ?_⟩
      rw [add_sub_cancel_left]

theorem iso_frame_pos (s : Server) : 0 < usbip_iso_frame s ∧ usbip_iso_frame s ≤ 1000000 := by
  unfold usbip_iso_frame scale_us scale_ms
  split <;> decide

/-! ## While the device has control -/

/-- Only isochronous URBs use endpoint `k`, and no request of the server's own
    is on the device: nothing is held there for `k`. -/
structure Lane (k : Nat) (s : Server) : Prop where
  held : ∀ u ∈ s.inflight, u.internal = false ∧ usbip_urb_key u ≠ k
  empty : (s.eps k).queue = []

/-- The schedules, the speed and the clock stay, and so does what waits for
    endpoint `k`. -/
structure Keeps (k : Nat) (s t : Server) : Prop where
  due : t.iso_next_due = s.iso_next_due
  speed : t.speed = s.speed
  now : t.now = s.now
  waiting : t.waiting k = s.waiting k
  lane : Lane k s → Lane k t

theorem Keeps.refl (k : Nat) (s : Server) : Keeps k s s := ⟨rfl, rfl, rfl, rfl, fun h => h⟩

theorem Keeps.trans {k : Nat} {s t r : Server} (h : Keeps k s t) (h' : Keeps k t r) :
    Keeps k s r :=
  ⟨h'.due.trans h.due, h'.speed.trans h.speed, h'.now.trans h.now, h'.waiting.trans h.waiting,
    fun hl => h'.lane (h.lane hl)⟩

theorem Sent.keeps {s t : Server} (h : Sent s t) (k : Nat) : Keeps k s t := by
  obtain ⟨_, _, _, _, rfl⟩ := h
  exact ⟨rfl, rfl, rfl, rfl, fun hl => ⟨hl.held, hl.empty⟩⟩

theorem note_keeps (k : Nat) (s : Server) (e : Ev) : Keeps k s (s.note e) :=
  ⟨rfl, rfl, rfl, rfl, fun hl => ⟨hl.held, hl.empty⟩⟩

/-- No queue gets longer. -/
theorem set_ep_keeps {k j : Nat} {s : Server} {e : Ep}
    (he : (s.eps j).queue = [] → e.queue = []) : Keeps k s (s.set_ep j e) := by
  refine ⟨rfl, rfl, rfl, rfl, fun hl => ⟨hl.held, ?_⟩⟩
  show (Function.update s.eps j e k).queue = []
  by_cases hk : k = j
  · subst hk
    rw [Function.update_self]
    exact he hl.empty
  · rw [Function.update_of_ne hk]
    exact hl.empty

theorem off_keeps (k : Nat) (s : Server) (id : Nat) :
    Keeps k s { s with inflight := remove s.inflight id } :=
  ⟨rfl, rfl, rfl, rfl, fun hl => ⟨fun u hu => hl.held u (List.mem_of_mem_eraseP hu), hl.empty⟩⟩

theorem cancel_keeps (k : Nat) (s : Server) (u : USBIPURB) :
    Keeps k s (usb_cancel_packet s u) := by
  apply set_ep_keeps
  intro hempty
  simp [hempty]

/-- The device's handler, as the functions that call it see it. -/
def EnvKeeps (k : Nat) (env : Env) : Prop := ∀ s, Lane k s → Keeps k s (env.process_one s).1

theorem head_held {s : Server} {k j : Nat} {u : USBIPURB} (hl : Lane k s)
    (hu : s.head j = some u) : u.internal = false ∧ usbip_urb_key u ≠ k := by
  unfold Server.head at hu
  split at hu
  · cases hu
  · exact hl.held u (List.mem_of_find?_eq_some hu)

theorem urb_complete_keeps (env : Env) (k : Nat) (s : Server) {u : USBIPURB}
    (h : u.internal = false) : Keeps k s (usbip_urb_complete env s u) := by
  have hno : ¬ u.internal = true := by simp [h]
  obtain ⟨n, y, hfree⟩ := urb_free_counters (usbip_send_ret_submit s u) u
  rw [usbip_urb_complete, if_neg hno, hfree]
  exact (note_keeps k s _).trans (((usbip_send_ret_submit_sent s u).keeps k).trans
    ⟨rfl, rfl, rfl, rfl, fun hl => ⟨hl.held, hl.empty⟩⟩)

theorem port_complete_keeps (env : Env) {k : Nat} (s : Server) {u : USBIPURB}
    (h : u.internal = false) (hkey : usbip_urb_key u ≠ k) :
    Keeps k s (usbip_port_complete env s u) := by
  unfold usbip_port_complete
  have hoff := off_keeps k s u.id
  split
  · -- back behind the URBs waiting for its own endpoint
    have hcancel := hoff.trans (cancel_keeps k _ u)
    apply hcancel.trans
    refine ⟨rfl, rfl, rfl, ?_, fun hl => ⟨hl.held, hl.empty⟩⟩
    exact Function.update_of_ne hkey.symm _ _
  · exact hoff.trans (urb_complete_keeps env k _ h)

theorem ep_flush_keeps (env : Env) (k : Nat) {s : Server} (j : Nat) (hl : Lane k s) :
    Keeps k s (usb_ep_flush env s j) := by
  unfold usb_ep_flush
  generalize (s.eps j).queue = ids
  induction ids generalizing s with
  | nil => exact Keeps.refl k s
  | cons id ids ih =>
    rw [List.foldl_cons]
    have hone : Keeps k s (usb_ep_flush_one env s id) := by
      unfold usb_ep_flush_one
      split
      · exact Keeps.refl k s
      · rename_i u hu
        obtain ⟨hint, hkey⟩ := hl.held u (List.mem_of_find?_eq_some hu)
        exact port_complete_keeps env s hint hkey
    exact hone.trans (ih (hone.lane hl))

theorem answer_same (u : USBIPURB) (r : Resp) :
    ∃ p b, u.answer r = { u with packet := p, buf := b } ∧ p.ep = u.packet.ep := by
  unfold USBIPURB.answer
  dsimp only
  split
  · exact ⟨_, _, rfl, rfl⟩
  · exact ⟨_, u.buf, rfl, rfl⟩

theorem complete_one_keeps (env : Env) {k : Nat} {s : Server} {u : USBIPURB} (r : Resp)
    (h : u.internal = false ∧ usbip_urb_key u ≠ k) :
    Keeps k s (usb_packet_complete_one env s u r) := by
  unfold usb_packet_complete_one usb_packet_done
  obtain ⟨p, b, hans, -⟩ := answer_same u r
  dsimp only
  rw [hans]
  have hep : Keeps k s (s.set_ep u.packet.ep { s.eps u.packet.ep with
      halted := (s.eps u.packet.ep).halted || (decide (p.status ≠ .success) ||
        (p.short_not_ok && decide (p.actual_length < p.iov_size)))
      queue := (s.eps u.packet.ep).queue.erase u.id }) := by
    apply set_ep_keeps
    intro hempty
    simp [hempty]
  exact hep.trans (port_complete_keeps env _ h.1 h.2)

theorem complete_turn_keeps {env : Env} {k : Nat} (henv : EnvKeeps k env)
    {again : Server → Nat → Server} (hagain : ∀ s j, Lane k s → Keeps k s (again s j))
    (s : Server) (j : Nat) (hl : Lane k s) :
    Keeps k s (usb_packet_complete_turn env again s j) := by
  unfold usb_packet_complete_turn
  split
  · exact Keeps.refl k s
  · rename_i u hu
    have hheld := head_held hl hu
    split
    · have hnote := note_keeps k s (.halt j (decide (s.waiting j ≠ [])))
      exact hnote.trans (ep_flush_keeps env k j (hnote.lane hl))
    · split
      · exact Keeps.refl k s
      · have hnote := note_keeps k s (.start u.id)
        have hstart := hnote.trans (henv _ (hnote.lane hl))
        dsimp only
        split
        · refine hstart.trans ⟨rfl, rfl, rfl, rfl, fun hl => ⟨?_, hl.empty⟩⟩
          intro v hv
          obtain ⟨w, hw, rfl⟩ := List.mem_map.mp hv
          split
          · exact hl.held w hw
          · exact hl.held w hw
        · have hone := hstart.trans (complete_one_keeps env
            (env.process_one (s.note (.start u.id))).2 hheld)
          exact hone.trans (hagain _ j (hone.lane hl))

theorem packet_complete_keeps (env : Env) {k : Nat} {again : Server → Nat → Server}
    (hagain : ∀ s j, Lane k s → Keeps k s (again s j)) (s : Server) (j : Nat) (r : Resp)
    (hl : Lane k s) : Keeps k s (usb_packet_complete env again s j r) := by
  unfold usb_packet_complete
  split
  · exact Keeps.refl k s
  · rename_i u hu
    split
    · have hone := complete_one_keeps env (s := s) r (head_held hl hu)
      exact hone.trans (hagain _ j (hone.lane hl))
    · exact Keeps.refl k s

/-- Whatever the device does with a packet, with any budget. -/
theorem loops_keep (k n : Nat) : EnvKeeps k (loops n).toEnv ∧
    ∀ s j, Lane k s → Keeps k s ((loops n).complete_loop s j) := by
  induction n with
  | zero =>
    refine ⟨fun s _ => Keeps.refl k s, ?_⟩
    intro s j hl
    exact complete_turn_keeps (fun s _ => Keeps.refl k s) (fun s _ _ => Keeps.refl k s) s j hl
  | succ n ih =>
    obtain ⟨henv, hloop⟩ := ih
    refine ⟨?_, fun s j hl => complete_turn_keeps henv hloop s j hl⟩
    intro s hl
    show Keeps k s (usb_process_one (loops n) s).1
    have hscript : ∀ rest, Keeps k s { s with script := rest } :=
      fun rest => ⟨rfl, rfl, rfl, rfl, fun hl => ⟨hl.held, hl.empty⟩⟩
    unfold usb_process_one
    split
    · exact Keeps.refl k s
    · exact hscript _
    · rename_i j r rest _
      have hdone := (hscript rest).trans (packet_complete_keeps (loops n).toEnv hloop
        { s with script := rest } j r ((hscript rest).lane hl))
      exact hdone.trans (henv _ (hdone.lane hl))
    · rename_i rest _
      have hwake : Keeps k s (usbip_port_wakeup { s with script := rest }) :=
        ⟨rfl, rfl, rfl, rfl, fun hl => ⟨hl.held, hl.empty⟩⟩
      exact hwake.trans (henv _ (hwake.lane hl))
    · rename_i j isoc rest _
      have hset : Keeps k { s with script := rest }
          (Server.set_ep { s with script := rest } j { s.eps j with isoc := isoc }) :=
        set_ep_keeps fun hempty => hempty
      exact ((hscript rest).trans hset).trans (henv _ (((hscript rest).trans hset).lane hl))

/-! ## One call -/

/-- A packet handed to the device: its URB and index, when it was due, when it
    was serviced and when the endpoint's next one is due. -/
structure Service where
  id : Nat
  index : Nat
  due : Int
  time : Int
  period : Int
  next : Int
  deriving DecidableEq, Repr

/-- The packet that a call of `usbip_urb_iso` services, if its frame has come. -/
def iso_service (s : Server) (u : USBIPURB) : Option Service :=
  let v := iso_schedule s u
  let period := usbip_iso_frame s * max u.interval 1
  if u.iso_next < u.iso.length ∧ v.iso_due ≤ s.now then
    some
      { id := u.id
        index := u.iso_next
        due := v.iso_due
        time := s.now
        period := period
        next := iso_catch_up (s.now - v.iso_due).toNat v.iso_due period s.now }
  else none

theorem iso_schedule_same (s : Server) (u : USBIPURB) :
    iso_schedule s u = { u with iso_due := (iso_schedule s u).iso_due } := by
  unfold iso_schedule
  split <;> rfl

/-- After the device saw packet `p` of `u`: the queue of endpoint `k` holds it if
    the device kept it. -/
structure Handed (k : Nat) (u : USBIPURB) (p : USBPacket) (s t : Server) : Prop where
  ep : p.ep = k
  due : t.iso_next_due = s.iso_next_due
  speed : t.speed = s.speed
  now : t.now = s.now
  waiting : t.waiting k = s.waiting k
  held : ∀ v ∈ t.inflight, v.internal = false ∧ usbip_urb_key v ≠ k
  queue : (t.eps k).queue = if p.status = .async then [u.id] else []

theorem packet_started_handed {k : Nat} {s t : Server} {u : USBIPURB} (r : Resp)
    (hkeep : Keeps k s t) (hlane : Lane k t) (hep : u.packet.ep = k) :
    ∃ p b t', usb_packet_started t u r = (t', { u with packet := p, buf := b }) ∧
      Handed k u p s t' := by
  obtain ⟨p, b, hans, hpep⟩ := answer_same u r
  have hstatus : p.status = r.status := by
    have h := congrArg (fun v => v.packet.status) hans
    unfold USBIPURB.answer at h
    dsimp only at h
    split at h
    · exact h.symm
    · exact h.symm
  have hp : p.ep = k := hpep.trans hep
  unfold usb_packet_started
  dsimp only
  rw [hans]
  split
  · rename_i hasync
    refine ⟨{ p with state := .async }, b, _, rfl, hp, hkeep.due, hkeep.speed, hkeep.now,
      hkeep.waiting, hlane.held, ?_⟩
    rw [if_pos (hstatus.trans hasync)]
    show (Function.update t.eps u.packet.ep _ k).queue = [u.id]
    rw [hep, Function.update_self]
    simp [hlane.empty]
  · rename_i hnak
    refine ⟨p, b, t, rfl, hp, hkeep.due, hkeep.speed, hkeep.now, hkeep.waiting, hlane.held, ?_⟩
    rw [if_neg (by simp [hstatus, hnak])]
    exact hlane.empty
  · rename_i hasync hnak
    refine ⟨{ p with state := .complete }, b, t, rfl, hp, hkeep.due, hkeep.speed, hkeep.now,
      hkeep.waiting, hlane.held, ?_⟩
    rw [if_neg (by rw [hstatus]; exact hasync)]
    exact hlane.empty

theorem handle_packet_handed {env : Env} {k : Nat} (henv : EnvKeeps k env) {s : Server}
    {u : USBIPURB} (hl : Lane k s) (hep : u.packet.ep = k) :
    ∃ p b t, usb_handle_packet env s u = (t, { u with packet := p, buf := b }) ∧
      Handed k u p s t := by
  have hclear : Keeps k s (usb_clear_halt s u.packet.ep) := set_ep_keeps fun hempty => hempty
  have hnote := hclear.trans (note_keeps k _ (.start u.id))
  have hcall := hnote.trans (henv _ (hnote.lane hl))
  have hempty : ((usb_clear_halt s u.packet.ep).eps u.packet.ep).queue.isEmpty = true := by
    rw [hep]
    have := (hclear.lane hl).empty
    rw [hep] at this
    rw [this]
    rfl
  unfold usb_handle_packet
  rw [if_pos hempty]
  exact packet_started_handed _ hcall (hcall.lane hl) hep

/-- The state in which the device gets the packet: the schedule is advanced. -/
def advanced (s : Server) (k : Nat) (next : Int) : Server :=
  { s with iso_next_due := Function.update s.iso_next_due k next }

theorem iso_schedule_packet (s : Server) (u : USBIPURB) :
    (iso_schedule s u).iso[(iso_schedule s u).iso_next]? = u.iso[u.iso_next]? := by
  rw [iso_schedule_same]

/-- A call in whose frame a packet is due hands that packet to the device. -/
theorem iso_service_some (env : Env) {s : Server} {u : USBIPURB} {e : Service}
    (h : iso_service s u = some e) :
    ∃ d, u.iso[u.iso_next]? = some d ∧
      usbip_urb_iso env s u =
        iso_finish env (usbip_iso_service env s (iso_schedule s u) d).1
          (usbip_iso_service env s (iso_schedule s u) d).2 := by
  unfold iso_service at h
  dsimp only at h
  split at h
  · rename_i hdue
    obtain ⟨hlt, hnow⟩ := hdue
    have hd := List.getElem?_eq_getElem hlt
    refine ⟨_, hd, ?_⟩
    have hserve : iso_serve env s (iso_schedule s u) =
        usbip_iso_service env s (iso_schedule s u) u.iso[u.iso_next] := by
      unfold iso_serve
      rw [iso_schedule_packet, hd]
      exact if_pos hnow
    unfold usbip_urb_iso
    rw [hserve]
  · cases h

/-- In any other call the device sees nothing. -/
theorem iso_service_none (env : Env) {s : Server} {u : USBIPURB} (h : iso_service s u = none) :
    usbip_urb_iso env s u = iso_finish env s (iso_schedule s u) := by
  have hserve : iso_serve env s (iso_schedule s u) = (s, iso_schedule s u) := by
    unfold iso_serve
    rw [iso_schedule_packet]
    split
    · rename_i d hd
      obtain ⟨hlt, -⟩ := List.getElem?_eq_some_iff.mp hd
      rw [if_neg]
      intro hnow
      unfold iso_service at h
      simp [hlt, hnow] at h
    · rfl
  unfold usbip_urb_iso
  rw [hserve]

/-- The call in whose frame a packet is due, seen from the endpoint. -/
theorem urb_iso_serves {env : Env} {k : Nat} (henv : EnvKeeps k env) {s : Server} {u : USBIPURB}
    {e : Service} (hl : Lane k s) (hkey : usbip_urb_key u = k) (h : iso_service s u = some e) :
    ∃ p b iso t, Keeps k (advanced s k e.next) t ∧ Lane k t ∧ iso.length = u.iso.length ∧
      usbip_urb_iso env s u = iso_finish env t
        { u with
          packet := p
          buf := b
          iso := iso
          iso_next := u.iso_next + 1
          iso_due := e.next } := by
  obtain ⟨d, -, hcall⟩ := iso_service_some env h
  have hnext : e.next = iso_catch_up (s.now - (iso_schedule s u).iso_due).toNat
      (iso_schedule s u).iso_due (usbip_iso_frame s * max u.interval 1) s.now := by
    unfold iso_service at h
    dsimp only at h
    split at h
    · exact (congrArg Service.next (Option.some.inj h)).symm
    · cases h
  have hadv : iso_advance s (iso_schedule s u) d =
      (advanced s k e.next, usb_packet_setup { u with
        iso_next := u.iso_next + 1, iso_due := e.next } u.in_ false d.offset d.length) := by
    unfold iso_advance advanced
    dsimp only
    rw [hnext, ← hkey, iso_schedule_same]
    rfl
  have hlane : Lane k (advanced s k e.next) := ⟨hl.held, hl.empty⟩
  obtain ⟨p, b, t, hhand, handed⟩ := handle_packet_handed henv (u := usb_packet_setup { u with
    iso_next := u.iso_next + 1, iso_due := e.next } u.in_ false d.offset d.length) hlane hkey
  have hservice : ∃ p iso t', Keeps k (advanced s k e.next) t' ∧ Lane k t' ∧
      iso.length = u.iso.length ∧
      usbip_iso_service env s (iso_schedule s u) d = (t', { u with
        packet := p, buf := b, iso := iso, iso_next := u.iso_next + 1, iso_due := e.next }) := by
    unfold usbip_iso_service
    rw [hadv]
    dsimp only
    rw [hhand]
    unfold iso_answered
    dsimp only [usb_packet_setup]
    by_cases hasync : p.status = .async
    · -- the device kept it: it is taken back at once
      rw [if_pos hasync]
      have hqueue := handed.queue
      rw [if_pos hasync] at hqueue
      have hback : Lane k (usb_cancel_packet t { u with packet := p }) := by
        refine ⟨handed.held, ?_⟩
        show (Function.update t.eps p.ep _ k).queue = []
        rw [handed.ep, Function.update_self]
        simp [hqueue, usb_packet_setup]
      exact ⟨_, _, usb_cancel_packet t { u with packet := p },
        ⟨handed.due, handed.speed, handed.now, handed.waiting, fun _ => hback⟩,
        hback, List.length_set, rfl⟩
    · rw [if_neg hasync]
      have hqueue := handed.queue
      rw [if_neg hasync] at hqueue
      have hback : Lane k t := ⟨handed.held, hqueue⟩
      exact ⟨_, _, t, ⟨handed.due, handed.speed, handed.now, handed.waiting, fun _ => hback⟩,
        hback, List.length_set, rfl⟩
  obtain ⟨p', iso, t', hkeep, hlane', hlen, hserve⟩ := hservice
  refine ⟨p', b, iso, t', hkeep, hlane', hlen, ?_⟩
  rw [hcall, hserve]

/-! ## The schedule -/

/-- `URB_ISO_ASAP`: `usbip_urb_iso` has not given the URB a frame yet. -/
def USBIPURB.Unscheduled (u : USBIPURB) : Prop := u.iso_next = 0 ∧ u.iso_due = 0

/-- A due time at or after the endpoint's next one, on a frame boundary and no
    further ahead than the longest period. -/
structure Scheduled (k : Nat) (s : Server) (due : Int) : Prop where
  frame : usbip_iso_frame s ∣ due
  after : s.iso_next_due k ≤ due
  soon : due ≤ s.now + usbip_iso_frame s * 2 ^ 31

/-- What a service leaves of an endpoint's schedule. -/
structure Service.Timely (frame : Int) (e : Service) : Prop where
  due : e.due ≤ e.time
  late : e.time < e.next
  soon : e.next ≤ e.time + e.period
  phase : e.period ∣ e.next - e.due
  frameDue : frame ∣ e.due
  frameNext : frame ∣ e.next
  period : e.period ≤ frame * 2 ^ 31

theorem iso_schedule_due {k : Nat} {s : Server} {u : USBIPURB} (hkey : usbip_urb_key u = k)
    (hnext : Scheduled k s (s.iso_next_due k)) (hu : u.Unscheduled ∨ Scheduled k s u.iso_due) :
    Scheduled k s (iso_schedule s u).iso_due := by
  obtain ⟨hpos, -⟩ := iso_frame_pos s
  unfold iso_schedule
  by_cases hun : u.iso_next = 0 ∧ u.iso_due = 0
  · rw [if_pos hun]
    dsimp only
    rw [hkey]
    obtain ⟨hdvd, -, hlt⟩ := align_up_spec s.now hpos
    rcases le_total (align_up s.now (usbip_iso_frame s)) (s.iso_next_due k) with hle | hle
    · rw [max_eq_right hle]
      exact hnext
    · rw [max_eq_left hle]
      exact ⟨hdvd, hle, by omega⟩
  · rw [if_neg hun]
    exact hu.resolve_left hun

theorem iso_service_timely {k : Nat} {s : Server} {u : USBIPURB} {e : Service}
    (hkey : usbip_urb_key u = k) (hinterval : u.interval < 2 ^ 31)
    (hnext : Scheduled k s (s.iso_next_due k)) (hu : u.Unscheduled ∨ Scheduled k s u.iso_due)
    (h : iso_service s u = some e) :
    e.Timely (usbip_iso_frame s) ∧ s.iso_next_due k ≤ e.due ∧
      e.id = u.id ∧ e.index = u.iso_next ∧ e.time = s.now := by
  obtain ⟨hpos, -⟩ := iso_frame_pos s
  have hsched := iso_schedule_due hkey hnext hu
  unfold iso_service at h
  dsimp only at h
  split at h
  · rename_i hdue
    obtain rfl := Option.some.inj h
    have hone : (1 : Int) ≤ max u.interval 1 := le_max_right _ _
    have htop : max u.interval 1 ≤ (2 : Int) ^ 31 := max_le (le_of_lt hinterval) (by omega)
    have hperiod : 0 < usbip_iso_frame s * max u.interval 1 := Int.mul_pos hpos (by omega)
    obtain ⟨hlate, hsoon, hphase⟩ := iso_catch_up_spec _ hperiod
      (le_refl (s.now - (iso_schedule s u).iso_due).toNat) hdue.2
    have hsum := Int.dvd_add (Int.dvd_trans (Int.dvd_mul_right _ _) hphase) hsched.frame
    rw [Int.sub_add_cancel] at hsum
    exact ⟨⟨hdue.2, hlate, hsoon, hphase, hsched.frame, hsum,
      Int.mul_le_mul_of_nonneg_left htop (le_of_lt hpos)⟩, hsched.after, rfl, rfl, rfl⟩
  · cases h

/-! ## Runs -/

/-- The server and what one of its isochronous endpoints went through. -/
structure Pace where
  server : Server
  /-- No URB yet has this identity, or a later one. -/
  top : Nat := 0
  services : List Service := []
  /-- The URBs `usbip_urb_iso` completed. -/
  completed : List USBIPURB := []
  /-- The URBs that `usbip_urb_iso_stall` completed. -/
  stalled : List USBIPURB := []

/-- What `usbip_urb_try` does with an URB, written down. -/
def Pace.tries (p : Pace) (env : Env) (s : Server) (u : USBIPURB) : Pace :=
  if u.epnum = 0 ∨ (s.eps (usbip_urb_key u)).isoc = false then
    { p with stalled := p.stalled ++ [u] }
  else
    { p with
      services := p.services ++ (iso_service s u).toList
      completed := if (usbip_urb_iso env s u).2.isNone then p.completed ++ [u] else p.completed }

/-- A URB as `usbip_handle_submit` makes it for a client's isochronous transfer. -/
structure Submitted (k top : Nat) (u : USBIPURB) : Prop where
  key : usbip_urb_key u = k
  unscheduled : u.Unscheduled
  some_packets : 0 < u.number_of_packets
  packets : u.iso.length = u.number_of_packets
  interval : u.interval < 2 ^ 31
  client : u.internal = false
  state : u.state = .waiting
  id : top ≤ u.id

/-- Whatever else happens: time passes, other endpoints are used, the type of
    this one changes. -/
structure Elsewhere (k : Nat) (s t : Server) : Prop where
  due : t.iso_next_due k = s.iso_next_due k
  speed : t.speed = s.speed
  now : s.now ≤ t.now
  waiting : t.waiting k = s.waiting k
  lane : Lane k t

inductive Pace.Step (k : Nat) : Pace → Pace → Prop
  /-- Tried at once if no URB of the endpoint waits. -/
  | submit (p : Pace) (n : Nat) (u : USBIPURB) (h : Submitted k p.top u) :
      Step k p
        { (if (p.server.waiting k).isEmpty then p.tries (loops n).toEnv p.server u else p) with
          server := usbip_urb_submit (loops n).toEnv p.server u
          top := u.id + 1 }
  /-- A turn of `usbip_retry`, from a timer, the bottom half or a wakeup. -/
  | retry (p : Pace) (n : Nat) (u : USBIPURB) (rest : List USBIPURB)
      (h : p.server.waiting k = u :: rest) :
      Step k p
        { p.tries (loops n).toEnv (p.server.set_waiting k rest) u with
          server := usbip_retry_turn (loops n).toEnv (fun s _ => s) p.server k }
  | unlink (p : Pace) (u : USBIPURB) (h : u ∈ p.server.waiting k) :
      Step k p { p with server := usbip_urb_unlink p.server u }
  | elsewhere (p : Pace) (t : Server) (h : Elsewhere k p.server t) :
      Step k p { p with server := t }

/-- A connection on which the endpoint is not used yet. -/
structure Pace.Start (k : Nat) (p : Pace) : Prop where
  now : 0 ≤ p.server.now
  due : p.server.iso_next_due k = 0
  waiting : p.server.waiting k = []
  lane : Lane k p.server
  services : p.services = []
  completed : p.completed = []
  stalled : p.stalled = []

/-- The packets of an URB that the device got, in order. -/
def Pace.indices (p : Pace) (id : Nat) : List Nat :=
  (p.services.filter (·.id == id)).map (·.index)

/-- URB by URB, packet by packet, and each due only once the one before it is
    over. -/
def Service.Before (e e' : Service) : Prop :=
  (e.id < e'.id ∨ e.id = e'.id ∧ e.index < e'.index) ∧ e.next ≤ e'.due

/-- An URB of the queue. -/
structure Waits (k top : Nat) (p : Pace) (u : USBIPURB) : Prop where
  key : usbip_urb_key u = k
  state : u.state = .waiting
  client : u.internal = false
  packets : u.iso.length = u.number_of_packets
  left : u.iso_next < u.number_of_packets
  interval : u.interval < 2 ^ 31
  id : u.id < top
  got : p.indices u.id = List.range u.iso_next

/-- An URB that left the queue: the device will not see it again. -/
structure Left (p : Pace) (us : List USBIPURB) (u : USBIPURB) (n : Nat) : Prop where
  got : p.indices u.id = List.range n
  id : u.id < p.top
  ahead : ∀ v ∈ us, u.id < v.id

/-- The invariant, with the endpoint's queue as an argument: a retry takes the
    head off while it tries it. -/
structure Paced (k : Nat) (p : Pace) (us : List USBIPURB) : Prop where
  now : 0 ≤ p.server.now
  lane : Lane k p.server
  next : Scheduled k p.server (p.server.iso_next_due k)
  nonneg : 0 ≤ p.server.iso_next_due k
  waits : ∀ u ∈ us, Waits k p.top p u
  order : us.Pairwise (·.id < ·.id)
  behind : ∀ u ∈ us.tail, u.Unscheduled
  head : ∀ u ∈ us.head?, u.Unscheduled ∨ Scheduled k p.server u.iso_due
  timely : ∀ e ∈ p.services, e.Timely (usbip_iso_frame p.server)
  past : ∀ e ∈ p.services, e.next ≤ p.server.iso_next_due k ∧ e.id < p.top
  ahead : ∀ e ∈ p.services, ∀ u ∈ us, e.id ≤ u.id
  lined : p.services.Pairwise Service.Before
  whole : ∀ u ∈ p.completed, Left p us u u.number_of_packets
  cut : ∀ u ∈ p.stalled, Left p us u u.iso_next

theorem Pace.indices_append (p : Pace) (e : Service) (t : Server) (id : Nat) :
    { p with services := p.services ++ [e], server := t }.indices id =
      p.indices id ++ if e.id = id then [e.index] else [] := by
  unfold Pace.indices
  rw [List.filter_append, List.map_append, List.filter_singleton]
  by_cases he : e.id = id
  · simp [he]
  · simp [he, beq_false_of_ne he]

theorem Scheduled.later {k : Nat} {s t : Server} {due : Int} (h : Scheduled k s due)
    (hspeed : t.speed = s.speed) (hdue : t.iso_next_due k = s.iso_next_due k)
    (hnow : s.now ≤ t.now) : Scheduled k t due := by
  have hframe : usbip_iso_frame t = usbip_iso_frame s := by
    unfold usbip_iso_frame
    rw [hspeed]
  refine ⟨hframe ▸ h.frame, hdue ▸ h.after, ?_⟩
  have := h.soon
  rw [hframe]
  omega

/-- What happens elsewhere leaves the endpoint's schedule alone. -/
theorem Paced.elsewhere {k : Nat} {p : Pace} {us : List USBIPURB} (h : Paced k p us) {t : Server}
    (hdue : t.iso_next_due k = p.server.iso_next_due k) (hspeed : t.speed = p.server.speed)
    (hnow : p.server.now ≤ t.now) (hlane : Lane k t) : Paced k { p with server := t } us := by
  have hframe : usbip_iso_frame t = usbip_iso_frame p.server := by
    unfold usbip_iso_frame
    rw [hspeed]
  refine ⟨le_trans h.now hnow, hlane, ?_, hdue ▸ h.nonneg, ?_, h.order, h.behind, ?_, ?_, ?_,
    h.ahead, h.lined, ?_, ?_⟩
  · show Scheduled k t (t.iso_next_due k)
    rw [hdue]
    exact h.next.later hspeed hdue hnow
  · intro u hu
    obtain ⟨h₁, h₂, h₃, h₄, h₅, h₆, h₇, h₈⟩ := h.waits u hu
    exact ⟨h₁, h₂, h₃, h₄, h₅, h₆, h₇, h₈⟩
  · intro u hu
    exact (h.head u hu).imp id fun hsched => hsched.later hspeed hdue hnow
  · intro e he
    show e.Timely (usbip_iso_frame t)
    rw [hframe]
    exact h.timely e he
  · intro e he
    show e.next ≤ t.iso_next_due k ∧ e.id < p.top
    rw [hdue]
    exact h.past e he
  · intro u hu
    obtain ⟨h₁, h₂, h₃⟩ := h.whole u hu
    exact ⟨h₁, h₂, h₃⟩
  · intro u hu
    obtain ⟨h₁, h₂, h₃⟩ := h.cut u hu
    exact ⟨h₁, h₂, h₃⟩

/-- Some URBs leave the queue, by an unlink or to be tried. -/
theorem Paced.sublist {k : Nat} {p : Pace} {us vs : List USBIPURB} (h : Paced k p us)
    (hsub : vs.Sublist us) (hfirst : ∀ v ∈ vs.head?, v ∈ us.tail ∨ v ∈ us.head?)
    (hrest : ∀ v ∈ vs.tail, v ∈ us.tail) : Paced k p vs := by
  refine ⟨h.now, h.lane, h.next, h.nonneg, fun u hu => h.waits u (hsub.subset hu),
    h.order.sublist hsub, fun u hu => h.behind u (hrest u hu), ?_, h.timely, h.past,
    fun e he u hu => h.ahead e he u (hsub.subset hu), h.lined, ?_, ?_⟩
  · intro u hu
    rcases hfirst u hu with htail | hhead
    · exact .inl (h.behind u htail)
    · exact h.head u hhead
  · intro u hu
    obtain ⟨hgot, hid, hahead⟩ := h.whole u hu
    exact ⟨hgot, hid, fun v hv => hahead v (hsub.subset hv)⟩
  · intro u hu
    obtain ⟨hgot, hid, hahead⟩ := h.cut u hu
    exact ⟨hgot, hid, fun v hv => hahead v (hsub.subset hv)⟩

theorem Paced.tail {k : Nat} {p : Pace} {u : USBIPURB} {rest : List USBIPURB}
    (h : Paced k p (u :: rest)) : Paced k p rest :=
  h.sublist (List.sublist_cons_self u rest) (fun _ hv => .inl (List.mem_of_mem_head? hv))
    (fun _ hv => List.mem_of_mem_tail hv)

/-- The URB that was tried goes back to the head of the queue. -/
theorem Paced.back {k : Nat} {p : Pace} {w : USBIPURB} {rest : List USBIPURB}
    (h : Paced k p rest) (hw : Waits k p.top p w) (hsched : Scheduled k p.server w.iso_due)
    (hfirst : ∀ v ∈ rest, w.id < v.id) (hfresh : ∀ v ∈ rest, v.Unscheduled)
    (hahead : ∀ e ∈ p.services, e.id ≤ w.id) (hwhole : ∀ c ∈ p.completed, c.id < w.id)
    (hcut : ∀ c ∈ p.stalled, c.id < w.id) : Paced k p (w :: rest) := by
  refine ⟨h.now, h.lane, h.next, h.nonneg, List.forall_mem_cons.mpr ⟨hw, h.waits⟩,
    List.pairwise_cons.mpr ⟨hfirst, h.order⟩, hfresh, ?_, h.timely, h.past, ?_, h.lined, ?_, ?_⟩
  · intro v hv
    obtain rfl := Option.some.inj hv
    exact .inr hsched
  · intro e he
    exact List.forall_mem_cons.mpr ⟨hahead e he, h.ahead e he⟩
  · intro c hc
    obtain ⟨hgot, hid, hlt⟩ := h.whole c hc
    exact ⟨hgot, hid, List.forall_mem_cons.mpr ⟨hwhole c hc, hlt⟩⟩
  · intro c hc
    obtain ⟨hgot, hid, hlt⟩ := h.cut c hc
    exact ⟨hgot, hid, List.forall_mem_cons.mpr ⟨hcut c hc, hlt⟩⟩

/-- The head of the queue, taken off it, gets its next packet serviced. -/
theorem Paced.served {k : Nat} {p : Pace} {u : USBIPURB} {rest : List USBIPURB}
    (h : Paced k p (u :: rest)) {e : Service} {t : Server} (hid : e.id = u.id)
    (hindex : e.index = u.iso_next) (htime : e.time = p.server.now)
    (htimely : e.Timely (usbip_iso_frame p.server)) (hdue : p.server.iso_next_due k ≤ e.due)
    (hkeep : Keeps k (advanced p.server k e.next) t) (hlane : Lane k t) :
    Paced k { p with services := p.services ++ [e], server := t } rest ∧
      { p with services := p.services ++ [e], server := t }.indices u.id =
        List.range (u.iso_next + 1) := by
  have hwaits := h.waits u List.mem_cons_self
  have hlater : ∀ v ∈ rest, u.id < v.id := (List.pairwise_cons.mp h.order).1
  have hnext : t.iso_next_due k = e.next := by
    rw [hkeep.due]
    exact Function.update_self _ _ _
  have hframe : usbip_iso_frame t = usbip_iso_frame p.server := by
    unfold usbip_iso_frame
    rw [hkeep.speed]
    rfl
  have hnow : t.now = p.server.now := hkeep.now
  have hother : ∀ id, id ≠ u.id →
      { p with services := p.services ++ [e], server := t }.indices id = p.indices id := by
    intro id hne
    rw [Pace.indices_append, if_neg (by omega), List.append_nil]
  obtain ⟨hpos, -⟩ := iso_frame_pos p.server
  have htail := h.tail
  refine ⟨⟨?_, hlane, ?_, ?_, ?_, htail.order, htail.behind, ?_, ?_, ?_, ?_, ?_, ?_, ?_⟩, ?_⟩
  · show 0 ≤ t.now
    rw [hnow]
    exact h.now
  · show Scheduled k t (t.iso_next_due k)
    rw [hnext]
    refine ⟨hframe ▸ htimely.frameNext, le_of_eq hnext, ?_⟩
    rw [hframe, hnow]
    have hsoon := htimely.soon
    have hperiod := htimely.period
    omega
  · show 0 ≤ t.iso_next_due k
    have hlate := htimely.late
    have := h.now
    omega
  · intro v hv
    have hw := htail.waits v hv
    refine ⟨hw.key, hw.state, hw.client, hw.packets, hw.left, hw.interval, hw.id, ?_⟩
    rw [hother v.id (Nat.ne_of_gt (hlater v hv))]
    exact hw.got
  · -- the next URB has no frame yet
    intro v hv
    exact .inl (h.behind v (List.mem_of_mem_head? hv))
  · intro f hf
    show f.Timely (usbip_iso_frame t)
    rw [hframe]
    rcases List.mem_append.mp hf with hf | hf
    · exact h.timely f hf
    · rw [List.mem_singleton.mp hf]
      exact htimely
  · intro f hf
    show f.next ≤ t.iso_next_due k ∧ f.id < p.top
    rw [hnext]
    rcases List.mem_append.mp hf with hf | hf
    · obtain ⟨hle, hlt⟩ := h.past f hf
      have hdue' := htimely.due
      have hlate := htimely.late
      exact ⟨by omega, hlt⟩
    · rw [List.mem_singleton.mp hf, hid]
      exact ⟨le_refl _, hwaits.id⟩
  · intro f hf v hv
    rcases List.mem_append.mp hf with hf | hf
    · exact h.ahead f hf v (List.mem_cons_of_mem _ hv)
    · rw [List.mem_singleton.mp hf, hid]
      exact le_of_lt (hlater v hv)
  · -- after every earlier service, in the queue's order and in time
    refine List.pairwise_append.mpr ⟨h.lined, List.pairwise_singleton _ _, ?_⟩
    intro f hf g hg
    rw [List.mem_singleton.mp hg]
    refine ⟨?_, le_trans (h.past f hf).1 hdue⟩
    rcases Nat.lt_or_eq_of_le (h.ahead f hf u List.mem_cons_self) with hlt | heq
    · exact .inl (by omega)
    · right
      refine ⟨by omega, ?_⟩
      have hmem : f.index ∈ p.indices u.id :=
        List.mem_map_of_mem (List.mem_filter.mpr ⟨hf, by simp [heq]⟩)
      rw [hwaits.got, List.mem_range] at hmem
      omega
  · intro c hc
    obtain ⟨hgot, hcid, hahead⟩ := h.whole c hc
    have hlt := hahead u List.mem_cons_self
    refine ⟨?_, hcid, fun v hv => hahead v (List.mem_cons_of_mem _ hv)⟩
    rw [hother c.id (Nat.ne_of_lt hlt)]
    exact hgot
  · intro c hc
    obtain ⟨hgot, hcid, hahead⟩ := h.cut c hc
    have hlt := hahead u List.mem_cons_self
    refine ⟨?_, hcid, fun v hv => hahead v (List.mem_cons_of_mem _ hv)⟩
    rw [hother c.id (Nat.ne_of_lt hlt)]
    exact hgot
  · rw [Pace.indices_append, if_pos hid, hindex, hwaits.got, List.range_succ]

/-- The URBs that ended, with those that just did. -/
theorem Paced.ends {k : Nat} {p : Pace} {rest completed stalled : List USBIPURB}
    (h : Paced k p rest)
    (hwhole : ∀ c ∈ completed, c ∈ p.completed ∨ Left p rest c c.number_of_packets)
    (hcut : ∀ c ∈ stalled, c ∈ p.stalled ∨ Left p rest c c.iso_next) :
    Paced k { p with completed := completed, stalled := stalled } rest := by
  refine ⟨h.now, h.lane, h.next, h.nonneg, ?_, h.order, h.behind, h.head, h.timely, h.past,
    h.ahead, h.lined, ?_, ?_⟩
  · intro v hv
    obtain ⟨h₁, h₂, h₃, h₄, h₅, h₆, h₇, h₈⟩ := h.waits v hv
    exact ⟨h₁, h₂, h₃, h₄, h₅, h₆, h₇, h₈⟩
  · intro c hc
    obtain ⟨h₁, h₂, h₃⟩ := (hwhole c hc).elim (h.whole c) id
    exact ⟨h₁, h₂, h₃⟩
  · intro c hc
    obtain ⟨h₁, h₂, h₃⟩ := (hcut c hc).elim (h.cut c) id
    exact ⟨h₁, h₂, h₃⟩

/-- What `usbip_urb_try` leaves for its caller: the server, and the URB if it has
    to wait on. -/
structure Tried (k : Nat) (p : Pace) (env : Env) (u : USBIPURB) (rest : List USBIPURB)
    (r : Server × Option USBIPURB) : Prop where
  waiting : r.1.waiting k = p.server.waiting k
  speed : r.1.speed = p.server.speed
  now : r.1.now = p.server.now
  back : ∀ w ∈ r.2, usbip_urb_key w = k ∧ w.state = .waiting
  paced : Paced k { p.tries env p.server u with server := r.1 } (r.2.toList ++ rest)

theorem Paced.tries_stall {env : Env} {k : Nat} {p : Pace} {u : USBIPURB}
    {rest : List USBIPURB} (h : Paced k p (u :: rest))
    (hep : u.epnum = 0 ∨ (p.server.eps (usbip_urb_key u)).isoc = false) :
    Tried k p env u rest (usbip_urb_iso_stall env p.server u, none) := by
  have hw := h.waits u List.mem_cons_self
  have hkeep : Keeps k p.server (usbip_urb_iso_stall env p.server u) :=
    urb_complete_keeps env k p.server (u := u.stalled) hw.client
  have hleft : Left p rest u u.iso_next :=
    ⟨hw.got, hw.id, (List.pairwise_cons.mp h.order).1⟩
  have hcut : ∀ c ∈ p.stalled ++ [u], c ∈ p.stalled ∨ Left p rest c c.iso_next := by
    intro c hc
    refine (List.mem_append.mp hc).imp_right fun hlast => ?_
    rw [List.mem_singleton.mp hlast]
    exact hleft
  have hpaced := (h.tail.ends (fun _ => .inl) hcut).elsewhere (congrFun hkeep.due k) hkeep.speed
    (le_of_eq hkeep.now.symm) (hkeep.lane h.lane)
  refine ⟨hkeep.waiting, hkeep.speed, hkeep.now, (fun w hw => nomatch hw), ?_⟩
  rw [Pace.tries, if_pos hep]
  exact hpaced

/-- A call before the URB's frame: it keeps its place and its due time. -/
theorem Paced.tries_early {env : Env} {k : Nat} {p : Pace} {u : USBIPURB}
    {rest : List USBIPURB} (h : Paced k p (u :: rest))
    (hep : ¬ (u.epnum = 0 ∨ (p.server.eps (usbip_urb_key u)).isoc = false))
    (hearly : iso_service p.server u = none) :
    Tried k p env u rest (usbip_urb_iso env p.server u) := by
  have hw := h.waits u List.mem_cons_self
  have hlater : ∀ v ∈ rest, u.id < v.id := (List.pairwise_cons.mp h.order).1
  have hsched := iso_schedule_due hw.key h.next (h.head u rfl)
  have hcall : usbip_urb_iso env p.server u =
      ({ p.server with
        iso_timer := timer_anticipate p.server.iso_timer (iso_schedule p.server u).iso_due },
        some (iso_schedule p.server u)) := by
    rw [iso_service_none env hearly, iso_finish, if_pos]
    rw [iso_schedule_same]
    exact hw.left
  rw [hcall]
  have hlane : Lane k { p.server with
      iso_timer := timer_anticipate p.server.iso_timer (iso_schedule p.server u).iso_due } :=
    ⟨h.lane.held, h.lane.empty⟩
  refine ⟨rfl, rfl, rfl, ?_, ?_⟩
  · intro w hwr
    obtain rfl := Option.some.inj hwr
    rw [iso_schedule_same]
    exact ⟨hw.key, hw.state⟩
  · rw [Pace.tries, if_neg hep, hearly, hcall]
    have hback : Paced k p (iso_schedule p.server u :: rest) := by
      apply h.tail.back _ hsched
      · rw [iso_schedule_same]
        exact hlater
      · exact h.behind
      · rw [iso_schedule_same]
        exact fun e he => h.ahead e he u List.mem_cons_self
      · rw [iso_schedule_same]
        exact fun c hc => (h.whole c hc).ahead u List.mem_cons_self
      · rw [iso_schedule_same]
        exact fun c hc => (h.cut c hc).ahead u List.mem_cons_self
      · rw [iso_schedule_same]
        exact ⟨hw.key, hw.state, hw.client, hw.packets, hw.left, hw.interval, hw.id, hw.got⟩
    have hpaced := hback.elsewhere (t := { p.server with
      iso_timer := timer_anticipate p.server.iso_timer (iso_schedule p.server u).iso_due })
      rfl rfl (le_refl _) hlane
    simpa using hpaced

/-- A call in the URB's frame, or after it. -/
theorem Paced.tries_due {env : Env} {k : Nat} (henv : EnvKeeps k env) {p : Pace} {u : USBIPURB}
    {rest : List USBIPURB} (h : Paced k p (u :: rest)) {e : Service}
    (hep : ¬ (u.epnum = 0 ∨ (p.server.eps (usbip_urb_key u)).isoc = false))
    (hdue : iso_service p.server u = some e) :
    Tried k p env u rest (usbip_urb_iso env p.server u) := by
  have hw := h.waits u List.mem_cons_self
  have hlater : ∀ v ∈ rest, u.id < v.id := (List.pairwise_cons.mp h.order).1
  obtain ⟨htimely, hafter, hid, hindex, htime⟩ :=
    iso_service_timely hw.key hw.interval h.next (h.head u rfl) hdue
  obtain ⟨pk, b, iso, t, hkeep, hlane, hlen, hcall⟩ := urb_iso_serves henv h.lane hw.key hdue
  obtain ⟨hserved, hgot⟩ := h.served hid hindex htime htimely hafter hkeep hlane
  have hnext : t.iso_next_due k = e.next := by
    rw [hkeep.due]
    exact Function.update_self _ _ _
  by_cases hmore : u.iso_next + 1 < u.number_of_packets
  · -- more packets: the URB waits for its next frame
    have hfin : usbip_urb_iso env p.server u =
        ({ t with iso_timer := timer_anticipate t.iso_timer e.next }, some { u with
          packet := pk, buf := b, iso := iso, iso_next := u.iso_next + 1, iso_due := e.next }) := by
      rw [hcall]
      exact if_pos hmore
    have hlane' : Lane k { t with iso_timer := timer_anticipate t.iso_timer e.next } :=
      ⟨hlane.held, hlane.empty⟩
    rw [hfin]
    refine ⟨hkeep.waiting, hkeep.speed, hkeep.now, ?_, ?_⟩
    · intro w hwr
      obtain rfl := Option.some.inj hwr
      exact ⟨hw.key, hw.state⟩
    · rw [Pace.tries, if_neg hep, hdue, hfin]
      have hsched : Scheduled k t e.next := hnext ▸ hserved.next
      have hback := hserved.back (w := { u with
          packet := pk, buf := b, iso := iso, iso_next := u.iso_next + 1, iso_due := e.next })
        ⟨hw.key, hw.state, hw.client, hlen.trans hw.packets, hmore, hw.interval, hw.id, hgot⟩
        hsched hlater h.behind ?_ (fun c hc => (h.whole c hc).ahead u List.mem_cons_self)
        (fun c hc => (h.cut c hc).ahead u List.mem_cons_self)
      · exact hback.elsewhere (t := { t with iso_timer := timer_anticipate t.iso_timer e.next })
          rfl rfl (le_refl _) hlane'
      · intro f hf
        rcases List.mem_append.mp hf with hf | hf
        · exact h.ahead f hf u List.mem_cons_self
        · rw [List.mem_singleton.mp hf]
          exact le_of_eq hid
  · -- that was the last one
    have hfin : usbip_urb_iso env p.server u =
        (usbip_urb_complete env t { u with
          packet := pk, buf := b, iso := iso, iso_next := u.iso_next + 1, iso_due := e.next },
          none) := by
      rw [hcall]
      exact if_neg hmore
    have hdone : Keeps k t (usbip_urb_complete env t { u with
        packet := pk, buf := b, iso := iso, iso_next := u.iso_next + 1, iso_due := e.next }) :=
      urb_complete_keeps env k t hw.client
    rw [hfin]
    refine ⟨hdone.waiting.trans hkeep.waiting, hdone.speed.trans hkeep.speed,
      hdone.now.trans hkeep.now, (fun w hw => nomatch hw), ?_⟩
    rw [Pace.tries, if_neg hep, hdue, hfin]
    have hlast : u.iso_next + 1 = u.number_of_packets := by
      have := hw.left
      omega
    have hleft : Left { p with services := p.services ++ [e], server := t } rest u
        u.number_of_packets := ⟨hlast ▸ hgot, hw.id, hlater⟩
    have hwhole : ∀ c ∈ p.completed ++ [u], c ∈ p.completed ∨
        Left { p with services := p.services ++ [e], server := t } rest c c.number_of_packets := by
      intro c hc
      refine (List.mem_append.mp hc).imp_right fun hlast => ?_
      rw [List.mem_singleton.mp hlast]
      exact hleft
    exact (hserved.ends hwhole (fun _ => .inl)).elsewhere (congrFun hdone.due k) hdone.speed
      (le_of_eq hdone.now.symm) (hdone.lane hlane)

theorem Paced.tries {k : Nat} {p : Pace} {u : USBIPURB} {rest : List USBIPURB} (n : Nat)
    (h : Paced k p (u :: rest)) :
    Tried k p (loops n).toEnv u rest (usbip_urb_try (loops n).toEnv p.server u) := by
  have hw := h.waits u List.mem_cons_self
  have hsome : u.number_of_packets ≠ 0 := by
    have := hw.left
    omega
  rw [usbip_urb_try, if_pos hsome]
  by_cases hep : u.epnum = 0 ∨ (p.server.eps (usbip_urb_key u)).isoc = false
  · rw [if_pos hep]
    exact h.tries_stall hep
  · rw [if_neg hep]
    cases hserve : iso_service p.server u with
    | none => exact h.tries_early hep hserve
    | some e => exact h.tries_due (loops_keep k n).1 hep hserve

/-- A new URB at the end of the queue. -/
theorem Paced.enqueue {k : Nat} {p : Pace} {us : List USBIPURB} {u : USBIPURB}
    (h : Paced k p us) (hu : Submitted k p.top u) :
    Paced k { p with top := u.id + 1 } (us ++ [u]) := by
  have htop := hu.id
  -- The id is fresh, so nothing was moved for it yet.
  have hnone : p.indices u.id = [] := by
    rw [Pace.indices, List.map_eq_nil_iff, List.filter_eq_nil_iff]
    intro e he heq
    have := (h.past e he).2
    have : e.id = u.id := by simpa using heq
    omega
  refine ⟨h.now, h.lane, h.next, h.nonneg, ?_, ?_, ?_, ?_, h.timely, ?_, ?_, h.lined, ?_, ?_⟩
  · intro v hv
    rcases List.mem_append.mp hv with hv | hv
    · have hw := h.waits v hv
      have hid := hw.id
      exact ⟨hw.key, hw.state, hw.client, hw.packets, hw.left, hw.interval,
        Nat.lt_succ_of_lt (Nat.lt_of_lt_of_le hid htop), hw.got⟩
    · rw [List.mem_singleton.mp hv]
      refine ⟨hu.key, hu.state, hu.client, hu.packets, ?_, hu.interval, Nat.lt_succ_self _, ?_⟩
      · rw [hu.unscheduled.1]
        exact hu.some_packets
      · rw [hu.unscheduled.1]
        exact hnone
  · refine List.pairwise_append.mpr ⟨h.order, List.pairwise_singleton _ _, ?_⟩
    intro v hv w hw
    rw [List.mem_singleton.mp hw]
    exact Nat.lt_of_lt_of_le (h.waits v hv).id htop
  · intro v hv
    cases us with
    | nil => cases hv
    | cons a us =>
      rcases List.mem_append.mp hv with hv | hv
      · exact h.behind v hv
      · rw [List.mem_singleton.mp hv]
        exact hu.unscheduled
  · intro v hv
    cases us with
    | nil =>
      obtain rfl := Option.some.inj hv
      exact .inl hu.unscheduled
    | cons a us => exact h.head v hv
  · intro e he
    obtain ⟨hle, hlt⟩ := h.past e he
    exact ⟨hle, Nat.lt_succ_of_lt (Nat.lt_of_lt_of_le hlt htop)⟩
  · intro e he v hv
    rcases List.mem_append.mp hv with hv | hv
    · exact h.ahead e he v hv
    · rw [List.mem_singleton.mp hv]
      exact le_of_lt (Nat.lt_of_lt_of_le (h.past e he).2 htop)
  · intro c hc
    obtain ⟨hgot, hid, hahead⟩ := h.whole c hc
    have hlt := Nat.lt_of_lt_of_le hid htop
    refine ⟨hgot, Nat.lt_succ_of_lt hlt, ?_⟩
    intro v hv
    rcases List.mem_append.mp hv with hv | hv
    · exact hahead v hv
    · rw [List.mem_singleton.mp hv]
      exact hlt
  · intro c hc
    obtain ⟨hgot, hid, hahead⟩ := h.cut c hc
    have hlt := Nat.lt_of_lt_of_le hid htop
    refine ⟨hgot, Nat.lt_succ_of_lt hlt, ?_⟩
    intro v hv
    rcases List.mem_append.mp hv with hv | hv
    · exact hahead v hv
    · rw [List.mem_singleton.mp hv]
      exact hlt

theorem wait_elsewhere {k : Nat} {t : Server} {u : USBIPURB} (hkey : usbip_urb_key u = k)
    (hstate : u.state = .waiting) (hl : Lane k t) :
    (usbip_urb_wait t u).waiting k = t.waiting k ++ [u] ∧
      (usbip_urb_wait t u).iso_next_due = t.iso_next_due ∧
      (usbip_urb_wait t u).speed = t.speed ∧ (usbip_urb_wait t u).now = t.now ∧
      Lane k (usbip_urb_wait t u) := by
  have hsame : { u with state := .waiting } = u := by rw [← hstate]
  unfold usbip_urb_wait usbip_arm_retry
  dsimp only
  rw [hsame, hkey]
  split
  · exact ⟨Function.update_self _ _ _, rfl, rfl, rfl, ⟨hl.held, hl.empty⟩⟩
  · exact ⟨Function.update_self _ _ _, rfl, rfl, rfl, ⟨hl.held, hl.empty⟩⟩

theorem Paced.submit {k : Nat} {p : Pace} (h : Paced k p (p.server.waiting k)) (n : Nat)
    {u : USBIPURB} (hu : Submitted k p.top u) :
    Paced k { (if (p.server.waiting k).isEmpty then p.tries (loops n).toEnv p.server u else p) with
        server := usbip_urb_submit (loops n).toEnv p.server u
        top := u.id + 1 }
      ((usbip_urb_submit (loops n).toEnv p.server u).waiting k) := by
  have henq := h.enqueue hu
  unfold usbip_urb_submit
  rw [hu.key]
  by_cases hempty : (p.server.waiting k).isEmpty
  · rw [if_pos hempty, if_pos hempty]
    rw [List.isEmpty_iff.mp hempty, List.nil_append] at henq
    obtain ⟨hwait, hspeed, hnow, hback, hpaced⟩ := henq.tries n
    have htop : ∀ t, { Pace.tries { p with top := u.id + 1 } (loops n).toEnv p.server u with
        server := t } = { p.tries (loops n).toEnv p.server u with
          server := t, top := u.id + 1 } := by
      intro t
      unfold Pace.tries
      split <;> rfl
    rw [htop] at hpaced
    rw [List.isEmpty_iff.mp hempty] at hwait
    generalize usbip_urb_try (loops n).toEnv p.server u = r at hwait hspeed hnow hback hpaced
    obtain ⟨t, (_ | w)⟩ := r
    · rw [show t.waiting k = [] from hwait]
      exact hpaced
    · obtain ⟨hkey, hstate⟩ := hback w rfl
      obtain ⟨hw, hdue, hspeed', hnow', hlane⟩ := wait_elsewhere hkey hstate hpaced.lane
      have hgoal := hpaced.elsewhere (congrFun hdue k) hspeed' (le_of_eq hnow'.symm) hlane
      show Paced k _ ((usbip_urb_wait t w).waiting k)
      rw [hw, show t.waiting k = [] from hwait]
      exact hgoal
  · rw [if_neg hempty, if_neg hempty]
    obtain ⟨hw, hdue, hspeed', hnow', hlane⟩ := wait_elsewhere hu.key hu.state h.lane
    rw [hw]
    exact henq.elsewhere (congrFun hdue k) hspeed' (le_of_eq hnow'.symm) hlane

theorem Paced.retry {k : Nat} {p : Pace} (h : Paced k p (p.server.waiting k)) (n : Nat)
    {u : USBIPURB} {rest : List USBIPURB} (hq : p.server.waiting k = u :: rest) :
    Paced k { p.tries (loops n).toEnv (p.server.set_waiting k rest) u with
        server := usbip_retry_turn (loops n).toEnv (fun s _ => s) p.server k }
      ((usbip_retry_turn (loops n).toEnv (fun s _ => s) p.server k).waiting k) := by
  rw [hq] at h
  have hoff : Paced k { p with server := p.server.set_waiting k rest } (u :: rest) :=
    h.elsewhere rfl rfl (le_refl _) ⟨h.lane.held, h.lane.empty⟩
  obtain ⟨hwait, hspeed, hnow, hback, hpaced⟩ := hoff.tries n
  have hrest : (p.server.set_waiting k rest).waiting k = rest := Function.update_self _ _ _
  have hsame : ∀ t, { Pace.tries { p with server := p.server.set_waiting k rest }
      (loops n).toEnv (p.server.set_waiting k rest) u with server := t } =
      { p.tries (loops n).toEnv (p.server.set_waiting k rest) u with server := t } := by
    intro t
    unfold Pace.tries
    split <;> rfl
  rw [hsame] at hpaced
  unfold usbip_retry_turn
  rw [hq]
  dsimp only at hwait hpaced ⊢
  generalize usbip_urb_try (loops n).toEnv (p.server.set_waiting k rest) u = r
    at hwait hspeed hnow hback hpaced
  rw [hrest] at hwait
  obtain ⟨t, (_ | w)⟩ := r
  · show Paced k _ (t.waiting k)
    rw [show t.waiting k = rest from hwait]
    exact hpaced
  · have hlane : Lane k t := hpaced.lane
    have hgoal := hpaced.elsewhere (t := t.set_waiting k (w :: t.waiting k)) rfl rfl (le_refl _)
      ⟨hlane.held, hlane.empty⟩
    show Paced k { p.tries (loops n).toEnv (p.server.set_waiting k rest) u with
        server := t.set_waiting k (w :: t.waiting k) }
      (Function.update t.waiting k (w :: t.waiting k) k)
    have hq' : t.waiting k = rest := hwait
    rw [Function.update_self, hq']
    rw [hq'] at hgoal
    exact hgoal

theorem Paced.unlink {k : Nat} {p : Pace} (h : Paced k p (p.server.waiting k)) {u : USBIPURB}
    (hu : u ∈ p.server.waiting k) :
    Paced k { p with server := usbip_urb_unlink p.server u }
      ((usbip_urb_unlink p.server u).waiting k) := by
  have hw := h.waits u hu
  have hcall : usbip_urb_unlink p.server u =
      p.server.set_waiting k (remove (p.server.waiting k) u.id) := by
    unfold usbip_urb_unlink
    rw [if_neg (by rw [hw.state]; decide)]
    dsimp only
    rw [hw.key]
  rw [hcall]
  show Paced k _ (Function.update p.server.waiting k _ k)
  rw [Function.update_self]
  have hsub : Paced k p (remove (p.server.waiting k) u.id) := by
    unfold remove
    cases hq : p.server.waiting k with
    | nil => rw [hq] at hu; cases hu
    | cons a us =>
      rw [hq] at h
      rw [List.eraseP_cons]
      by_cases ha : (a.id == u.id) = true
      · rw [ha]
        exact h.tail
      · rw [Bool.not_eq_true] at ha
        rw [ha]
        refine h.sublist (List.eraseP_sublist.cons_cons a) (fun v hv => .inr hv) ?_
        exact fun v hv => List.mem_of_mem_eraseP hv
  exact hsub.elsewhere rfl rfl (le_refl _) ⟨h.lane.held, h.lane.empty⟩

theorem Pace.Step.paced {k : Nat} {p q : Pace} (hstep : Pace.Step k p q)
    (h : Paced k p (p.server.waiting k)) : Paced k q (q.server.waiting k) := by
  cases hstep with
  | submit n u hu => exact h.submit n hu
  | retry n u rest hq => exact h.retry n hq
  | unlink u hu => exact h.unlink hu
  | elsewhere t ht =>
    rw [show t.waiting k = _ from ht.waiting]
    exact h.elsewhere ht.due ht.speed ht.now ht.lane

theorem Pace.Start.paced {k : Nat} {p : Pace} (h : p.Start k) :
    Paced k p (p.server.waiting k) := by
  obtain ⟨hpos, -⟩ := iso_frame_pos p.server
  have hnow := h.now
  have hframes : 0 ≤ usbip_iso_frame p.server * 2 ^ 31 := by omega
  rw [h.waiting]
  refine ⟨hnow, h.lane, ?_, le_of_eq h.due.symm, ?_, .nil, ?_, ?_, ?_, ?_, ?_, ?_, ?_, ?_⟩
  · rw [h.due]
    exact ⟨Int.dvd_zero _, le_of_eq h.due, by omega⟩
  · exact fun u hu => nomatch hu
  · exact fun u hu => nomatch hu
  · exact fun u hu => nomatch hu
  · rw [h.services]
    exact fun e he => nomatch he
  · rw [h.services]
    exact fun e he => nomatch he
  · rw [h.services]
    exact fun e he => nomatch he
  · rw [h.services]
    exact .nil
  · rw [h.completed]
    exact fun e he => nomatch he
  · rw [h.stalled]
    exact fun e he => nomatch he

theorem run_paced {k : Nat} {p₀ p : Pace} (hstart : p₀.Start k)
    (hrun : Relation.ReflTransGen (Pace.Step k) p₀ p) : Paced k p (p.server.waiting k) := by
  induction hrun with
  | refl => exact hstart.paced
  | tail _ hstep ih => exact hstep.paced ih

theorem stalled_desc (u : USBIPURB) (i : Nat) :
    u.stalled.iso[i]? =
      if i < u.iso_next then u.iso[i]?
      else u.iso[i]?.map fun d => { d with actual_length := 0, status := -usbip_epipe } := by
  unfold USBIPURB.stalled
  dsimp only
  rw [List.getElem?_append, List.length_take]
  by_cases hserved : i < u.iso_next
  · rw [if_pos hserved]
    by_cases hlen : i < u.iso.length
    · rw [if_pos (by omega), List.getElem?_take_of_lt hserved]
    · rw [if_neg (by omega), List.getElem?_map, List.getElem?_drop,
        List.getElem?_eq_none (by omega), List.getElem?_eq_none (by omega)]
      rfl
  · rw [if_neg hserved, if_neg (by omega), List.getElem?_map, List.getElem?_drop]
    by_cases hlen : i < u.iso.length
    · rw [show u.iso_next + (i - min u.iso_next u.iso.length) = i by omega]
    · rw [List.getElem?_eq_none (by omega), List.getElem?_eq_none (by omega)]

/-- A due time fits, whatever the client asks for and however late the server
    is. -/
theorem due_fits {frame now due : Int} (hframe : frame ≤ 1000000)
    (hdue : due ≤ now + frame * 2 ^ 31) (hnow : now < 2 ^ 62) : due < 2 ^ 63 := by
  omega

theorem Service.Before.apart {frame : Int} {e e' : Service} (hpos : 0 < frame)
    (h : e.Before e') (he : e.Timely frame) (he' : e'.Timely frame) :
    e.time / frame < e'.time / frame := by
  obtain ⟨m, hm⟩ := he.frameNext
  have hlate := he.late
  have hdue := he'.due
  have hafter := h.2
  have hbefore : e.time / frame < m := by
    rw [Int.ediv_lt_iff_lt_mul hpos, Int.mul_comm]
    omega
  have hthen : m ≤ e'.time / frame := by
    rw [Int.le_ediv_iff_mul_le hpos, Int.mul_comm]
    omega
  omega

/-- The isochronous packets of an endpoint, over any URBs submitted to it and any
    calls, at any times. -/
theorem iso_pacing {k : Nat} {p₀ p : Pace} (hstart : p₀.Start k)
    (hrun : Relation.ReflTransGen (Pace.Step k) p₀ p) :
    -- a call hands the packet it services to the device, and no other
    (∀ env s u e, iso_service s u = some e → ∃ d, u.iso[u.iso_next]? = some d ∧
      usbip_urb_iso env s u = iso_finish env (usbip_iso_service env s (iso_schedule s u) d).1
        (usbip_iso_service env s (iso_schedule s u) d).2) ∧
    (∀ env s u, iso_service s u = none →
      usbip_urb_iso env s u = iso_finish env s (iso_schedule s u)) ∧
    -- URBs in queue order, packets in index order, each once, each in a frame of its own
    p.services.Pairwise (fun e e' =>
      (e.id < e'.id ∨ e.id = e'.id ∧ e.index < e'.index) ∧
        e.time / usbip_iso_frame p.server < e'.time / usbip_iso_frame p.server) ∧
    -- on the schedule
    (∀ e ∈ p.services, e.due ≤ e.time ∧ e.time < e.next ∧
      usbip_iso_frame p.server ∣ e.next ∧ e.period ∣ e.next - e.due ∧
      (e.time < 2 ^ 62 → e.time + e.period < 2 ^ 63 ∧ e.next < 2 ^ 63)) ∧
    (p.server.now < 2 ^ 62 → ∀ u ∈ p.server.waiting k, u.iso_due < 2 ^ 63) ∧
    -- every packet of a complete URB
    (∀ u ∈ p.completed, p.indices u.id = List.range u.number_of_packets) ∧
    -- an endpoint that is not isochronous any more
    (∀ u ∈ p.stalled, p.indices u.id = List.range u.iso_next ∧
      ∀ i, u.stalled.iso[i]? =
        if i < u.iso_next then u.iso[i]?
        else u.iso[i]?.map fun d => { d with actual_length := 0, status := -usbip_epipe }) := by
  have h := run_paced hstart hrun
  obtain ⟨hpos, hframe⟩ := iso_frame_pos p.server
  refine ⟨fun env s u e he => iso_service_some env he, fun env s u he => iso_service_none env he,
    ?_, ?_, ?_, fun u hu => (h.whole u hu).got,
    fun u hu => ⟨(h.cut u hu).got, stalled_desc u⟩⟩
  · refine h.lined.imp_of_mem ?_
    intro e e' he he' hbefore
    exact ⟨hbefore.1, hbefore.apart hpos (h.timely e he) (h.timely e' he')⟩
  · intro e he
    have ht := h.timely e he
    refine ⟨ht.due, ht.late, ht.frameNext, ht.phase, ?_⟩
    intro hnow
    have hperiod := ht.period
    have hsoon := ht.soon
    have hfits : e.time + e.period < 2 ^ 63 := due_fits hframe (by omega) hnow
    exact ⟨hfits, by omega⟩
  · intro hnow u hu
    cases hq : p.server.waiting k with
    | nil => rw [hq] at hu; cases hu
    | cons a us =>
      rw [hq] at hu h
      have hdue : u.Unscheduled ∨ Scheduled k p.server u.iso_due := by
        rcases List.mem_cons.mp hu with rfl | hu
        · exact h.head u rfl
        · exact .inl (h.behind u hu)
      rcases hdue with hnone | hsched
      · rw [hnone.2]
        omega
      · exact due_fits hframe hsched.soon hnow

/-- An idle full speed connection with an isochronous OUT endpoint 1. -/
def iso_idle : Pace :=
  { server := { Server.init true with now := 5, eps := fun _ => { isoc := true } } }

/-- Two packets, one a frame. -/
def iso_pair : USBIPURB :=
  { id := 0, seqnum := 7, epnum := 1, number_of_packets := 2, interval := 1, len := 8,
    buf := List.replicate 8 1, iso := [{ offset := 0, length := 4 }, { offset := 4, length := 4 }] }

/-- Submitted, then retried in its first frame and just after its second one. -/
def iso_submitted : Pace :=
  { iso_idle.tries (loops 0).toEnv iso_idle.server iso_pair with
    server := usbip_urb_submit (loops 0).toEnv iso_idle.server iso_pair
    top := 1 }

def iso_wait (p : Pace) (now : Int) : Pace := { p with server := { p.server with now := now } }

def iso_retried (p : Pace) : Pace :=
  match p.server.waiting 1 with
  | [] => p
  | u :: rest =>
    { p.tries (loops 0).toEnv (p.server.set_waiting 1 rest) u with
      server := usbip_retry_turn (loops 0).toEnv (fun s _ => s) p.server 1 }

theorem iso_wait_step {p : Pace} (now : Int) (hl : Lane 1 p.server) (hnow : p.server.now ≤ now) :
    Pace.Step 1 p (iso_wait p now) :=
  .elsewhere p _ ⟨rfl, rfl, hnow, rfl, hl.held, hl.empty⟩

theorem iso_retried_step (p : Pace) :
    Relation.ReflTransGen (Pace.Step 1) p (iso_retried p) := by
  unfold iso_retried
  split
  · exact .refl
  · exact .single (.retry p 0 _ _ ‹_›)

def iso_done : Pace := iso_retried (iso_wait (iso_retried (iso_wait iso_submitted 1000000)) 2000007)

theorem iso_pacing_pair :
    iso_done.services.map (fun e => (e.index, e.due, e.time)) =
      [(0, 1000000, 1000000), (1, 2000000, 2000007)] ∧
    iso_done.completed.length = 1 ∧
    iso_done.services.Pairwise (fun e e' =>
      (e.id < e'.id ∨ e.id = e'.id ∧ e.index < e'.index) ∧
        e.time / usbip_iso_frame iso_done.server < e'.time / usbip_iso_frame iso_done.server) := by
  have hstart : iso_idle.Start 1 :=
    ⟨by decide, rfl, rfl, ⟨(fun u hu => nomatch hu), rfl⟩, rfl, rfl, rfl⟩
  have hnew : Submitted 1 iso_idle.top iso_pair :=
    ⟨rfl, ⟨rfl, rfl⟩, by decide, rfl, by decide, rfl, rfl, le_refl _⟩
  have hsubmit : Relation.ReflTransGen (Pace.Step 1) iso_idle iso_submitted :=
    .single (.submit iso_idle 0 iso_pair hnew)
  have hfirst := (hsubmit.tail (iso_wait_step 1000000 (run_paced hstart hsubmit).lane
    (by decide))).trans (iso_retried_step _)
  have hsecond := (hfirst.tail (iso_wait_step 2000007 (run_paced hstart hfirst).lane
    (by decide))).trans (iso_retried_step _)
  exact ⟨by decide, by decide, (iso_pacing hstart hsecond).2.2.1⟩

end Usbip
