import RpiQemu.Usbip.Closing

/-! # The stack machine refines the ledger

    Which calls can be in progress at the same time, and what each of them may
    rely on:

    * a call that carries an URB, parses or enumerates has nothing below it but
      parse, retry and completion loops (`Shape`);
    * while the device processes a packet, its endpoint's queue does not change
      (`Runs`).

    With these, every step of the stack machine is a step of the ledger. -/

namespace Usbip

open Bytes Keyed Ledger

/-! ## What a stack carries -/

/-- The URBs that calls in progress hold outside the lists. -/
def carried : List Tok → Multiset Ident
  | [] => 0
  | .fresh u :: H => ident u ::ₘ carried H
  | .hand _ u :: H => ident u ::ₘ carried H
  | .run _ u :: H => ident u ::ₘ carried H
  | .iso _ u :: H => ident u ::ₘ carried H
  | .held _ u :: H => ident u ::ₘ carried H
  | .done u :: H => ident u ::ₘ carried H
  | _ :: H => carried H

/-- The enumeration requests about to be issued. -/
def issuing : List Tok → Nat
  | [] => 0
  | .reset :: H => issuing H + 1
  | .issue :: H => issuing H + 1
  | _ :: H => issuing H

def ledger (c : Cfg) : Ledger :=
  { lanes := c.2.lanes, carried := carried c.1, conn := c.2.conn, issuing := issuing c.1,
    next_id := c.2.next_id, nurbs := c.2.nurbs, urb_bytes := c.2.urb_bytes, log := c.2.log }

/-- A loop that holds no URB. -/
def Tok.calm : Tok → Prop
  | .parse => True
  | .loop _ => True
  | .retry _ => True
  | _ => False

def Calm (H : List Tok) : Prop := ∀ t ∈ H, t.calm

theorem Calm.nil : Calm [] := fun _ h => absurd h List.not_mem_nil

theorem Calm.cons {t : Tok} {H : List Tok} (h : Calm H) (ht : t.calm) : Calm (t :: H) := by
  intro t' ht'
  rcases List.mem_cons.mp ht' with rfl | ht'
  · exact ht
  · exact h t' ht'

theorem Calm.tail {t : Tok} {H : List Tok} (h : Calm (t :: H)) : Calm H :=
  fun t' ht' => h t' (List.mem_cons_of_mem _ ht')

theorem Calm.head {t : Tok} {H : List Tok} (h : Calm (t :: H)) : t.calm :=
  h t (List.mem_cons_self ..)

theorem Calm.carried {H : List Tok} (h : Calm H) : carried H = 0 := by
  induction H with
  | nil => rfl
  | cons t H ih =>
    have ht := h.head
    cases t <;> first | exact ht.elim | exact ih h.tail

theorem Calm.issuing {H : List Tok} (h : Calm H) : issuing H = 0 := by
  induction H with
  | nil => rfl
  | cons t H ih =>
    have ht := h.head
    cases t <;> first | exact ht.elim | exact ih h.tail

/-! ## The shape of a stack -/

/-- A call that tries an URB of a waiting list sits on the loop of its key. -/
def Trying (b : Bool) (u : USBIPURB) (H : List Tok) : Prop :=
  Calm H ∧ (b = false → u.state = .waiting ∧ ∃ H', H = .retry (usbip_urb_key u) :: H')

/-- The loop of `usb_packet_complete` comes next. -/
def Looping (H : List Tok) : Prop := ∃ k T, H = .loop k :: T

def Shape : List Tok → Prop
  | [] => True
  | .done u :: H => (u.internal = true → Calm H) ∧ (Calm H ∨ Looping H) ∧ Shape H
  | .loop _ :: H => (Calm H ∨ dev H) ∧ Shape H
  | .runq _ :: H => Looping H ∧ Shape H
  | .hand b u :: H => Trying b u H
  | .run b u :: H => Trying b u H
  | .iso b u :: H => Trying b u H
  | .held b u :: H => Trying b u H
  | _ :: H => Calm H

theorem Calm.shape {H : List Tok} (h : Calm H) : Shape H := by
  induction H with
  | nil => trivial
  | cons t H ih =>
    have ht := h.head
    cases t with
    | parse => exact h.tail
    | retry k => exact h.tail
    | loop k => exact ⟨.inl h.tail, ih h.tail⟩
    | _ => exact ht.elim

/-- What can be in progress below another call. -/
def Tok.below : Tok → Prop
  | .run _ _ => True
  | .runq _ => True
  | .reset => True
  | t => t.calm

theorem Calm.below {H : List Tok} (h : Calm H) : ∀ t ∈ H, t.below := by
  intro t ht
  have hc := h t ht
  cases t <;> first | exact hc | trivial

theorem Shape.below {t : Tok} {H : List Tok} (h : Shape (t :: H)) : ∀ t' ∈ H, t'.below := by
  induction H generalizing t with
  | nil => exact fun t' ht' => absurd ht' List.not_mem_nil
  | cons x H ih =>
    -- `x` is calm, a loop or in the device's hands
    have hx : Calm (x :: H) ∨ x.below ∧ Shape (x :: H) := by
      cases t with
      | done u =>
        obtain ⟨_, hc | ⟨k, T, heq⟩, hs⟩ := h
        · exact .inl hc
        · rw [(List.cons.inj heq).1] at hs ⊢
          exact .inr ⟨trivial, hs⟩
      | loop k =>
        obtain ⟨hc | hd, hs⟩ := h
        · exact .inl hc
        · refine .inr ⟨?_, hs⟩
          cases x <;> first | exact hd.elim | trivial
      | runq u =>
        obtain ⟨⟨k, T, heq⟩, hs⟩ := h
        rw [(List.cons.inj heq).1] at hs ⊢
        exact .inr ⟨trivial, hs⟩
      | hand b u | run b u | iso b u | held b u => exact .inl h.1
      | _ => exact .inl h
    intro t' ht'
    rcases hx with hc | ⟨hb, hs⟩
    · exact hc.below t' ht'
    · rcases List.mem_cons.mp ht' with rfl | ht'
      · exact hb
      · exact ih hs t' ht'

theorem Trying.same {b : Bool} {u v : USBIPURB} {H : List Tok} (h : Trying b u H)
    (hs : Same u v) : Trying b v H := by
  refine ⟨h.1, fun hb => ?_⟩
  rw [hs.state, hs.key]
  exact h.2 hb

/-! ## What running packets rely on -/

def Runs (l : Lanes) : List Tok → Prop
  | [] => True
  | .runq u :: H =>
    (∃ H', H = .loop (usbip_urb_key u) :: H') ∧
      (l.flying (usbip_urb_key u)).head? = some u ∧ u.packet.state ≠ .async ∧ Runs l H
  | .loop k :: H => (∀ u, .runq u ∈ H → usbip_urb_key u ≠ k) ∧ Runs l H
  | .run _ u :: H => l.flying (usbip_urb_key u) = [] ∧ u.packet.ep = usbip_urb_key u ∧ Runs l H
  | _ :: H => Runs l H

theorem Runs.tail {l : Lanes} {t : Tok} {H : List Tok} (h : Runs l (t :: H)) : Runs l H := by
  cases t <;> first | exact h | exact h.2 | exact h.2.2 | exact h.2.2.2

/-- The packet of a queue that the device processes is its first. -/
theorem Runs.of_runq {l : Lanes} {H : List Tok} (h : Runs l H) {u : USBIPURB}
    (hu : .runq u ∈ H) :
    (l.flying (usbip_urb_key u)).head? = some u ∧ u.packet.state ≠ .async := by
  induction H with
  | nil => exact absurd hu List.not_mem_nil
  | cons t H ih =>
    rcases List.mem_cons.mp hu with rfl | hu
    · exact ⟨h.2.1, h.2.2.1⟩
    · exact ih h.tail hu

theorem Runs.frame {l l' : Lanes} {H : List Tok} (h : Runs l H)
    (hq : ∀ u, .runq u ∈ H → l'.flying (usbip_urb_key u) = l.flying (usbip_urb_key u))
    (hr : ∀ k, l.flying k = [] → l'.flying k = []) : Runs l' H := by
  induction H with
  | nil => trivial
  | cons t H ih =>
    have hrest := ih h.tail fun u hu => hq u (List.mem_cons_of_mem _ hu)
    cases t with
    | runq u =>
      refine ⟨h.1, ?_, h.2.2.1, hrest⟩
      rw [hq u (List.mem_cons_self ..)]
      exact h.2.1
    | loop k => exact ⟨h.1, hrest⟩
    | run b u => exact ⟨hr _ h.1, h.2.1, hrest⟩
    | _ => exact hrest

theorem Calm.runs {H : List Tok} (h : Calm H) (l : Lanes) : Runs l H := by
  induction H with
  | nil => trivial
  | cons t H ih =>
    have ht := h.head
    cases t with
    | parse => exact ih h.tail
    | retry k => exact ih h.tail
    | loop k =>
      refine ⟨fun u hu => ?_, ih h.tail⟩
      exact absurd (h.tail _ hu) id
    | _ => exact ht.elim

/-! ## The invariant -/

structure Inv (c : Cfg) : Prop where
  ledger : Ledger.Inv (ledger c)
  shape : Shape c.1
  runs : Runs c.2.lanes c.1

variable {c c' : Cfg} {s : Server} {H : List Tok} {u v : USBIPURB} {k : Nat} {b : Bool}

theorem Inv.wf (h : Inv c) : c.2.lanes.Wf := h.ledger.wf

theorem Inv.distinct (h : Inv c) : c.2.lanes.Distinct := h.ledger.distinct

/-- The core's first packet of an endpoint is the first inflight URB of its key. -/
theorem head_eq (hwf : s.lanes.Wf) (hd : s.lanes.Distinct) (k : Nat) :
    s.head k = (s.lanes.flying k).head? := by
  have hq : (s.eps k).queue = (s.lanes.flying k).map (·.id) := hwf.queue_eq k
  unfold Server.head
  rw [hq]
  cases hfl : s.lanes.flying k with
  | nil => rfl
  | cons u us =>
    have hu : u ∈ s.inflight :=
      (Lanes.mem_flying.mp (show u ∈ s.lanes.flying k by rw [hfl]; simp)).1
    exact find?_of_mem (Lanes.inflight_nodup hwf hd) hu

/-- The first packet of an endpoint, with the rest of its queue. -/
theorem flying_of_head (hwf : s.lanes.Wf) (hd : s.lanes.Distinct) (hh : s.head k = some u) :
    usbip_urb_key u = k ∧ u ∈ s.inflight ∧ s.lanes.flying k = u :: (s.lanes.flying k).tail := by
  rw [head_eq hwf hd] at hh
  have hsplit : s.lanes.flying k = u :: (s.lanes.flying k).tail := by
    cases hfl : s.lanes.flying k with
    | nil =>
      rw [hfl] at hh
      cases hh
    | cons w ws =>
      rw [hfl] at hh
      rw [Option.some.inj hh, List.tail_cons]
  obtain ⟨hu, hk⟩ := Lanes.mem_flying.mp (show u ∈ s.lanes.flying k by rw [hsplit]; simp)
  exact ⟨hk, hu, hsplit⟩

/-- A carried URB is on no list. -/
theorem Inv.carried_not_listed (h : Inv c) {i : Ident} (hi : i ∈ carried c.1) {v : USBIPURB}
    (hv : v ∈ c.2.inflight) : v.id ≠ i.id := by
  intro heq
  have hn := h.ledger.nodup
  rw [pending, Multiset.map_add, Multiset.nodup_add] at hn
  have hlist : ident v ∈ c.2.lanes.listed := by
    rw [Lanes.listed_eq h.wf]
    exact Multiset.mem_add.mpr (.inl (Multiset.mem_coe.mpr (List.mem_map.mpr ⟨v, hv, rfl⟩)))
  exact Multiset.disjoint_left.mp hn.2.2 (Multiset.mem_map.mpr ⟨i, hi, rfl⟩)
    (Multiset.mem_map.mpr ⟨ident v, hlist, heq⟩)

/-- An enumeration request that completes was the only URB: no packet of another
    one can be in the device's hands. -/
theorem calm_of_internal {i : Ident} {L : Ledger} (h : Ledger.Inv L)
    (hc : L.carried = i ::ₘ carried H) (hs : L.issuing = issuing H) (hi : i.internal = true)
    (hr : Runs L.lanes H) (hd : Calm H ∨ dev H) : Calm H := by
  rcases hd with hd | hd
  · exact hd
  obtain ⟨_, hiss, hrest⟩ := h.only hc hi
  rw [add_eq_zero] at hrest
  cases H with
  | nil => exact Calm.nil
  | cons t H =>
    cases t with
    | run b u => exact absurd hrest.1 Multiset.cons_ne_zero
    | reset =>
      rw [hs] at hiss
      exact absurd hiss (Nat.succ_ne_zero _)
    | runq u =>
      -- the packet's URB is still listed
      have hmem : u ∈ L.lanes.inflight :=
        (Lanes.mem_flying.mp (List.mem_of_mem_head? (Option.mem_def.mpr hr.2.1))).1
      have hl := hrest.2
      rw [Lanes.off_listed h.wf h.distinct hmem] at hl
      exact absurd hl Multiset.cons_ne_zero
    | _ => exact hd.elim

/-! ## Steps that leave the lists alone -/

theorem set_ep_lanes {e : Ep} (h : e.queue = (s.eps k).queue) : (s.set_ep k e).lanes = s.lanes := by
  unfold Server.set_ep Server.lanes
  simp only [Lanes.mk.injEq, true_and]
  funext j
  by_cases hj : j = k
  · subst hj
    simp [h]
  · simp [hj]

theorem clear_halt_lanes (s : Server) (k : Nat) : (usb_clear_halt s k).lanes = s.lanes :=
  set_ep_lanes rfl

theorem bounce_lanes (h : u.id ∉ (s.eps (usbip_urb_key u)).queue) :
    (bounce s u).lanes = s.lanes := by
  refine set_ep_lanes ?_
  rw [List.erase_append_right _ h]
  simp

/-- The parts of the state that the ledger reads, up to neutral events. -/
structure Kept (s s' : Server) (es : List Ev) : Prop where
  lanes : s'.lanes = s.lanes
  conn : s'.conn = s.conn
  next_id : s'.next_id = s.next_id
  nurbs : s'.nurbs = s.nurbs
  urb_bytes : s'.urb_bytes = s.urb_bytes
  log : s'.log = s.log ++ es
  neutral : ∀ e ∈ es, e.neutral = true

theorem Kept.refl (s : Server) : Kept s s [] := ⟨rfl, rfl, rfl, rfl, rfl, by simp, by simp⟩

theorem Kept.of_sent {s s' : Server} (h : Sent s s') : Kept s s' [] := by
  obtain ⟨_, _, _, _, rfl⟩ := h
  exact ⟨rfl, rfl, rfl, rfl, rfl, by simp, by simp⟩

/-- The parts of the state that the ledger reads, other than the lists. -/
structure Books (s s' : Server) : Prop where
  conn : s'.conn = s.conn
  next_id : s'.next_id = s.next_id
  nurbs : s'.nurbs = s.nurbs
  urb_bytes : s'.urb_bytes = s.urb_bytes
  log : s'.log = s.log

/-- The ledger after a move between a call and the lists. -/
theorem ledger_move {H' : List Tok} {s' : Server} (h : Books s s')
    (hi : issuing H' = issuing H) : ledger (H', s') =
      { ledger (H, s) with lanes := s'.lanes, carried := carried H' } := by
  simp only [ledger, h.conn, h.next_id, h.nurbs, h.urb_bytes, h.log, hi]

/-- What a step keeps: the ledger's steps, and the stack's invariants. -/
structure Next (c c' : Cfg) : Prop where
  ledger : Ledger.Step (ledger c) (ledger c')
  shape : Shape c'.1
  runs : Runs c'.2.lanes c'.1

theorem Inv.next (h : Inv c) (hn : Next c c') : Inv c' :=
  ⟨step_inv h.ledger hn.ledger, hn.shape, hn.runs⟩

theorem ledger_sent {s' : Server} (h : Sent s s') : ledger (H, s') = ledger (H, s) := by
  obtain ⟨_, _, _, _, rfl⟩ := h
  rfl

theorem ledger_quiet {H' : List Tok} {s' : Server} {es : List Ev} (hk : Kept s s' es)
    (hc : carried H' = carried H) (hi : issuing H' = issuing H) :
    Ledger.Step (ledger (H, s)) (ledger (H', s')) := by
  have heq : ledger (H', s') = { ledger (H, s) with log := s.log ++ es } := by
    simp only [ledger, hk.lanes, hk.conn, hk.next_id, hk.nurbs, hk.urb_bytes, hk.log, hc, hi]
  rw [heq]
  exact .quiet _ es hk.neutral

/-- A step that only moves between calls. -/
theorem next_quiet {H' : List Tok} {s' : Server} {es : List Ev} (hk : Kept s s' es)
    (hc : carried H' = carried H) (hi : issuing H' = issuing H) (hs : Shape H')
    (hr : Runs s.lanes H') : Next (H, s) (H', s') := by
  refine ⟨ledger_quiet hk hc hi, hs, ?_⟩
  show Runs s'.lanes H'
  rw [hk.lanes]
  exact hr

/-! ## Completions -/

theorem complete_next (h : Inv (H, s)) (r : Resp) (hdev : dev H) (hh : s.head k = some u)
    (ha : u.packet.state = .async) :
    Next (H, s) (.done (usb_packet_done s u r).2 :: .loop k :: H,
      (usb_packet_done s u r).1.take_off u.id) := by
  obtain ⟨hk, hu, hsplit⟩ := flying_of_head h.wf h.distinct hh
  have hep : u.packet.ep = usbip_urb_key u := (h.wf.flying_state u hu).2
  have hlanes := packet_done_lanes s u r hep
  have hsame := same_packet_done s u r
  have hledger : Ledger.Step (ledger (H, s))
      (ledger (.done (usb_packet_done s u r).2 :: .loop k :: H,
        (usb_packet_done s u r).1.take_off u.id)) := by
    have heq : ledger (.done (usb_packet_done s u r).2 :: .loop k :: H,
        (usb_packet_done s u r).1.take_off u.id) =
        { ledger (H, s) with lanes := s.lanes.off u, carried := ident u ::ₘ carried H } := by
      simp only [ledger, hlanes, carried, issuing, hsame.ident]
      rfl
    rw [heq]
    subst hk
    exact .lift _ u _ hsplit
  have hinv := step_inv h.ledger hledger
  -- packets the device is processing belong to other endpoints
  have hother : ∀ w, .runq w ∈ H → usbip_urb_key w ≠ k := by
    intro w hw hwk
    obtain ⟨hhead, hst⟩ := h.runs.of_runq hw
    rw [hwk, hsplit] at hhead
    rw [← Option.some.inj hhead] at hst
    exact hst ha
  have hruns : Runs (s.lanes.off u) H := by
    refine h.runs.frame (fun w hw => ?_) (fun j hj => ?_)
    · exact Lanes.off_flying_ne h.wf h.distinct hu (by rw [hk]; exact hother w hw)
    · rw [Lanes.off_flying h.wf h.distinct, hj, List.filter_nil]
  refine ⟨hledger, ⟨fun hi => ?_, .inr ⟨k, H, rfl⟩, .inr hdev, h.shape⟩, ?_⟩
  · refine Calm.cons ?_ trivial
    refine calm_of_internal hinv rfl rfl hi ?_ (.inr hdev)
    show Runs ((usb_packet_done s u r).1.take_off u.id).lanes H
    rw [hlanes]
    exact hruns
  · show Runs ((usb_packet_done s u r).1.take_off u.id).lanes _
    rw [hlanes]
    exact ⟨hother, hruns⟩

theorem runq_done_next (h : Inv (.runq u :: H, s)) (r : Resp) :
    Next (.runq u :: H, s) (.done (usb_packet_done s u r).2 :: H,
      (usb_packet_done s u r).1.take_off u.id) := by
  obtain ⟨⟨H', rfl⟩, hhead, hst, hruns'⟩ := h.runs
  have hh : s.head (usbip_urb_key u) = some u := by
    rw [head_eq h.wf h.distinct]
    exact hhead
  obtain ⟨_, hu, hsplit⟩ := flying_of_head h.wf h.distinct hh
  have hep : u.packet.ep = usbip_urb_key u := (h.wf.flying_state u hu).2
  have hlanes := packet_done_lanes s u r hep
  have hsame := same_packet_done s u r
  have hledger : Ledger.Step (ledger (.runq u :: .loop (usbip_urb_key u) :: H', s))
      (ledger (.done (usb_packet_done s u r).2 :: .loop (usbip_urb_key u) :: H',
        (usb_packet_done s u r).1.take_off u.id)) := by
    have heq : ledger (.done (usb_packet_done s u r).2 :: .loop (usbip_urb_key u) :: H',
        (usb_packet_done s u r).1.take_off u.id) =
        { ledger (.runq u :: .loop (usbip_urb_key u) :: H', s) with
          lanes := s.lanes.off u, carried := ident u ::ₘ carried H' } := by
      simp only [ledger, hlanes, carried, issuing, hsame.ident]
      rfl
    rw [heq]
    exact .lift _ u _ hsplit
  have hinv := step_inv h.ledger hledger
  have hruns : Runs (s.lanes.off u) (.loop (usbip_urb_key u) :: H') := by
    refine hruns'.frame (fun w hw => ?_) (fun j hj => ?_)
    · rcases List.mem_cons.mp hw with hw | hw
      · cases hw
      · exact Lanes.off_flying_ne h.wf h.distinct hu (hruns'.1 w hw)
    · rw [Lanes.off_flying h.wf h.distinct, hj, List.filter_nil]
  obtain ⟨hloop, hcd, hshape⟩ := h.shape
  refine ⟨hledger, ⟨fun hi => ?_, .inr hloop, hcd, hshape⟩, ?_⟩
  · refine Calm.cons ?_ trivial
    refine calm_of_internal hinv rfl rfl hi ?_ hcd
    show Runs ((usb_packet_done s u r).1.take_off u.id).lanes H'
    rw [hlanes]
    exact hruns.2
  · show Runs ((usb_packet_done s u r).1.take_off u.id).lanes _
    rw [hlanes]
    exact hruns

theorem flush_next (h : Inv (.loop k :: H, s)) :
    Next (.loop k :: H, s) (H, usb_ep_flush hold_env (s.note_halt k) k) := by
  obtain ⟨hback, _⟩ := ep_flush_lanes (s.note_halt k) k h.wf h.distinct
  obtain ⟨i, w, e, b, hm⟩ := usb_ep_flush_shifted hold_env (s.note_halt k) k
  have heq : ledger (H, usb_ep_flush hold_env (s.note_halt k) k) =
      { ledger (.loop k :: H, s) with
        lanes := (usb_ep_flush hold_env (s.note_halt k) k).lanes
        log := s.log ++ [.halt k (decide (s.waiting k ≠ []))] } := by
    rw [hm]
    rfl
  refine ⟨?_, h.shape.2, ?_⟩
  · rw [heq]
    exact .hold _ _ _ hback.wf hback.listed (by simp [Ev.neutral])
  · refine h.runs.2.frame (fun v hv => hback.flying_ne _ (h.runs.1 v hv)) (fun j hj => ?_)
    by_cases hjk : j = k
    · rw [hjk]
      exact hback.flying
    · rw [hback.flying_ne j hjk]
      exact hj

theorem hold_next (h : Inv (.runq u :: .loop k :: H, s)) :
    Next (.runq u :: .loop k :: H, s) (H, usb_packet_hold s u) := by
  obtain ⟨⟨H', hH'⟩, hhead, hst, hother, hruns⟩ := h.runs
  have hk : k = usbip_urb_key u := Tok.loop.inj (List.cons.inj hH').1
  subst hk
  have hh : s.head (usbip_urb_key u) = some u := by
    rw [head_eq h.wf h.distinct]
    exact hhead
  obtain ⟨_, hu, hsplit⟩ := flying_of_head h.wf h.distinct hh
  obtain ⟨hwf, hlist⟩ := hold_lanes s u h.wf h.distinct hsplit
  refine ⟨?_, h.shape.2.2, ?_⟩
  · have heq : ledger (H, usb_packet_hold s u) =
        { ledger (.runq u :: .loop (usbip_urb_key u) :: H, s) with
          lanes := (usb_packet_hold s u).lanes, log := s.log ++ [] } := by
      rw [List.append_nil]
      rfl
    rw [heq]
    exact .hold _ _ _ hwf hlist (by simp)
  · refine hruns.frame (fun w hw => ?_) (fun j hj => ?_)
    · exact hold_flying_ne s u h.wf h.distinct hu (hother w hw)
    · show (usb_packet_hold s u).lanes.flying j = []
      rw [hold_flying, hj, List.map_nil]

/-! ## Handing over -/

theorem inflight_lanes (s : Server) (v : USBIPURB) (hep : v.packet.ep = usbip_urb_key v) :
    (usbip_urb_inflight (s.set_ep v.packet.ep
      { s.eps v.packet.ep with queue := (s.eps v.packet.ep).queue ++ [v.id] }) v).lanes =
      s.lanes.on { v with state := .inflight } := by
  unfold usbip_urb_inflight Server.set_ep Server.lanes Lanes.on
  simp only [hep, Lanes.mk.injEq, true_and]
  funext j
  by_cases hj : j = usbip_urb_key v
  · subst hj
    simp [usbip_urb_key]
  · have hj' : j ≠ usbip_urb_key { v with state := .inflight } := hj
    simp [hj, hj']

/-- What `usbip_urb_inflight` leaves: the URB `u` is inflight as `v`. -/
structure Flown (st : PacketState) (u v : USBIPURB) (s s' : Server) : Prop where
  rest : ∃ i e, s' = { s with inflight := i, eps := e }
  lanes : s'.lanes = s.lanes.on v
  ident : ident v = ident u
  state : v.state = .inflight
  packet_ep : v.packet.ep = usbip_urb_key v
  packet_state : v.packet.state = st

theorem Flown.books {st : PacketState} {s' : Server} (h : Flown st u v s s') : Books s s' := by
  obtain ⟨_, _, hs'⟩ := h.rest
  rw [hs']
  exact ⟨rfl, rfl, rfl, rfl, rfl⟩

theorem enqueue_flown (s : Server) (u : USBIPURB) :
    let q := usb_queue_one (usb_clear_halt s (usbip_urb_key u)) (usbip_urb_packet u)
    ∃ v, Flown .queued u v s (usbip_urb_inflight q.1 q.2) := by
  intro q
  have hsame := same_urb_packet u
  have hep : q.2.packet.ep = usbip_urb_key q.2 := (urb_packet_ep u).trans hsame.key.symm
  have hlanes := inflight_lanes (usb_clear_halt s (usbip_urb_key u)) q.2 hep
  rw [clear_halt_lanes] at hlanes
  exact ⟨{ q.2 with state := .inflight }, ⟨_, _, rfl⟩, hlanes, hsame.ident, rfl, hep, rfl⟩

theorem run_async_flown (s : Server) (u : USBIPURB) (r : Resp) (hr : r.status = .async)
    (hep : u.packet.ep = usbip_urb_key u) :
    let q := usb_packet_started s u r
    ∃ v, Flown .async u v s (usbip_urb_inflight q.1 q.2) := by
  intro q
  have hsame : Same u ((u.answer r).set_packet_state .async) :=
    (same_answer u r).trans (same_set_packet_state _ _)
  have hpep : ((u.answer r).set_packet_state .async).packet.ep =
      usbip_urb_key ((u.answer r).set_packet_state .async) := by
    rw [hsame.key, ← hep]
    unfold USBIPURB.answer USBIPURB.set_packet_state
    dsimp only
    split <;> rfl
  have hq : q = (s.set_ep u.packet.ep
      { s.eps u.packet.ep with queue := (s.eps u.packet.ep).queue ++ [(u.answer r).id] },
      (u.answer r).set_packet_state .async) := by
    simp [q, usb_packet_started, hr]
  have hlanes := inflight_lanes s ((u.answer r).set_packet_state .async) hpep
  rw [hpep, hsame.key, ← hep] at hlanes
  rw [hq]
  exact ⟨{ (u.answer r).set_packet_state .async with state := .inflight }, ⟨_, _, rfl⟩, hlanes,
    hsame.ident, rfl, hpep, rfl⟩

/-- The URB joins the inflight list. -/
theorem fly_next {t : Tok} {s' : Server} {st : PacketState}
    (hcar : carried (t :: H) = ident u ::ₘ carried H) (hiss : issuing (t :: H) = issuing H)
    (hcalm : Calm H) (hf : Flown st u v s s')
    (hq : s.lanes.flying (usbip_urb_key u) ≠ [] → st = .queued) : Next (t :: H, s) (H, s') := by
  refine ⟨?_, hcalm.shape, hcalm.runs _⟩
  rw [ledger_move hf.books hiss.symm, hf.lanes]
  refine .fly _ v _ (by rw [hf.ident]; exact hcar) hf.state hf.packet_ep fun hne => ?_
  rw [hf.packet_state]
  rw [ident_key hf.ident] at hne
  exact hq hne

theorem enqueue_next {b : Bool} (h : Inv (.hand b u :: H, s)) :
    let q := usb_queue_one (usb_clear_halt s (usbip_urb_key u)) (usbip_urb_packet u)
    Next (.hand b u :: H, s) (H, usbip_urb_inflight q.1 q.2) := by
  obtain ⟨v, hf⟩ := enqueue_flown s u
  exact fly_next rfl rfl h.shape.1 hf fun _ => rfl

theorem run_async_next {b : Bool} (h : Inv (.run b u :: H, s)) (r : Resp)
    (hr : r.status = .async) :
    let q := usb_packet_started s u r
    Next (.run b u :: H, s) (H, usbip_urb_inflight q.1 q.2) := by
  obtain ⟨hnil, hep, _⟩ := h.runs
  obtain ⟨v, hf⟩ := run_async_flown s u r hr hep
  exact fly_next rfl rfl h.shape.1 hf fun hne => absurd hnil hne

/-- The URB goes to a waiting list. -/
theorem wait_next {t : Tok} {H' : List Tok} {s' : Server} {us : List USBIPURB}
    (hcar : carried (t :: H) = ident u ::ₘ carried H') (hiss : issuing H' = issuing (t :: H))
    (hcalm : Calm H') (hb : Books s s')
    (hlanes : s'.lanes = s.lanes.set_waiting (usbip_urb_key v) us) (hv : ident v = ident u)
    (hst : v.state = .waiting) (hp : us.Perm (v :: s.waiting (usbip_urb_key v))) :
    Next (t :: H, s) (H', s') := by
  refine ⟨?_, hcalm.shape, hcalm.runs _⟩
  rw [ledger_move hb hiss, hlanes]
  exact .wait _ v _ us (by rw [hv]; exact hcar) hst hp

theorem urb_wait_next {t : Tok} (hcar : carried (t :: H) = ident u ::ₘ carried H)
    (hiss : issuing (t :: H) = issuing H) (hcalm : Calm H) :
    Next (t :: H, s) (H, usbip_urb_wait s u) := by
  obtain ⟨t', ht'⟩ := usbip_urb_wait_eq s u
  rw [ht']
  exact wait_next (v := { u with state := .waiting }) hcar hiss.symm hcalm
    ⟨rfl, rfl, rfl, rfl, rfl⟩ rfl rfl rfl (List.perm_append_singleton _ _)

theorem held_head_next (h : Inv (.held false u :: .retry k :: H, s)) :
    Next (.held false u :: .retry k :: H, s)
      (.retry (k + 1) :: H, s.set_waiting k (u :: s.waiting k)) := by
  obtain ⟨hcalm, htry⟩ := h.shape
  obtain ⟨hst, H', hH'⟩ := htry rfl
  have hk : k = usbip_urb_key u := Tok.retry.inj (List.cons.inj hH').1
  subst hk
  exact wait_next (v := u) rfl rfl (hcalm.tail.cons trivial) ⟨rfl, rfl, rfl, rfl, rfl⟩ rfl rfl hst
    (List.Perm.refl _)

theorem take_next {us : List USBIPURB} (h : Inv (.retry k :: H, s)) (hw : s.waiting k = u :: us) :
    Next (.retry k :: H, s) (.hand false u :: .retry k :: H, s.set_waiting k us) := by
  have hcalm : Calm H := h.shape
  obtain ⟨hk, hst⟩ := h.wf.waiting_state k u (by rw [show s.lanes.waiting k = _ from hw]; simp)
  subst hk
  refine ⟨?_, ⟨hcalm.cons trivial, fun _ => ⟨hst, H, rfl⟩⟩, ?_⟩
  · have heq : ledger (.hand false u :: .retry (usbip_urb_key u) :: H,
        s.set_waiting (usbip_urb_key u) us) =
        { ledger (.retry (usbip_urb_key u) :: H, s) with
          lanes := s.lanes.set_waiting (usbip_urb_key u) us, carried := ident u ::ₘ carried H } :=
      ledger_move ⟨rfl, rfl, rfl, rfl, rfl⟩ rfl
    rw [heq]
    exact .take _ u us hw
  · exact (hcalm.cons (t := .retry (usbip_urb_key u)) trivial).runs _

/-! ## Replies -/

/-- The ledger after an URB of the client is freed. -/
theorem ledger_free {H' : List Tok} {s' : Server} {L : Ledger} (hu : u.internal = false)
    (hl : L.lanes = s'.lanes) (hcar : L.carried = carried H') (hc : L.conn = s'.conn)
    (hi : L.issuing = issuing H') (hid : L.next_id = s'.next_id) (hn : L.nurbs = s'.nurbs)
    (hb : L.urb_bytes = s'.urb_bytes) (hlog : L.log = s'.log) :
    ledger (H', usbip_urb_free s' u) = L.free (ident u) := by
  cases L
  simp only at hl hcar hc hi hid hn hb hlog
  subst hl hcar hc hi hid hn hb hlog
  simp only [ledger, Ledger.free, usbip_urb_free, hu, Bool.false_eq_true, if_false, ident,
    Server.lanes]

theorem answer_next (h : Inv (.done u :: H, s)) (hu : u.internal = false) :
    Next (.done u :: H, s) (H, usbip_urb_free (usbip_send_ret_submit s u) u) := by
  have hkept := Kept.of_sent (usbip_send_ret_submit_sent s u)
  have hlanes : (usbip_urb_free (usbip_send_ret_submit s u) u).lanes = s.lanes := by
    rw [urb_free_lanes, hkept.lanes]
    rfl
  refine ⟨?_, h.shape.2.2, ?_⟩
  · have hlog := hkept.log
    rw [List.append_nil] at hlog
    rw [ledger_free (L := { ledger (.done u :: H, s) with
        carried := carried H, log := s.log ++ [.ret_submit (ident u).id (ident u).seqnum] }) hu
      hkept.lanes.symm rfl hkept.conn.symm rfl hkept.next_id.symm hkept.nurbs.symm
      hkept.urb_bytes.symm hlog.symm]
    exact .answer _ (ident u) _ rfl hu
  · show Runs (usbip_urb_free (usbip_send_ret_submit s u) u).lanes H
    rw [hlanes]
    exact h.runs

/-- The pending client URBs are on the lists while a message is handled. -/
theorem clients_listed {d : List UInt8} (h : Inv (.msg d :: H, s)) :
    (ledger (.msg d :: H, s)).pending = s.lanes.listed := by
  have hcalm : Calm H := h.shape
  show carried H + s.lanes.listed = _
  rw [hcalm.carried, zero_add]

theorem mem_listed_iff (hwf : s.lanes.Wf) (i : Ident) :
    i ∈ s.lanes.listed ↔ ∃ v, v ∈ s.inflight ++ s.all_waiting ∧ ident v = i := by
  rw [Lanes.listed_eq hwf, Multiset.mem_add, mem_bag]
  simp only [Multiset.mem_coe, List.mem_map, List.mem_append, Server.all_waiting,
    List.mem_flatMap, List.mem_range]
  constructor
  · rintro (⟨v, hv, hi⟩ | ⟨k, hk, v, hv, hi⟩)
    · exact ⟨v, .inl hv, hi⟩
    · exact ⟨v, .inr ⟨k, hk, hv⟩, hi⟩
  · rintro ⟨v, hv | ⟨k, hk, hv⟩, hi⟩
    · exact .inl ⟨v, hv, hi⟩
    · exact .inr ⟨k, hk, v, hv, hi⟩

/-- `usbip_find_urb` finds a listed URB of the client with this seqnum. -/
theorem find_urb_some (hwf : s.lanes.Wf) {n : Nat} (hf : usbip_find_urb s n = some u) :
    s.lanes.Has u ∧ u.internal = false ∧ u.seqnum = n := by
  have hmem := List.mem_of_find?_eq_some hf
  have hp := List.find?_some hf
  simp only [Bool.and_eq_true, Bool.not_eq_true', beq_iff_eq] at hp
  refine ⟨?_, hp.1, hp.2⟩
  rcases List.mem_append.mp hmem with hmem | hmem
  · exact .inl hmem
  · obtain ⟨k, _, hk⟩ := List.mem_flatMap.mp hmem
    refine .inr ?_
    rw [(hwf.waiting_state k u hk).1]
    exact hk

theorem find_urb_none (hwf : s.lanes.Wf) {n : Nat} (hf : usbip_find_urb s n = none) :
    ∀ i ∈ clients s.lanes.listed, i.seqnum ≠ n := by
  intro i hi hin
  obtain ⟨hi, hcl⟩ := Multiset.mem_filter.mp hi
  obtain ⟨v, hv, rfl⟩ := (mem_listed_iff hwf i).mp hi
  have := List.find?_eq_none.mp hf v hv
  have hvn : v.seqnum = n := hin
  have hvi : v.internal = false := hcl
  simp [hvn, hvi] at this

theorem free_note (s : Server) (u : USBIPURB) (e : Ev) :
    (usbip_urb_free s u).note e = usbip_urb_free (s.note e) u := by
  unfold usbip_urb_free
  split
  · rfl
  · simp only [Server.note]

theorem unlink_next {d : List UInt8} (h : Inv (.msg d :: H, s)) (hc : s.conn = .attached)
    (seqnum victim : Nat) :
    Next (.msg d :: H, s) (H, usbip_handle_unlink s seqnum victim) := by
  have hcalm : Calm H := h.shape
  refine ⟨?_, hcalm.shape, hcalm.runs _⟩
  unfold usbip_handle_unlink
  cases hf : usbip_find_urb s victim with
  | none =>
    simp only
    rw [ledger_sent (usbip_send_sent _ _)]
    refine .unlink_none _ seqnum victim ?_ ?_
    · show s.conn ≠ .none
      rw [hc]
      decide
    · rw [clients_listed h]
      exact find_urb_none h.wf hf
  | some u =>
    obtain ⟨hhas, hint, rfl⟩ := find_urb_some h.wf hf
    have hun := urb_unlink_lanes s u h.wf h.distinct hhas
    obtain ⟨_, _, _, _, hsh⟩ := usbip_urb_unlink_shifted s u
    have heq : ledger (H, usbip_urb_free ((usbip_urb_unlink s u).note
        (.ret_unlink seqnum u.seqnum (-usbip_econnreset) (some u.id))) u) =
        { ledger (.msg d :: H, s) with
          lanes := (usbip_urb_unlink s u).lanes
          log := s.log ++ [Ev.ret_unlink seqnum u.seqnum (-usbip_econnreset) (some u.id)] }.free
            (ident u) := by
      refine ledger_free hint rfl rfl ?_ rfl ?_ ?_ ?_ ?_ <;> rw [hsh] <;> rfl
    simp only
    rw [ledger_sent (usbip_send_sent _ _), free_note, heq]
    exact .unlink _ u _ seqnum hun hint

/-! ## New URBs -/

theorem issue_next (h : Inv (.issue :: H, s)) :
    Next (.issue :: H, s) (.fresh (usbip_enum_urb s).2 :: H, (usbip_enum_urb s).1) := by
  have hcalm : Calm H := h.shape
  refine ⟨?_, hcalm, hcalm.runs _⟩
  refine .issue (ledger (.issue :: H, s)) (ident (usbip_enum_urb s).2) (issuing H)
    rfl rfl rfl ?_ rfl
  show usbip_urb_key (usbip_enum_urb s).2 < usbip_num_keys
  simp [usbip_urb_key, usbip_enum_urb, usbip_num_keys]

theorem urb_key_lt (h : u.epnum ≤ 15) : usbip_urb_key u < usbip_num_keys := by
  unfold usbip_urb_key usbip_num_keys
  split
  · decide
  · split <;> omega

/-- The URB of an accepted CMD_SUBMIT. -/
theorem submit_ident (s : Server) (d : List UInt8) (np : Nat) (iso : List USBIPIsoDesc)
    (hep : be32At d 0x10 ≤ 15) :
    let i := ident { (submit_urb s d).2 with number_of_packets := np, iso := iso }
    i.internal = false ∧ i.id = s.next_id ∧ i.key < usbip_num_keys ∧ i.len = be32At d 0x18 := by
  refine ⟨rfl, rfl, urb_key_lt ?_, rfl⟩
  show be32At d 0x10 % 256 ≤ 15
  omega

theorem accept_next {d : List UInt8} (h : Inv (.msg d :: H, s)) (hc : s.conn = .attached)
    (hep : be32At d 0x10 ≤ 15) (hacc : (submit_accept s d).2 = some u) :
    Next (.msg d :: H, s) (.fresh u :: H, (submit_accept s d).1) := by
  have hcalm : Calm H := h.shape
  refine ⟨?_, hcalm, hcalm.runs _⟩
  rcases submit_accept_cases s d with ⟨t, _, heq⟩ | ⟨np, iso, heq, hlim⟩
  · rw [heq] at hacc
    cases hacc
  · rw [heq] at hacc ⊢
    obtain rfl := Option.some.inj hacc
    obtain ⟨hint, hid, hk, hlen⟩ := submit_ident s d np iso hep
    simp only [submit_over_limit, over_limit, Bool.or_eq_false_iff, decide_eq_false_iff_not] at hlim
    refine .accept (ledger (.msg d :: H, s))
      (ident { (submit_urb s d).2 with number_of_packets := np, iso := iso }) hint hid hk hc ?_ ?_
    · exact Nat.not_le.mp hlim.1
    · rw [hlen]
      exact Nat.not_lt.mp hlim.2

/-! ## Enumeration -/

theorem enum_next_next (h : Inv (.done u :: H, s)) (hu : u.internal = true) (n : Nat) :
    Next (.done u :: H, s) (.issue :: H, { (usbip_enum_result s u).1 with enum_step := n }) := by
  have hcalm := h.shape.1 hu
  obtain ⟨_, _, _, hres⟩ := usbip_enum_result_eq s u
  refine ⟨?_, hcalm, hcalm.runs _⟩
  rw [hres]
  exact .enum_next (ledger (.done u :: H, s)) (ident u) _ rfl hu

theorem enum_reply_next (h : Inv (.done u :: H, s)) (hu : u.internal = true) (ok en : Bool)
    (n : Nat) :
    Next (.done u :: H, s) (.fin :: H, usbip_enum_reply
      { (usbip_enum_result s u).1 with enum_step := n, enumerated := en } ok) := by
  have hcalm := h.shape.1 hu
  obtain ⟨dd, cl, cd, hres⟩ := usbip_enum_result_eq s u
  rw [hres]
  obtain ⟨t, ⟨_, _, _, _, rfl⟩, ht⟩ := usbip_enum_reply_eq { s with
    dev_desc := dd, cfg_len := cl, cfg_desc := cd, enum_step := n, enumerated := en } ok
  refine ⟨?_, hcalm, hcalm.runs _⟩
  rw [ht]
  split
  · exact .enum_end (ledger (.done u :: H, s)) (ident u) _ .attached (.enum_finish s.enum_op ok) rfl
      hu (.inr rfl) rfl
  · exact .enum_end (ledger (.done u :: H, s)) (ident u) _ .op (.enum_finish s.enum_op ok) rfl
      hu (.inl rfl) rfl

/-! ## The end of a connection -/

theorem Inv.counted (h : Inv c) (hc : carried c.1 = 0) : Counted c.2 := by
  have hacc := h.ledger.accounted
  have hp : (Usbip.ledger c).pending = c.2.lanes.listed := by
    show Usbip.carried c.1 + c.2.lanes.listed = _
    rw [hc, zero_add]
  rw [hp] at hacc
  exact ⟨hacc, h.ledger.nurbs_le, h.ledger.urb_bytes_le⟩

theorem shut_of_emptied {H' : List Tok} {s' : Server} (hc : carried H = 0) (hc' : carried H' = 0)
    (hi' : issuing H' = 0) (he : Emptied s s') (hid : s.next_id ≤ s'.next_id) :
    Shut (ledger (H, s)) (ledger (H', s')) where
  carried := hc
  carried' := hc'
  listed := he.listed
  wf := he.wf
  issuing := hi'
  next_id := hid
  counters ha hn hb := he.counters ⟨ha, hn, hb⟩

/-- A connection that ends, with what it logs. -/
theorem close_ledger {H' : List Tok} {s' : Server} {es : List Ev}
    (hs : Shut (ledger (H, s)) (ledger (H', s'))) (hc : s'.conn = .none)
    (hlog : s'.log = s.log ++ es) (hes : ∀ e ∈ es, e.neutral = true) :
    Ledger.Step (ledger (H, s)) (ledger (H', s')) :=
  .close _ _ es hs hc hlog hes

/-- `usbip_drop_client` ends the connection. -/
theorem drop_next {t : Tok} {H' : List Tok} (h : Inv (t :: H, s))
    (hcar : carried (t :: H) = 0) (hcalm : Calm H') (s₀ : Server) (hl : s₀.lanes = s.lanes)
    (hid : s.next_id ≤ s₀.next_id) (hlog : s₀.log = s.log) (hcount : Counted s → Counted s₀) :
    Next (t :: H, s) (H', usbip_drop_client s₀) := by
  have hwf : s₀.lanes.Wf := by rw [hl]; exact h.wf
  have hd : s₀.lanes.Distinct := by rw [hl]; exact h.distinct
  have he := drop_client_emptied s₀ hwf hd
  have hclosed := usbip_drop_client_closed s₀
  have hlg := drop_client_log s₀
  rw [hlog] at hlg
  generalize usbip_drop_client s₀ = s' at *
  obtain ⟨_, _, _, _, _, _, _, hs'⟩ := hclosed
  have he' : Emptied s s' :=
    ⟨he.wf, he.inflight, he.waiting, fun hc => he.counters (hcount hc)⟩
  have hshut := shut_of_emptied (H := t :: H) hcar hcalm.carried hcalm.issuing he'
    (by rw [hs']; exact hid)
  have hconn : s'.conn = .none := by rw [hs']
  refine ⟨?_, hcalm.shape, hcalm.runs _⟩
  rcases hlg with hlg | hlg
  · exact close_ledger hshut hconn hlg (by simp [Ev.neutral])
  · exact close_ledger hshut hconn hlg (by simp [Ev.neutral])

/-- An URB that was counted and is freed again leaves the counters. -/
theorem submit_free_counted (hc : Counted s) (d : List UInt8) :
    Counted (usbip_urb_free (submit_urb s d).1 (submit_urb s d).2) := by
  generalize ht : usbip_urb_free (submit_urb s d).1 (submit_urb s d).2 = t
  have hlen := be32At_lt d 0x18
  have hl : t.lanes = s.lanes := by
    rw [← ht, urb_free_lanes]
    rfl
  have hn : t.nurbs = ((s.nurbs + 1) % 2 ^ 32 + (2 ^ 32 - 1)) % 2 ^ 32 := by
    rw [← ht]
    simp [usbip_urb_free, submit_urb, usbip_urb_new]
  have hb : t.urb_bytes =
      ((s.urb_bytes + be32At d 0x18) % 2 ^ 64 + (2 ^ 64 - be32At d 0x18)) % 2 ^ 64 := by
    rw [← ht]
    simp [usbip_urb_free, submit_urb, usbip_urb_new]
  have hnl := hc.nurbs_le
  have hbl := hc.urb_bytes_le
  unfold usbip_max_urbs at hnl
  unfold usbip_max_urb_bytes at hbl
  have hn' : t.nurbs = s.nurbs := by omega
  have hb' : t.urb_bytes = s.urb_bytes := by omega
  refine ⟨?_, ?_, ?_⟩
  · rw [hn', hb', hl]
    exact hc.accounted
  · rw [hn']
    exact hc.nurbs_le
  · rw [hb']
    exact hc.urb_bytes_le

/-- A message that is rejected: an URB may have been counted and freed again, and the
    client is dropped. -/
theorem submit_reject {d : List UInt8} (hrej : (submit_accept s d).2 = none) :
    ∃ id n b, (submit_accept s d).1 =
        usbip_drop_client { s with next_id := id, nurbs := n, urb_bytes := b } ∧
      s.next_id ≤ id ∧
      (Counted s → Counted { s with next_id := id, nurbs := n, urb_bytes := b }) := by
  rcases submit_accept_cases s d with ⟨t, rfl | ht, heq⟩ | ⟨np, iso, heq, _⟩
  · exact ⟨t.next_id, t.nurbs, t.urb_bytes, by rw [heq], Nat.le_refl _, fun hc => hc⟩
  · obtain ⟨n, b, hfree⟩ := urb_free_counters (submit_urb s d).1 (submit_urb s d).2
    have hfreed : t = { s with next_id := s.next_id + 1, nurbs := n, urb_bytes := b } := by
      rw [ht, hfree]
      rfl
    refine ⟨s.next_id + 1, n, b, ?_, Nat.le_succ _, fun hc => ?_⟩
    · rw [heq, hfreed]
    · rw [← hfreed, ht]
      exact submit_free_counted hc d
  · rw [heq] at hrej
    cases hrej

theorem reject_next {d : List UInt8} (h : Inv (.msg d :: H, s))
    (hrej : (submit_accept s d).2 = none) : Next (.msg d :: H, s) (H, (submit_accept s d).1) := by
  have hcalm : Calm H := h.shape
  obtain ⟨id, n, b, hdrop, hid, hcount⟩ := submit_reject hrej
  rw [hdrop]
  exact drop_next h hcalm.carried hcalm _ rfl hid rfl hcount

/-! ## Every step -/

/-- A call that tries an URB goes on to its next part. -/
theorem trying_next {t t' : Tok} {s' : Server} {es : List Ev} (h : Inv (t :: H, s))
    (hk : Kept s s' es) (hcar : carried (t' :: H) = carried (t :: H))
    (hiss : issuing (t' :: H) = issuing (t :: H)) (hs : Shape (t' :: H))
    (hr : Runs s.lanes H → Runs s.lanes (t' :: H)) : Next (t :: H, s) (t' :: H, s') :=
  next_quiet hk hcar hiss hs (hr h.runs.tail)

theorem queue_nil_iff (hwf : s.lanes.Wf) : (s.eps k).queue = [] ↔ s.lanes.flying k = [] := by
  have hq : (s.eps k).queue = (s.lanes.flying k).map (·.id) := hwf.queue_eq k
  rw [hq, List.map_eq_nil_iff]

theorem Inv.carried_not_queued (h : Inv c) {i : Ident} (hi : i ∈ carried c.1) (k : Nat) :
    i.id ∉ (c.2.eps k).queue := by
  have hq : (c.2.eps k).queue = (c.2.lanes.flying k).map (·.id) := h.wf.queue_eq k
  rw [hq]
  intro hm
  obtain ⟨v, hv, hvi⟩ := List.mem_map.mp hm
  exact h.carried_not_listed hi (Lanes.mem_flying.mp hv).1 hvi

theorem bounce_kept (h : Inv c) {i : Ident} (hi : i ∈ carried c.1) (hu : u.id = i.id) {s' : Server}
    {es : List Ev} (hk : Kept c.2 s' es) (hq : ∀ k, (s'.eps k).queue = (c.2.eps k).queue) :
    Kept c.2 (bounce s' u) es := by
  have hn : u.id ∉ (s'.eps (usbip_urb_key u)).queue := by
    rw [hq, hu]
    exact h.carried_not_queued hi _
  exact ⟨(bounce_lanes hn).trans hk.lanes, hk.conn, hk.next_id, hk.nurbs, hk.urb_bytes, hk.log,
    hk.neutral⟩

theorem clear_halt_queue (s : Server) (k j : Nat) :
    ((usb_clear_halt s k).eps j).queue = (s.eps j).queue := by
  by_cases hj : j = k
  · subst hj
    simp [usb_clear_halt]
  · rw [usb_clear_halt, set_ep_eps_ne _ _ hj]

theorem iso_queued_kept (h : Inv (.hand b u :: H, s)) (due : Nat → Int) :
    Kept s (bounce (usb_clear_halt { s with iso_next_due := due } (usbip_urb_key u)) u) [] := by
  refine bounce_kept h (i := ident u) (Multiset.mem_cons_self _ _) rfl ?_ ?_
  · exact ⟨clear_halt_lanes _ _, rfl, rfl, rfl, rfl, (List.append_nil _).symm, by simp⟩
  · intro k
    rw [clear_halt_queue]

/-- A packet is started on an empty queue. -/
theorem start_kept (s : Server) (due : Nat → Int) (k i : Nat) :
    Kept s ((usb_clear_halt { s with iso_next_due := due } k).note (.start i)) [.start i] :=
  ⟨(set_ep_lanes rfl : (usb_clear_halt { s with iso_next_due := due } k).lanes = _), rfl, rfl, rfl,
    rfl, rfl, by simp [Ev.neutral]⟩

/-- **Every step of the stack machine is a step of the ledger and keeps the
    stack's invariants.** -/
theorem step_next (h : Inv c) (hstep : Step c c') : Next c c' := by
  cases hstep with
  | act s script hd =>
    exact next_quiet ⟨rfl, rfl, rfl, rfl, rfl, (List.append_nil _).symm, by simp⟩ rfl rfl
      h.shape h.runs
  | wakeup s hd =>
    exact next_quiet ⟨rfl, rfl, rfl, rfl, rfl, (List.append_nil _).symm, by simp⟩ rfl rfl
      h.shape h.runs
  | set_type s k isoc hd =>
    exact next_quiet ⟨set_ep_lanes rfl, rfl, rfl, rfl, rfl, (List.append_nil _).symm, by simp⟩
      rfl rfl h.shape h.runs
  | complete s k u r hd hh ha _ => exact complete_next h r hd hh ha
  | loop_none s k _ => exact next_quiet (Kept.refl s) rfl rfl h.shape.2 h.runs.2
  | loop_async s k u _ _ => exact next_quiet (Kept.refl s) rfl rfl h.shape.2 h.runs.2
  | loop_flush s k _ => exact flush_next h
  | loop_start s k u hh _ ha =>
    obtain ⟨hk, hu, hsplit⟩ := flying_of_head h.wf h.distinct hh
    have hhead := hh
    rw [head_eq h.wf h.distinct, ← hk] at hhead
    exact next_quiet ⟨rfl, rfl, rfl, rfl, rfl, rfl, by simp [Ev.neutral]⟩ rfl rfl
      ⟨⟨k, _, rfl⟩, h.shape⟩ ⟨⟨_, by rw [hk]⟩, hhead, ha, h.runs⟩
  | runq_hold s k u => exact hold_next h
  -- The device answers a packet of the queue at once: off the endpoint, then done.
  | runq_done s u r _ => exact runq_done_next h r
  | answer s u hu => exact answer_next h hu
  -- Unreachable: a URB of the server's own is a control transfer, without ISO packets.
  | lost s u hu hn =>
    exact absurd (h.ledger.internal_np (ident u) (Multiset.mem_add.mpr
      (.inl (Multiset.mem_cons_self _ _))) hu) hn
  | enum_next s u hu _ _ => exact enum_next_next h hu _
  | enum_end s u hu _ _ => exact enum_reply_next h hu true true 4
  | enum_fail s u hu _ =>
    obtain ⟨_, _, _, hres⟩ := usbip_enum_result_eq s u
    have := enum_reply_next h hu false s.enumerated s.enum_step
    rw [hres] at this ⊢
    exact this
  | issue s => exact issue_next h
  | behind s u _ => exact urb_wait_next rfl rfl h.shape
  | try_fresh s u _ =>
    exact trying_next h (Kept.refl s) rfl rfl ⟨h.shape, fun hb => absurd hb (by decide)⟩ id
  | iso_stall s b u _ =>
    exact trying_next h (Kept.refl s) rfl rfl
      ⟨fun _ => h.shape.1, .inl h.shape.1, h.shape.1.shape⟩ id
  | iso_skip s b u v _ hv =>
    refine trying_next h (Kept.refl s) ?_ rfl (h.shape.same hv) id
    simp only [carried, hv.ident]
  | iso_queued s b u v due _ hv _ =>
    refine trying_next h (iso_queued_kept h due) ?_ rfl (h.shape.same hv) id
    simp only [carried, hv.ident]
  | iso_start s b u v due _ hv hep hq =>
    refine trying_next h (start_kept s due _ u.id) ?_ rfl (h.shape.same hv) fun hr => ⟨?_, hep, hr⟩
    · simp only [carried, hv.ident]
    · rw [hv.key]
      exact (queue_nil_iff h.wf).mp hq
  | iso_back s b u v _ hv =>
    refine trying_next h (Kept.refl s) ?_ rfl (h.shape.same hv) id
    simp only [carried, hv.ident]
  -- The URB in hand is listed nowhere, so the bounce takes nothing off its endpoint.
  | iso_bounce s b u v _ hv =>
    refine trying_next h (bounce_kept h (i := ident u) (Multiset.mem_cons_self _ _) rfl
      (Kept.refl s) fun _ => rfl) ?_ rfl (h.shape.same hv) id
    simp only [carried, hv.ident]
  | iso_more s b u t _ =>
    exact trying_next h ⟨rfl, rfl, rfl, rfl, rfl, (List.append_nil _).symm, by simp⟩ rfl rfl
      h.shape id
  | iso_end s b u =>
    exact trying_next h (Kept.refl s) rfl rfl
      ⟨fun _ => h.shape.1, .inl h.shape.1, h.shape.1.shape⟩ id
  | enqueue s b u _ _ => exact enqueue_next h
  | start s b u _ hq =>
    have hsame := same_urb_packet u
    refine trying_next h (start_kept s s.iso_next_due _ u.id) ?_ rfl (h.shape.same hsame)
      fun hr => ⟨?_, ?_, hr⟩
    · simp only [carried, hsame.ident]
    · rw [hsame.key]
      exact (queue_nil_iff h.wf).mp hq
    · exact (urb_packet_ep u).trans hsame.key.symm
  | run_async s b u r _ hr => exact run_async_next h r hr
  | run_nak s b u v _ hv _ =>
    refine trying_next h (Kept.refl s) ?_ rfl (h.shape.same hv) id
    simp only [carried, hv.ident]
  | run_done s b u v _ hv _ =>
    refine trying_next h (Kept.refl s) ?_ rfl
      ⟨fun _ => h.shape.1, .inl h.shape.1, h.shape.1.shape⟩ id
    simp only [carried, hv.ident]
  | held_tail s u => exact urb_wait_next rfl rfl h.shape.1
  | take s k u us _ hw => exact take_next h hw
  | held_head s k u => exact held_head_next h
  | retry_next s k _ => exact next_quiet (Kept.refl s) rfl rfl h.shape h.runs
  | retry_end s _ => exact next_quiet (Kept.refl s) rfl rfl (Calm.shape h.shape) h.runs
  | retry_arm s =>
    obtain ⟨t, ht⟩ := usbip_arm_retry_eq s
    rw [ht]
    exact next_quiet ⟨rfl, rfl, rfl, rfl, rfl, (List.append_nil _).symm, by simp⟩ rfl rfl
      (Calm.shape h.shape) h.runs
  | parse_skip s _ => exact next_quiet (Kept.refl s) rfl rfl (Calm.shape h.shape) h.runs
  | parse_begin s _ =>
    exact next_quiet ⟨rfl, rfl, rfl, rfl, rfl, (List.append_nil _).symm, by simp⟩ rfl rfl
      h.shape h.runs
  -- Between two messages nothing is carried, so all that the close drops is listed.
  | parse_drop s _ =>
    have hcalm : Calm _ := h.shape
    have hcalm' := Calm.cons (t := .parse) hcalm trivial
    exact drop_next h hcalm.carried hcalm' s rfl (Nat.le_refl _) rfl id
  | parse_msg s _ =>
    exact next_quiet ⟨rfl, rfl, rfl, rfl, rfl, rfl, by simp [Ev.neutral]⟩ rfl rfl
      (Calm.cons h.shape trivial) h.runs
  | parse_end s _ _ =>
    exact next_quiet ⟨rfl, rfl, rfl, rfl, rfl, (List.append_nil _).symm, by simp⟩ rfl rfl
      (Calm.shape h.shape) h.runs
  | op_devlist s d _ _ _ =>
    exact next_quiet (Kept.of_sent (usbip_reply_devlist_sent s)) rfl rfl (Calm.shape h.shape) h.runs
  | op_import s d _ _ _ =>
    exact next_quiet (Kept.of_sent (usbip_reply_import_false_sent s)) rfl rfl (Calm.shape h.shape)
      h.runs
  -- The URB that the end of the reset is to issue is counted from here on.
  | op_enum s d op hc _ _ _ =>
    have hcalm : Calm _ := h.shape
    refine ⟨?_, hcalm, hcalm.runs _⟩
    have heq : ∀ H, Calm H → ledger (.reset :: H, usbip_enum_begin s op) =
        { ledger (.msg d :: H, s) with conn := .enumerating, issuing := 1 } := by
      intro H hH
      simp only [ledger, issuing, hH.issuing, carried]
      rfl
    rw [heq _ hcalm]
    exact .begin _ hc hcalm.issuing
  | reset_done s =>
    exact next_quiet ⟨rfl, rfl, rfl, rfl, rfl, (List.append_nil _).symm, by simp⟩ rfl rfl
      h.shape h.runs
  | reject s d _ _ hrej => exact reject_next h hrej
  | accept s d u hc _ hep hacc => exact accept_next h hc hep hacc
  | unlink s d hc _ => exact unlink_next h hc _ _

theorem inv_step (h : Inv c) (hstep : Step c c') : Inv c' := h.next (step_next h hstep)

/-! ## Arrivals -/

theorem next_nil {s' : Server} {es : List Ev} (hk : Kept s s' es) : Next ([], s) ([], s') :=
  next_quiet hk rfl rfl trivial trivial

/-- The events that end a connection. -/
theorem close_next {s' : Server} (he : Emptied s s') (hclosed : Closed s s')
    (hlog : ∃ es, s'.log = s.log ++ es ∧ ∀ e ∈ es, e.neutral = true) : Next ([], s) ([], s') := by
  obtain ⟨_, _, _, _, _, _, _, hs'⟩ := hclosed
  obtain ⟨es, hlog, hes⟩ := hlog
  have hshut : Shut (ledger ([], s)) (ledger ([], s')) :=
    shut_of_emptied rfl rfl rfl he (by rw [hs'])
  exact ⟨close_ledger hshut (by rw [hs']) hlog hes, trivial, trivial⟩

theorem close_client_next (h : Inv ([], s)) : Next ([], s) ([], usbip_close_client s) := by
  refine close_next (close_client_emptied s h.wf h.distinct) (usbip_close_client_closed s) ?_
  rcases close_client_log s with hl | hl
  · exact ⟨_, hl, by simp [Ev.neutral]⟩
  · exact ⟨_, hl, by simp [Ev.neutral]⟩

/-- A step of the ledger reads no other field of the state. -/
theorem Next.of_books {s' s'' : Server} (h : Next ([], s) ([], s')) (hl : s''.lanes = s'.lanes)
    (hb : Books s' s'') : Next ([], s) ([], s'') := by
  have heq : Usbip.ledger ([], s'') = Usbip.ledger ([], s') := by
    rw [ledger_move (H := []) hb rfl, hl]
    rfl
  exact ⟨by rw [heq]; exact h.ledger, trivial, trivial⟩

theorem opened_next (h : Inv ([], s)) : Next ([], s) ([], usbip_event s .opened) := by
  have he := reset_connection_emptied s h.wf h.distinct
  obtain ⟨_, _, _, _, _, _, _, hs'⟩ := usbip_reset_connection_closed s
  have hid : s.next_id ≤ (usbip_reset_connection s).next_id := by rw [hs']
  unfold usbip_event usb_port_set_vbus
  dsimp only
  generalize usbip_reset_connection s = t at he hid
  have hshut : Shut (ledger ([], s)) (ledger ([],
      { t with conn := .op, log := [], out := [], received := [], vbus := true })) :=
    { carried := rfl, carried' := rfl, listed := he.listed, wf := he.wf, issuing := rfl,
      next_id := hid, counters := fun ha hn hb => he.counters ⟨ha, hn, hb⟩ }
  exact ⟨.reopen _ _ hshut rfl rfl, trivial, trivial⟩

theorem closed_next (h : Inv ([], s)) : Next ([], s) ([], usbip_event s .closed) :=
  close_next (reset_connection_emptied s h.wf h.distinct) (usbip_reset_connection_closed s)
    ⟨_, reset_connection_log s, by simp [Ev.neutral]⟩

/-- **Every arriving event is a step of the ledger.** -/
theorem arrive_next (h : Inv ([], s)) (ha : Arrive s c) : Next ([], s) c := by
  cases ha with
  | input script cw =>
    exact next_nil ⟨rfl, rfl, rfl, rfl, rfl, (List.append_nil _).symm, by simp⟩
  | read buf _ =>
    exact next_quiet ⟨rfl, rfl, rfl, rfl, rfl, (List.append_nil _).symm, by simp⟩ rfl rfl Calm.nil
      trivial
  | fire_retry =>
    exact next_quiet ⟨rfl, rfl, rfl, rfl, rfl, (List.append_nil _).symm, by simp⟩ rfl rfl Calm.nil
      trivial
  | fire_iso =>
    exact next_quiet ⟨rfl, rfl, rfl, rfl, rfl, (List.append_nil _).symm, by simp⟩ rfl rfl Calm.nil
      trivial
  | fire_bh =>
    exact next_quiet ⟨rfl, rfl, rfl, rfl, rfl, (List.append_nil _).symm, by simp⟩ rfl rfl Calm.nil
      trivial
  | chr e =>
    cases e with
    | opened => exact opened_next h
    | closed => exact closed_next h
  | tx_ready => exact next_nil (Kept.of_sent (usbip_tx_ready_sent s))
  | detach =>
    have hnext : Next ([], s) ([], usbip_port_detach s) := by
      unfold usbip_port_detach
      split
      · exact next_nil (Kept.refl s)
      · have hquiet : Next ([], s) ([], { s with enumerated := false }) :=
          next_nil ⟨rfl, rfl, rfl, rfl, rfl, (List.append_nil _).symm, by simp⟩
        dsimp only
        split
        · exact ⟨(close_client_next (h.next hquiet)).ledger, trivial, trivial⟩
        · exact hquiet
    exact hnext.of_books rfl ⟨rfl, rfl, rfl, rfl, rfl⟩
  | attach speed _ =>
    exact next_nil ⟨rfl, rfl, rfl, rfl, rfl, (List.append_nil _).symm, by simp⟩
  | system_reset =>
    unfold usbip_server_reset_hold
    split
    · exact next_nil (Kept.refl s)
    · exact close_client_next h
  | tick ns => exact next_nil ⟨rfl, rfl, rfl, rfl, rfl, (List.append_nil _).symm, by simp⟩

/-! ## Runs -/

theorem init_lanes (b : Bool) : (Server.init b).lanes.Wf :=
  ⟨by simp [Server.init, Server.lanes], fun _ _ => rfl, by simp [Server.init, Server.lanes],
    fun _ => rfl, by simp [Server.init, Server.lanes],
    by simp [Server.init, Server.lanes, Lanes.flying]⟩

theorem init_inv (b : Bool) : Inv ([], Server.init b) := by
  have hp : (ledger ([], Server.init b)).pending = 0 := by
    show (0 : Multiset Ident) + _ = 0
    rw [zero_add]
    exact listed_eq_zero rfl fun _ => rfl
  refine ⟨⟨init_lanes b, ?_, ?_, ?_, ?_, ?_, ?_, Nat.zero_le _, Nat.zero_le _⟩, trivial, trivial⟩
  · simp [hp]
  · simp [hp]
  · simp [hp]
  · simp [hp]
  · rw [hp]
    exact ⟨fun _ => ⟨rfl, rfl⟩, fun he => absurd he (by simp [ledger, Server.init]), fun _ => rfl⟩
  · rw [hp]
    exact ⟨rfl, rfl⟩

/-- **The invariant holds at every event boundary of every run.** -/
theorem reachable_inv (hs : Reachable s) : Inv ([], s) :=
  reachable_invariant Inv init_inv (fun _ _ h ha => h.next (arrive_next h ha))
    (fun _ _ h hstep => inv_step h hstep) hs

/-- A property of configurations that may rely on the invariant. -/
theorem reachable_with_inv (p : Cfg → Prop) (hinit : ∀ b, p ([], Server.init b))
    (harrive : ∀ s c, Inv ([], s) → p ([], s) → Arrive s c → p c)
    (hstep : ∀ c c', Inv c → p c → Step c c' → p c') (hs : Reachable s) : p ([], s) := by
  refine (reachable_invariant (fun c => Inv c ∧ p c) (fun b => ⟨init_inv b, hinit b⟩) ?_ ?_ hs).2
  · rintro s c ⟨h, hp⟩ ha
    exact ⟨h.next (arrive_next h ha), harrive s c h hp ha⟩
  · rintro c c' ⟨h, hp⟩ hstep'
    exact ⟨inv_step h hstep', hstep c c' h hp hstep'⟩

/-- **The log is right at every event boundary of every run.** -/
theorem reachable_log (hs : Reachable s) : LogInv (ledger ([], s)) := by
  refine reachable_with_inv (fun c => LogInv (ledger c)) (fun b => ?_) ?_ ?_ hs
  · exact ⟨logOk_nil, by simp [ledger, Server.init], by simp [ledger, Server.init, answers],
      by simp [ledger, Server.init], fun hc => absurd rfl hc⟩
  · exact fun s c h hl ha => step_log h.ledger hl (arrive_next h ha).ledger
  · exact fun c c' h hl hstep => step_log h.ledger hl (step_next h hstep).ledger

end Usbip
