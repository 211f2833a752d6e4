import RpiQemu.Usbip.Lanes

/-! # The ledger: which URBs are pending, and what was answered

    An abstract machine for the life of an URB.  Its state is the lists, the bag
    of URBs that calls in progress carry, the connection state, the client's
    counters and the log.  Its steps are all that can happen to an URB: it is
    accepted or issued, moves between a call and the lists, is answered,
    unlinked, or gone with its connection.

    `Usbip.Stack` shows that the stack machine refines this one; the bookkeeping
    of URBs, replies and connection states is proved here. -/

namespace Usbip

open Keyed

/-! ## The log -/

/-- The URB with this identity was answered, by a RET_SUBMIT or as the victim of
    a RET_UNLINK. -/
def Ev.answers (i : Nat) : Ev → Bool
  | .ret_submit j _ => j == i
  | .ret_unlink _ _ _ (some j) => j == i
  | _ => false

/-- Events that neither accept nor answer an URB. -/
def Ev.neutral : Ev → Bool
  | .submit _ _ _ => false
  | .ret_submit _ _ => false
  | .ret_unlink _ _ _ _ => false
  | _ => true

/-- How often an URB was answered. -/
def answers (log : List Ev) (i : Nat) : Nat := log.countP (Ev.answers i)

/-- An event is right, given what happened before it. -/
def EvOk (before : List Ev) : Ev → Prop
  | .submit i _ _ => (∀ n k, .submit i n k ∉ before) ∧ answers before i = 0
  | .ret_submit i n => (∃ k, .submit i n k ∈ before) ∧ answers before i = 0
  | .ret_unlink _ v status (some i) =>
    status = -usbip_econnreset ∧ (∃ k, .submit i v k ∈ before) ∧ answers before i = 0
  | .ret_unlink _ v status none =>
    status = 0 ∧ ∀ i k, .submit i v k ∈ before → answers before i ≠ 0
  | _ => True

/-- Every event of the log is right, given what happened before it. -/
def LogOk (log : List Ev) : Prop := ∀ before e after, log = before ++ e :: after → EvOk before e

theorem logOk_nil : LogOk [] := by
  intro before e after h
  simp at h

theorem LogOk.snoc {log : List Ev} {e : Ev} (h : LogOk log) (he : EvOk log e) :
    LogOk (log ++ [e]) := by
  intro before e' after hsplit
  rcases List.eq_nil_or_concat after with rfl | ⟨after, x, rfl⟩
  · obtain ⟨rfl, hee⟩ := List.append_inj' hsplit rfl
    rw [← (List.cons.inj hee).1]
    exact he
  · have hsplit' : log ++ [e] = (before ++ e' :: after) ++ [x] := by simpa using hsplit
    exact h before e' after (List.append_inj' hsplit' rfl).1

theorem evOk_neutral {log : List Ev} {e : Ev} (h : e.neutral = true) : EvOk log e := by
  cases e <;> trivial

theorem LogOk.append {log es : List Ev} (h : LogOk log) (hes : ∀ e ∈ es, e.neutral = true) :
    LogOk (log ++ es) := by
  induction es generalizing log with
  | nil => simpa using h
  | cons e es ih =>
    have := ih (h.snoc (evOk_neutral (hes e (List.mem_cons_self ..))))
      (fun e' he' => hes e' (List.mem_cons_of_mem _ he'))
    simpa using this

@[simp] theorem answers_append (l l' : List Ev) (i : Nat) :
    answers (l ++ l') i = answers l i + answers l' i := List.countP_append

theorem answers_neutral {es : List Ev} (h : ∀ e ∈ es, e.neutral = true) (i : Nat) :
    answers es i = 0 := by
  rw [answers, List.countP_eq_zero]
  intro e he
  have hn := h e he
  cases e <;> simp_all [Ev.answers, Ev.neutral]

theorem submit_mem_append {l es : List Ev} (h : ∀ e ∈ es, e.neutral = true) {i n k : Nat} :
    .submit i n k ∈ l ++ es ↔ .submit i n k ∈ l := by
  rw [List.mem_append]
  refine ⟨fun hm => hm.resolve_right fun hm => ?_, .inl⟩
  exact absurd (h _ hm) (by simp [Ev.neutral])

/-! ## The abstract machine -/

structure Ledger where
  lanes : Lanes
  /-- The URBs that calls in progress carry. -/
  carried : Multiset Ident
  conn : USBIPConn
  /-- Enumeration requests about to be issued. -/
  issuing : Nat
  next_id : Nat
  nurbs : Nat
  urb_bytes : Nat
  log : List Ev

namespace Ledger

/-- Every URB that is not yet answered or gone. -/
def pending (L : Ledger) : Multiset Ident := L.carried + L.lanes.listed

/-- `usbip_urb_free`. -/
def free (L : Ledger) (i : Ident) : Ledger :=
  if i.internal then L
  else
    { L with
      nurbs := (L.nurbs + (2 ^ 32 - 1)) % 2 ^ 32
      urb_bytes := (L.urb_bytes + (2 ^ 64 - i.len)) % 2 ^ 64 }

/-- The client's URBs. -/
def clients (m : Multiset Ident) : Multiset Ident := m.filter (·.internal = false)

/-- The server's own enumeration requests. -/
def internals (m : Multiset Ident) : Multiset Ident := m.filter (·.internal = true)

/-- The client's counters count its pending URBs. -/
structure Accounted (nurbs urb_bytes : Nat) (m : Multiset Ident) : Prop where
  nurbs : nurbs = (clients m).card
  urb_bytes : urb_bytes = ((clients m).map Ident.len).sum

/-- The connection is over: every list is empty and the counters are back. -/
structure Shut (L L' : Ledger) : Prop where
  carried : L.carried = 0
  carried' : L'.carried = 0
  listed : L'.lanes.listed = 0
  wf : L'.lanes.Wf
  issuing : L'.issuing = 0
  next_id : L.next_id ≤ L'.next_id
  counters : Accounted L.nurbs L.urb_bytes L.lanes.listed → L.nurbs ≤ usbip_max_urbs →
    L.urb_bytes ≤ usbip_max_urb_bytes → L'.nurbs = 0 ∧ L'.urb_bytes = 0

inductive Step : Ledger → Ledger → Prop where
  | quiet (L : Ledger) (es : List Ev) : (∀ e ∈ es, e.neutral = true) →
      Step L { L with log := L.log ++ es }
  -- between the lists and a call
  | lift (L : Ledger) (u : USBIPURB) (us : List USBIPURB) :
      L.lanes.flying (usbip_urb_key u) = u :: us →
      Step L { L with lanes := L.lanes.off u, carried := ident u ::ₘ L.carried }
  | hold (L : Ledger) (l : Lanes) (es : List Ev) : l.Wf → l.listed = L.lanes.listed →
      (∀ e ∈ es, e.neutral = true) → Step L { L with lanes := l, log := L.log ++ es }
  | fly (L : Ledger) (u : USBIPURB) (m : Multiset Ident) : L.carried = ident u ::ₘ m →
      u.state = .inflight → u.packet.ep = usbip_urb_key u →
      (L.lanes.flying (usbip_urb_key u) ≠ [] → u.packet.state = .queued) →
      Step L { L with lanes := L.lanes.on u, carried := m }
  | wait (L : Ledger) (u : USBIPURB) (m : Multiset Ident) (us : List USBIPURB) :
      L.carried = ident u ::ₘ m → u.state = .waiting →
      us.Perm (u :: L.lanes.waiting (usbip_urb_key u)) →
      Step L { L with lanes := L.lanes.set_waiting (usbip_urb_key u) us, carried := m }
  | take (L : Ledger) (u : USBIPURB) (us : List USBIPURB) :
      L.lanes.waiting (usbip_urb_key u) = u :: us →
      Step L { L with
        lanes := L.lanes.set_waiting (usbip_urb_key u) us
        carried := ident u ::ₘ L.carried }
  -- the client's URBs
  | accept (L : Ledger) (i : Ident) : i.internal = false → i.id = L.next_id →
      i.key < usbip_num_keys → L.conn = .attached → L.nurbs < usbip_max_urbs →
      L.urb_bytes + i.len ≤ usbip_max_urb_bytes →
      Step L { L with
        carried := i ::ₘ L.carried
        next_id := L.next_id + 1
        nurbs := (L.nurbs + 1) % 2 ^ 32
        urb_bytes := (L.urb_bytes + i.len) % 2 ^ 64
        log := L.log ++ [.submit i.id i.seqnum i.key] }
  | answer (L : Ledger) (i : Ident) (m : Multiset Ident) : L.carried = i ::ₘ m →
      i.internal = false →
      Step L ({ L with carried := m, log := L.log ++ [Ev.ret_submit i.id i.seqnum] }.free i)
  | unlink (L : Ledger) (u : USBIPURB) (l : Lanes) (seqnum : Nat) : Unlinked u L.lanes l →
      u.internal = false →
      Step L ({ L with
        lanes := l
        log := L.log ++ [Ev.ret_unlink seqnum u.seqnum (-usbip_econnreset) (some u.id)] }.free
          (ident u))
  | unlink_none (L : Ledger) (seqnum victim : Nat) : L.conn ≠ .none →
      (∀ i ∈ clients L.pending, i.seqnum ≠ victim) →
      Step L { L with log := L.log ++ [.ret_unlink seqnum victim 0 none] }
  -- enumeration
  | begin (L : Ledger) : L.conn = .op → L.issuing = 0 →
      Step L { L with conn := .enumerating, issuing := 1 }
  | issue (L : Ledger) (i : Ident) (n : Nat) : L.issuing = n + 1 → i.internal = true →
      i.np = 0 → i.key < usbip_num_keys → i.id = L.next_id →
      Step L { L with carried := i ::ₘ L.carried, issuing := n, next_id := L.next_id + 1 }
  | enum_next (L : Ledger) (i : Ident) (m : Multiset Ident) : L.carried = i ::ₘ m →
      i.internal = true → Step L { L with carried := m, issuing := L.issuing + 1 }
  | enum_end (L : Ledger) (i : Ident) (m : Multiset Ident) (conn : USBIPConn) (e : Ev) :
      L.carried = i ::ₘ m → i.internal = true → conn = .op ∨ conn = .attached →
      e.neutral = true →
      Step L { L with carried := m, conn := conn, log := L.log ++ [e] }
  -- the connection
  | close (L L' : Ledger) (es : List Ev) : Shut L L' → L'.conn = .none →
      L'.log = L.log ++ es → (∀ e ∈ es, e.neutral = true) → Step L L'
  | reopen (L L' : Ledger) : Shut L L' → L'.conn = .op → L'.log = [] → Step L L'

/-! ## The invariant -/

/-- Enumeration and URB traffic exclude each other. -/
structure Phase (conn : USBIPConn) (issuing : Nat) (m : Multiset Ident) : Prop where
  no_enum : conn ≠ .enumerating → internals m = 0 ∧ issuing = 0
  enum : conn = .enumerating → clients m = 0 ∧ (internals m).card + issuing = 1
  idle : conn = .none ∨ conn = .op → clients m = 0

structure Inv (L : Ledger) : Prop where
  wf : L.lanes.Wf
  nodup : (L.pending.map Ident.id).Nodup
  id_lt : ∀ i ∈ L.pending, i.id < L.next_id
  key_lt : ∀ i ∈ L.pending, i.key < usbip_num_keys
  internal_np : ∀ i ∈ L.pending, i.internal = true → i.np = 0
  phase : Phase L.conn L.issuing L.pending
  accounted : Accounted L.nurbs L.urb_bytes L.pending
  nurbs_le : L.nurbs ≤ usbip_max_urbs
  urb_bytes_le : L.urb_bytes ≤ usbip_max_urb_bytes

variable {L L' : Ledger} {i : Ident} {m : Multiset Ident}

@[simp] theorem clients_zero : clients 0 = 0 := rfl

@[simp] theorem internals_zero : internals 0 = 0 := rfl

theorem clients_cons_client (h : i.internal = false) : clients (i ::ₘ m) = i ::ₘ clients m :=
  Multiset.filter_cons_of_pos _ h

theorem clients_cons_internal (h : i.internal = true) : clients (i ::ₘ m) = clients m :=
  Multiset.filter_cons_of_neg _ (by simp [h])

theorem internals_cons_client (h : i.internal = false) : internals (i ::ₘ m) = internals m :=
  Multiset.filter_cons_of_neg _ (by simp [h])

theorem internals_cons_internal (h : i.internal = true) :
    internals (i ::ₘ m) = i ::ₘ internals m :=
  Multiset.filter_cons_of_pos _ h

/-- An URB is the client's or the server's own. -/
theorem eq_zero_of_parts (hc : clients m = 0) (hi : internals m = 0) : m = 0 := by
  rw [Multiset.eq_zero_iff_forall_notMem] at *
  intro j hj
  cases hj' : j.internal with
  | false => exact hc j (Multiset.mem_filter.mpr ⟨hj, hj'⟩)
  | true => exact hi j (Multiset.mem_filter.mpr ⟨hj, hj'⟩)

theorem clients_ne_zero (hi : i ∈ m) (h : i.internal = false) : clients m ≠ 0 := by
  intro h0
  have : i ∈ clients m := Multiset.mem_filter.mpr ⟨hi, h⟩
  rw [h0] at this
  exact Multiset.notMem_zero _ this

theorem internals_ne_zero (hi : i ∈ m) (h : i.internal = true) : internals m ≠ 0 := by
  intro h0
  have : i ∈ internals m := Multiset.mem_filter.mpr ⟨hi, h⟩
  rw [h0] at this
  exact Multiset.notMem_zero _ this

/-- While an enumeration request is pending, the server enumerates. -/
theorem Inv.enumerating (h : Inv L) (hi : i ∈ L.pending) (hint : i.internal = true) :
    L.conn = .enumerating := by
  by_contra hc
  exact internals_ne_zero hi hint (h.phase.no_enum hc).1

/-- While a client's URB is pending, the client is attached. -/
theorem Inv.attached (h : Inv L) (hi : i ∈ L.pending) (hcl : i.internal = false) :
    L.conn = .attached := by
  have hne := clients_ne_zero hi hcl
  cases hc : L.conn with
  | none => exact absurd (h.phase.idle (.inl hc)) hne
  | op => exact absurd (h.phase.idle (.inr hc)) hne
  | enumerating => exact absurd (h.phase.enum hc).1 hne
  | attached => rfl

theorem clients_sub_of_eq_cons (h : Inv L) (hp : L.pending = i ::ₘ m) :
    i.internal = false → L.nurbs = (clients m).card + 1 ∧
      L.urb_bytes = i.len + ((clients m).map Ident.len).sum := by
  intro hi
  have hn := h.accounted.nurbs
  have hb := h.accounted.urb_bytes
  rw [hp, clients_cons_client hi] at hn hb
  rw [Multiset.card_cons] at hn
  rw [Multiset.map_cons, Multiset.sum_cons] at hb
  exact ⟨hn, hb⟩

theorem Accounted.free_client {n b len : Nat} {c : Multiset Ident} (hn : n = c.card + 1)
    (hb : b = len + (c.map Ident.len).sum) (hnl : n ≤ usbip_max_urbs)
    (hbl : b ≤ usbip_max_urb_bytes) :
    (n + (2 ^ 32 - 1)) % 2 ^ 32 = c.card ∧
      (b + (2 ^ 64 - len)) % 2 ^ 64 = (c.map Ident.len).sum := by
  unfold usbip_max_urbs at hnl
  unfold usbip_max_urb_bytes at hbl
  omega

theorem free_conn (L : Ledger) (i : Ident) : (L.free i).conn = L.conn := by
  unfold free
  split <;> rfl

theorem free_eq (L : Ledger) (i : Ident) :
    ∃ n b, L.free i = { L with nurbs := n, urb_bytes := b } := by
  unfold free
  split
  · exact ⟨L.nurbs, L.urb_bytes, rfl⟩
  · exact ⟨_, _, rfl⟩

/-- An URB that is answered or unlinked takes its share of the counters along. -/
theorem Inv.gone (h : Inv L) (hwf : L'.lanes.Wf) (hp : L.pending = i ::ₘ L'.pending)
    (hcl : i.internal = false) (hc : L'.conn = L.conn) (hs : L'.issuing = L.issuing)
    (hid : L'.next_id = L.next_id) (hn : L'.nurbs = L.nurbs) (hb : L'.urb_bytes = L.urb_bytes) :
    Inv (L'.free i) := by
  have hmem : i ∈ L.pending := by rw [hp]; exact Multiset.mem_cons_self _ _
  have hsub : ∀ j ∈ L'.pending, j ∈ L.pending := fun j hj => by
    rw [hp]; exact Multiset.mem_cons_of_mem hj
  have hatt := h.attached hmem hcl
  obtain ⟨hn', hb'⟩ := clients_sub_of_eq_cons h hp hcl
  obtain ⟨hn'', hb''⟩ := Accounted.free_client hn' hb' h.nurbs_le h.urb_bytes_le
  have hpf : (L'.free i).pending = L'.pending := by
    simp [free, hcl, pending]
  have hnodup := h.nodup
  rw [hp, Multiset.map_cons] at hnodup
  have hphase := h.phase.no_enum (by rw [hatt]; decide)
  rw [hp, internals_cons_client hcl] at hphase
  refine
    { wf := ?_, nodup := ?_, id_lt := ?_, key_lt := ?_, internal_np := ?_, phase := ?_,
      accounted := ?_, nurbs_le := ?_, urb_bytes_le := ?_ }
  · simpa [free, hcl] using hwf
  · rw [hpf]
    exact (Multiset.nodup_cons.mp hnodup).2
  · rw [hpf]
    simpa [free, hcl, hid] using fun j hj => h.id_lt j (hsub j hj)
  · rw [hpf]
    exact fun j hj => h.key_lt j (hsub j hj)
  · rw [hpf]
    exact fun j hj => h.internal_np j (hsub j hj)
  · rw [hpf]
    have hconn : (L'.free i).conn = .attached := by rw [free_conn, hc, hatt]
    have hiss : (L'.free i).issuing = 0 := by simpa [free, hcl, hs] using hphase.2
    exact ⟨fun _ => ⟨hphase.1, hiss⟩, fun he => by rw [hconn] at he; exact absurd he (by decide),
      fun he => by rw [hconn] at he; exact absurd he (by decide)⟩
  · rw [hpf]
    refine ⟨?_, ?_⟩
    · simpa [free, hcl, hn] using hn''
    · simpa [free, hcl, hb] using hb''
  · have hle := h.nurbs_le
    have : (L'.free i).nurbs = (clients L'.pending).card := by simpa [free, hcl, hn] using hn''
    omega
  · have hle := h.urb_bytes_le
    have : (L'.free i).urb_bytes = ((clients L'.pending).map Ident.len).sum := by
      simpa [free, hcl, hb] using hb''
    omega

/-- A step that changes neither the pending URBs nor the connection. -/
theorem Inv.of_pending (h : Inv L) (hwf : L'.lanes.Wf) (hp : L'.pending = L.pending)
    (hc : L'.conn = L.conn) (hs : L'.issuing = L.issuing) (hid : L'.next_id = L.next_id)
    (hn : L'.nurbs = L.nurbs) (hb : L'.urb_bytes = L.urb_bytes) : Inv L' where
  wf := hwf
  nodup := by rw [hp]; exact h.nodup
  id_lt := by rw [hp, hid]; exact h.id_lt
  key_lt := by rw [hp]; exact h.key_lt
  internal_np := by rw [hp]; exact h.internal_np
  phase := by rw [hp, hc, hs]; exact h.phase
  accounted := by rw [hp, hn, hb]; exact h.accounted
  nurbs_le := by rw [hn]; exact h.nurbs_le
  urb_bytes_le := by rw [hb]; exact h.urb_bytes_le

/-- A closed or reopened connection has nothing pending. -/
theorem Shut.inv (hs : Shut L L') (h : Inv L) (hc : L'.conn = .none ∨ L'.conn = .op) : Inv L' := by
  have hp : L'.pending = 0 := by rw [pending, hs.carried', hs.listed, add_zero]
  have hacc := h.accounted
  rw [pending, hs.carried, zero_add] at hacc
  obtain ⟨hn, hb⟩ := hs.counters hacc h.nurbs_le h.urb_bytes_le
  refine
    { wf := hs.wf, nodup := ?_, id_lt := ?_, key_lt := ?_, internal_np := ?_, phase := ?_,
      accounted := ?_, nurbs_le := ?_, urb_bytes_le := ?_ }
  · simp [hp]
  · simp [hp]
  · simp [hp]
  · simp [hp]
  · rw [hp]
    refine ⟨fun _ => ⟨rfl, hs.issuing⟩, fun he => ?_, fun _ => rfl⟩
    rcases hc with hc | hc <;> rw [hc] at he <;> exact absurd he (by decide)
  · rw [hp]
    exact ⟨by simp [hn], by simp [hb]⟩
  · omega
  · omega

/-! ## Steps keep the invariant -/

theorem Inv.distinct (h : Inv L) : L.lanes.Distinct := by
  have hn := h.nodup
  rw [pending, Multiset.map_add] at hn
  exact (Multiset.nodup_add.mp hn).2.1

/-- A new URB, with the next identity. -/
theorem Inv.fresh (h : Inv L) (hl : L'.lanes = L.lanes) (hcar : L'.carried = i ::ₘ L.carried)
    (hnext : L'.next_id = L.next_id + 1) (hid : i.id = L.next_id) (hk : i.key < usbip_num_keys)
    (hnp : i.internal = true → i.np = 0) (hphase : Phase L'.conn L'.issuing (i ::ₘ L.pending))
    (hacc : Accounted L'.nurbs L'.urb_bytes (i ::ₘ L.pending)) (hn : L'.nurbs ≤ usbip_max_urbs)
    (hb : L'.urb_bytes ≤ usbip_max_urb_bytes) : Inv L' := by
  have hp : L'.pending = i ::ₘ L.pending := by
    rw [pending, hcar, hl, Multiset.cons_add, pending]
  refine
    { wf := ?_, nodup := ?_, id_lt := ?_, key_lt := ?_, internal_np := ?_, phase := ?_,
      accounted := ?_, nurbs_le := hn, urb_bytes_le := hb }
  · rw [hl]
    exact h.wf
  · rw [hp, Multiset.map_cons, Multiset.nodup_cons]
    refine ⟨fun hm => ?_, h.nodup⟩
    obtain ⟨j, hj, hji⟩ := Multiset.mem_map.mp hm
    have := h.id_lt j hj
    omega
  · rw [hp, hnext]
    intro j hj
    rcases Multiset.mem_cons.mp hj with rfl | hj
    · omega
    · exact Nat.lt_succ_of_lt (h.id_lt j hj)
  · rw [hp]
    intro j hj
    rcases Multiset.mem_cons.mp hj with rfl | hj
    · exact hk
    · exact h.key_lt j hj
  · rw [hp]
    intro j hj hint
    rcases Multiset.mem_cons.mp hj with rfl | hj
    · exact hnp hint
    · exact h.internal_np j hj hint
  · rw [hp]
    exact hphase
  · rw [hp]
    exact hacc

theorem accept_inv (h : Inv L) (hcl : i.internal = false) (hid : i.id = L.next_id)
    (hk : i.key < usbip_num_keys) (hc : L.conn = .attached) (hn : L.nurbs < usbip_max_urbs)
    (hb : L.urb_bytes + i.len ≤ usbip_max_urb_bytes) (log : List Ev) :
    Inv { L with
      carried := i ::ₘ L.carried
      next_id := L.next_id + 1
      nurbs := (L.nurbs + 1) % 2 ^ 32
      urb_bytes := (L.urb_bytes + i.len) % 2 ^ 64
      log := log } := by
  have hnw : (L.nurbs + 1) % 2 ^ 32 = L.nurbs + 1 := by
    unfold usbip_max_urbs at hn
    omega
  have hbw : (L.urb_bytes + i.len) % 2 ^ 64 = L.urb_bytes + i.len := by
    unfold usbip_max_urb_bytes at hb
    omega
  have hphase := h.phase.no_enum (by rw [hc]; decide)
  refine h.fresh rfl rfl rfl hid hk ?_ ⟨fun _ => ?_, fun he => ?_, fun he => ?_⟩ ?_ ?_ ?_
  · intro hint
    rw [hcl] at hint
    exact absurd hint (by decide)
  · rw [internals_cons_client hcl]
    exact hphase
  · exact absurd (hc.symm.trans he) (by decide)
  · rcases he with he | he <;> exact absurd (hc.symm.trans he) (by decide)
  · rw [hnw, hbw]
    refine ⟨?_, ?_⟩
    · rw [clients_cons_client hcl, Multiset.card_cons, h.accounted.nurbs]
    · rw [clients_cons_client hcl, Multiset.map_cons, Multiset.sum_cons, h.accounted.urb_bytes]
      exact Nat.add_comm _ _
  · rw [hnw]
    exact hn
  · rw [hbw]
    exact hb

theorem issue_inv (h : Inv L) {n : Nat} (hs : L.issuing = n + 1) (hint : i.internal = true)
    (hnp : i.np = 0) (hk : i.key < usbip_num_keys) (hid : i.id = L.next_id) :
    Inv { L with carried := i ::ₘ L.carried, issuing := n, next_id := L.next_id + 1 } := by
  have hen : L.conn = .enumerating := by
    by_contra hc
    have := (h.phase.no_enum hc).2
    omega
  obtain ⟨hcl, hcard⟩ := h.phase.enum hen
  refine h.fresh rfl rfl rfl hid hk (fun _ => hnp)
    ⟨fun he => absurd hen he, fun _ => ?_, fun he => ?_⟩ ⟨?_, ?_⟩ h.nurbs_le h.urb_bytes_le
  · rw [clients_cons_internal hint, internals_cons_internal hint, Multiset.card_cons]
    exact ⟨hcl, by show _ + n = 1; omega⟩
  · rcases he with he | he <;> exact absurd (hen.symm.trans he) (by decide)
  · rw [clients_cons_internal hint]
    exact h.accounted.nurbs
  · rw [clients_cons_internal hint]
    exact h.accounted.urb_bytes

/-- An enumeration request that completed was the only URB. -/
theorem Inv.only (h : Inv L) (hcar : L.carried = i ::ₘ m) (hint : i.internal = true) :
    L.conn = .enumerating ∧ L.issuing = 0 ∧ m + L.lanes.listed = 0 := by
  have hp : L.pending = i ::ₘ (m + L.lanes.listed) := by
    rw [pending, hcar, Multiset.cons_add]
  have hen := h.enumerating (by rw [hp]; exact Multiset.mem_cons_self _ _) hint
  obtain ⟨hcl, hcard⟩ := h.phase.enum hen
  rw [hp, clients_cons_internal hint] at hcl
  rw [hp, internals_cons_internal hint, Multiset.card_cons] at hcard
  have hint0 : internals (m + L.lanes.listed) = 0 := Multiset.card_eq_zero.mp (by omega)
  exact ⟨hen, by omega, eq_zero_of_parts hcl hint0⟩

/-- After the enumeration request nothing is pending. -/
theorem Inv.of_nothing (h : Inv L) (hwf : L'.lanes.Wf) (hp : L'.pending = 0)
    (hcl : clients L.pending = 0) (hn : L'.nurbs = L.nurbs) (hb : L'.urb_bytes = L.urb_bytes)
    (hphase : Phase L'.conn L'.issuing 0) : Inv L' := by
  have hacc := h.accounted
  refine
    { wf := hwf, nodup := ?_, id_lt := ?_, key_lt := ?_, internal_np := ?_, phase := ?_,
      accounted := ?_, nurbs_le := ?_, urb_bytes_le := ?_ }
  · simp [hp]
  · simp [hp]
  · simp [hp]
  · simp [hp]
  · rw [hp]
    exact hphase
  · rw [hp, hn, hb]
    exact ⟨by rw [hacc.nurbs, hcl]; rfl, by rw [hacc.urb_bytes, hcl]; rfl⟩
  · rw [hn]
    exact h.nurbs_le
  · rw [hb]
    exact h.urb_bytes_le

/-- **Every step of the ledger keeps its invariant.** -/
theorem step_inv (h : Inv L) (hstep : Step L L') : Inv L' := by
  have hd := h.distinct
  cases hstep with
  | quiet es _ => exact h.of_pending h.wf rfl rfl rfl rfl rfl rfl
  -- As for the log: a move between lists keeps `pending`, and the rest follows it.
  | lift u us hu =>
    have hmem : u ∈ L.lanes.inflight :=
      (Lanes.mem_flying.mp (show u ∈ L.lanes.flying _ by rw [hu]; simp)).1
    refine h.of_pending (Lanes.off_wf h.wf hd hmem) ?_ rfl rfl rfl rfl rfl
    simp only [pending, Lanes.off_listed h.wf hd hmem, Multiset.cons_add, Multiset.add_cons]
  | hold l es hwf hl _ =>
    refine h.of_pending hwf ?_ rfl rfl rfl rfl rfl
    simp only [pending, hl]
  | fly u m hcar hst hep hq =>
    have hk : usbip_urb_key u < usbip_num_keys :=
      h.key_lt (ident u) (by rw [pending, hcar]; simp)
    refine h.of_pending (Lanes.on_wf h.wf hk hst hep hq) ?_ rfl rfl rfl rfl rfl
    simp only [pending, hcar, Lanes.on_listed hk, Multiset.cons_add, Multiset.add_cons]
  | wait u m us hcar hst hperm =>
    have hk : usbip_urb_key u < usbip_num_keys :=
      h.key_lt (ident u) (by rw [pending, hcar]; simp)
    refine h.of_pending (Lanes.set_waiting_wf h.wf hk ?_) ?_ rfl rfl rfl rfl rfl
    · intro v hv
      rcases List.mem_cons.mp (hperm.mem_iff.mp hv) with rfl | hv
      · exact ⟨rfl, hst⟩
      · exact h.wf.waiting_state _ v hv
    · simp only [pending, hcar, Lanes.set_waiting_listed hk hperm, Lanes.set_waiting_waiting,
        Multiset.cons_add, Multiset.add_cons]
  | take u us hu =>
    have hmem : u ∈ L.lanes.waiting (usbip_urb_key u) := by rw [hu]; simp
    have hk := Lanes.Has.key_lt (.inr hmem) h.wf
    refine h.of_pending (Lanes.set_waiting_wf h.wf hk ?_) ?_ rfl rfl rfl rfl rfl
    · intro v hv
      exact h.wf.waiting_state _ v (by rw [hu]; exact List.mem_cons_of_mem _ hv)
    · have hlist := Lanes.set_waiting_listed (l := L.lanes) hk (List.Perm.of_eq hu)
      rw [Lanes.set_waiting_waiting] at hlist
      simp only [pending, Multiset.cons_add]
      rw [hlist, Multiset.add_cons]
  | accept i hcl hid hk hc hn hb => exact accept_inv h hcl hid hk hc hn hb _
  | answer i m hcar hcl =>
    refine h.gone h.wf ?_ hcl rfl rfl rfl rfl rfl
    simp only [pending, hcar, Multiset.cons_add]
  | unlink u l seqnum hu hcl =>
    refine h.gone hu.wf ?_ hcl rfl rfl rfl rfl rfl
    simp only [pending, hu.listed, Multiset.add_cons]
  | unlink_none seqnum victim _ _ => exact h.of_pending h.wf rfl rfl rfl rfl rfl rfl
  -- In the op phase nothing is pending, so the enumeration starts from nothing.
  | begin hc hs =>
    have hcl := h.phase.idle (.inr hc)
    have hint := (h.phase.no_enum (by rw [hc]; decide)).1
    have hp : L.pending = 0 := eq_zero_of_parts hcl hint
    refine h.of_nothing h.wf hp hcl rfl rfl ⟨fun he => absurd rfl he, fun _ => ⟨rfl, rfl⟩, ?_⟩
    rintro (he | he) <;> cases he
  | issue i n hs hint hnp hk hid => exact issue_inv h hs hint hnp hk hid
  | enum_next i m hcar hint =>
    obtain ⟨hen, hiss, hrest⟩ := h.only hcar hint
    have hcl := (h.phase.enum hen).1
    refine h.of_nothing h.wf hrest hcl rfl rfl ⟨fun he => absurd hen he, fun _ => ?_, ?_⟩
    · simp [hiss]
    · rintro (he | he) <;> exact absurd (hen.symm.trans he) (by decide)
  | enum_end i m conn e hcar hint hc _ =>
    obtain ⟨hen, hiss, hrest⟩ := h.only hcar hint
    have hcl := (h.phase.enum hen).1
    refine h.of_nothing h.wf hrest hcl rfl rfl ⟨fun _ => ⟨rfl, hiss⟩, fun he => ?_, fun _ => rfl⟩
    rcases hc with hc | hc <;> exact absurd (hc.symm.trans he) (by decide)
  | close _ es hs hc _ _ => exact hs.inv h (.inl hc)
  | reopen _ hs hc _ => exact hs.inv h (.inr hc)

/-! ## The log and the pending URBs -/

/-- While the client is connected, its pending URBs are those accepted and not
    yet answered. -/
def Linked (log : List Ev) (m : Multiset Ident) : Prop :=
  ∀ i n k, .submit i n k ∈ log ∧ answers log i = 0 ↔
    ∃ j ∈ clients m, j.id = i ∧ j.seqnum = n ∧ j.key = k

structure LogInv (L : Ledger) : Prop where
  ok : LogOk L.log
  submit_lt : ∀ i n k, .submit i n k ∈ L.log → i < L.next_id
  answer_lt : ∀ i, answers L.log i ≠ 0 → i < L.next_id
  /-- Nothing is accepted before the device is imported. -/
  early : L.conn = .op ∨ L.conn = .enumerating → ∀ i n k, .submit i n k ∉ L.log
  linked : L.conn ≠ .none → Linked L.log L.pending

theorem Linked.append {log es : List Ev} (h : Linked log m) (hes : ∀ e ∈ es, e.neutral = true) :
    Linked (log ++ es) m := by
  intro i n k
  rw [submit_mem_append hes, answers_append, answers_neutral hes, Nat.add_zero]
  exact h i n k

theorem Linked.of_clients {m' : Multiset Ident} {log : List Ev} (h : Linked log m)
    (hm : clients m' = clients m) : Linked log m' := by
  intro i n k
  rw [hm]
  exact h i n k

theorem Linked.accept {log : List Ev} (h : Linked log m) (hcl : i.internal = false)
    (hnew : ∀ n k, .submit i.id n k ∉ log) (hans : answers log i.id = 0) :
    Linked (log ++ [.submit i.id i.seqnum i.key]) (i ::ₘ m) := by
  have hnone : ∀ j ∈ clients m, j.id ≠ i.id := by
    intro j hj hji
    exact hnew _ _ ((h j.id j.seqnum j.key).mpr ⟨j, hj, rfl, rfl, rfl⟩ |>.1 |> (hji ▸ ·))
  intro a n k
  have ha : answers [.submit i.id i.seqnum i.key] a = 0 := rfl
  rw [answers_append, ha, Nat.add_zero, List.mem_append, List.mem_singleton, Ev.submit.injEq,
    clients_cons_client hcl]
  constructor
  · rintro ⟨hmem | ⟨rfl, rfl, rfl⟩, hz⟩
    · obtain ⟨j, hj, hjeq⟩ := (h a n k).mp ⟨hmem, hz⟩
      exact ⟨j, Multiset.mem_cons_of_mem hj, hjeq⟩
    · exact ⟨i, Multiset.mem_cons_self _ _, rfl, rfl, rfl⟩
  · rintro ⟨j, hj, rfl, rfl, rfl⟩
    rcases Multiset.mem_cons.mp hj with rfl | hj
    · exact ⟨.inr ⟨rfl, rfl, rfl⟩, hans⟩
    · have := (h j.id j.seqnum j.key).mpr ⟨j, hj, rfl, rfl, rfl⟩
      exact ⟨.inl this.1, this.2⟩

theorem Linked.gone {log : List Ev} {e : Ev} (h : Linked log (i ::ₘ m)) (hcl : i.internal = false)
    (hnodup : ((i ::ₘ m).map Ident.id).Nodup) (hans : ∀ a, e.answers a = (i.id == a))
    (hsub : ∀ a n k, e ≠ .submit a n k) : Linked (log ++ [e]) m := by
  rw [Multiset.map_cons, Multiset.nodup_cons] at hnodup
  intro a n k
  have ha : answers [e] a = if i.id = a then 1 else 0 := by
    simp [answers, List.countP_cons, hans]
  rw [answers_append, ha, List.mem_append, List.mem_singleton,
    or_iff_left (fun heq => hsub a n k heq.symm)]
  have hold := h a n k
  rw [clients_cons_client hcl] at hold
  by_cases hia : i.id = a
  · rw [if_pos hia]
    constructor
    · rintro ⟨_, hz⟩
      omega
    · rintro ⟨j, hj, hja, _⟩
      refine absurd (Multiset.mem_map.mpr ⟨j, ?_, hja.trans hia.symm⟩) hnodup.1
      exact (Multiset.mem_filter.mp hj).1
  · rw [if_neg hia, Nat.add_zero, hold]
    constructor
    · rintro ⟨j, hj, hja, hrest⟩
      rcases Multiset.mem_cons.mp hj with rfl | hj
      · exact absurd hja hia
      · exact ⟨j, hj, hja, hrest⟩
    · rintro ⟨j, hj, hrest⟩
      exact ⟨j, Multiset.mem_cons_of_mem hj, hrest⟩

/-- A pending client URB was accepted and not answered. -/
theorem LogInv.of_pending (hl : LogInv L) (h : Inv L) (hi : i ∈ L.pending)
    (hcl : i.internal = false) :
    .submit i.id i.seqnum i.key ∈ L.log ∧ answers L.log i.id = 0 := by
  have hc : L.conn ≠ .none := by rw [h.attached hi hcl]; decide
  exact (hl.linked hc i.id i.seqnum i.key).mpr
    ⟨i, Multiset.mem_filter.mpr ⟨hi, hcl⟩, rfl, rfl, rfl⟩

/-- The log of a step that answers an URB. -/
theorem LogInv.gone (hl : LogInv L) (h : Inv L) {e : Ev} (hp : L.pending = i ::ₘ L'.pending)
    (hcl : i.internal = false) (hc' : L'.conn = L.conn) (hlog : L'.log = L.log ++ [e])
    (hid : L'.next_id = L.next_id) (hans : ∀ a, e.answers a = (i.id == a))
    (hsub : ∀ a n k, e ≠ .submit a n k) (he : EvOk L.log e) : LogInv L' := by
  have hmem : i ∈ L.pending := by rw [hp]; exact Multiset.mem_cons_self _ _
  have hatt := h.attached hmem hcl
  have hc : L.conn ≠ .none := by rw [hatt]; decide
  refine ⟨?_, ?_, ?_, fun he => ?_, fun _ => ?_⟩
  · rw [hlog]
    exact hl.ok.snoc he
  · intro a n k ha
    rw [hlog, List.mem_append, List.mem_singleton,
      or_iff_left (fun heq => hsub a n k heq.symm)] at ha
    rw [hid]
    exact hl.submit_lt a n k ha
  · intro a ha
    rw [hid]
    rw [hlog, answers_append] at ha
    by_cases hia : i.id = a
    · rw [← hia]
      exact h.id_lt i hmem
    · refine hl.answer_lt a ?_
      have : answers [e] a = 0 := by simp [answers, hans, hia]
      omega
  · rw [hc', hatt] at he
    rcases he with he | he <;> exact absurd he (by decide)
  · have hlink := hl.linked hc
    have hn := h.nodup
    rw [hp] at hlink hn
    rw [hlog]
    exact hlink.gone hcl hn hans hsub

/-- The log of a step that neither accepts nor answers an URB. -/
theorem LogInv.neutral (hl : LogInv L) {es : List Ev} (hes : ∀ e ∈ es, e.neutral = true)
    (hlog : L'.log = L.log ++ es) (hid : L.next_id ≤ L'.next_id)
    (hearly : L'.conn = .op ∨ L'.conn = .enumerating → L.conn = .op ∨ L.conn = .enumerating)
    (hlink : L'.conn ≠ .none → L.conn ≠ .none ∧ clients L'.pending = clients L.pending) :
    LogInv L' := by
  refine ⟨?_, ?_, ?_, fun he i n k hs => ?_, fun hc => ?_⟩
  · rw [hlog]
    exact hl.ok.append hes
  · intro a n k ha
    rw [hlog, submit_mem_append hes] at ha
    exact Nat.lt_of_lt_of_le (hl.submit_lt a n k ha) hid
  · intro a ha
    rw [hlog, answers_append, answers_neutral hes, Nat.add_zero] at ha
    exact Nat.lt_of_lt_of_le (hl.answer_lt a ha) hid
  · rw [hlog, submit_mem_append hes] at hs
    exact hl.early (hearly he) i n k hs
  · obtain ⟨hc', hcl⟩ := hlink hc
    rw [hlog]
    exact ((hl.linked hc').append hes).of_clients hcl

theorem accept_log (hl : LogInv L) (hc : L.conn = .attached) (hc' : L'.conn = .attached)
    (hcl : i.internal = false) (hid : i.id = L.next_id) (hp : L'.pending = i ::ₘ L.pending)
    (hlog : L'.log = L.log ++ [.submit i.id i.seqnum i.key]) (hnext : L'.next_id = L.next_id + 1) :
    LogInv L' := by
  have hnew : ∀ n k, .submit i.id n k ∉ L.log := by
    intro n k hmem
    have := hl.submit_lt _ n k hmem
    omega
  have hans : answers L.log i.id = 0 := by
    by_contra hne
    have := hl.answer_lt _ hne
    omega
  refine ⟨?_, ?_, ?_, fun he => ?_, fun _ => ?_⟩
  · rw [hlog]
    exact hl.ok.snoc ⟨hnew, hans⟩
  · intro a n k ha
    rw [hlog, List.mem_append, List.mem_singleton, Ev.submit.injEq] at ha
    rw [hnext]
    rcases ha with ha | ⟨rfl, _, _⟩
    · exact Nat.lt_succ_of_lt (hl.submit_lt a n k ha)
    · omega
  · intro a ha
    rw [hnext]
    rw [hlog, answers_append] at ha
    exact Nat.lt_succ_of_lt (hl.answer_lt a ha)
  · rw [hc'] at he
    rcases he with he | he <;> exact absurd he (by decide)
  · rw [hp, hlog]
    exact (hl.linked (by rw [hc]; decide)).accept hcl hnew hans

/-- **Every step of the ledger keeps the log right.** -/
theorem step_log (h : Inv L) (hl : LogInv L) (hstep : Step L L') : LogInv L' := by
  have hd := h.distinct
  have h' := step_inv h hstep
  have hnil : ∀ e ∈ ([] : List Ev), e.neutral = true := by simp
  cases hstep with
  | quiet es hes => exact hl.neutral hes rfl (Nat.le_refl _) id fun hc => ⟨hc, rfl⟩
  -- The moves between lists and hands log nothing and leave `pending` as it was.
  | lift u us hu =>
    have hmem : u ∈ L.lanes.inflight :=
      (Lanes.mem_flying.mp (show u ∈ L.lanes.flying _ by rw [hu]; simp)).1
    refine hl.neutral hnil (by simp) (Nat.le_refl _) id fun hc => ⟨hc, ?_⟩
    simp only [pending, Lanes.off_listed h.wf hd hmem, Multiset.cons_add, Multiset.add_cons]
  | hold l es _ hlist hes =>
    refine hl.neutral hes rfl (Nat.le_refl _) id fun hc => ⟨hc, ?_⟩
    simp only [pending, hlist]
  | fly u m hcar hst hep hq =>
    have hk : usbip_urb_key u < usbip_num_keys :=
      h.key_lt (ident u) (by rw [pending, hcar]; simp)
    refine hl.neutral hnil (by simp) (Nat.le_refl _) id fun hc => ⟨hc, ?_⟩
    simp only [pending, hcar, Lanes.on_listed hk, Multiset.cons_add, Multiset.add_cons]
  | wait u m us hcar hst hperm =>
    have hk : usbip_urb_key u < usbip_num_keys :=
      h.key_lt (ident u) (by rw [pending, hcar]; simp)
    refine hl.neutral hnil (by simp) (Nat.le_refl _) id fun hc => ⟨hc, ?_⟩
    simp only [pending, hcar, Lanes.set_waiting_listed hk hperm, Lanes.set_waiting_waiting,
      Multiset.cons_add, Multiset.add_cons]
  | take u us hu =>
    have hk := Lanes.Has.key_lt (.inr (show u ∈ L.lanes.waiting _ by rw [hu]; simp)) h.wf
    refine hl.neutral hnil (by simp) (Nat.le_refl _) id fun hc => ⟨hc, ?_⟩
    have hlist := Lanes.set_waiting_listed (l := L.lanes) hk (List.Perm.of_eq hu)
    rw [Lanes.set_waiting_waiting] at hlist
    simp only [pending, Multiset.cons_add]
    rw [hlist, Multiset.add_cons]
  | accept i hcl hid hk hc hn hb =>
    refine accept_log hl hc hc hcl hid ?_ rfl rfl
    simp only [pending, Multiset.cons_add]
  -- A reply closes the one open submission that its URB stands for.
  | answer i m hcar hcl =>
    have hmem : i ∈ L.pending := by rw [pending, hcar]; simp
    obtain ⟨hs, hz⟩ := hl.of_pending h hmem hcl
    obtain ⟨n, b, hf⟩ :=
      free_eq { L with carried := m, log := L.log ++ [.ret_submit i.id i.seqnum] } i
    rw [hf]
    refine hl.gone h ?_ hcl rfl rfl rfl (fun _ => rfl) (by simp) ⟨⟨_, hs⟩, hz⟩
    simp only [pending, hcar, Multiset.cons_add]
  | unlink u l seqnum hu hcl =>
    have hmem : ident u ∈ L.pending := by rw [pending, hu.listed]; simp
    obtain ⟨hs, hz⟩ := hl.of_pending h hmem hcl
    obtain ⟨n, b, hf⟩ := free_eq { L with
      lanes := l
      log := L.log ++ [.ret_unlink seqnum u.seqnum (-usbip_econnreset) (some u.id)] } (ident u)
    rw [hf]
    refine hl.gone h (i := ident u) ?_ hcl rfl rfl rfl (fun _ => rfl) (by simp) ⟨rfl, ⟨_, hs⟩, hz⟩
    simp only [pending, hu.listed, Multiset.add_cons]
  -- Nothing pending has the number, so no open submission does either.
  | unlink_none seqnum victim hc hv =>
    refine ⟨hl.ok.snoc ⟨rfl, ?_⟩, ?_, ?_, fun he i n k hs => ?_, fun _ => ?_⟩
    · intro i k hs hz
      obtain ⟨j, hj, _, hjv, _⟩ := (hl.linked hc i victim k).mp ⟨hs, hz⟩
      exact hv j hj hjv
    · intro i n k hs
      rw [List.mem_append, List.mem_singleton, or_iff_left (by simp)] at hs
      exact hl.submit_lt i n k hs
    · intro i hi
      rw [answers_append] at hi
      exact hl.answer_lt i hi
    · rw [List.mem_append, List.mem_singleton, or_iff_left (by simp)] at hs
      exact hl.early he i n k hs
    · intro i n k
      rw [answers_append, List.mem_append, List.mem_singleton, or_iff_left (by simp)]
      exact hl.linked hc i n k
  | begin hc hs =>
    exact hl.neutral hnil (by simp) (Nat.le_refl _) (fun _ => .inl hc)
      fun _ => ⟨by rw [hc]; decide, rfl⟩
  | issue i n hs hint hnp hk hid =>
    refine hl.neutral hnil (by simp) (Nat.le_succ _) id fun hc => ⟨hc, ?_⟩
    simp only [pending, Multiset.cons_add, clients_cons_internal hint]
  | enum_next i m hcar hint =>
    refine hl.neutral hnil (by simp) (Nat.le_refl _) id fun hc => ⟨hc, ?_⟩
    simp only [pending, hcar, Multiset.cons_add, clients_cons_internal hint]
  | enum_end i m conn e hcar hint hc he =>
    have hen := (h.only hcar hint).1
    have hes : ∀ e' ∈ [e], e'.neutral = true := by simpa using he
    refine hl.neutral hes rfl (Nat.le_refl _) (fun _ => .inr hen) fun _ => ⟨by rw [hen]; decide, ?_⟩
    simp only [pending, hcar, Multiset.cons_add, clients_cons_internal hint]
  | close _ es hs hc hlog hes =>
    refine hl.neutral hes hlog hs.next_id (fun he => ?_) fun hc' => absurd hc hc'
    rcases he with he | he <;> exact absurd (hc.symm.trans he) (by decide)
  -- A new client starts a log of its own, with nothing pending behind it.
  | reopen _ hs hc hlog =>
    have hp : L'.pending = 0 := by rw [pending, hs.carried', hs.listed, add_zero]
    refine ⟨?_, ?_, ?_, ?_, fun _ => ?_⟩
    · rw [hlog]
      exact logOk_nil
    · simp [hlog]
    · simp [hlog, answers]
    · simp [hlog]
    · rw [hlog, hp]
      intro i n k
      simp

end Ledger
end Usbip
