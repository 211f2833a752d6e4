import RpiQemu.Framework.Keyed
import RpiQemu.Usbip.Refine

/-! # The URB lists

    What the server keeps of its URBs: the inflight list, the waiting list of
    each key, and the packet queue the core keeps for each endpoint.  The part
    of the inflight list that belongs to one key, with its waiting list, is that
    key's line.

    `Lanes.Wf` is what holds of the lists at every moment, also in the middle of
    a call.  Each operation is described by what it does to the lines and to the
    bag of all listed URBs. -/

namespace Usbip

open Keyed

/-! ## Lines -/

structure Lanes where
  inflight : List USBIPURB
  waiting : Nat → List USBIPURB
  queue : Nat → List Nat

def Server.lanes (s : Server) : Lanes :=
  { inflight := s.inflight, waiting := s.waiting, queue := fun k => (s.eps k).queue }

namespace Lanes

/-- The inflight URBs of a key, in inflight order. -/
def flying (l : Lanes) (k : Nat) : List USBIPURB := l.inflight.filter (usbip_urb_key · == k)

/-- All URBs of a key: those in flight, then those waiting. -/
def line (l : Lanes) (k : Nat) : List USBIPURB := l.flying k ++ l.waiting k

end Lanes

/-- What of an URB no call changes. -/
structure Ident where
  id : Nat
  seqnum : Nat
  key : Nat
  internal : Bool
  np : Nat
  len : Nat
  deriving DecidableEq

def ident (u : USBIPURB) : Ident :=
  { id := u.id, seqnum := u.seqnum, key := usbip_urb_key u, internal := u.internal,
    np := u.number_of_packets, len := u.len }

theorem Same.ident {u v : USBIPURB} (h : Same u v) : ident v = ident u := by
  simp [Usbip.ident, h.id, h.seqnum, h.key, h.internal, h.np, h.len]

theorem ident_id {u v : USBIPURB} (h : ident v = ident u) : v.id = u.id :=
  congrArg Ident.id h

theorem ident_key {u v : USBIPURB} (h : ident v = ident u) : usbip_urb_key v = usbip_urb_key u :=
  congrArg Ident.key h

namespace Lanes

/-- Every listed URB. -/
def listed (l : Lanes) : Multiset Ident :=
  bag usbip_num_keys fun k => ((l.line k).map ident : Multiset Ident)

/-! ## Well-formed lists -/

/-- An inflight URB agrees with its packet and its endpoint's queue, only the
    first packet of a queue can be ASYNC, and a waiting URB is on its own list. -/
structure Wf (l : Lanes) : Prop where
  flying_lt : ∀ u ∈ l.inflight, usbip_urb_key u < usbip_num_keys
  waiting_lt : ∀ k, usbip_num_keys ≤ k → l.waiting k = []
  flying_state : ∀ u ∈ l.inflight, u.state = .inflight ∧ u.packet.ep = usbip_urb_key u
  queue_eq : ∀ k, l.queue k = (l.flying k).map (·.id)
  waiting_state : ∀ k, ∀ u ∈ l.waiting k, usbip_urb_key u = k ∧ u.state = .waiting
  tail_queued : ∀ k, ∀ u ∈ (l.flying k).tail, u.packet.state = .queued

/-- No identity is listed twice. -/
def Distinct (l : Lanes) : Prop := (l.listed.map Ident.id).Nodup

variable {l l' : Lanes} {u v : USBIPURB} {k : Nat}

theorem mem_flying : u ∈ l.flying k ↔ u ∈ l.inflight ∧ usbip_urb_key u = k := by
  simp [flying]

theorem bag_flying (us : List USBIPURB) (h : ∀ u ∈ us, usbip_urb_key u < usbip_num_keys) :
    bag usbip_num_keys (fun k => ((us.filter (usbip_urb_key · == k)).map ident : Multiset Ident)) =
      (us.map ident : Multiset Ident) := by
  induction us with
  | nil => simp [bag]
  | cons u us ih =>
    have hu := h u (List.mem_cons_self ..)
    rw [List.map_cons, ← Multiset.cons_coe, ← ih fun v hv => h v (List.mem_cons_of_mem _ hv)]
    refine bag_cons hu ?_ ?_
    · intro j hj
      rw [List.filter_cons_of_neg (by simpa using fun h => hj h.symm)]
    · rw [List.filter_cons_of_pos (by simp), List.map_cons, Multiset.cons_coe]

/-- The bag of all listed URBs, list by list. -/
theorem listed_eq (h : l.Wf) : l.listed =
    (l.inflight.map ident : Multiset Ident) +
      bag usbip_num_keys fun k => ((l.waiting k).map ident : Multiset Ident) := by
  rw [← bag_flying l.inflight h.flying_lt]
  unfold listed bag line flying
  rw [← Finset.sum_add_distrib]
  refine Finset.sum_congr rfl fun k _ => ?_
  show (List.map ident (_ ++ _) : Multiset Ident) = _
  rw [List.map_append, ← Multiset.coe_add]

theorem inflight_nodup (h : l.Wf) (hd : l.Distinct) : (l.inflight.map (·.id)).Nodup := by
  unfold Distinct at hd
  rw [listed_eq h, Multiset.map_add] at hd
  have hle := (Multiset.nodup_add.mp hd).1
  rwa [Multiset.map_coe, List.map_map, Multiset.coe_nodup] at hle

theorem line_nodup (hd : l.Distinct) (hk : k < usbip_num_keys) : ((l.line k).map (·.id)).Nodup := by
  have hle : ((l.line k).map ident : Multiset Ident) ≤ l.listed :=
    le_bag hk fun k => ((l.line k).map ident : Multiset Ident)
  have hn := Multiset.nodup_of_le (Multiset.map_le_map hle) hd
  rwa [Multiset.map_coe, List.map_map, Multiset.coe_nodup] at hn

theorem flying_nodup (h : l.Wf) (hd : l.Distinct) (k : Nat) : ((l.flying k).map (·.id)).Nodup :=
  (inflight_nodup h hd).sublist (List.Sublist.map _ List.filter_sublist)

theorem waiting_nodup (h : l.Wf) (hd : l.Distinct) (k : Nat) :
    ((l.waiting k).map (·.id)).Nodup := by
  by_cases hk : k < usbip_num_keys
  · exact (line_nodup hd hk).sublist (List.Sublist.map _ (List.sublist_append_right _ _))
  · rw [h.waiting_lt k (Nat.not_lt.mp hk)]
    exact List.nodup_nil

/-- A change of one line that drops one identity drops it from the bag. -/
theorem listed_of_line_cons (hk : k < usbip_num_keys) (hj : ∀ j, j ≠ k → l'.line j = l.line j)
    {i : Ident} (hp : ((l.line k).map ident).Perm (i :: (l'.line k).map ident)) :
    l.listed = i ::ₘ l'.listed :=
  bag_cons hk (fun j hne => by simp only [hj j hne])
    (by rw [Multiset.cons_coe]; exact Multiset.coe_eq_coe.mpr hp)

/-! ## Operations -/

/-- An URB leaves the inflight list and its endpoint's queue. -/
def off (l : Lanes) (u : USBIPURB) : Lanes :=
  { l with
    inflight := remove l.inflight u.id
    queue := Function.update l.queue (usbip_urb_key u) ((l.queue (usbip_urb_key u)).erase u.id) }

/-- An URB joins the inflight list and its endpoint's queue. -/
def on (l : Lanes) (u : USBIPURB) : Lanes :=
  { l with
    inflight := l.inflight ++ [u]
    queue := Function.update l.queue (usbip_urb_key u) (l.queue (usbip_urb_key u) ++ [u.id]) }

def set_waiting (l : Lanes) (k : Nat) (us : List USBIPURB) : Lanes :=
  { l with waiting := Function.update l.waiting k us }

@[simp] theorem set_waiting_flying (us : List USBIPURB) (j : Nat) :
    (l.set_waiting k us).flying j = l.flying j := rfl

@[simp] theorem set_waiting_self (us : List USBIPURB) : (l.set_waiting k us).waiting k = us := by
  simp [set_waiting]

/-- Setting what is there. -/
@[simp] theorem set_waiting_waiting (k : Nat) : l.set_waiting k (l.waiting k) = l := by
  rw [set_waiting, Function.update_eq_self]

theorem set_waiting_ne (us : List USBIPURB) {j : Nat} (h : j ≠ k) :
    (l.set_waiting k us).waiting j = l.waiting j := by
  simp [set_waiting, h]

@[simp] theorem off_waiting : (l.off u).waiting = l.waiting := rfl

@[simp] theorem on_waiting : (l.on u).waiting = l.waiting := rfl

/-- Replacing a waiting list by URBs of the same key. -/
theorem set_waiting_wf (h : l.Wf) (hk : k < usbip_num_keys) {us : List USBIPURB}
    (hus : ∀ u ∈ us, usbip_urb_key u = k ∧ u.state = .waiting) : (l.set_waiting k us).Wf where
  flying_lt := h.flying_lt
  waiting_lt j hj := by
    rw [set_waiting_ne us (by omega)]
    exact h.waiting_lt j hj
  flying_state := h.flying_state
  queue_eq := h.queue_eq
  waiting_state j u hu := by
    by_cases hjk : j = k
    · subst hjk
      rw [set_waiting_self] at hu
      exact hus u hu
    · rw [set_waiting_ne us hjk] at hu
      exact h.waiting_state j u hu
  tail_queued := h.tail_queued

theorem set_waiting_line_ne (us : List USBIPURB) {j : Nat} (h : j ≠ k) :
    (l.set_waiting k us).line j = l.line j := by
  simp [line, set_waiting_ne us h]

theorem off_inflight (h : l.Wf) (hd : l.Distinct) :
    (l.off u).inflight = l.inflight.filter (·.id != u.id) :=
  eraseP_eq_filter (inflight_nodup h hd) u.id

theorem off_flying (h : l.Wf) (hd : l.Distinct) (j : Nat) :
    (l.off u).flying j = (l.flying j).filter (·.id != u.id) := by
  unfold flying
  rw [off_inflight h hd, List.filter_comm]

/-- The other keys keep their inflight URBs. -/
theorem off_flying_ne (h : l.Wf) (hd : l.Distinct) (hu : u ∈ l.inflight) {j : Nat}
    (hj : j ≠ usbip_urb_key u) : (l.off u).flying j = l.flying j := by
  rw [off_flying h hd, List.filter_eq_self]
  intro v hv
  obtain ⟨hv, hvk⟩ := mem_flying.mp hv
  simp only [bne_iff_ne, ne_eq]
  intro hid
  have heq := eq_of_mem_of_map_nodup (inflight_nodup h hd) hv hu hid
  exact hj (by rw [← hvk, heq])

theorem off_flying_head (h : l.Wf) (hd : l.Distinct) {us : List USBIPURB}
    (hu : l.flying (usbip_urb_key u) = u :: us) : (l.off u).flying (usbip_urb_key u) = us := by
  have hn := flying_nodup h hd (usbip_urb_key u)
  rw [hu, List.map_cons, List.nodup_cons] at hn
  rw [off_flying h hd, hu, List.filter_cons_of_neg (by simp), List.filter_eq_self]
  intro v hv
  simp only [bne_iff_ne, ne_eq]
  exact fun hid => hn.1 (List.mem_map.mpr ⟨v, hv, hid⟩)

theorem off_flying_last (h : l.Wf) (hd : l.Distinct) {us : List USBIPURB}
    (hu : l.flying (usbip_urb_key u) = us ++ [u]) : (l.off u).flying (usbip_urb_key u) = us := by
  have hn := flying_nodup h hd (usbip_urb_key u)
  rw [hu, List.map_append, List.nodup_append] at hn
  rw [off_flying h hd, hu, List.filter_append, List.filter_cons_of_neg (by simp),
    List.filter_nil, List.append_nil, List.filter_eq_self]
  intro v hv
  simp only [bne_iff_ne, ne_eq]
  exact hn.2.2 _ (List.mem_map.mpr ⟨v, hv, rfl⟩) _ (by simp)

theorem off_wf (h : l.Wf) (hd : l.Distinct) (hu : u ∈ l.inflight) : (l.off u).Wf where
  flying_lt v hv := h.flying_lt v (List.mem_of_mem_eraseP hv)
  waiting_lt := h.waiting_lt
  flying_state v hv := h.flying_state v (List.mem_of_mem_eraseP hv)
  queue_eq j := by
    by_cases hj : j = usbip_urb_key u
    · subst hj
      have hn := flying_nodup h hd (usbip_urb_key u)
      rw [off_flying h hd]
      simp only [off, Function.update_self, h.queue_eq]
      rw [hn.erase_eq_filter, List.filter_map]
      rfl
    · rw [off_flying_ne h hd hu hj]
      simp only [off, Function.update_of_ne hj, h.queue_eq]
  waiting_state := h.waiting_state
  tail_queued j v hv := by
    refine h.tail_queued j v (List.Sublist.mem hv (List.Sublist.tail ?_))
    rw [off_flying h hd]
    exact List.filter_sublist

theorem off_listed (h : l.Wf) (hd : l.Distinct) (hu : u ∈ l.inflight) :
    l.listed = ident u ::ₘ (l.off u).listed := by
  refine listed_of_line_cons (h.flying_lt u hu) ?_ ?_
  · intro j hj
    simp only [line, off_flying_ne h hd hu hj, off_waiting]
  · have hmem : u ∈ l.flying (usbip_urb_key u) := mem_flying.mpr ⟨hu, rfl⟩
    have hperm := perm_cons_eraseP (flying_nodup h hd _) hmem
    rw [eraseP_eq_filter (flying_nodup h hd _), ← off_flying h hd] at hperm
    exact (hperm.append_right (l.waiting (usbip_urb_key u))).map ident

theorem off_distinct (h : l.Wf) (hd : l.Distinct) (hu : u ∈ l.inflight) : (l.off u).Distinct := by
  unfold Distinct at hd
  rw [off_listed h hd hu, Multiset.map_cons] at hd
  exact (Multiset.nodup_cons.mp hd).2

theorem on_flying_self : (l.on u).flying (usbip_urb_key u) = l.flying (usbip_urb_key u) ++ [u] := by
  simp [flying, on]

theorem on_flying_ne {j : Nat} (hj : j ≠ usbip_urb_key u) : (l.on u).flying j = l.flying j := by
  simp [flying, on, Ne.symm hj]

/-- A packet that joins a queue that is not empty is QUEUED. -/
theorem on_wf (h : l.Wf) (hk : usbip_urb_key u < usbip_num_keys) (hst : u.state = .inflight)
    (hep : u.packet.ep = usbip_urb_key u)
    (hq : l.flying (usbip_urb_key u) ≠ [] → u.packet.state = .queued) : (l.on u).Wf where
  flying_lt v hv := by
    rcases List.mem_append.mp hv with hv | hv
    · exact h.flying_lt v hv
    · rw [List.mem_singleton.mp hv]
      exact hk
  waiting_lt := h.waiting_lt
  flying_state v hv := by
    rcases List.mem_append.mp hv with hv | hv
    · exact h.flying_state v hv
    · rw [List.mem_singleton.mp hv]
      exact ⟨hst, hep⟩
  queue_eq j := by
    by_cases hj : j = usbip_urb_key u
    · subst hj
      rw [on_flying_self]
      simp [on, h.queue_eq]
    · rw [on_flying_ne hj]
      simp [on, hj, h.queue_eq]
  waiting_state := h.waiting_state
  tail_queued j v hv := by
    by_cases hj : j = usbip_urb_key u
    · subst hj
      rw [on_flying_self] at hv
      cases hfl : l.flying (usbip_urb_key u) with
      | nil =>
        rw [hfl] at hv
        simp at hv
      | cons w ws =>
        rw [hfl, List.cons_append, List.tail_cons] at hv
        rcases List.mem_append.mp hv with hv | hv
        · exact h.tail_queued _ v (by rw [hfl]; exact hv)
        · rw [List.mem_singleton.mp hv]
          exact hq (by rw [hfl]; simp)
    · rw [on_flying_ne hj] at hv
      exact h.tail_queued j v hv

theorem on_listed (hk : usbip_urb_key u < usbip_num_keys) :
    (l.on u).listed = ident u ::ₘ l.listed := by
  refine listed_of_line_cons hk ?_ ?_
  · intro j hj
    simp only [line, on_flying_ne hj, on_waiting]
  · rw [line, on_flying_self, on_waiting, List.append_assoc, List.singleton_append]
    exact List.perm_middle.map ident

/-- Two waiting lists that differ by one URB. -/
theorem set_waiting_listed (hk : k < usbip_num_keys) {us vs : List USBIPURB}
    (hp : us.Perm (u :: vs)) :
    (l.set_waiting k us).listed = ident u ::ₘ (l.set_waiting k vs).listed := by
  have hline : ∀ ws, (l.set_waiting k ws).line k = l.flying k ++ ws := by
    intro ws
    simp [line]
  refine listed_of_line_cons hk ?_ ?_
  · intro j hj
    rw [set_waiting_line_ne us hj, set_waiting_line_ne vs hj]
  · rw [hline, hline]
    exact ((hp.append_left (l.flying k)).trans List.perm_middle).map ident

/-! ## Handing packets back

    The halt path and `usbip_requeue_behind` both move URBs from the inflight
    list to their waiting list, at its end and at its head. -/

/-- The URB as it waits again: the same, with its packet cancelled. -/
structure Back (f : USBIPURB → USBIPURB) : Prop where
  ident : ∀ u, ident (f u) = ident u
  state : ∀ u, (f u).state = .waiting

variable {f : USBIPURB → USBIPURB}

def to_tail (l : Lanes) (f : USBIPURB → USBIPURB) (u : USBIPURB) : Lanes :=
  (l.off u).set_waiting (usbip_urb_key u) (l.waiting (usbip_urb_key u) ++ [f u])

def to_head (l : Lanes) (f : USBIPURB → USBIPURB) (u : USBIPURB) : Lanes :=
  (l.off u).set_waiting (usbip_urb_key u) (f u :: l.waiting (usbip_urb_key u))

/-- What handing back the URBs `us` of key `k` leaves: nothing of the key in
    flight, and the other keys as they were. -/
structure HandedBack (k : Nat) (ws : List USBIPURB) (l l' : Lanes) : Prop where
  wf : l'.Wf
  distinct : l'.Distinct
  listed : l'.listed = l.listed
  flying : l'.flying k = []
  waiting : l'.waiting k = ws
  flying_ne : ∀ j, j ≠ k → l'.flying j = l.flying j
  waiting_ne : ∀ j, j ≠ k → l'.waiting j = l.waiting j

theorem moved_wf (h : l.Wf) (hd : l.Distinct) (hu : u ∈ l.inflight) (hf : Back f)
    {ws : List USBIPURB} (hws : ws.Perm (f u :: l.waiting (usbip_urb_key u))) :
    ((l.off u).set_waiting (usbip_urb_key u) ws).Wf ∧
      ((l.off u).set_waiting (usbip_urb_key u) ws).listed = l.listed := by
  have hk := h.flying_lt u hu
  refine ⟨set_waiting_wf (off_wf h hd hu) hk ?_, ?_⟩
  · intro v hv
    rcases List.mem_cons.mp (hws.mem_iff.mp hv) with rfl | hv
    · exact ⟨ident_key (hf.ident u), hf.state u⟩
    · exact h.waiting_state _ v hv
  · have hlist : ((l.off u).set_waiting (usbip_urb_key u) ws).listed =
        ident (f u) ::ₘ (l.off u).listed := by
      rw [set_waiting_listed hk hws, ← off_waiting, set_waiting_waiting]
    rw [off_listed h hd hu, hlist, hf.ident]

theorem to_tail_wf (h : l.Wf) (hd : l.Distinct) (hu : u ∈ l.inflight) (hf : Back f) :
    (l.to_tail f u).Wf ∧ (l.to_tail f u).listed = l.listed :=
  moved_wf h hd hu hf (List.perm_append_singleton _ _)

theorem to_head_wf (h : l.Wf) (hd : l.Distinct) (hu : u ∈ l.inflight) (hf : Back f) :
    (l.to_head f u).Wf ∧ (l.to_head f u).listed = l.listed :=
  moved_wf h hd hu hf (List.Perm.refl _)

theorem distinct_of_listed (hd : l.Distinct) (h : l'.listed = l.listed) : l'.Distinct := by
  unfold Distinct at *
  rwa [h]

/-- Handing back a whole queue from its front, each URB to the end. -/
theorem to_tail_all (hf : Back f) (us : List USBIPURB) (l : Lanes) (h : l.Wf) (hd : l.Distinct)
    (hus : l.flying k = us) :
    HandedBack k (l.waiting k ++ us.map f) l (us.foldl (fun l u => l.to_tail f u) l) := by
  induction us generalizing l with
  | nil =>
    exact ⟨h, hd, rfl, hus, by simp, fun _ _ => rfl, fun _ _ => rfl⟩
  | cons u us ih =>
    obtain ⟨hu, rfl⟩ := mem_flying.mp (show u ∈ l.flying k by rw [hus]; simp)
    obtain ⟨hwf, hlist⟩ := to_tail_wf h hd hu hf
    have hrest := ih (l.to_tail f u) hwf (distinct_of_listed hd hlist)
      (by rw [to_tail, set_waiting_flying, off_flying_head h hd hus])
    refine ⟨hrest.wf, hrest.distinct, hrest.listed.trans hlist, hrest.flying, ?_, ?_, ?_⟩
    · rw [List.foldl_cons, hrest.waiting, to_tail, set_waiting_self, List.map_cons,
        List.append_assoc, List.singleton_append]
    · intro j hj
      rw [List.foldl_cons, hrest.flying_ne j hj, to_tail, set_waiting_flying,
        off_flying_ne h hd hu hj]
    · intro j hj
      rw [List.foldl_cons, hrest.waiting_ne j hj, to_tail, set_waiting_ne _ hj, off_waiting]

/-- Handing back a whole queue from its end, each URB to the head. -/
theorem to_head_all (hf : Back f) (us : List USBIPURB) (l : Lanes) (h : l.Wf) (hd : l.Distinct)
    (hus : l.flying k = us.reverse) :
    HandedBack k (us.reverse.map f ++ l.waiting k) l (us.foldl (fun l u => l.to_head f u) l) := by
  induction us generalizing l with
  | nil =>
    exact ⟨h, hd, rfl, hus, by simp, fun _ _ => rfl, fun _ _ => rfl⟩
  | cons u us ih =>
    obtain ⟨hu, rfl⟩ := mem_flying.mp (show u ∈ l.flying k by rw [hus]; simp)
    obtain ⟨hwf, hlist⟩ := to_head_wf h hd hu hf
    rw [List.reverse_cons] at hus
    have hrest := ih (l.to_head f u) hwf (distinct_of_listed hd hlist)
      (by rw [to_head, set_waiting_flying, off_flying_last h hd hus])
    refine ⟨hrest.wf, hrest.distinct, hrest.listed.trans hlist, hrest.flying, ?_, ?_, ?_⟩
    · rw [List.foldl_cons, hrest.waiting, to_head, set_waiting_self]
      simp
    · intro j hj
      rw [List.foldl_cons, hrest.flying_ne j hj, to_head, set_waiting_flying,
        off_flying_ne h hd hu hj]
    · intro j hj
      rw [List.foldl_cons, hrest.waiting_ne j hj, to_head, set_waiting_ne _ hj, off_waiting]

end Lanes

/-! ## The server's operations on its lists -/

open Lanes

theorem cancel_lanes (s : Server) (u : USBIPURB) (hep : u.packet.ep = usbip_urb_key u) :
    (usb_cancel_packet { s with inflight := remove s.inflight u.id } u).lanes = s.lanes.off u := by
  unfold usb_cancel_packet Server.lanes Lanes.off
  simp only [Server.set_ep, hep, Lanes.mk.injEq, true_and]
  funext k
  by_cases hk : k = usbip_urb_key u
  · subst hk
    simp
  · simp [hk]

theorem packet_done_lanes (s : Server) (u : USBIPURB) (r : Resp)
    (hep : u.packet.ep = usbip_urb_key u) :
    ((usb_packet_done s u r).1.take_off u.id).lanes = s.lanes.off u := by
  have hid : ((u.answer r).set_packet_state .complete).id = u.id :=
    ((same_answer u r).trans (same_set_packet_state _ _)).id
  unfold usb_packet_done Server.take_off Server.lanes Lanes.off
  simp only [Server.set_ep, hep, hid, Lanes.mk.injEq, true_and]
  funext k
  by_cases hk : k = usbip_urb_key u
  · subst hk
    simp
  · simp [hk]

theorem set_waiting_lanes (s : Server) (k : Nat) (us : List USBIPURB) :
    (s.set_waiting k us).lanes = s.lanes.set_waiting k us := rfl

/-- The URB as the halt path puts it back. -/
def flushed (u : USBIPURB) : USBIPURB :=
  { { u with
      packet := { u.packet with status := .remove_from_queue } }.set_packet_state .canceled with
    state := .waiting }

theorem back_flushed : Back flushed := ⟨fun _ => rfl, fun _ => rfl⟩

/-- The URB as `usbip_requeue_behind` puts it back. -/
def requeued (u : USBIPURB) : USBIPURB := { u.set_packet_state .canceled with state := .waiting }

theorem back_requeued : Back requeued := ⟨fun _ => rfl, fun _ => rfl⟩

theorem remove_from_queue_lanes (s : Server) (u : USBIPURB) (hep : u.packet.ep = usbip_urb_key u) :
    (usbip_port_remove_from_queue s
      { u with packet := { u.packet with status := .remove_from_queue } }).lanes =
      s.lanes.to_tail flushed u := by
  have h := cancel_lanes s { u with packet := { u.packet with status := .remove_from_queue } } hep
  unfold usbip_port_remove_from_queue
  dsimp only
  rw [show ∀ t : Server, ({ t with retry_bh := true } : Server).lanes = t.lanes from fun _ => rfl,
    set_waiting_lanes, h]
  rfl

theorem requeue_one_lanes (s : Server) (u : USBIPURB) (hep : u.packet.ep = usbip_urb_key u) :
    (usbip_requeue_one s u).lanes = s.lanes.to_head requeued u := by
  unfold usbip_requeue_one
  dsimp only
  rw [set_waiting_lanes, cancel_lanes s u hep]
  rfl

theorem flush_all_lanes (k : Nat) (us : List USBIPURB) (s : Server) (h : s.lanes.Wf)
    (hd : s.lanes.Distinct) (hus : s.lanes.flying k = us) :
    let s' := (us.map (·.id)).foldl (usb_ep_flush_one hold_env) s
    s'.lanes = us.foldl (fun l u => l.to_tail flushed u) s.lanes ∧
      (us ≠ [] ∨ s.retry_bh = true → s'.retry_bh = true) := by
  induction us generalizing s with
  | nil => exact ⟨rfl, fun h => h.resolve_left fun h => h rfl⟩
  | cons u us ih =>
    obtain ⟨hu, hk⟩ := mem_flying.mp (show u ∈ s.lanes.flying k by rw [hus]; simp)
    have hfind : s.inflight.find? (·.id == u.id) = some u :=
      find?_of_mem (inflight_nodup h hd) hu
    have hdef : usb_ep_flush_one hold_env s u.id = usbip_port_remove_from_queue s
        { u with packet := { u.packet with status := .remove_from_queue } } := by
      rw [usb_ep_flush_one, hfind]
      rfl
    have hone := remove_from_queue_lanes s u (h.flying_state u hu).2
    rw [← hdef] at hone
    obtain ⟨hwf, hlist⟩ := to_tail_wf h hd hu back_flushed
    rw [← hone] at hwf hlist
    have hbh : (usb_ep_flush_one hold_env s u.id).retry_bh = true := by
      rw [hdef]
      rfl
    have hrest := ih _ hwf (distinct_of_listed hd hlist) (by
      subst hk
      rw [hone, to_tail, set_waiting_flying, off_flying_head h hd hus])
    simp only [List.map_cons, List.foldl_cons]
    refine ⟨?_, fun _ => hrest.2 (.inr hbh)⟩
    rw [← hone]
    exact hrest.1

/-- **A halt hands the whole queue of an endpoint back, in order, to the end of
    its waiting list.** -/
theorem ep_flush_lanes (s : Server) (k : Nat) (h : s.lanes.Wf) (hd : s.lanes.Distinct) :
    HandedBack k (s.waiting k ++ (s.lanes.flying k).map flushed) s.lanes
        (usb_ep_flush hold_env s k).lanes ∧
      (s.lanes.flying k ≠ [] → (usb_ep_flush hold_env s k).retry_bh = true) := by
  have hq : (s.eps k).queue = (s.lanes.flying k).map (·.id) := h.queue_eq k
  have hfold := flush_all_lanes k _ s h hd rfl
  rw [← hq] at hfold
  refine ⟨?_, fun hne => hfold.2 (.inl hne)⟩
  rw [usb_ep_flush, hfold.1]
  exact to_tail_all back_flushed _ s.lanes h hd rfl

theorem requeue_all_lanes (k : Nat) (us : List USBIPURB) (s : Server) (h : s.lanes.Wf)
    (hd : s.lanes.Distinct) (hus : s.lanes.flying k = us.reverse) :
    (us.foldl usbip_requeue_one s).lanes =
      us.foldl (fun l u => l.to_head requeued u) s.lanes := by
  induction us generalizing s with
  | nil => rfl
  | cons u us ih =>
    obtain ⟨hu, hk⟩ := mem_flying.mp (show u ∈ s.lanes.flying k by rw [hus]; simp)
    have hone := requeue_one_lanes s u (h.flying_state u hu).2
    obtain ⟨hwf, hlist⟩ := to_head_wf h hd hu back_requeued
    rw [← hone] at hwf hlist
    rw [List.reverse_cons] at hus
    have hrest := ih _ hwf (distinct_of_listed hd hlist) (by
      subst hk
      rw [hone, to_head, set_waiting_flying, off_flying_last h hd hus])
    rw [List.foldl_cons, hrest, List.foldl_cons, hone]

/-- **When every packet left on an endpoint is QUEUED, `usbip_requeue_behind`
    takes them all back, in order, ahead of anything waiting.** -/
theorem requeue_behind_lanes (s : Server) (k : Nat) (h : s.lanes.Wf) (hd : s.lanes.Distinct)
    (hq : ∀ u ∈ s.lanes.flying k, u.packet.state = .queued) :
    HandedBack k ((s.lanes.flying k).map requeued ++ s.waiting k) s.lanes
        (usbip_requeue_behind s k).lanes ∧ (usbip_requeue_behind s k).retry_bh = true := by
  refine ⟨?_, rfl⟩
  have hsel : s.inflight.reverse.filter (fun u =>
      decide (u.packet.ep = k ∧ u.packet.state = .queued)) = (s.lanes.flying k).reverse := by
    rw [List.filter_reverse]
    congr 1
    refine List.filter_congr fun u hu => ?_
    have hep := (h.flying_state u hu).2
    by_cases hk : usbip_urb_key u = k
    · have := hq u (mem_flying.mpr ⟨hu, hk⟩)
      simp [hep, hk, this]
    · simp [hep, hk]
  have hlanes : (usbip_requeue_behind s k).lanes =
      ((s.lanes.flying k).reverse.foldl usbip_requeue_one s).lanes := by
    rw [← hsel, List.foldl_filter]
    simp only [decide_eq_true_eq]
    rfl
  rw [hlanes, requeue_all_lanes k _ s h hd (by simp)]
  have hall := to_head_all back_requeued (s.lanes.flying k).reverse s.lanes h hd
    (k := k) (by simp)
  rwa [List.reverse_reverse] at hall

/-! ## Unlinking -/

/-- An URB is on the inflight list or on its waiting list. -/
def Lanes.Has (l : Lanes) (u : USBIPURB) : Prop :=
  u ∈ l.inflight ∨ u ∈ l.waiting (usbip_urb_key u)

/-- An endpoint's first packet, if there is one, is held by the device. -/
def Lanes.HeadAsync (l : Lanes) (k : Nat) : Prop :=
  ∀ u ∈ (l.flying k).head?, u.packet.state = .async

/-- A key does not have URBs in flight and waiting at the same time. -/
def Lanes.Apart (l : Lanes) (k : Nat) : Prop := l.flying k = [] ∨ l.waiting k = []

/-- What unlinking the URB `u` leaves: every other URB, in the same order. -/
structure Unlinked (u : USBIPURB) (l l' : Lanes) : Prop where
  wf : l'.Wf
  listed : l.listed = ident u ::ₘ l'.listed
  flying_ne : ∀ j, j ≠ usbip_urb_key u → l'.flying j = l.flying j
  waiting_ne : ∀ j, j ≠ usbip_urb_key u → l'.waiting j = l.waiting j
  order : ((l'.line (usbip_urb_key u)).map (·.id)).Sublist ((l.line (usbip_urb_key u)).map (·.id))
  apart : l.Apart (usbip_urb_key u) → l'.Apart (usbip_urb_key u)
  head : l.HeadAsync (usbip_urb_key u) → l'.HeadAsync (usbip_urb_key u)

theorem Unlinked.distinct {u : USBIPURB} {l l' : Lanes} (h : Unlinked u l l') (hd : l.Distinct) :
    l'.Distinct := by
  unfold Distinct at *
  rw [h.listed, Multiset.map_cons] at hd
  exact (Multiset.nodup_cons.mp hd).2

theorem Lanes.Has.key_lt {l : Lanes} {u : USBIPURB} (hu : l.Has u) (h : l.Wf) :
    usbip_urb_key u < usbip_num_keys := by
  rcases hu with hu | hu
  · exact h.flying_lt u hu
  · by_contra hk
    rw [h.waiting_lt _ (Nat.not_lt.mp hk)] at hu
    exact List.not_mem_nil hu

/-- The ASYNC packet of an endpoint is the first of its queue. -/
theorem flying_of_async {l : Lanes} {u : USBIPURB} (h : l.Wf) (hu : u ∈ l.inflight)
    (ha : u.packet.state = .async) :
    l.flying (usbip_urb_key u) = u :: (l.flying (usbip_urb_key u)).tail := by
  have hmem : u ∈ l.flying (usbip_urb_key u) := mem_flying.mpr ⟨hu, rfl⟩
  have htail := h.tail_queued (usbip_urb_key u)
  cases hfl : l.flying (usbip_urb_key u) with
  | nil =>
    rw [hfl] at hmem
    exact absurd hmem List.not_mem_nil
  | cons w ws =>
    rw [hfl] at hmem htail
    rcases List.mem_cons.mp hmem with rfl | hmem
    · rfl
    · have := htail u hmem
      rw [ha] at this
      exact absurd this (by decide)

theorem unlinked_async (s : Server) (u : USBIPURB) (h : s.lanes.Wf) (hd : s.lanes.Distinct)
    (hu : u ∈ s.inflight) (ha : u.packet.state = .async) (t : Server)
    (ht : t.lanes = s.lanes.off u) :
    Unlinked u s.lanes (usbip_requeue_behind t u.packet.ep).lanes := by
  have hep : u.packet.ep = usbip_urb_key u := (h.flying_state u hu).2
  have hsplit := flying_of_async h hu ha
  have hfl : t.lanes.flying (usbip_urb_key u) = (s.lanes.flying (usbip_urb_key u)).tail := by
    rw [ht]
    exact off_flying_head h hd hsplit
  have hwf : t.lanes.Wf := by
    rw [ht]
    exact off_wf h hd hu
  have hdt : t.lanes.Distinct := by
    rw [ht]
    exact off_distinct h hd hu
  have hw : t.waiting = s.waiting := congrArg Lanes.waiting ht
  obtain ⟨hb, _⟩ := requeue_behind_lanes t (usbip_urb_key u) hwf hdt (by
    rw [hfl]
    exact h.tail_queued _)
  rw [hep]
  refine ⟨hb.wf, ?_, ?_, ?_, ?_, ?_, ?_⟩
  · rw [hb.listed, ht]
    exact off_listed h hd hu
  · intro j hj
    rw [hb.flying_ne j hj, ht]
    exact off_flying_ne h hd hu hj
  · intro j hj
    rw [hb.waiting_ne j hj, ht, off_waiting]
  · rw [line, hb.flying, hb.waiting, hfl, hw, List.nil_append, line, hsplit, List.tail_cons,
      List.map_append, List.map_map, List.cons_append, List.map_cons, List.map_append]
    exact List.sublist_cons_self _ _
  · exact fun _ => .inl hb.flying
  · intro _ v hv
    rw [hb.flying] at hv
    exact absurd hv (by simp)

theorem unlinked_queued {l : Lanes} {u : USBIPURB} (h : l.Wf) (hd : l.Distinct)
    (hu : u ∈ l.inflight) (ha : u.packet.state ≠ .async) : Unlinked u l (l.off u) := by
  have hfl := off_flying (u := u) h hd (usbip_urb_key u)
  refine ⟨off_wf h hd hu, off_listed h hd hu, fun j hj => off_flying_ne h hd hu hj,
    fun j _ => rfl, ?_, ?_, ?_⟩
  · rw [line, hfl]
    exact (List.Sublist.append_right List.filter_sublist _).map _
  · rintro (hnil | hnil)
    · exact .inl (by rw [hfl, hnil, List.filter_nil])
    · exact .inr hnil
  · intro hhead v hv
    have hmem : u ∈ l.flying (usbip_urb_key u) := mem_flying.mpr ⟨hu, rfl⟩
    cases hs : l.flying (usbip_urb_key u) with
    | nil =>
      rw [hs] at hmem
      exact absurd hmem List.not_mem_nil
    | cons w ws =>
      -- the URB is not the first of its queue, which stays
      have hw : w.packet.state = .async := hhead w (by rw [hs]; rfl)
      have hne : (w.id != u.id) = true := by
        simp only [bne_iff_ne, ne_eq]
        intro hid
        have hwl : w ∈ l.inflight := (mem_flying.mp (show w ∈ l.flying _ by rw [hs]; simp)).1
        rw [eq_of_mem_of_map_nodup (inflight_nodup h hd) hwl hu hid] at hw
        exact ha hw
      rw [hfl, hs, List.filter_cons_of_pos (p := fun x : USBIPURB => x.id != u.id) hne] at hv
      rw [show v = w from (Option.some.inj hv).symm]
      exact hw

theorem unlinked_waiting {l : Lanes} {u : USBIPURB} (h : l.Wf) (hd : l.Distinct)
    (hu : u ∈ l.waiting (usbip_urb_key u)) :
    Unlinked u l (l.set_waiting (usbip_urb_key u)
      (remove (l.waiting (usbip_urb_key u)) u.id)) := by
  have hk := Has.key_lt (.inr hu) h
  have hn := waiting_nodup h hd (usbip_urb_key u)
  have hlist := set_waiting_listed (l := l) hk (perm_cons_eraseP hn hu)
  rw [set_waiting_waiting] at hlist
  refine ⟨set_waiting_wf h hk ?_, hlist, fun _ _ => rfl,
    fun j hj => Lanes.set_waiting_ne _ hj, ?_, ?_, fun hh => hh⟩
  · exact fun v hv => h.waiting_state _ v (List.mem_of_mem_eraseP hv)
  · rw [line, Lanes.set_waiting_self, set_waiting_flying]
    exact (List.Sublist.append_left List.eraseP_sublist _).map _
  · rintro (hnil | hnil)
    · exact .inl hnil
    · rw [hnil] at hu
      exact absurd hu List.not_mem_nil

/-- **Unlinking takes one URB off its list and leaves every other one listed, in
    order.** -/
theorem urb_unlink_lanes (s : Server) (u : USBIPURB) (h : s.lanes.Wf) (hd : s.lanes.Distinct)
    (hu : s.lanes.Has u) : Unlinked u s.lanes (usbip_urb_unlink s u).lanes := by
  unfold usbip_urb_unlink
  rcases hu with hu | hu
  · have hst := h.flying_state u hu
    rw [if_pos hst.1]
    dsimp only
    split
    · rename_i ha
      exact unlinked_async s u h hd hu ha _ (cancel_lanes s u hst.2)
    · rename_i ha
      rw [cancel_lanes s u hst.2]
      exact unlinked_queued h hd hu ha
  · have hst := (h.waiting_state _ u hu).2
    rw [if_neg (by rw [hst]; decide), set_waiting_lanes]
    exact unlinked_waiting h hd hu

/-- A waiting list that unlinking fills is retried by the bottom half. -/
theorem urb_unlink_bh (s : Server) (u : USBIPURB) :
    (usbip_urb_unlink s u).retry_bh = true ∨
      (usbip_urb_unlink s u).retry_bh = s.retry_bh ∧
        ∀ k, s.waiting k = [] → (usbip_urb_unlink s u).waiting k = [] := by
  unfold usbip_urb_unlink
  split
  · dsimp only
    split
    · exact .inl rfl
    · exact .inr ⟨rfl, fun _ h => h⟩
  · refine .inr ⟨rfl, fun k hk => ?_⟩
    by_cases hkk : k = usbip_urb_key u
    · subst hkk
      rw [Usbip.set_waiting_self, hk]
      rfl
    · rw [Usbip.set_waiting_ne _ _ hkk]
      exact hk

/-! ## A queued packet the device now holds -/

/-- The inflight URB `v` after the device took the packet of `u`. -/
def held_as (u v : USBIPURB) : USBIPURB := if v.id = u.id then v.set_packet_state .async else v

theorem held_as_same (u v : USBIPURB) : Same v (held_as u v) := by
  unfold held_as
  split
  · exact same_set_packet_state v _
  · exact Same.refl v

theorem held_as_packet_ep (u v : USBIPURB) : (held_as u v).packet.ep = v.packet.ep := by
  unfold held_as
  split <;> rfl

theorem hold_flying (s : Server) (u : USBIPURB) (j : Nat) :
    (usb_packet_hold s u).lanes.flying j = (s.lanes.flying j).map (held_as u) := by
  have hkey : (fun v => usbip_urb_key v == j) ∘ held_as u = fun v => usbip_urb_key v == j := by
    funext v
    simp [(held_as_same u v).key]
  show ((s.inflight.map (held_as u)).filter _) = _
  rw [List.filter_map, hkey]
  rfl

theorem hold_flying_ne (s : Server) (u : USBIPURB) (h : s.lanes.Wf) (hd : s.lanes.Distinct)
    (hu : u ∈ s.inflight) {j : Nat} (hj : j ≠ usbip_urb_key u) :
    (usb_packet_hold s u).lanes.flying j = s.lanes.flying j := by
  rw [hold_flying]
  refine (List.map_congr_left fun v hv => ?_).trans (List.map_id _)
  obtain ⟨hv, hvj⟩ := mem_flying.mp hv
  have hne : v.id ≠ u.id := by
    intro hid
    rw [eq_of_mem_of_map_nodup (inflight_nodup h hd) hv hu hid] at hvj
    exact hj hvj.symm
  simp [held_as, hne]

theorem hold_flying_head (s : Server) (u : USBIPURB) (h : s.lanes.Wf) (hd : s.lanes.Distinct)
    {us : List USBIPURB} (hus : s.lanes.flying (usbip_urb_key u) = u :: us) :
    (usb_packet_hold s u).lanes.flying (usbip_urb_key u) = u.set_packet_state .async :: us := by
  have hn := flying_nodup h hd (usbip_urb_key u)
  rw [hus, List.map_cons, List.nodup_cons] at hn
  rw [hold_flying, hus, List.map_cons]
  congr 1
  · simp [held_as]
  · refine (List.map_congr_left fun v hv => ?_).trans (List.map_id _)
    have hne : v.id ≠ u.id := fun hid => hn.1 (List.mem_map.mpr ⟨v, hv, hid⟩)
    simp [held_as, hne]

theorem hold_lanes (s : Server) (u : USBIPURB) (h : s.lanes.Wf) (hd : s.lanes.Distinct)
    {us : List USBIPURB} (hus : s.lanes.flying (usbip_urb_key u) = u :: us) :
    (usb_packet_hold s u).lanes.Wf ∧ (usb_packet_hold s u).lanes.listed = s.lanes.listed := by
  have hu : u ∈ s.inflight := (mem_flying.mp (show u ∈ s.lanes.flying _ by rw [hus]; simp)).1
  have hmap : (usb_packet_hold s u).lanes.inflight = s.inflight.map (held_as u) := rfl
  refine ⟨⟨?_, h.waiting_lt, ?_, ?_, h.waiting_state, ?_⟩, ?_⟩
  · intro v hv
    obtain ⟨w, hw, rfl⟩ := List.mem_map.mp (hmap ▸ hv)
    rw [(held_as_same u w).key]
    exact h.flying_lt w hw
  · intro v hv
    obtain ⟨w, hw, rfl⟩ := List.mem_map.mp (hmap ▸ hv)
    rw [(held_as_same u w).state, (held_as_same u w).key, held_as_packet_ep]
    exact h.flying_state w hw
  · intro j
    rw [hold_flying, List.map_map]
    refine (h.queue_eq j).trans (List.map_congr_left fun v _ => ?_)
    exact (held_as_same u v).id.symm
  · intro j v hv
    by_cases hj : j = usbip_urb_key u
    · subst hj
      rw [hold_flying_head s u h hd hus] at hv
      exact h.tail_queued _ v (by rw [hus]; exact hv)
    · rw [hold_flying_ne s u h hd hu hj] at hv
      exact h.tail_queued j v hv
  · refine bag_congr fun j => ?_
    rw [line, hold_flying, List.map_append, List.map_map]
    have hid : ident ∘ held_as u = ident := funext fun v => (held_as_same u v).ident
    rw [hid, line, List.map_append]
    rfl

end Usbip
