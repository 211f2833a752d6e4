import RpiQemu.Usbip.ExactlyOnce
import Mathlib.Data.List.Sort

/-! # The order of an endpoint's URBs

    Identities are handed out in the order URBs are accepted, so an endpoint is
    in order when its URBs, in flight and then waiting, have increasing
    identities.  Every operation keeps that but one: when a halt hands the
    packets of an endpoint back while URBs of that endpoint wait, the ones
    handed back go behind those that wait.  The log tells (`halt`), and in a run
    without it the order holds throughout. -/

namespace Usbip

open Bytes Keyed Ledger

variable {c c' : Cfg} {s s' : Server} {H H' : List Tok} {u v : USBIPURB} {k : Nat} {b : Bool}

/-! ## The invariant -/

/-- The URB a call tries to hand over. -/
def Tok.trying : Tok → Option (Bool × USBIPURB)
  | .hand b u => some (b, u)
  | .run b u => some (b, u)
  | .iso b u => some (b, u)
  | .held b u => some (b, u)
  | _ => none

/-- An URB that is being tried belongs between the ones in flight and the ones
    waiting. -/
structure Around (l : Lanes) (b : Bool) (u : USBIPURB) : Prop where
  flying : ∀ v ∈ l.flying (usbip_urb_key u), v.id < u.id
  waiting : ∀ v ∈ l.waiting (usbip_urb_key u), u.id < v.id
  first : b = true → l.waiting (usbip_urb_key u) = []

structure Ordered (c : Cfg) : Prop where
  sorted : ∀ k, ((c.2.lanes.line k).map (·.id)).Pairwise (· < ·)
  fresh : ∀ u, .fresh u ∈ c.1 → ∀ v ∈ c.2.lanes.line (usbip_urb_key u), v.id < u.id
  around : ∀ t ∈ c.1, ∀ b u, t.trying = some (b, u) → Around c.2.lanes b u

/-! ## Steps that put nothing in a new place -/

/-- Nothing was added to the URBs of a key. -/
structure Thinner (l l' : Lanes) (k : Nat) : Prop where
  flying : ((l'.flying k).map (·.id)).Sublist ((l.flying k).map (·.id))
  waiting : ((l'.waiting k).map (·.id)).Sublist ((l.waiting k).map (·.id))

theorem Thinner.refl (l : Lanes) (k : Nat) : Thinner l l k := ⟨.refl _, .refl _⟩

theorem Thinner.of_eq {l l' : Lanes} (hf : l'.flying k = l.flying k)
    (hw : l'.waiting k = l.waiting k) :
    Thinner l l' k := by
  constructor
  · rw [hf]
  · rw [hw]

theorem mem_of_ids_sublist {us vs : List USBIPURB} (h : (us.map (·.id)).Sublist (vs.map (·.id)))
    (hu : u ∈ us) : ∃ w ∈ vs, w.id = u.id :=
  List.mem_map.mp (h.subset (List.mem_map.mpr ⟨u, hu, rfl⟩))

theorem Around.thinner {l l' : Lanes} (h : Around l b u) (ht : Thinner l l' (usbip_urb_key u)) :
    Around l' b u := by
  refine ⟨fun v hv => ?_, fun v hv => ?_, fun hb => ?_⟩
  · obtain ⟨w, hw, hid⟩ := mem_of_ids_sublist ht.flying hv
    rw [← hid]
    exact h.flying w hw
  · obtain ⟨w, hw, hid⟩ := mem_of_ids_sublist ht.waiting hv
    rw [← hid]
    exact h.waiting w hw
  · have := ht.waiting
    rw [h.first hb, List.map_nil, List.sublist_nil, List.map_eq_nil_iff] at this
    exact this

theorem Around.same {l : Lanes} (h : Around l b u) (hs : Same u v) : Around l b v := by
  refine ⟨?_, ?_, ?_⟩
  · rw [hs.key, hs.id]
    exact h.flying
  · rw [hs.key, hs.id]
    exact h.waiting
  · rw [hs.key]
    exact h.first

/-- The calls of `H'` that carry URBs to be placed are calls of `H`. -/
def Carries (H H' : List Tok) : Prop :=
  ∀ t' ∈ H', (∀ u, t' = .fresh u → .fresh u ∈ H) ∧
    ∀ b v, t'.trying = some (b, v) → ∃ t ∈ H, ∃ u, t.trying = some (b, u) ∧ Same u v

theorem Carries.refl (H : List Tok) : Carries H H :=
  fun t ht => ⟨fun _ hu => hu ▸ ht, fun _ v hv => ⟨t, ht, v, hv, Same.refl v⟩⟩

theorem Carries.tail {t : Tok} (h : Carries H H') : Carries (t :: H) H' := by
  intro t' ht'
  obtain ⟨hf, htry⟩ := h t' ht'
  refine ⟨fun u hu => List.mem_cons_of_mem _ (hf u hu), fun b v hv => ?_⟩
  obtain ⟨t₀, ht₀, u, hu, hs⟩ := htry b v hv
  exact ⟨t₀, List.mem_cons_of_mem _ ht₀, u, hu, hs⟩

/-- A call that carries nothing to be placed. -/
theorem Carries.plain {t : Tok} (h : Carries H H') (hf : ∀ u, t ≠ .fresh u) (ht : t.trying = none) :
    Carries H (t :: H') := by
  intro t' ht'
  rcases List.mem_cons.mp ht' with rfl | ht'
  · exact ⟨fun u hu => absurd hu (hf u), fun b v hv => absurd (ht.symm.trans hv) (by simp)⟩
  · exact h t' ht'

/-- A call that tries an URB goes on to its next part. -/
theorem Carries.next {t t' : Tok} (ht : t.trying = some (b, u)) (ht' : t'.trying = some (b, v))
    (hs : Same u v) : Carries (t :: H) (t' :: H) := by
  intro x hx
  rcases List.mem_cons.mp hx with rfl | hx
  · refine ⟨fun w hw => ?_, fun b' w hw => ?_⟩
    · rw [hw] at ht'
      cases ht'
    · obtain ⟨rfl, rfl⟩ := Prod.mk.inj (Option.some.inj (ht'.symm.trans hw))
      exact ⟨t, List.mem_cons_self .., u, ht, hs⟩
  · exact (Carries.refl H).tail x hx

theorem line_sublist {l l' : Lanes} (h : Thinner l l' k) :
    ((l'.line k).map (·.id)).Sublist ((l.line k).map (·.id)) := by
  simp only [Lanes.line, List.map_append]
  exact h.flying.append h.waiting

theorem Ordered.thinner (h : Ordered (H, s)) (ht : ∀ k, Thinner s.lanes s'.lanes k)
    (hc : Carries H H') : Ordered (H', s') := by
  refine ⟨fun k => (h.sorted k).sublist (line_sublist (ht k)), fun u hu v hv => ?_,
    fun t' ht' b v hv => ?_⟩
  · obtain ⟨w, hw, hid⟩ := mem_of_ids_sublist (line_sublist (ht _)) hv
    rw [← hid]
    exact h.fresh u ((hc _ hu).1 u rfl) w hw
  · obtain ⟨t, htH, u, htu, hs⟩ := (hc t' ht').2 b v hv
    exact ((h.around t htH b u htu).thinner (ht _)).same hs

/-- A step that leaves the lists alone. -/
theorem Ordered.quiet (h : Ordered (H, s)) (hl : s'.lanes = s.lanes) (hc : Carries H H') :
    Ordered (H', s') :=
  h.thinner (fun k => by rw [hl]; exact Thinner.refl _ k) hc

/-! ## Stacks with nothing to place -/

theorem Calm.carries (h : Calm H') (H : List Tok) : Carries H H' := by
  intro t ht
  have hc := h t ht
  refine ⟨fun u hu => ?_, fun b v hv => ?_⟩
  · rw [hu] at hc
    exact hc.elim
  · cases t <;> first | exact hc.elim | cases hv

theorem Ordered.calm (hcalm : Calm H) (hs : ∀ k, ((s.lanes.line k).map (·.id)).Pairwise (· < ·)) :
    Ordered (H, s) := by
  refine ⟨hs, fun u hu => ?_, fun t ht b u hu => ?_⟩
  · exact (hcalm _ hu).elim
  · obtain ⟨_, htry⟩ := hcalm.carries ([] : List Tok) t ht
    obtain ⟨_, hnil, _⟩ := htry b u hu
    exact absurd hnil List.not_mem_nil

theorem Ordered.emptied (hcalm : Calm H) (hi : s.inflight = []) (hw : ∀ k, s.waiting k = []) :
    Ordered (H, s) := by
  refine Ordered.calm hcalm fun k => ?_
  have hline : s.lanes.line k = [] := by
    show s.inflight.filter _ ++ s.waiting k = []
    rw [hi, hw k]
    rfl
  rw [hline]
  exact .nil

/-! ## Completions -/

theorem off_thinner (hwf : s.lanes.Wf) (hd : s.lanes.Distinct) (u : USBIPURB) (k : Nat) :
    Thinner s.lanes (s.lanes.off u) k := by
  refine ⟨?_, .refl _⟩
  rw [Lanes.off_flying hwf hd]
  exact (List.filter_sublist).map _

theorem lift_ordered {t : Tok} (hinv : Inv (H, s)) (h : Ordered (H, s)) (hu : u ∈ s.inflight)
    (r : Resp) (hc : Carries H (t :: H')) :
    Ordered (t :: H', (usb_packet_done s u r).1.take_off u.id) := by
  have hlanes := packet_done_lanes s u r (hinv.wf.flying_state u hu).2
  refine h.thinner (fun k => ?_) hc
  rw [hlanes]
  exact off_thinner hinv.wf hinv.distinct u k

/-- While the device processes a packet started on an empty queue, nothing of
    its endpoint is in flight. -/
theorem Runs.of_run {l : Lanes} (h : Runs l H) {b : Bool} (hu : .run b u ∈ H) :
    l.flying (usbip_urb_key u) = [] := by
  induction H with
  | nil => exact absurd hu List.not_mem_nil
  | cons t H ih =>
    rcases List.mem_cons.mp hu with rfl | hu
    · exact h.1
    · exact ih h.tail hu

/-- Below a call, only the device's packets are still to be placed. -/
theorem trying_below {t x : Tok} (h : Shape (t :: H)) (hx : x ∈ H) (hb : x.trying = some (b, u)) :
    x = .run b u := by
  have hbelow := h.below x hx
  cases x with
  | run b' w =>
    obtain ⟨rfl, rfl⟩ := Prod.mk.inj (Option.some.inj hb)
    rfl
  | hand | iso | held => exact hbelow.elim
  | _ => cases hb

/-- **A halt keeps the order, unless it hands packets back behind URBs that
    wait.** -/
theorem flush_ordered (hinv : Inv (.loop k :: H, s)) (h : Ordered (.loop k :: H, s))
    (hw : s.waiting k = []) : Ordered (H, usb_ep_flush hold_env (s.note_halt k) k) := by
  obtain ⟨hback, _⟩ := ep_flush_lanes (s.note_halt k) k hinv.wf hinv.distinct
  have hwaiting : (usb_ep_flush hold_env (s.note_halt k) k).lanes.waiting k =
      (s.lanes.flying k).map flushed := by
    refine hback.waiting.trans ?_
    rw [show (s.note_halt k).waiting k = [] from hw, List.nil_append]
    rfl
  have hids : ((s.lanes.flying k).map flushed).map (·.id) = (s.lanes.flying k).map (·.id) := by
    rw [List.map_map]
    rfl
  have hline : s.lanes.line k = s.lanes.flying k := by
    show s.lanes.flying k ++ s.waiting k = _
    rw [hw, List.append_nil]
  have hne : ∀ j, j ≠ k → Thinner s.lanes (usb_ep_flush hold_env (s.note_halt k) k).lanes j :=
    fun j hj => Thinner.of_eq (hback.flying_ne j hj) (hback.waiting_ne j hj)
  refine ⟨fun j => ?_, fun u hu => ?_, fun x hx b u hxu => ?_⟩
  · by_cases hj : j = k
    · subst hj
      have hs := h.sorted j
      rw [show (Tok.loop j :: H, s).2.lanes.line j = _ from hline] at hs
      show (((_ : List USBIPURB) ++ _).map _).Pairwise _
      rw [hback.flying, hwaiting, List.nil_append, hids]
      exact hs
    · exact (h.sorted j).sublist (line_sublist (hne j hj))
  · exact (hinv.shape.below _ hu).elim
  · have hxr := trying_below hinv.shape hx hxu
    have ha := h.around x (List.mem_cons_of_mem _ hx) b u hxu
    refine ha.thinner ?_
    by_cases hj : usbip_urb_key u = k
    · -- nothing of that endpoint is in flight
      have hnil : s.lanes.flying (usbip_urb_key u) = [] :=
        hinv.runs.of_run (List.mem_cons_of_mem _ (hxr ▸ hx))
      subst hj
      refine ⟨?_, ?_⟩
      · rw [hback.flying]
        exact List.nil_sublist _
      · rw [hwaiting, hnil]
        exact List.nil_sublist _
    · exact hne _ hj

theorem hold_ordered (h : Ordered (.runq u :: .loop k :: H, s)) :
    Ordered (H, usb_packet_hold s u) := by
  refine h.thinner (fun j => ?_) (Carries.refl H).tail.tail
  refine ⟨?_, .refl _⟩
  have hids : ((s.lanes.flying j).map (held_as u)).map (·.id) = (s.lanes.flying j).map (·.id) := by
    rw [List.map_map]
    exact List.map_congr_left fun v _ => (held_as_same u v).id
  rw [hold_flying, hids]

/-! ## Handing over -/

theorem Around.sorted {l : Lanes} (h : Around l b u)
    (hs : ((l.line (usbip_urb_key u)).map (·.id)).Pairwise (· < ·)) (hv : v.id = u.id) :
    ((l.flying (usbip_urb_key u) ++ v :: l.waiting (usbip_urb_key u)).map (·.id)).Pairwise
      (· < ·) := by
  simp only [Lanes.line, List.map_append, List.pairwise_append] at hs
  obtain ⟨hfl, hwt, hfw⟩ := hs
  simp only [List.map_append, List.map_cons, List.pairwise_append, List.pairwise_cons]
  refine ⟨hfl, ⟨fun i hi => ?_, hwt⟩, fun i hi j hj => ?_⟩
  · obtain ⟨w, hw, rfl⟩ := List.mem_map.mp hi
    rw [hv]
    exact h.waiting w hw
  · obtain ⟨w, hw, rfl⟩ := List.mem_map.mp hi
    rcases List.mem_cons.mp hj with rfl | hj
    · rw [hv]
      exact h.flying w hw
    · exact hfw _ hi j hj

theorem fly_ordered {t : Tok} {st : PacketState} (hcalm : Calm H) (h : Ordered (t :: H, s))
    (ht : t.trying = some (b, u)) (hf : Flown st u v s s') : Ordered (H, s') := by
  have hkey := ident_key hf.ident
  refine Ordered.calm hcalm fun j => ?_
  rw [hf.lanes]
  by_cases hj : j = usbip_urb_key v
  · subst hj
    have hsorted := (h.around t (List.mem_cons_self ..) b u ht).sorted (v := v) (h.sorted _)
      (ident_id hf.ident)
    rw [Lanes.line, Lanes.on_flying_self, hkey, List.append_assoc, List.singleton_append]
    exact hsorted
  · rw [Lanes.line, Lanes.on_flying_ne hj]
    exact h.sorted j

/-- The waiting list of one key changes, with nothing to place below. -/
theorem set_waiting_ordered {us : List USBIPURB} (hcalm : Calm H') (h : Ordered (H, s))
    (hl : s'.lanes = s.lanes.set_waiting k us)
    (hk : ((s.lanes.flying k ++ us).map (·.id)).Pairwise (· < ·)) : Ordered (H', s') := by
  refine Ordered.calm hcalm fun j => ?_
  rw [hl]
  by_cases hj : j = k
  · subst hj
    rw [Lanes.line, Lanes.set_waiting_flying, Lanes.set_waiting_self]
    exact hk
  · rw [Lanes.set_waiting_line_ne _ hj]
    exact h.sorted j

theorem sorted_snoc {us : List USBIPURB} (h : (us.map (·.id)).Pairwise (· < ·))
    (hu : ∀ v ∈ us, v.id < u.id) :
    ((us ++ [({ u with state := .waiting } : USBIPURB)]).map (·.id)).Pairwise (· < ·) := by
  simp only [List.map_append, List.map_cons, List.map_nil, List.pairwise_append]
  refine ⟨h, List.pairwise_singleton _ _, fun i hi j hj => ?_⟩
  obtain ⟨v, hv, rfl⟩ := List.mem_map.mp hi
  obtain rfl := List.mem_singleton.mp hj
  exact hu v hv

theorem behind_ordered (hinv : Inv (.fresh u :: H, s)) (h : Ordered (.fresh u :: H, s)) :
    Ordered (H, usbip_urb_wait s u) := by
  obtain ⟨t, ht⟩ := usbip_urb_wait_eq s u
  rw [ht]
  refine set_waiting_ordered hinv.shape h (k := usbip_urb_key u) rfl ?_
  rw [← List.append_assoc]
  exact sorted_snoc (h.sorted _) (h.fresh u (List.mem_cons_self ..))

theorem held_tail_ordered (hinv : Inv (.held true u :: H, s)) (h : Ordered (.held true u :: H, s)) :
    Ordered (H, usbip_urb_wait s u) := by
  obtain ⟨t, ht⟩ := usbip_urb_wait_eq s u
  have ha := h.around _ (List.mem_cons_self ..) true u rfl
  have hfirst : s.waiting (usbip_urb_key u) = [] := ha.first rfl
  rw [ht]
  refine set_waiting_ordered hinv.shape.1 h (k := usbip_urb_key u) rfl ?_
  rw [hfirst, List.nil_append]
  refine sorted_snoc ((h.sorted (usbip_urb_key u)).sublist ?_) ha.flying
  exact (List.sublist_append_left _ _).map _

theorem held_head_ordered (hinv : Inv (.held false u :: .retry k :: H, s))
    (h : Ordered (.held false u :: .retry k :: H, s)) :
    Ordered (.retry (k + 1) :: H, s.set_waiting k (u :: s.waiting k)) := by
  obtain ⟨hcalm, htry⟩ := hinv.shape
  obtain ⟨_, T, hT⟩ := htry rfl
  obtain rfl : k = usbip_urb_key u := Tok.retry.inj (List.cons.inj hT).1
  have ha := h.around _ (List.mem_cons_self ..) false u rfl
  exact set_waiting_ordered (hcalm.tail.cons trivial) h rfl (ha.sorted (h.sorted _) rfl)

theorem take_ordered {us : List USBIPURB} (hinv : Inv (.retry k :: H, s))
    (h : Ordered (.retry k :: H, s)) (hw : s.waiting k = u :: us) :
    Ordered (.hand false u :: .retry k :: H, s.set_waiting k us) := by
  have hcalm : Calm H := hinv.shape
  obtain ⟨hk, _⟩ := hinv.wf.waiting_state k u (by rw [show s.lanes.waiting k = _ from hw]; simp)
  subst hk
  have hs := h.sorted (usbip_urb_key u)
  have hline : s.lanes.line (usbip_urb_key u) = s.lanes.flying (usbip_urb_key u) ++ u :: us := by
    show _ ++ s.waiting _ = _
    rw [hw]
  rw [show (Tok.retry (usbip_urb_key u) :: H, s).2.lanes.line _ = _ from hline] at hs
  simp only [List.map_append, List.map_cons, List.pairwise_append, List.pairwise_cons] at hs
  obtain ⟨hfl, ⟨huw, hus⟩, hfw⟩ := hs
  have hrest : Ordered (.retry (usbip_urb_key u) :: H, s.set_waiting (usbip_urb_key u) us) := by
    refine set_waiting_ordered (hcalm.cons trivial) h rfl ?_
    simp only [List.map_append, List.pairwise_append]
    exact ⟨hfl, hus, fun i hi j hj => hfw i hi j (List.mem_cons_of_mem _ hj)⟩
  refine ⟨hrest.sorted, fun v hv => ?_, fun t ht b v hv => ?_⟩
  · rcases List.mem_cons.mp hv with hv | hv
    · cases hv
    · exact hrest.fresh v hv
  · rcases List.mem_cons.mp ht with rfl | ht
    · obtain ⟨rfl, rfl⟩ := Prod.mk.inj (Option.some.inj hv)
      refine ⟨fun w hw => ?_, fun w hw => ?_, fun hb => by cases hb⟩
      · exact hfw w.id (List.mem_map.mpr ⟨w, hw, rfl⟩) u.id (List.mem_cons_self ..)
      · rw [show (s.set_waiting (usbip_urb_key u) us).lanes.waiting (usbip_urb_key u) = us from
          Usbip.set_waiting_self s _ _] at hw
        exact huw w.id (List.mem_map.mpr ⟨w, hw, rfl⟩)
    · exact hrest.around t ht b v hv

theorem try_fresh_ordered (hinv : Inv (.fresh u :: H, s)) (h : Ordered (.fresh u :: H, s))
    (hw : s.waiting (usbip_urb_key u) = []) : Ordered (.hand true u :: H, s) := by
  have hcalm : Calm H := hinv.shape
  have hrest : Ordered (H, s) := h.quiet rfl (Carries.refl H).tail
  have hline := h.fresh u (List.mem_cons_self ..)
  refine ⟨h.sorted, fun v hv => ?_, fun t ht b v hv => ?_⟩
  · rcases List.mem_cons.mp hv with hv | hv
    · cases hv
    · exact hrest.fresh v hv
  · rcases List.mem_cons.mp ht with rfl | ht
    · obtain ⟨rfl, rfl⟩ := Prod.mk.inj (Option.some.inj hv)
      refine ⟨fun w hw' => hline w (List.mem_append.mpr (.inl hw')), fun w hw' => ?_, fun _ => hw⟩
      rw [show s.lanes.waiting (usbip_urb_key u) = [] from hw] at hw'
      exact absurd hw' List.not_mem_nil
    · exact hrest.around t ht b v hv

/-! ## Unlinks and new URBs -/

theorem unlinked_sorted {l l' : Lanes} (h : Unlinked u l l')
    (hs : ∀ k, ((l.line k).map (·.id)).Pairwise (· < ·)) (k : Nat) :
    ((l'.line k).map (·.id)).Pairwise (· < ·) := by
  by_cases hk : k = usbip_urb_key u
  · subst hk
    exact (hs _).sublist h.order
  · rw [Lanes.line, h.flying_ne k hk, h.waiting_ne k hk]
    exact hs k

theorem unlink_ordered {d : List UInt8} (hinv : Inv (.msg d :: H, s))
    (h : Ordered (.msg d :: H, s)) (seqnum victim : Nat) :
    Ordered (H, usbip_handle_unlink s seqnum victim) := by
  have hcalm : Calm H := hinv.shape
  refine Ordered.calm hcalm fun k => ?_
  unfold usbip_handle_unlink
  cases hf : usbip_find_urb s victim with
  | none =>
    simp only
    rw [(Kept.of_sent (usbip_send_sent _ _)).lanes]
    exact h.sorted k
  | some u =>
    obtain ⟨hhas, _, _⟩ := find_urb_some hinv.wf hf
    have hun := urb_unlink_lanes s u hinv.wf hinv.distinct hhas
    simp only
    rw [(Kept.of_sent (usbip_send_sent _ _)).lanes]
    show (((usbip_urb_free (usbip_urb_unlink s u) u).lanes.line k).map _).Pairwise _
    rw [urb_free_lanes]
    exact unlinked_sorted hun h.sorted k

/-- A new URB comes after every other one. -/
theorem new_ordered {t : Tok} (hinv : Inv (t :: H, s)) (hcalm : Calm H) (h : Ordered (t :: H, s))
    (hl : s'.lanes = s.lanes) (hid : u.id = s.next_id) : Ordered (.fresh u :: H, s') := by
  have hrest : Ordered (H, s') := h.quiet hl (Carries.refl H).tail
  refine ⟨hrest.sorted, fun v hv w hw => ?_, fun x hx b v hv => ?_⟩
  · rcases List.mem_cons.mp hv with hv | hv
    · obtain rfl := Tok.fresh.inj hv
      rw [hid]
      rw [show (Tok.fresh v :: H, s').2.lanes = s.lanes from hl] at hw
      refine hinv.ledger.id_lt (ident w) (Multiset.mem_add.mpr (.inr ?_))
      rw [show (ledger (t :: H, s)).lanes = s.lanes from rfl, Lanes.listed_eq hinv.wf]
      rcases List.mem_append.mp hw with hw | hw
      · refine Multiset.mem_add.mpr (.inl (Multiset.mem_coe.mpr (List.mem_map.mpr ⟨w, ?_, rfl⟩)))
        exact (Lanes.mem_flying.mp hw).1
      · refine Multiset.mem_add.mpr (.inr (mem_bag.mpr ⟨usbip_urb_key v, ?_, ?_⟩))
        · by_contra hk
          rw [hinv.wf.waiting_lt _ (Nat.not_lt.mp hk)] at hw
          exact absurd hw List.not_mem_nil
        · exact Multiset.mem_coe.mpr (List.mem_map.mpr ⟨w, hw, rfl⟩)
    · exact (hcalm _ hv).elim
  · rcases List.mem_cons.mp hx with rfl | hx
    · cases hv
    · exact hrest.around x hx b v hv

theorem drop_ordered (hwf : s.lanes.Wf) (hd : s.lanes.Distinct) (hcalm : Calm H) :
    Ordered (H, usbip_drop_client s) := by
  have he := drop_client_emptied s hwf hd
  generalize usbip_drop_client s = t at he
  exact Ordered.emptied hcalm he.inflight he.waiting

theorem reject_ordered {d : List UInt8} (hinv : Inv (.msg d :: H, s))
    (hrej : (submit_accept s d).2 = none) : Ordered (H, (submit_accept s d).1) := by
  obtain ⟨id, n, b, hdrop, _, _⟩ := submit_reject hrej
  rw [hdrop]
  exact drop_ordered hinv.wf hinv.distinct hinv.shape

theorem accept_ordered {d : List UInt8} (hinv : Inv (.msg d :: H, s))
    (h : Ordered (.msg d :: H, s)) (hacc : (submit_accept s d).2 = some u) :
    Ordered (.fresh u :: H, (submit_accept s d).1) := by
  rcases submit_accept_cases s d with ⟨t, _, heq⟩ | ⟨np, iso, heq, _⟩
  · rw [heq] at hacc
    cases hacc
  · rw [heq] at hacc ⊢
    obtain rfl := Option.some.inj hacc
    exact new_ordered hinv hinv.shape h rfl rfl

theorem enum_reply_lanes (s : Server) (u : USBIPURB) (ok en : Bool) (n : Nat) :
    (usbip_enum_reply
      { (usbip_enum_result s u).1 with enum_step := n, enumerated := en } ok).lanes = s.lanes := by
  obtain ⟨dd, cl, cd, hres⟩ := usbip_enum_result_eq s u
  rw [hres]
  obtain ⟨t, ⟨_, _, _, _, rfl⟩, ht⟩ := usbip_enum_reply_eq { s with
    dev_desc := dd, cfg_len := cl, cfg_desc := cd, enum_step := n, enumerated := en } ok
  rw [ht]
  split <;> rfl

/-! ## Every step -/

theorem step_ordered (hinv : Inv c) (h : Ordered c) (hstep : Step c c')
    (hhalt : ∀ k, .halt k true ∉ c'.2.log) : Ordered c' := by
  cases hstep with
  | act s script _ => exact h.quiet rfl (Carries.refl _)
  | wakeup s _ => exact h.quiet rfl (Carries.refl _)
  | set_type s k isoc _ => exact h.quiet (set_ep_lanes rfl) (Carries.refl _)
  | complete s k u r _ hh _ _ =>
    obtain ⟨_, hu, _⟩ := flying_of_head hinv.wf hinv.distinct hh
    refine lift_ordered hinv h hu r ?_
    exact ((Carries.refl _).plain (by simp) rfl).plain (by simp) rfl
  | loop_none s k _ => exact h.quiet rfl (Carries.refl _).tail
  | loop_async s k u _ _ => exact h.quiet rfl (Carries.refl _).tail
  -- A halt with URBs waiting is logged as a late one, and the run has none.
  | loop_flush s k _ =>
    refine flush_ordered hinv h ?_
    by_contra hne
    refine hhalt k ?_
    obtain ⟨_, _, _, _, hsh⟩ := usb_ep_flush_shifted hold_env (s.note_halt k) k
    show _ ∈ (usb_ep_flush hold_env (s.note_halt k) k).log
    rw [hsh]
    show _ ∈ s.log ++ [Ev.halt k (decide (s.waiting k ≠ []))]
    simp [hne]
  | loop_start s k u _ _ _ => exact h.quiet rfl ((Carries.refl _).plain (by simp) rfl)
  | runq_hold s k u => exact hold_ordered h
  | runq_done s u r _ =>
    obtain ⟨⟨T, rfl⟩, hhead, _, _⟩ := hinv.runs
    have hu := (Lanes.mem_flying.mp (List.mem_of_mem_head? (Option.mem_def.mpr hhead))).1
    exact lift_ordered hinv h hu r ((Carries.refl _).tail.plain (by simp) rfl)
  | answer s u _ =>
    obtain ⟨_, _, _, _, hs⟩ := usbip_send_ret_submit_sent s u
    refine h.quiet ?_ (Carries.refl _).tail
    rw [urb_free_lanes, hs]
    rfl
  | lost s u _ _ => exact h.quiet rfl (Carries.refl _).tail
  | enum_next s u _ _ _ =>
    obtain ⟨_, _, _, hres⟩ := usbip_enum_result_eq s u
    rw [hres]
    exact h.quiet rfl ((Carries.refl _).tail.plain (by simp) rfl)
  | enum_end s u hu _ _ =>
    exact h.quiet (enum_reply_lanes s u true true 4) ((Carries.refl _).tail.plain (by simp) rfl)
  | enum_fail s u hu _ =>
    refine h.quiet ?_ ((Carries.refl _).tail.plain (by simp) rfl)
    have hl := enum_reply_lanes s u false s.enumerated s.enum_step
    obtain ⟨_, _, _, hres⟩ := usbip_enum_result_eq s u
    rw [hres] at hl ⊢
    exact hl
  -- A URB enters behind everything waiting, whether the server or the client made it.
  | issue s => exact new_ordered hinv hinv.shape h rfl rfl
  | behind s u _ => exact behind_ordered hinv h
  | try_fresh s u hw => exact try_fresh_ordered hinv h hw
  | iso_stall s b u _ => exact h.quiet rfl ((Carries.refl _).tail.plain (by simp) rfl)
  | iso_skip s b u v _ hv => exact h.quiet rfl (.next rfl rfl hv)
  | iso_queued s b u v due _ hv _ =>
    exact h.quiet (iso_queued_kept hinv due).lanes (.next rfl rfl hv)
  | iso_start s b u v due _ hv _ _ =>
    exact h.quiet (start_kept s due _ u.id).lanes (.next rfl rfl hv)
  | iso_back s b u v _ hv => exact h.quiet rfl (.next rfl rfl hv)
  | iso_bounce s b u v _ hv =>
    refine h.quiet ?_ (.next rfl rfl hv)
    exact (bounce_kept hinv (i := ident u) (Multiset.mem_cons_self _ _) rfl (Kept.refl s)
      fun _ => rfl).lanes
  | iso_more s b u t _ => exact h.quiet rfl (.next rfl rfl (Same.refl u))
  | iso_end s b u => exact h.quiet rfl ((Carries.refl _).tail.plain (by simp) rfl)
  | enqueue s b u _ _ =>
    obtain ⟨v, hf⟩ := enqueue_flown s u
    exact fly_ordered hinv.shape.1 h rfl hf
  | start s b u _ _ =>
    exact h.quiet (start_kept s s.iso_next_due _ u.id).lanes (.next rfl rfl (same_urb_packet u))
  -- The packet was started by a carried URB, which takes its place in flight.
  | run_async s b u r _ hr =>
    obtain ⟨_, hep, _⟩ := hinv.runs
    obtain ⟨v, hf⟩ := run_async_flown s u r hr hep
    exact fly_ordered hinv.shape.1 h rfl hf
  | run_nak s b u v _ hv _ => exact h.quiet rfl (.next rfl rfl hv)
  | run_done s b u v _ _ _ => exact h.quiet rfl ((Carries.refl _).tail.plain (by simp) rfl)
  | held_tail s u => exact held_tail_ordered hinv h
  | take s k u us _ hw => exact take_ordered hinv h hw
  | held_head s k u => exact held_head_ordered hinv h
  | retry_next s k _ => exact h.quiet rfl ((Carries.refl _).tail.plain (by simp) rfl)
  | retry_end s _ => exact h.quiet rfl (Carries.refl _).tail
  | retry_arm s =>
    obtain ⟨t, ht⟩ := usbip_arm_retry_eq s
    rw [ht]
    exact h.quiet rfl (Carries.refl _).tail
  | parse_skip s _ => exact h.quiet rfl (Carries.refl _).tail
  | parse_begin s _ => exact h.quiet rfl ((Carries.refl _).tail.plain (by simp) rfl)
  | @parse_drop H s _ =>
    have hcalm : Calm H := hinv.shape
    exact drop_ordered hinv.wf hinv.distinct (hcalm.cons trivial)
  | parse_msg s _ => exact h.quiet rfl ((Carries.refl _).plain (by simp) rfl)
  | parse_end s _ _ => exact h.quiet rfl (Carries.refl _).tail
  | op_devlist s d _ _ _ =>
    exact h.quiet (Kept.of_sent (usbip_reply_devlist_sent s)).lanes (Carries.refl _).tail
  | op_import s d _ _ _ =>
    exact h.quiet (Kept.of_sent (usbip_reply_import_false_sent s)).lanes (Carries.refl _).tail
  | op_enum s d op _ _ _ _ => exact h.quiet rfl ((Carries.refl _).tail.plain (by simp) rfl)
  | reset_done s => exact h.quiet rfl ((Carries.refl _).tail.plain (by simp) rfl)
  | reject s d _ _ hrej => exact reject_ordered hinv hrej
  | accept s d u _ _ _ hacc => exact accept_ordered hinv h hacc
  | unlink s d _ _ => exact unlink_ordered hinv h _ _

/-! ## What the log says -/

def Ev.accepted (k : Nat) : Ev → Option Nat
  | .submit i _ k' => if k' = k then some i else none
  | _ => none

/-- The URBs `usbip_handle_submit` accepted for an endpoint, in order. -/
def accepted (log : List Ev) (k : Nat) : List Nat := log.filterMap (Ev.accepted k)

theorem accepted_append (log es : List Ev) (k : Nat) :
    accepted (log ++ es) k = accepted log k ++ accepted es k :=
  List.filterMap_append

theorem mem_accepted {log : List Ev} {i : Nat} : i ∈ accepted log k ↔ ∃ n, .submit i n k ∈ log := by
  simp only [accepted, List.mem_filterMap]
  constructor
  · rintro ⟨e, he, hi⟩
    cases e with
    | submit j n k' =>
      simp only [Ev.accepted] at hi
      split at hi
      · rename_i hk
        obtain rfl := Option.some.inj hi
        exact ⟨n, hk ▸ he⟩
      · cases hi
    | _ => cases hi
  · rintro ⟨n, hn⟩
    exact ⟨_, hn, by simp [Ev.accepted]⟩

/-- The core starts an URB only when every URB accepted before it for the same
    endpoint has been answered. -/
def StartsInOrder (log : List Ev) : Prop :=
  ∀ before i after, log = before ++ .start i :: after →
    ∀ k j, [j, i].Sublist (accepted before k) → answers before j ≠ 0

/-- What a step adds to the log. -/
inductive Adds (c : Cfg) : List Ev → Prop where
  | other (es : List Ev) : (∀ k, accepted es k = []) → (∀ i, .start i ∉ es) → Adds c es
  | start (u : USBIPURB) : Starting c u → Adds c [.start u.id]
  | submit (n k : Nat) : Adds c [.submit c.2.next_id n k]

theorem accepted_none {es : List Ev} (h : ∀ i n k, .submit i n k ∉ es) (k : Nat) :
    accepted es k = [] := by
  rw [List.eq_nil_iff_forall_not_mem]
  intro i hi
  obtain ⟨n, hn⟩ := mem_accepted.mp hi
  exact h i n k hn

theorem adds_drop {es : List Ev} (h : ∀ e ∈ es, e = .reset) : Adds c (.drop :: es) := by
  refine .other _ (accepted_none fun i n k hm => ?_) fun i hm => ?_
  · rcases List.mem_cons.mp hm with hm | hm
    · cases hm
    · cases h _ hm
  · rcases List.mem_cons.mp hm with hm | hm
    · cases hm
    · cases h _ hm

theorem step_adds (hstep : Step c c') : ∃ es, c'.2.log = c.2.log ++ es ∧ Adds c es := by
  have hsame : ∀ {s : Server}, s.log = c.2.log → ∃ es, s.log = c.2.log ++ es ∧ Adds c es :=
    fun h => ⟨[], by rw [h, List.append_nil], .other [] (fun _ => rfl) (by simp)⟩
  cases step_talk hstep with
  | quiet es _ _ hlog hes _ hstart =>
    refine ⟨es, hlog, ?_⟩
    by_cases hs : ∃ i, .start i ∈ es
    · obtain ⟨i, hi⟩ := hs
      obtain ⟨heq, u, rfl, hu⟩ := hstart i hi
      rw [heq]
      exact .start u hu
    · refine .other es (accepted_none fun i n k hm => ?_) fun i hi => hs ⟨i, hi⟩
      cases hes _ hm
  | finish ok _ _ hlog => exact ⟨_, hlog, .other _ (fun _ => rfl) (by simp)⟩
  | drop es _ _ _ hlog hes => exact ⟨_, hlog, adds_drop hes⟩
  | message _ => exact ⟨_, rfl, .other _ (fun _ => rfl) (by simp)⟩
  | reply d _ _ _ hlog => exact hsame hlog
  | reject d es _ _ _ _ _ hlog hes => exact ⟨_, hlog, adds_drop hes⟩
  | @accept H s s' d u _ _ hacc _ hlog =>
    refine ⟨_, hlog, ?_⟩
    have hid : u.id = s.next_id := by
      rcases submit_accept_cases s d with ⟨t, _, heq⟩ | ⟨np, iso, heq, _⟩
      · rw [heq] at hacc
        cases hacc
      · rw [heq] at hacc
        obtain rfl := Option.some.inj hacc
        rfl
    rw [hid]
    exact .submit _ _
  | unlink d status id _ _ _ hlog => exact ⟨_, hlog, .other _ (fun _ => rfl) (by simp)⟩
  | skip _ => exact hsame rfl
  | enter _ => exact hsame rfl
  | leave _ _ => exact hsame rfl
  | enumerate d op _ _ _ _ => exact hsame rfl
  | reset_done => exact hsame rfl

theorem startsInOrder_append {log es : List Ev} (h : StartsInOrder log) (hes : ∀ i, .start i ∉ es) :
    StartsInOrder (log ++ es) := by
  intro before i after heq
  rw [List.append_eq_append_iff] at heq
  rcases heq with ⟨as, _, hes'⟩ | ⟨bs, hlog, hbs⟩
  · exact absurd (by rw [hes']; simp) (hes i)
  · cases bs with
    | nil =>
      rw [List.nil_append] at hbs
      exact absurd (by rw [← hbs]; simp) (hes i)
    | cons b bs =>
      obtain ⟨rfl, _⟩ := List.cons.inj hbs
      exact h before i bs hlog

theorem startsInOrder_start {log : List Ev} {i : Nat} (h : StartsInOrder log)
    (hi : ∀ k j, [j, i].Sublist (accepted log k) → answers log j ≠ 0) :
    StartsInOrder (log ++ [.start i]) := by
  intro before i' after heq
  rcases List.eq_nil_or_concat after with rfl | ⟨after, e, rfl⟩
  · obtain ⟨rfl, he⟩ := List.append_inj' heq rfl
    obtain rfl : i = i' := by simpa using he
    exact hi
  · rw [List.concat_eq_append, ← List.cons_append, ← List.append_assoc] at heq
    obtain ⟨rfl, _⟩ := List.append_inj' heq rfl
    exact h before i' after rfl

/-! ## Starts -/

/-- The URBs carried below a call are in the device's hands. -/
theorem carried_below (h : ∀ t ∈ H, t.below) {x : Ident} (hx : x ∈ carried H) :
    ∃ b w, .run b w ∈ H ∧ ident w = x := by
  induction H with
  | nil => exact absurd hx (Multiset.notMem_zero x)
  | cons t H ih =>
    have hrest : x ∈ carried H → ∃ b w, .run b w ∈ t :: H ∧ ident w = x := by
      intro hx
      obtain ⟨b, w, hw, hid⟩ := ih (fun t' ht' => h t' (List.mem_cons_of_mem _ ht')) hx
      exact ⟨b, w, List.mem_cons_of_mem _ hw, hid⟩
    have ht := h t (List.mem_cons_self ..)
    cases t with
    | run b w =>
      rcases Multiset.mem_cons.mp hx with hx | hx
      · exact ⟨b, w, List.mem_cons_self .., hx.symm⟩
      · exact hrest hx
    | fresh | hand | iso | held | done => exact ht.elim
    | _ => exact hrest hx

/-- An URB about to be started is pending, and the first pending one of its
    endpoint. -/
theorem starting_first (hinv : Inv c) (h : Ordered c) (hu : Starting c u) :
    ident u ∈ (ledger c).pending ∧
      ∀ x ∈ (ledger c).pending, x.key = usbip_urb_key u → u.id ≤ x.id := by
  obtain ⟨H, s⟩ := c
  have hlisted : ∀ x ∈ s.lanes.listed, ∃ w : USBIPURB, ident w = x ∧
      (w ∈ s.lanes.flying x.key ∨ w ∈ s.lanes.waiting x.key) := by
    intro x hx
    rw [Lanes.listed_eq hinv.wf, Multiset.mem_add, mem_bag] at hx
    rcases hx with hx | ⟨j, hj, hx⟩
    · obtain ⟨w, hw, rfl⟩ := List.mem_map.mp (Multiset.mem_coe.mp hx)
      exact ⟨w, rfl, .inl (Lanes.mem_flying.mpr ⟨hw, rfl⟩)⟩
    · obtain ⟨w, hw, rfl⟩ := List.mem_map.mp (Multiset.mem_coe.mp hx)
      refine ⟨w, rfl, .inr ?_⟩
      show w ∈ s.lanes.waiting (usbip_urb_key w)
      rw [(hinv.wf.waiting_state j w hw).1]
      exact hw
  rcases hu with ⟨b, T, rfl, hq⟩ | ⟨k, T, rfl, hh⟩
  · have hcalm : Calm T := hinv.shape.1
    have ha := h.around _ (List.mem_cons_self ..) b u rfl
    have hfl : s.lanes.flying (usbip_urb_key u) = [] := (queue_nil_iff hinv.wf).mp hq
    refine ⟨Multiset.mem_add.mpr (.inl (Multiset.mem_cons_self _ _)), fun x hx hk => ?_⟩
    rcases Multiset.mem_add.mp hx with hx | hx
    · rcases Multiset.mem_cons.mp hx with rfl | hx
      · exact Nat.le_refl _
      · rw [hcalm.carried] at hx
        exact absurd hx (Multiset.notMem_zero x)
    · obtain ⟨w, rfl, hw | hw⟩ := hlisted x hx
      · rw [hk, hfl] at hw
        exact absurd hw List.not_mem_nil
      · rw [hk] at hw
        exact Nat.le_of_lt (ha.waiting w hw)
  · obtain ⟨hk, hmem, hsplit⟩ := flying_of_head hinv.wf hinv.distinct hh
    subst hk
    refine ⟨Multiset.mem_add.mpr (.inr ?_), fun x hx hk => ?_⟩
    · show ident u ∈ s.lanes.listed
      rw [Lanes.listed_eq hinv.wf]
      exact Multiset.mem_add.mpr (.inl (Multiset.mem_coe.mpr (List.mem_map.mpr ⟨u, hmem, rfl⟩)))
    · rcases Multiset.mem_add.mp hx with hx | hx
      · -- a packet the device processes is on another endpoint
        obtain ⟨b, w, hw, rfl⟩ := carried_below hinv.shape.below hx
        have hnil := hinv.runs.of_run (List.mem_cons_of_mem _ hw)
        have hk : usbip_urb_key w = usbip_urb_key u := hk
        rw [hk] at hnil
        rw [show s.lanes.flying (usbip_urb_key u) = _ from hsplit] at hnil
        cases hnil
      · have hs := h.sorted (usbip_urb_key u)
        rw [Lanes.line, show s.lanes.flying (usbip_urb_key u) = _ from hsplit, List.cons_append,
          List.map_cons, List.pairwise_cons] at hs
        obtain ⟨w, rfl, hw⟩ := hlisted x hx
        rw [hk] at hw
        have hin : w = u ∨ w ∈ (s.lanes.flying (usbip_urb_key u)).tail ++
            s.lanes.waiting (usbip_urb_key u) := by
          rcases hw with hw | hw
          · rw [hsplit] at hw
            rcases List.mem_cons.mp hw with hw | hw
            · exact .inl hw
            · exact .inr (List.mem_append.mpr (.inl hw))
          · exact .inr (List.mem_append.mpr (.inr hw))
        rcases hin with rfl | hin
        · exact Nat.le_refl _
        · exact Nat.le_of_lt (hs.1 w.id (List.mem_map.mpr ⟨w, hin, rfl⟩))

theorem starting_in_order (hinv : Inv c) (hlog : LogInv (ledger c)) (h : Ordered c)
    (hsort : ∀ k, (accepted c.2.log k).Pairwise (· < ·)) (hu : Starting c u) {k j : Nat}
    (hj : [j, u.id].Sublist (accepted c.2.log k)) : answers c.2.log j ≠ 0 := by
  obtain ⟨hpend, hfirst⟩ := starting_first hinv h hu
  have hlt : j < u.id := by
    have := (hsort k).sublist hj
    simpa using this
  obtain ⟨n, hsubj⟩ := mem_accepted.mp (hj.subset (List.mem_cons_self ..))
  obtain ⟨n', hsubu⟩ := mem_accepted.mp (hj.subset (by simp : u.id ∈ [j, u.id]))
  cases hint : u.internal with
  | true =>
    -- enumeration requests are issued before anything is accepted
    exact absurd hsubj (hlog.early (.inr (hinv.ledger.enumerating hpend hint)) j n k)
  | false =>
    have hatt := hinv.ledger.attached hpend hint
    have hlink := hlog.linked (by rw [hatt]; decide)
    have hcl : ident u ∈ clients (ledger c).pending := Multiset.mem_filter.mpr ⟨hpend, hint⟩
    have hans := ((hlink u.id u.seqnum (usbip_urb_key u)).mpr ⟨_, hcl, rfl, rfl, rfl⟩).2
    -- the endpoint of the log entry is the URB's
    obtain ⟨x, hx, hxid, _, hxk⟩ := (hlink u.id n' k).mp ⟨hsubu, hans⟩
    have hxu : x = ident u :=
      Multiset.inj_on_of_nodup_map hinv.ledger.nodup x (Multiset.mem_filter.mp hx).1 _ hpend hxid
    have hk : usbip_urb_key u = k := by
      rw [hxu] at hxk
      exact hxk
    intro hz
    obtain ⟨y, hy, hyid, _, hyk⟩ := (hlink j n k).mp ⟨hsubj, hz⟩
    have := hfirst y (Multiset.mem_filter.mp hy).1 (hyk.trans hk.symm)
    omega

/-! ## Every run -/

/-- No halt handed packets back behind URBs that waited. -/
def NoLateHalt (log : List Ev) : Prop := ∀ k, .halt k true ∉ log

theorem NoLateHalt.of_append {log es : List Ev} (h : NoLateHalt (log ++ es)) : NoLateHalt log :=
  fun k hk => h k (List.mem_append.mpr (.inl hk))

structure OrderInv (c : Cfg) : Prop where
  log : LogInv (ledger c)
  increasing : ∀ k, (accepted c.2.log k).Pairwise (· < ·)
  ordered : NoLateHalt c.2.log → Ordered c ∧ StartsInOrder c.2.log

theorem accepted_snoc {log : List Ev} {i n k : Nat} (h : ∀ k, (accepted log k).Pairwise (· < ·))
    (hlt : ∀ i' n' k', .submit i' n' k' ∈ log → i' < i) (j : Nat) :
    (accepted (log ++ [.submit i n k]) j).Pairwise (· < ·) := by
  rw [accepted_append, List.pairwise_append]
  refine ⟨h j, ?_, fun a ha b hb => ?_⟩
  · simp only [accepted, List.filterMap_cons, List.filterMap_nil]
    split <;> simp
  · obtain ⟨n', ha⟩ := mem_accepted.mp ha
    obtain ⟨n'', hb⟩ := mem_accepted.mp hb
    obtain ⟨rfl, _⟩ : b = i ∧ _ := by simpa using hb
    exact hlt a n' j ha

theorem step_orderInv (hinv : Inv c) (h : OrderInv c) (hstep : Step c c') : OrderInv c' := by
  have hnext := step_next hinv hstep
  obtain ⟨es, hlog, hadds⟩ := step_adds hstep
  refine ⟨step_log hinv.ledger h.log hnext.ledger, fun k => ?_, fun hno => ?_⟩
  · rw [hlog]
    cases hadds with
    | other es hacc _ =>
      rw [accepted_append, hacc, List.append_nil]
      exact h.increasing k
    | start u _ =>
      rw [accepted_append, show accepted [.start u.id] k = [] from rfl, List.append_nil]
      exact h.increasing k
    | submit n k' => exact accepted_snoc h.increasing h.log.submit_lt k
  · obtain ⟨hord, hstarts⟩ := h.ordered (NoLateHalt.of_append (hlog ▸ hno))
    refine ⟨step_ordered hinv hord hstep hno, ?_⟩
    rw [hlog]
    cases hadds with
    | other es _ hst => exact startsInOrder_append hstarts hst
    | start u hu =>
      exact startsInOrder_start hstarts fun k j hj =>
        starting_in_order hinv h.log hord h.increasing hu hj
    | submit n k' => exact startsInOrder_append hstarts (by simp)

theorem OrderInv.arrived (h : OrderInv ([], s)) (hnext : Next ([], s) (H', s')) (hinv : Inv ([], s))
    {es : List Ev} (hlog : s'.log = s.log ++ es) (hes : ∀ e ∈ es, e = .reset)
    (hord : Ordered ([], s) → Ordered (H', s')) : OrderInv (H', s') := by
  have hacc : ∀ k, accepted es k = [] :=
    accepted_none fun i n k hm => by cases hes _ hm
  refine ⟨step_log hinv.ledger h.log hnext.ledger, fun k => ?_, fun hno => ?_⟩
  · simp only [hlog]
    rw [accepted_append, hacc, List.append_nil]
    exact h.increasing k
  · simp only [hlog] at hno ⊢
    obtain ⟨ho, hst⟩ := h.ordered hno.of_append
    exact ⟨hord ho, startsInOrder_append hst fun i hi => by cases hes _ hi⟩

theorem Emptied.ordered (he : Emptied s s') : Ordered ([], s') :=
  Ordered.emptied Calm.nil he.inflight he.waiting

theorem close_orderInv (hinv : Inv ([], s)) (h : OrderInv ([], s)) :
    OrderInv ([], usbip_close_client s) := by
  have he := close_client_emptied s hinv.wf hinv.distinct
  have hnext := close_client_next hinv
  have hlog := close_client_log s
  generalize usbip_close_client s = t at he hnext hlog
  rcases hlog with hlog | hlog
  · exact h.arrived hnext hinv hlog (by simp) fun _ => he.ordered
  · exact h.arrived hnext hinv hlog (by simp) fun _ => he.ordered

theorem arrive_orderInv (hinv : Inv ([], s)) (h : OrderInv ([], s)) (ha : Arrive s c) :
    OrderInv c := by
  have hnext := arrive_next hinv ha
  have hretry : Carries [] [.retry 0] := (Carries.refl []).plain (by simp) rfl
  cases ha with
  | input script cw =>
    exact h.arrived hnext hinv (List.append_nil _).symm (by simp) fun ho => ho.quiet rfl (.refl _)
  | read buf _ =>
    refine h.arrived hnext hinv (List.append_nil _).symm (by simp) fun ho => ho.quiet rfl ?_
    exact (Carries.refl []).plain (by simp) rfl
  | fire_retry =>
    exact h.arrived hnext hinv (List.append_nil _).symm (by simp) fun ho => ho.quiet rfl hretry
  | fire_iso =>
    exact h.arrived hnext hinv (List.append_nil _).symm (by simp) fun ho => ho.quiet rfl hretry
  | fire_bh =>
    exact h.arrived hnext hinv (List.append_nil _).symm (by simp) fun ho => ho.quiet rfl hretry
  | chr e =>
    have he := reset_connection_emptied s hinv.wf hinv.distinct
    cases e with
    | opened =>
      refine ⟨step_log hinv.ledger h.log hnext.ledger, fun k => .nil, fun _ => ⟨?_, ?_⟩⟩
      · unfold usbip_event usb_port_set_vbus
        dsimp only
        generalize usbip_reset_connection s = t at he
        exact Ordered.emptied Calm.nil he.inflight he.waiting
      · intro before i after heq
        exact absurd heq.symm (by simp [usbip_event, usb_port_set_vbus])
    | closed =>
      have hlog := reset_connection_log s
      replace hnext : Next ([], s) ([], usbip_reset_connection s) := hnext
      show OrderInv ([], usbip_reset_connection s)
      generalize usbip_reset_connection s = t at he hnext hlog
      exact h.arrived hnext hinv hlog (by simp) fun _ => he.ordered
  | tx_ready =>
    have hk := Kept.of_sent (usbip_tx_ready_sent s)
    exact h.arrived hnext hinv hk.log (by simp) fun ho => ho.quiet hk.lanes (.refl _)
  -- In a reset of its own, or without a client that has the device, nothing is closed.
  | detach =>
    have hdetach : OrderInv ([], usbip_port_detach s) := by
      unfold usbip_port_detach
      split
      · exact h
      · have hquiet : OrderInv ([], { s with enumerated := false }) :=
          ⟨h.log, h.increasing, fun hno =>
            ⟨(h.ordered hno).1.quiet rfl (.refl _), (h.ordered hno).2⟩⟩
        dsimp only
        split
        · exact close_orderInv ⟨hinv.ledger, hinv.shape, hinv.runs⟩ hquiet
        · exact hquiet
    generalize usbip_port_detach s = t at hdetach
    exact ⟨hdetach.log, hdetach.increasing,
      fun hno => ⟨(hdetach.ordered hno).1.quiet rfl (.refl _), (hdetach.ordered hno).2⟩⟩
  | attach speed _ =>
    exact h.arrived hnext hinv (List.append_nil _).symm (by simp) fun ho => ho.quiet rfl (.refl _)
  | system_reset =>
    unfold usbip_server_reset_hold
    split
    · exact h
    · exact close_orderInv hinv h
  | tick ns =>
    exact h.arrived hnext hinv (List.append_nil _).symm (by simp) fun ho => ho.quiet rfl (.refl _)

theorem init_orderInv (b : Bool) : OrderInv ([], Server.init b) := by
  refine ⟨?_, fun k => .nil, fun _ => ⟨Ordered.emptied Calm.nil rfl fun _ => rfl, ?_⟩⟩
  · exact ⟨logOk_nil, by simp [ledger, Server.init], by simp [ledger, Server.init, answers],
      by simp [ledger, Server.init], fun hc => absurd rfl hc⟩
  · intro before i after heq
    exact absurd heq.symm (by simp [Server.init])

theorem reachable_orderInv (hs : Reachable s) : OrderInv ([], s) :=
  reachable_with_inv OrderInv init_orderInv (fun _ _ hi h ha => arrive_orderInv hi h ha)
    (fun _ _ hi h hstep => step_orderInv hi h hstep) hs

/-- The client's URBs of an endpoint, in flight and then waiting. -/
def Server.client_line (s : Server) (k : Nat) : List USBIPURB :=
  (s.inflight.filter (usbip_urb_key · == k) ++ s.waiting k).filter (fun u => !u.internal)

/-- **Per-endpoint order.**  In every run in which no halt hands packets back
    behind URBs of the same endpoint that wait already, the client's URBs of an
    endpoint, in flight and then waiting, are in the order in which they were
    accepted, and the device is started on an URB only when every URB accepted
    before it for that endpoint has been answered. -/
theorem endpoint_order (hs : Reachable s) (hno : ∀ k, .halt k true ∉ s.log) :
    (∀ k, ((s.client_line k).map (·.id)).Sublist (accepted s.log k)) ∧ StartsInOrder s.log := by
  have hinv := reachable_inv hs
  have hord := reachable_orderInv hs
  obtain ⟨ho, hstarts⟩ := hord.ordered hno
  refine ⟨fun k => ?_, hstarts⟩
  have hpend : (ledger ([], s)).pending = s.lanes.listed := zero_add _
  have hsorted : ((s.client_line k).map (·.id)).Pairwise (· < ·) :=
    (ho.sorted k).sublist ((List.filter_sublist).map _)
  refine List.sublist_of_subperm_of_pairwise (List.subperm_of_subset ?_ ?_) ?_ ?_ (r := (· < ·))
  · exact hsorted.imp Nat.ne_of_lt
  · intro i hi
    obtain ⟨u, hu, rfl⟩ := List.mem_map.mp hi
    obtain ⟨hu, hint⟩ := List.mem_filter.mp hu
    have hint : u.internal = false := by simpa using hint
    have hkey : usbip_urb_key u = k ∧ u ∈ s.inflight ++ s.all_waiting := by
      rcases List.mem_append.mp hu with hu | hu
      · obtain ⟨hu, hk⟩ := List.mem_filter.mp hu
        exact ⟨by simpa using hk, List.mem_append.mpr (.inl hu)⟩
      · refine ⟨(hinv.wf.waiting_state k u hu).1, List.mem_append.mpr (.inr ?_)⟩
        refine List.mem_flatMap.mpr ⟨k, List.mem_range.mpr ?_, hu⟩
        by_contra hlt
        rw [show s.waiting k = [] from hinv.wf.waiting_lt k (Nat.not_lt.mp hlt)] at hu
        exact List.not_mem_nil hu
    have hmem : ident u ∈ clients (ledger ([], s)).pending := by
      rw [hpend]
      exact Multiset.mem_filter.mpr ⟨(mem_listed_iff hinv.wf _).mpr ⟨u, hkey.2, rfl⟩, hint⟩
    have hatt : s.conn = .attached :=
      hinv.ledger.attached (Multiset.mem_filter.mp hmem).1 hint
    have hlink := hord.log.linked (by show s.conn ≠ _; rw [hatt]; decide)
    have := ((hlink u.id u.seqnum k).mpr ⟨_, hmem, rfl, rfl, hkey.1⟩).1
    exact mem_accepted.mpr ⟨_, this⟩
  · exact hsorted
  · exact hord.increasing k

/-! ## A halt out of order -/

/-- Two bulk IN URBs, the first held by the device and the second queued; the
    endpoint becomes isochronous (a SET_INTERFACE) and an ISO URB arrives before
    its frame; then the device stalls the first. -/
def late_halt_session : List Input :=
  import_session ++
    [{ event := .read (submit_header 1 1 1 8 0 ++ submit_header 2 1 1 8 0),
       budget := 5, script := [.ret .hold] },
     { event := .set_type 17 true },
     { event := .tick 1 },
     { event := .read (submit_header 3 1 1 8 1 ++ be32 0 ++ be32 8 ++ be32 0 ++ be32 0),
       budget := 5 },
     { event := .complete 17 { status := .stall }, budget := 5 }]

/-- The ISO URB waits ahead of the bulk URB that was accepted before it. -/
theorem late_halt_out_of_order :
    let s := run (Server.init true) late_halt_session
    accepted s.log 17 = [4, 5, 6] ∧ (s.client_line 17).map (·.id) = [6, 5] ∧
      ¬ ((s.client_line 17).map (·.id)).Sublist (accepted s.log 17) := by
  decide +kernel

/-- Before the device stalls, the order holds. -/
theorem no_late_halt_in_order :
    let s := run (Server.init true) (late_halt_session.take 7)
    (s.client_line 17).map (·.id) = [4, 5, 6] ∧
      ((s.client_line 17).map (·.id)).Sublist (accepted s.log 17) := by
  intro s
  have hno : ∀ k, .halt k true ∉ s.log := by
    intro k hk
    have hall : s.log.all (fun e => match e with | .halt _ _ => false | _ => true) = true := by
      decide +kernel
    have := List.all_eq_true.mp hall _ hk
    cases this
  exact ⟨by decide +kernel, (endpoint_order (s := s) ⟨true, _, rfl⟩ hno).1 17⟩

end Usbip
