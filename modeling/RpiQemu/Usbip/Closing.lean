import RpiQemu.Usbip.Ledger

/-! # The end of a connection

    `usbip_cancel_all` unlinks and frees every URB, one by one: afterwards no
    list holds any, and the client's counters are back at 0. -/

namespace Usbip

open Keyed Ledger

/-- The counters count the listed URBs, and are within the client's limits. -/
structure Counted (s : Server) : Prop where
  accounted : Accounted s.nurbs s.urb_bytes s.lanes.listed
  nurbs_le : s.nurbs ≤ usbip_max_urbs
  urb_bytes_le : s.urb_bytes ≤ usbip_max_urb_bytes

theorem urb_free_lanes (s : Server) (u : USBIPURB) : (usbip_urb_free s u).lanes = s.lanes := by
  unfold usbip_urb_free
  split
  · rfl
  · simp only [Server.lanes]

theorem urb_unlink_nurbs (s : Server) (u : USBIPURB) :
    (usbip_urb_unlink s u).nurbs = s.nurbs ∧ (usbip_urb_unlink s u).urb_bytes = s.urb_bytes := by
  obtain ⟨_, _, _, _, h⟩ := usbip_urb_unlink_shifted s u
  rw [h]
  exact ⟨rfl, rfl⟩

/-- Unlinking and freeing one URB keeps the counters right. -/
theorem unlink_free_counted (s : Server) (u : USBIPURB) (h : Counted s)
    (hu : Unlinked u s.lanes (usbip_urb_unlink s u).lanes) :
    Counted (usbip_urb_free (usbip_urb_unlink s u) u) := by
  obtain ⟨hn, hb⟩ := urb_unlink_nurbs s u
  have hacc := h.accounted
  rw [hu.listed] at hacc
  cases hi : u.internal with
  | true =>
    have hfree : usbip_urb_free (usbip_urb_unlink s u) u = usbip_urb_unlink s u := by
      simp [usbip_urb_free, hi]
    have hcl : clients (ident u ::ₘ (usbip_urb_unlink s u).lanes.listed) =
        clients (usbip_urb_unlink s u).lanes.listed := clients_cons_internal hi
    rw [hfree]
    refine ⟨⟨?_, ?_⟩, ?_, ?_⟩
    · rw [hn, hacc.nurbs, hcl]
    · rw [hb, hacc.urb_bytes, hcl]
    · rw [hn]
      exact h.nurbs_le
    · rw [hb]
      exact h.urb_bytes_le
  | false =>
    have hcl : clients (ident u ::ₘ (usbip_urb_unlink s u).lanes.listed) =
        ident u ::ₘ clients (usbip_urb_unlink s u).lanes.listed := clients_cons_client hi
    have hn' := hacc.nurbs
    have hb' := hacc.urb_bytes
    rw [hcl, Multiset.card_cons] at hn'
    rw [hcl, Multiset.map_cons, Multiset.sum_cons] at hb'
    obtain ⟨hn'', hb''⟩ := Accounted.free_client hn' hb' h.nurbs_le h.urb_bytes_le
    have hnf : (usbip_urb_free (usbip_urb_unlink s u) u).nurbs =
        (clients (usbip_urb_unlink s u).lanes.listed).card := by
      simpa [usbip_urb_free, hi, hn] using hn''
    have hbf : (usbip_urb_free (usbip_urb_unlink s u) u).urb_bytes =
        ((clients (usbip_urb_unlink s u).lanes.listed).map Ident.len).sum := by
      simpa [usbip_urb_free, hi, hb, ident] using hb''
    refine ⟨?_, ?_, ?_⟩
    · rw [urb_free_lanes]
      exact ⟨hnf, hbf⟩
    · have := h.nurbs_le
      omega
    · have := h.urb_bytes_le
      omega

/-! ## Cancelling everything -/

/-- What holds while `usbip_cancel_all` runs. -/
structure Cancelling (s s' : Server) : Prop where
  wf : s'.lanes.Wf
  distinct : s'.lanes.Distinct
  counted : Counted s → Counted s'

theorem Cancelling.trans {s s' s'' : Server} (h : Cancelling s s') (h' : Cancelling s' s'') :
    Cancelling s s'' :=
  ⟨h'.wf, h'.distinct, fun hc => h'.counted (h.counted hc)⟩

theorem unlink_free_cancelling (s : Server) (u : USBIPURB) (h : s.lanes.Wf)
    (hd : s.lanes.Distinct) (hu : s.lanes.Has u) :
    Cancelling s (usbip_urb_free (usbip_urb_unlink s u) u) := by
  have hun := urb_unlink_lanes s u h hd hu
  refine ⟨?_, ?_, fun hc => unlink_free_counted s u hc hun⟩
  · rw [urb_free_lanes]
    exact hun.wf
  · rw [urb_free_lanes]
    exact hun.distinct hd

theorem requeue_behind_inflight_le (s : Server) (k : Nat) :
    (usbip_requeue_behind s k).inflight.length ≤ s.inflight.length := by
  have hfold : ∀ (us : List USBIPURB) (s : Server),
      (us.foldl (fun s u => if u.packet.ep = k ∧ u.packet.state = .queued then
        usbip_requeue_one s u else s) s).inflight.length ≤ s.inflight.length := by
    intro us
    induction us with
    | nil => exact fun s => Nat.le_refl _
    | cons u us ih =>
      intro s
      rw [List.foldl_cons]
      split
      · exact Nat.le_trans (ih _) (List.length_eraseP_le ..)
      · exact ih s
  exact hfold _ s

theorem unlink_inflight_lt (s : Server) (u : USBIPURB) (h : s.lanes.Wf) (hu : u ∈ s.inflight) :
    (usbip_urb_unlink s u).inflight.length < s.inflight.length := by
  have hlt : (remove s.inflight u.id).length < s.inflight.length := by
    rw [remove, List.length_eraseP_of_mem hu (by simp)]
    have := List.length_pos_of_mem hu
    omega
  unfold usbip_urb_unlink
  rw [if_pos (h.flying_state u hu).1]
  dsimp only
  split
  · exact Nat.lt_of_le_of_lt (requeue_behind_inflight_le _ _) hlt
  · exact hlt

theorem cancel_inflight_spec (n : Nat) (s : Server) (h : s.lanes.Wf) (hd : s.lanes.Distinct)
    (hn : s.inflight.length ≤ n) :
    Cancelling s (usbip_cancel_inflight n s) ∧ (usbip_cancel_inflight n s).inflight = [] := by
  induction n generalizing s with
  | zero =>
    have hnil : s.inflight = [] := List.length_eq_zero_iff.mp (by omega)
    exact ⟨⟨h, hd, id⟩, hnil⟩
  | succ n ih =>
    unfold usbip_cancel_inflight
    split
    · rename_i hnil
      exact ⟨⟨h, hd, id⟩, hnil⟩
    · rename_i u us hus
      have hu : u ∈ s.inflight := by rw [hus]; simp
      have hone := unlink_free_cancelling s u h hd (.inl hu)
      have hlt := unlink_inflight_lt s u h hu
      have hfree : (usbip_urb_free (usbip_urb_unlink s u) u).inflight =
          (usbip_urb_unlink s u).inflight := congrArg Lanes.inflight (urb_free_lanes _ u)
      obtain ⟨hrest, hnil⟩ := ih _ hone.wf hone.distinct (by rw [hfree]; omega)
      exact ⟨hone.trans hrest, hnil⟩

/-- Unlinking the first waiting URB of a key takes it off its list only. -/
theorem unlink_waiting_head (s : Server) (u : USBIPURB) (k : Nat) (us : List USBIPURB)
    (h : s.lanes.Wf) (hus : s.waiting k = u :: us) :
    usbip_urb_unlink s u = s.set_waiting k us := by
  obtain ⟨hk, hst⟩ := h.waiting_state k u (by rw [show s.lanes.waiting k = _ from hus]; simp)
  unfold usbip_urb_unlink
  rw [if_neg (by rw [hst]; decide)]
  dsimp only
  rw [hk, hus, remove, List.eraseP_cons_of_pos (by simp)]

theorem cancel_waiting_spec (k n : Nat) (s : Server) (h : s.lanes.Wf) (hd : s.lanes.Distinct)
    (hn : (s.waiting k).length ≤ n) :
    Cancelling s (usbip_cancel_waiting k n s) ∧
      (usbip_cancel_waiting k n s).inflight = s.inflight ∧
      (usbip_cancel_waiting k n s).waiting = Function.update s.waiting k [] := by
  induction n generalizing s with
  | zero =>
    have hnil : s.waiting k = [] := List.length_eq_zero_iff.mp (by omega)
    exact ⟨⟨h, hd, id⟩, rfl, by rw [← hnil]; simp [usbip_cancel_waiting]⟩
  | succ n ih =>
    unfold usbip_cancel_waiting
    split
    · rename_i hnil
      exact ⟨⟨h, hd, id⟩, rfl, by rw [← hnil]; simp⟩
    · rename_i u us hus
      have hmem : u ∈ s.lanes.waiting k := by rw [show s.lanes.waiting k = _ from hus]; simp
      obtain ⟨hk, _⟩ := h.waiting_state k u hmem
      have hone := unlink_free_cancelling s u h hd (.inr (by rw [hk]; exact hmem))
      have hlanes : (usbip_urb_free (usbip_urb_unlink s u) u).lanes =
          (s.set_waiting k us).lanes := by
        rw [urb_free_lanes, unlink_waiting_head s u k us h hus]
      have hinf : (usbip_urb_free (usbip_urb_unlink s u) u).inflight = s.inflight :=
        congrArg Lanes.inflight hlanes
      have hw : (usbip_urb_free (usbip_urb_unlink s u) u).waiting =
          Function.update s.waiting k us := congrArg Lanes.waiting hlanes
      obtain ⟨hrest, hinf', hw'⟩ := ih _ hone.wf hone.distinct (by
        rw [hw, Function.update_self]
        rw [hus, List.length_cons] at hn
        omega)
      refine ⟨hone.trans hrest, hinf'.trans hinf, ?_⟩
      rw [hw', hw, Function.update_idem]

/-- The waiting lists of the keys below `n` are cancelled. -/
def cancel_keys (n : Nat) (s : Server) : Server :=
  (List.range n).foldl (fun s i => usbip_cancel_waiting i (s.waiting i).length s) s

theorem cancel_keys_succ (n : Nat) (s : Server) : cancel_keys (n + 1) s =
    usbip_cancel_waiting n ((cancel_keys n s).waiting n).length (cancel_keys n s) := by
  simp [cancel_keys, List.range_succ]

theorem cancel_keys_spec (n : Nat) (s : Server) (h : s.lanes.Wf) (hd : s.lanes.Distinct) :
    Cancelling s (cancel_keys n s) ∧ (cancel_keys n s).inflight = s.inflight ∧
      (∀ k < n, (cancel_keys n s).waiting k = []) ∧
      ∀ k, n ≤ k → (cancel_keys n s).waiting k = s.waiting k := by
  induction n with
  | zero => exact ⟨⟨h, hd, id⟩, rfl, fun k hk => by omega, fun _ _ => rfl⟩
  | succ n ih =>
    obtain ⟨hc, hinf, hlow, hhigh⟩ := ih
    rw [cancel_keys_succ]
    obtain ⟨hc', hinf', hw'⟩ := cancel_waiting_spec n _ _ hc.wf hc.distinct (Nat.le_refl _)
    refine ⟨hc.trans hc', hinf'.trans hinf, ?_, ?_⟩
    · intro k hk
      rw [hw']
      by_cases hkn : k = n
      · rw [hkn, Function.update_self]
      · rw [Function.update_of_ne hkn]
        exact hlow k (by omega)
    · intro k hk
      rw [hw', Function.update_of_ne (by omega)]
      exact hhigh k (by omega)

/-- **`usbip_cancel_all` leaves no URB on any list.** -/
theorem cancel_all_spec (s : Server) (h : s.lanes.Wf) (hd : s.lanes.Distinct) :
    Cancelling s (usbip_cancel_all s) ∧ (usbip_cancel_all s).inflight = [] ∧
      ∀ k, (usbip_cancel_all s).waiting k = [] := by
  have hdef : usbip_cancel_all s =
      cancel_keys usbip_num_keys (usbip_cancel_inflight s.inflight.length s) := rfl
  rw [hdef]
  obtain ⟨hc, hinf⟩ := cancel_inflight_spec s.inflight.length s h hd (Nat.le_refl _)
  obtain ⟨hc', hinf', hlow, hhigh⟩ := cancel_keys_spec usbip_num_keys _ hc.wf hc.distinct
  refine ⟨hc.trans hc', hinf'.trans hinf, fun k => ?_⟩
  by_cases hk : k < usbip_num_keys
  · exact hlow k hk
  · exact (hhigh k (by omega)).trans (hc.wf.waiting_lt k (by omega))

theorem listed_eq_zero {l : Lanes} (hi : l.inflight = []) (hw : ∀ k, l.waiting k = []) :
    l.listed = 0 := by
  unfold Lanes.listed bag Lanes.line Lanes.flying
  simp [hi, hw]

/-- The lists are empty and the counters are back at 0. -/
structure Emptied (s s' : Server) : Prop where
  wf : s'.lanes.Wf
  inflight : s'.inflight = []
  waiting : ∀ k, s'.waiting k = []
  counters : Counted s → s'.nurbs = 0 ∧ s'.urb_bytes = 0

theorem Emptied.listed {s s' : Server} (h : Emptied s s') : s'.lanes.listed = 0 :=
  listed_eq_zero (l := s'.lanes) h.inflight h.waiting

theorem Emptied.distinct {s s' : Server} (h : Emptied s s') : s'.lanes.Distinct := by
  unfold Lanes.Distinct
  simp [h.listed]

theorem Emptied.counted {s s' : Server} (h : Emptied s s') (hc : Counted s) : Counted s' := by
  obtain ⟨hn, hb⟩ := h.counters hc
  refine ⟨⟨?_, ?_⟩, ?_, ?_⟩
  · simp [hn, h.listed]
  · simp [hb, h.listed]
  · omega
  · omega

theorem reset_connection_emptied (s : Server) (h : s.lanes.Wf) (hd : s.lanes.Distinct) :
    Emptied s (usbip_reset_connection s) := by
  obtain ⟨hc, hinf, hw⟩ := cancel_all_spec (s.note .reset) h hd
  unfold usbip_reset_connection usb_port_set_vbus
  generalize usbip_cancel_all (s.note .reset) = t at hc hinf hw
  refine ⟨hc.wf, hinf, hw, fun hcount => ?_⟩
  have hacc := (hc.counted ⟨hcount.accounted, hcount.nurbs_le, hcount.urb_bytes_le⟩).accounted
  rw [listed_eq_zero (l := t.lanes) hinf hw] at hacc
  exact ⟨hacc.nurbs, hacc.urb_bytes⟩

theorem close_client_emptied (s : Server) (h : s.lanes.Wf) (hd : s.lanes.Distinct) :
    Emptied s (usbip_close_client s) := by
  have h1 := reset_connection_emptied s h hd
  unfold usbip_close_client qemu_chr_fe_disconnect usbip_event
  split
  · have h2 := reset_connection_emptied _ h1.wf h1.distinct
    exact ⟨h2.wf, h2.inflight, h2.waiting, fun hc => h2.counters (h1.counted hc)⟩
  · exact h1

theorem drop_client_emptied (s : Server) (h : s.lanes.Wf) (hd : s.lanes.Distinct) :
    Emptied s (usbip_drop_client s) := by
  have h1 := close_client_emptied (s.note .drop) h hd
  unfold usbip_drop_client
  exact ⟨h1.wf, h1.inflight, h1.waiting,
    fun hc => h1.counters ⟨hc.accounted, hc.nurbs_le, hc.urb_bytes_le⟩⟩

/-! ## What a closed connection logs -/

theorem reset_connection_log (s : Server) : (usbip_reset_connection s).log = s.log ++ [.reset] := by
  obtain ⟨_, _, _, _, _, _, h⟩ := usbip_cancel_all_moved (s.note .reset)
  unfold usbip_reset_connection usb_port_set_vbus
  rw [h]
  rfl

/-- One `reset`, or two when the chardev reports its own disconnect. -/
theorem close_client_log (s : Server) :
    (usbip_close_client s).log = s.log ++ [.reset] ∨
      (usbip_close_client s).log = s.log ++ [.reset, .reset] := by
  unfold usbip_close_client qemu_chr_fe_disconnect usbip_event
  split
  · right
    rw [reset_connection_log, reset_connection_log]
    simp
  · exact .inl (reset_connection_log s)

theorem drop_client_log (s : Server) :
    (usbip_drop_client s).log = s.log ++ [.drop, .reset] ∨
      (usbip_drop_client s).log = s.log ++ [.drop, .reset, .reset] := by
  rcases close_client_log (s.note .drop) with h | h
  · left
    rw [usbip_drop_client, h]
    simp [Server.note]
  · right
    rw [usbip_drop_client, h]
    simp [Server.note]

end Usbip
