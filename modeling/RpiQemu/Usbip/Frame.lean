import RpiQemu.Usbip.Machine

/-! # What the server's functions leave alone

    Three frame conditions cover the functions that invariants need not look
    into: `Sent` (output), `Moved` (the URB lists and the client's counters)
    and `Closed` (the end of a connection).  Each says that the new state is the
    old one up to the fields it names, so a proof rewrites with it and reads the
    other fields off the old state. -/

namespace Usbip

open Bytes

/-! ## Output -/

/-- Only output happened. -/
def Sent (s s' : Server) : Prop :=
  ∃ tx watch chr_write out,
    s' = { s with tx := tx, watch := watch, chr_write := chr_write, out := out }

theorem Sent.refl (s : Server) : Sent s s := ⟨s.tx, s.watch, s.chr_write, s.out, rfl⟩

theorem Sent.trans {s s' s'' : Server} (h : Sent s s') (h' : Sent s' s'') : Sent s s'' := by
  obtain ⟨_, _, _, _, rfl⟩ := h
  obtain ⟨tx, watch, cw, out, rfl⟩ := h'
  exact ⟨tx, watch, cw, out, rfl⟩

theorem usbip_flush_loop_sent (n : Nat) (s : Server) : Sent s (usbip_flush_loop n s) := by
  induction n generalizing s with
  | zero => exact Sent.refl s
  | succ n ih =>
    unfold usbip_flush_loop
    split
    · exact Sent.refl s
    · dsimp only
      split
      · exact ⟨s.tx, true, s.chr_write.tail, s.out, rfl⟩
      · exact Sent.trans ⟨_, s.watch, _, s.out, rfl⟩ (ih _)

theorem usbip_flush_sent (s : Server) : Sent s (usbip_flush s) := usbip_flush_loop_sent _ s

theorem usbip_send_sent (s : Server) (data : List UInt8) : Sent s (usbip_send s data) := by
  unfold usbip_send
  split
  · exact Sent.refl s
  · exact Sent.trans ⟨_, s.watch, s.chr_write, _, rfl⟩ (usbip_flush_sent _)

theorem foldl_send_sent (l : List (List UInt8)) (s : Server) :
    Sent s (l.foldl usbip_send s) := by
  induction l generalizing s with
  | nil => exact Sent.refl s
  | cons x l ih => exact (usbip_send_sent s x).trans (ih _)

theorem usbip_send_ret_submit_sent (s : Server) (u : USBIPURB) :
    Sent (s.note (.ret_submit u.id u.seqnum)) (usbip_send_ret_submit s u) :=
  foldl_send_sent _ _

theorem usbip_send_device_record_sent (s : Server) (b : Bool) :
    Sent s (usbip_send_device_record s b) := by
  unfold usbip_send_device_record
  dsimp only
  split
  · exact (usbip_send_sent _ _).trans (foldl_send_sent _ _)
  · exact usbip_send_sent _ _

theorem usbip_reply_devlist_sent (s : Server) : Sent s (usbip_reply_devlist s) := by
  unfold usbip_reply_devlist usbip_send_op_header
  dsimp only
  have h := fun n => (usbip_send_sent s
    (be16 usbip_version ++ be16 usbip_op_rep_devlist ++ be32 0)).trans (usbip_send_sent _ (be32 n))
  split
  · exact (h 1).trans (usbip_send_device_record_sent _ true)
  · exact h 0

theorem usbip_reply_import_false_sent (s : Server) : Sent s (usbip_reply_import s false) :=
  usbip_send_sent _ _

/-- A successful import switches to URB traffic. -/
theorem usbip_reply_import_true_sent (s : Server) :
    ∃ t, Sent s t ∧ usbip_reply_import s true = { t with conn := .attached } :=
  ⟨_, (usbip_send_sent s _).trans (usbip_send_device_record_sent _ false), rfl⟩

theorem usbip_tx_ready_sent (s : Server) : Sent s (usbip_tx_ready s) :=
  Sent.trans ⟨s.tx, false, s.chr_write, s.out, rfl⟩ (usbip_flush_sent _)

/-! ## Lists and counters -/

/-- Only the URB lists, the endpoints and the bottom half changed. -/
def Shifted (s s' : Server) : Prop :=
  ∃ inflight waiting eps retry_bh,
    s' = { s with inflight := inflight, waiting := waiting, eps := eps, retry_bh := retry_bh }

theorem Shifted.refl (s : Server) : Shifted s s :=
  ⟨s.inflight, s.waiting, s.eps, s.retry_bh, rfl⟩

theorem Shifted.trans {s s' s'' : Server} (h : Shifted s s') (h' : Shifted s' s'') :
    Shifted s s'' := by
  obtain ⟨_, _, _, _, rfl⟩ := h
  obtain ⟨i, w, e, b, rfl⟩ := h'
  exact ⟨i, w, e, b, rfl⟩

theorem foldl_shifted {α : Type} (f : Server → α → Server) (hf : ∀ s a, Shifted s (f s a))
    (l : List α) (s : Server) : Shifted s (l.foldl f s) := by
  induction l generalizing s with
  | nil => exact Shifted.refl s
  | cons a l ih => exact (hf s a).trans (ih _)

theorem usbip_requeue_behind_shifted (s : Server) (ep : Nat) :
    Shifted s (usbip_requeue_behind s ep) := by
  unfold usbip_requeue_behind
  refine (foldl_shifted _ ?_ _ s).trans ⟨_, _, _, true, rfl⟩
  intro s u
  split
  · exact ⟨_, _, _, s.retry_bh, rfl⟩
  · exact Shifted.refl s

theorem usbip_urb_unlink_shifted (s : Server) (u : USBIPURB) :
    Shifted s (usbip_urb_unlink s u) := by
  unfold usbip_urb_unlink
  split
  · dsimp only
    have h : Shifted s (usb_cancel_packet { s with inflight := remove s.inflight u.id } u) :=
      ⟨_, s.waiting, _, s.retry_bh, rfl⟩
    split
    · exact h.trans (usbip_requeue_behind_shifted _ _)
    · exact h
  · exact ⟨s.inflight, _, s.eps, s.retry_bh, rfl⟩

theorem usb_ep_flush_shifted (env : Env) (s : Server) (k : Nat) :
    Shifted s (usb_ep_flush env s k) := by
  unfold usb_ep_flush
  refine foldl_shifted _ ?_ _ s
  intro s id
  unfold usb_ep_flush_one
  split
  · exact Shifted.refl s
  · exact ⟨_, _, _, true, rfl⟩

/-- Only the URB lists, the endpoints, the bottom half and the client's counters
    changed. -/
def Moved (s s' : Server) : Prop :=
  ∃ inflight waiting eps retry_bh nurbs urb_bytes,
    s' = { s with
      inflight := inflight, waiting := waiting, eps := eps, retry_bh := retry_bh,
      nurbs := nurbs, urb_bytes := urb_bytes }

theorem Moved.refl (s : Server) : Moved s s :=
  ⟨s.inflight, s.waiting, s.eps, s.retry_bh, s.nurbs, s.urb_bytes, rfl⟩

theorem Moved.trans {s s' s'' : Server} (h : Moved s s') (h' : Moved s' s'') : Moved s s'' := by
  obtain ⟨_, _, _, _, _, _, rfl⟩ := h
  obtain ⟨i, w, e, b, n, y, rfl⟩ := h'
  exact ⟨i, w, e, b, n, y, rfl⟩

theorem Shifted.moved {s s' : Server} (h : Shifted s s') : Moved s s' := by
  obtain ⟨i, w, e, b, rfl⟩ := h
  exact ⟨i, w, e, b, s.nurbs, s.urb_bytes, rfl⟩

theorem urb_free_counters (s : Server) (u : USBIPURB) :
    ∃ n y, usbip_urb_free s u = { s with nurbs := n, urb_bytes := y } := by
  unfold usbip_urb_free
  split
  · exact ⟨s.nurbs, s.urb_bytes, rfl⟩
  · exact ⟨_, _, rfl⟩

theorem usbip_urb_free_moved (s : Server) (u : USBIPURB) : Moved s (usbip_urb_free s u) := by
  obtain ⟨n, y, h⟩ := urb_free_counters s u
  exact ⟨s.inflight, s.waiting, s.eps, s.retry_bh, n, y, h⟩

theorem unlink_free_moved (s : Server) (u : USBIPURB) :
    Moved s (usbip_urb_free (usbip_urb_unlink s u) u) :=
  (usbip_urb_unlink_shifted s u).moved.trans (usbip_urb_free_moved _ u)

theorem usbip_cancel_inflight_moved (n : Nat) (s : Server) :
    Moved s (usbip_cancel_inflight n s) := by
  induction n generalizing s with
  | zero => exact Moved.refl s
  | succ n ih =>
    unfold usbip_cancel_inflight
    split
    · exact Moved.refl s
    · exact (unlink_free_moved s _).trans (ih _)

theorem usbip_cancel_waiting_moved (i n : Nat) (s : Server) :
    Moved s (usbip_cancel_waiting i n s) := by
  induction n generalizing s with
  | zero => exact Moved.refl s
  | succ n ih =>
    unfold usbip_cancel_waiting
    split
    · exact Moved.refl s
    · exact (unlink_free_moved s _).trans (ih _)

theorem usbip_cancel_all_moved (s : Server) : Moved s (usbip_cancel_all s) := by
  refine (usbip_cancel_inflight_moved s.inflight.length s).trans ?_
  unfold usbip_cancel_all
  dsimp only
  generalize usbip_cancel_inflight s.inflight.length s = t
  induction List.range usbip_num_keys generalizing t with
  | nil => exact Moved.refl t
  | cons i l ih => exact (usbip_cancel_waiting_moved i _ t).trans (ih _)

/-! ## Small steps -/

theorem usbip_arm_retry_eq (s : Server) :
    ∃ t, usbip_arm_retry s = { s with retry_timer := some t } := by
  unfold usbip_arm_retry
  split
  · rename_i t ht
    exact ⟨t, by rw [← ht]⟩
  · exact ⟨_, rfl⟩

theorem usbip_urb_wait_eq (s : Server) (u : USBIPURB) :
    ∃ t, usbip_urb_wait s u =
      { s.set_waiting (usbip_urb_key u)
          (s.waiting (usbip_urb_key u) ++ [{ u with state := .waiting }]) with
        retry_timer := some t } :=
  usbip_arm_retry_eq _

/-- An enumeration step stores descriptors only. -/
theorem usbip_enum_result_eq (s : Server) (u : USBIPURB) :
    ∃ dd cl cd, (usbip_enum_result s u).1 =
      { s with dev_desc := dd, cfg_len := cl, cfg_desc := cd } := by
  unfold usbip_enum_result
  dsimp only
  split <;> try split
  all_goals exact ⟨_, _, _, rfl⟩

/-- The answer to the operation that an enumeration was for. -/
theorem usbip_enum_reply_eq (s : Server) (ok : Bool) :
    ∃ t, Sent { s.note (.enum_finish s.enum_op ok) with enum_op := 0, conn := .op } t ∧
      usbip_enum_reply s ok =
        if s.enum_op ≠ usbip_op_req_devlist ∧ ok then { t with conn := .attached } else t := by
  unfold usbip_enum_reply
  dsimp only
  split
  · rename_i h
    exact ⟨_, usbip_reply_devlist_sent _, by simp [h]⟩
  · rename_i h
    cases ok with
    | false => exact ⟨_, usbip_reply_import_false_sent _, by simp⟩
    | true =>
      obtain ⟨t, ht, heq⟩ := usbip_reply_import_true_sent
        { s.note (.enum_finish s.enum_op true) with enum_op := 0, conn := .op }
      exact ⟨t, ht, by simp [h, heq]⟩

/-! ## The end of a connection -/

/-- The connection is closed: everything of the client is gone. -/
def Closed (s s' : Server) : Prop :=
  ∃ inflight waiting eps retry_bh nurbs urb_bytes log,
    s' = { s with
      inflight := inflight, waiting := waiting, eps := eps, retry_bh := retry_bh,
      nurbs := nurbs, urb_bytes := urb_bytes, log := log,
      retry_timer := none, iso_timer := none, iso_next_due := fun _ => 0, conn := .none,
      enum_op := 0, enumerated := false, vbus := false, rx := [], tx := [], watch := false }

theorem Closed.trans {s s' s'' : Server} (h : Closed s s') (h' : Closed s' s'') :
    Closed s s'' := by
  obtain ⟨_, _, _, _, _, _, _, rfl⟩ := h
  obtain ⟨i, w, e, b, n, y, l, rfl⟩ := h'
  exact ⟨i, w, e, b, n, y, l, rfl⟩

theorem usbip_reset_connection_closed (s : Server) : Closed s (usbip_reset_connection s) := by
  obtain ⟨i, w, e, b, n, y, h⟩ := usbip_cancel_all_moved (s.note .reset)
  unfold usbip_reset_connection usb_port_set_vbus
  rw [h]
  exact ⟨i, w, e, b, n, y, _, rfl⟩

theorem usbip_close_client_closed (s : Server) : Closed s (usbip_close_client s) := by
  unfold usbip_close_client qemu_chr_fe_disconnect usbip_event
  split
  · exact (usbip_reset_connection_closed s).trans (usbip_reset_connection_closed _)
  · exact usbip_reset_connection_closed s

theorem usbip_drop_client_closed (s : Server) : Closed s (usbip_drop_client s) := by
  obtain ⟨i, w, e, b, n, y, l, h⟩ := usbip_close_client_closed (s.note .drop)
  unfold usbip_drop_client
  rw [h]
  exact ⟨i, w, e, b, n, y, l, rfl⟩

theorem drop_client_conn (s : Server) : (usbip_drop_client s).conn = .none := by
  obtain ⟨_, _, _, _, _, _, _, h⟩ := usbip_drop_client_closed s
  rw [h]

/-- The device goes away, outside of a port reset. -/
theorem usbip_port_detach_eq (s : Server) (h : s.port_resetting = false) :
    (s.conn = .attached ∨ s.conn = .enumerating) ∧
        usbip_port_detach s = usbip_close_client { s with enumerated := false } ∨
      ¬ (s.conn = .attached ∨ s.conn = .enumerating) ∧
        usbip_port_detach s = { s with enumerated := false } := by
  by_cases hc : s.conn = .attached ∨ s.conn = .enumerating
  · exact .inl ⟨hc, by simp [usbip_port_detach, h, hc]⟩
  · exact .inr ⟨hc, by simp [usbip_port_detach, h, hc]⟩

theorem usbip_handle_unlink_moved (s : Server) (seqnum victim : Nat) :
    ∃ t status id, Moved s t ∧
      Sent (t.note (.ret_unlink seqnum victim status id))
        (usbip_handle_unlink s seqnum victim) := by
  unfold usbip_handle_unlink
  cases usbip_find_urb s victim with
  | none => exact ⟨s, 0, none, Moved.refl s, usbip_send_sent _ _⟩
  | some u =>
    exact ⟨_, -usbip_econnreset, some u.id, unlink_free_moved s u, usbip_send_sent _ _⟩

/-- `submit_accept` over the packet count and the URB of its message. -/
theorem submit_accept_eq {s : Server} {d : List UInt8} {np : Int} {r : Server × USBIPURB}
    (hnp : toInt32 (be32At d 0x20) = np) (hr : submit_urb s d = r) : submit_accept s d =
    if submit_bad_dir d then (usbip_drop_client s, none)
    else if submit_over_limit s d then (usbip_drop_client s, none)
    else if 0 < np then
      match submit_iso d r.2.len np.toNat (usbip_hdr_len + (if r.2.in_ then 0 else r.2.len)) with
      | none => (usbip_drop_client (usbip_urb_free r.1 r.2), none)
      | some iso =>
        (r.1.note (.submit r.2.id r.2.seqnum (usbip_urb_key r.2)),
          some { r.2 with number_of_packets := np.toNat, iso := iso })
    else (r.1.note (.submit r.2.id r.2.seqnum (usbip_urb_key r.2)), some r.2) := by
  unfold submit_accept
  rw [hnp, hr]
  rfl

theorem usbip_handle_submit_eq : usbip_handle_submit = fun env s d =>
    match submit_accept s d with
    | (s, none) => s
    | (s, some u) => usbip_urb_submit env s u := rfl

/-- `usbip_handle_submit` submits what `submit_accept` lets through. -/
theorem handle_submit_of (env : Env) {s t : Server} {d : List UInt8} {o : Option USBIPURB}
    (h : submit_accept s d = (t, o)) :
    usbip_handle_submit env s d = o.elim t (usbip_urb_submit env t) := by
  rw [usbip_handle_submit_eq]
  beta_reduce
  rw [h]
  cases o with
  | none => rfl
  | some u => rfl

/-- The URB of a message without ISO descriptors is the one as it was raised. -/
theorem submit_urb_plain (s : Server) (d : List UInt8) :
    { (submit_urb s d).2 with number_of_packets := 0, iso := [] } = (submit_urb s d).2 := rfl

/-- What `usbip_handle_submit` does before it submits: the client is dropped, or
    the URB counted. -/
theorem submit_accept_cases (s : Server) (d : List UInt8) :
    (∃ t, (t = s ∨ t = usbip_urb_free (submit_urb s d).1 (submit_urb s d).2) ∧
      submit_accept s d = (usbip_drop_client t, none)) ∨
    (∃ np iso, submit_accept s d =
      ((submit_urb s d).1.note (.submit (submit_urb s d).2.id (submit_urb s d).2.seqnum
        (usbip_urb_key (submit_urb s d).2)),
        some { (submit_urb s d).2 with number_of_packets := np, iso := iso }) ∧
      submit_over_limit s d = false) := by
  rw [submit_accept_eq rfl rfl]
  split
  · exact .inl ⟨s, .inl rfl, rfl⟩
  split
  · exact .inl ⟨s, .inl rfl, rfl⟩
  rename_i hlim
  split
  · split
    · exact .inl ⟨_, .inr rfl, rfl⟩
    · exact .inr ⟨_, _, rfl, by simpa using hlim⟩
  · exact .inr ⟨0, [], by rw [submit_urb_plain], by simpa using hlim⟩

end Usbip
