import RpiQemu.Usbip.ExactlyOnce

/-! # No stranded URB

    An URB that waits is always followed by something that starts it: a waiting
    URB by the retry timer or the retry bottom half, a packet queued on an
    endpoint by the packet the device holds ahead of it.

    Inside a call both may be broken for a moment, by a loop that is about to
    repair it: the loop of `usb_packet_complete` for the head of a queue, the
    loop of `usbip_retry` for the waiting lists. -/

namespace Usbip

open Bytes Keyed Ledger

variable {c c' : Cfg} {s s' : Server} {H H' : List Tok} {u v : USBIPURB} {k : Nat} {b : Bool}

structure Wake (c : Cfg) : Prop where
  heads : ∀ k, .loop k ∉ c.1 → c.2.lanes.HeadAsync k
  timer : ∀ k, c.2.waiting k ≠ [] →
    c.2.retry_timer ≠ none ∨ c.2.retry_bh = true ∨ ∃ j, .retry j ∈ c.1

/-- A step that leaves the lists, the timer and the loops in progress alone. -/
theorem Wake.quiet (h : Wake (H, s)) (hl : s'.lanes = s.lanes)
    (ht : s'.retry_timer = s.retry_timer) (hb : s.retry_bh = true → s'.retry_bh = true)
    (hloop : ∀ k, .loop k ∈ H → .loop k ∈ H') (hretry : ∀ j, .retry j ∈ H → .retry j ∈ H') :
    Wake (H', s') := by
  have hw : s'.waiting = s.waiting := congrArg Lanes.waiting hl
  refine ⟨fun k hk => ?_, fun k hk => ?_⟩
  · show s'.lanes.HeadAsync k
    rw [hl]
    exact h.heads k fun hk' => hk (hloop k hk')
  · show s'.retry_timer ≠ none ∨ _
    rw [ht]
    rcases h.timer k (by rw [← hw]; exact hk) with h' | h' | ⟨j, hj⟩
    · exact .inl h'
    · exact .inr (.inl (hb h'))
    · exact .inr (.inr ⟨j, hretry j hj⟩)

/-- A step that changes waiting lists only, with something armed to retry. -/
theorem Wake.waits (h : Wake (H, s)) (hf : ∀ k, s'.lanes.flying k = s.lanes.flying k)
    (hloop : ∀ k, .loop k ∈ H → .loop k ∈ H')
    (hretry : s'.retry_timer ≠ none ∨ ∃ j, .retry j ∈ H') : Wake (H', s') := by
  refine ⟨fun k hk w hw => ?_, fun k _ => ?_⟩
  · rw [show (H', s').2.lanes.flying k = _ from hf k] at hw
    exact h.heads k (fun hk' => hk (hloop k hk')) w hw
  · rcases hretry with h' | h'
    · exact .inl h'
    · exact .inr (.inr h')

/-- A step that changes the packets in flight only. -/
theorem Wake.flies (h : Wake (H, s)) (hw : s'.waiting = s.waiting)
    (ht : s'.retry_timer = s.retry_timer) (hb : s'.retry_bh = s.retry_bh)
    (hretry : ∀ j, .retry j ∈ H → .retry j ∈ H')
    (hheads : ∀ k, .loop k ∉ H' → s'.lanes.HeadAsync k) : Wake (H', s') := by
  refine ⟨hheads, fun k hk => ?_⟩
  show s'.retry_timer ≠ none ∨ s'.retry_bh = true ∨ _
  rw [ht, hb]
  rcases h.timer k (by rw [← hw]; exact hk) with h' | h' | ⟨j, hj⟩
  · exact .inl h'
  · exact .inr (.inl h')
  · exact .inr (.inr ⟨j, hretry j hj⟩)

theorem Wake.emptied (hi : s'.inflight = []) (hw : ∀ k, s'.waiting k = []) : Wake (H', s') := by
  refine ⟨fun k _ w hm => ?_, fun k hk => absurd (hw k) hk⟩
  have hnil : s'.lanes.flying k = [] := by
    show s'.inflight.filter _ = []
    rw [hi]
    rfl
  rw [show (H', s').2.lanes.flying k = _ from hnil] at hm
  cases hm

theorem headAsync_off (hwf : s.lanes.Wf) (hd : s.lanes.Distinct) (hu : u ∈ s.inflight) {j : Nat}
    (hj : j ≠ usbip_urb_key u) (h : s.lanes.HeadAsync j) : (s.lanes.off u).HeadAsync j := by
  unfold Lanes.HeadAsync
  rw [Lanes.off_flying_ne hwf hd hu hj]
  exact h

theorem headAsync_on {l : Lanes} {j : Nat} (h : l.HeadAsync j)
    (hv : l.flying (usbip_urb_key v) = [] → v.packet.state = .async) : (l.on v).HeadAsync j := by
  intro w hw
  by_cases hj : j = usbip_urb_key v
  · subst hj
    rw [Lanes.on_flying_self] at hw
    cases hfl : l.flying (usbip_urb_key v) with
    | nil =>
      rw [hfl] at hw
      obtain rfl := Option.some.inj hw
      exact hv hfl
    | cons x xs =>
      rw [hfl] at hw
      exact h w (by rw [hfl]; exact hw)
  · rw [Lanes.on_flying_ne hj] at hw
    exact h w hw

/-! ## Completions -/

/-- A packet leaves the queue of `k`, whose loop is in progress. -/
theorem lift_wake {t : Tok} (h : Inv (H, s)) (hw : Wake (H, s)) (hu : u ∈ s.inflight)
    (r : Resp) (hloop : ∀ j, .loop j ∈ H → .loop j ∈ H')
    (hretry : ∀ j, .retry j ∈ H → .retry j ∈ H') (hmem : .loop (usbip_urb_key u) ∈ H') :
    Wake (t :: H', (usb_packet_done s u r).1.take_off u.id) := by
  have hlanes := packet_done_lanes s u r (h.wf.flying_state u hu).2
  refine hw.flies rfl rfl rfl (fun j hj => List.mem_cons_of_mem _ (hretry j hj)) fun j hj => ?_
  rw [hlanes]
  have hjk : j ≠ usbip_urb_key u := by
    rintro rfl
    exact hj (List.mem_cons_of_mem _ hmem)
  exact headAsync_off h.wf h.distinct hu hjk
    (hw.heads j fun hj' => hj (List.mem_cons_of_mem _ (hloop j hj')))

/-- A loop of `usb_packet_complete` ends with the head of its queue in order. -/
theorem loop_wake (hw : Wake (.loop k :: H, s)) (hk : s.lanes.HeadAsync k) : Wake (H, s) := by
  refine hw.flies rfl rfl rfl (fun j hj => ?_) fun j hj => ?_
  · rcases List.mem_cons.mp hj with hj | hj
    · cases hj
    · exact hj
  · by_cases hjk : j = k
    · rw [hjk]
      exact hk
    · refine hw.heads j fun hj' => ?_
      rcases List.mem_cons.mp hj' with hj' | hj'
      · exact hjk (Tok.loop.inj hj')
      · exact hj hj'

theorem flush_wake (h : Inv (.loop k :: H, s)) (hw : Wake (.loop k :: H, s)) :
    Wake (H, usb_ep_flush hold_env (s.note_halt k) k) := by
  replace hw : Wake (.loop k :: H, s.note_halt k) :=
    hw.quiet rfl rfl id (fun _ hj => hj) fun _ hj => hj
  have hwf : (s.note_halt k).lanes.Wf := h.wf
  have hd : (s.note_halt k).lanes.Distinct := h.distinct
  generalize s.note_halt k = s at hw hwf hd
  obtain ⟨hback, hbh⟩ := ep_flush_lanes s k hwf hd
  obtain ⟨i, w, e, b, hm⟩ := usb_ep_flush_shifted hold_env s k
  have hnone : (usb_ep_flush hold_env s k).lanes.HeadAsync k := by
    intro v hv
    rw [hback.flying] at hv
    cases hv
  by_cases hfl : s.lanes.flying k = []
  · -- nothing to hand back
    have hid : usb_ep_flush hold_env s k = s := by
      unfold usb_ep_flush
      rw [(queue_nil_iff hwf).mpr hfl]
      rfl
    rw [hid] at hnone ⊢
    exact loop_wake hw hnone
  · refine ⟨fun j hj => ?_, fun _ _ => .inr (.inl (hbh hfl))⟩
    by_cases hjk : j = k
    · rw [hjk]
      exact hnone
    · intro v hv
      rw [show (H, usb_ep_flush hold_env s k).2.lanes.flying j = _ from hback.flying_ne j hjk] at hv
      refine hw.heads j (fun hj' => ?_) v hv
      rcases List.mem_cons.mp hj' with hj' | hj'
      · exact hjk (Tok.loop.inj hj')
      · exact hj hj'

theorem hold_wake (h : Inv (.runq u :: .loop k :: H, s)) (hw : Wake (.runq u :: .loop k :: H, s)) :
    Wake (H, usb_packet_hold s u) := by
  obtain ⟨⟨H', hH'⟩, hhead, hst, hother, hruns⟩ := h.runs
  have hk : k = usbip_urb_key u := Tok.loop.inj (List.cons.inj hH').1
  subst hk
  have hh : s.head (usbip_urb_key u) = some u := by
    rw [head_eq h.wf h.distinct]
    exact hhead
  obtain ⟨_, hu, hsplit⟩ := flying_of_head h.wf h.distinct hh
  refine hw.flies rfl rfl rfl (fun j hj => ?_) fun j hj => ?_
  · simpa using hj
  · by_cases hjk : j = usbip_urb_key u
    · subst hjk
      intro v hv
      rw [hold_flying_head s u h.wf h.distinct hsplit] at hv
      obtain rfl := Option.some.inj hv
      rfl
    · intro v hv
      rw [hold_flying_ne s u h.wf h.distinct hu hjk] at hv
      refine hw.heads j (fun hj' => hj ?_) v hv
      simpa [hjk] using hj'

/-! ## Handing over -/

/-- The URB joins the inflight list, behind the packet the device holds or as
    that packet. -/
theorem fly_wake {t : Tok} {st : PacketState} (hw : Wake (t :: H, s)) (hf : Flown st u v s s')
    (hq : s.lanes.flying (usbip_urb_key u) = [] → st = .async)
    (hloop : ∀ j, .loop j ∈ t :: H → .loop j ∈ H) (hretry : ∀ j, .retry j ∈ t :: H → .retry j ∈ H) :
    Wake (H, s') := by
  obtain ⟨i, e, hs'⟩ := hf.rest
  refine hw.flies (by rw [hs']) (by rw [hs']) (by rw [hs']) hretry fun j hj => ?_
  rw [hf.lanes]
  refine headAsync_on (hw.heads j fun hj' => hj (hloop j hj')) fun hnil => ?_
  rw [hf.packet_state]
  rw [ident_key hf.ident] at hnil
  exact hq hnil

theorem enqueue_wake (h : Inv (.hand b u :: H, s)) (hw : Wake (.hand b u :: H, s))
    (hq : (s.eps (usbip_urb_key u)).queue ≠ []) :
    let q := usb_queue_one (usb_clear_halt s (usbip_urb_key u)) (usbip_urb_packet u)
    Wake (H, usbip_urb_inflight q.1 q.2) := by
  obtain ⟨v, hf⟩ := enqueue_flown s u
  refine fly_wake hw hf (fun hnil => ?_) (fun j hj => by simpa using hj)
    fun j hj => by simpa using hj
  exact absurd ((queue_nil_iff h.wf).mpr hnil) hq

theorem run_async_wake (h : Inv (.run b u :: H, s)) (hw : Wake (.run b u :: H, s)) (r : Resp)
    (hr : r.status = .async) :
    let q := usb_packet_started s u r
    Wake (H, usbip_urb_inflight q.1 q.2) := by
  obtain ⟨_, hep, _⟩ := h.runs
  obtain ⟨v, hf⟩ := run_async_flown s u r hr hep
  exact fly_wake hw hf (fun _ => rfl) (fun j hj => by simpa using hj) fun j hj => by simpa using hj

/-- An URB that goes to a waiting list arms the retry timer. -/
theorem urb_wait_wake {t : Tok} (hw : Wake (t :: H, s))
    (hloop : ∀ j, .loop j ∈ t :: H → .loop j ∈ H) :
    Wake (H, usbip_urb_wait s u) := by
  obtain ⟨t', ht'⟩ := usbip_urb_wait_eq s u
  rw [ht']
  exact hw.waits (fun _ => rfl) hloop (.inl (Option.some_ne_none _))

/-! ## Ends of connections and unlinks -/

theorem drop_wake (hwf : s.lanes.Wf) (hd : s.lanes.Distinct) : Wake (H', usbip_drop_client s) := by
  have he := drop_client_emptied s hwf hd
  generalize usbip_drop_client s = t at he
  exact Wake.emptied he.inflight he.waiting

theorem reject_wake {d : List UInt8} (h : Inv (.msg d :: H, s))
    (hrej : (submit_accept s d).2 = none) : Wake (H', (submit_accept s d).1) := by
  obtain ⟨id, n, b, hdrop, _, _⟩ := submit_reject hrej
  rw [hdrop]
  exact drop_wake h.wf h.distinct

theorem unlink_wake {d : List UInt8} (h : Inv (.msg d :: H, s)) (hw : Wake (.msg d :: H, s))
    (seqnum victim : Nat) : Wake (H, usbip_handle_unlink s seqnum victim) := by
  have hloop : ∀ j, .loop j ∈ Tok.msg d :: H → .loop j ∈ H := fun j hj => by simpa using hj
  have hretry : ∀ j, .retry j ∈ Tok.msg d :: H → .retry j ∈ H := fun j hj => by simpa using hj
  unfold usbip_handle_unlink
  cases hf : usbip_find_urb s victim with
  | none =>
    obtain ⟨_, _, _, _, hs⟩ := usbip_send_sent (s.note (.ret_unlink seqnum victim 0 none))
      (ret_unlink_header seqnum 0)
    simp only [hs]
    exact hw.quiet rfl rfl id hloop hretry
  | some u =>
    obtain ⟨hhas, hint, rfl⟩ := find_urb_some h.wf hf
    have hun := urb_unlink_lanes s u h.wf h.distinct hhas
    have hbh := urb_unlink_bh s u
    obtain ⟨_, _, _, _, hsh⟩ := usbip_urb_unlink_shifted s u
    have htimer : (usbip_urb_unlink s u).retry_timer = s.retry_timer := by rw [hsh]
    have hunlinked : Wake (H, usbip_urb_unlink s u) := by
      refine ⟨fun j hj v hv => ?_, fun j hj => ?_⟩
      · have hold := hw.heads j fun hj' => hj (hloop j hj')
        by_cases hjk : j = usbip_urb_key u
        · subst hjk
          exact hun.head hold v hv
        · rw [show (H, usbip_urb_unlink s u).2.lanes.flying j = _ from hun.flying_ne j hjk] at hv
          exact hold v hv
      · show (usbip_urb_unlink s u).retry_timer ≠ none ∨ (usbip_urb_unlink s u).retry_bh = true ∨ _
        rw [htimer]
        rcases hbh with hbh | ⟨hbh, hempty⟩
        · exact .inr (.inl hbh)
        · rw [hbh]
          rcases hw.timer j fun hj' => hj (hempty j hj') with h' | h' | ⟨i, hi⟩
          · exact .inl h'
          · exact .inr (.inl h')
          · exact .inr (.inr ⟨i, hretry i hi⟩)
    simp only
    generalize usbip_urb_unlink s u = t at hunlinked
    obtain ⟨_, _, _, _, hs⟩ := usbip_send_sent ((usbip_urb_free t u).note
      (.ret_unlink seqnum u.seqnum (-usbip_econnreset) (some u.id)))
      (ret_unlink_header seqnum (-usbip_econnreset))
    rw [hs]
    obtain ⟨_, _, hfree⟩ := urb_free_counters t u
    rw [hfree]
    exact hunlinked.quiet rfl rfl id (fun _ hj => hj) fun _ hj => hj

theorem accept_wake {d : List UInt8} (hw : Wake (.msg d :: H, s))
    (hacc : (submit_accept s d).2 = some u) : Wake (.fresh u :: H, (submit_accept s d).1) := by
  rcases submit_accept_cases s d with ⟨t, _, heq⟩ | ⟨np, iso, heq, _⟩
  · rw [heq] at hacc
    cases hacc
  · rw [heq]
    exact hw.quiet rfl rfl id (fun j hj => by simpa using hj) fun j hj => by simpa using hj

theorem enum_reply_wake (hw : Wake (.done u :: H, s)) (ok en : Bool) (n : Nat) :
    Wake (.fin :: H, usbip_enum_reply
      { (usbip_enum_result s u).1 with enum_step := n, enumerated := en } ok) := by
  obtain ⟨dd, cl, cd, hres⟩ := usbip_enum_result_eq s u
  rw [hres]
  obtain ⟨t, ⟨_, _, _, _, rfl⟩, ht⟩ := usbip_enum_reply_eq { s with
    dev_desc := dd, cfg_len := cl, cfg_desc := cd, enum_step := n, enumerated := en } ok
  rw [ht]
  split
  · exact hw.quiet rfl rfl id (fun j hj => by simpa using hj) fun j hj => by simpa using hj
  · exact hw.quiet rfl rfl id (fun j hj => by simpa using hj) fun j hj => by simpa using hj

/-! ## Every step -/

/-- A step that only moves between calls, none of them a loop. -/
theorem Wake.call {es : List Ev} {t t' : Tok} (h : Wake (t :: H, s)) (hk : Kept s s' es)
    (ht : s'.retry_timer = s.retry_timer) (hb : s'.retry_bh = s.retry_bh)
    (hloop : ∀ j, t ≠ .loop j) (hretry : ∀ j, t ≠ .retry j) : Wake (t' :: H, s') := by
  refine h.quiet hk.lanes ht (fun hb' => hb.trans hb') (fun j hj => ?_) (fun j hj => ?_)
  · rcases List.mem_cons.mp hj with hj | hj
    · exact absurd hj.symm (hloop j)
    · exact List.mem_cons_of_mem _ hj
  · rcases List.mem_cons.mp hj with hj | hj
    · exact absurd hj.symm (hretry j)
    · exact List.mem_cons_of_mem _ hj

/-- A call returns. -/
theorem Wake.ret {es : List Ev} {t : Tok} (h : Wake (t :: H, s)) (hk : Kept s s' es)
    (ht : s'.retry_timer = s.retry_timer) (hb : s'.retry_bh = s.retry_bh)
    (hloop : ∀ j, t ≠ .loop j) (hretry : ∀ j, t ≠ .retry j) : Wake (H, s') := by
  refine h.quiet hk.lanes ht (fun hb' => hb.trans hb') (fun j hj => ?_) (fun j hj => ?_)
  · exact (List.mem_cons.mp hj).resolve_left fun hj => hloop j hj.symm
  · exact (List.mem_cons.mp hj).resolve_left fun hj => hretry j hj.symm

theorem sent_wake {t : Tok} (h : Wake (t :: H, s)) (hs : Sent s s') (hloop : ∀ j, t ≠ .loop j)
    (hretry : ∀ j, t ≠ .retry j) : Wake (H, s') := by
  have hk := Kept.of_sent hs
  obtain ⟨_, _, _, _, rfl⟩ := hs
  exact h.ret hk rfl rfl hloop hretry

theorem step_wake (h : Inv c) (hw : Wake c) (hstep : Step c c') : Wake c' := by
  cases hstep with
  | act s script _ => exact hw.quiet rfl rfl id (fun _ hj => hj) fun _ hj => hj
  | wakeup s _ => exact hw.quiet rfl rfl (fun _ => rfl) (fun _ hj => hj) fun _ hj => hj
  | set_type s k isoc _ => exact hw.quiet (set_ep_lanes rfl) rfl id (fun _ hj => hj) fun _ hj => hj
  | complete s k u r _ hh _ _ =>
    obtain ⟨hk, hu, _⟩ := flying_of_head h.wf h.distinct hh
    refine lift_wake h hw hu r (fun j hj => List.mem_cons_of_mem _ hj)
      (fun j hj => List.mem_cons_of_mem _ hj) ?_
    rw [hk]
    exact List.mem_cons_self ..
  -- The loop over an endpoint ends where no packet, or one the device has, is its head.
  | loop_none s k hh =>
    refine loop_wake hw fun v hv => ?_
    rw [← head_eq h.wf h.distinct, hh] at hv
    cases hv
  | loop_async s k u hh ha =>
    refine loop_wake hw fun v hv => ?_
    rw [← head_eq h.wf h.distinct, hh] at hv
    obtain rfl := Option.some.inj hv
    exact ha
  | loop_flush s k _ => exact flush_wake h hw
  | loop_start s k u _ _ _ =>
    exact hw.quiet rfl rfl id (fun _ hj => List.mem_cons_of_mem _ hj) fun _ hj =>
      List.mem_cons_of_mem _ hj
  | runq_hold s k u => exact hold_wake h hw
  | runq_done s u r _ =>
    obtain ⟨⟨H', rfl⟩, hhead, _, _⟩ := h.runs
    have hu := (Lanes.mem_flying.mp (List.mem_of_mem_head? (Option.mem_def.mpr hhead))).1
    exact lift_wake h hw hu r (fun j hj => by simpa using hj) (fun j hj => by simpa using hj)
      (List.mem_cons_self ..)
  | answer s u _ =>
    obtain ⟨_, _, _, _, hs⟩ := usbip_send_ret_submit_sent s u
    refine hw.quiet ?_ ?_ ?_ (fun j hj => by simpa using hj) fun j hj => by simpa using hj
    · rw [urb_free_lanes, hs]
      rfl
    · obtain ⟨_, _, hf⟩ := urb_free_counters (usbip_send_ret_submit s u) u
      rw [hf, hs]
      rfl
    · obtain ⟨_, _, hf⟩ := urb_free_counters (usbip_send_ret_submit s u) u
      rw [hf, hs]
      exact id
  | lost s u _ _ => exact hw.ret (Kept.refl s) rfl rfl (by simp) (by simp)
  | enum_next s u _ _ _ =>
    obtain ⟨_, _, _, hres⟩ := usbip_enum_result_eq s u
    rw [hres]
    exact hw.quiet rfl rfl id (fun j hj => by simpa using hj) fun j hj => by simpa using hj
  | enum_end s u _ _ _ => exact enum_reply_wake hw true true 4
  | enum_fail s u _ _ =>
    obtain ⟨_, _, _, hres⟩ := usbip_enum_result_eq s u
    have := enum_reply_wake hw false s.enumerated s.enum_step
    rw [hres] at this ⊢
    exact this
  | issue s =>
    exact hw.quiet rfl rfl id (fun j hj => by simpa using hj) fun j hj => by simpa using hj
  | behind s u _ => exact urb_wait_wake hw fun j hj => by simpa using hj
  | try_fresh s u _ => exact hw.call (Kept.refl s) rfl rfl (by simp) (by simp)
  | iso_stall s b u _ => exact hw.call (Kept.refl s) rfl rfl (by simp) (by simp)
  | iso_skip s b u v _ _ => exact hw.call (Kept.refl s) rfl rfl (by simp) (by simp)
  | iso_queued s b u v due _ _ _ =>
    exact hw.call (iso_queued_kept h due) rfl rfl (by simp) (by simp)
  | iso_start s b u v due _ _ _ _ =>
    exact hw.call (start_kept s due _ u.id) rfl rfl (by simp) (by simp)
  | iso_back s b u v _ _ => exact hw.call (Kept.refl s) rfl rfl (by simp) (by simp)
  | iso_bounce s b u v _ _ =>
    exact hw.call (bounce_kept h (i := ident u) (Multiset.mem_cons_self _ _) rfl (Kept.refl s)
      fun _ => rfl) rfl rfl (by simp) (by simp)
  | iso_more s b u t _ =>
    exact hw.quiet rfl rfl id (fun j hj => by simpa using hj) fun j hj => by simpa using hj
  | iso_end s b u => exact hw.call (Kept.refl s) rfl rfl (by simp) (by simp)
  | enqueue s b u _ hq => exact enqueue_wake h hw hq
  | start s b u _ _ =>
    exact hw.call (start_kept s s.iso_next_due _ u.id) rfl rfl (by simp) (by simp)
  | run_async s b u r _ hr => exact run_async_wake h hw r hr
  | run_nak s b u v _ _ _ => exact hw.call (Kept.refl s) rfl rfl (by simp) (by simp)
  | run_done s b u v _ _ _ => exact hw.call (Kept.refl s) rfl rfl (by simp) (by simp)
  | held_tail s u => exact urb_wait_wake hw fun j hj => by simpa using hj
  | take s k u us _ _ =>
    exact hw.waits (fun _ => rfl) (fun j hj => by simpa using hj) (.inr ⟨k, by simp⟩)
  | held_head s k u =>
    exact hw.waits (fun _ => rfl) (fun j hj => by simpa using hj) (.inr ⟨k + 1, by simp⟩)
  | retry_next s k _ =>
    exact hw.waits (fun _ => rfl) (fun j hj => by simpa using hj) (.inr ⟨k + 1, by simp⟩)
  -- Only here does a wake-up go: every lane was looked at and found empty.
  | retry_end s hempty =>
    refine ⟨fun k hk => hw.heads k fun hk' => hk (by simpa using hk'), fun k hk => ?_⟩
    refine absurd ?_ hk
    by_cases hlt : k < usbip_num_keys
    · exact hempty k hlt
    · exact h.wf.waiting_lt k (Nat.not_lt.mp hlt)
  | retry_arm s =>
    obtain ⟨t, ht⟩ := usbip_arm_retry_eq s
    rw [ht]
    exact hw.waits (fun _ => rfl) (fun j hj => by simpa using hj) (.inl (Option.some_ne_none _))
  | parse_skip s _ => exact hw.ret (Kept.refl s) rfl rfl (by simp) (by simp)
  | parse_begin s _ =>
    exact hw.quiet rfl rfl id (fun j hj => by simpa using hj) fun j hj => by simpa using hj
  | parse_drop s _ => exact drop_wake h.wf h.distinct
  | parse_msg s _ =>
    exact hw.quiet rfl rfl id (fun j hj => by simpa using hj) fun j hj => by simpa using hj
  | parse_end s _ _ =>
    exact hw.quiet rfl rfl id (fun j hj => by simpa using hj) fun j hj => by simpa using hj
  | op_devlist s d _ _ _ => exact sent_wake hw (usbip_reply_devlist_sent s) (by simp) (by simp)
  | op_import s d _ _ _ => exact sent_wake hw (usbip_reply_import_false_sent s) (by simp) (by simp)
  | op_enum s d op _ _ _ _ =>
    exact hw.quiet rfl rfl id (fun j hj => by simpa using hj) fun j hj => by simpa using hj
  | reset_done s =>
    exact hw.quiet rfl rfl id (fun j hj => by simpa using hj) fun j hj => by simpa using hj
  | reject s d _ _ hrej => exact reject_wake h hrej
  | accept s d u _ _ _ hacc => exact accept_wake hw hacc
  | unlink s d _ _ => exact unlink_wake h hw _ _

/-! ## Every run -/

theorem Emptied.wake (he : Emptied s s') : Wake (H', s') := Wake.emptied he.inflight he.waiting

theorem close_wake (h : Inv ([], s)) : Wake (H', usbip_close_client s) := by
  have he := close_client_emptied s h.wf h.distinct
  generalize usbip_close_client s = t at he
  exact he.wake

theorem Wake.arrived (h : Wake ([], s)) (hl : s'.lanes = s.lanes)
    (ht : s'.retry_timer = s.retry_timer) (hb : s'.retry_bh = s.retry_bh) : Wake (H', s') :=
  h.quiet hl ht (fun hb' => hb.trans hb') (fun _ hj => absurd hj List.not_mem_nil)
    fun _ hj => absurd hj List.not_mem_nil

/-- A timer or the bottom half that goes off hands over to the loop it starts. -/
theorem Wake.fired (h : Wake ([], s)) (hl : s'.lanes = s.lanes) : Wake ([.retry 0], s') := by
  refine h.waits (fun j => by rw [hl]) (fun _ hj => absurd hj List.not_mem_nil) (.inr ⟨0, ?_⟩)
  exact List.mem_cons_self ..

theorem arrive_wake (h : Inv ([], s)) (hw : Wake ([], s)) (ha : Arrive s c) : Wake c := by
  cases ha with
  | input script cw => exact hw.arrived rfl rfl rfl
  | read buf _ => exact hw.arrived rfl rfl rfl
  | fire_retry => exact hw.fired rfl
  | fire_iso => exact hw.fired rfl
  | fire_bh => exact hw.fired rfl
  | chr e =>
    have he := reset_connection_emptied s h.wf h.distinct
    cases e with
    | opened =>
      unfold usbip_event usb_port_set_vbus
      dsimp only
      generalize usbip_reset_connection s = t at he
      exact Wake.emptied he.inflight he.waiting
    | closed =>
      show Wake ([], usbip_reset_connection s)
      generalize usbip_reset_connection s = t at he
      exact he.wake
  | tx_ready =>
    obtain ⟨_, _, _, _, hs⟩ := usbip_tx_ready_sent s
    rw [hs]
    exact hw.arrived rfl rfl rfl
  | detach =>
    have hdetach : Wake ([], usbip_port_detach s) := by
      unfold usbip_port_detach
      split
      · exact hw
      · dsimp only
        split
        · exact close_wake ⟨h.ledger, h.shape, h.runs⟩
        · exact hw.arrived rfl rfl rfl
    generalize usbip_port_detach s = t at hdetach
    exact hdetach.arrived rfl rfl rfl
  | attach speed _ => exact hw.arrived rfl rfl rfl
  | system_reset =>
    unfold usbip_server_reset_hold
    split
    · exact hw
    · exact close_wake h
  | tick ns => exact hw.arrived rfl rfl rfl

theorem init_wake (b : Bool) : Wake ([], Server.init b) := Wake.emptied rfl fun _ => rfl

theorem reachable_wake (hs : Reachable s) : Wake ([], s) :=
  reachable_with_inv Wake init_wake (fun _ _ h hw ha => arrive_wake h hw ha)
    (fun _ _ h hw hstep => step_wake h hw hstep) hs

/-- An inflight URB is the packet the device holds on its endpoint, or is queued
    behind it. -/
theorem behind_async (hwf : s.lanes.Wf) {k : Nat} (hh : s.lanes.HeadAsync k)
    {us vs : List USBIPURB} (hfl : s.lanes.flying k = us ++ u :: vs) :
    us = [] ∧ u.packet.state = .async ∨
      u.packet.state = .queued ∧ ∃ v ∈ us, v.packet.state = .async := by
  cases us with
  | nil => exact .inl ⟨rfl, hh u (by rw [hfl]; rfl)⟩
  | cons w ws =>
    refine .inr ⟨hwf.tail_queued k u (by rw [hfl]; simp), w, List.mem_cons_self .., ?_⟩
    exact hh w (by rw [hfl]; rfl)

/-- **No stranded URB.**  At every event boundary of every run, a waiting URB is
    followed by the retry timer or the retry bottom half (an ISO URB too, so the
    ISO timer is never the only one), and an inflight URB either is held by the
    device or is QUEUED behind an inflight URB of its endpoint that is. -/
theorem no_stranded_urb (hs : Reachable s) :
    (∀ k, s.waiting k ≠ [] → s.retry_timer ≠ none ∨ s.retry_bh = true) ∧
    (∀ before u after, s.inflight = before ++ u :: after →
      u.packet.state = .async ∨
        u.packet.state = .queued ∧ ∃ v ∈ before, usbip_urb_key v = usbip_urb_key u ∧
          v.packet.state = .async) := by
  have hinv := reachable_inv hs
  have hwake := reachable_wake hs
  refine ⟨fun k hk => ?_, fun before u after heq => ?_⟩
  · rcases hwake.timer k hk with h | h | ⟨j, hj⟩
    · exact .inl h
    · exact .inr h
    · exact absurd hj List.not_mem_nil
  · have hfl : s.lanes.flying (usbip_urb_key u) =
        before.filter (usbip_urb_key · == usbip_urb_key u) ++
          u :: after.filter (usbip_urb_key · == usbip_urb_key u) := by
      show s.inflight.filter _ = _
      rw [heq]
      simp
    rcases behind_async hinv.wf (hwake.heads _ List.not_mem_nil) hfl with ⟨_, h⟩ | ⟨h, v, hv, ha⟩
    · exact .inl h
    · obtain ⟨hv, hk⟩ := List.mem_filter.mp hv
      exact .inr ⟨h, v, hv, by simpa using hk, ha⟩

/-- Two bulk IN URBs on one endpoint, the first held by the device, and one on
    another endpoint that the device NAKs. -/
def nak_session : List Input :=
  import_session ++
    [{ event := .read (submit_header 1 1 1 8 0 ++ submit_header 2 1 1 8 0 ++
        submit_header 3 1 2 8 0),
       budget := 10
       script := [.ret .hold, .ret { status := .nak }] }]

theorem nak_session_not_stranded :
    let s := run (Server.init true) nak_session
    s.waiting 18 ≠ [] ∧ (s.retry_timer ≠ none ∨ s.retry_bh = true) ∧
      s.inflight.map (·.packet.state) = [.async, .queued] := by
  intro s
  have hw : s.waiting 18 ≠ [] := by decide +kernel
  exact ⟨hw, (no_stranded_urb (s := s) ⟨true, nak_session, rfl⟩).1 18 hw, by decide +kernel⟩

end Usbip
