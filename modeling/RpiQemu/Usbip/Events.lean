import RpiQemu.Usbip.Stack

/-! # The conversation with the client

    Most steps of the machine move URBs and leave the connection alone.  `Talk`
    sorts the others: an enumeration ends, the input is parsed, a message is
    dispatched and handled.  An invariant of the connection is a case analysis
    over these, with one case for all the rest. -/

namespace Usbip

open Bytes

/-! ## The session -/

/-- The part of the state that belongs to the connection. -/
structure Session where
  conn : USBIPConn
  parsing : Bool
  rx : List UInt8
  received : List UInt8
  port_resetting : Bool
  enum_op : Nat
  enumerated : Bool
  present : Bool
  vbus : Bool

def Server.session (s : Server) : Session :=
  { conn := s.conn, parsing := s.parsing, rx := s.rx, received := s.received,
    port_resetting := s.port_resetting, enum_op := s.enum_op, enumerated := s.enumerated,
    present := s.present, vbus := s.vbus }

/-- The session after the connection is reset. -/
def Session.closed (x : Session) : Session :=
  { x with conn := .none, rx := [], enum_op := 0, enumerated := false, vbus := false }

/-- The session after an enumeration. -/
def Session.enumerated_as (x : Session) (ok : Bool) : Session :=
  { x with
    conn := if x.enum_op ≠ usbip_op_req_devlist ∧ ok then .attached else .op
    enum_op := 0
    enumerated := ok || x.enumerated }

/-- A call that parses, dispatches or resets the port. -/
def Tok.talks : Tok → Bool
  | .msg _ => true
  | .fin => true
  | .parse => true
  | .reset => true
  | _ => false

/-- The calls of the conversation among those in progress. -/
def talk (H : List Tok) : List Tok := H.filter Tok.talks

/-- Below a call that talks there is nothing but parse loops. -/
theorem Calm.talks {H : List Tok} (h : Calm H) : ∀ t ∈ talk H, t = .parse := by
  intro t ht
  obtain ⟨ht, htalk⟩ := List.mem_filter.mp ht
  have hc := h t ht
  cases t with
  | parse => rfl
  | _ => first | exact hc.elim | cases htalk

theorem Calm.not_msg {H : List Tok} (h : Calm H) (d : List UInt8) (T : List Tok) :
    talk H ≠ .msg d :: T := by
  intro heq
  have := h.talks (.msg d) (by rw [heq]; exact List.mem_cons_self ..)
  cases this

/-- An event that is not about the conversation. -/
def Ev.idle : Ev → Bool
  | .start _ => true
  | .halt _ _ => true
  | .ret_submit _ _ => true
  | .reset => true
  | _ => false

/-- The core is about to start the packet of an URB: one handed over on an empty
    queue, or the first of a queue. -/
def Starting (c : Cfg) (u : USBIPURB) : Prop :=
  (∃ b H, c.1 = .hand b u :: H ∧ (c.2.eps (usbip_urb_key u)).queue = []) ∨
    ∃ k H, c.1 = .loop k :: H ∧ c.2.head k = some u

/-! ## Steps -/

inductive Talk : Cfg → Cfg → Prop where
  | quiet {H H' s s'} (es : List Ev) : talk H' = talk H → s'.session = s.session →
      s'.log = s.log ++ es → (∀ e ∈ es, e.idle = true) → (s.conn = .none → s'.tx = s.tx) →
      (∀ i, .start i ∈ es → es = [.start i] ∧ ∃ u, u.id = i ∧ Starting (H, s) u) →
      Talk (H, s) (H', s')
  | finish {H u s s'} (ok : Bool) : u.internal = true →
      s'.session = s.session.enumerated_as ok → s'.log = s.log ++ [.enum_finish s.enum_op ok] →
      Talk (.done u :: H, s) (.fin :: H, s')
  | skip {H s} : s.parsing = true → Talk (.fin :: H, s) (H, s)
  | enter {H s} : s.parsing = false → Talk (.fin :: H, s) (.parse :: H, { s with parsing := true })
  | drop {H s s'} (es : List Ev) : malformed s → s'.session = s.session.closed → s'.tx = [] →
      s'.log = s.log ++ .drop :: es → (∀ e ∈ es, e = .reset) →
        Talk (.parse :: H, s) (.parse :: H, s')
  | message {H s} : ready s →
      Talk (.parse :: H, s) (.msg s.message :: .parse :: H, s.rest.note_msg s.message)
  | leave {H s} : ¬ ready s → ¬ malformed s → Talk (.parse :: H, s) (H, { s with parsing := false })
  | reply {H s s'} (d : List UInt8) : s.conn = .op →
      (be16At d 2 = usbip_op_req_devlist ∧ s.present = false ∨
        be16At d 2 ≠ usbip_op_req_devlist ∧ ¬ (s.present = true ∧ op_busid d = usbip_busid)) →
      s'.session = s.session → s'.log = s.log → Talk (.msg d :: H, s) (H, s')
  | enumerate {H s} (d : List UInt8) (op : Nat) : s.conn = .op → s.present = true →
      op = be16At d 2 →
      (op = usbip_op_req_devlist ∨ op = usbip_op_req_import ∧ op_busid d = usbip_busid) →
      Talk (.msg d :: H, s) (.reset :: H, usbip_enum_begin s op)
  | reset_done {H s} : Talk (.reset :: H, s) (.issue :: H, { s with port_resetting := false })
  | reject {H s s'} (d : List UInt8) (es : List Ev) : s.conn = .attached →
      be32At d 0 = usbip_cmd_submit → (submit_accept s d).2 = none →
      s'.session = s.session.closed → s'.tx = [] → s'.log = s.log ++ .drop :: es →
      (∀ e ∈ es, e = .reset) → Talk (.msg d :: H, s) (H, s')
  | accept {H s s'} (d : List UInt8) (u : USBIPURB) : s.conn = .attached →
      be32At d 0 = usbip_cmd_submit → (submit_accept s d).2 = some u → s'.session = s.session →
      s'.log = s.log ++ [.submit u.id u.seqnum (usbip_urb_key u)] →
      Talk (.msg d :: H, s) (.fresh u :: H, s')
  | unlink {H s s'} (d : List UInt8) (status : Int) (id : Option Nat) : s.conn = .attached →
      be32At d 0 ≠ usbip_cmd_submit → s'.session = s.session →
      s'.log = s.log ++ [.ret_unlink (be32At d 0x04) (be32At d 0x14) status id] →
      Talk (.msg d :: H, s) (H, s')

theorem Talk.still {H H' : List Tok} {s s' : Server} (ht : talk H' = talk H)
    (hs : s'.session = s.session) (hlog : s'.log = s.log) (htx : s'.tx = s.tx) :
    Talk (H, s) (H', s') :=
  .quiet [] ht hs (by rw [hlog, List.append_nil]) (by simp) (fun _ => htx) (by simp)

theorem Talk.started {H H' : List Tok} {s s' : Server} (u : USBIPURB) (hu : Starting (H, s) u)
    (ht : talk H' = talk H) (hs : s'.session = s.session) (hlog : s'.log = s.log ++ [.start u.id])
    (htx : s'.tx = s.tx) : Talk (H, s) (H', s') := by
  refine .quiet [.start u.id] ht hs hlog (by simp [Ev.idle]) (fun _ => htx) fun i hi => ?_
  obtain rfl : i = u.id := by simpa using hi
  exact ⟨rfl, u, rfl, hu⟩

theorem Closed.session {s s' : Server} (h : Closed s s') :
    s'.session = s.session.closed ∧ s'.tx = [] := by
  obtain ⟨_, _, _, _, _, _, _, rfl⟩ := h
  exact ⟨rfl, rfl⟩

/-- Nothing is sent without a client. -/
theorem foldl_send_none (l : List (List UInt8)) (s : Server) (h : s.conn = .none) :
    l.foldl usbip_send s = s := by
  induction l with
  | nil => rfl
  | cons x l ih => rw [List.foldl_cons, usbip_send, if_pos h, ih]

theorem answer_talk {H : List Tok} {s : Server} (u : USBIPURB) :
    Talk (.done u :: H, s) (H, usbip_urb_free (usbip_send_ret_submit s u) u) := by
  obtain ⟨_, _, hf⟩ := urb_free_counters (usbip_send_ret_submit s u) u
  obtain ⟨_, _, _, _, hs⟩ := usbip_send_ret_submit_sent s u
  refine .quiet [.ret_submit u.id u.seqnum] rfl ?_ ?_ (by simp [Ev.idle]) (fun hc => ?_) (by simp)
  · rw [hf, hs]
    rfl
  · rw [hf, hs]
    rfl
  · rw [hf]
    show (usbip_send_ret_submit s u).tx = s.tx
    rw [usbip_send_ret_submit, foldl_send_none _ (s.note (.ret_submit u.id u.seqnum)) hc]
    rfl

theorem enum_reply_talk {H : List Tok} {s : Server} {u : USBIPURB} (hu : u.internal = true)
    (ok : Bool) (n : Nat) :
    Talk (.done u :: H, s) (.fin :: H, usbip_enum_reply
      { (usbip_enum_result s u).1 with enum_step := n, enumerated := ok || s.enumerated } ok) := by
  obtain ⟨dd, cl, cd, hres⟩ := usbip_enum_result_eq s u
  rw [hres]
  obtain ⟨t, ⟨_, _, _, _, rfl⟩, ht⟩ := usbip_enum_reply_eq { s with
    dev_desc := dd, cfg_len := cl, cfg_desc := cd, enum_step := n,
    enumerated := ok || s.enumerated } ok
  rw [ht]
  refine .finish ok hu ?_ ?_
  · unfold Session.enumerated_as Server.session
    dsimp only
    split <;> rfl
  · split <;> rfl

theorem drop_client_session (s : Server) :
    (usbip_drop_client s).session = s.session.closed ∧ (usbip_drop_client s).tx = [] ∧
      ∃ es, (usbip_drop_client s).log = s.log ++ .drop :: es ∧ ∀ e ∈ es, e = .reset := by
  obtain ⟨hs, htx⟩ := (usbip_drop_client_closed s).session
  refine ⟨hs, htx, ?_⟩
  rcases drop_client_log s with h | h
  · exact ⟨_, h, by simp⟩
  · exact ⟨_, h, by simp⟩

theorem reject_talk {H : List Tok} {s : Server} {d : List UInt8} (hc : s.conn = .attached)
    (hd : be32At d 0 = usbip_cmd_submit) (hrej : (submit_accept s d).2 = none) :
    Talk (.msg d :: H, s) (H, (submit_accept s d).1) := by
  obtain ⟨id, n, b, hdrop, _, _⟩ := submit_reject hrej
  obtain ⟨hs, htx, es, hlog, hes⟩ :=
    drop_client_session { s with next_id := id, nurbs := n, urb_bytes := b }
  rw [hdrop]
  generalize usbip_drop_client _ = t at *
  exact .reject d es hc hd hrej hs htx hlog hes

theorem accept_talk {H : List Tok} {s : Server} {d : List UInt8} {u : USBIPURB}
    (hc : s.conn = .attached) (hd : be32At d 0 = usbip_cmd_submit)
    (hacc : (submit_accept s d).2 = some u) :
    Talk (.msg d :: H, s) (.fresh u :: H, (submit_accept s d).1) := by
  refine .accept d u hc hd hacc ?_ ?_
  all_goals
    rcases submit_accept_cases s d with ⟨t, _, heq⟩ | ⟨np, iso, heq, _⟩
    · rw [heq] at hacc
      cases hacc
    · rw [heq] at hacc ⊢
      obtain rfl := Option.some.inj hacc
      rfl

theorem unlink_talk {H : List Tok} {s : Server} {d : List UInt8} (hc : s.conn = .attached)
    (hd : be32At d 0 ≠ usbip_cmd_submit) :
    Talk (.msg d :: H, s) (H, usbip_handle_unlink s (be32At d 0x04) (be32At d 0x14)) := by
  obtain ⟨t, status, id, ⟨_, _, _, _, _, _, rfl⟩, _, _, _, _, h⟩ :=
    usbip_handle_unlink_moved s (be32At d 0x04) (be32At d 0x14)
  refine .unlink d status id hc hd ?_ ?_
  · rw [h]
    rfl
  · rw [h]
    rfl

/-- **Every step of the machine is a step of the conversation.** -/
theorem step_talk {c c' : Cfg} (h : Step c c') : Talk c c' := by
  cases h with
  | loop_flush s k _ =>
    obtain ⟨_, _, _, _, h⟩ := usb_ep_flush_shifted hold_env (s.note_halt k) k
    rw [h]
    exact .quiet [.halt k (decide (s.waiting k ≠ []))] rfl rfl rfl (by simp [Ev.idle])
      (fun _ => rfl) (by simp)
  | loop_start s k u hh _ _ => exact .started u (.inr ⟨k, _, rfl, hh⟩) rfl rfl rfl rfl
  | answer s u _ => exact answer_talk u
  | enum_next s u _ _ _ =>
    obtain ⟨_, _, _, h⟩ := usbip_enum_result_eq s u
    rw [h]
    exact .still rfl rfl rfl rfl
  | enum_end s u hu _ _ => exact enum_reply_talk hu true 4
  | enum_fail s u hu _ =>
    have h := enum_reply_talk (H := ‹_›) (s := s) hu false s.enum_step
    obtain ⟨_, _, _, hres⟩ := usbip_enum_result_eq s u
    rw [hres] at h ⊢
    exact h
  | behind s u _ | held_tail s u =>
    obtain ⟨_, h⟩ := usbip_urb_wait_eq s u
    rw [h]
    exact .still rfl rfl rfl rfl
  | iso_start s b u v due _ _ _ hq => exact .started u (.inl ⟨b, _, rfl, hq⟩) rfl rfl rfl rfl
  | start s b u _ hq => exact .started u (.inl ⟨b, _, rfl, hq⟩) rfl rfl rfl rfl
  | run_async s b u r _ hr =>
    simp only [usb_packet_started, hr]
    exact .still rfl rfl rfl rfl
  | retry_arm s =>
    obtain ⟨_, h⟩ := usbip_arm_retry_eq s
    rw [h]
    exact .still rfl rfl rfl rfl
  | parse_skip s hp => exact .skip hp
  | parse_begin s hp => exact .enter hp
  | parse_drop s hm =>
    obtain ⟨hs, htx, es, hlog, hes⟩ := drop_client_session s
    exact .drop es hm hs htx hlog hes
  | parse_msg s hr => exact .message hr
  | parse_end s hr hm => exact .leave hr hm
  | op_devlist s d hc hop hp =>
    obtain ⟨_, _, _, _, h⟩ := usbip_reply_devlist_sent s
    rw [h]
    exact .reply d hc (.inl ⟨hop, hp⟩) rfl rfl
  | op_import s d hc hop hp =>
    obtain ⟨_, _, _, _, h⟩ := usbip_reply_import_false_sent s
    rw [h]
    exact .reply d hc (.inr ⟨hop, hp⟩) rfl rfl
  | op_enum s d op hc hp hop hop' => exact .enumerate d op hc hp hop hop'
  | reset_done s => exact .reset_done
  | reject s d hc hd hrej => exact reject_talk hc hd hrej
  | accept s d u hc hd _ hacc => exact accept_talk hc hd hacc
  | unlink s d hc hd => exact unlink_talk hc hd
  | _ => exact .still rfl rfl rfl rfl

end Usbip
