import RpiQemu.Usbip.Connection
import Mathlib.Computability.StateTransition

/-! # Framing does not depend on the reads

    `Framer` says what the receiver is for: it cuts one stream of bytes into
    messages, in an order of its own and with no regard to reads, calls or the
    moment an enumeration ends.  How long the next message is depends on how the
    one before it went; these outcomes are all it is told about the device.

    The server's `rx`, its connection state and the messages in its log follow
    the framer step by step.  The framer is deterministic, so two servers that
    were sent the same stream and met the same outcomes end in the same place. -/

namespace Usbip

open Bytes StateTransition

variable {c c' : Cfg} {s s' : Server} {H H' : List Tok}

/-! ## Outcomes -/

/-- What the framer is told about a message: whether the client's limits were
    reached and the device was there when it was dispatched, and how the
    enumeration it started went, if that is over. -/
structure Outcome where
  full : Bool
  present : Bool
  enum : Option Bool

/-- An ISO descriptor of the CMD_SUBMIT reaches outside the transfer buffer. -/
def submit_bad_iso (d : List UInt8) : Bool :=
  let in_ := decide (be32At d 0x0c = usbip_dir_in)
  let np := toInt32 (be32At d 0x20)
  decide (0 < np) &&
    (submit_iso d (be32At d 0x18) np.toNat
      (usbip_hdr_len + (if in_ then 0 else be32At d 0x18))).isNone

/-- The connection after a message was dispatched; `none` if the client is
    dropped for it. -/
def Outcome.after (o : Outcome) (conn : USBIPConn) (d : List UInt8) : USBIPConn :=
  if conn = .op then
    if o.present ∧ (be16At d 2 = usbip_op_req_devlist ∨ op_busid d = usbip_busid) then
      .enumerating
    else .op
  else if be32At d 0 = usbip_cmd_submit ∧ (submit_bad_dir d || o.full || submit_bad_iso d) then
    .none
  else .attached

/-! ## The framer -/

structure Framer where
  conn : USBIPConn
  msgs : List (List UInt8)
  rx : List UInt8

/-- A client has connected and sent this stream. -/
def Framer.start (stream : List UInt8) : Framer := { conn := .op, msgs := [], rx := stream }

/-- The next message, or the end of an enumeration. -/
def Framer.step (o : Nat → Outcome) (f : Framer) : Option Framer :=
  match f.conn with
  | .none => none
  | .enumerating =>
    (o (f.msgs.length - 1)).enum.map fun ok : Bool =>
      { f with
        conn :=
          if be16At (f.msgs.getLastD []) 2 ≠ usbip_op_req_devlist ∧ ok then .attached else .op }
  | conn =>
    let need := usbip_msg_len conn f.rx
    if need < 0 then some { f with conn := .none, rx := [] }
    else if need = 0 ∨ need > f.rx.length then none
    else
      let d := f.rx.take need.toNat
      let conn := (o f.msgs.length).after conn d
      some
        { conn := conn
          msgs := f.msgs ++ [d]
          rx := if conn = .none then [] else f.rx.drop need.toNat }

/-- More of the stream arrives. -/
def Framer.more (f : Framer) (bs : List UInt8) : Framer :=
  if f.conn = .none then f else { f with rx := f.rx ++ bs }

variable {o : Nat → Outcome} {f f' : Framer}

theorem Framer.step_conn (h : f.step o = some f') : f.conn ≠ .none := by
  intro hc
  simp [Framer.step, hc] at h

/-- The length of a message that is complete or malformed is not changed by what
    follows. -/
theorem msg_len_more {conn : USBIPConn} {rx : List UInt8} (bs : List UInt8)
    (h : usbip_msg_len conn rx ≠ 0) : usbip_msg_len conn (rx ++ bs) = usbip_msg_len conn rx := by
  refine msg_len_append conn rx bs ?_
  by_contra hlt
  exact h (msg_len_short conn rx (Nat.not_le.mp hlt))

/-- **The framer never waits to see what comes after a message.** -/
theorem Framer.step_more (h : f.step o = some f') (bs : List UInt8) :
    (f.more bs).step o = some (f'.more bs) := by
  obtain ⟨conn, msgs, rx⟩ := f
  have hc : conn ≠ .none := Framer.step_conn h
  cases conn with
  | none => exact absurd rfl hc
  | enumerating =>
    simp only [Framer.step, Option.map_eq_some_iff] at h
    obtain ⟨ok, hok, rfl⟩ := h
    simp only [Framer.more, reduceCtorEq, if_false, Framer.step, hok, Option.map_some]
    split <;> simp
  | op | attached =>
    simp only [Framer.step] at h
    simp only [Framer.more, reduceCtorEq, if_false, Framer.step]
    split at h
    · rename_i hneg
      obtain rfl := Option.some.inj h
      rw [msg_len_more bs (by omega), if_pos hneg]
      rfl
    · rename_i hneg
      split at h
      · cases h
      · rename_i hlen
        obtain rfl := Option.some.inj h
        rw [msg_len_more bs (by omega), if_neg hneg, if_neg (by simp; omega),
          List.take_append_of_le_length (by omega), List.drop_append_of_le_length (by omega)]
        congr 1
        dsimp only
        split <;> simp_all

theorem Framer.reaches_more (h : Reaches (Framer.step o) f f') (bs : List UInt8) :
    Reaches (Framer.step o) (f.more bs) (f'.more bs) := by
  induction h with
  | refl => exact .refl
  | tail _ hstep ih => exact ih.tail (Framer.step_more hstep bs)

/-- The framer ends in one state. -/
theorem Framer.unique {f₁ f₂ : Framer} (h₁ : Reaches (Framer.step o) f f₁) (hn₁ : f₁.step o = none)
    (h₂ : Reaches (Framer.step o) f f₂) (hn₂ : f₂.step o = none) : f₁ = f₂ :=
  Part.mem_unique (mem_eval.mpr ⟨h₁, hn₁⟩) (mem_eval.mpr ⟨h₂, hn₂⟩)

/-! ## The message on top of the stack -/

/-- A message is dispatched on top of everything else in progress. -/
theorem Shape.no_msg {t : Tok} (h : Shape (t :: H)) (d : List UInt8) : .msg d ∉ H :=
  fun hm => h.below _ hm

theorem dev_no_msg (h : Shape H) (hd : dev H) (d : List UInt8) : .msg d ∉ H := by
  cases H with
  | nil => exact List.not_mem_nil
  | cons t H =>
    intro hm
    rcases List.mem_cons.mp hm with rfl | hm
    · exact hd
    · exact h.no_msg d hm

/-- A message gets on top of the stack by coming off `rx`. -/
theorem step_top_msg (h : Shape c.1) (hstep : Step c c') {d : List UInt8}
    (hd : c'.1 = .msg d :: H) :
    ∃ s H', c = (.parse :: H', s) ∧ ready s ∧
      c' = (.msg s.message :: .parse :: H', s.rest.note_msg s.message) := by
  have hpop : ∀ {t : Tok} {T : List Tok}, Shape (t :: T) → T ≠ .msg d :: H := by
    rintro t T hT rfl
    exact hT.no_msg d (List.mem_cons_self ..)
  cases hstep with
  | parse_msg s hr => exact ⟨s, _, rfl, hr, rfl⟩
  | act _ _ hdev | wakeup _ hdev | set_type _ _ _ hdev =>
    exact absurd (hd ▸ List.mem_cons_self ..) (dev_no_msg h hdev d)
  | runq_hold s k u => exact absurd hd (hpop h.2)
  | loop_none | loop_async | loop_flush | answer | lost | behind | enqueue | run_async | held_tail
  | retry_end | retry_arm | parse_skip | parse_end | op_devlist | op_import | reject | unlink =>
    exact absurd hd (hpop h)
  | _ => cases hd

/-- The message being dispatched, as it came off `rx` and into the log. -/
structure Dispatched (s : Server) (d : List UInt8) : Prop where
  conn : s.conn = .op ∨ s.conn = .attached
  logged : ∃ log, s.log = log ++ [.msg s.conn d s.nurbs s.urb_bytes s.present]
  len : usbip_msg_len s.conn (d ++ s.rx) = d.length
  pos : 0 < d.length

theorem step_dispatched (h : Shape c.1) (hstep : Step c c') {d : List UInt8}
    (hd : c'.1 = .msg d :: H) : Dispatched c'.2 d := by
  obtain ⟨s, H', rfl, hr, rfl⟩ := step_top_msg h hstep hd
  obtain rfl : s.message = d := by simpa using congrArg List.head? hd
  obtain ⟨hc, hpos, hle⟩ := hr
  have hlen : (s.message.length : Int) = usbip_msg_len s.conn s.rx := by
    rw [Server.message, List.length_take]
    omega
  refine ⟨hc, ⟨s.log, rfl⟩, ?_, by omega⟩
  show usbip_msg_len s.conn (s.message ++ s.rest.rx) = _
  rw [hlen, Server.message, Server.rest, List.take_append_drop]

/-! ## What the server has framed -/

def Ev.message : Ev → Option (List UInt8)
  | .msg _ d _ _ _ => some d
  | _ => none

/-- The messages dispatched on this connection. -/
def messages (log : List Ev) : List (List UInt8) := log.filterMap Ev.message

theorem messages_append (log es : List Ev) : messages (log ++ es) = messages log ++ messages es :=
  List.filterMap_append

theorem messages_idle {log es : List Ev} (h : ∀ e ∈ es, e.idle = true) :
    messages (log ++ es) = messages log := by
  have hnil : messages es = [] := by
    rw [messages, List.filterMap_eq_nil_iff]
    intro e he
    have hi := h e he
    cases e <;> first | rfl | cases hi
  rw [messages_append, hnil, List.append_nil]

/-- The server's place in the stream.  A message that is being dispatched still
    counts as unread. -/
def view (c : Cfg) : Framer :=
  match talk c.1 with
  | .msg d :: _ =>
    { conn := c.2.conn, msgs := (messages c.2.log).dropLast, rx := d ++ c.2.rx }
  | _ => { conn := c.2.conn, msgs := messages c.2.log, rx := c.2.rx }

/-- The outcome of an event logged after `n` messages. -/
def Ev.agrees (o : Nat → Outcome) (n : Nat) : Ev → Prop
  | .msg _ d nurbs urb_bytes present =>
    (o n).full = over_limit nurbs urb_bytes d ∧ (o n).present = present
  | .enum_finish _ ok => (o (n - 1)).enum = some ok
  | _ => True

instance (o : Nat → Outcome) (n : Nat) (e : Ev) : Decidable (e.agrees o n) :=
  match e with
  | .msg _ d nurbs urb_bytes present =>
    inferInstanceAs
      (Decidable ((o n).full = over_limit nurbs urb_bytes d ∧ (o n).present = present))
  | .enum_finish _ ok => inferInstanceAs (Decidable ((o (n - 1)).enum = some ok))
  | .submit _ _ _ => .isTrue trivial
  | .start _ => .isTrue trivial
  | .halt _ _ => .isTrue trivial
  | .ret_submit _ _ => .isTrue trivial
  | .ret_unlink _ _ _ _ => .isTrue trivial
  | .drop => .isTrue trivial
  | .reset => .isTrue trivial

/-- The outcomes are the ones logged. -/
def Agrees (o : Nat → Outcome) (log : List Ev) : Prop :=
  ∀ i (h : i < log.length), log[i].agrees o (messages (log.take i)).length

instance (o : Nat → Outcome) (log : List Ev) : Decidable (Agrees o log) :=
  inferInstanceAs
    (Decidable (∀ i (h : i < log.length), log[i].agrees o (messages (log.take i)).length))

theorem Agrees.of_append {log es : List Ev} (h : Agrees o (log ++ es)) : Agrees o log := by
  intro i hi
  have hi' : i < (log ++ es).length := by
    rw [List.length_append]
    omega
  have := h i hi'
  rwa [List.getElem_append_left hi, List.take_append_of_le_length (Nat.le_of_lt hi)] at this

theorem Agrees.last {log : List Ev} {e : Ev} (h : Agrees o (log ++ [e])) :
    e.agrees o (messages log).length := by
  have := h log.length (by simp)
  rwa [List.getElem_concat_length rfl, List.take_left] at this

theorem view_not_msg (h : ∀ d T, talk H ≠ .msg d :: T) : view (H, s) =
    { conn := s.conn, msgs := messages s.log, rx := s.rx } := by
  unfold view
  split
  · rename_i d T heq
    exact absurd heq (h d T)
  · rfl

theorem view_calm (h : Calm H) : view (H, s) =
    { conn := s.conn, msgs := messages s.log, rx := s.rx } := view_not_msg h.not_msg

theorem view_msg {d : List UInt8} : view (.msg d :: H, s) =
    { conn := s.conn, msgs := (messages s.log).dropLast, rx := d ++ s.rx } := rfl

/-- A dispatch is a step of the framer. -/
theorem Dispatched.step {d : List UInt8} (h : Dispatched s d) (ho : Agrees o s.log)
    {conn : USBIPConn} {rx : List UInt8}
    (hafter : (o ((messages s.log).length - 1)).full = over_limit s.nurbs s.urb_bytes d →
      (o ((messages s.log).length - 1)).present = s.present →
      (o ((messages s.log).length - 1)).after s.conn d = conn)
    (hrx : rx = if conn = .none then [] else s.rx) :
    (view (.msg d :: H, s)).step o = some { conn := conn, msgs := messages s.log, rx := rx } := by
  obtain ⟨hc, ⟨log, hlog⟩, hlen, hpos⟩ := h
  have hmsgs : messages s.log = messages log ++ [d] := by
    rw [hlog, messages_append]
    rfl
  rw [hmsgs, List.length_append, List.length_singleton, Nat.add_sub_cancel] at hafter
  rw [hlog] at ho
  obtain ⟨hover, hpres⟩ := ho.last
  have hconn := hafter hover hpres
  have htake : (d ++ s.rx).take d.length = d := by simp
  have hdrop : (d ++ s.rx).drop d.length = s.rx := by simp
  rw [view_msg, hmsgs, List.dropLast_concat, hrx]
  have hneg : ¬ ((d.length : Int) < 0) := by omega
  have hcomplete : ¬ ((d.length : Int) = 0 ∨ (d.length : Int) > ((d ++ s.rx).length : Int)) := by
    rw [List.length_append]
    omega
  rcases hc with hc | hc
  · rw [hc] at hlen hconn ⊢
    simp only [Framer.step, hlen, if_neg hneg, if_neg hcomplete, Int.toNat_natCast, htake, hdrop,
      hconn]
  · rw [hc] at hlen hconn ⊢
    simp only [Framer.step, hlen, if_neg hneg, if_neg hcomplete, Int.toNat_natCast, htake, hdrop,
      hconn]

/-- When `usbip_handle_submit` drops the client. -/
theorem submit_accept_none (s : Server) (d : List UInt8) : (submit_accept s d).2 = none ↔
    (submit_bad_dir d || over_limit s.nurbs s.urb_bytes d || submit_bad_iso d) = true := by
  rw [submit_accept_eq rfl rfl]
  by_cases hdir : submit_bad_dir d = true
  · simp [hdir]
  by_cases hlim : submit_over_limit s d = true
  · have hlim' : over_limit s.nurbs s.urb_bytes d = true := hlim
    simp [hdir, hlim, hlim']
  have hlim' : over_limit s.nurbs s.urb_bytes d = false := by
    simpa [submit_over_limit] using hlim
  have hlen : (submit_urb s d).2.len = be32At d 0x18 := rfl
  have hin : (submit_urb s d).2.in_ = decide (be32At d 0x0c = usbip_dir_in) := rfl
  rw [if_neg hdir, if_neg hlim, hlim']
  simp only [submit_bad_iso, hlen, hin, hdir, Bool.false_or]
  split
  · rename_i hnp
    split
    · rename_i hiso
      simp only [hnp, hiso, decide_true, Option.isNone_none, Bool.and_true]
    · rename_i iso hiso
      simp only [hnp, hiso, Option.isNone_some, Bool.and_false, reduceCtorEq]
  · rename_i hnp
    simp [hnp]

/-! ## The invariant -/

/-- The framer's state is the server's, on a connection that nothing but
    `usbip_drop_client` has ended. -/
structure Framed (c : Cfg) : Prop where
  dispatched : ∀ d T, c.1 = .msg d :: T → Dispatched c.2 d
  eager : ready c.2 ∨ malformed c.2 → .fin ∈ talk c.1 ∨ .parse ∈ talk c.1
  parsing : c.2.parsing = true → .parse ∈ talk c.1
  enumerating : c.2.conn = .enumerating → be16At ((messages c.2.log).getLastD []) 2 = c.2.enum_op
  dropped : .drop ∈ c.2.log → c.2.conn = .none
  follows : c.2.conn ≠ .none ∨ .drop ∈ c.2.log → ∀ o, Agrees o c.2.log →
    Reaches (Framer.step o) (Framer.start c.2.received) (view c)

theorem ready_congr (hs : s'.session = s.session) :
    (ready s' ↔ ready s) ∧ (malformed s' ↔ malformed s) := by
  have hc : s'.conn = s.conn := congrArg Session.conn hs
  have hrx : s'.rx = s.rx := congrArg Session.rx hs
  unfold ready malformed
  rw [hc, hrx]
  exact ⟨Iff.rfl, Iff.rfl⟩

theorem not_drop_idle {es : List Ev} (h : ∀ e ∈ es, e.idle = true) : .drop ∉ es :=
  fun hd => by cases h _ hd

/-- The log of a connection that is up has no `drop`. -/
theorem Framed.no_drop (h : Framed c) (hc : c.2.conn ≠ .none) : .drop ∉ c.2.log :=
  fun hd => hc (h.dropped hd)

theorem quiet_framed {es : List Ev} (hinv : Inv (H, s)) (h : Framed (H, s))
    (hstep : Step (H, s) (H', s'))
    (ht : talk H' = talk H) (hs : s'.session = s.session) (hlog : s'.log = s.log ++ es)
    (hes : ∀ e ∈ es, e.idle = true) : Framed (H', s') := by
  have hc : s'.conn = s.conn := congrArg Session.conn hs
  have hrx : s'.rx = s.rx := congrArg Session.rx hs
  have hrec : s'.received = s.received := congrArg Session.received hs
  have hop : s'.enum_op = s.enum_op := congrArg Session.enum_op hs
  have hpar : s'.parsing = s.parsing := congrArg Session.parsing hs
  have hmsgs : messages s'.log = messages s.log := by rw [hlog, messages_idle hes]
  have hdrop : .drop ∈ s'.log ↔ .drop ∈ s.log := by
    rw [hlog, List.mem_append]
    exact ⟨fun hd => hd.resolve_right (not_drop_idle hes), .inl⟩
  have hview : view (H', s') = view (H, s) := by
    simp only [view, ht, hc, hrx, hmsgs]
  have hdis := fun d T => step_dispatched (d := d) (H := T) hinv.shape hstep
  obtain ⟨hready, hmal⟩ := ready_congr hs
  refine ⟨hdis, ?_, ?_, ?_, ?_, fun hup o ho => ?_⟩
  · simp only [hready, hmal, ht]
    exact h.eager
  · simp only [hpar, ht]
    exact h.parsing
  · simp only [hc, hmsgs, hop]
    exact h.enumerating
  · simp only [hdrop, hc]
    exact h.dropped
  · simp only [hdrop, hc] at hup
    simp only [hlog] at ho
    rw [hview, hrec]
    exact h.follows hup o ho.of_append

/-- The connection is dropped: the framer is left in its last state. -/
theorem drop_framed {es : List Ev} (hinv : Inv (H, s)) (h : Framed (H, s))
    (hstep : Step (H, s) (H', s'))
    (hup : s.conn ≠ .none) (hs : s'.session = s.session.closed)
    (hlog : s'.log = s.log ++ .drop :: es) (hes : ∀ e ∈ es, e = .reset)
    (hmsg : ∀ d T, talk H' ≠ .msg d :: T) (hpar : .parse ∈ talk H → .parse ∈ talk H')
    (hf : ∀ o, Agrees o s.log → (view (H, s)).step o =
      some { conn := .none, msgs := messages s.log, rx := [] }) : Framed (H', s') := by
  have hc : s'.conn = .none := congrArg Session.conn hs
  have hrx : s'.rx = [] := congrArg Session.rx hs
  have hrec : s'.received = s.received := congrArg Session.received hs
  have hpar' : s'.parsing = s.parsing := congrArg Session.parsing hs
  have hmsgs : messages s'.log = messages s.log := by
    rw [hlog, List.append_cons, messages_idle fun e he => by rw [hes e he]; rfl, messages_append]
    exact List.append_nil _
  have hdis := fun d T => step_dispatched (d := d) (H := T) hinv.shape hstep
  refine ⟨hdis, ?_, ?_, fun hc' => ?_, fun _ => hc, fun _ o ho => ?_⟩
  · rintro (hr | hr)
    · rcases hr.1 with h' | h' <;> exact absurd (hc.symm.trans h') (by decide)
    · rcases hr.1 with h' | h' <;> exact absurd (hc.symm.trans h') (by decide)
  · simp only [hpar']
    exact fun hp => hpar (h.parsing hp)
  · exact absurd (hc.symm.trans hc') (by decide)
  · simp only [hlog] at ho
    rw [view_not_msg hmsg, hc, hmsgs, hrx, hrec]
    exact (h.follows (.inl hup) o ho.of_append).tail (hf o ho.of_append)

/-- Below a message there is a parse loop, if anything. -/
theorem Calm.below_msg (h : Calm H) (d : List UInt8)
    (hm : .fin ∈ talk (.msg d :: H) ∨ .parse ∈ talk (.msg d :: H)) : .parse ∈ talk H := by
  have htalk : talk (.msg d :: H) = .msg d :: talk H := rfl
  rw [htalk] at hm
  rcases hm with hm | hm
  · rcases List.mem_cons.mp hm with hm | hm
    · cases hm
    · exact absurd (h.talks _ hm) (by simp)
  · rcases List.mem_cons.mp hm with hm | hm
    · cases hm
    · exact hm

/-- A message that does not end the connection is handled. -/
theorem handled_framed {d : List UInt8} {es : List Ev} (hinv : Inv (.msg d :: H, s))
    (h : Framed (.msg d :: H, s))
    (hstep : Step (.msg d :: H, s) (H', s')) (hcalm : Calm H) (hup : s.conn ≠ .none)
    (hs : s'.session = s.session) (hlog : s'.log = s.log ++ es)
    (hes : messages es = [] ∧ .drop ∉ es) (ht : talk H' = talk H)
    (hafter : ∀ x : Outcome, x.full = over_limit s.nurbs s.urb_bytes d → x.present = s.present →
      x.after s.conn d = s.conn) : Framed (H', s') := by
  have hc : s'.conn = s.conn := congrArg Session.conn hs
  have hrx : s'.rx = s.rx := congrArg Session.rx hs
  have hrec : s'.received = s.received := congrArg Session.received hs
  have hpar' : s'.parsing = s.parsing := congrArg Session.parsing hs
  have hmsgs : messages s'.log = messages s.log := by
    rw [hlog, messages_append, hes.1, List.append_nil]
  have hdisp := h.dispatched d H rfl
  have hbelow := hcalm.below_msg d
  have hdis := fun d T => step_dispatched (d := d) (H := T) hinv.shape hstep
  obtain ⟨hready, hmal⟩ := ready_congr hs
  refine ⟨hdis, ?_, ?_, fun hc' => ?_, ?_, fun _ o ho => ?_⟩
  · simp only [hready, hmal]
    rw [ht]
    exact fun hr => .inr (hbelow (h.eager hr))
  · simp only [hpar']
    rw [ht]
    exact fun hp => hbelow (.inr (h.parsing hp))
  · rw [show (H', s').2.conn = s.conn from hc] at hc'
    rcases hdisp.conn with h' | h' <;> exact absurd (h'.symm.trans hc') (by decide)
  · simp only [hlog, List.mem_append]
    exact fun hd => absurd (hd.resolve_right hes.2) (h.no_drop hup)
  · simp only [hlog] at ho
    rw [view_not_msg (ht ▸ hcalm.not_msg), hc, hmsgs, hrx, hrec]
    refine (h.follows (.inl hup) o ho.of_append).tail (hdisp.step ho.of_append ?_ ?_)
    · exact hafter _
    · rw [if_neg hup]

/-- An enumeration starts. -/
theorem enumerate_framed {d : List UInt8} {op : Nat} (hinv : Inv (.msg d :: H, s))
    (h : Framed (.msg d :: H, s))
    (hstep : Step (.msg d :: H, s) (.reset :: H, usbip_enum_begin s op)) (hcalm : Calm H)
    (hc : s.conn = .op) (hp : s.present = true) (hop : op = be16At d 2)
    (hop' : op = usbip_op_req_devlist ∨ op = usbip_op_req_import ∧ op_busid d = usbip_busid) :
    Framed (.reset :: H, usbip_enum_begin s op) := by
  have hdisp := h.dispatched d H rfl
  have hup : s.conn ≠ .none := by rw [hc]; decide
  have hdis := fun d T => step_dispatched (d := d) (H := T) hinv.shape hstep
  refine ⟨hdis, ?_, fun hpar => ?_, fun _ => ?_, fun hd => ?_, fun _ o ho => ?_⟩
  · rintro (hr | hr)
    · rcases hr.1 with h' | h' <;> cases h'
    · rcases hr.1 with h' | h' <;> cases h'
  · exact List.mem_cons_of_mem _ (hcalm.below_msg d (.inr (h.parsing hpar)))
  · obtain ⟨log, hlog⟩ := hdisp.logged
    show be16At ((messages s.log).getLastD []) 2 = op
    rw [hlog, messages_append, hop]
    simp [messages, Ev.message]
  · exact absurd hd (h.no_drop hup)
  · refine (h.follows (.inl hup) o ho).tail (hdisp.step ho (fun _ hpres => ?_) rfl)
    show Outcome.after _ s.conn d = .enumerating
    have hwant : be16At d 2 = usbip_op_req_devlist ∨ op_busid d = usbip_busid := by
      rcases hop' with h' | ⟨_, h'⟩
      · exact .inl (hop.symm.trans h')
      · exact .inr h'
    rw [Outcome.after, if_pos hc, if_pos ⟨hpres.trans hp, hwant⟩]

/-- An enumeration ends. -/
theorem finish_framed {u : USBIPURB} {ok : Bool} (hinv : Inv (.done u :: H, s))
    (h : Framed (.done u :: H, s))
    (hstep : Step (.done u :: H, s) (.fin :: H, s')) (hcalm : Calm H)
    (hen : s.conn = .enumerating) (hs : s'.session = s.session.enumerated_as ok)
    (hlog : s'.log = s.log ++ [.enum_finish s.enum_op ok]) : Framed (.fin :: H, s') := by
  have hc : s'.conn = if s.enum_op ≠ usbip_op_req_devlist ∧ ok then .attached else .op :=
    congrArg Session.conn hs
  have hrx : s'.rx = s.rx := congrArg Session.rx hs
  have hrec : s'.received = s.received := congrArg Session.received hs
  have hpar : s'.parsing = s.parsing := congrArg Session.parsing hs
  have hmsgs : messages s'.log = messages s.log := by
    rw [hlog, messages_append]
    exact List.append_nil _
  have hup : s.conn ≠ .none := by rw [hen]; decide
  have hdis := fun d T => step_dispatched (d := d) (H := T) hinv.shape hstep
  refine ⟨hdis, fun _ => .inl (List.mem_cons_self ..), ?_, fun hc' => ?_, ?_, fun _ o ho => ?_⟩
  · simp only [hpar]
    exact fun hp => List.mem_cons_of_mem _ (h.parsing hp)
  · rw [show (Tok.fin :: H, s').2.conn = _ from hc] at hc'
    split at hc' <;> cases hc'
  · simp only [hlog, List.mem_append]
    rintro (hd | hd)
    · exact absurd hd (h.no_drop hup)
    · simp at hd
  · simp only [hlog] at ho
    have hok : (o ((messages s.log).length - 1)).enum = some ok := ho.last
    have hlast := h.enumerating hen
    rw [view_not_msg (by intro d T heq; cases heq), hc, hmsgs, hrx, hrec]
    refine (h.follows (.inl hup) o ho.of_append).tail ?_
    rw [show view (.done u :: H, s) = view (H, s) from rfl, view_calm hcalm, hen]
    show Option.map _ _ = _
    simp only [hok, Option.map_some, hlast]

theorem step_framed (hinv : Inv c) (h : Framed c) (hstep : Step c c') :
    Framed c' := by
  cases step_talk hstep with
  | quiet es ht hs hlog hes _ _ => exact quiet_framed hinv h hstep ht hs hlog hes
  -- The last of the server's own URBs: what was held back is parsed from here on.
  | @finish H u s s' ok hu hs hlog =>
    have hen : s.conn = .enumerating :=
      hinv.ledger.enumerating (Multiset.mem_add.mpr (.inl (Multiset.mem_cons_self _ _))) hu
    exact finish_framed hinv h hstep (hinv.shape.1 hu) hen hs hlog
  -- The parse is on the stack already: the outer loop goes on with what is left.
  | @skip H s hp =>
    have hcalm : Calm H := hinv.shape
    have hdis := fun d T => step_dispatched (d := d) (H := T) hinv.shape hstep
    have hpar : .parse ∈ talk H := by simpa [talk, Tok.talks] using h.parsing hp
    refine ⟨hdis, fun _ => .inr hpar, fun _ => hpar, h.enumerating, h.dropped, ?_⟩
    rw [view_calm hcalm]
    exact h.follows
  | @enter H s hp =>
    have hdis := fun d T => step_dispatched (d := d) (H := T) hinv.shape hstep
    exact ⟨hdis, fun _ => .inr (List.mem_cons_self ..), fun _ => List.mem_cons_self ..,
      h.enumerating, h.dropped, h.follows⟩
  | @drop H s s' es hm hs _ hlog hes =>
    have hup : s.conn ≠ .none := by rcases hm.1 with hc | hc <;> rw [hc] <;> decide
    refine drop_framed hinv h hstep hup hs hlog hes (by intro d T heq; cases heq) id fun o _ => ?_
    rw [view_not_msg (by intro d T heq; cases heq)]
    obtain ⟨hc | hc, hneg⟩ := hm <;> rw [hc] at hneg <;> simp only [Framer.step, hc, if_pos hneg]
  -- The message and the rest together are the bytes held before it was cut off.
  | @message H s hr =>
    have hdis := fun d T => step_dispatched (d := d) (H := T) hinv.shape hstep
    have hup : s.conn ≠ .none := by rcases hr.1 with hc | hc <;> rw [hc] <;> decide
    refine ⟨hdis, fun _ => .inr (by simp [talk, Tok.talks]),
      fun _ => by simp [talk, Tok.talks], fun hc => ?_, fun hd => ?_, fun _ o ho => ?_⟩
    · have hc : s.conn = .enumerating := hc
      rcases hr.1 with hc' | hc' <;> exact absurd (hc'.symm.trans hc) (by decide)
    · have hd : .drop ∈ s.log ++ [.msg s.conn s.message s.nurbs s.urb_bytes s.present] := hd
      refine absurd ?_ (h.no_drop hup)
      simpa using hd
    · have hview : view (.msg s.message :: .parse :: H, s.rest.note_msg s.message) =
          view (.parse :: H, s) := by
        have hmsgs : messages (s.rest.note_msg s.message).log = messages s.log ++ [s.message] := by
          show messages (s.log ++ [.msg s.conn s.message s.nurbs s.urb_bytes s.present]) = _
          rw [messages_append]
          rfl
        have hrx : s.message ++ (s.rest.note_msg s.message).rx = s.rx := List.take_append_drop _ _
        rw [view_msg, hmsgs, List.dropLast_concat, hrx]
        rfl
      rw [hview]
      exact h.follows (.inl hup) o (Agrees.of_append ho)
  | @leave H s hr hm =>
    have hcalm : Calm H := hinv.shape
    have hdis := fun d T => step_dispatched (d := d) (H := T) hinv.shape hstep
    refine ⟨hdis, fun hrm => ?_, fun hp => Bool.noConfusion hp, h.enumerating, h.dropped, ?_⟩
    · exact (hrm.elim hr hm).elim
    · rw [view_calm hcalm]
      exact h.follows
  | @reply H s s' d hc hno hs hlog =>
    have hup : s.conn ≠ .none := by rw [hc]; decide
    have hnone : s'.log = s.log ++ [] := hlog.trans (List.append_nil _).symm
    refine handled_framed hinv h hstep hinv.shape hup hs hnone ⟨rfl, List.not_mem_nil⟩ rfl
      fun x _ hpres => ?_
    rw [Outcome.after, if_pos hc, if_neg, hc]
    rintro ⟨hp, hwant⟩
    rw [hpres] at hp
    rcases hno with ⟨_, hnp⟩ | ⟨hop, hno⟩
    · rw [hp] at hnp
      cases hnp
    · exact hno ⟨hp, hwant.resolve_left hop⟩
  | enumerate d op hc hp hop hop' => exact enumerate_framed hinv h hstep hinv.shape hc hp hop hop'
  | @reset_done H s =>
    have hcalm : Calm H := hinv.shape
    have hdis := fun d T => step_dispatched (d := d) (H := T) hinv.shape hstep
    refine ⟨hdis, fun hr => ?_, fun hp => ?_, h.enumerating, h.dropped, ?_⟩
    · simpa [talk, Tok.talks] using h.eager hr
    · simpa [talk, Tok.talks] using h.parsing hp
    · rw [show view (.issue :: H, { s with port_resetting := false }) =
        view (H, { s with port_resetting := false }) from rfl, view_calm hcalm]
      exact h.follows
  -- The framer closes on the same test as `usbip_handle_submit`.
  | @reject H s s' d es hc hcmd hrej hs _ hlog hes =>
    have hup : s.conn ≠ .none := by rw [hc]; decide
    have hcalm : Calm H := hinv.shape
    refine drop_framed hinv h hstep hup hs hlog hes hcalm.not_msg
      (fun hm => by simpa [talk, Tok.talks] using hm) fun o ho => ?_
    refine (h.dispatched d H rfl).step ho (fun hover _ => ?_) rfl
    rw [submit_accept_none, ← hover] at hrej
    rw [Outcome.after, if_neg (by rw [hc]; decide), if_pos ⟨hcmd, hrej⟩]
  | @accept H s s' d u hc hcmd hacc hs hlog =>
    have hup : s.conn ≠ .none := by rw [hc]; decide
    refine handled_framed hinv h hstep hinv.shape hup hs hlog ⟨rfl, by simp⟩ rfl fun x hover _ => ?_
    have hnot : ¬ (submit_accept s d).2 = none := by
      rw [hacc]
      exact Option.some_ne_none u
    rw [submit_accept_none, ← hover] at hnot
    rw [Outcome.after, if_neg (by rw [hc]; decide), if_neg fun h' => hnot h'.2, hc]
  | @unlink H s s' d status id hc hcmd hs hlog =>
    have hup : s.conn ≠ .none := by rw [hc]; decide
    refine handled_framed hinv h hstep hinv.shape hup hs hlog ⟨rfl, by simp⟩ rfl fun x _ _ => ?_
    rw [Outcome.after, if_neg (by rw [hc]; decide), if_neg fun h' => hcmd h'.1, hc]

/-! ## Arrivals -/

theorem Framed.arrived (h : Framed ([], s)) (hs : s'.session = s.session) (hlog : s'.log = s.log)
    (ht : talk H' = []) (htop : ∀ d, .msg d ∉ H') : Framed (H', s') := by
  have hc : s'.conn = s.conn := congrArg Session.conn hs
  have hrx : s'.rx = s.rx := congrArg Session.rx hs
  have hrec : s'.received = s.received := congrArg Session.received hs
  have hop : s'.enum_op = s.enum_op := congrArg Session.enum_op hs
  have hpar : s'.parsing = s.parsing := congrArg Session.parsing hs
  have hview : view (H', s') = view ([], s) := by
    rw [view_not_msg (by rw [ht]; simp), view_calm Calm.nil, hc, hrx, hlog]
  obtain ⟨hready, hmal⟩ := ready_congr hs
  refine ⟨fun d T heq => ?_, ?_, ?_, ?_, ?_, ?_⟩
  · exact absurd (by rw [show H' = _ from heq]; exact List.mem_cons_self ..) (htop d)
  · simp only [hready, hmal, ht]
    exact h.eager
  · simp only [hpar, ht]
    exact h.parsing
  · simp only [hc, hlog, hop]
    exact h.enumerating
  · simp only [hc, hlog]
    exact h.dropped
  · simp only [hc, hlog, hrec, hview]
    exact h.follows

/-- An event ends the connection, or finds it dropped already. -/
theorem Framed.closed {es : List Ev} (h : Framed ([], s)) (hst : Stage ([], s))
    (hs : s'.session = s.session.closed) (hlog : s'.log = s.log ++ es)
    (hes : ∀ e ∈ es, e.idle = true) : Framed ([], s') := by
  have hc : s'.conn = .none := congrArg Session.conn hs
  have hrx : s'.rx = [] := congrArg Session.rx hs
  have hrec : s'.received = s.received := congrArg Session.received hs
  have hpar : s'.parsing = s.parsing := congrArg Session.parsing hs
  have hmsgs : messages s'.log = messages s.log := by rw [hlog, messages_idle hes]
  refine ⟨fun d T heq => (by cases heq), ?_, ?_, fun hc' => ?_,
    fun _ => hc, ?_⟩
  · rintro (hr | hr)
    · rcases hr.1 with h' | h' <;> exact absurd (hc.symm.trans h') (by decide)
    · rcases hr.1 with h' | h' <;> exact absurd (hc.symm.trans h') (by decide)
  · simp only [hpar]
    exact h.parsing
  · exact absurd (hc.symm.trans hc') (by decide)
  · rintro (hup | hd) o ho
    · exact absurd hc hup
    · have hd' : .drop ∈ s.log := by
        simp only [hlog, List.mem_append] at hd
        exact hd.resolve_right (not_drop_idle hes)
      have hcs : s.conn = .none := h.dropped hd'
      have hrxs : s.rx = [] := (hst.none hcs).1
      have hview : view ([], s') = view ([], s) := by
        rw [view_calm Calm.nil, view_calm Calm.nil, hc, hcs, hrx, hrxs, hmsgs]
      simp only [hlog] at ho
      rw [hview, hrec]
      exact h.follows (.inr hd') o ho.of_append

theorem close_client_framed (h : Framed ([], s)) (hst : Stage ([], s)) :
    Framed ([], usbip_close_client s) := by
  have hs := (usbip_close_client_closed s).session.1
  have hlog := close_client_log s
  generalize usbip_close_client s = t at hs hlog
  rcases hlog with hlog | hlog
  · exact h.closed hst hs hlog (by simp [Ev.idle])
  · exact h.closed hst hs hlog (by simp [Ev.idle])

theorem opened_framed (hpar : s.parsing = false) :
    Framed ([], usbip_event s .opened) := by
  have hs := (usbip_reset_connection_closed s).session.1
  unfold usbip_event usb_port_set_vbus
  dsimp only
  generalize usbip_reset_connection s = t at hs
  have hrx : t.rx = [] := congrArg Session.rx hs
  have hp : t.parsing = false := (congrArg Session.parsing hs).trans hpar
  refine ⟨fun d T heq => (by cases heq), ?_, fun hp' => ?_,
    fun hc => USBIPConn.noConfusion hc, fun hd => absurd hd List.not_mem_nil, fun _ o _ => ?_⟩
  · have hnil : usbip_msg_len .op [] = 0 := by decide
    rintro (hr | hr)
    · have h2 := hr.2.1
      simp only [hrx, hnil] at h2
      omega
    · have h2 := hr.2
      simp only [hrx, hnil] at h2
      omega
  · exact absurd (hp.symm.trans hp') (by decide)
  · rw [view_calm Calm.nil]
    simp only [hrx]
    exact .refl

theorem Framed.not_parsing (h : Framed ([], s)) : s.parsing = false := by
  cases hp : s.parsing with
  | false => rfl
  | true => exact absurd (h.parsing hp) List.not_mem_nil

/-- More of the stream arrives. -/
theorem read_framed (h : Framed ([], s)) (hc : s.conn = .op ∨ s.conn = .attached)
    (buf : List UInt8) :
    Framed ([.fin], { s with rx := s.rx ++ buf, received := s.received ++ buf }) := by
  have hup : s.conn ≠ .none := by rcases hc with hc | hc <;> rw [hc] <;> decide
  refine ⟨fun d T heq => (by cases heq),
    fun _ => .inl (List.mem_cons_self ..), fun hp => ?_, h.enumerating, h.dropped, fun _ o ho => ?_⟩
  · exact absurd (h.parsing hp) List.not_mem_nil
  · have hmore := Framer.reaches_more (h.follows (.inl hup) o ho) buf
    rw [view_calm Calm.nil] at hmore
    rw [view_not_msg (by intro d T heq; cases heq)]
    simpa only [Framer.more, Framer.start, hup, if_false, reduceCtorEq] using hmore

theorem detach_framed (h : Framed ([], s)) (hst : Stage ([], s)) :
    Framed ([], { usbip_port_detach s with present := false }) := by
  have hdetach : Framed ([], usbip_port_detach s) := by
    have hquiet : Framed ([], { s with enumerated := false }) :=
      ⟨fun d T heq => (by cases heq), h.eager, h.parsing, h.enumerating, h.dropped, h.follows⟩
    rcases usbip_port_detach_eq s hst.not_resetting with ⟨_, heq⟩ | ⟨_, heq⟩
    · have hs := (usbip_close_client_closed { s with enumerated := false }).session.1
      have hlog := close_client_log { s with enumerated := false }
      rw [← heq] at hs hlog
      generalize usbip_port_detach s = t at hs hlog
      rcases hlog with hlog | hlog
      · exact Framed.closed (s := s) h hst hs hlog (by simp [Ev.idle])
      · exact Framed.closed (s := s) h hst hs hlog (by simp [Ev.idle])
    · rw [heq]
      exact hquiet
  generalize usbip_port_detach s = t at hdetach
  exact ⟨fun d T heq => (by cases heq), hdetach.eager, hdetach.parsing,
    hdetach.enumerating, hdetach.dropped, hdetach.follows⟩

theorem arrive_framed (h : Framed ([], s)) (hst : Stage ([], s)) (ha : Arrive s c) : Framed c := by
  cases ha with
  | input script cw => exact h.arrived rfl rfl rfl (by simp)
  | read buf hc => exact read_framed h hc buf
  | fire_retry => exact h.arrived rfl rfl rfl (by simp)
  | fire_iso => exact h.arrived rfl rfl rfl (by simp)
  | fire_bh => exact h.arrived rfl rfl rfl (by simp)
  | chr e =>
    cases e with
    | opened => exact opened_framed h.not_parsing
    | closed =>
      have hs := (usbip_reset_connection_closed s).session.1
      have hlog := reset_connection_log s
      show Framed ([], usbip_reset_connection s)
      generalize usbip_reset_connection s = t at hs hlog
      exact h.closed hst hs hlog (by simp [Ev.idle])
  | tx_ready =>
    obtain ⟨_, _, _, _, hs⟩ := usbip_tx_ready_sent s
    rw [hs]
    exact h.arrived rfl rfl rfl (by simp)
  | detach => exact detach_framed h hst
  | attach speed _ =>
    exact ⟨fun d T heq => (by cases heq), h.eager, h.parsing, h.enumerating, h.dropped, h.follows⟩
  | system_reset =>
    unfold usbip_server_reset_hold
    split
    · exact h
    · exact close_client_framed h hst
  | tick ns => exact h.arrived rfl rfl rfl (by simp)

theorem init_framed (b : Bool) : Framed ([], Server.init b) := by
  refine ⟨fun d T heq => (by cases heq), ?_,
    fun hp => Bool.noConfusion hp, fun hc => USBIPConn.noConfusion hc,
    fun hd => absurd hd List.not_mem_nil, ?_⟩
  · rintro (hr | hr) <;> rcases hr.1 with h' | h' <;> cases h'
  · rintro (hup | hd)
    · exact absurd rfl hup
    · exact absurd hd List.not_mem_nil

theorem reachable_framed (hs : Reachable s) : Framed ([], s) :=
  (reachable_with_inv (fun c => Stage c ∧ Framed c) (fun b => ⟨init_stage b, init_framed b⟩)
    (fun _ _ _ h ha => ⟨arrive_stage h.1 ha, arrive_framed h.2 h.1 ha⟩)
    (fun _ _ hi h hstep => ⟨step_stage hi h.1 hstep, step_framed hi h.2 hstep⟩) hs).2

/-! ## Two runs -/

/-- The client of this connection sent `stream`, and all of it was read, or as
    much as it took to drop the client; nothing else ended the connection; and
    the device's part in it went as `o` says. -/
structure Delivered (s : Server) (stream : List UInt8) (o : Nat → Outcome) : Prop where
  up : s.conn ≠ .none ∨ .drop ∈ s.log
  read : s.received = stream ∨ .drop ∈ s.log ∧ s.received <+: stream
  agrees : Agrees o s.log
  pending : s.conn = .enumerating → (o ((messages s.log).length - 1)).enum = none

/-- Between events the server has nothing left to frame. -/
theorem Framed.settled (h : Framed ([], s))
    (hpend : s.conn = .enumerating → (o ((messages s.log).length - 1)).enum = none) :
    (view ([], s)).step o = none := by
  have hno : ¬ ready s ∧ ¬ malformed s := by
    constructor
    · exact fun hr => (h.eager (.inl hr)).elim List.not_mem_nil List.not_mem_nil
    · exact fun hm => (h.eager (.inr hm)).elim List.not_mem_nil List.not_mem_nil
  rw [view_calm Calm.nil]
  cases hc : s.conn with
  | none => rfl
  | enumerating =>
    show Option.map _ _ = none
    simp only [hpend hc, Option.map_none]
  | op | attached =>
    have hready := hno.1
    have hmal := hno.2
    simp only [ready, malformed, hc, true_or, or_true, true_and] at hready hmal
    simp only [Framer.step]
    rw [if_neg hmal, if_pos (by omega)]

/-- The server's state is where the framer ends on the whole stream. -/
theorem Delivered.framed (hs : Reachable s) {stream : List UInt8} (h : Delivered s stream o) :
    Reaches (Framer.step o) (Framer.start stream)
        { conn := s.conn, msgs := messages s.log, rx := s.rx } ∧
      ({ conn := s.conn, msgs := messages s.log, rx := s.rx } : Framer).step o = none := by
  have hf := reachable_framed hs
  have hview := view_calm (s := s) Calm.nil
  have hend := hf.settled h.pending
  rw [hview] at hend
  refine ⟨?_, hend⟩
  have hreach := hf.follows h.up o h.agrees
  rw [hview] at hreach
  rcases h.read with hread | ⟨hdrop, bs, rfl⟩
  · rw [← hread]
    exact hreach
  · -- the client was dropped before the rest was read
    have hc : s.conn = .none := hf.dropped hdrop
    have hmore := Framer.reaches_more hreach bs
    simp only [Framer.more, Framer.start, hc, reduceCtorEq, if_false, if_true] at hmore ⊢
    exact hmore

/-- **Framing does not depend on how the stream is cut into reads.**  Two runs
    in which a client sent the same bytes and the device did the same dispatched
    the same messages, dropped the client after the same one, if at all, and
    have the same bytes left. -/
theorem framing_ignores_reads {s₁ s₂ : Server} {stream : List UInt8} {o : Nat → Outcome}
    (h₁ : Reachable s₁) (h₂ : Reachable s₂) (hd₁ : Delivered s₁ stream o)
    (hd₂ : Delivered s₂ stream o) :
    messages s₁.log = messages s₂.log ∧ (.drop ∈ s₁.log ↔ .drop ∈ s₂.log) ∧ s₁.rx = s₂.rx ∧
      s₁.conn = s₂.conn := by
  obtain ⟨hr₁, hn₁⟩ := hd₁.framed h₁
  obtain ⟨hr₂, hn₂⟩ := hd₂.framed h₂
  have heq := Framer.unique hr₁ hn₁ hr₂ hn₂
  injection heq with hconn hmsgs hrx
  have hdrop : ∀ {s}, Reachable s → Delivered s stream o → (.drop ∈ s.log ↔ s.conn = .none) := by
    intro s hs hd
    exact ⟨(reachable_framed hs).dropped, fun hc => hd.up.resolve_left fun hup => hup hc⟩
  refine ⟨hmsgs, ?_, hrx, hconn⟩
  rw [hdrop h₁ hd₁, hdrop h₂ hd₂, hconn]

/-- An import, a bulk IN URB, and the first bytes of another message. -/
def import_stream : List UInt8 :=
  import_message ++ submit_header 1 1 1 8 0 ++ [0, 0, 0, 1, 0]

/-- The stream in one read; the device enumerates at once. -/
def one_read : List Input :=
  open_session ++ [{ event := .read import_stream, budget := 20, script := enum_script }]

/-- The stream in three reads, cut inside the headers; the device takes its time
    over the last descriptor. -/
def three_reads : List Input :=
  open_session ++
    [{ event := .read (import_stream.take 7) },
     { event := .read ((import_stream.drop 7).take 50), budget := 20,
       script := enum_script.take 4 ++ [.ret .hold] },
     { event := .complete 0
         { status := .success, data := [9, 2, 9, 0] ++ List.replicate 5 0 },
       budget := 20 },
     { event := .read (import_stream.drop 57), budget := 20 }]

theorem three_reads_as_one :
    let s₁ := run (Server.init true) one_read
    let s₂ := run (Server.init true) three_reads
    messages s₁.log = messages s₂.log ∧ s₁.rx = s₂.rx ∧ s₁.rx = [0, 0, 0, 1, 0] := by
  intro s₁ s₂
  let o : Nat → Outcome := fun n =>
    { full := false, present := true, enum := if n = 0 then some true else none }
  have hd₁ : Delivered s₁ import_stream o :=
    ⟨.inl (by decide +kernel), .inl (by decide +kernel), by decide +kernel, by decide +kernel⟩
  have hd₂ : Delivered s₂ import_stream o :=
    ⟨.inl (by decide +kernel), .inl (by decide +kernel), by decide +kernel, by decide +kernel⟩
  have hs₁ : Reachable s₁ := ⟨true, one_read, rfl⟩
  have hs₂ : Reachable s₂ := ⟨true, three_reads, rfl⟩
  obtain ⟨hmsgs, _, hrx, _⟩ := framing_ignores_reads hs₁ hs₂ hd₁ hd₂
  exact ⟨hmsgs, hrx, by decide +kernel⟩

end Usbip
