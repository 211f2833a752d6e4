import RpiQemu.Usbip.ExactlyOnce

/-! # The state of the connection

    What `conn` says about the rest of the server's state.  `conn` changes in
    four places only: a client connects, an enumeration starts, an enumeration
    ends, the connection is reset; `Stage` holds through all of them and at
    every step between. -/

namespace Usbip

open Bytes Keyed Ledger

variable {c c' : Cfg} {s s' : Server} {H H' : List Tok}

/-! ## The operation being answered -/

/-- The operation in progress after an event. -/
def Ev.op (op : Option Nat) : Ev → Option Nat
  | .msg .op d _ _ _ => some (be16At d 2)
  | .enum_finish _ _ => none
  | _ => op

/-- The code of the last OP_REQ, until the enumeration for it ends. -/
def answering (log : List Ev) : Option Nat := log.foldl Ev.op none

theorem answering_append (log es : List Ev) :
    answering (log ++ es) = es.foldl Ev.op (answering log) :=
  List.foldl_append

theorem answering_idle {log es : List Ev} (h : ∀ e ∈ es, e.idle = true) :
    answering (log ++ es) = answering log := by
  rw [answering_append]
  generalize answering log = op
  induction es with
  | nil => rfl
  | cons e es ih =>
    have he : e.op op = op := by
      have hidle := h e (List.mem_cons_self ..)
      cases e <;> first | rfl | cases hidle
    rw [List.foldl_cons, he]
    exact ih fun e' he' => h e' (List.mem_cons_of_mem _ he')

/-! ## What `conn` says -/

structure Stage (c : Cfg) : Prop where
  none : c.2.conn = .none → c.2.rx = [] ∧ c.2.tx = []
  enum_op : c.2.conn ≠ .enumerating → c.2.enum_op = 0
  enumerating : c.2.conn = .enumerating → c.2.present = true ∧
    answering c.2.log = some c.2.enum_op ∧
    (c.2.enum_op = usbip_op_req_devlist ∨ c.2.enum_op = usbip_op_req_import)
  attached : c.2.conn = .attached → c.2.enumerated = true ∧ c.2.present = true
  vbus : c.2.vbus = true ↔ c.2.conn ≠ .none
  -- inside a call
  dispatching : ∀ d T, talk c.1 = .msg d :: T → c.2.conn = .op →
    answering c.2.log = some (be16At d 2)
  resetting : c.2.port_resetting = true → .reset ∈ talk c.1

/-- A step that keeps the session. -/
theorem Stage.same (h : Stage c) (hs : c'.2.session = c.2.session)
    (hlog : answering c'.2.log = answering c.2.log) (htx : c.2.conn = .none → c'.2.tx = c.2.tx)
    (hmsg : ∀ d T, talk c'.1 = .msg d :: T → talk c.1 = .msg d :: T)
    (hreset : .reset ∈ talk c.1 → .reset ∈ talk c'.1) : Stage c' := by
  have hc : c'.2.conn = c.2.conn := congrArg Session.conn hs
  have hrx : c'.2.rx = c.2.rx := congrArg Session.rx hs
  have hop : c'.2.enum_op = c.2.enum_op := congrArg Session.enum_op hs
  have hen : c'.2.enumerated = c.2.enumerated := congrArg Session.enumerated hs
  have hp : c'.2.present = c.2.present := congrArg Session.present hs
  have hv : c'.2.vbus = c.2.vbus := congrArg Session.vbus hs
  have hr : c'.2.port_resetting = c.2.port_resetting := congrArg Session.port_resetting hs
  refine ⟨fun hn => ?_, ?_, ?_, ?_, ?_, fun d T ht => ?_, ?_⟩
  · rw [hc] at hn
    rw [hrx, htx hn]
    exact h.none hn
  · rw [hc, hop]
    exact h.enum_op
  · rw [hc, hop, hp, hlog]
    exact h.enumerating
  · rw [hc, hen, hp]
    exact h.attached
  · rw [hv, hc]
    exact h.vbus
  · rw [hc, hlog]
    exact h.dispatching d T (hmsg d T ht)
  · rw [hr]
    exact fun hr' => hreset (h.resetting hr')

theorem Calm.no_reset (h : Calm H) : .reset ∉ talk H := fun hm => by cases h.talks _ hm

/-- The connection is reset, with no port reset in progress. -/
theorem Stage.closed (h : Stage (H, s)) (hs : s'.session = s.session.closed) (htx : s'.tx = [])
    (hno : .reset ∉ talk H) : Stage (H', s') := by
  have hc : s'.conn = .none := congrArg Session.conn hs
  have hr : s'.port_resetting = s.port_resetting := congrArg Session.port_resetting hs
  refine ⟨fun _ => ⟨congrArg Session.rx hs, htx⟩, fun _ => congrArg Session.enum_op hs,
    fun hc' => absurd (hc.symm.trans hc') (by decide),
    fun hc' => absurd (hc.symm.trans hc') (by decide), ?_,
    fun _ _ _ hc' => absurd (hc.symm.trans hc') (by decide), fun hr' => ?_⟩
  · have hv : s'.vbus = false := congrArg Session.vbus hs
    simp [hv, hc]
  · exact absurd (h.resetting (hr.symm.trans hr')) hno

/-- An enumeration ends. -/
theorem Stage.finished (h : Stage (H, s)) (hcalm : Calm H) {ok : Bool}
    (hen : s.conn = .enumerating) (hs : s'.session = s.session.enumerated_as ok) :
    Stage (.fin :: H, s') := by
  have hc : s'.conn = if s.enum_op ≠ usbip_op_req_devlist ∧ ok then .attached else .op :=
    congrArg Session.conn hs
  have hop : s'.enum_op = 0 := congrArg Session.enum_op hs
  have hnone : s'.conn ≠ .none ∧ s'.conn ≠ .enumerating := by
    rw [hc]
    split <;> decide
  refine ⟨fun hc' => absurd hc' hnone.1, fun _ => hop, fun hc' => absurd hc' hnone.2,
    fun hc' => ?_, ?_, fun d T ht => (by cases ht), fun hr => ?_⟩
  · have hok : ok = true := by
      rw [show (Tok.fin :: H, s').2.conn = _ from hc] at hc'
      split at hc'
      · rename_i h'
        exact h'.2
      · cases hc'
    have hen' : s'.enumerated = (ok || s.enumerated) := congrArg Session.enumerated hs
    have hp : s'.present = s.present := congrArg Session.present hs
    refine ⟨?_, ?_⟩
    · show s'.enumerated = true
      rw [hen', hok]
      rfl
    · show s'.present = true
      rw [hp]
      exact (h.enumerating hen).1
  · have hv : s'.vbus = s.vbus := congrArg Session.vbus hs
    have hsv : s.vbus = true := h.vbus.mpr (by show s.conn ≠ _; rw [hen]; decide)
    show s'.vbus = true ↔ s'.conn ≠ .none
    simp [hv, hsv, hnone.1]
  · have hr' : s'.port_resetting = s.port_resetting := congrArg Session.port_resetting hs
    exact absurd (h.resetting (hr'.symm.trans hr)) hcalm.no_reset

theorem step_stage (hinv : Inv c) (h : Stage c) (hstep : Step c c') : Stage c' := by
  cases step_talk hstep with
  | quiet es ht hs hlog hes htx _ =>
    refine h.same hs ?_ htx (fun d T heq => ht.symm.trans heq) fun hm => ?_
    · rw [hlog]
      exact answering_idle hes
    · exact ht ▸ hm
  | @finish H u s s' ok hu hs hlog =>
    have hcalm : Calm H := hinv.shape.1 hu
    have hen : s.conn = .enumerating :=
      hinv.ledger.enumerating (Multiset.mem_add.mpr (.inl (Multiset.mem_cons_self _ _))) hu
    exact Stage.finished
      ⟨h.none, h.enum_op, h.enumerating, h.attached, h.vbus, h.dispatching, h.resetting⟩
      hcalm hen hs
  | @skip H s _ =>
    exact h.same rfl rfl (fun _ => rfl) (fun d T heq => absurd heq (Calm.not_msg hinv.shape d T))
      fun hm => by simpa [talk, Tok.talks] using hm
  | enter _ =>
    exact ⟨h.none, h.enum_op, h.enumerating, h.attached, h.vbus, fun d T heq => (by cases heq),
      fun hr => by simpa [talk, Tok.talks] using h.resetting hr⟩
  | @drop H s s' es _ hs htx _ _ =>
    refine h.closed hs htx fun hm => ?_
    exact Calm.no_reset (H := H) hinv.shape (by simpa [talk, Tok.talks] using hm)
  -- The message now in hand is the last one logged, which is what `answering` reads.
  | @message H s hr =>
    have hc : s.conn ≠ .none ∧ s.conn ≠ .enumerating := by
      rcases hr.1 with hc | hc <;> rw [hc] <;> decide
    refine ⟨fun hn => absurd hn hc.1, h.enum_op, fun he => absurd he hc.2, h.attached, h.vbus,
      fun d T heq hop => ?_, fun hr => by simpa [talk, Tok.talks] using h.resetting hr⟩
    have hd : s.message = d := by
      have := congrArg List.head? heq
      simpa [talk, Tok.talks] using this
    have hop : s.conn = .op := hop
    show answering (s.log ++ [.msg s.conn s.message s.nurbs s.urb_bytes s.present]) = _
    rw [answering_append, hop, hd]
    rfl
  | @leave H s _ _ =>
    exact ⟨h.none, h.enum_op, h.enumerating, h.attached, h.vbus,
      fun d T heq => absurd heq (Calm.not_msg hinv.shape d T),
      fun hr => by simpa [talk, Tok.talks] using h.resetting hr⟩
  | @reply H s s' d hc _ hs hlog =>
    refine h.same hs (by rw [hlog]) (fun hn => ?_)
      (fun d T heq => absurd heq (Calm.not_msg hinv.shape d T))
      fun hm => by simpa [talk, Tok.talks] using hm
    rw [show (Tok.msg d :: H, s).2.conn = .op from hc] at hn
    cases hn
  -- The only way into `enumerating`, with the operation the message asked for.
  | @enumerate H s d op hc hp hop hop' =>
    refine ⟨fun hn => (by cases hn), fun he => absurd rfl he, fun _ => ⟨hp, ?_, ?_⟩,
      fun ha => (by cases ha), ?_, fun d T heq => (by cases heq), fun _ => ?_⟩
    · show answering s.log = some op
      rw [hop]
      exact h.dispatching d _ rfl hc
    · rcases hop' with ho | ⟨ho, _⟩
      · exact .inl ho
      · exact .inr ho
    · have hv : s.vbus = true := h.vbus.mpr (by show s.conn ≠ _; rw [hc]; decide)
      exact ⟨fun _ hn => USBIPConn.noConfusion hn, fun _ => hv⟩
    · exact List.mem_cons_self ..
  | @reset_done H s =>
    refine ⟨h.none, h.enum_op, h.enumerating, h.attached, h.vbus, fun d T heq => ?_,
      fun hr => (by cases hr)⟩
    exact absurd heq (Calm.not_msg (H := H) hinv.shape d T)
  | @reject H s s' d es _ _ _ hs htx _ _ =>
    refine h.closed hs htx fun hm => ?_
    exact Calm.no_reset (H := H) hinv.shape (by simpa [talk, Tok.talks] using hm)
  | @accept H s s' d u hc _ _ hs hlog =>
    refine h.same hs ?_ (fun hn => ?_)
      (fun d T heq => absurd heq (Calm.not_msg (H := H) hinv.shape d T))
      fun hm => by simpa [talk, Tok.talks] using hm
    · rw [hlog, answering_append]
      rfl
    · rw [show (Tok.msg d :: H, s).2.conn = .attached from hc] at hn
      cases hn
  | @unlink H s s' d status id hc _ hs hlog =>
    refine h.same hs ?_ (fun hn => ?_)
      (fun d T heq => absurd heq (Calm.not_msg (H := H) hinv.shape d T))
      fun hm => by simpa [talk, Tok.talks] using hm
    · rw [hlog, answering_append]
      rfl
    · rw [show (Tok.msg d :: H, s).2.conn = .attached from hc] at hn
      cases hn

/-! ## Arrivals -/

theorem Stage.arrived (h : Stage ([], s)) (hs : s'.session = s.session) (hlog : s'.log = s.log)
    (htx : s'.tx = s.tx) (hno : ∀ d T, talk H' ≠ .msg d :: T) : Stage (H', s') := by
  refine h.same hs (by rw [hlog]) (fun _ => htx) (fun d T heq => absurd heq (hno d T)) fun hm => ?_
  exact absurd hm List.not_mem_nil

theorem close_stage (h : Stage ([], s)) : Stage ([], usbip_close_client s) := by
  obtain ⟨hs, htx⟩ := (usbip_close_client_closed s).session
  generalize usbip_close_client s = t at hs htx
  exact h.closed hs htx List.not_mem_nil

theorem reset_stage (h : Stage ([], s)) : Stage ([], usbip_reset_connection s) := by
  obtain ⟨hs, htx⟩ := (usbip_reset_connection_closed s).session
  generalize usbip_reset_connection s = t at hs htx
  exact h.closed hs htx List.not_mem_nil

/-- No port reset is in progress between events. -/
theorem Stage.not_resetting (h : Stage ([], s)) : s.port_resetting = false := by
  cases hr : s.port_resetting with
  | false => rfl
  | true => exact absurd (h.resetting hr) List.not_mem_nil

theorem opened_stage (h : Stage ([], s)) : Stage ([], usbip_event s .opened) := by
  have hreset := reset_stage h
  obtain ⟨hs, _⟩ := (usbip_reset_connection_closed s).session
  unfold usbip_event usb_port_set_vbus
  dsimp only
  generalize usbip_reset_connection s = t at hreset hs
  refine ⟨fun hc => USBIPConn.noConfusion hc, fun _ => congrArg Session.enum_op hs,
    fun hc => USBIPConn.noConfusion hc, fun hc => USBIPConn.noConfusion hc,
    ⟨fun _ hc => USBIPConn.noConfusion hc, fun _ => rfl⟩, fun d T heq => (by cases heq),
    hreset.resetting⟩

/-- A device that goes away takes its client with it. -/
theorem port_detach_stage (h : Stage ([], s)) : Stage ([], usbip_port_detach s) ∧
    (usbip_port_detach s).conn ≠ .attached ∧ (usbip_port_detach s).conn ≠ .enumerating := by
  rcases usbip_port_detach_eq s h.not_resetting with ⟨_, heq⟩ | ⟨hc, heq⟩
  · obtain ⟨hs, htx⟩ := (usbip_close_client_closed { s with enumerated := false }).session
    rw [← heq] at hs htx
    generalize usbip_port_detach s = t at hs htx
    have hn : t.conn = .none := congrArg Session.conn hs
    exact ⟨Stage.closed (s := s) h hs htx List.not_mem_nil, by rw [hn]; decide, by rw [hn]; decide⟩
  · rw [heq]
    exact ⟨⟨h.none, h.enum_op, h.enumerating, fun ha => absurd (.inl ha) hc, h.vbus,
      fun d T heq => (by cases heq), h.resetting⟩, fun ha => hc (.inl ha), fun he => hc (.inr he)⟩

theorem detach_stage (h : Stage ([], s)) :
    Stage ([], { usbip_port_detach s with present := false }) := by
  obtain ⟨ht, ha, he⟩ := port_detach_stage h
  generalize usbip_port_detach s = t at ht ha he
  exact ⟨ht.none, ht.enum_op, fun hc => absurd hc he, fun hc => absurd hc ha, ht.vbus,
    fun d T heq => (by cases heq), ht.resetting⟩

theorem tx_ready_stage (h : Stage ([], s)) : Stage ([], usbip_tx_ready s) := by
  have hnil : s.conn = .none → (usbip_tx_ready s).tx = s.tx := by
    intro hc
    have htx := (h.none hc).2
    simp only [usbip_tx_ready, usbip_flush, usbip_flush_loop, show s.tx = [] from htx,
      List.isEmpty_nil, if_true]
  obtain ⟨_, _, _, _, hs⟩ := usbip_tx_ready_sent s
  refine h.same (by rw [hs]; rfl) (by rw [hs]) hnil (fun d T heq => heq) fun hm => hm

theorem arrive_stage (h : Stage ([], s)) (ha : Arrive s c) : Stage c := by
  cases ha with
  | input script cw => exact h.arrived rfl rfl rfl fun d T heq => (by cases heq)
  | read buf hc =>
    refine ⟨fun hn => ?_, h.enum_op, h.enumerating, h.attached, h.vbus,
      fun d T heq => (by cases heq), fun hr => absurd (h.resetting hr) List.not_mem_nil⟩
    rcases hc with hc | hc
    · exact absurd (hc.symm.trans hn) (by decide)
    · exact absurd (hc.symm.trans hn) (by decide)
  | fire_retry => exact h.arrived rfl rfl rfl fun d T heq => (by cases heq)
  | fire_iso => exact h.arrived rfl rfl rfl fun d T heq => (by cases heq)
  | fire_bh => exact h.arrived rfl rfl rfl fun d T heq => (by cases heq)
  | chr e =>
    cases e with
    | opened => exact opened_stage h
    | closed => exact reset_stage h
  | tx_ready => exact tx_ready_stage h
  | detach => exact detach_stage h
  | attach speed hp =>
    refine ⟨h.none, h.enum_op, fun hc => ?_, fun hc => ?_, h.vbus, fun d T heq => (by cases heq),
      h.resetting⟩
    · exact absurd (h.enumerating hc).1 (by simp [hp])
    · exact absurd (h.attached hc).2 (by simp [hp])
  | system_reset =>
    unfold usbip_server_reset_hold
    split
    · exact h
    · exact close_stage h
  | tick ns => exact h.arrived rfl rfl rfl fun d T heq => (by cases heq)

theorem init_stage (b : Bool) : Stage ([], Server.init b) :=
  ⟨fun _ => ⟨rfl, rfl⟩, fun _ => rfl, fun hc => USBIPConn.noConfusion hc,
    fun hc => USBIPConn.noConfusion hc, by simp [Server.init], fun d T heq => (by cases heq),
    fun hr => Bool.noConfusion hr⟩

theorem reachable_stage (hs : Reachable s) : Stage ([], s) :=
  reachable_with_inv Stage init_stage (fun _ _ _ h ha => arrive_stage h ha)
    (fun _ _ hi h hstep => step_stage hi h hstep) hs

/-! ## Every run -/

/-- Every URB on a list, the client's and the server's own. -/
def Server.urbs (s : Server) : List USBIPURB := s.inflight ++ s.all_waiting

theorem urbs_listed (hwf : s.lanes.Wf) : (s.urbs.map ident : Multiset Ident) = s.lanes.listed := by
  have hbag : ∀ n, (((List.range n).flatMap s.waiting).map ident : Multiset Ident) =
      bag n fun k => ((s.waiting k).map ident : Multiset Ident) := by
    intro n
    induction n with
    | zero => simp [bag]
    | succ n ih =>
      rw [List.range_succ, List.flatMap_append, List.map_append, ← Multiset.coe_add, ih]
      simp [bag, Finset.sum_range_succ]
  rw [Lanes.listed_eq hwf, Server.urbs, List.map_append, ← Multiset.coe_add, Server.all_waiting,
    hbag]
  rfl

theorem urbs_nil (hwf : s.lanes.Wf) (h : s.lanes.listed = 0) : s.urbs = [] := by
  rw [← urbs_listed hwf, Multiset.coe_eq_zero, List.map_eq_nil_iff] at h
  exact h

theorem mem_urbs (hwf : s.lanes.Wf) {u : USBIPURB} (hu : u ∈ s.urbs) :
    ident u ∈ s.lanes.listed := by
  rw [← urbs_listed hwf]
  exact Multiset.mem_coe.mpr (List.mem_map.mpr ⟨u, hu, rfl⟩)

/-- **The state of the connection.**  At every event boundary of every run:
    without a client nothing of one is left; before and after operations no URB
    is pending; the server enumerates exactly while one URB of its own is
    pending, for the operation the client asked for; an attached client has an
    enumerated device that is present; and VBUS is on exactly while a client is
    connected. -/
theorem connection_state (hs : Reachable s) :
    (s.conn = .none → s.urbs = [] ∧ s.rx = [] ∧ s.tx = [] ∧ s.enum_op = 0 ∧ s.nurbs = 0) ∧
    (s.conn = .op → s.urbs = [] ∧ s.enum_op = 0) ∧
    (s.conn = .enumerating ↔
      (∃ u, s.urbs.filter (·.internal) = [u]) ∧ s.urbs.filter (fun u => !u.internal) = [] ∧
      answering s.log = some s.enum_op ∧
      (s.enum_op = usbip_op_req_devlist ∨ s.enum_op = usbip_op_req_import)) ∧
    (s.conn = .attached → s.enumerated = true ∧ s.present = true ∧
      s.urbs.filter (·.internal) = [] ∧ s.enum_op = 0) ∧
    (s.vbus = true ↔ s.conn ≠ .none) := by
  have hinv := reachable_inv hs
  have hst := reachable_stage hs
  have hpend : (ledger ([], s)).pending = s.lanes.listed := zero_add _
  have hphase := hinv.ledger.phase
  rw [hpend] at hphase
  -- Before an import neither the client nor the server has a URB.
  have hidle : s.conn = .none ∨ s.conn = .op → s.lanes.listed = 0 := by
    intro hc
    have hint : internals s.lanes.listed = 0 :=
      (hphase.no_enum (by rcases hc with hc | hc <;> simp [ledger, hc])).1
    exact eq_zero_of_parts (hphase.idle hc) hint
  have hinternals : internals s.lanes.listed =
      ((s.urbs.filter (·.internal)).map ident : Multiset Ident) := by
    rw [show s.lanes.listed = _ from (urbs_listed hinv.wf).symm, internals, Multiset.filter_coe,
      List.filter_map]
    simp [Function.comp_def, ident]
  refine ⟨fun hc => ?_, fun hc => ?_, ⟨fun hc => ?_, ?_⟩, fun hc => ?_, hst.vbus⟩
  · have hzero := hidle (.inl hc)
    obtain ⟨hrx, htx⟩ := hst.none hc
    have hn := hinv.ledger.accounted.1
    rw [hpend, hzero] at hn
    exact ⟨urbs_nil hinv.wf hzero, hrx, htx, hst.enum_op (by simp [hc]), hn⟩
  · exact ⟨urbs_nil hinv.wf (hidle (.inr hc)), hst.enum_op (by simp [hc])⟩
  · obtain ⟨hp, hans, hop⟩ := hst.enumerating hc
    obtain ⟨hcl, hcard⟩ := hphase.enum hc
    refine ⟨?_, ?_, hans, hop⟩
    · rw [hinternals, Multiset.coe_card, List.length_map] at hcard
      exact List.length_eq_one_iff.mp hcard
    · rw [List.filter_eq_nil_iff]
      intro u hu hint
      have hmem := mem_urbs hinv.wf hu
      have : ident u ∈ clients s.lanes.listed :=
        Multiset.mem_filter.mpr ⟨hmem, by simpa [ident] using hint⟩
      rw [hcl] at this
      exact Multiset.notMem_zero _ this
  · rintro ⟨⟨u, hu⟩, _⟩
    obtain ⟨hu, hint⟩ := List.mem_filter.mp (show u ∈ s.urbs.filter (·.internal) by rw [hu]; simp)
    exact hinv.ledger.enumerating (hpend ▸ mem_urbs hinv.wf hu) hint
  · obtain ⟨hen, hp⟩ := hst.attached hc
    have hzero : internals s.lanes.listed = 0 := (hphase.no_enum (by simp [ledger, hc])).1
    rw [hinternals, Multiset.coe_eq_zero, List.map_eq_nil_iff] at hzero
    exact ⟨hen, hp, hzero, hst.enum_op (by simp [hc])⟩

/-- A client asks for the list of devices; the device takes its time over
    SET_ADDRESS. -/
def devlist_session : List Input :=
  [{ event := .attach .full },
   { event := .chr .opened },
   { event := .read (be16 usbip_version ++ be16 usbip_op_req_devlist ++ be32 0),
     budget := 2,
     script := [.ret { status := .success }, .ret .hold] }]

theorem devlist_session_state :
    let s := run (Server.init true) devlist_session
    s.conn = .enumerating ∧ (∃ u, s.urbs.filter (·.internal) = [u]) ∧
      answering s.log = some s.enum_op ∧ s.vbus = true := by
  intro s
  have hc : s.conn = .enumerating := by decide +kernel
  obtain ⟨_, _, henum, _, hvbus⟩ := connection_state (s := s) ⟨true, devlist_session, rfl⟩
  obtain ⟨hone, _, hans, _⟩ := henum.mp hc
  exact ⟨hc, hone, hans, hvbus.mpr (by rw [hc]; decide)⟩

end Usbip
