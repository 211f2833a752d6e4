import RpiQemu.Usbip.Events

/-! # Exactly-once replies

    While a client is connected, each of its accepted URBs is on exactly one
    list until it is answered, and answered exactly once: by a RET_SUBMIT with
    its seqnum or as the victim of a RET_UNLINK.  Each CMD_UNLINK is answered by
    exactly one RET_UNLINK, which tells whether its victim was still pending. -/

namespace Usbip

open Bytes Keyed Ledger

variable {s : Server}

/-! ## Unlink requests and their answers -/

/-- The seqnum and the victim of a CMD_UNLINK. -/
def Ev.unlink_req : Ev → Option (Nat × Nat)
  | .msg conn d _ _ _ =>
    if conn = .attached ∧ be32At d 0 ≠ usbip_cmd_submit then
      some (be32At d 0x04, be32At d 0x14)
    else none
  | _ => none

/-- The seqnum and the victim of a RET_UNLINK. -/
def Ev.unlink_rep : Ev → Option (Nat × Nat)
  | .ret_unlink seqnum victim _ _ => some (seqnum, victim)
  | _ => none

/-- The CMD_UNLINK being handled. -/
def asked (c : Cfg) : List (Nat × Nat) :=
  match talk c.1 with
  | .msg d :: _ =>
    if c.2.conn = .attached ∧ be32At d 0 ≠ usbip_cmd_submit then
      [(be32At d 0x04, be32At d 0x14)]
    else []
  | _ => []

/-- Every CMD_UNLINK but the one being handled has been answered, in order. -/
def UnlinkInv (c : Cfg) : Prop :=
  c.2.log.filterMap Ev.unlink_req = c.2.log.filterMap Ev.unlink_rep ++ asked c

theorem asked_none {c : Cfg} (h : ∀ d T, talk c.1 ≠ .msg d :: T) : asked c = [] := by
  unfold asked
  split
  · rename_i d T heq
    exact absurd heq (h d T)
  · rfl

theorem asked_calm {H : List Tok} (h : Calm H) : asked (H, s) = [] := asked_none h.not_msg

theorem asked_msg {d : List UInt8} {H : List Tok} : asked (.msg d :: H, s) =
    if s.conn = .attached ∧ be32At d 0 ≠ usbip_cmd_submit then [(be32At d 0x04, be32At d 0x14)]
    else [] := rfl

theorem filterMap_idle {es : List Ev} (h : ∀ e ∈ es, e.idle = true) :
    es.filterMap Ev.unlink_req = [] ∧ es.filterMap Ev.unlink_rep = [] := by
  constructor <;> rw [List.filterMap_eq_nil_iff] <;> intro e he <;> have hp := h e he <;>
    cases e <;> first | rfl | cases hp

/-- A step that logs neither requests nor answers. -/
theorem UnlinkInv.same {c c' : Cfg} {es : List Ev} (h : UnlinkInv c)
    (hlog : c'.2.log = c.2.log ++ es)
    (hreq : es.filterMap Ev.unlink_req = []) (hrep : es.filterMap Ev.unlink_rep = [])
    (hask : asked c' = asked c) : UnlinkInv c' := by
  unfold UnlinkInv at *
  rw [hlog, List.filterMap_append, List.filterMap_append, hreq, hrep, List.append_nil,
    List.append_nil, hask]
  exact h

theorem filterMap_drop {es : List Ev} (h : ∀ e ∈ es, e = .reset) :
    (.drop :: es).filterMap Ev.unlink_req = [] ∧ (.drop :: es).filterMap Ev.unlink_rep = [] := by
  have hidle : ∀ e ∈ es, e.idle = true := by
    intro e he
    rw [h e he]
    rfl
  obtain ⟨hreq, hrep⟩ := filterMap_idle hidle
  exact ⟨hreq, hrep⟩

theorem step_unlinkInv {c c' : Cfg} (hinv : Inv c) (h : UnlinkInv c) (hstep : Step c c') :
    UnlinkInv c' := by
  cases step_talk hstep with
  | @quiet H H' s s' es ht hs hlog hes _ _ =>
    obtain ⟨hreq, hrep⟩ := filterMap_idle hes
    refine h.same hlog hreq hrep ?_
    have hc : s'.conn = s.conn := congrArg Session.conn hs
    unfold asked
    dsimp only
    rw [ht, hc]
  | finish ok hu hs hlog =>
    exact h.same hlog rfl rfl (asked_calm (hinv.shape.1 hu)).symm
  | skip _ => exact h.same (List.append_nil _).symm rfl rfl (asked_calm hinv.shape)
  | enter _ => exact h.same (List.append_nil _).symm rfl rfl rfl
  | drop es _ _ _ hlog hes =>
    obtain ⟨hreq, hrep⟩ := filterMap_drop hes
    exact h.same hlog hreq hrep rfl
  -- The unlink request just logged is owed a reply by the token that carries it.
  | @message H s _ =>
    unfold UnlinkInv at *
    have hnone : asked (.parse :: H, s) = [] := rfl
    have hl : (s.rest.note_msg s.message).log =
        s.log ++ [.msg s.conn s.message s.nurbs s.urb_bytes s.present] := rfl
    rw [hnone, List.append_nil] at h
    rw [asked_msg, show (s.rest.note_msg s.message).conn = s.conn from rfl, hl,
      List.filterMap_append, List.filterMap_append, h, List.append_assoc]
    congr 1
    simp only [Ev.unlink_req, Ev.unlink_rep, List.filterMap_cons, List.filterMap_nil]
    split <;> rename_i hu <;> split at hu <;> simp_all
  | leave _ _ => exact h.same (List.append_nil _).symm rfl rfl (asked_calm hinv.shape)
  | reply d hc _ hs hlog =>
    refine h.same (by rw [hlog, List.append_nil]) rfl rfl ?_
    rw [asked_calm hinv.shape, asked_msg, hc]
    simp
  | enumerate d op hc _ _ _ =>
    refine h.same (List.append_nil _).symm rfl rfl ?_
    rw [asked_msg, hc]
    rfl
  | @reset_done H s =>
    refine h.same (List.append_nil _).symm rfl rfl ?_
    exact asked_calm (H := H) hinv.shape
  | reject d es _ hd _ _ _ hlog hes =>
    obtain ⟨hreq, hrep⟩ := filterMap_drop hes
    refine h.same hlog hreq hrep ?_
    rw [asked_calm hinv.shape, asked_msg, hd]
    simp
  | @accept H s s' d u _ hd _ _ hlog =>
    refine h.same hlog rfl rfl ?_
    rw [asked_msg, hd, show asked (.fresh u :: H, s') = asked (H, s') from rfl,
      asked_calm hinv.shape]
    simp
  -- The token goes, and the reply it owed is in the log.
  | unlink d status id hc hd _ hlog =>
    unfold UnlinkInv at *
    rw [asked_msg, if_pos ⟨hc, hd⟩] at h
    rw [hlog, asked_calm hinv.shape, List.append_nil, List.filterMap_append, List.filterMap_append,
      h]
    simp [Ev.unlink_req, Ev.unlink_rep]

theorem arrive_unlinkInv {c : Cfg} (h : UnlinkInv ([], s)) (ha : Arrive s c) : UnlinkInv c := by
  have hkeep : ∀ (H : List Tok) (s' : Server) (es : List Ev), Calm H ∨ H = [.fin] →
      s'.log = s.log ++ es → (∀ e ∈ es, e.idle = true) → UnlinkInv (H, s') := by
    intro H s' es hH hlog hes
    obtain ⟨hreq, hrep⟩ := filterMap_idle hes
    refine h.same hlog hreq hrep ?_
    rcases hH with hH | rfl
    · exact asked_calm hH
    · rfl
  have hsame : ∀ (H : List Tok) (s' : Server), Calm H ∨ H = [.fin] → s'.log = s.log →
      UnlinkInv (H, s') :=
    fun H s' hH hlog => hkeep H s' [] hH (by rw [hlog, List.append_nil]) (by simp)
  have hretry : Calm [.retry 0] := Calm.nil.cons trivial
  have hclose : ∀ s₀ : Server, s₀.log = s.log → UnlinkInv ([], usbip_close_client s₀) := by
    intro s₀ hs₀
    rcases close_client_log s₀ with hl | hl
    · exact hkeep _ _ _ (.inl Calm.nil) (by rw [hl, hs₀]) (by simp [Ev.idle])
    · exact hkeep _ _ _ (.inl Calm.nil) (by rw [hl, hs₀]) (by simp [Ev.idle])
  cases ha with
  | chr e =>
    cases e with
    | opened => exact rfl
    | closed => exact hkeep _ _ _ (.inl Calm.nil) (reset_connection_log s) (by simp [Ev.idle])
  | tx_ready =>
    obtain ⟨_, _, _, _, hs'⟩ := usbip_tx_ready_sent s
    exact hsame _ _ (.inl Calm.nil) (by rw [hs'])
  | detach =>
    unfold usbip_port_detach
    split
    · exact hsame _ _ (.inl Calm.nil) rfl
    · dsimp only
      split
      · have hc := hclose { s with enumerated := false } rfl
        generalize usbip_close_client { s with enumerated := false } = t at hc
        exact hc
      · exact hsame _ _ (.inl Calm.nil) rfl
  | system_reset =>
    unfold usbip_server_reset_hold
    split
    · exact hsame _ _ (.inl Calm.nil) rfl
    · exact hclose s rfl
  | read buf _ => exact hsame _ _ (.inr rfl) rfl
  | fire_retry | fire_iso | fire_bh => exact hsame _ _ (.inl hretry) rfl
  | _ => exact hsame _ _ (.inl Calm.nil) rfl

theorem reachable_unlinked (hs : Reachable s) :
    s.log.filterMap Ev.unlink_req = s.log.filterMap Ev.unlink_rep := by
  have h : UnlinkInv ([], s) := reachable_with_inv UnlinkInv (fun _ => rfl)
    (fun _ _ _ h ha => arrive_unlinkInv h ha) (fun _ _ hi h hstep => step_unlinkInv hi h hstep) hs
  simpa [UnlinkInv, asked, talk] using h

/-! ## Places on the lists -/

/-- How often an URB identity is on the lists. -/
def places (s : Server) (i : Nat) : Nat :=
  s.inflight.countP (·.id == i) +
    ((List.range usbip_num_keys).map fun k => (s.waiting k).countP (·.id == i)).sum

theorem places_eq (hwf : s.lanes.Wf) (i : Nat) :
    places s i = (s.lanes.listed.map Ident.id).count i := by
  have hcount : ∀ us : List USBIPURB,
      us.countP (·.id == i) = (((us.map ident : Multiset Ident)).map Ident.id).count i := by
    intro us
    rw [Multiset.map_coe, Multiset.coe_count, List.map_map, List.count_eq_countP, List.countP_map]
    rfl
  have hsum : ∀ n, ((List.range n).map fun k => (s.waiting k).countP (·.id == i)).sum =
      ((bag n fun k => ((s.waiting k).map ident : Multiset Ident)).map Ident.id).count i := by
    intro n
    induction n with
    | zero => simp [bag]
    | succ n ih =>
      rw [List.range_succ, List.map_append, List.sum_append, ih]
      simp only [bag, Finset.sum_range_succ, Multiset.map_add, Multiset.count_add]
      simp [hcount]
  rw [Lanes.listed_eq hwf, Multiset.map_add, Multiset.count_add, places, hsum]
  congr 1
  exact hcount _

/-- An URB is answered at most once. -/
theorem answers_le_one {log : List Ev} (h : LogOk log) (i : Nat) : answers log i ≤ 1 := by
  induction log using List.reverseRecOn with
  | nil => simp [answers]
  | append_singleton log e ih =>
    have hlog : LogOk log := fun before e' after heq =>
      h before e' (after ++ [e]) (by rw [heq]; simp)
    have he := h log e [] rfl
    have := ih hlog
    rw [answers_append]
    cases hea : e.answers i with
    | false =>
      have : answers [e] i = 0 := by simp [answers, hea]
      omega
    | true =>
      have hz : answers log i = 0 := by
        cases e with
        | ret_submit j n =>
          have hj : j = i := by simpa [Ev.answers] using hea
          rw [← hj]
          exact he.2
        | ret_unlink n v st o =>
          cases o with
          | none => cases hea
          | some j =>
            have hj : j = i := by simpa [Ev.answers] using hea
            rw [← hj]
            exact he.2.2
        | _ => cases hea
      have : answers [e] i ≤ 1 := by
        simp only [answers]
        exact List.countP_le_length
      omega

/-- **Exactly-once replies.**  In every run, while a client is connected:
    an accepted URB is on exactly one list, once, until it is answered, and then
    on none; it is answered at most once; the client's URBs on the lists are the
    accepted ones not yet answered; every RET_SUBMIT and RET_UNLINK in the log
    is right given what was logged before it (`EvOk`); and the CMD_UNLINKs are
    answered one by one, in order. -/
theorem exactly_once_replies (hs : Reachable s) (hc : s.conn ≠ .none) :
    (∀ i n k, .submit i n k ∈ s.log →
      (answers s.log i = 0 → places s i = 1 ∧ ∃ u : USBIPURB, u.id = i ∧ u.seqnum = n ∧
        u.internal = false ∧ usbip_urb_key u = k ∧ (u ∈ s.inflight ∨ u ∈ s.waiting k)) ∧
      (answers s.log i ≠ 0 → answers s.log i = 1 ∧ places s i = 0)) ∧
    (∀ u : USBIPURB, u ∈ s.inflight ∨ (∃ k < usbip_num_keys, u ∈ s.waiting k) →
      u.internal = false →
      .submit u.id u.seqnum (usbip_urb_key u) ∈ s.log ∧ answers s.log u.id = 0) ∧
    (∀ before e after, s.log = before ++ e :: after → EvOk before e) ∧
    s.log.filterMap Ev.unlink_req = s.log.filterMap Ev.unlink_rep := by
  have hinv := reachable_inv hs
  have hlog := reachable_log hs
  have hpend : (ledger ([], s)).pending = s.lanes.listed := zero_add _
  have hlink : Linked s.log s.lanes.listed := hpend ▸ hlog.linked hc
  have hnodup : (s.lanes.listed.map Ident.id).Nodup := hinv.distinct
  refine ⟨fun i n k hsub => ⟨fun hz => ?_, fun hnz => ?_⟩, fun u hu hint => ?_, hlog.ok,
    reachable_unlinked hs⟩
  · obtain ⟨j, hj, hji, hjn, hjk⟩ := (hlink i n k).mp ⟨hsub, hz⟩
    obtain ⟨hjl, hjint⟩ := Multiset.mem_filter.mp hj
    refine ⟨?_, ?_⟩
    · rw [places_eq hinv.wf]
      exact Multiset.count_eq_one_of_mem hnodup (Multiset.mem_map.mpr ⟨j, hjl, hji⟩)
    · obtain ⟨u, hu, rfl⟩ := (mem_listed_iff hinv.wf j).mp hjl
      refine ⟨u, hji, hjn, hjint, hjk, ?_⟩
      rcases List.mem_append.mp hu with hu | hu
      · exact .inl hu
      · obtain ⟨k', _, hk'⟩ := List.mem_flatMap.mp hu
        have hkey : usbip_urb_key u = k' := (hinv.wf.waiting_state k' u hk').1
        have hkk : k' = k := hkey.symm.trans hjk
        exact .inr (hkk ▸ hk')
  · have hle := answers_le_one hlog.ok i
    refine ⟨by show answers s.log i = 1; have : answers s.log i ≤ 1 := hle; omega, ?_⟩
    rw [places_eq hinv.wf, Multiset.count_eq_zero]
    intro hmem
    obtain ⟨j, hj, hji⟩ := Multiset.mem_map.mp hmem
    cases hint : j.internal with
    | false =>
      have hcl : j ∈ clients s.lanes.listed := Multiset.mem_filter.mpr ⟨hj, hint⟩
      exact hnz (hji ▸ ((hlink j.id j.seqnum j.key).mpr ⟨j, hcl, rfl, rfl, rfl⟩).2)
    | true =>
      -- an enumeration request is pending only before anything is accepted
      have hen := hinv.ledger.enumerating (hpend ▸ hj) hint
      exact hlog.early (.inr hen) i n k hsub
  · have hmem : ident u ∈ s.lanes.listed := by
      refine (mem_listed_iff hinv.wf _).mpr ⟨u, ?_, rfl⟩
      rcases hu with hu | ⟨k, hk, hu⟩
      · exact List.mem_append.mpr (.inl hu)
      · exact List.mem_append.mpr
          (.inr (List.mem_flatMap.mpr ⟨k, List.mem_range.mpr hk, hu⟩))
    exact (hlink u.id u.seqnum (usbip_urb_key u)).mpr
      ⟨ident u, Multiset.mem_filter.mpr ⟨hmem, hint⟩, rfl, rfl, rfl⟩

/-! ## A session -/

/-- A header of a CMD_SUBMIT with interval 1 and an empty SETUP. -/
def submit_header (seqnum dir ep len np : Nat) : List UInt8 :=
  be32 usbip_cmd_submit ++ be32 seqnum ++ be32 0 ++ be32 dir ++ be32 ep ++ be32 0 ++ be32 len ++
    be32 0 ++ be32 np ++ be32 1 ++ List.replicate 8 0

/-- A CMD_UNLINK. -/
def unlink_message (seqnum victim : Nat) : List UInt8 :=
  be32 usbip_cmd_unlink ++ be32 seqnum ++ be32 0 ++ be32 0 ++ be32 0 ++ be32 victim ++
    List.replicate 24 0

/-- An OP_REQ_IMPORT of the device. -/
def import_message : List UInt8 :=
  be16 usbip_version ++ be16 usbip_op_req_import ++ be32 0 ++ pstrcpy usbip_busid_len usbip_busid

/-- The device is plugged in and a client connects. -/
def open_session : List Input := [{ event := .attach .high }, { event := .chr .opened }]

/-- A device's answers to the port reset and the enumeration. -/
def enum_script : List DevAct :=
  [.ret { status := .success }, .ret { status := .success },
   .ret { status := .success, data := [18, 1] ++ List.replicate 16 0 },
   .ret { status := .success, data := [9, 2, 9, 0] ++ List.replicate 5 0 },
   .ret { status := .success, data := [9, 2, 9, 0] ++ List.replicate 5 0 }]

/-- A client imports the device, which answers the enumeration at once. -/
def import_session : List Input :=
  open_session ++ [{ event := .read import_message, budget := 20, script := enum_script }]

/-- Three bulk IN URBs: the device answers the first, holds the second, and the
    third is queued behind it and unlinked. -/
def bulk_session : List Input :=
  import_session ++
    [{ event := .read (submit_header 1 1 1 8 0 ++ submit_header 2 1 1 8 0 ++
        submit_header 3 1 1 8 0 ++ unlink_message 4 3),
       budget := 10
       script := [.ret { status := .success }, .ret .hold] }]

/-- The second URB of `bulk_session` is on one list and not answered. -/
theorem exactly_once_bulk :
    let s := run (Server.init true) bulk_session
    .submit 5 2 17 ∈ s.log ∧ answers s.log 5 = 0 ∧ places s 5 = 1 ∧
      s.log.filterMap Ev.unlink_req = s.log.filterMap Ev.unlink_rep := by
  intro s
  have hlog : .submit 5 2 17 ∈ s.log ∧ answers s.log 5 = 0 ∧ s.conn ≠ .none := by decide +kernel
  obtain ⟨hplace, _, _, hunlink⟩ :=
    exactly_once_replies (s := s) ⟨true, bulk_session, rfl⟩ hlog.2.2
  exact ⟨hlog.1, hlog.2.1, ((hplace 5 2 17 hlog.1).1 hlog.2.1).1, hunlink⟩

end Usbip
