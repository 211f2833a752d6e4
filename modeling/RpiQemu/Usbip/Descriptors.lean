import RpiQemu.Usbip.Events

/-! # The stored descriptors

    An enumeration fetches the device descriptor, the length of the
    configuration and the configuration, and stores each as it arrives:
    `cfg_len` is new one step before `cfg_desc` is.  A failed enumeration leaves
    the three as they are; only `enumerated` says whether they belong together.

    `Origin` counts the enumerations of an execution and remembers which of them
    each stored value came from.  The readers are written a second time with
    every access checked, so that a refused access shows. -/

namespace Usbip

open Bytes

/-! ## Where the stored values came from -/

/-- The enumerations begun so far, and for each stored value the number of the
    enumeration that stored it last. -/
structure Origin where
  began : Nat := 0
  dev_desc : Nat := 0
  cfg_len : Nat := 0
  cfg_desc : Nat := 0

/-- A step that begins an enumeration, or stores what one fetched. -/
def Origin.after (o : Origin) : Cfg → Cfg → Origin
  | (.msg _ :: _, _), (.reset :: _, _) => { o with began := o.began + 1 }
  | (.done u :: _, s), _ =>
    if u.internal = true ∧ (usbip_enum_result s u).2 = true then
      match s.enum_step with
      | 1 => { o with dev_desc := o.began }
      | 2 => { o with cfg_len := o.began }
      | 3 => { o with cfg_desc := o.began }
      | _ => o
    else o
  | _, _ => o

/-- The configurations of the machine's executions, with their origins. -/
inductive Exec : Cfg → Origin → Prop where
  | init (chr_closes : Bool) : Exec ([], Server.init chr_closes) {}
  | arrive {s : Server} {o : Origin} {c : Cfg} : Exec ([], s) o → Arrive s c → Exec c o
  | step {c c' : Cfg} {o : Origin} : Exec c o → Step c c' → Exec c' (o.after c c')

/-- Every run is an execution. -/
theorem reachable_exec {s : Server} (hs : Reachable s) : ∃ o, Exec ([], s) o := by
  apply reachable_invariant (fun c => ∃ o, Exec c o) _ _ _ hs
  · exact fun c => ⟨_, .init c⟩
  · rintro s c ⟨o, h⟩ ha
    exact ⟨o, .arrive h ha⟩
  · rintro c c' ⟨o, h⟩ hstep
    exact ⟨_, .step h hstep⟩

/-! ## Reading with checks -/

/-- `cfg_desc[i]`; refused before the device is enumerated, and from `cfg_len`
    on. -/
def read_cfg (s : Server) (i : Nat) : Option UInt8 :=
  if s.enumerated = true ∧ i < s.cfg_len then s.cfg_desc[i]? else none

/-- `dev_desc[i]`; refused before the device is enumerated. -/
def read_dev (s : Server) (i : Nat) : Option UInt8 :=
  if s.enumerated = true then s.dev_desc[i]? else none

/-- The interface entry of the descriptor at `i`, of length `l` and type `t`. -/
def entry_checked (s : Server) (i : Nat) (l t : UInt8) : Option (List (List UInt8)) :=
  if t.toNat = 4 ∧ 9 ≤ l.toNat ∧ i + 9 ≤ s.cfg_len then do
    let alt ← read_cfg s (i + 3)
    if alt.toNat = 0 then do
      let cls ← read_cfg s (i + 5)
      let sub ← read_cfg s (i + 6)
      let proto ← read_cfg s (i + 7)
      pure [[cls, sub, proto, 0]]
    else pure []
  else pure []

/-- The loop of `usbip_count_interfaces`; `none` also if it still runs after `n`
    turns. -/
def interfaces_checked (s : Server) : Nat → Nat → Option (List (List UInt8))
  | 0, _ => none
  | n + 1, i =>
    if i + 2 ≤ s.cfg_len then do
      let l ← read_cfg s i
      if 2 ≤ l.toNat then do
        let t ← read_cfg s (i + 1)
        let entry ← entry_checked s i l t
        let rest ← interfaces_checked s n (i + l.toNat)
        pure (entry ++ rest)
      else pure []
    else pure []

/-- `usbip_count_interfaces`: every turn but the last passes two bytes. -/
def count_interfaces_checked (s : Server) : Option (List (List UInt8)) :=
  interfaces_checked s (s.cfg_len / 2 + 1) 0

/-- `lduw_le_p` on `dev_desc`. -/
def read_dev16 (s : Server) (i : Nat) : Option Nat := do
  let lo ← read_dev s i
  let hi ← read_dev s (i + 1)
  pure (lo.toNat + hi.toNat * 256)

def device_record_checked (s : Server) : Option (List UInt8) := do
  let vendor ← read_dev16 s 8
  let product ← read_dev16 s 10
  let device ← read_dev16 s 12
  let cls ← read_dev s 4
  let sub ← read_dev s 5
  let proto ← read_dev s 6
  let configs ← read_dev s 17
  let ifaces ← count_interfaces_checked s
  pure (pstrcpy 256 usbip_path ++ pstrcpy usbip_busid_len usbip_busid ++ be32 1 ++ be32 1 ++
    be32 (usbip_speed s.speed) ++ be16 vendor ++ be16 product ++ be16 device ++
    [cls, sub, proto, 0, configs, UInt8.ofNat ifaces.length])

def send_device_record_checked (s : Server) (with_interfaces : Bool) : Option Server := do
  let record ← device_record_checked s
  let s := usbip_send s record
  if with_interfaces then do
    let ifaces ← count_interfaces_checked s
    pure (ifaces.foldl usbip_send s)
  else pure s

def reply_devlist_checked (s : Server) : Option Server :=
  let listed := s.present && s.enumerated
  let s := usbip_send_op_header s usbip_op_rep_devlist 0
  let s := usbip_send s (be32 (if listed then 1 else 0))
  if listed then send_device_record_checked s true else some s

def reply_import_checked (s : Server) (ok : Bool) : Option Server :=
  if ok then do
    let s := usbip_send_op_header s usbip_op_rep_import 0
    let s ← send_device_record_checked s false
    pure { s with conn := .attached }
  else some (usbip_send_op_header s usbip_op_rep_import 1)

def enum_reply_checked (s : Server) (ok : Bool) : Option Server :=
  let op := s.enum_op
  let s := { s.note (.enum_finish op ok) with enum_op := 0, conn := .op }
  if op = usbip_op_req_devlist then reply_devlist_checked s else reply_import_checked s ok

/-- The call on top of the stack answers an operation: the four calls of
    `usbip_reply_devlist` and `usbip_reply_import`, here with checks. -/
inductive Answering : Cfg → Option Server → Prop where
  | devlist {H s} (d : List UInt8) : s.conn = .op → be16At d 2 = usbip_op_req_devlist →
      s.present = false → Answering (.msg d :: H, s) (reply_devlist_checked s)
  | refused {H s} (d : List UInt8) : s.conn = .op → be16At d 2 ≠ usbip_op_req_devlist →
      ¬ (s.present = true ∧ op_busid d = usbip_busid) →
      Answering (.msg d :: H, s) (reply_import_checked s false)
  | enumerated {H s} (u : USBIPURB) : u.internal = true → (usbip_enum_result s u).2 = true →
      s.enum_step + 1 = 4 → Answering (.done u :: H, s) (enum_reply_checked
        { (usbip_enum_result s u).1 with enum_step := 4, enumerated := true } true)
  | failed {H s} (u : USBIPURB) : u.internal = true → (usbip_enum_result s u).2 = false →
      Answering (.done u :: H, s) (enum_reply_checked (usbip_enum_result s u).1 false)

variable {c c' : Cfg} {s s' : Server} {H H' : List Tok} {o o' : Origin} {u v : USBIPURB}

/-! ## Whole descriptors -/

/-- The configuration is all there, and so is the device descriptor. -/
structure Whole (s : Server) : Prop where
  cfg : s.cfg_desc.length = s.cfg_len
  header : 9 ≤ s.cfg_len
  dev : s.dev_desc.length = 18

theorem Whole.sent (h : Whole s) (hs : Sent s s') : Whole s' := by
  obtain ⟨_, _, _, _, rfl⟩ := hs
  exact ⟨h.cfg, h.header, h.dev⟩

theorem Sent.enumerated (hs : Sent s s') : s'.enumerated = s.enumerated := by
  obtain ⟨_, _, _, _, rfl⟩ := hs
  rfl

section Readers

variable (he : s.enumerated = true)
include he

theorem read_cfg_some (hl : s.cfg_desc.length = s.cfg_len) {i : Nat} (hi : i < s.cfg_len) :
    read_cfg s i = some (s.cfg_desc.getD i 0) := by
  have hlt : i < s.cfg_desc.length := by omega
  unfold read_cfg
  rw [if_pos ⟨he, hi⟩, List.getD_eq_getElem?_getD, List.getElem?_eq_getElem hlt]
  rfl

theorem read_dev_some (hd : s.dev_desc.length = 18) {i : Nat} (hi : i < 18) :
    read_dev s i = some (s.dev_desc.getD i 0) := by
  have hlt : i < s.dev_desc.length := by omega
  unfold read_dev
  rw [if_pos he, List.getD_eq_getElem?_getD, List.getElem?_eq_getElem hlt]
  rfl

theorem read_dev16_some (hd : s.dev_desc.length = 18) {i : Nat} (hi : i + 1 < 18) :
    read_dev16 s i = some (le16At s.dev_desc i) := by
  unfold read_dev16
  rw [read_dev_some he hd (by omega), read_dev_some he hd hi]
  rfl

/-- An entry is read within its descriptor, which ends before `cfg_len`. -/
theorem entry_checked_some (hl : s.cfg_desc.length = s.cfg_len) (i : Nat) :
    entry_checked s i (s.cfg_desc.getD i 0) (s.cfg_desc.getD (i + 1) 0) =
      some (if byteAt s.cfg_desc (i + 1) = 4 ∧ 9 ≤ byteAt s.cfg_desc i ∧ i + 9 ≤ s.cfg_len ∧
          byteAt s.cfg_desc (i + 3) = 0 then
        [[s.cfg_desc.getD (i + 5) 0, s.cfg_desc.getD (i + 6) 0, s.cfg_desc.getD (i + 7) 0, 0]]
      else []) := by
  unfold entry_checked
  change (if byteAt s.cfg_desc (i + 1) = 4 ∧ 9 ≤ byteAt s.cfg_desc i ∧ i + 9 ≤ s.cfg_len then _
    else _) = _
  by_cases h : byteAt s.cfg_desc (i + 1) = 4 ∧ 9 ≤ byteAt s.cfg_desc i ∧ i + 9 ≤ s.cfg_len
  · have hfit := h.2.2
    rw [if_pos h, read_cfg_some he hl (by omega), read_cfg_some he hl (by omega),
      read_cfg_some he hl (by omega), read_cfg_some he hl (by omega)]
    change (if byteAt s.cfg_desc (i + 3) = 0 then _ else _) = _
    by_cases halt : byteAt s.cfg_desc (i + 3) = 0
    · rw [if_pos halt, if_pos ⟨h.1, h.2.1, h.2.2, halt⟩]
      rfl
    · rw [if_neg halt, if_neg fun h' => halt h'.2.2.2]
      rfl
  · rw [if_neg h, if_neg fun h' => h ⟨h'.1, h'.2.1, h'.2.2.1⟩]
    rfl

/-- The loop ends before its turns run out, and reads what is there: by induction
    on the turns left, each of which passes two bytes. -/
theorem interfaces_checked_some (hl : s.cfg_desc.length = s.cfg_len) (n m i : Nat)
    (hn : s.cfg_len ≤ i + 1 + 2 * n) (hm : s.cfg_len ≤ i + 1 + 2 * m) :
    interfaces_checked s (n + 1) i = some (usbip_interfaces s.cfg_desc s.cfg_len m i) := by
  induction n generalizing m i with
  | zero =>
    have hout : ¬ i + 2 ≤ s.cfg_len := by omega
    have hnil : usbip_interfaces s.cfg_desc s.cfg_len m i = [] := by
      cases m with
      | zero => rfl
      | succ m => rw [usbip_interfaces, if_neg fun h => hout h.1]
    rw [interfaces_checked, if_neg hout, hnil]
    rfl
  | succ n ih =>
    by_cases hin : i + 2 ≤ s.cfg_len
    · obtain ⟨m, rfl⟩ : ∃ m', m = m' + 1 := ⟨m - 1, by omega⟩
      rw [interfaces_checked, if_pos hin, usbip_interfaces, read_cfg_some he hl (by omega),
        read_cfg_some he hl (by omega)]
      change (if 2 ≤ byteAt s.cfg_desc i then _ else _) = _
      by_cases hlen : 2 ≤ byteAt s.cfg_desc i
      · rw [if_pos hlen, if_pos ⟨hin, hlen⟩]
        have hrest := ih m (i + byteAt s.cfg_desc i) (by omega) (by omega)
        change (do
          let entry ← entry_checked s i (s.cfg_desc.getD i 0) (s.cfg_desc.getD (i + 1) 0)
          let rest ← interfaces_checked s (n + 1) (i + byteAt s.cfg_desc i)
          pure (entry ++ rest)) = _
        rw [entry_checked_some he hl, hrest]
        dsimp only
        split
        · rfl
        · rfl
      · rw [if_neg hlen, if_neg fun h => hlen h.2]
        rfl
    · rw [interfaces_checked, if_neg hin]
      cases m with
      | zero => rfl
      | succ m =>
        rw [usbip_interfaces, if_neg fun h => hin h.1]
        rfl

theorem count_interfaces_checked_some (hl : s.cfg_desc.length = s.cfg_len) :
    count_interfaces_checked s = some (usbip_count_interfaces s) :=
  interfaces_checked_some he hl _ _ 0 (by omega) (by omega)

theorem device_record_checked_some (hw : Whole s) :
    device_record_checked s = some (device_record s) := by
  unfold device_record_checked
  rw [read_dev16_some he hw.dev (by omega), read_dev16_some he hw.dev (by omega),
    read_dev16_some he hw.dev (by omega), read_dev_some he hw.dev (by omega),
    read_dev_some he hw.dev (by omega), read_dev_some he hw.dev (by omega),
    read_dev_some he hw.dev (by omega), count_interfaces_checked_some he hw.cfg]
  rfl

theorem send_device_record_checked_some (hw : Whole s) (b : Bool) :
    send_device_record_checked s b = some (usbip_send_device_record s b) := by
  have hs := usbip_send_sent s (device_record s)
  unfold send_device_record_checked
  rw [device_record_checked_some he hw]
  change (if b = true then do
      let ifaces ← count_interfaces_checked (usbip_send s (device_record s))
      pure (ifaces.foldl usbip_send (usbip_send s (device_record s)))
    else _) = _
  rw [count_interfaces_checked_some (hs.enumerated.trans he) (hw.sent hs).cfg]
  cases b with
  | true => rfl
  | false => rfl

end Readers

/-- A reply reads what an enumeration stored, or nothing. -/
theorem reply_devlist_checked_some (hw : s.enumerated = true → Whole s) :
    reply_devlist_checked s = some (usbip_reply_devlist s) := by
  have h1 := usbip_send_sent s (be16 usbip_version ++ be16 usbip_op_rep_devlist ++ be32 0)
  have h2 := h1.trans (usbip_send_sent (usbip_send_op_header s usbip_op_rep_devlist 0) (be32 1))
  by_cases hl : (s.present && s.enumerated) = true
  · have he : s.enumerated = true := ((Bool.and_eq_true ..).mp hl).2
    unfold reply_devlist_checked usbip_reply_devlist
    simp only [hl, if_true]
    exact send_device_record_checked_some (h2.enumerated.trans he) ((hw he).sent h2) true
  · unfold reply_devlist_checked usbip_reply_devlist
    simp only [hl, if_false, Bool.false_eq_true]

theorem reply_import_checked_some (ok : Bool)
    (hw : ok = true → s.enumerated = true ∧ Whole s) :
    reply_import_checked s ok = some (usbip_reply_import s ok) := by
  cases ok with
  | false => rfl
  | true =>
    obtain ⟨he, hw⟩ := hw rfl
    have h1 := usbip_send_sent s (be16 usbip_version ++ be16 usbip_op_rep_import ++ be32 0)
    have hrec := send_device_record_checked_some (h1.enumerated.trans he) (hw.sent h1) false
    unfold reply_import_checked usbip_reply_import
    change (do
      let t ← send_device_record_checked (usbip_send_op_header s usbip_op_rep_import 0) false
      pure { t with conn := .attached }) = _
    rw [show send_device_record_checked (usbip_send_op_header s usbip_op_rep_import 0) false = _
      from hrec]
    rfl

theorem enum_reply_checked_some (ok : Bool) (hw : s.enumerated = true → Whole s)
    (hok : ok = true → s.enumerated = true) :
    enum_reply_checked s ok = some (usbip_enum_reply s ok) := by
  have hw' : s.enumerated = true →
      Whole { s.note (.enum_finish s.enum_op ok) with enum_op := 0, conn := .op } :=
    fun he => ⟨(hw he).cfg, (hw he).header, (hw he).dev⟩
  unfold enum_reply_checked usbip_enum_reply
  dsimp only
  split
  · exact reply_devlist_checked_some hw'
  · exact reply_import_checked_some ok fun h => ⟨hok h, hw' (hok h)⟩

/-! ## URBs and their buffers -/

/-- A single packet whose window and answer lie in the buffer. -/
structure USBIPURB.Sound (u : USBIPURB) : Prop where
  np : u.number_of_packets = 0
  len : u.len ≤ u.buf.length
  window : u.packet.iov_off + u.packet.iov_size ≤ u.buf.length
  actual : u.packet.actual_length ≤ u.packet.iov_size

theorem USBIPURB.Sound.answer (h : u.Sound) (r : Resp) : (u.answer r).Sound := by
  have hw := h.window
  unfold USBIPURB.answer
  dsimp only
  split
  · -- the bytes replace as many in the window
    have hb : (r.data.take u.packet.iov_size).length ≤ u.packet.iov_size := List.length_take_le _ _
    have hl : (splice u.buf u.packet.iov_off (r.data.take u.packet.iov_size)).length =
        u.buf.length := by
      unfold splice
      rw [List.length_append, List.length_append, List.length_take, List.length_drop]
      omega
    exact ⟨h.np, hl ▸ h.len, hl ▸ h.window, hb⟩
  · exact ⟨h.np, h.len, h.window, Nat.min_le_right _ _⟩

theorem USBIPURB.Sound.packet (h : u.Sound) : (usbip_urb_packet u).Sound := by
  have hparam : ∀ w : USBIPURB, w.Sound → USBIPURB.Sound (if w.epnum = 0 then
      { w with packet := { w.packet with parameter := w.setup } } else w) := by
    intro w hw
    split
    · exact ⟨hw.np, hw.len, hw.window, hw.actual⟩
    · exact hw
  apply hparam
  refine ⟨h.np, h.len, ?_, Nat.zero_le _⟩
  have hl : 0 + u.len ≤ u.buf.length := by rw [Nat.zero_add]; exact h.len
  exact hl

/-- The same request, and no less sound. -/
structure Heir (u v : USBIPURB) : Prop where
  internal : v.internal = u.internal
  sound : u.Sound → v.Sound

theorem Heir.refl (u : USBIPURB) : Heir u u := ⟨rfl, id⟩

theorem Heir.trans {w : USBIPURB} (h : Heir u v) (h' : Heir v w) : Heir u w :=
  ⟨h'.internal.trans h.internal, fun hs => h'.sound (h.sound hs)⟩

/-- An isochronous URB is not sound: nothing to keep. -/
theorem Same.heir (h : Same u v) (hn : u.number_of_packets ≠ 0) : Heir u v :=
  ⟨h.internal, fun hs => absurd hs.np hn⟩

theorem heir_packet_state (u : USBIPURB) (st : PacketState) : Heir u (u.set_packet_state st) :=
  ⟨rfl, fun h => ⟨h.np, h.len, h.window, h.actual⟩⟩

theorem heir_state (u : USBIPURB) (st : USBIPURBState) : Heir u { u with state := st } :=
  ⟨rfl, fun h => ⟨h.np, h.len, h.window, h.actual⟩⟩

theorem heir_answer (u : USBIPURB) (r : Resp) : Heir u (u.answer r) :=
  ⟨(same_answer u r).internal, fun h => h.answer r⟩

theorem heir_packet (u : USBIPURB) : Heir u (usbip_urb_packet u) :=
  ⟨(same_urb_packet u).internal, fun h => h.packet⟩

theorem Replied.heir (h : Replied u v) : Heir u v := by
  obtain ⟨r, st, rfl⟩ := h
  exact (heir_answer u r).trans (heir_packet_state _ st)

/-! ## The URBs of a configuration -/

/-- The URB a call in progress works on. -/
def Tok.urb : Tok → Option USBIPURB
  | .fresh u => some u
  | .hand _ u => some u
  | .run _ u => some u
  | .iso _ u => some u
  | .held _ u => some u
  | .done u => some u
  | .runq u => some u
  | _ => none

/-- On a list. -/
def Listed (s : Server) (u : USBIPURB) : Prop := u ∈ s.inflight ∨ ∃ k, u ∈ s.waiting k

/-- In a call, or on a list. -/
def Held (c : Cfg) (u : USBIPURB) : Prop := (∃ t ∈ c.1, t.urb = some u) ∨ Listed c.2 u

/-- Every URB of `c'` was one of `c`. -/
def Inherits (c c' : Cfg) : Prop := ∀ v, Held c' v → ∃ u, Held c u ∧ Heir u v

theorem Listed.held (h : Listed s u) : Held (H, s) u := .inr h

theorem Listed.ancestor (h : Listed s v) : ∃ u, Held (H, s) u ∧ Heir u v :=
  ⟨v, .inr h, Heir.refl v⟩

theorem Held.top {t : Tok} (h : t.urb = some u) : Held (t :: H, s) u :=
  .inl ⟨t, List.mem_cons_self, h⟩

theorem Inherits.refl (c : Cfg) : Inherits c c := fun v hv => ⟨v, hv, Heir.refl v⟩

theorem Inherits.trans {c c' c'' : Cfg} (h : Inherits c c') (h' : Inherits c' c'') :
    Inherits c c'' := by
  intro v hv
  obtain ⟨w, hw, hwv⟩ := h' v hv
  obtain ⟨u, hu, huw⟩ := h w hw
  exact ⟨u, hu, huw.trans hwv⟩

/-- A step returns from the calls `P` and makes the calls `T`. -/
theorem inherits_of (P T : List Tok)
    (htop : ∀ t' ∈ T, ∀ v, t'.urb = some v → ∃ u, Held (P ++ H, s) u ∧ Heir u v)
    (hlist : ∀ v, Listed s' v → ∃ u, Held (P ++ H, s) u ∧ Heir u v) :
    Inherits (P ++ H, s) (T ++ H, s') := by
  rintro v (⟨t', ht', hv⟩ | hv)
  · rcases List.mem_append.mp ht' with hT | hH
    · exact htop t' hT v hv
    · exact ⟨v, .inl ⟨t', List.mem_append_right _ hH, hv⟩, Heir.refl v⟩
  · exact hlist v hv

theorem listed_of_lists (hi : s'.inflight = s.inflight) (hw : s'.waiting = s.waiting)
    (hv : Listed s' v) : ∃ u, Held (H, s) u ∧ Heir u v := by
  unfold Listed at hv
  rw [hi, hw] at hv
  exact ⟨v, .inr hv, Heir.refl v⟩

/-- The lists stay: the calls that come hold heirs of what the calls held. -/
theorem inherits_lists (P T : List Tok) (hi : s'.inflight = s.inflight)
    (hw : s'.waiting = s.waiting)
    (htop : ∀ t' ∈ T, ∀ v, t'.urb = some v → ∃ u, Held (P ++ H, s) u ∧ Heir u v) :
    Inherits (P ++ H, s) (T ++ H, s') :=
  inherits_of P T htop fun _ hv => listed_of_lists hi hw hv

/-- One call becomes another, with an heir of its URB. -/
theorem inherits_call {t t' : Tok} (hi : s'.inflight = s.inflight) (hw : s'.waiting = s.waiting)
    (hu : t.urb = some u) (hv : ∀ w, t'.urb = some w → Heir u w) :
    Inherits (t :: H, s) (t' :: H, s') := by
  apply inherits_lists [t] [t'] hi hw
  intro t'' ht'' w hw'
  rw [List.mem_singleton.mp ht''] at hw'
  exact ⟨u, Held.top hu, hv w hw'⟩

/-- Calls without an URB go and come. -/
theorem inherits_idle (P T : List Tok) (hi : s'.inflight = s.inflight)
    (hw : s'.waiting = s.waiting) (hT : ∀ t ∈ T, t.urb = none) :
    Inherits (P ++ H, s) (T ++ H, s') := by
  apply inherits_lists P T hi hw
  intro t ht v hv
  rw [hT t ht] at hv
  cases hv

/-- The list of a key changes: its members have ancestors. -/
theorem listed_set_waiting {k : Nat} {l : List USBIPURB} {i : List USBIPURB}
    (hi : ∀ v ∈ i, ∃ u, Held c u ∧ Heir u v) (hl : ∀ v ∈ l, ∃ u, Held c u ∧ Heir u v)
    (hw : ∀ j, ∀ v ∈ s.waiting j, ∃ u, Held c u ∧ Heir u v)
    (hv : Listed { s.set_waiting k l with inflight := i } v) : ∃ u, Held c u ∧ Heir u v := by
  rcases hv with hv | ⟨j, hv⟩
  · exact hi v hv
  · by_cases hj : j = k
    · subst hj
      exact hl v (by simpa [Server.set_waiting] using hv)
    · exact hw j v (by simpa [Server.set_waiting, hj] using hv)

theorem mem_of_head {k : Nat} (hh : s.head k = some u) : u ∈ s.inflight := by
  unfold Server.head at hh
  split at hh
  · cases hh
  · exact List.mem_of_find?_eq_some hh

/-- Back from a halted endpoint to the waiting list, every URB is the same. -/
theorem flush_inherits (env : Env) (s : Server) (k : Nat) :
    Inherits (H, s) (H, usb_ep_flush env s k) := by
  unfold usb_ep_flush
  generalize (s.eps k).queue = q
  induction q generalizing s with
  | nil => exact Inherits.refl _
  | cons id q ih =>
    have hone : Inherits (H, s) (H, usb_ep_flush_one env s id) := by
      unfold usb_ep_flush_one
      split
      · exact Inherits.refl _
      · rename_i u hu
        have hmem := List.mem_of_find?_eq_some hu
        apply inherits_of [] []
        · exact fun t ht => absurd ht List.not_mem_nil
        intro v hv
        apply listed_set_waiting (s := s) _ _ (fun j w hw => Listed.ancestor (.inr ⟨j, hw⟩)) hv
        · exact fun w hw => Listed.ancestor (.inl (List.mem_of_mem_eraseP hw))
        · intro w hw
          rcases List.mem_append.mp hw with hw | hw
          · exact Listed.ancestor (.inr ⟨_, hw⟩)
          · rw [List.mem_singleton.mp hw]
            refine ⟨u, .inr (.inl hmem), rfl, fun h => ⟨h.np, h.len, h.window, h.actual⟩⟩
    exact hone.trans (ih (usb_ep_flush_one env s id))

theorem urb_wait_inherits (t : Tok) (ht : t.urb = some u) :
    Inherits (t :: H, s) (H, usbip_urb_wait s u) := by
  obtain ⟨_, hw⟩ := usbip_urb_wait_eq s u
  rw [hw]
  apply inherits_of [t] []
  · exact fun t ht => absurd ht List.not_mem_nil
  intro v hv
  apply listed_set_waiting (s := s) (fun w hw => Listed.ancestor (.inl hw)) _
    (fun j w hw => Listed.ancestor (.inr ⟨j, hw⟩)) hv
  intro w hw
  rcases List.mem_append.mp hw with hw | hw
  · exact Listed.ancestor (.inr ⟨_, hw⟩)
  · rw [List.mem_singleton.mp hw]
    exact ⟨u, Held.top ht, heir_state u _⟩

/-- An URB the device keeps joins the inflight list. -/
theorem inflight_inherits {t : Tok} (ht : t.urb = some u) (huv : Heir u v)
    (hi : s'.inflight = s.inflight) (hw : s'.waiting = s.waiting) :
    Inherits (t :: H, s) (H, usbip_urb_inflight s' v) := by
  apply inherits_of [t] []
  · exact fun t ht => absurd ht List.not_mem_nil
  rintro w (hw' | hw')
  · rcases List.mem_append.mp hw' with hw' | hw'
    · exact ⟨w, .inr (.inl (hi ▸ hw')), Heir.refl w⟩
    · rw [List.mem_singleton.mp hw']
      exact ⟨u, Held.top ht, huv.trans (heir_state v _)⟩
  · exact ⟨w, .inr (.inr (hw ▸ hw')), Heir.refl w⟩

/-- A packet is done and its URB off the inflight list. -/
theorem done_inherits (P T : List Tok) {r : Resp} (hu : Held (P ++ H, s) u)
    (hT : ∀ t ∈ T, t.urb = none) :
    Inherits (P ++ H, s) (.done (usb_packet_done s u r).2 :: T ++ H,
      (usb_packet_done s u r).1.take_off u.id) := by
  apply inherits_of P (.done _ :: T)
  · intro t ht v hv
    rcases List.mem_cons.mp ht with rfl | ht
    · obtain rfl := Option.some.inj hv
      exact ⟨u, hu, (heir_answer u r).trans (heir_packet_state _ _)⟩
    · rw [hT t ht] at hv
      cases hv
  · rintro v (hv | hv)
    · exact ⟨v, .inr (.inl (List.mem_of_mem_eraseP hv)), Heir.refl v⟩
    · exact ⟨v, .inr (.inr hv), Heir.refl v⟩

theorem enum_reply_lists (s : Server) (ok : Bool) :
    (usbip_enum_reply s ok).inflight = s.inflight ∧
      (usbip_enum_reply s ok).waiting = s.waiting := by
  obtain ⟨t, ⟨_, _, _, _, rfl⟩, h⟩ := usbip_enum_reply_eq s ok
  rw [h]
  split
  · exact ⟨rfl, rfl⟩
  · exact ⟨rfl, rfl⟩

theorem loop_flush_inherits (k : Nat) :
    Inherits (.loop k :: H, s) (H, usb_ep_flush hold_env (s.note_halt k) k) :=
  (inherits_idle [.loop k] [] rfl rfl (by simp)).trans
    (flush_inherits hold_env (s.note_halt k) k)

/-- A call on the head of a queue comes before the loop's. -/
theorem loop_start_inherits {k : Nat} (hh : s.head k = some u) :
    Inherits (.loop k :: H, s) (.runq u :: .loop k :: H, s.note (.start u.id)) := by
  apply inherits_lists [.loop k] [.runq u, .loop k] rfl rfl
  intro t ht v hv
  rcases List.mem_cons.mp ht with rfl | ht
  · obtain rfl := Option.some.inj hv
    exact ⟨_, Listed.held (.inl (mem_of_head hh)), Heir.refl _⟩
  · rw [List.mem_singleton.mp ht] at hv
    cases hv

/-- The device keeps a packet that is on the inflight list. -/
theorem hold_inherits (k : Nat) (u : USBIPURB) :
    Inherits (.runq u :: .loop k :: H, s) (H, usb_packet_hold s u) := by
  apply inherits_of [.runq u, .loop k] []
  · exact fun t ht => absurd ht List.not_mem_nil
  rintro v (hv | hv)
  · obtain ⟨w, hw, rfl⟩ := List.mem_map.mp hv
    split
    · exact ⟨w, .inr (.inl hw), heir_packet_state w _⟩
    · exact ⟨w, .inr (.inl hw), Heir.refl w⟩
  · exact ⟨v, .inr (.inr hv), Heir.refl v⟩

/-- A retry takes the head of a waiting list. -/
theorem take_inherits {k : Nat} {us : List USBIPURB} (hw : s.waiting k = u :: us) :
    Inherits (.retry k :: H, s) (.hand false u :: .retry k :: H, s.set_waiting k us) := by
  have hmem : ∀ {v}, v ∈ u :: us → Listed s v := fun hv => .inr ⟨k, by rw [hw]; exact hv⟩
  apply inherits_of [.retry k] [.hand false u, .retry k]
  · intro t ht v hv
    rcases List.mem_cons.mp ht with rfl | ht
    · obtain rfl := Option.some.inj hv
      exact ⟨_, .inr (hmem List.mem_cons_self), Heir.refl _⟩
    · rw [List.mem_singleton.mp ht] at hv
      cases hv
  intro v hv
  exact listed_set_waiting (s := s) (fun w hw => Listed.ancestor (.inl hw))
    (fun w hw => Listed.ancestor (hmem (List.mem_cons_of_mem _ hw)))
    (fun j w hw => Listed.ancestor (.inr ⟨j, hw⟩)) hv

/-- It puts the URB back at the head. -/
theorem held_head_inherits (k : Nat) (u : USBIPURB) :
    Inherits (.held false u :: .retry k :: H, s)
      (.retry (k + 1) :: H, s.set_waiting k (u :: s.waiting k)) := by
  apply inherits_of [.held false u, .retry k] [.retry (k + 1)]
  · intro t ht v hv
    rw [List.mem_singleton.mp ht] at hv
    cases hv
  intro v hv
  refine listed_set_waiting (s := s) (fun w hw => Listed.ancestor (.inl hw)) (fun w hw => ?_)
    (fun j w hw => Listed.ancestor (.inr ⟨j, hw⟩)) hv
  rcases List.mem_cons.mp hw with rfl | hw
  · exact ⟨_, Held.top rfl, Heir.refl _⟩
  · exact Listed.ancestor (.inr ⟨k, hw⟩)

/-- A message of an attached client starts no enumeration. -/
theorem attached_not_enumerating {d : List UInt8} (hc : s.conn = .attached)
    (hen : ((H, (submit_accept s d).1) : Cfg).2.conn = .enumerating) : False := by
  rcases submit_accept_cases s d with ⟨t, _, heq⟩ | ⟨np, iso, heq, _⟩
  · rw [heq, drop_client_conn] at hen
    cases hen
  · rw [heq] at hen
    exact USBIPConn.noConfusion (hc.symm.trans hen)

/-- **While an enumeration is in progress, a step makes no request but the one it
    issues.** -/
theorem step_inherits (hstep : Step c c') (hen : c'.2.conn = .enumerating) :
    Inherits c c' ∨ ∃ T, c.1 = .issue :: T := by
  cases hstep with
  | complete s k u r _ hh _ _ =>
    exact .inl (done_inherits [] [.loop k] (Listed.held (.inl (mem_of_head hh)))
      (by simp [Tok.urb]))
  | loop_none s k _ | loop_async s k _ _ _ =>
    exact .inl (inherits_idle [.loop k] [] rfl rfl (by simp))
  | loop_flush s k _ => exact .inl (loop_flush_inherits k)
  | loop_start s k u hh _ _ => exact .inl (loop_start_inherits hh)
  | runq_hold s k u => exact .inl (hold_inherits k u)
  | runq_done s u r _ => exact .inl (done_inherits [.runq u] [] (Held.top rfl) (by simp))
  | answer s u _ =>
    obtain ⟨_, _, hf⟩ := urb_free_counters (usbip_send_ret_submit s u) u
    obtain ⟨_, _, _, _, hs⟩ := usbip_send_ret_submit_sent s u
    rw [hf, hs]
    exact .inl (inherits_idle [.done u] [] rfl rfl (by simp))
  | lost s u _ _ => exact .inl (inherits_idle [.done u] [] rfl rfl (by simp))
  -- The transfer is over: what comes next is issued anew and inherits from nothing.
  | enum_next s u _ _ _ =>
    obtain ⟨_, _, _, hres⟩ := usbip_enum_result_eq s u
    rw [hres]
    exact .inl (inherits_idle [.done u] [.issue] rfl rfl (by simp [Tok.urb]))
  | enum_end s u _ _ _ | enum_fail s u _ _ =>
    obtain ⟨_, _, _, hres⟩ := usbip_enum_result_eq s u
    rw [hres]
    have hl := enum_reply_lists
    exact .inl (inherits_idle [.done u] [.fin] (hl _ _).1 (hl _ _).2 (by simp [Tok.urb]))
  | issue s => exact .inr ⟨_, rfl⟩
  | behind s u _ => exact .inl (urb_wait_inherits _ rfl)
  | held_tail s u => exact .inl (urb_wait_inherits _ rfl)
  | try_fresh s u _ =>
    exact .inl (inherits_call rfl rfl rfl fun w hw => Option.some.inj hw ▸ Heir.refl u)
  -- A URB with packets is no control transfer, so `Heir` asks nothing of it.
  | iso_stall s b u hn =>
    exact .inl (inherits_call rfl rfl rfl fun w hw => Option.some.inj hw ▸
      ⟨rfl, fun h => absurd h.np hn⟩)
  | iso_skip s b u v hn hv | iso_queued s b u v due hn hv _ | iso_start s b u v due hn hv _ _
  | iso_back s b u v hn hv | iso_bounce s b u v hn hv =>
    exact .inl (inherits_call rfl rfl rfl fun w hw => Option.some.inj hw ▸ hv.heir hn)
  | iso_more s b u t _ | iso_end s b u =>
    exact .inl (inherits_call rfl rfl rfl fun w hw => Option.some.inj hw ▸ Heir.refl u)
  | enqueue s b u _ _ =>
    refine .inl (inflight_inherits rfl ((heir_packet u).trans ⟨rfl, fun h => ?_⟩) rfl rfl)
    exact ⟨h.np, h.len, h.window, h.actual⟩
  | start s b u _ _ =>
    exact .inl (inherits_call rfl rfl rfl fun w hw => Option.some.inj hw ▸ heir_packet u)
  | run_async s b u r _ hr =>
    simp only [usb_packet_started, hr]
    exact .inl (inflight_inherits rfl ((heir_answer u r).trans (heir_packet_state _ _)) rfl rfl)
  | run_nak s b u v _ _ hv | run_done s b u v _ _ hv =>
    exact .inl (inherits_call rfl rfl rfl fun w hw => Option.some.inj hw ▸ hv.heir)
  | take s k u us _ hw => exact .inl (take_inherits hw)
  | held_head s k u => exact .inl (held_head_inherits k u)
  | retry_next s k _ =>
    exact .inl (inherits_idle [.retry k] [.retry (k + 1)] rfl rfl (by simp [Tok.urb]))
  | retry_end s _ => exact .inl (inherits_idle [.retry _] [] rfl rfl (by simp))
  | retry_arm s =>
    obtain ⟨_, h⟩ := usbip_arm_retry_eq s
    rw [h]
    exact .inl (inherits_idle [.retry _] [] rfl rfl (by simp))
  | parse_skip s _ => exact .inl (inherits_idle [.fin] [] rfl rfl (by simp))
  | parse_begin s _ => exact .inl (inherits_idle [.fin] [.parse] rfl rfl (by simp [Tok.urb]))
  | parse_drop s _ => exact USBIPConn.noConfusion ((drop_client_conn s).symm.trans hen)
  | parse_msg s _ =>
    exact .inl (inherits_idle [.parse] [.msg _, .parse] rfl rfl (by simp [Tok.urb]))
  | parse_end s _ _ => exact .inl (inherits_idle [.parse] [] rfl rfl (by simp))
  | op_devlist s d hc _ _ =>
    obtain ⟨_, _, _, _, h⟩ := usbip_reply_devlist_sent s
    rw [h]
    exact .inl (inherits_idle [.msg d] [] rfl rfl (by simp))
  | op_import s d hc _ _ =>
    obtain ⟨_, _, _, _, h⟩ := usbip_reply_import_false_sent s
    rw [h]
    exact .inl (inherits_idle [.msg d] [] rfl rfl (by simp))
  | op_enum s d op _ _ _ _ =>
    exact .inl (inherits_idle [.msg d] [.reset] rfl rfl (by simp [Tok.urb]))
  | reset_done s => exact .inl (inherits_idle [.reset] [.issue] rfl rfl (by simp [Tok.urb]))
  | reject s d hc _ _ | accept s d u hc _ _ _ => exact (attached_not_enumerating hc hen).elim
  | unlink s d hc _ =>
    obtain ⟨_, _, _, ⟨_, _, _, _, _, _, rfl⟩, _, _, _, _, h⟩ :=
      usbip_handle_unlink_moved s (be32At d 0x04) (be32At d 0x14)
    rw [h] at hen
    exact USBIPConn.noConfusion (hc.symm.trans hen)
  | act s script _ => exact .inl (inherits_idle [] [] rfl rfl (by simp))
  | wakeup s _ => exact .inl (inherits_idle [] [] rfl rfl (by simp))
  | set_type s k isoc _ => exact .inl (inherits_idle [] [] rfl rfl (by simp))

/-- A call's URB is carried, or at the head of its queue. -/
theorem mem_carried {t : Tok} (ht : t ∈ H) (hu : t.urb = some u) :
    ident u ∈ carried H ∨ .runq u ∈ H := by
  induction H with
  | nil => exact absurd ht List.not_mem_nil
  | cons t' H ih =>
    rcases List.mem_cons.mp ht with rfl | ht
    · cases t with
      | runq v =>
        obtain rfl := Option.some.inj hu
        exact .inr List.mem_cons_self
      | fresh v | hand _ v | run _ v | iso _ v | held _ v | done v =>
        obtain rfl := Option.some.inj hu
        exact .inl (Multiset.mem_cons_self _ _)
      | _ => cases hu
    · rcases ih ht with h | h
      · left
        cases t' <;> first | exact Multiset.mem_cons_of_mem h | exact h
      · exact .inr (List.mem_cons_of_mem _ h)

theorem Listed.listed (hwf : s.lanes.Wf) (h : Listed s u) : ident u ∈ s.lanes.listed := by
  apply (mem_listed_iff hwf _).mpr
  refine ⟨u, List.mem_append.mpr ?_, rfl⟩
  rcases h with h | ⟨k, h⟩
  · exact .inl h
  · right
    apply List.mem_flatMap.mpr
    refine ⟨k, List.mem_range.mpr ?_, h⟩
    by_contra hk
    rw [show s.waiting k = [] from hwf.waiting_lt k (Nat.not_lt.mp hk)] at h
    exact absurd h List.not_mem_nil

/-- Only the server's own request of an enumeration is internal. -/
theorem Inv.held_enumerating (h : Inv c) (hu : Held c u) (hi : u.internal = true) :
    c.2.conn = .enumerating := by
  have hp : ident u ∈ (Usbip.ledger c).pending := by
    rcases hu with ⟨t, ht, htu⟩ | hl
    · rcases mem_carried ht htu with hcar | hrun
      · exact Multiset.mem_add.mpr (.inl hcar)
      · -- the packet the device processes is still on its list
        have hfly := List.mem_of_head? (h.runs.of_runq hrun).1
        exact Multiset.mem_add.mpr (.inr (Listed.listed h.wf (.inl (Lanes.mem_flying.mp hfly).1)))
    · exact Multiset.mem_add.mpr (.inr (hl.listed h.wf))
  exact h.ledger.enumerating hp hi

/-! ## What an enumeration has fetched -/

/-- The step leaves the stored descriptors alone. -/
structure Unfetched (o : Origin) (c c' : Cfg) : Prop where
  dev : c'.2.dev_desc = c.2.dev_desc
  cfg : c'.2.cfg_desc = c.2.cfg_desc
  len : c'.2.cfg_len = c.2.cfg_len
  step : c'.2.enum_step = c.2.enum_step
  conn : c'.2.conn = .enumerating → c.2.conn = .enumerating
  enumerated : c'.2.enumerated = true → c.2.enumerated = true
  origin : o.after c c' = o

theorem Closed.unfetched (h : Closed s s') (ho : o.after (H, s) (H', s') = o) :
    Unfetched o (H, s) (H', s') := by
  obtain ⟨_, _, _, _, _, _, _, rfl⟩ := h
  exact ⟨rfl, rfl, rfl, rfl, fun hc => USBIPConn.noConfusion hc, fun he => Bool.noConfusion he, ho⟩

/-- While the device has control, no message is dispatched and no packet done. -/
theorem dev_origin (hd : dev H) : o.after (H, s) c' = o := by
  cases H with
  | nil => rfl
  | cons t H => cases t <;> first | exact hd.elim | rfl

/-- After a message was handled, a loop goes on. -/
theorem msg_origin {d : List UInt8} (hc : Calm H) : o.after (.msg d :: H, s) (H, s') = o := by
  cases H with
  | nil => rfl
  | cons t H =>
    have ht := hc.head
    cases t <;> first | exact ht.elim | rfl

theorem client_origin (hu : u.internal = false) : o.after (.done u :: H, s) c' = o := by
  have hn : ¬ (u.internal = true ∧ (usbip_enum_result s u).2 = true) := by simp [hu]
  unfold Origin.after
  exact if_neg hn

/-- What a step means for the stored descriptors: nothing, the beginning of an
    enumeration, or the end of one of its requests. -/
inductive Fetch (o : Origin) : Cfg → Cfg → Prop where
  | quiet {x y : Cfg} : Unfetched o x y → Fetch o x y
  | begins {H : List Tok} {s : Server} (d : List UInt8) (op : Nat) :
      Fetch o (.msg d :: H, s) (.reset :: H, usbip_enum_begin s op)
  | next {H : List Tok} {s : Server} (u : USBIPURB) : u.internal = true →
      (usbip_enum_result s u).2 = true → s.enum_step + 1 ≠ 4 → Fetch o (.done u :: H, s)
        (.issue :: H, { (usbip_enum_result s u).1 with enum_step := s.enum_step + 1 })
  | ends {H : List Tok} {s : Server} (u : USBIPURB) : u.internal = true →
      (usbip_enum_result s u).2 = true → s.enum_step + 1 = 4 → Fetch o (.done u :: H, s)
        (.fin :: H, usbip_enum_reply
          { (usbip_enum_result s u).1 with enum_step := 4, enumerated := true } true)
  | fails {H : List Tok} {s : Server} (u : USBIPURB) : u.internal = true →
      (usbip_enum_result s u).2 = false →
      Fetch o (.done u :: H, s) (.fin :: H, usbip_enum_reply (usbip_enum_result s u).1 false)

theorem step_fetch (hinv : Inv c) (hstep : Step c c') : Fetch o c c' := by
  cases hstep with
  | act s script hd => exact .quiet ⟨rfl, rfl, rfl, rfl, id, id, dev_origin hd⟩
  | wakeup s hd => exact .quiet ⟨rfl, rfl, rfl, rfl, id, id, dev_origin hd⟩
  | set_type s k isoc hd => exact .quiet ⟨rfl, rfl, rfl, rfl, id, id, dev_origin hd⟩
  | complete s k u r hd _ _ _ => exact .quiet ⟨rfl, rfl, rfl, rfl, id, id, dev_origin hd⟩
  | loop_flush s k _ =>
    obtain ⟨_, _, _, _, h⟩ := usb_ep_flush_shifted hold_env (s.note_halt k) k
    rw [h]
    exact .quiet ⟨rfl, rfl, rfl, rfl, id, id, rfl⟩
  | answer s u hu =>
    obtain ⟨_, _, hf⟩ := urb_free_counters (usbip_send_ret_submit s u) u
    obtain ⟨_, _, _, _, hs⟩ := usbip_send_ret_submit_sent s u
    rw [hf, hs]
    exact .quiet ⟨rfl, rfl, rfl, rfl, id, id, client_origin hu⟩
  | @lost H s u hu hn =>
    -- an enumeration request is no isochronous URB
    have hmem : ident u ∈ (Usbip.ledger (.done u :: H, s)).pending :=
      Multiset.mem_add.mpr (.inl (Multiset.mem_cons_self _ _))
    exact absurd (hinv.ledger.internal_np _ hmem hu) hn
  | enum_next s u hu hr hn => exact .next u hu hr hn
  | enum_end s u hu hr hn => exact .ends u hu hr hn
  | enum_fail s u hu hr => exact .fails u hu hr
  | behind s u _ | held_tail s u =>
    obtain ⟨_, h⟩ := usbip_urb_wait_eq s u
    rw [h]
    exact .quiet ⟨rfl, rfl, rfl, rfl, id, id, rfl⟩
  | run_async s b u r _ hr =>
    simp only [usb_packet_started, hr]
    exact .quiet ⟨rfl, rfl, rfl, rfl, id, id, rfl⟩
  | retry_arm s =>
    obtain ⟨_, h⟩ := usbip_arm_retry_eq s
    rw [h]
    exact .quiet ⟨rfl, rfl, rfl, rfl, id, id, rfl⟩
  | parse_drop s _ => exact .quiet ((usbip_drop_client_closed s).unfetched rfl)
  | op_devlist s d _ _ _ =>
    obtain ⟨_, _, _, _, h⟩ := usbip_reply_devlist_sent s
    rw [h]
    exact .quiet ⟨rfl, rfl, rfl, rfl, id, id, msg_origin hinv.shape⟩
  | op_import s d _ _ _ =>
    obtain ⟨_, _, _, _, h⟩ := usbip_reply_import_false_sent s
    rw [h]
    exact .quiet ⟨rfl, rfl, rfl, rfl, id, id, msg_origin hinv.shape⟩
  | op_enum s d op _ _ _ _ => exact .begins d op
  | reject s d _ _ hrej =>
    obtain ⟨id, n, b, hdrop, _, _⟩ := submit_reject hrej
    obtain ⟨_, _, _, _, _, _, _, h⟩ :=
      usbip_drop_client_closed { s with next_id := id, nurbs := n, urb_bytes := b }
    have ho : o.after (.msg d :: _, s) (_, (submit_accept s d).1) = o := msg_origin hinv.shape
    rw [hdrop, h] at ho ⊢
    exact .quiet ⟨rfl, rfl, rfl, rfl, fun hc => USBIPConn.noConfusion hc,
      fun he => Bool.noConfusion he, ho⟩
  | accept s d u _ _ _ hacc =>
    rcases submit_accept_cases s d with ⟨t, _, heq⟩ | ⟨np, iso, heq, _⟩
    · rw [heq] at hacc
      cases hacc
    · rw [heq]
      exact .quiet ⟨rfl, rfl, rfl, rfl, id, id, rfl⟩
  | unlink s d _ _ =>
    obtain ⟨_, _, _, ⟨_, _, _, _, _, _, rfl⟩, _, _, _, _, h⟩ :=
      usbip_handle_unlink_moved s (be32At d 0x04) (be32At d 0x14)
    rw [h]
    exact .quiet ⟨rfl, rfl, rfl, rfl, id, id, msg_origin hinv.shape⟩
  | _ => exact .quiet ⟨rfl, rfl, rfl, rfl, id, id, rfl⟩

/-- The stored descriptors are whole, and all of the latest enumeration. -/
structure Consistent (s : Server) (o : Origin) : Prop extends Whole s where
  same_dev : o.dev_desc = o.began
  same_len : o.cfg_len = o.began
  same_cfg : o.cfg_desc = o.began

/-- While an enumeration is in progress `enumerated` is false, so that nothing
    need hold of `cfg_desc`; each value fetched so far is the enumeration's. -/
structure Fetched (c : Cfg) (o : Origin) : Prop where
  dev_length : c.2.dev_desc.length = 18
  unset : c.2.conn = .enumerating → c.2.enumerated = false
  step : c.2.conn = .enumerating → c.2.enum_step < 4
  dev : c.2.conn = .enumerating → 2 ≤ c.2.enum_step → o.dev_desc = o.began
  len : c.2.conn = .enumerating → 3 ≤ c.2.enum_step → o.cfg_len = o.began ∧ 9 ≤ c.2.cfg_len
  consistent : c.2.enumerated = true → Consistent c.2 o
  sound : ∀ u, Held c u → u.internal = true → u.Sound

theorem Fetched.quiet (h : Fetched c o) (hq : Unfetched o c c')
    (hs : ∀ u, Held c' u → u.internal = true → u.Sound) : Fetched c' o where
  dev_length := by rw [hq.dev]; exact h.dev_length
  unset hc := by
    have hf := h.unset (hq.conn hc)
    cases he : c'.2.enumerated with
    | false => rfl
    | true => exact absurd (hq.enumerated he) (by simp [hf])
  step hc := by rw [hq.step]; exact h.step (hq.conn hc)
  dev hc := by rw [hq.step]; exact h.dev (hq.conn hc)
  len hc := by rw [hq.step, hq.len]; exact h.len (hq.conn hc)
  consistent he := by
    have hcon := h.consistent (hq.enumerated he)
    refine ⟨⟨?_, ?_, ?_⟩, hcon.same_dev, hcon.same_len, hcon.same_cfg⟩
    · rw [hq.cfg, hq.len]
      exact hcon.cfg
    · rw [hq.len]
      exact hcon.header
    · rw [hq.dev]
      exact hcon.dev
  sound := hs

/-- The answer of a request, by the step it belongs to. -/
theorem enum_result_at {n : Nat} : s.enum_step = n → usbip_enum_result s u =
    match n with
    | 1 =>
      if u.packet.status = .success ∧ u.packet.actual_length = 18 ∧ byteAt u.buf 1 = 1 then
        ({ s with dev_desc := u.buf.take 18 }, true)
      else (s, false)
    | 2 =>
      if u.packet.status = .success ∧ u.packet.actual_length = 9 ∧ byteAt u.buf 1 = 2 ∧
          9 ≤ le16At u.buf 2 then
        ({ s with cfg_len := le16At u.buf 2 }, true)
      else (s, false)
    | 3 =>
      if u.packet.status = .success ∧ u.packet.actual_length = s.cfg_len then
        ({ s with cfg_desc := u.buf.take u.packet.actual_length }, true)
      else (s, false)
    | _ => (s, decide (u.packet.status = .success)) := by
  rintro rfl
  rfl

/-- A request that failed has stored nothing. -/
theorem enum_result_failed (hr : (usbip_enum_result s u).2 = false) :
    (usbip_enum_result s u).1 = s := by
  rw [enum_result_at rfl] at hr ⊢
  split at hr
  · split at hr
    · cases hr
    · rename_i hn hg
      simp only [hn]
      rw [if_neg hg]
  · split at hr
    · cases hr
    · rename_i hn hg
      simp only [hn]
      rw [if_neg hg]
  · split at hr
    · cases hr
    · rename_i hn hg
      simp only [hn]
      rw [if_neg hg]
  · rfl

/-- What a request that succeeded has stored: one value, of this enumeration. -/
inductive Stores (o : Origin) (s : Server) : Server → Origin → Prop where
  | address : s.enum_step = 0 → Stores o s s o
  | device (d : List UInt8) : s.enum_step = 1 → d.length = 18 →
      Stores o s { s with dev_desc := d } { o with dev_desc := o.began }
  | length (n : Nat) : s.enum_step = 2 → 9 ≤ n →
      Stores o s { s with cfg_len := n } { o with cfg_len := o.began }
  | config (d : List UInt8) : s.enum_step = 3 → d.length = s.cfg_len →
      Stores o s { s with cfg_desc := d } { o with cfg_desc := o.began }

theorem enum_result_stores (hr : (usbip_enum_result s u).2 = true) (hu : u.internal = true)
    (hs : u.Sound) (hlt : s.enum_step < 4) :
    Stores o s (usbip_enum_result s u).1 (o.after (.done u :: H, s) c') := by
  have hfit : u.packet.actual_length ≤ u.buf.length := by
    have hw := hs.window
    have ha := hs.actual
    omega
  have ho : o.after (.done u :: H, s) c' = match s.enum_step with
      | 1 => { o with dev_desc := o.began }
      | 2 => { o with cfg_len := o.began }
      | 3 => { o with cfg_desc := o.began }
      | _ => o := by
    unfold Origin.after
    exact if_pos ⟨hu, hr⟩
  obtain hn | hn | hn | hn : s.enum_step = 0 ∨ s.enum_step = 1 ∨ s.enum_step = 2 ∨
      s.enum_step = 3 := by omega
  · have hres : usbip_enum_result s u = (s, decide (u.packet.status = .success)) :=
      enum_result_at hn
    rw [hres, ho.trans (by rw [hn])]
    exact .address hn
  · have hres := enum_result_at (u := u) hn
    by_cases hg : u.packet.status = .success ∧ u.packet.actual_length = 18 ∧ byteAt u.buf 1 = 1
    · have h18 := hg.2.1
      rw [hres.trans (if_pos hg), ho.trans (by rw [hn])]
      refine .device (u.buf.take 18) hn ?_
      rw [List.length_take]
      omega
    · rw [hres.trans (if_neg hg)] at hr
      cases hr
  · have hres := enum_result_at (u := u) hn
    by_cases hg : u.packet.status = .success ∧ u.packet.actual_length = 9 ∧ byteAt u.buf 1 = 2 ∧
        9 ≤ le16At u.buf 2
    · rw [hres.trans (if_pos hg), ho.trans (by rw [hn])]
      exact .length (le16At u.buf 2) hn hg.2.2.2
    · rw [hres.trans (if_neg hg)] at hr
      cases hr
  · have hres := enum_result_at (u := u) hn
    by_cases hg : u.packet.status = .success ∧ u.packet.actual_length = s.cfg_len
    · rw [hres.trans (if_pos hg), ho.trans (by rw [hn])]
      refine .config (u.buf.take u.packet.actual_length) hn ?_
      rw [List.length_take, Nat.min_eq_left hfit]
      exact hg.2
    · rw [hres.trans (if_neg hg)] at hr
      cases hr

theorem enum_reply_fields (s : Server) (ok : Bool) :
    (usbip_enum_reply s ok).conn ≠ .enumerating ∧
      (usbip_enum_reply s ok).dev_desc = s.dev_desc ∧
      (usbip_enum_reply s ok).cfg_desc = s.cfg_desc ∧
      (usbip_enum_reply s ok).cfg_len = s.cfg_len ∧
      (usbip_enum_reply s ok).enumerated = s.enumerated := by
  obtain ⟨t, ⟨_, _, _, _, rfl⟩, h⟩ := usbip_enum_reply_eq s ok
  rw [h]
  split
  · exact ⟨USBIPConn.noConfusion, rfl, rfl, rfl, rfl⟩
  · exact ⟨USBIPConn.noConfusion, rfl, rfl, rfl, rfl⟩

/-- No enumeration is in progress any more. -/
theorem Fetched.settled (hc : c.2.conn ≠ .enumerating) (hd : c.2.dev_desc.length = 18)
    (hcon : c.2.enumerated = true → Consistent c.2 o)
    (hs : ∀ u, Held c u → u.internal = true → u.Sound) : Fetched c o :=
  ⟨hd, fun h => absurd h hc, fun h => absurd h hc, fun h => absurd h hc, fun h => absurd h hc,
    hcon, hs⟩

/-- The server's request, when it completes, belongs to the enumeration in
    progress. -/
theorem Fetched.request (hinv : Inv (.done u :: H, s)) (h : Fetched (.done u :: H, s) o)
    (hu : u.internal = true) : s.conn = .enumerating ∧ u.Sound :=
  ⟨hinv.held_enumerating (Held.top rfl) hu, h.sound u (Held.top rfl) hu⟩

/-- **The invariant is kept by every step.** -/
theorem step_fetched (hinv : Inv c) (h : Fetched c o) (hstep : Step c c') :
    Fetched c' (o.after c c') := by
  have hinv' : Inv c' := inv_step hinv hstep
  -- every request still pending is an heir, or has just been issued
  have hs : ∀ u, Held c' u → u.internal = true → u.Sound := by
    intro v hv hi
    rcases step_inherits hstep (hinv'.held_enumerating hv hi) with hin | ⟨T, hT⟩
    · obtain ⟨u, hu, huv⟩ := hin v hv
      exact huv.sound (h.sound u hu (huv.internal.symm.trans hi))
    · obtain ⟨H, s⟩ := c
      obtain rfl : H = _ := hT
      cases hstep with
      | act s script hd | wakeup s hd | set_type s k isoc hd | complete s k u r hd => exact hd.elim
      | issue s =>
        rcases hv with ⟨t, ht, htv⟩ | hv
        · rcases List.mem_cons.mp ht with rfl | ht
          · obtain rfl := Option.some.inj htv
            refine ⟨rfl, ?_, Nat.zero_le _, Nat.zero_le _⟩
            show _ ≤ (List.replicate _ (0 : UInt8)).length
            rw [List.length_replicate]
            exact Nat.le_max_left _ _
          · exact h.sound v (.inl ⟨t, List.mem_cons_of_mem _ ht, htv⟩) hi
        · exact h.sound v (.inr hv) hi
  cases step_fetch (o := o) hinv hstep with
  | quiet hq =>
    rw [hq.origin]
    exact h.quiet hq hs
  | begins d op =>
    refine ⟨h.dev_length, fun _ => rfl, fun _ => Nat.zero_lt_succ _, fun _ hle => ?_,
      fun _ hle => ?_, fun he => Bool.noConfusion he, hs⟩
    · exact absurd (show 2 ≤ 0 from hle) (by decide)
    · exact absurd (show 3 ≤ 0 from hle) (by decide)
  | @next H s u hu hr hn =>
    obtain ⟨hc, hsound⟩ := h.request hinv hu
    have hen : s.enumerated = false := h.unset hc
    have hlt : s.enum_step < 4 := h.step hc
    have hst : Stores o s (usbip_enum_result s u).1 (o.after (.done u :: H, s)
        (.issue :: H, { (usbip_enum_result s u).1 with enum_step := s.enum_step + 1 })) :=
      enum_result_stores hr hu hsound hlt
    generalize (usbip_enum_result s u).1 = t at hst hs ⊢
    generalize o.after _ _ = o₁ at hst ⊢
    cases hst with
    | address h0 =>
      refine ⟨h.dev_length, fun _ => hen, fun _ => ?_, fun _ hle => ?_, fun _ hle => ?_,
        fun he => ?_, hs⟩
      · show s.enum_step + 1 < 4
        omega
      · exact absurd (show 2 ≤ s.enum_step + 1 from hle) (by omega)
      · exact absurd (show 3 ≤ s.enum_step + 1 from hle) (by omega)
      · exact absurd (hen.symm.trans he) (by decide)
    | device d h1 hd =>
      refine ⟨hd, fun _ => hen, fun _ => ?_, fun _ _ => rfl, fun _ hle => ?_, fun he => ?_, hs⟩
      · show s.enum_step + 1 < 4
        omega
      · exact absurd (show 3 ≤ s.enum_step + 1 from hle) (by omega)
      · exact absurd (hen.symm.trans he) (by decide)
    | length n h2 hn' =>
      refine ⟨h.dev_length, fun _ => hen, fun _ => ?_, fun _ _ => ?_, fun _ _ => ⟨rfl, hn'⟩,
        fun he => ?_, hs⟩
      · show s.enum_step + 1 < 4
        omega
      · exact h.dev hc (show 2 ≤ s.enum_step by omega)
      · exact absurd (hen.symm.trans he) (by decide)
    | config d h3 hd => exact absurd h3 (by omega)
  | @ends H s u hu hr hn =>
    obtain ⟨hc, hsound⟩ := h.request hinv hu
    have h3 : s.enum_step = 3 := by omega
    have hst : Stores o s (usbip_enum_result s u).1 (o.after (.done u :: H, s)
        (.fin :: H, usbip_enum_reply
          { (usbip_enum_result s u).1 with enum_step := 4, enumerated := true } true)) :=
      enum_result_stores hr hu hsound (h.step hc)
    generalize (usbip_enum_result s u).1 = t at hst hs ⊢
    generalize o.after _ _ = o₁ at hst ⊢
    cases hst with
    | address h' | device d h' | length n h' => exact absurd (h3.symm.trans h') (by decide)
    | config d _ hd =>
      obtain ⟨hconn, hdev, hcfg, hlen, _⟩ := enum_reply_fields
        { s with cfg_desc := d, enum_step := 4, enumerated := true } true
      have h18 : s.dev_desc.length = 18 := h.dev_length
      obtain ⟨hol, h9⟩ := h.len hc (show 3 ≤ s.enum_step by omega)
      apply Fetched.settled hconn
      · show (usbip_enum_reply _ true).dev_desc.length = 18
        rw [hdev]
        exact h18
      · intro _
        refine ⟨⟨?_, ?_, ?_⟩, h.dev hc (show 2 ≤ s.enum_step by omega), hol, rfl⟩
        · show (usbip_enum_reply _ true).cfg_desc.length = (usbip_enum_reply _ true).cfg_len
          rw [hcfg, hlen]
          exact hd
        · show 9 ≤ (usbip_enum_reply _ true).cfg_len
          rw [hlen]
          exact h9
        · show (usbip_enum_reply _ true).dev_desc.length = 18
          rw [hdev]
          exact h18
      · exact hs
  | @fails H s u hu hr =>
    obtain ⟨hc, _⟩ := h.request hinv hu
    have hen : s.enumerated = false := h.unset hc
    rw [enum_result_failed hr] at hs ⊢
    obtain ⟨hconn, hdev, _, _, henum⟩ := enum_reply_fields s false
    apply Fetched.settled hconn
    · show (usbip_enum_reply s false).dev_desc.length = 18
      rw [hdev]
      exact h.dev_length
    · intro he
      have he' : (usbip_enum_reply s false).enumerated = true := he
      rw [henum, hen] at he'
      cases he'
    · exact hs

/-! ## Arrivals -/

theorem Fetched.arrived (h : Fetched ([], s) o) (hq : Unfetched o ([], s) c)
    (hin : Inherits ([], s) c) : Fetched c o := by
  refine h.quiet hq fun v hv hi => ?_
  obtain ⟨u, hu, huv⟩ := hin v hv
  exact huv.sound (h.sound u hu (huv.internal.symm.trans hi))

/-- A connection that is closed has no request pending. -/
theorem Fetched.closed (h : Fetched ([], s) o) (hinv : Inv ([], s')) (hc : Closed s s') :
    Fetched ([], s') o := by
  refine h.quiet (hc.unfetched rfl) fun u hu hi => ?_
  have hen : s'.conn = .enumerating := hinv.held_enumerating hu hi
  obtain ⟨_, _, _, _, _, _, _, rfl⟩ := hc
  cases hen

theorem arrive_fetched (hinv : Inv ([], s)) (h : Fetched ([], s) o) (ha : Arrive s c) :
    Fetched c o := by
  have hinv' : Inv c := hinv.next (arrive_next hinv ha)
  cases ha with
  | input script cw =>
    exact h.arrived ⟨rfl, rfl, rfl, rfl, id, id, rfl⟩ (inherits_idle [] [] rfl rfl (by simp))
  | read buf _ =>
    exact h.arrived ⟨rfl, rfl, rfl, rfl, id, id, rfl⟩
      (inherits_idle [] [.fin] rfl rfl (by simp [Tok.urb]))
  | fire_retry | fire_iso | fire_bh =>
    exact h.arrived ⟨rfl, rfl, rfl, rfl, id, id, rfl⟩
      (inherits_idle [] [.retry 0] rfl rfl (by simp [Tok.urb]))
  | chr e =>
    have hreset := usbip_reset_connection_closed s
    cases e with
    | closed => exact h.closed hinv' hreset
    | opened =>
      have hop : (usbip_event s .opened).conn ≠ .enumerating := USBIPConn.noConfusion
      obtain ⟨_, _, _, _, _, _, _, hs⟩ := hreset
      unfold usbip_event usb_port_set_vbus at hinv' hop ⊢
      dsimp only at hinv' hop ⊢
      generalize usbip_reset_connection s = t at hs hinv' hop ⊢
      subst hs
      refine h.quiet ⟨rfl, rfl, rfl, rfl, fun hc => absurd hc hop, fun he => Bool.noConfusion he,
        rfl⟩ fun u hu hi => ?_
      exact absurd (hinv'.held_enumerating hu hi) hop
  | tx_ready =>
    obtain ⟨_, _, _, _, hs⟩ := usbip_tx_ready_sent s
    rw [hs]
    exact h.arrived ⟨rfl, rfl, rfl, rfl, id, id, rfl⟩ (inherits_idle [] [] rfl rfl (by simp))
  | detach =>
    unfold usbip_port_detach at hinv' ⊢
    split
    · exact h.arrived ⟨rfl, rfl, rfl, rfl, id, id, rfl⟩ (inherits_idle [] [] rfl rfl (by simp))
    · rename_i hr
      dsimp only at hinv' ⊢
      split
      -- Only a client that has the device, or waits for it, is closed.
      · rename_i hc
        rw [if_neg hr, if_pos hc] at hinv'
        obtain ⟨_, _, _, _, _, _, _, hs⟩ := usbip_close_client_closed { s with enumerated := false }
        rw [hs] at hinv' ⊢
        refine h.quiet ⟨rfl, rfl, rfl, rfl, fun hc => USBIPConn.noConfusion hc,
          fun he => Bool.noConfusion he, rfl⟩ fun u hu hi => ?_
        exact USBIPConn.noConfusion (hinv'.held_enumerating hu hi)
      · exact h.arrived ⟨rfl, rfl, rfl, rfl, id, fun he => Bool.noConfusion he, rfl⟩
          (inherits_idle [] [] rfl rfl (by simp))
  | attach speed _ =>
    exact h.arrived ⟨rfl, rfl, rfl, rfl, id, id, rfl⟩ (inherits_idle [] [] rfl rfl (by simp))
  | system_reset =>
    unfold usbip_server_reset_hold at hinv' ⊢
    split
    · exact h
    · rename_i hc
      rw [if_neg hc] at hinv'
      exact h.closed hinv' (usbip_close_client_closed s)
  | tick ns =>
    exact h.arrived ⟨rfl, rfl, rfl, rfl, id, id, rfl⟩ (inherits_idle [] [] rfl rfl (by simp))

theorem init_fetched (b : Bool) : Fetched ([], Server.init b) {} := by
  refine ⟨rfl, fun hc => USBIPConn.noConfusion hc, fun hc => USBIPConn.noConfusion hc,
    fun hc => USBIPConn.noConfusion hc, fun hc => USBIPConn.noConfusion hc,
    fun he => Bool.noConfusion he, ?_⟩
  rintro u (⟨t, ht, _⟩ | hu | ⟨k, hu⟩) _
  · exact absurd ht List.not_mem_nil
  · exact absurd hu List.not_mem_nil
  · exact absurd hu List.not_mem_nil

/-- The invariants hold throughout an execution. -/
theorem Exec.fetched (h : Exec c o) : Inv c ∧ Fetched c o := by
  induction h with
  | init b => exact ⟨init_inv b, init_fetched b⟩
  | arrive _ ha ih => exact ⟨ih.1.next (arrive_next ih.1 ha), arrive_fetched ih.1 ih.2 ha⟩
  | step _ hstep ih => exact ⟨inv_step ih.1 hstep, step_fetched ih.1 ih.2 hstep⟩

/-- An answer changes nothing stored: it read what is there after it. -/
theorem whole_of_replied {ok : Bool} (h : (usbip_enum_reply s ok).enumerated = true →
    Consistent (usbip_enum_reply s ok) o) : s.enumerated = true → Whole s := by
  obtain ⟨_, hdev, hcfg, hlen, henum⟩ := enum_reply_fields s ok
  intro he
  have hcon := h (henum.trans he)
  refine ⟨?_, ?_, ?_⟩
  · rw [← hcfg, ← hlen]
    exact hcon.cfg
  · rw [← hlen]
    exact hcon.header
  · rw [← hdev]
    exact hcon.dev

/-- An answer that reads with checks is the server's answer. -/
theorem answering_some (hinv : Inv c) (h : Fetched c o) {r : Option Server} (ha : Answering c r) :
    ∃ H s, r = some s ∧ Step c (H, s) := by
  cases ha with
  | @devlist H s d hc hop hp =>
    have hw : s.enumerated = true → Whole s := fun he => (h.consistent he).toWhole
    exact ⟨H, _, reply_devlist_checked_some hw, .op_devlist s d hc hop hp⟩
  | @refused H s d hc hop hp =>
    exact ⟨H, _, reply_import_checked_some false fun hok => Bool.noConfusion hok,
      .op_import s d hc hop hp⟩
  | @enumerated H s u hu hr hn =>
    -- what the step leads to says what has been stored
    have hstep := Step.enum_end (H := H) s u hu hr hn
    have hw := whole_of_replied (step_fetched hinv h hstep).consistent
    exact ⟨_, _, enum_reply_checked_some true hw fun _ => rfl, hstep⟩
  | @failed H s u hu hr =>
    have hres := enum_result_failed hr
    refine ⟨_, _, enum_reply_checked_some false ?_ fun hok => Bool.noConfusion hok,
      .enum_fail s u hu hr⟩
    rw [hres]
    exact fun he => (h.consistent he).toWhole

/-- **The stored descriptors are consistent whenever they are used.**  Every run
    is an execution, and in every execution: while the device is enumerated, the
    stored values are whole and of one enumeration; every answer to an operation
    reads only what the checks allow; and the walk over the configuration, with
    whatever bytes in it, ends and stays below `cfg_len`. -/
theorem stored_descriptors :
    (∀ s, Reachable s → ∃ o, Exec ([], s) o) ∧
    ∀ c o, Exec c o →
      (c.2.enumerated = true → Consistent c.2 o) ∧
      (∀ r, Answering c r → ∃ H s, r = some s ∧ Step c (H, s)) ∧
      (c.2.enumerated = true → ∀ cfg : List UInt8, cfg.length = c.2.cfg_len →
        count_interfaces_checked { c.2 with cfg_desc := cfg } =
          some (usbip_count_interfaces { c.2 with cfg_desc := cfg })) := by
  refine ⟨fun s hs => reachable_exec hs, fun c o h => ?_⟩
  obtain ⟨hinv, hf⟩ := h.fetched
  refine ⟨hf.consistent, fun r ha => answering_some hinv hf ha, fun he cfg hcfg => ?_⟩
  exact count_interfaces_checked_some (s := { c.2 with cfg_desc := cfg }) he hcfg

/-- A configuration of one interface of class 3. -/
def one_interface_cfg : List UInt8 := [9, 2, 18, 0, 1, 1, 0, 0x80, 50, 9, 4, 0, 0, 0, 3, 1, 2, 0]

/-- A device that answers the four requests of an enumeration at once. -/
def answering_device : List DevAct :=
  [.ret { status := .success }, .ret { status := .success },
    .ret { status := .success, data := [18, 1, 0, 2, 0, 0, 0, 8, 1, 0, 2, 0, 3, 0, 0, 0, 0, 1] },
    .ret { status := .success, data := one_interface_cfg },
    .ret { status := .success, data := one_interface_cfg }]

/-- The server after it answered an OP_REQ_DEVLIST. -/
def listed : Server :=
  run (Server.init true)
    [{ event := .attach .full }, { event := .chr .opened },
      { event := .read [1, 0x11, 0x80, 5, 0, 0, 0, 0], budget := 12, script := answering_device }]

theorem listed_consistent : ∃ o, Consistent listed o ∧
    count_interfaces_checked listed = some [[3, 1, 2, 0]] := by
  have hused : ∀ t, Reachable t → t.enumerated = true → ∃ o, Consistent t o ∧
      count_interfaces_checked t = some (usbip_count_interfaces t) := by
    intro t ht he
    obtain ⟨o, ho⟩ := stored_descriptors.1 t ht
    obtain ⟨hcon, _, hcount⟩ := stored_descriptors.2 _ o ho
    exact ⟨o, hcon he, hcount he t.cfg_desc (hcon he).cfg⟩
  have he : listed.enumerated = true := by decide +kernel
  have hcount : usbip_count_interfaces listed = [[3, 1, 2, 0]] := by decide +kernel
  rw [← hcount]
  exact hused listed ⟨_, _, rfl⟩ he

end Usbip
