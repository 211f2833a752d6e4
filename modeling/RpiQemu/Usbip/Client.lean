import RpiQemu.Framework.Struct
import RpiQemu.Usbip.Types

/-! # The USB/IP client

    `ci/usbip_client.py`: the encoder of `CMD_SUBMIT` and the `UsbipClient`
    that submits and unlinks URBs and reads the server's replies.

    A Python `int` is an `Int` (a sequence number, which only counts up from 0,
    a `Nat`), a `dict` an association list in insertion order.  A raised
    exception is an `Error`; the client's state after one is not modelled, as
    no caller catches it. -/

namespace Usbip

open Bytes

/-! ## Dictionaries -/

/-- `d[k] = v`: an old key keeps its place, a new one goes last. -/
def dict_set {α : Type} (d : List (Nat × α)) (k : Nat) (v : α) : List (Nat × α) :=
  if k ∈ d.map Prod.fst then d.map fun e => if e.1 = k then (k, v) else e
  else d ++ [(k, v)]

/-- `d.pop(k)`: `none` is `KeyError`. -/
def dict_pop {α : Type} (d : List (Nat × α)) (k : Nat) : Option (α × List (Nat × α)) :=
  match d.lookup k with
  | none => none
  | some v => some (v, d.eraseP (·.1 == k))

section Dict

variable {α : Type} {d rest : List (Nat × α)} {k : Nat} {v : α}

theorem dict_set_new (h : ∀ e ∈ d, e.1 ≠ k) : dict_set d k v = d ++ [(k, v)] := by
  unfold dict_set
  apply if_neg
  intro hmem
  obtain ⟨e, he, hk⟩ := List.mem_map.mp hmem
  exact h e he hk

theorem mem_of_lookup (h : d.lookup k = some v) : (k, v) ∈ d := by
  induction d with
  | nil => cases h
  | cons e d ih =>
    obtain ⟨k', v'⟩ := e
    rw [List.lookup_cons] at h
    by_cases hk : k = k'
    · subst hk
      rw [beq_self_eq_true] at h
      obtain rfl := Option.some.inj h
      exact List.mem_cons_self
    · rw [beq_false_of_ne hk] at h
      exact List.mem_cons_of_mem _ (ih h)

theorem dict_pop_some (h : dict_pop d k = some (v, rest)) :
    (k, v) ∈ d ∧ rest = d.eraseP (·.1 == k) := by
  unfold dict_pop at h
  split at h
  · cases h
  · rename_i w hw
    cases h
    exact ⟨mem_of_lookup hw, rfl⟩

/-- A key that is present is found. -/
theorem dict_pop_of_mem (h : k ∈ d.map Prod.fst) :
    ∃ v, (k, v) ∈ d ∧ dict_pop d k = some (v, d.eraseP (·.1 == k)) := by
  have hfound : ∃ v, d.lookup k = some v := by
    induction d with
    | nil => cases h
    | cons e d ih =>
      obtain ⟨k', v'⟩ := e
      rw [List.lookup_cons]
      by_cases hk : k = k'
      · subst hk
        rw [beq_self_eq_true]
        exact ⟨v', rfl⟩
      · rw [beq_false_of_ne hk]
        apply ih
        rw [List.map_cons] at h
        exact (List.mem_cons.mp h).resolve_left hk
  obtain ⟨v, hv⟩ := hfound
  refine ⟨v, mem_of_lookup hv, ?_⟩
  unfold dict_pop
  rw [hv]

/-- A key that was popped is gone, and every other one is still there. -/
theorem not_mem_popped (hd : (d.map Prod.fst).Nodup) :
    k ∉ (d.eraseP (·.1 == k)).map Prod.fst := by
  induction d with
  | nil => exact List.not_mem_nil
  | cons e d ih =>
    rw [List.map_cons, List.nodup_cons] at hd
    by_cases hk : e.1 = k
    · rw [List.eraseP_cons_of_pos (by simpa using hk), ← hk]
      exact hd.1
    · rw [List.eraseP_cons_of_neg (by simpa using hk), List.map_cons, List.mem_cons]
      rintro (h | h)
      · exact hk h.symm
      · exact ih hd.2 h

theorem mem_popped {k' : Nat} (h : k' ∈ d.map Prod.fst) (hne : k' ≠ k) :
    k' ∈ (d.eraseP (·.1 == k)).map Prod.fst := by
  obtain ⟨e, he, rfl⟩ := List.mem_map.mp h
  have hneg : ¬ (e.1 == k) = true := by simpa using hne
  have hmem := (List.mem_eraseP_of_neg (p := fun x : Nat × α => x.1 == k) hneg).mpr he
  exact List.mem_map.mpr ⟨e, hmem, rfl⟩

end Dict

/-! ## Messages -/

structure IsoPacket where
  offset : Int
  length : Int
  actual_length : Int := 0
  status : Int := 0
  deriving DecidableEq, Repr

structure RetSubmit where
  seqnum : Nat
  status : Int
  actual_length : Int
  start_frame : Int
  number_of_packets : Int
  error_count : Int
  data : List UInt8
  iso : List IsoPacket
  deriving DecidableEq, Repr

structure RetUnlink where
  seqnum : Nat
  status : Int
  deriving DecidableEq, Repr

/-- What `_replies` holds. -/
inductive Reply where
  | submit (r : RetSubmit)
  | unlink (r : RetUnlink)
  deriving DecidableEq, Repr

/-- The arguments of `pack_cmd_submit`. -/
structure CmdSubmit where
  seqnum : Int
  devid : Int
  direction : Int
  ep : Int
  transfer_flags : Int
  length : Int
  start_frame : Int
  number_of_packets : Int
  interval : Int
  setup : List UInt8
  data : List UInt8 := []
  iso : List IsoPacket := []
  deriving DecidableEq, Repr

/-- The items of `_SUBMIT` (`">IIIII iiiii 8s"`) before the SETUP. -/
def CmdSubmit.items (c : CmdSubmit) : List Item :=
  [.I usbip_cmd_submit, .I c.seqnum, .I c.devid, .I c.direction, .I c.ep,
    .i c.transfer_flags, .i c.length, .i c.start_frame, .i c.number_of_packets, .i c.interval]

/-- The items of `_ISO_DESC` (`">IIIi"`). -/
def IsoPacket.items (p : IsoPacket) : List Item :=
  [.I p.offset, .I p.length, .I p.actual_length, .i p.status]

/-- `none` is the `struct.error` of an argument that does not fit its field. -/
def pack_cmd_submit (c : CmdSubmit) : Option (List UInt8) := do
  let hdr ← pack c.items
  let descs ← c.iso.mapM fun p => pack p.items
  return hdr ++ pack_s 8 c.setup ++ c.data ++ descs.flatten

/-- The items of `_UNLINK` (`">IIIII I 24x"`) before the padding. -/
def unlink_items (seqnum devid victim : Int) : List Item :=
  [.I usbip_cmd_unlink, .I seqnum, .I devid, .I 0, .I 0, .I victim]

/-! ## The client -/

/-- The exceptions the modelled methods raise. -/
inductive Error where
  | struct_error
  | connection_error
  | key_error
  | type_error
  /-- "unexpected USB/IP command" -/
  | usbip_error (cmd : Nat)
  /-- "server speaks USB/IP version" -/
  | bad_version (version : Nat)
  /-- "bad devlist reply" -/
  | bad_devlist (reply status : Nat)
  deriving DecidableEq, Repr

structure UsbipClient where
  /-- What the server sent and the client has not received yet. -/
  sock : List UInt8 := []
  /-- What `sendall` was called with, call by call. -/
  sent : List (List UInt8) := []
  devid : Int := 0
  seq : Nat := 0
  /-- Sequence number to (direction, ISO packet count), or to `None`. -/
  pending : List (Nat × Option (Int × Nat)) := []
  replies : List (Nat × Reply) := []
  deriving DecidableEq, Repr

/-- The keyword arguments of `submit`. -/
structure SubmitArgs where
  ep : Int
  direction : Int
  length : Int := 0
  data : List UInt8 := []
  setup : List UInt8 := List.replicate 8 0
  flags : Int := 0
  iso : Option (List IsoPacket) := none
  start_frame : Int := 0
  interval : Int := 0

/-- `len(iso) if iso is not None else 0`. -/
def SubmitArgs.npackets (a : SubmitArgs) : Nat :=
  match a.iso with
  | some iso => iso.length
  | none => 0

/-- The message `submit` sends under a sequence number. -/
def SubmitArgs.cmd (a : SubmitArgs) (seq : Nat) (devid : Int) : CmdSubmit where
  seqnum := seq
  devid := devid
  direction := a.direction
  ep := a.ep
  transfer_flags := a.flags
  length := if a.direction = usbip_dir_out ∧ a.iso = none then a.data.length else a.length
  start_frame := a.start_frame
  number_of_packets := a.npackets
  interval := a.interval
  setup := a.setup
  data := if a.direction = usbip_dir_out then a.data else []
  iso := a.iso.getD []

/-- Send a message under the next sequence number and remember it; `none` is a
    message that could not be packed. -/
def UsbipClient.send (c : UsbipClient) (msg : Option (List UInt8)) (entry : Option (Int × Nat)) :
    Except Error UsbipClient :=
  match msg with
  | none => .error .struct_error
  | some msg =>
    .ok { c with
      seq := c.seq + 1
      sent := c.sent ++ [msg]
      pending := dict_set c.pending (c.seq + 1) entry }

def UsbipClient.submit (c : UsbipClient) (a : SubmitArgs) : Except Error UsbipClient :=
  c.send (pack_cmd_submit (a.cmd (c.seq + 1) c.devid)) (some (a.direction, a.npackets))

def UsbipClient.unlink (c : UsbipClient) (victim : Int) : Except Error UsbipClient :=
  c.send ((pack (unlink_items (c.seq + 1) c.devid victim)).map (· ++ List.replicate 24 0)) none

/-- `_recv_exact`: the connection ends before `n` bytes came, or the client
    takes them. -/
def UsbipClient.recv_exact (c : UsbipClient) (n : Int) : Except Error (List UInt8 × UsbipClient) :=
  if (c.sock.length : Int) < n then .error .connection_error
  else .ok (c.sock.take n.toNat, { c with sock := c.sock.drop n.toNat })

/-- The data of a reply: `b""` unless the request was an IN one. -/
def UsbipClient.recv_data (c : UsbipClient) (direction actual : Int) :
    Except Error (List UInt8 × UsbipClient) :=
  if direction = usbip_dir_in then c.recv_exact actual else .ok ([], c)

/-- `_ISO_DESC.unpack`. -/
def unpack_iso_desc (d : List UInt8) : IsoPacket where
  offset := be32At d 0
  length := be32At d 4
  actual_length := be32At d 8
  status := toInt32 (be32At d 12)

/-- The ISO descriptors of a reply. -/
def UsbipClient.recv_iso : Nat → UsbipClient → Except Error (List IsoPacket × UsbipClient)
  | 0, c => .ok ([], c)
  | n + 1, c => do
    let (d, c) ← c.recv_exact usbip_iso_desc_len
    let (iso, c) ← UsbipClient.recv_iso n c
    return (unpack_iso_desc d :: iso, c)

/-- The RET_SUBMIT branch of `_read_one`. -/
def UsbipClient.read_ret_submit (c : UsbipClient) (hdr : List UInt8) (seq : Nat) :
    Except Error UsbipClient :=
  let status := toInt32 (be32At hdr 0x14)
  let actual := toInt32 (be32At hdr 0x18)
  let start_frame := toInt32 (be32At hdr 0x1c)
  let npackets := toInt32 (be32At hdr 0x20)
  let errors := toInt32 (be32At hdr 0x24)
  match dict_pop c.pending seq with
  | none => .error .key_error
  | some (none, _) => .error .type_error
  | some (some (direction, sent), pending) => do
    let c := { c with pending := pending }
    let (data, c) ← c.recv_data direction actual
    let (iso, c) ← c.recv_iso (if sent ≠ 0 then npackets.toNat else 0)
    return { c with
      replies := dict_set c.replies seq
        (.submit ⟨seq, status, actual, start_frame, npackets, errors, data, iso⟩) }

/-- The RET_UNLINK branch of `_read_one`. -/
def UsbipClient.read_ret_unlink (c : UsbipClient) (hdr : List UInt8) (seq : Nat) :
    Except Error UsbipClient :=
  match dict_pop c.pending seq with
  | none => .error .key_error
  | some (_, pending) =>
    .ok { c with
      pending := pending
      replies := dict_set c.replies seq (.unlink ⟨seq, toInt32 (be32At hdr 0x14)⟩) }

/-- The rest of `_read_one`, after the header. -/
def UsbipClient.read_reply (c : UsbipClient) (hdr : List UInt8) : Except Error UsbipClient :=
  if be32At hdr 0 = usbip_ret_submit then c.read_ret_submit hdr (be32At hdr 4)
  else if be32At hdr 0 = usbip_ret_unlink then c.read_ret_unlink hdr (be32At hdr 4)
  else .error (.usbip_error (be32At hdr 0))

def UsbipClient.read_one (c : UsbipClient) : Except Error UsbipClient := do
  let (hdr, c) ← c.recv_exact usbip_hdr_len
  c.read_reply hdr

/-- `_read_one` once per reply. -/
def UsbipClient.read_many : Nat → UsbipClient → Except Error UsbipClient
  | 0, c => .ok c
  | n + 1, c => do
    let c ← c.read_one
    UsbipClient.read_many n c

/-! ## The list of devices -/

structure DeviceRecord where
  /-- The strings as the ASCII bytes they are decoded from. -/
  path : List UInt8
  busid : List UInt8
  busnum : Nat
  devnum : Nat
  speed : Nat
  id_vendor : Nat
  id_product : Nat
  bcd_device : Nat
  device_class : Nat
  device_subclass : Nat
  device_protocol : Nat
  configuration_value : Nat
  num_configurations : Nat
  num_interfaces : Nat
  interfaces : List (UInt8 × UInt8 × UInt8) := []
  deriving DecidableEq, Repr

def dev_rec_len : Nat := 0x138

/-- `_DEV_REC` (`">256s32sIIIHHHBBBBBB"`), with the strings cut at their NUL. -/
def DeviceRecord.unpack (raw : List UInt8) : DeviceRecord where
  path := (raw.take 256).takeWhile (· ≠ 0)
  busid := ((raw.drop 0x100).take 32).takeWhile (· ≠ 0)
  busnum := be32At raw 0x120
  devnum := be32At raw 0x124
  speed := be32At raw 0x128
  id_vendor := be16At raw 0x12c
  id_product := be16At raw 0x12e
  bcd_device := be16At raw 0x130
  device_class := byteAt raw 0x132
  device_subclass := byteAt raw 0x133
  device_protocol := byteAt raw 0x134
  configuration_value := byteAt raw 0x135
  num_configurations := byteAt raw 0x136
  num_interfaces := byteAt raw 0x137

/-- `_op` with no payload: the reply's code and status. -/
def UsbipClient.op (c : UsbipClient) (code : Nat) : Except Error ((Nat × Nat) × UsbipClient) := do
  let c := { c with sent := c.sent ++ [be16 usbip_version ++ be16 code ++ be32 0] }
  let (hdr, c) ← c.recv_exact usbip_op_hdr_len
  if be16At hdr 0 ≠ usbip_version then .error (.bad_version (be16At hdr 0))
  else return ((be16At hdr 2, be32At hdr 4), c)

/-- The interface entries of a record. -/
def UsbipClient.recv_interfaces :
    Nat → UsbipClient → Except Error (List (UInt8 × UInt8 × UInt8) × UsbipClient)
  | 0, c => .ok ([], c)
  | n + 1, c => do
    let (d, c) ← c.recv_exact 4
    let (rest, c) ← UsbipClient.recv_interfaces n c
    return ((d.getD 0 0, d.getD 1 0, d.getD 2 0) :: rest, c)

/-- The device records of a DEVLIST reply. -/
def UsbipClient.recv_records : Nat → UsbipClient → Except Error (List DeviceRecord × UsbipClient)
  | 0, c => .ok ([], c)
  | n + 1, c => do
    let (raw, c) ← c.recv_exact dev_rec_len
    let (ifs, c) ← c.recv_interfaces (DeviceRecord.unpack raw).num_interfaces
    let (rest, c) ← UsbipClient.recv_records n c
    return ({ DeviceRecord.unpack raw with interfaces := ifs } :: rest, c)

def UsbipClient.devlist (c : UsbipClient) : Except Error (List DeviceRecord × UsbipClient) := do
  let ((reply, status), c) ← c.op usbip_op_req_devlist
  if reply ≠ usbip_op_rep_devlist ∨ status ≠ 0 then .error (.bad_devlist reply status)
  else
    let (n, c) ← c.recv_exact 4
    c.recv_records (be32At n 0)

/-! ## Runs -/

/-- The states of a client that submits and unlinks URBs and reads replies in
    any order; `poll` takes a reply out of `_replies`. -/
inductive UsbipClient.Reachable : UsbipClient → Prop where
  | connect (devid : Int) : Reachable { devid := devid }
  | submit {c c' : UsbipClient} (a : SubmitArgs) : Reachable c → c.submit a = .ok c' → Reachable c'
  | unlink {c c' : UsbipClient} (victim : Int) :
      Reachable c → c.unlink victim = .ok c' → Reachable c'
  | recv {c : UsbipClient} (bytes : List UInt8) :
      Reachable c → Reachable { c with sock := c.sock ++ bytes }
  | read_one {c c' : UsbipClient} : Reachable c → c.read_one = .ok c' → Reachable c'
  | take {c : UsbipClient} (seq : Nat) {r : Reply} {rest : List (Nat × Reply)} :
      Reachable c → dict_pop c.replies seq = some (r, rest) →
      Reachable { c with replies := rest }

end Usbip
