import RpiQemu.Usbip.Core

/-! # The USB/IP server

    The functions of `hw/usb/usbip-server.c`, in the order of the source, each
    a function from the server's state to the next.  A function that can reach
    the device takes the environment `Env`; the others are plain.

    Conventions: an URB the C code holds by pointer is passed and returned by
    value; `usbip_urb_try` returns the URB when the device NAKed it (the C
    function's `false`).  `unsigned` counters wrap at their width. -/

namespace Usbip

open Bytes

/-! ## Output -/

/-- The loop of `usbip_flush`: write until the chardev takes no more. -/
def usbip_flush_loop : Nat → Server → Server
  | 0, s => s
  | n + 1, s =>
    if s.tx.isEmpty then s
    else
      let r := min (s.chr_write.headD 0) (min s.tx.length (64 * 1024))
      let s := { s with chr_write := s.chr_write.tail }
      if r = 0 then { s with watch := true }
      else usbip_flush_loop n { s with tx := s.tx.drop r }

def usbip_flush (s : Server) : Server := usbip_flush_loop (s.tx.length + 1) s

def usbip_send (s : Server) (data : List UInt8) : Server :=
  if s.conn = .none then s
  else usbip_flush { s with tx := s.tx ++ data, out := s.out ++ data }

def usbip_tx_ready (s : Server) : Server := usbip_flush { s with watch := false }

def usbip_send_op_header (s : Server) (code status : Nat) : Server :=
  usbip_send s (be16 usbip_version ++ be16 code ++ be32 status)

/-! ## URBs -/

def usbip_urb_new (s : Server) (seqnum len : Nat) : Server × USBIPURB :=
  ({ s with next_id := s.next_id + 1 },
    { id := s.next_id, seqnum := seqnum, len := len,
      buf := List.replicate (max len 1) 0 })

def usbip_urb_free (s : Server) (u : USBIPURB) : Server :=
  if u.internal then s
  else
    { s with
      nurbs := (s.nurbs + (2 ^ 32 - 1)) % 2 ^ 32
      urb_bytes := (s.urb_bytes + (2 ^ 64 - u.len)) % 2 ^ 64 }

/-- `u->flags & USBIP_URB_SHORT_NOT_OK`. -/
def USBIPURB.short_not_ok (u : USBIPURB) : Bool := u.flags % 2 = 1

def usbip_urb_status (u : USBIPURB) : Int :=
  match u.packet.status with
  | .success =>
    if u.short_not_ok && u.in_ && decide (u.packet.actual_length < u.len) then
      -usbip_eremoteio
    else 0
  | .stall => -usbip_epipe
  | .babble => -usbip_eoverflow
  | .nodev => -usbip_enodev
  | _ => -usbip_eproto

/-- The reply's actual length. -/
def USBIPURB.ret_actual (u : USBIPURB) : Nat :=
  if u.number_of_packets ≠ 0 then
    (u.iso.map (·.actual_length)).sum % 2 ^ 32
  else u.packet.actual_length

/-- The reply's status. -/
def USBIPURB.ret_status (u : USBIPURB) : Int :=
  if u.number_of_packets ≠ 0 then 0 else usbip_urb_status u

/-- The reply's error count. -/
def USBIPURB.ret_errors (u : USBIPURB) : Nat :=
  if u.number_of_packets ≠ 0 then u.iso.countP (·.status ≠ 0) else 0

/-- The 48-byte header of `RET_SUBMIT`; devid, direction and ep are 0. -/
def ret_submit_header (u : USBIPURB) : List UInt8 :=
  be32 usbip_ret_submit ++ be32 u.seqnum ++ be32 0 ++ be32 0 ++ be32 0 ++
    be32 (ofInt32 u.ret_status) ++ be32 u.ret_actual ++
    be32 (if u.number_of_packets ≠ 0 then ofInt32 u.start_frame else 0) ++
    be32 u.number_of_packets ++ be32 u.ret_errors ++ List.replicate 8 0

def iso_desc_bytes (d : USBIPIsoDesc) : List UInt8 :=
  be32 d.offset ++ be32 d.length ++ be32 d.actual_length ++ be32 (ofInt32 d.status)

/-- What one ISO IN packet contributes to the reply's data. -/
def USBIPURB.iso_data (u : USBIPURB) (d : USBIPIsoDesc) : List UInt8 :=
  (u.buf.drop d.offset).take d.actual_length

/-- The pieces `usbip_send_ret_submit` sends, in order: the header, the data of
    an IN URB (ISO data without the gaps between packets), the descriptors. -/
def ret_submit_pieces (u : USBIPURB) : List (List UInt8) :=
  [ret_submit_header u] ++
    (if u.in_ then
      if u.number_of_packets ≠ 0 then u.iso.map u.iso_data
      else if u.ret_actual ≠ 0 then [u.buf.take u.ret_actual] else []
    else []) ++
    u.iso.map iso_desc_bytes

def usbip_send_ret_submit (s : Server) (u : USBIPURB) : Server :=
  (ret_submit_pieces u).foldl usbip_send (s.note (.ret_submit u.id u.seqnum))

/-- `u` is on no list here. -/
def usbip_urb_complete (env : Env) (s : Server) (u : USBIPURB) : Server :=
  if u.internal then env.enum_done s u
  else usbip_urb_free (usbip_send_ret_submit s u) u

def usbip_arm_retry (s : Server) : Server :=
  match s.retry_timer with
  | some _ => s
  | none => { s with retry_timer := some (s.now + scale_ms) }

/-! ## Isochronous URBs -/

/-- The length of a (micro)frame at the device's speed. -/
def usbip_iso_frame (s : Server) : Int :=
  if s.speed = .high then 125 * scale_us else scale_ms

/-- `QEMU_ALIGN_UP`. -/
def align_up (n m : Int) : Int := (n + m - 1) / m * m

/-- `do { due += period; } while (due <= now);` -/
def iso_catch_up : Nat → Int → Int → Int → Int
  | 0, due, period, _ => due + period
  | n + 1, due, period, now =>
    if due + period ≤ now then iso_catch_up n (due + period) period now else due + period

/-- `timer_mod_anticipate_ns`. -/
def timer_anticipate (t : Option Int) (due : Int) : Option Int :=
  match t with
  | none => some due
  | some t => some (min t due)

/-- The descriptor of an ISO packet after the device answered it. -/
def iso_desc_answered (u : USBIPURB) (d : USBIPIsoDesc) : USBIPIsoDesc :=
  match u.packet.status with
  | .async => { d with actual_length := 0, status := -usbip_eproto }
  | .success => { d with actual_length := u.packet.actual_length, status := 0 }
  | .nak => { d with actual_length := 0, status := 0 }
  | _ => { d with actual_length := 0, status := usbip_urb_status u }

/-- The schedule after the packet due at `u->iso_due` is taken. -/
def iso_advance (s : Server) (u : USBIPURB) (d : USBIPIsoDesc) : Server × USBIPURB :=
  let period := usbip_iso_frame s * max u.interval 1
  let due := iso_catch_up (s.now - u.iso_due).toNat u.iso_due period s.now
  let u := { u with iso_next := u.iso_next + 1, iso_due := due }
  ({ s with iso_next_due := Function.update s.iso_next_due (usbip_urb_key u) due },
    usb_packet_setup u u.in_ false d.offset d.length)

/-- Record the answer to ISO packet `i`, and take the packet back if the device
    would hold it: ISO never waits. -/
def iso_answered (s : Server) (u : USBIPURB) (i : Nat) (d : USBIPIsoDesc) :
    Server × USBIPURB :=
  let u := { u with iso := u.iso.set i (iso_desc_answered u d) }
  if u.packet.status = .async then (usb_cancel_packet s u, u.set_packet_state .canceled)
  else (s, u)

/-- Service the packet `u->iso[u->iso_next]`, which is due. -/
def usbip_iso_service (env : Env) (s : Server) (u : USBIPURB) (d : USBIPIsoDesc) :
    Server × USBIPURB :=
  let i := u.iso_next
  let (s, u) := iso_advance s u d
  let (s, u) := usb_handle_packet env s u
  iso_answered s u i d

/-- URB_ISO_ASAP: the endpoint's next frame, on a frame boundary. -/
def iso_schedule (s : Server) (u : USBIPURB) : USBIPURB :=
  if u.iso_next = 0 ∧ u.iso_due = 0 then
    { u with
      iso_due := max (align_up s.now (usbip_iso_frame s)) (s.iso_next_due (usbip_urb_key u)) }
  else u

/-- Service the next packet if its frame has come. -/
def iso_serve (env : Env) (s : Server) (u : USBIPURB) : Server × USBIPURB :=
  match u.iso[u.iso_next]? with
  | some d => if u.iso_due ≤ s.now then usbip_iso_service env s u d else (s, u)
  | none => (s, u)

/-- Wait for the next frame while packets are left. -/
def iso_finish (env : Env) (s : Server) (u : USBIPURB) : Server × Option USBIPURB :=
  if u.iso_next < u.number_of_packets then
    ({ s with iso_timer := timer_anticipate s.iso_timer u.iso_due }, some u)
  else (usbip_urb_complete env s u, none)

/-- One packet per (micro)frame of the URB's interval.  Returns the URB while
    packets are left for later frames. -/
def usbip_urb_iso (env : Env) (s : Server) (u : USBIPURB) : Server × Option USBIPURB :=
  let (s, u) := iso_serve env s (iso_schedule s u)
  iso_finish env s u

/-- Every packet not yet serviced stalled. -/
def USBIPURB.stalled (u : USBIPURB) : USBIPURB :=
  { u with
    iso := u.iso.take u.iso_next ++ (u.iso.drop u.iso_next).map fun d =>
      { d with actual_length := 0, status := -usbip_epipe } }

/-- An ISO URB for an endpoint that is not isochronous (or no longer is, after
    a SET_INTERFACE): its packets not yet serviced stall. -/
def usbip_urb_iso_stall (env : Env) (s : Server) (u : USBIPURB) : Server :=
  usbip_urb_complete env s u.stalled

/-! ## Handing URBs to the device -/

/-- The packet of an URB that is not isochronous. -/
def usbip_urb_packet (u : USBIPURB) : USBIPURB :=
  let pid_in := if u.epnum = 0 then decide (byteAt u.setup 0 / 128 % 2 = 1) else u.in_
  let u := usb_packet_setup u pid_in u.short_not_ok 0 u.len
  if u.epnum = 0 then { u with packet := { u.packet with parameter := u.setup } } else u

/-- The device holds the URB (`USB_RET_ASYNC`). -/
def usbip_urb_inflight (s : Server) (u : USBIPURB) : Server :=
  { s with inflight := s.inflight ++ [{ u with state := .inflight }] }

/-- Hand an URB to the device.  Returns it if the device NAKed it. -/
def usbip_urb_try (env : Env) (s : Server) (u : USBIPURB) : Server × Option USBIPURB :=
  if u.number_of_packets ≠ 0 then
    if u.epnum = 0 ∨ (s.eps (usbip_urb_key u)).isoc = false then
      (usbip_urb_iso_stall env s u, none)
    else
      -- not finished: waits for its next frame, in its endpoint's order
      usbip_urb_iso env s u
  else
    let (s, u) := usb_handle_packet env s (usbip_urb_packet u)
    match u.packet.status with
    | .nak => (s, some u)
    | .async => (usbip_urb_inflight s u, none)
    | _ => (usbip_urb_complete env s u, none)

/-- Put an URB at the end of its endpoint's waiting list. -/
def usbip_urb_wait (s : Server) (u : USBIPURB) : Server :=
  let k := usbip_urb_key u
  usbip_arm_retry (s.set_waiting k (s.waiting k ++ [{ u with state := .waiting }]))

/-- Submit in order: behind any URB of the same endpoint still waiting. -/
def usbip_urb_submit (env : Env) (s : Server) (u : USBIPURB) : Server :=
  if (s.waiting (usbip_urb_key u)).isEmpty then
    match usbip_urb_try env s u with
    | (s, none) => s
    | (s, some u) => usbip_urb_wait s u
  else usbip_urb_wait s u

/-! ## Unlinking -/

/-- One turn of `usbip_requeue_behind`'s loop that takes a packet back. -/
def usbip_requeue_one (s : Server) (u : USBIPURB) : Server :=
  let s := usb_cancel_packet { s with inflight := remove s.inflight u.id } u
  let u := { u.set_packet_state .canceled with state := .waiting }
  let k := usbip_urb_key u
  s.set_waiting k (u :: s.waiting k)

/-- The packet the device was working on was cancelled: the core only starts a
    queued packet when the one before it completes, so take the ones queued
    behind it back, in order, ahead of anything waiting. -/
def usbip_requeue_behind (s : Server) (ep : Nat) : Server :=
  let s := s.inflight.reverse.foldl (fun s u =>
    if u.packet.ep = ep ∧ u.packet.state = .queued then usbip_requeue_one s u else s) s
  { s with retry_bh := true }

/-- Take an URB off its list, cancelling it on the device if it holds it. -/
def usbip_urb_unlink (s : Server) (u : USBIPURB) : Server :=
  if u.state = .inflight then
    let s := usb_cancel_packet { s with inflight := remove s.inflight u.id } u
    if u.packet.state = .async then usbip_requeue_behind s u.packet.ep else s
  else
    let k := usbip_urb_key u
    s.set_waiting k (remove (s.waiting k) u.id)

/-- `while ((u = QTAILQ_FIRST(&s->inflight)))` of `usbip_cancel_all`. -/
def usbip_cancel_inflight : Nat → Server → Server
  | 0, s => s
  | n + 1, s =>
    match s.inflight with
    | [] => s
    | u :: _ => usbip_cancel_inflight n (usbip_urb_free (usbip_urb_unlink s u) u)

/-- `while ((u = QTAILQ_FIRST(&s->waiting[i])))` of `usbip_cancel_all`. -/
def usbip_cancel_waiting (i : Nat) : Nat → Server → Server
  | 0, s => s
  | n + 1, s =>
    match s.waiting i with
    | [] => s
    | u :: _ => usbip_cancel_waiting i n (usbip_urb_free (usbip_urb_unlink s u) u)

def usbip_cancel_all (s : Server) : Server :=
  let s := usbip_cancel_inflight s.inflight.length s
  (List.range usbip_num_keys).foldl
    (fun s i => usbip_cancel_waiting i (s.waiting i).length s) s

/-! ## Connection lifecycle -/

def usbip_reset_connection (s : Server) : Server :=
  let s := usbip_cancel_all (s.note .reset)
  let s :=
    { s with
      retry_timer := none
      iso_timer := none
      iso_next_due := fun _ => 0
      conn := .none
      enum_op := 0
      enumerated := false }
  -- no host on the cable any more
  let s := usb_port_set_vbus s false
  { s with rx := [], tx := [], watch := false }

inductive ChrEvent where
  | opened
  | closed
  deriving DecidableEq, Repr

def usbip_event (s : Server) (event : ChrEvent) : Server :=
  match event with
  | .opened =>
    let s := usbip_reset_connection s
    -- a client is a host on the cable: VBUS on
    usb_port_set_vbus { s with conn := .op, log := [], out := [], received := [] } true
  | .closed => usbip_reset_connection s

/-- `qemu_chr_fe_disconnect`: a socket chardev reports the disconnect at once. -/
def qemu_chr_fe_disconnect (s : Server) : Server :=
  if s.chr_closes then usbip_event s .closed else s

def usbip_close_client (s : Server) : Server :=
  qemu_chr_fe_disconnect (usbip_reset_connection s)

/-- Prints a warning and closes the connection. -/
def usbip_drop_client (s : Server) : Server := usbip_close_client (s.note .drop)

/-! ## The device record -/

def usbip_speed (speed : Speed) : Nat :=
  match speed with
  | .low => 1
  | .full => 2
  | .high => 3

/-- `USB_DT_INTERFACE` descriptors of alternate setting 0: the
    (class, subclass, protocol) of each, found by walking `bLength`. -/
def usbip_interfaces (cfg : List UInt8) (cfg_len : Nat) : Nat → Nat → List (List UInt8)
  | 0, _ => []
  | n + 1, i =>
    if i + 2 ≤ cfg_len ∧ 2 ≤ byteAt cfg i then
      let rest := usbip_interfaces cfg cfg_len n (i + byteAt cfg i)
      if byteAt cfg (i + 1) = 4 ∧ 9 ≤ byteAt cfg i ∧ i + 9 ≤ cfg_len ∧
          byteAt cfg (i + 3) = 0 then
        [cfg.getD (i + 5) 0, cfg.getD (i + 6) 0, cfg.getD (i + 7) 0, 0] :: rest
      else rest
    else []

/-- The 4-byte interface entries `usbip_count_interfaces` counts or sends. -/
def usbip_count_interfaces (s : Server) : List (List UInt8) :=
  usbip_interfaces s.cfg_desc s.cfg_len s.cfg_len 0

/-- `pstrcpy` into a zeroed field of `n` bytes. -/
def pstrcpy (n : Nat) (str : List UInt8) : List UInt8 :=
  let b := str.take (n - 1)
  b ++ List.replicate (n - b.length) 0

/-- The bytes of "/sys/devices/qemu/usbip/usb1/1-1". -/
def usbip_path : List UInt8 :=
  [0x2f, 0x73, 0x79, 0x73, 0x2f, 0x64, 0x65, 0x76,
   0x69, 0x63, 0x65, 0x73, 0x2f, 0x71, 0x65, 0x6d,
   0x75, 0x2f, 0x75, 0x73, 0x62, 0x69, 0x70, 0x2f,
   0x75, 0x73, 0x62, 0x31, 0x2f, 0x31, 0x2d, 0x31]

/-- The bytes of "1-1". -/
def usbip_busid : List UInt8 := [0x31, 0x2d, 0x31]

def device_record (s : Server) : List UInt8 :=
  let dd := s.dev_desc
  pstrcpy 256 usbip_path ++ pstrcpy usbip_busid_len usbip_busid ++ be32 1 ++ be32 1 ++
    be32 (usbip_speed s.speed) ++ be16 (le16At dd 8) ++ be16 (le16At dd 10) ++
    be16 (le16At dd 12) ++
    [dd.getD 4 0, dd.getD 5 0, dd.getD 6 0, 0, dd.getD 17 0,
      UInt8.ofNat (usbip_count_interfaces s).length]

def usbip_send_device_record (s : Server) (with_interfaces : Bool) : Server :=
  let s := usbip_send s (device_record s)
  if with_interfaces then (usbip_count_interfaces s).foldl usbip_send s else s

/-! ## Operations (before import) -/

def usbip_reply_devlist (s : Server) : Server :=
  let listed := s.present && s.enumerated
  let s := usbip_send_op_header s usbip_op_rep_devlist 0
  let s := usbip_send s (be32 (if listed then 1 else 0))
  if listed then usbip_send_device_record s true else s

def usbip_reply_import (s : Server) (ok : Bool) : Server :=
  if ok then
    let s := usbip_send_op_header s usbip_op_rep_import 0
    let s := usbip_send_device_record s false
    { s with conn := .attached }
  else usbip_send_op_header s usbip_op_rep_import 1

/-! ## Self-enumeration -/

/-- SET_ADDRESS, then the device and configuration descriptors. -/
def usbip_enum_setup : List (List UInt8) :=
  [[0x00, 0x05, 1, 0, 0, 0, 0, 0],
   [0x80, 0x06, 0, 1, 0, 0, 18, 0],
   [0x80, 0x06, 0, 2, 0, 0, 9, 0]]

/-- The SETUP of enumeration step `enum_step`. -/
def enum_step_setup (s : Server) : List UInt8 :=
  let setup := usbip_enum_setup.getD (min s.enum_step 2) []
  if s.enum_step = 3 then setup.take 6 ++ le16 s.cfg_len else setup

/-- The URB of enumeration step `enum_step`. -/
def usbip_enum_urb (s : Server) : Server × USBIPURB :=
  let setup := enum_step_setup s
  let (s, u) := usbip_urb_new s 0 (le16At setup 6)
  (s, { u with
    internal := true
    epnum := 0
    in_ := decide (byteAt setup 0 / 128 % 2 = 1)
    setup := setup })

def usbip_enum_issue (env : Env) (s : Server) : Server :=
  let (s, u) := usbip_enum_urb s
  usbip_urb_submit env s u

/-- The `switch` of `usbip_enum_done`: whether the step succeeded, with what it
    stores. -/
def usbip_enum_result (s : Server) (u : USBIPURB) : Server × Bool :=
  let ok := u.packet.status = .success
  let actual := u.packet.actual_length
  match s.enum_step with
  | 1 =>
    if ok ∧ actual = 18 ∧ byteAt u.buf 1 = 1 then
      ({ s with dev_desc := u.buf.take 18 }, true)
    else (s, false)
  | 2 =>
    if ok ∧ actual = 9 ∧ byteAt u.buf 1 = 2 ∧ 9 ≤ le16At u.buf 2 then
      ({ s with cfg_len := le16At u.buf 2 }, true)
    else (s, false)
  | 3 =>
    if ok ∧ actual = s.cfg_len then ({ s with cfg_desc := u.buf.take actual }, true)
    else (s, false)
  | _ => (s, decide ok)

/-- The part of `usbip_enum_finish` before it parses again. -/
def usbip_enum_reply (s : Server) (ok : Bool) : Server :=
  let op := s.enum_op
  let s := { s.note (.enum_finish op ok) with enum_op := 0, conn := .op }
  if op = usbip_op_req_devlist then usbip_reply_devlist s else usbip_reply_import s ok

/-- The part of `usbip_enumerate` before the port reset. -/
def usbip_enum_begin (s : Server) (op : Nat) : Server :=
  { s with
    conn := .enumerating
    enum_op := op
    enum_step := 0
    enumerated := false
    port_resetting := true }

def usbip_port_detach (s : Server) : Server :=
  if s.port_resetting then s
  else
    let s := { s with enumerated := false }
    if s.conn = .attached ∨ s.conn = .enumerating then usbip_close_client s else s

/-- `usb_port_reset`: the port's detach and attach, then the device's own reset
    handler. -/
def usb_port_reset (env : Env) (s : Server) : Server :=
  (env.process_one (usbip_port_detach s)).1

def usbip_enumerate (env : Env) (s : Server) (op : Nat) : Server :=
  let s := usb_port_reset env (usbip_enum_begin s op)
  usbip_enum_issue env { s with port_resetting := false }

/-- `busid` as the C string the client sent. -/
def op_busid (d : List UInt8) : List UInt8 :=
  ((d.drop usbip_op_hdr_len).take usbip_busid_len).takeWhile (· ≠ 0)

def usbip_handle_op (env : Env) (s : Server) (d : List UInt8) : Server :=
  if be16At d 2 = usbip_op_req_devlist then
    if s.present then usbip_enumerate env s usbip_op_req_devlist
    else usbip_reply_devlist s
  else
    -- OP_REQ_IMPORT: `usbip_msg_len` rejected any other code
    if s.present ∧ op_busid d = usbip_busid then
      usbip_enumerate env s usbip_op_req_import
    else usbip_reply_import s false

/-! ## URB commands (after import) -/

/-- The ISO descriptors at `off`, or `none` if one reaches outside the transfer
    buffer. -/
def submit_iso (d : List UInt8) (len : Nat) : Nat → Nat → Option (List USBIPIsoDesc)
  | 0, _ => some []
  | n + 1, off =>
    let offset := be32At d off
    let length := be32At d (off + 4)
    if offset > len ∨ length > len - offset then none
    else (submit_iso d len n (off + usbip_iso_desc_len)).map
      ({ offset := offset, length := length } :: ·)

/-- EP0: the data stage direction is the SETUP's. -/
def submit_bad_dir (d : List UInt8) : Bool :=
  decide (be32At d 0x10 = 0) &&
    (decide (be32At d 0x0c = usbip_dir_in) != decide (byteAt d 0x28 / 128 % 2 = 1))

/-- A client with these counters may not submit this URB. -/
def over_limit (nurbs urb_bytes : Nat) (d : List UInt8) : Bool :=
  decide (nurbs ≥ usbip_max_urbs) || decide (urb_bytes + be32At d 0x18 > usbip_max_urb_bytes)

def submit_over_limit (s : Server) (d : List UInt8) : Bool := over_limit s.nurbs s.urb_bytes d

/-- The URB of a `CMD_SUBMIT` before its ISO descriptors are read, with the
    client's counters raised. -/
def submit_urb (s : Server) (d : List UInt8) : Server × USBIPURB :=
  let (s, u) := usbip_urb_new s (be32At d 0x04) (be32At d 0x18)
  let s :=
    { s with
      nurbs := (s.nurbs + 1) % 2 ^ 32
      urb_bytes := (s.urb_bytes + u.len) % 2 ^ 64 }
  let in_ := decide (be32At d 0x0c = usbip_dir_in)
  let u :=
    { u with
      in_ := in_
      epnum := be32At d 0x10 % 256
      flags := be32At d 0x14
      start_frame := toInt32 (be32At d 0x1c)
      interval := toInt32 (be32At d 0x24)
      setup := (d.drop 0x28).take 8
      buf := if in_ then u.buf else splice u.buf 0 ((d.drop usbip_hdr_len).take u.len) }
  (s, u)

/-- Everything `usbip_handle_submit` does before `usbip_urb_submit`: the
    accepted URB, or `none` if the client was dropped. -/
def submit_accept (s : Server) (d : List UInt8) : Server × Option USBIPURB :=
  if submit_bad_dir d then (usbip_drop_client s, none)
  else if submit_over_limit s d then (usbip_drop_client s, none)
  else
    let (s, u) := submit_urb s d
    let np := toInt32 (be32At d 0x20)
    if 0 < np then
      match submit_iso d u.len np.toNat (usbip_hdr_len + (if u.in_ then 0 else u.len)) with
      | none => (usbip_drop_client (usbip_urb_free s u), none)
      | some iso =>
        let u := { u with number_of_packets := np.toNat, iso := iso }
        (s.note (.submit u.id u.seqnum (usbip_urb_key u)), some u)
    else (s.note (.submit u.id u.seqnum (usbip_urb_key u)), some u)

def usbip_handle_submit (env : Env) (s : Server) (d : List UInt8) : Server :=
  match submit_accept s d with
  | (s, none) => s
  | (s, some u) => usbip_urb_submit env s u

/-- All waiting URBs, by key. -/
def Server.all_waiting (s : Server) : List USBIPURB :=
  (List.range usbip_num_keys).flatMap s.waiting

def usbip_find_urb (s : Server) (seqnum : Nat) : Option USBIPURB :=
  (s.inflight ++ s.all_waiting).find? (fun u => !u.internal && u.seqnum == seqnum)

def ret_unlink_header (seqnum : Nat) (status : Int) : List UInt8 :=
  be32 usbip_ret_unlink ++ be32 seqnum ++ be32 0 ++ be32 0 ++ be32 0 ++
    be32 (ofInt32 status) ++ List.replicate 24 0

/-- `-ECONNRESET` if the URB was still pending (no `RET_SUBMIT` will follow), 0
    if it had already completed. -/
def usbip_handle_unlink (s : Server) (seqnum victim : Nat) : Server :=
  let (s, status, id) :=
    match usbip_find_urb s victim with
    | some u => (usbip_urb_free (usbip_urb_unlink s u) u, -usbip_econnreset, some u.id)
    | none => (s, 0, none)
  let s := s.note (.ret_unlink seqnum victim status id)
  usbip_send s (ret_unlink_header seqnum status)

/-! ## Input -/

/-- Length of the message at the head of the receive buffer: 0 while its header
    is incomplete, -1 if it is malformed. -/
def usbip_msg_len (conn : USBIPConn) (d : List UInt8) : Int :=
  let n := d.length
  if conn = .op then
    if n < usbip_op_hdr_len then 0
    else if be16At d 0 ≠ usbip_version then -1
    else if be16At d 2 = usbip_op_req_devlist then usbip_op_hdr_len
    else if be16At d 2 = usbip_op_req_import then usbip_op_hdr_len + usbip_busid_len
    else -1
  else if n < usbip_hdr_len then 0
  else if be32At d 0 = usbip_cmd_submit then
    let dir := be32At d 0x0c
    let ep := be32At d 0x10
    let len := toInt32 (be32At d 0x18)
    let np := toInt32 (be32At d 0x20)
    if dir > usbip_dir_in ∨ ep > 15 ∨ len < 0 ∨ len > usbip_max_xfer then -1
    else if np > usbip_max_iso_packets then -1
    else
      usbip_hdr_len + (if dir = usbip_dir_out then len else 0) +
        (if np > 0 then np * usbip_iso_desc_len else 0)
  else if be32At d 0 = usbip_cmd_unlink then usbip_hdr_len
  else -1

def usbip_dispatch (env : Env) (s : Server) (d : List UInt8) : Server :=
  let s := s.note (.msg s.conn d s.nurbs s.urb_bytes s.present)
  if s.conn = .op then usbip_handle_op env s d
  else if be32At d 0 = usbip_cmd_submit then usbip_handle_submit env s d
  else usbip_handle_unlink s (be32At d 0x04) (be32At d 0x14)

/-- The loop of `usbip_parse`; every turn takes a message off `rx`. -/
def usbip_parse_loop (env : Env) : Nat → Server → Server
  | 0, s => s
  | n + 1, s =>
    if s.conn = .op ∨ s.conn = .attached then
      let need := usbip_msg_len s.conn s.rx
      if need < 0 then usbip_drop_client s
      else if need = 0 ∨ need > s.rx.length then s
      else
        let msg := s.rx.take need.toNat
        usbip_parse_loop env n
          (usbip_dispatch env { s with rx := s.rx.drop need.toNat } msg)
    else s

def usbip_parse (env : Env) (s : Server) : Server :=
  if s.parsing then
    -- re-entered from a synchronous completion: the outer loop goes on
    s
  else
    let s := usbip_parse_loop env (s.rx.length + 1) { s with parsing := true }
    { s with parsing := false }

def usbip_can_read (s : Server) : Nat :=
  -- back-pressure: not while enumerating, nor while output backs up
  if s.conn = .none ∨ s.conn = .enumerating ∨ s.tx.length > usbip_tx_high_water then 0
  else 64 * 1024

def usbip_read (env : Env) (s : Server) (buf : List UInt8) : Server :=
  usbip_parse env { s with rx := s.rx ++ buf, received := s.received ++ buf }

/-! ## The end of an enumeration -/

def usbip_enum_finish (env : Env) (s : Server) (ok : Bool) : Server :=
  -- anything the client sent meanwhile
  usbip_parse env (usbip_enum_reply s ok)

def usbip_enum_done (env : Env) (s : Server) (u : USBIPURB) : Server :=
  let (s, ok) := usbip_enum_result s u
  let s := usbip_urb_free s u
  if ok then
    let s := { s with enum_step := s.enum_step + 1 }
    if s.enum_step = 4 then usbip_enum_finish env { s with enumerated := true } true
    else usbip_enum_issue env s
  else usbip_enum_finish env s false

/-! ## The USB port -/

/-- An earlier URB on this endpoint stalled: keep this one queued. -/
def usbip_port_remove_from_queue (s : Server) (u : USBIPURB) : Server :=
  let s := usb_cancel_packet { s with inflight := remove s.inflight u.id } u
  let u := { u.set_packet_state .canceled with state := .waiting }
  let k := usbip_urb_key u
  { s.set_waiting k (s.waiting k ++ [u]) with retry_bh := true }

def usbip_port_complete (env : Env) (s : Server) (u : USBIPURB) : Server :=
  if u.packet.status = .remove_from_queue then usbip_port_remove_from_queue s u
  else usbip_urb_complete env { s with inflight := remove s.inflight u.id } u

/-- `usbip_port_wakeup` and `usbip_wakeup_endpoint`. -/
def usbip_port_wakeup (s : Server) : Server := { s with retry_bh := true }

def usbip_server_reset_hold (s : Server) : Server :=
  if s.conn = .none then s else usbip_close_client s

end Usbip
