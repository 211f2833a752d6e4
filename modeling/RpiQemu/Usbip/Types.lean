import RpiQemu.Framework.Bytes
import Mathlib.Logic.Function.Basic

/-! # The USB/IP server: data model

    `hw/usb/usbip-server.c` as the patches 0037 (the server), 0038 (VBUS) and
    0040 (isochronous pacing) leave it.  The server owns a one-port USB bus
    and exports the device on it over a chardev: a client lists or imports the
    device, then submits URBs, which become packets on the device's endpoints.

    Endpoints are named by their key (`usbip_urb_key`): 0 is EP0, 1..15 the OUT
    and 17..31 the IN endpoints.  URBs carry an identity `id` (their address in
    the C program), handed out in allocation order.

    QEMU's USB core and the exported device are the environment.  `Ep` is what
    the core keeps for an endpoint; the device is an arbitrary list of actions
    (`DevAct`) for each event the server handles. -/

namespace Usbip

open Bytes

/-! ## Constants -/

def usbip_version : Nat := 0x0111
def usbip_op_req_devlist : Nat := 0x8005
def usbip_op_rep_devlist : Nat := 0x0005
def usbip_op_req_import : Nat := 0x8003
def usbip_op_rep_import : Nat := 0x0003
def usbip_cmd_submit : Nat := 1
def usbip_cmd_unlink : Nat := 2
def usbip_ret_submit : Nat := 3
def usbip_ret_unlink : Nat := 4
def usbip_dir_out : Nat := 0
def usbip_dir_in : Nat := 1

def usbip_op_hdr_len : Nat := 8
def usbip_busid_len : Nat := 32
def usbip_hdr_len : Nat := 0x30
def usbip_iso_desc_len : Nat := 16
def usbip_max_xfer : Nat := 16 * 1024 * 1024
def usbip_max_iso_packets : Nat := 1024

def usbip_max_urbs : Nat := 1024
def usbip_max_urb_bytes : Nat := 64 * 1024 * 1024
def usbip_tx_high_water : Nat := 1024 * 1024

def usbip_enodev : Int := 19
def usbip_epipe : Int := 32
def usbip_eproto : Int := 71
def usbip_eoverflow : Int := 75
def usbip_econnreset : Int := 104
def usbip_eremoteio : Int := 121

/-- Per-endpoint URB queues: key 0 is EP0, 1..15 OUT, 17..31 IN. -/
def usbip_num_keys : Nat := 32

/-- One millisecond of the virtual clock, in nanoseconds. -/
def scale_ms : Int := 1000000

/-- One microsecond of the virtual clock, in nanoseconds. -/
def scale_us : Int := 1000

/-! ## Packets -/

/-- The packet statuses of `hw/usb/usb.h`. -/
inductive UsbRet where
  | success
  | nodev
  | nak
  | stall
  | babble
  | ioerror
  | async
  | remove_from_queue
  deriving DecidableEq, Repr

/-- The packet states of `hw/usb/usb.h`. -/
inductive PacketState where
  | undefined
  | setup
  | queued
  | async
  | complete
  | canceled
  deriving DecidableEq, Repr

/-- A USB packet; its buffer is the window `iov_off`, `iov_size` of its URB's
    buffer (`usb_packet_addbuf`). -/
structure USBPacket where
  state : PacketState := .undefined
  pid_in : Bool := false
  ep : Nat := 0
  short_not_ok : Bool := false
  parameter : List UInt8 := []
  iov_off : Nat := 0
  iov_size : Nat := 0
  status : UsbRet := .success
  actual_length : Nat := 0
  deriving DecidableEq, Repr

/-! ## URBs -/

structure USBIPIsoDesc where
  offset : Nat
  length : Nat
  actual_length : Nat := 0
  status : Int := 0
  deriving DecidableEq, Repr

inductive USBIPURBState where
  /-- NAKed, or queued behind a NAKed URB. -/
  | waiting
  /-- The device holds it (`USB_RET_ASYNC`). -/
  | inflight
  deriving DecidableEq, Repr

structure USBIPURB where
  id : Nat
  packet : USBPacket := {}
  seqnum : Nat
  epnum : Nat := 0
  in_ : Bool := false
  /-- The server's own enumeration request. -/
  internal : Bool := false
  state : USBIPURBState := .waiting
  flags : Nat := 0
  start_frame : Int := 0
  /-- At least 1 for isochronous URBs, else 0. -/
  number_of_packets : Nat := 0
  interval : Int := 0
  iso_next : Nat := 0
  iso_due : Int := 0
  setup : List UInt8 := []
  buf : List UInt8 := []
  len : Nat
  iso : List USBIPIsoDesc := []
  deriving DecidableEq, Repr

/-- EP0 is one queue in both directions, like QEMU's `ep_ctl`. -/
def usbip_urb_key (u : USBIPURB) : Nat :=
  if u.epnum = 0 then 0 else u.epnum + (if u.in_ then 16 else 0)

/-! ## The environment -/

theorem success_of_device : UsbRet.success ≠ .remove_from_queue := by decide

/-- A device's answer to a packet: a status, the length it accepted (OUT) and
    the bytes it sent (IN).  `USB_RET_REMOVE_FROM_QUEUE` is the core's own
    status, never a device's. -/
structure Resp where
  status : UsbRet
  actual : Nat := 0
  data : List UInt8 := []
  of_device : status ≠ .remove_from_queue := by first | exact success_of_device | decide

/-- The device keeps the packet for later. -/
def Resp.hold : Resp := { status := .async }

/-- What the device does while it has control: complete a packet it holds on
    an endpoint, signal a wakeup, change an endpoint's type (a SET_INTERFACE),
    or return from the handler with its answer. -/
inductive DevAct where
  | complete (k : Nat) (r : Resp)
  | wakeup
  | set_type (k : Nat) (isoc : Bool)
  | ret (r : Resp)

/-- The core's view of an endpoint: its packet queue (by URB identity), the
    halted flag and whether its type is `USB_ENDPOINT_XFER_ISOC`. -/
structure Ep where
  queue : List Nat := []
  halted : Bool := false
  isoc : Bool := false

inductive Speed where
  | low
  | full
  | high
  deriving DecidableEq, Repr

/-! ## The server -/

inductive USBIPConn where
  /-- No client. -/
  | none
  /-- Connected, expecting `OP_REQ_*`. -/
  | op
  /-- Enumerating the device to answer an operation. -/
  | enumerating
  /-- Imported: URB traffic. -/
  | attached
  deriving DecidableEq, Repr

/-- What happened on the current connection, in order: the server's trace
    points (messages, operations, submits, replies) and the packets the core
    started on the device. -/
inductive Ev where
  | msg (conn : USBIPConn) (d : List UInt8) (nurbs urb_bytes : Nat) (present : Bool)
  | submit (id seqnum key : Nat)
  | start (id : Nat)
  /-- A halted endpoint's packets are handed back; `waits` if URBs of the
      endpoint were waiting already. -/
  | halt (key : Nat) (waits : Bool)
  | ret_submit (id seqnum : Nat)
  | ret_unlink (seqnum victim : Nat) (status : Int) (id : Option Nat)
  | enum_finish (op : Nat) (ok : Bool)
  /-- The warning of `usbip_drop_client`. -/
  | drop
  | reset
  deriving DecidableEq, Repr

/-- `USBIPServerState`, the port and the core's endpoints, and the environment
    of the event being handled (`now`, `script`, `chr_write`). -/
structure Server where
  conn : USBIPConn := .none
  parsing : Bool := false
  rx : List UInt8 := []
  tx : List UInt8 := []
  watch : Bool := false
  inflight : List USBIPURB := []
  waiting : Nat → List USBIPURB := fun _ => []
  retry_timer : Option Int := none
  iso_timer : Option Int := none
  iso_next_due : Nat → Int := fun _ => 0
  retry_bh : Bool := false
  port_resetting : Bool := false
  nurbs : Nat := 0
  urb_bytes : Nat := 0
  enum_op : Nat := 0
  enum_step : Nat := 0
  enumerated : Bool := false
  dev_desc : List UInt8 := List.replicate 18 0
  cfg_desc : List UInt8 := []
  cfg_len : Nat := 0
  /-- `port.dev && port.dev->attached`. -/
  present : Bool := false
  speed : Speed := .full
  /-- `!port.vbus_off`. -/
  vbus : Bool := false
  eps : Nat → Ep := fun _ => {}
  now : Int := 0
  script : List DevAct := []
  /-- How many bytes each further chardev write accepts. -/
  chr_write : List Nat := []
  /-- Whether the chardev reports its own disconnect as `CHR_EVENT_CLOSED`. -/
  chr_closes : Bool := true
  next_id : Nat := 0
  log : List Ev := []
  /-- Every byte handed to `usbip_send` on the current connection. -/
  out : List UInt8 := []
  /-- Every byte handed to `usbip_read` on the current connection. -/
  received : List UInt8 := []

/-- The server after `usbip_server_realize`. -/
def Server.init (chr_closes : Bool) : Server := { chr_closes := chr_closes }

def Server.note (s : Server) (e : Ev) : Server := { s with log := s.log ++ [e] }

/-- `QTAILQ_REMOVE`: take the URB with this identity off a list. -/
def remove (l : List USBIPURB) (id : Nat) : List USBIPURB := l.eraseP (·.id == id)

def Server.set_waiting (s : Server) (k : Nat) (l : List USBIPURB) : Server :=
  { s with waiting := Function.update s.waiting k l }

def Server.set_ep (s : Server) (k : Nat) (e : Ep) : Server :=
  { s with eps := Function.update s.eps k e }

end Usbip
