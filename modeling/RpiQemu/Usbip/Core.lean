import RpiQemu.Usbip.Types

/-! # QEMU's USB core, as the server relies on it

    The core (`hw/usb/core.c`) is not part of the patches.  What the server
    relies on is written down here: endpoints are not pipelined, a packet
    handed over is started on the device if its endpoint's queue is empty and
    queued otherwise (`USB_RET_ASYNC`, state QUEUED), and a cancelled packet
    leaves the queue.  Completions, which call back into the server, are in
    `Usbip.Device`.

    `Env` is the device and the one server function the C program declares
    before its body.  Every function that can reach the device takes an `Env`,
    so that the recursion through the device is tied in one place. -/

namespace Usbip

/-- What a server function may call: the device's packet handler
    (`usb_process_one`) and `usbip_enum_done`. -/
structure Env where
  process_one : Server → Server × Resp
  enum_done : Server → USBIPURB → Server

/-! ## Packets -/

/-- Overwrite the window at `off` with `bytes`. -/
def splice (buf : List UInt8) (off : Nat) (bytes : List UInt8) : List UInt8 :=
  buf.take off ++ bytes ++ buf.drop (off + bytes.length)

/-- Record the device's answer in the packet.  `usb_packet_copy` asserts that a
    device stays inside the packet's buffer, so an answer is cut to it. -/
def USBIPURB.answer (u : USBIPURB) (r : Resp) : USBIPURB :=
  let p := u.packet
  if p.pid_in then
    let bytes := r.data.take p.iov_size
    { u with
      packet := { p with status := r.status, actual_length := bytes.length }
      buf := splice u.buf p.iov_off bytes }
  else
    { u with
      packet := { p with status := r.status, actual_length := min r.actual p.iov_size } }

def USBIPURB.set_packet_state (u : USBIPURB) (st : PacketState) : USBIPURB :=
  { u with packet := { u.packet with state := st } }

/-- `usb_packet_setup` and `usb_packet_addbuf`. -/
def usb_packet_setup (u : USBIPURB) (pid_in short_not_ok : Bool) (off size : Nat) :
    USBIPURB :=
  { u with
    packet :=
      { u.packet with
        state := .setup
        pid_in := pid_in
        ep := usbip_urb_key u
        short_not_ok := short_not_ok
        parameter := []
        iov_off := off
        iov_size := size
        status := .success
        actual_length := 0 } }

/-! ## Handing over and cancelling -/

/-- Submitting a new packet clears its endpoint's halt. -/
def usb_clear_halt (s : Server) (k : Nat) : Server :=
  s.set_ep k { s.eps k with halted := false }

/-- `usb_queue_one`. -/
def usb_queue_one (s : Server) (u : USBIPURB) : Server × USBIPURB :=
  let k := u.packet.ep
  (s.set_ep k { s.eps k with queue := (s.eps k).queue ++ [u.id] },
    { u with packet := { u.packet with state := .queued, status := .async } })

/-- After the device answered a packet started on an empty queue: a packet the
    device holds joins the queue, any other one but a NAKed one is complete. -/
def usb_packet_started (s : Server) (u : USBIPURB) (r : Resp) : Server × USBIPURB :=
  let k := u.packet.ep
  let u := u.answer r
  match r.status with
  | .async =>
    (s.set_ep k { s.eps k with queue := (s.eps k).queue ++ [u.id] },
      u.set_packet_state .async)
  | .nak => (s, u)
  | _ => (s, u.set_packet_state .complete)

/-- `usb_handle_packet`. -/
def usb_handle_packet (env : Env) (s : Server) (u : USBIPURB) : Server × USBIPURB :=
  let s := usb_clear_halt s u.packet.ep
  if (s.eps u.packet.ep).queue.isEmpty then
    let (s, r) := env.process_one (s.note (.start u.id))
    usb_packet_started s u r
  else
    usb_queue_one s u

/-- `usb_cancel_packet`: the packet leaves its endpoint's queue. -/
def usb_cancel_packet (s : Server) (u : USBIPURB) : Server :=
  let k := u.packet.ep
  s.set_ep k { s.eps k with queue := (s.eps k).queue.erase u.id }

/-- `usb_port_set_vbus`. -/
def usb_port_set_vbus (s : Server) (on : Bool) : Server := { s with vbus := on }

end Usbip
