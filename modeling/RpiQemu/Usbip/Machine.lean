import RpiQemu.Usbip.Device
import Mathlib.Logic.Relation

/-! # The server as a stack machine

    Completions re-enter the server, so a state in the middle of a function is
    a server state together with the calls in progress.  `Tok` names what such
    a call holds (an URB on no list, a loop that goes on, a message being
    dispatched), a configuration is a stack of them over a server state, and
    `Step` says once what each piece of code between two calls can do.

    `Usbip.Refine` shows that every event is a sequence of these steps; every
    invariant is then proved step by step. -/

namespace Usbip

open Bytes

/-! ## Configurations -/

/-- A call in progress.  The `Bool` of `hand`, `run`, `iso` and `held` tells a
    call from `usbip_urb_submit` (true) from one of `usbip_retry` (false). -/
inductive Tok where
  /-- `usbip_dispatch` of a message. -/
  | msg (d : List UInt8)
  /-- `usbip_urb_submit` of an URB. -/
  | fresh (u : USBIPURB)
  /-- `usbip_urb_try` of an URB on no list. -/
  | hand (sub : Bool) (u : USBIPURB)
  /-- The device processes the URB's packet. -/
  | run (sub : Bool) (u : USBIPURB)
  /-- `usbip_urb_iso` after its packet, if one was due. -/
  | iso (sub : Bool) (u : USBIPURB)
  /-- `usbip_urb_try` returned false. -/
  | held (sub : Bool) (u : USBIPURB)
  /-- `usbip_urb_complete` of an URB. -/
  | done (u : USBIPURB)
  /-- The loop of `usb_packet_complete` on an endpoint. -/
  | loop (k : Nat)
  /-- The device processes the packet at the head of a queue. -/
  | runq (u : USBIPURB)
  /-- The `while` loop of `usbip_retry` for a key. -/
  | retry (k : Nat)
  /-- `usbip_parse` is called. -/
  | fin
  /-- The loop of `usbip_parse`. -/
  | parse
  /-- The port reset of `usbip_enumerate`. -/
  | reset
  /-- `usbip_enum_issue` is called. -/
  | issue

abbrev Cfg := List Tok × Server

/-- The device has control: between events, or inside one of its handlers. -/
def dev : List Tok → Prop
  | [] => True
  | .run _ _ :: _ => True
  | .runq _ :: _ => True
  | .reset :: _ => True
  | _ => False

/-- The same URB, whatever happened to its packet and ISO descriptors. -/
structure Same (u v : USBIPURB) : Prop where
  id : v.id = u.id
  seqnum : v.seqnum = u.seqnum
  epnum : v.epnum = u.epnum
  in_ : v.in_ = u.in_
  internal : v.internal = u.internal
  np : v.number_of_packets = u.number_of_packets
  len : v.len = u.len
  state : v.state = u.state

/-- The device's answer to the packet is recorded in the URB. -/
def Replied (u v : USBIPURB) : Prop := ∃ r st, v = (u.answer r).set_packet_state st

/-- A status that ends a packet. -/
def UsbRet.final (st : UsbRet) : Prop := st ≠ .async ∧ st ≠ .nak

/-- Off the inflight list. -/
def Server.take_off (s : Server) (id : Nat) : Server :=
  { s with inflight := remove s.inflight id }

/-- A packet that entered a queue and was cancelled at once. -/
def bounce (s : Server) (u : USBIPURB) : Server :=
  s.set_ep (usbip_urb_key u)
    { s.eps (usbip_urb_key u) with
      queue := ((s.eps (usbip_urb_key u)).queue ++ [u.id]).erase u.id }

/-- The message at the head of `rx` is complete. -/
def ready (s : Server) : Prop :=
  (s.conn = .op ∨ s.conn = .attached) ∧ 0 < usbip_msg_len s.conn s.rx ∧
    usbip_msg_len s.conn s.rx ≤ s.rx.length

/-- The head of `rx` is malformed. -/
def malformed (s : Server) : Prop :=
  (s.conn = .op ∨ s.conn = .attached) ∧ usbip_msg_len s.conn s.rx < 0

/-- The message at the head of `rx`. -/
def Server.message (s : Server) : List UInt8 := s.rx.take (usbip_msg_len s.conn s.rx).toNat

/-- `rx` without the message at its head. -/
def Server.rest (s : Server) : Server :=
  { s with rx := s.rx.drop (usbip_msg_len s.conn s.rx).toNat }

/-- The message is about to be dispatched. -/
def Server.note_msg (s : Server) (d : List UInt8) : Server :=
  s.note (.msg s.conn d s.nurbs s.urb_bytes s.present)

/-! ## Steps -/

inductive Step : Cfg → Cfg → Prop where
  -- the device
  | act {H} (s : Server) (script : List DevAct) : dev H →
      Step (H, s) (H, { s with script := script })
  | wakeup {H} (s : Server) : dev H → Step (H, s) (H, usbip_port_wakeup s)
  | set_type {H} (s : Server) (k : Nat) (isoc : Bool) : dev H →
      Step (H, s) (H, s.set_ep k { s.eps k with isoc := isoc })
  -- completions
  | complete {H} (s : Server) (k : Nat) (u : USBIPURB) (r : Resp) : dev H →
      s.head k = some u → u.packet.state = .async → r.status.final →
      Step (H, s) (.done (usb_packet_done s u r).2 :: .loop k :: H,
        (usb_packet_done s u r).1.take_off u.id)
  | loop_none {H} (s : Server) (k : Nat) : s.head k = none →
      Step (.loop k :: H, s) (H, s)
  | loop_async {H} (s : Server) (k : Nat) (u : USBIPURB) : s.head k = some u →
      u.packet.state = .async → Step (.loop k :: H, s) (H, s)
  | loop_flush {H} (s : Server) (k : Nat) : (s.eps k).halted = true →
      Step (.loop k :: H, s) (H, usb_ep_flush hold_env (s.note_halt k) k)
  | loop_start {H} (s : Server) (k : Nat) (u : USBIPURB) : s.head k = some u →
      (s.eps k).halted = false → u.packet.state ≠ .async →
      Step (.loop k :: H, s) (.runq u :: .loop k :: H, s.note (.start u.id))
  | runq_hold {H} (s : Server) (k : Nat) (u : USBIPURB) :
      Step (.runq u :: .loop k :: H, s) (H, usb_packet_hold s u)
  | runq_done {H} (s : Server) (u : USBIPURB) (r : Resp) : r.status.final →
      Step (.runq u :: H, s) (.done (usb_packet_done s u r).2 :: H,
        (usb_packet_done s u r).1.take_off u.id)
  | answer {H} (s : Server) (u : USBIPURB) : u.internal = false →
      Step (.done u :: H, s) (H, usbip_urb_free (usbip_send_ret_submit s u) u)
  -- enumeration
  | lost {H} (s : Server) (u : USBIPURB) : u.internal = true → u.number_of_packets ≠ 0 →
      Step (.done u :: H, s) (H, s)
  | enum_next {H} (s : Server) (u : USBIPURB) : u.internal = true →
      (usbip_enum_result s u).2 = true → s.enum_step + 1 ≠ 4 →
      Step (.done u :: H, s)
        (.issue :: H, { (usbip_enum_result s u).1 with enum_step := s.enum_step + 1 })
  | enum_end {H} (s : Server) (u : USBIPURB) : u.internal = true →
      (usbip_enum_result s u).2 = true → s.enum_step + 1 = 4 →
      Step (.done u :: H, s)
        (.fin :: H, usbip_enum_reply
          { (usbip_enum_result s u).1 with enum_step := 4, enumerated := true } true)
  | enum_fail {H} (s : Server) (u : USBIPURB) : u.internal = true →
      (usbip_enum_result s u).2 = false →
      Step (.done u :: H, s) (.fin :: H, usbip_enum_reply (usbip_enum_result s u).1 false)
  | issue {H} (s : Server) :
      Step (.issue :: H, s) (.fresh (usbip_enum_urb s).2 :: H, (usbip_enum_urb s).1)
  -- handing over
  | behind {H} (s : Server) (u : USBIPURB) : s.waiting (usbip_urb_key u) ≠ [] →
      Step (.fresh u :: H, s) (H, usbip_urb_wait s u)
  | try_fresh {H} (s : Server) (u : USBIPURB) : s.waiting (usbip_urb_key u) = [] →
      Step (.fresh u :: H, s) (.hand true u :: H, s)
  | iso_stall {H} (s : Server) (b : Bool) (u : USBIPURB) : u.number_of_packets ≠ 0 →
      Step (.hand b u :: H, s) (.done u.stalled :: H, s)
  | iso_skip {H} (s : Server) (b : Bool) (u v : USBIPURB) : u.number_of_packets ≠ 0 →
      Same u v → Step (.hand b u :: H, s) (.iso b v :: H, s)
  | iso_queued {H} (s : Server) (b : Bool) (u v : USBIPURB) (due : Nat → Int) :
      u.number_of_packets ≠ 0 → Same u v → (s.eps (usbip_urb_key u)).queue ≠ [] →
      Step (.hand b u :: H, s) (.iso b v :: H,
        bounce (usb_clear_halt { s with iso_next_due := due } (usbip_urb_key u)) u)
  | iso_start {H} (s : Server) (b : Bool) (u v : USBIPURB) (due : Nat → Int) :
      u.number_of_packets ≠ 0 → Same u v → v.packet.ep = usbip_urb_key v →
      (s.eps (usbip_urb_key u)).queue = [] →
      Step (.hand b u :: H, s) (.run b v :: H,
        (usb_clear_halt { s with iso_next_due := due } (usbip_urb_key u)).note (.start u.id))
  | iso_back {H} (s : Server) (b : Bool) (u v : USBIPURB) : u.number_of_packets ≠ 0 →
      Same u v → Step (.run b u :: H, s) (.iso b v :: H, s)
  | iso_bounce {H} (s : Server) (b : Bool) (u v : USBIPURB) : u.number_of_packets ≠ 0 →
      Same u v → Step (.run b u :: H, s) (.iso b v :: H, bounce s u)
  | iso_more {H} (s : Server) (b : Bool) (u : USBIPURB) (t : Int) : t ≤ u.iso_due →
      Step (.iso b u :: H, s) (.held b u :: H, { s with iso_timer := some t })
  | iso_end {H} (s : Server) (b : Bool) (u : USBIPURB) :
      Step (.iso b u :: H, s) (.done u :: H, s)
  | enqueue {H} (s : Server) (b : Bool) (u : USBIPURB) : u.number_of_packets = 0 →
      (s.eps (usbip_urb_key u)).queue ≠ [] →
      Step (.hand b u :: H, s) (H,
        let q := usb_queue_one (usb_clear_halt s (usbip_urb_key u)) (usbip_urb_packet u)
        usbip_urb_inflight q.1 q.2)
  | start {H} (s : Server) (b : Bool) (u : USBIPURB) : u.number_of_packets = 0 →
      (s.eps (usbip_urb_key u)).queue = [] →
      Step (.hand b u :: H, s) (.run b (usbip_urb_packet u) :: H,
        (usb_clear_halt s (usbip_urb_key u)).note (.start u.id))
  | run_async {H} (s : Server) (b : Bool) (u : USBIPURB) (r : Resp) :
      u.number_of_packets = 0 → r.status = .async →
      Step (.run b u :: H, s) (H,
        let q := usb_packet_started s u r
        usbip_urb_inflight q.1 q.2)
  | run_nak {H} (s : Server) (b : Bool) (u v : USBIPURB) : u.number_of_packets = 0 →
      Same u v → Replied u v → Step (.run b u :: H, s) (.held b v :: H, s)
  | run_done {H} (s : Server) (b : Bool) (u v : USBIPURB) : u.number_of_packets = 0 →
      Same u v → Replied u v → Step (.run b u :: H, s) (.done v :: H, s)
  | held_tail {H} (s : Server) (u : USBIPURB) :
      Step (.held true u :: H, s) (H, usbip_urb_wait s u)
  -- retrying
  | take {H} (s : Server) (k : Nat) (u : USBIPURB) (rest : List USBIPURB) :
      k < usbip_num_keys → s.waiting k = u :: rest →
      Step (.retry k :: H, s) (.hand false u :: .retry k :: H, s.set_waiting k rest)
  | held_head {H} (s : Server) (k : Nat) (u : USBIPURB) :
      Step (.held false u :: .retry k :: H, s)
        (.retry (k + 1) :: H, s.set_waiting k (u :: s.waiting k))
  | retry_next {H} (s : Server) (k : Nat) : s.waiting k = [] →
      Step (.retry k :: H, s) (.retry (k + 1) :: H, s)
  | retry_end {H} (s : Server) : (∀ k < usbip_num_keys, s.waiting k = []) →
      Step (.retry usbip_num_keys :: H, s) (H, s)
  | retry_arm {H} (s : Server) :
      Step (.retry usbip_num_keys :: H, s) (H, usbip_arm_retry s)
  -- input
  | parse_skip {H} (s : Server) : s.parsing = true → Step (.fin :: H, s) (H, s)
  | parse_begin {H} (s : Server) : s.parsing = false →
      Step (.fin :: H, s) (.parse :: H, { s with parsing := true })
  | parse_drop {H} (s : Server) : malformed s →
      Step (.parse :: H, s) (.parse :: H, usbip_drop_client s)
  | parse_msg {H} (s : Server) : ready s →
      Step (.parse :: H, s) (.msg s.message :: .parse :: H, s.rest.note_msg s.message)
  | parse_end {H} (s : Server) : ¬ ready s → ¬ malformed s →
      Step (.parse :: H, s) (H, { s with parsing := false })
  | op_devlist {H} (s : Server) (d : List UInt8) : s.conn = .op →
      be16At d 2 = usbip_op_req_devlist → s.present = false →
      Step (.msg d :: H, s) (H, usbip_reply_devlist s)
  | op_import {H} (s : Server) (d : List UInt8) : s.conn = .op →
      be16At d 2 ≠ usbip_op_req_devlist → ¬ (s.present = true ∧ op_busid d = usbip_busid) →
      Step (.msg d :: H, s) (H, usbip_reply_import s false)
  | op_enum {H} (s : Server) (d : List UInt8) (op : Nat) : s.conn = .op →
      s.present = true → op = be16At d 2 →
      (op = usbip_op_req_devlist ∨ op = usbip_op_req_import ∧ op_busid d = usbip_busid) →
      Step (.msg d :: H, s) (.reset :: H, usbip_enum_begin s op)
  | reset_done {H} (s : Server) :
      Step (.reset :: H, s) (.issue :: H, { s with port_resetting := false })
  | reject {H} (s : Server) (d : List UInt8) : s.conn = .attached →
      be32At d 0 = usbip_cmd_submit → (submit_accept s d).2 = none →
      Step (.msg d :: H, s) (H, (submit_accept s d).1)
  | accept {H} (s : Server) (d : List UInt8) (u : USBIPURB) : s.conn = .attached →
      be32At d 0 = usbip_cmd_submit → be32At d 0x10 ≤ 15 → (submit_accept s d).2 = some u →
      Step (.msg d :: H, s) (.fresh u :: H, (submit_accept s d).1)
  | unlink {H} (s : Server) (d : List UInt8) : s.conn = .attached →
      be32At d 0 ≠ usbip_cmd_submit →
      Step (.msg d :: H, s) (H, usbip_handle_unlink s (be32At d 0x04) (be32At d 0x14))

/-- Any number of steps. -/
abbrev Steps := Relation.ReflTransGen Step

/-- An event arrives: what it does at once, and the calls it starts. -/
inductive Arrive : Server → Cfg → Prop where
  | input (s : Server) (script : List DevAct) (cw : List Nat) :
      Arrive s ([], { s with script := script, chr_write := cw })
  | read (s : Server) (buf : List UInt8) : s.conn = .op ∨ s.conn = .attached →
      Arrive s ([.fin], { s with rx := s.rx ++ buf, received := s.received ++ buf })
  | fire_retry (s : Server) : Arrive s ([.retry 0], { s with retry_timer := none })
  | fire_iso (s : Server) : Arrive s ([.retry 0], { s with iso_timer := none })
  | fire_bh (s : Server) : Arrive s ([.retry 0], { s with retry_bh := false })
  | chr (s : Server) (e : ChrEvent) : Arrive s ([], usbip_event s e)
  | tx_ready (s : Server) : Arrive s ([], usbip_tx_ready s)
  | detach (s : Server) : Arrive s ([], { usbip_port_detach s with present := false })
  | attach (s : Server) (speed : Speed) : s.present = false →
      Arrive s ([], { s with present := true, speed := speed })
  | system_reset (s : Server) : Arrive s ([], usbip_server_reset_hold s)
  | tick (s : Server) (ns : Nat) : Arrive s ([], { s with now := s.now + ns })

end Usbip
