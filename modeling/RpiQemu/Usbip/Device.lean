import RpiQemu.Usbip.Server

/-! # The device, the core's completions, and runs of the server

    The device is an arbitrary list of actions for each event.  While it has
    control it may complete packets it holds on other endpoints, and each such
    completion calls back into the server (`usbip_port_complete`) before the
    device goes on: this is how completions re-enter the server.

    The recursion device → core → server → device is tied by a budget.  A
    device with no actions or budget left holds every packet it is given
    (`USB_RET_ASYNC`), which is an answer like any other, so each budget and
    each list of actions describe one possible device, and every finite
    behaviour is described by some of them.

    A run is a list of inputs: chardev events, completions, wakeups, timers,
    the bottom half, plug and unplug, system reset, the clock. -/

namespace Usbip

/-! ## Completions -/

/-- The packet is complete: an unsuccessful or short one halts its endpoint, and
    it leaves the queue. -/
def usb_packet_done (s : Server) (u : USBIPURB) (r : Resp) : Server × USBIPURB :=
  let k := u.packet.ep
  let u := (u.answer r).set_packet_state .complete
  let halt := decide (u.packet.status ≠ .success) ||
    (u.packet.short_not_ok && decide (u.packet.actual_length < u.packet.iov_size))
  let e := s.eps k
  (s.set_ep k { e with halted := e.halted || halt, queue := e.queue.erase u.id }, u)

/-- `usb_packet_complete_one`. -/
def usb_packet_complete_one (env : Env) (s : Server) (u : USBIPURB) (r : Resp) : Server :=
  let (s, u) := usb_packet_done s u r
  usbip_port_complete env s u

/-- The core hands one packet back to the server. -/
def usb_ep_flush_one (env : Env) (s : Server) (id : Nat) : Server :=
  match s.inflight.find? (·.id == id) with
  | none => s
  | some u =>
    usbip_port_complete env s { u with packet := { u.packet with status := .remove_from_queue } }

/-- Halted: the core hands every packet left in the queue back to the server. -/
def usb_ep_flush (env : Env) (s : Server) (k : Nat) : Server :=
  (s.eps k).queue.foldl (usb_ep_flush_one env) s

def Server.note_halt (s : Server) (k : Nat) : Server :=
  s.note (.halt k (decide (s.waiting k ≠ [])))

/-- The packet at the head of an endpoint's queue. -/
def Server.head (s : Server) (k : Nat) : Option USBIPURB :=
  match (s.eps k).queue with
  | [] => none
  | id :: _ => s.inflight.find? (·.id == id)

/-- The device took the queued packet: its state becomes ASYNC. -/
def usb_packet_hold (s : Server) (u : USBIPURB) : Server :=
  { s with inflight := s.inflight.map fun v =>
      if v.id = u.id then v.set_packet_state .async else v }

/-- The loop of `usb_packet_complete`, with `again` for its next turn.  The core
    asserts that a packet started from the queue is not NAKed, so a NAK counts
    as holding it. -/
def usb_packet_complete_turn (env : Env) (again : Server → Nat → Server)
    (s : Server) (k : Nat) : Server :=
  match s.head k with
  | none => s
  | some u =>
    if (s.eps k).halted then usb_ep_flush env (s.note_halt k) k
    else if u.packet.state = .async then s
    else
      let (s, r) := env.process_one (s.note (.start u.id))
      if r.status = .async ∨ r.status = .nak then usb_packet_hold s u
      else again (usb_packet_complete_one env s u r) k

/-- `usb_packet_complete` on the packet the device holds on endpoint `k`.  The
    core asserts that it is in state ASYNC and its status final. -/
def usb_packet_complete (env : Env) (again : Server → Nat → Server)
    (s : Server) (k : Nat) (r : Resp) : Server :=
  match s.head k with
  | none => s
  | some u =>
    if u.packet.state = .async ∧ r.status ≠ .async ∧ r.status ≠ .nak then
      again (usb_packet_complete_one env s u r) k
    else s

/-! ## Retrying -/

/-- One turn of the `while` loop of `usbip_retry` for `key`, with `again` for
    its next turn. -/
def usbip_retry_turn (env : Env) (again : Server → Nat → Server)
    (s : Server) (key : Nat) : Server :=
  match s.waiting key with
  | [] => s
  | u :: rest =>
    match usbip_urb_try env (s.set_waiting key rest) u with
    | (s, none) => again s key
    | (s, some u) => s.set_waiting key (u :: s.waiting key)

/-- `usbip_retry`, given its `while` loop. -/
def usbip_retry (loop : Server → Nat → Server) (s : Server) : Server :=
  let s := (List.range usbip_num_keys).foldl loop s
  if (List.range usbip_num_keys).all (fun key => (s.waiting key).isEmpty) then s
  else usbip_arm_retry s

/-! ## The budget -/

/-- An environment together with the loops that go through it. -/
structure Loops extends Env where
  complete_loop : Server → Nat → Server
  retry_loop : Server → Nat → Server

/-- A device that holds every packet it is given.  The packet of an enumeration
    request then never completes at once, so `enum_done` is not reached. -/
def hold_env : Env where
  process_one s := (s, .hold)
  enum_done s _ := s

/-- The `while` loop of `usbip_retry` when the device holds every packet. -/
def retry_hold : Nat → Server → Nat → Server
  | 0, s, _ => s
  | n + 1, s, key => usbip_retry_turn hold_env (retry_hold n) s key

/-- The device's handler: follow the script until it returns. -/
def usb_process_one (lower : Loops) (s : Server) : Server × Resp :=
  match s.script with
  | [] => (s, .hold)
  | .ret r :: rest => ({ s with script := rest }, r)
  | .complete k r :: rest =>
    lower.process_one
      (usb_packet_complete lower.toEnv lower.complete_loop { s with script := rest } k r)
  | .wakeup :: rest => lower.process_one (usbip_port_wakeup { s with script := rest })
  | .set_type k isoc :: rest =>
    let s := { s with script := rest }
    lower.process_one (s.set_ep k { s.eps k with isoc := isoc })

/-- The device and the loops with a budget of `n` actions. -/
def loops : Nat → Loops
  | 0 =>
    { process_one := hold_env.process_one
      enum_done := usbip_enum_done hold_env
      complete_loop := usb_packet_complete_turn hold_env (fun s _ => s)
      retry_loop := fun s key => retry_hold (s.waiting key).length s key }
  | n + 1 =>
    { process_one := usb_process_one (loops n)
      enum_done := usbip_enum_done (loops n).toEnv
      complete_loop := usb_packet_complete_turn (loops n).toEnv (loops n).complete_loop
      retry_loop := usbip_retry_turn (loops n).toEnv (loops n).retry_loop }

/-! ## Runs -/

inductive Event where
  | chr (event : ChrEvent)
  | read (buf : List UInt8)
  | tx_ready
  | complete (k : Nat) (r : Resp)
  | wakeup
  | set_type (k : Nat) (isoc : Bool)
  | retry_timer
  | iso_timer
  | retry_bh
  | detach
  | attach (speed : Speed)
  | reset
  | tick (ns : Nat)

/-- An event, with the device's budget and actions and the chardev's answers
    while the server handles it. -/
structure Input where
  event : Event
  budget : Nat := 0
  script : List DevAct := []
  chr_write : List Nat := []

/-- The timer is pending and has expired. -/
def expired (t : Option Int) (now : Int) : Bool :=
  match t with
  | none => false
  | some t => decide (t ≤ now)

/-- Handle one event.  An event that cannot happen in this state (a read the
    server did not ask for, a timer that is not due, a completion from a device
    that is gone) changes nothing. -/
def handle (s : Server) (budget : Nat) (event : Event) : Server :=
  let env := loops budget
  match event with
  | .chr e => usbip_event s e
  | .read buf =>
    if 0 < buf.length ∧ buf.length ≤ usbip_can_read s then usbip_read env.toEnv s buf else s
  | .tx_ready => if s.watch then usbip_tx_ready s else s
  | .complete k r =>
    if s.present then usb_packet_complete env.toEnv env.complete_loop s k r else s
  | .wakeup => usbip_port_wakeup s
  | .set_type k isoc => s.set_ep k { s.eps k with isoc := isoc }
  | .retry_timer =>
    if expired s.retry_timer s.now then
      usbip_retry env.retry_loop { s with retry_timer := none }
    else s
  | .iso_timer =>
    if expired s.iso_timer s.now then
      usbip_retry env.retry_loop { s with iso_timer := none }
    else s
  | .retry_bh =>
    if s.retry_bh then usbip_retry env.retry_loop { s with retry_bh := false } else s
  | .detach => if s.present then { usbip_port_detach s with present := false } else s
  | .attach speed => if s.present then s else { s with present := true, speed := speed }
  | .reset => usbip_server_reset_hold s
  | .tick ns => { s with now := s.now + ns }

def step (s : Server) (i : Input) : Server :=
  handle { s with script := i.script, chr_write := i.chr_write } i.budget i.event

/-- The server after a list of inputs. -/
def run (s : Server) (is : List Input) : Server := is.foldl step s

/-- The states at the event boundaries of a server. -/
def Reachable (s : Server) : Prop := ∃ c is, s = run (Server.init c) is

end Usbip
