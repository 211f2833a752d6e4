import RpiQemu.Dwc2.Endpoint
import RpiQemu.Usbip.Types

/-! # The DWC2 gadget

    The USB device of `hw/usb/dwc2-gadget.c`: what the guest does with the
    device registers, presented to a host.

    A completed packet goes back to the USB core, and through it to a host that
    may act from inside the call: submit the next packet, cancel one, reset the
    bus.  The functions that complete packets take the core's function as their
    argument `complete`; `usb_packet_complete` ties the knot, with a host that
    acts as the state's `script` tells, to any depth. -/

namespace Dwc2

open Register
open Usbip (UsbRet)

/-! ## Registers -/

def DCFG_DEVSPD : Field := ⟨0, 2⟩
def DCFG_DEVSPD_HS : Nat := 0

def DSTS_SUSPSTS : Field := ⟨0, 1⟩
def DSTS_ENUMSPD : Field := ⟨1, 2⟩
def DSTS_ENUMSPD_HS : Nat := 0
def DSTS_ENUMSPD_FS : Nat := 1

def GUSBCFG_FORCEHOSTMODE : Field := ⟨29, 1⟩
def GUSBCFG_FORCEDEVMODE : Field := ⟨30, 1⟩

def GOTGCTL_CONID_B : Field := ⟨16, 1⟩
def GOTGCTL_ASESVLD : Field := ⟨18, 1⟩
def GOTGCTL_BSESVLD : Field := ⟨19, 1⟩

def GOTGINT_SES_END_DET : Field := ⟨2, 1⟩

def GINTSTS_OTGINT : Field := ⟨2, 1⟩
def GINTSTS_GINNAKEFF : Field := ⟨6, 1⟩
def GINTSTS_GOUTNAKEFF : Field := ⟨7, 1⟩
def GINTSTS_USBRST : Field := ⟨12, 1⟩
def GINTSTS_ENUMDONE : Field := ⟨13, 1⟩
def GINTSTS_IEPINT : Field := ⟨18, 1⟩
def GINTSTS_OEPINT : Field := ⟨19, 1⟩
def GINTSTS_CONIDSTSCHNG : Field := ⟨28, 1⟩
def GINTSTS_SESSREQINT : Field := ⟨30, 1⟩
def GINTSTS_WKUPINT : Field := ⟨31, 1⟩

def dwc2_set_gintsts (s : DWC2State) (bits : Field) (val : Bool) : DWC2State :=
  { s with gintsts := if val then raise bits s.gintsts else clear bits s.gintsts }

/-! ## State -/

/-- A packet of the host: `iov` is its buffer. -/
structure USBPacket where
  id : Nat
  nr : Nat := 0
  in_ : Bool := false
  iov : List UInt8 := []
  actual_length : Nat := 0
  status : UsbRet := .success
  deriving DecidableEq, Repr

/-- Copy `bytes` into the buffer, past what it holds. -/
def usb_packet_copy (p : USBPacket) (bytes : List UInt8) : USBPacket :=
  { p with
    iov := p.iov.take p.actual_length ++ bytes ++ p.iov.drop (p.actual_length + bytes.length)
    actual_length := p.actual_length + bytes.length }

inductive DWC2CtrlPhase where
  | DWC2_CTRL_IDLE
  /-- SETUP waiting for EP0 OUT to be armed. -/
  | DWC2_CTRL_SETUP
  | DWC2_CTRL_DATA_IN
  | DWC2_CTRL_DATA_OUT
  | DWC2_CTRL_STATUS_IN
  | DWC2_CTRL_STATUS_OUT
  deriving DecidableEq, Repr

open DWC2CtrlPhase

/-- What the host does on a device. -/
inductive HostAct where
  | control (p : USBPacket) (setup data : List UInt8)
  | data (p : USBPacket)
  | cancel (id : Nat)
  | bus_reset
  | vbus (val : Bool)
  /-- The host returns from the call it acts in. -/
  | ret
  deriving DecidableEq, Repr

/-- `USB_ENDPOINT_XFER_INVALID`. -/
def USB_ENDPOINT_XFER_INVALID : Nat := 255

/-- `DWC2GadgetState` with its `USBDevice`, the port and the controller. -/
structure DWC2GadgetState where
  dwc2 : DWC2State
  /-- The controller's gadget is this one. -/
  gadget : Bool := true
  /-- The connect bottom half is scheduled. -/
  connect_bh : Bool := false
  reset_timer : Option Nat := none
  reset_phase : Nat := 0
  ctrl_p : Option USBPacket := none
  ctrl_phase : DWC2CtrlPhase := DWC2_CTRL_IDLE
  ctrl_len : Nat := 0
  ctrl_done : Nat := 0
  in_p : Nat → Option USBPacket := fun _ => none
  out_p : Nat → Option USBPacket := fun _ => none
  out_off : Nat → Nat := fun _ => 0
  -- the `USBDevice`
  setup_buf : List UInt8 := []
  data_buf : List UInt8 := []
  addr : Nat := 0
  attached : Bool := false
  speed : Nat := 0
  speedmask : Nat := 0
  ep_type : Nat → Bool → Nat := fun _ _ => USB_ENDPOINT_XFER_INVALID
  -- the `USBPort`
  port : Bool := true
  port_vbus : Bool := true
  port_speedmask : Nat := 0
  -- the clock
  now : Nat := 0
  /-- The packets whose hand-over returned `USB_RET_ASYNC` and that are still in
      progress. -/
  pending : List Nat := []
  /-- The core found a packet completed that is not in progress. -/
  aborted : Bool := false
  /-- The packets completed, in order. -/
  completed : List USBPacket := []
  /-- What the host does from inside the calls it gets. -/
  script : List HostAct := []

/-- The USB core's `usb_packet_complete`. -/
abbrev Completion := DWC2GadgetState → USBPacket → DWC2GadgetState

/-! ## Role, session and connection -/

def dwc2_cable_is_device (g : DWC2GadgetState) : Bool :=
  g.dwc2.otg_cable == .device || (g.dwc2.otg_cable == .auto && g.gadget)

def dwc2_is_host_role (s : DWC2State) : Bool :=
  if on GUSBCFG_FORCEHOSTMODE s.gusbcfg then true
  else if on GUSBCFG_FORCEDEVMODE s.gusbcfg then false
  else !on GOTGCTL_CONID_B s.gotgctl

def dwc2_vbus (g : DWC2GadgetState) : Bool := g.gadget && g.port && g.port_vbus

def dwc2_device_update_connection (g : DWC2GadgetState) : DWC2GadgetState :=
  if g.gadget then { g with connect_bh := true } else g

/-- GOTGCTL as the cable and VBUS have it. -/
def session_bits (g : DWC2GadgetState) (gotgctl : Nat) : Nat :=
  let v := clear GOTGCTL_BSESVLD (clear GOTGCTL_ASESVLD (clear GOTGCTL_CONID_B gotgctl))
  if !dwc2_cable_is_device g then raise GOTGCTL_BSESVLD (raise GOTGCTL_ASESVLD v)
  else
    let v := raise GOTGCTL_CONID_B v
    if dwc2_vbus g then raise GOTGCTL_BSESVLD (raise GOTGCTL_ASESVLD v) else v

/-- The interrupts of a change of GOTGCTL from `old`. -/
def session_events (s : DWC2State) (old : Nat) : DWC2State :=
  let s :=
    if on GOTGCTL_CONID_B old != on GOTGCTL_CONID_B s.gotgctl then
      dwc2_set_gintsts s GINTSTS_CONIDSTSCHNG true
    else s
  if !on GOTGCTL_BSESVLD old && on GOTGCTL_BSESVLD s.gotgctl then
    dwc2_set_gintsts s GINTSTS_SESSREQINT true
  else if on GOTGCTL_BSESVLD old && !on GOTGCTL_BSESVLD s.gotgctl then
    let s := { s with gotgint := raise GOTGINT_SES_END_DET s.gotgint }
    let s := dwc2_set_gintsts s GINTSTS_OTGINT true
    { s with dsts := raise DSTS_SUSPSTS s.dsts }
  else s

/-- The OTG connector: with a B-plug the controller is a peripheral and the
    session follows the host's VBUS; with an A-plug it is the host. -/
def dwc2_session_apply (g : DWC2GadgetState) (events : Bool) : DWC2GadgetState :=
  let old := g.dwc2.gotgctl
  let s := { g.dwc2 with gotgctl := session_bits g old }
  dwc2_device_update_connection
    { g with dwc2 := if events then session_events s old else s }

def dwc2_device_update_session (g : DWC2GadgetState) : DWC2GadgetState :=
  dwc2_session_apply g true

/-- The host sees the device while the controller is a peripheral with a valid
    session and the pull-up connected. -/
def dwc2_pullup_visible (g : DWC2GadgetState) : Bool :=
  g.gadget && !dwc2_is_host_role g.dwc2 && on GOTGCTL_BSESVLD g.dwc2.gotgctl &&
    !on DCTL_SFTDISCON g.dwc2.dctl

/-! ## Interrupts -/

/-- DAINT with the summary of an endpoint. -/
def daint_ep (s : DWC2State) (daint n : Nat) : Nat :=
  let imsk :=
    if on ⟨n, 1⟩ s.diepempmsk then raise DXEPINT_TXFEMP s.diepmsk else s.diepmsk
  let daint := if (s.iepreg n).int &&& imsk ≠ 0 then raise ⟨n, 1⟩ daint else daint
  if (s.oepreg n).int &&& s.doepmsk ≠ 0 then raise ⟨16 + n, 1⟩ daint else daint

/-- The DAINT that the endpoints' interrupts call for. -/
def daint_of (s : DWC2State) : Nat := (List.range DWC2_NB_EP).foldl (daint_ep s) 0

def dwc2_device_update_irq (s : DWC2State) : DWC2State :=
  let daint := daint_of s
  let s := { s with daint := daint }
  let s := dwc2_set_gintsts s GINTSTS_IEPINT (on ⟨0, 16⟩ (daint &&& s.daintmsk))
  dwc2_set_gintsts s GINTSTS_OEPINT (on ⟨16, 16⟩ (daint &&& s.daintmsk))

def DWC2GadgetState.update_irq (g : DWC2GadgetState) : DWC2GadgetState :=
  { g with dwc2 := dwc2_device_update_irq g.dwc2 }

/-! ## Control transfers on EP0 -/

/-- The core's end of a control transfer: an IN transfer's data goes to the
    packet. -/
def usb_generic_async_ctrl_complete (complete : Completion) (g : DWC2GadgetState) (p : USBPacket) :
    DWC2GadgetState :=
  complete g
    (if p.in_ then
      usb_packet_copy { p with actual_length := 0 } (g.data_buf.take p.actual_length)
    else p)

/-- `USB_REQ_SET_ADDRESS` to the device. -/
def set_address (setup_buf : List UInt8) : Bool :=
  setup_buf.getD 0 0 == 0 && setup_buf.getD 1 0 == 5

def dwc2_ctrl_complete (complete : Completion) (g : DWC2GadgetState) (status : UsbRet) :
    DWC2GadgetState :=
  match g.ctrl_p with
  | none => g
  | some p =>
    usb_generic_async_ctrl_complete complete
      { g with
        addr := if status = .success ∧ set_address g.setup_buf = true then
          (g.setup_buf.getD 2 0).toNat else g.addr
        ctrl_p := none
        ctrl_phase := DWC2_CTRL_IDLE }
      { p with status := status, actual_length := g.ctrl_done }

/-- A SETUP packet was delivered: it clears a stall and NAKs both directions of
    EP0. -/
def setup_delivered (s : DWC2State) : DWC2State :=
  let (xfer, pkt) := dwc2_tsiz_get s 0 false
  let supcnt := ex DOEPTSIZ0_SUPCNT (dwc2_ep s 0 false).tsiz
  let s := dwc2_tsiz_set s 0 false (xfer - 8) (pkt - 1)
  let out0 := dwc2_ep s 0 false
  let in0 := dwc2_ep s 0 true
  let s := s.set_ep 0 false
    { out0 with
      tsiz := dp DOEPTSIZ0_SUPCNT out0.tsiz (supcnt - 1)
      ctl := raise DXEPCTL_NAKSTS (clear DXEPCTL_STALL (clear DXEPCTL_EPENA out0.ctl))
      int := raise DXEPINT_SETUP out0.int }
  s.set_ep 0 true { in0 with ctl := raise DXEPCTL_NAKSTS (clear DXEPCTL_STALL in0.ctl) }

/-- Write `bytes` at `off`. -/
def splice (buf : List UInt8) (off : Nat) (bytes : List UInt8) : List UInt8 :=
  buf.take off ++ bytes ++ buf.drop (off + bytes.length)

/-- What is left of the data stage. -/
def ctrl_left (g : DWC2GadgetState) : Nat := (g.ctrl_len + 2 ^ 32 - g.ctrl_done) % 2 ^ 32

/-- Both directions of EP0. -/
def ep0_stalled (s : DWC2State) : Bool :=
  on DXEPCTL_STALL (dwc2_ep s 0 true).ctl || on DXEPCTL_STALL (dwc2_ep s 0 false).ctl

/-- The stage that the host is in. -/
def ep0_stage (complete : Completion) (g : DWC2GadgetState) : DWC2GadgetState :=
  let s := g.dwc2
  match g.ctrl_phase with
  | DWC2_CTRL_SETUP =>
    -- no SETUP during a bus reset or its recovery time
    if g.reset_phase ≠ 0 then g
    else if !on DXEPCTL_EPENA (dwc2_ep s 0 false).ctl then g
    else
      match dwc2_ep_dma s 0 false g.setup_buf 8 with
      | (s, none) => dwc2_ctrl_complete complete { g with dwc2 := s } .ioerror
      | (s, some _) =>
        { g with
          dwc2 := setup_delivered s
          ctrl_phase :=
            if g.ctrl_len = 0 then DWC2_CTRL_STATUS_IN
            else if g.setup_buf.getD 0 0 &&& 0x80 ≠ 0 then DWC2_CTRL_DATA_IN
            else DWC2_CTRL_DATA_OUT }
  | DWC2_CTRL_DATA_IN =>
    let m := dwc2_ep_in_packets s 0 (ctrl_left g)
    let g := { g with
      dwc2 := m.s
      data_buf := splice g.data_buf g.ctrl_done m.packets.flatten
      ctrl_done := (g.ctrl_done + m.moved) % 2 ^ 32 }
    if m.babble then dwc2_ctrl_complete complete g .babble
    else if m.host_done then { g with ctrl_phase := DWC2_CTRL_STATUS_OUT }
    else g
  | DWC2_CTRL_DATA_OUT =>
    let m := dwc2_ep_out_packets s 0 (g.data_buf.drop g.ctrl_done) (ctrl_left g)
    let g := { g with dwc2 := m.s, ctrl_done := (g.ctrl_done + m.moved) % 2 ^ 32 }
    if m.host_done then { g with ctrl_phase := DWC2_CTRL_STATUS_IN } else g
  | DWC2_CTRL_STATUS_IN =>
    let m := dwc2_ep_in_packets s 0 0
    let g := { g with dwc2 := m.s }
    if m.host_done then
      dwc2_ctrl_complete complete g (if m.babble then .babble else .success)
    else g
  | DWC2_CTRL_STATUS_OUT =>
    let m := dwc2_ep_out_packets s 0 [] 0
    let g := { g with dwc2 := m.s }
    if m.host_done then dwc2_ctrl_complete complete g .success else g
  | DWC2_CTRL_IDLE => g

def dwc2_ep0_run (complete : Completion) (g : DWC2GadgetState) : DWC2GadgetState :=
  if g.ctrl_p.isNone then g
  -- a stall answers whatever stage the host is in
  else if g.ctrl_phase ≠ DWC2_CTRL_SETUP ∧ ep0_stalled g.dwc2 = true then
    dwc2_ctrl_complete complete g .stall
  else ep0_stage complete g

/-! ## Data endpoints -/

def DWC2GadgetState.set_in (g : DWC2GadgetState) (n : Nat) (p : Option USBPacket) :
    DWC2GadgetState :=
  { g with in_p := Function.update g.in_p n p }

def DWC2GadgetState.set_out (g : DWC2GadgetState) (n : Nat) (p : Option USBPacket) :
    DWC2GadgetState :=
  { g with out_p := Function.update g.out_p n p }

/-- What is left of a host packet, as a `uint32_t`. -/
def room_left (p : USBPacket) (off : Nat) : Nat := (p.iov.length - off) % 2 ^ 32

/-- The host's packet `p` on endpoint `n`, and whether it is finished. -/
def dwc2_ep_in_run (g : DWC2GadgetState) (n : Nat) (p : USBPacket) : DWC2GadgetState × Bool :=
  let s := g.dwc2
  if on DXEPCTL_STALL (dwc2_ep s n true).ctl then
    (g.set_in n (some { p with status := .stall }), true)
  else if !dwc2_ep_armed s n true then (g, false)
  else
    let m := dwc2_ep_in_packets s n (room_left p p.actual_length)
    let p := usb_packet_copy p m.packets.flatten
    let p := if m.babble then { p with status := .babble } else p
    (({ g with dwc2 := m.s } : DWC2GadgetState).set_in n (some p), m.host_done)

def dwc2_ep_out_run (g : DWC2GadgetState) (n : Nat) (p : USBPacket) : DWC2GadgetState × Bool :=
  let s := g.dwc2
  let len := p.iov.length
  let off := g.out_off n
  if on DXEPCTL_STALL (dwc2_ep s n false).ctl then
    (g.set_out n (some { p with status := .stall }), true)
  else if !dwc2_ep_armed s n false then (g, false)
  else
    -- only as much of the host's data as the armed transfer can take
    let window := min (len - off) (dwc2_tsiz_get s n false).1
    let m := dwc2_ep_out_packets s n ((p.iov.drop off).take window) (room_left p off)
    let p := if m.host_done then { p with actual_length := len } else p
    (({ g with
        dwc2 := m.s
        out_off := Function.update g.out_off n ((off + m.moved) % 2 ^ 32) } :
        DWC2GadgetState).set_out n (some p),
      m.host_done)

/-- An asynchronous host packet the endpoint has finished. -/
def dwc2_gadget_packet_done (complete : Completion) (g : DWC2GadgetState) (p : USBPacket) :
    DWC2GadgetState :=
  complete g (if p.status = .async then { p with status := .success } else p)

/-- The IN packet of an endpoint, in a run. -/
def run_in (complete : Completion) (g : DWC2GadgetState) (n : Nat) : DWC2GadgetState :=
  match g.in_p n with
  | none => g
  | some p =>
    match dwc2_ep_in_run g n p with
    | (g, false) => g
    | (g, true) => dwc2_gadget_packet_done complete (g.set_in n none) ((g.in_p n).getD p)

/-- The OUT packet of an endpoint, in a run. -/
def run_out (complete : Completion) (g : DWC2GadgetState) (n : Nat) : DWC2GadgetState :=
  match g.out_p n with
  | none => g
  | some p =>
    match dwc2_ep_out_run g n p with
    | (g, false) => g
    | (g, true) => dwc2_gadget_packet_done complete (g.set_out n none) ((g.out_p n).getD p)

/-- Run every transfer the guest's endpoint programming allows. -/
def dwc2_device_run (complete : Completion) (g : DWC2GadgetState) : DWC2GadgetState :=
  if !g.gadget || dwc2_is_host_role g.dwc2 then g
  else
    ((List.range' 1 (DWC2_NB_EP - 1)).foldl (fun g n => run_out complete (run_in complete g n) n)
      (dwc2_ep0_run complete g)).update_irq

/-- A packet that a reset ends. -/
def fail_packet (complete : Completion) (g : DWC2GadgetState) : Option USBPacket → DWC2GadgetState
  | none => g
  | some p => complete g { p with status := .ioerror }

/-- A reset ends every transfer the host has in progress. -/
def dwc2_gadget_fail_packets (complete : Completion) (g : DWC2GadgetState) : DWC2GadgetState :=
  (List.range DWC2_NB_EP).foldl
    (fun g n =>
      fail_packet complete (fail_packet complete ((g.set_in n none).set_out n none) (g.in_p n))
        (g.out_p n))
    (if g.ctrl_p.isSome then dwc2_ctrl_complete complete g .ioerror else g)

/-! ## The dwc2-gadget USB device -/

def DWC2_T_DRST_NS : Nat := 10 * 1000000
def DWC2_T_RSTRCY_NS : Nat := 10 * 1000000

def USB_SPEED_HIGH : Nat := 2

def dwc2_gadget_reset_timer (complete : Completion) (g : DWC2GadgetState) : DWC2GadgetState :=
  let g := { g with reset_timer := none }
  if !g.gadget then g
  else if g.reset_phase = 1 then
    let speed := if g.speed = USB_SPEED_HIGH then DSTS_ENUMSPD_HS else DSTS_ENUMSPD_FS
    let s := { g.dwc2 with dsts := dp DSTS_ENUMSPD g.dwc2.dsts speed }
    { g with
      dwc2 := dwc2_set_gintsts s GINTSTS_ENUMDONE true
      reset_phase := 2
      reset_timer := some (g.now + DWC2_T_RSTRCY_NS) }
  else dwc2_device_run complete { g with reset_phase := 0 }

def dwc2_gadget_handle_reset (complete : Completion) (g : DWC2GadgetState) : DWC2GadgetState :=
  if !g.gadget then g
  else
    let g := dwc2_gadget_fail_packets complete g
    let s := g.dwc2
    let s :=
      if on DSTS_SUSPSTS s.dsts then
        dwc2_set_gintsts { s with dsts := clear DSTS_SUSPSTS s.dsts } GINTSTS_WKUPINT true
      else s
    { g with
      dwc2 := dwc2_set_gintsts s GINTSTS_USBRST true
      reset_phase := 1
      reset_timer := some (g.now + DWC2_T_DRST_NS) }

def dwc2_gadget_handle_control (complete : Completion) (g : DWC2GadgetState) (p : USBPacket)
    (length : Nat) : DWC2GadgetState :=
  -- a new SETUP supersedes a control transfer still in progress
  let g := if g.ctrl_p.isSome then dwc2_ctrl_complete complete g .ioerror else g
  dwc2_device_run complete
    { g with
      ctrl_p := some { p with status := .async }
      ctrl_len := length
      ctrl_done := 0
      ctrl_phase := DWC2_CTRL_SETUP }

/-- Isochronous endpoints move one packet per frame and never wait. -/
def dwc2_gadget_handle_iso (g : DWC2GadgetState) (p : USBPacket) (n : Nat) (in_ : Bool) :
    DWC2GadgetState × USBPacket :=
  let s := g.dwc2
  if in_ then
    let m := dwc2_ep_in_packets s n (p.iov.length % 2 ^ 32)
    let p := usb_packet_copy p m.packets.flatten
    let p := { p with status := if m.moved ≠ 0 ∨ m.host_done = true then .success else .nak }
    let ep := dwc2_ep m.s n true
    let s :=
      if p.status = .nak then
        m.s.set_ep n true { ep with int := raise DXEPINT_NAKINTRPT ep.int }
      else m.s
    ({ g with dwc2 := dwc2_device_update_irq s }, p)
  else
    let ep := dwc2_ep s n false
    let s :=
      if on DXEPCTL_EPENA ep.ctl then s
      else s.set_ep n false { ep with int := raise DXEPINT_OUTTKNEPDIS ep.int }
    let m := dwc2_ep_out_packets s n p.iov (p.iov.length % 2 ^ 32)
    ({ g with dwc2 := dwc2_device_update_irq m.s },
      { p with actual_length := m.moved, status := if m.host_done then .success else .nak })

/-- The packet as the call leaves it: `USB_RET_ASYNC` while it waits. -/
def dwc2_gadget_handle_data (g : DWC2GadgetState) (p : USBPacket) : DWC2GadgetState × USBPacket :=
  let n := p.nr
  let ctl := (dwc2_ep g.dwc2 n p.in_).ctl
  if DWC2_NB_EP ≤ n then (g, { p with status := .stall })
  -- an endpoint the guest has not activated does not answer: stall
  else if !on DXEPCTL_USBACTEP ctl || on DXEPCTL_STALL ctl then (g, { p with status := .stall })
  else if ex DXEPCTL_EPTYPE ctl = DXEPCTL_EPTYPE_ISO then dwc2_gadget_handle_iso g p n p.in_
  else
    let p := { p with status := .success }
    if p.in_ then
      let (g, done) := dwc2_ep_in_run (g.set_in n (some p)) n p
      let g := g.update_irq
      let p := (g.in_p n).getD p
      if done then (g.set_in n none, p)
      else (g.set_in n (some { p with status := .async }), { p with status := .async })
    else
      let g := { g with out_off := Function.update g.out_off n 0 }
      let (g, done) := dwc2_ep_out_run (g.set_out n (some p)) n p
      let g := g.update_irq
      let p := (g.out_p n).getD p
      if done then (g.set_out n none, p)
      else (g.set_out n (some { p with status := .async }), { p with status := .async })

/-- The pointer to a packet is dropped. -/
def drop_packet (id : Nat) (q : Option USBPacket) : Option USBPacket :=
  q.filter (fun p => p.id != id)

def dwc2_gadget_cancel_packet (g : DWC2GadgetState) (id : Nat) : DWC2GadgetState :=
  let g :=
    if g.ctrl_p.any (fun p => p.id == id) then
      { g with ctrl_p := none, ctrl_phase := DWC2_CTRL_IDLE }
    else g
  { g with
    in_p := fun n => if n < DWC2_NB_EP then drop_packet id (g.in_p n) else g.in_p n
    out_p := fun n => if n < DWC2_NB_EP then drop_packet id (g.out_p n) else g.out_p n }

/-- The port's VBUS: whether a host is connected. -/
def dwc2_gadget_vbus_changed (g : DWC2GadgetState) : DWC2GadgetState :=
  if g.gadget then dwc2_device_update_session g else g

/-! ## The host -/

/-- The device's `data_buf`. -/
def DATA_BUF_SIZE : Nat := 4096

/-- wLength. -/
def setup_length (setup : List UInt8) : Nat :=
  (setup.getD 6 0).toNat + 256 * (setup.getD 7 0).toNat

/-- The packet is not the core's already. -/
def fresh (g : DWC2GadgetState) (id : Nat) : Bool :=
  decide (id ∉ g.pending) && !g.ctrl_p.any (fun p => p.id == id)

/-- What the host asks of the core.  A packet is handed over when its endpoint has
    none in progress, a control transfer when its data fits the device's buffer. -/
def act (complete : Completion) (g : DWC2GadgetState) : HostAct → DWC2GadgetState
  | .control p setup data =>
    if fresh g p.id && !g.ctrl_p.any (fun q => decide (q.id ∈ g.pending)) &&
        decide (setup.length = 8 ∧ setup_length setup ≤ DATA_BUF_SIZE) then
      let g := { g with
        setup_buf := setup
        data_buf := splice g.data_buf 0 (data.take (setup_length setup)) }
      let g := dwc2_gadget_handle_control complete g p (setup_length setup)
      if g.ctrl_p.any (fun q => q.id == p.id) then { g with pending := p.id :: g.pending } else g
    else g
  | .data p =>
    if fresh g p.id && decide (0 < p.nr) &&
        (if p.in_ then g.in_p p.nr else g.out_p p.nr).isNone then
      let (g, p) := dwc2_gadget_handle_data g p
      if p.status = .async then { g with pending := p.id :: g.pending } else g
    else g
  | .cancel id =>
    if id ∈ g.pending then
      dwc2_gadget_cancel_packet { g with pending := g.pending.filter (· != id) } id
    else g
  | .bus_reset => dwc2_gadget_handle_reset complete g
  | .vbus val =>
    if val = g.port_vbus then g else dwc2_gadget_vbus_changed { g with port_vbus := val }
  | .ret => g

/-- The host acts until it returns. -/
def acts (complete : Completion) : Nat → DWC2GadgetState → DWC2GadgetState
  | 0, g => g
  | k + 1, g =>
    match g.script with
    | [] => g
    | .ret :: script => { g with script := script }
    | a :: script => acts complete k (act complete { g with script := script } a)

/-- The packet goes back to the core, which expects it to be in progress, and the
    host acts: from inside its acts, to depth `depth`. -/
def usb_packet_complete : Nat → Completion
  | 0, g, p =>
    if p.id ∈ g.pending then
      { g with
        pending := g.pending.filter (· != p.id)
        completed := g.completed ++ [p] }
    else { g with aborted := true }
  | depth + 1, g, p =>
    if p.id ∈ g.pending then
      acts (usb_packet_complete depth) g.script.length
        { g with
          pending := g.pending.filter (· != p.id)
          completed := g.completed ++ [p] }
    else { g with aborted := true }

end Dwc2
