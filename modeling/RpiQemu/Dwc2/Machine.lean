import RpiQemu.Dwc2.Gadget

/-! # The machine around the gadget

    What can happen to a controller with its gadget: the guest writes registers,
    the host acts, the reset timer and the connect bottom half fire, the
    controller is reset, the gadget comes and goes.  A step may let the host act
    from inside the calls it gets, and some of its DMA accesses may fail. -/

namespace Dwc2

open Register

/-! ## Device registers -/

/-- The bits of `val` in the field, and those of `v` elsewhere. -/
def take_field (f : Field) (val v : Nat) : Nat := dp f v (ex f val)

/-- The fields of DxEPCTL that the guest writes: EP0 is always active, and only the
    core clears its STALL. -/
def epctl_fields (n : Nat) (in_ : Bool) (val old : Nat) : Nat :=
  if n = 0 then
    let v := take_field D0EPCTL_MPS val old
    let v := if in_ then take_field DXEPCTL_TXFNUM val v else v
    let v := raise DXEPCTL_USBACTEP v
    if on DXEPCTL_STALL val then raise DXEPCTL_STALL v else v
  else
    let v := take_field DXEPCTL_MPS val old
    let v := take_field DXEPCTL_USBACTEP val v
    let v := take_field DXEPCTL_EPTYPE val v
    let v := take_field DXEPCTL_SNP val v
    let v := take_field DXEPCTL_STALL val v
    let v := take_field DXEPCTL_TXFNUM val v
    let v := if on DXEPCTL_SETD0PID val then clear DXEPCTL_DPID v else v
    if on DXEPCTL_SETD1PID val then raise DXEPCTL_DPID v else v

/-- The registers of an endpoint after a write to DxEPCTL. -/
def epctl_written (n : Nat) (in_ : Bool) (val : Nat) (ep : EpRegs) : EpRegs :=
  let old := ep.ctl
  let v := epctl_fields n in_ val old
  let int := ep.int
  let nak := on DXEPCTL_SNAK val
  let v := if nak then raise DXEPCTL_NAKSTS v else v
  -- the core NAKs the next IN token at once
  let int := if nak && in_ then raise DXEPINT_INEPNAKEFF int else int
  let v := if on DXEPCTL_CNAK val then clear DXEPCTL_NAKSTS v else v
  if on DXEPCTL_EPDIS val && on DXEPCTL_EPENA old then
    { ep with ctl := clear DXEPCTL_EPENA v, int := raise DXEPINT_EPDISBLD int }
  else
    { ep with ctl := if on DXEPCTL_EPENA val then raise DXEPCTL_EPENA v else v, int := int }

/-- The values of `USB_ENDPOINT_XFER_*`, by `DXEPCTL_EPTYPE`. -/
def xfer_type : List Nat := [0, 1, 2, 3]

def usb_ep_set_type (g : DWC2GadgetState) (n : Nat) (in_ : Bool) (type : Nat) : DWC2GadgetState :=
  { g with ep_type := fun k d => if k = n ∧ d = in_ then type else g.ep_type k d }

def dwc2_epctl_write (g : DWC2GadgetState) (n : Nat) (in_ : Bool) (val : Nat) : DWC2GadgetState :=
  let ep := dwc2_ep g.dwc2 n in_
  let v := epctl_fields n in_ val ep.ctl
  let g :=
    if 0 < n ∧ g.gadget = true then
      -- the endpoint as the host sees it
      usb_ep_set_type g n in_
        (if on DXEPCTL_USBACTEP v then
          xfer_type.getD (ex DXEPCTL_EPTYPE v) USB_ENDPOINT_XFER_INVALID
        else USB_ENDPOINT_XFER_INVALID)
    else g
  { g with dwc2 := g.dwc2.set_ep n in_ (epctl_written n in_ val ep) }

/-- DCTL after a write, but for the global NAKs it sets and clears. -/
def dctl_fields (val old : Nat) : Nat :=
  let v := clear DCTL_CGOUTNAK (clear DCTL_SGOUTNAK
    (clear DCTL_CGNPINNAK (clear DCTL_SGNPINNAK val)))
  take_field DCTL_GOUTNAKSTS old (take_field DCTL_GNPINNAKSTS old v)

def dwc2_dctl_write (g : DWC2GadgetState) (val : Nat) : DWC2GadgetState :=
  let old := g.dwc2.dctl
  let v := dctl_fields val old
  let s := g.dwc2
  let v := if on DCTL_SGNPINNAK val then raise DCTL_GNPINNAKSTS v else v
  let s := if on DCTL_SGNPINNAK val then dwc2_set_gintsts s GINTSTS_GINNAKEFF true else s
  let v := if on DCTL_CGNPINNAK val then clear DCTL_GNPINNAKSTS v else v
  let s := if on DCTL_CGNPINNAK val then dwc2_set_gintsts s GINTSTS_GINNAKEFF false else s
  let v := if on DCTL_SGOUTNAK val then raise DCTL_GOUTNAKSTS v else v
  let s := if on DCTL_SGOUTNAK val then dwc2_set_gintsts s GINTSTS_GOUTNAKEFF true else s
  let v := if on DCTL_CGOUTNAK val then clear DCTL_GOUTNAKSTS v else v
  let s := if on DCTL_CGOUTNAK val then dwc2_set_gintsts s GINTSTS_GOUTNAKEFF false else s
  let g := { g with dwc2 := { s with dctl := v } }
  if on DCTL_SFTDISCON old != on DCTL_SFTDISCON v then dwc2_device_update_connection g else g

/-- Device registers. -/
def DCFG : Nat := 0x800
def DCTL : Nat := 0x804
def DSTS : Nat := 0x808
def DIEPMSK : Nat := 0x810
def DAINT : Nat := 0x818
def DAINTMSK : Nat := 0x81c
def DWC2_DREG_SIZE : Nat := 0x40
def DIEPCTL (n : Nat) : Nat := 0x900 + n * 0x20
def DOEPCTL (n : Nat) : Nat := 0xb00 + n * 0x20
def DWC2_EP_BLOCKS : Nat := 16

/-- The words of an endpoint's block. -/
def DEP_CTL : Nat := 0
def DEP_INT : Nat := 2
def DEP_TSIZ : Nat := 4
def DEP_DMA : Nat := 5

/-- A word of `s->dreg`, by its index; the registers that no function reads are left
    out. -/
def dreg_store (s : DWC2State) (index val : Nat) : DWC2State :=
  match index with
  | 0 => { s with dcfg := val }
  | 1 => { s with dctl := val }
  | 2 => { s with dsts := val }
  | 4 => { s with diepmsk := val }
  | 5 => { s with doepmsk := val }
  | 6 => { s with daint := val }
  | 7 => { s with daintmsk := val }
  | 13 => { s with diepempmsk := val }
  | _ => s

/-- A write to a word of an endpoint's block. -/
def ep_store (g : DWC2GadgetState) (n : Nat) (in_ : Bool) (word val : Nat) : DWC2GadgetState :=
  let ep := dwc2_ep g.dwc2 n in_
  if word = DEP_CTL then dwc2_epctl_write g n in_ val
  else if word = DEP_INT then
    let int := ep.int - (ep.int &&& val)
    -- the FIFO is always empty
    let int := if in_ then raise DXEPINT_TXFEMP int else int
    { g with dwc2 := g.dwc2.set_ep n in_ { ep with int := int } }
  else if word = DEP_TSIZ then { g with dwc2 := g.dwc2.set_ep n in_ { ep with tsiz := val } }
  else if word = DEP_DMA then { g with dwc2 := g.dwc2.set_ep n in_ { ep with dma := val } }
  else g

/-- The end of a register write. -/
def dreg_written (complete : Completion) (g : DWC2GadgetState) : DWC2GadgetState :=
  (dwc2_device_run complete g).update_irq

def dwc2_dreg_write (complete : Completion) (g : DWC2GadgetState) (addr val : Nat) :
    DWC2GadgetState :=
  if DCFG ≤ addr ∧ addr < DCFG + DWC2_DREG_SIZE then
    dreg_written complete
      (if addr = DCTL then dwc2_dctl_write g val
      else if addr = DSTS ∨ addr = DAINT then g
      -- the memory core passes a byte's own address on, so a byte of DCTL, DSTS or
      -- DAINT other than the first gets here too
      else { g with dwc2 := dreg_store g.dwc2 ((addr - DCFG) / 4) val })
  else if DIEPCTL 0 ≤ addr ∧ addr < DIEPCTL DWC2_EP_BLOCKS ∨
      DOEPCTL 0 ≤ addr ∧ addr < DOEPCTL DWC2_EP_BLOCKS then
    let in_ := decide (addr < DOEPCTL 0)
    let n := (addr - (if in_ then DIEPCTL 0 else DOEPCTL 0)) / 0x20
    if DWC2_NB_EP ≤ n then g
    else dreg_written complete (ep_store g n in_ (addr / 4 % 8) val)
  else dreg_written complete g

/-- A write to GUSBCFG: the forced role changes whether the gadget is connected. -/
def gusbcfg_write (complete : Completion) (g : DWC2GadgetState) (val : Nat) : DWC2GadgetState :=
  let old := g.dwc2.gusbcfg
  let g := { g with dwc2 := { g.dwc2 with gusbcfg := val } }
  if on GUSBCFG_FORCEHOSTMODE old != on GUSBCFG_FORCEHOSTMODE val ||
      on GUSBCFG_FORCEDEVMODE old != on GUSBCFG_FORCEDEVMODE val then
    dwc2_device_run complete (dwc2_device_update_connection g)
  else g

/-! ## Reset and connection -/

/-- The registers of device mode after a controller reset. -/
def device_reset_regs (s : DWC2State) : DWC2State :=
  { s with
    dcfg := 0, dctl := raise DCTL_SFTDISCON 0, dsts := 0
    diepmsk := 0, doepmsk := 0, daint := 0, daintmsk := 0, diepempmsk := 0
    iepreg := fun n =>
      { ctl := if n = 0 then raise DXEPCTL_USBACTEP 0 else 0, int := raise DXEPINT_TXFEMP 0 }
    oepreg := fun n => { ctl := if n = 0 then raise DXEPCTL_USBACTEP 0 else 0 } }

def dwc2_device_reset (complete : Completion) (g : DWC2GadgetState) : DWC2GadgetState :=
  let g := { g with dwc2 := device_reset_regs g.dwc2 }
  let g :=
    if g.gadget then
      let g := dwc2_gadget_fail_packets complete g
      { g with
        reset_timer := none
        reset_phase := 0
        ep_type := fun n d =>
          if 0 < n ∧ n < DWC2_NB_EP then USB_ENDPOINT_XFER_INVALID else g.ep_type n d }
    else g
  dwc2_session_apply g false

/-- `USB_SPEED_MASK_*`. -/
def USB_SPEED_MASK_FULL : Nat := 2
def USB_SPEED_MASK_HIGH : Nat := 4

/-- The fastest speed that both sides have. -/
def usb_pick_speed (g : DWC2GadgetState) : Nat :=
  ([3, 2, 1, 0].find? (fun speed =>
    g.speedmask.testBit speed && g.port_speedmask.testBit speed)).getD g.speed

/-- The core's attach, unless the port has none of the device's speeds; `host` acts
    in the port's callback. -/
def usb_device_attach (host : DWC2GadgetState → DWC2GadgetState) (g : DWC2GadgetState) :
    DWC2GadgetState :=
  if g.speedmask &&& g.port_speedmask = 0 then g
  else host { g with attached := true, speed := usb_pick_speed g }

def usb_device_detach (host : DWC2GadgetState → DWC2GadgetState) (g : DWC2GadgetState) :
    DWC2GadgetState :=
  { host g with attached := false }

def dwc2_gadget_connect_bh (host : DWC2GadgetState → DWC2GadgetState) (g : DWC2GadgetState) :
    DWC2GadgetState :=
  let g := { g with connect_bh := false }
  let want := dwc2_pullup_visible g
  if want = g.attached ∨ g.port = false then g
  else if want then
    let high := ex DCFG_DEVSPD g.dwc2.dcfg = DCFG_DEVSPD_HS
    usb_device_attach host
      { g with speedmask := USB_SPEED_MASK_FULL + if high then USB_SPEED_MASK_HIGH else 0 }
  else usb_device_detach host { g with reset_timer := none, reset_phase := 0 }

/-- A new gadget is plugged into a port, on a controller that has none. -/
def dwc2_gadget_realize (g : DWC2GadgetState) : DWC2GadgetState :=
  if g.gadget then g
  else
    dwc2_device_update_session
      { dwc2 := g.dwc2
        gadget := true
        data_buf := List.replicate DATA_BUF_SIZE 0
        speedmask := USB_SPEED_MASK_FULL + USB_SPEED_MASK_HIGH
        port_vbus := g.port_vbus
        port_speedmask := g.port_speedmask
        now := g.now
        aborted := g.aborted
        completed := g.completed
        script := g.script }

def dwc2_gadget_unrealize (g : DWC2GadgetState) : DWC2GadgetState :=
  let g := if g.gadget then dwc2_device_update_session { g with gadget := false } else g
  { g with connect_bh := false, reset_timer := none }

/-- The core unplugs the gadget. -/
def usb_device_unplug (host : DWC2GadgetState → DWC2GadgetState) (g : DWC2GadgetState) :
    DWC2GadgetState :=
  let g := if g.attached then usb_device_detach host g else g
  { dwc2_gadget_unrealize g with port := false }

/-- GOTGCTL after a write. -/
def gotgctl_fields (val old : Nat) : Nat :=
  take_field GOTGCTL_CONID_B old
    (take_field GOTGCTL_ASESVLD old (take_field GOTGCTL_BSESVLD old val))

/-- GINTSTS after a write. -/
def gintsts_fields (val old : Nat) : Nat :=
  take_field GINTSTS_IEPINT old (take_field GINTSTS_OEPINT old val)

/-! ## Steps -/

/-- What happens.  GUSBCFG, GOTGCTL and GINTSTS are written at their own addresses. -/
inductive Kind where
  | dreg (addr val : Nat)
  | gusbcfg (val : Nat)
  /-- A write to GOTGCTL, and one to GINTSTS: the base function may store anything but
      in the bits that follow the session and the endpoints. -/
  | gotgctl (val : Nat)
  | gintsts (val : Nat)
  /-- The guest writes its memory. -/
  | memory (mem : Memory)
  | host (a : HostAct)
  | clock (now : Nat)
  | timer
  | bh
  /-- The controller's reset, with the values that the base registers get. -/
  | reset (gotgctl gotgint gusbcfg gintsts : Nat)
  | realize
  | unrealize

/-- A write that stores the word of DCTL as it is, at the address of one of its later
    bytes. -/
def Kind.raw_dctl : Kind → Bool
  | .dreg addr _ => decide (DCTL < addr % 2 ^ 32) && decide (addr % 2 ^ 32 < DCTL + 4)
  | _ => false

/-- A step, with what the host does from inside the calls it gets, and whether the
    DMA accesses succeed. -/
structure Op where
  kind : Kind
  script : List HostAct := []
  dma_results : List Bool := []
  depth : Nat := 0

def Op.run (op : Op) (g : DWC2GadgetState) : DWC2GadgetState :=
  let complete := usb_packet_complete op.depth
  match op.kind with
  | .dreg addr val => dwc2_dreg_write complete g (addr % 2 ^ 32) (val % 2 ^ 32)
  | .gusbcfg val => gusbcfg_write complete g (val % 2 ^ 32)
  | .gotgctl val =>
    { g with dwc2 := { g.dwc2 with gotgctl := gotgctl_fields (val % 2 ^ 32) g.dwc2.gotgctl } }
  | .gintsts val =>
    { g with dwc2 := { g.dwc2 with gintsts := gintsts_fields (val % 2 ^ 32) g.dwc2.gintsts } }
  | .memory mem => { g with dwc2 := { g.dwc2 with mem := mem } }
  | .host a => act complete g a
  | .clock now => { g with now := max g.now now }
  | .timer =>
    if g.reset_timer.any (fun t => decide (t ≤ g.now)) then dwc2_gadget_reset_timer complete g
    else g
  | .bh =>
    if g.connect_bh then
      dwc2_gadget_connect_bh (fun g => acts complete g.script.length g) g
    else g
  | .reset gotgctl gotgint gusbcfg gintsts =>
    dwc2_device_reset complete { g with
      dwc2 := { g.dwc2 with
        gotgctl := gotgctl, gotgint := gotgint, gusbcfg := gusbcfg, gintsts := gintsts } }
  | .realize => dwc2_gadget_realize g
  | .unrealize => usb_device_unplug (fun g => acts complete g.script.length g) g

def step (g : DWC2GadgetState) (op : Op) : DWC2GadgetState :=
  op.run { g with
    script := op.script
    dwc2 := { g.dwc2 with dma_results := op.dma_results } }

def run (g : DWC2GadgetState) (ops : List Op) : DWC2GadgetState := ops.foldl step g

/-- A controller without a gadget, before its first reset. -/
def blank (cable : Cable) (port_vbus : Bool) (port_speedmask : Nat) : DWC2GadgetState :=
  { dwc2 := { otg_cable := cable }
    gadget := false
    port := false
    port_vbus := port_vbus
    port_speedmask := port_speedmask
    data_buf := List.replicate DATA_BUF_SIZE 0 }

/-- A controller after its first reset, and whatever happened since. -/
def Reachable (g : DWC2GadgetState) : Prop :=
  ∃ cable port_vbus port_speedmask gotgctl gotgint gusbcfg gintsts ops,
    g = run (blank cable port_vbus port_speedmask)
      ({ kind := .reset gotgctl gotgint gusbcfg gintsts } :: ops)

end Dwc2
