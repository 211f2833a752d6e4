import RpiQemu.Framework.Memory
import RpiQemu.Framework.Register
import Mathlib.Logic.Function.Basic

/-! # The DWC2 controller's endpoints

    The transfer engine of `hw/usb/dwc2-gadget.c`: the registers of an endpoint
    and the two loops that move packets between the guest's armed transfer and
    the host (`dwc2_ep_in_packets`, `dwc2_ep_out_packets`).

    Registers are numbers below `2 ^ 32` with the fields of the source; the
    positions of the fields are those of `hw/usb/dwc2-regs.h`.  Whether a DMA
    access succeeds is the environment's choice (`dma_results`), and every
    access is logged. -/

namespace Dwc2

open Register

/-! ## Registers -/

def DXEPCTL_EPENA : Field := ⟨31, 1⟩
def DXEPCTL_EPDIS : Field := ⟨30, 1⟩
def DXEPCTL_SETD1PID : Field := ⟨29, 1⟩
def DXEPCTL_SETD0PID : Field := ⟨28, 1⟩
def DXEPCTL_SNAK : Field := ⟨27, 1⟩
def DXEPCTL_CNAK : Field := ⟨26, 1⟩
def DXEPCTL_TXFNUM : Field := ⟨22, 4⟩
def DXEPCTL_STALL : Field := ⟨21, 1⟩
def DXEPCTL_SNP : Field := ⟨20, 1⟩
def DXEPCTL_EPTYPE : Field := ⟨18, 2⟩
def DXEPCTL_NAKSTS : Field := ⟨17, 1⟩
def DXEPCTL_DPID : Field := ⟨16, 1⟩
def DXEPCTL_USBACTEP : Field := ⟨15, 1⟩
def DXEPCTL_MPS : Field := ⟨0, 11⟩
def D0EPCTL_MPS : Field := ⟨0, 2⟩

/-- Values of `DXEPCTL_EPTYPE`. -/
def DXEPCTL_EPTYPE_ISO : Nat := 1
def DXEPCTL_EPTYPE_INTERRUPT : Nat := 3

def DXEPINT_XFERCOMPL : Field := ⟨0, 1⟩
def DXEPINT_EPDISBLD : Field := ⟨1, 1⟩
def DXEPINT_AHBERR : Field := ⟨2, 1⟩
def DXEPINT_SETUP : Field := ⟨3, 1⟩
def DXEPINT_OUTTKNEPDIS : Field := ⟨4, 1⟩
def DXEPINT_INEPNAKEFF : Field := ⟨6, 1⟩
def DXEPINT_TXFEMP : Field := ⟨7, 1⟩
def DXEPINT_NAKINTRPT : Field := ⟨13, 1⟩

def DOEPTSIZ0_SUPCNT : Field := ⟨29, 2⟩

def DCTL_SFTDISCON : Field := ⟨1, 1⟩
def DCTL_GNPINNAKSTS : Field := ⟨2, 1⟩
def DCTL_GOUTNAKSTS : Field := ⟨3, 1⟩
def DCTL_SGNPINNAK : Field := ⟨7, 1⟩
def DCTL_CGNPINNAK : Field := ⟨8, 1⟩
def DCTL_SGOUTNAK : Field := ⟨9, 1⟩
def DCTL_CGOUTNAK : Field := ⟨10, 1⟩

/-- The number of device endpoints, EP0 included. -/
def DWC2_NB_EP : Nat := 8

/-- The registers of an endpoint in one direction: DxEPCTL, DxEPINT, DxEPTSIZ
    and DxEPDMA. -/
structure EpRegs where
  ctl : Nat := 0
  int : Nat := 0
  tsiz : Nat := 0
  dma : Nat := 0
  deriving DecidableEq, Repr

/-- A DMA access: of a read, the bytes at the address. -/
structure Dma where
  write : Bool
  addr : Nat
  data : List UInt8
  ok : Bool
  deriving DecidableEq, Repr

/-- The plug in the OTG port. -/
inductive Cable where
  | auto
  | host
  | device
  deriving DecidableEq, Repr

/-- `DWC2State`, the part of device mode, with the guest's memory. -/
structure DWC2State where
  gusbcfg : Nat := 0
  gotgctl : Nat := 0
  gotgint : Nat := 0
  gintsts : Nat := 0
  dcfg : Nat := 0
  dctl : Nat := 0
  dsts : Nat := 0
  diepmsk : Nat := 0
  doepmsk : Nat := 0
  daint : Nat := 0
  daintmsk : Nat := 0
  diepempmsk : Nat := 0
  iepreg : Nat → EpRegs := fun _ => {}
  oepreg : Nat → EpRegs := fun _ => {}
  otg_cable : Cable := .auto
  mem : Memory := fun _ => 0
  /-- Whether each further DMA access succeeds; all do that are not listed. -/
  dma_results : List Bool := []
  dma_log : List Dma := []

def dwc2_ep (s : DWC2State) (n : Nat) (in_ : Bool) : EpRegs :=
  if in_ then s.iepreg n else s.oepreg n

def DWC2State.set_ep (s : DWC2State) (n : Nat) (in_ : Bool) (ep : EpRegs) : DWC2State :=
  if in_ then { s with iepreg := Function.update s.iepreg n ep }
  else { s with oepreg := Function.update s.oepreg n ep }

/-! ## Transfer accounting -/

/-- `ep0_mps`. -/
def ep0_mps : List Nat := [64, 32, 16, 8]

def dwc2_ep_mps (s : DWC2State) (n : Nat) (in_ : Bool) : Nat :=
  let ctl := (dwc2_ep s n in_).ctl
  if n = 0 then ep0_mps.getD (ex D0EPCTL_MPS ctl) 0 else ex DXEPCTL_MPS ctl

/-- DxEPTSIZ.XferSize. -/
def tsiz_xfer (n : Nat) : Field := ⟨0, if n = 0 then 7 else 19⟩

/-- DxEPTSIZ.PktCnt. -/
def tsiz_pkt (n : Nat) (in_ : Bool) : Field :=
  ⟨19, if n = 0 then (if in_ then 2 else 1) else 10⟩

/-- XferSize and PktCnt. -/
def dwc2_tsiz_get (s : DWC2State) (n : Nat) (in_ : Bool) : Nat × Nat :=
  let tsiz := (dwc2_ep s n in_).tsiz
  (ex (tsiz_xfer n) tsiz, ex (tsiz_pkt n in_) tsiz)

def dwc2_tsiz_set (s : DWC2State) (n : Nat) (in_ : Bool) (xfer pkt : Nat) : DWC2State :=
  let ep := dwc2_ep s n in_
  s.set_ep n in_
    { ep with tsiz := dp (tsiz_pkt n in_) (dp (tsiz_xfer n) ep.tsiz xfer) pkt }

/-- The programmed transfer is complete: the core disables the endpoint, and
    NAKs further OUT packets until it is armed again. -/
def dwc2_ep_xfer_done (s : DWC2State) (n : Nat) (in_ : Bool) : DWC2State :=
  let ep := dwc2_ep s n in_
  let ctl := clear DXEPCTL_EPENA ep.ctl
  s.set_ep n in_
    { ep with
      ctl := if in_ then ctl else raise DXEPCTL_NAKSTS ctl
      int := raise DXEPINT_XFERCOMPL ep.int }

/-- Move `len` bytes: out of memory for IN, `buf` into memory for OUT.  Returns
    the bytes, or nothing when the access fails.  A packet of no bytes needs no
    access. -/
def dwc2_ep_dma (s : DWC2State) (n : Nat) (in_ : Bool) (buf : List UInt8) (len : Nat) :
    DWC2State × Option (List UInt8) :=
  if len = 0 then (s, some [])
  else
    let ep := dwc2_ep s n in_
    let data := if in_ then s.mem.read ep.dma len else buf
    let ok := s.dma_results.headD true
    let s :=
      { s with
        dma_results := s.dma_results.tail
        dma_log := s.dma_log ++ [{ write := !in_, addr := ep.dma, data := data, ok := ok }] }
    if ok then
      let s : DWC2State := if in_ then s else { s with mem := s.mem.write ep.dma buf }
      (s.set_ep n in_ { ep with dma := (ep.dma + len) % 2 ^ 32 }, some data)
    else
      (s.set_ep n in_
        { ep with ctl := clear DXEPCTL_EPENA ep.ctl, int := raise DXEPINT_AHBERR ep.int }, none)

/-! ## Moving packets -/

/-- What a loop over packets leaves: the locals `xfer`, `pkt` and `moved`, the
    packets it moved, and how it ended. -/
structure Moved where
  s : DWC2State
  xfer : Nat
  pkt : Nat
  moved : Nat := 0
  packets : List (List UInt8) := []
  host_done : Bool := false
  babble : Bool := false
  short_pkt : Bool := false
  /-- A DMA access failed: the function returns from inside the loop. -/
  failed : Bool := false

/-- The loop of `dwc2_ep_in_packets`. -/
def in_loop (n mps room : Nat) : Nat → DWC2State → Nat → Nat → List (List UInt8) → Moved
  | 0, s, xfer, moved, packets =>
    { s := s, xfer := xfer, pkt := 0, moved := moved, packets := packets }
  | pkt + 1, s, xfer, moved, packets =>
    let chunk := min mps xfer
    if chunk > room - moved then
      { s := s, xfer := xfer, pkt := pkt + 1, moved := moved, packets := packets,
        host_done := true, babble := true }
    else
      match dwc2_ep_dma s n true [] chunk with
      | (s, none) =>
        { s := s, xfer := xfer, pkt := pkt + 1, moved := moved, packets := packets, failed := true }
      | (s, some bytes) =>
        if chunk < mps ∨ moved + chunk = room then
          { s := s, xfer := xfer - chunk, pkt := pkt, moved := moved + chunk,
            packets := packets ++ [bytes], host_done := true }
        else in_loop n mps room pkt s (xfer - chunk) (moved + chunk) (packets ++ [bytes])

/-- The global IN NAK applies to the other endpoints only. -/
def ep_periodic (s : DWC2State) (n : Nat) : Bool :=
  let type := ex DXEPCTL_EPTYPE (dwc2_ep s n true).ctl
  decide (0 < n ∧ (type = DXEPCTL_EPTYPE_ISO ∨ type = DXEPCTL_EPTYPE_INTERRUPT))

/-- Nothing armed, or the endpoint NAKs. -/
def in_blocked (s : DWC2State) (n : Nat) : Bool :=
  let ctl := (dwc2_ep s n true).ctl
  !on DXEPCTL_EPENA ctl || on DXEPCTL_NAKSTS ctl ||
    (!ep_periodic s n && on DCTL_GNPINNAKSTS s.dctl)

/-- IN: move packets from the guest's armed transfer into the host's buffer of
    `room` bytes.  `host_done` when the host's transfer ends (a short packet, or
    its buffer is full), `babble` when the guest sent more than the host asked
    for. -/
def dwc2_ep_in_packets (s : DWC2State) (n room : Nat) : Moved :=
  let mps := dwc2_ep_mps s n true
  let (xfer, pkt) := dwc2_tsiz_get s n true
  if in_blocked s n then { s := s, xfer := xfer, pkt := pkt }
  else
    let m := in_loop n mps room pkt s xfer 0 []
    if m.failed then m
    else
      let s := dwc2_tsiz_set m.s n true m.xfer m.pkt
      { m with s := if m.pkt = 0 then dwc2_ep_xfer_done s n true else s }

/-- The loop of `dwc2_ep_out_packets` on the `remaining` bytes the host has left;
    `data` is the caller's window on them. -/
def out_loop (n mps remaining : Nat) (data : List UInt8) :
    Nat → DWC2State → Nat → Nat → List (List UInt8) → Moved
  | 0, s, xfer, moved, packets =>
    { s := s, xfer := xfer, pkt := 0, moved := moved, packets := packets }
  | pkt + 1, s, xfer, moved, packets =>
    -- a packet that overflows the transfer is cut to it
    let chunk := min (min mps (remaining - moved)) xfer
    match dwc2_ep_dma s n false ((data.drop moved).take chunk) chunk with
    | (s, none) =>
      { s := s, xfer := xfer, pkt := pkt + 1, moved := moved, packets := packets, failed := true }
    | (s, some bytes) =>
      if chunk < mps ∨ moved + chunk = remaining then
        { s := s, xfer := xfer - chunk, pkt := pkt, moved := moved + chunk,
          packets := packets ++ [bytes], host_done := decide (moved + chunk = remaining),
          short_pkt := decide (chunk < mps) }
      else out_loop n mps remaining data pkt s (xfer - chunk) (moved + chunk) (packets ++ [bytes])

/-- Nothing armed, or the endpoint NAKs. -/
def out_blocked (s : DWC2State) (n : Nat) : Bool :=
  let ctl := (dwc2_ep s n false).ctl
  !on DXEPCTL_EPENA ctl || on DXEPCTL_NAKSTS ctl || on DCTL_GOUTNAKSTS s.dctl

/-- OUT: move packets of the host's data into the guest's armed transfer.
    `host_done` when all of the host's data has been delivered. -/
def dwc2_ep_out_packets (s : DWC2State) (n : Nat) (data : List UInt8) (remaining : Nat) : Moved :=
  let mps := dwc2_ep_mps s n false
  let (xfer, pkt) := dwc2_tsiz_get s n false
  if out_blocked s n then { s := s, xfer := xfer, pkt := pkt }
  else
    let m := out_loop n mps remaining data pkt s xfer 0 []
    if m.failed then m
    else
      let s := dwc2_tsiz_set m.s n false m.xfer m.pkt
      { m with s := if m.pkt = 0 ∨ m.short_pkt = true then dwc2_ep_xfer_done s n false else s }

/-- Whether a transfer is armed on the endpoint (and not NAKing). -/
def dwc2_ep_armed (s : DWC2State) (n : Nat) (in_ : Bool) : Bool :=
  let ctl := (dwc2_ep s n in_).ctl
  on DXEPCTL_EPENA ctl && !on DXEPCTL_NAKSTS ctl

end Dwc2
