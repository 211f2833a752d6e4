import RpiQemu.Genet.Device

/-! # The GENET register file

    `Genet.Device` has the transmit and the receive path.  Here is the rest of
    `hw/net/bcm2838_genet.c`: a guest's access to any register
    (`bcm2838_genet_read`, `bcm2838_genet_write`), the PHY behind MDIO, the
    link, and the device's reset.

    `State` holds the registers that the two paths use; `other` holds those
    that are only stored and read back, by their offset. -/

namespace Genet

open Register

/-! ## Offsets -/

def REGS_SIZE : Nat := 0x10000
def SYS_REV_CTRL : Nat := 0
def INTRL0 : Nat := 0x200
def INTRL1 : Nat := 0x240
def RBUF_CTRL : Nat := 0x300
def RBUF_CHK_CTRL : Nat := 0x314
def TBUF_CTRL : Nat := 0x600
def UMAC_CMD : Nat := 0x808
def UMAC_MAC0 : Nat := 0x80C
def UMAC_MAC1 : Nat := 0x810
def UMAC_MDIO_CMD : Nat := 0xE14
def RDMA_REGS : Nat := 0x2000
def TDMA_REGS : Nat := 0x4000

/-- The offsets of an interrupt controller's registers in it. -/
def INTRL_SET : Nat := 4
def INTRL_CLEAR : Nat := 8
def INTRL_MASK_SET : Nat := 0x10
def INTRL_MASK_CLEAR : Nat := 0x14

/-- The offsets of a DMA engine's registers in it. -/
def DMA_RINGS : Nat := 0xC00
def DMA_RING_CFG : Nat := 0x1040
def DMA_CTRL : Nat := 0x1044
def DMA_STATUS : Nat := 0x1048

def DESC_SIZE : Nat := 12
def RING_SIZE : Nat := 64

/-- The offsets of the index registers in a ring. -/
def TRING_PROD_INDEX : Nat := 12
def RRING_CONS_INDEX : Nat := 12

/-! ## Fields -/

def INTRL_0_LINK_UP : Field := ⟨4, 1⟩
def INTRL_0_LINK_DOWN : Field := ⟨5, 1⟩
def INTRL_0_MDIO_DONE : Field := ⟨23, 1⟩
def UMAC_CMD_SW_RESET : Field := ⟨13, 1⟩
def MDIO_REG_DATA : Field := ⟨0, 16⟩
def MDIO_REG_ID : Field := ⟨16, 5⟩
def MDIO_WR : Field := ⟨26, 1⟩
def MDIO_RD : Field := ⟨27, 1⟩
def MDIO_START_BUSY : Field := ⟨29, 1⟩
def MINOR_REV : Field := ⟨16, 4⟩
def MAJOR_REV : Field := ⟨24, 4⟩
def BMCR_ANRESTART : Field := ⟨9, 1⟩
def BMSR_LSTATUS : Field := ⟨2, 1⟩
def BMSR_ANEGCOMPLETE : Field := ⟨5, 1⟩
def LPA_PAUSE_CAP : Field := ⟨10, 1⟩
def LPA_PAUSE_ASYM : Field := ⟨11, 1⟩
def LPA_LPACK : Field := ⟨14, 1⟩
def STAT_1000_HALF : Field := ⟨10, 1⟩
def STAT_1000_FULL : Field := ⟨11, 1⟩
def AUX_CTRL_REG_ID_MASK : Field := ⟨0, 3⟩
def AUX_CTRL_REG_DATA : Field := ⟨4, 8⟩
def AUX_CTRL_REG_DATA12 : Field := ⟨4, 12⟩
def AUX_CTRL_REG_ID : Field := ⟨12, 3⟩
def AUX_CTRL_MISC_WREN : Field := ⟨15, 1⟩
def SHADOW_REG_DATA : Field := ⟨0, 10⟩
def SHADOW_REG_ID : Field := ⟨10, 5⟩
def SHADOW_WR : Field := ⟨15, 1⟩
def EXP_SEL_REG_ID : Field := ⟨0, 8⟩
def EXP_SEL_BLOCK_ID : Field := ⟨8, 8⟩

/-! ## The device -/

/-- The PHY's registers, by number, and its shadow registers. -/
structure Phy where
  regs : Nat → Nat
  shd : Nat → Nat
  aux_ctl_shd : Nat → Nat
  exp_shd : Nat → Nat → Nat

def PHY_BMCR : Nat := 0
def PHY_BMSR : Nat := 1
def PHY_LPA : Nat := 5
def PHY_STAT_1000 : Nat := 10
def PHY_EXP_DATA : Nat := 21
def PHY_EXP_SEL : Nat := 23
def PHY_AUX_CTL : Nat := 24
def PHY_SHD : Nat := 28
def PHY_AUX_CTL_MISC : Nat := 7

/-- `BCM2838GenetState` with all of its registers. -/
structure Controller where
  state : State
  other : Nat → Nat
  phy : Phy
  /-- The bytes of `nic_conf.macaddr`. -/
  mac : Nat → Nat
  /-- The link state of the QEMU network client. -/
  link_down : Bool

/-- What QEMU provides. -/
structure Host where
  net : Net
  /-- `qemu_macaddr_default_if_unset`. -/
  macaddr_default_if_unset : (Nat → Nat) → Nat → Nat

/-- The widths of an access.  A wider one comes as several words
    (`impl.max_access_size`). -/
inductive Width where
  | byte
  | half
  | word
  deriving DecidableEq, Repr

def Width.bytes : Width → Nat
  | .byte => 1
  | .half => 2
  | .word => 4

/-- A guest's access.  `bcm2838_genet_ops` asks for words at least, but gives
    no `valid.max_access_size`, without which the memory core takes every
    width; an access is aligned to its own width. -/
structure Access where
  offset : Nat
  value : Nat
  width : Width := .word
  aligned : offset % width.bytes = 0 := by decide
  fits : value < 2 ^ (8 * width.bytes) := by decide

/-- The access of a word, with its address and value cut to one. -/
def Access.of_word (offset value : Nat) : Access where
  offset := offset / 4 * 4
  value := value % 2 ^ 32
  width := .word
  aligned := Nat.mul_mod_left (offset / 4) 4
  fits := Nat.mod_lt value (by decide)

theorem Access.of_word_offset {offset : Nat} (h : offset % 4 = 0) (value : Nat) :
    (Access.of_word offset value).offset = offset := by
  unfold Access.of_word
  dsimp only
  omega

theorem Access.of_word_value {value : Nat} (h : value < 2 ^ 32) (offset : Nat) :
    (Access.of_word offset value).value = value :=
  Nat.mod_eq_of_lt h

theorem one_word : 1 < 2 ^ 32 := by decide

/-! ## Stored registers -/

def Desc.set (d : Desc) (word value : Nat) : Desc :=
  match word with
  | 0 => { d with length_status := value }
  | 1 => { d with address_lo := value }
  | _ => { d with address_hi := value }

/-- A receive ring's register, by its offset in the ring. -/
def RdmaRing.set (r : RdmaRing) (offset value : Nat) : RdmaRing :=
  match offset with
  | 0 => { r with write_ptr := value }
  | 4 => { r with write_ptr_hi := value }
  | 8 => { r with prod_index := value }
  | 12 => { r with cons_index := value }
  | 16 => { r with ring_buf_size := value }
  | 20 => { r with start_addr := value }
  | 24 => { r with start_addr_hi := value }
  | 28 => { r with end_addr := value }
  | 32 => { r with end_addr_hi := value }
  | _ => r

/-- A transmit ring's register, by its offset in the ring. -/
def TdmaRing.set (r : TdmaRing) (offset value : Nat) : TdmaRing :=
  match offset with
  | 0 => { r with read_ptr := value }
  | 4 => { r with read_ptr_hi := value }
  | 8 => { r with cons_index := value }
  | 12 => { r with prod_index := value }
  | 20 => { r with start_addr := value }
  | 24 => { r with start_addr_hi := value }
  | 28 => { r with end_addr := value }
  | 32 => { r with end_addr_hi := value }
  | _ => r

/-- A DMA engine's register, by its offset in the engine. -/
def Dma.store {Ring : Type} (set : Ring → Nat → Nat → Ring) (d : Dma Ring) (offset value : Nat) :
    Dma Ring :=
  if offset < DMA_RINGS then
    let i := offset / DESC_SIZE
    { d with descs := update d.descs i ((d.descs i).set (offset % DESC_SIZE / 4) value) }
  else if offset < DMA_RING_CFG then
    let r := (offset - DMA_RINGS) / RING_SIZE
    { d with rings := update d.rings r (set (d.rings r) ((offset - DMA_RINGS) % RING_SIZE) value) }
  else if offset = DMA_RING_CFG then { d with ring_cfg := value }
  else if offset = DMA_CTRL then { d with ctrl := value }
  else d

def Intrl.store (r : Intrl) (offset value : Nat) : Intrl :=
  match offset with
  | 0 => { r with stat := value }
  | 0xC => { r with mask_status := value }
  | _ => r

/-- The `memcpy` into the registers that the transmit and receive paths use. -/
def State.store (s : State) (offset value : Nat) : State :=
  if offset < RBUF_CTRL then
    if offset < INTRL0 then s
    else if offset < INTRL1 then { s with intrl0 := s.intrl0.store (offset - INTRL0) value }
    else { s with intrl1 := s.intrl1.store (offset - INTRL1) value }
  else if offset < RDMA_REGS then
    if offset = RBUF_CTRL then { s with rbuf_ctrl := value }
    else if offset = RBUF_CHK_CTRL then { s with rbuf_chk_ctrl := value }
    else if offset = TBUF_CTRL then { s with tbuf_ctrl := value }
    else if offset = UMAC_CMD then { s with umac_cmd := value }
    else s
  else if offset < TDMA_REGS then
    { s with rdma := s.rdma.store RdmaRing.set (offset - RDMA_REGS) value }
  else { s with tdma := s.tdma.store TdmaRing.set (offset - TDMA_REGS) value }

/-- A word into the registers.  Every value is kept in `other` too, so that
    the registers that only read back are there. -/
def Controller.store (c : Controller) (offset value : Nat) : Controller :=
  { c with
    state := c.state.store offset value
    other := update c.other offset value }

def Desc.get (d : Desc) (word : Nat) : Nat :=
  match word with
  | 0 => d.length_status
  | 1 => d.address_lo
  | _ => d.address_hi

def RdmaRing.get (r : RdmaRing) (offset : Nat) : Option Nat :=
  match offset with
  | 0 => some r.write_ptr
  | 4 => some r.write_ptr_hi
  | 8 => some r.prod_index
  | 12 => some r.cons_index
  | 16 => some r.ring_buf_size
  | 20 => some r.start_addr
  | 24 => some r.start_addr_hi
  | 28 => some r.end_addr
  | 32 => some r.end_addr_hi
  | _ => none

def TdmaRing.get (r : TdmaRing) (offset : Nat) : Option Nat :=
  match offset with
  | 0 => some r.read_ptr
  | 4 => some r.read_ptr_hi
  | 8 => some r.cons_index
  | 12 => some r.prod_index
  | 20 => some r.start_addr
  | 24 => some r.start_addr_hi
  | 28 => some r.end_addr
  | 32 => some r.end_addr_hi
  | _ => none

def Dma.load {Ring : Type} (get : Ring → Nat → Option Nat) (d : Dma Ring) (offset : Nat) :
    Option Nat :=
  if offset < DMA_RINGS then some ((d.descs (offset / DESC_SIZE)).get (offset % DESC_SIZE / 4))
  else if offset < DMA_RING_CFG then
    get (d.rings ((offset - DMA_RINGS) / RING_SIZE)) ((offset - DMA_RINGS) % RING_SIZE)
  else if offset = DMA_RING_CFG then some d.ring_cfg
  else if offset = DMA_CTRL then some d.ctrl
  else none

def Intrl.load (r : Intrl) (offset : Nat) : Option Nat :=
  match offset with
  | 0 => some r.stat
  | 0xC => some r.mask_status
  | _ => none

def State.load (s : State) (offset : Nat) : Option Nat :=
  if offset < RBUF_CTRL then
    if offset < INTRL0 then none
    else if offset < INTRL1 then s.intrl0.load (offset - INTRL0)
    else s.intrl1.load (offset - INTRL1)
  else if offset < RDMA_REGS then
    if offset = RBUF_CTRL then some s.rbuf_ctrl
    else if offset = RBUF_CHK_CTRL then some s.rbuf_chk_ctrl
    else if offset = TBUF_CTRL then some s.tbuf_ctrl
    else if offset = UMAC_CMD then some s.umac_cmd
    else none
  else if offset < TDMA_REGS then s.rdma.load RdmaRing.get (offset - RDMA_REGS)
  else s.tdma.load TdmaRing.get (offset - TDMA_REGS)

/-- A word of the registers. -/
def Controller.load (c : Controller) (offset : Nat) : Nat :=
  (c.state.load offset).getD (c.other offset)

/-! ## Interrupts and the link -/

/-- `bcm2838_genet_set_irq_default` alone. -/
def set_irq_default (s : State) : State := { s with irq_default := s.intrl0.pending }

/-- A bit of INTRL0 is raised. -/
def raise0 (s : State) (f : Field) : State :=
  { s with intrl0 := { s.intrl0 with stat := dp f s.intrl0.stat 1 } }

def Phy.set (p : Phy) (reg value : Nat) : Phy := { p with regs := update p.regs reg value }

/-- `bcm2838_genet_phy_update_link`. -/
def phy_update_link (c : Controller) : Controller :=
  let lstatus := ex BMSR_LSTATUS (c.phy.regs PHY_BMSR) ≠ 0
  let bmsr := c.phy.regs PHY_BMSR
  let c :=
    if c.link_down ∧ lstatus then
      { c with
        phy := c.phy.set PHY_BMSR (dp BMSR_LSTATUS (dp BMSR_ANEGCOMPLETE bmsr 0) 0)
        state := raise0 c.state INTRL_0_LINK_DOWN }
    else if ¬ c.link_down ∧ ¬ lstatus then
      -- auto-negotiation completes: 1 Gbps with flow control
      let stat1000 := dp STAT_1000_FULL (dp STAT_1000_HALF (c.phy.regs PHY_STAT_1000) 1) 1
      let lpa :=
        dp LPA_LPACK (dp LPA_PAUSE_ASYM (dp LPA_PAUSE_CAP (c.phy.regs PHY_LPA) 1) 1) 1
      { c with
        phy := ((c.phy.set PHY_STAT_1000 stat1000).set PHY_LPA lpa).set PHY_BMSR
          (dp BMSR_LSTATUS (dp BMSR_ANEGCOMPLETE bmsr 1) 1)
        state := raise0 c.state INTRL_0_LINK_UP }
    else c
  { c with state := set_irq_default c.state }

/-- `bcm2838_genet_set_link`, after QEMU changed the client's link. -/
def set_link (c : Controller) (down : Bool) : Controller :=
  phy_update_link { c with link_down := down }

/-! ## Reset -/

/-- `bcm2838_genet_set_qemu_mac`. -/
def set_qemu_mac (c : Controller) : Controller :=
  let mac0 := dp ⟨0, 8⟩ (dp ⟨8, 8⟩ (dp ⟨16, 8⟩ (dp ⟨24, 8⟩ (c.other UMAC_MAC0)
    (c.mac 0)) (c.mac 1)) (c.mac 2)) (c.mac 3)
  let mac1 := dp ⟨0, 8⟩ (dp ⟨8, 8⟩ (c.other UMAC_MAC1) (c.mac 4)) (c.mac 5)
  { c with other := update (update c.other UMAC_MAC0 mac0) UMAC_MAC1 mac1 }

/-- `bcm2838_genet_phy_reset`, before the link is looked at. -/
def phy_reset_regs (p : Phy) : Phy :=
  { p with
    regs := fun i =>
      match i with
      | 0 => 0x1140
      | 1 => 0x7949
      | 2 => 0x600D
      | 3 => 0x84A2
      | 4 => 0x01E1
      | 9 => 0x0200
      | 15 => 0x3000
      | _ => 0
    shd := fun i =>
      match i with
      | 3 => 0x0200
      | 5 => 0x001F
      | 10 => 0x0001
      | _ => 0
    aux_ctl_shd := fun i => if i = PHY_AUX_CTL_MISC then 0x1E else 0 }

def zero_dma {Ring : Type} (ring : Ring) : Dma Ring where
  descs := fun _ => ⟨0, 0, 0⟩
  rings := fun _ => ring
  ring_cfg := 0
  ctrl := 0

/-- The registers of the two paths cleared.  The buffers and the interrupt
    lines are no registers. -/
def State.clear (s : State) : State :=
  { s with
    rdma := zero_dma ⟨0, 0, 0, 0, 0, 0, 0, 0, 0⟩
    tdma := zero_dma ⟨0, 0, 0, 0, 0, 0, 0, 0⟩
    intrl0 := ⟨0, 0⟩
    intrl1 := ⟨0, 0⟩
    umac_cmd := 0
    rbuf_ctrl := 0
    rbuf_chk_ctrl := 0
    tbuf_ctrl := 0 }

/-- `bcm2838_genet_reset`. -/
def reset (c : Controller) : Controller :=
  let c :=
    { c with
      state := c.state.clear
      other := update (fun _ => 0) SYS_REV_CTRL (dp MINOR_REV (dp MAJOR_REV 0 6) 0) }
  let c := set_qemu_mac c
  phy_update_link { c with phy := phy_reset_regs c.phy }

/-! ## MDIO -/

/-- `bcm2838_genet_phy_aux_ctl_write`.  The results of its FIELD_DP16 are
    dropped, as in the source. -/
def phy_aux_ctl_write (p : Phy) (value : Nat) : Phy :=
  let reg_id := ex AUX_CTRL_REG_ID value
  let reg_id_mask := ex AUX_CTRL_REG_ID_MASK value
  let p :=
    if reg_id_mask = PHY_AUX_CTL_MISC then
      if reg_id = PHY_AUX_CTL_MISC ∧ ex AUX_CTRL_MISC_WREN value ≠ 0 then
        { p with aux_ctl_shd := update p.aux_ctl_shd reg_id_mask (ex AUX_CTRL_REG_DATA value) }
      else p
    else
      { p with aux_ctl_shd := update p.aux_ctl_shd reg_id_mask (ex AUX_CTRL_REG_DATA12 value) }
  p.set PHY_AUX_CTL value

/-- `bcm2838_genet_phy_shadow_write`. -/
def phy_shadow_write (p : Phy) (value : Nat) : Phy :=
  let p :=
    if ex SHADOW_WR value = 0 then p
    else { p with shd := update p.shd (ex SHADOW_REG_ID value) (ex SHADOW_REG_DATA value) }
  p.set PHY_SHD value

/-- `bcm2838_genet_phy_exp_shadow_write`. -/
def phy_exp_shadow_write (p : Phy) (value : Nat) : Phy :=
  let sel := p.regs PHY_EXP_SEL
  let block := ex EXP_SEL_BLOCK_ID sel
  { p with exp_shd := fun b =>
      if b = block then update (p.exp_shd b) (ex EXP_SEL_REG_ID sel) value else p.exp_shd b }

/-- `bcm2838_genet_phy_exp_shadow_read`. -/
def phy_exp_shadow_read (p : Phy) : Nat :=
  let sel := p.regs PHY_EXP_SEL
  p.exp_shd (ex EXP_SEL_BLOCK_ID sel) (ex EXP_SEL_REG_ID sel)

/-- The write half of `bcm2838_genet_mdio_cmd`. -/
def mdio_write (c : Controller) (reg data : Nat) : Controller :=
  if reg = PHY_AUX_CTL then { c with phy := phy_aux_ctl_write c.phy data }
  else if reg = PHY_SHD then { c with phy := phy_shadow_write c.phy data }
  else if reg = PHY_EXP_DATA then { c with phy := phy_exp_shadow_write c.phy data }
  else if reg = PHY_BMCR ∧ ex BMCR_ANRESTART data = 1 then
    -- ANRESTART clears itself and completes the negotiation
    let c := phy_update_link c
    { c with phy := c.phy.set reg (dp BMCR_ANRESTART data 0) }
  else { c with phy := c.phy.set reg data }

/-- `bcm2838_genet_mdio_cmd`: the device, and the value to store. -/
def mdio_cmd (c : Controller) (cmd : Nat) : Controller × Nat :=
  let reg := ex MDIO_REG_ID cmd
  let data := ex MDIO_REG_DATA cmd
  if ex MDIO_START_BUSY cmd ≠ 0 then
    let done := dp MDIO_START_BUSY cmd 0
    if ex MDIO_RD cmd ≠ 0 then
      if reg = PHY_EXP_DATA then (c, dp MDIO_REG_DATA done (phy_exp_shadow_read c.phy))
      else (c, dp MDIO_REG_DATA done (c.phy.regs reg))
    else if ex MDIO_WR cmd ≠ 0 then (mdio_write c reg data, done)
    else (c, done)
  else (c, cmd)

/-! ## Writes -/

/-- The command registers of an interrupt controller. -/
def Intrl.command (r : Intrl) (offset value : Nat) : Intrl :=
  if offset = INTRL_SET then { r with stat := r.stat ||| value }
  else if offset = INTRL_CLEAR then { r with stat := r.stat &&& (value ^^^ 0xFFFFFFFF) }
  else if offset = INTRL_MASK_SET then { r with mask_status := r.mask_status ||| value }
  else if offset = INTRL_MASK_CLEAR then
    { r with mask_status := r.mask_status &&& (value ^^^ 0xFFFFFFFF) }
  else r

/-- `bcm2838_genet_tdma`, at an offset in the engine: the device and the
    frames sent. -/
def tdma_write (net : Net) (c : Controller) (offset value : Nat) :
    Controller × List (List UInt8) :=
  if DMA_RINGS ≤ offset ∧ offset < DMA_RING_CFG then
    if (offset - DMA_RINGS) % RING_SIZE = TRING_PROD_INDEX then
      let r := tdma_prod_index net c.state ((offset - DMA_RINGS) / RING_SIZE) value
      ({ c with state := r.1 }, r.2)
    else (c, [])
  else if offset = DMA_CTRL then
    -- no engine runs: STATUS follows at once
    let status := if ex DMA_CTRL_EN value = 0 then 0xFFFFFFFF else 0
    ({ c with other := update c.other (TDMA_REGS + DMA_STATUS) status }, [])
  else (c, [])

/-- What the `switch` of `bcm2838_genet_write` does: the device, the value to
    store, the frames sent, and whether the receive queue is to be flushed. -/
structure Switched where
  device : Controller
  value : Nat
  sent : List (List UInt8) := []
  rx_flush : Bool := false

def write_switch (host : Host) (c : Controller) (offset value : Nat) : Switched :=
  if INTRL0 ≤ offset ∧ offset < INTRL1 then
    ⟨{ c with state := { c.state with
        intrl0 := c.state.intrl0.command (offset - INTRL0) value } }, value, [], false⟩
  else if INTRL1 ≤ offset ∧ offset < RBUF_CTRL then
    ⟨{ c with state := { c.state with
        intrl1 := c.state.intrl1.command (offset - INTRL1) value } }, value, [], false⟩
  else if offset = UMAC_CMD then
    -- the reset completes as soon as it is requested
    if ex UMAC_CMD_SW_RESET value = 1 then ⟨reset c, dp UMAC_CMD_SW_RESET value 0, [], false⟩
    else ⟨c, value, [], false⟩
  else if offset = UMAC_MAC0 then
    let mac := update (update (update (update c.mac 0 (ex ⟨24, 8⟩ value)) 1 (ex ⟨16, 8⟩ value))
      2 (ex ⟨8, 8⟩ value)) 3 (ex ⟨0, 8⟩ value)
    ⟨{ c with mac := host.macaddr_default_if_unset mac }, value, [], false⟩
  else if offset = UMAC_MAC1 then
    let mac := update (update c.mac 4 (ex ⟨8, 8⟩ value)) 5 (ex ⟨0, 8⟩ value)
    ⟨{ c with mac := host.macaddr_default_if_unset mac }, value, [], false⟩
  else if offset = UMAC_MDIO_CMD then
    let r := mdio_cmd c value
    ⟨{ r.1 with state := raise0 r.1.state INTRL_0_MDIO_DONE }, r.2, [], false⟩
  else if TDMA_REGS ≤ offset ∧ offset < TDMA_REGS + 0x2000 then
    let r := tdma_write host.net c (offset - TDMA_REGS) value
    ⟨r.1, value, r.2, false⟩
  else if offset = RDMA_REGS + DMA_CTRL then
    let en := ex DMA_CTRL_EN value ≠ 0
    let status := if en then 0 else 0xFFFFFFFF
    ⟨{ c with other := update c.other (RDMA_REGS + DMA_STATUS) status }, value, [], decide en⟩
  else if RDMA_REGS + DMA_RINGS ≤ offset ∧ offset < RDMA_REGS + DMA_RING_CFG then
    -- the driver released descriptors
    ⟨c, value, [],
      decide ((offset - (RDMA_REGS + DMA_RINGS)) % RING_SIZE = RRING_CONS_INDEX)⟩
  else ⟨c, value, [], false⟩

/-- The word that the bytes at an offset are in, and their bits in it. -/
def word_offset (offset : Nat) : Nat := offset / 4 * 4

def word_bits (offset : Nat) (width : Width) : Field := ⟨8 * (offset % 4), 8 * width.bytes⟩

/-- The `memcpy` of a value's low bytes into the registers. -/
def Controller.memcpy (c : Controller) (offset : Nat) (width : Width) (value : Nat) : Controller :=
  c.store (word_offset offset)
    (dp (word_bits offset width) (c.load (word_offset offset) % 2 ^ 32) value)

/-- `bcm2838_genet_write`: the device, the frames sent, and whether
    `qemu_flush_queued_packets` is called, with the new value stored. -/
def write (host : Host) (c : Controller) (a : Access) :
    Controller × List (List UInt8) × Bool :=
  if a.offset + a.width.bytes ≤ REGS_SIZE then
    let w := write_switch host c a.offset a.value
    let c := w.device.memcpy a.offset a.width w.value
    let c := { c with state := set_irq c.state }
    (c, w.sent, w.rx_flush && can_receive c.state)
  else (c, [], false)

/-- `bcm2838_genet_read`. -/
def read (c : Controller) (offset : Nat) (width : Width) : Nat :=
  if offset + width.bytes ≤ REGS_SIZE then
    ex (word_bits offset width) (c.load (word_offset offset))
  else 2 ^ (8 * width.bytes) - 1

/-- A whole word is stored as it is. -/
theorem memcpy_word (c : Controller) {offset : Nat} (h : offset % 4 = 0) (value : Nat) :
    c.memcpy offset .word value = c.store offset (value % 2 ^ 32) := by
  have hoff : word_offset offset = offset := by
    unfold word_offset
    omega
  have hbits : word_bits offset .word = ⟨0, 32⟩ := by
    unfold word_bits
    rw [h]
    rfl
  have hlt : c.load offset % 2 ^ 32 < 2 ^ 32 := Nat.mod_lt _ (Nat.two_pow_pos 32)
  rw [Controller.memcpy, hoff, hbits, dp]
  simp only [Nat.pow_zero, Nat.one_mul, Nat.zero_add, Nat.mod_one, Nat.add_zero]
  rw [Nat.div_eq_of_lt hlt, Nat.mul_zero, Nat.zero_add]

/-- A write of a whole word. -/
theorem write_word (host : Host) (c : Controller) {a : Access} (hword : a.width = .word)
    (hsize : a.offset + 4 ≤ REGS_SIZE) :
    write host c a =
      let w := write_switch host c a.offset a.value
      let c := w.device.store a.offset (w.value % 2 ^ 32)
      let c := { c with state := set_irq c.state }
      (c, w.sent, w.rx_flush && can_receive c.state) := by
  have halign : a.offset % 4 = 0 := by
    have := a.aligned
    rwa [hword] at this
  unfold write
  rw [hword, Width.bytes, if_pos hsize]
  dsimp only
  rw [memcpy_word _ halign]

/-- A write of a word that is only stored. -/
theorem write_word_state {host : Host} {c : Controller} {a : Access} (hword : a.width = .word)
    (hsize : a.offset + 4 ≤ REGS_SIZE)
    (hkeep : (write_switch host c a.offset a.value).device.state = c.state ∧
      (write_switch host c a.offset a.value).value = a.value) :
    (write host c a).1.state = set_irq (c.state.store a.offset a.value) := by
  have hlt : a.value < 2 ^ 32 := by
    have := a.fits
    rwa [hword] at this
  rw [write_word host c hword hsize]
  simp only [Controller.store, hkeep.1, hkeep.2, Nat.mod_eq_of_lt hlt]

/-! ## The ring registers of `Genet.Device` -/

/-- Offsets of the DMA engines are past the registers before them. -/
theorem write_switch_dma (host : Host) (c : Controller) {offset : Nat} (ho : RDMA_REGS ≤ offset)
    (value : Nat) :
    write_switch host c offset value =
      if TDMA_REGS ≤ offset ∧ offset < TDMA_REGS + 0x2000 then
        ⟨(tdma_write host.net c (offset - TDMA_REGS) value).1, value,
          (tdma_write host.net c (offset - TDMA_REGS) value).2, false⟩
      else if offset = RDMA_REGS + DMA_CTRL then
        ⟨{ c with
            other := update c.other (RDMA_REGS + DMA_STATUS)
              (if ex DMA_CTRL_EN value ≠ 0 then 0 else 0xFFFFFFFF) }, value, [],
          decide (ex DMA_CTRL_EN value ≠ 0)⟩
      else if RDMA_REGS + DMA_RINGS ≤ offset ∧ offset < RDMA_REGS + DMA_RING_CFG then
        ⟨c, value, [],
          decide ((offset - (RDMA_REGS + DMA_RINGS)) % RING_SIZE = RRING_CONS_INDEX)⟩
      else ⟨c, value, [], false⟩ := by
  rw [RDMA_REGS] at ho
  have h₁ : ¬ (INTRL0 ≤ offset ∧ offset < INTRL1) := by
    rw [INTRL1]
    omega
  have h₂ : ¬ (INTRL1 ≤ offset ∧ offset < RBUF_CTRL) := by
    rw [RBUF_CTRL]
    omega
  have h₃ : offset ≠ UMAC_CMD := by
    rw [UMAC_CMD]
    omega
  have h₄ : offset ≠ UMAC_MAC0 := by
    rw [UMAC_MAC0]
    omega
  have h₅ : offset ≠ UMAC_MAC1 := by
    rw [UMAC_MAC1]
    omega
  have h₆ : offset ≠ UMAC_MDIO_CMD := by
    rw [UMAC_MDIO_CMD]
    omega
  unfold write_switch
  rw [if_neg h₁, if_neg h₂, if_neg h₃, if_neg h₄, if_neg h₅, if_neg h₆]

theorem State.store_tdma (s : State) (o value : Nat) :
    s.store (TDMA_REGS + o) value = { s with tdma := s.tdma.store TdmaRing.set o value } := by
  have h₁ : ¬ TDMA_REGS + o < RBUF_CTRL := by
    rw [TDMA_REGS, RBUF_CTRL]
    omega
  have h₂ : ¬ TDMA_REGS + o < RDMA_REGS := by
    rw [TDMA_REGS, RDMA_REGS]
    omega
  have h₃ : ¬ TDMA_REGS + o < TDMA_REGS := by omega
  unfold State.store
  rw [if_neg h₁, if_neg h₂, if_neg h₃, Nat.add_sub_cancel_left]

theorem State.store_rdma (s : State) {o : Nat} (ho : o < 0x2000) (value : Nat) :
    s.store (RDMA_REGS + o) value = { s with rdma := s.rdma.store RdmaRing.set o value } := by
  have h₁ : ¬ RDMA_REGS + o < RBUF_CTRL := by
    rw [RDMA_REGS, RBUF_CTRL]
    omega
  have h₂ : ¬ RDMA_REGS + o < RDMA_REGS := by omega
  have h₃ : RDMA_REGS + o < TDMA_REGS := by
    rw [RDMA_REGS, TDMA_REGS]
    omega
  unfold State.store
  rw [if_neg h₁, if_neg h₂, if_pos h₃, Nat.add_sub_cancel_left]

theorem Dma.store_ring {Ring : Type} (set : Ring → Nat → Nat → Ring) (d : Dma Ring) {o : Nat}
    (ho : o < 0x440) (value : Nat) :
    d.store set (DMA_RINGS + o) value =
      { d with
        rings := update d.rings (o / RING_SIZE)
          (set (d.rings (o / RING_SIZE)) (o % RING_SIZE) value) } := by
  have h₁ : ¬ DMA_RINGS + o < DMA_RINGS := by omega
  have h₂ : DMA_RINGS + o < DMA_RING_CFG := by
    rw [DMA_RINGS, DMA_RING_CFG]
    omega
  unfold Dma.store
  rw [if_neg h₁, if_pos h₂, Nat.add_sub_cancel_left]

/-- A transmit ring's PROD_INDEX. -/
def tring_prod_index (r value : Nat) (h : value < 2 ^ 32) : Access where
  offset := TDMA_REGS + (DMA_RINGS + (RING_SIZE * r + TRING_PROD_INDEX))
  value := value
  width := .word
  aligned := by
    simp only [TDMA_REGS, DMA_RINGS, RING_SIZE, TRING_PROD_INDEX, Width.bytes]
    omega
  fits := h

/-- A receive ring's CONS_INDEX. -/
def rring_cons_index (r value : Nat) (h : value < 2 ^ 32) : Access where
  offset := RDMA_REGS + (DMA_RINGS + (RING_SIZE * r + RRING_CONS_INDEX))
  value := value
  width := .word
  aligned := by
    simp only [RDMA_REGS, DMA_RINGS, RING_SIZE, RRING_CONS_INDEX, Width.bytes]
    omega
  fits := h

/-- The offset of a ring's index register. -/
theorem ring_offset {r : Nat} (hr : r < DMA_RING_CNT) :
    RING_SIZE * r + 12 < 0x440 ∧ (RING_SIZE * r + 12) % RING_SIZE = 12 ∧
      (RING_SIZE * r + 12) / RING_SIZE = r := by
  rw [DMA_RING_CNT] at hr
  rw [RING_SIZE]
  omega

/-- The PROD_INDEX write of `Genet.Device` is the register's. -/
theorem write_tring_prod_index (host : Host) (c : Controller) {r value : Nat}
    (hr : r < DMA_RING_CNT) (h : value < 2 ^ 32) :
    (write host c (tring_prod_index r value h)).1.state =
        (write_tx_prod_index host.net c.state r value).1 ∧
      (write host c (tring_prod_index r value h)).2.1 =
        (write_tx_prod_index host.net c.state r value).2 := by
  obtain ⟨hoff, hmod, hdiv⟩ := ring_offset hr
  have hsize : (tring_prod_index r value h).offset + 4 ≤ REGS_SIZE := by
    simp only [tring_prod_index, TDMA_REGS, DMA_RINGS, TRING_PROD_INDEX, REGS_SIZE]
    omega
  have hswitch : write_switch host c (tring_prod_index r value h).offset value =
      ⟨{ c with state := (tdma_prod_index host.net c.state r value).1 }, value,
        (tdma_prod_index host.net c.state r value).2, false⟩ := by
    have hbounds : DMA_RINGS ≤ DMA_RINGS + (RING_SIZE * r + 12) ∧
        DMA_RINGS + (RING_SIZE * r + 12) < DMA_RING_CFG := by
      rw [DMA_RINGS, DMA_RING_CFG]
      omega
    have htdma : TDMA_REGS ≤ TDMA_REGS + (DMA_RINGS + (RING_SIZE * r + 12)) ∧
        TDMA_REGS + (DMA_RINGS + (RING_SIZE * r + 12)) < TDMA_REGS + 0x2000 := by
      rw [DMA_RING_CFG] at hbounds
      omega
    have hrdma : RDMA_REGS ≤ TDMA_REGS + (DMA_RINGS + (RING_SIZE * r + 12)) := by
      rw [RDMA_REGS, TDMA_REGS]
      omega
    simp only [tring_prod_index, TRING_PROD_INDEX]
    rw [write_switch_dma _ _ hrdma, if_pos htdma, Nat.add_sub_cancel_left, tdma_write,
      if_pos hbounds, Nat.add_sub_cancel_left, TRING_PROD_INDEX, if_pos hmod, hdiv]
  rw [write_word host c (a := tring_prod_index r value h) rfl hsize]
  dsimp only
  rw [show (tring_prod_index r value h).value = value from rfl, hswitch]
  refine ⟨?_, rfl⟩
  simp only [Nat.mod_eq_of_lt h, Controller.store, tring_prod_index, TRING_PROD_INDEX]
  rw [State.store_tdma, Dma.store_ring _ _ hoff, hmod, hdiv]
  rfl

/-- The CONS_INDEX write of `Genet.Device` is the register's. -/
theorem write_rring_cons_index (host : Host) (c : Controller) {r value : Nat}
    (hr : r < DMA_RING_CNT) (h : value < 2 ^ 32) :
    (write host c (rring_cons_index r value h)).1.state =
        (write_rx_cons_index c.state r value).1 ∧
      (write host c (rring_cons_index r value h)).2.2 =
        (write_rx_cons_index c.state r value).2 := by
  obtain ⟨hoff, hmod, hdiv⟩ := ring_offset hr
  have hsize : (rring_cons_index r value h).offset + 4 ≤ REGS_SIZE := by
    simp only [rring_cons_index, RDMA_REGS, DMA_RINGS, RRING_CONS_INDEX, REGS_SIZE]
    omega
  have hswitch : write_switch host c (rring_cons_index r value h).offset value =
      ⟨c, value, [], true⟩ := by
    have hrings : RDMA_REGS + DMA_RINGS ≤ RDMA_REGS + (DMA_RINGS + (RING_SIZE * r + 12)) ∧
        RDMA_REGS + (DMA_RINGS + (RING_SIZE * r + 12)) < RDMA_REGS + DMA_RING_CFG := by
      rw [DMA_RINGS, DMA_RING_CFG]
      omega
    have htdma : ¬ (TDMA_REGS ≤ RDMA_REGS + (DMA_RINGS + (RING_SIZE * r + 12)) ∧
        RDMA_REGS + (DMA_RINGS + (RING_SIZE * r + 12)) < TDMA_REGS + 0x2000) := by
      rw [RDMA_REGS, DMA_RINGS, TDMA_REGS]
      omega
    have hctrl : RDMA_REGS + (DMA_RINGS + (RING_SIZE * r + 12)) ≠ RDMA_REGS + DMA_CTRL := by
      rw [DMA_RINGS, DMA_CTRL]
      omega
    simp only [rring_cons_index, RRING_CONS_INDEX]
    rw [write_switch_dma _ _ (by omega), if_neg htdma, if_neg hctrl, if_pos hrings,
      ← Nat.add_assoc RDMA_REGS, Nat.add_sub_cancel_left, RRING_CONS_INDEX, hmod]
    rfl
  have hstore : (c.store (rring_cons_index r value h).offset value).state =
      { c.state with
        rdma :=
          { c.state.rdma with
            rings := update c.state.rdma.rings r
              { c.state.rdma.rings r with cons_index := value } } } := by
    simp only [Controller.store, rring_cons_index, RRING_CONS_INDEX]
    rw [State.store_rdma _ (by rw [DMA_RINGS]; omega), Dma.store_ring _ _ hoff, hmod, hdiv]
    rfl
  rw [write_word host c (a := rring_cons_index r value h) rfl hsize]
  dsimp only
  rw [show (rring_cons_index r value h).value = value from rfl, hswitch]
  refine ⟨?_, ?_⟩
  · simp only [Nat.mod_eq_of_lt h, hstore]
    rfl
  · simp only [Nat.mod_eq_of_lt h, hstore, Bool.true_and]
    rfl

/-! ## Operations -/

/-- What happens to the device: a guest writes a register or its own memory, a
    frame arrives, the link changes, the machine resets it. -/
inductive Op where
  | write (a : Access)
  | memory (mem : Memory)
  | receive (buf : List UInt8)
  | set_link (down : Bool)
  | reset

/-- The device after an operation; `none`: the operation does not return. -/
def step (host : Host) (c : Controller) : Op → Option Controller
  | .write a => some (write host c a).1
  | .memory mem => some { c with state := { c.state with mem := mem } }
  | .receive buf => (receive host.net c.state buf).map (fun r => { c with state := r.2 })
  | .set_link down => some (set_link c down)
  | .reset => some (reset c)

/-- The device after several operations. -/
def run (host : Host) : Controller → List Op → Option Controller
  | c, [] => some c
  | c, op :: ops => (step host c op).bind (run host · ops)

/-- The device as `bcm2838_genet_realize` leaves it. -/
def power_on (mac : Nat → Nat) (mem : Memory) (link_down : Bool) : Controller where
  state :=
    { rdma := zero_dma ⟨0, 0, 0, 0, 0, 0, 0, 0, 0⟩
      tdma := zero_dma ⟨0, 0, 0, 0, 0, 0, 0, 0⟩
      intrl0 := ⟨0, 0⟩
      intrl1 := ⟨0, 0⟩
      umac_cmd := 0
      rbuf_ctrl := 0
      rbuf_chk_ctrl := 0
      tbuf_ctrl := 0
      tx_packet := fun _ => 0
      rx_packet := fun _ => 0
      irq_default := false
      irq_prio := false
      mem := mem }
  other := fun _ => 0
  phy := ⟨fun _ => 0, fun _ => 0, fun _ => 0, fun _ _ => 0⟩
  mac := mac
  link_down := link_down

section

variable {host : Host} {c c' : Controller}

theorem run_cons {op : Op} {ops : List Op} :
    run host c (op :: ops) = some c' ↔
      ∃ d, step host c op = some d ∧ run host d ops = some c' :=
  Option.bind_eq_some_iff

theorem run_append {ops ops' : List Op} :
    run host c (ops ++ ops') = some c' ↔
      ∃ d, run host c ops = some d ∧ run host d ops' = some c' := by
  induction ops generalizing c with
  | nil =>
    constructor
    · intro h
      exact ⟨c, rfl, h⟩
    · rintro ⟨d, hd, h⟩
      obtain rfl := Option.some.inj hd
      exact h
  | cons op ops ih =>
    rw [List.cons_append, run_cons]
    constructor
    · rintro ⟨d, hd, h⟩
      obtain ⟨e, he, h'⟩ := ih.mp h
      exact ⟨e, run_cons.mpr ⟨d, hd, he⟩, h'⟩
    · rintro ⟨e, he, h'⟩
      obtain ⟨d, hd, hrest⟩ := run_cons.mp he
      exact ⟨d, hd, ih.mpr ⟨e, hrest, h'⟩⟩

/-- What every operation from a state keeps, holds after every run. -/
theorem run_invariant {P : Controller → Prop} {ok : Controller → Op → Prop}
    (hstep : ∀ c op c', P c → ok c op → step host c op = some c' → P c')
    {ops : List Op} (hc : P c) (hrun : run host c ops = some c')
    (hok : ∀ pre op post d, ops = pre ++ op :: post → run host c pre = some d → ok d op) :
    P c' := by
  induction ops generalizing c with
  | nil =>
    obtain rfl := Option.some.inj hrun
    exact hc
  | cons op ops ih =>
    obtain ⟨d, hd, hrest⟩ := run_cons.mp hrun
    apply ih (hstep c op d hc (hok [] op ops c rfl rfl) hd) hrest
    intro pre op' post e hops he
    apply hok (op :: pre) op' post e
    · rw [hops, List.cons_append]
    · exact run_cons.mpr ⟨d, hd, he⟩

end

end Genet
