import RpiQemu.Framework.Bytes
import RpiQemu.Framework.Memory
import RpiQemu.Framework.Register

/-! # The GENET Ethernet controller

    `hw/net/bcm2838_genet.c` as the patches leave it: the transmit walk that
    a PROD_INDEX write starts (`bcm2838_genet_tdma`, `bcm2838_genet_tx`), the
    receive path of a frame (`bcm2838_genet_receive`, `bcm2838_genet_rdma`)
    and the CONS_INDEX write that releases receive descriptors.

    Registers are numbers below `2 ^ 32` with the fields of the source.  The
    guest's memory is part of the state, since the device writes it. -/

namespace Genet

open Register

/-! ## Registers -/

def DMA_CTRL_EN : Field := ⟨0, 1⟩
def DMA_CTRL_RING_BUF_EN : Field := ⟨1, 17⟩
def DMA_RING_CFG_EN : Field := ⟨0, 17⟩
def PROD_INDEX : Field := ⟨0, 16⟩
def DISCARD_CNT : Field := ⟨16, 16⟩
def CONS_INDEX : Field := ⟨0, 16⟩
def RXERR : Field := ⟨2, 1⟩
def MULTICAST : Field := ⟨5, 1⟩
def BROADCAST : Field := ⟨6, 1⟩
def SOP : Field := ⟨13, 1⟩
def EOP : Field := ⟨14, 1⟩
def OWN : Field := ⟨15, 1⟩
def BUFLENGTH : Field := ⟨16, 12⟩
def INTRL_0_RXDMA_MBDONE : Field := ⟨13, 1⟩
def INTRL_0_TXDMA_MBDONE : Field := ⟨16, 1⟩
def INTRL_1_TX_INTRS : Field := ⟨0, 16⟩
def INTRL_1_RX_INTRS : Field := ⟨16, 16⟩
def UMAC_CMD_CRC_FWD : Field := ⟨6, 1⟩

def DMA_DESC_CNT : Nat := 256
def DMA_RING_CNT : Nat := 17
def DMA_RING_DEFAULT : Nat := DMA_RING_CNT - 1
def MAX_FRAME_SIZE : Nat := 0xFFF
def MAX_PACKET_SIZE : Nat := 1518
def MAX_PAYLOAD_SIZE : Nat := 1500
def ETH_HLEN : Nat := 14

/-- `sizeof(BCM2838GenetXmitStatus)`. -/
def XMIT_STATUS_SIZE : Nat := 64

/-- The words of a descriptor. -/
def DESC_SIZE_WORDS : Nat := 3

/-- A register pair, low and high word. -/
def wide (lo hi : Nat) : Nat := lo + 2 ^ 32 * hi

theorem wide_split (x : Nat) : wide (x % 2 ^ 32) (x / 2 ^ 32) = x := by
  unfold wide
  omega

/-- `BCM2838GenetRdmaDesc` and `BCM2838GenetTdmaDesc`. -/
structure Desc where
  length_status : Nat
  address_lo : Nat
  address_hi : Nat
  deriving DecidableEq, Repr

def Desc.address (d : Desc) : Nat := wide d.address_lo d.address_hi

@[simp] theorem Desc.address_mk (d : Desc) (st : Nat) :
    ({ d with length_status := st } : Desc).address = d.address := by
  simp only [Desc.address]

/-- `BCM2838GenetRdmaRing`, the registers that the receive path uses. -/
structure RdmaRing where
  write_ptr : Nat
  write_ptr_hi : Nat
  prod_index : Nat
  cons_index : Nat
  ring_buf_size : Nat
  start_addr : Nat
  start_addr_hi : Nat
  end_addr : Nat
  end_addr_hi : Nat
  deriving DecidableEq, Repr

/-- `BCM2838GenetTdmaRing`, the registers that the transmit path uses. -/
structure TdmaRing where
  read_ptr : Nat
  read_ptr_hi : Nat
  cons_index : Nat
  prod_index : Nat
  start_addr : Nat
  start_addr_hi : Nat
  end_addr : Nat
  end_addr_hi : Nat
  deriving DecidableEq, Repr

/-- A DMA engine: its descriptors, its rings and its control registers.  The
    arrays have `DMA_DESC_CNT` and `DMA_RING_CNT` entries.  No receive index is
    checked against the descriptors, and what lies behind them in the device
    is not told here: a result about whole frames assumes that their indices
    are those of descriptors. -/
structure Dma (Ring : Type) where
  descs : Nat → Desc
  rings : Nat → Ring
  ring_cfg : Nat
  ctrl : Nat

structure Intrl where
  stat : Nat
  mask_status : Nat
  deriving DecidableEq, Repr

/-- `BCM2838GenetState`, and the guest's memory. -/
structure State where
  rdma : Dma RdmaRing
  tdma : Dma TdmaRing
  intrl0 : Intrl
  intrl1 : Intrl
  umac_cmd : Nat
  rbuf_ctrl : Nat
  rbuf_chk_ctrl : Nat
  tbuf_ctrl : Nat
  tx_packet : Memory
  rx_packet : Memory
  irq_default : Bool
  irq_prio : Bool
  mem : Memory

/-- QEMU's checksum functions (`net/checksum.h`), and what becomes of a DMA
    write. -/
structure Net where
  /-- `net_checksum_calculate`: the frame with its checksums filled in. -/
  checksum : List UInt8 → List UInt8
  checksum_length : ∀ frame, (checksum frame).length = frame.length
  /-- `net_checksum_add`. -/
  checksum_add : List UInt8 → Nat
  /-- The result of `address_space_write` at an address, for a length. -/
  dma_ok : Nat → Nat → Bool
  /-- The bytes that a write at an address, for a length, stores when it fails:
      those of its parts that are backed by memory. -/
  dma_part : Nat → Nat → Nat → Bool

/-- A network whose frames carry no checksums, with a given DMA; what fails
    stores nothing. -/
def Net.unsummed (dma_ok : Nat → Nat → Bool) : Net where
  checksum frame := frame
  checksum_length _ := rfl
  checksum_add _ := 0
  dma_ok := dma_ok
  dma_part _ _ _ := false

/-- The guest's memory after `address_space_write`. -/
def address_space_write (net : Net) (mem : Memory) (addr : Nat) (data : List UInt8) : Memory :=
  if net.dma_ok addr data.length then mem.write addr data
  else mem.writePart addr data (net.dma_part addr data.length)

/-- A function with one more value. -/
def update {α : Type} (f : Nat → α) (i : Nat) (x : α) : Nat → α :=
  fun j => if j = i then x else f j

@[simp] theorem update_self {α : Type} (f : Nat → α) (i : Nat) (x : α) : update f i x i = x := by
  simp [update]

theorem update_of_ne {α : Type} (f : Nat → α) {i j : Nat} (x : α) (h : j ≠ i) :
    update f i x j = f j := by
  simp [update, h]

/-! ## Interrupt lines -/

def Intrl.pending (r : Intrl) : Bool := r.stat &&& (r.mask_status ^^^ 0xFFFFFFFF) != 0

def set_irq (s : State) : State :=
  { s with irq_default := s.intrl0.pending, irq_prio := s.intrl1.pending }

/-! ## Transmit -/

/-- `bcm2838_genet_xmit_packet`: the packet buffer afterwards, and the frame
    handed to the backend. -/
def xmit_packet (net : Net) (tbuf_ctrl : Nat) (packet : Memory) (size : Nat) :
    Memory × List UInt8 :=
  let tsb_en := tbuf_ctrl % 2 = 1 ∧ XMIT_STATUS_SIZE < size
  let buf := if tsb_en then XMIT_STATUS_SIZE else 0
  let len := if tsb_en then size - XMIT_STATUS_SIZE else size
  let packet := packet.write buf (net.checksum (packet.read buf len))
  let len_type := Bytes.be16At (packet.read (buf + 12) 2) 0
  let packet :=
    if len_type < MAX_PAYLOAD_SIZE then packet.write (buf + 12) (Bytes.be16 (len % 2 ^ 16))
    else packet
  (packet, packet.read buf len)

/-- The variables of the walk over the descriptors, and the frames sent. -/
structure Walk where
  descs : Nat → Desc
  tx_packet : Memory
  read_ptr : Nat
  cons : Nat
  packet_off : Nat
  num_descs : Nat
  sent : List (List UInt8)

/-- One turn of the walk, at a valid descriptor. -/
def tx_desc (net : Net) (mem : Memory) (tbuf_ctrl start_addr end_addr : Nat) (w : Walk) : Walk :=
  let desc_index := w.read_ptr / DESC_SIZE_WORDS
  let desc := w.descs desc_index
  let packet_off := if ex SOP desc.length_status ≠ 0 then 0 else w.packet_off
  let buflength := ex BUFLENGTH desc.length_status
  let packet := w.tx_packet.write packet_off (mem.read desc.address buflength)
  let packet_off := packet_off + buflength
  let out :=
    if ex EOP desc.length_status ≠ 0 then
      let r := xmit_packet net tbuf_ctrl packet packet_off
      (r.1, 0, w.sent ++ [r.2])
    else (packet, packet_off, w.sent)
  { descs := update w.descs desc_index
      { desc with length_status := dp OWN desc.length_status 1 }
    tx_packet := out.1
    read_ptr :=
      if w.read_ptr + DESC_SIZE_WORDS = end_addr + 1 then start_addr
      else w.read_ptr + DESC_SIZE_WORDS
    cons := (w.cons + 1) % 2 ^ 16
    packet_off := out.2.1
    num_descs := w.num_descs + 1
    sent := out.2.2 }

def tx_loop (net : Net) (mem : Memory) (tbuf_ctrl start_addr end_addr prod : Nat) :
    Nat → Walk → Walk
  | 0, w => w
  | fuel + 1, w =>
    if w.cons = prod then w
    else if DMA_DESC_CNT ≤ w.read_ptr / DESC_SIZE_WORDS then w
    else
      tx_loop net mem tbuf_ctrl start_addr end_addr prod fuel
        (tx_desc net mem tbuf_ctrl start_addr end_addr w)

/-- `bcm2838_genet_tx`.  The consumer index runs through 16 bits, so the walk
    takes fewer than `2 ^ 16` turns. -/
def tx (net : Net) (s : State) (ring_index prod_index cons_index : Nat) : Walk :=
  let ring := s.tdma.rings ring_index
  tx_loop net s.mem s.tbuf_ctrl (wide ring.start_addr ring.start_addr_hi)
    (wide ring.end_addr ring.end_addr_hi) (ex PROD_INDEX prod_index) (2 ^ 16)
    { descs := s.tdma.descs
      tx_packet := s.tx_packet
      read_ptr := wide ring.read_ptr ring.read_ptr_hi
      cons := ex CONS_INDEX cons_index
      packet_off := 0
      num_descs := 0
      sent := [] }

def tdma_ring_active (s : State) (ring_index : Nat) : Bool :=
  ex DMA_CTRL_EN s.tdma.ctrl != 0 &&
  (ex DMA_RING_CFG_EN s.tdma.ring_cfg).testBit ring_index &&
  (ex DMA_CTRL_RING_BUF_EN s.tdma.ctrl).testBit ring_index

/-- What `bcm2838_genet_tx` and its caller store in the device. -/
def tx_done (s : State) (ring_index cons_index : Nat) (w : Walk) : State :=
  let ring := s.tdma.rings ring_index
  let ring := { ring with read_ptr := w.read_ptr % 2 ^ 32, read_ptr_hi := w.read_ptr / 2 ^ 32 }
  let ring :=
    if 0 < w.num_descs then
      { ring with cons_index := dp CONS_INDEX ring.cons_index (cons_index + w.num_descs) }
    else ring
  let s :=
    { s with
      tdma := { s.tdma with descs := w.descs, rings := update s.tdma.rings ring_index ring }
      tx_packet := w.tx_packet }
  if 0 < w.num_descs then
    if ring_index = DMA_RING_DEFAULT then
      { s with intrl0 := { s.intrl0 with stat := dp INTRL_0_TXDMA_MBDONE s.intrl0.stat 1 } }
    else
      { s with intrl1 := { s.intrl1 with
          stat := dp INTRL_1_TX_INTRS s.intrl1.stat
            (ex INTRL_1_TX_INTRS s.intrl1.stat ||| 2 ^ ring_index) } }
  else s

/-- `bcm2838_genet_tdma` at a ring's PROD_INDEX. -/
def tdma_prod_index (net : Net) (s : State) (ring_index value : Nat) :
    State × List (List UInt8) :=
  if tdma_ring_active s ring_index then
    let cons_index := (s.tdma.rings ring_index).cons_index
    if ex CONS_INDEX cons_index ≠ ex PROD_INDEX value then
      let w := tx net s ring_index value cons_index
      (tx_done s ring_index cons_index w, w.sent)
    else (s, [])
  else (s, [])

/-- `bcm2838_genet_write` of a transmit ring's PROD_INDEX: the handler runs,
    then the value is stored. -/
def write_tx_prod_index (net : Net) (s : State) (ring_index value : Nat) :
    State × List (List UInt8) :=
  let r := tdma_prod_index net s ring_index value
  let s := r.1
  let ring := { s.tdma.rings ring_index with prod_index := value }
  (set_irq { s with tdma := { s.tdma with rings := update s.tdma.rings ring_index ring } }, r.2)

/-! ## Receive -/

def rdma_ring_active (s : State) (ring_index : Nat) : Bool :=
  -- the default ring needs no enable bits of its own
  ex DMA_CTRL_EN s.rdma.ctrl != 0 &&
  (ring_index == DMA_RING_DEFAULT ||
    ((ex DMA_RING_CFG_EN s.rdma.ring_cfg).testBit ring_index &&
      (ex DMA_CTRL_RING_BUF_EN s.rdma.ctrl).testBit ring_index))

def RdmaRing.start_index (r : RdmaRing) : Nat :=
  wide r.start_addr r.start_addr_hi / DESC_SIZE_WORDS

def RdmaRing.end_index (r : RdmaRing) : Nat :=
  wide r.end_addr r.end_addr_hi / DESC_SIZE_WORDS

def RdmaRing.write_index (r : RdmaRing) : Nat :=
  wide r.write_ptr r.write_ptr_hi / DESC_SIZE_WORDS

/-- No index of the ring's pointers and bounds is larger. -/
def RdmaRing.index_bound (r : RdmaRing) : Nat :=
  max r.write_index (max r.start_index r.end_index)

def is_packet_broadcast (frame : List UInt8) : Bool :=
  decide (6 ≤ frame.length) && frame.take 6 == List.replicate 6 0xFF

/-- The bytes before the frame in the buffer. -/
def hdr_size (rbuf_ctrl : Nat) : Nat :=
  (if rbuf_ctrl.testBit 0 then XMIT_STATUS_SIZE else 0) + if rbuf_ctrl.testBit 1 then 2 else 0

/-- The bytes after the frame in the buffer. -/
def crc_size (umac_cmd : Nat) : Nat := if ex UMAC_CMD_CRC_FWD umac_cmd ≠ 0 then 4 else 0

/-- The four bytes of a 32-bit word in the host's order. -/
def le32 (n : Nat) : List UInt8 := Bytes.le16 n ++ Bytes.le16 (n / 65536)

/-- The status block of a frame. -/
def status_block (net : Net) (rbuf_chk_ctrl : Nat) (frame : List UInt8) (length_status : Nat)
    (packet : Memory) : Memory :=
  let rx_csum :=
    if rbuf_chk_ctrl.testBit 0 && decide (ETH_HLEN < frame.length) then
      let sum := net.checksum_add (frame.drop ETH_HLEN)
      let sum := sum % 2 ^ 16 + sum / 2 ^ 16
      sum % 2 ^ 16 + sum / 2 ^ 16
    else 0
  (packet.write 8 (le32 rx_csum)).write 0 (le32 length_status)

/-- The variables of `bcm2838_genet_rdma`'s loop. -/
structure Fill where
  descs : Nat → Desc
  ring : RdmaRing
  rx_packet : Memory
  mem : Memory
  write_index : Nat
  len : Nat

/-- One turn of the loop: the next piece goes into the descriptor at
    `write_index`.  `false`: the loop breaks. -/
def rdma_turn (net : Net) (s : State) (buf : List UInt8) (f : Fill) : Fill × Bool :=
  let desc := f.descs f.write_index
  let l := min (buf.length - f.len) f.ring.ring_buf_size
  let piece := (buf.drop f.len).take l
  let hdr := hdr_size s.rbuf_ctrl
  let packet := f.rx_packet.write hdr piece
  let len := f.len + l
  let st := dp EOP desc.length_status (if buf.length ≤ len then 1 else 0)
  let buflength := l + hdr + crc_size s.umac_cmd
  let st := dp BUFLENGTH st buflength
  let st := dp BROADCAST st (if is_packet_broadcast piece then 1 else 0)
  let st := dp MULTICAST st ((packet hdr).toNat % 2)
  let packet :=
    if s.rbuf_ctrl.testBit 0 then status_block net s.rbuf_chk_ctrl piece st packet else packet
  let n := min buflength (f.ring.ring_buf_size % 2 ^ 16)
  let ok := net.dma_ok desc.address n
  let mem := address_space_write net f.mem desc.address (packet.read 0 n)
  let st := if ok then st else dp RXERR st 1
  let descs := update f.descs f.write_index { desc with length_status := st }
  if ex RXERR st ≠ 0 then
    ({ f with descs := descs, rx_packet := packet, mem := mem, len := len }, false)
  else
    let prod_index := dp PROD_INDEX f.ring.prod_index (ex PROD_INDEX f.ring.prod_index + 1)
    let write_index :=
      if f.ring.end_index < f.write_index + 1 then f.ring.start_index else f.write_index + 1
    ({ descs := descs
       ring := { f.ring with
         prod_index := prod_index
         write_ptr := write_index * DESC_SIZE_WORDS % 2 ^ 32
         write_ptr_hi := write_index * DESC_SIZE_WORDS / 2 ^ 32 }
       rx_packet := packet
       mem := mem
       write_index := write_index
       len := len }, true)

/-- `none`: the fuel ran out. -/
def rdma_loop (net : Net) (s : State) (buf : List UInt8) : Nat → Fill → Option Fill
  | 0, _ => none
  | fuel + 1, f =>
    if f.len < buf.length then
      let r := rdma_turn net s buf f
      if r.2 then rdma_loop net s buf fuel r.1 else some r.1
    else some f

/-- What a fill leaves in the device. -/
def rdma_done (s : State) (ring_idx : Nat) (f : Fill) : State :=
  let s :=
    { s with
      rdma := { s.rdma with descs := f.descs, rings := update s.rdma.rings ring_idx f.ring }
      rx_packet := f.rx_packet
      mem := f.mem
      intrl1 := { s.intrl1 with
        stat := dp INTRL_1_RX_INTRS s.intrl1.stat
          (ex INTRL_1_RX_INTRS s.intrl1.stat ||| 2 ^ ring_idx) } }
  if ring_idx = DMA_RING_DEFAULT then
    { s with intrl0 := { s.intrl0 with stat := dp INTRL_0_RXDMA_MBDONE s.intrl0.stat 1 } }
  else s

/-- `bcm2838_genet_rdma`: the return value and the state. -/
def rdma (net : Net) (s : State) (ring_idx : Nat) (buf : List UInt8) : Option (Int × State) :=
  if rdma_ring_active s ring_idx then
    let ring := s.rdma.rings ring_idx
    let desc := s.rdma.descs ring.write_index
    -- a turn takes at least one byte, or goes on to the next descriptor of the
    -- ring when the buffers have no size
    (rdma_loop net s buf (buf.length + ring.index_bound + 2)
      { descs := update s.rdma.descs ring.write_index
          { desc with length_status := dp SOP desc.length_status 1 }
        ring := ring
        rx_packet := s.rx_packet
        mem := s.mem
        write_index := ring.write_index
        len := 0 }).map (fun f => ((f.len : Int), rdma_done s ring_idx f))
  else some (-1, s)

def default_rx_ring (s : State) : Nat :=
  if (s.rdma.rings 0).start_addr ≠ 0 ∨ (s.rdma.rings 0).end_addr ≠ 0 then 0
  else DMA_RING_CNT - 1

/-- The descriptors that PROD_INDEX is ahead of CONS_INDEX. -/
def RdmaRing.used (r : RdmaRing) : Nat :=
  (ex PROD_INDEX r.prod_index + 2 ^ 16 - ex CONS_INDEX r.cons_index) % 2 ^ 16

def rdma_free_descs (s : State) (ring_idx : Nat) : Nat :=
  let ring := s.rdma.rings ring_idx
  if ring.end_index < ring.start_index then 0
  else
    let ring_len := (ring.end_index - ring.start_index + 1) % 2 ^ 32
    if ring.used < ring_len then ring_len - ring.used else 0

def can_receive (s : State) : Bool :=
  if ex DMA_CTRL_EN s.rdma.ctrl = 0 then false
  else decide (0 < rdma_free_descs s (default_rx_ring s))

/-- `bcm2838_genet_receive`.  No filter matches, so the frame goes to the
    default ring. -/
def receive (net : Net) (s : State) (buf : List UInt8) : Option (Int × State) :=
  if ex DMA_CTRL_EN s.rdma.ctrl ≠ 0 then
    let ring_index := default_rx_ring s
    if rdma_ring_active s ring_index && rdma_free_descs s ring_index == 0 then some (0, s)
    else if buf.length ≤ MAX_PACKET_SIZE then
      (rdma net s ring_index buf).map (fun r => (r.1, set_irq r.2))
    else some (-1, set_irq s)
  else some (-1, set_irq s)

/-- `bcm2838_genet_write` of a receive ring's CONS_INDEX: the state, and
    whether the queued frames are flushed. -/
def write_rx_cons_index (s : State) (ring_index value : Nat) : State × Bool :=
  let ring := { s.rdma.rings ring_index with cons_index := value }
  let s := set_irq { s with rdma := { s.rdma with rings := update s.rdma.rings ring_index ring } }
  (s, can_receive s)

end Genet
