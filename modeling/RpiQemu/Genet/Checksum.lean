import RpiQemu.Framework.OnesComplement
import RpiQemu.Genet.Describe

/-! # The receive checksum

    With RBUF_64B_EN and RBUF_RXCHK_EN the status block before a frame holds
    its folded one's-complement sum.  The driver swaps the two bytes and hands
    them to the kernel as CHECKSUM_COMPLETE, the sum that it would make of the
    little-endian words itself; a zero it takes for no checksum.

    * **Status block**: what is stored is what is read, in the receive buffer
      and in the guest's memory (`status_block_rx_csum`, `mem_after_rx_csum`).
    * **The kernel's sum**: for a frame that one descriptor takes, the stored
      sum is the kernel's (`rx_csum_complete`). -/

namespace Genet

open OnesComplement

/-! ## The field -/

/-- The field `rx_csum` of a status block at an address. -/
def rx_csum_at (mem : Memory) (addr : Nat) : Nat :=
  let d := mem.read (addr + 8) 4
  Bytes.le16At d 0 + Bytes.le16At d 2 * 65536

theorem le32_load (n : Nat) :
    Bytes.le16At (le32 n) 0 + Bytes.le16At (le32 n) 2 * 65536 = n % 2 ^ 32 := by
  simp [le32, Bytes.le16, Bytes.le16At, Bytes.byteAt, UInt8.toNat_ofNat']
  omega

theorem status_block_rx_csum {net : Net} {chk st : Nat} {frame : List UInt8} {packet : Memory}
    (hchk : chk.testBit 0 = true) (hlen : ETH_HLEN < frame.length)
    (hadd : net.checksum_add (frame.drop ETH_HLEN) < 2 ^ 32) :
    rx_csum_at (status_block net chk frame st packet) 0 =
      fold (fold (net.checksum_add (frame.drop ETH_HLEN))) := by
  have hcond : (chk.testBit 0 && decide (ETH_HLEN < frame.length)) = true := by
    simp [hchk, hlen]
  have hlt := fold_fold_lt hadd
  have hread : (status_block net chk frame st packet).read (0 + 8) 4 =
      le32 (fold (fold (net.checksum_add (frame.drop ETH_HLEN)))) := by
    unfold status_block
    rw [if_pos hcond, Memory.read_write_outside]
    · exact Memory.read_write_self packet 8 _
    · right
      exact Nat.le_add_right 4 4
  rw [rx_csum_at, hread, le32_load]
  omega

/-! ## The turn -/

section

variable {net : Net} {s : State} {buf : List UInt8} {f : Fill}

theorem mem_after_rx_csum (hok : f.dma_ok net s buf = true) (hlen : 12 ≤ f.dma_len s buf) :
    rx_csum_at (f.mem_after net s buf) (f.descs f.write_index).address =
      rx_csum_at (f.staged net s buf) 0 := by
  have hread : (f.mem_after net s buf).read ((f.descs f.write_index).address + 8) 4 =
      (f.staged net s buf).read (0 + 8) 4 := by
    rw [mem_after_of_ok hok, Memory.read_write_inside, Memory.take_drop_read]
    · omega
    · rw [Memory.read_length]
      omega
  unfold rx_csum_at
  rw [hread]

/-- A frame that fits is taken in one turn, which may break or not. -/
theorem rdma_loop_one_turn (hne : 0 < buf.length) (hstart : f.len = 0)
    (hsize : buf.length ≤ f.ring.ring_buf_size) (fuel : Nat) :
    ∃ f', rdma_loop net s buf (fuel + 2) f = some f' ∧ f'.len = buf.length ∧
      f'.rx_packet = f.staged net s buf ∧ f'.mem = f.mem_after net s buf := by
  have htake : f.len + f.take_len buf = buf.length := by
    unfold Fill.take_len
    omega
  rw [rdma_loop, if_pos (by omega)]
  by_cases hfails : f.fails net s buf
  · simp only [rdma_turn_fails hfails, Bool.false_eq_true, if_false]
    exact ⟨_, rfl, htake, rfl, rfl⟩
  · simp only [rdma_turn_goes hfails, if_true]
    rw [rdma_loop, if_neg (by simp only [htake]; omega)]
    exact ⟨_, rfl, htake, rfl, rfl⟩

theorem piece_whole (hstart : f.len = 0) (hsize : buf.length ≤ f.ring.ring_buf_size) :
    f.piece buf = buf := by
  have htake : buf.length ≤ f.take_len buf := by
    unfold Fill.take_len
    omega
  rw [Fill.piece, hstart, List.drop_zero, List.take_of_length_le htake]

theorem rdma_done_rx_packet (s : State) (r : Nat) (f : Fill) :
    (set_irq (rdma_done s r f)).rx_packet = f.rx_packet := by
  unfold rdma_done
  by_cases h : r = DMA_RING_DEFAULT
  · rw [if_pos h]
    rfl
  · rw [if_neg h]
    rfl

end

/-! ## The sum -/

/-- The stored sum is the one that the kernel would make of the bytes: it is
    a word, the driver's swap of it is their sum, and it says that there is no
    checksum only where there is nothing to sum. -/
structure KernelSum (csum : Nat) (bytes : List UInt8) : Prop where
  word : csum < 2 ^ 16
  swapped : swap csum ≡ le_sum bytes [MOD 0xFFFF]
  absent : csum = 0 → ∀ b ∈ bytes, b = 0

theorem kernel_sum {bytes : List UInt8} (h : be_sum bytes < 2 ^ 32) :
    KernelSum (fold (fold (be_sum bytes))) bytes where
  word := fold_fold_lt h
  swapped := swap_fold_fold h
  absent := by
    intro hzero
    rw [fold_eq_zero, fold_eq_zero] at hzero
    exact (be_sum_eq_zero bytes).mp hzero

/-- A frame of the largest size does not overflow the sum. -/
theorem frame_sum_lt {buf : List UInt8} (hmax : buf.length ≤ MAX_PACKET_SIZE) :
    be_sum (buf.drop ETH_HLEN) < 2 ^ 32 := by
  have hle := be_sum_le (buf.drop ETH_HLEN)
  have hlen : (buf.drop ETH_HLEN).length ≤ MAX_PACKET_SIZE := by
    rw [List.length_drop]
    omega
  unfold MAX_PACKET_SIZE at hlen
  omega

/-- A frame that one descriptor takes, with both features on: the status block
    holds the sum folded twice, which is the kernel's, and so does the guest's
    memory when the write to it succeeds and gets as far. -/
theorem rx_csum_complete {net : Net} {s : State} {buf : List UInt8}
    (hadd : ∀ bytes, net.checksum_add bytes = be_sum bytes % 2 ^ 32)
    (hfill : Filling s buf) (hlen : ETH_HLEN < buf.length)
    (hone : buf.length ≤ (s.rdma.rings (default_rx_ring s)).ring_buf_size)
    (h64b : s.rbuf_ctrl.testBit 0 = true) (hchk : s.rbuf_chk_ctrl.testBit 0 = true) :
    ∃ s', receive net s buf = some ((buf.length : Int), s') ∧
      let ring := s.rdma.rings (default_rx_ring s)
      let desc := s.rdma.descs ring.write_index
      let csum := rx_csum_at s'.rx_packet 0
      csum = fold (fold (be_sum (buf.drop ETH_HLEN))) ∧
      KernelSum csum (buf.drop ETH_HLEN) ∧
      (net.dma_ok desc.address (rx_dma_len s (default_rx_ring s) buf 0) = true →
        12 ≤ ring.ring_buf_size % 2 ^ 16 → rx_csum_at s'.mem desc.address = csum) := by
  have hstart := fill_start_at s (default_rx_ring s) buf
  have hlt := frame_sum_lt hfill.max
  have hsum : net.checksum_add (buf.drop ETH_HLEN) = be_sum (buf.drop ETH_HLEN) := by
    rw [hadd, Nat.mod_eq_of_lt hlt]
  rw [receive_filling hfill]
  generalize hr : default_rx_ring s = r at *
  obtain ⟨f, hloop, hflen, hpacket, hmem⟩ := @rdma_loop_one_turn net s buf (fill_start s r)
    (by omega) rfl hone (buf.length + (s.rdma.rings r).index_bound)
  have hcsum : rx_csum_at ((fill_start s r).staged net s buf) 0 =
      fold (fold (be_sum (buf.drop ETH_HLEN))) := by
    rw [Fill.staged, if_pos h64b, piece_whole rfl hone, ← hsum]
    exact status_block_rx_csum hchk hlen (by omega)
  refine ⟨set_irq (rdma_done s r f), ?_, ?_⟩
  · rw [hloop, Option.map_some, hflen]
  · dsimp only
    rw [rdma_done_rx_packet, (rdma_done_fields s r f).2.1, hpacket, hmem, hcsum]
    refine ⟨rfl, kernel_sum hlt, ?_⟩
    intro hok hcovers
    -- the descriptor's address is that of before SOP was set
    have haddr : (((fill_start s r).descs (fill_start s r).write_index)).address =
        (s.rdma.descs (s.rdma.rings r).write_index).address :=
      hstart.address _
    have hdma : (fill_start s r).dma_len s buf = rx_dma_len s r buf 0 := hstart.dma_len (by omega)
    rw [← hcsum, ← haddr]
    apply mem_after_rx_csum
    · rw [Fill.dma_ok, haddr, hdma]
      exact hok
    · rw [hdma, rx_dma_len, hdr_size, if_pos h64b, XMIT_STATUS_SIZE]
      omega

/-- QEMU's word sum, and DMA writes that succeed. -/
def summing_net : Net :=
  { plain_net with checksum_add := fun bytes => be_sum bytes % 2 ^ 32 }

/-- The receive ring with both features on. -/
def checking_ring : State := { two_descs with rbuf_ctrl := 1, rbuf_chk_ctrl := 1 }

/-- A frame with three bytes after its header. -/
def odd_frame : List UInt8 := List.replicate 14 0 ++ [0xFF, 0xFE, 0x03]

/-- Its words are 0xFFFE and 0x0300: one fold is enough, and the driver finds
    0xFF03. -/
theorem odd_frame_checked :
    ∃ s', receive summing_net checking_ring odd_frame = some (17, s') ∧
      KernelSum (rx_csum_at s'.rx_packet 0) [0xFF, 0xFE, 0x03] ∧
      rx_csum_at s'.mem 4096 = rx_csum_at s'.rx_packet 0 := by
  obtain ⟨s', hrecv, -, hsum, hmem⟩ := @rx_csum_complete summing_net checking_ring
    odd_frame (fun _ => rfl)
    ⟨by decide, by decide, by decide, by decide⟩ (by decide) (by decide) rfl rfl
  exact ⟨s', hrecv, hsum, hmem rfl (by decide)⟩

end Genet
