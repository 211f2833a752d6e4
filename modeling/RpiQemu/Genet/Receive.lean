import RpiQemu.Genet.Device

/-! # The receive ring is a queue

    A frame fills the descriptor at `write_ptr` and moves `write_ptr` and
    PROD_INDEX; the guest releases descriptors by moving CONS_INDEX.  The
    ring wraps at its own length, the indices at 16 bits.

    * **Queue**: the frames accepted so far and the number of descriptors
      released so far determine the ring (`Queue`).
    * **Step**: a frame is refused when the ring is full, and otherwise goes
      to the slot behind the last one (`receive_refused`, `receive_accepted`);
      a CONS_INDEX write drops frames at the front (`queue_release`).
    * **Run**: so after any run the ring holds the accepted frames that are
      not released, in order (`rx_ring_is_fifo`). -/

namespace Genet

open Register

/-- A receive ring as a driver programs it: the descriptors `first` to
    `last`, each with a buffer of its own. -/
structure Programmed (net : Net) (s : State) (first last : Nat) : Prop where
  enabled : ex DMA_CTRL_EN s.rdma.ctrl ≠ 0
  active : rdma_ring_active s (default_rx_ring s) = true
  start_addr : wide (s.rdma.rings (default_rx_ring s)).start_addr
    (s.rdma.rings (default_rx_ring s)).start_addr_hi = first * DESC_SIZE_WORDS
  end_addr : wide (s.rdma.rings (default_rx_ring s)).end_addr
    (s.rdma.rings (default_rx_ring s)).end_addr_hi + 1 = (last + 1) * DESC_SIZE_WORDS
  ordered : first ≤ last
  last_lt : last < DMA_DESC_CNT
  no_rxerr : ∀ j, first ≤ j → j ≤ last → ex RXERR (s.rdma.descs j).length_status = 0
  dma_ok : ∀ j n, first ≤ j → j ≤ last → net.dma_ok (s.rdma.descs j).address n = true
  own_buffers : ∀ i j, first ≤ i → i ≤ last → first ≤ j → j ≤ last → i ≠ j →
    (s.rdma.descs i).address +
        (s.rdma.rings (default_rx_ring s)).ring_buf_size % 2 ^ 16 ≤ (s.rdma.descs j).address ∨
      (s.rdma.descs j).address +
        (s.rdma.rings (default_rx_ring s)).ring_buf_size % 2 ^ 16 ≤ (s.rdma.descs i).address
  discard : ex DISCARD_CNT (s.rdma.rings (default_rx_ring s)).prod_index = 0

/-- A frame that fits a buffer of the ring. -/
structure Fits (s : State) (buf : List UInt8) : Prop where
  nonempty : 1 ≤ buf.length
  max : buf.length ≤ MAX_PACKET_SIZE
  size : buf.length ≤ (s.rdma.rings (default_rx_ring s)).ring_buf_size
  room : buf.length + hdr_size s.rbuf_ctrl + crc_size s.umac_cmd ≤
    (s.rdma.rings (default_rx_ring s)).ring_buf_size % 2 ^ 16

/-- A descriptor holds a frame. -/
structure Holds (s : State) (j : Nat) (frame : List UInt8) : Prop where
  sop : ex SOP (s.rdma.descs j).length_status = 1
  eop : ex EOP (s.rdma.descs j).length_status = 1
  length : ex BUFLENGTH (s.rdma.descs j).length_status =
    frame.length + hdr_size s.rbuf_ctrl + crc_size s.umac_cmd
  data : s.mem.read ((s.rdma.descs j).address + hdr_size s.rbuf_ctrl) frame.length = frame

/-- The ring after `accepted` frames, of which `released` are released; the
    indices started at `p`. -/
structure Queue (net : Net) (first last p : Nat) (s : State) (accepted : List (List UInt8))
    (released : Nat) : Prop extends Programmed net s first last where
  released_le : released ≤ accepted.length
  fits_ring : accepted.length ≤ released + (last - first + 1)
  write_ptr : wide (s.rdma.rings (default_rx_ring s)).write_ptr
      (s.rdma.rings (default_rx_ring s)).write_ptr_hi =
    (first + accepted.length % (last - first + 1)) * DESC_SIZE_WORDS
  prod_index : ex PROD_INDEX (s.rdma.rings (default_rx_ring s)).prod_index =
    (p + accepted.length) % 2 ^ 16
  cons_index : ex CONS_INDEX (s.rdma.rings (default_rx_ring s)).cons_index =
    (p + released) % 2 ^ 16
  room : ∀ frame ∈ accepted, frame.length + hdr_size s.rbuf_ctrl ≤
    (s.rdma.rings (default_rx_ring s)).ring_buf_size % 2 ^ 16
  holds : ∀ k frame, released ≤ k → accepted[k]? = some frame →
    Holds s (first + k % (last - first + 1)) frame

/-! ## Indices -/

/-- Counts less than the ring's length apart have different slots. -/
theorem slot_ne {n a b : Nat} (hab : a < b) (hn : b < a + n) : a % n ≠ b % n := by
  intro h
  have h₁ : (b - a) % n = 0 := Nat.sub_mod_eq_zero_of_mod_eq h.symm
  rw [Nat.mod_eq_of_lt (by omega)] at h₁
  omega

theorem slot_succ (a : Nat) {n : Nat} (hn : 0 < n) :
    (a + 1) % n = if a % n + 1 = n then 0 else a % n + 1 := by
  have hlt := Nat.mod_lt a hn
  rw [Nat.add_mod]
  by_cases h₁ : n = 1
  · subst h₁
    simp [Nat.mod_one]
  · rw [Nat.mod_eq_of_lt (show 1 < n by omega)]
    by_cases h : a % n + 1 = n
    · rw [if_pos h, h, Nat.mod_self]
    · rw [if_neg h, Nat.mod_eq_of_lt (by omega)]

section

variable {net : Net} {first last p : Nat} {s : State} {accepted : List (List UInt8)}
  {released : Nat}

theorem Programmed.start_index (h : Programmed net s first last) :
    (s.rdma.rings (default_rx_ring s)).start_index = first := by
  rw [RdmaRing.start_index, h.start_addr, DESC_SIZE_WORDS]
  omega

theorem Programmed.end_index (h : Programmed net s first last) :
    (s.rdma.rings (default_rx_ring s)).end_index = last := by
  have := h.end_addr
  rw [RdmaRing.end_index, DESC_SIZE_WORDS]
  rw [DESC_SIZE_WORDS] at this
  omega

theorem Queue.write_index (h : Queue net first last p s accepted released) :
    (s.rdma.rings (default_rx_ring s)).write_index =
      first + accepted.length % (last - first + 1) := by
  rw [RdmaRing.write_index, h.write_ptr, DESC_SIZE_WORDS]
  omega

/-- PROD_INDEX is ahead by the frames that are not released. -/
theorem Queue.used (h : Queue net first last p s accepted released) :
    (s.rdma.rings (default_rx_ring s)).used = accepted.length - released := by
  have h₁ := h.released_le
  have h₂ := h.fits_ring
  have h₃ := h.last_lt
  rw [RdmaRing.used, h.prod_index, h.cons_index]
  rw [DMA_DESC_CNT] at h₃
  omega

theorem Queue.free_descs (h : Queue net first last p s accepted released) :
    rdma_free_descs s (default_rx_ring s) =
      released + (last - first + 1) - accepted.length := by
  have h₁ := h.released_le
  have h₂ := h.fits_ring
  have h₃ := h.last_lt
  have h₄ := h.ordered
  rw [DMA_DESC_CNT] at h₃
  unfold rdma_free_descs
  simp only [h.start_index, h.end_index, h.used]
  rw [if_neg (by omega), Nat.mod_eq_of_lt (by omega)]
  by_cases hlt : accepted.length - released < last - first + 1
  · rw [if_pos hlt]
    omega
  · rw [if_neg hlt]
    omega

end

/-! ## A frame arrives -/

/-- What the receive buffer holds after the status block: the frame behind
    the header. -/
theorem status_block_frame (net : Net) {rbuf_ctrl : Nat} (chk : Nat) (frame : List UInt8)
    (st : Nat) (packet : Memory) (len : Nat) :
    ((if rbuf_ctrl.testBit 0 then status_block net chk frame st packet else packet).read
        (hdr_size rbuf_ctrl) len) = packet.read (hdr_size rbuf_ctrl) len := by
  by_cases h : rbuf_ctrl.testBit 0 = true
  · have hhdr : 64 ≤ hdr_size rbuf_ctrl := by
      unfold hdr_size
      rw [if_pos h, XMIT_STATUS_SIZE]
      omega
    rw [if_pos h, status_block, Memory.read_write_outside, Memory.read_write_outside]
    · right
      simp [le32]
      omega
    · right
      simp [le32]
      omega
  · rw [if_neg h]

/-- The one turn that a fitting frame takes. -/
theorem rdma_turn_fits {net : Net} {s : State} {buf : List UInt8} {f : Fill} (hlen : f.len = 0)
    (hsize : buf.length ≤ f.ring.ring_buf_size)
    (hroom : buf.length + hdr_size s.rbuf_ctrl + crc_size s.umac_cmd ≤
      f.ring.ring_buf_size % 2 ^ 16)
    (hmax : buf.length ≤ MAX_PACKET_SIZE)
    (hrxerr : ex RXERR (f.descs f.write_index).length_status = 0)
    (hok : ∀ n, net.dma_ok (f.descs f.write_index).address n = true) :
    ∃ st data,
      (rdma_turn net s buf f).2 = true ∧ (rdma_turn net s buf f).1.len = buf.length ∧
      (rdma_turn net s buf f).1.descs = update f.descs f.write_index
        { f.descs f.write_index with length_status := st } ∧
      (rdma_turn net s buf f).1.mem = f.mem.write (f.descs f.write_index).address data ∧
      (rdma_turn net s buf f).1.ring =
        { f.ring with
          prod_index := dp PROD_INDEX f.ring.prod_index (ex PROD_INDEX f.ring.prod_index + 1)
          write_ptr := (if f.ring.end_index < f.write_index + 1 then f.ring.start_index
            else f.write_index + 1) * DESC_SIZE_WORDS % 2 ^ 32
          write_ptr_hi := (if f.ring.end_index < f.write_index + 1 then f.ring.start_index
            else f.write_index + 1) * DESC_SIZE_WORDS / 2 ^ 32 } ∧
      ex SOP st = ex SOP (f.descs f.write_index).length_status ∧ ex EOP st = 1 ∧
      ex RXERR st = 0 ∧
      ex BUFLENGTH st = buf.length + hdr_size s.rbuf_ctrl + crc_size s.umac_cmd ∧
      data.length = buf.length + hdr_size s.rbuf_ctrl + crc_size s.umac_cmd ∧
      (data.drop (hdr_size s.rbuf_ctrl)).take buf.length = buf := by
  have hl : min (buf.length - f.len) f.ring.ring_buf_size = buf.length := by omega
  have hpiece : (buf.drop f.len).take buf.length = buf := by simp [hlen]
  -- BUFLENGTH has 12 bits, which the largest frame with its status block fits.
  have hbuflength : (buf.length + hdr_size s.rbuf_ctrl + crc_size s.umac_cmd) % 2 ^ 12 =
      buf.length + hdr_size s.rbuf_ctrl + crc_size s.umac_cmd := by
    have h₁ : hdr_size s.rbuf_ctrl ≤ 66 := by
      unfold hdr_size XMIT_STATUS_SIZE
      split_ifs <;> omega
    have h₂ : crc_size s.umac_cmd ≤ 4 := by
      unfold crc_size
      split_ifs <;> omega
    rw [MAX_PACKET_SIZE] at hmax
    omega
  have heop : (if buf.length ≤ f.len + buf.length then 1 else 0) = 1 := if_pos (by omega)
  have hmin : min (buf.length + hdr_size s.rbuf_ctrl + crc_size s.umac_cmd)
      (f.ring.ring_buf_size % 2 ^ 16) =
      buf.length + hdr_size s.rbuf_ctrl + crc_size s.umac_cmd := by omega
  simp only [rdma_turn, hl, hpiece, heop, hmin, hok, if_true]
  generalize hpk : f.rx_packet.write (hdr_size s.rbuf_ctrl) buf = packet
  generalize hbc : (if is_packet_broadcast buf = true then 1 else 0) = bc
  generalize ((packet (hdr_size s.rbuf_ctrl)).toNat % 2) = mc
  generalize hst : dp MULTICAST (dp BROADCAST (dp BUFLENGTH
    (dp EOP (f.descs f.write_index).length_status 1)
    (buf.length + hdr_size s.rbuf_ctrl + crc_size s.umac_cmd)) bc) mc = st
  -- A field that none of the four deposits touches keeps its value.
  have hfield : ∀ g : Field, Disjoint EOP g → Disjoint BUFLENGTH g → Disjoint BROADCAST g →
      Disjoint MULTICAST g → ex g st = ex g (f.descs f.write_index).length_status := by
    intro g h₁ h₂ h₃ h₄
    rw [← hst, ex_dp_of_disjoint h₄, ex_dp_of_disjoint h₃, ex_dp_of_disjoint h₂,
      ex_dp_of_disjoint h₁]
  have hrx : ex RXERR st = 0 := by
    rw [hfield RXERR (by decide) (by decide) (by decide) (by decide), hrxerr]
  simp only [hrx, ne_eq, not_true_eq_false, if_false]
  refine ⟨st, _, trivial, by omega, rfl, if_pos (hok _), trivial,
    hfield SOP (by decide) (by decide) (by decide) (by decide), ?_, hrx, ?_, ?_, ?_⟩
  · rw [← hst, ex_dp_of_disjoint (by decide), ex_dp_of_disjoint (by decide),
      ex_dp_of_disjoint (by decide), ex_dp]
    rfl
  · rw [← hst, ex_dp_of_disjoint (by decide), ex_dp_of_disjoint (by decide), ex_dp]
    exact hbuflength
  · exact Memory.read_length _ _ _
  · rw [Memory.take_drop_read _ (by omega), Nat.zero_add, status_block_frame, ← hpk]
    have h : (f.rx_packet.write (hdr_size s.rbuf_ctrl) buf).read (hdr_size s.rbuf_ctrl + 0)
        buf.length = (buf.drop 0).take buf.length :=
      Memory.read_write_inside f.rx_packet (by omega)
    rw [Nat.add_zero] at h
    rw [h, List.drop_zero, List.take_length]

/-- The device after a frame has filled a descriptor. -/
structure Filled (s s' : State) (j : Nat) (buf : List UInt8) : Prop where
  others : ∀ i, i ≠ j → s'.rdma.descs i = s.rdma.descs i
  address : (s'.rdma.descs j).address = (s.rdma.descs j).address
  rxerr : ex RXERR (s'.rdma.descs j).length_status = 0
  memory : ∀ a, a < (s.rdma.descs j).address ∨
    (s.rdma.descs j).address + (s.rdma.rings (default_rx_ring s)).ring_buf_size % 2 ^ 16 ≤ a →
    s'.mem a = s.mem a
  ring : s'.rdma.rings = update s.rdma.rings (default_rx_ring s)
    { s.rdma.rings (default_rx_ring s) with
      prod_index := dp PROD_INDEX (s.rdma.rings (default_rx_ring s)).prod_index
        (ex PROD_INDEX (s.rdma.rings (default_rx_ring s)).prod_index + 1)
      write_ptr := (if (s.rdma.rings (default_rx_ring s)).end_index < j + 1 then
          (s.rdma.rings (default_rx_ring s)).start_index else j + 1) * DESC_SIZE_WORDS % 2 ^ 32
      write_ptr_hi := (if (s.rdma.rings (default_rx_ring s)).end_index < j + 1 then
          (s.rdma.rings (default_rx_ring s)).start_index else j + 1) * DESC_SIZE_WORDS / 2 ^ 32 }
  ctrl : s'.rdma.ctrl = s.rdma.ctrl
  ring_cfg : s'.rdma.ring_cfg = s.rdma.ring_cfg
  rbuf_ctrl : s'.rbuf_ctrl = s.rbuf_ctrl
  umac_cmd : s'.umac_cmd = s.umac_cmd
  holds : Holds s' j buf

/-- `rdma_done` and the interrupt lines touch nothing else of the ring. -/
theorem rdma_done_fields (s : State) (r : Nat) (f : Fill) :
    (set_irq (rdma_done s r f)).rdma =
      { s.rdma with descs := f.descs, rings := update s.rdma.rings r f.ring } ∧
    (set_irq (rdma_done s r f)).mem = f.mem ∧
    (set_irq (rdma_done s r f)).rbuf_ctrl = s.rbuf_ctrl ∧
    (set_irq (rdma_done s r f)).umac_cmd = s.umac_cmd := by
  unfold rdma_done
  by_cases h : r = DMA_RING_DEFAULT
  · rw [if_pos h]
    exact ⟨rfl, rfl, rfl, rfl⟩
  · rw [if_neg h]
    exact ⟨rfl, rfl, rfl, rfl⟩

/-- A fitting frame fills the descriptor at `write_ptr`. -/
theorem receive_fills {net : Net} {first last : Nat} {s : State} {buf : List UInt8}
    (h : Programmed net s first last) (hfits : Fits s buf)
    (hlo : first ≤ (s.rdma.rings (default_rx_ring s)).write_index)
    (hhi : (s.rdma.rings (default_rx_ring s)).write_index ≤ last)
    (hfree : rdma_free_descs s (default_rx_ring s) ≠ 0) :
    ∃ s', receive net s buf = some ((buf.length : Int), s') ∧
      Filled s s' (s.rdma.rings (default_rx_ring s)).write_index buf := by
  generalize hr : default_rx_ring s = r at *
  generalize hj : (s.rdma.rings r).write_index = j at *
  -- the walk starts at the descriptor, with SOP set
  generalize hf : (Fill.mk (update s.rdma.descs j
      { s.rdma.descs j with length_status := dp SOP (s.rdma.descs j).length_status 1 })
    (s.rdma.rings r) s.rx_packet s.mem j 0) = f
  have hsize : buf.length ≤ (s.rdma.rings r).ring_buf_size := hr ▸ hfits.size
  have hroom : buf.length + hdr_size s.rbuf_ctrl + crc_size s.umac_cmd ≤
      (s.rdma.rings r).ring_buf_size % 2 ^ 16 := hr ▸ hfits.room
  have hdesc : f.descs f.write_index =
      { s.rdma.descs j with length_status := dp SOP (s.rdma.descs j).length_status 1 } := by
    rw [← hf]
    exact update_self _ _ _
  obtain ⟨st, data, hgo, hlen, hdescs, hmem, hring, hsop, heop, hrxerr, hbl, hdl, hdata⟩ :=
    @rdma_turn_fits net s buf f (by rw [← hf])
      (by rw [← hf]; exact hsize) (by rw [← hf]; exact hroom) hfits.max
      (by rw [hdesc, ex_dp_of_disjoint (by decide)]; exact h.no_rxerr j hlo hhi)
      (by rw [hdesc]; exact fun n => h.dma_ok j n hlo hhi)
  have hloop : ∀ fuel, rdma_loop net s buf (fuel + 2) f = some (rdma_turn net s buf f).1 := by
    intro fuel
    have hlt : f.len < buf.length := by
      have := hfits.nonempty
      rw [← hf]
      simp only
      omega
    rw [rdma_loop, if_pos hlt]
    simp only [hgo, if_true]
    rw [rdma_loop, if_neg (by rw [hlen]; omega)]
  have hrecv : receive net s buf =
      some ((buf.length : Int), set_irq (rdma_done s r (rdma_turn net s buf f).1)) := by
    have hact : rdma_ring_active s r = true := hr ▸ h.active
    unfold receive
    rw [if_pos h.enabled]
    simp only [hr, hact, Bool.true_and, beq_iff_eq, hfree, if_false]
    rw [if_pos hfits.max, rdma, if_pos hact]
    simp only [hj, hf, hloop, Option.map_some, hlen]
  refine ⟨_, hrecv, ?_⟩
  clear hrecv hloop
  generalize (rdma_turn net s buf f).1 = g at hlen hdescs hmem hring ⊢
  obtain ⟨hrdma, hmem', hrbuf, humac⟩ := rdma_done_fields s r g
  generalize set_irq (rdma_done s r g) = s' at hrdma hmem' hrbuf humac ⊢
  have hwi : f.write_index = j := by rw [← hf]
  have hfring : f.ring = s.rdma.rings r := by rw [← hf]
  have hfmem : f.mem = s.mem := by rw [← hf]
  have haddr : (f.descs f.write_index).address = (s.rdma.descs j).address := by
    rw [hdesc, Desc.address_mk]
  have hdescs' : s'.rdma.descs = update f.descs j
      { f.descs f.write_index with length_status := st } := by
    rw [hrdma, ← hwi]
    exact hdescs
  have hj' : s'.rdma.descs j = { f.descs f.write_index with length_status := st } := by
    rw [hdescs']
    exact update_self _ _ _
  have hmem'' : s'.mem = s.mem.write (s.rdma.descs j).address data := by
    rw [hmem', hmem, haddr, hfmem]
  refine ⟨?_, ?_, ?_, ?_, ?_, ?_, ?_, hrbuf, humac, ?_, ?_, ?_, ?_⟩
  · intro i hi
    rw [hdescs', update_of_ne _ _ hi, ← hf]
    exact update_of_ne _ _ hi
  · rw [hj', Desc.address_mk, haddr]
  · rw [hj']
    exact hrxerr
  · intro a ha
    rw [hmem'']
    unfold Memory.write
    rw [if_neg]
    rw [hr] at ha
    omega
  · rw [hrdma, hr]
    simp only [hring, hfring, hwi]
  · rw [hrdma]
  · rw [hrdma]
  · rw [hj']
    simp only
    rw [hsop, hdesc]
    simp only [ex_dp]
    rfl
  · rw [hj']
    exact heop
  · rw [hj', hrbuf, humac]
    exact hbl
  · have hin : (s.mem.write (s.rdma.descs j).address data).read
        ((s.rdma.descs j).address + hdr_size s.rbuf_ctrl) buf.length =
        (data.drop (hdr_size s.rbuf_ctrl)).take buf.length :=
      Memory.read_write_inside s.mem (by omega)
    have haddr' : (s'.rdma.descs j).address = (s.rdma.descs j).address := by
      rw [hj', Desc.address_mk, haddr]
    rw [haddr', hrbuf, hmem'', hin, hdata]

section

variable {net : Net} {first last p : Nat} {s s' : State} {accepted : List (List UInt8)}
  {released j : Nat} {buf : List UInt8}

theorem Filled.default_rx_ring_eq (h : Filled s s' j buf) :
    default_rx_ring s' = default_rx_ring s := by
  have h₀ : (s'.rdma.rings 0).start_addr = (s.rdma.rings 0).start_addr ∧
      (s'.rdma.rings 0).end_addr = (s.rdma.rings 0).end_addr := by
    rw [h.ring]
    by_cases hr : 0 = default_rx_ring s
    · rw [← hr, update_self]
      exact ⟨rfl, rfl⟩
    · rw [update_of_ne _ _ hr]
      exact ⟨rfl, rfl⟩
  unfold default_rx_ring
  rw [h₀.1, h₀.2]

theorem Filled.ring_eq (h : Filled s s' j buf) :
    s'.rdma.rings (default_rx_ring s') =
      { s.rdma.rings (default_rx_ring s) with
        prod_index := dp PROD_INDEX (s.rdma.rings (default_rx_ring s)).prod_index
          (ex PROD_INDEX (s.rdma.rings (default_rx_ring s)).prod_index + 1)
        write_ptr := (if (s.rdma.rings (default_rx_ring s)).end_index < j + 1 then
            (s.rdma.rings (default_rx_ring s)).start_index else j + 1) * DESC_SIZE_WORDS % 2 ^ 32
        write_ptr_hi := (if (s.rdma.rings (default_rx_ring s)).end_index < j + 1 then
            (s.rdma.rings (default_rx_ring s)).start_index else j + 1) *
              DESC_SIZE_WORDS / 2 ^ 32 } := by
  rw [h.default_rx_ring_eq, h.ring, update_self]

theorem Filled.address_eq (h : Filled s s' j buf) (i : Nat) :
    (s'.rdma.descs i).address = (s.rdma.descs i).address := by
  by_cases hi : i = j
  · rw [hi, h.address]
  · rw [h.others i hi]

/-- A filled descriptor leaves the ring programmed. -/
theorem Filled.programmed (h : Filled s s' j buf) (hp : Programmed net s first last) :
    Programmed net s' first last where
  enabled := by
    rw [h.ctrl]
    exact hp.enabled
  active := by
    have := hp.active
    unfold rdma_ring_active at this ⊢
    rw [h.ctrl, h.ring_cfg, h.default_rx_ring_eq]
    exact this
  start_addr := by
    rw [h.ring_eq]
    exact hp.start_addr
  end_addr := by
    rw [h.ring_eq]
    exact hp.end_addr
  ordered := hp.ordered
  last_lt := hp.last_lt
  no_rxerr := by
    intro i hlo hhi
    by_cases hi : i = j
    · rw [hi]
      exact h.rxerr
    · rw [h.others i hi]
      exact hp.no_rxerr i hlo hhi
  dma_ok := by
    intro i n hlo hhi
    rw [h.address_eq]
    exact hp.dma_ok i n hlo hhi
  own_buffers := by
    intro i k h₁ h₂ h₃ h₄ hne
    rw [h.address_eq, h.address_eq, h.ring_eq]
    exact hp.own_buffers i k h₁ h₂ h₃ h₄ hne
  discard := by
    rw [h.ring_eq]
    simp only
    rw [ex_dp_of_disjoint (by decide)]
    exact hp.discard

/-- A filled descriptor leaves what another one holds. -/
theorem Filled.holds_other (h : Filled s s' j buf) (hp : Programmed net s first last)
    (hj : first ≤ j ∧ j ≤ last) {i : Nat} (hi : first ≤ i ∧ i ≤ last) (hne : i ≠ j)
    {frame : List UInt8} (hframe : Holds s i frame)
    (hroom : frame.length + hdr_size s.rbuf_ctrl ≤
      (s.rdma.rings (default_rx_ring s)).ring_buf_size % 2 ^ 16) : Holds s' i frame := by
  refine ⟨?_, ?_, ?_, ?_⟩
  · rw [h.others i hne]
    exact hframe.sop
  · rw [h.others i hne]
    exact hframe.eop
  · rw [h.others i hne, h.rbuf_ctrl, h.umac_cmd]
    exact hframe.length
  · -- the frame lies in a buffer of its own
    rw [h.others i hne, h.rbuf_ctrl]
    have hown := hp.own_buffers i j hi.1 hi.2 hj.1 hj.2 hne
    rw [← hframe.data, Memory.read_length]
    apply Memory.read_congr
    intro a ha
    apply h.memory
    omega

/-- Below the ring's length, the frame goes behind the last one. -/
theorem receive_accepted (h : Queue net first last p s accepted released) (hfits : Fits s buf)
    (hroom : accepted.length < released + (last - first + 1)) :
    ∃ s', receive net s buf = some ((buf.length : Int), s') ∧
      Filled s s' (first + accepted.length % (last - first + 1)) buf ∧
      Queue net first last p s' (accepted ++ [buf]) released := by
  have hlt : accepted.length % (last - first + 1) < last - first + 1 := Nat.mod_lt _ (by omega)
  have hord := h.ordered
  have hrel := h.released_le
  have hwi := h.write_index
  have hslot : ∀ k : Nat, first ≤ first + k % (last - first + 1) ∧
      first + k % (last - first + 1) ≤ last := by
    intro k
    have := Nat.mod_lt k (show 0 < last - first + 1 by omega)
    omega
  obtain ⟨s', hrecv, hfill⟩ := receive_fills h.toProgrammed hfits (by omega) (by omega)
    (by rw [h.free_descs]; omega)
  rw [hwi] at hfill
  refine ⟨s', hrecv, hfill, ⟨hfill.programmed h.toProgrammed, ?_, ?_, ?_, ?_, ?_, ?_, ?_⟩⟩
  · rw [List.length_append, List.length_singleton]
    omega
  · rw [List.length_append, List.length_singleton]
    omega
  -- The write pointer moves on to the slot of the next frame.
  · rw [hfill.ring_eq]
    simp only [wide_split, h.start_index, h.end_index, List.length_append, List.length_singleton]
    rw [slot_succ _ (show 0 < last - first + 1 by omega)]
    by_cases hwrap : accepted.length % (last - first + 1) + 1 = last - first + 1
    · rw [if_pos (by omega), if_pos hwrap]
      rfl
    · rw [if_neg (by omega), if_neg hwrap, Nat.add_assoc]
  · rw [hfill.ring_eq]
    simp only [ex_dp, h.prod_index, List.length_append, List.length_singleton]
    have : PROD_INDEX.length = 16 := rfl
    rw [this]
    omega
  · rw [hfill.ring_eq]
    exact h.cons_index
  · intro frame hmem
    rw [hfill.ring_eq, hfill.rbuf_ctrl]
    rcases List.mem_append.mp hmem with hmem | hmem
    · exact h.room frame hmem
    · rw [List.mem_singleton.mp hmem]
      have := hfits.room
      simp only
      omega
  -- The frame just filled in, or one that was queued before and not overwritten.
  · intro k frame hk hframe
    by_cases hnew : k = accepted.length
    · rw [hnew, List.getElem?_concat_length] at hframe
      rw [hnew, ← Option.some.inj hframe]
      exact hfill.holds
    · have hold : k < accepted.length := by
        have := (List.getElem?_eq_some_iff.mp hframe).1
        rw [List.length_append, List.length_singleton] at this
        omega
      rw [List.getElem?_append_left hold] at hframe
      have hne := slot_ne hold (show accepted.length < k + (last - first + 1) by omega)
      exact hfill.holds_other h.toProgrammed (hslot _) (hslot k) (by omega)
        (h.holds k frame hk hframe) (h.room frame (List.mem_of_getElem? hframe))

/-- A full ring refuses the frame and changes nothing. -/
theorem receive_refused (h : Queue net first last p s accepted released)
    (hfull : accepted.length = released + (last - first + 1)) :
    receive net s buf = some (0, s) := by
  have hfree : rdma_free_descs s (default_rx_ring s) = 0 := by
    rw [h.free_descs]
    omega
  unfold receive
  rw [if_pos h.enabled]
  simp only [h.active, hfree, Bool.true_and, beq_self_eq_true, if_true]

end

/-! ## The guest releases descriptors -/

/-- How far a CONS_INDEX write moves the index. -/
def cons_advance (s : State) (value : Nat) : Nat :=
  (ex CONS_INDEX value + 2 ^ 16 -
    ex CONS_INDEX (s.rdma.rings (default_rx_ring s)).cons_index) % 2 ^ 16

section

variable {net : Net} {first last p : Nat} {s : State} {accepted : List (List UInt8)}
  {released : Nat} {buf : List UInt8}

theorem default_rx_ring_release (s : State) (value : Nat) :
    default_rx_ring (write_rx_cons_index s (default_rx_ring s) value).1 = default_rx_ring s := by
  have h₀ : ((write_rx_cons_index s (default_rx_ring s) value).1.rdma.rings 0).start_addr =
        (s.rdma.rings 0).start_addr ∧
      ((write_rx_cons_index s (default_rx_ring s) value).1.rdma.rings 0).end_addr =
        (s.rdma.rings 0).end_addr := by
    simp only [write_rx_cons_index, set_irq]
    by_cases hr : 0 = default_rx_ring s
    · rw [← hr, update_self]
      exact ⟨rfl, rfl⟩
    · rw [update_of_ne _ _ hr]
      exact ⟨rfl, rfl⟩
  unfold default_rx_ring at h₀ ⊢
  rw [h₀.1, h₀.2]

theorem ring_release (s : State) (value : Nat) :
    (write_rx_cons_index s (default_rx_ring s) value).1.rdma.rings
        (default_rx_ring (write_rx_cons_index s (default_rx_ring s) value).1) =
      { s.rdma.rings (default_rx_ring s) with cons_index := value } := by
  rw [default_rx_ring_release]
  simp only [write_rx_cons_index, set_irq, update_self]

/-- A CONS_INDEX write up to PROD_INDEX drops frames at the front. -/
theorem queue_release (h : Queue net first last p s accepted released) {value : Nat}
    (hvalue : cons_advance s value ≤ (s.rdma.rings (default_rx_ring s)).used) :
    Queue net first last p (write_rx_cons_index s (default_rx_ring s) value).1 accepted
      (released + cons_advance s value) := by
  have hrel := h.released_le
  have hring := ring_release s value
  have hdef := default_rx_ring_release s value
  rw [h.used] at hvalue
  have hcons : ex CONS_INDEX value = (p + (released + cons_advance s value)) % 2 ^ 16 := by
    have hlt : ex CONS_INDEX value < 2 ^ 16 := ex_lt value
    unfold cons_advance
    rw [h.cons_index]
    omega
  refine ⟨⟨h.enabled, ?_, ?_, ?_, h.ordered, h.last_lt, h.no_rxerr, h.dma_ok, ?_, ?_⟩,
    ?_, ?_, ?_, ?_, ?_, ?_, ?_⟩
  · rw [hdef]
    exact h.active
  · rw [hring]
    exact h.start_addr
  · rw [hring]
    exact h.end_addr
  · rw [hring]
    exact h.own_buffers
  · rw [hring]
    exact h.discard
  · omega
  · have := h.fits_ring
    omega
  · rw [hring]
    exact h.write_ptr
  · rw [hring]
    exact h.prod_index
  · rw [hring]
    exact hcons
  · rw [hring]
    exact h.room
  · intro k frame hk hframe
    have hold := h.holds k frame (by omega) hframe
    exact ⟨hold.sop, hold.eop, hold.length, hold.data⟩

end

/-! ## Every run -/

/-- A run of the ring: frames that fit arrive, and the guest moves
    CONS_INDEX forward, not past PROD_INDEX.  With the state go the frames
    accepted so far and the number of descriptors released so far. -/
inductive Run (net : Net) (s₀ : State) : State → List (List UInt8) → Nat → Prop where
  | start : Run net s₀ s₀ [] 0
  | arrive {s s' : State} {accepted : List (List UInt8)} {released : Nat} {buf : List UInt8}
      {ret : Int} : Run net s₀ s accepted released → Fits s buf →
      receive net s buf = some (ret, s') →
      Run net s₀ s' (if ret = 0 then accepted else accepted ++ [buf]) released
  | release {s : State} {accepted : List (List UInt8)} {released value : Nat} :
      Run net s₀ s accepted released →
      cons_advance s value ≤ (s.rdma.rings (default_rx_ring s)).used →
      Run net s₀ (write_rx_cons_index s (default_rx_ring s) value).1 accepted
        (released + cons_advance s value)

section

variable {net : Net} {first last : Nat} {s₀ s : State} {accepted : List (List UInt8)}
  {released : Nat}

theorem queue_start (h : Programmed net s₀ first last)
    (hptr : wide (s₀.rdma.rings (default_rx_ring s₀)).write_ptr
      (s₀.rdma.rings (default_rx_ring s₀)).write_ptr_hi = first * DESC_SIZE_WORDS)
    (hidx : ex PROD_INDEX (s₀.rdma.rings (default_rx_ring s₀)).prod_index =
      ex CONS_INDEX (s₀.rdma.rings (default_rx_ring s₀)).cons_index) :
    Queue net first last (ex CONS_INDEX (s₀.rdma.rings (default_rx_ring s₀)).cons_index) s₀ []
      0 := by
  have hlt : ex CONS_INDEX (s₀.rdma.rings (default_rx_ring s₀)).cons_index < 2 ^ 16 := ex_lt _
  refine ⟨h, Nat.le_refl 0, Nat.zero_le _, ?_, ?_, ?_, ?_, ?_⟩
  · rw [hptr, List.length_nil, Nat.zero_mod, Nat.add_zero]
  · rw [hidx, List.length_nil, Nat.add_zero, Nat.mod_eq_of_lt hlt]
  · rw [Nat.add_zero, Nat.mod_eq_of_lt hlt]
  · intro frame hmem
    exact absurd hmem List.not_mem_nil
  · intro k frame _ hframe
    simp at hframe

/-- The ring stays a queue along every run. -/
theorem queue_of_run {p : Nat} (h : Queue net first last p s₀ [] 0)
    (hrun : Run net s₀ s accepted released) : Queue net first last p s accepted released := by
  induction hrun with
  | start => exact h
  | arrive _ hfits hrecv ih =>
    rename_i s s' accepted released buf ret hprev
    by_cases hfull : accepted.length = released + (last - first + 1)
    · rw [receive_refused ih hfull] at hrecv
      obtain ⟨rfl, rfl⟩ := Prod.mk.inj (Option.some.inj hrecv)
      exact ih
    · have hfits' := ih.fits_ring
      obtain ⟨s'', hrecv', -, hqueue⟩ := receive_accepted ih hfits (by omega)
      rw [hrecv'] at hrecv
      obtain ⟨rfl, rfl⟩ := Prod.mk.inj (Option.some.inj hrecv)
      have hne := hfits.nonempty
      rw [if_neg (by omega)]
      exact hqueue
  | release _ hvalue ih => exact queue_release ih hvalue

/-- A receive ring is a lossless queue, through any run: it is never more
    than full; a frame is refused without a trace or fills exactly the next
    descriptor, which is not one that the guest still holds; the descriptors
    from CONS_INDEX to PROD_INDEX hold the accepted frames in order; and
    nothing is counted as discarded. -/
theorem rx_ring_is_fifo (h : Programmed net s₀ first last)
    (hptr : wide (s₀.rdma.rings (default_rx_ring s₀)).write_ptr
      (s₀.rdma.rings (default_rx_ring s₀)).write_ptr_hi = first * DESC_SIZE_WORDS)
    (hidx : ex PROD_INDEX (s₀.rdma.rings (default_rx_ring s₀)).prod_index =
      ex CONS_INDEX (s₀.rdma.rings (default_rx_ring s₀)).cons_index)
    (hrun : Run net s₀ s accepted released) :
    (s.rdma.rings (default_rx_ring s)).used ≤ last - first + 1 ∧
    (∀ buf, Fits s buf →
      (receive net s buf = some (0, s) ∧
        (s.rdma.rings (default_rx_ring s)).used = last - first + 1) ∨
      ∃ s', receive net s buf = some ((buf.length : Int), s') ∧
        Filled s s' (first + accepted.length % (last - first + 1)) buf ∧
        ∀ i < (s.rdma.rings (default_rx_ring s)).used,
          (released + i) % (last - first + 1) ≠ accepted.length % (last - first + 1) ∧
          s'.rdma.descs (first + (released + i) % (last - first + 1)) =
            s.rdma.descs (first + (released + i) % (last - first + 1)) ∧
          ∀ a, (s.rdma.descs (first + (released + i) % (last - first + 1))).address ≤ a →
            a < (s.rdma.descs (first + (released + i) % (last - first + 1))).address +
              (s.rdma.rings (default_rx_ring s)).ring_buf_size % 2 ^ 16 →
            s'.mem a = s.mem a) ∧
    accepted.length = released + (s.rdma.rings (default_rx_ring s)).used ∧
    (∀ i < (s.rdma.rings (default_rx_ring s)).used, ∃ frame,
      accepted[released + i]? = some frame ∧
      Holds s (first + (released + i) % (last - first + 1)) frame) ∧
    ex DISCARD_CNT (s.rdma.rings (default_rx_ring s)).prod_index = 0 := by
  have hq := queue_of_run (queue_start h hptr hidx) hrun
  have hused := hq.used
  have hrel := hq.released_le
  have hring := hq.fits_ring
  refine ⟨by omega, ?_, by omega, ?_, hq.discard⟩
  · intro buf hfits
    -- A ring that is full refuses; any other takes the frame in a slot not in use.
    by_cases hfull : accepted.length = released + (last - first + 1)
    · exact .inl ⟨receive_refused hq hfull, by omega⟩
    · right
      obtain ⟨s', hrecv, hfill, -⟩ := receive_accepted hq hfits (by omega)
      refine ⟨s', hrecv, hfill, ?_⟩
      intro i hi
      have hne := slot_ne (n := last - first + 1) (a := released + i) (b := accepted.length)
        (by omega) (by omega)
      have hslot : ∀ k : Nat, first ≤ first + k % (last - first + 1) ∧
          first + k % (last - first + 1) ≤ last := by
        intro k
        have := Nat.mod_lt k (show 0 < last - first + 1 by omega)
        have := hq.ordered
        omega
      refine ⟨hne, hfill.others _ (by omega), ?_⟩
      intro a hlo hhi
      apply hfill.memory
      have hown := hq.own_buffers _ _ (hslot (released + i)).1 (hslot (released + i)).2
        (hslot accepted.length).1 (hslot accepted.length).2 (by omega)
      omega
  · intro i hi
    have hlt : released + i < accepted.length := by omega
    exact ⟨_, List.getElem?_eq_getElem hlt, hq.holds _ _ (by omega)
      (List.getElem?_eq_getElem hlt)⟩

end

/-- Checksums off, and a guest memory that takes every write. -/
def plain_net : Net := .unsummed fun _ _ => true

/-- A device with a receive ring of two descriptors, about to wrap its
    indices. -/
def two_descs : State where
  rdma :=
    { descs := fun j => ⟨0, 4096 * (j + 1), 0⟩
      rings := fun _ => ⟨0, 0, 0xFFFF, 0xFFFF, 2048, 0, 0, 5, 0⟩
      ring_cfg := 1
      ctrl := 3 }
  tdma :=
    { descs := fun _ => ⟨0, 0, 0⟩
      rings := fun _ => ⟨0, 0, 0, 0, 0, 0, 5, 0⟩
      ring_cfg := 0
      ctrl := 0 }
  intrl0 := ⟨0, 0⟩
  intrl1 := ⟨0, 0⟩
  umac_cmd := 0
  rbuf_ctrl := 0
  rbuf_chk_ctrl := 0
  tbuf_ctrl := 0
  tx_packet := fun _ => 0
  rx_packet := fun _ => 0
  irq_default := false
  irq_prio := false
  mem := fun _ => 0

theorem two_descs_programmed : Programmed plain_net two_descs 0 1 where
  enabled := by decide
  active := by decide
  start_addr := by decide
  end_addr := by decide
  ordered := by decide
  last_lt := by decide
  no_rxerr := by
    intro j _ _
    exact (by decide : ex RXERR 0 = 0)
  dma_ok := fun _ _ _ _ => rfl
  own_buffers := by
    intro i j _ _ _ _ hne
    simp only [two_descs, Desc.address, wide]
    omega
  discard := by decide

/-- A frame arrives while the indices wrap, and is found at CONS_INDEX. -/
theorem frame_across_index_wrap :
    ∃ s, Run plain_net two_descs s [[1, 2, 3]] 0 ∧
      (s.rdma.rings (default_rx_ring s)).used = 1 ∧ Holds s 0 [1, 2, 3] := by
  have hfits : Fits two_descs [1, 2, 3] :=
    ⟨by decide, by decide, by decide, by decide⟩
  obtain ⟨-, hrecv, -⟩ := rx_ring_is_fifo two_descs_programmed (by decide) (by decide)
    Run.start
  rcases hrecv _ hfits with ⟨-, hfull⟩ | ⟨s, hrecv, -⟩
  · exact absurd hfull (by decide)
  · have hrun := Run.arrive Run.start hfits hrecv
    rw [if_neg (by decide)] at hrun
    obtain ⟨-, -, hused, hheld, -⟩ := rx_ring_is_fifo two_descs_programmed (by decide)
      (by decide) hrun
    have hone : (s.rdma.rings (default_rx_ring s)).used = 1 := by
      simp only [List.nil_append, List.length_singleton] at hused
      omega
    refine ⟨s, hrun, hone, ?_⟩
    obtain ⟨frame, hframe, hholds⟩ := hheld 0 (by omega)
    have hf : frame = [1, 2, 3] := by simpa using hframe.symm
    rw [hf] at hholds
    simpa using hholds

end Genet
