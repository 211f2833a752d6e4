import RpiQemu.Genet.Describe
import RpiQemu.Genet.Lines

/-! # What a received frame tells of earlier ones

    Every frame goes through one buffer, `rx_packet`, which is never cleared.
    A frame puts its bytes behind the header, and with RBUF_64B_EN two words
    into the status block; what is written to the guest is the buffer from its
    start.  The rest of the status block, the two bytes of RBUF_ALIGN_2B and
    the forwarded CRC are whatever was there.

    * **Two buffers**: the loop over one frame from two buffers
      (`Alike`, `loop_alike`).
    * **Leaks**: the frame and the registers determine what the guest gets
      exactly when the frame sets every byte of the first transfer that is
      stored, be it of one that fails (`determined_iff`). -/

namespace Genet

open Register

/-! ## The outcome of a frame -/

/-- The receive path finds the same registers. -/
structure SameRegs (s s' : State) : Prop where
  rdma : s'.rdma = s.rdma
  umac_cmd : s'.umac_cmd = s.umac_cmd
  rbuf_ctrl : s'.rbuf_ctrl = s.rbuf_ctrl
  rbuf_chk_ctrl : s'.rbuf_chk_ctrl = s.rbuf_chk_ctrl

/-- `bcm2838_genet_receive` gives the frame to the loop. -/
def fills (s : State) (buf : List UInt8) : Bool :=
  ex DMA_CTRL_EN s.rdma.ctrl != 0 && rdma_ring_active s (default_rx_ring s) &&
    rdma_free_descs s (default_rx_ring s) != 0 && decide (buf.length ≤ MAX_PACKET_SIZE)

/-- A write at an address, for a length, stores its byte `q`. -/
def Net.stores (net : Net) (addr len q : Nat) : Bool :=
  net.dma_ok addr len || net.dma_part addr len q

/-- What a write to the guest stores, at each of its bytes. -/
def dma_stored (net : Net) (w : Nat × List UInt8) : Nat × List (Option UInt8) :=
  (w.1, (List.range w.2.length).map
    (fun q => if net.stores w.1 w.2.length q then w.2[q]? else none))

/-- What the writes of a frame store in the guest's memory. -/
def rx_sent (net : Net) (s : State) (buf : List UInt8) : List (Nat × List (Option UInt8)) :=
  if fills s buf then (rx_writes net s buf).map (dma_stored net) else []

/-- What a guest sees of a frame: its descriptors and rings, and what is
    stored in its memory. -/
def rx_outcome (net : Net) (s : State) (buf : List UInt8) :
    Option (Int × Dma RdmaRing × List (Nat × List (Option UInt8))) :=
  (receive net s buf).map (fun r => (r.1, r.2.rdma, rx_sent net s buf))

/-- The registers and the frame determine what the guest sees. -/
def Determined (net : Net) (s : State) (buf : List UInt8) : Prop :=
  ∀ s₁ s₂, SameRegs s s₁ → SameRegs s s₂ → rx_outcome net s₁ buf = rx_outcome net s₂ buf

section

variable {net : Net} {s s' : State} {buf : List UInt8}

theorem fills_iff : fills s buf = true ↔ Filling s buf := by
  simp only [fills, Bool.and_eq_true, bne_iff_ne, ne_eq, decide_eq_true_eq]
  constructor
  · rintro ⟨⟨⟨h₁, h₂⟩, h₃⟩, h₄⟩
    exact ⟨h₁, h₂, h₃, h₄⟩
  · intro h
    exact ⟨⟨⟨h.enabled, h.active⟩, h.free⟩, h.max⟩

/-- A frame that the loop does not get. -/
theorem outcome_not_filling (h : ¬ Filling s buf) :
    rx_outcome net s buf =
      some (if ex DMA_CTRL_EN s.rdma.ctrl ≠ 0 ∧ rdma_ring_active s (default_rx_ring s) = true ∧
        rdma_free_descs s (default_rx_ring s) = 0 then 0 else -1, s.rdma, []) := by
  have hsent : rx_sent net s buf = [] := by
    rw [rx_sent, if_neg (fun hf => h (fills_iff.mp hf))]
  unfold rx_outcome
  rw [hsent]
  by_cases hen : ex DMA_CTRL_EN s.rdma.ctrl ≠ 0
  · rw [receive, if_pos hen]
    dsimp only
    by_cases hactive : rdma_ring_active s (default_rx_ring s) = true
    · by_cases hfree : rdma_free_descs s (default_rx_ring s) = 0
      · rw [if_pos (by rw [hactive, hfree]; rfl), if_pos ⟨hen, hactive, hfree⟩]
        rfl
      · have hmax : ¬ buf.length ≤ MAX_PACKET_SIZE := fun hmax => h ⟨hen, hactive, hfree, hmax⟩
        rw [if_neg (by simp [hfree]), if_neg hmax, if_neg (fun hc => hfree hc.2.2)]
        rfl
    · have hidle : rdma net s (default_rx_ring s) buf = some (-1, s) := if_neg hactive
      have hno : ¬ (rdma_ring_active s (default_rx_ring s) &&
          rdma_free_descs s (default_rx_ring s) == 0) = true := by
        simp [hactive]
      have hzero : ¬ (ex DMA_CTRL_EN s.rdma.ctrl ≠ 0 ∧
          rdma_ring_active s (default_rx_ring s) = true ∧
          rdma_free_descs s (default_rx_ring s) = 0) := fun hc => hactive hc.2.1
      rw [if_neg hno, if_neg hzero, hidle]
      split_ifs
      · rfl
      · rfl
  · rw [receive, if_neg hen, if_neg (fun hc => hen hc.1)]
    rfl

end

/-! ## The same registers -/

section

variable {net : Net} {s s' : State} {buf : List UInt8}

theorem SameRegs.ring (h : SameRegs s s') : default_rx_ring s' = default_rx_ring s := by
  unfold default_rx_ring
  rw [h.rdma]

theorem SameRegs.active (h : SameRegs s s') (r : Nat) :
    rdma_ring_active s' r = rdma_ring_active s r := by
  unfold rdma_ring_active
  rw [h.rdma]

theorem SameRegs.free (h : SameRegs s s') (r : Nat) :
    rdma_free_descs s' r = rdma_free_descs s r := by
  unfold rdma_free_descs
  rw [h.rdma]

theorem SameRegs.filling (h : SameRegs s s') : Filling s' buf ↔ Filling s buf := by
  rw [← fills_iff, ← fills_iff]
  unfold fills
  rw [h.ring, h.active, h.free, h.rdma]

theorem SameRegs.turn (h : SameRegs s s') (f : Fill) :
    rdma_turn net s' buf f = rdma_turn net s buf f := by
  unfold rdma_turn
  rw [h.umac_cmd, h.rbuf_ctrl, h.rbuf_chk_ctrl]

theorem SameRegs.loop (h : SameRegs s s') (fuel : Nat) (f : Fill) :
    rdma_loop net s' buf fuel f = rdma_loop net s buf fuel f := by
  induction fuel generalizing f with
  | zero => rfl
  | succ fuel ih =>
    rw [rdma_loop, rdma_loop, h.turn]
    simp only [ih]

theorem SameRegs.turns (h : SameRegs s s') (fuel : Nat) (f : Fill) :
    rdma_turns net s' buf fuel f = rdma_turns net s buf fuel f := by
  induction fuel generalizing f with
  | zero => rfl
  | succ fuel ih =>
    rw [rdma_turns, rdma_turns, h.turn]
    simp only [ih]

theorem SameRegs.dma (h : SameRegs s s') (f : Fill) :
    f.dma net s' buf = f.dma net s buf := by
  unfold Fill.dma Fill.staged Fill.status Fill.copied Fill.dma_len
  rw [h.umac_cmd, h.rbuf_ctrl, h.rbuf_chk_ctrl]

/-- The loop's start with another buffer. -/
theorem SameRegs.start (h : SameRegs s s') (r : Nat) :
    fill_start s' r = { fill_start s r with rx_packet := s'.rx_packet, mem := s'.mem } := by
  unfold fill_start
  rw [h.rdma]

/-- The outcome of a frame that the loop gets, by its turns from `f`. -/
def loop_outcome (net : Net) (s : State) (buf : List UInt8) (f : Fill) :
    Option (Int × Dma RdmaRing × List (Nat × List (Option UInt8))) :=
  let r := default_rx_ring s
  let fuel := buf.length + (s.rdma.rings r).index_bound + 2
  (rdma_loop net s buf fuel f).map (fun f' =>
    ((f'.len : Int), { s.rdma with descs := f'.descs, rings := update s.rdma.rings r f'.ring },
      ((rdma_turns net s buf fuel f).map (fun f => f.dma net s buf)).map (dma_stored net)))

theorem outcome_filling (hfill : Filling s buf) (h : SameRegs s s') :
    rx_outcome net s' buf = loop_outcome net s buf
      { fill_start s (default_rx_ring s) with rx_packet := s'.rx_packet, mem := s'.mem } := by
  have hfill' : Filling s' buf := h.filling.mpr hfill
  have hdma : (fun f : Fill => f.dma net s' buf) = fun f => f.dma net s buf :=
    funext fun f => h.dma f
  unfold rx_outcome rx_sent loop_outcome rx_writes
  rw [if_pos (fills_iff.mpr hfill'), receive_filling hfill', Option.map_map]
  dsimp only
  rw [h.ring, h.rdma, h.loop, h.turns, hdma, h.start]
  apply congrArg (fun g => Option.map g _)
  funext f
  simp only [Function.comp_apply, (rdma_done_fields s' (default_rx_ring s) f).1, h.rdma]

end

/-! ## The condition -/

/-- The frame sets this byte of the buffer in the first turn: one of the two
    words of the status block, or a byte of the piece. -/
def FrameByte (s : State) (buf : List UInt8) (q : Nat) : Prop :=
  s.rbuf_ctrl.testBit 0 = true ∧ (q < 4 ∨ 8 ≤ q ∧ q < 12) ∨
    hdr_size s.rbuf_ctrl ≤ q ∧
      q < hdr_size s.rbuf_ctrl + rx_len s (default_rx_ring s) buf 0

/-- What the first transfer stores, the frame sets. -/
def Covered (net : Net) (s : State) (buf : List UInt8) : Prop :=
  let r := default_rx_ring s
  let n := rx_dma_len s r buf 0
  ∀ q < n, net.stores (s.rdma.descs (rx_index s r 0)).address n q = true → FrameByte s buf q

/-- Nothing of an earlier frame is used: the frame does not get to the loop,
    or its first transfer is covered.  Without a buffer size even the bit
    MULTICAST is an earlier frame's, so the loop must not return. -/
def NothingStale (net : Net) (s : State) (buf : List UInt8) : Prop :=
  let r := default_rx_ring s
  Filling s buf → 0 < buf.length →
    if (s.rdma.rings r).ring_buf_size = 0 then ∀ k, ¬ RxFails net s r buf k
    else Covered net s buf

/-! ## Two buffers -/

/-- The loop at the same turn with two buffers.  Without a header the turns
    before set the buffer as far as a descriptor takes it. -/
structure Alike (s : State) (buf : List UInt8) (f g : Fill) : Prop where
  descs : g.descs = f.descs
  ring : g.ring = f.ring
  write_index : g.write_index = f.write_index
  len : g.len = f.len
  staged : hdr_size s.rbuf_ctrl = 0 → 0 < f.len → f.len < buf.length →
    ∀ q < f.ring.ring_buf_size, g.rx_packet q = f.rx_packet q

/-- The transfers of the loop are covered. -/
structure CoveredAt (s : State) (buf : List UInt8) (f : Fill) : Prop where
  size : 0 < f.ring.ring_buf_size
  status : s.rbuf_ctrl.testBit 0 = true → f.ring.ring_buf_size % 2 ^ 16 ≤ 4
  pad : s.rbuf_ctrl.testBit 0 = false → s.rbuf_ctrl.testBit 1 = true →
    f.ring.ring_buf_size % 2 ^ 16 = 0
  plain : hdr_size s.rbuf_ctrl = 0 → f.len = 0 → f.dma_len s buf ≤ f.take_len buf

theorem hdr_size_eq_zero {rbuf_ctrl : Nat} :
    hdr_size rbuf_ctrl = 0 ↔ rbuf_ctrl.testBit 0 = false ∧ rbuf_ctrl.testBit 1 = false := by
  unfold hdr_size XMIT_STATUS_SIZE
  by_cases h₀ : rbuf_ctrl.testBit 0 = true
  · simp [h₀]
  · by_cases h₁ : rbuf_ctrl.testBit 1 = true
    · simp [h₀, h₁]
    · simp [h₀, h₁]

theorem write_inside (m : Memory) {addr a : Nat} {data : List UInt8} (hlo : addr ≤ a)
    (hhi : a < addr + data.length) : m.write addr data a = data.getD (a - addr) 0 :=
  if_pos ⟨hlo, hhi⟩

theorem write_outside (m : Memory) {addr a : Nat} {data : List UInt8}
    (h : a < addr ∨ addr + data.length ≤ a) : m.write addr data a = m a := by
  unfold Memory.write
  rw [if_neg]
  omega

section

variable {net : Net} {s : State} {buf : List UInt8} {f g : Fill}

theorem Alike.take_len (h : Alike s buf f g) : g.take_len buf = f.take_len buf := by
  unfold Fill.take_len
  rw [h.len, h.ring]

theorem Alike.piece (h : Alike s buf f g) : g.piece buf = f.piece buf := by
  unfold Fill.piece
  rw [h.len, h.take_len]

theorem Alike.dma_len (h : Alike s buf f g) : g.dma_len s buf = f.dma_len s buf := by
  unfold Fill.dma_len
  rw [h.take_len, h.ring]

theorem Alike.dma_ok (h : Alike s buf f g) : g.dma_ok net s buf = f.dma_ok net s buf := by
  unfold Fill.dma_ok
  rw [h.descs, h.write_index, h.dma_len]

theorem Alike.fails (h : Alike s buf f g) : g.fails net s buf ↔ f.fails net s buf := by
  unfold Fill.fails
  rw [h.descs, h.write_index, h.dma_ok]

theorem piece_length (hlt : f.len < buf.length) : (f.piece buf).length = f.take_len buf := by
  rw [Fill.piece, List.length_take, List.length_drop, Fill.take_len]
  omega

/-- The piece in the buffer. -/
theorem copied_piece (hlt : f.len < buf.length) {q : Nat} (hlo : hdr_size s.rbuf_ctrl ≤ q)
    (hhi : q < hdr_size s.rbuf_ctrl + f.take_len buf) :
    f.copied s buf q = (f.piece buf).getD (q - hdr_size s.rbuf_ctrl) 0 :=
  write_inside _ hlo (by rwa [piece_length hlt])

/-- A piece with bytes decides about the status. -/
theorem Alike.status (h : Alike s buf f g) (hlt : f.len < buf.length)
    (hsize : 0 < f.ring.ring_buf_size) : g.status s buf = f.status s buf := by
  have htake : 0 < f.take_len buf := by
    unfold Fill.take_len
    omega
  have hfirst : g.copied s buf (hdr_size s.rbuf_ctrl) = f.copied s buf (hdr_size s.rbuf_ctrl) := by
    rw [copied_piece hlt (Nat.le_refl _) (by omega),
      copied_piece (by rw [h.len]; exact hlt) (Nat.le_refl _) (by rw [h.take_len]; omega), h.piece]
  unfold Fill.status
  rw [h.descs, h.write_index, h.len, h.take_len, h.piece, hfirst]

theorem Alike.descs_after (h : Alike s buf f g) (hlt : f.len < buf.length)
    (hsize : 0 < f.ring.ring_buf_size) :
    g.descs_after net s buf = f.descs_after net s buf := by
  unfold Fill.descs_after
  rw [h.status hlt hsize, h.dma_ok, h.descs, h.write_index]

/-- The first word of the status block. -/
theorem status_block_word (net : Net) (chk : Nat) (frame : List UInt8) (st : Nat) (packet : Memory)
    {q : Nat} (hq : q < 4) : status_block net chk frame st packet q = (le32 st).getD q 0 := by
  unfold status_block
  have hlen : (le32 st).length = 4 := rfl
  rw [write_inside _ (Nat.zero_le q) (by omega), Nat.sub_zero]

/-- Covered transfers take the same bytes from both buffers. -/
theorem Alike.dma (h : Alike s buf f g) (hc : CoveredAt s buf f) (hlt : f.len < buf.length) :
    g.dma net s buf = f.dma net s buf := by
  have hread : (g.staged net s buf).read 0 (f.dma_len s buf) =
      (f.staged net s buf).read 0 (f.dma_len s buf) := by
    apply Memory.read_congr
    intro q hq
    rw [Nat.zero_add]
    have hle : f.dma_len s buf ≤ f.ring.ring_buf_size % 2 ^ 16 := Nat.min_le_right _ _
    unfold Fill.staged
    by_cases h₀ : s.rbuf_ctrl.testBit 0 = true
    · have hfour := hc.status h₀
      rw [if_pos h₀, if_pos h₀, status_block_word _ _ _ _ _ (by omega),
        status_block_word _ _ _ _ _ (by omega), h.status hlt hc.size]
    · have h₀' : s.rbuf_ctrl.testBit 0 = false := by simpa using h₀
      rw [if_neg h₀, if_neg h₀]
      by_cases h₁ : s.rbuf_ctrl.testBit 1 = true
      · have hzero := hc.pad h₀' h₁
        omega
      · have hhdr : hdr_size s.rbuf_ctrl = 0 := hdr_size_eq_zero.mpr ⟨h₀', by simpa using h₁⟩
        by_cases hin : q < f.take_len buf
        · rw [copied_piece hlt (by omega) (by omega),
            copied_piece (by rw [h.len]; exact hlt) (by omega) (by rw [h.take_len]; omega),
            h.piece]
        · -- past the piece, where only a later turn gets
          have hpos : 0 < f.len := by
            by_contra hno
            have := hc.plain hhdr (by omega)
            omega
          have hbuf := h.staged hhdr hpos hlt q (by
            have := Nat.mod_le f.ring.ring_buf_size (2 ^ 16)
            omega)
          unfold Fill.copied
          rw [write_outside, write_outside, hbuf]
          · rw [piece_length hlt]
            omega
          · rw [h.piece, piece_length hlt]
            omega
  unfold Fill.dma
  rw [h.dma_len, hread, h.descs, h.write_index]

/-- A turn that goes on keeps the two alike. -/
theorem Alike.turn (h : Alike s buf f g) (hlt : f.len < buf.length)
    (hsize : 0 < f.ring.ring_buf_size) (hgo : ¬ f.fails net s buf) :
    Alike s buf (rdma_turn net s buf f).1 (rdma_turn net s buf g).1 := by
  have hgo' : ¬ g.fails net s buf := fun hf => hgo (h.fails.mp hf)
  rw [rdma_turn_goes hgo, rdma_turn_goes hgo']
  refine ⟨h.descs_after hlt hsize, ?_, ?_, ?_, ?_⟩
  · unfold Fill.ring_after
    rw [h.ring, h.write_index]
  · dsimp only
    rw [h.ring, h.write_index]
  · dsimp only
    rw [h.len, h.take_len]
  · -- a piece that is not the last fills the buffer as far as a descriptor goes
    intro hhdr _ hmore q hq
    have hq' : q < f.ring.ring_buf_size := hq
    have htake : f.take_len buf = f.ring.ring_buf_size := by
      simp only [Fill.take_len] at hmore ⊢
      omega
    have h₀ : ¬ s.rbuf_ctrl.testBit 0 = true := by simp [(hdr_size_eq_zero.mp hhdr).1]
    simp only [Fill.staged, if_neg h₀]
    rw [copied_piece hlt (by omega) (by omega),
      copied_piece (by rw [h.len]; exact hlt) (by omega) (by rw [h.take_len]; omega), h.piece]

theorem CoveredAt.turn (h : CoveredAt s buf f) (hgo : ¬ f.fails net s buf)
    (hlt : f.len < buf.length) : CoveredAt s buf (rdma_turn net s buf f).1 := by
  rw [rdma_turn_goes hgo]
  refine ⟨h.size, h.status, h.pad, ?_⟩
  intro _ hzero
  have hsize := h.size
  simp only [Fill.take_len] at hzero
  omega

/-- The loop does the same with both buffers. -/
theorem loop_alike {fuel : Nat} (h : Alike s buf f g) (hc : CoveredAt s buf f) :
    (rdma_turns net s buf fuel g).map (fun f => f.dma net s buf) =
        (rdma_turns net s buf fuel f).map (fun f => f.dma net s buf) ∧
      (rdma_loop net s buf fuel g).map (fun f => (f.len, f.descs, f.ring)) =
        (rdma_loop net s buf fuel f).map (fun f => (f.len, f.descs, f.ring)) := by
  induction fuel generalizing f g with
  | zero => exact ⟨rfl, rfl⟩
  | succ fuel ih =>
    rw [rdma_turns, rdma_turns, rdma_loop, rdma_loop, h.len]
    by_cases hlt : f.len < buf.length
    · rw [if_pos hlt, if_pos hlt, if_pos hlt, if_pos hlt]
      by_cases hfails : f.fails net s buf
      · have hfails' := h.fails.mpr hfails
        simp only [rdma_turn_fails hfails, rdma_turn_fails hfails', Bool.false_eq_true, if_false,
          List.map_cons, List.map_nil, Option.map_some, h.dma hc hlt, h.descs_after hlt hc.size,
          h.len, h.take_len, h.ring, and_self]
      · have hfails' : ¬ g.fails net s buf := fun hf => hfails (h.fails.mp hf)
        obtain ⟨hturns, hloop⟩ := ih (h.turn hlt hc.size hfails) (hc.turn hfails hlt)
        simp only [rdma_turn_goes_iff.mpr hfails, rdma_turn_goes_iff.mpr hfails', if_true,
          List.map_cons, h.dma hc hlt, hturns, hloop, and_self]
    · rw [if_neg hlt, if_neg hlt, if_neg hlt, if_neg hlt]
      simp only [List.map_nil, Option.map_some, h.len, h.descs, h.ring, and_self]

end

/-! ## The frame decides -/

/-- The loop's start with another buffer and another memory. -/
def start_with (s : State) (packet mem : Memory) : Fill :=
  { fill_start s (default_rx_ring s) with rx_packet := packet, mem := mem }

section

variable {net : Net} {s : State} {buf : List UInt8}

theorem start_with_at (s : State) (buf : List UInt8) (packet mem : Memory) :
    FillAt s (default_rx_ring s) buf 0 (start_with s packet mem) := by
  have h := fill_start_at s (default_rx_ring s) buf
  exact ⟨h.ring_buf_size, h.start_index, h.end_index, h.write_index, h.len, h.address, h.rxerr⟩

theorem start_with_alike (packet mem packet' mem' : Memory) :
    Alike s buf (start_with s packet mem) (start_with s packet' mem') := by
  refine ⟨rfl, rfl, rfl, rfl, ?_⟩
  intro _ hpos
  cases hpos

theorem start_dma_ok (hne : 0 < buf.length) (packet mem : Memory) :
    (start_with s packet mem).dma_ok net s buf =
      net.dma_ok (s.rdma.descs (rx_index s (default_rx_ring s) 0)).address
        (rx_dma_len s (default_rx_ring s) buf 0) := by
  have hat := start_with_at s buf packet mem
  unfold Fill.dma_ok
  rw [hat.address, hat.write_index, hat.dma_len (by omega)]

/-- A first transfer that succeeds stores all of its bytes, so the first that
    the frame does not set is not among them. -/
theorem start_covered (hne : 0 < buf.length)
    (hsize : 0 < (s.rdma.rings (default_rx_ring s)).ring_buf_size)
    (hcov : ∀ q < rx_dma_len s (default_rx_ring s) buf 0, FrameByte s buf q)
    (packet mem : Memory) : CoveredAt s buf (start_with s packet mem) := by
  have hat := start_with_at s buf packet mem
  have hring : (start_with s packet mem).ring = s.rdma.rings (default_rx_ring s) := rfl
  have hle : ∀ m, ¬ FrameByte s buf m → rx_dma_len s (default_rx_ring s) buf 0 ≤ m :=
    fun m hm => Nat.le_of_not_lt fun hlt => hm (hcov m hlt)
  refine ⟨hsize, ?_, ?_, ?_⟩
  · intro h₀
    have hfour := hle 4 (by
      rintro (⟨-, h⟩ | h)
      · omega
      · simp only [hdr_size, if_pos h₀, XMIT_STATUS_SIZE] at h
        omega)
    simp only [rx_dma_len, hdr_size, if_pos h₀, XMIT_STATUS_SIZE] at hfour
    rw [hring]
    omega
  · intro h₀ h₁
    have hzero := hle 0 (by
      rintro (⟨h, -⟩ | h)
      · rw [h₀] at h
        exact Bool.false_ne_true h
      · simp only [hdr_size, if_pos h₁] at h
        omega)
    simp only [rx_dma_len, hdr_size, if_pos h₁] at hzero
    rw [hring]
    omega
  · intro hhdr _
    obtain ⟨h₀, -⟩ := hdr_size_eq_zero.mp hhdr
    rw [hat.dma_len (by omega), hat.take_len (by omega)]
    apply hle
    rintro (⟨h, -⟩ | h)
    · rw [h₀] at h
      exact Bool.false_ne_true h
    · omega

theorem loop_outcome_congr {f g : Fill}
    (hturns : ∀ fuel,
      ((rdma_turns net s buf (fuel + 2) g).map (fun f => f.dma net s buf)).map (dma_stored net) =
        ((rdma_turns net s buf (fuel + 2) f).map (fun f => f.dma net s buf)).map (dma_stored net))
    (hloop : ∀ fuel,
      (rdma_loop net s buf (fuel + 2) g).map (fun f => (f.len, f.descs, f.ring)) =
        (rdma_loop net s buf (fuel + 2) f).map (fun f => (f.len, f.descs, f.ring))) :
    loop_outcome net s buf f = loop_outcome net s buf g := by
  unfold loop_outcome
  dsimp only
  rw [hturns]
  have hparts : ∀ (o : Option Fill) (w : List (Nat × List (Option UInt8))),
      o.map (fun f' => ((f'.len : Int), { s.rdma with
        descs := f'.descs
        rings := update s.rdma.rings (default_rx_ring s) f'.ring }, w)) =
      (o.map (fun f => (f.len, f.descs, f.ring))).map (fun t => ((t.1 : Int), { s.rdma with
        descs := t.2.1
        rings := update s.rdma.rings (default_rx_ring s) t.2.2 }, w)) := by
    intro o w
    rw [Option.map_map]
    rfl
  rw [hparts, hparts, hloop]

/-- A byte that the frame sets is the same from both buffers. -/
theorem frame_byte_staged (hne : 0 < buf.length)
    (hsize : 0 < (s.rdma.rings (default_rx_ring s)).ring_buf_size) {q : Nat}
    (hq : FrameByte s buf q) (packet mem packet' mem' : Memory) :
    (start_with s packet mem).staged net s buf q =
      (start_with s packet' mem').staged net s buf q := by
  have halike := @start_with_alike s buf packet mem packet' mem'
  have hlt : ∀ packet mem, (start_with s packet mem).len < buf.length := fun _ _ => hne
  have hstatus := halike.status (hlt packet mem) hsize
  have htake : ∀ packet mem, (start_with s packet mem).take_len buf =
      rx_len s (default_rx_ring s) buf 0 :=
    fun packet mem => (start_with_at s buf packet mem).take_len (by omega)
  have hpiece : ∀ packet mem, hdr_size s.rbuf_ctrl ≤ q →
      q < hdr_size s.rbuf_ctrl + rx_len s (default_rx_ring s) buf 0 →
      (start_with s packet mem).copied s buf q =
        ((start_with s packet mem).piece buf).getD (q - hdr_size s.rbuf_ctrl) 0 :=
    fun packet mem hlo hhi => copied_piece (hlt packet mem) hlo (by rwa [htake])
  have hword : ∀ n, (le32 n).length = 4 := fun _ => rfl
  unfold Fill.staged
  by_cases h₀ : s.rbuf_ctrl.testBit 0 = true
  · have hhdr : 64 ≤ hdr_size s.rbuf_ctrl := by
      unfold hdr_size
      rw [if_pos h₀, XMIT_STATUS_SIZE]
      omega
    rw [if_pos h₀, if_pos h₀]
    -- A byte of the status word, of the checksum word, or of the frame itself.
    rcases hq with ⟨-, hst | hsum⟩ | hin
    · rw [status_block_word _ _ _ _ _ hst, status_block_word _ _ _ _ _ hst, hstatus]
    · unfold status_block
      rw [halike.piece, write_outside, write_inside, write_outside, write_inside]
      · omega
      · rw [hword]
        omega
      · rw [hword]
        omega
      · omega
      · rw [hword]
        omega
      · rw [hword]
        omega
    · unfold status_block
      rw [write_outside, write_outside, write_outside, write_outside, hpiece _ _ hin.1 hin.2,
        hpiece _ _ hin.1 hin.2, halike.piece]
      all_goals
        rw [hword]
        omega
  · rw [if_neg h₀, if_neg h₀]
    rcases hq with ⟨h, -⟩ | hin
    · exact absurd h h₀
    · rw [hpiece _ _ hin.1 hin.2, hpiece _ _ hin.1 hin.2, halike.piece]

/-- The first transfer stores the same from both buffers when it is covered. -/
theorem start_stored (hne : 0 < buf.length)
    (hsize : 0 < (s.rdma.rings (default_rx_ring s)).ring_buf_size) (hcov : Covered net s buf)
    (packet mem packet' mem' : Memory) :
    dma_stored net ((start_with s packet mem).dma net s buf) =
      dma_stored net ((start_with s packet' mem').dma net s buf) := by
  have hlen : ∀ packet mem, (start_with s packet mem).dma_len s buf =
      rx_dma_len s (default_rx_ring s) buf 0 :=
    fun packet mem => (start_with_at s buf packet mem).dma_len (by omega)
  have haddr : ∀ packet mem, ((start_with s packet mem).descs
      (start_with s packet mem).write_index).address =
        (s.rdma.descs (rx_index s (default_rx_ring s) 0)).address := by
    intro packet mem
    have hat := start_with_at s buf packet mem
    rw [hat.address, hat.write_index]
  unfold dma_stored Fill.dma
  simp only [hlen, haddr, Memory.read_length]
  apply congrArg
  apply List.map_congr_left
  intro q hq
  have hlt := List.mem_range.mp hq
  split
  · next hstored =>
    simp only [Memory.read, List.getElem?_map, List.getElem?_range hlt, Option.map_some,
      Nat.zero_add]
    rw [frame_byte_staged hne hsize (hcov q hlt hstored)]
  · rfl

/-- A first transfer that fails is the only one. -/
theorem failing_start {f g : Fill} (h : Alike s buf f g) (hlt : f.len < buf.length)
    (hsize : 0 < f.ring.ring_buf_size) (hok : f.dma_ok net s buf = false)
    (hstored : dma_stored net (f.dma net s buf) = dma_stored net (g.dma net s buf)) :
    loop_outcome net s buf f = loop_outcome net s buf g := by
  have hfails : f.fails net s buf := .inr hok
  have hfails' : g.fails net s buf := h.fails.mpr hfails
  have hlt' : g.len < buf.length := by
    rw [h.len]
    exact hlt
  apply loop_outcome_congr
  · intro fuel
    rw [rdma_turns, rdma_turns, if_pos hlt, if_pos hlt']
    simp only [rdma_turn_fails hfails, rdma_turn_fails hfails', Bool.false_eq_true, if_false,
      List.map_cons, List.map_nil, hstored]
  · intro fuel
    rw [rdma_loop, rdma_loop, if_pos hlt, if_pos hlt']
    simp only [rdma_turn_fails hfails, rdma_turn_fails hfails', Bool.false_eq_true, if_false,
      Option.map_some, h.descs_after hlt hsize, h.len, h.take_len, h.ring]

theorem determined_of_nothing_stale (h : NothingStale net s buf) : Determined net s buf := by
  intro s₁ s₂ h₁ h₂
  by_cases hfill : Filling s buf
  · rw [outcome_filling hfill h₁, outcome_filling hfill h₂]
    show loop_outcome net s buf (start_with s s₁.rx_packet s₁.mem) =
      loop_outcome net s buf (start_with s s₂.rx_packet s₂.mem)
    have halike := @start_with_alike s buf s₁.rx_packet s₁.mem s₂.rx_packet s₂.mem
    by_cases hne : 0 < buf.length
    · have hcond := h hfill hne
      by_cases hsize : (s.rdma.rings (default_rx_ring s)).ring_buf_size = 0
      · -- the loop does not return, from either buffer
        rw [if_pos hsize] at hcond
        have hreached : ∀ k, RxReached net s (default_rx_ring s) buf k := by
          intro k
          refine ⟨?_, fun j _ => hcond j⟩
          rw [hsize]
          omega
        unfold loop_outcome
        dsimp only
        rw [rdma_loop_eq_none (start_with_at s buf _ _) hreached,
          rdma_loop_eq_none (start_with_at s buf _ _) hreached]
        rfl
      · have hpos : 0 < (s.rdma.rings (default_rx_ring s)).ring_buf_size := by omega
        rw [if_neg hsize] at hcond
        by_cases hok : (start_with s s₁.rx_packet s₁.mem).dma_ok net s buf = true
        · have hall : ∀ q < rx_dma_len s (default_rx_ring s) buf 0, FrameByte s buf q := by
            intro q hq
            apply hcond q hq
            rw [Net.stores, ← start_dma_ok hne s₁.rx_packet s₁.mem, hok, Bool.true_or]
          have hcov := start_covered hne hpos hall s₁.rx_packet s₁.mem
          apply loop_outcome_congr
          · intro fuel
            rw [(loop_alike halike hcov).1]
          · intro fuel
            exact (loop_alike halike hcov).2
        · exact failing_start halike hne hpos (by simpa using hok)
            (start_stored hne hpos hcond _ _ _ _)
    · have hstop : ∀ packet mem, ¬ (start_with s packet mem).len < buf.length :=
        fun _ _ hlt => hne hlt
      apply loop_outcome_congr
      · intro fuel
        rw [rdma_turns, rdma_turns, if_neg (hstop _ _), if_neg (hstop _ _)]
      · intro fuel
        rw [rdma_loop, rdma_loop, if_neg (hstop _ _), if_neg (hstop _ _)]
        rfl
  · rw [outcome_not_filling (fun hf => hfill (h₁.filling.mp hf)),
      outcome_not_filling (fun hf => hfill (h₂.filling.mp hf)),
      h₁.ring, h₂.ring, h₁.active, h₂.active, h₁.free, h₂.free, h₁.rdma, h₂.rdma]

end

/-! ## The buffer decides -/

section

variable {net : Net} {s : State} {buf : List UInt8}

/-- Pieces without bytes leave the buffer's frame part as it was. -/
theorem unsized_staged {f : Fill} (hsize : f.ring.ring_buf_size = 0) :
    f.copied s buf = f.rx_packet ∧
      f.staged net s buf (hdr_size s.rbuf_ctrl) = f.rx_packet (hdr_size s.rbuf_ctrl) := by
  have hpiece : f.piece buf = [] := by
    rw [Fill.piece, Fill.take_len, hsize, Nat.min_zero, List.take_zero]
  have hcopied : f.copied s buf = f.rx_packet := by
    rw [Fill.copied, hpiece, Memory.write_nil]
  refine ⟨hcopied, ?_⟩
  rw [Fill.staged, hcopied]
  by_cases h₀ : s.rbuf_ctrl.testBit 0 = true
  · have hhdr : 64 ≤ hdr_size s.rbuf_ctrl := by
      unfold hdr_size
      rw [if_pos h₀, XMIT_STATUS_SIZE]
      omega
    have hword : ∀ n, (le32 n).length = 4 := fun _ => rfl
    rw [if_pos h₀, status_block, write_outside, write_outside]
    · rw [hword]
      omega
    · rw [hword]
      omega
  · rw [if_neg h₀]

/-- A loop over pieces without bytes breaks, and leaves MULTICAST from the
    buffer in the descriptor where it does. -/
theorem unsized_loop {fuel : Nat} {f f' : Fill} (hsize : f.ring.ring_buf_size = 0)
    (hlt : f.len < buf.length) (hptr : f.ring.write_index = f.write_index)
    (hloop : rdma_loop net s buf fuel f = some f') :
    f'.ring.write_index = f'.write_index ∧
      ex MULTICAST (f'.descs f'.write_index).length_status =
        (f.rx_packet (hdr_size s.rbuf_ctrl)).toNat % 2 := by
  induction fuel generalizing f with
  | zero => cases hloop
  | succ fuel ih =>
    have hzero : f.take_len buf = 0 := by rw [Fill.take_len, hsize, Nat.min_zero]
    obtain ⟨hcopied, hstaged⟩ := @unsized_staged net s buf f hsize
    rw [rdma_loop, if_pos hlt] at hloop
    by_cases hfails : f.fails net s buf
    · simp only [rdma_turn_fails hfails, Bool.false_eq_true, if_false] at hloop
      obtain rfl := Option.some.inj hloop
      refine ⟨hptr, ?_⟩
      have hbit : ex MULTICAST (f.status s buf) =
          (f.rx_packet (hdr_size s.rbuf_ctrl)).toNat % 2 := by
        rw [Fill.status, ex_dp, hcopied]
        exact Nat.mod_mod _ _
      simp only [Fill.descs_after, update_self]
      by_cases hok : f.dma_ok net s buf = true
      · rw [if_pos hok, hbit]
      · rw [if_neg hok, ex_dp_of_disjoint (by decide), hbit]
    · simp only [rdma_turn_goes hfails, if_true, hzero, Nat.add_zero] at hloop
      have hlast := ih (f := { f with
        descs := f.descs_after net s buf
        ring := f.ring_after
        rx_packet := f.staged net s buf
        mem := f.mem_after net s buf
        write_index := f.ring.next_index f.write_index }) hsize hlt (ring_after_write_index f) hloop
      rw [← hstaged]
      exact hlast

theorem outcome_parts {f g : Fill} {f' g' : Fill}
    (h : loop_outcome net s buf f = loop_outcome net s buf g)
    (hf : rdma_loop net s buf
      (buf.length + (s.rdma.rings (default_rx_ring s)).index_bound + 2) f = some f')
    (hg : rdma_loop net s buf
      (buf.length + (s.rdma.rings (default_rx_ring s)).index_bound + 2) g = some g') :
    f'.descs = g'.descs ∧ f'.ring = g'.ring := by
  unfold loop_outcome at h
  dsimp only at h
  rw [hf, hg] at h
  obtain ⟨-, h⟩ := Prod.mk.inj (Option.some.inj h)
  obtain ⟨hdma, -⟩ := Prod.mk.inj h
  refine ⟨congrArg Dma.descs hdma, ?_⟩
  have hrings := congrFun (congrArg Dma.rings hdma) (default_rx_ring s)
  simpa only [update_self] using hrings

/-- The first transfer is the first thing that is stored. -/
theorem outcome_first {f g : Fill} {f' g' : Fill}
    (h : loop_outcome net s buf f = loop_outcome net s buf g)
    (hf : rdma_loop net s buf
      (buf.length + (s.rdma.rings (default_rx_ring s)).index_bound + 2) f = some f')
    (hg : rdma_loop net s buf
      (buf.length + (s.rdma.rings (default_rx_ring s)).index_bound + 2) g = some g')
    (hlt : f.len < buf.length) (hlt' : g.len < buf.length) :
    dma_stored net (f.dma net s buf) = dma_stored net (g.dma net s buf) := by
  unfold loop_outcome at h
  dsimp only at h
  rw [hf, hg] at h
  obtain ⟨-, h⟩ := Prod.mk.inj (Option.some.inj h)
  obtain ⟨-, hsent⟩ := Prod.mk.inj h
  rw [rdma_turns, rdma_turns, if_pos hlt, if_pos hlt', List.map_cons, List.map_cons,
    List.map_cons, List.map_cons] at hsent
  exact (List.cons.inj hsent).1

/-- A byte that the frame does not set is the buffer's. -/
theorem stale_byte (hne : 0 < buf.length) {q : Nat} (hq : ¬ FrameByte s buf q)
    (packet mem : Memory) : (start_with s packet mem).staged net s buf q = packet q := by
  obtain ⟨hblock, hpiece⟩ := not_or.mp hq
  have hlen : ((start_with s packet mem).piece buf).length =
      rx_len s (default_rx_ring s) buf 0 := by
    rw [piece_length hne, (start_with_at s buf packet mem).take_len (by omega)]
  have hcopied : (start_with s packet mem).copied s buf q = packet q := by
    rw [Fill.copied, write_outside]
    · rfl
    · rw [hlen]
      omega
  have hword : ∀ n, (le32 n).length = 4 := fun _ => rfl
  rw [Fill.staged]
  by_cases h₀ : s.rbuf_ctrl.testBit 0 = true
  · have hwords : ¬ (q < 4 ∨ 8 ≤ q ∧ q < 12) := fun h => hblock ⟨h₀, h⟩
    rw [if_pos h₀, status_block, write_outside, write_outside, hcopied]
    · rw [hword]
      omega
    · rw [hword]
      omega
  · rw [if_neg h₀, hcopied]

theorem nothing_stale_of_determined (h : Determined net s buf) : NothingStale net s buf := by
  intro hfill hne
  -- two buffers that differ everywhere, in the lowest bit too
  have hsame : ∀ packet : Memory, SameRegs s { s with rx_packet := packet } :=
    fun _ => ⟨rfl, rfl, rfl, rfl⟩
  have hout := h _ _ (hsame fun _ => 0) (hsame fun _ => 1)
  rw [outcome_filling hfill (hsame _), outcome_filling hfill (hsame _)] at hout
  have hout' : loop_outcome net s buf (start_with s (fun _ => 0) s.mem) =
      loop_outcome net s buf (start_with s (fun _ => 1) s.mem) := hout
  have hnone : ∀ j < 0, ¬ RxFails net s (default_rx_ring s) buf j := by omega
  have hreturns : (∃ k, ¬ RxReached net s (default_rx_ring s) buf k) → ∀ packet, ∃ f',
      rdma_loop net s buf
        (buf.length + (s.rdma.rings (default_rx_ring s)).index_bound + 2)
        (start_with s packet s.mem) = some f' := by
    intro hex packet
    obtain ⟨k, hk, hno⟩ := exists_not_reached hex
    have hsome := rdma_loop_isSome (start_with_at s buf packet s.mem) hnone hk
      (by rwa [Nat.zero_add])
    exact Option.isSome_iff_exists.mp hsome
  by_cases hsize : (s.rdma.rings (default_rx_ring s)).ring_buf_size = 0
  · rw [if_pos hsize]
    intro k hfails
    obtain ⟨f', hf⟩ := hreturns ⟨k + 1, fun hr => hr.2 k (Nat.lt_succ_self k) hfails⟩ fun _ => 0
    obtain ⟨g', hg⟩ := hreturns ⟨k + 1, fun hr => hr.2 k (Nat.lt_succ_self k) hfails⟩ fun _ => 1
    obtain ⟨hdescs, hring⟩ := outcome_parts hout' hf hg
    obtain ⟨hptr, hbit⟩ := unsized_loop hsize hne rfl hf
    obtain ⟨hptr', hbit'⟩ := unsized_loop hsize hne rfl hg
    have hindex : f'.write_index = g'.write_index := by rw [← hptr, ← hptr', hring]
    rw [hdescs, hindex, hbit'] at hbit
    have hone : (1 : UInt8).toNat % 2 = (0 : UInt8).toNat % 2 := hbit
    exact absurd hone (by decide)
  · rw [if_neg hsize]
    intro q hq hstored
    by_contra hno
    have hex : ∃ k, ¬ RxReached net s (default_rx_ring s) buf k := by
      refine ⟨buf.length, fun hr => ?_⟩
      have h₁ := hr.1
      have h₂ := Nat.le_mul_of_pos_right buf.length (Nat.pos_of_ne_zero hsize)
      omega
    obtain ⟨f', hf⟩ := hreturns hex fun _ => 0
    obtain ⟨g', hg⟩ := hreturns hex fun _ => 1
    have hfirst := outcome_first hout' hf hg hne hne
    have hbyte : ∀ packet : Memory,
        (dma_stored net ((start_with s packet s.mem).dma net s buf)).2[q]? =
          some (some (packet q)) := by
      intro packet
      have hat := start_with_at s buf packet s.mem
      have hlen := hat.dma_len (show 0 * _ < buf.length by omega)
      unfold dma_stored Fill.dma
      simp only [hlen, hat.address, hat.write_index, Memory.read_length, List.getElem?_map,
        List.getElem?_range hq, Option.map_some, hstored, if_true]
      rw [Memory.read, List.getElem?_map, List.getElem?_range hq, Option.map_some, Nat.zero_add,
        stale_byte hne hno]
    have hboth := congrArg (fun w => w.2[q]?) hfirst
    simp only [hbyte] at hboth
    exact absurd hboth (by decide)

theorem determined_iff : Determined net s buf ↔ NothingStale net s buf :=
  ⟨nothing_stale_of_determined, determined_of_nothing_stale⟩

end

/-! ## Histories -/

/-- **After any two histories that leave the same registers a frame has the
    same outcome when nothing stale is used; and with any buffer it has the
    same outcome exactly then.**  The frame is one that uses descriptors
    only. -/
theorem no_leak_iff (net : Net) (buf : List UInt8) :
    (∀ host₁ host₂ mac₁ mac₂ mem₁ mem₂ down₁ down₂ ops₁ ops₂ c₁ c₂,
      run host₁ (power_on mac₁ mem₁ down₁) ops₁ = some c₁ →
      run host₂ (power_on mac₂ mem₂ down₂) ops₂ = some c₂ →
      SameRegs c₁.state c₂.state → InDescs net c₁.state buf → NothingStale net c₁.state buf →
      rx_outcome net c₁.state buf = rx_outcome net c₂.state buf) ∧
    ∀ s, InDescs net s buf → (Determined net s buf ↔ NothingStale net s buf) := by
  constructor
  · intro _ _ _ _ _ _ _ _ _ _ c₁ c₂ _ _ hsame _ hcov
    exact determined_iff.mpr hcov c₁.state c₂.state ⟨rfl, rfl, rfl, rfl⟩ hsame
  · intro s _
    exact determined_iff

/-- A driver sets up a ring of two descriptors. -/
def set_up (rbuf_ctrl : Nat) : List Op :=
  [.write (.of_word (RDMA_REGS + DMA_RINGS + 16) 2048),
    .write (.of_word (RDMA_REGS + DMA_RINGS + 28) 5),
    .write (.of_word RBUF_CTRL rbuf_ctrl),
    .write (.of_word (RDMA_REGS + DMA_RING_CFG) 1),
    .write (.of_word (RDMA_REGS + DMA_CTRL) 3)]

theorem set_up_regs (c : Controller) (v : Nat) (h : v < 2 ^ 32) :
    ∃ d, run plain_host c (set_up v) = some d ∧
      d.state.rdma = ((((c.state.rdma.store RdmaRing.set (DMA_RINGS + 16) 2048).store
        RdmaRing.set (DMA_RINGS + 28) 5).store RdmaRing.set DMA_RING_CFG 1).store
          RdmaRing.set DMA_CTRL 3) ∧
      d.state.umac_cmd = c.state.umac_cmd ∧ d.state.rbuf_ctrl = v ∧
      d.state.rbuf_chk_ctrl = c.state.rbuf_chk_ctrl := by
  have hkeep : ∀ c offset value, offset % 4 = 0 → value < 2 ^ 32 → offset + 4 ≤ REGS_SIZE →
      RDMA_REGS + DMA_RINGS ≤ offset ∧ offset < TDMA_REGS ∨ offset = RBUF_CTRL →
      (write plain_host c (.of_word offset value)).1.state =
        set_irq (c.state.store offset value) := by
    intro c offset value haligned hfits hsize hoff
    have hoffset := Access.of_word_offset haligned value
    have hvalue := Access.of_word_value hfits offset
    rw [← hoffset] at hsize hoff
    have hstate := @write_word_state plain_host c (.of_word offset value) rfl hsize
    rw [hoffset, hvalue] at hstate
    apply hstate
    rw [hoffset] at hoff
    rcases hoff with ⟨hlo, hhi⟩ | rfl
    · have htdma : ¬ (TDMA_REGS ≤ offset ∧ offset < TDMA_REGS + 0x2000) := by omega
      rw [write_switch_dma _ _ (by omega), if_neg htdma]
      split_ifs <;> exact ⟨rfl, rfl⟩
    · exact ⟨rfl, rfl⟩
  refine ⟨_, rfl, ?_⟩
  rw [hkeep _ _ _ (by decide) (by decide) (by decide) (.inl (by decide)),
    hkeep _ _ _ (by decide) (by decide) (by decide) (.inl (by decide)),
    hkeep _ _ _ rfl h (by decide) (.inr rfl),
    hkeep _ _ _ (by decide) (by decide) (by decide) (.inl (by decide)),
    hkeep _ _ _ (by decide) (by decide) (by decide) (.inl (by decide))]
  exact ⟨rfl, rfl, rfl, rfl⟩

theorem reset_regs (c : Controller) :
    (reset c).state.rdma = zero_dma ⟨0, 0, 0, 0, 0, 0, 0, 0, 0⟩ ∧ (reset c).state.umac_cmd = 0 ∧
      (reset c).state.rbuf_chk_ctrl = 0 := by
  unfold reset phy_update_link
  dsimp only
  split_ifs <;> exact ⟨rfl, rfl, rfl⟩

/-- A frame with the byte `b` is received, and the machine is reset. -/
def earlier_frame (b : UInt8) : List Op :=
  set_up 0 ++ [.receive [0, 0, 0, 0, b], .reset]

/-- The device after that, set up again with RBUF_64B_EN. -/
theorem earlier_device {b : UInt8} {d : Controller}
    (h : run plain_host (power_on (fun _ => 0) (fun _ => 0) false) (earlier_frame b) = some d) :
    ∃ c, d = reset c := by
  obtain ⟨e, -, he⟩ := run_append.mp h
  obtain ⟨e', -, he'⟩ := run_cons.mp he
  exact ⟨e', (Option.some.inj he').symm⟩

/-- The byte is in the status block of the next frame. -/
theorem earlier_byte_leaks :
    ¬ ∀ ops₁ ops₂ c₁ c₂,
      run plain_host (power_on (fun _ => 0) (fun _ => 0) false) ops₁ = some c₁ →
      run plain_host (power_on (fun _ => 0) (fun _ => 0) false) ops₂ = some c₂ →
      SameRegs c₁.state c₂.state →
      rx_outcome plain_host.net c₁.state [7] = rx_outcome plain_host.net c₂.state [7] := by
  intro h
  have hsent : (fun b => (run plain_host (power_on (fun _ => 0) (fun _ => 0) false)
      (earlier_frame b ++ set_up 1)).map fun c =>
        (rx_outcome plain_host.net c.state [7]).map fun p => p.2.2) 1 ≠
      (fun b => (run plain_host (power_on (fun _ => 0) (fun _ => 0) false)
      (earlier_frame b ++ set_up 1)).map fun c =>
        (rx_outcome plain_host.net c.state [7]).map fun p => p.2.2) 2 := by
    decide +kernel
  apply hsent
  dsimp only
  have hruns : ∀ b : UInt8, b = 1 ∨ b = 2 → ∃ d,
      run plain_host (power_on (fun _ => 0) (fun _ => 0) false) (earlier_frame b) = some d := by
    intro b hb
    rw [← Option.isSome_iff_exists]
    rcases hb with rfl | rfl
    · decide +kernel
    · decide +kernel
  obtain ⟨d₁, hd₁⟩ := hruns 1 (.inl rfl)
  obtain ⟨d₂, hd₂⟩ := hruns 2 (.inr rfl)
  obtain ⟨c₁, hc₁, h₁⟩ := set_up_regs d₁ 1 (by decide)
  obtain ⟨c₂, hc₂, h₂⟩ := set_up_regs d₂ 1 (by decide)
  have hrun₁ := run_append.mpr ⟨d₁, hd₁, hc₁⟩
  have hrun₂ := run_append.mpr ⟨d₂, hd₂, hc₂⟩
  obtain ⟨e₁, rfl⟩ := earlier_device hd₁
  obtain ⟨e₂, rfl⟩ := earlier_device hd₂
  rw [(reset_regs e₁).1, (reset_regs e₁).2.1, (reset_regs e₁).2.2] at h₁
  rw [(reset_regs e₂).1, (reset_regs e₂).2.1, (reset_regs e₂).2.2] at h₂
  have hsame : SameRegs c₁.state c₂.state :=
    ⟨by rw [h₂.1, h₁.1], by rw [h₂.2.1, h₁.2.1], by rw [h₂.2.2.1, h₁.2.2.1],
      by rw [h₂.2.2.2, h₁.2.2.2]⟩
  rw [hrun₁, hrun₂, Option.map_some, Option.map_some, h _ _ c₁ c₂ hrun₁ hrun₂ hsame]

end Genet
