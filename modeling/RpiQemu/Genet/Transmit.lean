import RpiQemu.Genet.Receive
import Mathlib.Logic.Function.Iterate

/-! # Transmit in batches

    A PROD_INDEX write walks the descriptors from CONS_INDEX to the new
    index.  The device keeps the packet buffer from one write to the next,
    but not the offset in it: a walk starts at offset 0.

    * **Walk**: a write of a ring's PROD_INDEX is so many turns of the walk
      (`write_eq_turns`), and the indices, the pointer and the descriptors
      come out the same however the turns are divided (`turns_ring`).
    * **Pieces**: the frames depend on the pieces that the descriptors
      contribute, and on the writes that stop between them (`Asm.run`).
    * **Cuts**: the frames are those of a single write when no write stops
      inside a frame that has bytes gathered and is finished later; without
      transmit status blocks, only then (`tx_batches`). -/

namespace Genet

open Register

/-- A transmit ring as a driver programs it. -/
structure TxProgrammed (s : State) (r first last : Nat) : Prop where
  active : tdma_ring_active s r = true
  start_addr : wide (s.tdma.rings r).start_addr (s.tdma.rings r).start_addr_hi =
    first * DESC_SIZE_WORDS
  end_addr : wide (s.tdma.rings r).end_addr (s.tdma.rings r).end_addr_hi + 1 =
    (last + 1) * DESC_SIZE_WORDS
  ordered : first ≤ last
  last_lt : last < DMA_DESC_CNT
  read_ptr : ∃ k, first ≤ k ∧ k ≤ last ∧
    wide (s.tdma.rings r).read_ptr (s.tdma.rings r).read_ptr_hi = k * DESC_SIZE_WORDS

/-! ## The walk -/

/-- The walk that a PROD_INDEX write would start. -/
def walk_start (s : State) (r : Nat) : Walk :=
  { descs := s.tdma.descs
    tx_packet := s.tx_packet
    read_ptr := wide (s.tdma.rings r).read_ptr (s.tdma.rings r).read_ptr_hi
    cons := ex CONS_INDEX (s.tdma.rings r).cons_index
    packet_off := 0
    num_descs := 0
    sent := [] }

/-- One turn of a ring's walk. -/
def turn (net : Net) (s : State) (r : Nat) : Walk → Walk :=
  tx_desc net s.mem s.tbuf_ctrl
    (wide (s.tdma.rings r).start_addr (s.tdma.rings r).start_addr_hi)
    (wide (s.tdma.rings r).end_addr (s.tdma.rings r).end_addr_hi)

/-- The descriptor index at the walk's pointer. -/
def Walk.index (w : Walk) : Nat := w.read_ptr / DESC_SIZE_WORDS

/-- The walk at the start of each turn of `tx_loop`. -/
def tx_turns (net : Net) (mem : Memory) (tbuf_ctrl start_addr end_addr prod : Nat) :
    Nat → Walk → List Walk
  | 0, _ => []
  | fuel + 1, w =>
    if w.cons = prod then []
    else if DMA_DESC_CNT ≤ w.read_ptr / DESC_SIZE_WORDS then []
    else
      w :: tx_turns net mem tbuf_ctrl start_addr end_addr prod fuel
        (tx_desc net mem tbuf_ctrl start_addr end_addr w)

/-- The turns to a PROD_INDEX value. -/
def tx_steps (c value : Nat) : Nat := (ex PROD_INDEX value + 2 ^ 16 - c) % 2 ^ 16

section

variable {net : Net} {s : State} {r first last : Nat}

/-- The pointer stays in the ring. -/
theorem turn_read_ptr (h : TxProgrammed s r first last) {w : Walk}
    (hw : ∃ k, first ≤ k ∧ k ≤ last ∧ w.read_ptr = k * DESC_SIZE_WORDS) :
    ∃ k, first ≤ k ∧ k ≤ last ∧ (turn net s r w).read_ptr = k * DESC_SIZE_WORDS := by
  obtain ⟨k, hlo, hhi, hk⟩ := hw
  have hend := h.end_addr
  have hord := h.ordered
  simp only [turn, tx_desc]
  rw [hk, h.start_addr]
  rw [DESC_SIZE_WORDS] at *
  by_cases hlast : k = last
  · rw [if_pos (by omega)]
    exact ⟨first, by omega, by omega, rfl⟩
  · rw [if_neg (by omega)]
    exact ⟨k + 1, by omega, by omega, by omega⟩

theorem turns_read_ptr (h : TxProgrammed s r first last) {w : Walk}
    (hw : ∃ k, first ≤ k ∧ k ≤ last ∧ w.read_ptr = k * DESC_SIZE_WORDS) (n : Nat) :
    ∃ k, first ≤ k ∧ k ≤ last ∧ ((turn net s r)^[n] w).read_ptr = k * DESC_SIZE_WORDS := by
  induction n generalizing w with
  | zero => exact hw
  | succ n ih =>
    rw [Function.iterate_succ_apply]
    exact ih (turn_read_ptr h hw)

theorem turns_cons {w : Walk} (hw : w.cons < 2 ^ 16) (n : Nat) :
    ((turn net s r)^[n] w).cons = (w.cons + n) % 2 ^ 16 := by
  induction n generalizing w with
  | zero => exact (Nat.mod_eq_of_lt hw).symm
  | succ n ih =>
    have hturn : (turn net s r w).cons = (w.cons + 1) % 2 ^ 16 := rfl
    rw [Function.iterate_succ_apply, ih (by omega), hturn]
    omega

theorem turns_num_descs (w : Walk) (n : Nat) :
    ((turn net s r)^[n] w).num_descs = w.num_descs + n := by
  induction n generalizing w with
  | zero => rfl
  | succ n ih =>
    have hturn : (turn net s r w).num_descs = w.num_descs + 1 := rfl
    rw [Function.iterate_succ_apply, ih, hturn]
    omega

/-- The loop turns until the consumer has caught up or the pointer leaves the
    descriptors. -/
theorem tx_loop_walk {w : Walk} {prod n : Nat} (hprod : prod < 2 ^ 16) (hcons : w.cons < 2 ^ 16)
    (hn : (prod + 2 ^ 16 - w.cons) % 2 ^ 16 = n) {fuel : Nat} (hfuel : n ≤ fuel) :
    ∃ k ≤ n,
      tx_loop net s.mem s.tbuf_ctrl
          (wide (s.tdma.rings r).start_addr (s.tdma.rings r).start_addr_hi)
          (wide (s.tdma.rings r).end_addr (s.tdma.rings r).end_addr_hi) prod fuel w =
        (turn net s r)^[k] w ∧
      tx_turns net s.mem s.tbuf_ctrl
          (wide (s.tdma.rings r).start_addr (s.tdma.rings r).start_addr_hi)
          (wide (s.tdma.rings r).end_addr (s.tdma.rings r).end_addr_hi) prod fuel w =
        (List.range k).map (fun i => (turn net s r)^[i] w) ∧
      (∀ i < k, ((turn net s r)^[i] w).index < DMA_DESC_CNT) ∧
      (k = n ∨ DMA_DESC_CNT ≤ ((turn net s r)^[k] w).index) := by
  induction n generalizing w fuel with
  | zero =>
    have heq : w.cons = prod := by omega
    refine ⟨0, Nat.le_refl 0, ?_, ?_, fun i hi => absurd hi (Nat.not_lt_zero i), .inl rfl⟩
    · cases fuel with
      | zero => rfl
      | succ fuel =>
        rw [tx_loop, if_pos heq]
        rfl
    · cases fuel with
      | zero => rfl
      | succ fuel =>
        rw [tx_turns, if_pos heq]
        rfl
  | succ n ih =>
    cases fuel with
    | zero => omega
    | succ fuel =>
      have hne : w.cons ≠ prod := by omega
      by_cases hvalid : DMA_DESC_CNT ≤ w.read_ptr / DESC_SIZE_WORDS
      · -- the walk ends here, before the turn
        refine ⟨0, Nat.zero_le _, ?_, ?_, fun i hi => absurd hi (Nat.not_lt_zero i), .inr hvalid⟩
        · rw [tx_loop, if_neg hne, if_pos hvalid]
          rfl
        · rw [tx_turns, if_neg hne, if_pos hvalid]
          rfl
      · have hturn : (turn net s r w).cons = (w.cons + 1) % 2 ^ 16 := rfl
        obtain ⟨k, hk, hloop, hturns, hbefore, hend⟩ :=
          @ih (turn net s r w) (by omega) (by omega) fuel (by omega)
        refine ⟨k + 1, by omega, ?_, ?_, ?_, ?_⟩
        · rw [tx_loop, if_neg hne, if_neg hvalid, Function.iterate_succ_apply]
          exact hloop
        · rw [tx_turns, if_neg hne, if_neg hvalid, List.range_succ_eq_map, List.map_cons,
            List.map_map]
          exact congrArg (w :: ·) hturns
        · intro i hi
          cases i with
          | zero => exact Nat.lt_of_not_le hvalid
          | succ i => exact hbefore i (by omega)
        · rcases hend with hend | hend
          · exact .inl (by omega)
          · exact .inr hend

/-- In a programmed ring the loop turns until the consumer has caught up. -/
theorem tx_loop_eq_turns (h : TxProgrammed s r first last) {w : Walk} {prod n : Nat}
    (hw : ∃ k, first ≤ k ∧ k ≤ last ∧ w.read_ptr = k * DESC_SIZE_WORDS) (hprod : prod < 2 ^ 16)
    (hcons : w.cons < 2 ^ 16) (hn : (prod + 2 ^ 16 - w.cons) % 2 ^ 16 = n) {fuel : Nat}
    (hfuel : n ≤ fuel) :
    tx_loop net s.mem s.tbuf_ctrl
        (wide (s.tdma.rings r).start_addr (s.tdma.rings r).start_addr_hi)
        (wide (s.tdma.rings r).end_addr (s.tdma.rings r).end_addr_hi) prod fuel w =
      (turn net s r)^[n] w := by
  obtain ⟨k, -, hloop, -, -, hend⟩ := @tx_loop_walk net s r w prod n hprod hcons hn fuel hfuel
  rcases hend with rfl | hinvalid
  · exact hloop
  · obtain ⟨j, -, hj, hptr⟩ := @turns_read_ptr net s r first last h w hw k
    have hlast := h.last_lt
    rw [Walk.index, hptr, DESC_SIZE_WORDS, Nat.mul_div_cancel _ (by omega)] at hinvalid
    omega

/-- What the device keeps of a walk: not the offset. -/
structure Keeps (s s' : State) (r : Nat) (w : Walk) : Prop where
  descs : s'.tdma.descs = w.descs
  tx_packet : s'.tx_packet = w.tx_packet
  read_ptr : wide (s'.tdma.rings r).read_ptr (s'.tdma.rings r).read_ptr_hi = w.read_ptr
  cons : ex CONS_INDEX (s'.tdma.rings r).cons_index = w.cons
  start_addr : (s'.tdma.rings r).start_addr = (s.tdma.rings r).start_addr ∧
    (s'.tdma.rings r).start_addr_hi = (s.tdma.rings r).start_addr_hi
  end_addr : (s'.tdma.rings r).end_addr = (s.tdma.rings r).end_addr ∧
    (s'.tdma.rings r).end_addr_hi = (s.tdma.rings r).end_addr_hi
  ctrl : s'.tdma.ctrl = s.tdma.ctrl
  ring_cfg : s'.tdma.ring_cfg = s.tdma.ring_cfg
  mem : s'.mem = s.mem
  tbuf_ctrl : s'.tbuf_ctrl = s.tbuf_ctrl

end

theorem tx_done_keeps (s : State) (r : Nat) {w : Walk} (hnum : 0 < w.num_descs)
    (hcons : w.cons = (ex CONS_INDEX (s.tdma.rings r).cons_index + w.num_descs) % 2 ^ 16) :
    Keeps s (tx_done s r (s.tdma.rings r).cons_index w) r w := by
  have hex : ∀ v, ex CONS_INDEX v = v % 2 ^ 16 := by
    intro v
    simp only [ex, CONS_INDEX, Nat.pow_zero, Nat.div_one]
  have hcons' : ex CONS_INDEX (dp CONS_INDEX (s.tdma.rings r).cons_index
      ((s.tdma.rings r).cons_index + w.num_descs)) = w.cons := by
    have hlen : CONS_INDEX.length = 16 := rfl
    rw [ex_dp, hcons, hex, hlen]
    omega
  unfold tx_done
  simp only [hnum, if_true]
  by_cases hr : r = DMA_RING_DEFAULT
  · rw [if_pos hr]
    refine ⟨rfl, rfl, ?_, ?_, ?_, ?_, rfl, rfl, rfl, rfl⟩ <;> simp only [update_self, and_self]
    · exact wide_split _
    · exact hcons'
  · rw [if_neg hr]
    refine ⟨rfl, rfl, ?_, ?_, ?_, ?_, rfl, rfl, rfl, rfl⟩ <;> simp only [update_self, and_self]
    · exact wide_split _
    · exact hcons'

/-- Storing PROD_INDEX itself changes nothing that the walk uses. -/
theorem store_prod_index_keeps {s s' : State} {r : Nat} {w : Walk} (h : Keeps s s' r w)
    (value : Nat) :
    Keeps s (set_irq { s' with tdma := { s'.tdma with
      rings := update s'.tdma.rings r { s'.tdma.rings r with prod_index := value } } }) r w := by
  refine ⟨h.descs, h.tx_packet, ?_, ?_, ?_, ?_, h.ctrl, h.ring_cfg, h.mem, h.tbuf_ctrl⟩
  · simp only [set_irq, update_self]
    exact h.read_ptr
  · simp only [set_irq, update_self]
    exact h.cons
  · simp only [set_irq, update_self]
    exact h.start_addr
  · simp only [set_irq, update_self]
    exact h.end_addr

/-- A PROD_INDEX write is the turns up to the new index. -/
theorem write_eq_turns {net : Net} {s : State} {r first last : Nat}
    (h : TxProgrammed s r first last) (value : Nat) :
    Keeps s (write_tx_prod_index net s r value).1 r
      ((turn net s r)^[tx_steps (ex CONS_INDEX (s.tdma.rings r).cons_index) value]
        (walk_start s r)) ∧
    (write_tx_prod_index net s r value).2 =
      ((turn net s r)^[tx_steps (ex CONS_INDEX (s.tdma.rings r).cons_index) value]
        (walk_start s r)).sent := by
  have hc : ex CONS_INDEX (s.tdma.rings r).cons_index < 2 ^ 16 := ex_lt _
  have hp : ex PROD_INDEX value < 2 ^ 16 := ex_lt _
  generalize hn : tx_steps (ex CONS_INDEX (s.tdma.rings r).cons_index) value = n
  have hsteps := hn
  unfold tx_steps at hsteps
  unfold write_tx_prod_index
  by_cases heq : ex CONS_INDEX (s.tdma.rings r).cons_index = ex PROD_INDEX value
  · -- the consumer has caught up already
    have hzero : n = 0 := by omega
    subst hzero
    have htdma : tdma_prod_index net s r value = (s, []) := by
      unfold tdma_prod_index
      rw [if_pos h.active]
      simp only [heq, ne_eq, not_true_eq_false, if_false]
    rw [htdma]
    refine ⟨store_prod_index_keeps ?_ value, rfl⟩
    exact ⟨rfl, rfl, rfl, rfl, ⟨rfl, rfl⟩, ⟨rfl, rfl⟩, rfl, rfl, rfl, rfl⟩
  · have hpos : 0 < n := by omega
    have htx : tx net s r value (s.tdma.rings r).cons_index = (turn net s r)^[n] (walk_start s r) :=
      tx_loop_eq_turns h h.read_ptr hp hc hsteps (by omega)
    have htdma : tdma_prod_index net s r value =
        (tx_done s r (s.tdma.rings r).cons_index ((turn net s r)^[n] (walk_start s r)),
          ((turn net s r)^[n] (walk_start s r)).sent) := by
      unfold tdma_prod_index
      rw [if_pos h.active]
      simp only [heq, ne_eq, not_false_eq_true, if_true, htx]
    have hnum : ((turn net s r)^[n] (walk_start s r)).num_descs = (walk_start s r).num_descs + n :=
      turns_num_descs (walk_start s r) n
    have hcons : ((turn net s r)^[n] (walk_start s r)).cons =
        ((walk_start s r).cons + n) % 2 ^ 16 := turns_cons hc n
    rw [htdma]
    refine ⟨store_prod_index_keeps (tx_done_keeps s r ?_ ?_) value, rfl⟩
    · rw [hnum]
      exact Nat.lt_add_left _ hpos
    · rw [hcons, hnum]
      simp only [walk_start, Nat.zero_add]

/-! ## Pieces and frames -/

/-- What a descriptor contributes to a frame. -/
structure Piece where
  sop : Bool
  eop : Bool
  data : List UInt8
  deriving DecidableEq, Repr

/-- The piece at the walk's pointer. -/
def Walk.piece (mem : Memory) (w : Walk) : Piece :=
  let desc := w.descs (w.read_ptr / DESC_SIZE_WORDS)
  { sop := ex SOP desc.length_status != 0
    eop := ex EOP desc.length_status != 0
    data := mem.read desc.address (ex BUFLENGTH desc.length_status) }

/-- The pieces of the next turns. -/
def pieces (net : Net) (s : State) (r : Nat) : Nat → Walk → List Piece
  | 0, _ => []
  | n + 1, w => w.piece s.mem :: pieces net s r n (turn net s r w)

/-- The frames of a list of pieces; a mark says that a write starts at the
    piece, at offset 0. -/
def frames (net : Net) (tbuf_ctrl : Nat) : Memory → Nat → List (Bool × Piece) → List (List UInt8)
  | _, _, [] => []
  | packet, off, (mark, p) :: l =>
    let off := if mark || p.sop then 0 else off
    let packet := packet.write off p.data
    let off := off + p.data.length
    if p.eop then
      let r := xmit_packet net tbuf_ctrl packet off
      r.2 :: frames net tbuf_ctrl r.1 0 l
    else frames net tbuf_ctrl packet off l

/-- The packet buffer and the offset after a list of pieces. -/
def after (net : Net) (tbuf_ctrl : Nat) : Memory → Nat → List (Bool × Piece) → Memory × Nat
  | packet, off, [] => (packet, off)
  | packet, off, (mark, p) :: l =>
    let off := if mark || p.sop then 0 else off
    let packet := packet.write off p.data
    let off := off + p.data.length
    if p.eop then after net tbuf_ctrl (xmit_packet net tbuf_ctrl packet off).1 0 l
    else after net tbuf_ctrl packet off l

/-- A piece at which no write starts. -/
def unmarked (p : Piece) : Bool × Piece := (false, p)

/-- The pieces of one write. -/
def batch : List Piece → List (Bool × Piece)
  | [] => []
  | p :: ps => (true, p) :: ps.map unmarked

/-- The pieces of several writes of so many turns each. -/
def batches (net : Net) (s : State) (r : Nat) : List Nat → Walk → List (Bool × Piece)
  | [], _ => []
  | n :: ns, w => batch (pieces net s r n w) ++ batches net s r ns ((turn net s r)^[n] w)

section

variable {net : Net} {tbuf_ctrl : Nat} {s : State} {r : Nat}

theorem frames_append (packet : Memory) (off : Nat) (l m : List (Bool × Piece)) :
    frames net tbuf_ctrl packet off (l ++ m) =
      frames net tbuf_ctrl packet off l ++
        frames net tbuf_ctrl (after net tbuf_ctrl packet off l).1
          (after net tbuf_ctrl packet off l).2 m := by
  induction l generalizing packet off with
  | nil => rfl
  | cons mp l ih =>
    obtain ⟨mark, p⟩ := mp
    simp only [List.cons_append, frames, after]
    by_cases he : p.eop = true
    · simp only [he, if_true, ih, List.cons_append]
    · simp only [he, Bool.false_eq_true, if_false, ih]

theorem after_append (packet : Memory) (off : Nat) (l m : List (Bool × Piece)) :
    after net tbuf_ctrl packet off (l ++ m) =
      after net tbuf_ctrl (after net tbuf_ctrl packet off l).1
        (after net tbuf_ctrl packet off l).2 m := by
  induction l generalizing packet off with
  | nil => rfl
  | cons mp l ih =>
    obtain ⟨mark, p⟩ := mp
    simp only [List.cons_append, after]
    by_cases he : p.eop = true
    · simp only [he, if_true, ih]
    · simp only [he, Bool.false_eq_true, if_false, ih]

/-- A turn puts its piece into the packet buffer. -/
theorem turn_frames (w : Walk) :
    (turn net s r w).sent =
        w.sent ++ frames net s.tbuf_ctrl w.tx_packet w.packet_off [unmarked (w.piece s.mem)] ∧
      ((turn net s r w).tx_packet, (turn net s r w).packet_off) =
        after net s.tbuf_ctrl w.tx_packet w.packet_off [unmarked (w.piece s.mem)] := by
  simp only [turn, tx_desc, frames, after, unmarked, Walk.piece, Bool.false_or, Memory.read_length,
    bne_iff_ne]
  by_cases he : ex EOP (w.descs (w.read_ptr / DESC_SIZE_WORDS)).length_status ≠ 0
  · simp only [if_pos he, and_self]
  · simp only [if_neg he, List.append_nil, and_self]

theorem turns_frames (n : Nat) (w : Walk) :
    ((turn net s r)^[n] w).sent =
        w.sent ++
          frames net s.tbuf_ctrl w.tx_packet w.packet_off ((pieces net s r n w).map unmarked) ∧
      (((turn net s r)^[n] w).tx_packet, ((turn net s r)^[n] w).packet_off) =
        after net s.tbuf_ctrl w.tx_packet w.packet_off ((pieces net s r n w).map unmarked) := by
  induction n generalizing w with
  | zero => simp [pieces, frames, after]
  | succ n ih =>
    obtain ⟨hsent, hafter⟩ := @turn_frames net s r w
    obtain ⟨ihsent, ihafter⟩ := ih (turn net s r w)
    have hcons : unmarked (w.piece s.mem) :: (pieces net s r n (turn net s r w)).map unmarked =
        [unmarked (w.piece s.mem)] ++ (pieces net s r n (turn net s r w)).map unmarked := rfl
    rw [Function.iterate_succ_apply, pieces, List.map_cons, hcons]
    constructor
    · rw [ihsent, hsent, frames_append, ← hafter, List.append_assoc]
    · rw [ihafter, after_append, ← hafter]

/-- Walks over the same ring, at the same place. -/
structure SameRing (w w' : Walk) : Prop where
  descs : w.descs = w'.descs
  read_ptr : w.read_ptr = w'.read_ptr
  cons : w.cons = w'.cons

/-- The ring does not depend on what is in the packet buffer. -/
theorem turn_ring {w w' : Walk} (h : SameRing w w') :
    SameRing (turn net s r w) (turn net s r w') := by
  refine ⟨?_, ?_, ?_⟩ <;> simp only [turn, tx_desc, h.descs, h.read_ptr, h.cons]

theorem turns_ring {w w' : Walk} (h : SameRing w w') (n : Nat) :
    SameRing ((turn net s r)^[n] w) ((turn net s r)^[n] w') := by
  induction n generalizing w w' with
  | zero => exact h
  | succ n ih =>
    rw [Function.iterate_succ_apply, Function.iterate_succ_apply]
    exact ih (turn_ring h)

theorem pieces_ring {w w' : Walk} (h : SameRing w w') (n : Nat) :
    pieces net s r n w = pieces net s r n w' := by
  induction n generalizing w w' with
  | zero => rfl
  | succ n ih =>
    have hpiece : w.piece s.mem = w'.piece s.mem := by
      simp only [Walk.piece, h.descs, h.read_ptr]
    rw [pieces, pieces, hpiece, ih (turn_ring h)]

theorem batches_ring {w w' : Walk} (h : SameRing w w') (ns : List Nat) :
    batches net s r ns w = batches net s r ns w' := by
  induction ns generalizing w w' with
  | nil => rfl
  | cons n ns ih => rw [batches, batches, pieces_ring h n, ih (turns_ring h n)]

theorem pieces_add (m n : Nat) (w : Walk) :
    pieces net s r (m + n) w =
      pieces net s r m w ++ pieces net s r n ((turn net s r)^[m] w) := by
  induction m generalizing w with
  | zero => simp [pieces]
  | succ m ih =>
    rw [Nat.add_right_comm, pieces, pieces, ih, Function.iterate_succ_apply, List.cons_append]

/-- Without the marks, several writes have the pieces of one. -/
theorem batches_unmarked (ns : List Nat) (w : Walk) :
    (batches net s r ns w).map (fun mp => unmarked mp.2) =
      (pieces net s r ns.sum w).map unmarked := by
  have hbatch : ∀ ps : List Piece, (batch ps).map (fun mp => unmarked mp.2) = ps.map unmarked := by
    intro ps
    cases ps with
    | nil => rfl
    | cons p ps => simp [batch, unmarked, Function.comp_def]
  induction ns generalizing w with
  | nil => rfl
  | cons n ns ih =>
    rw [batches, List.map_append, hbatch, ih, List.sum_cons, pieces_add, List.map_append]

/-- A write starts at offset 0, wherever the one before it stopped. -/
theorem frames_batches (ns : List Nat) (w : Walk) (packet : Memory) (off : Nat) :
    frames net tbuf_ctrl packet off (batches net s r ns w) =
      frames net tbuf_ctrl packet 0 (batches net s r ns w) := by
  induction ns generalizing w with
  | nil => rfl
  | cons n ns ih =>
    rw [batches]
    cases pieces net s r n w with
    | nil => exact ih _
    | cons p ps => simp only [batch, List.cons_append, frames, Bool.true_or, if_true]

theorem frames_batch (packet : Memory) (ps : List Piece) :
    frames net tbuf_ctrl packet 0 (batch ps) = frames net tbuf_ctrl packet 0 (ps.map unmarked) ∧
      after net tbuf_ctrl packet 0 (batch ps) = after net tbuf_ctrl packet 0 (ps.map unmarked) := by
  cases ps with
  | nil => exact ⟨rfl, rfl⟩
  | cons p ps =>
    simp only [batch, List.map_cons, unmarked, frames, after, Bool.true_or, Bool.false_or,
      ite_self, and_self]

end

/-! ## Several writes -/

/-- PROD_INDEX writes, one after the other: the state and the frames. -/
def write_all (net : Net) (s : State) (r : Nat) : List Nat → State × List (List UInt8)
  | [] => (s, [])
  | v :: vs =>
    let a := write_tx_prod_index net s r v
    let b := write_all net a.1 r vs
    (b.1, a.2 ++ b.2)

/-- The turns of each write, from a consumer index. -/
def all_steps : Nat → List Nat → List Nat
  | _, [] => []
  | c, v :: vs => tx_steps c v :: all_steps (ex PROD_INDEX v) vs

section

variable {net : Net} {s s' : State} {r first last : Nat} {w : Walk}

theorem Keeps.turn_eq (h : Keeps s s' r w) : turn net s' r = turn net s r := by
  unfold turn
  rw [h.mem, h.tbuf_ctrl, h.start_addr.1, h.start_addr.2, h.end_addr.1, h.end_addr.2]

theorem Keeps.pieces_eq (h : Keeps s s' r w) (n : Nat) (v : Walk) :
    pieces net s' r n v = pieces net s r n v := by
  induction n generalizing v with
  | zero => rfl
  | succ n ih => rw [pieces, pieces, ih, h.turn_eq, h.mem]

theorem Keeps.batches_eq (h : Keeps s s' r w) (ns : List Nat) (v : Walk) :
    batches net s' r ns v = batches net s r ns v := by
  induction ns generalizing v with
  | nil => rfl
  | cons n ns ih => rw [batches, batches, h.pieces_eq, ih, h.turn_eq]

theorem Keeps.same_ring (h : Keeps s s' r w) : SameRing (walk_start s' r) w :=
  ⟨h.descs, h.read_ptr, h.cons⟩

theorem Keeps.programmed (h : Keeps s s' r w) (hp : TxProgrammed s r first last)
    (hw : ∃ k, first ≤ k ∧ k ≤ last ∧ w.read_ptr = k * DESC_SIZE_WORDS) :
    TxProgrammed s' r first last where
  active := by
    have := hp.active
    unfold tdma_ring_active at this ⊢
    rw [h.ctrl, h.ring_cfg]
    exact this
  start_addr := by
    rw [h.start_addr.1, h.start_addr.2]
    exact hp.start_addr
  end_addr := by
    rw [h.end_addr.1, h.end_addr.2]
    exact hp.end_addr
  ordered := hp.ordered
  last_lt := hp.last_lt
  read_ptr := by
    rw [h.read_ptr]
    exact hw

/-- After a write the consumer is at the producer. -/
theorem turns_cons_prod (s : State) (r value : Nat) :
    ((turn net s r)^[tx_steps (ex CONS_INDEX (s.tdma.rings r).cons_index) value]
      (walk_start s r)).cons = ex PROD_INDEX value := by
  have hc : (walk_start s r).cons < 2 ^ 16 := ex_lt _
  have hp : ex PROD_INDEX value < 2 ^ 16 := ex_lt _
  rw [turns_cons hc]
  unfold tx_steps
  simp only [walk_start] at hc ⊢
  omega

/-- Several writes: the ring goes where all the turns together go, and the
    frames are those of the marked pieces. -/
theorem write_all_eq (h : TxProgrammed s r first last) (vs : List Nat) :
    SameRing (walk_start (write_all net s r vs).1 r)
      ((turn net s r)^[(all_steps (ex CONS_INDEX (s.tdma.rings r).cons_index) vs).sum]
        (walk_start s r)) ∧
    (write_all net s r vs).2 = frames net s.tbuf_ctrl s.tx_packet 0
      (batches net s r (all_steps (ex CONS_INDEX (s.tdma.rings r).cons_index) vs)
        (walk_start s r)) := by
  induction vs generalizing s with
  | nil => exact ⟨⟨rfl, rfl, rfl⟩, rfl⟩
  | cons v vs ih =>
    obtain ⟨hkeeps, hsent⟩ := @write_eq_turns net _ _ _ _ h v
    have hcons := @turns_cons_prod net s r v
    simp only [all_steps, List.sum_cons, write_all, batches]
    generalize (write_tx_prod_index net s r v).1 = s₁ at hkeeps ⊢
    generalize tx_steps (ex CONS_INDEX (s.tdma.rings r).cons_index) v = n at *
    obtain ⟨hring, hframes⟩ := ih (hkeeps.programmed h (turns_read_ptr h h.read_ptr n))
    obtain ⟨hturns, hafter⟩ := @turns_frames net s r n (walk_start s r)
    obtain ⟨hbatch, hbatch'⟩ := @frames_batch net s.tbuf_ctrl s.tx_packet
      (pieces net s r n (walk_start s r))
    have hc₁ : ex CONS_INDEX (s₁.tdma.rings r).cons_index = ex PROD_INDEX v := by
      rw [hkeeps.cons, hcons]
    rw [hc₁] at hring hframes
    rw [Prod.ext_iff] at hafter
    constructor
    · rw [Nat.add_comm, Function.iterate_add_apply]
      rw [hkeeps.turn_eq] at hring
      have hsame := @turns_ring net s r _ _ hkeeps.same_ring
        (all_steps (ex PROD_INDEX v) vs).sum
      exact ⟨hring.descs.trans hsame.descs, hring.read_ptr.trans hsame.read_ptr,
        hring.cons.trans hsame.cons⟩
    · rw [frames_append, hbatch, hbatch', frames_batches, hframes, hsent, hturns,
        hkeeps.batches_eq, batches_ring hkeeps.same_ring, hkeeps.tx_packet, hkeeps.tbuf_ctrl]
      simp only [walk_start, List.nil_append] at hafter ⊢
      rw [← hafter.1]

end

/-! ## Cuts -/

/-- The bytes gathered for an unfinished frame when no write stops. -/
def gathered (off : Nat) (l : List (Bool × Piece)) : Nat :=
  l.foldl (fun off mp =>
    if mp.2.eop then 0 else (if mp.2.sop then 0 else off) + mp.2.data.length) off

/-- Where a write starts, no bytes of an unfinished frame are gathered, or
    that frame is not finished in the list. -/
def Uncut (off : Nat) (l : List (Bool × Piece)) : Prop :=
  ∀ t p, l[t]? = some (true, p) →
    gathered off (l.take t) = 0 ∨ ∀ mp ∈ l.drop t, mp.2.eop = false

/-- Frames of one or more pieces, the first with SOP and the last with EOP. -/
def Chained : Bool → List Piece → Prop
  | _, [] => True
  | inside, p :: ps => p.sop = !inside ∧ Chained (!p.eop) ps

/-- The lengths of the frames of a list of pieces. -/
def lengths : Nat → List (Bool × Piece) → List Nat
  | _, [] => []
  | off, (mark, p) :: l =>
    let off := (if mark || p.sop then 0 else off) + p.data.length
    if p.eop then off :: lengths 0 l else lengths off l

section

variable {net : Net} {tbuf_ctrl : Nat} {off : Nat} {mark : Bool} {p : Piece}
  {l : List (Bool × Piece)}

theorem uncut_cons :
    Uncut off ((mark, p) :: l) ↔
      (mark = true → off = 0 ∨ ∀ mp ∈ (mark, p) :: l, mp.2.eop = false) ∧
      Uncut (if p.eop then 0 else (if p.sop then 0 else off) + p.data.length) l := by
  constructor
  · intro h
    refine ⟨fun hmark => ?_, fun t q hq => ?_⟩
    · subst hmark
      exact h 0 p rfl
    · exact h (t + 1) q hq
  · rintro ⟨h₀, h₁⟩ t q hq
    cases t with
    | zero =>
      have hmp : (mark, p) = (true, q) := Option.some.inj hq
      exact h₀ (congrArg Prod.fst hmp)
    | succ t => exact h₁ t q hq

theorem frames_eq_nil (h : ∀ mp ∈ l, mp.2.eop = false) (packet : Memory) (off : Nat) :
    frames net tbuf_ctrl packet off l = [] := by
  induction l generalizing packet off with
  | nil => rfl
  | cons mp l ih =>
    obtain ⟨mark, p⟩ := mp
    have hp : p.eop = false := h (mark, p) List.mem_cons_self
    simp only [frames, hp, Bool.false_eq_true, if_false]
    exact ih (fun q hq => h q (List.mem_cons_of_mem _ hq)) _ _

/-- Without cuts the marks do not matter. -/
theorem frames_of_uncut (h : Uncut off l) (packet : Memory) :
    frames net tbuf_ctrl packet off l =
      frames net tbuf_ctrl packet off (l.map (fun mp => unmarked mp.2)) := by
  induction l generalizing packet off with
  | nil => rfl
  | cons mp l ih =>
    obtain ⟨mark, p⟩ := mp
    obtain ⟨h₀, h₁⟩ := uncut_cons.mp h
    by_cases hnone : ∀ mp ∈ (mark, p) :: l, mp.2.eop = false
    · -- nothing is finished any more
      have hnone' : ∀ mp ∈ ((mark, p) :: l).map (fun mp => unmarked mp.2), mp.2.eop = false := by
        intro mp hmp
        obtain ⟨q, hq, rfl⟩ := List.mem_map.mp hmp
        exact hnone q hq
      rw [frames_eq_nil hnone, frames_eq_nil hnone']
    · have hoff : (if (mark || p.sop) = true then 0 else off) =
          if p.sop = true then 0 else off := by
        cases mark with
        | false => rfl
        | true =>
          have hzero : off = 0 := (h₀ rfl).resolve_right hnone
          simp [hzero]
      rw [List.map_cons]
      simp only [frames, unmarked, Bool.false_or, hoff]
      by_cases he : p.eop = true
      · simp only [he, if_true] at h₁ ⊢
        rw [ih h₁]
        rfl
      · simp only [he, Bool.false_eq_true, if_false] at h₁ ⊢
        exact ih h₁ _

/-- Without a status block the whole packet is sent. -/
theorem frames_lengths (htbuf : tbuf_ctrl % 2 = 0) (packet : Memory) (off : Nat) :
    (frames net tbuf_ctrl packet off l).map List.length = lengths off l := by
  induction l generalizing packet off with
  | nil => rfl
  | cons mp l ih =>
    obtain ⟨mark, p⟩ := mp
    simp only [frames, lengths]
    by_cases he : p.eop = true
    · simp only [he, if_true, List.map_cons, ih, xmit_packet, htbuf, zero_ne_one, false_and,
        if_false, Memory.read_length]
    · simp only [he, Bool.false_eq_true, if_false, ih]

/-- Equal lengths: nothing was cut.  The offset of the divided walk is behind
    the other one from a cut on, up to the end of the frame. -/
theorem uncut_of_lengths {inside : Bool} {off off' : Nat} (hle : off' ≤ off)
    (hchain : Chained inside (l.map Prod.snd)) (hout : inside = false → off = 0)
    (hlen : lengths off' l = lengths off (l.map (fun mp => unmarked mp.2))) :
    ((∃ mp ∈ l, mp.2.eop = true) → off' = off) ∧ Uncut off l := by
  induction l generalizing inside off off' with
  | nil =>
    refine ⟨?_, ?_⟩
    · rintro ⟨mp, hmp, -⟩
      exact absurd hmp List.not_mem_nil
    · intro t p hp
      simp at hp
  | cons mp l ih =>
    obtain ⟨mark, p⟩ := mp
    rw [List.map_cons] at hchain hlen
    obtain ⟨hsop, hchain'⟩ := hchain
    simp only [lengths, unmarked, Bool.false_or] at hlen
    -- where the two walks put the piece
    generalize hb : (if (mark || p.sop) = true then 0 else off') = b at hlen
    generalize ha : (if p.sop = true then 0 else off) = a at hlen
    have hba : b ≤ a := by
      cases hs : p.sop with
      | true => simp only [hs, Bool.or_true, if_true] at ha hb; omega
      | false =>
        cases mark with
        | true => simp only [Bool.true_or, if_true] at hb; omega
        | false => simp only [hs, Bool.or_self, Bool.false_eq_true, if_false] at ha hb; omega
    have hab : a = b → off' = off ∧ (mark = true → off = 0) := by
      intro heq
      cases hs : p.sop with
      | true =>
        have hin : inside = false := by simpa [hs] using hsop
        have := hout hin
        exact ⟨by omega, fun _ => this⟩
      | false =>
        cases mark with
        | true =>
          simp only [hs, Bool.true_or, Bool.false_eq_true, if_true, if_false] at ha hb
          exact ⟨by omega, fun _ => by omega⟩
        | false =>
          simp only [hs, Bool.or_self, Bool.false_eq_true, if_false] at ha hb
          exact ⟨by omega, fun h => absurd h Bool.false_ne_true⟩
    rw [uncut_cons, ha]
    by_cases he : p.eop = true
    · simp only [he, if_true, List.cons.injEq, Bool.not_true] at hlen hchain' ⊢
      have hab' := hab (by omega)
      obtain ⟨-, hrest⟩ := ih (Nat.le_refl 0) hchain' (fun _ => rfl) hlen.2
      exact ⟨fun _ => hab'.1, fun hm => .inl (hab'.2 hm), hrest⟩
    · simp only [he, Bool.false_eq_true, if_false, Bool.not_false] at hlen hchain' ⊢
      obtain ⟨hfirst, hrest⟩ := ih (by omega) hchain' (fun h => absurd h Bool.noConfusion) hlen
      have hex : (∃ mp ∈ (mark, p) :: l, mp.2.eop = true) → a = b := by
        rintro ⟨mp, hmp, hmpe⟩
        rcases List.mem_cons.mp hmp with rfl | hmp
        · exact absurd hmpe he
        · have := hfirst ⟨mp, hmp, hmpe⟩
          omega
      refine ⟨fun h => (hab (hex h)).1, fun hm => ?_, hrest⟩
      by_cases hany : ∃ mp ∈ (mark, p) :: l, mp.2.eop = true
      · exact .inl ((hab (hex hany)).2 hm)
      · right
        intro mp hmp
        by_contra hmpe
        exact hany ⟨mp, hmp, by simpa using hmpe⟩

end

/-! ## Every batching -/

/-- Valid descriptors for so many turns: chained frames that fit the packet
    buffer. -/
structure ValidPieces (ps : List Piece) : Prop where
  chained : Chained false ps
  fit : ∀ t, gathered 0 ((ps.take t).map unmarked) ≤ MAX_FRAME_SIZE

/-- PROD_INDEX writes that together advance as far as one: the consumer
    index, the pointer and the descriptors come out the same.  The frames are
    the same when no write stops inside a frame that has bytes gathered and is
    finished; without transmit status blocks, only then. -/
theorem tx_batches (net : Net) {s : State} {r first last : Nat}
    (h : TxProgrammed s r first last) (vs : List Nat) (q : Nat)
    (hadv : (all_steps (ex CONS_INDEX (s.tdma.rings r).cons_index) vs).sum =
      tx_steps (ex CONS_INDEX (s.tdma.rings r).cons_index) q)
    (hvalid : ValidPieces (pieces net s r
      (tx_steps (ex CONS_INDEX (s.tdma.rings r).cons_index) q) (walk_start s r))) :
    (ex CONS_INDEX ((write_all net s r vs).1.tdma.rings r).cons_index =
        ex CONS_INDEX ((write_tx_prod_index net s r q).1.tdma.rings r).cons_index ∧
      wide ((write_all net s r vs).1.tdma.rings r).read_ptr
          ((write_all net s r vs).1.tdma.rings r).read_ptr_hi =
        wide ((write_tx_prod_index net s r q).1.tdma.rings r).read_ptr
          ((write_tx_prod_index net s r q).1.tdma.rings r).read_ptr_hi ∧
      (write_all net s r vs).1.tdma.descs = (write_tx_prod_index net s r q).1.tdma.descs) ∧
    (Uncut 0 (batches net s r (all_steps (ex CONS_INDEX (s.tdma.rings r).cons_index) vs)
        (walk_start s r)) →
      (write_all net s r vs).2 = (write_tx_prod_index net s r q).2) ∧
    (s.tbuf_ctrl % 2 = 0 →
      ((write_all net s r vs).2 = (write_tx_prod_index net s r q).2 ↔
        Uncut 0 (batches net s r (all_steps (ex CONS_INDEX (s.tdma.rings r).cons_index) vs)
          (walk_start s r)))) := by
  obtain ⟨hring, hall⟩ := @write_all_eq net _ _ _ _ h vs
  obtain ⟨hkeeps, hone⟩ := @write_eq_turns net _ _ _ _ h q
  obtain ⟨hturns, -⟩ := @turns_frames net s r
    (tx_steps (ex CONS_INDEX (s.tdma.rings r).cons_index) q) (walk_start s r)
  have hunmarked := @batches_unmarked net s r
    (all_steps (ex CONS_INDEX (s.tdma.rings r).cons_index) vs) (walk_start s r)
  rw [hadv] at hring hunmarked
  generalize tx_steps (ex CONS_INDEX (s.tdma.rings r).cons_index) q = n at *
  generalize batches net s r (all_steps (ex CONS_INDEX (s.tdma.rings r).cons_index) vs)
    (walk_start s r) = l at *
  -- the single write sends the frames of the same pieces without marks
  have hsingle : (write_tx_prod_index net s r q).2 =
      frames net s.tbuf_ctrl s.tx_packet 0 (l.map (fun mp => unmarked mp.2)) := by
    rw [hone, hturns, hunmarked]
    rfl
  have hsuff : Uncut 0 l → (write_all net s r vs).2 = (write_tx_prod_index net s r q).2 := by
    intro huncut
    rw [hall, hsingle]
    exact frames_of_uncut huncut s.tx_packet
  refine ⟨⟨?_, ?_, ?_⟩, hsuff, fun htbuf => ⟨fun heq => ?_, hsuff⟩⟩
  · rw [hkeeps.cons]
    exact hring.cons
  · rw [hkeeps.read_ptr]
    exact hring.read_ptr
  · rw [hkeeps.descs]
    exact hring.descs
  · have hlen := congrArg (List.map List.length) heq
    rw [hall, hsingle, frames_lengths htbuf, frames_lengths htbuf] at hlen
    have hchain : Chained false (l.map Prod.snd) := by
      have hsnd : l.map Prod.snd = (l.map (fun mp => unmarked mp.2)).map Prod.snd := by
        rw [List.map_map]
        rfl
      rw [hsnd, hunmarked, List.map_map]
      have hid : (Prod.snd ∘ unmarked) = id := rfl
      rw [hid, List.map_id]
      exact hvalid.chained
    exact (uncut_of_lengths (Nat.le_refl 0) hchain (fun _ => rfl) hlen).2

/-- A transmit ring of three descriptors: a frame of two pieces, and one of
    a single piece. -/
def three_descs : State :=
  { two_descs with
    mem := fun a => UInt8.ofNat (a / 256 + a % 256)
    tdma :=
      { descs := fun j =>
          -- BUFLENGTH 2 with SOP; BUFLENGTH 2 with EOP; BUFLENGTH 1 with both
          if j = 0 then ⟨0x22000, 0x100, 0⟩
          else if j = 1 then ⟨0x24000, 0x200, 0⟩
          else ⟨0x16000, 0x300, 0⟩
        rings := fun _ => ⟨0, 0, 0, 0, 0, 0, 8, 0⟩
        ring_cfg := 1
        ctrl := 3 } }

theorem three_descs_programmed : TxProgrammed three_descs 0 0 2 :=
  ⟨by decide, by decide, by decide, by decide, by decide, 0, by decide, by decide, by decide⟩

theorem three_descs_valid :
    ValidPieces (pieces plain_net three_descs 0 3 (walk_start three_descs 0)) := by
  have hps : pieces plain_net three_descs 0 3 (walk_start three_descs 0) =
      [⟨true, false, [1, 2]⟩, ⟨false, true, [2, 3]⟩, ⟨true, true, [3]⟩] := by
    decide +kernel
  rw [hps]
  refine ⟨⟨rfl, rfl, rfl, trivial⟩, ?_⟩
  intro t
  match t with
  | 0 => decide
  | 1 => decide
  | 2 => decide
  | t + 3 =>
    rw [List.take_of_length_le (by simp)]
    decide

/-- Two writes with the stop between the frames send what one write sends. -/
theorem stop_between_frames :
    (write_all plain_net three_descs 0 [2, 3]).2 =
      (write_tx_prod_index plain_net three_descs 0 3).2 ∧
    Uncut 0 (batches plain_net three_descs 0 [2, 1] (walk_start three_descs 0)) := by
  have heq : (write_all plain_net three_descs 0 [2, 3]).2 =
      (write_tx_prod_index plain_net three_descs 0 3).2 := by
    decide +kernel
  exact ⟨heq, ((tx_batches plain_net three_descs_programmed [2, 3] 3 (by decide)
    three_descs_valid).2.2 (by decide)).mp heq⟩

/-- Two writes with the stop inside the first frame send its second piece
    only. -/
theorem stop_inside_frame_cuts :
    TxProgrammed three_descs 0 0 2 ∧
    ValidPieces (pieces plain_net three_descs 0 2 (walk_start three_descs 0)) ∧
    (all_steps 0 [1, 2]).sum = tx_steps 0 2 ∧
    (write_tx_prod_index plain_net three_descs 0 2).2 = [[1, 2, 2, 3]] ∧
    (write_all plain_net three_descs 0 [1, 2]).2 = [[2, 3]] := by
  have hps : pieces plain_net three_descs 0 2 (walk_start three_descs 0) =
      [⟨true, false, [1, 2]⟩, ⟨false, true, [2, 3]⟩] := by
    decide +kernel
  refine ⟨three_descs_programmed, ?_, by decide, by decide +kernel, by decide +kernel⟩
  rw [hps]
  refine ⟨⟨rfl, rfl, trivial⟩, ?_⟩
  intro t
  match t with
  | 0 => decide
  | 1 => decide
  | t + 2 =>
    rw [List.take_of_length_le (by simp)]
    decide

end Genet
