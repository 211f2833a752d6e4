import RpiQemu.Genet.Delivery

/-! # What the receive descriptors say

    A driver reads from the descriptors of a frame where it starts and ends,
    and how many bytes each buffer has.  The loop writes EOP and BUFLENGTH for
    each piece; SOP it only sets, at the first one, and BUFLENGTH is what the
    piece would need, not what the buffer takes.

    * **Writes**: the writes to the guest, in order (`rx_writes`), which are
      all that changes in its memory (`receive_mem`).
    * **Descriptors**: they describe what the guest then finds in its memory
      exactly when the first piece with its header and CRC fits the buffer and
      nothing is left over from an earlier lap (`described_iff`). -/

namespace Genet

open Register

/-! ## Places -/

/-- The turns until the ring wraps. -/
def RdmaRing.until_wrap (r : RdmaRing) : Nat := r.end_index - r.write_index + 1

section

variable {s : State} {r : Nat}

theorem rx_index_eq {i : Nat}
    (hi : i ≤ (s.rdma.rings r).until_wrap + ((s.rdma.rings r).end_index -
      (s.rdma.rings r).start_index)) :
    rx_index s r i =
      if i < (s.rdma.rings r).until_wrap then (s.rdma.rings r).write_index + i
      else (s.rdma.rings r).start_index + (i - (s.rdma.rings r).until_wrap) := by
  unfold RdmaRing.until_wrap at *
  induction i with
  | zero => rw [rx_index_zero, if_pos (by omega), Nat.add_zero]
  | succ i ih =>
    rw [rx_index_succ, ih (by omega), RdmaRing.next_index]
    split_ifs <;> omega

/-- As many places as the ring has descriptors are different ones. -/
theorem rx_index_inj {i j : Nat} (hij : i < j)
    (hj : j < (s.rdma.rings r).end_index - (s.rdma.rings r).start_index + 1)
    (hord : (s.rdma.rings r).start_index ≤ (s.rdma.rings r).end_index) :
    rx_index s r i ≠ rx_index s r j := by
  have hbound : ∀ k ≤ j, k ≤ (s.rdma.rings r).until_wrap + ((s.rdma.rings r).end_index -
      (s.rdma.rings r).start_index) := by
    unfold RdmaRing.until_wrap
    omega
  rw [rx_index_eq (hbound i (by omega)), rx_index_eq (hbound j (Nat.le_refl j))]
  unfold RdmaRing.until_wrap
  split_ifs <;> omega

/-- The free descriptors are no more than the ring has. -/
theorem free_descs_le (h : rdma_free_descs s r ≠ 0) :
    (s.rdma.rings r).start_index ≤ (s.rdma.rings r).end_index ∧
      rdma_free_descs s r ≤ (s.rdma.rings r).end_index - (s.rdma.rings r).start_index + 1 := by
  unfold rdma_free_descs at *
  simp only at *
  split_ifs at * with h₁ h₂
  · exact absurd rfl h
  · have hmod := Nat.mod_le
      ((s.rdma.rings r).end_index - (s.rdma.rings r).start_index + 1) (2 ^ 32)
    omega
  · exact absurd rfl h

end

/-! ## Writes -/

/-- The write to the guest of a turn: the address and the bytes. -/
def Fill.dma (f : Fill) (net : Net) (s : State) (buf : List UInt8) : Nat × List UInt8 :=
  ((f.descs f.write_index).address, (f.staged net s buf).read 0 (f.dma_len s buf))

/-- The writes to the guest for a frame, in order. -/
def rx_writes (net : Net) (s : State) (buf : List UInt8) : List (Nat × List UInt8) :=
  let r := default_rx_ring s
  (rdma_turns net s buf (buf.length + (s.rdma.rings r).index_bound + 2) (fill_start s r)).map
    (fun f => f.dma net s buf)

section

variable {net : Net} {s : State} {buf : List UInt8}

theorem rdma_loop_mem {fuel : Nat} {f f' : Fill} (h : rdma_loop net s buf fuel f = some f') :
    f'.mem = ((rdma_turns net s buf fuel f).map (fun f => f.dma net s buf)).foldl
      (fun mem w => address_space_write net mem w.1 w.2) f.mem := by
  induction fuel generalizing f with
  | zero => exact absurd h (by simp [rdma_loop])
  | succ fuel ih =>
    rw [rdma_loop] at h
    rw [rdma_turns]
    by_cases hlt : f.len < buf.length
    · rw [if_pos hlt] at h ⊢
      by_cases hfails : f.fails net s buf
      · simp only [rdma_turn_fails hfails, Bool.false_eq_true, if_false] at h ⊢
        obtain rfl := Option.some.inj h
        simp only [List.map_cons, List.map_nil, List.foldl_cons, List.foldl_nil]
        rfl
      · simp only [rdma_turn_goes hfails, if_true] at h ⊢
        rw [ih h, List.map_cons, List.foldl_cons]
        rfl
    · rw [if_neg hlt] at h ⊢
      obtain rfl := Option.some.inj h
      rfl

/-- The writes are all that a frame changes in the guest's memory. -/
theorem receive_mem (h : Filling s buf) {ret : Int} {s' : State}
    (hrecv : receive net s buf = some (ret, s')) :
    s'.mem = (rx_writes net s buf).foldl
      (fun mem w => address_space_write net mem w.1 w.2) s.mem := by
  rw [receive_filling h] at hrecv
  obtain ⟨f, hloop, hf⟩ := Option.map_eq_some_iff.mp hrecv
  obtain ⟨-, rfl⟩ := Prod.mk.inj hf
  rw [(rdma_done_fields s (default_rx_ring s) f).2.1]
  exact rdma_loop_mem hloop

end

/-! ## Descriptors -/

/-- The bytes of the frame in the `i`-th piece. -/
def rx_len (s : State) (r : Nat) (buf : List UInt8) (i : Nat) : Nat :=
  min (buf.length - i * (s.rdma.rings r).ring_buf_size) (s.rdma.rings r).ring_buf_size

/-- The `i`-th piece of the frame. -/
def rx_piece (s : State) (r : Nat) (buf : List UInt8) (i : Nat) : List UInt8 :=
  (buf.drop (i * (s.rdma.rings r).ring_buf_size)).take (s.rdma.rings r).ring_buf_size

section

variable {net : Net} {s : State} {r : Nat} {buf : List UInt8} {f : Fill} {i : Nat}

theorem FillAt.take_len (h : FillAt s r buf i f)
    (hi : i * (s.rdma.rings r).ring_buf_size < buf.length) : f.take_len buf = rx_len s r buf i := by
  have hlen : f.len = i * (s.rdma.rings r).ring_buf_size := by
    rw [h.len]
    omega
  unfold Fill.take_len rx_len
  rw [hlen, h.ring_buf_size]

theorem FillAt.dma_len (h : FillAt s r buf i f)
    (hi : i * (s.rdma.rings r).ring_buf_size < buf.length) :
    f.dma_len s buf = rx_dma_len s r buf i := by
  unfold Fill.dma_len rx_dma_len
  rw [h.take_len hi, h.ring_buf_size]
  rfl

theorem FillAt.piece (h : FillAt s r buf i f)
    (hi : i * (s.rdma.rings r).ring_buf_size < buf.length) : f.piece buf = rx_piece s r buf i := by
  have hlen : f.len = i * (s.rdma.rings r).ring_buf_size := by
    rw [h.len]
    omega
  unfold Fill.piece rx_piece
  rw [h.take_len hi, hlen, rx_len, List.take_eq_take_iff, List.length_drop]
  omega

theorem rx_piece_length : (rx_piece s r buf i).length = rx_len s r buf i := by
  rw [rx_piece, List.length_take, List.length_drop, rx_len, Nat.min_comm]

/-- The bytes behind the header of what is written are the piece, as far as
    the buffer takes them. -/
theorem staged_piece (h : FillAt s r buf i f)
    (hi : i * (s.rdma.rings r).ring_buf_size < buf.length)
    (hfits : hdr_size s.rbuf_ctrl + rx_len s r buf i ≤ rx_dma_len s r buf i) :
    (((f.staged net s buf).read 0 (f.dma_len s buf)).drop (hdr_size s.rbuf_ctrl)).take
      (rx_len s r buf i) = rx_piece s r buf i := by
  rw [h.dma_len hi, Memory.take_drop_read _ hfits, Nat.zero_add]
  unfold Fill.staged
  rw [status_block_frame]
  unfold Fill.copied
  have hin := @Memory.read_write_inside f.rx_packet (hdr_size s.rbuf_ctrl) 0 (rx_len s r buf i)
    (f.piece buf) (by rw [h.piece hi, rx_piece_length, Nat.zero_add])
  rw [Nat.add_zero] at hin
  rw [hin, h.piece hi, List.drop_zero, ← rx_piece_length, List.take_length]

/-- What a turn writes into its descriptor. -/
structure StatusAt (s : State) (r : Nat) (buf : List UInt8) (i st : Nat) : Prop where
  sop : ex SOP st = ex SOP ((fill_start s r).descs (rx_index s r i)).length_status
  eop : ex EOP st =
    if buf.length ≤ i * (s.rdma.rings r).ring_buf_size + rx_len s r buf i then 1 else 0
  buflength : ex BUFLENGTH st =
    (rx_len s r buf i + hdr_size s.rbuf_ctrl + crc_size s.umac_cmd) % 2 ^ 12

theorem FillAt.status (h : FillAt s r buf i f)
    (hi : i * (s.rdma.rings r).ring_buf_size < buf.length)
    (hdesc : f.descs f.write_index = (fill_start s r).descs (rx_index s r i)) :
    StatusAt s r buf i (f.status s buf) := by
  have hlen : f.len = i * (s.rdma.rings r).ring_buf_size := by
    rw [h.len]
    omega
  unfold Fill.status
  refine ⟨?_, ?_, ?_⟩
  · rw [ex_dp_of_disjoint (by decide), ex_dp_of_disjoint (by decide),
      ex_dp_of_disjoint (by decide), ex_dp_of_disjoint (by decide), hdesc]
  · rw [ex_dp_of_disjoint (by decide), ex_dp_of_disjoint (by decide),
      ex_dp_of_disjoint (by decide), ex_dp, h.take_len hi, hlen]
    split_ifs <;> rfl
  · rw [ex_dp_of_disjoint (by decide), ex_dp_of_disjoint (by decide), ex_dp, h.take_len hi]
    rfl

/-- The descriptors at the start of the `i`-th turn: those of the turns before
    are written, the others as they were. -/
structure DescsAt (s : State) (r : Nat) (buf : List UInt8) (i : Nat) (f : Fill) : Prop where
  written : ∀ j < i, StatusAt s r buf j (f.descs (rx_index s r j)).length_status
  others : ∀ x, (∀ j < i, x ≠ rx_index s r j) → f.descs x = (fill_start s r).descs x

theorem descs_start (s : State) (r : Nat) (buf : List UInt8) :
    DescsAt s r buf 0 (fill_start s r) :=
  ⟨fun j hj => absurd hj (Nat.not_lt_zero j), fun _ _ => rfl⟩

theorem DescsAt.turn (h : DescsAt s r buf i f) (hat : FillAt s r buf i f)
    (hi : i * (s.rdma.rings r).ring_buf_size < buf.length)
    (hnew : ∀ j < i, rx_index s r i ≠ rx_index s r j) (hgo : ¬ f.fails net s buf) :
    DescsAt s r buf (i + 1) (rdma_turn net s buf f).1 := by
  have hok : f.dma_ok net s buf = true := by
    by_contra hno
    exact hgo (.inr (by simpa using hno))
  rw [rdma_turn_goes hgo]
  simp only [Fill.descs_after, if_pos hok]
  constructor
  · intro j hj
    by_cases hji : j = i
    · subst hji
      rw [← hat.write_index]
      simp only [update_self]
      apply hat.status hi
      rw [hat.write_index]
      exact h.others _ hnew
    · have hne : rx_index s r j ≠ f.write_index := by
        rw [hat.write_index]
        exact (hnew j (by omega)).symm
      simp only [update_of_ne _ _ hne]
      exact h.written j (by omega)
  · intro x hx
    have hne : x ≠ f.write_index := by
      rw [hat.write_index]
      exact hx i (by omega)
    simp only [update_of_ne _ _ hne]
    exact h.others x (fun j hj => hx j (by omega))

end

/-! ## The frame, as the driver finds it -/

/-- A frame for a ring with descriptors enough, whose writes succeed. -/
structure EnoughRoom (net : Net) (s : State) (buf : List UInt8) : Prop where
  filling : Filling s buf
  nonempty : 0 < buf.length
  low_half : (s.rdma.rings (default_rx_ring s)).ring_buf_size % 2 ^ 16 ≠ 0
  pieces : rx_pieces s (default_rx_ring s) buf ≤ rdma_free_descs s (default_rx_ring s)
  writes : OwnWrites net s buf

/-- The descriptors that PROD_INDEX went over. -/
def taken (s s' : State) (r : Nat) : Nat :=
  (ex PROD_INDEX (s'.rdma.rings r).prod_index + 2 ^ 16 -
    ex PROD_INDEX (s.rdma.rings r).prod_index) % 2 ^ 16

/-- The frame's bytes among those of a buffer, by the configuration. -/
def payload (s : State) (bytes : List UInt8) : List UInt8 :=
  (bytes.drop (hdr_size s.rbuf_ctrl)).take
    (bytes.length - hdr_size s.rbuf_ctrl - crc_size s.umac_cmd)

/-- SOP on the first descriptor only, EOP on the last only, every BUFLENGTH
    within what was written and within the buffer, and the payloads of the
    buffers, as they are in the guest's memory after the frame, are the frame. -/
def Described (net : Net) (s : State) (buf : List UInt8) : Prop :=
  let r := default_rx_ring s
  ∃ ret s', receive net s buf = some (ret, s') ∧
    let n := taken s s' r
    let st := fun i => (s'.rdma.descs (rx_index s r i)).length_status
    let bytes := fun i =>
      s'.mem.read (s'.rdma.descs (rx_index s r i)).address (ex BUFLENGTH (st i))
    (∀ i < n, ex SOP (st i) = (if i = 0 then 1 else 0) ∧
      ex EOP (st i) = (if i + 1 = n then 1 else 0) ∧
      ex BUFLENGTH (st i) ≤ ((rx_writes net s buf).getD i (0, [])).2.length ∧
      ex BUFLENGTH (st i) ≤ (s.rdma.rings r).ring_buf_size % 2 ^ 16) ∧
    (List.range n).flatMap (fun i => payload s (bytes i)) = buf

/-- No piece is written over the payload of one before it. -/
def OwnBuffers (s : State) (buf : List UInt8) : Prop :=
  let r := default_rx_ring s
  ∀ i j, i < j → j < rx_pieces s r buf →
    let first := (s.rdma.descs (rx_index s r i)).address + hdr_size s.rbuf_ctrl
    first + rx_len s r buf i ≤ (s.rdma.descs (rx_index s r j)).address ∨
      (s.rdma.descs (rx_index s r j)).address + rx_dma_len s r buf j ≤ first

/-- No descriptor after the first has SOP from before. -/
def NoOldSop (s : State) (buf : List UInt8) : Prop :=
  let r := default_rx_ring s
  ∀ i, 0 < i → i < rx_pieces s r buf →
    ex SOP (s.rdma.descs (rx_index s r i)).length_status = 0

/-- Pieces of one length, one after the other. -/
theorem take_eq_flatMap {α : Type} (l : List α) (size n : Nat) :
    l.take (n * size) = (List.range n).flatMap (fun i => (l.drop (i * size)).take size) := by
  induction n with
  | zero => simp
  | succ n ih =>
    rw [Nat.succ_mul, List.take_add, ih, List.range_succ, List.flatMap_append]
    simp

theorem length_flatMap_le {α : Type} {g : Nat → List α} {size n : Nat}
    (h : ∀ i < n, (g i).length ≤ size) : ((List.range n).flatMap g).length ≤ n * size := by
  induction n with
  | zero => simp
  | succ n ih =>
    rw [List.range_succ, List.flatMap_append, List.length_append, Nat.succ_mul]
    have hlast := h n (Nat.lt_succ_self n)
    have hbefore := ih (fun i hi => h i (by omega))
    simp only [List.flatMap_cons, List.flatMap_nil, List.append_nil]
    omega

section

variable {net : Net} {s : State} {buf : List UInt8} {k : Nat}

theorem EnoughRoom.size (h : EnoughRoom net s buf) :
    0 < (s.rdma.rings (default_rx_ring s)).ring_buf_size := by
  have := h.low_half
  by_contra hno
  rw [show (s.rdma.rings (default_rx_ring s)).ring_buf_size = 0 by omega] at this
  exact this rfl

theorem EnoughRoom.distinct (h : EnoughRoom net s buf) {i j : Nat} (hij : i < j)
    (hj : j < rx_pieces s (default_rx_ring s) buf) :
    rx_index s (default_rx_ring s) i ≠ rx_index s (default_rx_ring s) j := by
  obtain ⟨hord, hle⟩ := free_descs_le h.filling.free
  have hp := h.pieces
  exact rx_index_inj hij (by omega) hord

/-- The device after a frame whose first `k` turns go on, and which ends or
    breaks there. -/
theorem receive_taken (h : EnoughRoom net s buf) (hk : k ≤ rx_pieces s (default_rx_ring s) buf)
    (hgo : ∀ i < k, ¬ RxFails net s (default_rx_ring s) buf i)
    (hstop : k = rx_pieces s (default_rx_ring s) buf ∨ RxFails net s (default_rx_ring s) buf k) :
    ∃ ret s', receive net s buf = some (ret, s') ∧ taken s s' (default_rx_ring s) = k ∧
      (∀ j, (s'.rdma.descs j).address = (s.rdma.descs j).address) ∧
      ∀ i < k, StatusAt s (default_rx_ring s) buf i
        (s'.rdma.descs (rx_index s (default_rx_ring s) i)).length_status := by
  have hdist := fun i j => @EnoughRoom.distinct net s buf h i j
  have hsize := h.size
  have hmax := h.filling.max
  rw [receive_filling h.filling]
  generalize default_rx_ring s = r at *
  have hlt := @lt_rx_pieces s r buf (.inl hsize)
  have hle := @rx_pieces_le s r buf (.inl hsize)
  have hturns : ∀ i < k, i * (s.rdma.rings r).ring_buf_size < buf.length ∧
      ¬ RxFails net s r buf i := fun i hi => ⟨(hlt i).mp (by omega), hgo i hi⟩
  obtain ⟨f, hat, ⟨hring, hdescs⟩, hloop⟩ := rdma_loop_reaches
    (P := fun i f => RingAt s r i f ∧ DescsAt s r buf i f)
    ⟨ring_start s r, descs_start s r buf⟩
    (fun i f hf hP hi hok => ⟨hP.1.turn hok, hP.2.turn hf hi
      (fun j hj => (hdist j i hj ((hlt i).mpr hi)).symm) hok⟩) hturns
    (buf.length + (s.rdma.rings r).index_bound + 1 - k + 1)
  rw [show buf.length + (s.rdma.rings r).index_bound + 1 - k + 1 + k =
    buf.length + (s.rdma.rings r).index_bound + 2 by omega] at hloop
  -- PROD_INDEX is below 2 ^ 16, and so is the number of turns
  have htaken : ∀ s', (s'.rdma.rings r).prod_index = f.ring.prod_index → taken s s' r = k := by
    intro s' hs'
    have hprod : ex PROD_INDEX (s.rdma.rings r).prod_index < 2 ^ 16 := ex_lt _
    rw [taken, hs', hring.prod_index]
    rw [MAX_PACKET_SIZE] at hmax
    omega
  by_cases hend : k = rx_pieces s r buf
  · -- nothing is left
    have hdone : ¬ f.len < buf.length := by
      have hk' := hlt k
      have := hat.len
      omega
    rw [hloop, rdma_loop, if_neg hdone, Option.map_some]
    obtain ⟨hrdma, -⟩ := rdma_done_fields s r f
    refine ⟨_, _, rfl, htaken _ ?_, ?_, ?_⟩
    · rw [hrdma]
      simp only [update_self]
    · intro j
      rw [hrdma]
      exact hat.address j
    · intro i hi
      rw [hrdma]
      exact hdescs.written i hi
  · -- the turn breaks, and changes its own descriptor only
    have hk' := (hlt k).mp (by omega)
    have hbreak : f.fails net s buf := (hat.fails_iff hk').mpr (hstop.resolve_left hend)
    have hmore : f.len < buf.length := by
      rw [hat.len]
      omega
    rw [hloop, rdma_loop, if_pos hmore]
    simp only [rdma_turn_fails hbreak, Bool.false_eq_true, if_false, Option.map_some]
    refine ⟨_, _, rfl, htaken _ ?_, ?_, ?_⟩
    · rw [(rdma_done_fields s r _).1]
      simp only [update_self]
    · intro j
      rw [(rdma_done_fields s r _).1, ← hat.address]
      exact update_status_address _ _ _ j
    · intro i hi
      have hne : rx_index s r i ≠ f.write_index := by
        rw [hat.write_index]
        exact hdist i k hi (by omega)
      rw [(rdma_done_fields s r _).1]
      simp only [Fill.descs_after, update_of_ne _ _ hne]
      exact hdescs.written i hi

/-- The bytes that a turn writes. -/
theorem rx_writes_get (h : EnoughRoom net s buf)
    {i : Nat} (hi : i < rx_pieces s (default_rx_ring s) buf)
    (hgo : ∀ j < i, ¬ RxFails net s (default_rx_ring s) buf j) :
    ∃ f, FillAt s (default_rx_ring s) buf i f ∧
      (rx_writes net s buf)[i]? = some (f.dma net s buf) := by
  have hsize := h.size
  unfold rx_writes
  generalize default_rx_ring s = r at *
  have hbytes := (@lt_rx_pieces s r buf (.inl hsize) i).mp hi
  have hle := @rx_pieces_le s r buf (.inl hsize)
  have hget := @rdma_turns_get net s r buf _ 0 (fill_start_at s r buf) (by omega)
    (buf.length + (s.rdma.rings r).index_bound + 2) i (by omega)
  rw [Nat.zero_add] at hget
  obtain ⟨f, hf, hat⟩ := hget.1 ⟨hbytes, hgo⟩
  refine ⟨f, hat, ?_⟩
  simp only [List.getElem?_map, hf, Option.map_some]

/-- The writes are those of the pieces. -/
theorem rx_writes_piece (hsize : 0 < (s.rdma.rings (default_rx_ring s)).ring_buf_size) {j : Nat}
    {w : Nat × List UInt8} (hw : (rx_writes net s buf)[j]? = some w) :
    j < rx_pieces s (default_rx_ring s) buf ∧
      w.1 = (s.rdma.descs (rx_index s (default_rx_ring s) j)).address ∧
      w.2.length = rx_dma_len s (default_rx_ring s) buf j := by
  unfold rx_writes at hw
  dsimp only at hw
  generalize default_rx_ring s = r at *
  rw [List.getElem?_map] at hw
  obtain ⟨f, hf, rfl⟩ := Option.map_eq_some_iff.mp hw
  have hfuel : j < buf.length + (s.rdma.rings r).index_bound + 2 := by
    obtain ⟨hlt, -⟩ := List.getElem?_eq_some_iff.mp hf
    exact Nat.lt_of_lt_of_le hlt (rdma_turns_length net s buf _ _)
  have hget := @rdma_turns_get net s r buf _ 0 (fill_start_at s r buf) (by omega) _ j hfuel
  rw [Nat.zero_add] at hget
  by_cases hreached : RxReached net s r buf j
  · obtain ⟨f', hf', hat⟩ := hget.1 hreached
    rw [hf] at hf'
    obtain rfl := Option.some.inj hf'
    refine ⟨(lt_rx_pieces (.inl hsize) j).mpr hreached.1, ?_, ?_⟩
    · rw [Fill.dma, hat.address, hat.write_index]
    · rw [Fill.dma, Memory.read_length, hat.dma_len hreached.1]
  · rw [hget.2 hreached] at hf
    exact absurd hf (by simp)

/-- What a piece puts into the guest's memory behind the header is there after
    the frame. -/
theorem receive_piece (h : EnoughRoom net s buf) (hown : OwnBuffers s buf)
    {i : Nat} (hi : i < rx_pieces s (default_rx_ring s) buf)
    (hgo : ∀ j < i, ¬ RxFails net s (default_rx_ring s) buf j)
    (hfits : hdr_size s.rbuf_ctrl + rx_len s (default_rx_ring s) buf i ≤
      rx_dma_len s (default_rx_ring s) buf i)
    {ret : Int} {s' : State} (hrecv : receive net s buf = some (ret, s')) :
    s'.mem.read ((s.rdma.descs (rx_index s (default_rx_ring s) i)).address +
        hdr_size s.rbuf_ctrl) (rx_len s (default_rx_ring s) buf i) =
      rx_piece s (default_rx_ring s) buf i := by
  have hlt := @lt_rx_pieces s (default_rx_ring s) buf (.inl h.size)
  obtain ⟨f, hat, hwrite⟩ := rx_writes_get h hi hgo
  have hbytes := (hlt i).mp hi
  obtain ⟨-, haddr, hlen⟩ := rx_writes_piece h.size hwrite
  -- all writes succeed, so the memory is what they leave
  have hmem : s'.mem = (rx_writes net s buf).foldl (fun m w => m.write w.1 w.2) s.mem := by
    rw [receive_mem h.filling hrecv]
    apply List.foldl_ext
    intro m w hw
    obtain ⟨j, hj⟩ := List.mem_iff_getElem?.mp hw
    obtain ⟨hpiece, haddr', hlen'⟩ := rx_writes_piece h.size hj
    apply if_pos
    rw [haddr', hlen']
    exact h.writes j ((hlt j).mp hpiece)
  rw [hmem, ← haddr, Memory.read_foldl_write s.mem hwrite (by rwa [hlen])]
  · exact staged_piece hat hbytes hfits
  · intro j w' hij hw'
    obtain ⟨hj, haddr', hlen'⟩ := rx_writes_piece h.size hw'
    rw [haddr, haddr', hlen']
    exact hown i j hij hj

/-- The last turn of a frame, or the one that breaks. -/
theorem exists_last_turn (net : Net) (s : State) (buf : List UInt8) :
    ∃ k ≤ rx_pieces s (default_rx_ring s) buf,
      (∀ i < k, ¬ RxFails net s (default_rx_ring s) buf i) ∧
      (k = rx_pieces s (default_rx_ring s) buf ∨ RxFails net s (default_rx_ring s) buf k) := by
  generalize rx_pieces s (default_rx_ring s) buf = n
  induction n with
  | zero => exact ⟨0, Nat.le_refl 0, by omega, .inl rfl⟩
  | succ n ih =>
    obtain ⟨k, hk, hgo, hstop⟩ := ih
    by_cases hfails : RxFails net s (default_rx_ring s) buf k
    · exact ⟨k, by omega, hgo, .inr hfails⟩
    · obtain rfl := hstop.resolve_right hfails
      refine ⟨k + 1, Nat.le_refl _, ?_, .inl rfl⟩
      intro i hi
      by_cases hik : i = k
      · rwa [hik]
      · exact hgo i (by omega)

/-- The pieces are short enough for BUFLENGTH. -/
theorem buflength_eq (h : EnoughRoom net s buf) {i st : Nat}
    (hst : StatusAt s (default_rx_ring s) buf i st) :
    ex BUFLENGTH st =
      rx_len s (default_rx_ring s) buf i + hdr_size s.rbuf_ctrl + crc_size s.umac_cmd := by
  have hmax := h.filling.max
  rw [MAX_PACKET_SIZE] at hmax
  have hhdr : hdr_size s.rbuf_ctrl ≤ 66 := by
    unfold hdr_size XMIT_STATUS_SIZE
    split_ifs <;> omega
  have hcrc : crc_size s.umac_cmd ≤ 4 := by
    unfold crc_size
    split_ifs <;> omega
  have hlen : rx_len s (default_rx_ring s) buf i ≤ buf.length := by
    unfold rx_len
    omega
  rw [hst.buflength]
  exact Nat.mod_eq_of_lt (by omega)

/-- SOP before the turns: set at the first place, elsewhere as it was. -/
theorem start_sop (h : EnoughRoom net s buf) {i : Nat}
    (hi : i < rx_pieces s (default_rx_ring s) buf) :
    ex SOP ((fill_start s (default_rx_ring s)).descs
        (rx_index s (default_rx_ring s) i)).length_status =
      if i = 0 then 1
      else ex SOP (s.rdma.descs (rx_index s (default_rx_ring s) i)).length_status := by
  by_cases hzero : i = 0
  · subst hzero
    rw [if_pos rfl, rx_index_zero]
    simp only [fill_start, update_self, ex_dp]
    rfl
  · have hne : rx_index s (default_rx_ring s) i ≠
        (s.rdma.rings (default_rx_ring s)).write_index := by
      rw [← rx_index_zero]
      exact (h.distinct (by omega) hi).symm
    rw [if_neg hzero]
    simp only [fill_start, update_of_ne _ _ hne]

/-- The last piece is the one with the frame's end. -/
theorem last_piece_iff (h : EnoughRoom net s buf) {i : Nat}
    (hi : i < rx_pieces s (default_rx_ring s) buf) :
    buf.length ≤ i * (s.rdma.rings (default_rx_ring s)).ring_buf_size +
        rx_len s (default_rx_ring s) buf i ↔ i + 1 = rx_pieces s (default_rx_ring s) buf := by
  have hnext := @lt_rx_pieces s (default_rx_ring s) buf (.inl h.size) (i + 1)
  rw [Nat.add_mul, Nat.one_mul] at hnext
  unfold rx_len
  omega

/-- The first piece, with its header and CRC, fits the buffer. -/
def PieceFits (s : State) (buf : List UInt8) : Prop :=
  let size := (s.rdma.rings (default_rx_ring s)).ring_buf_size
  min buf.length size + hdr_size s.rbuf_ctrl + crc_size s.umac_cmd ≤ size % 2 ^ 16

theorem pieces_pos (h : EnoughRoom net s buf) : 0 < rx_pieces s (default_rx_ring s) buf := by
  rw [lt_rx_pieces (.inl h.size), Nat.zero_mul]
  exact h.nonempty

theorem described_clean (h : EnoughRoom net s buf) (hdes : Described net s buf) :
    PieceFits s buf ∧ NoOldError s buf ∧ NoOldSop s buf := by
  have hlt := @lt_rx_pieces s (default_rx_ring s) buf (.inl h.size)
  have hfirst : rx_len s (default_rx_ring s) buf 0 =
      min buf.length (s.rdma.rings (default_rx_ring s)).ring_buf_size := by
    rw [rx_len, Nat.zero_mul, Nat.sub_zero]
  have hpos := pieces_pos h
  obtain ⟨ret, s', hrecv, hdesc, hframe⟩ := hdes
  obtain ⟨k, hk, hgo, hstop⟩ := exists_last_turn net s buf
  obtain ⟨ret', s'', hrecv', htaken, -, hstatus⟩ := receive_taken h hk hgo hstop
  obtain ⟨-, rfl⟩ := Prod.mk.inj (Option.some.inj (hrecv.symm.trans hrecv'))
  rw [htaken] at hdesc hframe
  -- the payloads are no longer than the pieces, so all pieces are there
  have hall : k = rx_pieces s (default_rx_ring s) buf := by
    by_contra hne
    have hshort := (hlt k).mp (by omega)
    have hbound : buf.length ≤ k * (s.rdma.rings (default_rx_ring s)).ring_buf_size := by
      rw [← congrArg List.length hframe]
      apply length_flatMap_le
      intro i hi
      have hlen : rx_len s (default_rx_ring s) buf i ≤
          (s.rdma.rings (default_rx_ring s)).ring_buf_size := Nat.min_le_right _ _
      rw [payload, Memory.read_length, buflength_eq h (hstatus i hi), List.length_take]
      omega
    omega
  subst hall
  refine ⟨?_, ?_, ?_⟩
  · have hzero := (hdesc 0 hpos).2.2.2
    rwa [buflength_eq h (hstatus 0 hpos), hfirst] at hzero
  · intro i hi
    by_contra hno
    exact hgo i ((hlt i).mpr hi) (.inl hno)
  · intro i hi₀ hi
    have hsop := (hdesc i hi).1
    rwa [(hstatus i hi).sop, start_sop h hi, if_neg (by omega), if_neg (by omega)] at hsop

theorem clean_described (h : EnoughRoom net s buf) (hown : OwnBuffers s buf)
    (hfits : PieceFits s buf) (hclean : NoOldError s buf) (hnosop : NoOldSop s buf) :
    Described net s buf := by
  have hlt := @lt_rx_pieces s (default_rx_ring s) buf (.inl h.size)
  -- Neither reason to leave the loop arises, so every piece is taken.
  have hgo : ∀ i < rx_pieces s (default_rx_ring s) buf,
      ¬ RxFails net s (default_rx_ring s) buf i := by
    rintro i hi (herr | hdma)
    · exact herr (hclean i ((hlt i).mp hi))
    · rw [h.writes i ((hlt i).mp hi)] at hdma
      exact Bool.noConfusion hdma
  obtain ⟨ret, s', hrecv, htaken, haddr, hstatus⟩ := receive_taken h (Nat.le_refl _) hgo (.inl rfl)
  refine ⟨ret, s', hrecv, ?_⟩
  simp only [htaken]
  have hlen : ∀ i, rx_len s (default_rx_ring s) buf i ≤
      min buf.length (s.rdma.rings (default_rx_ring s)).ring_buf_size := by
    intro i
    unfold rx_len
    omega
  have hdma : ∀ i, rx_dma_len s (default_rx_ring s) buf i =
      rx_len s (default_rx_ring s) buf i + hdr_size s.rbuf_ctrl + crc_size s.umac_cmd := by
    intro i
    have := hlen i
    unfold PieceFits at hfits
    exact Nat.min_eq_left (by unfold rx_len at this; omega)
  constructor
  · intro i hi
    obtain ⟨f, -, hwrite⟩ := rx_writes_get h hi (fun j hj => hgo j (by omega))
    refine ⟨?_, ?_, ?_, ?_⟩
    · rw [(hstatus i hi).sop, start_sop h hi]
      by_cases hzero : i = 0
      · rw [if_pos hzero, if_pos hzero]
      · rw [if_neg hzero, if_neg hzero]
        exact hnosop i (by omega) hi
    · rw [(hstatus i hi).eop]
      exact if_congr (last_piece_iff h hi) rfl rfl
    · rw [buflength_eq h (hstatus i hi), List.getD_eq_getElem?_getD, hwrite, Option.getD_some,
        (rx_writes_piece h.size hwrite).2.2, hdma]
    · have := hlen i
      unfold PieceFits at hfits
      rw [buflength_eq h (hstatus i hi)]
      omega
  · have hpieces : ∀ i ∈ List.range (rx_pieces s (default_rx_ring s) buf),
        payload s (s'.mem.read (s'.rdma.descs (rx_index s (default_rx_ring s) i)).address
          (ex BUFLENGTH (s'.rdma.descs (rx_index s (default_rx_ring s) i)).length_status)) =
        rx_piece s (default_rx_ring s) buf i := by
      intro i hmem
      have hi := List.mem_range.mp hmem
      rw [payload, Memory.read_length, buflength_eq h (hstatus i hi), haddr,
        show rx_len s (default_rx_ring s) buf i + hdr_size s.rbuf_ctrl + crc_size s.umac_cmd -
          hdr_size s.rbuf_ctrl - crc_size s.umac_cmd = rx_len s (default_rx_ring s) buf i by omega,
        Memory.take_drop_read _ (by omega)]
      exact receive_piece h hown hi (fun j hj => hgo j (by omega)) (by rw [hdma]; omega) hrecv
    -- The pieces read back from memory, one after another, are the frame.
    have hend : buf.length ≤ rx_pieces s (default_rx_ring s) buf *
        (s.rdma.rings (default_rx_ring s)).ring_buf_size := by
      have := hlt (rx_pieces s (default_rx_ring s) buf)
      omega
    rw [List.flatMap_congr hpieces]
    exact (take_eq_flatMap buf _ _).symm.trans (List.take_of_length_le hend)

/-- For a frame that uses descriptors only, the descriptors describe what is
    in the guest's memory exactly when the first piece, with its header and
    CRC, fits the buffer, and no descriptor has an old error or, if it is not
    the first, an old SOP; as long as no piece goes over the payload of one
    before it, without which these are still needed. -/
theorem described_iff (h : EnoughRoom net s buf) :
    (InDescs net s buf → OwnBuffers s buf →
      (Described net s buf ↔ PieceFits s buf ∧ NoOldError s buf ∧ NoOldSop s buf)) ∧
    (InDescs net s buf →
      Described net s buf → PieceFits s buf ∧ NoOldError s buf ∧ NoOldSop s buf) := by
  constructor
  · intro _ hown
    constructor
    · exact described_clean h
    · rintro ⟨hfits, hclean, hnosop⟩
      exact clean_described h hown hfits hclean hnosop
  · intro _ hdes
    exact described_clean h hdes

end

/-- A frame that fits its buffer is described. -/
theorem fitting_frame_described :
    EnoughRoom plain_net two_descs [1, 2, 3] ∧ Described plain_net two_descs [1, 2, 3] := by
  have hroom : EnoughRoom plain_net two_descs [1, 2, 3] :=
    ⟨two_descs_filling, by decide, by decide, by decide +kernel, fun _ _ => rfl⟩
  have hone : rx_pieces two_descs (default_rx_ring two_descs) [1, 2, 3] = 1 := by decide +kernel
  refine ⟨hroom, ((described_iff hroom).1 ?_ ?_).mpr ⟨?_, ?_, ?_⟩⟩
  · intro _
    refine ⟨by decide, fun i hi => ?_⟩
    have hlt := (@lt_rx_pieces two_descs (default_rx_ring two_descs) [1, 2, 3]
      (.inl (by decide)) i).mpr hi.1
    obtain rfl : i = 0 := by omega
    decide
  · intro i j hij hj
    omega
  · unfold PieceFits
    decide
  · intro i _
    exact (by decide : ex RXERR 0 = 0)
  · intro i _ _
    exact (by decide : ex SOP 0 = 0)

/-- The receive ring with RING_BUF_SIZE 2, and SOP in the second descriptor
    from an earlier lap. -/
def lapped_ring : State :=
  { two_descs with
    rdma :=
      { two_descs.rdma with
        descs := fun j => ⟨if j = 1 then 0x2000 else 0, 4096 * (j + 1), 0⟩
        rings := fun _ => ⟨0, 0, 0xFFFF, 0xFFFF, 2, 0, 0, 5, 0⟩ } }

/-- The receive ring with RING_BUF_SIZE 64 and a status block before the
    frame. -/
def tight_ring : State :=
  { two_descs with
    rdma := { two_descs.rdma with rings := fun _ => ⟨0, 0, 0xFFFF, 0xFFFF, 64, 0, 0, 5, 0⟩ }
    rbuf_ctrl := 1 }

/-- A frame in two pieces has SOP in both descriptors; and a frame behind a
    status block gets a length that its buffer does not have. -/
theorem lapped_and_tight_not_described :
    (EnoughRoom plain_net lapped_ring [1, 2, 3] ∧ ¬ Described plain_net lapped_ring [1, 2, 3]) ∧
      EnoughRoom plain_net tight_ring [1, 2, 3] ∧ ¬ Described plain_net tight_ring [1, 2, 3] := by
  refine ⟨⟨⟨⟨by decide, by decide, by decide, by decide⟩, by decide, by decide,
    by decide +kernel, fun _ _ => rfl⟩, ?_⟩, ⟨⟨by decide, by decide, by decide, by decide⟩,
    by decide, by decide, by decide +kernel, fun _ _ => rfl⟩, ?_⟩
  · rintro ⟨ret, s', hrecv, hdesc, -⟩
    obtain rfl : ((receive plain_net lapped_ring [1, 2, 3]).getD (0, lapped_ring)).2 = s' := by
      rw [hrecv]
      rfl
    exact absurd (hdesc 1 (by decide +kernel)).1 (by decide +kernel)
  · rintro ⟨ret, s', hrecv, hdesc, -⟩
    obtain rfl : ((receive plain_net tight_ring [1, 2, 3]).getD (0, tight_ring)).2 = s' := by
      rw [hrecv]
      rfl
    exact absurd (hdesc 0 (by decide +kernel)).2.2.2 (by decide +kernel)

end Genet
