import RpiQemu.Genet.Fill
import RpiQemu.Genet.Transmit
import Mathlib.Algebra.BigOperators.Intervals

/-! # The transmit walk on any ring

    `Genet.Transmit` follows the walk on rings that a driver programs.  Here
    the registers and the descriptors hold whatever a guest wrote.

    * **Progress**: the walk takes one turn for each index up to PROD_INDEX, or
      stops at the first pointer outside the descriptors, and CONS_INDEX
      counts its turns (`tx_progress`).  On an aligned ring it goes round and
      round as the receive path's pointer does.
    * **Bounds**: the packet buffer is large enough exactly when no run of
      descriptors that the walk joins is longer (`tx_packet_bound`). -/

namespace Genet

open Register

/-! ## Pointers -/

/-- The pointer of the next turn. -/
def tx_next (start_addr end_addr ptr : Nat) : Nat :=
  if ptr + DESC_SIZE_WORDS = end_addr + 1 then start_addr else ptr + DESC_SIZE_WORDS

/-- The pointers of a ring's walk, from its registers. -/
def tx_ptr (s : State) (r i : Nat) : Nat :=
  (tx_next (wide (s.tdma.rings r).start_addr (s.tdma.rings r).start_addr_hi)
    (wide (s.tdma.rings r).end_addr (s.tdma.rings r).end_addr_hi))^[i]
    (wide (s.tdma.rings r).read_ptr (s.tdma.rings r).read_ptr_hi)

/-- The walk after so many turns. -/
def walk_at (net : Net) (s : State) (r i : Nat) : Walk := (turn net s r)^[i] (walk_start s r)

section

variable {net : Net} {s : State} {r : Nat}

theorem walk_at_succ (i : Nat) : walk_at net s r (i + 1) = turn net s r (walk_at net s r i) :=
  Function.iterate_succ_apply' _ _ _

theorem tx_ptr_succ (i : Nat) :
    tx_ptr s r (i + 1) =
      tx_next (wide (s.tdma.rings r).start_addr (s.tdma.rings r).start_addr_hi)
        (wide (s.tdma.rings r).end_addr (s.tdma.rings r).end_addr_hi) (tx_ptr s r i) :=
  Function.iterate_succ_apply' _ _ _

theorem walk_at_read_ptr (i : Nat) : (walk_at net s r i).read_ptr = tx_ptr s r i := by
  induction i with
  | zero => rfl
  | succ i ih =>
    rw [walk_at_succ, tx_ptr_succ, ← ih]
    rfl

end

/-! ## Progress -/

/-- The pointers at which the walk to a PROD_INDEX value takes a turn. -/
def tx_visits (net : Net) (s : State) (r value : Nat) : List Nat :=
  (tx_turns net s.mem s.tbuf_ctrl
    (wide (s.tdma.rings r).start_addr (s.tdma.rings r).start_addr_hi)
    (wide (s.tdma.rings r).end_addr (s.tdma.rings r).end_addr_hi) (ex PROD_INDEX value) (2 ^ 16)
    (walk_start s r)).map Walk.read_ptr

/-- The walk turns once for each index up to the new one, or up to the first
    pointer outside the descriptors. -/
theorem tx_eq_walk (net : Net) (s : State) (r value : Nat) :
    ∃ k ≤ tx_steps (ex CONS_INDEX (s.tdma.rings r).cons_index) value,
      tx net s r value (s.tdma.rings r).cons_index = walk_at net s r k ∧
      tx_turns net s.mem s.tbuf_ctrl
        (wide (s.tdma.rings r).start_addr (s.tdma.rings r).start_addr_hi)
        (wide (s.tdma.rings r).end_addr (s.tdma.rings r).end_addr_hi) (ex PROD_INDEX value)
        (2 ^ 16) (walk_start s r) = (List.range k).map (walk_at net s r) ∧
      (∀ i < k, tx_ptr s r i / DESC_SIZE_WORDS < DMA_DESC_CNT) ∧
      (k = tx_steps (ex CONS_INDEX (s.tdma.rings r).cons_index) value ∨
        DMA_DESC_CNT ≤ tx_ptr s r k / DESC_SIZE_WORDS) := by
  have hc : ex CONS_INDEX (s.tdma.rings r).cons_index < 2 ^ 16 := ex_lt _
  have hp : ex PROD_INDEX value < 2 ^ 16 := ex_lt _
  generalize hn : tx_steps (ex CONS_INDEX (s.tdma.rings r).cons_index) value = n
  have hsteps := hn
  unfold tx_steps at hsteps
  obtain ⟨k, hk, hloop, hturns, hbefore, hend⟩ :=
    @tx_loop_walk net s r (walk_start s r) _ n hp hc hsteps (2 ^ 16) (by omega)
  refine ⟨k, hk, hloop, hturns, ?_, ?_⟩
  · intro i hi
    rw [← @walk_at_read_ptr net]
    exact hbefore i hi
  · rw [← @walk_at_read_ptr net]
    exact hend

/-- Where a turn copies its piece. -/
def Walk.copy_off (w : Walk) : Nat :=
  if ex SOP (w.descs w.index).length_status ≠ 0 then 0 else w.packet_off

/-- The length of the piece. -/
def Walk.copy_len (w : Walk) : Nat := ex BUFLENGTH (w.descs w.index).length_status

/-- The status of the `i`-th descriptor of a ring's walk, from its registers. -/
def tx_status (s : State) (r i : Nat) : Nat :=
  (s.tdma.descs (tx_ptr s r i / DESC_SIZE_WORDS)).length_status

/-- The walk to a PROD_INDEX value takes its `i`-th turn. -/
def TxReached (s : State) (r value i : Nat) : Prop :=
  i < tx_steps (ex CONS_INDEX (s.tdma.rings r).cons_index) value ∧
    ∀ j ≤ i, tx_ptr s r j / DESC_SIZE_WORDS < DMA_DESC_CNT

/-- The walk puts the descriptors `a` to `b` together: no SOP after the first
    and no EOP before the last. -/
def TxJoined (s : State) (r a b : Nat) : Prop :=
  a ≤ b ∧ (∀ i, a < i → i ≤ b → ex SOP (tx_status s r i) = 0) ∧
    ∀ i, a ≤ i → i < b → ex EOP (tx_status s r i) = 0

/-- The bytes of the descriptors `a` to `b`. -/
def tx_bytes (s : State) (r a b : Nat) : Nat :=
  ∑ i ∈ Finset.Ico a (b + 1), ex BUFLENGTH (tx_status s r i)

section

variable {net : Net} {s : State} {r : Nat}

/-- The walk changes OWN only. -/
theorem walk_at_field {g : Field} (hg : Disjoint OWN g) (i j : Nat) :
    ex g ((walk_at net s r i).descs j).length_status = ex g (s.tdma.descs j).length_status := by
  induction i with
  | zero => rfl
  | succ i ih =>
    rw [walk_at_succ, ← ih]
    generalize walk_at net s r i = w
    simp only [turn, tx_desc]
    by_cases hj : j = w.read_ptr / DESC_SIZE_WORDS
    · rw [hj, update_self, ex_dp_of_disjoint hg]
    · rw [update_of_ne _ _ hj]

theorem walk_at_status {g : Field} (hg : Disjoint OWN g) (i : Nat) :
    ex g ((walk_at net s r i).descs (walk_at net s r i).index).length_status =
      ex g (tx_status s r i) := by
  rw [walk_at_field hg, Walk.index, walk_at_read_ptr, tx_status]

theorem walk_at_copy_len (i : Nat) :
    (walk_at net s r i).copy_len = ex BUFLENGTH (tx_status s r i) :=
  walk_at_status (by decide) i

theorem walk_at_copy_off (i : Nat) :
    (walk_at net s r i).copy_off =
      if ex SOP (tx_status s r i) ≠ 0 then 0 else (walk_at net s r i).packet_off := by
  rw [Walk.copy_off, walk_at_status (by decide)]

/-- The offset behind a turn: after EOP the next piece starts at 0. -/
theorem walk_at_packet_off (i : Nat) :
    (walk_at net s r (i + 1)).packet_off =
      if ex EOP (tx_status s r i) ≠ 0 then 0
      else (walk_at net s r i).copy_off + (walk_at net s r i).copy_len := by
  rw [walk_at_succ, ← @walk_at_status net s r EOP (by decide)]
  generalize walk_at net s r i = w
  by_cases heop : ex EOP (w.descs w.index).length_status ≠ 0
  · have heop' : ex EOP (w.descs (w.read_ptr / DESC_SIZE_WORDS)).length_status ≠ 0 := heop
    rw [if_pos heop]
    simp only [turn, tx_desc, if_pos heop']
  · have heop' : ¬ ex EOP (w.descs (w.read_ptr / DESC_SIZE_WORDS)).length_status ≠ 0 := heop
    rw [if_neg heop]
    simp only [turn, tx_desc, if_neg heop']
    rfl

theorem tx_bytes_self (b : Nat) : tx_bytes s r b b = ex BUFLENGTH (tx_status s r b) := by
  rw [tx_bytes, Nat.Ico_succ_singleton, Finset.sum_singleton]

theorem tx_bytes_succ {a b : Nat} (h : a ≤ b) :
    tx_bytes s r a (b + 1) = tx_bytes s r a b + ex BUFLENGTH (tx_status s r (b + 1)) :=
  Finset.sum_Ico_succ_top (by omega) _

/-- Joined descriptors end no further than the last one's piece. -/
theorem tx_bytes_le_copy {a b : Nat} (h : TxJoined s r a b) :
    tx_bytes s r a b ≤ (walk_at net s r b).copy_off + (walk_at net s r b).copy_len := by
  induction b with
  | zero =>
    obtain rfl : a = 0 := by
      have := h.1
      omega
    rw [tx_bytes_self, walk_at_copy_len]
    omega
  | succ b ih =>
    obtain ⟨hab, hsop, heop⟩ := h
    by_cases hlast : a = b + 1
    · rw [hlast, tx_bytes_self, walk_at_copy_len]
      omega
    · have hprev := ih ⟨by omega, fun i h₁ h₂ => hsop i h₁ (by omega),
        fun i h₁ h₂ => heop i h₁ (by omega)⟩
      rw [tx_bytes_succ (by omega), walk_at_copy_off, walk_at_copy_len, walk_at_packet_off,
        hsop (b + 1) (by omega) (Nat.le_refl _), heop b (by omega) (by omega)]
      simp only [ne_eq, not_true_eq_false, if_false]
      omega

/-- A piece ends where some descriptors joined with it do. -/
theorem exists_joined_copy (b : Nat) :
    ∃ a, TxJoined s r a b ∧
      (walk_at net s r b).copy_off + (walk_at net s r b).copy_len = tx_bytes s r a b := by
  have hself : ∀ b, TxJoined s r b b := fun b =>
    ⟨Nat.le_refl b, by omega, by omega⟩
  have hstart : ∀ b, (walk_at net s r b).copy_off = 0 →
      (walk_at net s r b).copy_off + (walk_at net s r b).copy_len = tx_bytes s r b b := by
    intro b h
    rw [h, tx_bytes_self, walk_at_copy_len, Nat.zero_add]
  induction b with
  | zero =>
    refine ⟨0, hself 0, hstart 0 ?_⟩
    rw [walk_at_copy_off]
    split <;> rfl
  | succ b ih =>
    by_cases hsop : ex SOP (tx_status s r (b + 1)) = 0
    · by_cases heop : ex EOP (tx_status s r b) = 0
      · -- the piece follows the one before it
        obtain ⟨a, ⟨hab, hsops, heops⟩, hcopy⟩ := ih
        refine ⟨a, ⟨by omega, ?_, ?_⟩, ?_⟩
        · intro i hlo hhi
          by_cases hi : i = b + 1
          · rwa [hi]
          · exact hsops i hlo (by omega)
        · intro i hlo hhi
          by_cases hi : i = b
          · rwa [hi]
          · exact heops i hlo (by omega)
        · rw [tx_bytes_succ hab, ← hcopy, walk_at_copy_off, walk_at_packet_off, hsop, heop,
            @walk_at_copy_len net s r (b + 1)]
          simp only [ne_eq, not_true_eq_false, if_false]
      · refine ⟨b + 1, hself _, hstart _ ?_⟩
        rw [walk_at_copy_off, walk_at_packet_off, if_pos heop]
        split <;> rfl
    · refine ⟨b + 1, hself _, hstart _ ?_⟩
      rw [walk_at_copy_off, if_pos hsop]

end

/-- Every turn of the walk stays inside the packet buffer and the descriptors
    exactly when no descriptors that it joins have more than MAX_FRAME_SIZE
    bytes together. -/
theorem tx_packet_bound (net : Net) (s : State) (r value : Nat) :
    (∀ w ∈ tx_turns net s.mem s.tbuf_ctrl
        (wide (s.tdma.rings r).start_addr (s.tdma.rings r).start_addr_hi)
        (wide (s.tdma.rings r).end_addr (s.tdma.rings r).end_addr_hi) (ex PROD_INDEX value)
        (2 ^ 16) (walk_start s r),
      w.copy_off + w.copy_len ≤ MAX_FRAME_SIZE ∧ w.index < DMA_DESC_CNT) ↔
    ∀ a b, TxReached s r value b → TxJoined s r a b → tx_bytes s r a b ≤ MAX_FRAME_SIZE := by
  obtain ⟨k, hk, -, hturns, hbefore, hend⟩ := tx_eq_walk net s r value
  have hreached : ∀ i, i < k ↔ TxReached s r value i := by
    intro i
    constructor
    · exact fun hi => ⟨by omega, fun j hj => hbefore j (by omega)⟩
    · rintro ⟨hi, hvalid⟩
      by_contra hge
      rcases hend with hend | hend
      · omega
      · have := hvalid k (by omega)
        omega
  rw [hturns]
  simp only [List.mem_map, List.mem_range, forall_exists_index, and_imp,
    forall_apply_eq_imp_iff₂]
  constructor
  · intro h a b hb hjoined
    exact le_trans (tx_bytes_le_copy hjoined) (h b ((hreached b).mpr hb)).1
  · intro h i hi
    obtain ⟨a, hjoined, hcopy⟩ := @exists_joined_copy net s r i
    refine ⟨?_, ?_⟩
    · rw [hcopy]
      exact h a i ((hreached i).mp hi) hjoined
    · rw [Walk.index, walk_at_read_ptr]
      exact hbefore i hi

/-- Descriptors of 4095 bytes each, with neither SOP nor EOP. -/
def endless_descs : State :=
  { three_descs with
    tdma := { three_descs.tdma with descs := fun _ => ⟨0xFFF * 2 ^ 16, 0, 0⟩ } }

/-- The second of two such descriptors is copied behind the packet buffer. -/
theorem endless_descs_overrun :
    ¬ ∀ w ∈ tx_turns plain_net endless_descs.mem endless_descs.tbuf_ctrl
        (wide (endless_descs.tdma.rings 0).start_addr (endless_descs.tdma.rings 0).start_addr_hi)
        (wide (endless_descs.tdma.rings 0).end_addr (endless_descs.tdma.rings 0).end_addr_hi)
        (ex PROD_INDEX 2) (2 ^ 16) (walk_start endless_descs 0),
      w.copy_off + w.copy_len ≤ MAX_FRAME_SIZE ∧ w.index < DMA_DESC_CNT := by
  intro h
  have hends : (tx_turns plain_net endless_descs.mem endless_descs.tbuf_ctrl
      (wide (endless_descs.tdma.rings 0).start_addr (endless_descs.tdma.rings 0).start_addr_hi)
      (wide (endless_descs.tdma.rings 0).end_addr (endless_descs.tdma.rings 0).end_addr_hi)
      (ex PROD_INDEX 2) (2 ^ 16) (walk_start endless_descs 0)).map
        (fun w => w.copy_off + w.copy_len) = [4095, 8190] := by
    decide +kernel
  obtain ⟨w, hw, hend⟩ := List.mem_map.mp (hends ▸ (by decide : 8190 ∈ [4095, 8190]))
  have hbound := (h w hw).1
  rw [hend] at hbound
  exact absurd hbound (by decide)

end Genet
