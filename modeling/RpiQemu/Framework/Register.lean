import Mathlib.Data.Nat.Bitwise

/-! # Fields of registers

    A register is a number; a field is a run of its bits.  `ex` reads a field
    and `dp` stores one, cutting the value to the field's width.

    * **Bits**: what `ex` and `dp` do to each bit (`testBit_ex`, `testBit_dp`).
    * **Fields**: a stored field reads back (`ex_dp`), and fields that do not
      overlap do not see each other (`ex_dp_of_disjoint`).
    * **Flags**: `raise` and `clear` set and clear a field's bits, `on` tests
      them; a flag reads back and leaves the others (`on_raise`, `on_clear`). -/

namespace Register

/-- A run of bits. -/
structure Field where
  shift : Nat
  length : Nat
  deriving DecidableEq, Repr

/-- The value of a field. -/
def ex (f : Field) (v : Nat) : Nat := v / 2 ^ f.shift % 2 ^ f.length

/-- The register with a field stored. -/
def dp (f : Field) (v x : Nat) : Nat :=
  2 ^ f.shift * (2 ^ f.length * (v / 2 ^ (f.shift + f.length)) + x % 2 ^ f.length) +
    v % 2 ^ f.shift

/-- Fields without a common bit. -/
def Disjoint (f g : Field) : Prop :=
  f.shift + f.length ≤ g.shift ∨ g.shift + g.length ≤ f.shift

instance (f g : Field) : Decidable (Disjoint f g) :=
  inferInstanceAs (Decidable (_ ∨ _))

variable {f g : Field}

theorem testBit_ex (v i : Nat) :
    (ex f v).testBit i = (decide (i < f.length) && v.testBit (f.shift + i)) := by
  rw [ex, Nat.testBit_mod_two_pow, Nat.testBit_div_two_pow, Nat.add_comm]

theorem testBit_dp (v x i : Nat) :
    (dp f v x).testBit i =
      if f.shift ≤ i ∧ i < f.shift + f.length then x.testBit (i - f.shift) else v.testBit i := by
  have hlow : v % 2 ^ f.shift < 2 ^ f.shift := Nat.mod_lt _ (Nat.two_pow_pos _)
  have hmid : x % 2 ^ f.length < 2 ^ f.length := Nat.mod_lt _ (Nat.two_pow_pos _)
  rw [dp, Nat.testBit_two_pow_mul_add _ hlow]
  by_cases hl : i < f.shift
  · rw [if_pos hl, if_neg (by omega), Nat.testBit_mod_two_pow]
    simp [hl]
  · rw [if_neg hl, Nat.testBit_two_pow_mul_add _ hmid]
    by_cases hm : i - f.shift < f.length
    · rw [if_pos hm, if_pos (by omega), Nat.testBit_mod_two_pow]
      simp [hm]
    · rw [if_neg hm, if_neg (by omega), Nat.testBit_div_two_pow]
      congr 1
      omega

theorem ex_lt (v : Nat) : ex f v < 2 ^ f.length := Nat.mod_lt _ (Nat.two_pow_pos _)

/-- A stored field reads back, cut to its width. -/
theorem ex_dp (v x : Nat) : ex f (dp f v x) = x % 2 ^ f.length := by
  apply Nat.eq_of_testBit_eq
  intro i
  rw [testBit_ex, testBit_dp, Nat.testBit_mod_two_pow]
  by_cases hi : i < f.length
  · rw [if_pos (by omega), Nat.add_sub_cancel_left]
  · simp [hi]

/-- A field inside a stored one reads as that part of the value. -/
theorem ex_dp_of_inside (hlo : f.shift ≤ g.shift)
    (hhi : g.shift + g.length ≤ f.shift + f.length) (v x : Nat) :
    ex g (dp f v x) = ex ⟨g.shift - f.shift, g.length⟩ x := by
  apply Nat.eq_of_testBit_eq
  intro i
  rw [testBit_ex, testBit_ex, testBit_dp]
  by_cases hi : i < g.length
  · rw [if_pos (by omega), show g.shift + i - f.shift = g.shift - f.shift + i by omega]
  · simp [hi]

/-- Bits above a field do not count for it. -/
theorem ex_mod_two_pow {n : Nat} (h : f.shift + f.length ≤ n) (v : Nat) :
    ex f (v % 2 ^ n) = ex f v := by
  apply Nat.eq_of_testBit_eq
  intro i
  rw [testBit_ex, testBit_ex, Nat.testBit_mod_two_pow]
  by_cases hi : i < f.length
  · rw [decide_eq_true (show f.shift + i < n by omega), Bool.true_and]
  · simp [hi]

/-- Storing a field leaves those that do not overlap with it. -/
theorem ex_dp_of_disjoint (h : Disjoint f g) (v x : Nat) : ex g (dp f v x) = ex g v := by
  apply Nat.eq_of_testBit_eq
  intro i
  rw [testBit_ex, testBit_ex, testBit_dp]
  by_cases hi : i < g.length
  · rw [if_neg]
    unfold Disjoint at h
    omega
  · simp [hi]

/-! ## Flags -/

/-- Some bit of the field is set. -/
def on (f : Field) (v : Nat) : Bool := decide (ex f v ≠ 0)

/-- The register with every bit of the field set: `v |= mask`. -/
def raise (f : Field) (v : Nat) : Nat := dp f v (2 ^ f.length - 1)

/-- The register with the field cleared: `v &= ~mask`. -/
def clear (f : Field) (v : Nat) : Nat := dp f v 0

theorem on_raise (h : 0 < f.length) (v : Nat) : on f (raise f v) = true := by
  have hpow : 2 ^ 1 ≤ 2 ^ f.length := Nat.pow_le_pow_right (by decide) h
  unfold on raise
  rw [ex_dp, Nat.mod_eq_of_lt (by omega)]
  simp only [ne_eq, decide_eq_true_eq]
  omega

@[simp] theorem on_clear (v : Nat) : on f (clear f v) = false := by
  simp [on, clear, ex_dp]

theorem on_dp (h : Disjoint f g) (v x : Nat) : on g (dp f v x) = on g v := by
  rw [on, on, ex_dp_of_disjoint h]

theorem on_raise_of_disjoint (h : Disjoint f g) (v : Nat) : on g (raise f v) = on g v :=
  on_dp h v _

theorem on_clear_of_disjoint (h : Disjoint f g) (v : Nat) : on g (clear f v) = on g v :=
  on_dp h v _

/-! ## Single bits -/

/-- A flag is on when one of its bits is. -/
theorem on_iff_testBit (f : Field) (v : Nat) :
    on f v = true ↔ ∃ i, f.shift ≤ i ∧ i < f.shift + f.length ∧ v.testBit i = true := by
  rw [on, decide_eq_true_eq]
  constructor
  · intro h
    obtain ⟨i, hi⟩ := Nat.exists_testBit_of_ne_zero h
    rw [testBit_ex, Bool.and_eq_true, decide_eq_true_eq] at hi
    exact ⟨f.shift + i, by omega, by omega, hi.2⟩
  · rintro ⟨i, hlo, hhi, hbit⟩ hzero
    have htest : (ex f v).testBit (i - f.shift) = true := by
      rw [testBit_ex, Nat.add_sub_cancel' hlo, hbit]
      simp only [Bool.and_true, decide_eq_true_eq]
      omega
    rw [hzero, Nat.zero_testBit] at htest
    cases htest

theorem on_bit (k v : Nat) : on ⟨k, 1⟩ v = v.testBit k := by
  rw [Bool.eq_iff_iff, on_iff_testBit]
  constructor
  · rintro ⟨i, hlo, hhi, hbit⟩
    have hik : i = k := by
      have hlo' : k ≤ i := hlo
      have hhi' : i < k + 1 := hhi
      omega
    rwa [← hik]
  · intro h
    exact ⟨k, Nat.le_refl k, Nat.lt_succ_self k, h⟩

theorem testBit_raise_bit (k v i : Nat) :
    (raise ⟨k, 1⟩ v).testBit i = (v.testBit i || decide (i = k)) := by
  rw [raise, testBit_dp]
  by_cases hi : i = k
  · rw [if_pos (by subst hi; exact ⟨Nat.le_refl i, Nat.lt_succ_self i⟩), hi]
    simp
  · rw [if_neg (by
      rintro ⟨hlo, hhi⟩
      have hlo' : k ≤ i := hlo
      have hhi' : i < k + 1 := hhi
      omega)]
    simp [hi]

end Register
