import Mathlib.Data.Nat.ModEq
import Mathlib.Tactic.Common

/-! # One's-complement sums of byte strings

    A byte string is summed as a sequence of 16-bit words, a last odd byte
    padded with zero, and the carries are folded back in.  Folding keeps the
    sum modulo `2 ^ 16 - 1`, where a word and the word with its bytes swapped
    differ by the factor `2 ^ 8`: so the sum in one byte order determines the
    sum in the other.

    * **Folding**: two folds bring a 32-bit sum below `2 ^ 16`
      (`fold_fold_lt`), and neither changes what it is modulo `2 ^ 16 - 1`
      (`fold_modEq`) nor makes it zero (`fold_eq_zero`).
    * **Byte order**: `be_sum_modEq`, and `swap_modEq` for a single word.
    * **Zero**: a sum is zero for zero bytes only (`be_sum_eq_zero`). -/

namespace OnesComplement

/-! ## Sums -/

/-- The sum of the big-endian words of a byte string. -/
def be_sum : List UInt8 → Nat
  | [] => 0
  | [a] => a.toNat * 256
  | a :: b :: l => a.toNat * 256 + b.toNat + be_sum l

/-- The sum of the little-endian words of a byte string. -/
def le_sum : List UInt8 → Nat
  | [] => 0
  | [a] => a.toNat
  | a :: b :: l => a.toNat + b.toNat * 256 + le_sum l

/-- The carries added back in once. -/
def fold (x : Nat) : Nat := x % 2 ^ 16 + x / 2 ^ 16

/-- A word with its two bytes swapped. -/
def swap (x : Nat) : Nat := x % 256 * 256 + x / 256 % 256

/-- A sum grows by one word at most for every two bytes. -/
theorem be_sum_le (l : List UInt8) : be_sum l ≤ (2 ^ 16 - 1) * ((l.length + 1) / 2) := by
  induction l using be_sum.induct with
  | case1 => exact Nat.zero_le _
  | case2 a =>
    have ha := a.toNat_lt
    simp only [be_sum, List.length_singleton]
    omega
  | case3 a b l ih =>
    have ha := a.toNat_lt
    have hb := b.toNat_lt
    simp only [be_sum, List.length_cons]
    omega

theorem be_sum_eq_zero (l : List UInt8) : be_sum l = 0 ↔ ∀ x ∈ l, x = 0 := by
  have hzero : ∀ x : UInt8, x.toNat = 0 ↔ x = 0 := fun x => UInt8.toNat_inj (b := 0)
  induction l using be_sum.induct with
  | case1 => simp [be_sum]
  | case2 a => simp [be_sum, hzero]
  | case3 a b l ih => simp [be_sum, hzero, ih, and_assoc]

/-! ## Folding -/

theorem fold_modEq (x : Nat) : fold x ≡ x [MOD 2 ^ 16 - 1] := by
  unfold Nat.ModEq fold
  omega

theorem fold_eq_zero (x : Nat) : fold x = 0 ↔ x = 0 := by
  unfold fold
  omega

theorem fold_fold_lt {x : Nat} (h : x < 2 ^ 32) : fold (fold x) < 2 ^ 16 := by
  unfold fold
  omega

/-! ## Byte order -/

theorem swap_modEq {x : Nat} (h : x < 2 ^ 16) : swap x ≡ 256 * x [MOD 2 ^ 16 - 1] := by
  have hshift : 256 * x = swap x + (2 ^ 16 - 1) * (x / 256) := by
    unfold swap
    omega
  rw [Nat.ModEq, hshift, Nat.add_mul_mod_self_left]

/-- The words of the other byte order are the words of this one, times
    `2 ^ 8`. -/
theorem be_sum_modEq (l : List UInt8) : 256 * be_sum l ≡ le_sum l [MOD 2 ^ 16 - 1] := by
  unfold Nat.ModEq
  -- two bytes at a time, as the sums do
  induction l using be_sum.induct with
  | case1 => rfl
  | case2 a =>
    simp only [be_sum, le_sum]
    omega
  | case3 a b l ih =>
    simp only [be_sum, le_sum]
    omega

/-- A sum in one byte order, folded twice and swapped, is the sum in the other
    one. -/
theorem swap_fold_fold {l : List UInt8} (h : be_sum l < 2 ^ 32) :
    swap (fold (fold (be_sum l))) ≡ le_sum l [MOD 2 ^ 16 - 1] := by
  have hfolds : fold (fold (be_sum l)) ≡ be_sum l [MOD 2 ^ 16 - 1] :=
    (fold_modEq _).trans (fold_modEq _)
  calc swap (fold (fold (be_sum l)))
      ≡ 256 * fold (fold (be_sum l)) [MOD 2 ^ 16 - 1] := swap_modEq (fold_fold_lt h)
    _ ≡ 256 * be_sum l [MOD 2 ^ 16 - 1] := hfolds.mul_left 256
    _ ≡ le_sum l [MOD 2 ^ 16 - 1] := be_sum_modEq l

end OnesComplement
