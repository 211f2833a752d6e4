import Mathlib.Data.List.Basic
import Mathlib.Tactic.Common
import Mathlib.Algebra.Ring.Int.Defs
import Mathlib.Algebra.GroupWithZero.Nat

/-! # Byte strings and fixed-width fields

    Loads and stores of big- and little-endian fields in byte strings, as
    wire formats use them: a store yields the field's bytes, a load reads a
    field at an offset and is total (a byte past the end reads as 0).

    * **Round trip**: a load of a stored field gives it back modulo its width.
    * **Frame**: a load depends on its own bytes only, so fields before and
      after it can be dropped (`be32At_append_left`, `be32At_append_right`). -/

namespace Bytes

/-! ## Loads -/

/-- The byte at offset `i`. -/
def byteAt (d : List UInt8) (i : Nat) : Nat := (d.getD i 0).toNat

/-- The big-endian 16-bit field at offset `o`. -/
def be16At (d : List UInt8) (o : Nat) : Nat :=
  byteAt d o * 256 + byteAt d (o + 1)

/-- The big-endian 32-bit field at offset `o`. -/
def be32At (d : List UInt8) (o : Nat) : Nat :=
  be16At d o * 65536 + be16At d (o + 2)

/-- The little-endian 16-bit field at offset `o`. -/
def le16At (d : List UInt8) (o : Nat) : Nat :=
  byteAt d o + byteAt d (o + 1) * 256

/-! ## Stores -/

/-- The two bytes of a big-endian 16-bit field. -/
def be16 (n : Nat) : List UInt8 := [UInt8.ofNat (n / 256), UInt8.ofNat n]

/-- The four bytes of a big-endian 32-bit field. -/
def be32 (n : Nat) : List UInt8 := be16 (n / 65536) ++ be16 n

/-- The two bytes of a little-endian 16-bit field. -/
def le16 (n : Nat) : List UInt8 := [UInt8.ofNat n, UInt8.ofNat (n / 256)]

@[simp] theorem be16_length (n : Nat) : (be16 n).length = 2 := rfl

@[simp] theorem be32_length (n : Nat) : (be32 n).length = 4 := rfl

@[simp] theorem le16_length (n : Nat) : (le16 n).length = 2 := rfl

/-! ## Two's complement -/

/-- A 32-bit field read as a signed number. -/
def toInt32 (n : Nat) : Int := if n < 2 ^ 31 then n else (n : Int) - 2 ^ 32

/-- The 32-bit field that holds a signed number. -/
def ofInt32 (i : Int) : Nat := (i % 2 ^ 32).toNat

theorem ofInt32_lt (i : Int) : ofInt32 i < 2 ^ 32 := by
  unfold ofInt32
  have h := Int.emod_lt_of_pos i (show (0 : Int) < 2 ^ 32 by decide)
  have h' := Int.emod_nonneg i (show (2 ^ 32 : Int) ≠ 0 by decide)
  omega

theorem toInt32_ofInt32 (i : Int) (hlo : -2 ^ 31 ≤ i) (hhi : i < 2 ^ 31) :
    toInt32 (ofInt32 i) = i := by
  unfold toInt32 ofInt32
  split <;> omega

theorem toInt32_of_lt (n : Nat) (h : n < 2 ^ 31) : toInt32 n = n := by
  unfold toInt32
  exact if_pos h

/-! ## Loads of concatenations -/

theorem byteAt_append_left (a b : List UInt8) (i : Nat) (h : i < a.length) :
    byteAt (a ++ b) i = byteAt a i := by
  simp [byteAt, List.getElem?_append_left h]

theorem byteAt_append_right (a b : List UInt8) (i : Nat) (h : a.length ≤ i) :
    byteAt (a ++ b) i = byteAt b (i - a.length) := by
  simp [byteAt, List.getElem?_append_right h]

theorem be16At_append_left (a b : List UInt8) (o : Nat) (h : o + 2 ≤ a.length) :
    be16At (a ++ b) o = be16At a o := by
  simp [be16At, byteAt_append_left a b o (by omega),
    byteAt_append_left a b (o + 1) (by omega)]

theorem be16At_append_right (a b : List UInt8) (o : Nat) (h : a.length ≤ o) :
    be16At (a ++ b) o = be16At b (o - a.length) := by
  simp [be16At, byteAt_append_right a b o h,
    byteAt_append_right a b (o + 1) (by omega),
    show o + 1 - a.length = o - a.length + 1 by omega]

theorem be32At_append_left (a b : List UInt8) (o : Nat) (h : o + 4 ≤ a.length) :
    be32At (a ++ b) o = be32At a o := by
  simp [be32At, be16At_append_left a b o (by omega),
    be16At_append_left a b (o + 2) (by omega)]

theorem be32At_append_right (a b : List UInt8) (o : Nat) (h : a.length ≤ o) :
    be32At (a ++ b) o = be32At b (o - a.length) := by
  simp [be32At, be16At_append_right a b o h,
    be16At_append_right a b (o + 2) (by omega),
    show o + 2 - a.length = o - a.length + 2 by omega]

/-! ## Bounds -/

theorem byteAt_lt (d : List UInt8) (i : Nat) : byteAt d i < 256 :=
  UInt8.toNat_lt _

theorem be16At_lt (d : List UInt8) (o : Nat) : be16At d o < 2 ^ 16 := by
  have h0 := byteAt_lt d o
  have h1 := byteAt_lt d (o + 1)
  unfold be16At
  omega

theorem be32At_lt (d : List UInt8) (o : Nat) : be32At d o < 2 ^ 32 := by
  have h0 := be16At_lt d o
  have h1 := be16At_lt d (o + 2)
  unfold be32At
  omega

/-! ## Round trips -/

theorem be16At_be16 (n : Nat) (r : List UInt8) :
    be16At (be16 n ++ r) 0 = n % 2 ^ 16 := by
  simp [be16At, byteAt, be16, UInt8.toNat_ofNat']
  omega

/-- A field stored as it was loaded. -/
theorem be16_be16At (d : List UInt8) {o : Nat} (h : o + 2 ≤ d.length) :
    be16 (be16At d o) = (d.drop o).take 2 := by
  have hlo : byteAt d (o + 1) < 256 := byteAt_lt d (o + 1)
  have hbyte : ∀ i, UInt8.ofNat (byteAt d i) = d.getD i 0 := by
    intro i
    rw [byteAt, UInt8.ofNat_toNat]
  have hhead : be16At d o / 256 = byteAt d o := by
    unfold be16At
    omega
  have htail : UInt8.ofNat (be16At d o) = UInt8.ofNat (byteAt d (o + 1)) := by
    apply UInt8.toNat_inj.mp
    simp only [UInt8.toNat_ofNat', be16At]
    omega
  rw [be16, hhead, htail, hbyte, hbyte, List.drop_eq_getElem_cons (by omega),
    List.drop_eq_getElem_cons (by omega), ← List.getElem_eq_getD (h := by omega) 0,
    ← List.getElem_eq_getD (h := by omega) 0]
  rfl

theorem be32At_be32 (n : Nat) (r : List UInt8) :
    be32At (be32 n ++ r) 0 = n % 2 ^ 32 := by
  have hlo : be16At (be32 n ++ r) 0 = n / 65536 % 2 ^ 16 := by
    rw [be32, List.append_assoc, be16At_be16]
  have hhi : be16At (be32 n ++ r) (0 + 2) = n % 2 ^ 16 := by
    rw [be32, List.append_assoc, be16At_append_right _ _ _ (by simp)]
    exact be16At_be16 n r
  rw [be32At, hlo, hhi]
  omega

/-- A field after a stored 32-bit one: the offset moves by its width. -/
theorem be32At_be32_succ (n o : Nat) (r : List UInt8) (h : 4 ≤ o) :
    be32At (be32 n ++ r) o = be32At r (o - 4) :=
  be32At_append_right (be32 n) r o (by simpa using h)

end Bytes
