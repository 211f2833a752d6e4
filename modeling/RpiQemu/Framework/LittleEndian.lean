import RpiQemu.Framework.Memory
import Mathlib.Tactic.Common

/-! # Little-endian words

    A word of `n` bytes, least significant byte first, as a byte string and in
    a memory.

    * **Byte strings**: a word reads back modulo its width (`ofBytes_toBytes`).
    * **Memories**: a stored word loads again (`load_store`) and is not seen by
      the words apart from it (`load_store_apart`). -/

namespace LittleEndian

/-! ## Byte strings -/

/-- The word that a byte string holds. -/
def ofBytes : List UInt8 → Nat
  | [] => 0
  | b :: l => b.toNat + 256 * ofBytes l

/-- The `n` low bytes of a word. -/
def toBytes : Nat → Nat → List UInt8
  | 0, _ => []
  | n + 1, v => UInt8.ofNat v :: toBytes n (v / 256)

@[simp] theorem toBytes_length (n v : Nat) : (toBytes n v).length = n := by
  induction n generalizing v with
  | zero => rfl
  | succ n ih => simp [toBytes, ih]

theorem ofBytes_toBytes (n v : Nat) : ofBytes (toBytes n v) = v % 256 ^ n := by
  induction n generalizing v with
  | zero => simp [toBytes, ofBytes, Nat.mod_one]
  | succ n ih =>
    have hbyte : (UInt8.ofNat v).toNat = v % 256 := UInt8.toNat_ofNat'
    rw [toBytes, ofBytes, ih, hbyte, Nat.pow_succ, Nat.mul_comm (256 ^ n) 256, Nat.mod_mul]

/-- One byte of a word. -/
theorem toBytes_getD (n v : Nat) {i : Nat} (h : i < n) :
    (toBytes n v).getD i 0 = UInt8.ofNat (v / 256 ^ i) := by
  induction n generalizing v i with
  | zero => omega
  | succ n ih =>
    cases i with
    | zero => simp [toBytes]
    | succ i =>
      have hstep := ih (v / 256) (show i < n by omega)
      rw [Nat.div_div_eq_div_mul, ← Nat.pow_succ'] at hstep
      exact hstep

/-! ## Memories -/

/-- The word of `n` bytes at `addr`. -/
def load (m : Memory) (n addr : Nat) : Nat := ofBytes (m.read addr n)

/-- The memory with a word of `n` bytes at `addr`. -/
def store (m : Memory) (n addr v : Nat) : Memory := m.write addr (toBytes n v)

@[simp] theorem load_store (m : Memory) (n addr v : Nat) :
    load (store m n addr v) n addr = v % 256 ^ n := by
  have h := Memory.read_write_self m addr (toBytes n v)
  rw [toBytes_length] at h
  rw [load, store, h, ofBytes_toBytes]

theorem load_store_apart (m : Memory) {n k a b v : Nat} (h : b + k ≤ a ∨ a + n ≤ b) :
    load (store m n a v) k b = load m k b := by
  unfold load store
  rw [Memory.read_write_outside]
  rwa [toBytes_length]

/-- A byte of a memory after a store. -/
theorem store_apply (m : Memory) (n a v b : Nat) :
    store m n a v b =
      if a ≤ b ∧ b < a + n then UInt8.ofNat (v / 256 ^ (b - a)) else m b := by
  unfold store Memory.write
  rw [toBytes_length]
  split
  · rw [toBytes_getD n v (by omega)]
  · rfl

end LittleEndian
