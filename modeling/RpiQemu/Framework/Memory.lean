import Mathlib.Data.List.Basic
import Mathlib.Algebra.Group.Nat.Defs

/-! # Byte memories

    A memory gives the byte at each address.  Blocks are read and written as
    byte strings.

    * **Round trip**: a block that lies in what was written reads as that part
      of it (`read_write_inside`).
    * **Frame**: a block that what was written does not meet reads as before
      (`read_write_outside`).
    * **Several writes**: a block reads as the last write that meets it left
      it (`read_foldl_write`). -/

/-- The byte at each address. -/
abbrev Memory := Nat → UInt8

namespace Memory

/-- The block of `len` bytes at `addr`. -/
def read (m : Memory) (addr len : Nat) : List UInt8 :=
  (List.range len).map (fun i => m (addr + i))

/-- The memory with a block written at `addr`. -/
def write (m : Memory) (addr : Nat) (data : List UInt8) : Memory :=
  fun a => if addr ≤ a ∧ a < addr + data.length then data.getD (a - addr) 0 else m a

/-- The memory with those bytes of a block written at `addr` that are stored. -/
def writePart (m : Memory) (addr : Nat) (data : List UInt8) (stored : Nat → Bool) : Memory :=
  fun a =>
    if (addr ≤ a ∧ a < addr + data.length) ∧ stored (a - addr) = true then data.getD (a - addr) 0
    else m a

@[simp] theorem read_length (m : Memory) (addr len : Nat) : (m.read addr len).length = len := by
  simp [read]

@[simp] theorem write_nil (m : Memory) (addr : Nat) : m.write addr [] = m := by
  funext a
  unfold write
  rw [if_neg]
  simp only [List.length_nil]
  omega

theorem read_congr {m m' : Memory} {addr len : Nat}
    (h : ∀ i < len, m (addr + i) = m' (addr + i)) : m.read addr len = m'.read addr len := by
  apply List.map_congr_left
  intro i hi
  exact h i (List.mem_range.mp hi)

/-- A part of a block. -/
theorem take_drop_read (m : Memory) {addr o len n : Nat} (h : o + len ≤ n) :
    ((m.read addr n).drop o).take len = m.read (addr + o) len := by
  apply List.ext_getElem
  · simp only [List.length_take, List.length_drop, read_length]
    omega
  · intro i _ _
    simp [read, Nat.add_assoc]

/-- A block inside what was written. -/
theorem read_write_inside (m : Memory) {addr o len : Nat} {data : List UInt8}
    (h : o + len ≤ data.length) :
    (m.write addr data).read (addr + o) len = (data.drop o).take len := by
  apply List.ext_getElem
  · simp only [read_length, List.length_take, List.length_drop]
    omega
  · intro i hi _
    rw [read_length] at hi
    simp only [read, List.getElem_map, List.getElem_range, write, List.getElem_take,
      List.getElem_drop]
    rw [if_pos (by omega), show addr + o + i - addr = o + i by omega]
    exact (List.getElem_eq_getD 0).symm

/-- A block that was not written. -/
theorem read_write_outside (m : Memory) {addr a len : Nat} {data : List UInt8}
    (h : a + len ≤ addr ∨ addr + data.length ≤ a) :
    (m.write addr data).read a len = m.read a len := by
  apply read_congr
  intro i hi
  unfold write
  rw [if_neg (by omega)]

/-- A block that several writes do not meet. -/
theorem read_foldl_outside (m : Memory) {writes : List (Nat × List UInt8)} {a len : Nat}
    (h : ∀ w ∈ writes, a + len ≤ w.1 ∨ w.1 + w.2.length ≤ a) :
    (writes.foldl (fun m w => m.write w.1 w.2) m).read a len = m.read a len := by
  induction writes generalizing m with
  | nil => rfl
  | cons w writes ih =>
    rw [List.foldl_cons, ih _ (fun w' hw' => h w' (List.mem_cons_of_mem _ hw'))]
    exact read_write_outside m (h w List.mem_cons_self)

/-- A block inside one of several writes that the later ones do not meet. -/
theorem read_foldl_write (m : Memory) {writes : List (Nat × List UInt8)} {i o len : Nat}
    {w : Nat × List UInt8} (hw : writes[i]? = some w) (hin : o + len ≤ w.2.length)
    (hlater : ∀ j w', i < j → writes[j]? = some w' →
      w.1 + o + len ≤ w'.1 ∨ w'.1 + w'.2.length ≤ w.1 + o) :
    (writes.foldl (fun m w => m.write w.1 w.2) m).read (w.1 + o) len = (w.2.drop o).take len := by
  -- on the writes: the first one is the one read back, or comes before it
  induction writes generalizing m i with
  | nil => exact absurd hw (by simp)
  | cons w₀ writes ih =>
    rw [List.foldl_cons]
    cases i with
    | zero =>
      obtain rfl := Option.some.inj hw
      rw [read_foldl_outside, read_write_inside m hin]
      intro w' hw'
      obtain ⟨j, hj⟩ := List.mem_iff_getElem?.mp hw'
      exact hlater (j + 1) w' (Nat.succ_pos j) hj
    | succ i => exact ih _ hw (fun j w' hij hj => hlater (j + 1) w' (Nat.succ_lt_succ hij) hj)

/-- A block in two parts. -/
theorem read_add (m : Memory) (addr n k : Nat) :
    m.read addr (n + k) = m.read addr n ++ m.read (addr + n) k := by
  unfold read
  rw [List.range_add, List.map_append, List.map_map]
  apply congrArg
  apply List.map_congr_left
  intro i _
  simp only [Function.comp_apply, Nat.add_assoc]

/-- A whole block that was just written. -/
theorem read_write_self (m : Memory) (addr : Nat) (data : List UInt8) :
    (m.write addr data).read addr data.length = data := by
  have h := @read_write_inside m addr 0 data.length data (by omega)
  rwa [Nat.add_zero, List.drop_zero, List.take_length] at h

/-- A block that is written over with its own bytes. -/
theorem write_read_self (m : Memory) (addr len : Nat) : m.write addr (m.read addr len) = m := by
  funext a
  unfold write
  split
  · next h =>
    rw [read_length] at h
    rw [List.getD_eq_getElem?_getD, read, List.getElem?_map, List.getElem?_range (by omega)]
    simp only [Option.map_some, Option.getD_some]
    rw [show addr + (a - addr) = a by omega]
  · rfl

end Memory
