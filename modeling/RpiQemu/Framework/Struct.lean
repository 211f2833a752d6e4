import RpiQemu.Framework.Bytes

/-! # Packed records

    Records of big-endian 32-bit fields, as `struct.pack` lays them out for a
    format of `I` (unsigned) and `i` (signed) items.

    * **Packing** fails (`struct.error`) unless every item fits its field, and
      then yields the fields' words (`pack_eq_words`).
    * **Loads**: the field at index `i` is found at offset `4 * i`, whatever
      follows the record (`be32At_words`). -/

namespace Bytes

/-! ## Rows of words -/

/-- The bytes of a row of 32-bit words. -/
def words (ws : List Nat) : List UInt8 := ws.flatMap be32

@[simp] theorem words_nil : words [] = [] := rfl

@[simp] theorem words_cons (w : Nat) (ws : List Nat) : words (w :: ws) = be32 w ++ words ws := rfl

@[simp] theorem words_length (ws : List Nat) : (words ws).length = 4 * ws.length := by
  induction ws with
  | nil => rfl
  | cons w ws ih =>
    rw [words_cons, List.length_append, be32_length, ih, List.length_cons]
    omega

/-- The load of a stored word. -/
theorem be32At_words (ws : List Nat) (r : List UInt8) (i : Nat) (h : i < ws.length) :
    be32At (words ws ++ r) (4 * i) = ws.getD i 0 % 2 ^ 32 := by
  induction ws generalizing i with
  | nil => exact absurd h (Nat.not_lt_zero i)
  | cons w ws ih =>
    rw [words_cons, List.append_assoc]
    by_cases hi : i = 0
    · rw [hi]
      exact be32At_be32 w _
    · obtain ⟨j, rfl⟩ := Nat.exists_eq_succ_of_ne_zero hi
      have hj : j < ws.length := Nat.lt_of_succ_lt_succ h
      rw [be32At_be32_succ w _ _ (by omega), show 4 * j.succ - 4 = 4 * j by omega, ih j hj]
      rfl

/-- The load of a stored word that fits its field. -/
theorem be32At_word {ws : List Nat} {w : Nat} (r : List UInt8) (i : Nat) (hi : ws[i]? = some w)
    (hw : w < 2 ^ 32) : be32At (words ws ++ r) (4 * i) = w := by
  obtain ⟨hlt, _⟩ := List.getElem?_eq_some_iff.mp hi
  rw [be32At_words _ _ _ hlt, List.getD_eq_getElem?_getD, hi]
  exact Nat.mod_eq_of_lt hw

/-! ## Items of a format -/

/-- An item of a format string, with the value to pack. -/
inductive Item where
  | I (x : Int)
  | i (x : Int)
  deriving DecidableEq, Repr

/-- The value is in the field's range. -/
def Item.fits : Item → Prop
  | .I x => 0 ≤ x ∧ x < 2 ^ 32
  | .i x => -2 ^ 31 ≤ x ∧ x < 2 ^ 31

instance : DecidablePred Item.fits := fun f =>
  match f with
  | .I x => inferInstanceAs (Decidable (0 ≤ x ∧ x < 2 ^ 32))
  | .i x => inferInstanceAs (Decidable (-2 ^ 31 ≤ x ∧ x < 2 ^ 31))

/-- The word of an item that fits. -/
def Item.word : Item → Nat
  | .I x => x.toNat
  | .i x => ofInt32 x

/-- `struct.pack`: `none` is `struct.error`. -/
def pack (fs : List Item) : Option (List UInt8) :=
  if ∀ f ∈ fs, f.fits then some (words (fs.map Item.word)) else none

/-- The `8s` item: cut or padded with zeroes to `n` bytes. -/
def pack_s (n : Nat) (b : List UInt8) : List UInt8 :=
  b.take n ++ List.replicate (n - b.length) 0

theorem pack_eq_words {fs : List Item} {b : List UInt8} (h : pack fs = some b) :
    (∀ f ∈ fs, f.fits) ∧ b = words (fs.map Item.word) := by
  unfold pack at h
  by_cases hf : ∀ f ∈ fs, f.fits
  · rw [if_pos hf] at h
    exact ⟨hf, (Option.some.inj h).symm⟩
  · rw [if_neg hf] at h
    cases h

theorem Item.word_lt {f : Item} (h : f.fits) : f.word < 2 ^ 32 := by
  cases f with
  | I x =>
    have hx : 0 ≤ x ∧ x < 2 ^ 32 := h
    show x.toNat < 2 ^ 32
    omega
  | i x => exact ofInt32_lt x

/-- The load of an item that was packed. -/
theorem be32At_items {fs : List Item} (hf : ∀ f ∈ fs, f.fits) (r : List UInt8) (i : Nat) {f : Item}
    (hi : fs[i]? = some f) : be32At (words (fs.map Item.word) ++ r) (4 * i) = f.word := by
  have hget : (fs.map Item.word)[i]? = some f.word := by
    rw [List.getElem?_map, hi]
    rfl
  exact be32At_word r i hget (Item.word_lt (hf f (List.mem_of_getElem? hi)))

/-- An unsigned item is its word. -/
theorem Item.word_I {x : Int} (h : (Item.I x).fits) : ((Item.I x).word : Int) = x := by
  have hx : 0 ≤ x ∧ x < 2 ^ 32 := h
  show (x.toNat : Int) = x
  omega

/-- A signed item is its word read back. -/
theorem Item.word_i {x : Int} (h : (Item.i x).fits) : toInt32 (Item.i x).word = x :=
  toInt32_ofInt32 x h.1 h.2

theorem pack_s_of_length {n : Nat} {b : List UInt8} (h : b.length = n) : pack_s n b = b := by
  unfold pack_s
  rw [h, Nat.sub_self, List.replicate_zero, List.append_nil, ← h, List.take_length]

@[simp] theorem pack_s_length (n : Nat) (b : List UInt8) : (pack_s n b).length = n := by
  unfold pack_s
  rw [List.length_append, List.length_take, List.length_replicate]
  omega

end Bytes
