import Mathlib.Algebra.BigOperators.Group.Finset.Basic
import Mathlib.Algebra.Order.BigOperators.Group.Finset
import Mathlib.Data.Multiset.Basic
import Mathlib.Tactic.Abel

/-! # Lists of objects with identities, and families of bags

    * **Removal by identity**: in a list whose identities are distinct, removing
      the object with one identity is a filter, so removals commute with each
      other and with any other filter (`eraseP_eq_filter`).
    * **Bags**: the contents of finitely many keyed bags together.  A change at
      one key changes the whole by the difference at that key (`bag_change`). -/

namespace Keyed

variable {α β : Type*}

/-! ## Removal by identity -/

/-- Removing one identity from a list of distinct ones is a filter. -/
theorem eraseP_eq_filter {g : α → Nat} {l : List α} (h : (l.map g).Nodup) (i : Nat) :
    l.eraseP (g · == i) = l.filter (g · != i) := by
  induction l with
  | nil => rfl
  | cons a l ih =>
    rw [List.map_cons, List.nodup_cons] at h
    by_cases ha : g a = i
    · have hout : ∀ b ∈ l, (g b != i) = true := by
        intro b hb
        simp only [bne_iff_ne, ne_eq]
        intro hbi
        exact h.1 (List.mem_map.mpr ⟨b, hb, hbi.trans ha.symm⟩)
      rw [List.eraseP_cons_of_pos (by simp [ha]), List.filter_cons_of_neg (by simp [ha]),
        List.filter_eq_self.mpr hout]
    · rw [List.eraseP_cons_of_neg (by simp [ha]), List.filter_cons_of_pos (by simp [ha]),
        ih h.2]

/-- Distinct identities: an object is known by its identity. -/
theorem eq_of_mem_of_map_nodup {g : α → Nat} {l : List α} (h : (l.map g).Nodup) {a b : α}
    (ha : a ∈ l) (hb : b ∈ l) (hab : g a = g b) : a = b :=
  List.inj_on_of_nodup_map h ha hb hab

/-- The object found by an identity is the one that has it. -/
theorem find?_of_mem {g : α → Nat} {l : List α} (h : (l.map g).Nodup) {a : α} (ha : a ∈ l) :
    l.find? (g · == g a) = some a := by
  have hsome : (l.find? (g · == g a)).isSome := by
    rw [List.find?_isSome]
    exact ⟨a, ha, by simp⟩
  obtain ⟨b, hb⟩ := Option.isSome_iff_exists.mp hsome
  have hbl := List.mem_of_find?_eq_some hb
  have hbg := List.find?_some hb
  rw [hb, eq_of_mem_of_map_nodup h hbl ha (by simpa using hbg)]

/-- Removing an object by its identity leaves the others. -/
theorem perm_cons_eraseP {g : α → Nat} {l : List α} (h : (l.map g).Nodup) {a : α} (ha : a ∈ l) :
    l.Perm (a :: l.eraseP (g · == g a)) := by
  obtain ⟨b, us, vs, _, hb, hl, he⟩ :=
    List.exists_of_eraseP (p := (g · == g a)) ha (by simp)
  have hbl : b ∈ l := by
    rw [hl]
    simp
  rw [he, ← eq_of_mem_of_map_nodup h hbl ha (by simpa using hb), hl]
  exact List.perm_middle

/-! ## Bags -/

/-- The contents of the bags `0 .. n-1` together. -/
def bag (n : Nat) (w : Nat → Multiset β) : Multiset β := ∑ k ∈ Finset.range n, w k

theorem mem_bag {n : Nat} {w : Nat → Multiset β} {b : β} : b ∈ bag n w ↔ ∃ k < n, b ∈ w k := by
  simp [bag, Multiset.mem_sum]

theorem bag_congr {n : Nat} {w w' : Nat → Multiset β} (h : ∀ k, w' k = w k) :
    bag n w' = bag n w :=
  Finset.sum_congr rfl fun k _ => h k

/-- A change at one key changes the whole by the difference at that key. -/
theorem bag_change {n k : Nat} (hk : k < n) (w w' : Nat → Multiset β)
    (h : ∀ j, j ≠ k → w' j = w j) : bag n w' + w k = bag n w + w' k := by
  have hmem : k ∈ Finset.range n := Finset.mem_range.mpr hk
  have hrest : ∑ j ∈ (Finset.range n).erase k, w' j = ∑ j ∈ (Finset.range n).erase k, w j :=
    Finset.sum_congr rfl fun j hj => h j (Finset.ne_of_mem_erase hj)
  unfold bag
  rw [← Finset.add_sum_erase _ _ hmem, ← Finset.add_sum_erase _ w hmem, hrest]
  abel

/-- Taking one object out of one bag takes it out of the whole. -/
theorem bag_cons {n k : Nat} (hk : k < n) {w w' : Nat → Multiset β} {b : β}
    (h : ∀ j, j ≠ k → w' j = w j) (hb : w k = b ::ₘ w' k) : bag n w = b ::ₘ bag n w' := by
  have hchange := bag_change hk w w' h
  rw [hb, ← Multiset.singleton_add, ← add_assoc] at hchange
  have := add_right_cancel hchange
  rw [← this, add_comm, Multiset.singleton_add]

/-- Each bag is part of the whole. -/
theorem le_bag {n k : Nat} (hk : k < n) (w : Nat → Multiset β) : w k ≤ bag n w :=
  Finset.single_le_sum (fun _ _ => Multiset.zero_le _) (Finset.mem_range.mpr hk)

end Keyed
