import RpiQemu.Cfgtxt.Multivalue
import Mathlib.Data.List.Nodup
import Mathlib.Data.List.Perm.Subperm

/-! # Clearing the variables

    `rpi_cfgtxt_clear` collects the names of the `rpi_cfg_*` variables in a
    table of 256 names with 64 bytes each, and deletes what it has collected.

    * **Deleting**: what goes are the variables whose names are in the table,
      and these all have the prefix (`clear_eq`).
    * **Everything**: all of them go, and are counted, exactly when the table
      takes their number and their names (`clear_removes_all`). -/

namespace Cfgtxt

/-- A variable: its name and its value. -/
abbrev Var := Text × Text

/-- `env_htab`: the variables in the order of the table, each name once. -/
structure Htab where
  vars : List Var
  nodup : (vars.map Prod.fst).Nodup

/-- U-Boot's environment functions, as far as `rpi_cfgtxt_clear` sees them. -/
structure EnvLib where
  /-- `hmatch_r` finds this variable for `RPI_CFGTXT_ENV_PREFIX`: by its name,
      or by its value. -/
  hmatch : Var → Bool
  hmatch_name : ∀ v : Var, ENV_PREFIX.isPrefixOf v.1 = true → hmatch v = true
  /-- `env_set(name, NULL)` returns 0 for a variable that is not set. -/
  missing_ok : Bool

def NAMES_COUNT : Nat := 256
def NAME_SIZE : Nat := 64

/-- The first loop: the names that go into the rest of the table, from the
    variables that `hmatch_r` finds.  `strlcpy` cuts them. -/
def collect : Nat → List Var → List Text
  | 0, _ => []
  | _ + 1, [] => []
  | room + 1, v :: rest =>
    if ENV_PREFIX.isPrefixOf v.1 then v.1.take (NAME_SIZE - 1) :: collect room rest
    else collect (room + 1) rest

/-- The second loop: the variables that are left, and how many deletions
    returned 0. -/
def delete_all (lib : EnvLib) : List Text → List Var → List Var × Nat
  | [], vars => (vars, 0)
  | name :: names, vars =>
    let r := delete_all lib names (vars.filter (fun v => v.1 != name))
    (r.1, (if vars.any (fun v => v.1 == name) || lib.missing_ok then 1 else 0) + r.2)

/-- `rpi_cfgtxt_clear`: the variables afterwards, and the return value. -/
def rpi_cfgtxt_clear (lib : EnvLib) (t : Htab) : List Var × Nat :=
  delete_all lib (collect NAMES_COUNT (t.vars.filter lib.hmatch)) t.vars

/-- The variables with the prefix. -/
def owned (vars : List Var) : List Var := vars.filter (fun v => ENV_PREFIX.isPrefixOf v.1)

/-- The variables without it. -/
def foreign (vars : List Var) : List Var := vars.filter (fun v => !ENV_PREFIX.isPrefixOf v.1)

/-! ## Collecting -/

/-- The table takes the first 256 names, cut to 63 bytes. -/
theorem collect_eq (room : Nat) (vars : List Var) :
    collect room vars = ((owned vars).take room).map (fun v => v.1.take (NAME_SIZE - 1)) := by
  induction vars generalizing room with
  | nil => cases room <;> simp [collect, owned]
  | cons v vars ih =>
    cases room with
    | zero => simp [collect]
    | succ room =>
      have hv := ih room
      have hv' := ih (room + 1)
      unfold owned at hv hv' ⊢
      by_cases hp : ENV_PREFIX.isPrefixOf v.1 = true
      · rw [collect, if_pos hp, hv, List.filter_cons, if_pos hp, List.take_succ_cons, List.map_cons]
      · rw [collect, if_neg hp, hv', List.filter_cons, if_neg hp]

/-- `hmatch_r` misses no variable with the prefix. -/
theorem owned_filter_hmatch (lib : EnvLib) (vars : List Var) :
    owned (vars.filter lib.hmatch) = owned vars := by
  unfold owned
  rw [List.filter_filter]
  apply List.filter_congr
  intro v _
  by_cases hp : ENV_PREFIX.isPrefixOf v.1 = true
  · rw [hp, lib.hmatch_name v hp]
    rfl
  · rw [Bool.eq_false_iff.mpr hp]
    rfl

/-- A name cut to 63 bytes still has the prefix. -/
theorem prefix_of_cut {name : Text} (h : ENV_PREFIX.isPrefixOf name = true) :
    ENV_PREFIX.isPrefixOf (name.take (NAME_SIZE - 1)) = true := by
  have hfront := List.isPrefixOf_iff_prefix.mp h
  exact List.isPrefixOf_iff_prefix.mpr (List.prefix_take_iff.mpr ⟨hfront, by decide⟩)

/-! ## Deleting -/

section

variable {lib : EnvLib}

/-- The variables whose names are in the list go. -/
theorem delete_all_vars (names : List Text) (vars : List Var) :
    (delete_all lib names vars).1 = vars.filter (fun v => decide (v.1 ∉ names)) := by
  induction names generalizing vars with
  | nil => simp [delete_all]
  | cons name names ih =>
    rw [delete_all, ih, List.filter_filter]
    apply List.filter_congr
    intro v _
    simp only [List.mem_cons, not_or, Bool.decide_and, Bool.and_comm]
    congr 1
    by_cases h : v.1 = name <;> simp [h]

/-- Different names of variables that are set: every deletion counts. -/
theorem delete_all_count {names : List Text} {vars : List Var} (hnodup : names.Nodup)
    (hset : ∀ name ∈ names, ∃ v ∈ vars, v.1 = name) :
    (delete_all lib names vars).2 = names.length := by
  induction names generalizing vars with
  | nil => rfl
  | cons name names ih =>
    obtain ⟨hnew, hrest⟩ := List.nodup_cons.mp hnodup
    have hany : vars.any (fun v => v.1 == name) = true := by
      obtain ⟨v, hv, hname⟩ := hset name List.mem_cons_self
      exact List.any_eq_true.mpr ⟨v, hv, by simpa using hname⟩
    have hih := @ih (vars.filter (fun v => v.1 != name)) hrest (by
      intro other hother
      obtain ⟨v, hv, hname⟩ := hset other (List.mem_cons_of_mem _ hother)
      refine ⟨v, List.mem_filter.mpr ⟨hv, ?_⟩, hname⟩
      have hne : other ≠ name := fun h => hnew (h ▸ hother)
      simpa [hname] using hne)
    rw [delete_all]
    simp only [hany, Bool.true_or, if_true, hih, List.length_cons]
    omega

end

/-! ## Clearing -/

/-- The names in the table. -/
def cut_names (vars : List Var) : List Text :=
  ((owned vars).take NAMES_COUNT).map (fun v => v.1.take (NAME_SIZE - 1))

theorem clear_eq (lib : EnvLib) (t : Htab) :
    rpi_cfgtxt_clear lib t = delete_all lib (cut_names t.vars) t.vars := by
  rw [rpi_cfgtxt_clear, collect_eq, owned_filter_hmatch]
  rfl

/-- No variable with the prefix is left, the others are unchanged, and the
    return value is the number of those removed. -/
def Cleared (lib : EnvLib) (t : Htab) : Prop :=
  owned (rpi_cfgtxt_clear lib t).1 = [] ∧
  foreign (rpi_cfgtxt_clear lib t).1 = foreign t.vars ∧
  (rpi_cfgtxt_clear lib t).2 + (rpi_cfgtxt_clear lib t).1.length = t.vars.length

/-- Variables without the prefix are never touched. -/
theorem clear_foreign (lib : EnvLib) (t : Htab) :
    foreign (rpi_cfgtxt_clear lib t).1 = foreign t.vars := by
  rw [clear_eq, delete_all_vars]
  unfold foreign
  rw [List.filter_filter]
  apply List.filter_congr
  intro v _
  by_cases hp : ENV_PREFIX.isPrefixOf v.1 = true
  · simp [hp]
  · have hnew : v.1 ∉ cut_names t.vars := by
      intro hmem
      obtain ⟨w, hw, hname⟩ := List.mem_map.mp hmem
      have hwp : ENV_PREFIX.isPrefixOf w.1 = true :=
        (List.mem_filter.mp (List.mem_of_mem_take hw)).2
      exact hp (hname ▸ prefix_of_cut hwp)
    simp [hp, hnew]

theorem owned_length_add (vars : List Var) :
    (owned vars).length + (foreign vars).length = vars.length := by
  unfold owned foreign
  exact List.length_eq_length_filter_add _ |>.symm

theorem owned_nodup (t : Htab) : ((owned t.vars).map Prod.fst).Nodup :=
  List.Nodup.sublist (List.filter_sublist.map Prod.fst) t.nodup

/-- `rpi_cfgtxt_clear` does what it is for exactly when there are at most 256
    variables to remove, with names of at most 63 bytes. -/
theorem clear_removes_all (lib : EnvLib) (t : Htab) :
    Cleared lib t ↔
      (owned t.vars).length ≤ 256 ∧
        ∀ v ∈ t.vars, ENV_PREFIX.isPrefixOf v.1 = true → v.1.length ≤ 63 := by
  constructor
  · rintro ⟨hnone, -, -⟩
    -- every variable with the prefix has its name in the table
    have hmem : ∀ v ∈ owned t.vars, v.1 ∈ cut_names t.vars := by
      intro v hv
      obtain ⟨hvars, hp⟩ := List.mem_filter.mp hv
      by_contra hnew
      have hleft : v ∈ owned (rpi_cfgtxt_clear lib t).1 := by
        rw [clear_eq, delete_all_vars]
        exact List.mem_filter.mpr ⟨List.mem_filter.mpr ⟨hvars, by simpa using hnew⟩, hp⟩
      rw [hnone] at hleft
      exact absurd hleft List.not_mem_nil
    constructor
    · have hsub : (owned t.vars).map Prod.fst ⊆ cut_names t.vars := by
        intro name hname
        obtain ⟨v, hv, rfl⟩ := List.mem_map.mp hname
        exact hmem v hv
      have hle := (List.Nodup.subperm (owned_nodup t) hsub).length_le
      rw [List.length_map] at hle
      have hcut : (cut_names t.vars).length ≤ 256 := by
        rw [cut_names, List.length_map, List.length_take]
        exact Nat.min_le_left _ _
      omega
    · intro v hv hp
      obtain ⟨w, -, hname⟩ := List.mem_map.mp (hmem v (List.mem_filter.mpr ⟨hv, hp⟩))
      rw [← hname, List.length_take]
      exact Nat.min_le_left _ _
  · rintro ⟨hcount, hlen⟩
    -- the table has exactly the names
    have hnames : cut_names t.vars = (owned t.vars).map Prod.fst := by
      rw [cut_names, NAMES_COUNT, List.take_of_length_le hcount]
      apply List.map_congr_left
      intro v hv
      obtain ⟨hvars, hp⟩ := List.mem_filter.mp hv
      exact List.take_of_length_le (hlen v hvars hp)
    have hnone : owned (rpi_cfgtxt_clear lib t).1 = [] := by
      rw [clear_eq, delete_all_vars, hnames]
      apply List.filter_eq_nil_iff.mpr
      intro v hv hp
      obtain ⟨hvars, hnew⟩ := List.mem_filter.mp hv
      exact of_decide_eq_true hnew
        (List.mem_map_of_mem (List.mem_filter.mpr ⟨hvars, hp⟩))
    refine ⟨hnone, clear_foreign lib t, ?_⟩
    have hret : (rpi_cfgtxt_clear lib t).2 = (owned t.vars).length := by
      rw [clear_eq, hnames, delete_all_count (owned_nodup t), List.length_map]
      intro name hname
      obtain ⟨v, hv, rfl⟩ := List.mem_map.mp hname
      exact ⟨v, (List.mem_filter.mp hv).1, rfl⟩
    have hleft := owned_length_add (rpi_cfgtxt_clear lib t).1
    have hall := owned_length_add t.vars
    rw [hnone, clear_foreign, List.length_nil] at hleft
    omega

/-- `hmatch_r` looks at names and values; `env_set` deletes silently. -/
def plain_env : EnvLib where
  hmatch v := ENV_PREFIX.isPrefixOf v.1 || ENV_PREFIX.isPrefixOf v.2
  hmatch_name v h := by simp [h]
  missing_ok := true

/-- One variable with a name of 64 bytes. -/
def long_name : Htab where
  vars := [(ENV_PREFIX ++ List.replicate 56 'a', "1".toList)]
  nodup := List.nodup_singleton _

/-- It stays, and is counted as removed. -/
theorem long_name_stays :
    rpi_cfgtxt_clear plain_env long_name = (long_name.vars, 1) ∧ ¬ Cleared plain_env long_name := by
  have hclear : rpi_cfgtxt_clear plain_env long_name = (long_name.vars, 1) := by decide +kernel
  refine ⟨hclear, ?_⟩
  rintro ⟨hnone, -⟩
  rw [hclear] at hnone
  exact absurd hnone (by decide)

end Cfgtxt
