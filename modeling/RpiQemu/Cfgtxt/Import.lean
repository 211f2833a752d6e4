import RpiQemu.Cfgtxt.Clear

/-! # The environment after an import

    `cfgtxt clear` and a parse of a text without include lines.  The variables
    of simple keys, those of multi-value keys and those of `initramfs` lines
    share one name space, and `env_set` deletes a variable that is set to an
    empty value.

    * **Givers**: a variable reads as the last effective line that gives it a
      value says (`import_after`).
    * **The file's own values**: the environment is what the file describes
      exactly when the last giver of each variable is right and not empty;
      where no line gives a value to another kind's variable, exactly when no
      value is empty (`import_describes`). -/

namespace Cfgtxt

open History

/-! ## Parsing without includes -/

section

variable {lib : Vsprintf} {cb : Option IncludeFn} {opts : Opts}

/-- The callback is not asked for other lines. -/
theorem parse_line_no_include {line : Text} (h : ¬ "include ".toList.isPrefixOf line = true)
    (state : State) :
    parse_line lib cb opts line state = parse_line lib Option.none opts line state := by
  unfold parse_line handle_directive
  simp only [if_neg h]

/-- A text without include lines sets what its lines mean, with any callback. -/
theorem parse_no_include {buf : Text}
    (h : ∀ line ∈ buffered_lines buf, ¬ "include ".toList.isPrefixOf line = true) :
    rpi_cfgtxt_parse lib cb opts buf =
      some (if buf = [] then -EINVAL else 0,
        (meaning lib opts (buffered_lines buf)).map (Event.mk 0)) := by
  have hnone : rpi_cfgtxt_parse lib cb opts buf = rpi_cfgtxt_parse lib Option.none opts buf := by
    unfold rpi_cfgtxt_parse
    rw [parse_loop_eq_run lib _ opts _ _ _ (Nat.le_refl _),
      parse_loop_eq_run lib _ opts _ _ _ (Nat.le_refl _),
      run_congr (fun line hline st => parse_line_no_include (h line hline) st)]
  have hdoes : file_does lib Option.none opts buf =
      (meaning lib opts (buffered_lines buf)).map (Event.mk 0) := by
    unfold file_does meaning history
    rw [map_along]
    apply along_congr
    intro past line
    unfold line_does line_sets
    cases takes_effect lib opts ([] ++ past) line <;> rfl
  rw [hnone, parse_eq_file_does (fun _ => rfl), hdoes]

end

/-! ## Givers -/

section

variable (lib : Vsprintf) (opts : Opts)

/-- The values that a line gives to a variable. -/
def line_gives (name : Text) (past : List Text) (line : Text) : List Text :=
  (line_sets lib opts past line).filterMap (Call.writes (ENV_PREFIX ++ name))

/-- The values that the effective lines give to a variable, in order. -/
def given (name : Text) (lines : List Text) : List Text :=
  history (line_gives lib opts name) lines

/-- Those among them that do not come from lines of the key. -/
def rivals (key name : Text) (lines : List Text) : List Text :=
  history (fun past line =>
    match takes_effect lib opts past line with
    | .entry k _ => if k = key then [] else line_gives lib opts name past line
    | _ => line_gives lib opts name past line) lines

/-- A key with a variable of its own name. -/
def SimpleKey (key : Text) : Prop := key ∉ multi_keys ∧ key.length ≤ 55

/-- The environment that a file describes: a simple key has the value of its
    last effective line, and a multi-value key all of its values. -/
def Describes (lines : List Text) (env : Env) : Prop :=
  (∀ key, SimpleKey key → ∀ v, (values lib opts key lines).getLast? = some v →
    env (ENV_PREFIX ++ key) = some v) ∧
  ∀ key ∈ multi_keys, Kept env key (values lib opts key lines)

/-- The last effective line that gives a value to a variable gives the file's
    own, and it is not empty. -/
def LastGives (lines : List Text) : Prop :=
  (∀ key, SimpleKey key → ∀ v, (values lib opts key lines).getLast? = some v →
    v ≠ [] ∧ (given lib opts key lines).getLast? = some v) ∧
  ∀ key ∈ multi_keys,
    ((given lib opts (count_name key) lines).getLast?.filter (· != [])).getD (decimal 0) =
      decimal (values lib opts key lines).length ∧
    ∀ i v, (values lib opts key lines)[i]? = some v →
      v ≠ [] ∧ (given lib opts (slot_name key i) lines).getLast? = some v

/-- No effective line gives a value to a variable of another kind. -/
def NoClash (lines : List Text) : Prop :=
  (∀ key, SimpleKey key → values lib opts key lines ≠ [] → rivals lib opts key key lines = []) ∧
  ∀ key ∈ multi_keys, rivals lib opts key (count_name key) lines = [] ∧
    ∀ i < (values lib opts key lines).length, rivals lib opts key (slot_name key i) lines = []

/-- No value that the file describes is empty. -/
def NoEmptyValue (lines : List Text) : Prop :=
  (∀ key, SimpleKey key → (values lib opts key lines).getLast? ≠ some []) ∧
  ∀ key ∈ multi_keys, [] ∉ values lib opts key lines

end

section

variable {lib : Vsprintf} {opts : Opts}

theorem given_eq (name : Text) (lines : List Text) :
    given lib opts name lines =
      (meaning lib opts lines).filterMap (Call.writes (ENV_PREFIX ++ name)) := by
  unfold given meaning history
  rw [filterMap_along]
  rfl

/-- A variable reads as its last giver says. -/
theorem import_after (env : Env) (lines : List Text) (name : Text) :
    env.after (meaning lib opts lines) (ENV_PREFIX ++ name) =
      match (given lib opts name lines).getLast? with
      | Option.none => env (ENV_PREFIX ++ name)
      | some value => if value = [] then Option.none else some value := by
  rw [given_eq]
  exact after_eq _ _ _

/-- A giver of a value that is not empty is read back, and no other. -/
theorem import_after_some {env : Env} {lines : List Text} {name v : Text}
    (hgiven : given lib opts name lines ≠ []) :
    env.after (meaning lib opts lines) (ENV_PREFIX ++ name) = some v ↔
      v ≠ [] ∧ (given lib opts name lines).getLast? = some v := by
  rw [import_after]
  obtain ⟨w, hw⟩ := Option.ne_none_iff_exists'.mp (mt List.getLast?_eq_none_iff.mp hgiven)
  rw [hw]
  by_cases hempty : w = []
  · simp only [hempty, if_true]
    constructor
    · exact fun h => absurd h (by simp)
    · rintro ⟨hne, heq⟩
      exact absurd (Option.some.inj heq).symm hne
  · simp only [hempty, if_false, Option.some.injEq]
    constructor
    · rintro rfl
      exact ⟨hempty, rfl⟩
    · exact fun h => h.2

/-! ## The key's own lines -/

/-- What the lines of a key give a variable, when the line with the `j`-th
    value gives it `own j`. -/
def own_values (own : Nat → Text → List Text) (vs : List Text) : List Text :=
  vs.zipIdx.flatMap (fun p => own p.2 p.1)

theorem own_values_snoc (own : Nat → Text → List Text) (vs : List Text) (v : Text) :
    own_values own (vs ++ [v]) = own_values own vs ++ own vs.length v := by
  unfold own_values
  rw [List.zipIdx_append, List.flatMap_append]
  simp

/-- A variable gets what the lines of its key give it, and what the rivals
    do. -/
theorem own_values_given {key name : Text} (own : Nat → Text → List Text)
    (hown : ∀ past line v, takes_effect lib opts past line = .entry key v →
      line_gives lib opts name past line = own (values lib opts key past).length v)
    (lines : List Text) :
    (own_values own (values lib opts key lines)).Sublist (given lib opts name lines) ∧
      (rivals lib opts key name lines = [] →
        given lib opts name lines = own_values own (values lib opts key lines)) := by
  -- on the lines, the last one outermost: an index counts the values before it
  induction lines using List.reverseRecOn with
  | nil => exact ⟨List.Sublist.refl _, fun _ => rfl⟩
  | append_singleton lines line ih =>
    obtain ⟨hsub, heq⟩ := ih
    have hgiven : given lib opts name (lines ++ [line]) =
        given lib opts name lines ++ line_gives lib opts name lines line :=
          history_snoc _ lines line
    have hrivals : rivals lib opts key name (lines ++ [line]) = rivals lib opts key name lines ++
        match takes_effect lib opts lines line with
        | .entry k _ => if k = key then [] else line_gives lib opts name lines line
        | _ => line_gives lib opts name lines line := history_snoc _ lines line
    by_cases hkey : ∃ v, takes_effect lib opts lines line = .entry key v
    · -- a line of the key
      obtain ⟨v, hv⟩ := hkey
      rw [hgiven, hrivals, values_snoc, hv]
      simp only [if_true, List.append_nil]
      rw [own_values_snoc, hown lines line v hv]
      refine ⟨hsub.append (List.Sublist.refl _), fun h => ?_⟩
      rw [heq h]
    · -- another line: a rival, if it gives anything
      have hvalues : values lib opts key (lines ++ [line]) = values lib opts key lines := by
        rw [values_snoc]
        cases ht : takes_effect lib opts lines line with
        | entry k v =>
          have hne : k ≠ key := fun h => hkey ⟨v, h ▸ ht⟩
          simp only [if_neg hne, List.append_nil]
        | _ => exact List.append_nil _
      have hline : (match takes_effect lib opts lines line with
          | .entry k _ => if k = key then [] else line_gives lib opts name lines line
          | _ => line_gives lib opts name lines line) = line_gives lib opts name lines line := by
        cases ht : takes_effect lib opts lines line with
        | entry k v =>
          have hne : k ≠ key := fun h => hkey ⟨v, h ▸ ht⟩
          simp only [if_neg hne]
        | _ => rfl
      rw [hgiven, hrivals, hvalues, hline]
      refine ⟨hsub.trans (List.sublist_append_left _ _), fun h => ?_⟩
      obtain ⟨h₁, h₂⟩ := List.append_eq_nil_iff.mp h
      rw [heq h₁, h₂, List.append_nil]

/-- The line of a simple key gives its variable the value. -/
theorem simple_gives {key : Text} (hkey : SimpleKey key) (past : List Text) (line v : Text)
    (h : takes_effect lib opts past line = .entry key v) :
    line_gives lib opts key past line = [v] := by
  unfold line_gives line_sets
  simp only [h]
  rw [plain_writes hkey.1, if_pos ⟨rfl, hkey.2⟩]

/-- The line of a multi-value key with the number `j` gives its `j`-th
    variable the value. -/
theorem slot_gives {key : Text} (hkey : key ∈ multi_keys) (i : Nat) (past : List Text)
    (line v : Text) (h : takes_effect lib opts past line = .entry key v) :
    line_gives lib opts (slot_name key i) past line =
      if (values lib opts key past).length = i then [v] else [] := by
  unfold line_gives line_sets
  simp only [h]
  rw [slot_name, entry_writes hkey _ hkey, if_pos rfl, if_neg (Ne.symm (decimal_ne_count i)),
    List.append_nil]
  simp only [decimal_inj]

theorem count_gives {key : Text} (hkey : key ∈ multi_keys) (past : List Text) (line v : Text)
    (h : takes_effect lib opts past line = .entry key v) :
    line_gives lib opts (count_name key) past line =
      [decimal ((values lib opts key past).length + 1)] := by
  have hcount : count_name key = key ++ '_' :: "count".toList := rfl
  unfold line_gives line_sets
  simp only [h]
  rw [hcount, entry_writes hkey _ hkey, if_pos rfl, if_neg (decimal_ne_count _), if_pos rfl,
    List.nil_append]

theorem own_values_simple (vs : List Text) : own_values (fun _ v => [v]) vs = vs := by
  induction vs using List.reverseRecOn with
  | nil => rfl
  | append_singleton vs v ih => rw [own_values_snoc, ih]

theorem own_values_slot (i : Nat) (vs : List Text) :
    own_values (fun j v => if j = i then [v] else []) vs = vs[i]?.toList := by
  induction vs using List.reverseRecOn with
  | nil => rfl
  | append_singleton vs v ih =>
    rw [own_values_snoc, ih]
    by_cases hi : vs.length = i
    · subst hi
      simp
    · rw [if_neg hi, List.append_nil]
      by_cases hlt : i < vs.length
      · rw [List.getElem?_append_left hlt]
      · rw [List.getElem?_eq_none (by omega), List.getElem?_eq_none (by simp; omega)]

theorem own_values_count (vs : List Text) :
    (own_values (fun j _ => [decimal (j + 1)]) vs).getLast? =
      if vs = [] then Option.none else some (decimal vs.length) := by
  induction vs using List.reverseRecOn with
  | nil => rfl
  | append_singleton vs v ih =>
    rw [own_values_snoc, List.getLast?_concat, if_neg (by simp), List.length_append]
    rfl

/-- A value that a key describes is among those given. -/
theorem given_simple_ne_nil {key : Text} (hkey : SimpleKey key) {lines : List Text} {v : Text}
    (hv : (values lib opts key lines).getLast? = some v) : given lib opts key lines ≠ [] := by
  intro hnil
  have hsub := (own_values_given (fun _ v => [v]) (@simple_gives lib opts key hkey) lines).1
  rw [own_values_simple, hnil, List.sublist_nil] at hsub
  rw [hsub] at hv
  exact absurd hv (by simp)

theorem given_slot_ne_nil {key : Text} (hkey : key ∈ multi_keys) {lines : List Text} {i : Nat}
    {v : Text} (hv : (values lib opts key lines)[i]? = some v) :
    given lib opts (slot_name key i) lines ≠ [] := by
  intro hnil
  have hsub := (own_values_given (fun j v => if j = i then [v] else [])
    (@slot_gives lib opts key hkey i) lines).1
  rw [own_values_slot, hv, hnil, List.sublist_nil] at hsub
  exact absurd hsub (by simp)

/-- From an environment without counts, the environment is as described
    exactly when the last givers are right. -/
theorem describes_iff_last_gives {env : Env}
    (henv : ∀ key ∈ multi_keys, env (ENV_PREFIX ++ count_name key) = Option.none)
    (lines : List Text) :
    Describes lib opts lines (env.after (meaning lib opts lines)) ↔ LastGives lib opts lines := by
  unfold Describes LastGives
  apply and_congr
  · apply forall_congr'
    intro key
    apply forall_congr'
    intro hkey
    apply forall_congr'
    intro v
    apply imp_congr_right
    intro hv
    exact import_after_some (given_simple_ne_nil hkey hv)
  · apply forall_congr'
    intro key
    apply forall_congr'
    intro hkey
    unfold Kept
    apply and_congr
    · rw [import_after, henv key hkey]
      cases hlast : (given lib opts (count_name key) lines).getLast? with
      | none => rfl
      | some w =>
        by_cases hempty : w = []
        · simp [Option.filter, hempty]
        · simp [Option.filter, hempty]
    · constructor
      · intro h i v hv
        obtain ⟨hi, -⟩ := List.getElem?_eq_some_iff.mp hv
        exact (import_after_some (given_slot_ne_nil hkey hv)).mp ((h i hi).trans hv)
      · intro h i hi
        have hv : (values lib opts key lines)[i]? = some (values lib opts key lines)[i] :=
          List.getElem?_eq_getElem hi
        rw [hv]
        exact (import_after_some (given_slot_ne_nil hkey hv)).mpr (h i _ hv)

/-- Without clashes the last givers are the lines of the key itself. -/
theorem last_gives_iff_no_empty {lines : List Text} (hclash : NoClash lib opts lines) :
    LastGives lib opts lines ↔ NoEmptyValue lib opts lines := by
  have hsimple : ∀ key, SimpleKey key → ∀ v, (values lib opts key lines).getLast? = some v →
      (given lib opts key lines).getLast? = some v := by
    intro key hkey v hv
    have hne : values lib opts key lines ≠ [] := by
      intro h
      rw [h] at hv
      exact absurd hv (by simp)
    rw [(own_values_given (fun _ v => [v]) (simple_gives hkey) lines).2 (hclash.1 key hkey hne),
      own_values_simple, hv]
  have hslot : ∀ key ∈ multi_keys, ∀ i v, (values lib opts key lines)[i]? = some v →
      (given lib opts (slot_name key i) lines).getLast? = some v := by
    intro key hkey i v hv
    obtain ⟨hi, -⟩ := List.getElem?_eq_some_iff.mp hv
    rw [(own_values_given (fun j v => if j = i then [v] else []) (slot_gives hkey i) lines).2
      ((hclash.2 key hkey).2 i hi), own_values_slot, hv]
    rfl
  have hcount : ∀ key ∈ multi_keys,
      ((given lib opts (count_name key) lines).getLast?.filter (· != [])).getD (decimal 0) =
        decimal (values lib opts key lines).length := by
    intro key hkey
    rw [(own_values_given (fun j _ => [decimal (j + 1)]) (count_gives hkey) lines).2
      (hclash.2 key hkey).1, own_values_count]
    by_cases hnil : values lib opts key lines = []
    · rw [if_pos hnil, hnil]
      rfl
    · have hne : decimal (values lib opts key lines).length ≠ [] := Nat.toDigits_ne_nil
      rw [if_neg hnil]
      simp [Option.filter, hne]
  constructor
  · rintro ⟨h₁, h₂⟩
    refine ⟨fun key hkey hlast => (h₁ key hkey [] hlast).1 rfl, fun key hkey hmem => ?_⟩
    obtain ⟨i, hi⟩ := List.mem_iff_getElem?.mp hmem
    exact ((h₂ key hkey).2 i [] hi).1 rfl
  · rintro ⟨h₁, h₂⟩
    refine ⟨fun key hkey v hv => ⟨?_, hsimple key hkey v hv⟩, fun key hkey =>
      ⟨hcount key hkey, fun i v hv => ⟨?_, hslot key hkey i v hv⟩⟩⟩
    · rintro rfl
      exact h₁ key hkey hv
    · rintro rfl
      exact h₂ key hkey (List.mem_of_getElem? hv)

end

/-! ## Clear and import -/

/-- The environment of a table. -/
def lookup (vars : List Var) : Env := fun name => (vars.find? (fun v => v.1 == name)).map Prod.snd

/-- A clear of at most 256 variables leaves none with a short name. -/
theorem lookup_cleared (elib : EnvLib) {t : Htab} (hcount : (owned t.vars).length ≤ 256)
    {name : Text} (hlen : name.length ≤ 55) :
    lookup (rpi_cfgtxt_clear elib t).1 (ENV_PREFIX ++ name) = Option.none := by
  have hnone : (rpi_cfgtxt_clear elib t).1.find? (fun v => v.1 == ENV_PREFIX ++ name) =
      Option.none := by
    rw [List.find?_eq_none]
    intro v hv hname
    obtain ⟨hvars, hnew⟩ := List.mem_filter.mp (by rwa [clear_eq, delete_all_vars] at hv)
    have hv₁ : v.1 = ENV_PREFIX ++ name := by simpa using hname
    have hp : ENV_PREFIX.isPrefixOf v.1 = true := by
      rw [hv₁]
      exact List.isPrefixOf_iff_prefix.mpr (List.prefix_append _ _)
    apply of_decide_eq_true hnew
    rw [cut_names, NAMES_COUNT, List.take_of_length_le hcount]
    refine List.mem_map.mpr ⟨v, List.mem_filter.mpr ⟨hvars, hp⟩, ?_⟩
    apply List.take_of_length_le
    rw [hv₁, List.length_append, show ENV_PREFIX.length = 8 from rfl, NAME_SIZE]
    omega
  rw [lookup, hnone]
  rfl

/-- A clear of at most 256 variables and a parse of a text without include
    lines: the environment is what the text describes exactly when the last
    effective line that gives a variable a value gives the right one, and it
    is not empty.  Where no line gives a value to another kind's variable,
    this is so exactly when no value is empty. -/
theorem import_describes (lib : Vsprintf) (cb : Option IncludeFn) (opts : Opts) (elib : EnvLib)
    {t : Htab} (hcount : (owned t.vars).length ≤ 256) {buf : Text}
    (hinc : ∀ line ∈ buffered_lines buf, ¬ "include ".toList.isPrefixOf line = true) :
    ∃ ret evs, rpi_cfgtxt_parse lib cb opts buf = some (ret, evs) ∧
      (Describes lib opts (buffered_lines buf)
          ((lookup (rpi_cfgtxt_clear elib t).1).after (evs.map Event.call)) ↔
        LastGives lib opts (buffered_lines buf)) ∧
      (NoClash lib opts (buffered_lines buf) →
        (Describes lib opts (buffered_lines buf)
            ((lookup (rpi_cfgtxt_clear elib t).1).after (evs.map Event.call)) ↔
          NoEmptyValue lib opts (buffered_lines buf))) := by
  refine ⟨_, _, parse_no_include hinc, ?_⟩
  have hcalls : ((meaning lib opts (buffered_lines buf)).map (Event.mk 0)).map Event.call =
      meaning lib opts (buffered_lines buf) := by
    rw [List.map_map]
    exact List.map_id _
  have hlen : ∀ key ∈ multi_keys, (count_name key).length ≤ 55 := by decide
  have hiff := @describes_iff_last_gives lib opts _
    (fun key hkey => lookup_cleared elib hcount (hlen key hkey)) (buffered_lines buf)
  rw [hcalls]
  exact ⟨hiff, fun hclash => hiff.trans (last_gives_iff_no_empty hclash)⟩

/-- An environment without variables. -/
def empty_table : Htab := ⟨[], List.nodup_nil⟩

/-- A simple key and an overlay are imported as they stand. -/
theorem plain_text_described :
    ∃ ret evs, rpi_cfgtxt_parse plain_numbers Option.none pi4_board
        "kernel=k\ndtoverlay=a".toList = some (ret, evs) ∧
      Describes plain_numbers pi4_board ["kernel=k".toList, "dtoverlay=a".toList]
        ((lookup (rpi_cfgtxt_clear plain_env empty_table).1).after (evs.map Event.call)) := by
  have hlines : buffered_lines "kernel=k\ndtoverlay=a".toList =
      ["kernel=k".toList, "dtoverlay=a".toList] := by decide +kernel
  obtain ⟨ret, evs, hparse, -, hdescr⟩ := @import_describes plain_numbers Option.none pi4_board
    plain_env empty_table (by decide) "kernel=k\ndtoverlay=a".toList
    (by rw [hlines]; decide)
  rw [hlines] at hdescr
  refine ⟨ret, evs, hparse, (hdescr ?_).mpr ?_⟩
  all_goals
    have hvalues : ∀ key, values plain_numbers pi4_board key
        ["kernel=k".toList, "dtoverlay=a".toList] =
          (if "kernel".toList = key then ["k".toList] else []) ++
            if "dtoverlay".toList = key then ["a".toList] else [] := by
      intro key
      have h₁ : takes_effect plain_numbers pi4_board [] "kernel=k".toList =
          .entry "kernel".toList "k".toList := by decide +kernel
      have h₂ : takes_effect plain_numbers pi4_board ["kernel=k".toList] "dtoverlay=a".toList =
          .entry "dtoverlay".toList "a".toList := by decide +kernel
      simp only [values, history, along, List.nil_append, h₁, h₂, List.append_nil]
  · -- no line gives a value to a variable of another kind
    constructor
    · intro key hkey hne
      rw [hvalues] at hne
      by_cases hk : "kernel".toList = key
      · subst hk
        decide +kernel
      · by_cases hd : "dtoverlay".toList = key
        · exact absurd (hd ▸ by decide) hkey.1
        · rw [if_neg hk, if_neg hd] at hne
          exact absurd rfl hne
    · intro key hkey
      simp only [multi_keys, List.mem_cons, List.not_mem_nil, or_false] at hkey
      obtain rfl | rfl | rfl := hkey <;> decide +kernel
  · constructor
    · intro key _
      rw [hvalues]
      by_cases hk : "kernel".toList = key
      · subst hk
        decide
      · by_cases hd : "dtoverlay".toList = key
        · subst hd
          decide
        · rw [if_neg hk, if_neg hd]
          decide
    · decide +kernel

/-- An empty value deletes the variable, and a line with the name of an
    overlay's variable takes it over. -/
theorem empty_value_and_clash :
    (∃ ret evs, rpi_cfgtxt_parse plain_numbers Option.none pi4_board "kernel=\n".toList =
        some (ret, evs) ∧
      ¬ Describes plain_numbers pi4_board (buffered_lines "kernel=\n".toList)
        ((lookup (rpi_cfgtxt_clear plain_env empty_table).1).after (evs.map Event.call))) ∧
    ∃ ret evs, rpi_cfgtxt_parse plain_numbers Option.none pi4_board
        "dtoverlay=a\ndtoverlay_0=b\n".toList = some (ret, evs) ∧
      ¬ Describes plain_numbers pi4_board (buffered_lines "dtoverlay=a\ndtoverlay_0=b\n".toList)
        ((lookup (rpi_cfgtxt_clear plain_env empty_table).1).after (evs.map Event.call)) := by
  constructor
  · refine ⟨0, [env_set "rpi_cfg_kernel".toList []], by decide +kernel, ?_⟩
    rintro ⟨hsimple, -⟩
    have h := hsimple "kernel".toList ⟨by decide, by decide⟩ [] (by decide +kernel)
    exact absurd h (by decide +kernel)
  · refine ⟨0, [env_set "rpi_cfg_dtoverlay_0".toList "a".toList,
      env_set "rpi_cfg_dtoverlay_count".toList "1".toList,
      env_set "rpi_cfg_dtoverlay_0".toList "b".toList], by decide +kernel, ?_⟩
    rintro ⟨-, hmulti⟩
    have h := (hmulti "dtoverlay".toList (by decide)).2 0 (by decide +kernel)
    exact absurd h (by decide +kernel)

end Cfgtxt
