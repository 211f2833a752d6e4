import RpiQemu.Cfgtxt.Include

/-! # Indexed variables across included files

    The entries of `dtoverlay`, `dtparam` and `gpio` are numbered, and the
    numbers are part of the variables' names.  Each parse numbers its own
    entries from zero, and all the parses write one environment.

    * **Settings**: the effective `<key>=<value>` lines over a file and all
      the files it includes, in textual inclusion order (`settings`), each
      with the file it stands in.
    * **Calls**: the parse makes the calls of the settings, an entry under
      its number in its own file (`file_calls_settings`).
    * **Environment**: a variable holds the last value written (`after_eq`),
      so the indexed variables hold the entries exactly when the numbers in
      the files agree with those over all files; where no value is empty and
      no line names a variable directly, when the entries stand in one file
      (`includes_keep_entries`). -/

namespace Cfgtxt

open History

/-! ## Settings -/

/-- An effective `<key>=<value>` line.  Its file is known by the numbers of
    the include lines that lead to it. -/
structure Setting where
  file : List Nat
  key : Text
  value : Text
  deriving DecidableEq, Repr

def Setting.under (p : Nat) (s : Setting) : Setting := { s with file := p :: s.file }

/-- The settings on a line, when those of the included files are known. -/
def line_settings (lib : Vsprintf) (opts : Opts) (inner : Text → List Setting)
    (past : List Text) (line : Text) : List Setting :=
  match takes_effect lib opts past line with
  | .entry key value => [⟨[], key, value⟩]
  | .include_file file => (inner file).map (Setting.under past.length)
  | _ => []

/-- The settings of a file and of those it includes, to a nesting of `n`. -/
def settings (lib : Vsprintf) (files : Text → Option Text) : Nat → Opts → Text → List Setting
  | 0, opts, buf => history (line_settings lib opts (fun _ => [])) (buffered_lines buf)
  | n + 1, opts, buf =>
    history (line_settings lib opts (fun file =>
      match files file with
      | Option.none => []
      | some text =>
        settings lib files n { opts with include_depth := opts.include_depth + 1 } text))
      (buffered_lines buf)

/-- The number of a setting among those of its key in its own file. -/
def own_number (past : List Setting) (s : Setting) : Nat :=
  past.countP (fun t => t.file == s.file && t.key == s.key)

/-- The calls of the settings, each with its number in its own file. -/
def setting_calls (l : List Setting) : List Call :=
  history (fun past s => entry_sets s.key s.value (own_number past s)) l

/-- A call that is not made for an `initramfs` line. -/
def is_setting_call : Call → Bool
  | .env_set name _ =>
    name != "rpi_cfg_initramfs".toList && name != "rpi_cfg_initramfs_addr".toList
  | .parse _ => false

section

variable {lib : Vsprintf} {opts : Opts} {inner : Text → List Setting}

/-- The settings of the file itself, and of those included on earlier lines. -/
theorem line_settings_file {past : List Text} {s : Setting}
    (h : s ∈ history (line_settings lib opts inner) past) :
    s.file = [] ∨ ∃ q, q < past.length ∧ s.file.head? = some q := by
  induction past using List.reverseRecOn with
  | nil => exact absurd h List.not_mem_nil
  | append_singleton past line ih =>
    rw [history_snoc] at h
    simp only [List.length_append, List.length_singleton]
    rcases List.mem_append.mp h with h | h
    · rcases ih h with h | ⟨q, hq, h⟩
      · exact .inl h
      · exact .inr ⟨q, by omega, h⟩
    · unfold line_settings at h
      cases ht : takes_effect lib opts past line with
      | entry key value =>
        rw [ht] at h
        left
        rw [List.mem_singleton.mp h]
      | include_file file =>
        rw [ht] at h
        obtain ⟨t, -, rfl⟩ := List.mem_map.mp h
        exact .inr ⟨past.length, by omega, rfl⟩
      | initramfs file addr =>
        rw [ht] at h
        exact absurd h List.not_mem_nil
      | other =>
        rw [ht] at h
        exact absurd h List.not_mem_nil

/-- An entry's number in its file counts the lines that the file's counter
    counts. -/
theorem own_number_root (past : List Text) (key value : Text) :
    own_number (history (line_settings lib opts inner) past) ⟨[], key, value⟩ =
      (values lib opts key past).length := by
  induction past using List.reverseRecOn with
  | nil => rfl
  | append_singleton past line ih =>
    rw [history_snoc, values_snoc, List.length_append, ← ih]
    unfold own_number
    rw [List.countP_append]
    congr 1
    unfold line_settings
    cases takes_effect lib opts past line with
    | entry k v =>
      by_cases hk : k = key
      · simp [hk]
      · simp [hk]
    | include_file file =>
      apply List.countP_eq_zero.mpr
      intro s hs
      obtain ⟨t, -, rfl⟩ := List.mem_map.mp hs
      simp [Setting.under]
    | initramfs file addr => rfl
    | other => rfl

/-- The settings of an included file are numbered as in a parse of its own. -/
theorem along_included (past : List Text) (l : List Setting) :
    along (fun past s => entry_sets s.key s.value (own_number past s))
        (history (line_settings lib opts inner) past) (l.map (Setting.under past.length)) =
      setting_calls l := by
  have h := along_map (Setting.under past.length)
    (fun past s => entry_sets s.key s.value (own_number past s))
    (history (line_settings lib opts inner) past) [] l
  rw [List.map_nil, List.append_nil] at h
  rw [h]
  apply along_congr
  intro seen s
  -- no earlier setting stands in the file included on this line
  have hzero : (history (line_settings lib opts inner) past).countP
      (fun t => t.file == past.length :: s.file && t.key == s.key) = 0 := by
    apply List.countP_eq_zero.mpr
    intro t ht
    simp only [Bool.and_eq_true, beq_iff_eq, not_and]
    intro hfile
    rcases line_settings_file ht with h | ⟨q, hq, h⟩
    · simp [h] at hfile
    · rw [hfile] at h
      simp only [List.head?_cons, Option.some.injEq] at h
      omega
  have hnum : own_number (history (line_settings lib opts inner) past ++
      seen.map (Setting.under past.length)) (s.under past.length) = own_number seen s := by
    simp only [own_number, List.countP_append, List.countP_map]
    simp only [Setting.under, hzero, Nat.zero_add]
    apply List.countP_congr
    intro t _
    simp [Setting.under]
  simp only [List.nil_append, hnum]
  rfl

end

/-! ## The calls of a parse -/

/-- A parse whose callback makes the calls of the inner settings makes those
    of its own settings. -/
theorem file_calls_line_settings {lib : Vsprintf} {opts : Opts} {inner : Text → List Setting}
    {cb : Option IncludeFn}
    (hcb : ∀ file, (((included cb opts file).getD []).map Event.call).filter is_setting_call =
      (setting_calls (inner file)).filter is_setting_call) (lines : List Text) :
    ((history (fun past line => (line_does lib cb opts past line).getD []) lines).map
        Event.call).filter is_setting_call =
      (setting_calls (history (line_settings lib opts inner) lines)).filter is_setting_call := by
  induction lines using List.reverseRecOn with
  | nil => rfl
  | append_singleton past line ih =>
    unfold setting_calls at ih ⊢
    rw [history_snoc, history_snoc, List.map_append, List.filter_append, ih]
    unfold history
    rw [along_append, List.filter_append, List.nil_append]
    congr 1
    change _ = (along _ (history (line_settings lib opts inner) past) _).filter is_setting_call
    unfold line_does line_sets
    unfold line_settings
    cases takes_effect lib opts past line with
    | entry key value =>
      have hnum : own_number (history (line_settings lib opts inner) past) ⟨[], key, value⟩ =
          (values lib opts key past).length := own_number_root past key value
      unfold line_settings at hnum
      simp only [along, Option.getD_some, List.map_map, List.append_nil, hnum]
      congr 1
      exact List.map_id _
    | include_file file =>
      have hinc : along (fun past s => entry_sets s.key s.value (own_number past s))
          (history (line_settings lib opts inner) past)
          ((inner file).map (Setting.under past.length)) = setting_calls (inner file) :=
        along_included past (inner file)
      unfold line_settings at hinc
      simp only [hinc]
      exact hcb file
    | initramfs file addr => rfl
    | other => rfl

theorem map_call_deeper (evs : List Event) :
    (evs.map Event.deeper).map Event.call = evs.map Event.call := by
  rw [List.map_map]
  rfl

/-- The parse of a file makes the calls of its settings. -/
theorem file_calls_settings (lib : Vsprintf) (files : Text → Option Text) (n budget : Nat)
    (opts : Opts) (buf : Text) (hn : n + opts.include_depth = 8) (hbudget : n ≤ budget) :
    ((file_does lib (some (load lib files budget)) opts buf).map Event.call).filter
        is_setting_call =
      (setting_calls (settings lib files n opts buf)).filter is_setting_call := by
  induction n generalizing budget opts buf with
  | zero =>
    apply file_calls_line_settings
    intro file
    rw [included_deep (by omega)]
    rfl
  | succ n ih =>
    apply file_calls_line_settings
    intro file
    rw [included_load lib files (by omega)]
    cases budget with
    | zero => omega
    | succ budget =>
      cases hfile : files file with
      | none =>
        simp only [load, hfile]
        rfl
      | some text =>
        have hans : Answers (some (load lib files budget))
            { opts with include_depth := opts.include_depth + 1 } := by
          intro f
          by_cases hdeep : opts.include_depth + 1 < 8
          · rw [included_load lib files hdeep]
            obtain ⟨evs, hevs, -⟩ := load_answers lib files budget f
              { opts with include_depth := opts.include_depth + 1 + 1 } (by omega)
              (by simp only; omega) (by simp only; omega)
            rw [hevs]
            rfl
          · rw [included_deep hdeep]
            rfl
        rw [load_file lib files hfile hans, Option.getD_some, List.map_cons, map_call_deeper]
        rw [← ih budget { opts with include_depth := opts.include_depth + 1 } text
          (by simp only; omega) (by omega)]
        rfl

/-! ## The environment -/

/-- The environment: the value of each variable that is set. -/
abbrev Env := Text → Option Text

/-- U-Boot's `env_set`: an empty value deletes the variable. -/
def Env.set (env : Env) (name value : Text) : Env :=
  fun n => if n = name then (if value = [] then Option.none else some value) else env n

def Env.after (env : Env) (calls : List Call) : Env :=
  calls.foldl (fun env c =>
    match c with
    | .env_set name value => env.set name value
    | .parse _ => env) env

/-- What a call writes to a variable. -/
def Call.writes (name : Text) : Call → Option Text
  | .env_set n value => if n = name then some value else Option.none
  | .parse _ => Option.none

/-- A variable reads as the last value written to it. -/
theorem after_eq (env : Env) (calls : List Call) (name : Text) :
    env.after calls name =
      match (calls.filterMap (Call.writes name)).getLast? with
      | Option.none => env name
      | some value => if value = [] then Option.none else some value := by
  induction calls using List.reverseRecOn with
  | nil => rfl
  | append_singleton calls c ih =>
    unfold Env.after at ih ⊢
    rw [List.foldl_append, List.filterMap_append]
    cases c with
    | parse file =>
      simpa [Call.writes] using ih
    | env_set n value =>
      by_cases hn : n = name
      · subst hn
        simp [Call.writes, Env.set]
      · simpa [Call.writes, Env.set, hn, Ne.symm hn] using ih

/-- The calls that do not write a variable do not matter for it. -/
theorem filterMap_writes_filter {name : Text} (p : Call → Bool)
    (hp : ∀ c, (Call.writes name c).isSome → p c = true) (calls : List Call) :
    (calls.filter p).filterMap (Call.writes name) = calls.filterMap (Call.writes name) := by
  rw [List.filterMap_filter]
  apply List.filterMap_congr
  intro c _
  by_cases hc : p c = true
  · rw [if_pos hc]
  · rw [if_neg hc]
    by_contra hne
    exact hc (hp c (Option.isSome_iff_ne_none.mpr (Ne.symm hne)))

/-! ## The indexed variables -/

/-- The variables of a key, less the common prefix. -/
def slot_name (key : Text) (i : Nat) : Text := key ++ '_' :: decimal i

def count_name (key : Text) : Text := key ++ "_count".toList

/-- The values that the effective lines give the `i`-th variable of a key: the
    entries with that number in their own file, and lines that name the
    variable. -/
def slot_values (key : Text) (i : Nat) (l : List Setting) : List Text :=
  history (fun past s =>
    if s.key = key then (if own_number past s = i then [s.value] else [])
    else if s.key = slot_name key i ∧ s.key.length ≤ 55 then [s.value] else []) l

/-- The values that the effective lines give the count of a key. -/
def count_values (key : Text) (l : List Setting) : List Text :=
  history (fun past s =>
    if s.key = key then [decimal (own_number past s + 1)]
    else if s.key = count_name key then [s.value] else []) l

theorem decimal_inj {m n : Nat} : decimal m = decimal n ↔ m = n := by
  constructor
  · intro h
    have := congrArg (Nat.ofDigitChars 10 · 0) h
    simpa [decimal] using this
  · intro h
    rw [h]

theorem decimal_ne_count (n : Nat) : decimal n ≠ "count".toList := by
  intro h
  have hmem : 'c' ∈ decimal n := by
    rw [h]
    decide
  have := Nat.isDigit_of_mem_toDigits (by decide) (by decide) hmem
  exact absurd this (by decide)

theorem underscore_notMem {key : Text} (h : key ∈ multi_keys) : '_' ∉ key := by
  have hall : ∀ key ∈ multi_keys, '_' ∉ key := by decide
  exact hall key h

theorem append_sep_inj {c : Char} {x y : Text} (hx : c ∉ x) (hy : c ∉ y) (a b : Text) :
    x ++ c :: a = y ++ c :: b ↔ x = y ∧ a = b := by
  induction x generalizing y with
  | nil =>
    cases y with
    | nil => simp
    | cons d y =>
      have hd : c ≠ d := fun h => hy (h ▸ List.mem_cons_self)
      simp [hd]
  | cons e x ih =>
    cases y with
    | nil =>
      have he : e ≠ c := fun h => hx (h ▸ List.mem_cons_self)
      simp [he]
    | cons d y =>
      rw [List.cons_append, List.cons_append, List.cons.injEq, List.cons.injEq,
        ih (fun h => hx (List.mem_cons_of_mem _ h)) (fun h => hy (List.mem_cons_of_mem _ h)),
        and_assoc]

/-- Variables of multi-value keys are the same for the same key only. -/
theorem indexed_inj {k key : Text} (hk : k ∈ multi_keys) (hkey : key ∈ multi_keys) (a b : Text) :
    k ++ '_' :: a = key ++ '_' :: b ↔ k = key ∧ a = b :=
  append_sep_inj (underscore_notMem hk) (underscore_notMem hkey) a b

theorem plain_writes {key value : Text} (h : key ∉ multi_keys) (n : Nat) (name : Text) :
    (entry_sets key value n).filterMap (Call.writes (ENV_PREFIX ++ name)) =
      if key = name ∧ key.length ≤ 55 then [value] else [] := by
  rw [entry_sets, if_neg h]
  by_cases hlen : key.length ≤ 55
  · by_cases hn : key = name
    · rw [if_pos hlen, if_pos ⟨hn, hlen⟩]
      simp [hn, Call.writes]
    · rw [if_pos hlen, if_neg (fun h => hn h.1)]
      simp [hn, Call.writes]
  · rw [if_neg hlen, if_neg (fun h => hlen h.2)]
    rfl

theorem entry_writes {k value : Text} (h : k ∈ multi_keys) (n : Nat) {key : Text}
    (hkey : key ∈ multi_keys) (a : Text) :
    (entry_sets k value n).filterMap (Call.writes (ENV_PREFIX ++ (key ++ '_' :: a))) =
      if k = key then
        (if decimal n = a then [value] else []) ++
          (if "count".toList = a then [decimal (n + 1)] else [])
      else [] := by
  have hname : ∀ b, (ENV_PREFIX ++ k ++ '_' :: b = ENV_PREFIX ++ (key ++ '_' :: a)) =
      (k = key ∧ b = a) := by
    intro b
    rw [List.append_assoc, List.append_cancel_left_eq, indexed_inj h hkey]
  have hcount : ENV_PREFIX ++ k ++ "_count".toList = ENV_PREFIX ++ k ++ '_' :: "count".toList := rfl
  rw [entry_sets, if_pos h, hcount]
  simp only [List.filterMap_cons, List.filterMap_nil, Call.writes, hname]
  generalize "count".toList = w
  by_cases hk : k = key
  · by_cases h₁ : decimal n = a
    · by_cases h₂ : w = a
      · simp [hk, h₁, h₂]
      · simp [hk, h₁, h₂]
    · by_cases h₂ : w = a
      · simp [hk, h₁, h₂]
      · simp [hk, h₁, h₂]
  · simp [hk]

theorem slot_writes {key : Text} (hkey : key ∈ multi_keys) (i : Nat) (l : List Setting) :
    (setting_calls l).filterMap (Call.writes (ENV_PREFIX ++ slot_name key i)) =
      slot_values key i l := by
  unfold setting_calls slot_values history
  rw [filterMap_along]
  apply along_congr
  intro past s
  by_cases hk : s.key ∈ multi_keys
  · rw [slot_name, entry_writes hk _ hkey, if_neg (Ne.symm (decimal_ne_count i)), List.append_nil]
    by_cases he : s.key = key
    · simp only [he, if_true, decimal_inj]
    · have hne : s.key ≠ slot_name key i := by
        intro h
        exact underscore_notMem hk (h ▸ by simp [slot_name])
      rw [if_neg he, if_neg he, if_neg (fun h => hne h.1)]
  · have hne : s.key ≠ key := fun h => hk (h ▸ hkey)
    rw [plain_writes hk, if_neg hne]

theorem count_writes {key : Text} (hkey : key ∈ multi_keys) (l : List Setting) :
    (setting_calls l).filterMap (Call.writes (ENV_PREFIX ++ count_name key)) =
      count_values key l := by
  have hlen : (count_name key).length ≤ 55 := by
    have hall : ∀ key ∈ multi_keys, (count_name key).length ≤ 55 := by decide
    exact hall key hkey
  unfold setting_calls count_values history
  rw [filterMap_along]
  apply along_congr
  intro past s
  by_cases hk : s.key ∈ multi_keys
  · have hcount : count_name key = key ++ '_' :: "count".toList := rfl
    rw [hcount, entry_writes hk _ hkey, if_neg (decimal_ne_count _), if_pos rfl, List.nil_append]
    by_cases he : s.key = key
    · rw [if_pos he, if_pos he]
    · have hne : s.key ≠ key ++ '_' :: "count".toList := by
        intro h
        exact underscore_notMem hk (h ▸ by simp)
      rw [if_neg he, if_neg he, if_neg hne]
  · have hne : s.key ≠ key := fun h => hk (h ▸ hkey)
    rw [plain_writes hk, if_neg hne]
    by_cases hc : s.key = count_name key
    · rw [if_pos ⟨hc, hc ▸ hlen⟩, if_pos hc]
    · rw [if_neg (fun h => hc h.1), if_neg hc]

/-! ## Keeping the entries -/

/-- The non-empty values of a key, in textual inclusion order. -/
def entries (key : Text) (l : List Setting) : List Text :=
  (l.filter (fun s => s.key == key && s.value != [])).map Setting.value

/-- The variables of a key hold these values; a count that is not set reads
    as zero. -/
def Kept (env : Env) (key : Text) (vs : List Text) : Prop :=
  (env (ENV_PREFIX ++ count_name key)).getD (decimal 0) = decimal vs.length ∧
  ∀ i < vs.length, env (ENV_PREFIX ++ slot_name key i) = vs[i]?

/-- The numbers that lines have in their own files agree with those over all
    files: the last line for the number `i` has the `i`-th value, and the last
    line for the count gives the number of values. -/
def NumbersAgree (key : Text) (l : List Setting) : Prop :=
  ((count_values key l).getLast?.filter (· != [])).getD (decimal 0) =
    decimal (entries key l).length ∧
  ∀ i < (entries key l).length, (slot_values key i l).getLast? = (entries key l)[i]?

/-- The entries of a key stand in one file. -/
def OneFile (key : Text) (l : List Setting) : Prop :=
  ∀ s ∈ l, ∀ t ∈ l, s.key = key → t.key = key → s.file = t.file

/-- No line names a variable of a key directly. -/
def NoneNamed (key : Text) (l : List Setting) : Prop :=
  ∀ s ∈ l, s.key ≠ count_name key ∧ ∀ i, s.key ≠ slot_name key i

/-- No entry of a key has an empty value. -/
def NoneEmpty (key : Text) (l : List Setting) : Prop :=
  ∀ s ∈ l, s.key = key → s.value ≠ []

section

variable {key : Text} {l : List Setting} {env : Env} {calls : List Call}

theorem entries_ne_nil {i : Nat} {v : Text} (h : (entries key l)[i]? = some v) : v ≠ [] := by
  have hmem := List.mem_of_getElem? h
  obtain ⟨s, hs, rfl⟩ := List.mem_map.mp hmem
  have := (List.mem_filter.mp hs).2
  simp only [Bool.and_eq_true, bne_iff_ne, ne_eq] at this
  exact this.2

/-- No variable of a multi-value key is one of an `initramfs` line. -/
theorem is_setting_call_indexed (hkey : key ∈ multi_keys) (a value : Text) :
    is_setting_call (.env_set (ENV_PREFIX ++ (key ++ '_' :: a)) value) = true := by
  have hhead : ∀ name : Text, (name.drop 8).head? = some 'i' →
      ENV_PREFIX ++ (key ++ '_' :: a) ≠ name := by
    intro name hname heq
    rw [← heq] at hname
    simp only [multi_keys, List.mem_cons, List.not_mem_nil, or_false] at hkey
    rcases hkey with rfl | rfl | rfl
    · exact absurd (Option.some.inj hname) (by decide : 'd' ≠ 'i')
    · exact absurd (Option.some.inj hname) (by decide : 'd' ≠ 'i')
    · exact absurd (Option.some.inj hname) (by decide : 'g' ≠ 'i')
  simp only [is_setting_call, Bool.and_eq_true, bne_iff_ne]
  exact ⟨hhead _ (by decide), hhead _ (by decide)⟩

/-- The environment holds the entries exactly when the numbers agree. -/
theorem kept_iff_numbers_agree (hkey : key ∈ multi_keys)
    (henv : ∀ name, env (ENV_PREFIX ++ name) = Option.none)
    (hcalls : calls.filter is_setting_call = (setting_calls l).filter is_setting_call) :
    Kept (env.after calls) key (entries key l) ↔ NumbersAgree key l := by
  -- An indexed name is written by the setting calls alone, so the others drop out.
  have hread : ∀ a, env.after calls (ENV_PREFIX ++ (key ++ '_' :: a)) =
      match ((setting_calls l).filterMap
          (Call.writes (ENV_PREFIX ++ (key ++ '_' :: a)))).getLast? with
      | Option.none => Option.none
      | some value => if value = [] then Option.none else some value := by
    intro a
    have hset : ∀ c, (Call.writes (ENV_PREFIX ++ (key ++ '_' :: a)) c).isSome →
        is_setting_call c = true := by
      intro c hc
      cases c with
      | parse file => exact absurd hc (by simp [Call.writes])
      | env_set name value =>
        have hname : name = ENV_PREFIX ++ (key ++ '_' :: a) := by
          by_contra hne
          simp [Call.writes, hne] at hc
        rw [hname]
        exact is_setting_call_indexed hkey a value
    rw [after_eq, ← filterMap_writes_filter is_setting_call hset calls, hcalls,
      filterMap_writes_filter is_setting_call hset, henv]
  have hcount := hread "count".toList
  rw [show key ++ '_' :: "count".toList = count_name key from rfl, count_writes hkey] at hcount
  have hslot : ∀ i, env.after calls (ENV_PREFIX ++ slot_name key i) =
      match (slot_values key i l).getLast? with
      | Option.none => Option.none
      | some value => if value = [] then Option.none else some value := by
    intro i
    rw [← slot_writes hkey]
    exact hread (decimal i)
  have hcount' : env.after calls (ENV_PREFIX ++ count_name key) =
      (count_values key l).getLast?.filter (· != []) := by
    rw [hcount]
    cases (count_values key l).getLast? with
    | none => rfl
    | some v =>
      by_cases hv : v = []
      · simp [hv, Option.filter]
      · simp [hv, Option.filter]
  -- An entry is never empty, so the deletion by an empty value is no match for it.
  have hslots : ∀ i < (entries key l).length,
      (env.after calls (ENV_PREFIX ++ slot_name key i) = (entries key l)[i]? ↔
        (slot_values key i l).getLast? = (entries key l)[i]?) := by
    intro i hi
    obtain ⟨v, hv⟩ : ∃ v, (entries key l)[i]? = some v :=
      ⟨_, List.getElem?_eq_getElem hi⟩
    have hne := entries_ne_nil hv
    rw [hslot i, hv]
    cases (slot_values key i l).getLast? with
    | none => simp
    | some w =>
      by_cases hw : w = []
      · simp [hw, Ne.symm hne]
      · simp [hw]
  unfold Kept NumbersAgree
  rw [hcount']
  constructor
  · rintro ⟨h₁, h₂⟩
    exact ⟨h₁, fun i hi => (hslots i hi).mp (h₂ i hi)⟩
  · rintro ⟨h₁, h₂⟩
    exact ⟨h₁, fun i hi => (hslots i hi).mpr (h₂ i hi)⟩

/-! ### Entries in one file -/

theorem entries_snoc (l : List Setting) (s : Setting) :
    entries key (l ++ [s]) =
      entries key l ++ if s.key = key ∧ s.value ≠ [] then [s.value] else [] := by
  unfold entries
  rw [List.filter_append, List.map_append]
  congr 1
  by_cases hk : s.key = key
  · by_cases hv : s.value = []
    · simp [hk, hv]
    · simp [hk, hv]
  · simp [hk]

theorem entries_length (h : NoneEmpty key l) :
    (entries key l).length = l.countP (fun s => s.key == key) := by
  unfold entries
  rw [List.length_map, List.countP_eq_length_filter]
  congr 1
  apply List.filter_congr
  intro s hs
  by_cases hk : s.key = key
  · simp [hk, h s hs hk]
  · simp [hk]

/-- The number in the own file is the number over all files exactly when
    the entries before stand in the same file. -/
theorem own_number_eq_iff {s : Setting} (hs : s.key = key) :
    own_number l s = l.countP (fun t => t.key == key) ↔
      ∀ t ∈ l, t.key = key → t.file = s.file := by
  unfold own_number
  rw [hs]
  induction l with
  | nil => simp
  | cons t l ih =>
    have hle : l.countP (fun t => t.file == s.file && t.key == key) ≤
        l.countP (fun t => t.key == key) := by
      apply List.countP_mono_left
      intro t _ ht
      simp only [Bool.and_eq_true] at ht
      exact ht.2
    rw [List.countP_cons, List.countP_cons]
    by_cases hk : t.key = key
    · by_cases hf : t.file = s.file
      · simp [hk, hf, ← ih]
      · simp only [hk, hf, beq_self_eq_true, if_true, beq_iff_eq, Bool.and_true, if_false,
          List.mem_cons, forall_eq_or_imp, forall_const, false_and, iff_false]
        omega
    · simp [hk, ← ih]

theorem one_file_snoc {s : Setting} (hs : s.key = key) :
    OneFile key (l ++ [s]) ↔ ∀ t ∈ l, t.key = key → t.file = s.file := by
  constructor
  · intro h t ht hk
    exact h t (by simp [ht]) s (by simp) hk hs
  · intro h
    have hfile : ∀ t ∈ l ++ [s], t.key = key → t.file = s.file := by
      intro t ht hk
      rcases List.mem_append.mp ht with ht | ht
      · exact h t ht hk
      · rw [List.mem_singleton.mp ht]
    intro t ht u hu hkt hku
    rw [hfile t ht hkt, hfile u hu hku]

/-- The count alone says whether the entries stand in one file. -/
theorem one_file_of_count (hnamed : NoneNamed key l) (hempty : NoneEmpty key l)
    (hcount : ((count_values key l).getLast?.filter (· != [])).getD (decimal 0) =
      decimal (entries key l).length) : OneFile key l := by
  induction l using List.reverseRecOn with
  | nil =>
    intro s hs
    exact absurd hs List.not_mem_nil
  | append_singleton l s ih =>
    have hnamed' : NoneNamed key l := fun t ht => hnamed t (by simp [ht])
    have hempty' : NoneEmpty key l := fun t ht => hempty t (by simp [ht])
    have hs := hnamed s (by simp)
    rw [entries_length hempty, count_values, history_snoc, List.countP_append] at hcount
    by_cases hk : s.key = key
    · -- the last entry's number counts all the entries before it
      have hne : decimal (own_number l s + 1) ≠ [] := Nat.toDigits_ne_nil
      simp only [hk, if_true, List.getLast?_append, List.getLast?_singleton, Option.some_or,
        Option.filter_some, bne_iff_ne, ne_eq, hne, not_false_eq_true, Option.getD_some,
        decimal_inj, List.countP_singleton, beq_self_eq_true] at hcount
      apply (one_file_snoc hk).mpr
      apply (own_number_eq_iff hk).mp
      omega
    · have hone : OneFile key l := by
        apply ih hnamed' hempty'
        rw [entries_length hempty']
        simpa [hk, hs.1, count_values] using hcount
      intro t ht u hu hkt hku
      rcases List.mem_append.mp ht with ht | ht
      · rcases List.mem_append.mp hu with hu | hu
        · exact hone t ht u hu hkt hku
        · exact absurd (List.mem_singleton.mp hu ▸ hku) hk
      · exact absurd (List.mem_singleton.mp ht ▸ hkt) hk

/-- In one file, the number of an entry is its place among the entries. -/
theorem slot_values_one_file (hnamed : NoneNamed key l) (hempty : NoneEmpty key l)
    (h : OneFile key l) (i : Nat) : slot_values key i l = (entries key l)[i]?.toList := by
  induction l using List.reverseRecOn with
  | nil => rfl
  | append_singleton l s ih =>
    have hnamed' : NoneNamed key l := fun t ht => hnamed t (by simp [ht])
    have hempty' : NoneEmpty key l := fun t ht => hempty t (by simp [ht])
    have hone' : OneFile key l := fun t ht u hu => h t (by simp [ht]) u (by simp [hu])
    have hih := ih hnamed' hempty' hone'
    unfold slot_values at hih ⊢
    rw [history_snoc, hih, entries_snoc]
    by_cases hk : s.key = key
    · have hnum : own_number l s = (entries key l).length := by
        rw [entries_length hempty']
        exact (own_number_eq_iff hk).mpr ((one_file_snoc hk).mp h)
      rw [if_pos hk, hnum,
        if_pos (show s.key = key ∧ s.value ≠ [] from ⟨hk, hempty s (by simp) hk⟩)]
      rcases Nat.lt_trichotomy i (entries key l).length with hi | hi | hi
      · rw [if_neg (by omega), List.append_nil, List.getElem?_append_left hi]
      · rw [if_pos hi.symm, hi]
        simp
      · rw [if_neg (by omega), List.append_nil, List.getElem?_eq_none (by omega),
          List.getElem?_eq_none (by simp; omega)]
    · have hs := (hnamed s (by simp)).2 i
      rw [if_neg hk, if_neg (fun h => hs h.1), if_neg (fun h => hk h.1)]
      simp

theorem count_values_one_file (hnamed : NoneNamed key l) (hempty : NoneEmpty key l)
    (h : OneFile key l) :
    ((count_values key l).getLast?.filter (· != [])).getD (decimal 0) =
      decimal (entries key l).length := by
  induction l using List.reverseRecOn with
  | nil => simp [count_values, entries]
  | append_singleton l s ih =>
    have hnamed' : NoneNamed key l := fun t ht => hnamed t (by simp [ht])
    have hempty' : NoneEmpty key l := fun t ht => hempty t (by simp [ht])
    have hone' : OneFile key l := fun t ht u hu => h t (by simp [ht]) u (by simp [hu])
    have hih := ih hnamed' hempty' hone'
    unfold count_values at hih ⊢
    rw [history_snoc, entries_snoc]
    by_cases hk : s.key = key
    · have hnum : own_number l s = (entries key l).length := by
        rw [entries_length hempty']
        exact (own_number_eq_iff hk).mpr ((one_file_snoc hk).mp h)
      have hne : decimal ((entries key l).length + 1) ≠ [] := Nat.toDigits_ne_nil
      rw [if_pos hk, hnum,
        if_pos (show s.key = key ∧ s.value ≠ [] from ⟨hk, hempty s (by simp) hk⟩)]
      simp [Option.filter, hne]
    · have hs := (hnamed s (by simp)).1
      rw [if_neg hk, if_neg hs, if_neg (fun h => hk h.1), List.append_nil, List.append_nil]
      exact hih

theorem numbers_agree_iff_one_file (hnamed : NoneNamed key l) (hempty : NoneEmpty key l) :
    NumbersAgree key l ↔ OneFile key l := by
  constructor
  · intro h
    exact one_file_of_count hnamed hempty h.1
  · intro h
    refine ⟨count_values_one_file hnamed hempty h, ?_⟩
    intro i hi
    rw [slot_values_one_file hnamed hempty h, List.getElem?_eq_getElem hi]
    rfl

end

/-! ## Every tree of files -/

/-- From an environment without `rpi_cfg_*` variables, the variables of a
    multi-value key hold its entries over all the files exactly when the
    numbers agree; where no entry is empty and no line names a variable of the
    key, exactly when the entries stand in one file. -/
theorem includes_keep_entries (lib : Vsprintf) (files : Text → Option Text) (opts : Opts)
    (buf : Text) (env : Env) (key : Text) (hdepth : opts.include_depth = 0)
    (hkey : key ∈ multi_keys) (henv : ∀ name, env (ENV_PREFIX ++ name) = Option.none) :
    ∃ ret evs,
      (∀ budget, 8 ≤ budget →
        rpi_cfgtxt_parse lib (some (load lib files budget)) opts buf = some (ret, evs)) ∧
      (Kept (env.after (evs.map Event.call)) key (entries key (settings lib files 8 opts buf)) ↔
        NumbersAgree key (settings lib files 8 opts buf)) ∧
      (NoneNamed key (settings lib files 8 opts buf) →
        NoneEmpty key (settings lib files 8 opts buf) →
        (Kept (env.after (evs.map Event.call)) key
            (entries key (settings lib files 8 opts buf)) ↔
          OneFile key (settings lib files 8 opts buf))) := by
  have hparse : ∀ budget, 8 ≤ budget →
      rpi_cfgtxt_parse lib (some (load lib files budget)) opts buf =
        some (if buf = [] then -EINVAL else 0,
          file_does lib (some (load lib files 8)) opts buf) := by
    intro budget hbudget
    rw [← parse_eq_file_does (load_answers_root lib files (Nat.le_refl 8) hdepth)]
    apply parse_congr
    intro f
    rw [included_load lib files (by omega), included_load lib files (by omega)]
    exact load_budget lib files 8 budget f _ (by omega) (by simp only; omega) hbudget
  have hkept := @kept_iff_numbers_agree key _ env _ hkey henv
    (file_calls_settings lib files 8 8 opts buf (by omega) (Nat.le_refl 8))
  refine ⟨_, _, hparse, hkept, ?_⟩
  intro hnamed hempty
  rw [hkept]
  exact numbers_agree_iff_one_file hnamed hempty

/-- A file with an entry of its own. -/
def one_entry (file : Text) : Option Text :=
  if file = "x".toList then some "dtoverlay=b\n".toList else Option.none

/-- Entries in the included file only are kept. -/
theorem included_entries_kept :
    ∃ ret evs,
      rpi_cfgtxt_parse plain_numbers (some (load plain_numbers one_entry 8)) pi4_board
        "kernel=k\ninclude x\n".toList = some (ret, evs) ∧
      Kept (Env.after (fun _ => Option.none) (evs.map Event.call)) "dtoverlay".toList
        ["b".toList] := by
  obtain ⟨ret, evs, hparse, -, hkept⟩ := includes_keep_entries plain_numbers one_entry pi4_board
    "kernel=k\ninclude x\n".toList (fun _ => Option.none) "dtoverlay".toList rfl (by decide)
    (fun _ => rfl)
  have hset : settings plain_numbers one_entry 8 pi4_board "kernel=k\ninclude x\n".toList =
      [⟨[], "kernel".toList, "k".toList⟩, ⟨[1], "dtoverlay".toList, "b".toList⟩] := by
    decide +kernel
  rw [hset] at hkept
  refine ⟨ret, evs, hparse 8 (Nat.le_refl 8), (hkept ?_ ?_).mpr ?_⟩
  · intro s hs
    constructor
    · revert s
      decide
    · intro i h
      have hmem : '_' ∈ s.key := by
        rw [h]
        simp [slot_name]
      clear h
      revert s
      decide
  · unfold NoneEmpty
    decide
  · unfold OneFile
    decide

/-- An entry in the parent and one in the included file: the second takes
    the first one's variable, and the count stays at one. -/
theorem included_entry_overwrites :
    ∃ ret evs,
      rpi_cfgtxt_parse plain_numbers (some (load plain_numbers one_entry 8)) pi4_board
        "dtoverlay=a\ninclude x\n".toList = some (ret, evs) ∧
      entries "dtoverlay".toList (settings plain_numbers one_entry 8 pi4_board
        "dtoverlay=a\ninclude x\n".toList) = ["a".toList, "b".toList] ∧
      ¬ Kept (Env.after (fun _ => Option.none) (evs.map Event.call)) "dtoverlay".toList
        ["a".toList, "b".toList] := by
  refine ⟨0, [env_set "rpi_cfg_dtoverlay_0".toList "a".toList,
    env_set "rpi_cfg_dtoverlay_count".toList "1".toList,
    ⟨1, .parse "x".toList⟩,
    ⟨1, .env_set "rpi_cfg_dtoverlay_0".toList "b".toList⟩,
    ⟨1, .env_set "rpi_cfg_dtoverlay_count".toList "1".toList⟩], by decide +kernel,
    by decide +kernel, ?_⟩
  intro h
  exact absurd h.1 (by decide +kernel)

end Cfgtxt
