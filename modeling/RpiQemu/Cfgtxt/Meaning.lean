import RpiQemu.Framework.History
import RpiQemu.Cfgtxt.Parser

/-! # What a config.txt means

    The parser keeps six filter registers, a flag and three counters.  The
    meaning of a file has none of them: whether a line takes effect depends
    on the headers before it, and the number of an indexed entry on the
    effective lines before it.

    * **Meaning**: `meaning`, line by line from the lines before.
    * **Lines**: the parse loop runs over `text_lines` (`parse_loop_eq_run`).
    * **In step**: the registers say what the headers so far say
      (`InStep`), so the parser's calls are those of the meaning
      (`parse_calls_meaning`). -/

namespace Cfgtxt

open History

/-! ## Headers -/

/-- The filter types. -/
inductive Kind where
  | model | serial | partition | tryboot | edid | gpio
  deriving DecidableEq, Repr

/-- What a section header says. -/
inductive Header where
  | all
  | none
  | filter (kind : Kind) (ok : Bool)
  deriving DecidableEq, Repr

/-- A header has a closing bracket and 1 to 63 bytes before the first one. -/
def header_name : Text → Option Text
  | '[' :: rest =>
    if ']' ∈ rest ∧ 1 ≤ (rest.takeWhile (· != ']')).length ∧
        (rest.takeWhile (· != ']')).length ≤ 63 then
      some (rest.takeWhile (· != ']'))
    else Option.none
  | _ => Option.none

section

variable (lib : Vsprintf) (opts : Opts)

/-- The type of a header, and whether it matches the options. -/
def header (name : Text) : Header :=
  if name = "all".toList then .all
  else if name = "none".toList then .none
  else if name = "tryboot".toList then .filter .tryboot opts.tryboot
  else if "serial=".toList.isPrefixOf name then
    .filter .serial (lib.hextoull (name.drop 7) == opts.serial)
  else if "partition=".toList.isPrefixOf name then
    .filter .partition
      (Int.bmod (lib.dectoul (name.drop 10)) (2 ^ 32) == opts.boot_partition)
  else if "EDID=".toList.isPrefixOf name then .filter .edid false
  else if is_gpio_section name then .filter .gpio false
  else .filter .model (model_matches_section opts.model name)

/-- The headers among the lines so far, the most recent one first. -/
def headers (lines : List Text) : List Header :=
  lines.reverse.filterMap (fun line => (header_name line).map (header lib opts))

/-- The verdict of a header on a filter type. -/
def Header.holds_of (k : Kind) : Header → Option Bool
  | .filter kind ok => if kind = k then some ok else Option.none
  | _ => Option.none

/-- The most recent header of a type since the last `[all]`. -/
def latest (k : Kind) (hs : List Header) : Option Bool :=
  (hs.takeWhile (· != .all)).findSome? (Header.holds_of k)

/-- The most recent header is not `[none]`, and since the last `[all]` the
    most recent one of each type matches. -/
def effective (lines : List Text) : Bool :=
  (headers lib opts lines).head? != some .none &&
  [Kind.model, .serial, .partition, .tryboot, .edid, .gpio].all
    (fun k => latest k (headers lib opts lines) != some false)

/-! ## Directives -/

/-- A directive line, by its kind. -/
inductive Directive where
  | initramfs (file : Text) (addr : Option Text)
  | include_file (file : Text)
  | entry (key value : Text)
  | other
  deriving DecidableEq, Repr

/-- The keys that may stand on several lines. -/
def multi_keys : List Text := ["dtoverlay".toList, "dtparam".toList, "gpio".toList]

/-- The words of a blank-separated line: the first one, and what follows. -/
def words (args : Text) : Text × Text :=
  let file := args.dropWhile is_blank
  (file.takeWhile (fun c => !is_blank c),
    (file.dropWhile (fun c => !is_blank c)).dropWhile is_blank)

def directive (line : Text) : Directive :=
  if "initramfs ".toList.isPrefixOf line then
    match words (line.drop 10) with
    | ([], _) => .other
    | (file, []) => .initramfs file Option.none
    | (file, addr) => .initramfs file (some addr)
  else if "include ".toList.isPrefixOf line then
    match (line.drop 8).dropWhile is_blank with
    | [] => .other
    | file => .include_file file
  else if '=' ∈ line then
    .entry (line.takeWhile (· != '=')) ((line.dropWhile (· != '=')).drop 1)
  else .other

/-- Neither blank, nor a comment, nor a header. -/
def is_directive (line : Text) : Bool :=
  line != [] && line.head? != some '#' && line.head? != some '['

/-- The directive that a line carries out, with the lines before it. -/
def takes_effect (past : List Text) (line : Text) : Directive :=
  if is_directive line && effective lib opts past then directive line else .other

/-- The values of a key on the effective lines so far. -/
def values (key : Text) (lines : List Text) : List Text :=
  history (fun past line =>
    match takes_effect lib opts past line with
    | .entry k value => if k = key then [value] else []
    | _ => []) lines

/-- The variables an entry sets when `i` effective lines before it have its
    key. -/
def entry_sets (key value : Text) (i : Nat) : List Call :=
  if key ∈ multi_keys then
    [.env_set (ENV_PREFIX ++ key ++ '_' :: decimal i) value,
     .env_set (ENV_PREFIX ++ key ++ "_count".toList) (decimal (i + 1))]
  else if key.length ≤ 55 then [.env_set (ENV_PREFIX ++ key) value]
  else []

/-- The variables a line sets, with the lines before it. -/
def line_sets (past : List Text) (line : Text) : List Call :=
  match takes_effect lib opts past line with
  | .initramfs file addr =>
    [.env_set "rpi_cfg_initramfs".toList file,
     .env_set "rpi_cfg_initramfs_addr".toList (addr.getD "followkernel".toList)]
  | .entry key value => entry_sets key value (values lib opts key past).length
  | _ => []

/-- The `env_set` calls a file stands for. -/
def meaning (lines : List Text) : List Call :=
  history (line_sets lib opts) lines

end

/-- A line's text: without the CR at its end and the blanks before it, at
    most 511 bytes, without blanks at the end of these. -/
def clean (raw : Text) : Text :=
  (((drop_cr raw).dropWhile is_blank).take 511).rdropWhile is_blank

def text_lines (buf : Text) : List Text :=
  (buf.splitOn '\n').map clean

/-! ## The parse loop runs over the lines -/

/-- What the parser finds in its buffer, line by line. -/
def buffered_lines (buf : Text) : List Text :=
  (buf.splitOn '\n').map line_buf

/-- The loop takes one line and goes on behind its LF. -/
theorem buffered_lines_eq (buf : Text) :
    buffered_lines buf = (copy_line buf).1 ::
      (if '\n' ∈ buf then buffered_lines (copy_line buf).2 else []) := by
  have hfree : ∀ c ∈ buf.takeWhile (· != '\n'), (c == '\n') = false := by
    intro c hc
    simpa using List.mem_takeWhile_imp hc
  have hcut := List.takeWhile_append_dropWhile (p := (· != '\n')) (l := buf)
  unfold buffered_lines copy_line
  cases hd : buf.dropWhile (· != '\n') with
  | nil =>
    -- no LF: the line is the whole text
    rw [hd, List.append_nil] at hcut
    have hno : '\n' ∉ buf := by
      intro hmem
      have := List.dropWhile_eq_nil_iff.mp hd '\n' hmem
      simp at this
    rw [List.splitOn_eq_splitOnP, List.splitOnP_eq_singleton (hcut ▸ hfree), hcut, if_neg hno]
    rfl
  | cons c rest =>
    have hc : c = '\n' := by
      have h := List.head?_dropWhile_not (· != '\n') buf
      rw [hd] at h
      simpa using h
    subst hc
    have hmem : '\n' ∈ buf := by
      rw [← hcut, hd]
      simp
    rw [if_pos hmem]
    conv_lhs => rw [← hcut, hd]
    rw [List.splitOn_eq_splitOnP,
      List.splitOnP_append_cons_of_forall_mem hfree '\n' (by simp)]
    rfl

theorem copy_line_rest_length (c : Char) (cs : Text) :
    (copy_line (c :: cs)).2.length ≤ cs.length := by
  have h : ((c :: cs).dropWhile (· != '\n')).length ≤ (c :: cs).length :=
    (List.dropWhile_suffix _).length_le
  simp only [copy_line, List.length_drop, List.length_cons] at h ⊢
  omega

theorem copy_line_rest_nil {buf : Text} (h : '\n' ∉ buf) : (copy_line buf).2 = [] := by
  have hd : buf.dropWhile (· != '\n') = [] := by
    rw [List.dropWhile_eq_nil_iff]
    intro c hc
    simp only [bne_iff_ne, ne_eq]
    intro he
    exact h (he ▸ hc)
  simp [copy_line, hd]

/-- A turn of the loop for each byte is enough. -/
theorem parse_loop_eq_run (lib : Vsprintf) (cb : Option IncludeFn) (opts : Opts)
    (fuel : Nat) (state : State) (buf : Text) (hfuel : buf.length ≤ fuel) :
    parse_loop lib cb opts fuel state buf =
      run (fun st line => parse_line lib cb opts line st) state (buffered_lines buf) := by
  induction fuel generalizing state buf with
  | zero =>
    have hnil : buf = [] := List.length_eq_zero_iff.mp (by omega)
    subst hnil
    rfl
  | succ fuel ih =>
    cases buf with
    | nil => rfl
    | cons c cs =>
      have hlen : (copy_line (c :: cs)).2.length ≤ fuel := by
        have h := copy_line_rest_length c cs
        simp only [List.length_cons] at hfuel
        omega
      rw [buffered_lines_eq]
      simp only [parse_loop, run]
      cases parse_line lib cb opts (copy_line (c :: cs)).1 state with
      | none => rfl
      | some r =>
        by_cases hlf : '\n' ∈ c :: cs
        · rw [if_pos hlf]
          simp only [ih r.1 _ hlen]
          cases run (fun st line => parse_line lib cb opts line st) r.1
            (buffered_lines (copy_line (c :: cs)).2) <;> rfl
        · rw [if_neg hlf, copy_line_rest_nil hlf]
          cases fuel <;> rfl

theorem mem_of_mem_splitOn {a x : Char} {buf seg : Text} (hseg : seg ∈ buf.splitOn a)
    (hx : x ∈ seg) : x ∈ buf := by
  induction buf generalizing seg with
  | nil => simp_all
  | cons b bs ih =>
    rw [List.splitOn_cons_eq_if_modifyHead] at hseg
    by_cases hb : (b == a) = true
    · simp only [hb, if_true, List.mem_cons] at hseg
      rcases hseg with rfl | hseg
      · simp at hx
      · exact List.mem_cons_of_mem _ (ih hseg hx)
    · obtain ⟨h, t, he⟩ := List.exists_cons_of_ne_nil (List.splitOn_ne_nil a bs)
      rw [if_neg hb, he, List.modifyHead_cons] at hseg
      rcases List.mem_cons.mp hseg with rfl | hseg
      · rcases List.mem_cons.mp hx with rfl | hx
        · exact List.mem_cons_self
        · exact List.mem_cons_of_mem _ (ih (by simp [he]) hx)
      · exact List.mem_cons_of_mem _ (ih (by simp [he, hseg]) hx)

/-- Without NULs, the buffered lines are the lines of the text. -/
theorem buffered_lines_clean {buf : Text} (hnul : '\x00' ∉ buf) :
    buffered_lines buf = text_lines buf := by
  apply List.map_congr_left
  intro raw hraw
  apply List.takeWhile_eq_self_iff.mpr
  intro c hc
  have hmem : c ∈ raw := by
    have h₁ := (List.rdropWhile_prefix is_blank _).subset hc
    have h₂ := (List.dropWhile_suffix _).subset (List.mem_of_mem_take h₁)
    unfold drop_cr at h₂
    by_cases hcr : raw.getLast? = some '\r'
    · rw [if_pos hcr] at h₂
      exact List.dropLast_subset raw h₂
    · rw [if_neg hcr] at h₂
      exact h₂
  simp only [bne_iff_ne, ne_eq]
  intro he
  exact hnul (he ▸ mem_of_mem_splitOn hraw hmem)

/-! ## The registers are in step with the headers -/

/-- The register of a filter type. -/
def State.filter (st : State) : Kind → FilterState
  | .model => st.model_filter
  | .serial => st.serial_filter
  | .partition => st.partition_filter
  | .tryboot => st.tryboot_filter
  | .edid => st.edid_filter
  | .gpio => st.gpio_filter

/-- The state with the register of a filter type set. -/
def State.set_filter (st : State) (f : FilterState) : Kind → State
  | .model => { st with model_filter := f }
  | .serial => { st with serial_filter := f }
  | .partition => { st with partition_filter := f }
  | .tryboot => { st with tryboot_filter := f }
  | .edid => { st with edid_filter := f }
  | .gpio => { st with gpio_filter := f }

/-- The counter of a key. -/
def State.count (st : State) (key : Text) : Nat :=
  if key = "dtoverlay".toList then st.dtoverlay_count
  else if key = "dtparam".toList then st.dtparam_count
  else st.gpio_count

/-- What a header does to the state. -/
def Header.on (h : Header) (st : State) : State :=
  match h with
  | .all =>
    { st with
      model_filter := .unset
      serial_filter := .unset
      partition_filter := .unset
      tryboot_filter := .unset
      edid_filter := .unset
      gpio_filter := .unset
      none_active := false }
  | .none => { st with none_active := true }
  | .filter k ok => { st with none_active := false }.set_filter (.of ok) k

/-- The register that holds the verdict of the latest header of its type. -/
def register : Option Bool → FilterState
  | Option.none => .unset
  | some ok => .of ok

/-- The state says what the lines so far say. -/
structure InStep (lib : Vsprintf) (opts : Opts) (past : List Text) (st : State) : Prop where
  filters : ∀ k, st.filter k = register (latest k (headers lib opts past))
  none_active : st.none_active = ((headers lib opts past).head? == some .none)
  counts : ∀ key ∈ multi_keys, st.count key = (values lib opts key past).length

section

variable {lib : Vsprintf} {opts : Opts}

theorem eval_section_header_on (lib : Vsprintf) (opts : Opts) (rest : Text) (st : State) :
    eval_section_header lib opts ('[' :: rest) st =
      match header_name ('[' :: rest) with
      | Option.none => st
      | some name => (header lib opts name).on st := by
  have hname : section_name ('[' :: rest) = header_name ('[' :: rest) := by
    unfold section_name header_name
    simp only [List.drop_succ_cons, List.drop_zero]
    by_cases hb : ']' ∈ rest
    · rw [if_pos hb]
      by_cases hl : 1 ≤ (rest.takeWhile (· != ']')).length ∧
          (rest.takeWhile (· != ']')).length ≤ 63
      · rw [if_neg (by omega), if_pos ⟨hb, hl⟩]
      · rw [if_pos (by omega), if_neg (fun h => hl h.2)]
    · rw [if_neg hb, if_neg (fun h => hb h.1)]
  unfold eval_section_header
  rw [hname]
  cases header_name ('[' :: rest) with
  | none => rfl
  | some name =>
    simp only [header]
    split_ifs <;> rfl

theorem filter_set_filter (st : State) (f : FilterState) (k k' : Kind) :
    (st.set_filter f k).filter k' = if k = k' then f else st.filter k' := by
  cases k <;> cases k' <;> rfl

theorem none_active_set_filter (st : State) (f : FilterState) (k : Kind) :
    (st.set_filter f k).none_active = st.none_active := by
  cases k <;> rfl

theorem count_set_filter (st : State) (f : FilterState) (k : Kind) (key : Text) :
    (st.set_filter f k).count key = st.count key := by
  cases k <;> rfl

theorem count_on (h : Header) (st : State) (key : Text) : (h.on st).count key = st.count key := by
  cases h with
  | all => rfl
  | none => rfl
  | filter k ok => exact count_set_filter _ _ _ _

theorem none_active_on (h : Header) (st : State) : (h.on st).none_active = (h == .none) := by
  cases h with
  | all => rfl
  | none => rfl
  | filter k ok => exact none_active_set_filter _ _ _

/-- The latest verdict after one more header. -/
theorem latest_cons (k : Kind) (h : Header) (hs : List Header) :
    latest k (h :: hs) =
      match h with
      | .all => Option.none
      | .none => latest k hs
      | .filter k' ok => if k' = k then some ok else latest k hs := by
  cases h with
  | all => rfl
  | none => rfl
  | filter k' ok =>
    simp only [latest, List.takeWhile_cons, bne_iff_ne, ne_eq, reduceCtorEq, not_false_eq_true,
      if_true, List.findSome?_cons, Header.holds_of]
    by_cases hk : k' = k
    · simp [hk]
    · simp [hk]

/-- A header moves the registers as it moves the latest verdicts. -/
theorem filter_on {st : State} {hs : List Header}
    (h : ∀ k, st.filter k = register (latest k hs)) (hd : Header) (k : Kind) :
    (hd.on st).filter k = register (latest k (hd :: hs)) := by
  rw [latest_cons]
  cases hd with
  | all => cases k <;> rfl
  | none => exact h k
  | filter k' ok =>
    simp only [Header.on, filter_set_filter]
    by_cases hk : k' = k
    · rw [if_pos hk, if_pos hk]
      rfl
    · rw [if_neg hk, if_neg hk]
      exact h k

theorem headers_snoc (past : List Text) (line : Text) :
    headers lib opts (past ++ [line]) =
      match header_name line with
      | Option.none => headers lib opts past
      | some name => header lib opts name :: headers lib opts past := by
  simp only [headers, List.reverse_append, List.reverse_cons, List.reverse_nil, List.nil_append,
    List.singleton_append, List.filterMap_cons]
  cases header_name line <;> rfl

/-- The entries a line adds to those of a key. -/
theorem values_snoc (key : Text) (past : List Text) (line : Text) :
    values lib opts key (past ++ [line]) = values lib opts key past ++
      match takes_effect lib opts past line with
      | .entry k value => if k = key then [value] else []
      | _ => [] :=
  history_snoc _ past line

theorem in_step_init : InStep lib opts [] {} where
  filters := by intro k; cases k <;> rfl
  none_active := rfl
  counts := by
    intro key hkey
    simp only [State.count]
    split_ifs <;> rfl

/-- The registers let a line through exactly when it is effective. -/
theorem line_accepted_eq {past : List Text} {st : State} (h : InStep lib opts past st) :
    line_accepted st = effective lib opts past := by
  have hreg : ∀ o : Option Bool, (register o = .nomatch ↔ o = some false) := by
    intro o
    rcases o with _ | _ | _ <;> decide
  have hk : ∀ k, (st.filter k = .nomatch) = (latest k (headers lib opts past) = some false) := by
    intro k
    rw [h.filters k]
    exact propext (hreg _)
  have hmodel := hk .model
  have hserial := hk .serial
  have hpartition := hk .partition
  have htryboot := hk .tryboot
  have hedid := hk .edid
  have hgpio := hk .gpio
  simp only [State.filter] at hmodel hserial hpartition htryboot hedid hgpio
  unfold line_accepted effective
  rw [h.none_active]
  simp only [hmodel, hserial, hpartition, htryboot, hedid, hgpio, List.all_cons, List.all_nil]
  grind

end

/-! ## One line -/

/-- What the include callback is asked for a file. -/
def included (cb : Option IncludeFn) (opts : Opts) (file : Text) : Option (List Event) :=
  match cb with
  | Option.none => some []
  | some include_cb =>
    if opts.include_depth < MAX_INCLUDE_DEPTH then
      include_cb file { opts with include_depth := opts.include_depth + 1 }
    else some []

/-- What a line does: an include line what the callback does, any other line
    what it means. -/
def line_does (lib : Vsprintf) (cb : Option IncludeFn) (opts : Opts) (past : List Text)
    (line : Text) : Option (List Event) :=
  match takes_effect lib opts past line with
  | .include_file file => included cb opts file
  | _ => some ((line_sets lib opts past line).map (Event.mk 0))

section

variable {lib : Vsprintf} {opts : Opts}

theorem handle_initramfs_words (args : Text) :
    handle_initramfs args =
      match words args with
      | ([], _) => []
      | (file, []) => [env_set "rpi_cfg_initramfs".toList file,
          env_set "rpi_cfg_initramfs_addr".toList "followkernel".toList]
      | (file, addr) => [env_set "rpi_cfg_initramfs".toList file,
          env_set "rpi_cfg_initramfs_addr".toList addr] := by
  unfold handle_initramfs words
  have hhead := List.head?_dropWhile_not is_blank args
  generalize args.dropWhile is_blank = file at hhead
  cases file with
  | nil => rfl
  | cons c cs =>
    have hc : is_blank c = false := by simpa using hhead
    -- the address starts behind one blank, or there is nothing behind the file
    have haddr : (((c :: cs).dropWhile (fun c => !is_blank c)).drop 1).dropWhile is_blank =
        ((c :: cs).dropWhile (fun c => !is_blank c)).dropWhile is_blank := by
      have hb := List.head?_dropWhile_not (fun c => !is_blank c) (c :: cs)
      generalize (c :: cs).dropWhile (fun c => !is_blank c) = more at hb
      cases more with
      | nil => rfl
      | cons b bs =>
        have hb' : is_blank b = true := by simpa using hb
        simp [hb']
    simp only [haddr, List.takeWhile_cons, hc]
    generalize ((c :: cs).dropWhile (fun c => !is_blank c)).dropWhile is_blank = addr
    cases addr <;> rfl

theorem handle_include_eq (cb : Option IncludeFn) (opts : Opts) (args : Text) :
    handle_include cb opts args =
      match args.dropWhile is_blank with
      | [] => some []
      | file => included cb opts file := by
  unfold handle_include included
  cases args.dropWhile is_blank <;> rfl

/-- The handlers act on the directive that the line is. -/
theorem handle_directive_eq (cb : Option IncludeFn) (opts : Opts) (line : Text) (st : State) :
    handle_directive cb opts line st =
      match directive line with
      | .initramfs file addr =>
        some (st, [env_set "rpi_cfg_initramfs".toList file,
          env_set "rpi_cfg_initramfs_addr".toList (addr.getD "followkernel".toList)])
      | .include_file file => (included cb opts file).map (fun evs => (st, evs))
      | .entry key value => some (handle_key key value st)
      | .other => some (st, []) := by
  unfold handle_directive directive
  by_cases hi : "initramfs ".toList.isPrefixOf line = true
  · rw [if_pos hi, if_pos hi, handle_initramfs_words]
    rcases words (line.drop 10) with ⟨_ | ⟨c, cs⟩, _ | ⟨d, ds⟩⟩ <;> rfl
  · rw [if_neg hi, if_neg hi]
    by_cases hn : "include ".toList.isPrefixOf line = true
    · rw [if_pos hn, if_pos hn, handle_include_eq]
      cases (line.drop 8).dropWhile is_blank <;> rfl
    · rw [if_neg hn, if_neg hn]
      cases hd : line.dropWhile (· != '=') with
      | nil =>
        have hno : '=' ∉ line := by
          intro hmem
          have := List.dropWhile_eq_nil_iff.mp hd '=' hmem
          simp at this
        rw [if_neg hno]
      | cons c value =>
        have hmem : '=' ∈ line := by
          have hc := List.head?_dropWhile_not (· != '=') line
          rw [hd] at hc
          have hc' : c = '=' := by simpa using hc
          subst hc'
          exact (List.dropWhile_suffix _).subset (hd ▸ List.mem_cons_self)
        rw [if_pos hmem]
        rfl

end

/-- The state after an entry of a key. -/
def State.bump (st : State) (key : Text) : State :=
  if key = "dtoverlay".toList then { st with dtoverlay_count := st.dtoverlay_count + 1 }
  else if key = "dtparam".toList then { st with dtparam_count := st.dtparam_count + 1 }
  else if key = "gpio".toList then { st with gpio_count := st.gpio_count + 1 }
  else st

theorem handle_key_eq (key value : Text) (st : State) :
    handle_key key value st =
      (st.bump key, (entry_sets key value (st.count key)).map (Event.mk 0)) := by
  have hpre : 64 - ENV_PREFIX.length - 1 = 55 := by decide
  unfold handle_key entry_sets State.bump State.count
  rw [hpre]
  by_cases h₁ : key = "dtoverlay".toList
  · subst h₁
    rfl
  by_cases h₂ : key = "dtparam".toList
  · subst h₂
    rfl
  by_cases h₃ : key = "gpio".toList
  · subst h₃
    rfl
  have hout : key ∉ multi_keys := by
    simp only [multi_keys, List.mem_cons, List.not_mem_nil, or_false, not_or]
    exact ⟨h₁, h₂, h₃⟩
  simp only [h₁, h₂, h₃, hout, if_false]
  by_cases hlen : 55 < key.length
  · rw [if_pos hlen, if_neg (by omega)]
    rfl
  · rw [if_neg hlen, if_pos (by omega)]
    rfl

theorem filter_bump (st : State) (key : Text) (k : Kind) :
    (st.bump key).filter k = st.filter k := by
  unfold State.bump
  split_ifs <;> cases k <;> rfl

theorem none_active_bump (st : State) (key : Text) :
    (st.bump key).none_active = st.none_active := by
  unfold State.bump
  split_ifs <;> rfl

theorem count_bump {key key' : Text} (hkey' : key' ∈ multi_keys) (st : State) :
    (st.bump key).count key' = st.count key' + if key = key' then 1 else 0 := by
  simp only [multi_keys, List.mem_cons, List.not_mem_nil, or_false] at hkey'
  by_cases h₁ : key = "dtoverlay".toList
  · subst h₁
    rcases hkey' with rfl | rfl | rfl <;> rfl
  by_cases h₂ : key = "dtparam".toList
  · subst h₂
    rcases hkey' with rfl | rfl | rfl <;> rfl
  by_cases h₃ : key = "gpio".toList
  · subst h₃
    rcases hkey' with rfl | rfl | rfl <;> rfl
  · have hne : key ≠ key' := by
      rintro rfl
      rcases hkey' with h | h | h
      · exact h₁ h
      · exact h₂ h
      · exact h₃ h
    rw [State.bump, if_neg h₁, if_neg h₂, if_neg h₃, if_neg hne, Nat.add_zero]

section

variable {lib : Vsprintf} {opts : Opts} {past : List Text} {line : Text} {st : State}

/-- A line that is no header and no entry leaves the state in step. -/
theorem in_step_skip (h : InStep lib opts past st) (hn : header_name line = Option.none)
    (he : ∀ key value, takes_effect lib opts past line ≠ .entry key value) :
    InStep lib opts (past ++ [line]) st := by
  have hheaders : headers lib opts (past ++ [line]) = headers lib opts past := by
    rw [headers_snoc, hn]
  refine ⟨by rw [hheaders]; exact h.filters, by rw [hheaders]; exact h.none_active, ?_⟩
  intro key hkey
  rw [h.counts key hkey, values_snoc]
  cases ht : takes_effect lib opts past line with
  | entry k v => exact absurd ht (he k v)
  | _ => simp

/-- An entry of a key moves its counter. -/
theorem in_step_entry {key value : Text} (h : InStep lib opts past st)
    (hn : header_name line = Option.none)
    (he : takes_effect lib opts past line = .entry key value) :
    InStep lib opts (past ++ [line]) (st.bump key) := by
  have hheaders : headers lib opts (past ++ [line]) = headers lib opts past := by
    rw [headers_snoc, hn]
  refine ⟨?_, ?_, ?_⟩
  · intro k
    rw [hheaders, filter_bump]
    exact h.filters k
  · rw [hheaders, none_active_bump]
    exact h.none_active
  · intro key' hkey'
    rw [count_bump hkey', h.counts key' hkey', values_snoc, he]
    by_cases hk : key = key'
    · simp [hk]
    · simp [hk]

/-- A header line moves the registers. -/
theorem in_step_header {rest : Text} (h : InStep lib opts past st) :
    InStep lib opts (past ++ ['[' :: rest]) (eval_section_header lib opts ('[' :: rest) st) := by
  have he : takes_effect lib opts past ('[' :: rest) = .other := rfl
  rw [eval_section_header_on]
  cases hn : header_name ('[' :: rest) with
  | none =>
    apply in_step_skip h hn
    intro key value
    rw [he]
    exact Directive.noConfusion
  | some name =>
    have hheaders : headers lib opts (past ++ ['[' :: rest]) =
        header lib opts name :: headers lib opts past := by
      rw [headers_snoc, hn]
    refine ⟨?_, ?_, ?_⟩
    · intro k
      rw [hheaders]
      exact filter_on h.filters _ k
    · rw [hheaders, none_active_on]
      rfl
    · intro key hkey
      rw [count_on, h.counts key hkey, values_snoc, he, List.append_nil]

theorem header_name_eq_none {c : Char} {cs : Text} (hc : c ≠ '[') :
    header_name (c :: cs) = Option.none := by
  unfold header_name
  split
  · rename_i heq
    exact absurd (List.cons.inj heq).1 hc
  · rfl

/-- The step: from a state in step with the past, a line does what the past
    says, and the state it leaves is in step again, whatever the callback is. -/
theorem parse_line_in_step (line : Text) (h : InStep lib opts past st) :
    ∃ st', InStep lib opts (past ++ [line]) st' ∧
      ∀ cb, parse_line lib cb opts line st =
        (line_does lib cb opts past line).map (fun evs => (st', evs)) := by
  cases line with
  | nil =>
    refine ⟨st, in_step_skip h rfl ?_, fun _ => rfl⟩
    intro key value
    exact Directive.noConfusion
  | cons c cs =>
    by_cases hcomment : c = '#'
    · subst hcomment
      refine ⟨st, in_step_skip h rfl ?_, fun _ => rfl⟩
      intro key value
      exact Directive.noConfusion
    by_cases hheader : c = '['
    · subst hheader
      exact ⟨_, in_step_header h, fun _ => rfl⟩
    have hn : header_name (c :: cs) = Option.none := header_name_eq_none hheader
    have hdir : is_directive (c :: cs) = true := by simp [is_directive, hcomment, hheader]
    -- Left are the directives, which the state accepts as the history says.
    have hparse : ∀ cb, parse_line lib cb opts (c :: cs) st =
        if effective lib opts past then handle_directive cb opts (c :: cs) st
        else some (st, []) := by
      intro cb
      simp only [parse_line, hcomment, hheader, if_false, line_accepted_eq h]
    by_cases heff : effective lib opts past = true
    · have htakes : takes_effect lib opts past (c :: cs) = directive (c :: cs) := by
        simp [takes_effect, hdir, heff]
      simp only [hparse, heff, if_true, handle_directive_eq, line_does, line_sets, htakes]
      cases hd : directive (c :: cs) with
      | initramfs file addr =>
        refine ⟨st, in_step_skip h hn ?_, fun _ => rfl⟩
        intro key value
        rw [htakes, hd]
        exact Directive.noConfusion
      | include_file file =>
        refine ⟨st, in_step_skip h hn ?_, fun _ => rfl⟩
        intro key value
        rw [htakes, hd]
        exact Directive.noConfusion
      | entry key value =>
        refine ⟨st.bump key, in_step_entry h hn (htakes.trans hd), ?_⟩
        intro _
        simp only [handle_key_eq, Option.map_some]
        by_cases hkey : key ∈ multi_keys
        · rw [h.counts key hkey]
        · simp [entry_sets, hkey]
      | other =>
        refine ⟨st, in_step_skip h hn ?_, fun _ => rfl⟩
        intro key value
        rw [htakes, hd]
        exact Directive.noConfusion
    · have htakes : takes_effect lib opts past (c :: cs) = .other := by
        simp [takes_effect, heff]
      refine ⟨st, in_step_skip h hn ?_, ?_⟩
      · intro key value
        rw [htakes]
        exact Directive.noConfusion
      · intro cb
        simp only [hparse, heff, line_does, line_sets, htakes]
        rfl

end

/-! ## Whole files -/

/-- A parse without callback of a text without NULs makes the calls that its
    lines mean. -/
theorem parse_calls_meaning (lib : Vsprintf) (opts : Opts) (buf : Text) (hne : buf ≠ [])
    (hnul : '\x00' ∉ buf) :
    rpi_cfgtxt_parse lib Option.none opts buf =
      some (0, (meaning lib opts (text_lines buf)).map (Event.mk 0)) := by
  -- without a callback no line does more than it means
  have hdoes : ∀ past line, line_does lib Option.none opts past line =
      some ((line_sets lib opts past line).map (Event.mk 0)) := by
    intro past line
    unfold line_does line_sets
    cases takes_effect lib opts past line <;> rfl
  have hstep : ∀ past st line, InStep lib opts past st → ∃ st',
      parse_line lib Option.none opts line st =
        some (st', (line_sets lib opts past line).map (Event.mk 0)) ∧
      InStep lib opts (past ++ [line]) st' := by
    intro past st line h
    obtain ⟨st', h', hparse⟩ := parse_line_in_step line h
    refine ⟨st', ?_, h'⟩
    rw [hparse Option.none, hdoes]
    rfl
  obtain ⟨st', hrun, -⟩ := run_eq_history in_step_init hstep (text_lines buf)
  rw [rpi_cfgtxt_parse, if_neg hne, parse_loop_eq_run lib Option.none opts _ _ _ (Nat.le_refl _),
    buffered_lines_clean hnul, hrun]
  simp only [meaning, history, map_along, Option.map_some]

/-- The digits of a base at the front of a text. -/
def read_digits (base : Nat) (text : Text) : Nat :=
  (text.takeWhile (fun c => ("0123456789abcdef".toList.take base).contains c)).foldl
    (fun n c => base * n + "0123456789abcdef".toList.idxOf c) 0

/-- Readers of plain numbers in lower case. -/
def plain_numbers : Vsprintf where
  hextoull text := read_digits 16 (if "0x".toList.isPrefixOf text then text.drop 2 else text)
  dectoul text := read_digits 10 text

/-- A board for the examples. -/
def pi4_board : Opts where
  model := .pi4
  serial := 16
  boot_partition := 1
  tryboot := false
  include_depth := 0

/-- The serial header stays in force under `[pi4]` and falls with `[all]`. -/
theorem sections_and_crlf_parsed :
    rpi_cfgtxt_parse plain_numbers Option.none pi4_board
      ("[pi4]\r\n\tkernel=a \r\n[serial=0x11]\n[pi4]\ndtoverlay=x\n" ++
        "[all]\ndtoverlay=y\ngpio4=\ninitramfs i.img").toList =
      some (0, [env_set "rpi_cfg_kernel".toList "a".toList,
        env_set "rpi_cfg_dtoverlay_0".toList "y".toList,
        env_set "rpi_cfg_dtoverlay_count".toList "1".toList,
        env_set "rpi_cfg_gpio4".toList [],
        env_set "rpi_cfg_initramfs".toList "i.img".toList,
        env_set "rpi_cfg_initramfs_addr".toList "followkernel".toList]) :=
  (parse_calls_meaning _ _ _ (by decide) (by decide)).trans (by decide +kernel)

/-- The lines when only a CR before an LF is dropped, and a line is cut to
    511 bytes after both its ends are trimmed. -/
def lines_trimmed_first (buf : Text) : List Text :=
  let segments := buf.splitOn '\n'
  (segments.dropLast.map drop_cr ++ segments.getLast?.toList).map
    (fun raw => ((raw.dropWhile is_blank).rdropWhile is_blank).take 511)

/-- A CR at the very end is dropped too, and blanks at the cut are trimmed. -/
theorem last_cr_and_cut_blanks_dropped :
    rpi_cfgtxt_parse plain_numbers Option.none pi4_board "a=b\r".toList ≠
      some (0, (meaning plain_numbers pi4_board
        (lines_trimmed_first "a=b\r".toList)).map (Event.mk 0)) ∧
    rpi_cfgtxt_parse plain_numbers Option.none pi4_board
        ("a=".toList ++ List.replicate 508 'x' ++ "  y".toList) ≠
      some (0, (meaning plain_numbers pi4_board (lines_trimmed_first
        ("a=".toList ++ List.replicate 508 'x' ++ "  y".toList))).map (Event.mk 0)) := by
  constructor
  · decide +kernel
  · decide +kernel

end Cfgtxt
