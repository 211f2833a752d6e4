import RpiQemu.Cfgtxt.Meaning

/-! # Included files

    The include callback loads a file and parses it with the child's options;
    that parse may call the callback again.  `load` is that callback over a
    map of files, when at most so many parses may nest in it.

    * **Budget**: from depth `d` a budget of `8 - d` nested parses is never
      used up, and a larger one changes nothing (`load_answers`,
      `load_budget`).
    * **Levels**: so no event happens with more than eight included parses
      active (`file_does_level`).
    * **Frame**: the loop goes on behind an include line with the state it
      had before it (`parse_loop_include`), and what a file does itself is
      what it does without callback (`file_does_own`). -/

namespace Cfgtxt

open History

/-- The same event, seen from around the included parse it happens in. -/
def Event.deeper (e : Event) : Event := { e with level := e.level + 1 }

/-- The callback over a map of files: look the file up, and parse it with
    the child's options.  `none`: more parses nest than the budget allows. -/
def load (lib : Vsprintf) (files : Text → Option Text) : Nat → IncludeFn
  | 0, _, _ => Option.none
  | budget + 1, file, child_opts =>
    match files file with
    | Option.none => some []
    | some text =>
      match rpi_cfgtxt_parse lib (some (load lib files budget)) child_opts text with
      | Option.none => Option.none
      | some (_, evs) => some (⟨1, .parse file⟩ :: evs.map Event.deeper)

/-- What a file does, line by line from the lines before. -/
def file_does (lib : Vsprintf) (cb : Option IncludeFn) (opts : Opts) (buf : Text) :
    List Event :=
  history (fun past line => (line_does lib cb opts past line).getD []) (buffered_lines buf)

/-- The callback answers whatever it is asked. -/
def Answers (cb : Option IncludeFn) (opts : Opts) : Prop :=
  ∀ file, (included cb opts file).isSome

section

variable {lib : Vsprintf} {cb cb' : Option IncludeFn} {opts : Opts}

theorem line_does_some (h : Answers cb opts) (past : List Text) (line : Text) :
    line_does lib cb opts past line = some ((line_does lib cb opts past line).getD []) := by
  have hsome : (line_does lib cb opts past line).isSome := by
    unfold line_does
    cases takes_effect lib opts past line with
    | include_file file => exact h file
    | _ => rfl
  obtain ⟨evs, hevs⟩ := Option.isSome_iff_exists.mp hsome
  rw [hevs]
  rfl

/-- A parse whose callback answers ends, and does what its lines do. -/
theorem parse_eq_file_does (h : Answers cb opts) (buf : Text) :
    rpi_cfgtxt_parse lib cb opts buf =
      some (if buf = [] then -EINVAL else 0, file_does lib cb opts buf) := by
  by_cases hne : buf = []
  · subst hne
    rfl
  · have hstep : ∀ past st line, InStep lib opts past st → ∃ st',
        parse_line lib cb opts line st =
          some (st', (line_does lib cb opts past line).getD []) ∧
        InStep lib opts (past ++ [line]) st' := by
      intro past st line hst
      obtain ⟨st', h', hparse⟩ := parse_line_in_step line hst
      refine ⟨st', ?_, h'⟩
      rw [hparse cb, line_does_some h]
      rfl
    obtain ⟨st', hrun, -⟩ := run_eq_history in_step_init hstep (buffered_lines buf)
    rw [rpi_cfgtxt_parse, if_neg hne, if_neg hne,
      parse_loop_eq_run lib cb opts _ _ _ (Nat.le_refl _), hrun]
    rfl

/-- A parse knows its callback by the answers. -/
theorem parse_congr (h : ∀ file, included cb opts file = included cb' opts file) (buf : Text) :
    rpi_cfgtxt_parse lib cb opts buf = rpi_cfgtxt_parse lib cb' opts buf := by
  have hline : ∀ line st, parse_line lib cb opts line st = parse_line lib cb' opts line st := by
    intro line st
    simp only [parse_line, handle_directive_eq, h]
  simp only [rpi_cfgtxt_parse, parse_loop_eq_run lib _ opts _ _ _ (Nat.le_refl _), hline]

/-- What the file does itself: the events in no included parse. -/
theorem file_does_own (hcb : ∀ file, ∀ e ∈ (included cb opts file).getD [], 1 ≤ e.level)
    (buf : Text) :
    (file_does lib cb opts buf).filter (fun e => e.level == 0) =
      file_does lib Option.none opts buf := by
  unfold file_does history
  rw [filter_along]
  apply along_congr
  intro past line
  simp only [List.nil_append, line_does]
  cases takes_effect lib opts past line with
  | include_file file =>
    simp only [included, Option.getD_some]
    apply List.filter_eq_nil_iff.mpr
    intro e he
    have := hcb file e he
    simp only [beq_iff_eq]
    omega
  | _ => simp

/-- The levels in a file are those of the callback's events, or zero. -/
theorem file_does_level {b : Nat}
    (hcb : ∀ file, ∀ e ∈ (included cb opts file).getD [], e.level ≤ b) {buf : Text} {e : Event}
    (he : e ∈ file_does lib cb opts buf) : e.level ≤ b := by
  obtain ⟨past, line, hmem⟩ := exists_of_mem_along he
  unfold line_does at hmem
  cases ht : takes_effect lib opts past line with
  | include_file file =>
    rw [ht] at hmem
    exact hcb file e hmem
  | _ =>
    rw [ht] at hmem
    simp only [Option.getD_some, List.mem_map] at hmem
    obtain ⟨c, -, rfl⟩ := hmem
    exact Nat.zero_le b

/-- The loop goes on behind an include line, with the state before it. -/
theorem parse_loop_include {st : State} {buf : Text} {file : Text} {evs : List Event}
    (hne : buf ≠ []) (hdir : is_directive (copy_line buf).1 = true)
    (hacc : line_accepted st = true) (hfile : directive (copy_line buf).1 = .include_file file)
    (hcb : included cb opts file = some evs) (fuel : Nat) :
    parse_loop lib cb opts (fuel + 1) st buf =
      (parse_loop lib cb opts fuel st (copy_line buf).2).map (fun r => (r.1, evs ++ r.2)) := by
  have hline : parse_line lib cb opts (copy_line buf).1 st = some (st, evs) := by
    cases hl : (copy_line buf).1 with
    | nil => simp [hl, is_directive] at hdir
    | cons c cs =>
      rw [hl] at hdir hfile
      simp only [is_directive, List.head?_cons, Bool.and_eq_true, bne_iff_ne, ne_eq,
        Option.some.injEq] at hdir
      simp only [parse_line, hdir.1.2, hdir.2, if_false, hacc, if_true, handle_directive_eq, hfile,
        hcb, Option.map_some]
  cases buf with
  | nil => exact absurd rfl hne
  | cons c cs =>
    simp only [parse_loop, hline]
    cases parse_loop lib cb opts fuel st (copy_line (c :: cs)).2 <;> rfl

end

/-! ## The budget -/

section

variable (lib : Vsprintf) (files : Text → Option Text)

theorem included_load {budget : Nat} {opts : Opts} (h : opts.include_depth < 8) (file : Text) :
    included (some (load lib files budget)) opts file =
      load lib files budget file { opts with include_depth := opts.include_depth + 1 } := by
  simp only [included, MAX_INCLUDE_DEPTH, h, if_true]

theorem included_deep {cb : Option IncludeFn} {opts : Opts} (h : ¬ opts.include_depth < 8)
    (file : Text) : included cb opts file = some [] := by
  unfold included
  cases cb with
  | none => rfl
  | some include_cb => simp only [MAX_INCLUDE_DEPTH, h, if_false]

/-- A file that is there is parsed one level deeper. -/
theorem load_file {budget : Nat} {file text : Text} {opts : Opts} (hfile : files file = some text)
    (h : Answers (some (load lib files budget)) opts) :
    load lib files (budget + 1) file opts = some (⟨1, .parse file⟩ ::
      (file_does lib (some (load lib files budget)) opts text).map Event.deeper) := by
  simp only [load, hfile, parse_eq_file_does h]

/-- The events of a callback at the child's depth: at least one included
    parse is active, and no more than the depth leaves room for. -/
theorem load_answers (budget : Nat) (file : Text) (opts : Opts) (h₁ : 1 ≤ budget)
    (h : 9 ≤ budget + opts.include_depth) (hd : opts.include_depth ≤ 8) :
    ∃ evs, load lib files budget file opts = some evs ∧
      ∀ e ∈ evs, 1 ≤ e.level ∧ e.level + opts.include_depth ≤ 9 := by
  -- each nested parse takes one off the budget and adds one to the depth
  induction budget generalizing file opts with
  | zero => omega
  | succ budget ih =>
    have hinc : ∀ f, ∃ evs, included (some (load lib files budget)) opts f = some evs ∧
        ∀ e ∈ evs, 1 ≤ e.level ∧ e.level + (opts.include_depth + 1) ≤ 9 := by
      intro f
      by_cases hdeep : opts.include_depth < 8
      · rw [included_load lib files hdeep]
        exact ih f { opts with include_depth := opts.include_depth + 1 } (by omega)
          (by simp only; omega) (by simp only; omega)
      · rw [included_deep hdeep]
        exact ⟨[], rfl, by simp⟩
    cases hfile : files file with
    | none => exact ⟨[], by simp only [load, hfile], by simp⟩
    | some text =>
      have hans : Answers (some (load lib files budget)) opts := by
        intro f
        obtain ⟨evs, hevs, -⟩ := hinc f
        rw [hevs]
        rfl
      refine ⟨_, load_file lib files hfile hans, ?_⟩
      intro e he
      rcases List.mem_cons.mp he with rfl | he
      · exact ⟨Nat.le_refl 1, by simp only; omega⟩
      · obtain ⟨e', he', rfl⟩ := List.mem_map.mp he
        have hle := file_does_level (b := (8 - opts.include_depth).toNat) (fun f e he => by
          obtain ⟨evs, hevs, hlev⟩ := hinc f
          rw [hevs] at he
          have := (hlev e he).2
          omega) he'
        simp only [Event.deeper]
        omega

/-- From depth 0 a budget of eight is enough: the callback answers, with at
    most eight included parses active. -/
theorem included_root {budget : Nat} {opts : Opts} (hbudget : 8 ≤ budget)
    (hdepth : opts.include_depth = 0) (file : Text) :
    ∃ evs, included (some (load lib files budget)) opts file = some evs ∧
      ∀ e ∈ evs, 1 ≤ e.level ∧ e.level ≤ 8 := by
  rw [included_load lib files (by omega)]
  obtain ⟨evs, hevs, hlev⟩ := load_answers lib files budget file
    { opts with include_depth := opts.include_depth + 1 } (by omega)
    (by simp only; omega) (by simp only; omega)
  refine ⟨evs, hevs, ?_⟩
  intro e he
  have := hlev e he
  simp only [hdepth] at this
  omega

theorem load_answers_root {budget : Nat} {opts : Opts} (hbudget : 8 ≤ budget)
    (hdepth : opts.include_depth = 0) : Answers (some (load lib files budget)) opts := by
  intro file
  obtain ⟨evs, hevs, -⟩ := included_root lib files hbudget hdepth file
  rw [hevs]
  rfl

/-- A larger budget changes nothing. -/
theorem load_budget (budget more : Nat) (file : Text) (opts : Opts) (h₁ : 1 ≤ budget)
    (h : 9 ≤ budget + opts.include_depth) (hmore : budget ≤ more) :
    load lib files more file opts = load lib files budget file opts := by
  induction budget generalizing more file opts with
  | zero => omega
  | succ budget ih =>
    cases more with
    | zero => omega
    | succ more =>
      unfold load
      cases files file with
      | none => rfl
      | some text =>
        have hparse : rpi_cfgtxt_parse lib (some (load lib files more)) opts text =
            rpi_cfgtxt_parse lib (some (load lib files budget)) opts text := by
          apply parse_congr
          intro f
          by_cases hdeep : opts.include_depth < 8
          · rw [included_load lib files hdeep, included_load lib files hdeep]
            exact ih more f _ (by omega) (by simp only; omega) (by omega)
          · rw [included_deep hdeep, included_deep hdeep]
        simp only [hparse]

end

/-! ## Every include graph -/

/-- From depth 0, over any files: the parse ends within eight nested included
    parses, whatever more it were allowed; what the file does itself is what it
    does without callback; and every loop goes on behind an include line with
    the state and at the place it had. -/
theorem include_recursion_ends (lib : Vsprintf) (files : Text → Option Text) (opts : Opts)
    (buf : Text) (hdepth : opts.include_depth = 0) :
    (∃ ret evs,
      (∀ budget, 8 ≤ budget →
        rpi_cfgtxt_parse lib (some (load lib files budget)) opts buf = some (ret, evs)) ∧
      (∀ e ∈ evs, e.level ≤ 8) ∧
      rpi_cfgtxt_parse lib Option.none opts buf =
        some (ret, evs.filter (fun e => e.level == 0))) ∧
    (∀ (budget fuel : Nat) (o : Opts) (st : State) (text file : Text) (evs : List Event),
      text ≠ [] → is_directive (copy_line text).1 = true → line_accepted st = true →
      directive (copy_line text).1 = .include_file file →
      included (some (load lib files budget)) o file = some evs →
      parse_loop lib (some (load lib files budget)) o (fuel + 1) st text =
        (parse_loop lib (some (load lib files budget)) o fuel st (copy_line text).2).map
          (fun r => (r.1, evs ++ r.2))) := by
  constructor
  · have hlt : opts.include_depth < 8 := by omega
    have hlevel : ∀ f, ∀ e ∈ (included (some (load lib files 8)) opts f).getD [],
        1 ≤ e.level ∧ e.level ≤ 8 := by
      intro f e he
      obtain ⟨evs, hevs, hlev⟩ := included_root lib files (Nat.le_refl 8) hdepth f
      rw [hevs] at he
      exact hlev e he
    have hans := load_answers_root lib files (Nat.le_refl 8) hdepth
    refine ⟨if buf = [] then -EINVAL else 0, file_does lib (some (load lib files 8)) opts buf,
      ?_, ?_, ?_⟩
    · intro budget hbudget
      rw [← parse_eq_file_does hans]
      apply parse_congr
      intro f
      rw [included_load lib files hlt, included_load lib files hlt]
      exact load_budget lib files 8 budget f _ (by omega) (by simp only; omega) hbudget
    · intro e he
      exact file_does_level (fun f e he => (hlevel f e he).2) he
    · rw [file_does_own (fun f e he => (hlevel f e he).1)]
      exact parse_eq_file_does (fun _ => rfl) buf
  · intro budget fuel o st text file evs hne hdir hacc hfile hcb
    exact parse_loop_include hne hdir hacc hfile hcb fuel

/-- A file that includes itself and then blocks everything. -/
def self_including (file : Text) : Option Text :=
  if file = "a".toList then some "include a\n[none]\n".toList else Option.none

/-- Eight parses of it nest, and the parent's own line still takes effect. -/
theorem self_include_ends :
    (∃ ret evs,
      (∀ budget, 8 ≤ budget →
        rpi_cfgtxt_parse plain_numbers (some (load plain_numbers self_including budget)) pi4_board
          "include a\ny=2\n".toList = some (ret, evs)) ∧
      (∀ e ∈ evs, e.level ≤ 8) ∧
      rpi_cfgtxt_parse plain_numbers Option.none pi4_board "include a\ny=2\n".toList =
        some (ret, evs.filter (fun e => e.level == 0))) ∧
    (rpi_cfgtxt_parse plain_numbers (some (load plain_numbers self_including 8)) pi4_board
      "include a\ny=2\n".toList).map (fun r => r.2.map Event.level) =
      some [1, 2, 3, 4, 5, 6, 7, 8, 0] ∧
    parse_loop plain_numbers (some (load plain_numbers self_including 8)) pi4_board 14 {}
        "include a\ny=2\n".toList =
      (parse_loop plain_numbers (some (load plain_numbers self_including 8)) pi4_board 13 {}
        "y=2\n".toList).map
        (fun r => (r.1, [1, 2, 3, 4, 5, 6, 7, 8].map (⟨·, .parse "a".toList⟩) ++ r.2)) :=
  ⟨(include_recursion_ends plain_numbers self_including pi4_board _ rfl).1, by decide +kernel,
    (include_recursion_ends plain_numbers self_including pi4_board [] rfl).2 8 13 pi4_board {}
      "include a\ny=2\n".toList "a".toList _ (by decide) (by decide) rfl (by decide)
      (by decide +kernel)⟩

end Cfgtxt
