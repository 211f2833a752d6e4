import RpiQemu.Raspi.Cmdline
import Mathlib.Data.List.TakeWhile
import Mathlib.Tactic.Common

/-! # The fixup resolves argument by argument

    The loop of `raspi_fixup_cmdline` looks back one byte and jumps over what it
    replaces.  It does to a command line what `resolve` says: each maximal run of
    bytes other than whitespace is resolved on its own.

    * **Runs**: `resolve` takes off whitespace byte by byte, and an argument at a
      time (`resolve_space`, `resolve_word`).
    * **The loop**: between arguments it agrees with `resolve` (`fixup_loop_eq`);
      inside one it copies (`loop_copies`). -/

namespace Raspi

variable (raspi_serial_alias : Nat → Option RaspiUartKind)

/-- A string at whose head an argument cannot go on. -/
def Ends (rest : Text) : Prop := ∀ c ∈ rest.head?, g_ascii_isspace c = true

/-- An argument, or a part of one: no whitespace. -/
def Solid (w : Text) : Prop := ∀ c ∈ w, g_ascii_isspace c = false

theorem solid_of_all {w : Text} (h : w.all (fun c => !g_ascii_isspace c) = true) : Solid w := by
  intro c hc
  have hnot := List.all_eq_true.mp h c hc
  simpa using hnot

/-! ## Runs -/

theorem console_eq :
    console = ['c', 'o', 'n', 's', 'o', 'l', 'e', '=', 's', 'e', 'r', 'i', 'a', 'l'] := rfl

theorem not_console_of_space {c : Char} (hc : g_ascii_isspace c = true) (p : Text) :
    console.isPrefixOf (c :: p) = false := by
  have hne : ('c' == c) = false := by
    rw [beq_eq_false_iff_ne]
    rintro rfl
    revert hc
    decide
  rw [console_eq, List.isPrefixOf, hne, Bool.false_and]

theorem uniform_chain {b : Bool} {l : Text} (h : ∀ c ∈ l, g_ascii_isspace c = b) :
    l.IsChain fun x y => (g_ascii_isspace x == g_ascii_isspace y) = true := by
  induction l with
  | nil => exact List.isChain_nil
  | cons c l ih =>
    rw [List.isChain_cons]
    refine ⟨fun d hd => ?_, ih (fun d hd => h d (List.mem_cons_of_mem _ hd))⟩
    rw [h c List.mem_cons_self, h d (List.mem_cons_of_mem _ (List.mem_of_mem_head? hd))]
    exact beq_self_eq_true b

/-- A text is empty, begins with whitespace, or begins with an argument. -/
theorem by_arguments {P : Text → Prop} (nil : P [])
    (space : ∀ c t, g_ascii_isspace c = true → P t → P (c :: t))
    (word : ∀ w rest, w ≠ [] → Solid w → Ends rest → P rest → P (w ++ rest)) (text : Text) :
    P text := by
  induction hn : text.length using Nat.strongRecOn generalizing text with
  | ind n ih =>
    cases text with
    | nil => exact nil
    | cons c t =>
      by_cases hc : g_ascii_isspace c = true
      · exact space c t hc (ih t.length (by rw [← hn]; exact Nat.lt_succ_self _) t rfl)
      · have hsplit : (c :: t).takeWhile (fun d => !g_ascii_isspace d) ++
            (c :: t).dropWhile (fun d => !g_ascii_isspace d) = c :: t :=
          List.takeWhile_append_dropWhile
        have hne : (c :: t).takeWhile (fun d => !g_ascii_isspace d) ≠ [] := by
          rw [List.takeWhile_cons_of_pos (by simp [hc])]
          exact List.cons_ne_nil _ _
        rw [← hsplit]
        apply word _ _ hne
        · intro d hd
          have hnot := List.mem_takeWhile_imp hd
          simpa using hnot
        · intro d hd
          have hnot := List.head?_dropWhile_not (fun d => !g_ascii_isspace d) (c :: t)
          rw [hd] at hnot
          simpa using hnot
        · apply ih _ _ _ rfl
          have hpos := List.length_pos_iff.mpr hne
          have hlen := congrArg List.length hsplit
          rw [List.length_append] at hlen
          omega

theorem resolve_nil : resolve raspi_serial_alias [] = [] := rfl

/-- A run on its own. -/
theorem resolve_uniform {b : Bool} {l : Text} (hl : l ≠ [])
    (h : ∀ c ∈ l, g_ascii_isspace c = b) :
    resolve raspi_serial_alias l = resolve_argument raspi_serial_alias l := by
  unfold resolve runs
  rw [List.splitBy_of_isChain hl (uniform_chain h)]
  simp

/-- A run ends where the kind of byte changes. -/
theorem resolve_append {l m : Text}
    (h : ∀ x ∈ l.getLast?, ∀ y ∈ m.head?, g_ascii_isspace x ≠ g_ascii_isspace y) :
    resolve raspi_serial_alias (l ++ m) =
      resolve raspi_serial_alias l ++ resolve raspi_serial_alias m := by
  unfold resolve runs
  rw [List.splitBy_append (fun x hx y hy => beq_eq_false_iff_ne.mpr (h x hx y hy)),
    List.flatMap_append]

theorem resolve_argument_space {u : Text} (hu : u ≠ []) (h : ∀ c ∈ u, g_ascii_isspace c = true) :
    resolve_argument raspi_serial_alias u = u := by
  cases u with
  | nil => exact absurd rfl hu
  | cons c u =>
    unfold resolve_argument
    rw [not_console_of_space (h c List.mem_cons_self)]
    rfl

/-- A run of whitespace stays. -/
theorem resolve_spaces {u rest : Text} (hu : ∀ c ∈ u, g_ascii_isspace c = true)
    (hrest : ∀ c ∈ rest.head?, g_ascii_isspace c = false) :
    resolve raspi_serial_alias (u ++ rest) = u ++ resolve raspi_serial_alias rest := by
  by_cases hnil : u = []
  · rw [hnil, List.nil_append, List.nil_append]
  · rw [resolve_append, resolve_uniform _ hnil hu, resolve_argument_space _ hnil hu]
    intro x hx y hy
    rw [hu x (List.mem_of_mem_getLast? hx), hrest y hy]
    decide

/-- A byte of whitespace stays. -/
theorem resolve_space {c : Char} (hc : g_ascii_isspace c = true) (t : Text) :
    resolve raspi_serial_alias (c :: t) = c :: resolve raspi_serial_alias t := by
  have hrest : ∀ d ∈ (t.dropWhile g_ascii_isspace).head?, g_ascii_isspace d = false := by
    intro d hd
    have hnot := List.head?_dropWhile_not g_ascii_isspace t
    rw [hd] at hnot
    exact Bool.eq_false_iff.mpr (by simpa using hnot)
  have htake : ∀ d ∈ t.takeWhile g_ascii_isspace, g_ascii_isspace d = true :=
    fun d hd => List.mem_takeWhile_imp hd
  have hhead : ∀ d ∈ c :: t.takeWhile g_ascii_isspace, g_ascii_isspace d = true := by
    intro d hd
    rcases List.mem_cons.mp hd with rfl | hd
    · exact hc
    · exact htake d hd
  have hsplit : t = t.takeWhile g_ascii_isspace ++ t.dropWhile g_ascii_isspace :=
    List.takeWhile_append_dropWhile.symm
  calc resolve raspi_serial_alias (c :: t)
      = resolve raspi_serial_alias
          ((c :: t.takeWhile g_ascii_isspace) ++ t.dropWhile g_ascii_isspace) := by
        rw [List.cons_append, ← hsplit]
    _ = c :: (t.takeWhile g_ascii_isspace ++
          resolve raspi_serial_alias (t.dropWhile g_ascii_isspace)) :=
        resolve_spaces _ hhead hrest
    _ = c :: resolve raspi_serial_alias t := by
        rw [← resolve_spaces _ htake hrest, ← hsplit]

/-- An argument is resolved on its own. -/
theorem resolve_word {w rest : Text} (hw : w ≠ []) (hsolid : Solid w) (hrest : Ends rest) :
    resolve raspi_serial_alias (w ++ rest) =
      resolve_argument raspi_serial_alias w ++ resolve raspi_serial_alias rest := by
  rw [resolve_append, resolve_uniform _ hw hsolid]
  intro x hx y hy
  rw [hsolid x (List.mem_of_mem_getLast? hx), hrest y hy]
  decide

/-! ## One argument -/

theorem not_digit_of_space {c : Char} (hc : g_ascii_isspace c = true) :
    g_ascii_isdigit c = false := by
  unfold g_ascii_isspace at hc
  simp only [Bool.or_eq_true, beq_iff_eq] at hc
  rcases hc with (((rfl | rfl) | rfl) | rfl) | rfl
  all_goals decide

/-- A prefix without whitespace is one of the argument. -/
theorem isPrefixOf_word {pre w rest : Text} (hpre : Solid pre) (hrest : Ends rest) :
    pre.isPrefixOf (w ++ rest) = pre.isPrefixOf w := by
  induction pre generalizing w with
  | nil => simp
  | cons c pre ih =>
    have hsolid : Solid pre := fun d hd => hpre d (List.mem_cons_of_mem _ hd)
    cases w with
    | nil =>
      cases rest with
      | nil => rfl
      | cons d rest =>
        have hne : (c == d) = false := by
          rw [beq_eq_false_iff_ne]
          rintro rfl
          have hspace := hrest c rfl
          rw [hpre c List.mem_cons_self] at hspace
          cases hspace
        show (c == d && _) = false
        rw [hne, Bool.false_and]
    | cons d w =>
      show (c == d && pre.isPrefixOf (w ++ rest)) = (c == d && pre.isPrefixOf w)
      rw [ih hsolid]

theorem digits_word {w rest : Text} (hrest : Ends rest) :
    (w ++ rest).takeWhile g_ascii_isdigit = w.takeWhile g_ascii_isdigit ∧
      (w ++ rest).dropWhile g_ascii_isdigit = w.dropWhile g_ascii_isdigit ++ rest := by
  induction w with
  | nil =>
    cases rest with
    | nil => exact ⟨rfl, rfl⟩
    | cons d rest =>
      have hd : ¬ g_ascii_isdigit d = true := by
        rw [not_digit_of_space (hrest d rfl)]
        decide
      rw [List.nil_append, List.takeWhile_cons_of_neg hd, List.dropWhile_cons_of_neg hd]
      exact ⟨rfl, rfl⟩
  | cons c w ih =>
    by_cases hc : g_ascii_isdigit c = true
    · rw [List.cons_append, List.takeWhile_cons_of_pos hc, List.takeWhile_cons_of_pos hc,
        List.dropWhile_cons_of_pos hc, List.dropWhile_cons_of_pos hc, ih.1]
      exact ⟨rfl, ih.2⟩
    · rw [List.cons_append, List.takeWhile_cons_of_neg hc, List.takeWhile_cons_of_neg hc,
        List.dropWhile_cons_of_neg hc, List.dropWhile_cons_of_neg hc]
      exact ⟨rfl, rfl⟩

theorem head_word {w rest : Text} (hrest : Ends rest) :
    ((w ++ rest).head?.any g_ascii_isdigit = w.head?.any g_ascii_isdigit) ∧
      ((w ++ rest).head?.all (fun c => c == ',' || g_ascii_isspace c) =
        w.head?.all (fun c => c == ',' || g_ascii_isspace c)) := by
  cases w with
  | nil =>
    cases rest with
    | nil => exact ⟨rfl, rfl⟩
    | cons d rest =>
      have hspace : g_ascii_isspace d = true := hrest d rfl
      constructor
      · exact not_digit_of_space hspace
      · show (d == ',' || g_ascii_isspace d) = true
        rw [hspace, Bool.or_true]
  | cons c w => exact ⟨rfl, rfl⟩

/-- At the start of an argument the condition looks at the argument only. -/
theorem console_at_word {prev : Option Char} (hprev : prev.all g_ascii_isspace = true)
    {w rest : Text} (hrest : Ends rest) :
    console_at raspi_serial_alias prev (w ++ rest) =
      (console_at raspi_serial_alias none w).map fun r => (r.1, r.2 ++ rest) := by
  have hsolid : Solid console := solid_of_all rfl
  have hnone : (none : Option Char).all g_ascii_isspace = true := rfl
  unfold console_at
  rw [hprev, hnone, isPrefixOf_word hsolid hrest]
  by_cases hpre : console.isPrefixOf w = true
  · have hle : console.length ≤ w.length := (List.isPrefixOf_iff_prefix.mp hpre).length_le
    rw [List.drop_append_of_le_length hle]
    generalize w.drop console.length = p
    obtain ⟨hany, -⟩ := head_word (w := p) hrest
    obtain ⟨htake, hdrop⟩ := digits_word (w := p) hrest
    rw [hany]
    split
    · unfold qemu_strtoul
      rw [htake, hdrop]
      dsimp only
      by_cases hfits : digits_value (p.takeWhile g_ascii_isdigit) < 2 ^ 64
      · rw [if_pos hfits, if_pos hfits]
        dsimp only
        rw [(head_word hrest).2]
        by_cases htail : (p.dropWhile g_ascii_isdigit).head?.all
            (fun c => c == ',' || g_ascii_isspace c) = true
        · rw [if_pos htail, if_pos htail]
          cases raspi_serial_alias (digits_value (p.takeWhile g_ascii_isdigit)) with
          | none => rfl
          | some kind =>
            dsimp only
            by_cases hkind : kind ≠ .RPI_UART_NONE
            · rw [if_pos hkind, if_pos hkind]
              rfl
            · rw [if_neg hkind, if_neg hkind]
              rfl
        · rw [if_neg htail, if_neg htail]
          rfl
      · rw [if_neg hfits, if_neg hfits]
        rfl
    · rfl
  · rw [Bool.eq_false_iff.mpr hpre]
    rfl

theorem digit_first (p : Text) :
    p.head?.any g_ascii_isdigit = true ↔ p.takeWhile g_ascii_isdigit ≠ [] := by
  cases p with
  | nil => simp
  | cons c p =>
    by_cases hc : g_ascii_isdigit c = true
    · rw [List.takeWhile_cons_of_pos hc]
      exact ⟨fun _ => List.cons_ne_nil _ _, fun _ => hc⟩
    · rw [List.takeWhile_cons_of_neg hc]
      exact ⟨fun h => absurd h hc, fun h => absurd rfl h⟩

/-- In an argument only a comma can follow the number. -/
theorem comma_first {options : Text} (h : Solid options) :
    options.head?.all (fun c => c == ',' || g_ascii_isspace c) = options.head?.all (· == ',') := by
  cases options with
  | nil => rfl
  | cons c options =>
    show (c == ',' || g_ascii_isspace c) = (c == ',')
    rw [h c List.mem_cons_self, Bool.or_false]

/-- An argument that the condition holds of is resolved, and no other. -/
theorem resolve_argument_eq {w : Text} (hw : Solid w) :
    resolve_argument raspi_serial_alias w =
      match console_at raspi_serial_alias none w with
      | some (out, tail) => out ++ tail
      | none => w := by
  have hnone : (none : Option Char).all g_ascii_isspace = true := rfl
  unfold resolve_argument console_at
  rw [hnone]
  by_cases hpre : console.isPrefixOf w = true
  · rw [if_pos hpre, hpre]
    have hsolid : Solid (w.drop console.length) := fun c hc => hw c (List.mem_of_mem_drop hc)
    revert hsolid
    generalize w.drop console.length = p
    intro hsolid
    have hcomma := @comma_first (p.dropWhile g_ascii_isdigit)
      (fun c hc => hsolid c (List.dropWhile_subset _ hc))
    dsimp only
    unfold qemu_strtoul
    dsimp only
    by_cases hdigits : p.takeWhile g_ascii_isdigit ≠ []
    · rw [(digit_first p).mpr hdigits]
      by_cases hfits : digits_value (p.takeWhile g_ascii_isdigit) < 2 ^ 64
      · rw [if_pos hfits]
        dsimp only
        rw [hcomma]
        by_cases htail : (p.dropWhile g_ascii_isdigit).head?.all (· == ',') = true
        · rw [if_pos ⟨hdigits, htail, hfits⟩, if_pos htail]
          cases raspi_serial_alias (digits_value (p.takeWhile g_ascii_isdigit)) with
          | none => rfl
          | some kind =>
            cases kind with
            | RPI_UART_NONE => rfl
            | RPI_UART_PL011 => rfl
            | RPI_UART_MINI => rfl
        · rw [if_neg (fun h => htail h.2.1), if_neg htail]
          rfl
      · rw [if_neg (fun h => hfits h.2.2), if_neg hfits]
        rfl
    · rw [if_neg (fun h => hdigits h.1),
        Bool.eq_false_iff.mpr (fun h => hdigits ((digit_first p).mp h))]
      rfl
  · rw [if_neg hpre, Bool.eq_false_iff.mpr hpre]
    rfl

/-! ## The loop -/

/-- Inside an argument, or at whitespace, the condition fails. -/
theorem console_at_inside {c : Char} (hc : g_ascii_isspace c = false) (p : Text) :
    console_at raspi_serial_alias (some c) p = none := by
  have hall : (some c).all g_ascii_isspace = false := hc
  unfold console_at
  rw [hall]
  rfl

theorem console_at_space {c : Char} (hc : g_ascii_isspace c = true) (prev : Option Char)
    (p : Text) : console_at raspi_serial_alias prev (c :: p) = none := by
  unfold console_at
  rw [not_console_of_space hc, Bool.and_false, Bool.false_and]
  rfl

/-- What is left of an argument is copied. -/
theorem loop_copies {w rest : Text} (hw : Solid w) {fuel : Nat} {c : Char}
    (hc : g_ascii_isspace c = false) (hfuel : (w ++ rest).length ≤ fuel) :
    ∃ fuel' prev', rest.length ≤ fuel' ∧
      fixup_loop raspi_serial_alias fuel (some c) (w ++ rest) =
        w ++ fixup_loop raspi_serial_alias fuel' prev' rest := by
  induction w generalizing fuel c with
  | nil => exact ⟨fuel, some c, hfuel, rfl⟩
  | cons d w ih =>
    have hd : g_ascii_isspace d = false := hw d List.mem_cons_self
    have hsolid : Solid w := fun e he => hw e (List.mem_cons_of_mem _ he)
    cases fuel with
    | zero => simp at hfuel
    | succ fuel =>
      have hlen : (w ++ rest).length ≤ fuel := by
        rw [List.cons_append, List.length_cons] at hfuel
        omega
      obtain ⟨fuel', prev', hle, heq⟩ := ih hsolid hd hlen
      refine ⟨fuel', prev', hle, ?_⟩
      rw [List.cons_append, fixup_loop, console_at_inside _ hc]
      dsimp only
      rw [heq, List.cons_append]

/-- What the condition leaves of an argument, after the number. -/
theorem console_at_tail {w out tail : Text} (hw : Solid w)
    (h : console_at raspi_serial_alias none w = some (out, tail)) :
    Solid tail ∧ ∃ digits, digits ≠ [] ∧ w = console ++ digits ++ tail := by
  unfold console_at at h
  split at h
  · rename_i hcond
    simp only [Bool.and_eq_true] at hcond
    obtain ⟨⟨-, hpre⟩, hdigit⟩ := hcond
    obtain ⟨p, hp⟩ := List.isPrefixOf_iff_prefix.mp hpre
    have hdrop : w.drop console.length = p := by rw [← hp, List.drop_left]
    rw [hdrop] at h hdigit
    unfold qemu_strtoul at h
    dsimp only at h
    split at h
    · rename_i n t heq
      split at heq
      · obtain ⟨rfl, rfl⟩ := Prod.mk.inj (Option.some.inj heq)
        split at h
        · split at h
          · split at h
            · obtain ⟨-, rfl⟩ := Prod.mk.inj (Option.some.inj h)
              refine ⟨fun c hc => ?_, p.takeWhile g_ascii_isdigit, (digit_first p).mp hdigit, ?_⟩
              · apply hw
                rw [← hp]
                exact List.mem_append_right _ (List.dropWhile_subset _ hc)
              · rw [List.append_assoc, List.takeWhile_append_dropWhile, hp]
            · cases h
          · cases h
        · cases h
      · cases heq
    · cases h
  · cases h

/-- An argument is resolved, and the loop goes on behind it. -/
theorem loop_word {prev : Option Char} (hprev : prev.all g_ascii_isspace = true) {w rest : Text}
    (hne : w ≠ []) (hw : Solid w) (hrest : Ends rest) {fuel : Nat}
    (hfuel : (w ++ rest).length ≤ fuel) :
    ∃ fuel' prev', rest.length ≤ fuel' ∧
      fixup_loop raspi_serial_alias fuel prev (w ++ rest) =
        resolve_argument raspi_serial_alias w ++
          fixup_loop raspi_serial_alias fuel' prev' rest := by
  have hat := console_at_word raspi_serial_alias hprev (w := w) hrest
  rw [resolve_argument_eq _ hw]
  cases w with
  | nil => exact absurd rfl hne
  | cons c w =>
    cases fuel with
    | zero => simp at hfuel
    | succ fuel =>
      rw [List.cons_append] at hat ⊢
      cases hcond : console_at raspi_serial_alias none (c :: w) with
      | none =>
        rw [hcond] at hat
        have hsolid : Solid w := fun d hd => hw d (List.mem_cons_of_mem _ hd)
        have hlen : (w ++ rest).length ≤ fuel := by
          rw [List.cons_append, List.length_cons] at hfuel
          omega
        obtain ⟨fuel', prev', hle, heq⟩ :=
          loop_copies raspi_serial_alias hsolid (hw c List.mem_cons_self) hlen
        refine ⟨fuel', prev', hle, ?_⟩
        rw [fixup_loop, hat]
        dsimp only [Option.map_none]
        rw [heq, List.cons_append]
      | some r =>
        obtain ⟨out, tail⟩ := r
        rw [hcond] at hat
        obtain ⟨htail, digits, hdigits, hsplit⟩ := console_at_tail raspi_serial_alias hw hcond
        -- the loop goes on at the tail, behind a byte of the argument
        have htext : c :: (w ++ rest) = (console ++ digits) ++ (tail ++ rest) := by
          rw [← List.cons_append, hsplit, List.append_assoc]
        have hlast := List.getLast?_eq_some_getLast
          (List.append_ne_nil_of_right_ne_nil console hdigits)
        generalize (console ++ digits).getLast _ = last at hlast
        have hspace : g_ascii_isspace last = false := by
          apply hw
          rw [hsplit]
          exact List.mem_append_left _ (List.mem_of_mem_getLast? hlast)
        have hlen : (tail ++ rest).length ≤ fuel := by
          have hpos : 0 < console.length := by decide
          rw [List.cons_append, htext, List.length_append, List.length_append] at hfuel
          omega
        obtain ⟨fuel', prev', hle, heq⟩ :=
          loop_copies raspi_serial_alias htail hspace hlen
        refine ⟨fuel', prev', hle, ?_⟩
        rw [fixup_loop, hat]
        dsimp only [Option.map_some]
        rw [htext, List.length_append, Nat.add_sub_cancel, List.take_left, hlast, heq,
          List.append_assoc]

/-- Between arguments the loop agrees with `resolve`. -/
theorem fixup_loop_eq {fuel : Nat} {prev : Option Char} {text : Text}
    (hfuel : text.length ≤ fuel) (hstart : prev.all g_ascii_isspace = true ∨ Ends text) :
    fixup_loop raspi_serial_alias fuel prev text = resolve raspi_serial_alias text := by
  induction text using by_arguments generalizing fuel prev with
  | nil =>
    rw [resolve_nil]
    cases fuel with
    | zero => rfl
    | succ fuel => rfl
  | space c t hc ih =>
    cases fuel with
    | zero => simp at hfuel
    | succ fuel =>
      have hlen : t.length ≤ fuel := by
        rw [List.length_cons] at hfuel
        omega
      rw [fixup_loop, console_at_space _ hc, resolve_space _ hc]
      dsimp only
      have hprev : (some c).all g_ascii_isspace = true := hc
      rw [ih hlen (.inl hprev)]
  | word w rest hne hsolid hrest ih =>
    have hprev : prev.all g_ascii_isspace = true := by
      apply hstart.resolve_right
      intro hends
      cases w with
      | nil => exact hne rfl
      | cons c w =>
        have hspace := hends c rfl
        rw [hsolid c List.mem_cons_self] at hspace
        cases hspace
    obtain ⟨fuel', prev', hle, heq⟩ := loop_word raspi_serial_alias hprev hne hsolid hrest hfuel
    rw [heq, resolve_word _ hne hsolid hrest, ih hle (.inr hrest)]

/-! ## Laws -/

/-- Whitespace keeps what is before it and what is behind it apart. -/
theorem resolve_apart {c : Char} (hc : g_ascii_isspace c = true) (a b : Text) :
    resolve raspi_serial_alias (a ++ c :: b) =
      resolve raspi_serial_alias a ++ c :: resolve raspi_serial_alias b := by
  induction a using by_arguments with
  | nil => exact resolve_space _ hc b
  | space d t hd ih =>
    rw [List.cons_append, resolve_space _ hd, resolve_space _ hd, ih, List.cons_append]
  | word w rest hne hsolid hrest ih =>
    have hends : Ends (rest ++ c :: b) := by
      cases rest with
      | nil =>
        intro d hd
        obtain rfl := Option.some.inj hd
        exact hc
      | cons e rest => exact hrest
    rw [List.append_assoc, resolve_word _ hne hsolid hends, resolve_word _ hne hsolid hrest, ih,
      List.append_assoc]

theorem solid_append {u v : Text} (hu : Solid u) (hv : Solid v) : Solid (u ++ v) := by
  intro c hc
  rcases List.mem_append.mp hc with h | h
  · exact hu c h
  · exact hv c h

theorem solid_decimal (n : Nat) : Solid (decimal n) := by
  intro c hc
  have hdigit : g_ascii_isdigit c = true :=
    Nat.isDigit_of_mem_toDigits (by decide) (by decide) hc
  by_contra hspace
  rw [not_digit_of_space (by simpa using hspace)] at hdigit
  cases hdigit

/-- What replaces an argument is one that is not replaced. -/
theorem resolved_argument {w : Text} (hw : Solid w) :
    resolve_argument raspi_serial_alias w = w ∨
      Solid (resolve_argument raspi_serial_alias w) ∧
        resolve_argument raspi_serial_alias w ≠ [] ∧
        console.isPrefixOf (resolve_argument raspi_serial_alias w) = false := by
  have htty : ∀ (tty : Text) (n : Nat) (options : Text), Solid tty → tty ≠ [] → Solid options →
      console.isPrefixOf (tty ++ (decimal n ++ options)) = false →
      Solid (tty ++ decimal n ++ options) ∧ tty ++ decimal n ++ options ≠ [] ∧
        console.isPrefixOf (tty ++ decimal n ++ options) = false := by
    intro tty n options hs hne ho hpre
    rw [List.append_assoc]
    exact ⟨solid_append hs (solid_append (solid_decimal n) ho),
      List.append_ne_nil_of_left_ne_nil hne _, hpre⟩
  have hoptions : Solid ((w.drop console.length).dropWhile g_ascii_isdigit) :=
    fun c hc => hw c (List.mem_of_mem_drop (List.dropWhile_subset _ hc))
  unfold resolve_argument
  dsimp only
  split
  · split
    · split
      · exact .inr (htty "console=ttyS".toList _ _ (solid_of_all rfl) (by decide) hoptions rfl)
      · exact .inr (htty "console=ttyAMA".toList _ _ (solid_of_all rfl) (by decide) hoptions rfl)
      · exact .inl rfl
    · exact .inl rfl
  · exact .inl rfl

theorem resolve_argument_twice {w : Text} (hw : Solid w) :
    resolve_argument raspi_serial_alias (resolve_argument raspi_serial_alias w) =
      resolve_argument raspi_serial_alias w := by
  rcases resolved_argument raspi_serial_alias hw with h | ⟨-, -, hpre⟩
  · rw [h, h]
  · generalize resolve_argument raspi_serial_alias w = v at hpre ⊢
    unfold resolve_argument
    rw [hpre]
    rfl

theorem resolve_ends {rest : Text} (hrest : Ends rest) :
    Ends (resolve raspi_serial_alias rest) := by
  cases rest with
  | nil => exact hrest
  | cons c rest =>
    have hc : g_ascii_isspace c = true := hrest c rfl
    rw [resolve_space _ hc]
    intro d hd
    obtain rfl := Option.some.inj hd
    exact hc

theorem resolve_twice (text : Text) :
    resolve raspi_serial_alias (resolve raspi_serial_alias text) =
      resolve raspi_serial_alias text := by
  induction text using by_arguments with
  | nil => rfl
  | space c t hc ih => rw [resolve_space _ hc, resolve_space _ hc, ih]
  | word w rest hne hsolid hrest ih =>
    have hends := resolve_ends raspi_serial_alias hrest
    have hagain : resolve_argument raspi_serial_alias w ≠ [] ∧
        Solid (resolve_argument raspi_serial_alias w) := by
      rcases resolved_argument raspi_serial_alias hsolid with h | ⟨hs, hn, -⟩
      · rw [h]
        exact ⟨hne, hsolid⟩
      · exact ⟨hn, hs⟩
    rw [resolve_word _ hne hsolid hrest, resolve_word _ hagain.1 hagain.2 hends,
      resolve_argument_twice _ hsolid, ih]

/-! ## The command line -/

/-- The DTB's bootargs, a space and `-append`; either one alone where the other is empty. -/
def joined (dtb append : Text) : Text :=
  if append = [] then dtb
  else if dtb = [] then append
  else dtb ++ ' ' :: append

/-- **The kernel gets the joined command line, resolved argument by argument; a space
    keeps arguments apart, and resolving twice is resolving once.** -/
theorem cmdline_resolved :
    (∀ dtb append, resulting_bootargs raspi_serial_alias dtb append =
      some (resolve raspi_serial_alias (joined dtb append))) ∧
    (∀ a b, resolve raspi_serial_alias (a ++ ' ' :: b) =
      resolve raspi_serial_alias a ++ ' ' :: resolve raspi_serial_alias b) ∧
    ∀ text, resolve raspi_serial_alias (resolve raspi_serial_alias text) =
      resolve raspi_serial_alias text := by
  refine ⟨fun dtb append => ?_, fun a b => resolve_apart _ (by decide) a b, resolve_twice _⟩
  have hloop : ∀ text : Text, fixup_loop raspi_serial_alias text.length none text =
      resolve raspi_serial_alias text :=
    fun text => fixup_loop_eq _ (Nat.le_refl _) (.inl rfl)
  unfold resulting_bootargs raspi_fixup_cmdline joined boot_bootargs
  cases append with
  | nil =>
    dsimp only
    rw [if_pos rfl, if_pos rfl, hloop]
  | cons c append =>
    cases dtb with
    | nil =>
      dsimp only
      rw [if_neg (List.cons_ne_nil _ _), if_neg (List.cons_ne_nil _ _), if_pos rfl, hloop]
    | cons d dtb =>
      dsimp only
      rw [if_neg (List.cons_ne_nil _ _), if_neg (List.cons_ne_nil _ _),
        if_neg (List.cons_ne_nil _ _), hloop, List.cons_append]

/-- Without `-append` it is not `-append` alone: the DTB's bootargs stay. -/
theorem dtb_bootargs_stay : ¬ ∀ (raspi_serial_alias : Nat → Option RaspiUartKind)
    (dtb append : Text), resulting_bootargs raspi_serial_alias dtb append =
      some (resolve raspi_serial_alias
        (if dtb = [] ∨ append = [] then append else dtb ++ ' ' :: append)) := by
  intro h
  have hquiet := h (fun _ => none) "quiet".toList []
  rw [if_pos (.inr rfl)] at hquiet
  cases hquiet

end Raspi
