import Mathlib.Data.List.Basic

/-! # Machines that compute a function of the past

    A machine reads a list element by element, keeps a state and gives out a
    list of outputs for each element; it may also get stuck.  What it should
    do is often said without a state: the outputs at an element are a
    function of the elements before it.

    * **History**: the outputs along a list, each from the past and the
      element (`history`).
    * **The rule**: if the states are related to the past, and a step from a
      related state gives the outputs of the past and a related state, then a
      run gives the history (`run_eq_history`). -/

namespace History

variable {α β σ : Type*}

/-! ## Histories -/

/-- The outputs along a list whose past is given. -/
def along (f : List α → α → List β) : List α → List α → List β
  | _, [] => []
  | past, x :: xs => f past x ++ along f (past ++ [x]) xs

/-- The outputs along a list. -/
def history (f : List α → α → List β) (l : List α) : List β :=
  along f [] l

@[simp] theorem along_nil (f : List α → α → List β) (past : List α) :
    along f past [] = [] := rfl

theorem along_append (f : List α → α → List β) (past l m : List α) :
    along f past (l ++ m) = along f past l ++ along f (past ++ l) m := by
  induction l generalizing past with
  | nil => simp
  | cons x l ih => simp [along, ih]

@[simp] theorem history_nil (f : List α → α → List β) : history f [] = [] := rfl

/-- One more element adds its own outputs. -/
@[simp] theorem history_snoc (f : List α → α → List β) (l : List α) (x : α) :
    history f (l ++ [x]) = history f l ++ f l x := by
  simp [history, along_append, along]

theorem along_congr {f g : List α → α → List β} {past past' : List α}
    (h : ∀ seen x, f (past ++ seen) x = g (past' ++ seen) x) (l : List α) :
    along f past l = along g past' l := by
  induction l generalizing past past' with
  | nil => rfl
  | cons x l ih =>
    have hx := h [] x
    simp only [List.append_nil] at hx
    have hrest : along f (past ++ [x]) l = along g (past' ++ [x]) l :=
      ih (fun seen y => by simpa using h (x :: seen) y)
    simp only [along, hx, hrest]

theorem map_along {γ : Type*} (g : β → γ) (f : List α → α → List β) (past l : List α) :
    (along f past l).map g = along (fun past x => (f past x).map g) past l := by
  induction l generalizing past with
  | nil => rfl
  | cons x l ih => simp [along, ih]

theorem along_map {γ : Type*} (g : γ → α) (f : List α → α → List β) (past : List α)
    (seen l : List γ) :
    along f (past ++ seen.map g) (l.map g) =
      along (fun seen x => f (past ++ seen.map g) (g x)) seen l := by
  induction l generalizing seen with
  | nil => rfl
  | cons x l ih =>
    have h := ih (seen ++ [x])
    rw [List.map_append, ← List.append_assoc] at h
    rw [List.map_cons, along, along]
    exact congrArg _ h

theorem filterMap_along {γ : Type*} (g : β → Option γ) (f : List α → α → List β)
    (past l : List α) :
    (along f past l).filterMap g = along (fun past x => (f past x).filterMap g) past l := by
  induction l generalizing past with
  | nil => rfl
  | cons x l ih => simp [along, ih]

theorem filter_along (p : β → Bool) (f : List α → α → List β) (past l : List α) :
    (along f past l).filter p = along (fun past x => (f past x).filter p) past l := by
  induction l generalizing past with
  | nil => rfl
  | cons x l ih => simp [along, ih]

theorem exists_of_mem_along {f : List α → α → List β} {past l : List α} {b : β}
    (h : b ∈ along f past l) : ∃ seen x, b ∈ f seen x := by
  induction l generalizing past with
  | nil => exact absurd h List.not_mem_nil
  | cons x l ih =>
    rcases List.mem_append.mp h with h | h
    · exact ⟨past, x, h⟩
    · exact ih h

/-! ## Machines -/

/-- A run of a machine over a list, with the outputs in order. -/
def run (step : σ → α → Option (σ × List β)) : σ → List α → Option (σ × List β)
  | s, [] => some (s, [])
  | s, x :: xs =>
    match step s x with
    | none => none
    | some (s, out) =>
      match run step s xs with
      | none => none
      | some (s, more) => some (s, out ++ more)

theorem run_cons {step : σ → α → Option (σ × List β)} {s s' : σ} {x : α} {out : List β}
    (h : step s x = some (s', out)) (xs : List α) :
    run step s (x :: xs) = (run step s' xs).map (fun r => (r.1, out ++ r.2)) := by
  simp only [run, h]
  cases run step s' xs with
  | none => rfl
  | some r => rfl

/-- A run knows the machine by its steps on the elements it reads. -/
theorem run_congr {step step' : σ → α → Option (σ × List β)} {l : List α}
    (h : ∀ x ∈ l, ∀ s, step s x = step' s x) (s : σ) : run step s l = run step' s l := by
  induction l generalizing s with
  | nil => rfl
  | cons x l ih =>
    have hrest := ih (fun y hy => h y (List.mem_cons_of_mem x hy))
    simp only [run, h x List.mem_cons_self, hrest]

/-- The rule for a run whose past is `past`. -/
theorem run_eq_along {step : σ → α → Option (σ × List β)} {f : List α → α → List β}
    {R : List α → σ → Prop}
    (hstep : ∀ past s x, R past s →
      ∃ s', step s x = some (s', f past x) ∧ R (past ++ [x]) s')
    (l : List α) {past : List α} {s : σ} (h : R past s) :
    ∃ s', run step s l = some (s', along f past l) ∧ R (past ++ l) s' := by
  -- the past grows by the element that the run has just read
  induction l generalizing past s with
  | nil => exact ⟨s, rfl, by simpa using h⟩
  | cons x l ih =>
    obtain ⟨s₁, h₁, hR₁⟩ := hstep past s x h
    obtain ⟨s₂, h₂, hR₂⟩ := ih hR₁
    refine ⟨s₂, ?_, by simpa using hR₂⟩
    rw [run_cons h₁, h₂]
    rfl

/-- A machine that is in step with the past gives the history. -/
theorem run_eq_history {step : σ → α → Option (σ × List β)} {f : List α → α → List β}
    {R : List α → σ → Prop} {s : σ} (hinit : R [] s)
    (hstep : ∀ past s x, R past s →
      ∃ s', step s x = some (s', f past x) ∧ R (past ++ [x]) s') (l : List α) :
    ∃ s', run step s l = some (s', history f l) ∧ R l s' := by
  obtain ⟨s', hrun, hR⟩ := run_eq_along hstep l hinit
  exact ⟨s', hrun, by simpa using hR⟩

end History
