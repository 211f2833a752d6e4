import Mathlib.Data.List.Basic

/-! # Runs of a machine, step by step

    A machine with a step function runs over a list of inputs.  What a run
    should do is often said of each step: of the state before it and the input.

    * **Along**: a property of every step of a run (`Along`), of a run that goes
      on (`along_snoc`), and as a test.
    * **Outputs**: what the steps of a run give out (`outputs`).
    * **The rule**: two properties that an invariant makes the same at each step
      are the same of runs (`along_congr`); the invariant need only be kept by
      the steps that have the property. -/

namespace Run

variable {σ α : Type*} (step : σ → α → σ)

/-- `P` holds of every step of the run. -/
def Along (P : σ → α → Prop) : σ → List α → Prop
  | _, [] => True
  | s, a :: l => P s a ∧ Along P (step s a) l

instance Along.decidable (P : σ → α → Prop) [∀ s a, Decidable (P s a)] :
    ∀ (s : σ) (l : List α), Decidable (Along step P s l)
  | _, [] => isTrue trivial
  | s, a :: l => @instDecidableAnd _ _ _ (Along.decidable P (step s a) l)

variable {step}

theorem along_snoc {P : σ → α → Prop} (s : σ) (l : List α) (a : α) :
    Along step P s (l ++ [a]) ↔ Along step P s l ∧ P (l.foldl step s) a := by
  induction l generalizing s with
  | nil => simp [Along]
  | cons b l ih => simp [Along, ih, and_assoc]

theorem along_congr {I : σ → Prop} {Q P P' : σ → α → Prop}
    (hkeep : ∀ s a, I s → Q s a → P s a → I (step s a))
    (hstep : ∀ s a, I s → Q s a → (P s a ↔ P' s a)) {s : σ} {l : List α} (hs : I s)
    (hl : Along step Q s l) : Along step P s l ↔ Along step P' s l := by
  induction l generalizing s with
  | nil => exact Iff.rfl
  | cons a l ih =>
    obtain ⟨ha, hrest⟩ := hl
    constructor
    · rintro ⟨hP, hPs⟩
      exact ⟨(hstep s a hs ha).mp hP, (ih (hkeep s a hs ha hP) hrest).mp hPs⟩
    · rintro ⟨hP', hPs'⟩
      have hP := (hstep s a hs ha).mpr hP'
      exact ⟨hP, (ih (hkeep s a hs ha hP) hrest).mpr hPs'⟩

/-- An invariant holds along a run. -/
theorem along_invariant {I : σ → Prop} {Q : σ → α → Prop}
    (hkeep : ∀ s a, I s → Q s a → I (step s a)) {s : σ} {l : List α} (hs : I s)
    (hl : Along step Q s l) : I (l.foldl step s) := by
  induction l generalizing s with
  | nil => exact hs
  | cons a l ih => exact ih (hkeep s a hs hl.1) hl.2

/-- A property of the inputs alone. -/
theorem along_of_mem {P : σ → α → Prop} (s : σ) {l : List α} (h : ∀ a ∈ l, ∀ s, P s a) :
    Along step P s l := by
  induction l generalizing s with
  | nil => trivial
  | cons a l ih =>
    exact ⟨h a List.mem_cons_self s, ih _ (fun b hb => h b (List.mem_cons_of_mem a hb))⟩

theorem along_of_forall {P : σ → α → Prop} (h : ∀ s a, P s a) (s : σ) (l : List α) :
    Along step P s l := along_of_mem s (fun a _ s => h s a)

/-! ## Outputs -/

/-- What the steps give out, each from the state before it and the input. -/
def outputs {β : Type*} (step : σ → α → σ) (f : σ → α → List β) : σ → List α → List β
  | _, [] => []
  | s, a :: l => f s a ++ outputs step f (step s a) l

/-- A queue along a run: what goes in is what comes out and what is left. -/
theorem outputs_queue {β : Type*} {into out : σ → α → List β} {queue : σ → List β}
    (hstep : ∀ s a, queue s ++ into s a = out s a ++ queue (step s a)) (s : σ) (l : List α) :
    queue s ++ outputs step into s l = outputs step out s l ++ queue (l.foldl step s) := by
  induction l generalizing s with
  | nil => simp [outputs]
  | cons a l ih =>
    calc queue s ++ (into s a ++ outputs step into (step s a) l)
        = out s a ++ (queue (step s a) ++ outputs step into (step s a) l) := by
          rw [← List.append_assoc, hstep, List.append_assoc]
      _ = out s a ++ outputs step out (step s a) l ++ queue (l.foldl step (step s a)) := by
          rw [ih, List.append_assoc]

end Run
