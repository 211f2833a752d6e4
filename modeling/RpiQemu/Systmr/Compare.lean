import RpiQemu.Framework.Bytes
import RpiQemu.Framework.Run
import Mathlib.Logic.Function.Basic

/-! # The compares of the BCM2835 system timer

    The write of a compare register in `hw/timer/bcm2835_systmr.c`.  The
    hardware matches a compare with the low 32 bits of a free-running counter; a
    value that the counter has just passed is taken as due.

    Time is the virtual clock in microseconds, which is the counter.  A timer
    that the clock reaches runs at its deadline.

    * **Deadlines**: the time a compare value stands for (`deadline_spec`), and
      what it is for a guest that adds to a counter it read earlier
      (`deadline_of_counter`).
    * **Runs**: a programmed compare fires once, at its deadline, whatever the
      other compares do (`compare_fires_once`). -/

namespace Systmr

open Bytes Run

/-! ## The device -/

/-- `BCM2835SystemTimerState`: the compares, their timers, and the clock. -/
structure BCM2835SystemTimerState where
  compare : Nat → Nat := fun _ => 0
  timer : Nat → Option Nat := fun _ => none
  now : Nat := 0

/-- `MAX((int32_t)(value - (uint32_t)now), 0)`. -/
def triggers_delay_us (value now : Nat) : Nat :=
  (max (toInt32 ((value + 2 ^ 32 - now % 2 ^ 32) % 2 ^ 32)) 0).toNat

/-- `bcm2835_systmr_write` of the compare register `index`. -/
def bcm2835_systmr_write (s : BCM2835SystemTimerState) (index value64 : Nat) :
    BCM2835SystemTimerState :=
  let value := value64 % 2 ^ 32
  { s with
    compare := Function.update s.compare index value
    timer := Function.update s.timer index (some (s.now + triggers_delay_us value s.now)) }

/-- A compare that fires, with the time its timer was set to. -/
structure Fired where
  index : Nat
  time : Nat
  deriving DecidableEq, Repr

/-- The deadline of a timer that the clock has reached, if it has. -/
def due (timer : Option Nat) (now : Nat) : List Nat := (timer.filter (· ≤ now)).toList

/-- There are four of them. -/
def compares : List Nat := [0, 1, 2, 3]

/-- What the clock makes fire. -/
def expired (s : BCM2835SystemTimerState) (now : Nat) : List Fired :=
  compares.flatMap fun i => (due (s.timer i) now).map (Fired.mk i)

inductive Op where
  | compare (index value64 : Nat)
  | clock (now : Nat)
  deriving DecidableEq, Repr

def step (s : BCM2835SystemTimerState) : Op → BCM2835SystemTimerState
  | .compare index value64 => bcm2835_systmr_write s index value64
  | .clock now =>
    { s with
      now := max s.now now
      timer := fun i => (s.timer i).filter (max s.now now < ·) }

def fires (s : BCM2835SystemTimerState) : Op → List Fired
  | .compare _ _ => []
  | .clock now => expired s (max s.now now)

def run (s : BCM2835SystemTimerState) (ops : List Op) : BCM2835SystemTimerState :=
  ops.foldl step s

/-! ## Deadlines -/

/-- The time at which a compare written at `now` fires. -/
def deadline (value now : Nat) : Nat := now + triggers_delay_us (value % 2 ^ 32) now

/-- The next time the counter has the value, if that is less than half its range
    ahead; else the value is taken as passed. -/
theorem deadline_spec (value now : Nat) :
    (now ≤ deadline value now ∧ deadline value now < now + 2 ^ 31) ∧
      (deadline value now % 2 ^ 32 = value % 2 ^ 32 ∨
        deadline value now = now ∧
          ∀ t, now ≤ t → t < now + 2 ^ 31 → t % 2 ^ 32 ≠ value % 2 ^ 32) := by
  unfold deadline triggers_delay_us toInt32
  have hlow := Nat.mod_lt now (show 0 < 2 ^ 32 by decide)
  have hvalue := Nat.mod_lt value (show 0 < 2 ^ 32 by decide)
  have hnow := Nat.div_add_mod now (2 ^ 32)
  generalize hd : (value % 2 ^ 32 + 2 ^ 32 - now % 2 ^ 32) % 2 ^ 32 = d
  by_cases hahead : d < 2 ^ 31
  · rw [if_pos hahead]
    refine ⟨by omega, .inl ?_⟩
    rw [show (max (d : Int) 0).toNat = d by omega]
    omega
  · -- the past half of the range
    rw [if_neg hahead]
    refine ⟨by omega, .inr ⟨by omega, ?_⟩⟩
    intro t hlo hhi heq
    omega

/-- A guest that adds to the counter it read is served at the time it means, or
    at once if that time has gone by. -/
theorem deadline_of_counter {read delta now : Nat} (hread : read ≤ now) (hdelta : delta < 2 ^ 31)
    (hlate : now ≤ read + delta + 2 ^ 31) :
    deadline (read + delta) now = max now (read + delta) := by
  unfold deadline triggers_delay_us toInt32
  have hlow := Nat.mod_lt now (show 0 < 2 ^ 32 by decide)
  have hvalue := Nat.mod_lt (read + delta) (show 0 < 2 ^ 32 by decide)
  generalize hd : ((read + delta) % 2 ^ 32 + 2 ^ 32 - now % 2 ^ 32) % 2 ^ 32 = d
  by_cases hahead : d < 2 ^ 31
  · rw [if_pos hahead, show (max (d : Int) 0).toNat = d by omega]
    omega
  · rw [if_neg hahead]
    omega

/-! ## Runs -/

/-- The operation writes the compare. -/
def Op.writes (i : Nat) : Op → Bool
  | .compare index _ => index == i
  | .clock _ => false

/-- What a compare fires. -/
def fired (i : Nat) (s : BCM2835SystemTimerState) (ops : List Op) : List Nat :=
  ((outputs step fires s ops).filter (·.index == i)).map (·.time)

theorem filter_fired (l : List Nat) (i j : Nat) :
    ((l.map (Fired.mk j)).filter (·.index == i)).map (·.time) = if j = i then l else [] := by
  induction l with
  | nil => simp
  | cons t l ih =>
    by_cases h : j = i
    · simp only [h, ite_true, List.map_cons] at ih ⊢
      simp [ih]
    · simp only [if_neg h, List.map_cons] at ih ⊢
      simp [h, ih]

theorem expired_of (s : BCM2835SystemTimerState) (now : Nat) {i : Nat} (hi : i ∈ compares) :
    ((expired s now).filter (·.index == i)).map (·.time) = due (s.timer i) now := by
  unfold expired
  simp only [compares, List.flatMap_cons, List.flatMap_nil, List.filter_append, List.map_append,
    List.append_nil, filter_fired]
  simp only [compares, List.mem_cons, List.not_mem_nil, or_false] at hi
  rcases hi with rfl | rfl | rfl | rfl <;> simp

/-- The clock moves on, or runs the timers that are due. -/
def Op.is_clock : Op → Bool
  | .compare _ _ => false
  | .clock _ => true

theorem now_le_run (s : BCM2835SystemTimerState) (ops : List Op) : s.now ≤ (run s ops).now := by
  induction ops generalizing s with
  | nil => exact Nat.le_refl _
  | cons op ops ih =>
    apply Nat.le_trans _ (ih (step s op))
    cases op with
    | compare index value64 => exact Nat.le_refl _
    | clock now => exact Nat.le_max_left _ _

theorem run_now_of_no_clock (s : BCM2835SystemTimerState) (ops : List Op)
    (h : ops.any Op.is_clock = false) : (run s ops).now = s.now := by
  induction ops generalizing s with
  | nil => rfl
  | cons op ops ih =>
    rw [List.any_cons, Bool.or_eq_false_iff] at h
    cases op with
    | compare index value64 => exact ih (step s (.compare index value64)) h.2
    | clock now => cases h.1

theorem due_some (t now : Nat) : due (some t) now = if t ≤ now then [t] else [] := by
  by_cases h : t ≤ now
  · simp [due, Option.filter_some, h]
  · simp [due, Option.filter_some, h]

theorem due_none (now : Nat) : due none now = [] := rfl

/-- A timer that was set runs once, when the clock reaches it. -/
theorem fired_of_timer {i : Nat} (hi : i ∈ compares) (ops : List Op)
    (hops : ∀ op ∈ ops, op.writes i = false) (s : BCM2835SystemTimerState) :
    fired i s ops =
      if ops.any Op.is_clock then due (s.timer i) (run s ops).now else [] := by
  -- on the operations: a timer that has run is cleared, so nothing fires after it
  induction ops generalizing s with
  | nil => rfl
  | cons op ops ih =>
    have hrest := ih (fun op hop => hops op (List.mem_cons_of_mem _ hop)) (step s op)
    have hsplit : fired i s (op :: ops) =
        ((fires s op).filter (·.index == i)).map (·.time) ++ fired i (step s op) ops := by
      simp [fired, outputs]
    rw [hsplit, hrest, List.any_cons]
    cases op with
    | compare index value64 =>
      have hne : i ≠ index := by
        have h := hops _ List.mem_cons_self
        simp only [Op.writes, beq_eq_false_iff_ne] at h
        exact h.symm
      have htimer : (step s (.compare index value64)).timer i = s.timer i :=
        Function.update_of_ne hne _ _
      rw [htimer]
      rfl
    | clock now =>
      have hlater := now_le_run (step s (.clock now)) ops
      have hstill := run_now_of_no_clock (step s (.clock now)) ops
      have hfirst : ((fires s (.clock now)).filter (·.index == i)).map (·.time) =
          due (s.timer i) (max s.now now) := expired_of s _ hi
      have hstep : (step s (.clock now)).now = max s.now now := rfl
      have htimer : (step s (.clock now)).timer i = (s.timer i).filter (max s.now now < ·) := rfl
      rw [hstep] at hlater hstill
      rw [hfirst, htimer, show run s (.clock now :: ops) = run (step s (.clock now)) ops from rfl,
        show Op.is_clock (.clock now) = true from rfl, Bool.true_or, if_pos rfl]
      cases ht : s.timer i with
      | none => simp [due_none]
      | some t =>
        by_cases hdue : t ≤ max s.now now
        · -- it runs now, and is not set any more
          have hgone : (some t).filter (max s.now now < ·) = none := by
            rw [Option.filter_some, if_neg fun h => Nat.not_lt.mpr hdue (of_decide_eq_true h)]
          rw [hgone, due_none, ite_self, List.append_nil, due_some, if_pos hdue, due_some,
            if_pos (Nat.le_trans hdue hlater)]
        · have hkept : (some t).filter (max s.now now < ·) = some t := by
            rw [Option.filter_some, if_pos (decide_eq_true (Nat.lt_of_not_le hdue))]
          rw [hkept, due_some, if_neg hdue, List.nil_append]
          cases hclock : ops.any Op.is_clock with
          | true => rfl
          | false =>
            rw [hstill hclock, due_some, if_neg hdue]
            rfl

/-- A compare that is written at any time fires once, at its deadline, unless it
    is written again: the next time the counter has its value, at once if the
    counter has just passed it, and when a guest means that adds to a counter it
    read. -/
theorem compare_fires_once (s : BCM2835SystemTimerState) {i : Nat} (hi : i ∈ compares)
    (value64 : Nat) (ops : List Op) (hops : ∀ op ∈ ops, op.writes i = false) :
    fired i (bcm2835_systmr_write s i value64) ops =
        (if ops.any Op.is_clock = true ∧
            deadline value64 s.now ≤ (run (bcm2835_systmr_write s i value64) ops).now then
          [deadline value64 s.now] else []) ∧
      (s.now ≤ deadline value64 s.now ∧ deadline value64 s.now < s.now + 2 ^ 31) ∧
      (deadline value64 s.now % 2 ^ 32 = value64 % 2 ^ 32 ∨
        deadline value64 s.now = s.now ∧
          ∀ t, s.now ≤ t → t < s.now + 2 ^ 31 → t % 2 ^ 32 ≠ value64 % 2 ^ 32) ∧
      ∀ read delta, value64 % 2 ^ 32 = (read + delta) % 2 ^ 32 → read ≤ s.now → delta < 2 ^ 31 →
        s.now ≤ read + delta + 2 ^ 31 → deadline value64 s.now = max s.now (read + delta) := by
  obtain ⟨hrange, hwhen⟩ := deadline_spec value64 s.now
  refine ⟨?_, hrange, hwhen, ?_⟩
  · have htimer : (bcm2835_systmr_write s i value64).timer i = some (deadline value64 s.now) :=
      Function.update_self _ _ _
    rw [fired_of_timer hi ops hops, htimer, due_some]
    cases ops.any Op.is_clock with
    | true => simp
    | false => simp
  · intro read delta hvalue hread hdelta hlate
    have hsame : deadline value64 s.now = deadline (read + delta) s.now := by
      unfold deadline
      rw [hvalue]
    rw [hsame]
    exact deadline_of_counter hread hdelta hlate

/-- The compare is written 5 µs after the time it stands for. -/
theorem late_compare_fires_at_once :
    fired 3 (bcm2835_systmr_write { now := 2 ^ 32 + 105 } 3 100) [.compare 1 7, .clock 0] =
      [2 ^ 32 + 105] := by
  have h := (compare_fires_once { now := 2 ^ 32 + 105 } (i := 3) (by decide) 100
    [.compare 1 7, .clock 0] (by decide)).1
  rw [h]
  decide

end Systmr
