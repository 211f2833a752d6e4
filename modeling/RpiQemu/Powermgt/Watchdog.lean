import RpiQemu.Framework.Run
import RpiQemu.Powermgt.Device
import Mathlib.Tactic.Common

/-! # When the watchdog fires

    `Past` is what the history of a run says without a timer: the latest event
    among arming, keepalive and stopping, and the registers.  A request is `Due` when
    the clock reaches the deadline of that event.

    The device has a timer instead, which an arm with no ticks leaves as it was:
    `fires_when_due` holds of the runs in which the countdown is never kept alive with
    a tick count of 0, and `stale_deadline_fires` is a run in which it is. -/

namespace Powermgt

open Run

/-! ## The history -/

/-- What went before: `latest` is the time and the ticks of the latest arm or keepalive,
    unless a stop or a reset came after it. -/
structure Past where
  time : Nat := 0
  rsts : Nat := 0x1000
  wdog : Nat := 0
  latest : Option (Nat × Nat) := none
  deriving DecidableEq, Repr

/-- The deadline of an arm or a keepalive at `time` with `ticks`. -/
def deadline (time ticks : Nat) : Nat := time + ticks * 1000000000 / 65536

/-- The latest event is an arm or a keepalive whose deadline is to come. -/
def Past.counting (p : Past) : Prop := ∃ e ∈ p.latest, p.time < deadline e.1 e.2

instance (p : Past) : Decidable p.counting := by
  unfold Past.counting
  infer_instance

/-- Arming: a write of RSTC with the reset configuration. -/
def Op.arms : Op → Bool
  | .write offset value => offset == R_RSTC && decide (value &&& V_RSTC_RESET ≠ 0)
  | _ => false

/-- Stopping: a write of RSTC without it, or a reset of the device. -/
def Op.stops : Op → Bool
  | .write offset value => offset == R_RSTC && decide (value &&& V_RSTC_RESET = 0)
  | .reset => true
  | _ => false

/-- A write of WDOG. -/
def Op.sets_ticks : Op → Bool
  | .write offset _ => offset == R_WDOG
  | _ => false

/-- A keepalive: a write of WDOG while the watchdog counts. -/
def Op.keeps_alive (p : Past) (op : Op) : Prop := op.sets_ticks = true ∧ p.counting

instance (p : Past) (op : Op) : Decidable (op.keeps_alive p) := inferInstanceAs (Decidable (_ ∧ _))

/-- An arm or a keepalive. -/
def Op.starts (p : Past) (op : Op) : Prop := op.arms = true ∨ op.keeps_alive p

instance (p : Past) (op : Op) : Decidable (op.starts p) := inferInstanceAs (Decidable (_ ∨ _))

/-- The registers and the clock after one more operation. -/
def Past.registers (p : Past) : Op → Past
  | .write offset value =>
    if offset = R_RSTS then { p with rsts := value }
    else if offset = R_WDOG then { p with wdog := value }
    else p
  | .clock now => { p with time := max p.time now }
  | .reset => { p with rsts := 0x1000, wdog := 0 }

/-- One more operation. -/
def Past.after (p : Past) (op : Op) : Past :=
  let q := p.registers op
  { q with
    latest :=
      if op.starts p then some (p.time, wdog_ticks q.wdog)
      else if op.stops then none
      else p.latest }

/-- The history of a run since reset. -/
def past (ops : List Op) : Past := ops.foldl Past.after {}

/-- The request that an operation makes due: the latest event is an arm or a keepalive,
    and its deadline is reached now. -/
def Due (p : Past) (op : Op) (r : Request) : Prop :=
  ∃ t₀ k, (p.after op).latest = some (t₀, k) ∧ r.time = deadline t₀ k ∧
    r.time ≤ (p.after op).time ∧ (op.starts p ∨ p.time < r.time) ∧
    r.cause = rsts_cause (p.after op).rsts

/-! ## The device follows the history -/

/-- The timer is the deadline that is to come. -/
structure InStep (p : Past) (s : BCM2835PowerMgtState) : Prop where
  time : s.now = p.time
  rsts : s.rsts = p.rsts
  wdog : s.wdog = p.wdog
  timer : ∀ d, s.wdt_timer = some d ↔
    ∃ t₀ k, p.latest = some (t₀, k) ∧ d = deadline t₀ k ∧ p.time < d
  ticks : p.counting → wdog_ticks p.wdog ≠ 0

/-- A keepalive without ticks. -/
def Op.empties (p : Past) (op : Op) : Prop :=
  op.keeps_alive p ∧ wdog_ticks (p.after op).wdog = 0

instance (p : Past) (op : Op) : Decidable (op.empties p) := inferInstanceAs (Decidable (_ ∧ _))

/-- What a step issues is due, and it issues what is due. -/
def OnTime (p : Past) (op : Op) (issued : List Request) : Prop :=
  issued.length ≤ 1 ∧ ∀ r, r ∈ issued ↔ Due p op r

theorem deadline_gt {ticks : Nat} (h : ticks ≠ 0) (time : Nat) : time < deadline time ticks := by
  unfold deadline
  omega

theorem deadline_zero (time : Nat) : deadline time 0 = time := by
  unfold deadline
  omega

theorem InStep.timer_some {p : Past} {s : BCM2835PowerMgtState} (h : InStep p s) :
    s.wdt_timer.isSome = true ↔ p.counting := by
  rw [Option.isSome_iff_exists]
  constructor
  · rintro ⟨d, hd⟩
    obtain ⟨t₀, k, hlatest, rfl, hlt⟩ := (h.timer d).mp hd
    exact ⟨(t₀, k), hlatest, hlt⟩
  · rintro ⟨⟨t₀, k⟩, hlatest, hlt⟩
    exact ⟨_, (h.timer _).mpr ⟨t₀, k, hlatest, rfl, hlt⟩⟩

/-- A countdown that has just begun. -/
theorem InStep.armed {p q : Past} {s : BCM2835PowerMgtState} (htime : s.now = q.time)
    (hrsts : s.rsts = q.rsts) (hwdog : s.wdog = q.wdog)
    (hlatest : q.latest = some (q.time, wdog_ticks q.wdog)) {op : Op} (hq : q = p.after op)
    (hstart : op.starts p) (hnone : wdog_ticks q.wdog = 0 → s.wdt_timer = none) :
    InStep q (bcm2835_powermgt_wdt_arm s).1 ∧ OnTime p op (bcm2835_powermgt_wdt_arm s).2 := by
  unfold bcm2835_powermgt_wdt_arm
  dsimp only
  by_cases hzero : wdog_ticks s.wdog = 0
  · -- no ticks: the request is issued at once
    rw [if_pos hzero]
    rw [hwdog] at hzero
    have hidle : ¬ q.counting := by
      rintro ⟨e, he, hlt⟩
      rw [hlatest] at he
      obtain rfl := Option.some.inj he
      rw [hzero, deadline_zero] at hlt
      exact Nat.lt_irrefl _ hlt
    refine ⟨⟨htime, hrsts, hwdog, fun d => ?_, fun hc => absurd hc hidle⟩, Nat.le_refl _,
      fun r => ?_⟩
    · rw [hnone hzero]
      refine ⟨fun h => (by cases h), ?_⟩
      rintro ⟨t₀, k, he, rfl, hlt⟩
      exact absurd ⟨_, he, hlt⟩ hidle
    · unfold bcm2835_powermgt_wdt_expired Due
      rw [List.mem_singleton, ← hq]
      constructor
      · rintro rfl
        refine ⟨_, _, hlatest, ?_, ?_, .inl hstart, ?_⟩
        · rw [hzero, deadline_zero]
          exact htime
        · exact Nat.le_of_eq htime
        · rw [← hrsts]
      · rintro ⟨t₀, k, he, ht, -, -, hcause⟩
        rw [hlatest] at he
        obtain ⟨rfl, rfl⟩ := Prod.mk.inj (Option.some.inj he)
        rw [hzero, deadline_zero] at ht
        cases r
        simp only [Request.mk.injEq]
        exact ⟨ht.trans htime.symm, by rw [hrsts]; exact hcause⟩
  · rw [if_neg hzero]
    rw [hwdog] at hzero
    have hgt := deadline_gt hzero q.time
    have hlate : s.now + muldiv64 (wdog_ticks s.wdog) NANOSECONDS_PER_SECOND WDOG_TICKS_PER_SEC =
        deadline q.time (wdog_ticks q.wdog) := by
      rw [htime, hwdog]
      rfl
    refine ⟨⟨htime, hrsts, hwdog, fun d => ?_, fun _ => hzero⟩, Nat.zero_le _, fun r => ?_⟩
    · show some _ = some d ↔ _
      rw [hlate, Option.some_inj, hlatest]
      constructor
      · rintro rfl
        exact ⟨_, _, rfl, rfl, hgt⟩
      · rintro ⟨t₀, k, he, rfl, -⟩
        obtain ⟨rfl, rfl⟩ := Prod.mk.inj (Option.some.inj he)
        rfl
    · refine ⟨fun h => absurd h List.not_mem_nil, ?_⟩
      rintro ⟨t₀, k, he, ht, hle, -, -⟩
      rw [← hq] at he hle
      rw [hlatest] at he
      obtain ⟨rfl, rfl⟩ := Prod.mk.inj (Option.some.inj he)
      omega

/-- Nothing is due while the clock stands and nothing starts. -/
theorem nothing_due {p : Past} {op : Op} (hstart : ¬ op.starts p)
    (htime : (p.after op).time = p.time) : OnTime p op [] := by
  refine ⟨Nat.zero_le _, fun r => ⟨fun h => absurd h List.not_mem_nil, ?_⟩⟩
  rintro ⟨t₀, k, -, -, hle, hs | hlt, -⟩
  · exact absurd hs hstart
  · omega

theorem after_starts {p : Past} {op : Op} (h : op.starts p) :
    p.after op =
      { p.registers op with latest := some (p.time, wdog_ticks (p.registers op).wdog) } := by
  unfold Past.after
  dsimp only
  rw [if_pos h]

theorem after_stops {p : Past} {op : Op} (h : ¬ op.starts p) (hstop : op.stops = true) :
    p.after op = { p.registers op with latest := none } := by
  unfold Past.after
  dsimp only
  rw [if_neg h, if_pos hstop]

theorem after_other {p : Past} {op : Op} (h : ¬ op.starts p) (hstop : ¬ op.stops = true) :
    p.after op = { p.registers op with latest := p.latest } := by
  unfold Past.after
  dsimp only
  rw [if_neg h, if_neg hstop]

theorem not_starts {op : Op} (harms : op.arms = false) (hset : op.sets_ticks = false)
    (p : Past) : ¬ op.starts p := by
  rintro (ha | ⟨hs, -⟩)
  · rw [harms] at ha
    cases ha
  · rw [hset] at hs
    cases hs

/-- The countdown stops. -/
theorem InStep.stopped {p : Past} {s : BCM2835PowerMgtState} (htime : s.now = p.time)
    (hrsts : s.rsts = p.rsts) (hwdog : s.wdog = p.wdog) (htimer : s.wdt_timer = none)
    (hlatest : p.latest = none) : InStep p s := by
  refine ⟨htime, hrsts, hwdog, fun d => ?_, ?_⟩
  · rw [htimer, hlatest]
    refine ⟨fun hd => (by cases hd), ?_⟩
    rintro ⟨_, _, hd, -⟩
    cases hd
  · rintro ⟨_, hd, -⟩
    rw [hlatest] at hd
    cases hd

/-- A write to RSTC: it begins or stops the countdown. -/
theorem rstc_on_time {p : Past} {s : BCM2835PowerMgtState} (h : InStep p s) (value : Nat) :
    InStep (p.after (.write R_RSTC value)) (step s (.write R_RSTC value)).1 ∧
      OnTime p (.write R_RSTC value) (step s (.write R_RSTC value)).2 := by
  have hset : (Op.write R_RSTC value).sets_ticks = false := rfl
  unfold step
  dsimp only
  unfold bcm2835_powermgt_write
  rw [if_pos rfl]
  dsimp only
  by_cases hbit : value &&& V_RSTC_RESET = 0
  · have hstart := not_starts (show (Op.write R_RSTC value).arms = false by simp [Op.arms, hbit])
      hset p
    have hafter := after_stops hstart (by simp [Op.stops, hbit])
    rw [if_neg (not_not.mpr hbit)]
    refine ⟨?_, nothing_due hstart (by rw [hafter]; rfl)⟩
    rw [hafter]
    exact InStep.stopped h.time h.rsts h.wdog rfl rfl
  · have hstart : (Op.write R_RSTC value).starts p := .inl (by simp [Op.arms, hbit])
    have hafter := after_starts hstart
    rw [if_pos hbit]
    apply InStep.armed (by rw [hafter]; exact h.time) (by rw [hafter]; exact h.rsts)
      (by rw [hafter]; exact h.wdog) (by rw [hafter]; rfl) rfl hstart
    intro hzero
    rw [hafter] at hzero
    -- a countdown that runs has ticks
    by_contra hpending
    have hcount := h.timer_some.mp (Option.isSome_iff_ne_none.mpr hpending)
    exact h.ticks hcount hzero

/-- A write to WDOG: a keepalive while the watchdog counts. -/
theorem wdog_on_time {p : Past} {s : BCM2835PowerMgtState} (h : InStep p s) {value : Nat}
    (hop : ¬ (Op.write R_WDOG value).empties p) :
    InStep (p.after (.write R_WDOG value)) (step s (.write R_WDOG value)).1 ∧
      OnTime p (.write R_WDOG value) (step s (.write R_WDOG value)).2 := by
  unfold step
  dsimp only
  unfold bcm2835_powermgt_write
  rw [if_neg (by decide), if_neg (by decide), if_pos rfl]
  dsimp only
  by_cases hcount : p.counting
  · have hkeep : (Op.write R_WDOG value).keeps_alive p := ⟨rfl, hcount⟩
    have hafter := after_starts (show (Op.write R_WDOG value).starts p from .inr hkeep)
    have hsome : s.wdt_timer.isSome = true := h.timer_some.mpr hcount
    have hticks : wdog_ticks (p.after (.write R_WDOG value)).wdog ≠ 0 :=
      fun hzero => hop ⟨hkeep, hzero⟩
    rw [if_pos hsome]
    exact InStep.armed (by rw [hafter]; exact h.time) (by rw [hafter]; exact h.rsts)
      (by rw [hafter]; rfl) (by rw [hafter]; rfl) rfl (.inr hkeep)
      (fun hzero => absurd hzero hticks)
  · have hstart : ¬ (Op.write R_WDOG value).starts p := by
      rintro (ha | ⟨-, hc⟩)
      · cases ha
      · exact hcount hc
    have hafter := after_other hstart Bool.false_ne_true
    have hnone : ¬ s.wdt_timer.isSome = true := fun hsome => hcount (h.timer_some.mp hsome)
    rw [if_neg hnone]
    refine ⟨?_, nothing_due hstart (by rw [hafter]; rfl)⟩
    rw [hafter]
    exact ⟨h.time, h.rsts, rfl, h.timer, fun hc => absurd hc hcount⟩

/-- A write to a register that the countdown does not look at, but for RSTS at its end. -/
theorem write_on_time {p : Past} {s : BCM2835PowerMgtState} (h : InStep p s)
    {offset value : Nat} (hrstc : offset ≠ R_RSTC) (hwdog : offset ≠ R_WDOG) :
    InStep (p.after (.write offset value)) (step s (.write offset value)).1 ∧
      OnTime p (.write offset value) (step s (.write offset value)).2 := by
  have hstart := not_starts (show (Op.write offset value).arms = false by simp [Op.arms, hrstc])
    (show (Op.write offset value).sets_ticks = false by simp [Op.sets_ticks, hwdog]) p
  have hafter := after_other hstart (by simp [Op.stops, hrstc])
  unfold step
  dsimp only
  unfold bcm2835_powermgt_write
  rw [if_neg hrstc]
  by_cases hrsts : offset = R_RSTS
  · have hregs : p.registers (.write offset value) = { p with rsts := value } := by
      unfold Past.registers
      dsimp only
      rw [if_pos hrsts]
    rw [hregs] at hafter
    rw [if_pos hrsts]
    refine ⟨?_, nothing_due hstart (by rw [hafter])⟩
    rw [hafter]
    exact ⟨h.time, rfl, h.wdog, h.timer, h.ticks⟩
  · have hregs : p.registers (.write offset value) = p := by
      unfold Past.registers
      dsimp only
      rw [if_neg hrsts, if_neg hwdog]
    rw [hregs] at hafter
    rw [if_neg hrsts, if_neg hwdog]
    refine ⟨?_, nothing_due hstart (by rw [hafter])⟩
    rw [hafter]
    exact h

/-- The clock advances: the deadline that it reaches was to come. -/
theorem clock_on_time {p : Past} {s : BCM2835PowerMgtState} (h : InStep p s) (now : Nat) :
    InStep (p.after (.clock now)) (step s (.clock now)).1 ∧
      OnTime p (.clock now) (step s (.clock now)).2 := by
  have hstart : ¬ (Op.clock now).starts p := not_starts rfl rfl p
  have hafter : p.after (.clock now) = { p with time := max p.time now } :=
    after_other hstart Bool.false_ne_true
  have hmono : p.time ≤ max p.time now := Nat.le_max_left _ _
  unfold step
  dsimp only
  unfold advance
  dsimp only
  rw [h.time]
  cases htimer : s.wdt_timer with
  | none =>
    -- no deadline is to come
    have hidle : ¬ p.counting := fun hc => by
      have hsome := h.timer_some.mpr hc
      rw [htimer] at hsome
      cases hsome
    have hpast : ∀ t₀ k, p.latest = some (t₀, k) → deadline t₀ k ≤ p.time := by
      intro t₀ k hlatest
      by_contra hlt
      exact hidle ⟨_, hlatest, Nat.lt_of_not_le hlt⟩
    dsimp only
    rw [hafter]
    refine ⟨⟨rfl, h.rsts, h.wdog, fun d => ?_, ?_⟩, Nat.zero_le _, fun r => ?_⟩
    · refine ⟨fun hd => (by cases hd), ?_⟩
      rintro ⟨t₀, k, hlatest, rfl, hlt⟩
      have hle := hpast t₀ k hlatest
      have hlt' : max p.time now < deadline t₀ k := hlt
      omega
    · rintro ⟨⟨t₀, k⟩, hlatest, hlt⟩
      have hle := hpast t₀ k hlatest
      have hlt' : max p.time now < deadline t₀ k := hlt
      omega
    · refine ⟨fun hr => absurd hr List.not_mem_nil, ?_⟩
      rintro ⟨t₀, k, hlatest, ht, -, hs | hlt, -⟩
      · exact absurd hs hstart
      · rw [hafter] at hlatest
        have hle := hpast t₀ k hlatest
        omega
  | some d =>
    obtain ⟨t₀, k, hlatest, rfl, hlt⟩ := (h.timer d).mp htimer
    dsimp only
    by_cases hreach : deadline t₀ k ≤ max p.time now
    · rw [if_pos hreach, hafter]
      have hidle : ¬ ({ p with time := max p.time now } : Past).counting := by
        rintro ⟨e, he, hlt'⟩
        obtain rfl := Option.some.inj (hlatest.symm.trans he)
        have hlt'' : max p.time now < deadline t₀ k := hlt'
        omega
      refine ⟨⟨rfl, h.rsts, h.wdog, fun d => ?_, fun hc => absurd hc hidle⟩, Nat.le_refl _,
        fun r => ?_⟩
      · refine ⟨fun hd => (by cases hd), ?_⟩
        rintro ⟨t₁, k₁, he, rfl, hlt'⟩
        exact absurd ⟨_, he, hlt'⟩ hidle
      · unfold bcm2835_powermgt_wdt_expired Due
        rw [List.mem_singleton, hafter]
        constructor
        · rintro rfl
          refine ⟨t₀, k, hlatest, rfl, hreach, .inr hlt, ?_⟩
          rw [← h.rsts]
        · rintro ⟨t₁, k₁, he, ht, -, -, hcause⟩
          obtain ⟨rfl, rfl⟩ := Prod.mk.inj (Option.some.inj (hlatest.symm.trans he))
          cases r
          simp only [Request.mk.injEq]
          exact ⟨ht, by rw [h.rsts]; exact hcause⟩
    · rw [if_neg hreach, hafter]
      refine ⟨⟨rfl, h.rsts, h.wdog, fun d => ?_, fun _ => h.ticks ⟨_, hlatest, hlt⟩⟩,
        Nat.zero_le _, fun r => ?_⟩
      · have hkeep : s.wdt_timer = some d ↔ _ := h.timer d
        rw [htimer] at hkeep
        apply hkeep.trans
        constructor
        · rintro ⟨t₁, k₁, he, rfl, -⟩
          obtain ⟨rfl, rfl⟩ := Prod.mk.inj (Option.some.inj (hlatest.symm.trans he))
          exact ⟨_, _, hlatest, rfl, Nat.lt_of_not_le hreach⟩
        · rintro ⟨t₁, k₁, he, rfl, hlt'⟩
          exact ⟨t₁, k₁, he, rfl, Nat.lt_of_le_of_lt hmono hlt'⟩
      · refine ⟨fun hr => absurd hr List.not_mem_nil, ?_⟩
        rintro ⟨t₁, k₁, he, ht, hle, -, -⟩
        rw [hafter] at he hle
        obtain ⟨rfl, rfl⟩ := Prod.mk.inj (Option.some.inj (hlatest.symm.trans he))
        rw [ht] at hle
        exact absurd hle hreach

/-- A step keeps the timer in step with the history, and is on time. -/
theorem step_on_time {p : Past} {s : BCM2835PowerMgtState} (h : InStep p s) {op : Op}
    (hop : ¬ op.empties p) :
    InStep (p.after op) (step s op).1 ∧ OnTime p op (step s op).2 := by
  cases op with
  | write offset value =>
    by_cases hrstc : offset = R_RSTC
    · subst hrstc
      exact rstc_on_time h value
    by_cases hwdog : offset = R_WDOG
    · subst hwdog
      exact wdog_on_time h hop
    · exact write_on_time h hrstc hwdog
  | clock now => exact clock_on_time h now
  | reset =>
    have hstart : ¬ Op.reset.starts p := not_starts rfl rfl p
    have hafter := after_stops hstart rfl
    refine ⟨?_, nothing_due hstart (by rw [hafter]; rfl)⟩
    rw [hafter]
    exact InStep.stopped h.time rfl rfl rfl rfl

/-! ## Runs -/

/-- No keepalive of the run is without ticks. -/
def Ticking (ops : List Op) : Prop := Along Past.after (fun p op => ¬ op.empties p) {} ops

instance (ops : List Op) : Decidable (Ticking ops) :=
  Along.decidable _ _ _ _

/-- The requests that an operation issues. -/
def issued (ops : List Op) (op : Op) : List Request := (step (run ops) op).2

theorem run_in_step {ops : List Op} (h : Ticking ops) : InStep (past ops) (run ops) := by
  have hinit : InStep {} {} := InStep.stopped rfl rfl rfl rfl rfl
  have hrun : ∀ (p : Past) (s : BCM2835PowerMgtState), InStep p s →
      Along Past.after (fun p op => ¬ op.empties p) p ops →
      InStep (ops.foldl Past.after p) (ops.foldl (fun s op => (step s op).1) s) := by
    clear h
    induction ops with
    | nil => exact fun p s hs _ => hs
    | cons op ops ih =>
      intro p s hs hl
      exact ih _ _ (step_on_time hs hl.1).1 hl.2
  exact hrun _ _ hinit h

/-- While nothing starts, the latest event is what it was or was stopped, and time
    goes on. -/
theorem quiet_past {p : Past} {ops : List Op}
    (h : Along Past.after (fun p op => ¬ op.starts p) p ops) :
    p.time ≤ (ops.foldl Past.after p).time ∧
      ∀ e, (ops.foldl Past.after p).latest = some e → p.latest = some e := by
  induction ops generalizing p with
  | nil => exact ⟨Nat.le_refl _, fun e he => he⟩
  | cons op ops ih =>
    obtain ⟨hstart, hrest⟩ := h
    obtain ⟨htime, hlatest⟩ := ih hrest
    have hstep : p.time ≤ (p.after op).time := by
      unfold Past.after Past.registers
      cases op with
      | write offset value =>
        dsimp only
        split
        · exact Nat.le_refl _
        split
        · exact Nat.le_refl _
        · exact Nat.le_refl _
      | clock now => exact Nat.le_max_left _ _
      | reset => exact Nat.le_refl _
    refine ⟨Nat.le_trans hstep htime, fun e he => ?_⟩
    have hafter := hlatest e he
    by_cases hstop : op.stops = true
    · rw [after_stops hstart hstop] at hafter
      cases hafter
    · rw [after_other hstart hstop] at hafter
      exact hafter

/-- Two requests have an arm or a keepalive between them. -/
theorem due_once {p : Past} {op op' : Op} {mid : List Op} {r r' : Request} (h : Due p op r)
    (h' : Due (mid.foldl Past.after (p.after op)) op' r') :
    ¬ Along Past.after (fun p op => ¬ op.starts p) (p.after op) (mid ++ [op']) := by
  intro hquiet
  obtain ⟨hmid, hstart⟩ := (along_snoc _ _ _).mp hquiet
  obtain ⟨htime, hlatest⟩ := quiet_past hmid
  obtain ⟨t₀, k, he, ht, hle, -, -⟩ := h
  obtain ⟨t₁, k₁, he', ht', -, hs | hlt, -⟩ := h'
  · exact hstart hs
  · have hkeep : (mid.foldl Past.after (p.after op)).latest = some (t₁, k₁) := by
      by_cases hstop : op'.stops = true
      · rw [after_stops hstart hstop] at he'
        cases he'
      · rw [after_other hstart hstop] at he'
        exact he'
    obtain ⟨rfl, rfl⟩ := Prod.mk.inj (Option.some.inj (he.symm.trans (hlatest _ hkeep)))
    omega

/-- The watchdog fires when and only when due: each operation issues the requests
    that it makes due, one at most, and no two requests of the run come from one arm or
    keepalive. -/
structure Punctual (ops : List Op) : Prop where
  due : ∀ pre op post, ops = pre ++ op :: post → OnTime (past pre) op (issued pre op)
  once : ∀ pre op mid op' post r r', ops = pre ++ op :: (mid ++ op' :: post) →
    r ∈ issued pre op → r' ∈ issued (pre ++ op :: mid) op' →
    ¬ Along Past.after (fun p op => ¬ op.starts p) (past (pre ++ [op])) (mid ++ [op'])

/-- **The watchdog is punctual in every run whose keepalives all have ticks.** -/
theorem fires_when_due (ops : List Op) (hops : Ticking ops) : Punctual ops := by
  have hdue : ∀ pre op post, ops = pre ++ op :: post →
      OnTime (past pre) op (issued pre op) := by
    intro pre op post heq
    have hsplit : Ticking (pre ++ [op]) := by
      have happend : ∀ (p : Past) (l m : List Op),
          Along Past.after (fun p op => ¬ op.empties p) p (l ++ m) →
          Along Past.after (fun p op => ¬ op.empties p) p l := by
        intro p l m h
        induction l generalizing p with
        | nil => trivial
        | cons a l ih => exact ⟨h.1, ih _ h.2⟩
      apply happend _ _ post
      rw [List.append_assoc, List.singleton_append, ← heq]
      exact hops
    obtain ⟨hpre, hop⟩ := (along_snoc _ _ _).mp hsplit
    exact (step_on_time (run_in_step hpre) hop).2
  refine ⟨hdue, fun pre op mid op' post r r' heq hr hr' => ?_⟩
  have h := ((hdue pre op (mid ++ op' :: post) heq).2 r).mp hr
  have h' := ((hdue (pre ++ op :: mid) op' post (by rw [heq, List.append_assoc]; rfl)).2 r').mp hr'
  have hpast : past (pre ++ op :: mid) = mid.foldl Past.after ((past pre).after op) := by
    unfold past
    rw [List.foldl_append, List.foldl_cons]
  have hpast' : past (pre ++ [op]) = (past pre).after op := by
    unfold past
    rw [List.foldl_append, List.foldl_cons, List.foldl_nil]
  rw [hpast] at h'
  rw [hpast']
  exact due_once h h'

/-- The guest arms the watchdog with 10 ticks, keeps it alive with `ticks` and the clock
    goes on. -/
def kept_alive (ticks : Nat) : List Op :=
  [.write R_WDOG 10, .write R_RSTC 0x20, .write R_WDOG ticks, .clock 1000000]

/-- With 20 ticks it fires 305 microseconds later. -/
theorem kept_alive_fires : Punctual (kept_alive 20) ∧
    issued (kept_alive 20).dropLast (.clock 1000000) = [⟨305175, .reset⟩] :=
  ⟨fires_when_due _ (by decide), by decide⟩

/-- With none it fires at once, and again at the deadline that the keepalive replaced. -/
theorem stale_deadline_fires : ¬ ∀ ops, Punctual ops := by
  intro hall
  have hquiet := (hall (kept_alive 0)).once [.write R_WDOG 10, .write R_RSTC 0x20]
    (.write R_WDOG 0) [] (.clock 1000000) [] ⟨0, .reset⟩ ⟨152587, .reset⟩ rfl (by decide)
    (by decide)
  revert hquiet
  decide

end Powermgt
