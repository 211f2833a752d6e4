import RpiQemu.Framework.Register
import RpiQemu.Framework.Run
import RpiQemu.Powermgt.Device
import Mathlib.Data.List.Induction
import Mathlib.Logic.Function.Basic
import Mathlib.Tactic.Common

/-! # The power domains and the ASB bridges

    The rest of `hw/misc/bcm2835_powermgt.c`: the registers that power a domain
    on, which acknowledge each request at once, the bridges of the second MMIO
    region, and the plain registers beside them.

    * **Handshakes**: what a driver polls for follows what it last asked for
      (`domain_ack_follows`, `bridge_ack_follows`).
    * **Runs**: in every run the registers are those of the history, and the
      watchdog is the one of the writes to it alone (`block_by_history`). -/

namespace Powermgt

open Register Run

/-! ## The device -/

def R_PM_IMAGE : Nat := 0x108
def R_PM_GRAFX : Nat := 0x10c
def PM_POWUP : Field := ⟨0, 1⟩
def PM_POWOK : Field := ⟨1, 1⟩
def PM_MEMREP : Field := ⟨3, 1⟩
def PM_MRDONE : Field := ⟨4, 1⟩

def R_ASB_CTRL_LAST : Nat := 0x1c
def R_ASB_AXI_BRDG_ID : Nat := 0x20
def V_ASB_BRDG_ID : Nat := 0x62726467
def ASB_REQ_STOP : Field := ⟨0, 1⟩
def ASB_ACK : Field := ⟨1, 1⟩

/-- `BCM2835PowerMgtState`: the watchdog, the other registers of the block and
    those of the bridges. -/
structure Block where
  watchdog : BCM2835PowerMgtState := {}
  regs : Nat → Nat := fun _ => 0
  asb_regs : Nat → Nat := fun _ => 0

/-- The value a domain register takes. -/
def domain_value (value : Nat) : Nat :=
  let v := clear PM_MRDONE (clear PM_POWOK value)
  let v := if on PM_POWUP v then raise PM_POWOK v else v
  if on PM_MEMREP v then raise PM_MRDONE v else v

/-- The value a bridge's control register takes: only `REQ_STOP` is state. -/
def bridge_value (value : Nat) : Nat :=
  let v := ex ASB_REQ_STOP value
  if on ASB_REQ_STOP v then raise ASB_ACK v else v

/-- A register of the watchdog. -/
def watchdog_reg (offset : Nat) : Prop := offset = R_RSTC ∨ offset = R_RSTS ∨ offset = R_WDOG

instance (offset : Nat) : Decidable (watchdog_reg offset) := inferInstanceAs (Decidable (_ ∨ _))

/-- A register that powers a domain on. -/
def domain_reg (offset : Nat) : Prop := offset = R_PM_IMAGE ∨ offset = R_PM_GRAFX

instance (offset : Nat) : Decidable (domain_reg offset) := inferInstanceAs (Decidable (_ ∨ _))

def powermgt_read (s : Block) (offset : Nat) : Nat :=
  if offset = R_RSTC then s.watchdog.rstc
  else if offset = R_RSTS then s.watchdog.rsts
  else if offset = R_WDOG then s.watchdog.wdog
  else s.regs (offset / 4)

def powermgt_write (s : Block) (offset value : Nat) : Block × List Request :=
  if watchdog_reg offset then
    let r := bcm2835_powermgt_write s.watchdog offset value
    ({ s with watchdog := r.1 }, r.2)
  else if domain_reg offset then
    ({ s with regs := Function.update s.regs (offset / 4) (domain_value value) }, [])
  else ({ s with regs := Function.update s.regs (offset / 4) value }, [])

def bcm2835_asb_read (s : Block) (offset : Nat) : Nat :=
  if offset = R_ASB_AXI_BRDG_ID then V_ASB_BRDG_ID else s.asb_regs (offset / 4)

def bcm2835_asb_write (s : Block) (offset value : Nat) : Block :=
  if R_ASB_CTRL_LAST < offset then s
  else { s with asb_regs := Function.update s.asb_regs (offset / 4) (bridge_value value) }

def block_reset (s : Block) : Block :=
  { watchdog := bcm2835_powermgt_reset s.watchdog }

/-- What happens to the block.  Accesses are to words. -/
inductive BlockOp where
  | pm_write (word value : Nat)
  | asb_write (word value : Nat)
  | clock (now : Nat)
  | reset
  deriving DecidableEq, Repr

def block_step (s : Block) : BlockOp → Block × List Request
  | .pm_write word value => powermgt_write s (4 * word) value
  | .asb_write word value => (bcm2835_asb_write s (4 * word) value, [])
  | .clock now => ({ s with watchdog := (advance s.watchdog now).1 }, (advance s.watchdog now).2)
  | .reset => (block_reset s, [])

def block_run (ops : List BlockOp) : Block := ops.foldl (fun s op => (block_step s op).1) {}

/-- The requests a run of the block issues. -/
def block_requests (ops : List BlockOp) : List Request :=
  outputs (fun s op => (block_step s op).1) (fun s op => (block_step s op).2) {} ops

/-- Those the watchdog issues. -/
def requests (ops : List Op) : List Request :=
  outputs (fun s op => (step s op).1) (fun s op => (step s op).2) {} ops

/-! ## The handshakes -/

theorem domain_value_zero : domain_value 0 = 0 := by decide

theorem bridge_value_zero : bridge_value 0 = 0 := by decide

/-- A domain is up when it was asked to be, and its memory repaired when that was
    asked for; the other bits are those written. -/
theorem domain_ack_follows (value : Nat) :
    on PM_POWOK (domain_value value) = on PM_POWUP value ∧
      on PM_MRDONE (domain_value value) = on PM_MEMREP value ∧
      ∀ i, i ≠ 1 → i ≠ 4 → (domain_value value).testBit i = value.testBit i := by
  have hbit : ∀ i, (domain_value value).testBit i =
      if i = 1 then value.testBit 0 else if i = 4 then value.testBit 3 else value.testBit i := by
    intro i
    have hcleared : ∀ j, (clear PM_MRDONE (clear PM_POWOK value)).testBit j =
        (value.testBit j && decide (j ≠ 1) && decide (j ≠ 4)) := by
      intro j
      unfold clear PM_MRDONE PM_POWOK
      rw [testBit_dp, testBit_dp]
      by_cases h4 : j = 4
      · subst h4
        simp
      · by_cases h1 : j = 1
        · subst h1
          simp
        · rw [if_neg (by dsimp only; omega), if_neg (by dsimp only; omega)]
          simp [h1, h4]
    -- Neither of the two cleared bits is the one that the first test reads.
    have hup : on PM_POWUP (clear PM_MRDONE (clear PM_POWOK value)) = value.testBit 0 := by
      rw [PM_POWUP, on_bit, hcleared]
      simp
    have hraised : ∀ j, (if on PM_POWUP (clear PM_MRDONE (clear PM_POWOK value)) then
        raise PM_POWOK (clear PM_MRDONE (clear PM_POWOK value))
        else clear PM_MRDONE (clear PM_POWOK value)).testBit j =
        if j = 1 then value.testBit 0 else (value.testBit j && decide (j ≠ 4)) := by
      intro j
      rw [hup]
      by_cases h0 : value.testBit 0 = true
      · rw [if_pos h0, PM_POWOK, testBit_raise_bit, ← PM_POWOK, hcleared, h0]
        by_cases h1 : j = 1
        · simp [h1]
        · simp [h1]
      · rw [if_neg h0, hcleared]
        by_cases h1 : j = 1
        · simp [h1, h0]
        · simp [h1]
    have hrep : on PM_MEMREP (if on PM_POWUP (clear PM_MRDONE (clear PM_POWOK value)) then
        raise PM_POWOK (clear PM_MRDONE (clear PM_POWOK value))
        else clear PM_MRDONE (clear PM_POWOK value)) = value.testBit 3 := by
      rw [PM_MEMREP, on_bit, hraised]
      simp
    unfold domain_value
    dsimp only
    rw [hrep]
    by_cases h3 : value.testBit 3 = true
    · rw [if_pos h3, PM_MRDONE, testBit_raise_bit, ← PM_MRDONE, hraised, h3]
      by_cases h1 : i = 1
      · simp [h1]
      · by_cases h4 : i = 4
        · simp [h4]
        · simp [h1, h4]
    · rw [if_neg h3, hraised]
      by_cases h1 : i = 1
      · simp [h1]
      · by_cases h4 : i = 4
        · simp [h4, h3]
        · simp [h1, h4]
  refine ⟨?_, ?_, ?_⟩
  · rw [PM_POWOK, on_bit, PM_POWUP, on_bit, hbit, if_pos rfl]
  · rw [PM_MRDONE, on_bit, PM_MEMREP, on_bit, hbit, if_neg (by decide), if_pos rfl]
  · intro i h1 h4
    rw [hbit, if_neg h1, if_neg h4]

/-- A bridge acknowledges a stop, and a restart; nothing else is kept. -/
theorem bridge_ack_follows (value : Nat) :
    on ASB_ACK (bridge_value value) = on ASB_REQ_STOP value ∧
      on ASB_REQ_STOP (bridge_value value) = on ASB_REQ_STOP value ∧ bridge_value value < 4 := by
  have hstop : on ASB_REQ_STOP value = decide (value % 2 = 1) := by
    rw [ASB_REQ_STOP, on_bit, Nat.testBit_zero]
  have hvalue : ex ASB_REQ_STOP value = value % 2 := by simp [ex, ASB_REQ_STOP]
  rw [hstop, bridge_value, hvalue]
  rcases Nat.mod_two_eq_zero_or_one value with h | h
  · rw [h]
    decide
  · rw [h]
    decide

/-! ## The history -/

/-- What the operation means to the watchdog. -/
def BlockOp.watchdog : BlockOp → Option Op
  | .pm_write word value => some (.write (4 * word) value)
  | .asb_write _ _ => none
  | .clock now => some (.clock now)
  | .reset => some .reset

/-- The value written to a word of the block. -/
def BlockOp.pm_writes (word : Nat) : BlockOp → Option Nat
  | .pm_write w value => if w = word then some value else none
  | .reset => some 0
  | _ => none

/-- The value written to a word of the bridges. -/
def BlockOp.asb_writes (word : Nat) : BlockOp → Option Nat
  | .asb_write w value => if w = word then some value else none
  | .reset => some 0
  | _ => none

section

variable {word w : Nat} (value : Nat)

theorem pm_writes_self : (BlockOp.pm_write word value).pm_writes word = some value := if_pos rfl

theorem pm_writes_other (h : word ≠ w) : (BlockOp.pm_write word value).pm_writes w = none :=
  if_neg h

theorem asb_writes_other (h : word ≠ w) : (BlockOp.asb_write word value).asb_writes w = none :=
  if_neg h

end

/-- The value last written since a reset. -/
def latest (writes : BlockOp → Option Nat) (ops : List BlockOp) : Nat :=
  (ops.filterMap writes).getLastD 0

theorem latest_snoc (writes : BlockOp → Option Nat) (ops : List BlockOp) (op : BlockOp) :
    latest writes (ops ++ [op]) = (writes op).getD (latest writes ops) := by
  unfold latest
  rw [List.filterMap_append]
  cases hop : writes op with
  | none => simp [hop]
  | some v => simp [hop]

/-- The registers are those of the history. -/
structure Holds (ops : List BlockOp) (s : Block) : Prop where
  pm : ∀ word, ¬ watchdog_reg (4 * word) → s.regs word =
    if domain_reg (4 * word) then domain_value (latest (BlockOp.pm_writes word) ops)
    else latest (BlockOp.pm_writes word) ops
  asb : ∀ word, 4 * word ≤ R_ASB_CTRL_LAST →
    s.asb_regs word = bridge_value (latest (BlockOp.asb_writes word) ops)

/-! ## Steps -/

theorem Holds.congr {ops : List BlockOp} {s t : Block} (h : Holds ops s) {op : BlockOp}
    (hpm : ∀ word, ¬ watchdog_reg (4 * word) → op.pm_writes word = none)
    (hasb : ∀ word, 4 * word ≤ R_ASB_CTRL_LAST → op.asb_writes word = none)
    (hregs : t.regs = s.regs) (hasbs : t.asb_regs = s.asb_regs) : Holds (ops ++ [op]) t := by
  constructor
  · intro word hword
    rw [latest_snoc, hpm word hword, hregs]
    exact h.pm word hword
  · intro word hword
    rw [latest_snoc, hasb word hword, hasbs]
    exact h.asb word hword

theorem pm_write_holds {ops : List BlockOp} {s : Block} (h : Holds ops s) (word value : Nat) :
    Holds (ops ++ [.pm_write word value]) (powermgt_write s (4 * word) value).1 := by
  unfold powermgt_write
  by_cases hwatch : watchdog_reg (4 * word)
  · rw [if_pos hwatch]
    refine h.congr ?_ (fun _ _ => rfl) rfl rfl
    intro w hw
    have hne : word ≠ w := by
      rintro rfl
      exact hw hwatch
    exact pm_writes_other value hne
  · rw [if_neg hwatch]
    have hindex : 4 * word / 4 = word := by omega
    have hkeep : ∀ (v : Nat) (t : Block), t.regs = Function.update s.regs word v →
        t.asb_regs = s.asb_regs →
        (if domain_reg (4 * word) then domain_value value else value) = v →
        Holds (ops ++ [.pm_write word value]) t := by
      intro v t hregs hasb hv
      constructor
      · intro w hw
        rw [latest_snoc, hregs]
        by_cases hsame : word = w
        · subst hsame
          rw [Function.update_self, pm_writes_self]
          exact hv.symm
        · rw [Function.update_of_ne (Ne.symm hsame), pm_writes_other value hsame]
          exact h.pm w hw
      · intro w hw
        rw [latest_snoc, hasb]
        exact h.asb w hw
    rw [hindex]
    by_cases hdomain : domain_reg (4 * word)
    · rw [if_pos hdomain]
      exact hkeep _ _ rfl rfl (if_pos hdomain)
    · rw [if_neg hdomain]
      exact hkeep _ _ rfl rfl (if_neg hdomain)

theorem asb_write_holds {ops : List BlockOp} {s : Block} (h : Holds ops s) (word value : Nat) :
    Holds (ops ++ [.asb_write word value]) (bcm2835_asb_write s (4 * word) value) := by
  unfold bcm2835_asb_write
  by_cases hlast : R_ASB_CTRL_LAST < 4 * word
  · rw [if_pos hlast]
    refine h.congr (fun _ _ => rfl) ?_ rfl rfl
    intro w hw
    have hne : word ≠ w := by
      rintro rfl
      omega
    exact asb_writes_other value hne
  · rw [if_neg hlast, show 4 * word / 4 = word by omega]
    constructor
    · intro w hw
      rw [latest_snoc]
      exact h.pm w hw
    · intro w hw
      rw [latest_snoc]
      unfold BlockOp.asb_writes
      dsimp only
      by_cases hsame : word = w
      · subst hsame
        rw [if_pos rfl]
        exact Function.update_self _ _ _
      · rw [if_neg hsame]
        show Function.update s.asb_regs word _ w = _
        rw [Function.update_of_ne (Ne.symm hsame)]
        exact h.asb w hw

theorem block_step_holds {ops : List BlockOp} {s : Block} (h : Holds ops s) (op : BlockOp) :
    Holds (ops ++ [op]) (block_step s op).1 := by
  cases op with
  | pm_write word value => exact pm_write_holds h word value
  | asb_write word value => exact asb_write_holds h word value
  | clock now => exact h.congr (fun _ _ => rfl) (fun _ _ => rfl) rfl rfl
  | reset =>
    constructor
    · intro word _
      rw [latest_snoc]
      show 0 = if domain_reg (4 * word) then domain_value 0 else 0
      rw [domain_value_zero, ite_self]
    · intro word _
      rw [latest_snoc]
      exact bridge_value_zero.symm

/-- The watchdog does not see the rest of the block. -/
theorem block_step_watchdog (s : Block) (op : BlockOp) :
    (block_step s op).1.watchdog =
        op.watchdog.toList.foldl (fun w o => (step w o).1) s.watchdog ∧
      (block_step s op).2 =
        outputs (fun w o => (step w o).1) (fun w o => (step w o).2) s.watchdog
          op.watchdog.toList := by
  cases op with
  | asb_write word value =>
    refine ⟨?_, rfl⟩
    show (bcm2835_asb_write s (4 * word) value).watchdog = s.watchdog
    unfold bcm2835_asb_write
    split <;> rfl
  | clock now => exact ⟨rfl, (List.append_nil _).symm⟩
  | reset => exact ⟨rfl, rfl⟩
  | pm_write word value =>
    have hwrite : (powermgt_write s (4 * word) value).1.watchdog =
        (bcm2835_powermgt_write s.watchdog (4 * word) value).1 ∧
        (powermgt_write s (4 * word) value).2 =
          (bcm2835_powermgt_write s.watchdog (4 * word) value).2 := by
      unfold powermgt_write
      by_cases hwatch : watchdog_reg (4 * word)
      · rw [if_pos hwatch]
        exact ⟨rfl, rfl⟩
      · have hother : bcm2835_powermgt_write s.watchdog (4 * word) value = (s.watchdog, []) := by
          unfold watchdog_reg at hwatch
          unfold bcm2835_powermgt_write
          rw [if_neg (by tauto), if_neg (by tauto), if_neg (by tauto)]
        rw [if_neg hwatch, hother]
        split <;> exact ⟨rfl, rfl⟩
    exact ⟨hwrite.1, hwrite.2.trans (List.append_nil _).symm⟩

/-! ## Runs -/

theorem block_run_holds (ops : List BlockOp) : Holds ops (block_run ops) := by
  unfold block_run
  -- on the run, its last step outermost: `Holds` speaks of the history before it
  induction ops using List.reverseRecOn with
  | nil =>
    constructor
    · intro word _
      show 0 = if domain_reg (4 * word) then domain_value 0 else 0
      rw [domain_value_zero, ite_self]
    · intro word _
      exact bridge_value_zero.symm
  | append_singleton ops op ih =>
    rw [List.foldl_append]
    exact block_step_holds ih op

theorem block_run_watchdog (ops : List BlockOp) (s : Block) :
    (ops.foldl (fun s op => (block_step s op).1) s).watchdog =
        (ops.filterMap BlockOp.watchdog).foldl (fun w o => (step w o).1) s.watchdog ∧
      outputs (fun s op => (block_step s op).1) (fun s op => (block_step s op).2) s ops =
        outputs (fun w o => (step w o).1) (fun w o => (step w o).2) s.watchdog
          (ops.filterMap BlockOp.watchdog) := by
  induction ops generalizing s with
  | nil => exact ⟨rfl, rfl⟩
  | cons op ops ih =>
    obtain ⟨hstate, hrequests⟩ := block_step_watchdog s op
    obtain ⟨ihstate, ihrequests⟩ := ih (block_step s op).1
    rw [List.foldl_cons, outputs, ihstate, ihrequests, hrequests, hstate]
    cases hop : op.watchdog with
    | none =>
      rw [List.filterMap_cons_none hop]
      exact ⟨rfl, rfl⟩
    | some o =>
      rw [List.filterMap_cons_some hop]
      refine ⟨rfl, ?_⟩
      simp [outputs]

/-- Whatever the driver and the rest of the machine do: the watchdog is that of its
    own operations, a plain register holds what was last written, a domain or a
    bridge acknowledges what was last asked of it, and the bridges identify
    themselves. -/
theorem block_by_history (ops : List BlockOp) :
    (block_run ops).watchdog = run (ops.filterMap BlockOp.watchdog) ∧
      block_requests ops = requests (ops.filterMap BlockOp.watchdog) ∧
      (∀ word, ¬ watchdog_reg (4 * word) → ¬ domain_reg (4 * word) →
        powermgt_read (block_run ops) (4 * word) = latest (BlockOp.pm_writes word) ops) ∧
      (∀ word, domain_reg (4 * word) →
        on PM_POWOK (powermgt_read (block_run ops) (4 * word)) =
            on PM_POWUP (latest (BlockOp.pm_writes word) ops) ∧
          on PM_MRDONE (powermgt_read (block_run ops) (4 * word)) =
            on PM_MEMREP (latest (BlockOp.pm_writes word) ops) ∧
          ∀ i, i ≠ 1 → i ≠ 4 → (powermgt_read (block_run ops) (4 * word)).testBit i =
            (latest (BlockOp.pm_writes word) ops).testBit i) ∧
      (∀ word, 4 * word ≤ R_ASB_CTRL_LAST →
        on ASB_ACK (bcm2835_asb_read (block_run ops) (4 * word)) =
            on ASB_REQ_STOP (latest (BlockOp.asb_writes word) ops) ∧
          on ASB_REQ_STOP (bcm2835_asb_read (block_run ops) (4 * word)) =
            on ASB_REQ_STOP (latest (BlockOp.asb_writes word) ops) ∧
          bcm2835_asb_read (block_run ops) (4 * word) < 4) ∧
      bcm2835_asb_read (block_run ops) R_ASB_AXI_BRDG_ID = V_ASB_BRDG_ID := by
  have h := block_run_holds ops
  obtain ⟨hstate, hrequests⟩ := block_run_watchdog ops {}
  have hread : ∀ word, ¬ watchdog_reg (4 * word) →
      powermgt_read (block_run ops) (4 * word) = (block_run ops).regs word := by
    intro word hword
    unfold watchdog_reg at hword
    unfold powermgt_read
    rw [if_neg (by tauto), if_neg (by tauto), if_neg (by tauto), show 4 * word / 4 = word by omega]
  refine ⟨hstate, hrequests, ?_, ?_, ?_, rfl⟩
  · intro word hwatch hdomain
    rw [hread word hwatch, h.pm word hwatch, if_neg hdomain]
  · intro word hdomain
    have hwatch : ¬ watchdog_reg (4 * word) := by
      unfold domain_reg R_PM_IMAGE R_PM_GRAFX at hdomain
      unfold watchdog_reg R_RSTC R_RSTS R_WDOG
      omega
    rw [hread word hwatch, h.pm word hwatch, if_pos hdomain]
    exact domain_ack_follows _
  · intro word hword
    have hctrl : bcm2835_asb_read (block_run ops) (4 * word) = (block_run ops).asb_regs word := by
      unfold R_ASB_CTRL_LAST at hword
      unfold bcm2835_asb_read R_ASB_AXI_BRDG_ID
      rw [if_neg (by omega), show 4 * word / 4 = word by omega]
    rw [hctrl, h.asb word hword]
    exact bridge_ack_follows _

end Powermgt
