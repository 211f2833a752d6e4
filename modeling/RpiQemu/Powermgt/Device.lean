import Mathlib.Data.List.Basic
import Mathlib.Algebra.Group.Nat.Defs

/-! # The BCM2835 power management watchdog

    The countdown of `hw/misc/bcm2835_powermgt.c`: RSTC arms and stops it, WDOG
    holds its ticks, and RSTS tells a power-off from a reset.

    Time is the virtual clock in nanoseconds.  Writes carry the password, which is
    left out of the values; the other registers of the block do not touch the
    countdown. -/

namespace Powermgt

def R_RSTC : Nat := 0x1c
def R_RSTS : Nat := 0x20
def R_WDOG : Nat := 0x24

def V_RSTC_RESET : Nat := 0x20
def V_RSTS_POWEROFF : Nat := 0x555
def WDOG_TICKS_PER_SEC : Nat := 65536
def NANOSECONDS_PER_SECOND : Nat := 1000000000

/-- What the device asks of the machine. -/
inductive Cause where
  /-- `qemu_system_shutdown_request`. -/
  | shutdown
  /-- `qemu_system_reset_request`. -/
  | reset
  deriving DecidableEq, Repr

/-- A request, with the time of the clock. -/
structure Request where
  time : Nat
  cause : Cause
  deriving DecidableEq, Repr

/-- `BCM2835PowerMgtState`, and the clock. -/
structure BCM2835PowerMgtState where
  rstc : Nat := 0x102
  rsts : Nat := 0x1000
  wdog : Nat := 0
  wdt_timer : Option Nat := none
  now : Nat := 0
  deriving DecidableEq, Repr

/-- RSTS names the halt partition, or another. -/
def rsts_cause (rsts : Nat) : Cause :=
  if rsts % 0x1000 = V_RSTS_POWEROFF then .shutdown else .reset

/-- The tick count of WDOG. -/
def wdog_ticks (wdog : Nat) : Nat := wdog % 2 ^ 20

def bcm2835_powermgt_wdt_expired (s : BCM2835PowerMgtState) : List Request :=
  [{ time := s.now, cause := rsts_cause s.rsts }]

/-- `muldiv64`. -/
def muldiv64 (a b c : Nat) : Nat := a * b / c

def bcm2835_powermgt_wdt_arm (s : BCM2835PowerMgtState) : BCM2835PowerMgtState × List Request :=
  let ticks := wdog_ticks s.wdog
  if ticks = 0 then (s, bcm2835_powermgt_wdt_expired s)
  else
    ({ s with
      wdt_timer := some (s.now + muldiv64 ticks NANOSECONDS_PER_SECOND WDOG_TICKS_PER_SEC) }, [])

def bcm2835_powermgt_write (s : BCM2835PowerMgtState) (offset value : Nat) :
    BCM2835PowerMgtState × List Request :=
  if offset = R_RSTC then
    let s := { s with rstc := value }
    if value &&& V_RSTC_RESET ≠ 0 then bcm2835_powermgt_wdt_arm s
    else ({ s with wdt_timer := none }, [])
  else if offset = R_RSTS then ({ s with rsts := value }, [])
  else if offset = R_WDOG then
    let s := { s with wdog := value }
    -- a keepalive restarts the countdown
    if s.wdt_timer.isSome then bcm2835_powermgt_wdt_arm s else (s, [])
  else (s, [])

/-- The clock advances; a timer that it reaches runs at its deadline. -/
def advance (s : BCM2835PowerMgtState) (now : Nat) : BCM2835PowerMgtState × List Request :=
  let now := max s.now now
  match s.wdt_timer with
  | some deadline =>
    if deadline ≤ now then
      let s := { s with wdt_timer := none, now := deadline }
      ({ s with now := now }, bcm2835_powermgt_wdt_expired s)
    else ({ s with now := now }, [])
  | none => ({ s with now := now }, [])

def bcm2835_powermgt_reset (s : BCM2835PowerMgtState) : BCM2835PowerMgtState :=
  { s with rstc := 0x102, rsts := 0x1000, wdog := 0, wdt_timer := none }

/-- What happens to the device. -/
inductive Op where
  | write (offset value : Nat)
  | clock (now : Nat)
  | reset
  deriving DecidableEq, Repr

/-- A step, with the requests that it issues. -/
def step (s : BCM2835PowerMgtState) : Op → BCM2835PowerMgtState × List Request
  | .write offset value => bcm2835_powermgt_write s offset value
  | .clock now => advance s now
  | .reset => (bcm2835_powermgt_reset s, [])

/-- A run since reset. -/
def run (ops : List Op) : BCM2835PowerMgtState := ops.foldl (fun s op => (step s op).1) {}

end Powermgt
