import RpiQemu.Framework.Bytes
import RpiQemu.Framework.Register

/-! # The BCM2838 random number generator

    `hw/misc/bcm2838_rng200.c`: a FIFO that an entropy backend fills and the
    guest empties, a count of the bits that were delivered, and an interrupt.

    A request for entropy is answered later: the state keeps the sizes asked
    for, in the order in which the backend answers them. -/

namespace Rng200

open Register

/-! ## Registers -/

def RBG_ENABLE : Field := ⟨0, 1⟩
def TOTAL_BITS_COUNT_IRQ : Field := ⟨0, 1⟩
def STARTUP_TRANSITIONS_MET_IRQ : Field := ⟨17, 1⟩
def COUNT : Field := ⟨0, 8⟩
def THRESHOLD : Field := ⟨8, 8⟩

def A_RNG_CTRL : Nat := 0x00
def A_RNG_SOFT_RESET : Nat := 0x04
def A_RNG_TOTAL_BIT_COUNT : Nat := 0x0c
def A_RNG_TOTAL_BIT_COUNT_THRESHOLD : Nat := 0x10
def A_RNG_INT_STATUS : Nat := 0x18
def A_RNG_INT_ENABLE : Nat := 0x1c
def A_RNG_FIFO_DATA : Nat := 0x20
def A_RNG_FIFO_COUNT : Nat := 0x24

def RNG_WARM_UP_PERIOD_ELAPSED : Nat := 17

def SOFT_RESET : Field := ⟨0, 1⟩

/-- `rng_fifo_cap`. -/
def rng_fifo_cap : Nat := 128

/-- The registers of `BCM2838Rng200State.regs`. -/
structure Regs where
  ctrl : Nat := 0
  total_bit_count : Nat := 0
  total_bit_count_threshold : Nat := 0
  int_status : Nat := 0
  int_enable : Nat := 0
  fifo_count : Nat := 0
  deriving DecidableEq, Repr

/-- `BCM2838Rng200State`, with the level of its interrupt line and the requests
    that the backend has yet to answer. -/
structure BCM2838Rng200State where
  regs : Regs := {}
  fifo : List UInt8 := []
  irq : Bool := false
  requests : List Nat := []
  deriving DecidableEq, Repr

variable (s : BCM2838Rng200State)

def is_rbg_enabled : Bool := on RBG_ENABLE s.regs.ctrl

def fifo8_num_free : Nat := rng_fifo_cap - s.fifo.length

/-- The interrupt that the registers call for. -/
def Regs.pending (r : Regs) : Bool := decide (r.int_enable &&& r.int_status ≠ 0)

def bcm2838_rng200_update_irq : BCM2838Rng200State :=
  { s with irq := s.regs.pending }

/-- FIFO_COUNT.COUNT follows the FIFO. -/
def update_count : BCM2838Rng200State :=
  { s with regs := { s.regs with fifo_count := dp COUNT s.regs.fifo_count (s.fifo.length / 4) } }

/-- The bytes of an answer that there is room for. -/
def num_taken (size : Nat) : Nat := min size (fifo8_num_free s)

/-- The bits fit below the guest's threshold. -/
def below_threshold (num : Nat) : Prop :=
  (s.regs.total_bit_count + num * 8) % 2 ^ 32 < s.regs.total_bit_count_threshold

instance (num : Nat) : Decidable (below_threshold s num) := inferInstanceAs (Decidable (_ < _))

/-- The first `num` bytes of an answer go to the FIFO. -/
def push_taken (buf : List UInt8) (num : Nat) : BCM2838Rng200State :=
  let fifo := s.fifo ++ buf.take num
  let r := { s.regs with total_bit_count := (s.regs.total_bit_count + num * 8) % 2 ^ 32 }
  { s with
    fifo := fifo
    regs :=
      if ex THRESHOLD r.fifo_count < fifo.length then
        { r with int_status := raise TOTAL_BITS_COUNT_IRQ r.int_status }
      else r }

/-- The backend's answer. -/
def bcm2838_rng200_update_fifo (buf : List UInt8) : BCM2838Rng200State :=
  let num := num_taken s buf.length
  let s := if below_threshold s num then push_taken s buf num else s
  bcm2838_rng200_update_irq (update_count s)

def bcm2838_rng200_fill_fifo : BCM2838Rng200State :=
  { s with requests := s.requests ++ [fifo8_num_free s] }

def bcm2838_rng200_enable_rbg : BCM2838Rng200State :=
  bcm2838_rng200_fill_fifo
    { s with regs := { s.regs with total_bit_count := RNG_WARM_UP_PERIOD_ELAPSED } }

def bcm2838_rng200_rng_reset : BCM2838Rng200State :=
  { s with regs := { int_status := raise STARTUP_TRANSITIONS_MET_IRQ 0 }, fifo := [] }

/-- The word that the bytes at the head of the FIFO make, missing ones being 0. -/
def ldl_le_p (bytes : List UInt8) : Nat :=
  Bytes.le16At bytes 0 + Bytes.le16At bytes 2 * 2 ^ 16

def bcm2838_rng200_read_fifo_data : BCM2838Rng200State × Nat :=
  (bcm2838_rng200_fill_fifo (update_count { s with fifo := s.fifo.drop 4 }),
    ldl_le_p (s.fifo.take 4))

def bcm2838_rng200_ctrl_write (value : Nat) : BCM2838Rng200State :=
  let t := { s with regs := { s.regs with ctrl := value } }
  if is_rbg_enabled s = false ∧ on RBG_ENABLE value = true then bcm2838_rng200_enable_rbg t else t

/-- The value read. -/
def bcm2838_rng200_read (offset : Nat) : BCM2838Rng200State × Nat :=
  if offset = A_RNG_CTRL then (s, s.regs.ctrl)
  else if offset = A_RNG_INT_STATUS then (s, s.regs.int_status)
  else if offset = A_RNG_INT_ENABLE then (s, s.regs.int_enable)
  else if offset = A_RNG_FIFO_DATA then bcm2838_rng200_read_fifo_data s
  else if offset = A_RNG_FIFO_COUNT then (s, s.regs.fifo_count)
  else if offset = A_RNG_TOTAL_BIT_COUNT then (s, s.regs.total_bit_count)
  else if offset = A_RNG_TOTAL_BIT_COUNT_THRESHOLD then (s, s.regs.total_bit_count_threshold)
  else (s, 0)

def bcm2838_rng200_write (offset value : Nat) : BCM2838Rng200State :=
  if offset = A_RNG_CTRL then bcm2838_rng200_ctrl_write s value
  else if offset = A_RNG_SOFT_RESET then
    if on SOFT_RESET value then bcm2838_rng200_rng_reset s else s
  else if offset = A_RNG_INT_STATUS then
    bcm2838_rng200_update_irq
      { s with
        regs := { s.regs with int_status := s.regs.int_status - (s.regs.int_status &&& value) } }
  else if offset = A_RNG_INT_ENABLE then
    bcm2838_rng200_update_irq { s with regs := { s.regs with int_enable := value } }
  else if offset = A_RNG_FIFO_COUNT then
    { s with regs := { s.regs with fifo_count := value } }
  else if offset = A_RNG_TOTAL_BIT_COUNT_THRESHOLD then
    { s with regs := { s.regs with
        total_bit_count_threshold := value
        total_bit_count := (value + 1) % 2 ^ 32 } }
  else s

/-! ## Steps -/

/-- What happens to the generator: the backend answers its oldest request with `buf`. -/
inductive Op where
  | read (offset : Nat)
  | write (offset value : Nat)
  | answer (buf : List UInt8)
  | reset
  deriving DecidableEq, Repr

def step : Op → BCM2838Rng200State
  | .read offset => (bcm2838_rng200_read s offset).1
  | .write offset value => bcm2838_rng200_write s offset (value % 2 ^ 32)
  | .answer buf =>
    match s.requests with
    | [] => s
    | size :: requests => bcm2838_rng200_update_fifo { s with requests := requests } (buf.take size)
  | .reset => bcm2838_rng200_rng_reset s

/-- A run from the device's first reset. -/
def run (ops : List Op) : BCM2838Rng200State :=
  ops.foldl step (bcm2838_rng200_rng_reset {})

end Rng200
