import RpiQemu.Framework.History
import RpiQemu.Framework.LittleEndian
import Mathlib.Data.List.Induction

/-! # The BCM2838 PCIe host bridge

    The register window of `hw/arm/bcm2838_pcie.c`.  Its first page is the root
    port's configuration space; above it are the vendor registers, plain memory
    but for one page, `EXT_CFG_DATA`, through which the guest reaches the
    configuration space that the register `EXT_CFG_INDEX` selects.

    The configuration spaces belong to QEMU's PCI core and are a parameter
    (`Bus`): the host bridge makes `Call`s to it.

    * **Registers**: a register holds the bytes last written to it
      (`byte_of_past`).
    * **Accesses**: what an access answers and which call it makes, from the
      history of the window alone (`host_by_history`). -/

namespace Pcie

open LittleEndian

/-! ## The device -/

def PCIE_CONFIG_SPACE_SIZE : Nat := 0x1000
def BCM2838_PCIE_REGS_SIZE : Nat := 0x9310
def BCM2838_PCIE_EXT_CFG_DATA : Nat := 0x8000
def BCM2838_PCIE_EXT_CFG_INDEX : Nat := 0x9000
def BCM2838_PCIE_MISC_PCIE_STATUS : Nat := 0x4068
def BCM2838_PCIE_PCIE_PORT_MASK : Nat := 0x80

/-- `PCIE_MMCFG_CONFOFFSET`. -/
def PCIE_MMCFG_CONFOFFSET (addr : Nat) : Nat := addr % 0x1000

/-- What the host bridge asks of the PCI core. -/
inductive Call where
  /-- `pci_default_read_config` and `pci_default_write_config` of the root port. -/
  | config_read (addr size : Nat)
  | config_write (addr value size : Nat)
  /-- The memory-mapped configuration space of the bus, `pcie_hb->mmio`. -/
  | mmcfg_read (addr size : Nat)
  | mmcfg_write (addr value size : Nat)
  /-- The reset of the root port's parent class. -/
  | reset
  deriving DecidableEq, Repr

/-- The PCI core: any state, and any answers. -/
abbrev Bus (σ : Type) := σ → Call → σ × Nat

structure BCM2838PcieHostState (σ : Type) where
  /-- `root_port.regs`. -/
  regs : Memory
  bus : σ

/-- `sizeof(s->root_port.regs)`. -/
def regs_size : Nat := BCM2838_PCIE_REGS_SIZE - PCIE_CONFIG_SPACE_SIZE

/-- `*cfg_idx`. -/
def cfg_idx (regs : Memory) : Nat :=
  load regs 4 (BCM2838_PCIE_EXT_CFG_INDEX - PCIE_CONFIG_SPACE_SIZE)

def mmcfg_addr (regs : Memory) (offset : Nat) : Nat :=
  cfg_idx regs ||| PCIE_MMCFG_CONFOFFSET (offset - BCM2838_PCIE_EXT_CFG_DATA)

/-- `case EXT_CFG_DATA ... EXT_CFG_DATA + PCIE_CONFIG_SPACE_SIZE - 1`. -/
def ext_cfg_data (offset : Nat) : Prop :=
  BCM2838_PCIE_EXT_CFG_DATA ≤ offset ∧
    offset ≤ BCM2838_PCIE_EXT_CFG_DATA + PCIE_CONFIG_SPACE_SIZE - 1

instance (offset : Nat) : Decidable (ext_cfg_data offset) := inferInstanceAs (Decidable (_ ∧ _))

/-- `uint64_t value = ~0` with its low bytes copied over. -/
def copied (size v : Nat) : Nat := (2 ^ 64 - 1) / 256 ^ size * 256 ^ size + v

section

variable {σ : Type} (bus : Bus σ)

def BCM2838PcieHostState.call (s : BCM2838PcieHostState σ) (c : Call) :
    BCM2838PcieHostState σ × Nat :=
  ({ s with bus := (bus s.bus c).1 }, (bus s.bus c).2)

def bcm2838_pcie_host_read (s : BCM2838PcieHostState σ) (offset size : Nat) :
    BCM2838PcieHostState σ × Nat :=
  if offset < PCIE_CONFIG_SPACE_SIZE then s.call bus (.config_read offset size)
  else if offset - PCIE_CONFIG_SPACE_SIZE + size ≤ regs_size then
    if ext_cfg_data offset then s.call bus (.mmcfg_read (mmcfg_addr s.regs offset) size)
    else (s, copied size (load s.regs size (offset - PCIE_CONFIG_SPACE_SIZE)))
  else (s, 2 ^ 64 - 1)

def bcm2838_pcie_host_write (s : BCM2838PcieHostState σ) (offset value size : Nat) :
    BCM2838PcieHostState σ :=
  if offset < PCIE_CONFIG_SPACE_SIZE then (s.call bus (.config_write offset value size)).1
  else if offset - PCIE_CONFIG_SPACE_SIZE + size ≤ regs_size then
    if ext_cfg_data offset then
      (s.call bus (.mmcfg_write (mmcfg_addr s.regs offset) value size)).1
    else { s with regs := store s.regs size (offset - PCIE_CONFIG_SPACE_SIZE) value }
  else s

/-- All clear but for the bit that makes the port a root complex. -/
def reset_regs : Memory :=
  store (fun _ => 0) 4 (BCM2838_PCIE_MISC_PCIE_STATUS - PCIE_CONFIG_SPACE_SIZE)
    BCM2838_PCIE_PCIE_PORT_MASK

def bcm2838_pcie_root_port_reset_hold (s : BCM2838PcieHostState σ) : BCM2838PcieHostState σ :=
  { (s.call bus .reset).1 with regs := reset_regs }

/-- What happens to the device: a guest access, or a reset of the machine. -/
inductive Op where
  | read (offset size : Nat)
  | write (offset value size : Nat)
  | reset
  deriving DecidableEq, Repr

def step (s : BCM2838PcieHostState σ) : Op → BCM2838PcieHostState σ
  | .read offset size => (bcm2838_pcie_host_read bus s offset size).1
  | .write offset value size => bcm2838_pcie_host_write bus s offset value size
  | .reset => bcm2838_pcie_root_port_reset_hold bus s

/-- A run since a reset, with the PCI core in state `x`. -/
def run (x : σ) (ops : List Op) : BCM2838PcieHostState σ :=
  ops.foldl (step bus) { regs := reset_regs, bus := x }

end

/-! ## The history of the window -/

/-- An access to the vendor registers that are memory. -/
def plain (offset size : Nat) : Prop :=
  PCIE_CONFIG_SPACE_SIZE ≤ offset ∧ offset + size ≤ BCM2838_PCIE_REGS_SIZE ∧
    ¬ ext_cfg_data offset

instance (offset size : Nat) : Decidable (plain offset size) := inferInstanceAs (Decidable (_ ∧ _))

/-- The byte at `a` of a register after a reset. -/
def reset_byte (a : Nat) : UInt8 := if a = BCM2838_PCIE_MISC_PCIE_STATUS then 0x80 else 0

/-- The byte that an operation leaves at `a`, if it writes there. -/
def Op.stores (a : Nat) : Op → Option UInt8
  | .read _ _ => none
  | .write offset value size =>
    if plain offset size ∧ offset ≤ a ∧ a < offset + size then
      some (UInt8.ofNat (value / 256 ^ (a - offset)))
    else none
  | .reset => some (reset_byte a)

/-- The byte last written at `a`. -/
def byte_of_past (past : List Op) (a : Nat) : UInt8 :=
  (past.filterMap (Op.stores a)).getLastD (reset_byte a)

/-- The word last written at `a`, byte by byte. -/
def word_of_past (past : List Op) (size a : Nat) : Nat := load (byte_of_past past) size a

/-- The configuration address an access through `EXT_CFG_DATA` has. -/
def ext_cfg_addr (past : List Op) (offset : Nat) : Nat :=
  word_of_past past 4 BCM2838_PCIE_EXT_CFG_INDEX ||| offset % 0x1000

/-- The call an operation makes to the PCI core. -/
def Op.call (past : List Op) : Op → Option Call
  | .read offset size =>
    if offset < PCIE_CONFIG_SPACE_SIZE then some (.config_read offset size)
    else if ext_cfg_data offset ∧ offset + size ≤ BCM2838_PCIE_REGS_SIZE then
      some (.mmcfg_read (ext_cfg_addr past offset) size)
    else none
  | .write offset value size =>
    if offset < PCIE_CONFIG_SPACE_SIZE then some (.config_write offset value size)
    else if ext_cfg_data offset ∧ offset + size ≤ BCM2838_PCIE_REGS_SIZE then
      some (.mmcfg_write (ext_cfg_addr past offset) value size)
    else none
  | .reset => some .reset

/-- The calls of a run. -/
def calls (ops : List Op) : List Call :=
  History.history (fun past op => (op.call past).toList) ops

/-! ## One step -/

theorem byte_of_past_snoc (past : List Op) (op : Op) (a : Nat) :
    byte_of_past (past ++ [op]) a = (op.stores a).getD (byte_of_past past a) := by
  unfold byte_of_past
  rw [List.filterMap_append]
  cases hop : op.stores a with
  | none => simp [hop]
  | some b => simp [hop]

/-- A write to the register window stores its word. -/
theorem byte_of_past_write (past : List Op) {offset size : Nat} (value : Nat)
    (h : plain offset size) :
    byte_of_past (past ++ [.write offset value size]) =
      store (byte_of_past past) size offset value := by
  funext a
  rw [byte_of_past_snoc, Op.stores, store_apply]
  by_cases hcover : offset ≤ a ∧ a < offset + size
  · rw [if_pos ⟨h, hcover⟩, if_pos hcover]
    rfl
  · rw [if_neg (fun hc => hcover hc.2), if_neg hcover]
    rfl

/-- The history reads back the word that was written. -/
theorem word_of_past_write (past : List Op) {offset size : Nat} (value : Nat)
    (h : plain offset size) :
    word_of_past (past ++ [.write offset value size]) size offset = value % 256 ^ size := by
  rw [word_of_past, byte_of_past_write past value h, load_store]

/-- A write leaves the words apart from it. -/
theorem word_of_past_apart (past : List Op) {offset size a k : Nat} (value : Nat)
    (h : plain offset size) (hapart : a + k ≤ offset ∨ offset + size ≤ a) :
    word_of_past (past ++ [.write offset value size]) k a = word_of_past past k a := by
  rw [word_of_past, byte_of_past_write past value h, load_store_apart _ hapart, word_of_past]

/-- The registers hold what the history says. -/
def Matches (past : List Op) (regs : Memory) : Prop :=
  ∀ a, PCIE_CONFIG_SPACE_SIZE ≤ a → regs (a - PCIE_CONFIG_SPACE_SIZE) = byte_of_past past a

theorem Matches.load_eq {past : List Op} {regs : Memory} (h : Matches past regs) {size a : Nat}
    (ha : PCIE_CONFIG_SPACE_SIZE ≤ a) :
    load regs size (a - PCIE_CONFIG_SPACE_SIZE) = word_of_past past size a := by
  apply congrArg ofBytes
  apply List.map_congr_left
  intro i _
  rw [← h (a + i) (by omega),
    show a - PCIE_CONFIG_SPACE_SIZE + i = a + i - PCIE_CONFIG_SPACE_SIZE by omega]

theorem reset_regs_matches (past : List Op) : Matches (past ++ [.reset]) reset_regs := by
  intro a ha
  rw [byte_of_past_snoc]
  unfold reset_regs Op.stores reset_byte
  rw [store_apply]
  unfold PCIE_CONFIG_SPACE_SIZE at ha ⊢
  unfold BCM2838_PCIE_MISC_PCIE_STATUS BCM2838_PCIE_PCIE_PORT_MASK
  by_cases hword : 0x4068 ≤ a ∧ a < 0x406c
  · -- the status register: its low byte is not 0
    obtain ⟨hlo, hhi⟩ := hword
    rw [if_pos (by omega)]
    have hcase : a = 0x4068 ∨ a = 0x4069 ∨ a = 0x406a ∨ a = 0x406b := by omega
    rcases hcase with rfl | rfl | rfl | rfl <;> rfl
  · rw [if_neg (by omega), if_neg (by omega)]
    rfl

theorem start_matches : Matches [] reset_regs := by
  intro a ha
  have h := reset_regs_matches [] a ha
  rw [byte_of_past_snoc] at h
  exact h

section

variable {σ : Type} {bus : Bus σ} {s : BCM2838PcieHostState σ} {past : List Op}

/-- Which of the three kinds an access is of. -/
theorem access_cases (offset size : Nat) :
    offset < PCIE_CONFIG_SPACE_SIZE ∨
      ¬ offset < PCIE_CONFIG_SPACE_SIZE ∧
        (offset - PCIE_CONFIG_SPACE_SIZE + size ≤ regs_size ↔
          offset + size ≤ BCM2838_PCIE_REGS_SIZE) := by
  unfold regs_size PCIE_CONFIG_SPACE_SIZE BCM2838_PCIE_REGS_SIZE
  omega

theorem Matches.mmcfg_addr_eq (h : Matches past s.regs) {offset : Nat}
    (hdata : ext_cfg_data offset) : mmcfg_addr s.regs offset = ext_cfg_addr past offset := by
  unfold mmcfg_addr cfg_idx ext_cfg_addr PCIE_MMCFG_CONFOFFSET
  rw [h.load_eq (by decide)]
  unfold ext_cfg_data BCM2838_PCIE_EXT_CFG_DATA PCIE_CONFIG_SPACE_SIZE at hdata
  unfold BCM2838_PCIE_EXT_CFG_DATA
  rw [show (offset - 0x8000) % 0x1000 = offset % 0x1000 by omega]

theorem read_by_history (h : Matches past s.regs) (offset size : Nat) :
    bcm2838_pcie_host_read bus s offset size =
      match (Op.read offset size).call past with
      | some c => s.call bus c
      | none =>
        (s, if plain offset size then copied size (word_of_past past size offset)
          else 2 ^ 64 - 1) := by
  unfold bcm2838_pcie_host_read Op.call
  dsimp only
  rcases access_cases offset size with hconfig | ⟨hvendor, hsize⟩
  · rw [if_pos hconfig, if_pos hconfig]
  · rw [if_neg hvendor, if_neg hvendor]
    by_cases hin : offset + size ≤ BCM2838_PCIE_REGS_SIZE
    · rw [if_pos (hsize.mpr hin)]
      by_cases hdata : ext_cfg_data offset
      · rw [if_pos hdata, if_pos ⟨hdata, hin⟩, h.mmcfg_addr_eq hdata]
      · rw [if_neg hdata, if_neg (fun hd => hdata hd.1), h.load_eq (by omega)]
        dsimp only
        rw [if_pos ⟨by omega, hin, hdata⟩]
    · rw [if_neg (fun hi => hin (hsize.mp hi)), if_neg (fun hd => hin hd.2)]
      dsimp only
      rw [if_neg (fun hp => hin hp.2.1)]

/-- An operation keeps the registers in step with the history, and makes the
    call the history says. -/
theorem step_matches (h : Matches past s.regs) (op : Op) :
    Matches (past ++ [op]) (step bus s op).regs ∧
      (step bus s op).bus =
        (op.call past).toList.foldl (fun x c => (bus x c).1) s.bus := by
  cases op with
  | read offset size =>
    have hsame : Matches (past ++ [.read offset size]) s.regs := by
      intro a ha
      rw [byte_of_past_snoc]
      exact h a ha
    unfold step
    dsimp only
    rw [read_by_history h]
    cases (Op.read offset size).call past with
    | none => exact ⟨hsame, rfl⟩
    | some c => exact ⟨hsame, rfl⟩
  | reset => exact ⟨reset_regs_matches past, rfl⟩
  | write offset value size =>
    have hsame : ¬ plain offset size → Matches (past ++ [.write offset value size]) s.regs := by
      intro hplain a ha
      rw [byte_of_past_snoc, Op.stores, if_neg (fun hp => hplain hp.1)]
      exact h a ha
    unfold step bcm2838_pcie_host_write Op.call
    -- Configuration space, or the registers behind it, whose end is tested with the size.
    rcases access_cases offset size with hconfig | ⟨hvendor, hsize⟩
    · dsimp only
      rw [if_pos hconfig, if_pos hconfig]
      refine ⟨hsame ?_, rfl⟩
      intro hplain
      have := hplain.1
      omega
    · dsimp only
      rw [if_neg hvendor, if_neg hvendor]
      by_cases hin : offset + size ≤ BCM2838_PCIE_REGS_SIZE
      · rw [if_pos (hsize.mpr hin)]
        by_cases hdata : ext_cfg_data offset
        · rw [if_pos hdata, if_pos ⟨hdata, hin⟩, h.mmcfg_addr_eq hdata]
          exact ⟨hsame fun hp => hp.2.2 hdata, rfl⟩
        · rw [if_neg hdata, if_neg (fun hd => hdata hd.1)]
          refine ⟨?_, rfl⟩
          intro a ha
          have hplain : plain offset size := ⟨by omega, hin, hdata⟩
          dsimp only
          rw [byte_of_past_write past value hplain, store_apply, store_apply, h a ha]
          by_cases hcover : offset ≤ a ∧ a < offset + size
          · rw [if_pos (by omega), if_pos hcover,
              show a - PCIE_CONFIG_SPACE_SIZE - (offset - PCIE_CONFIG_SPACE_SIZE) = a - offset by
                omega]
          · rw [if_neg (by omega), if_neg hcover]
      · rw [if_neg (fun hi => hin (hsize.mp hi)), if_neg (fun hd => hin hd.2)]
        exact ⟨hsame fun hp => hin hp.2.1, rfl⟩

end

/-! ## Runs -/

theorem run_matches {σ : Type} (bus : Bus σ) (x : σ) (ops : List Op) :
    Matches ops (run bus x ops).regs ∧
      (run bus x ops).bus = (calls ops).foldl (fun x c => (bus x c).1) x := by
  -- the history grows by the operation that the run has just made
  induction ops using List.reverseRecOn with
  | nil => exact ⟨start_matches, rfl⟩
  | append_singleton ops op ih =>
    obtain ⟨hregs, hbus⟩ := ih
    obtain ⟨hregs', hbus'⟩ := @step_matches σ bus _ _ hregs op
    unfold run at hregs hbus hregs' hbus' ⊢
    rw [List.foldl_append, List.foldl_cons, List.foldl_nil]
    refine ⟨hregs', ?_⟩
    rw [hbus', hbus, calls, calls, History.history_snoc, List.foldl_append]

/-- Whatever the guest does: the PCI core sees the calls of the history, each at
    the configuration address last selected, and a read answers from the core or
    with the bytes last written. -/
theorem host_by_history {σ : Type} (bus : Bus σ) (x : σ) (ops : List Op) (offset size : Nat) :
    (run bus x ops).bus = (calls ops).foldl (fun x c => (bus x c).1) x ∧
      (bcm2838_pcie_host_read bus (run bus x ops) offset size).2 =
        match (Op.read offset size).call ops with
        | some c => (bus (run bus x ops).bus c).2
        | none =>
          if plain offset size then copied size (word_of_past ops size offset) else 2 ^ 64 - 1 := by
  obtain ⟨hregs, hbus⟩ := run_matches bus x ops
  refine ⟨hbus, ?_⟩
  rw [read_by_history hregs]
  cases (Op.read offset size).call ops with
  | none => rfl
  | some c => rfl

end Pcie
