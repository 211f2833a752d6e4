import RpiQemu.Genet.Registers

/-! # The PHY's indirect registers

    Three register files of the PHY are behind PHY registers: the shadow
    registers, the auxiliary-control registers and the expansion registers.  A
    command writes one of them, or selects one for a later read.

    * **Files**: a command changes at most the register it names, so a file
      holds what was written last (`shd_after`, `aux_after`).
    * **Reads**: a read returns the command that selected the register.  The
      stored value was meant to be put in it, but the result of the deposit is
      dropped, so the read is right exactly when the selecting command had
      that value in it already (`shadow_reads_back_iff`). -/

namespace Genet

open Register

/-! ## Commands -/

/-- A command that writes a PHY register. -/
def MdioWrites (cmd reg : Nat) : Prop :=
  ex MDIO_START_BUSY cmd ≠ 0 ∧ ex MDIO_RD cmd = 0 ∧ ex MDIO_WR cmd ≠ 0 ∧ ex MDIO_REG_ID cmd = reg

/-- A command that reads a PHY register. -/
def MdioReads (cmd reg : Nat) : Prop :=
  ex MDIO_START_BUSY cmd ≠ 0 ∧ ex MDIO_RD cmd ≠ 0 ∧ ex MDIO_REG_ID cmd = reg

instance (cmd reg : Nat) : Decidable (MdioWrites cmd reg) :=
  inferInstanceAs (Decidable (_ ∧ _))

instance (cmd reg : Nat) : Decidable (MdioReads cmd reg) :=
  inferInstanceAs (Decidable (_ ∧ _))

/-- The device after several commands. -/
def mdio_run (c : Controller) (cmds : List Nat) : Controller :=
  cmds.foldl (fun c cmd => (mdio_cmd c cmd).1) c

/-- The value that a list of commands leaves in a place, where `f` says what a
    command writes there. -/
def last_written (f : Nat → Option Nat) (init : Nat) (cmds : List Nat) : Nat :=
  cmds.foldl (fun v cmd => (f cmd).getD v) init

/-- What a command writes to a shadow register. -/
def shd_written (r cmd : Nat) : Option Nat :=
  let data := ex MDIO_REG_DATA cmd
  if MdioWrites cmd PHY_SHD ∧ ex SHADOW_WR data ≠ 0 ∧ ex SHADOW_REG_ID data = r then
    some (ex SHADOW_REG_DATA data)
  else none

/-- The data field of an auxiliary-control register. -/
def aux_field (r : Nat) : Field :=
  if r = PHY_AUX_CTL_MISC then AUX_CTRL_REG_DATA else AUX_CTRL_REG_DATA12

/-- What a command writes to an auxiliary-control register.  MISC is written
    only with its number in both places and the write enable set. -/
def aux_written (r cmd : Nat) : Option Nat :=
  let data := ex MDIO_REG_DATA cmd
  if MdioWrites cmd PHY_AUX_CTL ∧ ex AUX_CTRL_REG_ID_MASK data = r ∧
      (r = PHY_AUX_CTL_MISC → ex AUX_CTRL_REG_ID data = r ∧ ex AUX_CTRL_MISC_WREN data ≠ 0) then
    some (ex (aux_field r) data)
  else none

/-- What a command writes to an expansion register, with the selection in
    EXP_SEL. -/
def exp_written (sel block r cmd : Nat) : Option Nat :=
  if MdioWrites cmd PHY_EXP_DATA ∧ ex EXP_SEL_BLOCK_ID sel = block ∧ ex EXP_SEL_REG_ID sel = r then
    some (ex MDIO_REG_DATA cmd)
  else none

/-- A command that selects a shadow register for a read. -/
def SelectsShadow (cmd r : Nat) : Prop :=
  MdioWrites cmd PHY_SHD ∧ ex SHADOW_WR (ex MDIO_REG_DATA cmd) = 0 ∧
    ex SHADOW_REG_ID (ex MDIO_REG_DATA cmd) = r

/-- A command that selects an auxiliary-control register for a read. -/
def SelectsAux (cmd r : Nat) : Prop :=
  MdioWrites cmd PHY_AUX_CTL ∧ ex AUX_CTRL_REG_ID_MASK (ex MDIO_REG_DATA cmd) = PHY_AUX_CTL_MISC ∧
    ex AUX_CTRL_REG_ID (ex MDIO_REG_DATA cmd) = r ∧
    (r = PHY_AUX_CTL_MISC → ex AUX_CTRL_MISC_WREN (ex MDIO_REG_DATA cmd) = 0)

/-! ## One command -/

section

variable {c : Controller} {cmd reg : Nat}

theorem mdio_cmd_write (h : MdioWrites cmd reg) :
    (mdio_cmd c cmd).1 = mdio_write c reg (ex MDIO_REG_DATA cmd) := by
  obtain ⟨hstart, hrd, hwr, rfl⟩ := h
  unfold mdio_cmd
  simp only
  rw [if_pos hstart, if_neg (not_not.mpr hrd), if_pos hwr]

/-- Only a write does anything. -/
theorem mdio_cmd_other (h : ∀ reg, ¬ MdioWrites cmd reg) : (mdio_cmd c cmd).1 = c := by
  unfold mdio_cmd
  simp only
  by_cases hstart : ex MDIO_START_BUSY cmd ≠ 0
  · rw [if_pos hstart]
    by_cases hrd : ex MDIO_RD cmd ≠ 0
    · rw [if_pos hrd]
      split <;> rfl
    · rw [if_neg hrd]
      by_cases hwr : ex MDIO_WR cmd ≠ 0
      · exact absurd ⟨hstart, not_not.mp hrd, hwr, rfl⟩ (h (ex MDIO_REG_ID cmd))
      · rw [if_neg hwr]
  · rw [if_neg hstart]

theorem mdio_cmd_read (h : MdioReads cmd reg) (hreg : reg ≠ PHY_EXP_DATA) :
    ex MDIO_REG_DATA (mdio_cmd c cmd).2 = c.phy.regs reg % 2 ^ 16 := by
  obtain ⟨hstart, hrd, rfl⟩ := h
  unfold mdio_cmd
  simp only
  rw [if_pos hstart, if_pos hrd, if_neg hreg]
  exact ex_dp _ _

end

/-- The link changes three of the PHY's own registers. -/
theorem phy_update_link_phy (c : Controller) :
    (phy_update_link c).phy.shd = c.phy.shd ∧
      (phy_update_link c).phy.aux_ctl_shd = c.phy.aux_ctl_shd ∧
      (phy_update_link c).phy.exp_shd = c.phy.exp_shd ∧
      ∀ reg, reg ≠ PHY_BMSR → reg ≠ PHY_LPA → reg ≠ PHY_STAT_1000 →
        (phy_update_link c).phy.regs reg = c.phy.regs reg := by
  unfold phy_update_link
  simp only
  split_ifs with h₁ h₂
  · refine ⟨rfl, rfl, rfl, ?_⟩
    intro reg hbmsr _ _
    exact if_neg hbmsr
  · refine ⟨rfl, rfl, rfl, ?_⟩
    intro reg hbmsr hlpa hstat
    simp only [Phy.set, update, if_neg hbmsr, if_neg hlpa, if_neg hstat]
  · exact ⟨rfl, rfl, rfl, fun _ _ _ _ => rfl⟩

/-- Each handler of a PHY register leaves the files of the others alone. -/
theorem mdio_write_files (c : Controller) (reg data : Nat) :
    (reg ≠ PHY_SHD → (mdio_write c reg data).phy.shd = c.phy.shd) ∧
      (reg ≠ PHY_AUX_CTL → (mdio_write c reg data).phy.aux_ctl_shd = c.phy.aux_ctl_shd) ∧
      (reg ≠ PHY_EXP_DATA → (mdio_write c reg data).phy.exp_shd = c.phy.exp_shd) := by
  obtain ⟨hshd, haux, hexp, -⟩ := phy_update_link_phy c
  unfold mdio_write
  simp only
  split_ifs with h₁ h₂ h₃ h₄
  · refine ⟨fun _ => ?_, fun h => absurd h₁ h, fun _ => ?_⟩ <;>
    · unfold phy_aux_ctl_write
      simp only
      split_ifs <;> rfl
  · refine ⟨fun h => absurd h₂ h, fun _ => ?_, fun _ => ?_⟩ <;>
    · unfold phy_shadow_write
      simp only
      split_ifs <;> rfl
  · exact ⟨fun _ => rfl, fun _ => rfl, fun h => absurd h₃ h⟩
  · exact ⟨fun _ => hshd, fun _ => haux, fun _ => hexp⟩
  · exact ⟨fun _ => rfl, fun _ => rfl, fun _ => rfl⟩

/-- A shadow register changes when it is written. -/
theorem mdio_cmd_shd (c : Controller) (cmd r : Nat) :
    (mdio_cmd c cmd).1.phy.shd r = (shd_written r cmd).getD (c.phy.shd r) := by
  unfold shd_written
  simp only
  by_cases hw : MdioWrites cmd PHY_SHD
  · rw [mdio_cmd_write hw, mdio_write, if_neg (by decide), if_pos rfl, phy_shadow_write]
    simp only [Phy.set]
    by_cases hwr : ex SHADOW_WR (ex MDIO_REG_DATA cmd) = 0
    · rw [if_pos hwr, if_neg (fun h => h.2.1 hwr)]
      rfl
    · rw [if_neg hwr]
      by_cases hr : ex SHADOW_REG_ID (ex MDIO_REG_DATA cmd) = r
      · rw [if_pos ⟨hw, hwr, hr⟩, ← hr]
        exact update_self _ _ _
      · rw [if_neg (fun h => hr h.2.2)]
        exact update_of_ne _ _ (Ne.symm hr)
  · rw [if_neg (fun h => hw h.1)]
    by_cases hany : ∃ reg, MdioWrites cmd reg
    · obtain ⟨reg, hreg⟩ := hany
      have hne : reg ≠ PHY_SHD := fun h => hw (h ▸ hreg)
      rw [mdio_cmd_write hreg, (mdio_write_files c reg _).1 hne]
      rfl
    · rw [mdio_cmd_other (not_exists.mp hany)]
      rfl

/-- An auxiliary-control register changes when it is written. -/
theorem mdio_cmd_aux (c : Controller) (cmd r : Nat) :
    (mdio_cmd c cmd).1.phy.aux_ctl_shd r = (aux_written r cmd).getD (c.phy.aux_ctl_shd r) := by
  unfold aux_written
  simp only
  by_cases hw : MdioWrites cmd PHY_AUX_CTL
  · rw [mdio_cmd_write hw, mdio_write, if_pos rfl, phy_aux_ctl_write]
    simp only [Phy.set]
    by_cases hmisc : ex AUX_CTRL_REG_ID_MASK (ex MDIO_REG_DATA cmd) = PHY_AUX_CTL_MISC
    · rw [if_pos hmisc]
      by_cases hok : ex AUX_CTRL_REG_ID (ex MDIO_REG_DATA cmd) = PHY_AUX_CTL_MISC ∧
          ex AUX_CTRL_MISC_WREN (ex MDIO_REG_DATA cmd) ≠ 0
      · rw [if_pos hok, hmisc]
        by_cases hr : PHY_AUX_CTL_MISC = r
        · subst hr
          rw [if_pos ⟨hw, rfl, fun _ => hok⟩, aux_field, if_pos rfl]
          simp only [update_self, Option.getD_some]
        · rw [if_neg (fun h => hr h.2.1)]
          exact update_of_ne _ _ (Ne.symm hr)
      · rw [if_neg hok, if_neg]
        · rfl
        · rintro ⟨-, hr, hmiscok⟩
          obtain rfl := hmisc.symm.trans hr
          exact hok (hmiscok rfl)
    · rw [if_neg hmisc]
      by_cases hr : ex AUX_CTRL_REG_ID_MASK (ex MDIO_REG_DATA cmd) = r
      · subst hr
        rw [if_pos ⟨hw, rfl, fun h => absurd h hmisc⟩, aux_field, if_neg hmisc]
        exact update_self _ _ _
      · rw [if_neg (fun h => hr h.2.1)]
        exact update_of_ne _ _ (Ne.symm hr)
  · rw [if_neg (fun h => hw h.1)]
    by_cases hany : ∃ reg, MdioWrites cmd reg
    · obtain ⟨reg, hreg⟩ := hany
      have hne : reg ≠ PHY_AUX_CTL := fun h => hw (h ▸ hreg)
      rw [mdio_cmd_write hreg, (mdio_write_files c reg _).2.1 hne]
      rfl
    · rw [mdio_cmd_other (not_exists.mp hany)]
      rfl

/-- An expansion register changes when it is selected and written. -/
theorem mdio_cmd_exp (c : Controller) (cmd block r : Nat) :
    (mdio_cmd c cmd).1.phy.exp_shd block r =
      (exp_written (c.phy.regs PHY_EXP_SEL) block r cmd).getD (c.phy.exp_shd block r) := by
  unfold exp_written
  by_cases hw : MdioWrites cmd PHY_EXP_DATA
  · rw [mdio_cmd_write hw, mdio_write, if_neg (by decide), if_neg (by decide), if_pos rfl,
      phy_exp_shadow_write]
    simp only
    by_cases hblock : ex EXP_SEL_BLOCK_ID (c.phy.regs PHY_EXP_SEL) = block
    · rw [if_pos hblock.symm]
      by_cases hr : ex EXP_SEL_REG_ID (c.phy.regs PHY_EXP_SEL) = r
      · rw [if_pos ⟨hw, hblock, hr⟩, ← hr]
        exact update_self _ _ _
      · rw [if_neg (fun h => hr h.2.2)]
        exact update_of_ne _ _ (Ne.symm hr)
    · rw [if_neg (Ne.symm hblock), if_neg (fun h => hblock h.2.1)]
      rfl
  · rw [if_neg (fun h => hw h.1)]
    by_cases hany : ∃ reg, MdioWrites cmd reg
    · obtain ⟨reg, hreg⟩ := hany
      have hne : reg ≠ PHY_EXP_DATA := fun h => hw (h ▸ hreg)
      rw [mdio_cmd_write hreg, (mdio_write_files c reg _).2.2 hne]
      rfl
    · rw [mdio_cmd_other (not_exists.mp hany)]
      rfl

/-- The two registers that select keep the command written to them as it is. -/
theorem mdio_cmd_regs {reg : Nat} (hreg : reg = PHY_SHD ∨ reg = PHY_AUX_CTL) (c : Controller)
    (cmd : Nat) :
    (mdio_cmd c cmd).1.phy.regs reg =
      if MdioWrites cmd reg then ex MDIO_REG_DATA cmd else c.phy.regs reg := by
  have hlink : reg ≠ PHY_BMSR ∧ reg ≠ PHY_LPA ∧ reg ≠ PHY_STAT_1000 := by
    obtain rfl | rfl := hreg <;> decide
  by_cases hw : MdioWrites cmd reg
  · rw [if_pos hw, mdio_cmd_write hw]
    obtain rfl | rfl := hreg
    · rw [mdio_write, if_neg (by decide), if_pos rfl]
      simp only [phy_shadow_write, Phy.set, update_self]
    · rw [mdio_write, if_pos rfl]
      simp only [phy_aux_ctl_write, Phy.set, update_self]
  · rw [if_neg hw]
    by_cases hany : ∃ other, MdioWrites cmd other
    · obtain ⟨other, hother⟩ := hany
      have hne : reg ≠ other := fun h => hw (h ▸ hother)
      rw [mdio_cmd_write hother, mdio_write]
      split_ifs with h₁ h₂ h₃ h₄
      · subst h₁
        rw [phy_aux_ctl_write]
        simp only
        split_ifs <;> exact update_of_ne _ _ hne
      · subst h₂
        rw [phy_shadow_write]
        simp only
        split_ifs <;> exact update_of_ne _ _ hne
      · rfl
      · simp only [Phy.set]
        rw [update_of_ne _ _ hne]
        exact (phy_update_link_phy c).2.2.2 reg hlink.1 hlink.2.1 hlink.2.2
      · exact update_of_ne _ _ hne
    · rw [mdio_cmd_other (not_exists.mp hany)]

/-! ## Runs -/

theorem mdio_run_append (c : Controller) (l m : List Nat) :
    mdio_run c (l ++ m) = mdio_run (mdio_run c l) m :=
  List.foldl_append

/-- A place that every command updates by `f` holds what was written last. -/
theorem mdio_run_last (place : Controller → Nat) {f : Nat → Option Nat}
    (h : ∀ c cmd, place (mdio_cmd c cmd).1 = (f cmd).getD (place c)) (c : Controller)
    (cmds : List Nat) : place (mdio_run c cmds) = last_written f (place c) cmds := by
  -- on the commands: the first one decides only what the others start from
  induction cmds generalizing c with
  | nil => rfl
  | cons cmd cmds ih =>
    have hrest := ih (mdio_cmd c cmd).1
    rw [h c cmd] at hrest
    exact hrest

/-- The shadow registers hold what was written last. -/
theorem shd_after (c : Controller) (cmds : List Nat) (r : Nat) :
    (mdio_run c cmds).phy.shd r = last_written (shd_written r) (c.phy.shd r) cmds :=
  mdio_run_last (fun c => c.phy.shd r) (fun c cmd => mdio_cmd_shd c cmd r) c cmds

/-- The auxiliary-control registers hold what was written last. -/
theorem aux_after (c : Controller) (cmds : List Nat) (r : Nat) :
    (mdio_run c cmds).phy.aux_ctl_shd r =
      last_written (aux_written r) (c.phy.aux_ctl_shd r) cmds :=
  mdio_run_last (fun c => c.phy.aux_ctl_shd r) (fun c cmd => mdio_cmd_aux c cmd r) c cmds

/-- A register that selects is not changed by commands that do not write it. -/
theorem mdio_run_keeps {reg : Nat} (hreg : reg = PHY_SHD ∨ reg = PHY_AUX_CTL) (c : Controller)
    {cmds : List Nat} (h : ∀ m ∈ cmds, ¬ MdioWrites m reg) :
    (mdio_run c cmds).phy.regs reg = c.phy.regs reg := by
  induction cmds generalizing c with
  | nil => rfl
  | cons cmd cmds ih =>
    have hrest := ih (mdio_cmd c cmd).1 (fun m hm => h m (List.mem_cons_of_mem _ hm))
    rw [mdio_cmd_regs hreg, if_neg (h cmd List.mem_cons_self)] at hrest
    exact hrest

/-- A select, commands that do not write the register, and a read of it: the
    read returns the select. -/
theorem read_returns_select {reg : Nat} (hreg : reg = PHY_SHD ∨ reg = PHY_AUX_CTL)
    (c : Controller) {sel rd : Nat} {mid : List Nat} (hsel : MdioWrites sel reg)
    (hmid : ∀ m ∈ mid, ¬ MdioWrites m reg) (hrd : MdioReads rd reg) :
    ex MDIO_REG_DATA (mdio_cmd (mdio_run c (sel :: mid)) rd).2 = ex MDIO_REG_DATA sel := by
  have hexp : reg ≠ PHY_EXP_DATA := by
    obtain rfl | rfl := hreg <;> decide
  have hregs : (mdio_run c (sel :: mid)).phy.regs reg = ex MDIO_REG_DATA sel := by
    have hkeep := mdio_run_keeps hreg (mdio_cmd c sel).1 hmid
    rw [mdio_cmd_regs hreg, if_pos hsel] at hkeep
    exact hkeep
  rw [mdio_cmd_read hrd hexp, hregs]
  exact Nat.mod_eq_of_lt (ex_lt sel)

/-- After a reset of the PHY and any commands:
    each command changes at most the register it writes, so the shadow and the
    auxiliary-control registers hold what was written last or their reset
    value; but a read of a selected register returns that value exactly when
    the data field of the selecting command had it already. -/
theorem shadow_reads_back_iff (c : Controller) (cmds : List Nat) :
    let p := (mdio_run (reset c) cmds).phy
    let shd := fun r => last_written (shd_written r) ((reset c).phy.shd r) cmds
    let aux := fun r => last_written (aux_written r) ((reset c).phy.aux_ctl_shd r) cmds
    (∀ r, p.shd r = shd r ∧ p.aux_ctl_shd r = aux r) ∧
    (∀ cmd, let p' := (mdio_run (reset c) (cmds ++ [cmd])).phy
      ∀ b r, p'.shd r = (shd_written r cmd).getD (p.shd r) ∧
        p'.aux_ctl_shd r = (aux_written r cmd).getD (p.aux_ctl_shd r) ∧
        p'.exp_shd b r = (exp_written (p.regs PHY_EXP_SEL) b r cmd).getD (p.exp_shd b r)) ∧
    (∀ r sel mid rd, SelectsShadow sel r → (∀ m ∈ mid, ¬ MdioWrites m PHY_SHD) →
      MdioReads rd PHY_SHD →
      (ex SHADOW_REG_DATA
          (ex MDIO_REG_DATA (mdio_cmd (mdio_run (reset c) (cmds ++ sel :: mid)) rd).2) = shd r ↔
        ex SHADOW_REG_DATA (ex MDIO_REG_DATA sel) = shd r)) ∧
    (∀ r sel mid rd, SelectsAux sel r → (∀ m ∈ mid, ¬ MdioWrites m PHY_AUX_CTL) →
      MdioReads rd PHY_AUX_CTL →
      (ex (aux_field r)
          (ex MDIO_REG_DATA (mdio_cmd (mdio_run (reset c) (cmds ++ sel :: mid)) rd).2) = aux r ↔
        ex (aux_field r) (ex MDIO_REG_DATA sel) = aux r)) := by
  intro p shd aux
  refine ⟨fun r => ⟨shd_after _ _ r, aux_after _ _ r⟩, ?_, ?_, ?_⟩
  · intro cmd p' b r
    have hp' : p' = (mdio_cmd (mdio_run (reset c) cmds) cmd).1.phy := by
      simp only [p', mdio_run_append]
      rfl
    rw [hp']
    exact ⟨mdio_cmd_shd _ cmd r, mdio_cmd_aux _ cmd r, mdio_cmd_exp _ cmd b r⟩
  · intro r sel mid rd hsel hmid hrd
    rw [mdio_run_append, read_returns_select (.inl rfl) _ hsel.1 hmid hrd]
  · intro r sel mid rd hsel hmid hrd
    rw [mdio_run_append, read_returns_select (.inr rfl) _ hsel.1 hmid hrd]

/-- The commands of a driver: 5 is written to shadow register 2, which is then
    selected and read; and to auxiliary-control register 0. -/
def shadow_write : Nat := 0x241C8805
def shadow_select : Nat := 0x241C0800
def shadow_read : Nat := 0x281C0000
def aux_write : Nat := 0x24180050
def aux_select : Nat := 0x24180007
def aux_read : Nat := 0x28180000

/-- A device for examples, as it is realized. -/
def plain_device : Controller := power_on (fun _ => 0) (fun _ => 0) true

/-- A selecting command that carries the value 5 already: the read is right. -/
theorem select_with_value_reads_back :
    ex SHADOW_REG_DATA (ex MDIO_REG_DATA
        (mdio_cmd (mdio_run (reset plain_device) [shadow_write, shadow_select + 5])
          shadow_read).2) = 5 := by
  have h := (shadow_reads_back_iff plain_device [shadow_write]).2.2.1 2 (shadow_select + 5) []
    shadow_read ⟨by decide, by decide, by decide⟩ (fun _ h => absurd h List.not_mem_nil)
    (by decide)
  exact h.mpr (by decide)

/-- The plain sequences: the registers hold 5, and the reads return 0. -/
theorem select_without_value_reads_zero :
    last_written (shd_written 2) ((reset plain_device).phy.shd 2) [shadow_write] = 5 ∧
      SelectsShadow shadow_select 2 ∧ MdioReads shadow_read PHY_SHD ∧
      ex SHADOW_REG_DATA (ex MDIO_REG_DATA
        (mdio_cmd (mdio_run (reset plain_device) [shadow_write, shadow_select])
          shadow_read).2) = 0 ∧
      last_written (aux_written 0) ((reset plain_device).phy.aux_ctl_shd 0) [aux_write] = 5 ∧
      SelectsAux aux_select 0 ∧ MdioReads aux_read PHY_AUX_CTL ∧
      ex (aux_field 0) (ex MDIO_REG_DATA
        (mdio_cmd (mdio_run (reset plain_device) [aux_write, aux_select]) aux_read).2) = 0 := by
  refine ⟨by decide, ⟨by decide, by decide, by decide⟩, by decide, by decide, by decide,
    ⟨by decide, by decide, by decide, fun h => absurd h (by decide)⟩, by decide, by decide⟩

/-! ## The register of the commands -/

/-- A guest gives a command by a write of UMAC_MDIO_CMD, and finds the result
    in the same register. -/
theorem write_mdio_cmd (host : Host) (c : Controller) {a : Access}
    (ha : a.offset = UMAC_MDIO_CMD) (hword : a.width = .word) :
    (write host c a).1.phy = (mdio_cmd c a.value).1.phy ∧
      read (write host c a).1 UMAC_MDIO_CMD .word = (mdio_cmd c a.value).2 % 2 ^ 32 := by
  have hsize : a.offset + 4 ≤ REGS_SIZE := by
    rw [ha]
    decide
  have hswitch : write_switch host c a.offset a.value =
      ⟨{ (mdio_cmd c a.value).1 with
          state := raise0 (mdio_cmd c a.value).1.state INTRL_0_MDIO_DONE },
        (mdio_cmd c a.value).2, [], false⟩ := by
    rw [ha]
    rfl
  rw [write_word host c hword hsize]
  dsimp only
  rw [hswitch]
  refine ⟨rfl, ?_⟩
  have hbits : word_bits UMAC_MDIO_CMD .word = ⟨0, 32⟩ := by decide
  unfold read
  rw [if_pos (by decide), show word_offset UMAC_MDIO_CMD = UMAC_MDIO_CMD by decide, hbits,
    Controller.load, show State.load _ UMAC_MDIO_CMD = none from rfl]
  simp only [Controller.store, ha, Option.getD_none, update_self, ex, Nat.pow_zero, Nat.div_one]
  exact Nat.mod_mod _ _

end Genet
