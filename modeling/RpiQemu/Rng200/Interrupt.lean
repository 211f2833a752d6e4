import RpiQemu.Framework.Run
import RpiQemu.Rng200.Device

/-! # The generator's interrupt line

    `Follows` says that the line shows the pending interrupts.  What changes
    INT_STATUS or INT_ENABLE refreshes the line, but for a reset: it clears both
    registers and leaves the line. -/

namespace Rng200

open Register Run

/-- The line is at the level of (INT_ENABLE & INT_STATUS) != 0. -/
def Follows (s : BCM2838Rng200State) : Prop := s.irq = s.regs.pending

instance (s : BCM2838Rng200State) : Decidable (Follows s) := inferInstanceAs (Decidable (_ = _))

/-- A soft reset by the guest, or a reset of the device. -/
def Op.resets : Op → Bool
  | .reset => true
  | .write offset value => offset == A_RNG_SOFT_RESET && on SOFT_RESET (value % 2 ^ 32)
  | _ => false

theorem update_irq_follows (s : BCM2838Rng200State) : Follows (bcm2838_rng200_update_irq s) := rfl

/-- The line and the registers that it shows are as they were. -/
theorem Follows.same {s s' : BCM2838Rng200State} (h : Follows s) (hirq : s'.irq = s.irq)
    (henable : s'.regs.int_enable = s.regs.int_enable)
    (hstatus : s'.regs.int_status = s.regs.int_status) : Follows s' := by
  unfold Follows Regs.pending
  rw [hirq, henable, hstatus]
  exact h

theorem reset_line (s : BCM2838Rng200State) :
    Follows (bcm2838_rng200_rng_reset s) ↔ s.irq = false := by
  have hclear : (bcm2838_rng200_rng_reset s).regs.pending = false := by
    simp [bcm2838_rng200_rng_reset, Regs.pending]
  unfold Follows
  rw [hclear]
  exact Iff.rfl

theorem read_follows {s : BCM2838Rng200State} (h : Follows s) (offset : Nat) :
    Follows (bcm2838_rng200_read s offset).1 := by
  unfold bcm2838_rng200_read
  split_ifs
  all_goals exact h

theorem ctrl_write_follows {s : BCM2838Rng200State} (h : Follows s) (value : Nat) :
    Follows (bcm2838_rng200_ctrl_write s value) := by
  unfold bcm2838_rng200_ctrl_write
  dsimp only
  split
  · exact h.same rfl rfl rfl
  · exact h.same rfl rfl rfl

/-- A write that is no reset. -/
theorem write_follows {s : BCM2838Rng200State} (h : Follows s) {offset value : Nat}
    (hop : offset = A_RNG_SOFT_RESET → on SOFT_RESET value = false) :
    Follows (bcm2838_rng200_write s offset value) := by
  unfold bcm2838_rng200_write
  by_cases hctrl : offset = A_RNG_CTRL
  · rw [if_pos hctrl]
    exact ctrl_write_follows h value
  rw [if_neg hctrl]
  by_cases hreset : offset = A_RNG_SOFT_RESET
  · rw [if_pos hreset, if_neg (by rw [hop hreset]; decide)]
    exact h
  rw [if_neg hreset]
  split_ifs
  · exact update_irq_follows _
  · exact update_irq_follows _
  · exact h.same rfl rfl rfl
  · exact h.same rfl rfl rfl
  · exact h

theorem step_follows {s : BCM2838Rng200State} (h : Follows s) {op : Op}
    (hop : op.resets = false) : Follows (step s op) := by
  cases op with
  | read offset => exact read_follows h offset
  | write offset value =>
    apply write_follows h
    intro hreset
    simpa [Op.resets, hreset] using hop
  | answer buf =>
    unfold step
    dsimp only
    split
    · exact h
    · exact update_irq_follows _
  | reset => cases hop

/-- A reset, in either way. -/
theorem step_resets (s : BCM2838Rng200State) {op : Op} (hop : op.resets = true) :
    step s op = bcm2838_rng200_rng_reset s := by
  cases op with
  | read offset => cases hop
  | write offset value =>
    simp only [Op.resets, Bool.and_eq_true, beq_iff_eq] at hop
    obtain ⟨rfl, hbit⟩ := hop
    unfold step
    dsimp only
    unfold bcm2838_rng200_write
    rw [if_neg (by decide), if_pos rfl, if_pos hbit]
  | answer buf => cases hop
  | reset => rfl

/-- **The line is right after every operation of a run exactly when every reset
    finds it low.** -/
theorem line_follows_iff (ops : List Op) :
    Along step (fun s op => Follows (step s op)) (run []) ops ↔
      Along step (fun s op => op.resets = true → s.irq = false) (run []) ops := by
  apply along_congr (I := Follows) (Q := fun _ _ => True)
  · exact fun s op _ _ hfollows => hfollows
  · intro s op hs _
    by_cases hop : op.resets = true
    · -- a reset leaves the line right when it finds it low
      rw [step_resets s hop, reset_line s]
      exact ⟨fun h _ => h, fun h => h hop⟩
    · have hfollows := step_follows hs (Bool.eq_false_iff.mpr hop)
      exact ⟨fun _ h => absurd h hop, fun _ => hfollows⟩
  · rfl
  · exact along_of_forall (fun _ _ => trivial) _ _

/-- The guest asks for the interrupt that is pending after a reset, and resets the
    generator: the line stays up. -/
theorem line_stuck_after_reset :
    ¬ ∀ ops, Along step (fun s op => Follows (step s op)) (run []) ops := by
  intro h
  have hstuck := h [.write A_RNG_INT_ENABLE (2 ^ 17), .write A_RNG_SOFT_RESET 1]
  revert hstuck
  decide

end Rng200
