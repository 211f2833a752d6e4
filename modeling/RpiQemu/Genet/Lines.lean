import RpiQemu.Genet.Registers

/-! # The interrupt lines

    `Lines` says that the two output lines show what the interrupt controllers
    have pending.  Every operation refreshes them at its end, or changes
    nothing that they show, with one exception: a reset of the device clears
    both controllers but refreshes the first line only.

    * **Steps**: what each operation does to the lines (`step_lines_iff`).
    * **Runs**: the lines are right after every run whose resets find nothing
      pending on the second line (`lines_show_state`). -/

namespace Genet

open Register

/-- The lines are at the levels of the interrupt controllers. -/
def Lines (s : State) : Prop :=
  s.irq_default = s.intrl0.pending ∧ s.irq_prio = s.intrl1.pending

theorem lines_set_irq (s : State) : Lines (set_irq s) := ⟨rfl, rfl⟩

/-! ## Steps -/

/-- The link is looked at: the first line is refreshed, and the second
    controller is left alone. -/
theorem phy_update_link_lines (c : Controller) :
    (phy_update_link c).state.irq_default = (phy_update_link c).state.intrl0.pending ∧
      (phy_update_link c).state.irq_prio = c.state.irq_prio ∧
      (phy_update_link c).state.intrl1 = c.state.intrl1 := by
  unfold phy_update_link
  simp only
  split_ifs <;> exact ⟨rfl, rfl, rfl⟩

theorem reset_lines (c : Controller) :
    (reset c).state.irq_default = (reset c).state.intrl0.pending ∧
      (reset c).state.irq_prio = c.state.irq_prio ∧
      (reset c).state.intrl1.pending = false := by
  obtain ⟨h₁, h₂, h₃⟩ := phy_update_link_lines
    { set_qemu_mac
        { c with
          state := c.state.clear
          other := update (fun _ => 0) SYS_REV_CTRL (dp MINOR_REV (dp MAJOR_REV 0 6) 0) } with
      phy := phy_reset_regs c.phy }
  refine ⟨h₁, h₂, ?_⟩
  have hclear : (reset c).state.intrl1 = ⟨0, 0⟩ := h₃
  rw [hclear]
  decide

theorem receive_lines {net : Net} {s s' : State} {buf : List UInt8} {ret : Int} (h : Lines s)
    (hrecv : receive net s buf = some (ret, s')) : Lines s' := by
  unfold receive at hrecv
  by_cases hen : ex DMA_CTRL_EN s.rdma.ctrl ≠ 0
  · rw [if_pos hen] at hrecv
    simp only at hrecv
    split at hrecv
    · -- the ring is full: nothing changes
      obtain ⟨-, rfl⟩ := Prod.mk.inj (Option.some.inj hrecv)
      exact h
    · split at hrecv
      · obtain ⟨r, -, hr⟩ := Option.map_eq_some_iff.mp hrecv
        obtain ⟨-, rfl⟩ := Prod.mk.inj hr
        exact lines_set_irq r.2
      · obtain ⟨-, rfl⟩ := Prod.mk.inj (Option.some.inj hrecv)
        exact lines_set_irq s
  · rw [if_neg hen] at hrecv
    obtain ⟨-, rfl⟩ := Prod.mk.inj (Option.some.inj hrecv)
    exact lines_set_irq s

theorem write_lines {host : Host} {c : Controller} (h : Lines c.state) (a : Access) :
    Lines (write host c a).1.state := by
  unfold write
  split
  · exact lines_set_irq _
  · exact h

/-- An operation keeps the lines right, except a reset with something pending
    on the second one. -/
theorem step_lines_iff {host : Host} {c c' : Controller} {op : Op} (h : Lines c.state)
    (hstep : step host c op = some c') :
    Lines c'.state ↔ (op = .reset → c.state.intrl1.pending = false) := by
  cases op with
  | write a =>
    obtain rfl := Option.some.inj hstep
    exact iff_of_true (write_lines h a) (fun hop => Op.noConfusion hop)
  | memory mem =>
    obtain rfl := Option.some.inj hstep
    exact iff_of_true h (fun hop => Op.noConfusion hop)
  | receive buf =>
    obtain ⟨r, hr, rfl⟩ := Option.map_eq_some_iff.mp hstep
    exact iff_of_true (receive_lines h hr) (fun hop => Op.noConfusion hop)
  | set_link down =>
    obtain rfl := Option.some.inj hstep
    obtain ⟨h₁, h₂, h₃⟩ := phy_update_link_lines { c with link_down := down }
    refine iff_of_true ⟨h₁, ?_⟩ (fun hop => Op.noConfusion hop)
    unfold set_link
    rw [h₂, h₃]
    exact h.2
  | reset =>
    obtain rfl := Option.some.inj hstep
    obtain ⟨h₁, h₂, h₃⟩ := reset_lines c
    constructor
    · intro hlines _
      rw [← h.2, ← h₂, hlines.2, h₃]
    · intro hquiet
      refine ⟨h₁, ?_⟩
      rw [h₂, h₃, h.2]
      exact hquiet rfl

/-! ## Runs -/

/-- After every run from the start whose resets find nothing pending on the
    second line, the lines are right; and from there the next operation gets
    them wrong exactly when it is a reset with something pending. -/
theorem lines_show_state {host : Host} {mac : Nat → Nat} {mem : Memory} {down : Bool}
    {ops : List Op} {c : Controller} (hrun : run host (power_on mac mem down) ops = some c)
    (hquiet : ∀ pre post d, ops = pre ++ .reset :: post →
      run host (power_on mac mem down) pre = some d → d.state.intrl1.pending = false) :
    Lines c.state ∧ ∀ op c', step host c op = some c' →
      (Lines c'.state ↔ (op = .reset → c.state.intrl1.pending = false)) := by
  have hidle : Intrl.pending ⟨0, 0⟩ = false := by decide
  have hstart : Lines (power_on mac mem down).state := ⟨hidle.symm, hidle.symm⟩
  have hlines : Lines c.state := by
    apply run_invariant (P := fun c => Lines c.state)
      (fun c op c' h hok hstep => (step_lines_iff h hstep).mpr hok) hstart hrun
    intro pre op post d hops hd hop
    subst hop
    exact hquiet pre post d hops hd
  exact ⟨hlines, fun op c' hstep => step_lines_iff hlines hstep⟩

/-- A network without checksums, and a MAC address for every card. -/
def plain_host : Host where
  net := .unsummed fun _ _ => true
  macaddr_default_if_unset := fun mac => mac

/-- A guest sets a bit of INTRL1, and the second line rises. -/
theorem intrl1_set_raises :
    ∃ c, run plain_host (power_on (fun _ => 0) (fun _ => 0) true)
        [.write { offset := INTRL1 + INTRL_SET, value := 1 }] = some c ∧
      c.state.irq_prio = true ∧ Lines c.state := by
  have hrun : run plain_host (power_on (fun _ => 0) (fun _ => 0) true)
      [.write { offset := INTRL1 + INTRL_SET, value := 1 }] = some
        (write plain_host (power_on (fun _ => 0) (fun _ => 0) true)
          { offset := INTRL1 + INTRL_SET, value := 1 }).1 := rfl
  refine ⟨_, hrun, by rfl, (lines_show_state hrun ?_).1⟩
  intro pre post d hops _
  have hmem : Op.reset ∈ [Op.write { offset := INTRL1 + INTRL_SET, value := 1 }] := by
    rw [hops]
    simp
  simp at hmem

/-- The machine is reset then: the bit is gone, but the line stays up. -/
theorem reset_leaves_line_up :
    ∃ c, run plain_host (power_on (fun _ => 0) (fun _ => 0) true)
        [.write { offset := INTRL1 + INTRL_SET, value := 1 }, .reset] = some c ∧
      c.state.intrl1.pending = false ∧ c.state.irq_prio = true ∧ ¬ Lines c.state := by
  refine ⟨_, rfl, by rfl, by rfl, ?_⟩
  intro h
  exact absurd h.2 (by decide)

end Genet
