import RpiQemu.Genet.Lines

/-! # Receive flow control

    `bcm2838_genet_receive` refuses a frame with 0 while the ring is full, and
    the net layer holds it and those after it until the device asks for them.
    So every step that makes reception possible has to ask.

    * **Agreement**: what refuses and what the net layer asks look at the same
      ring (`receive_refuses`).
    * **Steps**: only a register write takes `can_receive` to true, and it
      flushes the queue with its value stored, unless it is of the second byte
      of a CONS_INDEX alone (`step_opens`).
    * **Runs**: without such writes, between a state that cannot receive and
      one that can lies a flush that finds room (`flow_control`). -/

namespace Genet

open Register

/-! ## What decides -/

/-- What the registers of a ring say about its room. -/
def RdmaRing.room (r : RdmaRing) : (Nat × Nat) × (Nat × Nat) × (Nat × Nat) :=
  ((ex PROD_INDEX r.prod_index, ex CONS_INDEX r.cons_index), (r.start_addr, r.start_addr_hi),
    (r.end_addr, r.end_addr_hi))

theorem can_receive_congr {s s' : State}
    (hctrl : ex DMA_CTRL_EN s'.rdma.ctrl = ex DMA_CTRL_EN s.rdma.ctrl)
    (hroom : ∀ i, (s'.rdma.rings i).room = (s.rdma.rings i).room) :
    can_receive s' = can_receive s := by
  have hfields : ∀ i,
      (s'.rdma.rings i).start_addr = (s.rdma.rings i).start_addr ∧
      (s'.rdma.rings i).end_addr = (s.rdma.rings i).end_addr ∧
      (s'.rdma.rings i).start_index = (s.rdma.rings i).start_index ∧
      (s'.rdma.rings i).end_index = (s.rdma.rings i).end_index ∧
      (s'.rdma.rings i).used = (s.rdma.rings i).used := by
    intro i
    obtain ⟨hindex, haddr⟩ := Prod.mk.inj (hroom i)
    obtain ⟨hprod, hcons⟩ := Prod.mk.inj hindex
    obtain ⟨hstart, hend⟩ := Prod.mk.inj haddr
    obtain ⟨hs, hs'⟩ := Prod.mk.inj hstart
    obtain ⟨he, he'⟩ := Prod.mk.inj hend
    refine ⟨hs, he, ?_, ?_, ?_⟩
    · rw [RdmaRing.start_index, RdmaRing.start_index, hs, hs']
    · rw [RdmaRing.end_index, RdmaRing.end_index, he, he']
    · rw [RdmaRing.used, RdmaRing.used, hprod, hcons]
  have hring : default_rx_ring s' = default_rx_ring s := by
    unfold default_rx_ring
    rw [(hfields 0).1, (hfields 0).2.1]
  have hfree : ∀ i, rdma_free_descs s' i = rdma_free_descs s i := by
    intro i
    obtain ⟨-, -, hstart, hend, hused⟩ := hfields i
    unfold rdma_free_descs
    dsimp only
    rw [hstart, hend, hused]
  unfold can_receive
  rw [hctrl, hring, hfree]

theorem can_receive_of_rdma {s s' : State} (h : s'.rdma = s.rdma) :
    can_receive s' = can_receive s :=
  can_receive_congr (by rw [h]) (fun i => by rw [h])

theorem can_receive_disabled {s : State} (h : ex DMA_CTRL_EN s.rdma.ctrl = 0) :
    can_receive s = false := if_pos h

theorem enabled_of_can_receive {s : State} (h : can_receive s = true) :
    ex DMA_CTRL_EN s.rdma.ctrl ≠ 0 := by
  intro hen
  rw [can_receive_disabled hen] at h
  cases h

/-! ## Refusal -/

/-- `bcm2838_genet_receive` finds the ring that receives full. -/
def ring_full (s : State) : Bool :=
  ex DMA_CTRL_EN s.rdma.ctrl != 0 && rdma_ring_active s (default_rx_ring s) &&
    rdma_free_descs s (default_rx_ring s) == 0

theorem receive_refuses {net : Net} {s : State} {buf : List UInt8} (h : ring_full s = true) :
    receive net s buf = some (0, s) ∧ can_receive s = false := by
  simp only [ring_full, Bool.and_eq_true, bne_iff_ne, ne_eq, beq_iff_eq] at h
  obtain ⟨⟨hen, hactive⟩, hfree⟩ := h
  constructor
  · unfold receive
    rw [if_pos hen]
    dsimp only
    rw [hactive, hfree]
    rfl
  · unfold can_receive
    rw [if_neg hen, hfree]
    rfl

/-- A device that cannot receive gets no further with a frame. -/
theorem receive_closed {net : Net} {s s' : State} {buf : List UInt8} {ret : Int}
    (h : can_receive s = false) (hrecv : receive net s buf = some (ret, s')) :
    s'.rdma = s.rdma := by
  by_cases hen : ex DMA_CTRL_EN s.rdma.ctrl = 0
  · rw [receive, if_neg (not_not.mpr hen)] at hrecv
    obtain ⟨-, rfl⟩ := Prod.mk.inj (Option.some.inj hrecv)
    rfl
  · have hfree : rdma_free_descs s (default_rx_ring s) = 0 := by
      rw [can_receive, if_neg hen] at h
      have hnot := of_decide_eq_false h
      omega
    by_cases hactive : rdma_ring_active s (default_rx_ring s) = true
    · have hfull : ring_full s = true := by
        simp [ring_full, hen, hactive, hfree]
      rw [(receive_refuses hfull).1] at hrecv
      obtain ⟨-, rfl⟩ := Prod.mk.inj (Option.some.inj hrecv)
      rfl
    · -- an inactive ring takes nothing
      have hidle : rdma net s (default_rx_ring s) buf = some (-1, s) := if_neg hactive
      have hroom : ¬ (rdma_ring_active s (default_rx_ring s) &&
          rdma_free_descs s (default_rx_ring s) == 0) = true := by
        simp [hactive]
      rw [receive, if_pos hen] at hrecv
      dsimp only at hrecv
      rw [if_neg hroom, hidle] at hrecv
      split at hrecv
      · obtain ⟨-, rfl⟩ := Prod.mk.inj (Option.some.inj hrecv)
        rfl
      · obtain ⟨-, rfl⟩ := Prod.mk.inj (Option.some.inj hrecv)
        rfl

/-! ## Writes -/

/-- The word of a receive ring's PROD_INDEX, START_ADDR or END_ADDR. -/
def RdmaSetup (offset : Nat) : Prop :=
  RDMA_REGS + DMA_RINGS ≤ offset ∧ offset < RDMA_REGS + DMA_RING_CFG ∧
    (offset - (RDMA_REGS + DMA_RINGS)) % RING_SIZE ∈ [8, 20, 24, 28, 32]

instance (offset : Nat) : Decidable (RdmaSetup offset) :=
  inferInstanceAs (Decidable (_ ∧ _ ∧ _))

/-- The second byte of a receive ring's CONS_INDEX, on its own.  The rings'
    case of the `switch` looks for the register's first byte only. -/
def SplitsCons (offset : Nat) : Prop :=
  RDMA_REGS + DMA_RINGS ≤ offset ∧ offset < RDMA_REGS + DMA_RING_CFG ∧
    (offset - (RDMA_REGS + DMA_RINGS)) % RING_SIZE = RRING_CONS_INDEX + 1

instance (offset : Nat) : Decidable (SplitsCons offset) :=
  inferInstanceAs (Decidable (_ ∧ _ ∧ _))

/-- The guest changes a ring's setup while RDMA is disabled only. -/
def SetupStopped (host : Host) (c : Controller) (a : Access) : Prop :=
  RdmaSetup (word_offset a.offset) → ex DMA_CTRL_EN c.state.rdma.ctrl = 0 ∨
    (write host c a).1.state.rdma = c.state.rdma

theorem phy_update_link_rdma (c : Controller) :
    (phy_update_link c).state.rdma = c.state.rdma := by
  unfold phy_update_link
  dsimp only
  split_ifs <;> rfl

theorem reset_disables (c : Controller) : (reset c).state.rdma.ctrl = 0 := by
  unfold reset
  dsimp only
  rw [phy_update_link_rdma]
  rfl

theorem mdio_cmd_rdma (c : Controller) (cmd : Nat) :
    (mdio_cmd c cmd).1.state.rdma = c.state.rdma := by
  have hwrite : ∀ reg data, (mdio_write c reg data).state.rdma = c.state.rdma := by
    intro reg data
    unfold mdio_write
    split_ifs
    · rfl
    · rfl
    · rfl
    · exact phy_update_link_rdma c
    · rfl
  unfold mdio_cmd
  dsimp only
  split_ifs
  · rfl
  · rfl
  · exact hwrite _ _
  · rfl
  · rfl

theorem tdma_write_rdma (net : Net) (c : Controller) (offset value : Nat) :
    (tdma_write net c offset value).1.state.rdma = c.state.rdma := by
  have hdone : ∀ s r cons w, (tx_done s r cons w).rdma = s.rdma := by
    intro s r cons w
    unfold tx_done
    dsimp only
    split_ifs <;> rfl
  have hprod : ∀ s r, (tdma_prod_index net s r value).1.rdma = s.rdma := by
    intro s r
    unfold tdma_prod_index
    dsimp only
    split_ifs
    · exact hdone _ _ _ _
    · rfl
    · rfl
  unfold tdma_write
  by_cases hring : DMA_RINGS ≤ offset ∧ offset < DMA_RING_CFG
  · rw [if_pos hring]
    split_ifs
    · exact hprod _ _
    · rfl
  · rw [if_neg hring]
    by_cases hctrl : offset = DMA_CTRL
    · rw [if_pos hctrl]
    · rw [if_neg hctrl]

/-- What a write below the DMA engines does before it stores keeps the receive
    engine, or resets it. -/
theorem write_switch_low_rdma (host : Host) (c : Controller) {offset : Nat}
    (h : offset < RDMA_REGS) (value : Nat) :
    (write_switch host c offset value).device.state.rdma = c.state.rdma ∨
      (write_switch host c offset value).device.state.rdma.ctrl = 0 := by
  have htdma : ¬ (TDMA_REGS ≤ offset ∧ offset < TDMA_REGS + 0x2000) := by
    rw [RDMA_REGS] at h
    rw [TDMA_REGS]
    omega
  unfold write_switch
  rw [if_neg htdma]
  split_ifs
  · exact .inl rfl
  · exact .inl rfl
  · exact .inr (reset_disables c)
  · exact .inl rfl
  · exact .inl rfl
  · exact .inl rfl
  · exact .inl (mdio_cmd_rdma c value)
  · exact .inl rfl
  · exact .inl rfl
  · exact .inl rfl

/-- What the `switch` does in the transmit engine, for any property of it. -/
theorem write_switch_tdma {P : Switched → Prop} (host : Host) (c : Controller)
    {offset : Nat} (hin : TDMA_REGS ≤ offset ∧ offset < TDMA_REGS + 0x2000) (value : Nat)
    (h : ∀ r, r = tdma_write host.net c (offset - TDMA_REGS) value →
      P ⟨r.1, value, r.2, false⟩) : P (write_switch host c offset value) := by
  have hrdma : RDMA_REGS ≤ offset := by
    rw [TDMA_REGS] at hin
    rw [RDMA_REGS]
    omega
  rw [write_switch_dma _ _ hrdma, if_pos hin]
  exact h _ rfl

theorem write_switch_tdma_rdma (host : Host) (c : Controller) {offset : Nat}
    (h : TDMA_REGS ≤ offset) (value : Nat) :
    (write_switch host c offset value).device.state.rdma = c.state.rdma := by
  by_cases hin : TDMA_REGS ≤ offset ∧ offset < TDMA_REGS + 0x2000
  · apply write_switch_tdma (P := fun w => w.device.state.rdma = c.state.rdma) host c hin
    intro r hr
    dsimp only
    rw [hr, tdma_write_rdma]
  · have hrdma : RDMA_REGS ≤ offset := by
      rw [TDMA_REGS] at h
      rw [RDMA_REGS]
      omega
    rw [write_switch_dma _ _ hrdma, if_neg hin]
    split_ifs <;> rfl

theorem store_other_rdma (s : State) {offset : Nat}
    (h : offset < RDMA_REGS ∨ TDMA_REGS ≤ offset) (value : Nat) :
    (s.store offset value).rdma = s.rdma := by
  unfold State.store
  by_cases hlow : offset < RBUF_CTRL
  · rw [if_pos hlow]
    split_ifs <;> rfl
  · rw [if_neg hlow]
    by_cases hmid : offset < RDMA_REGS
    · rw [if_pos hmid]
      split_ifs <;> rfl
    · have hhigh : ¬ offset < TDMA_REGS := by omega
      rw [if_neg hmid, if_neg hhigh]

/-- The other registers of a ring say nothing about its room. -/
theorem set_room (r : RdmaRing) {offset : Nat} (hcons : offset ≠ RRING_CONS_INDEX)
    (hsetup : offset ∉ [8, 20, 24, 28, 32]) (value : Nat) :
    (r.set offset value).room = r.room := by
  rw [RRING_CONS_INDEX] at hcons
  simp only [List.mem_cons, List.not_mem_nil, or_false, not_or] at hsetup
  obtain ⟨h₁, h₂, h₃, h₄, h₅⟩ := hsetup
  unfold RdmaRing.set
  split
  all_goals first
    | rfl
    | contradiction

/-- A write into the receive engine, other than to RDMA_CTRL and to the
    registers that say how much room there is. -/
theorem store_room (d : Dma RdmaRing) {o : Nat} (hctrl : o ≠ DMA_CTRL)
    (hring : DMA_RINGS ≤ o → o < DMA_RING_CFG →
      (o - DMA_RINGS) % RING_SIZE ≠ RRING_CONS_INDEX ∧
        (o - DMA_RINGS) % RING_SIZE ∉ [8, 20, 24, 28, 32]) (value : Nat) :
    (d.store RdmaRing.set o value).ctrl = d.ctrl ∧
      ∀ i, ((d.store RdmaRing.set o value).rings i).room = (d.rings i).room := by
  unfold Dma.store
  by_cases h₁ : o < DMA_RINGS
  · rw [if_pos h₁]
    exact ⟨rfl, fun _ => rfl⟩
  · rw [if_neg h₁]
    by_cases h₂ : o < DMA_RING_CFG
    · obtain ⟨hcons, hsetup⟩ := hring (by omega) h₂
      rw [if_pos h₂]
      refine ⟨rfl, ?_⟩
      intro i
      dsimp only
      by_cases hi : i = (o - DMA_RINGS) / RING_SIZE
      · subst hi
        rw [update_self]
        exact set_room _ hcons hsetup value
      · rw [update_of_ne _ _ hi]
    · rw [if_neg h₂, if_neg hctrl]
      split_ifs
      · exact ⟨rfl, fun _ => rfl⟩
      · exact ⟨rfl, fun _ => rfl⟩

/-- A stored setup register leaves RDMA_CTRL as it was. -/
theorem store_ctrl (d : Dma RdmaRing) {o : Nat} (hctrl : o ≠ DMA_CTRL) (value : Nat) :
    (d.store RdmaRing.set o value).ctrl = d.ctrl := by
  unfold Dma.store
  split_ifs <;> rfl

/-- A write past the first byte of RDMA_CTRL leaves EN, and one past the first
    two of a CONS_INDEX leaves the index. -/
theorem ex_above {f : Field} {a : Access} (h : f.shift + f.length ≤ 8 * (a.offset % 4))
    (hf : f.shift + f.length ≤ 32) (old value : Nat) :
    ex f (dp (word_bits a.offset a.width) (old % 2 ^ 32) value) = ex f old := by
  rw [ex_dp_of_disjoint (.inr h), ex_mod_two_pow hf]

/-- The word of an offset in the receive engine. -/
theorem word_rdma {offset o : Nat} (h : offset = RDMA_REGS + o) :
    word_offset offset = RDMA_REGS + word_offset o := by
  rw [h, word_offset, word_offset, RDMA_REGS]
  omega

theorem lt_tdma {offset o : Nat} (h : offset = RDMA_REGS + o) (hlt : o < 0x2000) :
    offset < TDMA_REGS := by
  rw [h, RDMA_REGS, TDMA_REGS]
  omega

/-- What the `switch` does in the receive engine. -/
theorem write_switch_rdma (host : Host) (c : Controller) {offset : Nat} (hlo : RDMA_REGS ≤ offset)
    (hhi : offset < TDMA_REGS) (value : Nat) :
    (write_switch host c offset value).device.state = c.state ∧
      (write_switch host c offset value).value = value := by
  have htdma : ¬ (TDMA_REGS ≤ offset ∧ offset < TDMA_REGS + 0x2000) := by omega
  rw [write_switch_dma _ _ hlo, if_neg htdma]
  split_ifs <;> exact ⟨rfl, rfl⟩

/-- A write into the receive engine stores its bytes in a word of it. -/
theorem write_rdma {host : Host} {c : Controller} {a : Access} {o : Nat}
    (ho : a.offset = RDMA_REGS + o) (hlt : o < 0x2000) :
    (write host c a).1.state.rdma =
      c.state.rdma.store RdmaRing.set (word_offset o)
        (dp (word_bits a.offset a.width)
          ((write_switch host c a.offset a.value).device.load (word_offset a.offset) % 2 ^ 32)
          a.value) := by
  have hhi := lt_tdma ho hlt
  have hfits : a.offset + a.width.bytes ≤ REGS_SIZE := by
    have hle : a.width.bytes ≤ 4 := by cases a.width <;> decide
    rw [TDMA_REGS] at hhi
    rw [REGS_SIZE]
    omega
  have hoff : word_offset o < 0x2000 := by
    unfold word_offset
    omega
  obtain ⟨hstate, hvalue⟩ := write_switch_rdma host c (by omega) hhi a.value
  rw [write, if_pos hfits]
  show (State.store (write_switch host c a.offset a.value).device.state (word_offset a.offset)
    (dp _ _ (write_switch host c a.offset a.value).value)).rdma = _
  rw [hstate, hvalue, word_rdma ho, State.store_rdma _ hoff]

/-- What the device finds at a receive ring's CONS_INDEX. -/
theorem load_cons_index (host : Host) (c : Controller) {a : Access} {o : Nat}
    (ho : a.offset = RDMA_REGS + o) (hlo : DMA_RINGS ≤ word_offset o)
    (hhi : word_offset o < DMA_RING_CFG)
    (hcons : (word_offset o - DMA_RINGS) % RING_SIZE = RRING_CONS_INDEX) :
    (write_switch host c a.offset a.value).device.load (word_offset a.offset) =
      (c.state.rdma.rings ((word_offset o - DMA_RINGS) / RING_SIZE)).cons_index := by
  have hlt : a.offset < TDMA_REGS := by
    apply lt_tdma ho
    rw [DMA_RING_CFG, word_offset] at hhi
    omega
  have h₁ : ¬ RDMA_REGS + word_offset o < RBUF_CTRL := by
    rw [RDMA_REGS, RBUF_CTRL]
    omega
  have h₂ : ¬ RDMA_REGS + word_offset o < RDMA_REGS := by omega
  have h₃ : RDMA_REGS + word_offset o < TDMA_REGS := by
    rw [DMA_RING_CFG] at hhi
    rw [RDMA_REGS, TDMA_REGS]
    omega
  rw [Controller.load, (write_switch_rdma host c (by omega) hlt a.value).1, word_rdma ho,
    State.load, if_neg h₁, if_neg h₂, if_pos h₃, Nat.add_sub_cancel_left, Dma.load,
    if_neg (by omega), if_pos hhi, hcons]
  rfl

/-- What the device finds at RDMA_CTRL. -/
theorem load_ctrl (host : Host) (c : Controller) {a : Access} {o : Nat}
    (ho : a.offset = RDMA_REGS + o) (hctrl : word_offset o = DMA_CTRL) :
    (write_switch host c a.offset a.value).device.load (word_offset a.offset) =
      c.state.rdma.ctrl := by
  have hlt : a.offset < TDMA_REGS := by
    apply lt_tdma ho
    rw [DMA_CTRL, word_offset] at hctrl
    omega
  rw [Controller.load, (write_switch_rdma host c (by omega) hlt a.value).1, word_rdma ho, hctrl]
  rfl

/-- A write into the receive engine that leaves the room of every ring: not one
    of the first byte of RDMA_CTRL, of the first two of a CONS_INDEX, or of a
    ring's setup. -/
theorem write_rdma_room {host : Host} {c : Controller} {a : Access} {o : Nat}
    (ho : a.offset = RDMA_REGS + o) (hlt : o < 0x2000) (hctrl : a.offset ≠ RDMA_REGS + DMA_CTRL)
    (hsetup : ¬ RdmaSetup (word_offset a.offset)) (hsplit : ¬ SplitsCons a.offset)
    (hcons : RDMA_REGS + DMA_RINGS ≤ a.offset → a.offset < RDMA_REGS + DMA_RING_CFG →
      (a.offset - (RDMA_REGS + DMA_RINGS)) % RING_SIZE ≠ RRING_CONS_INDEX) :
    ex DMA_CTRL_EN (write host c a).1.state.rdma.ctrl = ex DMA_CTRL_EN c.state.rdma.ctrl ∧
      ∀ i, ((write host c a).1.state.rdma.rings i).room = (c.state.rdma.rings i).room := by
  rw [write_rdma ho hlt]
  have hword := word_rdma ho
  have hwords : DMA_RINGS % 4 = 0 ∧ RING_SIZE % 4 = 0 ∧ DMA_RING_CFG % 4 = 0 := by decide
  by_cases hwctrl : word_offset o = DMA_CTRL
  · -- past the first byte of RDMA_CTRL
    have hbyte : 1 ≤ a.offset % 4 := by
      unfold word_offset at hwctrl
      rw [ho, RDMA_REGS, DMA_CTRL] at *
      omega
    rw [load_ctrl host c ho hwctrl, hwctrl]
    refine ⟨?_, fun _ => rfl⟩
    exact ex_above (by simp only [DMA_CTRL_EN]; omega) (by decide) _ _
  by_cases hring : DMA_RINGS ≤ word_offset o ∧ word_offset o < DMA_RING_CFG
  · by_cases hwcons : (word_offset o - DMA_RINGS) % RING_SIZE = RRING_CONS_INDEX
    · -- past the first two bytes of a CONS_INDEX
      have hbyte : 2 ≤ a.offset % 4 := by
        unfold SplitsCons at hsplit
        unfold word_offset at hring hwcons
        rw [ho, RDMA_REGS, DMA_RINGS, DMA_RING_CFG, RRING_CONS_INDEX, RING_SIZE] at *
        omega
      rw [load_cons_index host c ho hring.1 hring.2 hwcons, Dma.store, if_neg (by omega),
        if_pos hring.2, hwcons]
      refine ⟨rfl, ?_⟩
      intro i
      by_cases hi : i = (word_offset o - DMA_RINGS) / RING_SIZE
      · subst hi
        simp only [update_self, RdmaRing.set, RdmaRing.room, RRING_CONS_INDEX]
        rw [ex_above (by simp only [CONS_INDEX]; omega) (by decide)]
      · simp only [update_of_ne _ _ hi]
    · obtain ⟨hsame, hroom⟩ := store_room c.state.rdma hwctrl (fun hlo hhi => ⟨hwcons, fun hmem =>
        hsetup ⟨by omega, by omega, by
          rwa [hword, Nat.add_sub_add_left]⟩⟩)
        (dp (word_bits a.offset a.width)
          ((write_switch host c a.offset a.value).device.load (word_offset a.offset) % 2 ^ 32)
          a.value)
      exact ⟨congrArg _ hsame, hroom⟩
  · obtain ⟨hsame, hroom⟩ := store_room c.state.rdma hwctrl
      (fun hlo hhi => absurd ⟨hlo, hhi⟩ hring)
      (dp (word_bits a.offset a.width)
        ((write_switch host c a.offset a.value).device.load (word_offset a.offset) % 2 ^ 32)
        a.value)
    exact ⟨congrArg _ hsame, hroom⟩

/-- A write outside the receive engine leaves it, or resets it. -/
theorem write_outside_rdma {host : Host} {c : Controller} {a : Access}
    (h : a.offset < RDMA_REGS ∨ TDMA_REGS ≤ a.offset) :
    (write host c a).1.state.rdma = c.state.rdma ∨ (write host c a).1.state.rdma.ctrl = 0 := by
  by_cases hsize : a.offset + a.width.bytes ≤ REGS_SIZE
  · have hword : word_offset a.offset < RDMA_REGS ∨ TDMA_REGS ≤ word_offset a.offset := by
      rw [TDMA_REGS] at h ⊢
      unfold word_offset
      omega
    have hrdma : (write host c a).1.state.rdma =
        (write_switch host c a.offset a.value).device.state.rdma := by
      rw [write, if_pos hsize]
      exact store_other_rdma _ hword _
    rw [hrdma]
    rcases h with hlow | hhigh
    · exact write_switch_low_rdma host c hlow a.value
    · exact .inl (write_switch_tdma_rdma host c hhigh a.value)
  · rw [write, if_neg hsize]
    exact .inl rfl

/-- A write of RDMA_CTRL's first byte stores the EN that the `switch` looks at. -/
theorem write_ctrl_en {host : Host} {c : Controller} {a : Access}
    (hctrl : a.offset = RDMA_REGS + DMA_CTRL) :
    ex DMA_CTRL_EN (write host c a).1.state.rdma.ctrl = ex DMA_CTRL_EN a.value := by
  rw [write_rdma hctrl (by decide)]
  generalize (write_switch host c a.offset a.value).device.load (word_offset a.offset) = old
  have hbits : DMA_CTRL_EN.shift + DMA_CTRL_EN.length ≤
      (word_bits a.offset a.width).shift + (word_bits a.offset a.width).length := by
    have hpos : 1 ≤ a.width.bytes := by cases a.width <;> decide
    simp only [word_bits, DMA_CTRL_EN]
    omega
  have hstored : ∀ v, (c.state.rdma.store RdmaRing.set (word_offset DMA_CTRL) v).ctrl = v :=
    fun _ => rfl
  have hshift : (word_bits a.offset a.width).shift = 0 := by
    rw [word_bits, hctrl]
    rfl
  rw [hstored, ex_dp_of_inside (by rw [hshift]; exact Nat.zero_le _) hbits, hshift]
  rfl

/-- A write to a ring's setup leaves RDMA_CTRL. -/
theorem write_setup_ctrl {host : Host} {c : Controller} {a : Access} {o : Nat}
    (ho : a.offset = RDMA_REGS + o) (hlt : o < 0x2000)
    (hset : RdmaSetup (word_offset a.offset)) :
    (write host c a).1.state.rdma.ctrl = c.state.rdma.ctrl := by
  have hne : word_offset o ≠ DMA_CTRL := by
    obtain ⟨-, hhi, -⟩ := hset
    have hring : DMA_RING_CFG < DMA_CTRL := by decide
    have hword := word_rdma ho
    omega
  rw [write_rdma ho hlt, store_ctrl _ hne]

/-- What the `switch` finds at the addresses that ask for the queue. -/
theorem write_switch_flushes {host : Host} {c : Controller} {a : Access}
    (hlo : RDMA_REGS ≤ a.offset) (hhi : a.offset < TDMA_REGS) :
    (a.offset = RDMA_REGS + DMA_CTRL → ex DMA_CTRL_EN a.value ≠ 0 →
      (write_switch host c a.offset a.value).rx_flush = true) ∧
    (RDMA_REGS + DMA_RINGS ≤ a.offset ∧ a.offset < RDMA_REGS + DMA_RING_CFG ∧
        (a.offset - (RDMA_REGS + DMA_RINGS)) % RING_SIZE = RRING_CONS_INDEX →
      (write_switch host c a.offset a.value).rx_flush = true) := by
  have htdma : ¬ (TDMA_REGS ≤ a.offset ∧ a.offset < TDMA_REGS + 0x2000) := by omega
  have hswitch := write_switch_dma host c hlo a.value
  rw [if_neg htdma] at hswitch
  constructor
  · intro hctrl hen
    rw [if_pos hctrl] at hswitch
    rw [hswitch]
    exact decide_eq_true hen
  · rintro ⟨hring, hcfg, hcons⟩
    have hctrl : a.offset ≠ RDMA_REGS + DMA_CTRL := by
      have hlast : DMA_RING_CFG < DMA_CTRL := by decide
      omega
    rw [if_neg hctrl, if_pos ⟨hring, hcfg⟩] at hswitch
    rw [hswitch]
    simp only [hcons, decide_true]

/-- **A write that makes reception possible flushes the queue, with its value
    stored**, unless it is of the second byte of a CONS_INDEX alone. -/
theorem write_opens {host : Host} {c : Controller} {a : Access} (hsetup : SetupStopped host c a)
    (hsplit : ¬ SplitsCons a.offset) (hno : can_receive c.state = false)
    (hyes : can_receive (write host c a).1.state = true) : (write host c a).2.2 = true := by
  have hen := enabled_of_can_receive hyes
  -- a write that leaves the receive engine as it is does not open it
  have hsame : (write host c a).1.state.rdma ≠ c.state.rdma := by
    intro heq
    rw [can_receive_of_rdma heq, hno] at hyes
    cases hyes
  have hflush : (write_switch host c a.offset a.value).rx_flush = true →
      (write host c a).2.2 = true := by
    intro hrx
    have hsize : a.offset + a.width.bytes ≤ REGS_SIZE := by
      by_contra hsize
      rw [write, if_neg hsize] at hsame
      exact hsame rfl
    rw [write, if_pos hsize] at hyes ⊢
    simp only [hrx, Bool.true_and]
    exact hyes
  by_cases hout : a.offset < RDMA_REGS ∨ TDMA_REGS ≤ a.offset
  · rcases @write_outside_rdma host c a hout with heq | hzero
    · exact absurd heq hsame
    · rw [hzero] at hen
      exact absurd rfl hen
  rw [not_or, Nat.not_lt, Nat.not_le] at hout
  obtain ⟨hlo, hhi⟩ := hout
  obtain ⟨o, ho⟩ : ∃ o, a.offset = RDMA_REGS + o := ⟨a.offset - RDMA_REGS, by omega⟩
  have hlt : o < 0x2000 := by
    rw [ho, RDMA_REGS, TDMA_REGS] at hhi
    omega
  obtain ⟨hctrl_flushes, hcons_flushes⟩ := @write_switch_flushes host c a hlo hhi
  by_cases hctrl : a.offset = RDMA_REGS + DMA_CTRL
  · rw [write_ctrl_en hctrl] at hen
    exact hflush (hctrl_flushes hctrl hen)
  by_cases hcons : RDMA_REGS + DMA_RINGS ≤ a.offset ∧ a.offset < RDMA_REGS + DMA_RING_CFG ∧
      (a.offset - (RDMA_REGS + DMA_RINGS)) % RING_SIZE = RRING_CONS_INDEX
  · exact hflush (hcons_flushes hcons)
  by_cases hset : RdmaSetup (word_offset a.offset)
  · -- the guest keeps these for when the engine is off
    rcases hsetup hset with hoff | heq
    · rw [write_setup_ctrl ho hlt hset] at hen
      exact absurd hoff hen
    · exact absurd heq hsame
  · obtain ⟨hkept, hroom⟩ := @write_rdma_room host c a o ho hlt hctrl hset hsplit
      fun hring hcfg heq => hcons ⟨hring, hcfg, heq⟩
    rw [can_receive_congr hkept hroom, hno] at hyes
    cases hyes

/-! ## Runs -/

/-- Only a write that flushes takes the device from where it cannot receive to
    where it can. -/
theorem step_opens {host : Host} {c c' : Controller} {op : Op} (hstep : step host c op = some c')
    (hsetup : ∀ a, op = .write a → SetupStopped host c a)
    (hwhole : ∀ a, op = .write a → ¬ SplitsCons a.offset) (hno : can_receive c.state = false)
    (hyes : can_receive c'.state = true) : ∃ a, op = .write a ∧ (write host c a).2.2 = true := by
  have hsame : c'.state.rdma ≠ c.state.rdma := by
    intro h
    rw [can_receive_of_rdma h, hno] at hyes
    cases hyes
  cases op with
  | write a =>
    obtain rfl := Option.some.inj hstep
    exact ⟨a, rfl, write_opens (hsetup a rfl) (hwhole a rfl) hno hyes⟩
  | memory mem =>
    obtain rfl := Option.some.inj hstep
    exact absurd rfl hsame
  | receive buf =>
    obtain ⟨r, hr, rfl⟩ := Option.map_eq_some_iff.mp hstep
    exact absurd (receive_closed hno hr) hsame
  | set_link down =>
    obtain rfl := Option.some.inj hstep
    exact absurd (phy_update_link_rdma _) hsame
  | reset =>
    obtain rfl := Option.some.inj hstep
    refine absurd ?_ (enabled_of_can_receive hyes)
    rw [reset_disables]
    rfl

/-- A run whose guest changes a ring's setup while RDMA is disabled only. -/
def Disciplined (host : Host) (c : Controller) (ops : List Op) : Prop :=
  ∀ pre a post d, ops = pre ++ .write a :: post → run host c pre = some d → SetupStopped host d a

/-- A run whose guest writes no CONS_INDEX's second byte alone. -/
def WholeCons (ops : List Op) : Prop := ∀ a, .write a ∈ ops → ¬ SplitsCons a.offset

/-- Between a state that cannot receive and one that can lies a write that
    flushed, when there was room. -/
theorem run_opens {host : Host} {c c' : Controller} {ops : List Op}
    (hsetup : Disciplined host c ops) (hwhole : WholeCons ops) (hrun : run host c ops = some c')
    (hno : can_receive c.state = false) (hyes : can_receive c'.state = true) :
    ∃ pre a post d, ops = pre ++ .write a :: post ∧ run host c pre = some d ∧
      (write host d a).2.2 = true ∧ can_receive (write host d a).1.state = true := by
  induction ops generalizing c with
  | nil =>
    obtain rfl := Option.some.inj hrun
    rw [hno] at hyes
    cases hyes
  | cons op ops ih =>
    obtain ⟨d, hd, hrest⟩ := run_cons.mp hrun
    by_cases hopen : can_receive d.state = true
    · obtain ⟨a, rfl, hflush⟩ := step_opens hd
        (fun a ha => hsetup [] a ops c (by rw [ha]; rfl) rfl)
        (fun a ha => hwhole a (by rw [ha]; exact List.mem_cons_self)) hno hopen
      obtain rfl := Option.some.inj hd
      exact ⟨[], a, ops, c, rfl, rfl, hflush, hopen⟩
    · have hlater : Disciplined host d ops := by
        intro pre a post e hops he
        apply hsetup (op :: pre) a post e
        · rw [hops, List.cons_append]
        · exact run_cons.mpr ⟨d, hd, he⟩
      obtain ⟨pre, a, post, e, hops, he, hflush, hcan⟩ :=
        ih hlater (fun a ha => hwhole a (List.mem_cons_of_mem _ ha)) hrest (by simpa using hopen)
      refine ⟨op :: pre, a, post, e, ?_, run_cons.mpr ⟨d, hd, he⟩, hflush, hcan⟩
      rw [hops, List.cons_append]

theorem Disciplined.cons {host : Host} {c : Controller} {op : Op} {ops : List Op}
    (hop : ∀ a, op = .write a → SetupStopped host c a)
    (hrest : ∀ d, step host c op = some d → Disciplined host d ops) :
    Disciplined host c (op :: ops) := by
  intro pre a post d hops hd
  cases pre with
  | nil =>
    obtain rfl := Option.some.inj hd
    exact hop a (List.cons.inj hops).1
  | cons x pre =>
    obtain ⟨rfl, htail⟩ := List.cons.inj hops
    obtain ⟨e, he, hd⟩ := run_cons.mp hd
    exact hrest e he pre a post d htail hd

theorem Disciplined.middle {host : Host} {c d : Controller} {pre mid post : List Op}
    (h : Disciplined host c (pre ++ mid ++ post)) (hpre : run host c pre = some d) :
    Disciplined host d mid := by
  intro front a rest e hmid he
  apply h (pre ++ front) a (rest ++ post) e
  · rw [hmid]
    simp
  · exact run_append.mpr ⟨d, hpre, he⟩

/-- **Along a run whose guest sets rings up while RDMA is disabled, and writes
    no second byte of a CONS_INDEX alone: a write that makes reception possible
    flushes the queue; a frame that is refused with 0 finds the device unable
    to receive; and from there the device is not able to again before a flush
    that finds room.** -/
theorem flow_control {host : Host} {c : Controller} {ops : List Op}
    (hsetup : Disciplined host c ops) (hwhole : WholeCons ops) :
    (∀ pre a post d, ops = pre ++ .write a :: post → run host c pre = some d →
      can_receive d.state = false → can_receive (write host d a).1.state = true →
      (write host d a).2.2 = true) ∧
    (∀ pre buf post d, ops = pre ++ .receive buf :: post → run host c pre = some d →
      ring_full d.state = true →
      receive host.net d.state buf = some (0, d.state) ∧ can_receive d.state = false) ∧
    ∀ pre mid post d e, ops = pre ++ mid ++ post → run host c pre = some d →
      run host d mid = some e → can_receive d.state = false → can_receive e.state = true →
      ∃ front a rest f, mid = front ++ .write a :: rest ∧ run host d front = some f ∧
        (write host f a).2.2 = true ∧ can_receive (write host f a).1.state = true := by
  refine ⟨?_, ?_, ?_⟩
  · intro pre a post d hops hd hno hyes
    have hmem : Op.write a ∈ ops := by
      rw [hops]
      exact List.mem_append_right _ List.mem_cons_self
    exact write_opens (hsetup pre a post d hops hd) (hwhole a hmem) hno hyes
  · intro pre buf post d _ _ hfull
    exact receive_refuses hfull
  · rintro pre mid post d e rfl hd he hno hyes
    exact run_opens (hsetup.middle hd)
      (fun a ha => hwhole a (List.mem_append_left _ (List.mem_append_right _ ha))) he hno hyes

/-- A device whose ring of two descriptors is full. -/
def full_device : Controller :=
  let c := power_on (fun _ => 0) (fun _ => 0) false
  { c with
    state :=
      { c.state with
        rdma :=
          { descs := fun j => ⟨0, 4096 * (j + 1), 0⟩
            rings := fun _ => ⟨0, 0, 1, 0xFFFF, 2048, 0, 0, 5, 0⟩
            ring_cfg := 1
            ctrl := 3 } } }

/-- The driver gives both descriptors back after a frame was refused. -/
def give_back : List Op := [.receive [1, 2, 3], .write (rring_cons_index 0 1 one_word)]

theorem give_back_write {a : Access} (h : Op.write a ∈ give_back) :
    a = rring_cons_index 0 1 one_word := by
  simpa only [give_back, List.mem_cons, List.not_mem_nil, or_false, reduceCtorEq, false_or,
    Op.write.injEq] using h

theorem give_back_disciplined : Disciplined plain_host full_device give_back := by
  rintro pre a post d hops - hset
  obtain rfl := give_back_write (show Op.write a ∈ give_back by rw [hops]; simp)
  exact absurd hset (by decide)

theorem give_back_whole : WholeCons give_back := by
  intro a ha
  obtain rfl := give_back_write ha
  decide

/-- The frame is asked for again. -/
theorem give_back_flushes :
    receive plain_host.net full_device.state [1, 2, 3] = some (0, full_device.state) ∧
      ∃ front a rest f, give_back = front ++ .write a :: rest ∧
        run plain_host full_device front = some f ∧ (write plain_host f a).2.2 = true := by
  obtain ⟨-, hrefuse, hreopen⟩ := flow_control give_back_disciplined give_back_whole
  obtain ⟨hzero, hno⟩ := hrefuse [] [1, 2, 3] _ full_device rfl rfl (by decide +kernel)
  refine ⟨hzero, ?_⟩
  have hrun : (run plain_host full_device give_back).isSome = true := by decide +kernel
  obtain ⟨e, he⟩ := Option.isSome_iff_exists.mp hrun
  have hyes : (run plain_host full_device give_back).all (fun c => can_receive c.state) = true := by
    decide +kernel
  rw [he] at hyes
  obtain ⟨front, a, rest, f, hops, hf, hflush, -⟩ :=
    hreopen [] give_back [] full_device e (by simp) rfl he hno hyes
  exact ⟨front, a, rest, f, hops, hf, hflush⟩

/-- A driver sets up ring 0 with 256 descriptors, all of them used, enables it,
    and a frame is refused. -/
def refused_ops : List Op :=
  [.write (.of_word (RDMA_REGS + DMA_RINGS + 28) 767),
    .write (.of_word (RDMA_REGS + DMA_RINGS + 8) 0x100),
    .write (.of_word (RDMA_REGS + DMA_RING_CFG) 1),
    .write (.of_word (RDMA_REGS + DMA_CTRL) 3),
    .receive [1, 2, 3]]

/-- The driver gives them back by the second byte of CONS_INDEX. -/
def give_back_byte : Access where
  offset := RDMA_REGS + DMA_RINGS + 13
  value := 1
  width := .byte

theorem refused_disciplined :
    Disciplined plain_host (power_on (fun _ => 0) (fun _ => 0) false)
      (refused_ops ++ [.write give_back_byte]) := by
  have hother : ∀ (c : Controller) (a : Access), ¬ RdmaSetup (word_offset a.offset) →
      SetupStopped plain_host c a := fun _ _ h hset => absurd hset h
  refine .cons (fun a ha _ => .inl rfl) fun d hd => ?_
  obtain rfl := Option.some.inj hd
  refine .cons (fun a ha _ => .inl (by decide +kernel)) fun d hd => ?_
  obtain rfl := Option.some.inj hd
  refine .cons (fun a ha => hother _ a ?_) fun d _ => .cons (fun a ha => hother _ a ?_) fun d _ =>
    .cons (fun a ha => ?_) fun d _ => .cons (fun a ha => hother _ a ?_) fun d _ => ?_
  · obtain rfl := Op.write.inj ha
    decide
  · obtain rfl := Op.write.inj ha
    decide
  · cases ha
  · obtain rfl := Op.write.inj ha
    decide
  · intro pre a post e hops
    simp at hops

/-- The descriptors are free then, but the queue is not flushed. -/
theorem split_cons_not_flushed :
    ¬ ∀ (host : Host) (mac : Nat → Nat) (mem : Memory) (down : Bool) (ops : List Op),
      Disciplined host (power_on mac mem down) ops →
        ∀ pre a post d, ops = pre ++ .write a :: post →
          run host (power_on mac mem down) pre = some d → can_receive d.state = false →
          can_receive (write host d a).1.state = true → (write host d a).2.2 = true := by
  intro h
  have hrun : (run plain_host (power_on (fun _ => 0) (fun _ => 0) false) refused_ops).isSome =
      true := by
    decide +kernel
  obtain ⟨d, hd⟩ := Option.isSome_iff_exists.mp hrun
  have hseen : ((run plain_host (power_on (fun _ => 0) (fun _ => 0) false) refused_ops).map
      fun d => (can_receive d.state, can_receive (write plain_host d give_back_byte).1.state,
        (write plain_host d give_back_byte).2.2)) = some (false, true, false) := by
    decide +kernel
  rw [hd, Option.map_some] at hseen
  obtain ⟨hno, hseen⟩ := Prod.mk.inj (Option.some.inj hseen)
  obtain ⟨hyes, hflush⟩ := Prod.mk.inj hseen
  have hlost := h plain_host _ _ false _ refused_disciplined refused_ops give_back_byte [] d rfl hd
    hno hyes
  rw [hflush] at hlost
  cases hlost

end Genet
