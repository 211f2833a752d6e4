import RpiQemu.Dwc2.Accounting
import RpiQemu.Dwc2.Gadget

/-! # Idle endpoints

    An endpoint is idle when it has nothing to do for the host: nothing is armed,
    it NAKs, or its transfer has no packet left.

    * `call_eases`: moving packets arms nothing.
    * `call_idles`: after a call that does not end the host's transfer the endpoint
      is idle, and a call on an idle endpoint moves nothing (`idle_call`).
    * `turns_done`: when a call ends the host's transfer, told from the registers. -/

namespace Dwc2

open Register

variable {s s' t : DWC2State} {n mps size xfer pkt moved : Nat} {in_ : Bool}
  {packets : List (List UInt8)} {m : Moved} {data : List UInt8}

/-- The endpoint has nothing to do for the host. -/
def ep_idle (s : DWC2State) (n : Nat) (in_ : Bool) : Prop :=
  ep_blocked s n in_ = true ∨ (dwc2_tsiz_get s n in_).2 = 0

instance : Decidable (ep_idle s n in_) := inferInstanceAs (Decidable (_ ∨ _))

/-- Not enabled. -/
theorem blocked_of_disabled (h : on DXEPCTL_EPENA (dwc2_ep s n in_).ctl = false) :
    ep_blocked s n in_ = true := by
  unfold ep_blocked
  cases in_ with
  | true => simp [in_blocked, h]
  | false => simp [out_blocked, h]

/-- NAKing. -/
theorem blocked_of_nak (h : on DXEPCTL_NAKSTS (dwc2_ep s n in_).ctl = true) :
    ep_blocked s n in_ = true := by
  unfold ep_blocked
  cases in_ with
  | true => simp [in_blocked, h]
  | false => simp [out_blocked, h]

/-- The registers that `ep_blocked` looks at. -/
theorem ep_blocked_congr (h : (dwc2_ep t n in_).ctl = (dwc2_ep s n in_).ctl)
    (hdctl : t.dctl = s.dctl) : ep_blocked t n in_ = ep_blocked s n in_ := by
  unfold ep_blocked
  cases in_ with
  | true => simp only [in_blocked, ep_periodic, h, hdctl, if_true]
  | false => simp only [out_blocked, h, hdctl, Bool.false_eq_true, if_false]

theorem ep_idle_congr (h : (dwc2_ep t n in_).ctl = (dwc2_ep s n in_).ctl)
    (htsiz : (dwc2_ep t n in_).tsiz = (dwc2_ep s n in_).tsiz) (hdctl : t.dctl = s.dctl) :
    ep_idle t n in_ ↔ ep_idle s n in_ := by
  unfold ep_idle
  rw [ep_blocked_congr h hdctl, tsiz_get_congr htsiz]

/-! ## Less to do -/

/-- An endpoint of `t` has no more to do than the one of `s`. -/
structure EpEases (s t : DWC2State) (n : Nat) (in_ : Bool) : Prop where
  idle : ep_idle s n in_ → ep_idle t n in_
  stall : on DXEPCTL_STALL (dwc2_ep t n in_).ctl = true →
    on DXEPCTL_STALL (dwc2_ep s n in_).ctl = true
  ena : on DXEPCTL_EPENA (dwc2_ep t n in_).ctl = true →
    on DXEPCTL_EPENA (dwc2_ep s n in_).ctl = true

theorem EpEases.refl (s : DWC2State) (n : Nat) (in_ : Bool) : EpEases s s n in_ :=
  ⟨id, id, id⟩

theorem EpEases.trans (h : EpEases s s' n in_) (h' : EpEases s' t n in_) : EpEases s t n in_ :=
  ⟨fun hi => h'.idle (h.idle hi), fun hs => h.stall (h'.stall hs), fun he => h.ena (h'.ena he)⟩

theorem epEases_of_eq (h : dwc2_ep t n in_ = dwc2_ep s n in_) (hdctl : t.dctl = s.dctl) :
    EpEases s t n in_ := by
  refine ⟨(ep_idle_congr (by rw [h]) (by rw [h]) hdctl).mpr, ?_, ?_⟩
  · rw [h]
    exact id
  · rw [h]
    exact id

/-- No endpoint has more to do, and the role is the same. -/
structure Eases (s t : DWC2State) : Prop where
  ep : ∀ n in_, EpEases s t n in_
  gusbcfg : t.gusbcfg = s.gusbcfg
  gotgctl : t.gotgctl = s.gotgctl
  cable : t.otg_cable = s.otg_cable

theorem Eases.refl (s : DWC2State) : Eases s s := ⟨EpEases.refl s, rfl, rfl, rfl⟩

theorem Eases.trans (h : Eases s s') (h' : Eases s' t) : Eases s t :=
  ⟨fun n d => (h.ep n d).trans (h'.ep n d), h'.gusbcfg.trans h.gusbcfg,
    h'.gotgctl.trans h.gotgctl, h'.cable.trans h.cable⟩

theorem Eases.ite {c : Prop} [Decidable c] {t' : DWC2State} (h : Eases s t) (h' : Eases s t') :
    Eases s (if c then t else t') := by
  split
  · exact h
  · exact h'

/-- One endpoint changed, and has no more to do. -/
theorem OnlyEp.eases (h : OnlyEp n in_ s t) (hep : EpEases s t n in_) : Eases s t := by
  refine ⟨fun k d => ?_, ?_, ?_, ?_⟩
  · by_cases hk : k = n ∧ d = in_
    · rw [hk.1, hk.2]
      exact hep
    · exact epEases_of_eq (h.others k d hk) h.dctl
  all_goals
    obtain ⟨_, _, _, _, _, rfl⟩ := h.rest
    rfl

/-- An endpoint that is disabled now. -/
theorem epEases_disabled (hena : on DXEPCTL_EPENA (dwc2_ep t n in_).ctl = false)
    (hstall : on DXEPCTL_STALL (dwc2_ep t n in_).ctl = on DXEPCTL_STALL (dwc2_ep s n in_).ctl) :
    EpEases s t n in_ := by
  refine ⟨fun _ => Or.inl (blocked_of_disabled hena), ?_, ?_⟩
  · rw [hstall]
    exact id
  · rw [hena]
    exact fun h => Bool.noConfusion h

/-- The endpoints and the role are as they were. -/
theorem eases_of_same (hin : t.iepreg = s.iepreg) (hout : t.oepreg = s.oepreg)
    (hdctl : t.dctl = s.dctl) (hcfg : t.gusbcfg = s.gusbcfg) (hgotg : t.gotgctl = s.gotgctl)
    (hcable : t.otg_cable = s.otg_cable) : Eases s t := by
  refine ⟨fun n d => epEases_of_eq ?_ hdctl, hcfg, hgotg, hcable⟩
  unfold dwc2_ep
  rw [hin, hout]

theorem eases_set_gintsts (s : DWC2State) (f : Field) (val : Bool) :
    Eases s (dwc2_set_gintsts s f val) :=
  eases_of_same rfl rfl rfl rfl rfl rfl

theorem eases_update_irq (s : DWC2State) : Eases s (dwc2_device_update_irq s) :=
  eases_of_same rfl rfl rfl rfl rfl rfl

/-! ## A call -/

/-- How a run of turns ends. -/
theorem turns_end (h : Turns n in_ mps size data pkt s xfer moved packets m) :
    m.failed = false → m.host_done = false → m.pkt = 0 ∨ m.short_pkt = true := by
  induction h with
  | used_up => exact fun _ _ => Or.inl rfl
  | refused => exact fun _ h => Bool.noConfusion h
  | fails => exact fun h _ => Bool.noConfusion h
  | stops pkt s t xfer moved c packets bytes _ _ _ hstop =>
    intro _ hdone
    simp only [Bool.or_eq_false_iff, decide_eq_false_iff_not] at hdone
    refine Or.inr ?_
    rcases hstop with hshort | hfull
    · simp [hdone.1, hshort]
    · exact absurd hfull hdone.2
  | goes_on _ _ _ _ _ _ _ _ _ _ _ _ _ _ _ ih => exact ih

/-- A run of turns on no packets. -/
theorem turns_none (h : Turns n in_ mps size data pkt s xfer moved packets m) :
    pkt = 0 → m.pkt = 0 ∧ m.failed = false ∧ m.host_done = false ∧ m.babble = false ∧
      m.moved = moved ∧ m.packets = packets ∧ m.s = s := by
  intro hzero
  cases h with
  | used_up => exact ⟨rfl, rfl, rfl, rfl, rfl, rfl, rfl⟩
  | refused | fails | stops | goes_on => cases hzero

/-- The endpoint after a call that ended in its loop's end. -/
theorem written_back_ep (s : DWC2State) (n : Nat) (in_ : Bool) (x k : Nat) (done : Bool) :
    let t := if done then dwc2_ep_xfer_done (dwc2_tsiz_set s n in_ x k) n in_
      else dwc2_tsiz_set s n in_ x k
    OnlyEp n in_ s t ∧ t.mem = s.mem ∧
      on DXEPCTL_STALL (dwc2_ep t n in_).ctl = on DXEPCTL_STALL (dwc2_ep s n in_).ctl ∧
      (done = false → (dwc2_ep t n in_).ctl = (dwc2_ep s n in_).ctl) := by
  have hset : OnlyEp n in_ s (dwc2_tsiz_set s n in_ x k) := only_set_ep s n in_ _
  have hctl : (dwc2_ep (dwc2_tsiz_set s n in_ x k) n in_).ctl = (dwc2_ep s n in_).ctl := by
    unfold dwc2_tsiz_set
    rw [ep_set_ep]
  have hmem : (dwc2_tsiz_set s n in_ x k).mem = s.mem := by cases in_ <;> rfl
  intro t
  cases done with
  | false => exact ⟨hset, hmem, congrArg _ hctl, fun _ => hctl⟩
  | true =>
    refine ⟨hset.trans (only_set_ep _ n in_ _), ?_, ?_, fun h => Bool.noConfusion h⟩
    · rw [← hmem]
      cases in_ <;> rfl
    · show on DXEPCTL_STALL (dwc2_ep (dwc2_ep_xfer_done _ n in_) n in_).ctl = _
      unfold dwc2_ep_xfer_done
      dsimp only
      rw [ep_set_ep, hctl]
      have hena : Register.Disjoint DXEPCTL_EPENA DXEPCTL_STALL := by decide
      have hnak : Register.Disjoint DXEPCTL_NAKSTS DXEPCTL_STALL := by decide
      cases in_ with
      | true => exact on_clear_of_disjoint hena _
      | false => exact (on_raise_of_disjoint hnak _).trans (on_clear_of_disjoint hena _)

theorem call_only (h : Call s n in_ data size m) : OnlyEp n in_ s m.s := by
  cases h with
  | blocked _ => exact OnlyEp.refl n in_ s
  | failed m _ hturns _ => exact (turns_account hturns).only
  | ended m _ hturns _ =>
    have hback := written_back_ep m.s n in_ m.xfer m.pkt (decide (m.pkt = 0 ∨ m.short_pkt = true))
    simp only [decide_eq_true_eq] at hback
    exact (turns_account hturns).only.trans hback.1

/-- Where a call leaves its endpoint: as it was, disabled, or in the middle of a
    transfer whose host is done. -/
theorem call_ep (h : Call s n in_ data size m) :
    m.s = s ∧ ep_blocked s n in_ = true ∨
    on DXEPCTL_EPENA (dwc2_ep m.s n in_).ctl = false ∨
    m.host_done = true ∧ m.failed = false ∧ (dwc2_tsiz_get s n in_).2 ≠ 0 ∧
      (dwc2_ep m.s n in_).ctl = (dwc2_ep s n in_).ctl := by
  cases h with
  | blocked hb => exact Or.inl ⟨rfl, hb⟩
  | failed m _ hturns hf =>
    refine Or.inr (Or.inl ?_)
    rw [(turns_account hturns).ctl, if_pos hf]
    exact on_clear _
  | ended m hb hturns hf =>
    have hctl := (turns_account hturns).ctl
    rw [if_neg (by simp [hf])] at hctl
    obtain ⟨hxlt, hklt⟩ := tsiz_get_lt s n in_
    have hsize := (turns_account hturns).size
    have hcount := (turns_account hturns).count
    simp only [List.length_nil, Nat.add_zero] at hsize hcount
    have hback := written_back m.s n in_ m.xfer m.pkt (decide (m.pkt = 0 ∨ m.short_pkt = true))
      (by omega) (by omega)
    have hback' := written_back_ep m.s n in_ m.xfer m.pkt
      (decide (m.pkt = 0 ∨ m.short_pkt = true))
    simp only [decide_eq_true_eq] at hback hback'
    obtain ⟨_, _, hena, _⟩ := hback
    by_cases hend : m.pkt = 0 ∨ m.short_pkt = true
    · refine Or.inr (Or.inl ?_)
      rw [hena]
      simp [hend]
    · refine Or.inr (Or.inr ⟨?_, hf, fun hzero => ?_, ?_⟩)
      · by_contra hdone
        exact hend (turns_end hturns hf (by simpa using hdone))
      · exact hend (Or.inl (turns_none hturns hzero).1)
      · exact (hback'.2.2.2 (by simpa using hend)).trans hctl

theorem call_stall (h : Call s n in_ data size m) :
    on DXEPCTL_STALL (dwc2_ep m.s n in_).ctl = on DXEPCTL_STALL (dwc2_ep s n in_).ctl := by
  have hclear : ∀ v, on DXEPCTL_STALL (clear DXEPCTL_EPENA v) = on DXEPCTL_STALL v := fun v =>
    on_clear_of_disjoint (by decide) v
  cases h with
  | blocked _ => rfl
  | failed m _ hturns hf =>
    rw [(turns_account hturns).ctl, if_pos hf]
    exact hclear _
  | ended m _ hturns hf =>
    have hctl := (turns_account hturns).ctl
    rw [if_neg (by simp [hf])] at hctl
    have hback := written_back_ep m.s n in_ m.xfer m.pkt (decide (m.pkt = 0 ∨ m.short_pkt = true))
    simp only [decide_eq_true_eq] at hback
    rw [← hctl]
    exact hback.2.2.1

/-- Moving packets arms nothing. -/
theorem call_eases (h : Call s n in_ data size m) : Eases s m.s := by
  refine (call_only h).eases ?_
  rcases call_ep h with ⟨hs, _⟩ | hena | ⟨_, _, hpkt, hctl⟩
  · rw [hs]
    exact EpEases.refl s n in_
  · exact epEases_disabled hena (call_stall h)
  · refine ⟨fun hidle => ?_, ?_, ?_⟩
    · rcases hidle with hb | hzero
      · exact Or.inl ((ep_blocked_congr hctl (call_only h).dctl).trans hb)
      · exact absurd hzero hpkt
    · rw [hctl]
      exact id
    · rw [hctl]
      exact id

/-- The host's transfer goes on: the endpoint has nothing more for it. -/
theorem call_idles (h : Call s n in_ data size m) (hdone : m.host_done = false) :
    ep_idle m.s n in_ := by
  rcases call_ep h with ⟨hs, hb⟩ | hena | ⟨hd, _⟩
  · rw [hs]
    exact Or.inl hb
  · exact Or.inl (blocked_of_disabled hena)
  · rw [hdone] at hd
    cases hd

/-- An idle endpoint moves nothing. -/
theorem idle_call (h : Call s n in_ data size m) (hidle : ep_idle s n in_) :
    m.moved = 0 ∧ m.packets = [] ∧ m.host_done = false ∧ m.babble = false ∧
      m.s.dma_log = s.dma_log ∧ m.s.mem = s.mem := by
  cases h with
  | blocked _ => exact ⟨rfl, rfl, rfl, rfl, rfl, rfl⟩
  | failed m hb hturns hf =>
    have hzero : (dwc2_tsiz_get s n in_).2 = 0 := hidle.resolve_left (by simp [hb])
    rw [(turns_none hturns hzero).2.1] at hf
    cases hf
  | ended m hb hturns _ =>
    have hzero : (dwc2_tsiz_get s n in_).2 = 0 := hidle.resolve_left (by simp [hb])
    obtain ⟨hpkt, _, hdone, hbabble, hmoved, hpackets, hs⟩ := turns_none hturns hzero
    obtain ⟨hxlt, hklt⟩ := tsiz_get_lt s n in_
    have hsize := (turns_account hturns).size
    simp only [Nat.add_zero] at hsize
    have hback := written_back m.s n in_ m.xfer m.pkt (decide (m.pkt = 0 ∨ m.short_pkt = true))
      (by omega) (by omega)
    have hback' := written_back_ep m.s n in_ m.xfer m.pkt
      (decide (m.pkt = 0 ∨ m.short_pkt = true))
    simp only [decide_eq_true_eq] at hback hback'
    refine ⟨hmoved, hpackets, hdone, hbabble, ?_, ?_⟩
    · rw [← hs]
      exact hback.2.2.2.2.2
    · refine hback'.2.1.trans ?_
      rw [hs]

/-! ## When the host's transfer ends -/

/-- The `k` packets before it are full and leave something of the host's transfer,
    and packet `k` ends it: it fits, and is short (for IN) or the last. -/
structure EndsAt (in_ : Bool) (mps size pkt : Nat) (s : DWC2State) (xfer moved k : Nat) :
    Prop where
  lt : k < pkt
  in_xfer : k * mps ≤ xfer
  in_size : 0 < k → moved + k * mps < size
  moves : ∀ j < k, s.dma_results[j]? ≠ some false
  fits : ep_chunk in_ mps (size - (moved + k * mps)) (xfer - k * mps) ≤ size - (moved + k * mps)
  last_moves : 0 < ep_chunk in_ mps (size - (moved + k * mps)) (xfer - k * mps) →
    s.dma_results[k]? ≠ some false
  ends : in_ = true ∧ ep_chunk in_ mps (size - (moved + k * mps)) (xfer - k * mps) < mps ∨
    moved + k * mps + ep_chunk in_ mps (size - (moved + k * mps)) (xfer - k * mps) = size

/-- Some other packet before it is full, and leaves something. -/
theorem EndsAt.chunk {k : Nat} (h : EndsAt in_ mps size pkt s xfer moved k) (hk : 0 < k) :
    ep_chunk in_ mps (size - moved) xfer = mps ∧ moved + mps < size ∧
      s.dma_results.headD true = true := by
  have hle : mps ≤ k * mps := Nat.le_mul_of_pos_left mps hk
  have hx := h.in_xfer
  have hroom := h.in_size hk
  refine ⟨?_, by omega, (headD_true_iff _).mpr (h.moves 0 hk)⟩
  unfold ep_chunk
  split <;> omega

theorem turns_done (hmps : 0 < mps) (h : Turns n in_ mps size data pkt s xfer moved packets m) :
    (m.host_done = true ∧ m.babble = false) ↔ ∃ k, EndsAt in_ mps size pkt s xfer moved k := by
  -- on the turns: each but the last moves one full packet and shifts `k` by one
  induction h with
  | used_up s xfer moved packets =>
    refine ⟨fun h => Bool.noConfusion h.1, ?_⟩
    rintro ⟨k, hk⟩
    exact absurd hk.lt (Nat.not_lt_zero k)
  | refused pkt s xfer moved packets hin hbig =>
    refine ⟨fun h => Bool.noConfusion h.2, ?_⟩
    rintro ⟨k, hk⟩
    rcases Nat.eq_zero_or_pos k with rfl | hpos
    · have hfits := hk.fits
      rw [Nat.zero_mul, Nat.add_zero, Nat.sub_zero] at hfits
      omega
    · obtain ⟨hc, hlt, _⟩ := hk.chunk hpos
      omega
  | fails pkt s t xfer moved c packets hc hfit hacc =>
    refine ⟨fun h => Bool.noConfusion h.1, ?_⟩
    rintro ⟨k, hk⟩
    cases hacc with
    | fail _ hlen hbad _ _ _ _ _ =>
      have hzero : ¬ s.dma_results[0]? ≠ some false := by
        rw [← headD_true_iff, hbad]
        decide
      rcases Nat.eq_zero_or_pos k with rfl | hpos
      · have hlast := hk.last_moves
        rw [Nat.zero_mul, Nat.add_zero, Nat.sub_zero, ← hc] at hlast
        exact absurd (hlast hlen) hzero
      · exact absurd (hk.moves 0 hpos) hzero
  | stops pkt s t xfer moved c packets bytes hc hfit hacc hstop =>
    constructor
    · rintro ⟨hdone, _⟩
      refine ⟨0, ?_⟩
      refine
        { lt := Nat.succ_pos _, in_xfer := by omega,
          in_size := fun h => absurd h (Nat.lt_irrefl 0),
          moves := fun j hj => absurd hj (Nat.not_lt_zero j), fits := ?_, last_moves := ?_,
          ends := ?_ }
      all_goals rw [Nat.zero_mul, Nat.add_zero, Nat.sub_zero, ← hc]
      · exact hfit
      · intro hlen
        exact (headD_true_iff _).mp (hacc.some_results hlen).1
      · simp only [Bool.or_eq_true, decide_eq_true_eq] at hdone
        rcases hdone with hin | hlast
        · exact hstop.imp (fun h => ⟨hin, h⟩) id
        · exact Or.inr hlast
    · rintro ⟨k, hk⟩
      refine ⟨?_, rfl⟩
      rcases Nat.eq_zero_or_pos k with rfl | hpos
      · have hends := hk.ends
        rw [Nat.zero_mul, Nat.add_zero, Nat.sub_zero, ← hc] at hends
        simp only [Bool.or_eq_true, decide_eq_true_eq]
        exact hends.imp And.left id
      · obtain ⟨hmax, hlt, _⟩ := hk.chunk hpos
        omega
  | goes_on pkt s t xfer moved c packets bytes m hc hfit hacc hfull hmore _ ih =>
    have hcle := ep_chunk_le in_ mps (size - moved) xfer
    rw [← hc] at hcle
    subst hfull
    obtain ⟨hok, ht⟩ := hacc.some_results hmps
    have hshift : ∀ k, moved + c + k * c = moved + (k + 1) * c ∧
        xfer - c - k * c = xfer - (k + 1) * c := by
      intro k
      rw [Nat.succ_mul]
      omega
    rw [ih]
    constructor
    · rintro ⟨k, hk⟩
      have hmul : (k + 1) * c = k * c + c := Nat.succ_mul k c
      have hx := hk.in_xfer
      have hlt := hk.lt
      have hfits := hk.fits
      have hlast := hk.last_moves
      have hends := hk.ends
      rw [(hshift k).1, (hshift k).2] at hfits hlast hends
      rw [ht, List.getElem?_tail] at hlast
      refine ⟨k + 1, by omega, by omega, fun _ => ?_, fun j hj => ?_, hfits, hlast, hends⟩
      · rcases Nat.eq_zero_or_pos k with rfl | hpos
        · omega
        · have hroom := hk.in_size hpos
          omega
      · cases j with
        | zero => exact (headD_true_iff _).mp hok
        | succ j =>
          have hnext := hk.moves j (by omega)
          rwa [ht, List.getElem?_tail] at hnext
    · rintro ⟨k, hk⟩
      rcases Nat.eq_zero_or_pos k with rfl | hpos
      · have hends := hk.ends
        rw [Nat.zero_mul, Nat.add_zero, Nat.sub_zero, ← hc] at hends
        omega
      · obtain ⟨k, rfl⟩ : ∃ k', k = k' + 1 := ⟨k - 1, by omega⟩
        have hmul : (k + 1) * c = k * c + c := Nat.succ_mul k c
        have hx := hk.in_xfer
        have hlt := hk.lt
        have hroom := hk.in_size hpos
        have hfits := hk.fits
        have hlast := hk.last_moves
        have hends := hk.ends
        rw [← (hshift k).1, ← (hshift k).2] at hfits hlast hends
        rw [← List.getElem?_tail, ← ht] at hlast
        refine ⟨k, by omega, by omega, fun _ => by omega, fun j hj => ?_, hfits, hlast, hends⟩
        rw [ht, List.getElem?_tail]
        exact hk.moves (j + 1) (by omega)

end Dwc2
