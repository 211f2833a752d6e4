import RpiQemu.Dwc2.Endpoint

/-! # Endpoint accounting

    Across a call that moves packets, the guest reads from the registers of the
    endpoint how far the transfer went: XferSize, PktCnt and the DMA address.
    The address is advanced packet by packet, the other two are written back at
    the end, and not at all when a DMA access fails.

    * `Turns` is what both loops do, with one case for each way a turn ends.
    * `Account` is what a run of turns leaves, by induction on it.
    * `accounted_iff`: the registers agree unless an access after the first
      packet fails. -/

namespace Dwc2

open Register

variable {s s' t : DWC2State} {n mps size xfer pkt moved len : Nat} {in_ : Bool}
  {packets : List (List UInt8)} {m : Moved}

/-! ## Endpoint registers -/

@[simp] theorem ep_set_ep (s : DWC2State) (n : Nat) (in_ : Bool) (ep : EpRegs) :
    dwc2_ep (s.set_ep n in_ ep) n in_ = ep := by
  unfold dwc2_ep DWC2State.set_ep
  cases in_ <;> simp

/-- The registers of another endpoint, or of the other direction. -/
theorem ep_set_ep_of_ne {k : Nat} {d : Bool} (h : ¬ (k = n ∧ d = in_)) (ep : EpRegs) :
    dwc2_ep (s.set_ep n in_ ep) k d = dwc2_ep s k d := by
  unfold dwc2_ep DWC2State.set_ep
  cases in_ <;> cases d <;> simp_all

/-- Only the endpoint, memory and the DMA accesses changed. -/
structure OnlyEp (n : Nat) (in_ : Bool) (s t : DWC2State) : Prop where
  others : ∀ k d, ¬ (k = n ∧ d = in_) → dwc2_ep t k d = dwc2_ep s k d
  rest : ∃ iepreg oepreg mem results log, t = { s with
    iepreg := iepreg, oepreg := oepreg, mem := mem, dma_results := results, dma_log := log }

theorem OnlyEp.refl (n : Nat) (in_ : Bool) (s : DWC2State) : OnlyEp n in_ s s :=
  ⟨fun _ _ _ => rfl, s.iepreg, s.oepreg, s.mem, s.dma_results, s.dma_log, rfl⟩

theorem OnlyEp.trans (h : OnlyEp n in_ s s') (h' : OnlyEp n in_ s' t) : OnlyEp n in_ s t := by
  refine ⟨fun k d hk => (h'.others k d hk).trans (h.others k d hk), ?_⟩
  obtain ⟨_, _, _, _, _, rfl⟩ := h.rest
  obtain ⟨i, o, me, r, l, rfl⟩ := h'.rest
  exact ⟨i, o, me, r, l, rfl⟩

theorem OnlyEp.dctl (h : OnlyEp n in_ s t) : t.dctl = s.dctl := by
  obtain ⟨_, _, _, _, _, rfl⟩ := h.rest
  rfl

theorem only_set_ep (s : DWC2State) (n : Nat) (in_ : Bool) (ep : EpRegs) :
    OnlyEp n in_ s (s.set_ep n in_ ep) := by
  refine ⟨fun k d hk => ep_set_ep_of_ne hk ep, ?_⟩
  unfold DWC2State.set_ep
  split
  · exact ⟨_, s.oepreg, s.mem, s.dma_results, s.dma_log, rfl⟩
  · exact ⟨s.iepreg, _, s.mem, s.dma_results, s.dma_log, rfl⟩

/-! ## DMA -/

/-- The endpoint after an access that failed. -/
def EpRegs.dma_error (ep : EpRegs) : EpRegs :=
  { ep with ctl := clear DXEPCTL_EPENA ep.ctl, int := raise DXEPINT_AHBERR ep.int }

/-- The endpoint after `len` more bytes. -/
def EpRegs.advance (ep : EpRegs) (len : Nat) : EpRegs :=
  { ep with dma := (ep.dma + len) % 2 ^ 32 }

/-- The bytes of an access. -/
def access_data (s : DWC2State) (n : Nat) (in_ : Bool) (buf : List UInt8) (len : Nat) :
    List UInt8 :=
  if in_ then s.mem.read (dwc2_ep s n in_).dma len else buf

/-- The log entry of an access. -/
def access_entry (s : DWC2State) (n : Nat) (in_ : Bool) (buf : List UInt8) (len : Nat)
    (ok : Bool) : Dma :=
  { write := !in_, addr := (dwc2_ep s n in_).dma, data := access_data s n in_ buf len, ok := ok }

/-- What an access of `len` bytes can do. -/
inductive Access (s : DWC2State) (n : Nat) (in_ : Bool) (buf : List UInt8) (len : Nat) :
    DWC2State × Option (List UInt8) → Prop where
  | none : len = 0 → Access s n in_ buf len (s, some [])
  | ok (t : DWC2State) : 0 < len → s.dma_results.headD true = true →
      OnlyEp n in_ s t → dwc2_ep t n in_ = (dwc2_ep s n in_).advance len →
      t.dma_results = s.dma_results.tail →
      t.dma_log = s.dma_log ++ [access_entry s n in_ buf len true] →
      t.mem = (if in_ then s.mem else s.mem.write (dwc2_ep s n in_).dma buf) →
      Access s n in_ buf len (t, some (access_data s n in_ buf len))
  | fail (t : DWC2State) : 0 < len → s.dma_results.headD true = false →
      OnlyEp n in_ s t → dwc2_ep t n in_ = (dwc2_ep s n in_).dma_error →
      t.dma_results = s.dma_results.tail →
      t.dma_log = s.dma_log ++ [access_entry s n in_ buf len false] → t.mem = s.mem →
      Access s n in_ buf len (t, none)

theorem ep_dma_access (s : DWC2State) (n : Nat) (in_ : Bool) (buf : List UInt8) (len : Nat) :
    Access s n in_ buf len (dwc2_ep_dma s n in_ buf len) := by
  unfold dwc2_ep_dma
  by_cases hlen : len = 0
  · rw [if_pos hlen]
    exact .none hlen
  rw [if_neg hlen]
  dsimp only
  have hpos : 0 < len := Nat.pos_of_ne_zero hlen
  have hbase : ∀ mem : Memory, ∀ l : List Dma, OnlyEp n in_ s
      { s with mem := mem, dma_results := s.dma_results.tail, dma_log := l } := fun mem l =>
    ⟨fun k d _ => by cases d <;> rfl, s.iepreg, s.oepreg, mem, s.dma_results.tail, l, rfl⟩
  by_cases hok : s.dma_results.headD true = true
  · rw [if_pos hok]
    refine .ok _ hpos hok (OnlyEp.trans ?_ (only_set_ep _ n in_ _)) (ep_set_ep _ _ _ _) ?_ ?_ ?_
    · split
      · exact hbase s.mem _
      · exact hbase _ _
    · cases in_ <;> rfl
    · rw [hok]
      cases in_ <;> rfl
    · cases in_ <;> rfl
  · rw [if_neg hok]
    have hfail : s.dma_results.headD true = false := by simpa using hok
    refine .fail _ hpos hfail (OnlyEp.trans (hbase s.mem _) (only_set_ep _ n in_ _))
      (ep_set_ep _ _ _ _) ?_ ?_ ?_
    · cases in_ <;> rfl
    · rw [hfail]
      cases in_ <;> rfl
    · cases in_ <;> rfl

/-! ## Turns of the loops -/

/-- The bytes of the next packet: the guest's for IN; for OUT the host's, cut to
    what is left of the transfer. -/
def ep_chunk (in_ : Bool) (mps left xfer : Nat) : Nat :=
  if in_ then min mps xfer else min (min mps left) xfer

/-- The part of the caller's window that a packet takes. -/
def ep_buf (in_ : Bool) (data : List UInt8) (moved len : Nat) : List UInt8 :=
  if in_ then [] else (data.drop moved).take len

/-- A run of turns on `pkt` packets, for a host with `size` bytes of room or
    data. -/
inductive Turns (n : Nat) (in_ : Bool) (mps size : Nat) (data : List UInt8) :
    Nat → DWC2State → Nat → Nat → List (List UInt8) → Moved → Prop where
  | used_up (s : DWC2State) (xfer moved : Nat) (packets : List (List UInt8)) :
      Turns n in_ mps size data 0 s xfer moved packets
        { s := s, xfer := xfer, pkt := 0, moved := moved, packets := packets }
  | refused (pkt : Nat) (s : DWC2State) (xfer moved : Nat) (packets : List (List UInt8)) :
      in_ = true → size - moved < ep_chunk in_ mps (size - moved) xfer →
      Turns n in_ mps size data (pkt + 1) s xfer moved packets
        { s := s, xfer := xfer, pkt := pkt + 1, moved := moved, packets := packets,
          host_done := true, babble := true }
  | fails (pkt : Nat) (s t : DWC2State) (xfer moved c : Nat) (packets : List (List UInt8)) :
      c = ep_chunk in_ mps (size - moved) xfer → c ≤ size - moved →
      Access s n in_ (ep_buf in_ data moved c) c (t, none) →
      Turns n in_ mps size data (pkt + 1) s xfer moved packets
        { s := t, xfer := xfer, pkt := pkt + 1, moved := moved, packets := packets, failed := true }
  | stops (pkt : Nat) (s t : DWC2State) (xfer moved c : Nat) (packets : List (List UInt8))
      (bytes : List UInt8) :
      c = ep_chunk in_ mps (size - moved) xfer → c ≤ size - moved →
      Access s n in_ (ep_buf in_ data moved c) c (t, some bytes) → c < mps ∨ moved + c = size →
      Turns n in_ mps size data (pkt + 1) s xfer moved packets
        { s := t, xfer := xfer - c, pkt := pkt, moved := moved + c, packets := packets ++ [bytes],
          host_done := in_ || decide (moved + c = size), short_pkt := !in_ && decide (c < mps) }
  | goes_on (pkt : Nat) (s t : DWC2State) (xfer moved c : Nat) (packets : List (List UInt8))
      (bytes : List UInt8) (m : Moved) :
      c = ep_chunk in_ mps (size - moved) xfer → c ≤ size - moved →
      Access s n in_ (ep_buf in_ data moved c) c (t, some bytes) → c = mps → moved + c ≠ size →
      Turns n in_ mps size data pkt t (xfer - c) (moved + c) (packets ++ [bytes]) m →
      Turns n in_ mps size data (pkt + 1) s xfer moved packets m

theorem in_loop_turns (n mps room pkt : Nat) (s : DWC2State) (xfer moved : Nat)
    (packets : List (List UInt8)) :
    Turns n true mps room [] pkt s xfer moved packets
      (in_loop n mps room pkt s xfer moved packets) := by
  induction pkt generalizing s xfer moved packets with
  | zero => exact .used_up s xfer moved packets
  | succ pkt ih =>
    unfold in_loop
    dsimp only
    generalize hc : min mps xfer = c
    by_cases hfit : c > room - moved
    · rw [if_pos hfit]
      have hlt : room - moved < min mps xfer := by omega
      exact .refused pkt s xfer moved packets rfl hlt
    rw [if_neg hfit]
    have hle : c ≤ room - moved := Nat.not_lt.mp hfit
    have hacc := ep_dma_access s n true [] c
    generalize dwc2_ep_dma s n true [] c = r at hacc
    obtain ⟨t, _ | bytes⟩ := r
    · exact .fails pkt s t xfer moved c packets hc.symm hle hacc
    · dsimp only
      by_cases hstop : c < mps ∨ moved + c = room
      · rw [if_pos hstop]
        exact .stops pkt s t xfer moved c packets bytes hc.symm hle hacc hstop
      · rw [if_neg hstop]
        exact .goes_on pkt s t xfer moved c packets bytes _ hc.symm hle hacc (by omega) (by omega)
          (ih _ _ _ _)

theorem out_loop_turns (n mps remaining : Nat) (data : List UInt8) (pkt : Nat) (s : DWC2State)
    (xfer moved : Nat) (packets : List (List UInt8)) :
    Turns n false mps remaining data pkt s xfer moved packets
      (out_loop n mps remaining data pkt s xfer moved packets) := by
  induction pkt generalizing s xfer moved packets with
  | zero => exact .used_up s xfer moved packets
  | succ pkt ih =>
    unfold out_loop
    dsimp only
    generalize hc : min (min mps (remaining - moved)) xfer = c
    have hle : c ≤ remaining - moved := by omega
    have hacc := ep_dma_access s n false ((data.drop moved).take c) c
    generalize dwc2_ep_dma s n false ((data.drop moved).take c) c = r at hacc
    obtain ⟨t, _ | bytes⟩ := r
    · exact .fails pkt s t xfer moved c packets hc.symm hle hacc
    · dsimp only
      by_cases hstop : c < mps ∨ moved + c = remaining
      · rw [if_pos hstop]
        exact .stops pkt s t xfer moved c packets bytes hc.symm hle hacc hstop
      · rw [if_neg hstop]
        exact .goes_on pkt s t xfer moved c packets bytes _ hc.symm hle hacc (by omega) (by omega)
          (ih _ _ _ _)

theorem ep_chunk_le (in_ : Bool) (mps left xfer : Nat) :
    ep_chunk in_ mps left xfer ≤ mps ∧ ep_chunk in_ mps left xfer ≤ xfer := by
  unfold ep_chunk
  split <;> omega

/-! ## What a run of turns leaves -/

/-- The locals, the registers and the log after a run of turns. -/
structure Account (n : Nat) (in_ : Bool) (mps pkt : Nat) (s : DWC2State) (xfer moved : Nat)
    (packets : List (List UInt8)) (m : Moved) : Prop where
  count : m.pkt + m.packets.length = pkt + packets.length
  more : packets.length ≤ m.packets.length
  size : m.xfer + m.moved = xfer + moved
  moved_le : moved ≤ m.moved
  -- all packets but the last are full
  full : m.moved ≤ moved + mps * (m.packets.length - packets.length)
  short : m.short_pkt = true → in_ = false ∧
    m.moved < moved + mps * (m.packets.length - packets.length)
  whole : in_ = false → m.short_pkt = false →
    m.moved = moved + mps * (m.packets.length - packets.length)
  only : OnlyEp n in_ s m.s
  tsiz : (dwc2_ep m.s n in_).tsiz = (dwc2_ep s n in_).tsiz
  dma : (dwc2_ep m.s n in_).dma % 2 ^ 32 = ((dwc2_ep s n in_).dma + (m.moved - moved)) % 2 ^ 32
  ctl : (dwc2_ep m.s n in_).ctl =
    if m.failed then clear DXEPCTL_EPENA (dwc2_ep s n in_).ctl else (dwc2_ep s n in_).ctl
  int : (dwc2_ep m.s n in_).int =
    if m.failed then raise DXEPINT_AHBERR (dwc2_ep s n in_).int else (dwc2_ep s n in_).int
  log : ∃ l, m.s.dma_log = s.dma_log ++ l ∧ (m.failed = true ↔ ∃ op ∈ l, op.ok = false)
  failed : m.failed = true → m.pkt ≠ 0 ∧ m.short_pkt = false

/-- What an access that succeeds leaves. -/
theorem Access.some_eq {buf bytes : List UInt8} (h : Access s n in_ buf len (t, some bytes)) :
    OnlyEp n in_ s t ∧ (dwc2_ep t n in_).ctl = (dwc2_ep s n in_).ctl ∧
      (dwc2_ep t n in_).int = (dwc2_ep s n in_).int ∧
      (dwc2_ep t n in_).tsiz = (dwc2_ep s n in_).tsiz ∧
      (dwc2_ep t n in_).dma % 2 ^ 32 = ((dwc2_ep s n in_).dma + len) % 2 ^ 32 ∧
      ∃ l, t.dma_log = s.dma_log ++ l ∧ ∀ op ∈ l, op.ok = true := by
  cases h with
  | none hlen =>
    refine ⟨OnlyEp.refl n in_ s, rfl, rfl, rfl, ?_, [], (List.append_nil _).symm, by simp⟩
    rw [hlen, Nat.add_zero]
  | ok _ _ _ honly hep _ hlog _ =>
    rw [hep]
    refine ⟨honly, rfl, rfl, rfl, Nat.mod_mod _ _, _, hlog, ?_⟩
    intro op hop
    rw [List.mem_singleton.mp hop]
    rfl

theorem turns_account {data : List UInt8}
    (h : Turns n in_ mps size data pkt s xfer moved packets m) :
    Account n in_ mps pkt s xfer moved packets m := by
  induction h with
  | used_up s xfer moved packets | refused pkt s xfer moved packets _ _ =>
    exact
      { count := rfl, more := Nat.le_refl _, size := rfl, moved_le := Nat.le_refl _,
        full := Nat.le_add_right _ _, short := fun h => Bool.noConfusion h,
        whole := fun _ _ => by simp, only := OnlyEp.refl n in_ s, tsiz := rfl,
        dma := by simp, ctl := rfl, int := rfl,
        log := ⟨[], (List.append_nil _).symm, by simp⟩, failed := fun h => Bool.noConfusion h }
  -- The early return: this turn moves nothing and counts nothing.
  | fails pkt s t xfer moved c packets hc _ hacc =>
    cases hacc with
    | fail _ _ _ honly hep _ hlog _ =>
      exact
        { count := rfl, more := Nat.le_refl _, size := rfl, moved_le := Nat.le_refl _,
          full := Nat.le_add_right _ _, short := fun h => Bool.noConfusion h,
          whole := fun _ _ => by simp, only := honly, tsiz := by rw [hep]; rfl,
          dma := by rw [hep, Nat.sub_self]; rfl, ctl := by rw [hep]; rfl, int := by rw [hep]; rfl,
          log := ⟨_, hlog, by simp [access_entry]⟩, failed := fun _ => ⟨Nat.succ_ne_zero pkt, rfl⟩ }
  -- A short packet, or the last that was asked for.
  | stops pkt s t xfer moved c packets bytes hc hfit hacc hstop =>
    obtain ⟨honly, hctl, hint, htsiz, hdma, l, hlog, hl⟩ := hacc.some_eq
    have hcle := ep_chunk_le in_ mps (size - moved) xfer
    rw [← hc] at hcle
    have hone : (packets ++ [bytes]).length - packets.length = 1 := by simp
    refine
      { count := ?_, more := ?_, size := ?_, moved_le := ?_, full := ?_, short := ?_, whole := ?_,
        only := honly, tsiz := htsiz, dma := ?_, ctl := hctl, int := hint,
        log := ⟨l, hlog, ?_⟩, failed := fun h => Bool.noConfusion h }
    · simp only [List.length_append, List.length_singleton]
      omega
    · simp
    · dsimp only
      omega
    · exact Nat.le_add_right _ _
    · dsimp only
      rw [hone]
      omega
    · intro hs
      dsimp only at hs ⊢
      rw [hone]
      simp only [Bool.and_eq_true, Bool.not_eq_true', decide_eq_true_eq] at hs
      exact ⟨hs.1, by omega⟩
    · intro hin hs
      dsimp only at hs ⊢
      rw [hone]
      have hn : ¬ c < mps := by simpa [hin] using hs
      omega
    · dsimp only
      rw [hdma, Nat.add_sub_cancel_left]
    · refine ⟨fun h => Bool.noConfusion h, fun ⟨op, hop, hok⟩ => ?_⟩
      rw [hl op hop] at hok
      cases hok
  -- A full packet, with the rest of the loop accounted for by the hypothesis.
  | goes_on pkt s t xfer moved c packets bytes m hc hfit hacc hfull hmore hrest ih =>
    obtain ⟨honly, hctl, hint, htsiz, hdma, l, hlog, hl⟩ := hacc.some_eq
    have hcle := ep_chunk_le in_ mps (size - moved) xfer
    rw [← hc] at hcle
    have hlen : (packets ++ [bytes]).length = packets.length + 1 := by simp
    have hcount := ih.count
    have hge := ih.more
    have hsize := ih.size
    have hle := ih.moved_le
    rw [hlen] at hcount hge
    have hmul : mps * (m.packets.length - packets.length) =
        mps * (m.packets.length - (packets.length + 1)) + mps := by
      rw [← Nat.mul_succ]
      congr 1
      omega
    have hbound := ih.full
    rw [hlen] at hbound
    refine
      { count := by omega, more := by omega, size := by omega, moved_le := by omega,
        full := by omega, short := fun hs => ?_, whole := fun hin hs => ?_,
        only := honly.trans ih.only, tsiz := ih.tsiz.trans htsiz, dma := ?_,
        ctl := by rw [ih.ctl, hctl], int := by rw [ih.int, hint], log := ?_, failed := ih.failed }
    · obtain ⟨hin, hlt⟩ := ih.short hs
      rw [hlen] at hlt
      exact ⟨hin, by omega⟩
    · have heq := ih.whole hin hs
      rw [hlen] at heq
      omega
    · rw [ih.dma, ← Nat.mod_add_mod, hdma, Nat.mod_add_mod]
      congr 1
      omega
    · obtain ⟨l', hlog', hl'⟩ := ih.log
      refine ⟨l ++ l', by rw [hlog', hlog, List.append_assoc], hl'.trans ⟨?_, ?_⟩⟩
      · rintro ⟨op, hop, hok⟩
        exact ⟨op, List.mem_append_right _ hop, hok⟩
      · rintro ⟨op, hop, hok⟩
        rcases List.mem_append.mp hop with hop | hop
        · rw [hl op hop] at hok
          cases hok
        · exact ⟨op, hop, hok⟩

/-! ## Which access fails -/

/-- The first of the coming accesses that fails is number `k`. -/
def FirstFailure (s : DWC2State) (k : Nat) : Prop :=
  s.dma_results[k]? = some false ∧ ∀ j < k, s.dma_results[j]? ≠ some false

/-- The `k` packets before it are full and leave something to move, and the access
    for the next one fails. -/
structure FailsAt (in_ : Bool) (mps size pkt : Nat) (s : DWC2State) (xfer moved k : Nat) :
    Prop where
  mps_pos : 0 < mps
  lt : k < pkt
  in_xfer : k * mps < xfer
  in_size : moved + k * mps < size
  fits : in_ = true → min mps (xfer - k * mps) ≤ size - (moved + k * mps)
  first : FirstFailure s k

theorem headD_true_iff (l : List Bool) : l.headD true = true ↔ l[0]? ≠ some false := by
  cases l with
  | nil => simp
  | cons b l => cases b <;> simp

theorem FirstFailure.not_zero {k : Nat} (h : FirstFailure s k)
    (hok : s.dma_results.headD true = true) : 0 < k := by
  rcases Nat.eq_zero_or_pos k with rfl | hk
  · exact absurd h.1 ((headD_true_iff _).mp hok)
  · exact hk

/-- Past an access that succeeds. -/
theorem firstFailure_succ {k : Nat} (hok : s.dma_results.headD true = true)
    (ht : t.dma_results = s.dma_results.tail) : FirstFailure t k ↔ FirstFailure s (k + 1) := by
  unfold FirstFailure
  rw [ht]
  simp only [List.getElem?_tail]
  constructor
  · rintro ⟨h, hj⟩
    refine ⟨h, fun j hlt => ?_⟩
    cases j with
    | zero => exact (headD_true_iff _).mp hok
    | succ j => exact hj j (by omega)
  · rintro ⟨h, hj⟩
    exact ⟨h, fun j hlt => hj (j + 1) (by omega)⟩

/-- A failure past this packet: the packet is full, and not the last. -/
theorem FailsAt.chunk {k : Nat} (h : FailsAt in_ mps size pkt s xfer moved k) (hk : 0 < k) :
    ep_chunk in_ mps (size - moved) xfer = mps ∧ moved + mps < size ∧ mps < xfer := by
  have hle : mps ≤ k * mps := Nat.le_mul_of_pos_left mps hk
  have hx := h.in_xfer
  have hs := h.in_size
  refine ⟨?_, by omega, by omega⟩
  unfold ep_chunk
  split <;> omega

/-- A failure at this packet: there is something to move, and it fits. -/
theorem FailsAt.chunk_zero (h : FailsAt in_ mps size pkt s xfer moved 0) :
    0 < ep_chunk in_ mps (size - moved) xfer ∧
      ep_chunk in_ mps (size - moved) xfer ≤ size - moved := by
  have hm := h.mps_pos
  have hx := h.in_xfer
  have hs := h.in_size
  have hf := h.fits
  rw [Nat.zero_mul] at hx hs hf
  unfold ep_chunk
  cases in_ with
  | true =>
    have hf := hf rfl
    simp only [if_true]
    omega
  | false =>
    simp only [Bool.false_eq_true, if_false]
    omega

/-- An access of some bytes that succeeds uses up a result. -/
theorem Access.some_results {buf bytes : List UInt8} (h : Access s n in_ buf len (t, some bytes))
    (hpos : 0 < len) :
    s.dma_results.headD true = true ∧ t.dma_results = s.dma_results.tail := by
  cases h with
  | none hlen => omega
  | ok _ _ hok _ _ hres _ _ => exact ⟨hok, hres⟩

theorem turns_failed {data : List UInt8}
    (h : Turns n in_ mps size data pkt s xfer moved packets m) :
    (m.failed = true →
      FailsAt in_ mps size pkt s xfer moved (m.packets.length - packets.length)) ∧
    ∀ k, FailsAt in_ mps size pkt s xfer moved k →
      m.failed = true ∧ m.packets.length = packets.length + k := by
  induction h with
  | used_up s xfer moved packets =>
    exact ⟨fun h => Bool.noConfusion h, fun k hk => absurd hk.lt (Nat.not_lt_zero k)⟩
  | refused pkt s xfer moved packets hin hbig =>
    refine ⟨fun h => Bool.noConfusion h, fun k hk => ?_⟩
    rcases Nat.eq_zero_or_pos k with rfl | hpos
    · have hfit := hk.chunk_zero.2
      omega
    · obtain ⟨hc, hlt, _⟩ := hk.chunk hpos
      omega
  | fails pkt s t xfer moved c packets hc hfit hacc =>
    cases hacc with
    | fail _ hpos hbad _ _ _ _ _ =>
      have hzero : s.dma_results[0]? = some false := by
        by_contra hne
        rw [(headD_true_iff _).mpr hne] at hbad
        cases hbad
      have hcle := ep_chunk_le in_ mps (size - moved) xfer
      rw [← hc] at hcle
      constructor
      · intro _
        rw [Nat.sub_self]
        refine ⟨by omega, Nat.succ_pos _, by omega, by omega, fun hin => ?_, hzero, by simp⟩
        rw [Nat.zero_mul, Nat.sub_zero, Nat.add_zero]
        rw [hin] at hc
        have hmin : c = min mps xfer := hc
        omega
      · intro k hk
        rcases Nat.eq_zero_or_pos k with rfl | hkpos
        · exact ⟨rfl, rfl⟩
        · exact absurd hzero (hk.first.2 0 hkpos)
  | stops pkt s t xfer moved c packets bytes hc hfit hacc hstop =>
    refine ⟨fun h => Bool.noConfusion h, fun k hk => ?_⟩
    rcases Nat.eq_zero_or_pos k with rfl | hpos
    · obtain ⟨hok, _⟩ := hacc.some_results (by rw [hc]; exact hk.chunk_zero.1)
      exact absurd (hk.first.not_zero hok) (Nat.lt_irrefl 0)
    · obtain ⟨hmps, hlt, _⟩ := hk.chunk hpos
      omega
  -- The access that fails is one later, seen from here, than seen from the rest.
  | goes_on pkt s t xfer moved c packets bytes m hc hfit hacc hfull hmore hrest ih =>
    obtain ⟨ih1, ih2⟩ := ih
    have hgrow := (turns_account hrest).more
    have hlen : (packets ++ [bytes]).length = packets.length + 1 := by simp
    rw [hlen] at ih1 ih2 hgrow
    subst hfull
    constructor
    · intro hm
      have hk := ih1 hm
      generalize hd : m.packets.length - (packets.length + 1) = k at hk
      have hkeq : m.packets.length - packets.length = k + 1 := by omega
      obtain ⟨hok, ht⟩ := hacc.some_results hk.mps_pos
      have hx := hk.in_xfer
      have hs := hk.in_size
      have hf := hk.fits
      have hlt := hk.lt
      have hmul : (k + 1) * c = k * c + c := Nat.succ_mul k c
      rw [hkeq]
      refine ⟨hk.mps_pos, by omega, by omega, by omega, fun hin => ?_,
        (firstFailure_succ hok ht).mp hk.first⟩
      have hfit' := hf hin
      rw [hmul]
      omega
    · intro k hk
      rcases Nat.eq_zero_or_pos k with rfl | hpos
      · obtain ⟨hok, _⟩ := hacc.some_results (by rw [hc]; exact hk.chunk_zero.1)
        exact absurd (hk.first.not_zero hok) (Nat.lt_irrefl 0)
      · obtain ⟨k, rfl⟩ : ∃ k', k = k' + 1 := ⟨k - 1, by omega⟩
        obtain ⟨hok, ht⟩ := hacc.some_results hk.mps_pos
        have hx := hk.in_xfer
        have hs := hk.in_size
        have hf := hk.fits
        have hlt := hk.lt
        have hmul : (k + 1) * c = k * c + c := Nat.succ_mul k c
        rw [hmul] at hx hs hf
        have hnext := ih2 k ⟨hk.mps_pos, by omega, by omega, by omega, fun hin => ?_,
          (firstFailure_succ hok ht).mpr hk.first⟩
        · exact ⟨hnext.1, by omega⟩
        · have hfit' := hf hin
          omega

/-! ## The registers after a call -/

/-- The two functions that move packets: `size` is the host's room, or the data
    it has left. -/
def move_packets (s : DWC2State) (n : Nat) (in_ : Bool) (data : List UInt8) (size : Nat) : Moved :=
  if in_ then dwc2_ep_in_packets s n size else dwc2_ep_out_packets s n data size

/-- Nothing armed, or the endpoint NAKs. -/
def ep_blocked (s : DWC2State) (n : Nat) (in_ : Bool) : Bool :=
  if in_ then in_blocked s n else out_blocked s n

/-- The guest's transfer is finished: all of its packets are used, or an OUT packet
    was short. -/
def finished (s : DWC2State) (n : Nat) (in_ : Bool) (m : Moved) : Bool :=
  !ep_blocked s n in_ && (decide (m.packets.length = (dwc2_tsiz_get s n in_).2) ||
    !in_ && decide (m.moved < dwc2_ep_mps s n in_ * m.packets.length))

/-- An access of the call failed. -/
def dma_failed (s : DWC2State) (m : Moved) : Bool :=
  (m.s.dma_log.drop s.dma_log.length).any (!·.ok)

/-- The registers agree with what moved, and report how it ended. -/
structure Accounted (s : DWC2State) (n : Nat) (in_ : Bool) (m : Moved) : Prop where
  size : (dwc2_tsiz_get m.s n in_).1 + m.moved = (dwc2_tsiz_get s n in_).1
  dma : (dwc2_ep m.s n in_).dma % 2 ^ 32 = ((dwc2_ep s n in_).dma + m.moved) % 2 ^ 32
  count : (dwc2_tsiz_get m.s n in_).2 + m.packets.length = (dwc2_tsiz_get s n in_).2
  enabled : on DXEPCTL_EPENA (dwc2_ep m.s n in_).ctl =
    (on DXEPCTL_EPENA (dwc2_ep s n in_).ctl && !(finished s n in_ m || dma_failed s m))
  xfercompl : on DXEPINT_XFERCOMPL (dwc2_ep m.s n in_).int =
    (on DXEPINT_XFERCOMPL (dwc2_ep s n in_).int || finished s n in_ m)
  ahberr : on DXEPINT_AHBERR (dwc2_ep m.s n in_).int =
    (on DXEPINT_AHBERR (dwc2_ep s n in_).int || dma_failed s m)

/-- An access that the call makes fails, and not the first. -/
def FailsLate (s : DWC2State) (n : Nat) (in_ : Bool) (size : Nat) : Prop :=
  ep_blocked s n in_ = false ∧ ∃ k, 0 < k ∧
    FailsAt in_ (dwc2_ep_mps s n in_) size (dwc2_tsiz_get s n in_).2 s (dwc2_tsiz_get s n in_).1 0 k

theorem tsiz_fields_disjoint (n : Nat) (in_ : Bool) :
    Register.Disjoint (tsiz_xfer n) (tsiz_pkt n in_) ∧
      Register.Disjoint (tsiz_pkt n in_) (tsiz_xfer n) := by
  unfold Register.Disjoint tsiz_xfer tsiz_pkt
  dsimp only
  split <;> omega

/-- What is written back reads back. -/
theorem tsiz_get_set {x k : Nat} (hx : x < 2 ^ (tsiz_xfer n).length)
    (hk : k < 2 ^ (tsiz_pkt n in_).length) :
    dwc2_tsiz_get (dwc2_tsiz_set s n in_ x k) n in_ = (x, k) := by
  unfold dwc2_tsiz_get dwc2_tsiz_set
  dsimp only
  rw [ep_set_ep]
  dsimp only
  rw [ex_dp_of_disjoint (tsiz_fields_disjoint n in_).2, ex_dp, ex_dp, Nat.mod_eq_of_lt hx,
    Nat.mod_eq_of_lt hk]

/-- The call, by how it ends. -/
inductive Call (s : DWC2State) (n : Nat) (in_ : Bool) (data : List UInt8) (size : Nat) :
    Moved → Prop where
  | blocked : ep_blocked s n in_ = true →
      Call s n in_ data size
        { s := s, xfer := (dwc2_tsiz_get s n in_).1, pkt := (dwc2_tsiz_get s n in_).2 }
  | failed (m : Moved) : ep_blocked s n in_ = false →
      Turns n in_ (dwc2_ep_mps s n in_) size data (dwc2_tsiz_get s n in_).2 s
        (dwc2_tsiz_get s n in_).1 0 [] m → m.failed = true → Call s n in_ data size m
  | ended (m : Moved) : ep_blocked s n in_ = false →
      Turns n in_ (dwc2_ep_mps s n in_) size data (dwc2_tsiz_get s n in_).2 s
        (dwc2_tsiz_get s n in_).1 0 [] m → m.failed = false →
      Call s n in_ data size
        { m with s :=
          if m.pkt = 0 ∨ m.short_pkt = true then
            dwc2_ep_xfer_done (dwc2_tsiz_set m.s n in_ m.xfer m.pkt) n in_
          else dwc2_tsiz_set m.s n in_ m.xfer m.pkt }

theorem in_packets_call (s : DWC2State) (n room : Nat) :
    Call s n true [] room (dwc2_ep_in_packets s n room) := by
  have hturns := in_loop_turns n (dwc2_ep_mps s n true) room (dwc2_tsiz_get s n true).2 s
    (dwc2_tsiz_get s n true).1 0 []
  unfold dwc2_ep_in_packets
  dsimp only
  generalize in_loop n (dwc2_ep_mps s n true) room (dwc2_tsiz_get s n true).2 s
    (dwc2_tsiz_get s n true).1 0 [] = m at hturns
  by_cases hb : in_blocked s n = true
  · rw [if_pos hb]
    exact .blocked hb
  rw [if_neg hb]
  have hb' : ep_blocked s n true = false := Bool.eq_false_iff.mpr hb
  by_cases hf : m.failed = true
  · rw [if_pos hf]
    exact .failed m hb' hturns hf
  rw [if_neg hf]
  have hf' : m.failed = false := by simpa using hf
  -- an IN packet that is short ends the host's transfer, not the guest's
  have hs : m.short_pkt = false := by
    cases h : m.short_pkt with
    | false => rfl
    | true => exact Bool.noConfusion ((turns_account hturns).short h).1
  have hcall := Call.ended m hb' hturns hf'
  have hiff : (m.pkt = 0 ∨ m.short_pkt = true) = (m.pkt = 0) := by simp [hs]
  simp only [hiff] at hcall
  exact hcall

theorem out_packets_call (s : DWC2State) (n : Nat) (data : List UInt8) (remaining : Nat) :
    Call s n false data remaining (dwc2_ep_out_packets s n data remaining) := by
  have hturns := out_loop_turns n (dwc2_ep_mps s n false) remaining data
    (dwc2_tsiz_get s n false).2 s (dwc2_tsiz_get s n false).1 0 []
  unfold dwc2_ep_out_packets
  dsimp only
  generalize out_loop n (dwc2_ep_mps s n false) remaining data (dwc2_tsiz_get s n false).2 s
    (dwc2_tsiz_get s n false).1 0 [] = m at hturns
  by_cases hb : out_blocked s n = true
  · rw [if_pos hb]
    exact .blocked hb
  rw [if_neg hb]
  have hb' : ep_blocked s n false = false := Bool.eq_false_iff.mpr hb
  by_cases hf : m.failed = true
  · rw [if_pos hf]
    exact .failed m hb' hturns hf
  rw [if_neg hf]
  exact .ended m hb' hturns (by simpa using hf)

theorem move_packets_call (s : DWC2State) (n : Nat) (in_ : Bool) (data : List UInt8) (size : Nat) :
    Call s n in_ (if in_ then [] else data) size (move_packets s n in_ data size) := by
  cases in_ with
  | true => exact in_packets_call s n size
  | false => exact out_packets_call s n data size

theorem tsiz_get_lt (s : DWC2State) (n : Nat) (in_ : Bool) :
    (dwc2_tsiz_get s n in_).1 < 2 ^ (tsiz_xfer n).length ∧
      (dwc2_tsiz_get s n in_).2 < 2 ^ (tsiz_pkt n in_).length :=
  ⟨ex_lt _, ex_lt _⟩

theorem tsiz_get_congr (h : (dwc2_ep t n in_).tsiz = (dwc2_ep s n in_).tsiz) :
    dwc2_tsiz_get t n in_ = dwc2_tsiz_get s n in_ := by
  unfold dwc2_tsiz_get
  rw [h]

/-- The registers after a call that ended in its loop's end. -/
theorem written_back (s : DWC2State) (n : Nat) (in_ : Bool) (x k : Nat) (done : Bool)
    (hx : x < 2 ^ (tsiz_xfer n).length) (hk : k < 2 ^ (tsiz_pkt n in_).length) :
    let t := if done then dwc2_ep_xfer_done (dwc2_tsiz_set s n in_ x k) n in_
      else dwc2_tsiz_set s n in_ x k
    dwc2_tsiz_get t n in_ = (x, k) ∧ (dwc2_ep t n in_).dma = (dwc2_ep s n in_).dma ∧
      on DXEPCTL_EPENA (dwc2_ep t n in_).ctl = (on DXEPCTL_EPENA (dwc2_ep s n in_).ctl && !done) ∧
      on DXEPINT_XFERCOMPL (dwc2_ep t n in_).int =
        (on DXEPINT_XFERCOMPL (dwc2_ep s n in_).int || done) ∧
      on DXEPINT_AHBERR (dwc2_ep t n in_).int = on DXEPINT_AHBERR (dwc2_ep s n in_).int ∧
      t.dma_log = s.dma_log := by
  have hset : dwc2_ep (dwc2_tsiz_set s n in_ x k) n in_ = { dwc2_ep s n in_ with
      tsiz := dp (tsiz_pkt n in_) (dp (tsiz_xfer n) (dwc2_ep s n in_).tsiz x) k } :=
    ep_set_ep _ _ _ _
  have hlog : (dwc2_tsiz_set s n in_ x k).dma_log = s.dma_log := by cases in_ <;> rfl
  intro t
  cases done with
  | false =>
    have ht : t = dwc2_tsiz_set s n in_ x k := rfl
    rw [ht, hset]
    exact ⟨tsiz_get_set hx hk, rfl, by simp, by simp, rfl, hlog⟩
  | true =>
    have ht : dwc2_ep t n in_ = { dwc2_ep (dwc2_tsiz_set s n in_ x k) n in_ with
        ctl := if in_ then clear DXEPCTL_EPENA (dwc2_ep s n in_).ctl
          else raise DXEPCTL_NAKSTS (clear DXEPCTL_EPENA (dwc2_ep s n in_).ctl)
        int := raise DXEPINT_XFERCOMPL (dwc2_ep s n in_).int } := by
      show dwc2_ep (dwc2_ep_xfer_done _ n in_) n in_ = _
      unfold dwc2_ep_xfer_done
      dsimp only
      rw [ep_set_ep, hset]
    have htl : t.dma_log = s.dma_log := by
      rw [← hlog]
      cases in_ <;> rfl
    refine ⟨?_, ?_, ?_, ?_, ?_, htl⟩
    · rw [tsiz_get_congr (s := dwc2_tsiz_set s n in_ x k) (by rw [ht])]
      exact tsiz_get_set hx hk
    · rw [ht, hset]
    · rw [ht]
      dsimp only
      cases in_ with
      | true => simp
      | false =>
        have hdis : Register.Disjoint DXEPCTL_NAKSTS DXEPCTL_EPENA := by decide
        simp [on_raise_of_disjoint hdis]
    · rw [ht]
      simp [on_raise (f := DXEPINT_XFERCOMPL) (by decide)]
    · rw [ht]
      exact on_raise_of_disjoint (by decide) _

/-- An access of the call failed exactly when a turn's did. -/
theorem Account.dma_failed {mps pkt xfer moved : Nat} {packets : List (List UInt8)} {m : Moved}
    (h : Account n in_ mps pkt s xfer moved packets m) (hlog : t.dma_log = m.s.dma_log) :
    dma_failed s { m with s := t } = m.failed := by
  obtain ⟨l, hlog', hl⟩ := h.log
  unfold Dwc2.dma_failed
  rw [show ({ m with s := t } : Moved).s.dma_log = s.dma_log ++ l from hlog.trans hlog',
    List.drop_left, Bool.eq_iff_iff, hl, List.any_eq_true]
  simp only [Bool.not_eq_true']

/-- The code's own reasons to end the transfer are those of `finished`. -/
theorem Account.finished {xfer : Nat} {m : Moved}
    (h : Account n in_ (dwc2_ep_mps s n in_) (dwc2_tsiz_get s n in_).2 s xfer 0 [] m)
    (hb : ep_blocked s n in_ = false) (t : DWC2State) :
    finished s n in_ { m with s := t } = decide (m.pkt = 0 ∨ m.short_pkt = true) := by
  have hcount := h.count
  simp only [List.length_nil, Nat.add_zero] at hcount
  have hshort : (in_ = false ∧ m.moved < dwc2_ep_mps s n in_ * m.packets.length) ↔
      m.short_pkt = true := by
    constructor
    · rintro ⟨hin, hlt⟩
      by_contra hs
      have hw := h.whole hin (by simpa using hs)
      simp only [List.length_nil, Nat.sub_zero, Nat.zero_add] at hw
      omega
    · intro hs
      obtain ⟨hin, hlt⟩ := h.short hs
      simp only [List.length_nil, Nat.sub_zero, Nat.zero_add] at hlt
      exact ⟨hin, hlt⟩
  have hused : m.packets.length = (dwc2_tsiz_get s n in_).2 ↔ m.pkt = 0 := by omega
  rw [Bool.eq_iff_iff]
  simp only [Dwc2.finished, hb, Bool.not_false, Bool.true_and, Bool.or_eq_true, Bool.and_eq_true,
    Bool.not_eq_true', decide_eq_true_eq]
  rw [hused, hshort]

/-- A call that is blocked moves nothing. -/
theorem blocked_accounted (hb : ep_blocked s n in_ = true) (x k : Nat) :
    Accounted s n in_ { s := s, xfer := x, pkt := k } := by
  have hfin : ∀ m, finished s n in_ m = false := fun m => by simp [finished, hb]
  have hdma : ∀ m : Moved, m.s = s → dma_failed s m = false := by
    intro m hm
    simp [dma_failed, hm]
  refine ⟨rfl, by rw [Nat.add_zero], rfl, ?_, ?_, ?_⟩
  · rw [hfin, hdma _ rfl]
    simp
  · rw [hfin]
    simp
  · rw [hdma _ rfl]
    simp

/-- A call whose first access fails moves nothing either. -/
theorem first_fails_accounted {xfer : Nat} {m : Moved}
    (hacc : Account n in_ (dwc2_ep_mps s n in_) (dwc2_tsiz_get s n in_).2 s xfer 0 [] m)
    (hb : ep_blocked s n in_ = false) (hf : m.failed = true) (hzero : m.packets.length = 0) :
    Accounted s n in_ m := by
  have htsiz := tsiz_get_congr hacc.tsiz
  have hfull := hacc.full
  simp only [List.length_nil, Nat.sub_zero, Nat.zero_add, hzero, Nat.mul_zero] at hfull
  have hmoved : m.moved = 0 := by omega
  have hfin : Dwc2.finished s n in_ m = false := by
    obtain ⟨hpkt, hshort⟩ := hacc.failed hf
    rw [show m = { m with s := m.s } from rfl, hacc.finished hb]
    exact decide_eq_false (by simp [hpkt, hshort])
  have hdma : Dwc2.dma_failed s m = true := by
    rw [show m = { m with s := m.s } from rfl, hacc.dma_failed rfl]
    exact hf
  have hctl := hacc.ctl
  have hint := hacc.int
  rw [if_pos hf] at hctl hint
  refine ⟨by rw [htsiz, hmoved, Nat.add_zero], ?_, by rw [htsiz, hzero, Nat.add_zero], ?_, ?_, ?_⟩
  · rw [hacc.dma, hmoved]
  · rw [hctl, hdma]
    simp
  · rw [hint, hfin, Bool.or_false]
    exact on_raise_of_disjoint (by decide) _
  · rw [hint, hdma, Bool.or_true]
    exact on_raise (by decide) _

/-- Everything but size and count agrees, whatever fails. -/
theorem accounted_iff (s : DWC2State) (n : Nat) (in_ : Bool) (data : List UInt8) (size : Nat) :
    Accounted s n in_ (move_packets s n in_ data size) ↔ ¬ FailsLate s n in_ size := by
  have hcall := move_packets_call s n in_ data size
  generalize move_packets s n in_ data size = m at hcall
  cases hcall with
  | blocked hb =>
    constructor
    · rintro _ ⟨hb', _⟩
      rw [hb] at hb'
      cases hb'
    · intro _
      exact blocked_accounted hb _ _
  | failed m hb hturns hf =>
    have hacc := turns_account hturns
    obtain ⟨hat, hall⟩ := turns_failed hturns
    simp only [List.length_nil, Nat.sub_zero, Nat.zero_add] at hat hall
    constructor
    · rintro h ⟨_, k, hk, hfails⟩
      have hlen := (hall k hfails).2
      have hsame := h.count
      rw [tsiz_get_congr hacc.tsiz] at hsame
      omega
    · intro hlate
      -- the access that failed was the first
      have hzero : m.packets.length = 0 := by
        by_contra hne
        exact hlate ⟨hb, _, Nat.pos_of_ne_zero hne, hat hf⟩
      exact first_fails_accounted hacc hb hf hzero
  | ended m hb hturns hf =>
    have hacc := turns_account hturns
    obtain ⟨_, hall⟩ := turns_failed hturns
    have hcount := hacc.count
    have hsize := hacc.size
    have hdma := hacc.dma
    simp only [List.length_nil, Nat.add_zero, Nat.sub_zero] at hcount hsize hdma
    have hctl := hacc.ctl
    have hint := hacc.int
    rw [if_neg (by simp [hf])] at hctl hint
    obtain ⟨hxlt, hklt⟩ := tsiz_get_lt s n in_
    have hback := written_back m.s n in_ m.xfer m.pkt (decide (m.pkt = 0 ∨ m.short_pkt = true))
      (by omega) (by omega)
    simp only [decide_eq_true_eq] at hback
    generalize (if m.pkt = 0 ∨ m.short_pkt = true then
      dwc2_ep_xfer_done (dwc2_tsiz_set m.s n in_ m.xfer m.pkt) n in_
      else dwc2_tsiz_set m.s n in_ m.xfer m.pkt) = t at hback
    obtain ⟨hget, haddr, hena, hcompl, hahb, hlog⟩ := hback
    have hfin := hacc.finished hb t
    have hok := (hacc.dma_failed hlog).trans hf
    constructor
    · rintro _ ⟨_, k, _, hfails⟩
      rw [(hall k hfails).1] at hf
      cases hf
    · intro _
      refine ⟨?_, ?_, ?_, ?_, ?_, ?_⟩
      · show (dwc2_tsiz_get t n in_).1 + m.moved = _
        rw [hget]
        exact hsize
      · show (dwc2_ep t n in_).dma % _ = (_ + m.moved) % _
        rw [haddr, hdma]
      · show (dwc2_tsiz_get t n in_).2 + m.packets.length = _
        rw [hget]
        exact hcount
      · rw [hfin, hok, Bool.or_false]
        show on DXEPCTL_EPENA (dwc2_ep t n in_).ctl = _
        rw [hena, hctl]
      · rw [hfin]
        show on DXEPINT_XFERCOMPL (dwc2_ep t n in_).int = _
        rw [hcompl, hint]
      · rw [hok, Bool.or_false]
        show on DXEPINT_AHBERR (dwc2_ep t n in_).int = _
        rw [hahb, hint]

/-- Two packets of 64 bytes armed on EP1 IN; the second access fails. -/
def two_packets : DWC2State :=
  { iepreg := fun _ => { ctl := 2 ^ 31 + 64, tsiz := 2 * 2 ^ 19 + 128, dma := 4096 },
    dma_results := [true, false] }

/-- The first packet moved and the address passed it; size and count did not. -/
theorem not_accounted :
    ¬ ∀ s n in_ data size, Accounted s n in_ (move_packets s n in_ data size) := by
  intro h
  have hcount := (h two_packets 1 true [] 128).count
  revert hcount
  decide +kernel

end Dwc2
