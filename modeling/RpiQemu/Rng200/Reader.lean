import RpiQemu.Rng200.Interrupt

/-! # The generator's reader

    The guest reads words off the FIFO, and every read asks the backend for more.
    An answer goes to the FIFO only while the bits that were delivered stay below
    a threshold of the guest's, and no read lowers their count.

    * **The FIFO**: a queue of the backend's bytes (`fifo_is_queue`) with room
      for `rng_fifo_cap`, whose words FIFO_COUNT counts (`count_step`).
    * **The reader**: an answer in full leaves a word in the FIFO exactly when
      there was one, or when it is below the threshold (`serves_iff`). -/

namespace Rng200

open Register Run

/-! ## The FIFO -/

/-- The bytes that go into the FIFO. -/
def bytes_in (s : BCM2838Rng200State) : Op → List UInt8
  | .answer buf =>
    match s.requests with
    | [] => []
    | size :: _ =>
      let num := num_taken s (buf.take size).length
      if below_threshold s num then (buf.take size).take num else []
  | _ => []

/-- The bytes that leave it: a read takes a word, a reset all. -/
def bytes_out (s : BCM2838Rng200State) (op : Op) : List UInt8 :=
  if op.resets then s.fifo
  else
    match op with
    | .read offset => if offset = A_RNG_FIFO_DATA then s.fifo.take 4 else []
    | _ => []

theorem update_fifo_fifo (s : BCM2838Rng200State) (buf : List UInt8) :
    (bcm2838_rng200_update_fifo s buf).fifo =
      s.fifo ++ (if below_threshold s (num_taken s buf.length) then
        buf.take (num_taken s buf.length) else []) := by
  unfold bcm2838_rng200_update_fifo
  dsimp only
  by_cases h : below_threshold s (num_taken s buf.length)
  · rw [if_pos h, if_pos h]
    rfl
  · rw [if_neg h, if_neg h, List.append_nil]
    rfl

/-- A read that is none of data. -/
theorem read_other (s : BCM2838Rng200State) {offset : Nat} (h : offset ≠ A_RNG_FIFO_DATA) :
    step s (.read offset) = s := by
  unfold step
  dsimp only
  unfold bcm2838_rng200_read
  split_ifs
  all_goals rfl

/-- What a write leaves of the FIFO and of the requests, unless it is a reset. -/
theorem write_keeps (s : BCM2838Rng200State) {offset value : Nat}
    (hop : (Op.write offset value).resets = false) :
    (step s (.write offset value)).fifo = s.fifo ∧
      ((step s (.write offset value)).requests = s.requests ∨
        (step s (.write offset value)).requests = s.requests ++ [fifo8_num_free s]) := by
  unfold step
  dsimp only
  unfold bcm2838_rng200_write
  by_cases hctrl : offset = A_RNG_CTRL
  · rw [if_pos hctrl]
    unfold bcm2838_rng200_ctrl_write
    dsimp only
    split
    · exact ⟨rfl, .inr rfl⟩
    · exact ⟨rfl, .inl rfl⟩
  rw [if_neg hctrl]
  by_cases hreset : offset = A_RNG_SOFT_RESET
  · have hbit : ¬ on SOFT_RESET (value % 2 ^ 32) = true := by
      simpa [Op.resets, hreset] using hop
    rw [if_pos hreset, if_neg hbit]
    exact ⟨rfl, .inl rfl⟩
  rw [if_neg hreset]
  split_ifs
  all_goals exact ⟨rfl, .inl rfl⟩

theorem queue_step (s : BCM2838Rng200State) (op : Op) :
    s.fifo ++ bytes_in s op = bytes_out s op ++ (step s op).fifo := by
  by_cases hop : op.resets = true
  · have hin : bytes_in s op = [] := by
      cases op with
      | answer buf => cases hop
      | _ => rfl
    unfold bytes_out
    rw [hin, if_pos hop, step_resets s hop]
    rfl
  unfold bytes_out
  rw [if_neg hop]
  cases op with
  | read offset =>
    by_cases hdata : offset = A_RNG_FIFO_DATA
    · subst hdata
      have hdrop : (step s (.read A_RNG_FIFO_DATA)).fifo = s.fifo.drop 4 := rfl
      rw [hdrop]
      simp only [bytes_in, List.append_nil, if_true, List.take_append_drop]
    · rw [read_other s hdata]
      simp only [bytes_in, if_neg hdata, List.append_nil, List.nil_append]
  | write offset value =>
    rw [(write_keeps s (Bool.eq_false_iff.mpr hop)).1]
    simp [bytes_in]
  | answer buf =>
    unfold step bytes_in
    dsimp only
    cases hreq : s.requests with
    | nil => simp
    | cons size requests =>
      dsimp only
      rw [update_fifo_fifo]
      rfl
  | reset => exact absurd rfl hop

/-- Every byte that the backend delivered into the FIFO leaves it once, in order, or
    is still there. -/
theorem fifo_is_queue (ops : List Op) :
    outputs step bytes_in (run []) ops = outputs step bytes_out (run []) ops ++ (run ops).fifo := by
  have h := outputs_queue queue_step (run []) ops
  exact h

/-! ## The count -/

/-- FIFO_COUNT.COUNT is the number of whole words in the FIFO. -/
def CountFollows (s : BCM2838Rng200State) : Prop :=
  ex COUNT s.regs.fifo_count = s.fifo.length / 4

instance (s : BCM2838Rng200State) : Decidable (CountFollows s) :=
  inferInstanceAs (Decidable (_ = _))

/-- The generator stores the count. -/
def Op.stores (s : BCM2838Rng200State) (op : Op) : Bool :=
  op.resets || match op with
    | .read offset => offset == A_RNG_FIFO_DATA
    | .answer _ => !s.requests.isEmpty
    | _ => false

/-- The guest writes it. -/
def Op.writes_count : Op → Bool
  | .write offset _ => offset == A_RNG_FIFO_COUNT
  | _ => false

/-- Whether the guest wrote FIFO_COUNT since the generator last stored it. -/
def guest_wrote : Bool → BCM2838Rng200State → List Op → Bool
  | wrote, _, [] => wrote
  | wrote, s, op :: ops =>
    guest_wrote (!op.stores s && (op.writes_count || wrote)) (step s op) ops

theorem update_count_follows {s : BCM2838Rng200State} (h : s.fifo.length ≤ rng_fifo_cap) :
    CountFollows (update_count s) := by
  unfold CountFollows update_count
  dsimp only
  rw [ex_dp, Nat.mod_eq_of_lt]
  unfold rng_fifo_cap at h
  show s.fifo.length / 4 < 2 ^ 8
  omega

/-- The FIFO never exceeds its capacity. -/
theorem fifo_step {s : BCM2838Rng200State} (h : s.fifo.length ≤ rng_fifo_cap) (op : Op) :
    (step s op).fifo.length ≤ rng_fifo_cap := by
  have hqueue := congrArg List.length (queue_step s op)
  rw [List.length_append, List.length_append] at hqueue
  have hin : (bytes_in s op).length ≤ fifo8_num_free s := by
    cases op with
    | answer buf =>
      unfold bytes_in
      dsimp only
      split
      · exact Nat.zero_le _
      split
      · rw [List.length_take]
        unfold num_taken
        omega
      · exact Nat.zero_le _
    | _ => exact Nat.zero_le _
  unfold fifo8_num_free at hin
  omega

theorem stores_follows {s : BCM2838Rng200State} (h : s.fifo.length ≤ rng_fifo_cap) {op : Op}
    (hop : op.stores s = true) : CountFollows (step s op) := by
  have hcap := fifo_step h op
  by_cases hreset : op.resets = true
  · rw [step_resets s hreset]
    have hzero : ex COUNT 0 = 0 / 4 := by decide
    exact hzero
  unfold Op.stores at hop
  rw [Bool.eq_false_iff.mpr hreset, Bool.false_or] at hop
  cases op with
  | read offset =>
    obtain rfl := beq_iff_eq.mp hop
    exact update_count_follows hcap
  | write offset value => cases hop
  | answer buf =>
    cases hreq : s.requests with
    | nil => simp [hreq] at hop
    | cons size requests =>
      unfold step at hcap ⊢
      rw [hreq] at hcap ⊢
      exact update_count_follows hcap
  | reset => cases hop

/-- What does not touch the count leaves it right. -/
theorem count_step {s : BCM2838Rng200State} (h : CountFollows s) {op : Op}
    (hop : op.stores s = false) (hguest : op.writes_count = false) :
    CountFollows (step s op) := by
  unfold Op.stores at hop
  rw [Bool.or_eq_false_iff] at hop
  obtain ⟨hreset, hother⟩ := hop
  cases op with
  | read offset =>
    rw [read_other s (by simpa using hother)]
    exact h
  | write offset value =>
    have hcount : offset ≠ A_RNG_FIFO_COUNT := by simpa [Op.writes_count] using hguest
    have hbit : offset = A_RNG_SOFT_RESET → ¬ on SOFT_RESET (value % 2 ^ 32) = true := by
      intro hoff
      simpa [Op.resets, hoff] using hreset
    unfold step
    dsimp only
    unfold bcm2838_rng200_write
    by_cases hctrl : offset = A_RNG_CTRL
    · rw [if_pos hctrl]
      unfold bcm2838_rng200_ctrl_write
      dsimp only
      split
      · exact h
      · exact h
    rw [if_neg hctrl]
    by_cases hsoft : offset = A_RNG_SOFT_RESET
    · rw [if_pos hsoft, if_neg (hbit hsoft)]
      exact h
    rw [if_neg hsoft]
    split_ifs
    all_goals exact h
  | answer buf =>
    have hreq : s.requests = [] := by simpa using hother
    unfold step
    rw [hreq]
    exact h
  | reset => cases hreset

theorem count_run {wrote : Bool} {s : BCM2838Rng200State} (hcap : s.fifo.length ≤ rng_fifo_cap)
    (h : wrote = false → CountFollows s) (ops : List Op)
    (hops : guest_wrote wrote s ops = false) : CountFollows (ops.foldl step s) := by
  induction ops generalizing wrote s with
  | nil => exact h hops
  | cons op ops ih =>
    apply ih (fifo_step hcap op) _ hops
    intro hwrote
    by_cases hstore : op.stores s = true
    · exact stores_follows hcap hstore
    · simp only [Bool.eq_false_iff.mpr hstore, Bool.not_false, Bool.true_and,
        Bool.or_eq_false_iff] at hwrote
      exact count_step (h hwrote.2) (Bool.eq_false_iff.mpr hstore) hwrote.1

theorem fifo_run {s : BCM2838Rng200State} (hcap : s.fifo.length ≤ rng_fifo_cap) (ops : List Op) :
    (ops.foldl step s).fifo.length ≤ rng_fifo_cap := by
  induction ops generalizing s with
  | nil => exact hcap
  | cons op ops ih => exact ih (fifo_step hcap op)

/-! ## The reader -/

/-- The backend answers in full. -/
def Full (s : BCM2838Rng200State) : Op → Prop
  | .answer buf => ∀ size ∈ s.requests.head?, buf.length = size
  | _ => True

/-- After an answer to an enabled generator the guest reads a whole word, the oldest
    bytes of the FIFO. -/
def Feeds (s : BCM2838Rng200State) : Op → Prop
  | .answer buf => is_rbg_enabled s = true → s.requests ≠ [] →
    let t := step s (.answer buf)
    4 ≤ t.fifo.length ∧ (bytes_out t (.read A_RNG_FIFO_DATA)).length = 4 ∧
      (bcm2838_rng200_read t A_RNG_FIFO_DATA).2 = ldl_le_p (bytes_out t (.read A_RNG_FIFO_DATA))
  | _ => True

/-- There is a word in the FIFO, or the answer to a request for some brings it past the
    threshold's gate. -/
def Fed (s : BCM2838Rng200State) : Op → Prop
  | .answer _ => is_rbg_enabled s = true → ∀ size ∈ s.requests.head?,
    4 ≤ s.fifo.length ∨ 0 < size ∧ below_threshold s (num_taken s size)
  | _ => True

instance (s : BCM2838Rng200State) (op : Op) : Decidable (Full s op) := by
  cases op <;> unfold Full <;> infer_instance

instance (s : BCM2838Rng200State) (op : Op) : Decidable (Fed s op) := by
  cases op <;> unfold Fed <;> infer_instance

/-- The FIFO and the requests are made of whole words. -/
structure Words (s : BCM2838Rng200State) : Prop where
  fifo : s.fifo.length % 4 = 0
  room : s.fifo.length ≤ rng_fifo_cap
  requests : ∀ size ∈ s.requests, size % 4 = 0

theorem Words.free {s : BCM2838Rng200State} (h : Words s) : fifo8_num_free s % 4 = 0 := by
  have hfifo := h.fifo
  have hroom := h.room
  unfold fifo8_num_free rng_fifo_cap at *
  omega

theorem Words.ask {s : BCM2838Rng200State} (h : Words s) {requests : List Nat}
    (hreq : requests = s.requests ∨ requests = s.requests ++ [fifo8_num_free s]) :
    ∀ size ∈ requests, size % 4 = 0 := by
  rcases hreq with rfl | rfl
  · exact h.requests
  · intro size hsize
    rcases List.mem_append.mp hsize with hold | hnew
    · exact h.requests size hold
    · rw [List.mem_singleton.mp hnew]
      exact h.free

/-- The bytes of an answer in full are whole words. -/
theorem Words.bytes_in {s : BCM2838Rng200State} (h : Words s) {op : Op} (hfull : Full s op) :
    (bytes_in s op).length % 4 = 0 := by
  cases op with
  | answer buf =>
    unfold Rng200.bytes_in
    dsimp only
    cases hreq : s.requests with
    | nil => rfl
    | cons size requests =>
      have hsize : size % 4 = 0 := h.requests size (by rw [hreq]; exact List.mem_cons_self)
      have hlen : buf.length = size := hfull size (by rw [hreq]; rfl)
      have hfree := h.free
      dsimp only
      split
      · rw [List.length_take, List.length_take, hlen, Nat.min_self]
        unfold num_taken
        omega
      · rfl
  | _ => rfl

theorem words_step {s : BCM2838Rng200State} (h : Words s) {op : Op} (hfull : Full s op) :
    Words (step s op) := by
  have hqueue := congrArg List.length (queue_step s op)
  rw [List.length_append, List.length_append] at hqueue
  have hin := h.bytes_in hfull
  have hfifo := h.fifo
  by_cases hreset : op.resets = true
  · rw [step_resets s hreset]
    exact ⟨rfl, Nat.zero_le _, h.requests⟩
  refine ⟨?_, fifo_step h.room op, ?_⟩
  · have hout : (bytes_out s op).length % 4 = 0 := by
      unfold bytes_out
      rw [if_neg hreset]
      split
      · split
        · rw [List.length_take]
          omega
        · rfl
      · rfl
    omega
  · cases op with
    | read offset =>
      by_cases hdata : offset = A_RNG_FIFO_DATA
      · subst hdata
        have hpop : Words { s with fifo := s.fifo.drop 4 } := by
          have hroom := h.room
          refine ⟨?_, ?_, h.requests⟩
          · show (s.fifo.drop 4).length % 4 = 0
            rw [List.length_drop]
            omega
          · show (s.fifo.drop 4).length ≤ rng_fifo_cap
            rw [List.length_drop]
            omega
        exact hpop.ask (.inr rfl)
      · rw [read_other s hdata]
        exact h.requests
    | write offset value => exact h.ask (write_keeps s (Bool.eq_false_iff.mpr hreset)).2
    -- The request answered leaves the list; the others were whole words before.
    | answer buf =>
      unfold step
      dsimp only
      cases hreq : s.requests with
      | nil =>
        dsimp only
        rw [hreq]
        exact fun _ hsize => absurd hsize List.not_mem_nil
      | cons size requests =>
        intro k hk
        apply h.requests
        rw [hreq]
        have hkeep : k ∈ requests := by
          dsimp only at hk
          unfold bcm2838_rng200_update_fifo at hk
          dsimp only at hk
          split at hk
          · exact hk
          · exact hk
        exact List.mem_cons_of_mem _ hkeep
    | reset => exact absurd rfl hreset

/-- An answer in full to an enabled generator leaves a word exactly when it is fed. -/
theorem feeds_iff {s : BCM2838Rng200State} (h : Words s) {op : Op} (hfull : Full s op) :
    Feeds s op ↔ Fed s op := by
  cases op with
  | answer buf =>
    cases hreq : s.requests with
    | nil =>
      refine ⟨fun _ _ size hsize => ?_, fun _ _ hne => absurd hreq hne⟩
      rw [hreq] at hsize
      cases hsize
    | cons size requests =>
      have hlen : buf.length = size := hfull size (by rw [hreq]; rfl)
      have hwords := words_step h hfull
      have hfifo := h.fifo
      have hsize : size % 4 = 0 := h.requests size (by rw [hreq]; exact List.mem_cons_self)
      -- the FIFO after the answer
      have hafter : (step s (.answer buf)).fifo.length = s.fifo.length +
          (if below_threshold s (num_taken s size) then num_taken s size else 0) := by
        have hqueue := congrArg List.length (queue_step s (.answer buf))
        have hin : (bytes_in s (.answer buf)).length =
            if below_threshold s (num_taken s size) then num_taken s size else 0 := by
          unfold bytes_in
          rw [hreq]
          dsimp only
          rw [List.take_of_length_le (Nat.le_of_eq hlen), hlen]
          split
          · rw [List.length_take, hlen,
              Nat.min_eq_left (show num_taken s size ≤ size from Nat.min_le_left _ _)]
          · rfl
        have hout : bytes_out s (.answer buf) = [] := rfl
        rw [hout, List.length_append, List.nil_append, hin] at hqueue
        exact hqueue.symm
      have hfree := h.free
      constructor
      · intro hfeeds hen k hk
        rw [hreq] at hk
        obtain rfl := Option.some.inj hk
        have hfour := (hfeeds hen (by rw [hreq]; exact List.cons_ne_nil _ _)).1
        by_cases hfour' : 4 ≤ s.fifo.length
        · exact .inl hfour'
        · right
          rw [hafter] at hfour
          split at hfour
          · rename_i hgate
            refine ⟨?_, hgate⟩
            unfold num_taken at hfour
            omega
          · omega
      · intro hfed hen _
        have hfour : 4 ≤ (step s (.answer buf)).fifo.length := by
          rw [hafter]
          rcases hfed hen size (by rw [hreq]; rfl) with hold | ⟨hpos, hgate⟩
          · omega
          · rw [if_pos hgate]
            unfold num_taken fifo8_num_free rng_fifo_cap at *
            omega
        refine ⟨hfour, ?_, rfl⟩
        show (List.take 4 _).length = 4
        rw [List.length_take]
        omega
  | _ => exact Iff.rfl

/-- What the generator owes its reader, along a run. -/
structure Serves (ops : List Op) : Prop where
  feeds : Along step Feeds (run []) ops
  fresh : ∀ l, l <+: ops →
    outputs step bytes_in (run []) l = outputs step bytes_out (run []) l ++ (run l).fifo
  count : ∀ l, l <+: ops → guest_wrote false (run []) l = false → CountFollows (run l)
  room : ∀ l, l <+: ops → (run l).fifo.length ≤ rng_fifo_cap

/-- **With a backend that answers in full the generator serves its reader exactly when
    every answer finds a word in the FIFO or brings some past the threshold's gate.** -/
theorem serves_iff (ops : List Op) (hfull : Along step Full (run []) ops) :
    Serves ops ↔ Along step Fed (run []) ops := by
  have hwords : Words (run []) := ⟨rfl, Nat.zero_le _, fun _ h => absurd h List.not_mem_nil⟩
  have hfeeds : Along step Feeds (run []) ops ↔ Along step Fed (run []) ops :=
    along_congr (I := Words) (Q := Full) (fun _ _ hs hq _ => words_step hs hq)
      (fun _ _ hs hq => feeds_iff hs hq) hwords hfull
  refine ⟨fun h => hfeeds.mp h.feeds, fun h =>
    ⟨hfeeds.mpr h, fun l _ => fifo_is_queue l, fun l _ hl => ?_, fun l _ => ?_⟩⟩
  · exact count_run (Nat.zero_le _) (fun _ => by unfold CountFollows; decide) l hl
  · exact fifo_run (Nat.zero_le _) l

/-- The guest programs a threshold and enables the generator, and the backend answers. -/
def enabled_run (threshold : Nat) : List Op :=
  [.write A_RNG_TOTAL_BIT_COUNT_THRESHOLD threshold, .write A_RNG_CTRL 1,
    .answer (List.replicate 128 0xa5)]

/-- With Linux's threshold the reader is served at first. -/
theorem first_answer_served : Serves (enabled_run 0x40000) :=
  (serves_iff _ (by decide +kernel)).mpr (by decide +kernel)

/-- With a threshold of 0x100 bits nothing ever reaches it. -/
theorem low_threshold_starves : ¬ ∀ ops, Along step Full (run []) ops → Serves ops := by
  intro hall
  obtain ⟨-, -, hfeeds, -⟩ := (hall (enabled_run 0x100) (by decide +kernel)).feeds
  have hfour := (hfeeds (by decide) (by decide)).1
  revert hfour
  decide +kernel

end Rng200
