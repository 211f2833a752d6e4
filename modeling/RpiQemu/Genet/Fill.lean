import RpiQemu.Genet.Receive
import Mathlib.Combinatorics.Pigeonhole
import Mathlib.Logic.Function.Iterate

/-! # The receive loop on any ring

    `Genet.Receive` follows the frames on rings that a driver programs.  Here
    the registers and the descriptors hold whatever a guest wrote.

    * **Turns**: the loop's turns are told from the registers: where each one
      writes, how much it takes, and whether it is the last
      (`rdma_turns_get`).
    * **Resources**: the loop ends after a single descriptor exactly when the
      frame fits RING_BUF_SIZE or the first transfer fails
      (`rdma_takes_one_desc`).
    * **Bounds**: no index is checked against the descriptors, so the
      registers decide (`rdma_index_bound`). -/

namespace Genet

open Register

/-! ## One turn -/

/-- The index after `i`. -/
def RdmaRing.next_index (r : RdmaRing) (i : Nat) : Nat :=
  if r.end_index < i + 1 then r.start_index else i + 1

/-- The bytes of the frame that a turn takes. -/
def Fill.take_len (f : Fill) (buf : List UInt8) : Nat :=
  min (buf.length - f.len) f.ring.ring_buf_size

/-- The bytes that a turn writes to the guest. -/
def Fill.dma_len (f : Fill) (s : State) (buf : List UInt8) : Nat :=
  min (f.take_len buf + hdr_size s.rbuf_ctrl + crc_size s.umac_cmd) (f.ring.ring_buf_size % 2 ^ 16)

/-- The bytes that a turn takes. -/
def Fill.piece (f : Fill) (buf : List UInt8) : List UInt8 := (buf.drop f.len).take (f.take_len buf)

/-- The receive buffer with the piece in it. -/
def Fill.copied (f : Fill) (s : State) (buf : List UInt8) : Memory :=
  f.rx_packet.write (hdr_size s.rbuf_ctrl) (f.piece buf)

/-- The descriptor's status before the write to the guest. -/
def Fill.status (f : Fill) (s : State) (buf : List UInt8) : Nat :=
  dp MULTICAST
    (dp BROADCAST
      (dp BUFLENGTH
        (dp EOP (f.descs f.write_index).length_status
          (if buf.length ≤ f.len + f.take_len buf then 1 else 0))
        (f.take_len buf + hdr_size s.rbuf_ctrl + crc_size s.umac_cmd))
      (if is_packet_broadcast (f.piece buf) then 1 else 0))
    ((f.copied s buf (hdr_size s.rbuf_ctrl)).toNat % 2)

/-- The receive buffer that is written to the guest. -/
def Fill.staged (f : Fill) (net : Net) (s : State) (buf : List UInt8) : Memory :=
  if s.rbuf_ctrl.testBit 0 then
    status_block net s.rbuf_chk_ctrl (f.piece buf) (f.status s buf) (f.copied s buf)
  else f.copied s buf

/-- The write to the guest succeeds. -/
def Fill.dma_ok (f : Fill) (net : Net) (s : State) (buf : List UInt8) : Bool :=
  net.dma_ok (f.descs f.write_index).address (f.dma_len s buf)

/-- The loop breaks in this turn: the write fails, or the descriptor still has
    the error of an earlier one. -/
def Fill.fails (f : Fill) (net : Net) (s : State) (buf : List UInt8) : Prop :=
  ex RXERR (f.descs f.write_index).length_status ≠ 0 ∨ f.dma_ok net s buf = false

/-- The descriptors after the turn. -/
def Fill.descs_after (f : Fill) (net : Net) (s : State) (buf : List UInt8) : Nat → Desc :=
  update f.descs f.write_index
    { f.descs f.write_index with
      length_status :=
        if f.dma_ok net s buf then f.status s buf else dp RXERR (f.status s buf) 1 }

/-- The guest's memory after the turn. -/
def Fill.mem_after (f : Fill) (net : Net) (s : State) (buf : List UInt8) : Memory :=
  address_space_write net f.mem (f.descs f.write_index).address
    ((f.staged net s buf).read 0 (f.dma_len s buf))

/-- The ring after a turn that does not break. -/
def Fill.ring_after (f : Fill) : RdmaRing :=
  { f.ring with
    prod_index := dp PROD_INDEX f.ring.prod_index (ex PROD_INDEX f.ring.prod_index + 1)
    write_ptr := f.ring.next_index f.write_index * DESC_SIZE_WORDS % 2 ^ 32
    write_ptr_hi := f.ring.next_index f.write_index * DESC_SIZE_WORDS / 2 ^ 32 }

@[simp] theorem ring_after_start_index (f : Fill) :
    f.ring_after.start_index = f.ring.start_index := by
  simp only [RdmaRing.start_index, Fill.ring_after]

@[simp] theorem ring_after_end_index (f : Fill) :
    f.ring_after.end_index = f.ring.end_index := by
  simp only [RdmaRing.end_index, Fill.ring_after]

section

variable {net : Net} {s : State} {buf : List UInt8} {f : Fill}

theorem status_rxerr :
    ex RXERR (f.status s buf) = ex RXERR (f.descs f.write_index).length_status := by
  unfold Fill.status
  rw [ex_dp_of_disjoint (by decide), ex_dp_of_disjoint (by decide),
    ex_dp_of_disjoint (by decide), ex_dp_of_disjoint (by decide)]

theorem mem_after_of_ok (h : f.dma_ok net s buf = true) :
    f.mem_after net s buf =
      f.mem.write (f.descs f.write_index).address
        ((f.staged net s buf).read 0 (f.dma_len s buf)) := by
  unfold Fill.mem_after address_space_write
  rw [Memory.read_length]
  exact if_pos h

/-- A turn that breaks. -/
theorem rdma_turn_fails (h : f.fails net s buf) :
    rdma_turn net s buf f =
      ({ f with
         descs := f.descs_after net s buf
         rx_packet := f.staged net s buf
         mem := f.mem_after net s buf
         len := f.len + f.take_len buf }, false) := by
  have hrx : ex RXERR (if f.dma_ok net s buf then f.status s buf
      else dp RXERR (f.status s buf) 1) ≠ 0 := by
    by_cases hok : f.dma_ok net s buf = true
    · rw [if_pos hok, status_rxerr]
      rcases h with h | h
      · exact h
      · exact absurd hok (by simp [h])
    · rw [if_neg hok, ex_dp]
      decide
  exact if_pos hrx

/-- A turn that goes on. -/
theorem rdma_turn_goes (h : ¬ f.fails net s buf) :
    rdma_turn net s buf f =
      ({ descs := f.descs_after net s buf
         ring := f.ring_after
         rx_packet := f.staged net s buf
         mem := f.mem_after net s buf
         write_index := f.ring.next_index f.write_index
         len := f.len + f.take_len buf }, true) := by
  have hrx : ¬ ex RXERR (if f.dma_ok net s buf then f.status s buf
      else dp RXERR (f.status s buf) 1) ≠ 0 := by
    intro hne
    apply h
    by_cases hok : f.dma_ok net s buf = true
    · rw [if_pos hok, status_rxerr] at hne
      exact .inl hne
    · exact .inr (by simpa using hok)
  exact if_neg hrx

theorem rdma_turn_goes_iff : (rdma_turn net s buf f).2 = true ↔ ¬ f.fails net s buf := by
  by_cases h : f.fails net s buf
  · simp [rdma_turn_fails h, h]
  · simp [rdma_turn_goes h, h]

end

/-! ## The turns, told from the registers -/

/-- The loop's variables at its start: the descriptor at `write_ptr` has SOP
    set. -/
def fill_start (s : State) (r : Nat) : Fill :=
  let ring := s.rdma.rings r
  let desc := s.rdma.descs ring.write_index
  { descs := update s.rdma.descs ring.write_index
      { desc with length_status := dp SOP desc.length_status 1 }
    ring := ring
    rx_packet := s.rx_packet
    mem := s.mem
    write_index := ring.write_index
    len := 0 }

/-- The variables at the start of each turn of `rdma_loop`. -/
def rdma_turns (net : Net) (s : State) (buf : List UInt8) : Nat → Fill → List Fill
  | 0, _ => []
  | fuel + 1, f =>
    if f.len < buf.length then
      let r := rdma_turn net s buf f
      f :: if r.2 then rdma_turns net s buf fuel r.1 else []
    else []

theorem rdma_turns_length (net : Net) (s : State) (buf : List UInt8) (fuel : Nat) (f : Fill) :
    (rdma_turns net s buf fuel f).length ≤ fuel := by
  induction fuel generalizing f with
  | zero => exact Nat.le_refl 0
  | succ fuel ih =>
    simp only [rdma_turns]
    split
    · split
      · exact Nat.succ_le_succ (ih _)
      · exact Nat.succ_le_succ (Nat.zero_le _)
    · exact Nat.zero_le _

/-- The index of the `i`-th turn. -/
def rx_index (s : State) (r i : Nat) : Nat :=
  (s.rdma.rings r).next_index^[i] (s.rdma.rings r).write_index

theorem rx_index_zero (s : State) (r : Nat) :
    rx_index s r 0 = (s.rdma.rings r).write_index :=
  Function.iterate_zero_apply _ _

theorem rx_index_succ (s : State) (r i : Nat) :
    rx_index s r (i + 1) = (s.rdma.rings r).next_index (rx_index s r i) :=
  Function.iterate_succ_apply' _ _ _

/-- The bytes that the `i`-th turn writes to the guest. -/
def rx_dma_len (s : State) (r : Nat) (buf : List UInt8) (i : Nat) : Nat :=
  let size := (s.rdma.rings r).ring_buf_size
  min (min (buf.length - i * size) size + hdr_size s.rbuf_ctrl + crc_size s.umac_cmd)
    (size % 2 ^ 16)

/-- The `i`-th turn breaks. -/
def RxFails (net : Net) (s : State) (r : Nat) (buf : List UInt8) (i : Nat) : Prop :=
  ex RXERR (s.rdma.descs (rx_index s r i)).length_status ≠ 0 ∨
    net.dma_ok (s.rdma.descs (rx_index s r i)).address (rx_dma_len s r buf i) = false

/-- The loop takes its `i`-th turn: bytes are left and no turn before it
    breaks. -/
def RxReached (net : Net) (s : State) (r : Nat) (buf : List UInt8) (i : Nat) : Prop :=
  i * (s.rdma.rings r).ring_buf_size < buf.length ∧ ∀ j < i, ¬ RxFails net s r buf j

/-- A descriptor's new status leaves the addresses as they were. -/
theorem update_status_address (descs : Nat → Desc) (i st j : Nat) :
    (update descs i { descs i with length_status := st } j).address = (descs j).address := by
  by_cases hj : j = i
  · subst hj
    rw [update_self, Desc.address_mk]
  · rw [update_of_ne _ _ hj]

/-- A new status with the old error leaves the errors as they were. -/
theorem update_status_rxerr (descs : Nat → Desc) (i : Nat) {st : Nat} (j : Nat)
    (h : ex RXERR st = ex RXERR (descs i).length_status) :
    ex RXERR (update descs i { descs i with length_status := st } j).length_status =
      ex RXERR (descs j).length_status := by
  by_cases hj : j = i
  · subst hj
    rw [update_self]
    exact h
  · rw [update_of_ne _ _ hj]

/-- The variables at the start of the `i`-th turn. -/
structure FillAt (s : State) (r : Nat) (buf : List UInt8) (i : Nat) (f : Fill) : Prop where
  ring_buf_size : f.ring.ring_buf_size = (s.rdma.rings r).ring_buf_size
  start_index : f.ring.start_index = (s.rdma.rings r).start_index
  end_index : f.ring.end_index = (s.rdma.rings r).end_index
  write_index : f.write_index = rx_index s r i
  len : f.len = min (i * (s.rdma.rings r).ring_buf_size) buf.length
  address : ∀ j, (f.descs j).address = (s.rdma.descs j).address
  rxerr : ∀ j, ex RXERR (f.descs j).length_status = ex RXERR (s.rdma.descs j).length_status

section

variable {net : Net} {s : State} {r : Nat} {buf : List UInt8} {f : Fill} {i : Nat}

theorem fill_start_at (s : State) (r : Nat) (buf : List UInt8) :
    FillAt s r buf 0 (fill_start s r) where
  ring_buf_size := rfl
  start_index := rfl
  end_index := rfl
  write_index := (rx_index_zero s r).symm
  len := by simp [fill_start]
  address := fun j => update_status_address _ _ _ j
  rxerr := fun j => update_status_rxerr _ _ j (ex_dp_of_disjoint (by decide) _ _)

theorem FillAt.fails_iff (h : FillAt s r buf i f)
    (hi : i * (s.rdma.rings r).ring_buf_size < buf.length) :
    f.fails net s buf ↔ RxFails net s r buf i := by
  have hlen : f.len = i * (s.rdma.rings r).ring_buf_size := by
    rw [h.len]
    omega
  have hdma : f.dma_len s buf = rx_dma_len s r buf i := by
    unfold Fill.dma_len Fill.take_len rx_dma_len
    rw [hlen, h.ring_buf_size]
  unfold Fill.fails Fill.dma_ok RxFails
  rw [h.write_index, h.rxerr, h.address, hdma]

theorem FillAt.no_fail (h : FillAt s r buf i f)
    (hi : i * (s.rdma.rings r).ring_buf_size < buf.length)
    (hbefore : ∀ j < i, ¬ RxFails net s r buf j) (hgo : ¬ f.fails net s buf) :
    ∀ j < i + 1, ¬ RxFails net s r buf j := by
  intro j hj
  by_cases hji : j = i
  · subst hji
    rwa [← h.fails_iff hi]
  · exact hbefore j (by omega)

/-- A turn that goes on leads to the next one. -/
theorem FillAt.turn (h : FillAt s r buf i f) (hgo : ¬ f.fails net s buf) :
    FillAt s r buf (i + 1) (rdma_turn net s buf f).1 := by
  rw [rdma_turn_goes hgo]
  have hok : f.dma_ok net s buf = true := by
    by_contra hno
    exact hgo (.inr (by simpa using hno))
  refine ⟨h.ring_buf_size, ?_, ?_, ?_, ?_, ?_, ?_⟩
  · rw [ring_after_start_index, h.start_index]
  · rw [ring_after_end_index, h.end_index]
  · rw [rx_index_succ, ← h.write_index]
    simp only [RdmaRing.next_index, h.start_index, h.end_index]
  · simp only [Fill.take_len, h.len, h.ring_buf_size, Nat.add_mul]
    omega
  · intro j
    rw [← h.address]
    exact update_status_address _ _ _ j
  · intro j
    rw [← h.rxerr]
    simp only [Fill.descs_after, if_pos hok]
    exact update_status_rxerr _ _ j status_rxerr

/-- The turns of the loop are those that the registers tell. -/
theorem rdma_turns_get (h : FillAt s r buf i f) (hbefore : ∀ j < i, ¬ RxFails net s r buf j)
    {fuel k : Nat} (hk : k < fuel) :
    (RxReached net s r buf (i + k) →
      ∃ f', (rdma_turns net s buf fuel f)[k]? = some f' ∧ FillAt s r buf (i + k) f') ∧
    (¬ RxReached net s r buf (i + k) → (rdma_turns net s buf fuel f)[k]? = none) := by
  induction fuel generalizing f i k with
  | zero => omega
  | succ fuel ih =>
    rw [rdma_turns]
    by_cases hlt : f.len < buf.length
    · have hi : i * (s.rdma.rings r).ring_buf_size < buf.length := by
        have := h.len
        omega
      rw [if_pos hlt]
      cases k with
      | zero => exact ⟨fun _ => ⟨f, rfl, h⟩, fun hno => absurd ⟨hi, hbefore⟩ hno⟩
      | succ k =>
        rw [List.getElem?_cons_succ]
        by_cases hfails : f.fails net s buf
        · -- the loop breaks: no later turn is reached
          have hno : ¬ RxReached net s r buf (i + (k + 1)) := fun hr =>
            hr.2 i (by omega) ((h.fails_iff hi).mp hfails)
          simp only [rdma_turn_fails hfails, Bool.false_eq_true, if_false]
          exact ⟨fun hr => absurd hr hno, fun _ => rfl⟩
        · have hgo : (rdma_turn net s buf f).2 = true := rdma_turn_goes_iff.mpr hfails
          have hrec := ih (h.turn hfails) (h.no_fail hi hbefore hfails) (k := k) (by omega)
          simp only [hgo, if_true]
          rwa [show i + 1 + k = i + (k + 1) by omega] at hrec
    · -- nothing is left
      have hno : ¬ RxReached net s r buf (i + k) := by
        intro hr
        have h₁ := hr.1
        have h₂ := h.len
        rw [Nat.add_mul] at h₁
        omega
      rw [if_neg hlt]
      exact ⟨fun hr => absurd hr hno, fun _ => rfl⟩

end

/-! ## The end of the loop -/

section

variable {net : Net} {s : State} {r : Nat} {buf : List UInt8} {f : Fill} {i : Nat}

/-- The loop returns once a turn is not reached. -/
theorem rdma_loop_isSome (h : FillAt s r buf i f) (hbefore : ∀ j < i, ¬ RxFails net s r buf j)
    {fuel k : Nat} (hk : k < fuel) (hno : ¬ RxReached net s r buf (i + k)) :
    (rdma_loop net s buf fuel f).isSome = true := by
  induction fuel generalizing f i k with
  | zero => omega
  | succ fuel ih =>
    rw [rdma_loop]
    by_cases hlt : f.len < buf.length
    · have hi : i * (s.rdma.rings r).ring_buf_size < buf.length := by
        have := h.len
        omega
      rw [if_pos hlt]
      by_cases hfails : f.fails net s buf
      · simp only [rdma_turn_fails hfails, Bool.false_eq_true, if_false, Option.isSome_some]
      · have hgo : (rdma_turn net s buf f).2 = true := rdma_turn_goes_iff.mpr hfails
        simp only [hgo, if_true]
        cases k with
        | zero => exact absurd ⟨hi, hbefore⟩ hno
        | succ k =>
          apply ih (h.turn hfails) (h.no_fail hi hbefore hfails) (k := k) (by omega)
          rwa [show i + 1 + k = i + (k + 1) by omega]
    · rw [if_neg hlt, Option.isSome_some]

/-- While every turn is reached the loop does not return. -/
theorem rdma_loop_eq_none (h : FillAt s r buf i f) (hall : ∀ k, RxReached net s r buf k)
    (fuel : Nat) : rdma_loop net s buf fuel f = none := by
  induction fuel generalizing f i with
  | zero => rfl
  | succ fuel ih =>
    have hi := (hall i).1
    have hlt : f.len < buf.length := by
      rw [h.len]
      omega
    have hfails : ¬ f.fails net s buf := by
      rw [h.fails_iff hi]
      exact (hall (i + 1)).2 i (by omega)
    have hgo : (rdma_turn net s buf f).2 = true := rdma_turn_goes_iff.mpr hfails
    rw [rdma_loop, if_pos hlt]
    simp only [hgo, if_true]
    exact ih (h.turn hfails)

/-- The loop ends exactly when some turn is not reached. -/
theorem rdma_loop_ends_iff :
    (∃ fuel, (rdma_loop net s buf fuel (fill_start s r)).isSome = true) ↔
      ∃ k, ¬ RxReached net s r buf k := by
  constructor
  · rintro ⟨fuel, hsome⟩
    by_contra hall
    have hnone := rdma_loop_eq_none (fill_start_at s r buf)
      (fun k => not_not.mp fun hno => hall ⟨k, hno⟩) fuel
    rw [hnone] at hsome
    exact absurd hsome Bool.false_ne_true
  · rintro ⟨k, hno⟩
    refine ⟨k + 1, rdma_loop_isSome (fill_start_at s r buf) (by omega) (Nat.lt_succ_self k) ?_⟩
    rwa [Nat.zero_add]

end

/-! ## `rdma` has fuel enough -/

/-- What an iteration below a bound ever reaches, it reaches in as many
    steps. -/
theorem exists_lt_iterate_eq {f : Nat → Nat} {x bound : Nat} (h : ∀ i, f^[i] x < bound) (j : Nat) :
    ∃ i < bound, f^[i] x = f^[j] x := by
  induction j using Nat.strong_induction_on with
  | _ j ih =>
    by_cases hj : j < bound
    · exact ⟨j, hj, rfl⟩
    · -- two of the first steps meet, so the steps from there on repeat
      have hcard : (Finset.range bound).card < (Finset.range (bound + 1)).card := by simp
      obtain ⟨a, ha, b, hb, hne, heq⟩ := Finset.exists_ne_map_eq_of_card_lt_of_maps_to hcard
        (f := fun i => f^[i] x) (fun i _ => by simpa using h i)
      wlog hab : a < b generalizing a b
      · exact this b hb a ha (Ne.symm hne) heq.symm (by omega)
      have hb' : b ≤ bound := by simpa [Nat.lt_succ_iff] using hb
      obtain ⟨i, hi, hieq⟩ := ih (j - b + a) (by omega)
      refine ⟨i, hi, ?_⟩
      have hstep : f^[j - b + b] x = f^[j - b + a] x := by
        rw [Function.iterate_add_apply, Function.iterate_add_apply]
        exact congrArg _ heq.symm
      rw [hieq, ← hstep, Nat.sub_add_cancel (by omega)]

section

variable {net : Net} {s : State} {r : Nat} {buf : List UInt8}

theorem rx_index_le (s : State) (r i : Nat) : rx_index s r i ≤ (s.rdma.rings r).index_bound := by
  induction i with
  | zero =>
    rw [rx_index_zero]
    exact le_max_left _ _
  | succ i ih =>
    rw [rx_index_succ, RdmaRing.next_index]
    have hstart : (s.rdma.rings r).start_index ≤ (s.rdma.rings r).index_bound :=
      le_trans (le_max_left _ _) (le_max_right _ _)
    have hend : (s.rdma.rings r).end_index ≤ (s.rdma.rings r).index_bound :=
      le_trans (le_max_right _ _) (le_max_right _ _)
    split
    · exact hstart
    · omega

/-- A loop that ends does so within the fuel of `rdma`. -/
theorem exists_not_reached (h : ∃ k, ¬ RxReached net s r buf k) :
    ∃ k < buf.length + (s.rdma.rings r).index_bound + 2, ¬ RxReached net s r buf k := by
  by_cases hsize : (s.rdma.rings r).ring_buf_size = 0
  · obtain ⟨k, hk⟩ := h
    by_cases hempty : buf.length = 0
    · refine ⟨0, by omega, fun hr => ?_⟩
      have := hr.1
      omega
    · -- a turn that breaks is met in the first round through the ring
      have hlen : ∀ i, rx_dma_len s r buf i = 0 := by
        intro i
        simp [rx_dma_len, hsize]
      have hfails : ∃ j, RxFails net s r buf j := by
        by_contra hno
        apply hk
        refine ⟨by rw [hsize]; omega, fun j _ hj => hno ⟨j, hj⟩⟩
      obtain ⟨j, hj⟩ := hfails
      obtain ⟨i, hi, hieq⟩ := exists_lt_iterate_eq
        (fun i => Nat.lt_succ_of_le (rx_index_le s r i)) j
      refine ⟨i + 1, by omega, fun hr => hr.2 i (Nat.lt_succ_self i) ?_⟩
      have hix : rx_index s r i = rx_index s r j := hieq
      unfold RxFails at hj ⊢
      rw [hlen] at hj ⊢
      rwa [hix]
  · refine ⟨buf.length, by omega, fun hr => ?_⟩
    have h₁ := hr.1
    have h₂ : buf.length * 1 ≤ buf.length * (s.rdma.rings r).ring_buf_size :=
      Nat.mul_le_mul_left _ (by omega)
    omega

/-- `rdma` fails to return exactly when its loop does. -/
theorem rdma_isSome_iff (hactive : rdma_ring_active s r = true) :
    (rdma net s r buf).isSome = true ↔
      ∃ fuel, (rdma_loop net s buf fuel (fill_start s r)).isSome = true := by
  have hrdma : (rdma net s r buf).isSome =
      (rdma_loop net s buf (buf.length + (s.rdma.rings r).index_bound + 2)
        (fill_start s r)).isSome := by
    rw [rdma, if_pos hactive]
    exact Option.isSome_map
  rw [hrdma]
  constructor
  · exact fun h => ⟨_, h⟩
  · intro h
    obtain ⟨k, hk, hno⟩ := exists_not_reached (rdma_loop_ends_iff.mp h)
    exact rdma_loop_isSome (fill_start_at s r buf) (by omega) hk (by rwa [Nat.zero_add])

end

/-! ## Resources and bounds -/

/-- `bcm2838_genet_receive` gives the frame to the loop. -/
structure Filling (s : State) (buf : List UInt8) : Prop where
  enabled : ex DMA_CTRL_EN s.rdma.ctrl ≠ 0
  active : rdma_ring_active s (default_rx_ring s) = true
  free : rdma_free_descs s (default_rx_ring s) ≠ 0
  max : buf.length ≤ MAX_PACKET_SIZE

/-- The loop ends, and fills one descriptor at the most, which is free. -/
def TakesOneDesc (net : Net) (s : State) (buf : List UInt8) : Prop :=
  ∃ fuel, (rdma_loop net s buf fuel (fill_start s (default_rx_ring s))).isSome = true ∧
    (rdma_turns net s buf fuel (fill_start s (default_rx_ring s))).length ≤
      rdma_free_descs s (default_rx_ring s) ∧
    (rdma_turns net s buf fuel (fill_start s (default_rx_ring s))).length ≤ 1

/-- The indices of the descriptors that `rdma` uses in its first turns: that
    of SOP, and those of the turns. -/
def rdma_indices (net : Net) (s : State) (buf : List UInt8) (fuel : Nat) : List Nat :=
  (s.rdma.rings (default_rx_ring s)).write_index ::
    (rdma_turns net s buf fuel (fill_start s (default_rx_ring s))).map Fill.write_index

/-- A frame takes one descriptor exactly when it fits RING_BUF_SIZE or its
    first transfer fails.  Otherwise it takes more, whether they are free or
    not, and for ever when RING_BUF_SIZE is 0 and no transfer fails. -/
theorem rdma_takes_one_desc (net : Net) (s : State) {buf : List UInt8} (hne : 0 < buf.length) :
    (Filling s buf → TakesOneDesc net s buf) ↔
      (Filling s buf →
        buf.length ≤ (s.rdma.rings (default_rx_ring s)).ring_buf_size ∨
          RxFails net s (default_rx_ring s) buf 0) := by
  unfold TakesOneDesc
  have hsub := @Filling.free s buf
  generalize default_rx_ring s = r at hsub ⊢
  have hstart := fill_start_at s r buf
  have hnone : ∀ j < 0, ¬ RxFails net s r buf j := by omega
  constructor
  · rintro h hfill
    obtain ⟨fuel, hsome, -, hone⟩ := h hfill
    by_contra hcond
    obtain ⟨hlong, hgo⟩ := not_or.mp hcond
    have hreached : RxReached net s r buf 1 := by
      refine ⟨by omega, fun j hj => ?_⟩
      rwa [show j = 0 by omega]
    -- with the second turn reached, the fuel covers it
    have hfuel : 1 < fuel := by
      by_contra hle
      have hlen := hstart.len
      have hfails : ¬ (fill_start s r).fails net s buf := by
        rwa [hstart.fails_iff (by omega)]
      rcases (by omega : fuel = 0 ∨ fuel = 1) with rfl | rfl
      · exact absurd hsome Bool.false_ne_true
      · rw [rdma_loop, if_pos (by omega)] at hsome
        simp only [rdma_turn_goes hfails, if_true] at hsome
        exact absurd hsome Bool.false_ne_true
    obtain ⟨f, hf, -⟩ := (rdma_turns_get hstart hnone hfuel).1 (by rwa [Nat.zero_add])
    obtain ⟨hlt, -⟩ := List.getElem?_eq_some_iff.mp hf
    omega
  · intro h hfill
    have hno : ¬ RxReached net s r buf (0 + 1) := by
      intro hreached
      rcases h hfill with hfits | hfails
      · have := hreached.1
        omega
      · exact hreached.2 0 (by omega) hfails
    have hone : (rdma_turns net s buf 2 (fill_start s r)).length ≤ 1 :=
      List.getElem?_eq_none_iff.mp ((rdma_turns_get hstart hnone (by omega)).2 hno)
    have hfree := hsub hfill
    exact ⟨2, rdma_loop_isSome hstart hnone (by omega) hno, by omega, hone⟩

theorem two_descs_filling : Filling two_descs [1, 2, 3] :=
  ⟨by decide, by decide, by decide, by decide⟩

/-- A frame that fits takes one descriptor. -/
theorem fitting_frame_takes_one_desc :
    0 < [(1 : UInt8), 2, 3].length ∧ TakesOneDesc plain_net two_descs [1, 2, 3] :=
  ⟨by decide, (rdma_takes_one_desc plain_net two_descs (by decide)).mpr
    (fun _ => .inl (by decide)) two_descs_filling⟩

/-- The receive ring with RING_BUF_SIZE 0. -/
def unsized_ring : State :=
  { two_descs with
    rdma :=
      { two_descs.rdma with rings := fun _ => ⟨0, 0, 0xFFFF, 0xFFFF, 0, 0, 0, 5, 0⟩ } }

/-- A frame of one byte never gets anywhere in a ring whose buffers have no
    size. -/
theorem unsized_ring_loops :
    Filling unsized_ring [1] ∧ ¬ TakesOneDesc plain_net unsized_ring [1] := by
  refine ⟨⟨by decide, by decide, by decide, by decide⟩, ?_⟩
  rintro ⟨fuel, hsome, -⟩
  obtain ⟨k, hk⟩ := rdma_loop_ends_iff.mp ⟨fuel, hsome⟩
  apply hk
  refine ⟨Nat.zero_lt_one, ?_⟩
  rintro j - (hrxerr | hdma)
  · exact hrxerr (by decide : ex RXERR 0 = 0)
  · exact Bool.noConfusion hdma

/-- Every index is below 256 exactly when the registers lead the turns to such
    indices only. -/
theorem rdma_index_bound (net : Net) (s : State) (buf : List UInt8) :
    (Filling s buf → ∀ fuel, ∀ i ∈ rdma_indices net s buf fuel, i < DMA_DESC_CNT) ↔
      (Filling s buf →
        rx_index s (default_rx_ring s) 0 < DMA_DESC_CNT ∧
        ∀ i, RxReached net s (default_rx_ring s) buf i →
          rx_index s (default_rx_ring s) i < DMA_DESC_CNT) := by
  unfold rdma_indices
  generalize hr : default_rx_ring s = r
  have hstart := fill_start_at s r buf
  have hnone : ∀ j < 0, ¬ RxFails net s r buf j := by omega
  apply imp_congr_right
  intro _
  constructor
  · intro h
    refine ⟨?_, fun i hi => ?_⟩
    · rw [rx_index_zero]
      exact h 0 _ List.mem_cons_self
    · have hget := @rdma_turns_get net s r buf _ 0 hstart hnone (i + 1) i (Nat.lt_succ_self i)
      rw [Nat.zero_add] at hget
      obtain ⟨f, hf, hat⟩ := hget.1 hi
      rw [← hat.write_index]
      apply h (i + 1)
      exact List.mem_cons_of_mem _ (List.mem_map_of_mem (List.mem_of_getElem? hf))
  · rintro ⟨hzero, hall⟩ fuel j hj
    rcases List.mem_cons.mp hj with rfl | hj
    · rwa [← rx_index_zero]
    · obtain ⟨f, hf, rfl⟩ := List.mem_map.mp hj
      obtain ⟨k, hk⟩ := List.mem_iff_getElem?.mp hf
      by_cases hfuel : k < fuel
      · have hget := @rdma_turns_get net s r buf _ 0 hstart hnone fuel k hfuel
        rw [Nat.zero_add] at hget
        by_cases hreached : RxReached net s r buf k
        · obtain ⟨f', hf', hat⟩ := hget.1 hreached
          rw [hk] at hf'
          obtain rfl := Option.some.inj hf'
          rw [hat.write_index]
          exact hall k hreached
        · rw [hget.2 hreached] at hk
          exact absurd hk (by simp)
      · have hlen := rdma_turns_length net s buf fuel (fill_start s r)
        obtain ⟨hlt, -⟩ := List.getElem?_eq_some_iff.mp hk
        omega

/-- The indices that a frame uses are those of descriptors. -/
def InDescs (net : Net) (s : State) (buf : List UInt8) : Prop :=
  let r := default_rx_ring s
  Filling s buf →
    rx_index s r 0 < DMA_DESC_CNT ∧
      ∀ i, RxReached net s r buf i → rx_index s r i < DMA_DESC_CNT

/-- The receive ring with `write_ptr` behind the last descriptor. -/
def stray_ring : State :=
  { two_descs with
    rdma :=
      { two_descs.rdma with rings := fun _ => ⟨768, 0, 0xFFFF, 0xFFFF, 2048, 0, 0, 5, 0⟩ } }

/-- A frame goes into the descriptor with index 256. -/
theorem stray_ring_leaves_descs :
    Filling stray_ring [1] ∧
      ¬ ∀ fuel, ∀ i ∈ rdma_indices plain_net stray_ring [1] fuel, i < DMA_DESC_CNT := by
  refine ⟨⟨by decide, by decide, by decide, by decide⟩, fun h => ?_⟩
  exact absurd (h 0 _ List.mem_cons_self) (by decide)

end Genet
