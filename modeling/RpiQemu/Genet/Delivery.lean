import RpiQemu.Genet.Fill
import RpiQemu.Genet.Registers

/-! # Frames that are delivered

    A frame is delivered when the loop runs through all of its pieces.  It
    breaks at a piece whose write to the guest fails; but it also breaks at a
    descriptor that still has the error of an earlier frame, since nothing of
    the device ever takes RXERR back.

    * **The rule**: what every turn keeps holds after the turns before the end
      or the break (`rdma_loop_reaches`).
    * **Runs**: at every frame of a run, the frame's own writes decide about
      its delivery exactly when no descriptor it uses has an old error, as
      long as it uses descriptors only (`own_writes_decide`). -/

namespace Genet

open Register

/-! ## The turns of a frame -/

/-- The turns that a frame needs. -/
def rx_pieces (s : State) (r : Nat) (buf : List UInt8) : Nat :=
  (buf.length + (s.rdma.rings r).ring_buf_size - 1) / (s.rdma.rings r).ring_buf_size

section

variable {net : Net} {s : State} {r : Nat} {buf : List UInt8}

theorem lt_rx_pieces (hsize : 0 < (s.rdma.rings r).ring_buf_size ∨ buf.length = 0) (i : Nat) :
    i < rx_pieces s r buf ↔ i * (s.rdma.rings r).ring_buf_size < buf.length := by
  unfold rx_pieces
  by_cases hpos : 0 < (s.rdma.rings r).ring_buf_size
  · rw [Nat.lt_iff_add_one_le, Nat.le_div_iff_mul_le hpos, Nat.add_mul]
    omega
  · have hzero : (s.rdma.rings r).ring_buf_size = 0 := by omega
    rw [hzero, Nat.div_zero]
    omega

theorem rx_pieces_le (hsize : 0 < (s.rdma.rings r).ring_buf_size ∨ buf.length = 0) :
    rx_pieces s r buf ≤ buf.length := by
  by_contra hlt
  have h := (@lt_rx_pieces s r buf hsize buf.length).mp (by omega)
  rcases hsize with hpos | hempty
  · have hle := Nat.le_mul_of_pos_right buf.length hpos
    omega
  · omega

/-- What every turn that goes on keeps, holds when the turns up to the `k`-th
    have gone on; and the loop is at its `k`-th turn then. -/
theorem rdma_loop_reaches {P : Nat → Fill → Prop} (hstart : P 0 (fill_start s r))
    (hturn : ∀ i f, FillAt s r buf i f → P i f → i * (s.rdma.rings r).ring_buf_size < buf.length →
      ¬ f.fails net s buf → P (i + 1) (rdma_turn net s buf f).1)
    {k : Nat} (hk : ∀ i < k, i * (s.rdma.rings r).ring_buf_size < buf.length ∧
      ¬ RxFails net s r buf i) (fuel : Nat) :
    ∃ f, FillAt s r buf k f ∧ P k f ∧
      rdma_loop net s buf (fuel + k) (fill_start s r) = rdma_loop net s buf fuel f := by
  induction k generalizing fuel with
  | zero => exact ⟨fill_start s r, fill_start_at s r buf, hstart, rfl⟩
  | succ k ih =>
    obtain ⟨f, hat, hP, hloop⟩ := ih (fun i hi => hk i (by omega)) (fuel + 1)
    obtain ⟨hi, hok⟩ := hk k (by omega)
    have hgo : ¬ f.fails net s buf := by rwa [hat.fails_iff hi]
    have hlt : f.len < buf.length := by
      rw [hat.len]
      omega
    refine ⟨_, hat.turn hgo, hturn k f hat hP hi hgo, ?_⟩
    rw [show fuel + (k + 1) = fuel + 1 + k by omega, hloop, rdma_loop, if_pos hlt]
    simp only [rdma_turn_goes_iff.mpr hgo, if_true]

/-- The ring's registers at the start of the `i`-th turn. -/
structure RingAt (s : State) (r i : Nat) (f : Fill) : Prop where
  prod_index : ex PROD_INDEX f.ring.prod_index =
    (ex PROD_INDEX (s.rdma.rings r).prod_index + i) % 2 ^ 16
  write_ptr : f.ring.write_index = f.write_index

theorem ring_start (s : State) (r : Nat) : RingAt s r 0 (fill_start s r) where
  prod_index := (Nat.mod_eq_of_lt (ex_lt (s.rdma.rings r).prod_index)).symm
  write_ptr := rfl

theorem ring_after_write_index (f : Fill) :
    f.ring_after.write_index = f.ring.next_index f.write_index := by
  simp only [RdmaRing.write_index, Fill.ring_after, wide_split, DESC_SIZE_WORDS]
  omega

theorem RingAt.turn {i : Nat} {f : Fill} (h : RingAt s r i f) (hgo : ¬ f.fails net s buf) :
    RingAt s r (i + 1) (rdma_turn net s buf f).1 := by
  rw [rdma_turn_goes hgo]
  refine ⟨?_, ring_after_write_index f⟩
  simp only [Fill.ring_after, ex_dp, h.prod_index]
  rw [show 2 ^ PROD_INDEX.length = 2 ^ 16 from rfl]
  omega

end

/-! ## Delivery -/

/-- Every write to the guest that the frame needs succeeds. -/
def OwnWrites (net : Net) (s : State) (buf : List UInt8) : Prop :=
  let r := default_rx_ring s
  ∀ i, i * (s.rdma.rings r).ring_buf_size < buf.length →
    net.dma_ok (s.rdma.descs (rx_index s r i)).address (rx_dma_len s r buf i) = true

/-- No descriptor that the frame needs has an error from before. -/
def NoOldError (s : State) (buf : List UInt8) : Prop :=
  let r := default_rx_ring s
  ∀ i, i * (s.rdma.rings r).ring_buf_size < buf.length →
    ex RXERR (s.rdma.descs (rx_index s r i)).length_status = 0

/-- The frame is received: PROD_INDEX and `write_ptr` advance by its
    descriptors, and none of them reports an error. -/
def Delivered (net : Net) (s : State) (buf : List UInt8) : Prop :=
  let r := default_rx_ring s
  ∃ s', receive net s buf = some ((buf.length : Int), s') ∧
    ex PROD_INDEX (s'.rdma.rings r).prod_index =
      (ex PROD_INDEX (s.rdma.rings r).prod_index + rx_pieces s r buf) % 2 ^ 16 ∧
    (s'.rdma.rings r).write_index = rx_index s r (rx_pieces s r buf) ∧
    ∀ i < rx_pieces s r buf, ex RXERR (s'.rdma.descs (rx_index s r i)).length_status = 0

section

variable {net : Net} {s : State} {buf : List UInt8}

/-- A frame given to the loop. -/
theorem receive_filling (h : Filling s buf) :
    receive net s buf =
      (rdma_loop net s buf
          (buf.length + (s.rdma.rings (default_rx_ring s)).index_bound + 2)
          (fill_start s (default_rx_ring s))).map
        (fun f => ((f.len : Int), set_irq (rdma_done s (default_rx_ring s) f))) := by
  have hroom : ¬ (rdma_ring_active s (default_rx_ring s) &&
      rdma_free_descs s (default_rx_ring s) == 0) = true := by
    have := h.free
    simp only [Bool.and_eq_true, beq_iff_eq]
    omega
  rw [receive, if_pos h.enabled]
  simp only
  rw [if_neg hroom, if_pos h.max, rdma, if_pos h.active, Option.map_map]
  rfl

/-- The loop runs through all pieces, and the frame is delivered. -/
theorem delivered_of_clean (h : Filling s buf)
    (hsize : 0 < (s.rdma.rings (default_rx_ring s)).ring_buf_size ∨ buf.length = 0)
    (hown : OwnWrites net s buf) (hclean : NoOldError s buf) : Delivered net s buf := by
  unfold Delivered
  rw [receive_filling h]
  unfold OwnWrites at hown
  unfold NoOldError at hclean
  generalize default_rx_ring s = r at *
  simp only at hown hclean ⊢
  generalize hn : rx_pieces s r buf = n
  have hlt : ∀ i, i < n ↔ i * (s.rdma.rings r).ring_buf_size < buf.length := by
    intro i
    rw [← hn]
    exact lt_rx_pieces hsize i
  have hturns : ∀ i < n, i * (s.rdma.rings r).ring_buf_size < buf.length ∧
      ¬ RxFails net s r buf i := by
    intro i hi
    have hbytes := (hlt i).mp hi
    refine ⟨hbytes, ?_⟩
    rintro (herr | hdma)
    · exact herr (hclean i hbytes)
    · rw [hown i hbytes] at hdma
      exact Bool.noConfusion hdma
  obtain ⟨f, hat, hring, hloop⟩ := rdma_loop_reaches (ring_start s r)
    (fun i f _ hf _ hgo => RingAt.turn hf hgo) hturns
    (buf.length + (s.rdma.rings r).index_bound + 2 - n)
  -- nothing is left after the last piece
  have hlen : f.len = buf.length := by
    have hlast := hlt n
    have := hat.len
    omega
  have hfuel : n ≤ buf.length := hn ▸ rx_pieces_le hsize
  rw [Nat.sub_add_cancel (by omega)] at hloop
  have hend : rdma_loop net s buf (buf.length + (s.rdma.rings r).index_bound + 2 - n) f =
      some f := by
    rw [show buf.length + (s.rdma.rings r).index_bound + 2 - n =
      (buf.length + (s.rdma.rings r).index_bound + 1 - n) + 1 by omega, rdma_loop,
      if_neg (by omega)]
  obtain ⟨hrdma, -⟩ := rdma_done_fields s r f
  refine ⟨set_irq (rdma_done s r f), ?_, ?_⟩
  · rw [hloop, hend, Option.map_some, hlen]
  · rw [hrdma]
    simp only [update_self]
    refine ⟨hring.prod_index, ?_, ?_⟩
    · rw [hring.write_ptr, hat.write_index]
    · intro i hi
      rw [hat.rxerr]
      exact hclean i ((hlt i).mp hi)

/-- Buffers without a size: the loop takes nothing of the frame. -/
theorem rdma_loop_len {f f' : Fill} {fuel : Nat} (hsize : f.ring.ring_buf_size = 0)
    (h : rdma_loop net s buf fuel f = some f') : f'.len = f.len := by
  induction fuel generalizing f with
  | zero => exact absurd h (by simp [rdma_loop])
  | succ fuel ih =>
    have htake : f.take_len buf = 0 := by
      rw [Fill.take_len, hsize]
      exact Nat.min_zero _
    rw [rdma_loop] at h
    split at h
    · by_cases hfails : f.fails net s buf
      · simp only [rdma_turn_fails hfails, Bool.false_eq_true, if_false] at h
        obtain rfl := Option.some.inj h
        rw [htake, Nat.add_zero]
      · simp only [rdma_turn_goes hfails, if_true] at h
        rw [ih (by exact hsize) h, htake, Nat.add_zero]
    · obtain rfl := Option.some.inj h
      rfl

/-- The first turn that breaks leaves the error in its descriptor. -/
theorem rdma_loop_breaks {r k : Nat} (hk : k * (s.rdma.rings r).ring_buf_size < buf.length)
    (hbefore : ∀ i < k, i * (s.rdma.rings r).ring_buf_size < buf.length ∧ ¬ RxFails net s r buf i)
    (hfails : RxFails net s r buf k) (fuel : Nat) :
    ∃ f, rdma_loop net s buf (fuel + 1 + k) (fill_start s r) = some f ∧
      ex RXERR (f.descs (rx_index s r k)).length_status ≠ 0 := by
  obtain ⟨f, hat, -, hloop⟩ := rdma_loop_reaches (P := fun _ _ => True) trivial
    (fun _ _ _ _ _ _ => trivial) hbefore (fuel + 1)
  have hbreak : f.fails net s buf := (hat.fails_iff hk).mpr hfails
  have hlt : f.len < buf.length := by
    rw [hat.len]
    omega
  refine ⟨(rdma_turn net s buf f).1, ?_, ?_⟩
  · rw [hloop, rdma_loop, if_pos hlt]
    simp only [rdma_turn_fails hbreak, Bool.false_eq_true, if_false]
  · rw [rdma_turn_fails hbreak, ← hat.write_index]
    simp only [Fill.descs_after, update_self]
    by_cases hok : f.dma_ok net s buf = true
    · rw [if_pos hok, status_rxerr]
      rcases hbreak with herr | hdma
      · exact herr
      · exact absurd hok (by simp [hdma])
    · rw [if_neg hok, ex_dp]
      decide

/-- A delivered frame had buffers with a size, writes that succeed, and no old
    errors. -/
theorem clean_of_delivered (h : Filling s buf) (hdel : Delivered net s buf) :
    (0 < (s.rdma.rings (default_rx_ring s)).ring_buf_size ∨ buf.length = 0) ∧
      OwnWrites net s buf ∧ NoOldError s buf := by
  unfold Delivered at hdel
  rw [receive_filling h] at hdel
  unfold OwnWrites NoOldError
  generalize default_rx_ring s = r at *
  simp only at hdel ⊢
  obtain ⟨s', hrecv, -, -, hrxerr⟩ := hdel
  obtain ⟨f, hloop, hf⟩ := Option.map_eq_some_iff.mp hrecv
  obtain ⟨hret, rfl⟩ := Prod.mk.inj hf
  have hsize : 0 < (s.rdma.rings r).ring_buf_size ∨ buf.length = 0 := by
    by_contra hno
    have hlen := rdma_loop_len (by simp only [fill_start]; omega) hloop
    simp only [fill_start] at hlen
    omega
  have hgood : ∀ i, i * (s.rdma.rings r).ring_buf_size < buf.length → ¬ RxFails net s r buf i := by
    intro i
    induction i using Nat.strong_induction_on with
    | _ i ih =>
      intro hi hfails
      have hn := (lt_rx_pieces hsize i).mpr hi
      have hle := rx_pieces_le hsize
      have hbefore : ∀ j < i, j * (s.rdma.rings r).ring_buf_size < buf.length ∧
          ¬ RxFails net s r buf j := by
        intro j hj
        have hmul : j * (s.rdma.rings r).ring_buf_size ≤ i * (s.rdma.rings r).ring_buf_size :=
          Nat.mul_le_mul_right _ (by omega)
        exact ⟨by omega, ih j hj (by omega)⟩
      obtain ⟨f', hbreak, herr⟩ := rdma_loop_breaks hi hbefore hfails
        (buf.length + (s.rdma.rings r).index_bound + 1 - i)
      rw [show buf.length + (s.rdma.rings r).index_bound + 1 - i + 1 + i =
        buf.length + (s.rdma.rings r).index_bound + 2 by omega, hloop] at hbreak
      obtain rfl := Option.some.inj hbreak
      apply herr
      rw [← hrxerr i hn, (rdma_done_fields s r f).1]
  refine ⟨hsize, ?_, ?_⟩
  · intro i hi
    by_contra hno
    exact hgood i hi (.inr (by simpa using hno))
  · intro i hi
    by_contra hno
    exact hgood i hi (.inl hno)

end

/-- The frame's own writes decide whether it is delivered. -/
def OwnWritesDecide (net : Net) (s : State) (buf : List UInt8) : Prop :=
  Delivered net s buf ↔ OwnWrites net s buf

/-- A frame of a run that the device gives to a ring, and the device before
    it. -/
def FrameOf (host : Host) (c : Controller) (ops : List Op) (d : Controller) (buf : List UInt8) :
    Prop :=
  (∃ pre post, ops = pre ++ .receive buf :: post ∧ run host c pre = some d) ∧ Filling d.state buf

/-- The writes of a frame decide about it exactly when they fail, or its
    descriptors have no error from before and their buffers a size. -/
theorem own_writes_decide_iff {net : Net} {s : State} {buf : List UInt8} (h : Filling s buf) :
    OwnWritesDecide net s buf ↔
      (OwnWrites net s buf → NoOldError s buf ∧
        (0 < (s.rdma.rings (default_rx_ring s)).ring_buf_size ∨ buf.length = 0)) := by
  constructor
  · intro hiff hown
    obtain ⟨hsize, -, hclean⟩ := clean_of_delivered h (hiff.mpr hown)
    exact ⟨hclean, hsize⟩
  · intro hcond
    constructor
    · intro hdel
      exact (clean_of_delivered h hdel).2.1
    · intro hown
      obtain ⟨hclean, hsize⟩ := hcond hown
      exact delivered_of_clean h hsize hown hclean

/-- In a run whose frames use indices of descriptors only, the frames that are
    delivered are those whose writes succeed, exactly when no frame whose
    writes would succeed meets an error that an earlier one left in a
    descriptor (or buffers without a size). -/
theorem own_writes_decide (host : Host) (mac : Nat → Nat) (mem : Memory) (down : Bool)
    (ops : List Op) :
    (∀ d buf, FrameOf host (power_on mac mem down) ops d buf →
      InDescs host.net d.state buf ∧ OwnWritesDecide host.net d.state buf) ↔
    ∀ d buf, FrameOf host (power_on mac mem down) ops d buf →
      InDescs host.net d.state buf ∧
        (OwnWrites host.net d.state buf →
          NoOldError d.state buf ∧
            (0 < (d.state.rdma.rings (default_rx_ring d.state)).ring_buf_size ∨
              buf.length = 0)) := by
  constructor
  · intro h d buf hframe
    obtain ⟨hin, hdecide⟩ := h d buf hframe
    exact ⟨hin, (own_writes_decide_iff hframe.2).mp hdecide⟩
  · intro h d buf hframe
    obtain ⟨hin, hcond⟩ := h d buf hframe
    exact ⟨hin, (own_writes_decide_iff hframe.2).mpr hcond⟩

/-- A host where only the low 1 MiB of memory take writes. -/
def low_host : Host where
  net := .unsummed fun address _ => decide (address < 0x100000)
  macaddr_default_if_unset := fun mac => mac

/-- The guest sets up the default ring with one descriptor whose buffer is out
    of reach, gets a frame, mends the address, and gets another frame. -/
def mended_ops : List Op :=
  [.write (.of_word (RDMA_REGS + DMA_RINGS + RING_SIZE * 16 + 16) 2048),
    .write (.of_word (RDMA_REGS + DMA_RINGS + RING_SIZE * 16 + 28) 2),
    .write (.of_word (RDMA_REGS + 4) 0x200000),
    .write (.of_word (RDMA_REGS + DMA_CTRL) 1),
    .receive [1, 2, 3],
    .write (.of_word (RDMA_REGS + 4) 0x1000)]

/-- The device then. -/
def mended_device : Controller :=
  ((run low_host (power_on (fun _ => 0) (fun _ => 0) true) mended_ops).getD
    (power_on (fun _ => 0) (fun _ => 0) true))

theorem mended_run :
    run low_host (power_on (fun _ => 0) (fun _ => 0) true) mended_ops = some mended_device := by
  have hsome : (run low_host (power_on (fun _ => 0) (fun _ => 0) true) mended_ops).isSome =
      true := by
    decide +kernel
  obtain ⟨d, hd⟩ := Option.isSome_iff_exists.mp hsome
  rw [mended_device, hd, Option.getD_some]

theorem mended_filling : Filling mended_device.state [4, 5] :=
  ⟨by decide +kernel, by decide +kernel, by decide +kernel, by decide +kernel⟩

/-- The write of the second frame succeeds, but it is not delivered. -/
theorem mended_descriptor_stays_broken :
    FrameOf low_host (power_on (fun _ => 0) (fun _ => 0) true)
        (mended_ops ++ [.receive [4, 5]]) mended_device [4, 5] ∧
      OwnWrites low_host.net mended_device.state [4, 5] ∧
      ¬ Delivered low_host.net mended_device.state [4, 5] := by
  have hsize : (mended_device.state.rdma.rings
      (default_rx_ring mended_device.state)).ring_buf_size = 2048 := by
    decide +kernel
  refine ⟨⟨⟨mended_ops, [], rfl, mended_run⟩, mended_filling⟩, ?_, ?_⟩
  · intro i hi
    rw [hsize, List.length_cons, List.length_singleton] at hi
    obtain rfl : i = 0 := by omega
    decide +kernel
  · intro hdel
    have hclean := (clean_of_delivered mended_filling hdel).2.2 0 (by decide +kernel)
    exact absurd hclean (by decide +kernel)

end Genet
