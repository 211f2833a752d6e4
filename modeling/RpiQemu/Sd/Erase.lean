import RpiQemu.Framework.Memory
import Mathlib.Data.List.GetD
import Mathlib.Tactic.Common

/-! # Erasing a range of an SD card

    The end of `sd_erase` in `hw/sd/sd.c`, where the range is known to start on
    the card.  A standard capacity card (SDSC) is erased block by block, around
    the write protect groups; the others have none and are erased with one zero
    write.

    * **Bytes**: what an erase leaves at each address, when it says that it
      skipped something, and when it says that a write failed (`erase_range`).
    * **Agreement**: the one write leaves what the loop over the blocks leaves
      (`one_write_agrees`). -/

namespace Sd

/-! ## The card -/

/-- `1 << HWBLOCK_SHIFT`. -/
def erase_len : Nat := 512

/-- The parts of `SDState` that an erase looks at.  `blk` is the backing file,
    `part_offset` what `sd_part_offset` gives, and `messages` how often the card said
    on stderr that a write failed. -/
structure SDState where
  blk : Option Memory
  size : Nat
  part_offset : Nat := 0
  sdsc : Bool
  /-- `sd_addr_to_wpnum`. -/
  sd_addr_to_wpnum : Nat → Nat
  wp_group_bmap : Nat → Bool
  wp_group_bits : Nat
  /-- `WP_ERASE_SKIP` in the card status. -/
  wp_erase_skip : Bool := false
  messages : Nat := 0

/-- The host's side of the backing file. -/
structure Host where
  /-- A zero write at an address, for a length, succeeds. -/
  zeroes_ok : Nat → Nat → Bool
  /-- The bytes of it that it clears when it fails. -/
  zeroes_part : Nat → Nat → Nat → Bool

/-- A zero write at an address, for a length, clears its byte `q`. -/
def Host.clears (host : Host) (addr len q : Nat) : Bool :=
  host.zeroes_ok addr len || host.zeroes_part addr len q

/-- `blk_pwrite_zeroes`: the backing file afterwards. -/
def blk_pwrite_zeroes (host : Host) (blk : Memory) (addr len : Nat) : Memory :=
  blk.writePart addr (List.replicate len 0) (host.clears addr len)

/-- A write that fails, and a card without a backing file, only say so on stderr. -/
def sd_blk_erase (host : Host) (sd : SDState) (addr len : Nat) : SDState :=
  let addr := addr + sd.part_offset
  { sd with
    blk := sd.blk.map fun blk => blk_pwrite_zeroes host blk addr len
    messages := if sd.blk.isNone || !host.zeroes_ok addr len then sd.messages + 1
      else sd.messages }

/-- The group of the block at `addr` is protected. -/
def SDState.protected (sd : SDState) (addr : Nat) : Bool :=
  sd.wp_group_bmap (sd.sd_addr_to_wpnum addr)

/-- One turn of the loop; `none`: the assertion on the group fails. -/
def erase_block (host : Host) (sd : SDState) (erase_addr : Nat) : Option SDState :=
  if sd.sd_addr_to_wpnum erase_addr < sd.wp_group_bits then
    some (if sd.protected erase_addr then { sd with wp_erase_skip := true }
      else sd_blk_erase host sd erase_addr erase_len)
  else none

/-- `for (erase_addr = erase_start; erase_addr <= erase_end; erase_addr += erase_len)`. -/
def erase_blocks (host : Host) : Nat → SDState → Nat → Nat → Option SDState
  | 0, sd, _, _ => some sd
  | n + 1, sd, erase_addr, erase_end =>
    if erase_addr ≤ erase_end then
      (erase_block host sd erase_addr).bind
        (erase_blocks host n · (erase_addr + erase_len) erase_end)
    else some sd

/-- `sd_erase`, after its checks.  The length is a `uint64_t`. -/
def sd_erase (host : Host) (sd : SDState) (erase_start erase_end : Nat) : Option SDState :=
  if erase_end < erase_start then some sd
  else if sd.sdsc = false then
    some (sd_blk_erase host sd erase_start
      ((min (erase_end + erase_len) sd.size + 2 ^ 64 - erase_start) % 2 ^ 64))
  else erase_blocks host (erase_end - erase_start + 1) sd erase_start erase_end

/-! ## One write -/

theorem zeroes_apply (host : Host) (blk : Memory) (addr len a : Nat) :
    blk_pwrite_zeroes host blk addr len a =
      if (addr ≤ a ∧ a < addr + len) ∧ host.clears addr len (a - addr) = true then 0
      else blk a := by
  unfold blk_pwrite_zeroes Memory.writePart
  rw [List.length_replicate]
  split
  · next h =>
    rw [List.getD_replicate]
    omega
  · rfl

/-- The backing file of `sd'` is the one of `sd` with zeroes at the addresses that
    `Erased` holds of. -/
def Zeroed (sd sd' : SDState) (Erased : Nat → Prop) : Prop :=
  ∀ blk, sd.blk = some blk → ∃ blk', sd'.blk = some blk' ∧
    ∀ a, (Erased a → blk' a = 0) ∧ (¬ Erased a → blk' a = blk a)

theorem Zeroed.refl (sd : SDState) {Erased : Nat → Prop} (h : ∀ a, ¬ Erased a) :
    Zeroed sd sd Erased := by
  intro blk hblk
  exact ⟨blk, hblk, fun a => ⟨fun ha => absurd ha (h a), fun _ => rfl⟩⟩

/-- Zeroes are written over zeroes. -/
theorem Zeroed.trans {sd sd' sd'' : SDState} {E E' : Nat → Prop} (h : Zeroed sd sd' E)
    (h' : Zeroed sd' sd'' E') : Zeroed sd sd'' (fun a => E a ∨ E' a) := by
  intro blk hblk
  obtain ⟨blk', hblk', hE⟩ := h blk hblk
  obtain ⟨blk'', hblk'', hE'⟩ := h' blk' hblk'
  apply Exists.intro blk''
  apply And.intro hblk''
  intro a
  by_cases ha' : E' a
  · exact ⟨fun _ => (hE' a).1 ha', fun hn => absurd (Or.inr ha') hn⟩
  · rw [(hE' a).2 ha']
    constructor
    · rintro (ha | ha)
      · exact (hE a).1 ha
      · exact absurd ha ha'
    · intro hn
      exact (hE a).2 (fun ha => hn (Or.inl ha))

theorem Zeroed.congr {sd sd' : SDState} {E E' : Nat → Prop} (h : Zeroed sd sd' E)
    (hE : ∀ a, E' a ↔ E a) : Zeroed sd sd' E' := by
  rwa [show E' = E from funext fun a => propext (hE a)]

theorem zeroed_blk_erase (host : Host) (sd : SDState) (addr len : Nat) :
    Zeroed sd (sd_blk_erase host sd addr len)
      (fun a => (addr + sd.part_offset ≤ a ∧ a < addr + sd.part_offset + len) ∧
        host.clears (addr + sd.part_offset) len (a - (addr + sd.part_offset)) = true) := by
  intro blk hblk
  apply Exists.intro (blk_pwrite_zeroes host blk (addr + sd.part_offset) len)
  apply And.intro
  · simp only [sd_blk_erase, hblk, Option.map_some]
  · intro a
    rw [zeroes_apply]
    exact ⟨fun h => if_pos h, fun h => if_neg h⟩

/-- A zero write fails, or there is nothing to write to. -/
def Fails (host : Host) (sd : SDState) (addr len : Nat) : Prop :=
  sd.blk.isNone = true ∨ host.zeroes_ok (addr + sd.part_offset) len = false

theorem blk_erase_messages (host : Host) (sd : SDState) (addr len : Nat) :
    sd.messages ≤ (sd_blk_erase host sd addr len).messages ∧
      (sd.messages < (sd_blk_erase host sd addr len).messages ↔ Fails host sd addr len) := by
  have hfails : Fails host sd addr len ↔
      (sd.blk.isNone || !host.zeroes_ok (addr + sd.part_offset) len) = true := by
    rw [Fails, Bool.or_eq_true, Bool.not_eq_true']
  rw [hfails]
  unfold sd_blk_erase
  dsimp only
  split
  · next h => exact ⟨Nat.le_succ _, iff_of_true (Nat.lt_succ_self _) h⟩
  · next h => exact ⟨Nat.le_refl _, iff_of_false (Nat.lt_irrefl _) h⟩

/-! ## The loop -/

/-- The `i`-th block of a range. -/
def block (erase_start i : Nat) : Nat := erase_start + erase_len * i

/-- The host clears the address with a block of the range that is not protected. -/
def Covers (host : Host) (sd : SDState) (erase_start erase_end a : Nat) : Prop :=
  ∃ i, block erase_start i ≤ erase_end ∧ sd.protected (block erase_start i) = false ∧
    (block erase_start i + sd.part_offset ≤ a ∧
      a < block erase_start i + sd.part_offset + erase_len) ∧
    host.clears (block erase_start i + sd.part_offset) erase_len
      (a - (block erase_start i + sd.part_offset)) = true

/-- A block of the range is protected. -/
def Skips (sd : SDState) (erase_start erase_end : Nat) : Prop :=
  ∃ i, block erase_start i ≤ erase_end ∧ sd.protected (block erase_start i) = true

/-- The write of a block of the range that is not protected fails. -/
def BlockFails (host : Host) (sd : SDState) (erase_start erase_end : Nat) : Prop :=
  ∃ i, block erase_start i ≤ erase_end ∧ sd.protected (block erase_start i) = false ∧
    Fails host sd (block erase_start i) erase_len

/-- The blocks of the range have write protect groups. -/
def InGroups (sd : SDState) (erase_start erase_end : Nat) : Prop :=
  ∀ i, block erase_start i ≤ erase_end →
    sd.sd_addr_to_wpnum (block erase_start i) < sd.wp_group_bits

theorem block_succ (s i : Nat) : block s (i + 1) = block (s + erase_len) i := by
  unfold block
  rw [Nat.mul_succ]
  omega

theorem le_block (s i : Nat) : s ≤ block s i := Nat.le_add_right _ _

/-- The first block and the others. -/
theorem exists_block {P : Nat → Prop} (s : Nat) :
    (∃ i, P (block s i)) ↔ P s ∨ ∃ i, P (block (s + erase_len) i) := by
  constructor
  · rintro ⟨i, hi⟩
    cases i with
    | zero => exact .inl hi
    | succ i => exact .inr ⟨i, block_succ s i ▸ hi⟩
  · rintro (h | ⟨i, hi⟩)
    · exact ⟨0, h⟩
    · exact ⟨i + 1, (block_succ s i).symm ▸ hi⟩

/-- What the loop does not write: the card, its groups and where it starts. -/
structure SameCard (sd sd' : SDState) : Prop where
  blk : sd'.blk.isNone = sd.blk.isNone
  size : sd'.size = sd.size
  part_offset : sd'.part_offset = sd.part_offset
  sdsc : sd'.sdsc = sd.sdsc
  wpnum : sd'.sd_addr_to_wpnum = sd.sd_addr_to_wpnum
  bmap : sd'.wp_group_bmap = sd.wp_group_bmap
  bits : sd'.wp_group_bits = sd.wp_group_bits

theorem SameCard.refl (sd : SDState) : SameCard sd sd := ⟨rfl, rfl, rfl, rfl, rfl, rfl, rfl⟩

theorem SameCard.trans {sd sd' sd'' : SDState} (h : SameCard sd sd') (h' : SameCard sd' sd'') :
    SameCard sd sd'' :=
  ⟨h'.blk.trans h.blk, h'.size.trans h.size, h'.part_offset.trans h.part_offset,
    h'.sdsc.trans h.sdsc, h'.wpnum.trans h.wpnum, h'.bmap.trans h.bmap, h'.bits.trans h.bits⟩

theorem SameCard.protected {sd sd' : SDState} (h : SameCard sd sd') (addr : Nat) :
    sd'.protected addr = sd.protected addr := by
  unfold SDState.protected
  rw [h.wpnum, h.bmap]

theorem SameCard.fails {sd sd' : SDState} (h : SameCard sd sd') (host : Host) (addr len : Nat) :
    Fails host sd' addr len ↔ Fails host sd addr len := by
  unfold Fails
  rw [h.blk, h.part_offset]

theorem sameCard_blk_erase (host : Host) (sd : SDState) (addr len : Nat) :
    SameCard sd (sd_blk_erase host sd addr len) :=
  ⟨Option.isNone_map, rfl, rfl, rfl, rfl, rfl, rfl⟩

/-- What an erase does that clears the addresses `Erased`, skips when `skips` holds and
    has a write fail when `fails` does. -/
structure Erases (sd sd' : SDState) (Erased : Nat → Prop) (skips fails : Prop) : Prop where
  card : SameCard sd sd'
  zeroed : Zeroed sd sd' Erased
  skip : sd'.wp_erase_skip = true ↔ sd.wp_erase_skip = true ∨ skips
  messages : sd.messages ≤ sd'.messages
  failed : sd.messages < sd'.messages ↔ fails

theorem Erases.congr {sd sd' : SDState} {E E' : Nat → Prop} {skips skips' fails fails' : Prop}
    (h : Erases sd sd' E skips fails) (hE : ∀ a, E' a ↔ E a) (hskips : skips' ↔ skips)
    (hfails : fails' ↔ fails) : Erases sd sd' E' skips' fails' :=
  ⟨h.card, h.zeroed.congr hE, h.skip.trans (or_congr_right hskips.symm), h.messages,
    h.failed.trans hfails.symm⟩

theorem Erases.refl (sd : SDState) {E : Nat → Prop} {skips fails : Prop} (hE : ∀ a, ¬ E a)
    (hskips : ¬ skips) (hfails : ¬ fails) : Erases sd sd E skips fails :=
  ⟨SameCard.refl sd, Zeroed.refl sd hE, (or_iff_left hskips).symm, Nat.le_refl _,
    iff_of_false (Nat.lt_irrefl _) hfails⟩

theorem Erases.trans {sd sd' sd'' : SDState} {E E' : Nat → Prop}
    {skips skips' fails fails' : Prop} (h : Erases sd sd' E skips fails)
    (h' : Erases sd' sd'' E' skips' fails') :
    Erases sd sd'' (fun a => E a ∨ E' a) (skips ∨ skips') (fails ∨ fails') := by
  have hle := h.messages
  have hle' := h'.messages
  refine ⟨h.card.trans h'.card, h.zeroed.trans h'.zeroed, ?_, by omega, ?_⟩
  · rw [h'.skip, h.skip, or_assoc]
  · rw [← h.failed, ← h'.failed]
    omega

/-- One write. -/
theorem blk_erase_erases (host : Host) (sd : SDState) (addr len : Nat) :
    Erases sd (sd_blk_erase host sd addr len)
      (fun a => (addr + sd.part_offset ≤ a ∧ a < addr + sd.part_offset + len) ∧
        host.clears (addr + sd.part_offset) len (a - (addr + sd.part_offset)) = true)
      False (Fails host sd addr len) := by
  obtain ⟨hle, hfail⟩ := blk_erase_messages host sd addr len
  refine ⟨sameCard_blk_erase host sd addr len, zeroed_blk_erase host sd addr len, ?_, hle, hfail⟩
  have hskip : (sd_blk_erase host sd addr len).wp_erase_skip = sd.wp_erase_skip := rfl
  rw [hskip, or_false]

/-- One block. -/
theorem erase_block_erases (host : Host) (sd : SDState) {addr : Nat}
    (hgroup : sd.sd_addr_to_wpnum addr < sd.wp_group_bits) :
    ∃ sd', erase_block host sd addr = some sd' ∧
      Erases sd sd' (fun a => sd.protected addr = false ∧
          (addr + sd.part_offset ≤ a ∧ a < addr + sd.part_offset + erase_len) ∧
          host.clears (addr + sd.part_offset) erase_len (a - (addr + sd.part_offset)) = true)
        (sd.protected addr = true) (sd.protected addr = false ∧ Fails host sd addr erase_len) := by
  rw [erase_block, if_pos hgroup]
  refine ⟨_, rfl, ?_⟩
  cases hp : sd.protected addr with
  | true =>
    simp only [if_true]
    refine ⟨⟨rfl, rfl, rfl, rfl, rfl, rfl, rfl⟩, ?_, by simp, Nat.le_refl _, by simp⟩
    intro blk hblk
    exact ⟨blk, hblk, fun a => ⟨fun h => absurd h.1 (by simp), fun _ => rfl⟩⟩
  | false =>
    simp only [Bool.false_eq_true, if_false]
    exact (blk_erase_erases host sd addr erase_len).congr
      (fun _ => iff_of_eq (true_and _)) Iff.rfl (iff_of_eq (true_and _))

/-- A range that ends before it starts. -/
theorem nothing_to_erase (host : Host) (sd : SDState) {s e : Nat} (h : e < s) :
    Erases sd sd (Covers host sd s e) (Skips sd s e) (BlockFails host sd s e) := by
  have hout : ∀ i, ¬ block s i ≤ e := fun i hi => by
    have := le_block s i
    omega
  apply Erases.refl
  · rintro a ⟨i, hi, -⟩
    exact hout i hi
  · rintro ⟨i, hi, -⟩
    exact hout i hi
  · rintro ⟨i, hi, -⟩
    exact hout i hi

/-- By induction on the turns that are left: those that are enough for the range. -/
theorem erase_blocks_erases (host : Host) (n : Nat) (sd : SDState) (s e : Nat)
    (hn : e + 1 ≤ s + n) (hgroups : InGroups sd s e) :
    ∃ sd', erase_blocks host n sd s e = some sd' ∧
      Erases sd sd' (Covers host sd s e) (Skips sd s e) (BlockFails host sd s e) := by
  induction n generalizing sd s with
  | zero => exact ⟨sd, rfl, nothing_to_erase host sd (by omega)⟩
  | succ n ih =>
    unfold erase_blocks
    by_cases hs : s ≤ e
    · obtain ⟨sd₁, hone, hblock⟩ := erase_block_erases host sd (hgroups 0 hs)
      have hsame := hblock.card
      have hrest : InGroups sd₁ (s + erase_len) e := by
        intro i hi
        rw [hsame.wpnum, hsame.bits, ← block_succ]
        exact hgroups (i + 1) (by rwa [block_succ])
      obtain ⟨sd', hblocks, herases⟩ := ih sd₁ (s + erase_len) (by unfold erase_len; omega) hrest
      rw [if_pos hs, show erase_block host sd s = some sd₁ from hone]
      refine ⟨sd', hblocks, (hblock.trans herases).congr ?_ ?_ ?_⟩
      · intro a
        unfold Covers
        rw [@exists_block (fun b => b ≤ e ∧ sd.protected b = false ∧
          (b + sd.part_offset ≤ a ∧ a < b + sd.part_offset + erase_len) ∧
          host.clears (b + sd.part_offset) erase_len (a - (b + sd.part_offset)) = true) s]
        simp only [hsame.protected, hsame.part_offset]
        exact or_congr_left (and_iff_right hs)
      · unfold Skips
        rw [@exists_block (fun b => b ≤ e ∧ sd.protected b = true) s]
        simp only [hsame.protected]
        exact or_congr_left (and_iff_right hs)
      · unfold BlockFails
        rw [@exists_block (fun b => b ≤ e ∧ sd.protected b = false ∧ Fails host sd b erase_len) s]
        simp only [hsame.protected, hsame.fails]
        exact or_congr_left (and_iff_right hs)
    · rw [if_neg hs]
      exact ⟨sd, rfl, nothing_to_erase host sd (by omega)⟩

/-! ## The erase -/

/-- The one write of the cards without groups. -/
def one_len (sd : SDState) (erase_start erase_end : Nat) : Nat :=
  min (erase_end + erase_len) sd.size - erase_start

/-- The addresses of the backing file that an erase clears: on a standard capacity
    card those of the blocks outside the protected groups, on the others all of
    the range that is on the card; in either case as far as the host's writes get. -/
def Erased (host : Host) (sd : SDState) (erase_start erase_end a : Nat) : Prop :=
  if sd.sdsc = true then Covers host sd erase_start erase_end a
  else erase_start ≤ erase_end ∧
    (erase_start + sd.part_offset ≤ a ∧
      a < erase_start + sd.part_offset + one_len sd erase_start erase_end) ∧
    host.clears (erase_start + sd.part_offset) (one_len sd erase_start erase_end)
      (a - (erase_start + sd.part_offset)) = true

/-- A write of an erase fails. -/
def EraseFails (host : Host) (sd : SDState) (erase_start erase_end : Nat) : Prop :=
  if sd.sdsc = true then BlockFails host sd erase_start erase_end
  else erase_start ≤ erase_end ∧
    Fails host sd erase_start (one_len sd erase_start erase_end)

/-- The length of the one write. -/
theorem one_len_eq (sd : SDState) {s e : Nat} (hs : s ≤ e) (hcard : s ≤ sd.size)
    (hsize : sd.size < 2 ^ 64) :
    (min (e + erase_len) sd.size + 2 ^ 64 - s) % 2 ^ 64 = one_len sd s e := by
  unfold one_len
  omega

/-- **What an erase does.** The bytes of the range that the host's zero writes clear are
    zero and the others are kept; the card says that it skipped a block if the range met
    a protected group, and on stderr that a write failed if one did. -/
theorem erase_range (host : Host) (sd : SDState) (s e : Nat) (hcard : s ≤ sd.size)
    (hsize : sd.size < 2 ^ 64) (hgroups : sd.sdsc = true → InGroups sd s e) :
    ∃ sd', sd_erase host sd s e = some sd' ∧
      Zeroed sd sd' (Erased host sd s e) ∧
      (sd'.wp_erase_skip = true ↔
        sd.wp_erase_skip = true ∨ sd.sdsc = true ∧ Skips sd s e) ∧
      (sd.messages < sd'.messages ↔ EraseFails host sd s e) := by
  have hall : ∃ sd', sd_erase host sd s e = some sd' ∧
      Erases sd sd' (Erased host sd s e) (sd.sdsc = true ∧ Skips sd s e)
        (EraseFails host sd s e) := by
    unfold sd_erase
    by_cases hrange : e < s
    · -- an empty range
      rw [if_pos hrange]
      refine ⟨sd, rfl, ?_⟩
      have hnone := nothing_to_erase host sd hrange
      unfold Erased EraseFails
      split
      · next hsdsc => exact hnone.congr (fun _ => Iff.rfl) (and_iff_right hsdsc) Iff.rfl
      · next hsdsc =>
        exact Erases.refl sd (fun a h => absurd h.1 (by omega)) (fun h => hsdsc h.1)
          (fun h => absurd h.1 (by omega))
    · rw [if_neg hrange]
      by_cases hsdsc : sd.sdsc = true
      · rw [if_neg (by rw [hsdsc]; exact Bool.noConfusion)]
        obtain ⟨sd', hloop, herases⟩ := erase_blocks_erases host (e - s + 1) sd s e (by omega)
          (hgroups hsdsc)
        refine ⟨sd', hloop, herases.congr ?_ (and_iff_right hsdsc) ?_⟩
        · intro a
          rw [Erased, if_pos hsdsc]
        · rw [EraseFails, if_pos hsdsc]
      · rw [if_pos (by simpa using hsdsc), one_len_eq sd (by omega) hcard hsize]
        refine ⟨_, rfl, (blk_erase_erases host sd s _).congr ?_ ?_ ?_⟩
        · intro a
          rw [Erased, if_neg hsdsc]
          exact and_iff_right (by omega)
        · exact iff_of_false (fun h => hsdsc h.1) not_false
        · rw [EraseFails, if_neg hsdsc]
          exact and_iff_right (by omega)
  obtain ⟨sd', herase, h⟩ := hall
  exact ⟨sd', herase, h.zeroed, h.skip, h.failed⟩

/-- A host that takes every write inside a file of 4096 bytes. -/
def file_host : Host where
  zeroes_ok addr len := decide (addr + len ≤ 4096)
  zeroes_part _ _ _ := false

/-- Erasing a 4-block range of which the second block is protected. -/
theorem erase_range_skips :
    let sd : SDState :=
      { blk := some fun _ => 255, size := 4096, sdsc := true,
        sd_addr_to_wpnum := (· / 512), wp_group_bmap := fun n => n == 1, wp_group_bits := 9 }
    ∃ sd', sd_erase file_host sd 0 1536 = some sd' ∧
      Zeroed sd sd' (Erased file_host sd 0 1536) ∧
      (sd'.wp_erase_skip = true ↔ sd.wp_erase_skip = true ∨ sd.sdsc = true ∧ Skips sd 0 1536) ∧
      (sd.messages < sd'.messages ↔ EraseFails file_host sd 0 1536) := by
  intro sd
  apply erase_range file_host sd 0 1536 (by decide) (by decide)
  intro _ i hi
  have hgroup : block 0 i / 512 < 9 := by omega
  exact hgroup

/-! ## One write for the blocks -/

/-- The blocks of a whole number of blocks, on a host that clears them. -/
theorem covers_iff (host : Host) (sd : SDState) {s e a : Nat}
    (hprot : ∀ b, sd.protected b = false) (hblocks : erase_len ∣ e - s) (hs : s ≤ e)
    (hok : ∀ i, block s i ≤ e → host.zeroes_ok (block s i + sd.part_offset) erase_len = true) :
    Covers host sd s e a ↔ s + sd.part_offset ≤ a ∧ a < sd.part_offset + e + erase_len := by
  obtain ⟨k, hk⟩ := hblocks
  constructor
  · rintro ⟨i, hi, -, ⟨h1, h2⟩, -⟩
    have := le_block s i
    exact ⟨by omega, by omega⟩
  · rintro ⟨h1, h2⟩
    -- the block the address is in
    apply Exists.intro ((a - sd.part_offset - s) / erase_len)
    have hdiv := Nat.div_add_mod (a - sd.part_offset - s) erase_len
    have hmod := Nat.mod_lt (a - sd.part_offset - s) (show 0 < erase_len by decide)
    have hle : (a - sd.part_offset - s) / erase_len ≤ k := by
      apply Nat.le_of_lt_succ
      rw [Nat.div_lt_iff_lt_mul (by decide), Nat.succ_mul, Nat.mul_comm k]
      omega
    have hmul := Nat.mul_le_mul_left erase_len hle
    have hin : block s ((a - sd.part_offset - s) / erase_len) ≤ e := by
      unfold block
      omega
    refine ⟨hin, hprot _, ?_, ?_⟩
    · unfold block
      omega
    · rw [Host.clears, hok _ hin, Bool.true_or]

/-- **The one write and the blocks.** For a range of whole blocks that lies on a card
    without protected groups, and a host whose writes succeed, the one write leaves the
    bytes that erasing its blocks in turn leaves, as the loop does on a standard capacity
    card. -/
theorem one_write_agrees (host : Host) (sd : SDState) (s e : Nat) (blk : Memory)
    (hblk : sd.blk = some blk) (hsdsc : sd.sdsc = false)
    (hprot : ∀ b, sd.protected b = false) (hgroups : InGroups sd s e)
    (hblocks : erase_len ∣ e - s) (hs : s ≤ e) (hcard : e + erase_len ≤ sd.size)
    (hsize : sd.size < 2 ^ 64)
    (hone : host.zeroes_ok (s + sd.part_offset) (e + erase_len - s) = true)
    (hok : ∀ i, block s i ≤ e → host.zeroes_ok (block s i + sd.part_offset) erase_len = true) :
    ∃ one loop, sd_erase host sd s e = some one ∧
      erase_blocks host (e - s + 1) sd s e = some loop ∧ one.blk = loop.blk := by
  obtain ⟨loop, hloop, herases⟩ := erase_blocks_erases host (e - s + 1) sd s e (by omega) hgroups
  have hlen : one_len sd s e = e + erase_len - s := by rw [one_len, Nat.min_eq_left hcard]
  rw [sd_erase, if_neg (by omega), if_pos hsdsc,
    one_len_eq sd hs (by unfold erase_len at hcard; omega) hsize, hlen]
  refine ⟨_, loop, rfl, hloop, ?_⟩
  obtain ⟨m, hm, hm'⟩ := zeroed_blk_erase host sd s (e + erase_len - s) blk hblk
  obtain ⟨m', hblk', hloop'⟩ := herases.zeroed blk hblk
  rw [hm, hblk']
  apply congrArg
  funext a
  have hiff : ((s + sd.part_offset ≤ a ∧ a < s + sd.part_offset + (e + erase_len - s)) ∧
      host.clears (s + sd.part_offset) (e + erase_len - s) (a - (s + sd.part_offset)) = true) ↔
      Covers host sd s e a := by
    rw [covers_iff host sd hprot hblocks hs hok, Host.clears, hone, Bool.true_or]
    simp only [and_true]
    omega
  by_cases ha : Covers host sd s e a
  · rw [(hm' a).1 (hiff.mpr ha), (hloop' a).1 ha]
  · rw [(hm' a).2 (fun h => ha (hiff.mp h)), (hloop' a).2 ha]

/-- A range of three blocks. -/
theorem three_blocks_agree :
    let sd : SDState :=
      { blk := some fun _ => 255, size := 4096, sdsc := false,
        sd_addr_to_wpnum := (· / 512), wp_group_bmap := fun _ => false, wp_group_bits := 9 }
    ∃ one loop, sd_erase file_host sd 512 1536 = some one ∧
      erase_blocks file_host 1025 sd 512 1536 = some loop ∧ one.blk = loop.blk := by
  intro sd
  have hgroups : InGroups sd 512 1536 := by
    intro i hi
    have hgroup : block 512 i / 512 < 9 := by omega
    exact hgroup
  have hok : ∀ i, block 512 i ≤ 1536 →
      file_host.zeroes_ok (block 512 i + sd.part_offset) erase_len = true := by
    intro i hi
    simp only [file_host, sd, erase_len, decide_eq_true_eq]
    omega
  exact one_write_agrees file_host sd 512 1536 _ rfl rfl (fun _ => rfl) hgroups (by decide)
    (by decide) (by decide) (by decide) (by decide) hok

end Sd
