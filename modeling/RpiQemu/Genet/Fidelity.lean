import RpiQemu.Genet.Progress

/-! # The frames that are sent

    `Genet.Progress` follows the pointers and the offsets of a transmit walk.
    Here are the bytes: the descriptors of a frame are gathered in the packet
    buffer, and `bcm2838_genet_xmit_packet` hands them on.

    * **Gathering**: at a descriptor with EOP the packet buffer has the bytes
      of the descriptors joined with it (`packet_gathered`).
    * **Fidelity**: the frame is the guest's, with its checksums, exactly when
      its type field is no length or is the frame's own (`tx_fidelity`). -/

namespace Genet

open Register

/-! ## Gathering -/

/-- The bytes of the `i`-th descriptor of a walk, from the registers. -/
def tx_data (s : State) (r i : Nat) : List UInt8 :=
  s.mem.read (s.tdma.descs (tx_ptr s r i / DESC_SIZE_WORDS)).address
    (ex BUFLENGTH (tx_status s r i))

/-- The bytes of the descriptors `a` to `b`. -/
def tx_gather (s : State) (r a b : Nat) : List UInt8 :=
  (List.range (b + 1 - a)).flatMap (fun i => tx_data s r (a + i))

/-- The descriptors `a` to `b` are one frame: the walk starts it at `a`, and
    EOP ends it at `b`. -/
structure TxChain (s : State) (r a b : Nat) : Prop where
  joined : TxJoined s r a b
  first : a = 0 ∨ ex SOP (tx_status s r a) ≠ 0 ∨ ex EOP (tx_status s r (a - 1)) ≠ 0
  last : ex EOP (tx_status s r b) ≠ 0

/-- The packet buffer with the piece of a turn in it. -/
def Walk.copied (w : Walk) (mem : Memory) : Memory :=
  w.tx_packet.write w.copy_off (mem.read (w.descs w.index).address w.copy_len)

/-- The frame that a turn at EOP hands on. -/
def tx_frame (net : Net) (s : State) (r i : Nat) : List UInt8 :=
  let w := walk_at net s r i
  (xmit_packet net s.tbuf_ctrl (w.copied s.mem) (w.copy_off + w.copy_len)).2

section

variable {net : Net} {s : State} {r : Nat}

theorem tx_gather_self (i : Nat) : tx_gather s r i i = tx_data s r i := by
  unfold tx_gather
  rw [Nat.add_sub_cancel_left, List.range_one]
  simp

theorem tx_gather_succ {a b : Nat} (h : a ≤ b) :
    tx_gather s r a (b + 1) = tx_gather s r a b ++ tx_data s r (b + 1) := by
  unfold tx_gather
  rw [show b + 1 + 1 - a = (b + 1 - a) + 1 by omega, List.range_succ, List.flatMap_append,
    List.flatMap_singleton, show a + (b + 1 - a) = b + 1 by omega]

theorem tx_data_length (i : Nat) : (tx_data s r i).length = ex BUFLENGTH (tx_status s r i) :=
  Memory.read_length _ _ _

/-- The walk leaves the addresses alone. -/
theorem walk_at_address (i j : Nat) :
    ((walk_at net s r i).descs j).address = (s.tdma.descs j).address := by
  induction i with
  | zero => rfl
  | succ i ih =>
    rw [walk_at_succ, ← ih]
    generalize walk_at net s r i = w
    simp only [turn, tx_desc]
    exact update_status_address w.descs _ _ j

/-- The piece of a turn is the descriptor's. -/
theorem walk_at_copied (i : Nat) :
    (walk_at net s r i).copied s.mem =
      (walk_at net s r i).tx_packet.write (walk_at net s r i).copy_off (tx_data s r i) := by
  unfold Walk.copied tx_data
  rw [walk_at_address, Walk.index, walk_at_read_ptr, walk_at_copy_len]

/-- The packet buffer behind a turn without EOP. -/
theorem walk_at_tx_packet {i : Nat} (heop : ex EOP (tx_status s r i) = 0) :
    (walk_at net s r (i + 1)).tx_packet = (walk_at net s r i).copied s.mem := by
  have heop' := @walk_at_status net s r EOP (by decide) i
  rw [heop] at heop'
  rw [walk_at_succ]
  generalize walk_at net s r i = w at *
  have hno : ¬ ex EOP (w.descs (w.read_ptr / DESC_SIZE_WORDS)).length_status ≠ 0 :=
    not_not.mpr heop'
  simp only [turn, tx_desc, if_neg hno]
  rfl

/-- Descriptors joined from the start of a frame on are in the packet buffer,
    one behind the other. -/
theorem packet_gathered {a b : Nat} (h : TxJoined s r a b)
    (hfirst : a = 0 ∨ ex SOP (tx_status s r a) ≠ 0 ∨ ex EOP (tx_status s r (a - 1)) ≠ 0) :
    let w := walk_at net s r b
    w.copy_off + w.copy_len = (tx_gather s r a b).length ∧
      (w.copied s.mem).read 0 (tx_gather s r a b).length = tx_gather s r a b := by
  obtain ⟨hab, hsop, heop⟩ := h
  induction b, hab using Nat.le_induction with
  | base =>
    have hoff : (walk_at net s r a).copy_off = 0 := by
      rw [walk_at_copy_off]
      split
      · rfl
      · next hno =>
        rcases hfirst with rfl | hs | he
        · rfl
        · exact absurd hs hno
        · cases a with
          | zero => rfl
          | succ a =>
            rw [walk_at_packet_off]
            exact if_pos he
    simp only [tx_gather_self]
    rw [hoff, walk_at_copied, hoff, walk_at_copy_len, tx_data_length, Nat.zero_add,
      ← tx_data_length]
    exact ⟨rfl, Memory.read_write_self _ _ _⟩
  | succ b hab ih =>
    obtain ⟨hlen, hread⟩ := ih (fun i h₁ h₂ => hsop i h₁ (by omega))
      (fun i h₁ h₂ => heop i h₁ (by omega))
    -- the next piece goes behind those before it
    have hoff : (walk_at net s r (b + 1)).copy_off = (tx_gather s r a b).length := by
      rw [walk_at_copy_off, if_neg (not_not.mpr (hsop (b + 1) (by omega) (Nat.le_refl _))),
        walk_at_packet_off, if_neg (not_not.mpr (heop b hab (by omega))), hlen]
    simp only [tx_gather_succ hab, List.length_append]
    rw [hoff, walk_at_copied, hoff, walk_at_copy_len, tx_data_length]
    refine ⟨rfl, ?_⟩
    rw [Memory.read_add, ← tx_data_length, Nat.zero_add, Memory.read_write_self,
      Memory.read_write_outside _ (.inl (by omega)), walk_at_tx_packet (heop b hab (by omega)),
      hread]

end

/-! ## Handing on -/

/-- The guest's frame: without the transmit status block, if there is one. -/
def guest_frame (s : State) (data : List UInt8) : List UInt8 :=
  if s.tbuf_ctrl % 2 = 1 then data.drop XMIT_STATUS_SIZE else data

/-- The lengths of a frame to send: from an Ethernet header, behind a status
    block if there is one, up to the packet buffer. -/
def FrameSize (s : State) (size : Nat) : Prop :=
  ETH_HLEN + (if s.tbuf_ctrl % 2 = 1 then XMIT_STATUS_SIZE else 0) ≤ size ∧ size ≤ MAX_FRAME_SIZE

/-- `net_checksum_calculate` leaves the Ethernet header alone. -/
def HeaderKept (net : Net) : Prop :=
  ∀ frame, ETH_HLEN ≤ frame.length →
    (net.checksum frame).take ETH_HLEN = frame.take ETH_HLEN

/-- The frame handed on is the guest's with its checksums filled in, and has
    the guest's addresses and type. -/
def Faithful (net : Net) (guest frame : List UInt8) : Prop :=
  frame = net.checksum guest ∧ frame.take ETH_HLEN = guest.take ETH_HLEN

section

variable {net : Net}

/-- A field of the header, in the frame with its checksums. -/
theorem checksum_type (hnet : HeaderKept net) {frame : List UInt8}
    (h : ETH_HLEN ≤ frame.length) :
    ((net.checksum frame).drop 12).take 2 = (frame.drop 12).take 2 := by
  have hkeep := congrArg (List.drop 12) (hnet frame h)
  rwa [List.drop_take, List.drop_take] at hkeep

/-- The checksums and the type field of `bcm2838_genet_xmit_packet`, for a
    frame at an offset of the packet buffer. -/
def xmit_frame (net : Net) (packet : Memory) (buf len : Nat) : List UInt8 :=
  let packet := packet.write buf (net.checksum (packet.read buf len))
  let len_type := Bytes.be16At (packet.read (buf + 12) 2) 0
  (if len_type < MAX_PAYLOAD_SIZE then packet.write (buf + 12) (Bytes.be16 (len % 2 ^ 16))
    else packet).read buf len

theorem xmit_frame_faithful_iff (hnet : HeaderKept net) {packet : Memory} {buf : Nat}
    {guest : List UInt8} (hmin : ETH_HLEN ≤ guest.length) (hmax : guest.length < 2 ^ 16)
    (hguest : packet.read buf guest.length = guest) :
    Faithful net guest (xmit_frame net packet buf guest.length) ↔
      (MAX_PAYLOAD_SIZE ≤ Bytes.be16At guest 12 ∨ Bytes.be16At guest 12 = guest.length) := by
  have hlen : 12 + 2 ≤ guest.length := hmin
  have hsum : (net.checksum guest).length = guest.length := net.checksum_length guest
  generalize hp : packet.write buf (net.checksum guest) = p
  have hread : p.read buf guest.length = net.checksum guest := by
    rw [← hp, ← hsum]
    exact Memory.read_write_self _ _ _
  have htype : p.read (buf + 12) 2 = Bytes.be16 (Bytes.be16At guest 12) := by
    rw [Bytes.be16_be16At _ hlen, ← checksum_type hnet hmin, ← hread,
      Memory.take_drop_read _ hlen]
  have hfield : Bytes.be16At (p.read (buf + 12) 2) 0 = Bytes.be16At guest 12 := by
    have h := Bytes.be16At_be16 (Bytes.be16At guest 12) []
    rwa [List.append_nil, ← htype, Nat.mod_eq_of_lt (Bytes.be16At_lt guest 12)] at h
  have hgood : Faithful net guest (net.checksum guest) := ⟨rfl, hnet guest hmin⟩
  unfold xmit_frame
  simp only [hguest, hp, hfield, Nat.mod_eq_of_lt hmax]
  by_cases hlt : Bytes.be16At guest 12 < MAX_PAYLOAD_SIZE
  · rw [if_pos hlt]
    constructor
    · -- the field that was written is the one in the checksummed frame
      rintro ⟨hframe, -⟩
      right
      have hwritten : (p.write (buf + 12) (Bytes.be16 guest.length)).read (buf + 12) 2 =
          Bytes.be16 guest.length := Memory.read_write_self _ _ _
      rw [← Memory.take_drop_read _ hlen, hframe, checksum_type hnet hmin,
        ← Bytes.be16_be16At _ hlen] at hwritten
      have h₁ := Bytes.be16At_be16 (Bytes.be16At guest 12) []
      have h₂ := Bytes.be16At_be16 guest.length []
      rw [hwritten, h₂] at h₁
      have hfield_lt := Bytes.be16At_lt guest 12
      omega
    · rintro (hge | heq)
      · omega
      · rw [← heq, ← htype, Memory.write_read_self, heq, hread]
        exact hgood
  · rw [if_neg hlt, hread]
    exact iff_of_true hgood (.inl (by omega))

/-- The frame of a packet buffer is faithful exactly when its type field is
    1500 at least, or is its length. -/
theorem xmit_packet_faithful_iff (hnet : HeaderKept net) (s : State) {packet : Memory}
    {data : List UInt8} (hsize : FrameSize s data.length)
    (hdata : packet.read 0 data.length = data) :
    Faithful net (guest_frame s data) (xmit_packet net s.tbuf_ctrl packet data.length).2 ↔
      (MAX_PAYLOAD_SIZE ≤ Bytes.be16At (guest_frame s data) 12 ∨
        Bytes.be16At (guest_frame s data) 12 = (guest_frame s data).length) := by
  obtain ⟨hmin, hmax⟩ := hsize
  rw [ETH_HLEN, XMIT_STATUS_SIZE] at hmin
  rw [MAX_FRAME_SIZE] at hmax
  -- where the frame is in the buffer
  obtain ⟨off, hoff, hguest, hxmit⟩ : ∃ off, ETH_HLEN + off ≤ data.length ∧
      guest_frame s data = data.drop off ∧
      (xmit_packet net s.tbuf_ctrl packet data.length).2 =
        xmit_frame net packet off (data.length - off) := by
    unfold xmit_packet guest_frame
    rw [XMIT_STATUS_SIZE, ETH_HLEN]
    by_cases htsb : s.tbuf_ctrl % 2 = 1
    · rw [if_pos htsb] at hmin ⊢
      refine ⟨64, hmin, rfl, ?_⟩
      simp only [htsb, show 64 < data.length by omega, and_self, if_true]
      rfl
    · rw [if_neg htsb] at hmin ⊢
      refine ⟨0, hmin, (List.drop_zero).symm, ?_⟩
      simp only [htsb, false_and, if_false, Nat.sub_zero]
      rfl
  have hlen : (guest_frame s data).length = data.length - off := by
    rw [hguest, List.length_drop]
  rw [hxmit, ← hlen]
  apply xmit_frame_faithful_iff hnet
  · omega
  · omega
  · rw [hlen, ← Nat.zero_add off, ← Memory.take_drop_read packet (n := data.length) (by omega),
      hdata, hguest, Nat.zero_add, ← List.length_drop, List.take_length]

end

/-! ## Writes of PROD_INDEX -/

/-- The turns of a PROD_INDEX write at which a frame is handed on. -/
def tx_eops (net : Net) (s : State) (r value : Nat) : List Nat :=
  (List.range (tx_visits net s r value).length).filter (fun i => ex EOP (tx_status s r i) ≠ 0)

section

variable {net : Net} {s : State} {r : Nat}

theorem walk_at_sent (k : Nat) :
    (walk_at net s r k).sent =
      ((List.range k).filter (fun i => ex EOP (tx_status s r i) ≠ 0)).map (tx_frame net s r) := by
  induction k with
  | zero => rfl
  | succ k ih =>
    have hstatus := @walk_at_status net s r EOP (by decide) k
    have hframe : tx_frame net s r k = (xmit_packet net s.tbuf_ctrl
        ((walk_at net s r k).copied s.mem)
        ((walk_at net s r k).copy_off + (walk_at net s r k).copy_len)).2 := rfl
    rw [List.range_succ, List.filter_append, List.map_append, ← ih, walk_at_succ]
    generalize walk_at net s r k = w at *
    by_cases heop : ex EOP (tx_status s r k) ≠ 0
    · have heop' : ex EOP (w.descs (w.read_ptr / DESC_SIZE_WORDS)).length_status ≠ 0 := by
        rwa [← hstatus] at heop
      rw [List.filter_singleton, decide_eq_true heop, cond_true, List.map_singleton, hframe]
      simp only [turn, tx_desc, if_pos heop']
      rfl
    · have heop' : ¬ ex EOP (w.descs (w.read_ptr / DESC_SIZE_WORDS)).length_status ≠ 0 := by
        rwa [← hstatus] at heop
      rw [List.filter_singleton, decide_eq_false heop, cond_false, List.map_nil,
        List.append_nil]
      simp only [turn, tx_desc, if_neg heop']

/-- The frames that a PROD_INDEX write sends, in order. -/
theorem write_tx_sent (hactive : tdma_ring_active s r = true) (value : Nat) :
    (write_tx_prod_index net s r value).2 = (tx_eops net s r value).map (tx_frame net s r) := by
  obtain ⟨k, hk, htx, hturns, -⟩ := tx_eq_walk net s r value
  have hvisits : (tx_visits net s r value).length = k := by
    rw [tx_visits, hturns, List.length_map, List.length_map, List.length_range]
  unfold write_tx_prod_index tdma_prod_index tx_eops
  rw [if_pos hactive, hvisits, ← walk_at_sent]
  by_cases heq : ex CONS_INDEX (s.tdma.rings r).cons_index = ex PROD_INDEX value
  · have hzero : k = 0 := by
      unfold tx_steps at hk
      omega
    simp only [heq, ne_eq, not_true_eq_false, if_false, hzero]
    rfl
  · simp only [heq, ne_eq, not_false_eq_true, if_true, htx]

end

/-- A PROD_INDEX write on an active ring hands on a frame at each EOP that it
    reaches.  The frame of the descriptors from `a` to `b` is the guest's
    exactly when its type field is no length below 1500, or is the length of
    the whole frame. -/
theorem tx_fidelity {net : Net} (hnet : HeaderKept net) {s : State} {r : Nat}
    (hactive : tdma_ring_active s r = true) (value : Nat) :
    (write_tx_prod_index net s r value).2 = (tx_eops net s r value).map (tx_frame net s r) ∧
    ∀ a b, b ∈ tx_eops net s r value → TxChain s r a b →
      FrameSize s (tx_gather s r a b).length →
      (Faithful net (guest_frame s (tx_gather s r a b)) (tx_frame net s r b) ↔
        (MAX_PAYLOAD_SIZE ≤ Bytes.be16At (guest_frame s (tx_gather s r a b)) 12 ∨
          Bytes.be16At (guest_frame s (tx_gather s r a b)) 12 =
            (guest_frame s (tx_gather s r a b)).length)) := by
  refine ⟨write_tx_sent hactive value, ?_⟩
  intro a b _ hchain hsize
  obtain ⟨hlen, hread⟩ := @packet_gathered net s r a b hchain.joined hchain.first
  unfold tx_frame
  simp only [hlen]
  exact xmit_packet_faithful_iff hnet s hsize hread

/-- A ring of one descriptor with a frame of 16 bytes, and the type field of
    its frame. -/
def typed_frame (hi lo : UInt8) : State :=
  { two_descs with
    mem := fun a => if a = 12 then hi else if a = 13 then lo else 1
    tdma :=
      { descs := fun _ => ⟨0x106000, 0, 0⟩
        rings := fun _ => ⟨0, 0, 0, 0, 0, 0, 2, 0⟩
        ring_cfg := 1
        ctrl := 3 } }

/-- An IPv4 frame goes out as it is. -/
theorem ethertype_kept :
    (write_tx_prod_index plain_net (typed_frame 8 0) 0 1).2 =
      [[1, 1, 1, 1, 1, 1, 1, 1, 1, 1, 1, 1, 8, 0, 1, 1]] := by
  have hkept : HeaderKept plain_net := fun _ _ => rfl
  obtain ⟨hsent, hall⟩ := @tx_fidelity plain_net hkept (typed_frame 8 0) 0 (by decide) 1
  have hchain : TxChain (typed_frame 8 0) 0 0 0 :=
    ⟨⟨Nat.le_refl 0, by omega, by omega⟩, .inl rfl, by decide⟩
  have hfaithful := (hall 0 0 (by decide +kernel) hchain
    ⟨by decide +kernel, by decide +kernel⟩).mpr (.inl (by decide +kernel))
  rw [hsent, show tx_eops plain_net (typed_frame 8 0) 0 1 = [0] by decide +kernel,
    List.map_singleton, hfaithful.1]
  decide +kernel

/-- An 802.3 frame with two bytes of payload says so in its length field; it
    goes out with 16 there. -/
theorem length_field_rewritten :
    TxChain (typed_frame 0 2) 0 0 0 ∧
      FrameSize (typed_frame 0 2) (tx_gather (typed_frame 0 2) 0 0 0).length ∧
      guest_frame (typed_frame 0 2) (tx_gather (typed_frame 0 2) 0 0 0) =
        [1, 1, 1, 1, 1, 1, 1, 1, 1, 1, 1, 1, 0, 2, 1, 1] ∧
      (write_tx_prod_index plain_net (typed_frame 0 2) 0 1).2 =
        [[1, 1, 1, 1, 1, 1, 1, 1, 1, 1, 1, 1, 0, 16, 1, 1]] ∧
      ¬ Faithful plain_net (guest_frame (typed_frame 0 2) (tx_gather (typed_frame 0 2) 0 0 0))
        (tx_frame plain_net (typed_frame 0 2) 0 0) := by
  refine ⟨⟨⟨Nat.le_refl 0, by omega, by omega⟩, .inl rfl, by decide⟩, ⟨by decide +kernel,
    by decide +kernel⟩, by decide +kernel, by decide +kernel, ?_⟩
  rintro ⟨-, hheader⟩
  exact absurd hheader (by decide +kernel)

end Genet
