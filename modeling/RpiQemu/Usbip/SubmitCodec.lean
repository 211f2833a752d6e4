import RpiQemu.Usbip.Chunks
import RpiQemu.Usbip.Client

/-! # CMD_SUBMIT: the client's encoder and the server's decoder

    Three programs agree on where the parts of a CMD_SUBMIT lie: the client's
    `pack_cmd_submit`, the server's `usbip_msg_len`, and its
    `usbip_handle_submit`.  The message is a row of ten words, the SETUP, the
    OUT data and the ISO descriptors (`pack_cmd_submit_eq`), so every load the
    server makes is a load of one of these parts.

    What the server makes of a packed message is `accept_cmd`, a function of
    the client's arguments alone: bytes that follow the message play no role. -/

namespace Usbip

open Bytes Relation

/-! ## What a client may submit -/

/-- The arguments describe one transfer: OUT data of exactly the transfer's
    length, as many ISO packets as announced. -/
structure CmdSubmit.WellFormed (c : CmdSubmit) : Prop where
  direction : c.direction = usbip_dir_out ∨ c.direction = usbip_dir_in
  ep : 0 ≤ c.ep ∧ c.ep ≤ 15
  length : 0 ≤ c.length ∧ c.length ≤ usbip_max_xfer
  setup : c.setup.length = 8
  data : (c.data.length : Int) = if c.direction = usbip_dir_out then c.length else 0
  packets : c.number_of_packets ≤ usbip_max_iso_packets
  iso : c.iso.length = c.number_of_packets.toNat

/-- Every ISO packet lies inside the transfer buffer. -/
def CmdSubmit.iso_inside (c : CmdSubmit) : Prop :=
  ∀ p ∈ c.iso, p.offset + p.length ≤ c.length

instance (c : CmdSubmit) : Decidable c.iso_inside :=
  inferInstanceAs (Decidable (∀ p ∈ c.iso, p.offset + p.length ≤ c.length))

/-- On EP0 the direction is the one of `bmRequestType`. -/
def CmdSubmit.dir_agrees (c : CmdSubmit) : Prop :=
  c.ep = 0 → (c.direction = usbip_dir_in ↔ byteAt c.setup 0 / 128 % 2 = 1)

instance (c : CmdSubmit) : Decidable c.dir_agrees :=
  inferInstanceAs (Decidable (c.ep = 0 → _))

/-! ## The layout of a message -/

/-- The ten words of the header. -/
def CmdSubmit.hdr (c : CmdSubmit) : List UInt8 := words (c.items.map Item.word)

def IsoPacket.desc (p : IsoPacket) : List UInt8 := words (p.items.map Item.word)

theorem mapM_pack {ps : List IsoPacket} {ds : List (List UInt8)}
    (h : (ps.mapM fun p => pack p.items) = some ds) :
    (∀ p ∈ ps, ∀ f ∈ p.items, f.fits) ∧ ds.flatten = ps.flatMap IsoPacket.desc := by
  induction ps generalizing ds with
  | nil =>
    rw [List.mapM_nil] at h
    obtain rfl := Option.some.inj h
    exact ⟨by simp, rfl⟩
  | cons p ps ih =>
    rw [List.mapM_cons] at h
    obtain ⟨b, hb, h⟩ := Option.bind_eq_some_iff.mp h
    obtain ⟨bs, hbs, h⟩ := Option.bind_eq_some_iff.mp h
    obtain rfl := Option.some.inj h
    obtain ⟨hp, rfl⟩ := pack_eq_words hb
    obtain ⟨hps, hflat⟩ := ih hbs
    constructor
    · intro q hq
      rcases List.mem_cons.mp hq with rfl | hq
      · exact hp
      · exact hps q hq
    · rw [List.flatten_cons, hflat, List.flatMap_cons]
      rfl

/-- **The layout**: header, SETUP, data, descriptors. -/
theorem pack_cmd_submit_eq {c : CmdSubmit} {msg : List UInt8} (h : pack_cmd_submit c = some msg) :
    (∀ f ∈ c.items, f.fits) ∧ (∀ p ∈ c.iso, ∀ f ∈ p.items, f.fits) ∧
      msg = c.hdr ++ (pack_s 8 c.setup ++ (c.data ++ c.iso.flatMap IsoPacket.desc)) := by
  unfold pack_cmd_submit at h
  obtain ⟨b, hb, h⟩ := Option.bind_eq_some_iff.mp h
  obtain ⟨ds, hds, h⟩ := Option.bind_eq_some_iff.mp h
  obtain rfl := Option.some.inj h
  obtain ⟨hf, rfl⟩ := pack_eq_words hb
  obtain ⟨hp, hflat⟩ := mapM_pack hds
  refine ⟨hf, hp, ?_⟩
  rw [hflat, List.append_assoc, List.append_assoc]
  rfl

@[simp] theorem hdr_length (c : CmdSubmit) : c.hdr.length = 40 := by
  unfold CmdSubmit.hdr
  rw [words_length, List.length_map]
  rfl

theorem desc_length (p : IsoPacket) : p.desc.length = 16 := by
  unfold IsoPacket.desc
  rw [words_length, List.length_map]
  rfl

theorem descs_length (ps : List IsoPacket) :
    (ps.flatMap IsoPacket.desc).length = 16 * ps.length := by
  induction ps with
  | nil => rfl
  | cons p ps ih =>
    rw [List.flatMap_cons, List.length_append, desc_length, ih, List.length_cons]
    omega

/-! ## The header -/

section Packed

variable {c : CmdSubmit} {s : Server}

/-- The words the server loads from the header of a message. -/
structure Header (c : CmdSubmit) (d : List UInt8) : Prop where
  cmd : be32At d 0 = usbip_cmd_submit
  seqnum : (be32At d 0x04 : Int) = c.seqnum
  direction : (be32At d 0x0c : Int) = c.direction
  ep : (be32At d 0x10 : Int) = c.ep
  flags : be32At d 0x14 = ofInt32 c.transfer_flags
  length : toInt32 (be32At d 0x18) = c.length
  start_frame : toInt32 (be32At d 0x1c) = c.start_frame
  packets : toInt32 (be32At d 0x20) = c.number_of_packets
  interval : toInt32 (be32At d 0x24) = c.interval

theorem header_of_items (hf : ∀ f ∈ c.items, f.fits) (r : List UInt8) : Header c (c.hdr ++ r) := by
  -- the fields lie at word 0, 1, 3, ..., 9 of the header
  have hword : ∀ i f, c.items[i]? = some f → be32At (c.hdr ++ r) (4 * i) = f.word := by
    intro i f hi
    exact be32At_items hf r i hi
  constructor
  · exact hword 0 _ rfl
  · rw [hword 1 _ rfl]
    exact Item.word_I (hf _ (by simp [CmdSubmit.items]))
  · rw [hword 3 _ rfl]
    exact Item.word_I (hf _ (by simp [CmdSubmit.items]))
  · rw [hword 4 _ rfl]
    exact Item.word_I (hf _ (by simp [CmdSubmit.items]))
  · exact hword 5 _ rfl
  · rw [hword 6 _ rfl]
    exact Item.word_i (hf _ (by simp [CmdSubmit.items]))
  · rw [hword 7 _ rfl]
    exact Item.word_i (hf _ (by simp [CmdSubmit.items]))
  · rw [hword 8 _ rfl]
    exact Item.word_i (hf _ (by simp [CmdSubmit.items]))
  · rw [hword 9 _ rfl]
    exact Item.word_i (hf _ (by simp [CmdSubmit.items]))

/-- A transfer length is its word, read signed or unsigned. -/
theorem Header.len {d : List UInt8} (h : Header c d)
    (hlen : 0 ≤ c.length ∧ c.length ≤ usbip_max_xfer) :
    be32At d 0x18 = c.length.toNat := by
  have hl := h.length
  have hlt := be32At_lt d 0x18
  unfold toInt32 at hl
  unfold usbip_max_xfer at hlen
  split at hl <;> omega

/-- **The length calculator agrees with the encoder**, whatever follows. -/
theorem msg_len_packed {msg : List UInt8} (hwf : c.WellFormed) (h : pack_cmd_submit c = some msg)
    (suffix : List UInt8) : usbip_msg_len .attached (msg ++ suffix) = msg.length := by
  obtain ⟨hf, _, rfl⟩ := pack_cmd_submit_eq h
  rw [List.append_assoc]
  have hh := header_of_items hf
    ((pack_s 8 c.setup ++ (c.data ++ c.iso.flatMap IsoPacket.desc)) ++ suffix)
  have hlen : ¬ (c.hdr ++ ((pack_s 8 c.setup ++ (c.data ++ c.iso.flatMap IsoPacket.desc)) ++
      suffix)).length < usbip_hdr_len := by
    simp only [List.length_append, hdr_length, pack_s_length, usbip_hdr_len]
    omega
  generalize c.hdr ++ ((pack_s 8 c.setup ++ (c.data ++ c.iso.flatMap IsoPacket.desc)) ++ suffix) = d
    at hh hlen
  obtain ⟨hdir, hep, hlen', _, hdata, hpk, hiso⟩ := hwf
  have hd := hh.direction
  have he := hh.ep
  unfold usbip_msg_len
  rw [if_neg (by decide), if_neg hlen, if_pos hh.cmd]
  simp only [hh.length, hh.packets]
  have hbad : ¬ (be32At d 0x0c > usbip_dir_in ∨ be32At d 0x10 > 15 ∨ c.length < 0 ∨
      c.length > usbip_max_xfer) := by
    unfold usbip_dir_in usbip_dir_out at *
    omega
  rw [if_neg hbad, if_neg (by omega)]
  simp only [List.length_append, hdr_length, pack_s_length, descs_length, hiso]
  have hout : (if be32At d 0x0c = usbip_dir_out then c.length else 0) = (c.data.length : Int) := by
    rw [hdata]
    by_cases ho : c.direction = usbip_dir_out
    · rw [if_pos (by omega), if_pos ho]
    · rw [if_neg (by omega), if_neg ho]
  rw [hout]
  unfold usbip_hdr_len usbip_iso_desc_len
  split <;> omega

/-! ## The decoder -/

/-- The ISO descriptor the server keeps of a packet. -/
def IsoPacket.region (p : IsoPacket) : USBIPIsoDesc where
  offset := p.offset.toNat
  length := p.length.toNat

/-- The descriptors are read back one by one, up to the first one that reaches
    outside the buffer. -/
theorem submit_iso_packed {ps : List IsoPacket} (hf : ∀ p ∈ ps, ∀ f ∈ p.items, f.fits)
    (pre r : List UInt8) (len : Nat) :
    submit_iso (pre ++ (ps.flatMap IsoPacket.desc ++ r)) len ps.length pre.length =
      if ∀ p ∈ ps, p.offset + p.length ≤ len then some (ps.map IsoPacket.region) else none := by
  induction ps generalizing pre with
  | nil => simp [submit_iso]
  | cons p ps ih =>
    have hp : ∀ f ∈ p.items, f.fits := hf p List.mem_cons_self
    have hoff := Item.word_I (hp (.I p.offset) (by simp [IsoPacket.items]))
    have hlen := Item.word_I (hp (.I p.length) (by simp [IsoPacket.items]))
    have hd : pre ++ ((p :: ps).flatMap IsoPacket.desc ++ r) =
        pre ++ p.desc ++ (ps.flatMap IsoPacket.desc ++ r) := by
      simp [List.append_assoc]
    have h0 : be32At (pre ++ ((p :: ps).flatMap IsoPacket.desc ++ r)) pre.length =
        (Item.I p.offset).word := by
      rw [be32At_append_right _ _ _ (Nat.le_refl _), Nat.sub_self, List.flatMap_cons,
        List.append_assoc]
      exact be32At_items hp _ 0 rfl
    have h1 : be32At (pre ++ ((p :: ps).flatMap IsoPacket.desc ++ r)) (pre.length + 4) =
        (Item.I p.length).word := by
      rw [be32At_append_right _ _ _ (by omega), Nat.add_sub_cancel_left, List.flatMap_cons,
        List.append_assoc]
      exact be32At_items hp _ 1 rfl
    have hnext := ih (fun q hq => hf q (List.mem_cons_of_mem _ hq)) (pre ++ p.desc)
    have hpos : (pre ++ p.desc).length = pre.length + usbip_iso_desc_len := by
      rw [List.length_append, desc_length]
      rfl
    rw [hpos, ← hd] at hnext
    rw [List.length_cons]
    unfold submit_iso
    simp only [h0, h1, hnext]
    by_cases hin : p.offset + p.length ≤ len
    · have hgood : ¬ ((Item.I p.offset).word > len ∨
          (Item.I p.length).word > len - (Item.I p.offset).word) := by omega
      rw [if_neg hgood]
      simp only [List.forall_mem_cons, hin, true_and, List.map_cons]
      split <;> rfl
    · have hbad : (Item.I p.offset).word > len ∨
          (Item.I p.length).word > len - (Item.I p.offset).word := by omega
      rw [if_pos hbad]
      simp only [List.forall_mem_cons, hin, false_and, if_false]

/-- The URB the server makes of a message. -/
def CmdSubmit.urb (c : CmdSubmit) (id : Nat) : USBIPURB where
  id := id
  seqnum := c.seqnum.toNat
  epnum := c.ep.toNat
  in_ := decide (c.direction = usbip_dir_in)
  flags := ofInt32 c.transfer_flags
  start_frame := c.start_frame
  number_of_packets := c.number_of_packets.toNat
  interval := c.interval
  setup := c.setup
  len := c.length.toNat
  buf :=
    if c.direction = usbip_dir_in then List.replicate (max c.length.toNat 1) 0
    else splice (List.replicate (max c.length.toNat 1) 0) 0 c.data
  iso := c.iso.map IsoPacket.region

/-- The client's counters with one more URB, under a new identity. -/
def Server.counted (s : Server) (len : Nat) : Server :=
  { s with
    next_id := s.next_id + 1
    nurbs := (s.nurbs + 1) % 2 ^ 32
    urb_bytes := (s.urb_bytes + len) % 2 ^ 64 }

/-- What the server makes of a message, in the client's terms. -/
def accept_cmd (s : Server) (c : CmdSubmit) : Server × Option USBIPURB :=
  let u := c.urb s.next_id
  if ¬ c.dir_agrees then (usbip_drop_client s, none)
  else if s.nurbs ≥ usbip_max_urbs ∨ s.urb_bytes + u.len > usbip_max_urb_bytes then
    (usbip_drop_client s, none)
  else if c.iso_inside then
    ((s.counted u.len).note (.submit u.id u.seqnum (usbip_urb_key u)), some u)
  else (usbip_drop_client (usbip_urb_free (s.counted u.len) u), none)

/-- What the server reads in a packed message and whatever follows it. -/
structure Layout (c : CmdSubmit) (d : List UInt8) : Prop extends Header c d where
  request_type : byteAt d 0x28 = byteAt c.setup 0
  setup : (d.drop 0x28).take 8 = c.setup
  data : c.direction ≠ usbip_dir_in → (d.drop usbip_hdr_len).take c.length.toNat = c.data
  iso : submit_iso d c.length.toNat c.number_of_packets.toNat
      (usbip_hdr_len + if c.direction = usbip_dir_in then 0 else c.length.toNat) =
    if c.iso_inside then some (c.iso.map IsoPacket.region) else none

theorem CmdSubmit.WellFormed.data_length (hwf : c.WellFormed) :
    c.data.length = if c.direction = usbip_dir_in then 0 else c.length.toNat := by
  have hd := hwf.data
  have hl := hwf.length
  rcases hwf.direction with hdir | hdir
  · rw [hdir, if_pos rfl] at hd
    rw [hdir, if_neg (by decide)]
    omega
  · rw [hdir, if_neg (by decide)] at hd
    rw [hdir, if_pos rfl]
    omega

theorem layout_packed {msg : List UInt8} (hwf : c.WellFormed) (h : pack_cmd_submit c = some msg)
    (suffix : List UInt8) : Layout c (msg ++ suffix) := by
  obtain ⟨hf, hiso, rfl⟩ := pack_cmd_submit_eq h
  rw [pack_s_of_length hwf.setup]
  have hhdr := hdr_length c
  have hsetup := hwf.setup
  have hfront : (c.hdr ++ c.setup).length = usbip_hdr_len := by
    rw [List.length_append, hhdr, hsetup]
    rfl
  -- the message with the part in question in front
  have hd1 : c.hdr ++ (c.setup ++ (c.data ++ c.iso.flatMap IsoPacket.desc)) ++ suffix =
      c.hdr ++ (c.setup ++ (c.data ++ (c.iso.flatMap IsoPacket.desc ++ suffix))) := by
    simp only [List.append_assoc]
  have hd2 : c.hdr ++ (c.setup ++ (c.data ++ c.iso.flatMap IsoPacket.desc)) ++ suffix =
      c.hdr ++ c.setup ++ (c.data ++ (c.iso.flatMap IsoPacket.desc ++ suffix)) := by
    simp only [List.append_assoc]
  have hd3 : c.hdr ++ (c.setup ++ (c.data ++ c.iso.flatMap IsoPacket.desc)) ++ suffix =
      c.hdr ++ c.setup ++ c.data ++ (c.iso.flatMap IsoPacket.desc ++ suffix) := by
    simp only [List.append_assoc]
  constructor
  · rw [hd1]
    exact header_of_items hf _
  · rw [hd1, byteAt_append_right _ _ _ (by omega), hhdr,
      byteAt_append_left _ _ _ (by rw [hsetup]; omega)]
  · rw [hd1, List.drop_left' hhdr, List.take_left' hsetup]
  · intro hout
    have hlen := hwf.data_length
    rw [if_neg hout] at hlen
    rw [hd2, List.drop_left' hfront, List.take_left' hlen]
  · have hpos : (c.hdr ++ c.setup ++ c.data).length =
        usbip_hdr_len + if c.direction = usbip_dir_in then 0 else c.length.toNat := by
      rw [List.length_append, hfront, hwf.data_length]
    have hcast : (c.length.toNat : Int) = c.length := Int.toNat_of_nonneg hwf.length.1
    have hdec := submit_iso_packed hiso (c.hdr ++ c.setup ++ c.data) suffix c.length.toNat
    rw [hpos, hcast, hwf.iso] at hdec
    rw [hd3]
    exact hdec

variable {d : List UInt8}

theorem Layout.submit_urb (h : Layout c d) (hwf : c.WellFormed) (s : Server) :
    submit_urb s d =
      (s.counted c.length.toNat, { c.urb s.next_id with number_of_packets := 0, iso := [] }) := by
  have hlen := h.len hwf.length
  have hseq : be32At d 0x04 = c.seqnum.toNat := by
    have := h.seqnum
    omega
  have hep : be32At d 0x10 % 256 = c.ep.toNat := by
    have := h.ep
    have := hwf.ep
    omega
  have hin : decide (be32At d 0x0c = usbip_dir_in) = decide (c.direction = usbip_dir_in) := by
    have := h.direction
    rw [decide_eq_decide]
    omega
  unfold Usbip.submit_urb usbip_urb_new CmdSubmit.urb Server.counted
  simp only [hlen, hseq, hep, hin, h.flags, h.start_frame, h.interval, h.setup,
    decide_eq_true_eq]
  by_cases hd : c.direction = usbip_dir_in
  · simp only [if_pos hd]
  · simp only [if_neg hd, h.data hd]

theorem Layout.bad_dir (h : Layout c d) : submit_bad_dir d = true ↔ ¬ c.dir_agrees := by
  have hep : be32At d 0x10 = 0 ↔ c.ep = 0 := by
    have := h.ep
    omega
  have hdir : be32At d 0x0c = usbip_dir_in ↔ c.direction = usbip_dir_in := by
    have := h.direction
    omega
  unfold submit_bad_dir CmdSubmit.dir_agrees
  simp only [Bool.and_eq_true, decide_eq_true_eq, bne_iff_ne, ne_eq, decide_eq_decide, hep, hdir,
    h.request_type, not_forall, exists_prop]

theorem Layout.over_limit (h : Layout c d) (hwf : c.WellFormed) (s : Server) :
    submit_over_limit s d = true ↔
      s.nurbs ≥ usbip_max_urbs ∨ s.urb_bytes + c.length.toNat > usbip_max_urb_bytes := by
  unfold submit_over_limit Usbip.over_limit
  simp only [Bool.or_eq_true, decide_eq_true_eq, h.len hwf.length]

/-- **The decoder agrees with the encoder**: what `usbip_handle_submit` makes of
    a packed message depends on the client's arguments alone. -/
theorem Layout.submit_accept (h : Layout c d) (hwf : c.WellFormed) (s : Server) :
    submit_accept s d = accept_cmd s c := by
  unfold Usbip.submit_accept accept_cmd
  have hl : (c.urb s.next_id).len = c.length.toNat := rfl
  simp only [h.bad_dir, h.over_limit hwf, h.submit_urb hwf, h.packets, hl]
  by_cases hd : ¬ c.dir_agrees
  · rw [if_pos hd, if_pos hd]
  rw [if_neg hd, if_neg hd]
  by_cases hover : s.nurbs ≥ usbip_max_urbs ∨ s.urb_bytes + c.length.toNat > usbip_max_urb_bytes
  · rw [if_pos hover, if_pos hover]
  rw [if_neg hover, if_neg hover]
  by_cases hnp : 0 < c.number_of_packets
  · have hin : (c.urb s.next_id).in_ = decide (c.direction = usbip_dir_in) := rfl
    rw [if_pos hnp]
    simp only [hin, decide_eq_true_eq, h.iso]
    by_cases hins : c.iso_inside
    · rw [if_pos hins, if_pos hins]
      rfl
    · rw [if_neg hins, if_neg hins]
      rfl
  · -- not isochronous: no descriptor to read
    have hz : c.number_of_packets.toNat = 0 := by omega
    have hnil : c.iso = [] := List.eq_nil_of_length_eq_zero (hwf.iso.trans hz)
    have hins : c.iso_inside := by
      intro p hp
      rw [hnil] at hp
      cases hp
    rw [if_neg hnp, if_pos hins]
    unfold CmdSubmit.urb
    rw [hz, hnil]
    rfl

end Packed

/-! ## A rejected message -/

/-- The server is about to handle the message `d` in state `s`, at some point of
    some run. -/
def Dispatching (s : Server) (d : List UInt8) : Prop :=
  ∃ s₀ c H, Reachable s₀ ∧ Arrive s₀ c ∧ Steps c (.msg d :: H, s)

theorem Dispatching.inv {s : Server} {d : List UInt8} (h : Dispatching s d) :
    ∃ H, Inv (.msg d :: H, s) := by
  obtain ⟨s₀, c, H, hs, harr, hsteps⟩ := h
  have hinv : Inv c := (reachable_inv hs).next (arrive_next (reachable_inv hs) harr)
  have hrun : ∀ c', Steps c c' → Inv c' := by
    intro c' hsteps
    induction hsteps with
    | refl => exact hinv
    | tail _ hstep ih => exact inv_step ih hstep
  exact ⟨H, hrun _ hsteps⟩

/-- The client is dropped and its counters are back at 0. -/
theorem reject_empties {s : Server} {d : List UInt8} (h : Dispatching s d)
    (hrej : (submit_accept s d).2 = none) :
    (submit_accept s d).1.conn = .none ∧ (submit_accept s d).1.nurbs = 0 ∧
      (submit_accept s d).1.urb_bytes = 0 := by
  obtain ⟨H, hinv⟩ := h.inv
  have hcalm : Calm H := hinv.shape
  have hcount : Counted s := hinv.counted hcalm.carried
  -- whether or not the counters were raised before, they count the listed URBs
  obtain ⟨id, n, b, hdrop, _, hkeep⟩ := submit_reject hrej
  have hemp := (drop_client_emptied { s with next_id := id, nurbs := n, urb_bytes := b }
    hinv.wf hinv.distinct).counters (hkeep hcount)
  rw [hdrop]
  exact ⟨drop_client_conn _, hemp⟩

theorem accept_cmd_none {s : Server} {c : CmdSubmit} (h : ¬ c.iso_inside ∨ ¬ c.dir_agrees) :
    (accept_cmd s c).2 = none := by
  unfold accept_cmd
  by_cases hd : ¬ c.dir_agrees
  · rw [if_pos hd]
  · rw [if_neg hd]
    split
    · rfl
    · rw [if_neg (h.resolve_right hd)]

theorem handle_submit_rejected (env : Env) {s : Server} {d : List UInt8}
    (h : (submit_accept s d).2 = none) : usbip_handle_submit env s d = (submit_accept s d).1 := by
  cases hsub : submit_accept s d with
  | mk t o =>
    rw [hsub] at h
    obtain rfl : o = none := h
    exact handle_submit_of env hsub

/-! ## The round trip -/

/-- A turn of the loop of `usbip_parse` on a complete CMD_SUBMIT. -/
theorem parse_loop_submit (env : Env) (n : Nat) (s : Server) (msg suffix : List UInt8)
    (hc : s.conn = .attached) (hrx : s.rx = msg ++ suffix)
    (hlen : usbip_msg_len .attached (msg ++ suffix) = msg.length) (hpos : 0 < msg.length)
    (hcmd : be32At msg 0 = usbip_cmd_submit) :
    usbip_parse_loop env (n + 1) s = usbip_parse_loop env n
      (usbip_handle_submit env (({ s with rx := suffix } : Server).note_msg msg) msg) := by
  have hnot : ¬ ((msg.length : Int) < 0) := by omega
  have hready : ¬ ((msg.length : Int) = 0 ∨ (msg.length : Int) > (msg ++ suffix).length) := by
    rw [List.length_append]
    omega
  have hdisp : usbip_dispatch env { s with rx := suffix } msg =
      usbip_handle_submit env (({ s with rx := suffix } : Server).note_msg msg) msg := by
    unfold usbip_dispatch
    have hop : (({ s with rx := suffix } : Server).note_msg msg).conn ≠ .op := by
      show s.conn ≠ .op
      rw [hc]
      decide
    exact (if_neg hop).trans (if_pos hcmd)
  rw [usbip_parse_loop, if_pos (.inr hc)]
  simp only [hc, hrx, hlen, if_neg hnot, if_neg hready, Int.toNat_natCast, List.take_left,
    List.drop_left]
  rw [← hc]
  exact congrArg _ hdisp

/-- The URB carries what the client submitted.  The flags are the same 32-bit
    word; an URB that is not isochronous has no packets, whatever the client
    put in the field. -/
structure Recovers (c : CmdSubmit) (u : USBIPURB) : Prop where
  seqnum : (u.seqnum : Int) = c.seqnum
  direction : u.in_ = true ↔ c.direction = usbip_dir_in
  ep : (u.epnum : Int) = c.ep
  flags : toInt32 u.flags = c.transfer_flags
  length : (u.len : Int) = c.length
  start_frame : u.start_frame = c.start_frame
  interval : u.interval = c.interval
  setup : u.setup = c.setup
  data : u.in_ = false → u.buf.take u.len = c.data
  packets : (u.number_of_packets : Int) = max c.number_of_packets 0
  iso : u.iso.map (fun d => ((d.offset : Int), (d.length : Int))) =
    c.iso.map fun p => (p.offset, p.length)

theorem recovers_urb {c : CmdSubmit} {msg : List UInt8} (hwf : c.WellFormed)
    (h : pack_cmd_submit c = some msg) (id : Nat) : Recovers c (c.urb id) := by
  obtain ⟨hf, hiso, _⟩ := pack_cmd_submit_eq h
  have hseq : (Item.I c.seqnum).fits := hf _ (by simp [CmdSubmit.items])
  have hflags : (Item.i c.transfer_flags).fits := hf _ (by simp [CmdSubmit.items])
  have hlen := hwf.length
  constructor
  · exact Item.word_I hseq
  · exact decide_eq_true_iff
  · exact Int.toNat_of_nonneg hwf.ep.1
  · exact Item.word_i hflags
  · exact Int.toNat_of_nonneg hlen.1
  · rfl
  · rfl
  · rfl
  · intro hout
    have hdir : c.direction ≠ usbip_dir_in := of_decide_eq_false hout
    have hdata := hwf.data_length
    rw [if_neg hdir] at hdata
    show List.take c.length.toNat (if c.direction = usbip_dir_in then _ else _) = c.data
    rw [if_neg hdir]
    unfold splice
    rw [List.take_zero, List.nil_append, List.take_left' hdata]
  · show (c.number_of_packets.toNat : Int) = _
    omega
  · show (c.iso.map IsoPacket.region).map _ = _
    rw [List.map_map]
    apply List.map_congr_left
    intro p hp
    have hoff : (Item.I p.offset).fits := hiso p hp _ (by simp [IsoPacket.items])
    have hln : (Item.I p.length).fits := hiso p hp _ (by simp [IsoPacket.items])
    exact Prod.ext (Item.word_I hoff) (Item.word_I hln)

/-- **CMD_SUBMIT round trip.**  On the bytes a client packs, followed by any
    others: the server finds the message's length, takes exactly the message
    and leaves the rest; what it makes of it depends on no other byte; within
    the limits it submits an URB with every field of the client's arguments;
    and a message with an ISO packet outside its buffer, or an EP0 direction
    that disagrees with its SETUP, costs the client its connection and leaves
    no URB counted. -/
theorem submit_round_trip (c : CmdSubmit) (msg suffix : List UInt8) (hwf : c.WellFormed)
    (hpack : pack_cmd_submit c = some msg) :
    usbip_msg_len .attached (msg ++ suffix) = msg.length ∧
    (∀ env n s, s.conn = .attached → s.rx = msg ++ suffix →
      usbip_parse_loop env (n + 1) s = usbip_parse_loop env n
        (usbip_handle_submit env (({ s with rx := suffix } : Server).note_msg msg) msg)) ∧
    (∀ env s, usbip_handle_submit env s (msg ++ suffix) = usbip_handle_submit env s msg) ∧
    (∀ env s, s.nurbs < usbip_max_urbs → s.urb_bytes + c.length.toNat ≤ usbip_max_urb_bytes →
      c.iso_inside → c.dir_agrees → ∃ u, Recovers c u ∧
        usbip_handle_submit env s msg = usbip_urb_submit env
          ((s.counted u.len).note (.submit u.id u.seqnum (usbip_urb_key u))) u) ∧
    (∀ env s, Dispatching s msg → ¬ c.iso_inside ∨ ¬ c.dir_agrees →
      (usbip_handle_submit env s msg).conn = .none ∧ (usbip_handle_submit env s msg).nurbs = 0 ∧
        (usbip_handle_submit env s msg).urb_bytes = 0) := by
  have hlen := msg_len_packed hwf hpack suffix
  have hself := msg_len_packed hwf hpack []
  have hlayout := layout_packed hwf hpack suffix
  have hown := layout_packed hwf hpack []
  rw [List.append_nil] at hself hown
  have hhdr : (48 : Int) ≤ msg.length := by
    obtain ⟨_, _, rfl⟩ := pack_cmd_submit_eq hpack
    simp only [List.length_append, hdr_length, pack_s_length]
    omega
  refine ⟨hlen, ?_, ?_, ?_, ?_⟩
  · intro env n s hc hrx
    exact parse_loop_submit env n s msg suffix hc hrx hlen (by omega) hown.cmd
  · intro env s
    cases hacc : accept_cmd s c with
    | mk t o =>
      rw [handle_submit_of env ((hlayout.submit_accept hwf s).trans hacc),
        handle_submit_of env ((hown.submit_accept hwf s).trans hacc)]
  · intro env s hn hb hins hdir
    refine ⟨c.urb s.next_id, recovers_urb hwf hpack _, ?_⟩
    have hlim : ¬ (s.nurbs ≥ usbip_max_urbs ∨
        s.urb_bytes + (c.urb s.next_id).len > usbip_max_urb_bytes) := by
      have hl : (c.urb s.next_id).len = c.length.toNat := rfl
      omega
    have hacc : accept_cmd s c = ((s.counted (c.urb s.next_id).len).note
        (.submit (c.urb s.next_id).id (c.urb s.next_id).seqnum
          (usbip_urb_key (c.urb s.next_id))), some (c.urb s.next_id)) := by
      unfold accept_cmd
      rw [if_neg (not_not.mpr hdir), if_neg hlim, if_pos hins]
    exact handle_submit_of env ((hown.submit_accept hwf s).trans hacc)
  · intro env s hs hbad
    have hrej : (submit_accept s msg).2 = none := by
      rw [hown.submit_accept hwf]
      exact accept_cmd_none hbad
    rw [handle_submit_rejected env hrej]
    exact reject_empties hs hrej

/-- A message read into an empty buffer is handed to the decoder. -/
theorem dispatching_of_read {s : Server} {msg suffix : List UInt8} (hs : Reachable s)
    (hc : s.conn = .attached) (hrx : s.rx = []) (hp : s.parsing = false)
    (hlen : usbip_msg_len .attached (msg ++ suffix) = msg.length) (hpos : 0 < msg.length) :
    ∃ t, Dispatching t msg ∧ t.nurbs = s.nurbs ∧ t.urb_bytes = s.urb_bytes := by
  -- the turn of the parser's loop that takes the message
  have hturn : ∀ t : Server, t.conn = .attached → t.rx = msg ++ suffix →
      ∃ t', Step ([.parse], t) ([.msg msg, .parse], t') ∧ t'.nurbs = t.nurbs ∧
        t'.urb_bytes = t.urb_bytes := by
    intro t htc htrx
    have hlen' : usbip_msg_len t.conn t.rx = msg.length := by
      rw [htc, htrx]
      exact hlen
    have hready : ready t := by
      refine ⟨.inr htc, ?_, ?_⟩
      · rw [hlen']
        omega
      · rw [hlen', htrx, List.length_append]
        omega
    have hmsg : t.message = msg := by
      unfold Server.message
      rw [hlen', htrx]
      exact List.take_left
    have hstep := Step.parse_msg t hready (H := [])
    rw [hmsg] at hstep
    exact ⟨_, hstep, rfl, rfl⟩
  have harr := Arrive.read s (msg ++ suffix) (.inr hc)
  have hbegin := Step.parse_begin (H := []) { s with
    rx := s.rx ++ (msg ++ suffix), received := s.received ++ (msg ++ suffix) } hp
  obtain ⟨t', hstep, hcounted⟩ := hturn { s with
    rx := s.rx ++ (msg ++ suffix), received := s.received ++ (msg ++ suffix), parsing := true } hc
    (by rw [hrx, List.nil_append])
  exact ⟨t', ⟨s, _, [.parse], hs, harr, .tail (.single hbegin) hstep⟩, hcounted⟩

/-- An isochronous OUT transfer of two packets. -/
def iso_out : CmdSubmit where
  seqnum := 7
  devid := 0x10001
  direction := 0
  ep := 1
  transfer_flags := 2
  length := 4
  start_frame := 0
  number_of_packets := 2
  interval := 1
  setup := List.replicate 8 0
  data := [1, 2, 3, 4]
  iso := [{ offset := 0, length := 2 }, { offset := 2, length := 2 }]

/-- The same transfer with a packet that reaches outside the buffer. -/
def iso_outside : CmdSubmit :=
  { iso_out with iso := [{ offset := 0, length := 2 }, { offset := 2, length := 3 }] }

/-- The message of `iso_out` is taken and decoded; that of `iso_outside`, sent by
    a client that has just imported the device, costs it the connection. -/
theorem iso_out_round_trip :
    (∃ msg, pack_cmd_submit iso_out = some msg ∧ usbip_msg_len .attached (msg ++ [9, 9]) = 84 ∧
      ∃ u, Recovers iso_out u ∧
        usbip_handle_submit hold_env { conn := .attached } msg = usbip_urb_submit hold_env
          (({ conn := .attached } : Server).counted u.len |>.note
            (.submit u.id u.seqnum (usbip_urb_key u))) u) ∧
    (∃ msg s, pack_cmd_submit iso_outside = some msg ∧ Dispatching s msg ∧
      (usbip_handle_submit hold_env s msg).conn = .none ∧
      (usbip_handle_submit hold_env s msg).nurbs = 0 ∧
      (usbip_handle_submit hold_env s msg).urb_bytes = 0) := by
  have hwf : iso_out.WellFormed :=
    ⟨.inl rfl, by decide, by decide, rfl, rfl, by decide, rfl⟩
  have hwf' : iso_outside.WellFormed :=
    ⟨.inl rfl, by decide, by decide, rfl, rfl, by decide, rfl⟩
  constructor
  · obtain ⟨msg, hmsg⟩ : ∃ msg, pack_cmd_submit iso_out = some msg :=
      Option.isSome_iff_exists.mp (by decide)
    obtain ⟨hlen, _, _, hdec, _⟩ := submit_round_trip iso_out msg [9, 9] hwf hmsg
    have hbytes : msg.length = 84 := by
      have : (pack_cmd_submit iso_out).map List.length = some 84 := by decide
      rw [hmsg] at this
      exact Option.some.inj this
    rw [hbytes] at hlen
    exact ⟨msg, hmsg, hlen, hdec hold_env { conn := .attached } (by decide) (by decide) (by decide)
      (by decide)⟩
  · obtain ⟨msg, hmsg⟩ : ∃ msg, pack_cmd_submit iso_outside = some msg :=
      Option.isSome_iff_exists.mp (by decide)
    obtain ⟨hlen, _, _, _, hdrop⟩ := submit_round_trip iso_outside msg [] hwf' hmsg
    have hbytes : msg.length = 84 := by
      have : (pack_cmd_submit iso_outside).map List.length = some 84 := by decide
      rw [hmsg] at this
      exact Option.some.inj this
    have hsess : let s := run (Server.init true) import_session
        s.conn = .attached ∧ s.rx = [] ∧ s.parsing = false := by decide +kernel
    obtain ⟨hc, hrx, hp⟩ := hsess
    obtain ⟨t, ht, _⟩ := dispatching_of_read ⟨true, import_session, rfl⟩ hc hrx hp hlen (by omega)
    exact ⟨msg, t, hmsg, ht, hdrop hold_env t ht (.inl (by decide))⟩

/-- A control IN transfer that announces -1 packets, as Linux does for an URB
    that is not isochronous. -/
def not_iso : CmdSubmit where
  seqnum := 1
  devid := 0x10001
  direction := 1
  ep := 0
  transfer_flags := 0
  length := 18
  start_frame := 0
  number_of_packets := -1
  interval := 0
  setup := [0x80, 6, 0, 1, 0, 0, 18, 0]

/-- The field of `not_iso` is not recovered: the URB the server submits has 0
    packets, not -1. -/
theorem negative_packets_not_recovered :
    not_iso.WellFormed ∧ not_iso.iso_inside ∧ not_iso.dir_agrees ∧
    ∃ msg, pack_cmd_submit not_iso = some msg ∧
      ∃ u, (submit_accept { conn := .attached } msg).2 = some u ∧
        (u.number_of_packets : Int) = 0 ∧
        (u.number_of_packets : Int) ≠ not_iso.number_of_packets := by
  have hwf : not_iso.WellFormed :=
    ⟨.inr rfl, by decide, by decide, rfl, rfl, by decide, rfl⟩
  obtain ⟨msg, hmsg⟩ : ∃ msg, pack_cmd_submit not_iso = some msg :=
    Option.isSome_iff_exists.mp (by decide)
  have hlayout := layout_packed hwf hmsg []
  rw [List.append_nil] at hlayout
  refine ⟨hwf, by decide, by decide, msg, hmsg, not_iso.urb 0, ?_, rfl, by decide⟩
  rw [hlayout.submit_accept hwf]
  rfl

end Usbip
