import RpiQemu.Usbip.ReplyCodec

/-! # The list of devices

    The DEVLIST reply is a header, the number of devices, and for the device a
    record and its interface entries.  The client learns the number of entries
    from one byte of the record; the server fills this byte and sends the
    entries in two walks over the same configuration descriptor.

    `alt0_interfaces` says what the walks should find, in terms of the
    descriptors themselves.  The byte holds their number modulo 256, so the
    client is in step exactly when there are fewer than 256. -/

namespace Usbip

open Bytes

/-! ## Configuration descriptors -/

/-- The descriptors of a configuration, each with all that follows it: a
    descriptor begins with its length and its type, and a length below 2 ends
    the list. -/
def descriptors : Nat → List UInt8 → List (List UInt8)
  | 0, _ => []
  | n + 1, d =>
    if 2 ≤ d.length ∧ 2 ≤ byteAt d 0 then d :: descriptors n (d.drop (byteAt d 0)) else []

/-- A complete interface descriptor of alternate setting 0. -/
def alt0_interface (d : List UInt8) : Bool :=
  decide (byteAt d 1 = 4 ∧ 9 ≤ byteAt d 0 ∧ 9 ≤ d.length ∧ byteAt d 3 = 0)

/-- The class, subclass and protocol of every interface descriptor of alternate
    setting 0, in order. -/
def alt0_interfaces (cfg : List UInt8) : List (UInt8 × UInt8 × UInt8) :=
  ((descriptors cfg.length cfg).filter alt0_interface).map fun d =>
    (d.getD 5 0, d.getD 6 0, d.getD 7 0)

/-- The four bytes sent for an interface. -/
def interface_entry (t : UInt8 × UInt8 × UInt8) : List UInt8 := [t.1, t.2.1, t.2.2, 0]

theorem getD_drop (cfg : List UInt8) (i j : Nat) : (cfg.drop i).getD j 0 = cfg.getD (i + j) 0 := by
  rw [List.getD_eq_getElem?_getD, List.getD_eq_getElem?_getD, List.getElem?_drop]

theorem byteAt_drop (cfg : List UInt8) (i j : Nat) :
    byteAt (cfg.drop i) j = byteAt cfg (i + j) := by
  unfold byteAt
  rw [getD_drop]

/-- The server's walk by index is the walk over the descriptors. -/
theorem interfaces_eq (cfg : List UInt8) (n i : Nat) :
    usbip_interfaces cfg cfg.length n i =
      (((descriptors n (cfg.drop i)).filter alt0_interface).map fun d =>
        (d.getD 5 0, d.getD 6 0, d.getD 7 0)).map interface_entry := by
  induction n generalizing i with
  | zero => rfl
  | succ n ih =>
    unfold usbip_interfaces descriptors
    have hlen : 2 ≤ (cfg.drop i).length ↔ i + 2 ≤ cfg.length := by
      rw [List.length_drop]
      omega
    have h0 : byteAt (cfg.drop i) 0 = byteAt cfg i := byteAt_drop cfg i 0
    by_cases hc : i + 2 ≤ cfg.length ∧ 2 ≤ byteAt cfg i
    · have hc' : 2 ≤ (cfg.drop i).length ∧ 2 ≤ byteAt (cfg.drop i) 0 := by
        rw [hlen, h0]
        exact hc
      rw [if_pos hc, if_pos hc', h0, List.drop_drop]
      have hif : alt0_interface (cfg.drop i) = true ↔ byteAt cfg (i + 1) = 4 ∧ 9 ≤ byteAt cfg i ∧
          i + 9 ≤ cfg.length ∧ byteAt cfg (i + 3) = 0 := by
        unfold alt0_interface
        rw [decide_eq_true_iff, byteAt_drop, byteAt_drop, byteAt_drop, List.length_drop,
          Nat.add_zero]
        constructor
        · rintro ⟨h1, h2, h3, h4⟩
          exact ⟨h1, h2, by omega, h4⟩
        · rintro ⟨h1, h2, h3, h4⟩
          exact ⟨h1, h2, by omega, h4⟩
      by_cases halt : byteAt cfg (i + 1) = 4 ∧ 9 ≤ byteAt cfg i ∧ i + 9 ≤ cfg.length ∧
          byteAt cfg (i + 3) = 0
      · rw [List.filter_cons_of_pos (hif.mpr halt)]
        simp only [if_pos halt, List.map_cons, interface_entry, getD_drop, ih]
      · rw [List.filter_cons_of_neg (mt hif.mp halt)]
        simp only [if_neg halt, ih]
    · have hc' : ¬ (2 ≤ (cfg.drop i).length ∧ 2 ≤ byteAt (cfg.drop i) 0) := by
        rw [hlen, h0]
        exact hc
      rw [if_neg hc, if_neg hc']
      rfl

theorem count_interfaces_eq {s : Server} (h : s.cfg_desc.length = s.cfg_len) :
    usbip_count_interfaces s = (alt0_interfaces s.cfg_desc).map interface_entry := by
  unfold usbip_count_interfaces alt0_interfaces
  rw [← h, interfaces_eq]
  rfl

/-! ## What the server sends -/

/-- The reply for a device that is listed. -/
def devlist_bytes (s : Server) : List UInt8 :=
  be16 usbip_version ++ be16 usbip_op_rep_devlist ++ be32 0 ++ (be32 1 ++ (device_record s ++
    (usbip_count_interfaces s).flatten))

theorem reply_devlist_out {s : Server} (hc : s.conn ≠ .none) (hp : s.present = true)
    (he : s.enumerated = true) : (usbip_reply_devlist s).out = s.out ++ devlist_bytes s := by
  have hlisted : (s.present && s.enumerated) = true := by
    rw [hp, he]
    rfl
  -- each write leaves the descriptors and the connection alone
  have hsend : ∀ (t : Server) (d : List UInt8), t.conn ≠ .none → (usbip_send t d).conn ≠ .none ∧
      (usbip_send t d).out = t.out ++ d ∧ device_record (usbip_send t d) = device_record t ∧
      usbip_count_interfaces (usbip_send t d) = usbip_count_interfaces t := by
    intro t d ht
    obtain ⟨hout, hconn⟩ := usbip_send_out d ht
    obtain ⟨_, _, _, _, heq⟩ := usbip_send_sent t d
    refine ⟨hconn ▸ ht, hout, ?_, ?_⟩
    · rw [heq]
      rfl
    · rw [heq]
      rfl
  unfold usbip_reply_devlist usbip_send_op_header usbip_send_device_record devlist_bytes
  simp only [hlisted, if_true]
  obtain ⟨hc1, hout1, hrec1, hifs1⟩ := hsend s _ hc
  obtain ⟨hc2, hout2, hrec2, hifs2⟩ := hsend _ (be32 1) hc1
  obtain ⟨hc3, hout3, _, hifs3⟩ := hsend _ (device_record s) hc2
  rw [hrec2, hrec1, (foldl_send_out _ hc3).1, hout3, hout2, hout1, hifs3, hifs2, hifs1]
  simp only [List.append_assoc]

/-! ## What the client reads -/

section Reading

variable {c : UsbipClient}

theorem recv_interfaces_take (ts : List (UInt8 × UInt8 × UInt8)) (k : Nat) (hk : k ≤ ts.length)
    (later : List UInt8) :
    ({ c with sock := (ts.map interface_entry).flatten ++ later } : UsbipClient).recv_interfaces k =
      .ok (ts.take k, { c with sock := ((ts.drop k).map interface_entry).flatten ++ later }) := by
  induction k generalizing ts with
  | zero => rfl
  | succ k ih =>
    cases ts with
    | nil => exact absurd hk (Nat.not_succ_le_zero k)
    | cons t ts =>
      have hrest := ih ts (Nat.le_of_succ_le_succ hk)
      rw [List.map_cons, List.flatten_cons, List.append_assoc, List.take_succ_cons,
        List.drop_succ_cons]
      unfold UsbipClient.recv_interfaces
      have hrecv := recv_exact_append (c := c) (n := 4) (interface_entry t)
        ((ts.map interface_entry).flatten ++ later) rfl
      rw [hrecv, ok_bind]
      dsimp only
      rw [hrest]
      rfl

theorem pstrcpy_length (n : Nat) (str : List UInt8) (hn : 0 < n) : (pstrcpy n str).length = n := by
  unfold pstrcpy
  rw [List.length_append, List.length_take, List.length_replicate]
  omega

/-- The record up to its last byte, and the count of the interfaces. -/
theorem device_record_eq (s : Server) : ∃ front, front.length = 0x137 ∧
    device_record s = front ++ [UInt8.ofNat (usbip_count_interfaces s).length] := by
  unfold device_record
  refine ⟨pstrcpy 256 usbip_path ++ pstrcpy usbip_busid_len usbip_busid ++ be32 1 ++ be32 1 ++
    be32 (usbip_speed s.speed) ++ be16 (le16At s.dev_desc 8) ++ be16 (le16At s.dev_desc 10) ++
    be16 (le16At s.dev_desc 12) ++
    [s.dev_desc.getD 4 0, s.dev_desc.getD 5 0, s.dev_desc.getD 6 0, 0, s.dev_desc.getD 17 0],
    ?_, ?_⟩
  · simp only [List.length_append, be32_length, be16_length, List.length_cons, List.length_nil,
      pstrcpy_length _ _ (show 0 < 256 by omega),
      pstrcpy_length _ _ (show 0 < usbip_busid_len by decide)]
    rfl
  · simp only [List.append_assoc, List.cons_append, List.nil_append]

theorem device_record_length (s : Server) : (device_record s).length = dev_rec_len := by
  obtain ⟨front, hlen, heq⟩ := device_record_eq s
  rw [heq, List.length_append, hlen]
  rfl

/-- The byte of the record that counts the interfaces. -/
theorem record_num_interfaces (s : Server) :
    (DeviceRecord.unpack (device_record s)).num_interfaces =
      (usbip_count_interfaces s).length % 256 := by
  obtain ⟨front, hlen, heq⟩ := device_record_eq s
  have hbyte : byteAt (device_record s) 0x137 = (usbip_count_interfaces s).length % 256 := by
    rw [heq, byteAt_append_right _ _ _ (by omega), hlen, Nat.sub_self]
    exact UInt8.toNat_ofNat'
  exact hbyte

/-- The header of the reply. -/
theorem op_devlist (rest : List UInt8) :
    ({ c with sock := be16 usbip_version ++ be16 usbip_op_rep_devlist ++ be32 0 ++ rest } :
      UsbipClient).op usbip_op_req_devlist = .ok ((usbip_op_rep_devlist, 0), { c with
        sent := c.sent ++ [be16 usbip_version ++ be16 usbip_op_req_devlist ++ be32 0]
        sock := rest }) := by
  have hhdr := recv_exact_append (n := usbip_op_hdr_len)
    (c := { c with sent := c.sent ++ [be16 usbip_version ++ be16 usbip_op_req_devlist ++ be32 0] })
    (be16 usbip_version ++ be16 usbip_op_rep_devlist ++ be32 0) rest rfl
  have hver : be16At (be16 usbip_version ++ be16 usbip_op_rep_devlist ++ be32 0) 0 =
      usbip_version := by
    decide
  have hcode : be16At (be16 usbip_version ++ be16 usbip_op_rep_devlist ++ be32 0) 2 =
      usbip_op_rep_devlist := by decide
  have hstatus : be32At (be16 usbip_version ++ be16 usbip_op_rep_devlist ++ be32 0) 4 = 0 := by
    decide
  unfold UsbipClient.op
  dsimp only
  rw [hhdr, ok_bind]
  dsimp only
  rw [hver, hcode, hstatus]
  rfl

/-- The record and as many entries as it announces. -/
theorem recv_record (s : Server) (ts : List (UInt8 × UInt8 × UInt8)) (later : List UInt8)
    (hnum : (DeviceRecord.unpack (device_record s)).num_interfaces = ts.length % 256) :
    ({ c with sock := device_record s ++ ((ts.map interface_entry).flatten ++ later) } :
      UsbipClient).recv_records 1 = .ok
        ([{ DeviceRecord.unpack (device_record s) with interfaces := ts.take (ts.length % 256) }],
        { c with sock := ((ts.drop (ts.length % 256)).map interface_entry).flatten ++ later }) := by
  have hrec := recv_exact_append (c := c) (n := dev_rec_len) (device_record s)
    ((ts.map interface_entry).flatten ++ later) (congrArg Nat.cast (device_record_length s)).symm
  have hifs := recv_interfaces_take (c := c) ts (ts.length % 256) (Nat.mod_le _ _) later
  unfold UsbipClient.recv_records
  rw [hrec, ok_bind]
  dsimp only
  rw [hnum, hifs, ok_bind]
  rfl

/-- What `devlist` makes of the reply: the record says how many entries there
    are modulo 256, so many are read, and the others are left behind. -/
theorem devlist_reads (s : Server) (h : s.cfg_desc.length = s.cfg_len) (later : List UInt8) :
    let ts := alt0_interfaces s.cfg_desc
    ∃ r c', ({ c with sock := devlist_bytes s ++ later } : UsbipClient).devlist = .ok ([r], c') ∧
      r.num_interfaces = ts.length % 256 ∧ r.interfaces = ts.take (ts.length % 256) ∧
      c'.sock = ((ts.drop (ts.length % 256)).map interface_entry).flatten ++ later := by
  intro ts
  have hifs : usbip_count_interfaces s = ts.map interface_entry := count_interfaces_eq h
  have hnum := record_num_interfaces s
  rw [hifs, List.length_map] at hnum
  have hone : be32At (be32 1) 0 = 1 := by decide
  have hcount := recv_exact_append (n := 4)
    (c := { c with sent := c.sent ++ [be16 usbip_version ++ be16 usbip_op_req_devlist ++ be32 0] })
    (be32 1) (device_record s ++ ((ts.map interface_entry).flatten ++ later)) rfl
  have hrec := recv_record (c := { c with
    sent := c.sent ++ [be16 usbip_version ++ be16 usbip_op_req_devlist ++ be32 0] }) s ts later hnum
  refine ⟨{ DeviceRecord.unpack (device_record s) with interfaces := ts.take (ts.length % 256) },
    { c with
      sent := c.sent ++ [be16 usbip_version ++ be16 usbip_op_req_devlist ++ be32 0]
      sock := ((ts.drop (ts.length % 256)).map interface_entry).flatten ++ later },
    ?_, hnum, rfl, rfl⟩
  unfold devlist_bytes UsbipClient.devlist
  rw [hifs, List.append_assoc, List.append_assoc (be32 1), List.append_assoc (device_record s),
    op_devlist, ok_bind]
  dsimp only
  rw [if_neg (by decide), hcount, ok_bind]
  dsimp only
  rw [hone]
  exact hrec

end Reading

/-! ## In step or not -/

/-- The client is in step with the server: it consumes exactly the reply, and
    returns one record with every interface of alternate setting 0. -/
def devlist_in_step (s : Server) (c : UsbipClient) : Prop :=
  ∃ bytes, (usbip_reply_devlist s).out = s.out ++ bytes ∧ ∀ later, ∃ r c',
    ({ c with sock := bytes ++ later } : UsbipClient).devlist = .ok ([r], c') ∧ c'.sock = later ∧
      r.interfaces = alt0_interfaces s.cfg_desc ∧
      r.num_interfaces = (alt0_interfaces s.cfg_desc).length

theorem not_in_step {s : Server} {c : UsbipClient} (hc : s.conn ≠ .none) (hp : s.present = true)
    (he : s.enumerated = true) (hcfg : s.cfg_desc.length = s.cfg_len)
    (hmany : 256 ≤ (alt0_interfaces s.cfg_desc).length) : ¬ devlist_in_step s c := by
  rintro ⟨bytes, hout, hread⟩
  rw [reply_devlist_out hc hp he] at hout
  obtain rfl := List.append_cancel_left hout
  obtain ⟨r, c', hok, _, _, hnum⟩ := hread []
  obtain ⟨r', c'', hok', hnum', _⟩ := devlist_reads (c := c) s hcfg []
  rw [hok] at hok'
  cases hok'
  -- the byte is below 256
  rw [hnum] at hnum'
  omega

/-- **The DEVLIST reply is self-delimiting exactly when the device has fewer
    than 256 interfaces of alternate setting 0.** -/
theorem devlist_self_delimiting (s : Server) (c : UsbipClient) (hc : s.conn ≠ .none)
    (hp : s.present = true) (he : s.enumerated = true) (hcfg : s.cfg_desc.length = s.cfg_len) :
    devlist_in_step s c ↔ (alt0_interfaces s.cfg_desc).length < 256 := by
  constructor
  · intro h
    by_contra hmany
    exact not_in_step hc hp he hcfg (Nat.not_lt.mp hmany) h
  · intro hfew
    refine ⟨_, reply_devlist_out hc hp he, ?_⟩
    intro later
    obtain ⟨r, c', hok, hnum, hifs, hsock⟩ := devlist_reads (c := c) s hcfg later
    rw [Nat.mod_eq_of_lt hfew] at hnum hifs hsock
    rw [List.take_length] at hifs
    rw [List.drop_length] at hsock
    exact ⟨r, c', hok, hsock, hifs, hnum⟩

/-- An interface descriptor of alternate setting 0. -/
def vendor_interface : List UInt8 := [9, 4, 0, 0, 0, 0xff, 0, 0, 0]

/-- A server whose device has this configuration. -/
def listing (cfg : List UInt8) : Server :=
  { conn := .op, present := true, enumerated := true, cfg_desc := cfg, cfg_len := cfg.length }

/-- A configuration with one interface. -/
def one_interface : List UInt8 := [9, 2, 18, 0, 1, 1, 0, 0, 0] ++ vendor_interface

/-- A configuration of 2313 bytes with 256 interfaces. -/
def many_interfaces : List UInt8 :=
  [9, 2, 9, 9, 0, 1, 0, 0, 0] ++ (List.replicate 256 vendor_interface).flatten

/-- The client lists a device with one interface. -/
theorem one_interface_in_step : devlist_in_step (listing one_interface) {} :=
  (devlist_self_delimiting (listing one_interface) {} (by decide) rfl rfl rfl).mpr (by decide)

/-- The client does not list a device with 256 interfaces: the record counts 0. -/
theorem many_interfaces_out_of_step :
    many_interfaces.length = 2313 ∧ (alt0_interfaces many_interfaces).length = 256 ∧
      ¬ devlist_in_step (listing many_interfaces) {} := by
  have hcount : many_interfaces.length = 2313 ∧ (alt0_interfaces many_interfaces).length = 256 := by
    decide +kernel
  exact ⟨hcount.1, hcount.2, not_in_step (by decide) rfl rfl rfl (Nat.le_of_eq hcount.2.symm)⟩

end Usbip
