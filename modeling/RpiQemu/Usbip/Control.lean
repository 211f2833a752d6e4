import RpiQemu.Usbip.SubmitCodec

/-! # Control transfers and their buffers

    A control transfer has two lengths: wLength in its SETUP packet, which the
    USB core copies to or from the packet, and the length of the URB's buffer.
    The core asserts that the copy fits.

    `control_safe_iff`: `usbip_handle_submit` compares the two nowhere, so a
    message is safe when they happen to agree, or when something else refuses it. -/

namespace Usbip

open Bytes

/-- wLength: bytes 6 and 7 of a SETUP packet. -/
def wLength (setup : List UInt8) : Nat := byteAt setup 6 + 256 * byteAt setup 7

/-- What the core asserts of a control transfer: wLength fits the packet. -/
def USBPacket.copies_fit (p : USBPacket) : Prop := wLength p.parameter ≤ p.iov_size

instance (p : USBPacket) : Decidable p.copies_fit := inferInstanceAs (Decidable (_ ≤ _))

/-- The SETUP packet of a `CMD_SUBMIT`. -/
def submit_setup (d : List UInt8) : List UInt8 := (d.drop 0x28).take 8

/-- The message is for a single packet. -/
def submit_single (d : List UInt8) : Bool := decide (toInt32 (be32At d 0x20) ≤ 0)

/-- An EP0 message cannot make the core overrun its URB: the control transfer that is
    handed to the device fits, and a client that asks for more is dropped. -/
structure ControlSafe (s : Server) (d : List UInt8) : Prop where
  fits : ∀ u, (submit_accept s d).2 = some u → u.number_of_packets = 0 →
    (usbip_urb_packet u).packet.copies_fit
  dropped : submit_single d = true → be32At d 0x18 < wLength (submit_setup d) →
    (submit_accept s d).2 = none ∧ (submit_accept s d).1.conn = .none

/-- The packet of an EP0 URB. -/
theorem urb_packet_control {u : USBIPURB} (h : u.epnum = 0) :
    (usbip_urb_packet u).packet.parameter = u.setup ∧
      (usbip_urb_packet u).packet.iov_size = u.len := by
  unfold usbip_urb_packet
  have hep : (usb_packet_setup u (if u.epnum = 0 then decide (byteAt u.setup 0 / 128 % 2 = 1)
      else u.in_) u.short_not_ok 0 u.len).epnum = 0 := h
  dsimp only
  rw [if_pos hep]
  exact ⟨rfl, rfl⟩

/-- A message that is refused costs the client its connection. -/
theorem submit_refused {s : Server} {d : List UInt8}
    (h : submit_bad_dir d = true ∨ submit_over_limit s d = true) :
    (submit_accept s d).2 = none ∧ (submit_accept s d).1.conn = .none := by
  unfold submit_accept
  by_cases hdir : submit_bad_dir d = true
  · rw [if_pos hdir]
    exact ⟨rfl, drop_client_conn s⟩
  · rw [if_neg hdir, if_pos (h.resolve_left hdir)]
    exact ⟨rfl, drop_client_conn s⟩

/-- An URB that is accepted has the lengths of its message. -/
theorem submit_accepted {s : Server} {d : List UInt8} {u : USBIPURB}
    (h : (submit_accept s d).2 = some u) :
    u.epnum = be32At d 0x10 % 256 ∧ u.setup = submit_setup d ∧ u.len = be32At d 0x18 := by
  rcases submit_accept_cases s d with ⟨t, _, heq⟩ | ⟨np, iso, heq, _⟩
  · rw [heq] at h
    cases h
  · rw [heq] at h
    obtain rfl := Option.some.inj h
    exact ⟨rfl, rfl, rfl⟩

/-- A single packet that nothing refuses is accepted. -/
theorem submit_single_accepted {s : Server} {d : List UInt8} (hnp : submit_single d = true)
    (hdir : submit_bad_dir d = false) (hlim : submit_over_limit s d = false) :
    ∃ u, (submit_accept s d).2 = some u ∧ u.number_of_packets = 0 := by
  have hnp' : ¬ 0 < toInt32 (be32At d 0x20) := by
    unfold submit_single at hnp
    have hle := of_decide_eq_true hnp
    omega
  rw [submit_accept_eq rfl rfl, if_neg (by simp [hdir]), if_neg (by simp [hlim]), if_neg hnp']
  exact ⟨_, rfl, rfl⟩

/-- An URB that announces packets has them. -/
theorem submit_iso_count {s : Server} {d : List UInt8} {u : USBIPURB}
    (h : (submit_accept s d).2 = some u) (hpos : 0 < toInt32 (be32At d 0x20)) :
    0 < u.number_of_packets := by
  rw [submit_accept_eq rfl rfl] at h
  split at h
  · cases h
  split at h
  · cases h
  split at h
  · cases h
  · obtain rfl := Option.some.inj h
    show 0 < (toInt32 (be32At d 0x20)).toNat
    omega

/-- **An EP0 message is safe exactly when its lengths agree, it is for no single
    packet, or its direction or the client's limits refuse it.** -/
theorem control_safe_iff (s : Server) (d : List UInt8) (hep : be32At d 0x10 = 0) :
    ControlSafe s d ↔
      wLength (submit_setup d) ≤ be32At d 0x18 ∨ submit_single d = false ∨
        submit_bad_dir d = true ∨ submit_over_limit s d = true := by
  constructor
  · intro h
    by_contra hnot
    simp only [not_or, Bool.not_eq_false, Bool.not_eq_true] at hnot
    obtain ⟨hlong, hnp, hdir, hlim⟩ := hnot
    obtain ⟨u, hacc, _⟩ := submit_single_accepted hnp hdir hlim
    have hnone := (h.dropped hnp (Nat.not_le.mp hlong)).1
    rw [hacc] at hnone
    cases hnone
  · intro h
    refine ⟨fun u hacc hnp => ?_, fun hnp hlong => ?_⟩
    · obtain ⟨hepnum, hsetup, hlen⟩ := submit_accepted hacc
      rw [hep] at hepnum
      obtain ⟨hparam, hsize⟩ := urb_packet_control hepnum
      show wLength _ ≤ _
      rw [hparam, hsize, hsetup, hlen]
      rcases h with hfit | hiso | hrefused
      · exact hfit
      · -- the URB would have packets
        exfalso
        have hpos : 0 < toInt32 (be32At d 0x20) := by
          unfold submit_single at hiso
          have hgt := of_decide_eq_false hiso
          omega
        have hcount := submit_iso_count hacc hpos
        omega
      · rw [(submit_refused hrefused).1] at hacc
        cases hacc
    · rcases h with hfit | hiso | hrefused
      · omega
      · rw [hiso] at hnp
        cases hnp
      · exact submit_refused hrefused

/-- The message of a GET_DESCRIPTOR for 18 bytes, with a buffer of `len`. -/
def get_descriptor (len : Nat) : CmdSubmit where
  seqnum := 1
  devid := 0x10001
  direction := 1
  ep := 0
  transfer_flags := 0
  length := len
  start_frame := 0
  number_of_packets := 0
  interval := 0
  setup := [0x80, 6, 0, 1, 0, 0, 18, 0]

/-- With a buffer of 18 bytes it is safe. -/
theorem fitting_safe : ∃ msg, pack_cmd_submit (get_descriptor 18) = some msg ∧
    ControlSafe { conn := .attached } msg := by
  obtain ⟨msg, hmsg⟩ : ∃ msg, pack_cmd_submit (get_descriptor 18) = some msg :=
    Option.isSome_iff_exists.mp (by decide)
  have hep : (pack_cmd_submit (get_descriptor 18)).map (be32At · 0x10) = some 0 := by decide
  have hfit : (pack_cmd_submit (get_descriptor 18)).map
      (fun d => decide (wLength (submit_setup d) ≤ be32At d 0x18)) = some true := by decide
  rw [hmsg] at hep hfit
  exact ⟨msg, hmsg, (control_safe_iff _ msg (Option.some.inj hep)).mpr
    (.inl (of_decide_eq_true (Option.some.inj hfit)))⟩

/-- With a buffer of 8 bytes, sent by a client that has just imported the device, it
    is accepted, and the core would copy 18 bytes. -/
theorem short_buffer_not_safe :
    ¬ ∀ s d, Dispatching s d → be32At d 0x10 = 0 → ControlSafe s d := by
  intro hall
  have hwf : (get_descriptor 8).WellFormed :=
    ⟨.inr rfl, by decide, by decide, rfl, rfl, by decide, rfl⟩
  obtain ⟨msg, hmsg⟩ : ∃ msg, pack_cmd_submit (get_descriptor 8) = some msg :=
    Option.isSome_iff_exists.mp (by decide)
  have hfacts : (pack_cmd_submit (get_descriptor 8)).map (fun d => (d.length, be32At d 0x10,
      submit_single d, decide (be32At d 0x18 < wLength (submit_setup d)), submit_bad_dir d,
      over_limit 0 0 d)) = some (48, 0, true, true, false, false) := by decide
  rw [hmsg] at hfacts
  obtain ⟨hbytes, hep, hnp, hlong, hdir, hlim⟩ : msg.length = 48 ∧ be32At msg 0x10 = 0 ∧
      submit_single msg = true ∧ decide (be32At msg 0x18 < wLength (submit_setup msg)) = true ∧
      submit_bad_dir msg = false ∧ over_limit 0 0 msg = false := by
    simpa using hfacts
  have hsess : let s := run (Server.init true) import_session
      s.conn = .attached ∧ s.rx = [] ∧ s.parsing = false ∧ s.nurbs = 0 ∧ s.urb_bytes = 0 := by
    decide +kernel
  obtain ⟨hc, hrx, hp, hn, hb⟩ := hsess
  have hlen := msg_len_packed hwf hmsg []
  obtain ⟨t, ht, hurbs, hurbbytes⟩ :=
    dispatching_of_read ⟨true, import_session, rfl⟩ hc hrx hp hlen (by omega)
  have hnone := ((hall t msg ht hep).dropped hnp (of_decide_eq_true hlong)).1
  have hroom : submit_over_limit t msg = false := by
    rw [submit_over_limit, hurbs, hurbbytes, hn, hb]
    exact hlim
  obtain ⟨u, hacc, _⟩ := submit_single_accepted hnp hdir hroom
  rw [hnone] at hacc
  cases hacc

end Usbip
