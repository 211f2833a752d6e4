import RpiQemu.Usbip.Server

/-! # Message boundaries

    `usbip_msg_len` reads the fixed header of a message and nothing else: a
    message's length is known from its header, whatever follows it, and the
    bytes of a complete message determine its length again. -/

namespace Usbip

open Bytes

/-- The header `usbip_msg_len` needs in a connection state. -/
def header_len (conn : USBIPConn) : Nat :=
  if conn = .op then usbip_op_hdr_len else usbip_hdr_len

/-- The length of an incomplete header is not known yet. -/
theorem msg_len_short (conn : USBIPConn) (d : List UInt8) (h : d.length < header_len conn) :
    usbip_msg_len conn d = 0 := by
  unfold header_len at h
  unfold usbip_msg_len
  split at h
  · simp_all
  · simp_all

/-- Bytes after the header do not change a message's length. -/
theorem msg_len_append (conn : USBIPConn) (a b : List UInt8) (h : header_len conn ≤ a.length) :
    usbip_msg_len conn (a ++ b) = usbip_msg_len conn a := by
  unfold header_len at h
  unfold usbip_msg_len
  have hlen : (a ++ b).length = a.length + b.length := List.length_append
  by_cases hc : conn = .op
  · rw [if_pos hc, usbip_op_hdr_len] at h
    have h1 : ¬ (a ++ b).length < usbip_op_hdr_len := by rw [usbip_op_hdr_len]; omega
    have h2 : ¬ a.length < usbip_op_hdr_len := by rw [usbip_op_hdr_len]; omega
    simp only [hc, if_true, if_neg h1, if_neg h2, be16At_append_left a b 0 (by omega),
      be16At_append_left a b 2 (by omega)]
  · rw [if_neg hc, usbip_hdr_len] at h
    have h1 : ¬ (a ++ b).length < usbip_hdr_len := by rw [usbip_hdr_len]; omega
    have h2 : ¬ a.length < usbip_hdr_len := by rw [usbip_hdr_len]; omega
    simp only [if_neg hc, if_neg h1, if_neg h2, be32At_append_left a b 0 (by omega),
      be32At_append_left a b 0x0c (by omega), be32At_append_left a b 0x10 (by omega),
      be32At_append_left a b 0x18 (by omega), be32At_append_left a b 0x20 (by omega)]

/-- An operation whose length is known is a DEVLIST or an IMPORT request. -/
theorem msg_len_op {d : List UInt8} (h : 0 < usbip_msg_len .op d) :
    usbip_op_hdr_len ≤ d.length ∧ be16At d 0 = usbip_version ∧
      (be16At d 2 = usbip_op_req_devlist ∧ usbip_msg_len .op d = 8 ∨
        be16At d 2 = usbip_op_req_import ∧ usbip_msg_len .op d = 40) := by
  unfold usbip_msg_len at h ⊢
  simp only [if_true] at h ⊢
  split at h
  · omega
  rename_i hn
  split at h
  · omega
  rename_i hv
  rw [if_neg hn, if_neg hv]
  refine ⟨Nat.not_lt.mp hn, not_not.mp hv, ?_⟩
  split at h
  · rename_i hd
    exact .inl ⟨hd, by rw [if_pos hd]; rfl⟩
  split at h
  · rename_i hd hi
    exact .inr ⟨hi, by rw [if_neg hd, if_pos hi]; rfl⟩
  · omega

/-- An URB command whose length is known is a CMD_SUBMIT of a known endpoint or
    a CMD_UNLINK. -/
theorem msg_len_urb {conn : USBIPConn} {d : List UInt8} (hc : conn ≠ .op)
    (h : 0 < usbip_msg_len conn d) :
    usbip_hdr_len ≤ d.length ∧ (usbip_hdr_len : Int) ≤ usbip_msg_len conn d ∧
      (be32At d 0 = usbip_cmd_submit ∧ be32At d 0x10 ≤ 15 ∨
        be32At d 0 = usbip_cmd_unlink) := by
  unfold usbip_msg_len at h ⊢
  simp only [if_neg hc] at h ⊢
  split at h
  · omega
  rename_i hn
  rw [if_neg hn]
  refine ⟨Nat.not_lt.mp hn, ?_⟩
  split at h
  · rename_i hs
    rw [if_pos hs]
    split at h
    · omega
    rename_i hf
    rw [if_neg hf]
    split at h
    · omega
    rename_i hp
    rw [if_neg hp]
    have hep : be32At d 0x10 ≤ 15 := Nat.not_lt.mp fun hgt => hf (.inr (.inl hgt))
    have hpos : 0 ≤ toInt32 (be32At d 0x18) :=
      Int.not_lt.mp fun hneg => hf (.inr (.inr (.inl hneg)))
    clear hf hp
    refine ⟨?_, .inl ⟨hs, hep⟩⟩
    have hiso : (0 : Int) ≤ if toInt32 (be32At d 0x20) > 0 then
        toInt32 (be32At d 0x20) * usbip_iso_desc_len else 0 := by
      split
      · unfold usbip_iso_desc_len
        omega
      · exact Int.le_refl _
    have hlen : (0 : Int) ≤
        if be32At d 0x0c = usbip_dir_out then toInt32 (be32At d 0x18) else 0 := by
      split
      · exact hpos
      · exact Int.le_refl _
    omega
  split at h
  · rename_i hs hu
    rw [if_neg hs, if_pos hu]
    exact ⟨Int.le_refl _, .inr hu⟩
  · omega

end Usbip
