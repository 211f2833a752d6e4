import RpiQemu.Usbip.SubmitCodec
import Mathlib.Order.Interval.Finset.Nat

/-! # Replies: the server's encoder and the client's decoder

    A reply does not say how long it is: the client finds out from its table of
    pending requests whether data and ISO descriptors follow the header, while
    the server decides it from the URB.  They stay in step because the table
    holds what the client sent (`Remembers`), and the URB what the server
    decoded from it.

    `serve` makes the server send a list of replies; `expected` is what the
    client should make of them. -/

namespace Usbip

open Bytes

/-! ## What the client remembers -/

/-- The table entry of a message the client sent. -/
def Remembers (m : List UInt8) (e : Option (Int × Nat)) : Prop :=
  be32At m 0 = usbip_cmd_submit ∧
      (∃ dir n, e = some (dir, n) ∧ (be32At m 0x0c : Int) = dir ∧ toInt32 (be32At m 0x20) = n) ∨
    be32At m 0 = usbip_cmd_unlink ∧ e = none

/-- The client's tables: sequence numbers are handed out once, a request is
    pending or answered but not both, and the table remembers each message. -/
structure UsbipClient.Inv (c : UsbipClient) : Prop where
  pending_le : ∀ e ∈ c.pending, e.1 ≤ c.seq
  replies_le : ∀ e ∈ c.replies, e.1 ≤ c.seq
  sent_le : ∀ m ∈ c.sent, be32At m 4 ≤ c.seq
  pending_nodup : (c.pending.map Prod.fst).Nodup
  disjoint : ∀ e ∈ c.pending, ∀ r ∈ c.replies, e.1 ≠ r.1
  remembers : ∀ e ∈ c.pending, ∀ m ∈ c.sent, be32At m 4 = e.1 → Remembers m e.2

section Client

variable {c c' : UsbipClient}

/-- Sending a message under the next sequence number. -/
theorem inv_sent {m : List UInt8} {e : Option (Int × Nat)} (h : c.Inv)
    (hseq : be32At m 4 = c.seq + 1) (hm : Remembers m e) :
    ({ c with
        seq := c.seq + 1
        sent := c.sent ++ [m]
        pending := dict_set c.pending (c.seq + 1) e } : UsbipClient).Inv := by
  obtain ⟨hple, hrle, hsle, hnd, hdis, hrem⟩ := h
  -- the sequence number is new
  have hfresh : ∀ x ∈ c.pending, x.1 ≠ c.seq + 1 := by
    intro x hx
    have := hple x hx
    omega
  rw [dict_set_new hfresh]
  constructor
  · intro x hx
    rcases List.mem_append.mp hx with hx | hx
    · exact Nat.le_succ_of_le (hple x hx)
    · rw [List.mem_singleton.mp hx]
  · intro r hr
    exact Nat.le_succ_of_le (hrle r hr)
  · intro m' hm'
    rcases List.mem_append.mp hm' with hm' | hm'
    · exact Nat.le_succ_of_le (hsle m' hm')
    · rw [List.mem_singleton.mp hm', hseq]
  · rw [List.map_append, List.nodup_append]
    refine ⟨hnd, List.nodup_singleton _, ?_⟩
    intro a ha b hb hab
    obtain ⟨x, hx, rfl⟩ := List.mem_map.mp ha
    rw [List.map_singleton, List.mem_singleton] at hb
    exact hfresh x hx (hab.trans hb)
  · intro x hx r hr
    rcases List.mem_append.mp hx with hx | hx
    · exact hdis x hx r hr
    · rw [List.mem_singleton.mp hx]
      have := hrle r hr
      omega
  · intro x hx m' hm' heq
    rcases List.mem_append.mp hx with hx | hx
    · rcases List.mem_append.mp hm' with hm' | hm'
      · exact hrem x hx m' hm' heq
      · rw [List.mem_singleton.mp hm', hseq] at heq
        exact absurd heq.symm (hfresh x hx)
    · rw [List.mem_singleton.mp hx] at heq ⊢
      rcases List.mem_append.mp hm' with hm' | hm'
      · have := hsle m' hm'
        omega
      · rw [List.mem_singleton.mp hm']
        exact hm

theorem send_ok {msg : Option (List UInt8)} {e : Option (Int × Nat)} (hok : c.send msg e = .ok c') :
    ∃ m, msg = some m ∧ c' = { c with
      seq := c.seq + 1
      sent := c.sent ++ [m]
      pending := dict_set c.pending (c.seq + 1) e } := by
  cases msg with
  | none => cases hok
  | some m => exact ⟨m, rfl, (Except.ok.inj hok).symm⟩

theorem submit_inv {a : SubmitArgs} (h : c.Inv) (hok : c.submit a = .ok c') : c'.Inv := by
  obtain ⟨msg, hpack, rfl⟩ := send_ok hok
  obtain ⟨hf, _, hmsg⟩ := pack_cmd_submit_eq hpack
  have hh : Header (a.cmd (c.seq + 1) c.devid) msg := by
    rw [hmsg]
    exact header_of_items hf _
  have hseq : be32At msg 4 = c.seq + 1 := Int.natCast_inj.mp hh.seqnum
  exact inv_sent h hseq (.inl ⟨hh.cmd, a.direction, a.npackets, rfl, hh.direction, hh.packets⟩)

theorem unlink_inv {victim : Int} (h : c.Inv) (hok : c.unlink victim = .ok c') : c'.Inv := by
  obtain ⟨m, hmsg, rfl⟩ := send_ok hok
  obtain ⟨b, hpack, rfl⟩ := Option.map_eq_some_iff.mp hmsg
  obtain ⟨hf, rfl⟩ := pack_eq_words hpack
  have hfit : (Item.I (c.seq + 1)).fits := hf _ (by simp [unlink_items])
  have hcmd := be32At_items hf (List.replicate 24 0) 0 rfl
  have hseq := be32At_items hf (List.replicate 24 0) 1 rfl
  have hword : (Item.I (c.seq + 1)).word = c.seq + 1 := Int.natCast_inj.mp (Item.word_I hfit)
  exact inv_sent h (hseq.trans hword) (.inr ⟨hcmd, rfl⟩)

/-- `Except.bind`, inverted. -/
theorem bind_ok {ε α β : Type} {x : Except ε α} {f : α → Except ε β} {b : β}
    (h : (x >>= f) = .ok b) : ∃ a, x = .ok a ∧ f a = .ok b := by
  cases x with
  | error e => cases h
  | ok a => exact ⟨a, rfl, h⟩

/-- Receiving takes bytes off the socket and nothing else. -/
theorem recv_exact_ok {n : Int} {b : List UInt8} (h : c.recv_exact n = .ok (b, c')) :
    c' = { c with sock := c.sock.drop n.toNat } := by
  unfold UsbipClient.recv_exact at h
  split at h
  · cases h
  · cases h
    rfl

theorem recv_iso_ok {n : Nat} {ps : List IsoPacket} (h : c.recv_iso n = .ok (ps, c')) :
    ∃ sock, c' = { c with sock := sock } := by
  induction n generalizing c ps with
  | zero =>
    cases h
    exact ⟨_, rfl⟩
  | succ n ih =>
    unfold UsbipClient.recv_iso at h
    obtain ⟨⟨d, c₁⟩, hd, h⟩ := bind_ok h
    obtain ⟨⟨qs, c₂⟩, hqs, h⟩ := bind_ok h
    cases h
    obtain ⟨sock, rfl⟩ := ih hqs
    rw [recv_exact_ok hd]
    exact ⟨sock, rfl⟩

theorem recv_data_ok {direction actual : Int} {data : List UInt8}
    (h : c.recv_data direction actual = .ok (data, c')) : ∃ sock, c' = { c with sock := sock } := by
  unfold UsbipClient.recv_data at h
  split at h
  · exact ⟨_, recv_exact_ok h⟩
  · cases h
    exact ⟨c.sock, rfl⟩

/-- A RET_SUBMIT answers the pending request of its number. -/
theorem read_ret_submit_ok {hdr : List UInt8} {seq : Nat}
    (hok : c.read_ret_submit hdr seq = .ok c') : ∃ e rest r sock,
    dict_pop c.pending seq = some (e, rest) ∧
      c' = { c with sock := sock, pending := rest, replies := dict_set c.replies seq r } := by
  unfold UsbipClient.read_ret_submit at hok
  dsimp only at hok
  split at hok
  · cases hok
  · cases hok
  rename_i dir sent pending hpop
  obtain ⟨⟨data, c₁⟩, hdata, hok⟩ := bind_ok hok
  obtain ⟨sock₁, rfl⟩ := recv_data_ok hdata
  obtain ⟨⟨iso, c₂⟩, hiso, hok⟩ := bind_ok hok
  obtain ⟨sock₂, rfl⟩ := recv_iso_ok hiso
  cases hok
  exact ⟨_, _, _, sock₂, hpop, rfl⟩

/-- And so does a RET_UNLINK. -/
theorem read_ret_unlink_ok {hdr : List UInt8} {seq : Nat}
    (hok : c.read_ret_unlink hdr seq = .ok c') : ∃ e rest r,
    dict_pop c.pending seq = some (e, rest) ∧
      c' = { c with pending := rest, replies := dict_set c.replies seq r } := by
  unfold UsbipClient.read_ret_unlink at hok
  split at hok
  · cases hok
  rename_i e pending hpop
  cases hok
  exact ⟨_, _, _, hpop, rfl⟩

/-- What a successful `_read_one` does: a pending request is answered. -/
theorem read_one_cases (hok : c.read_one = .ok c') : ∃ seq e rest r sock,
    dict_pop c.pending seq = some (e, rest) ∧
      c' = { c with sock := sock, pending := rest, replies := dict_set c.replies seq r } := by
  unfold UsbipClient.read_one at hok
  obtain ⟨⟨hdr, c₁⟩, hhdr, hok⟩ := bind_ok hok
  obtain rfl := recv_exact_ok hhdr
  dsimp only at hok
  unfold UsbipClient.read_reply at hok
  split at hok
  · obtain ⟨e, rest, r, sock, hpop, rfl⟩ := read_ret_submit_ok hok
    exact ⟨_, e, rest, r, sock, hpop, rfl⟩
  split at hok
  · obtain ⟨e, rest, r, hpop, rfl⟩ := read_ret_unlink_ok hok
    exact ⟨_, e, rest, r, _, hpop, rfl⟩
  · cases hok

theorem read_one_inv (h : c.Inv) (hok : c.read_one = .ok c') : c'.Inv := by
  obtain ⟨seq, e, rest, r, sock, hpop, rfl⟩ := read_one_cases hok
  obtain ⟨hple, hrle, hsle, hnd, hdis, hrem⟩ := h
  obtain ⟨hmem, rfl⟩ := dict_pop_some hpop
  have hsub : ∀ x ∈ c.pending.eraseP (·.1 == seq), x ∈ c.pending := by
    intro x hx
    exact List.mem_of_mem_eraseP hx
  have hgone := not_mem_popped (k := seq) hnd
  have hfresh : ∀ x ∈ c.replies, x.1 ≠ seq := by
    intro x hx heq
    exact hdis _ hmem x hx heq.symm
  rw [dict_set_new hfresh]
  constructor
  · intro x hx
    exact hple x (hsub x hx)
  · intro x hx
    rcases List.mem_append.mp hx with hx | hx
    · exact hrle x hx
    · rw [List.mem_singleton.mp hx]
      exact hple _ hmem
  · exact hsle
  · exact hnd.sublist ((List.eraseP_sublist).map _)
  · intro x hx y hy
    rcases List.mem_append.mp hy with hy | hy
    · exact hdis x (hsub x hx) y hy
    · rw [List.mem_singleton.mp hy]
      intro heq
      exact hgone (List.mem_map.mpr ⟨x, hx, heq⟩)
  · intro x hx m hm
    exact hrem x (hsub x hx) m hm

theorem take_inv {seq : Nat} {r : Reply} {rest : List (Nat × Reply)} (h : c.Inv)
    (hpop : dict_pop c.replies seq = some (r, rest)) :
    ({ c with replies := rest } : UsbipClient).Inv := by
  obtain ⟨hple, hrle, hsle, hnd, hdis, hrem⟩ := h
  obtain ⟨_, rfl⟩ := dict_pop_some hpop
  refine ⟨hple, ?_, hsle, hnd, ?_, hrem⟩
  · intro x hx
    exact hrle x (List.mem_of_mem_eraseP hx)
  · intro x hx y hy
    exact hdis x hx y (List.mem_of_mem_eraseP hy)

/-- **The client's tables are right in every state it reaches.** -/
theorem client_inv (hc : c.Reachable) : c.Inv := by
  induction hc with
  | connect devid => constructor <;> simp
  | submit a _ hok ih => exact submit_inv ih hok
  | unlink victim _ hok ih => exact unlink_inv ih hok
  | recv bytes _ ih => exact ⟨ih.1, ih.2, ih.3, ih.4, ih.5, ih.6⟩
  | read_one _ hok ih => exact read_one_inv ih hok
  | take seq _ hpop ih => exact take_inv ih hpop

end Client

/-! ## URBs with an answer -/

theorem submit_iso_some {d : List UInt8} {len n off : Nat} {iso : List USBIPIsoDesc}
    (h : submit_iso d len n off = some iso) :
    iso.length = n ∧ ∀ x ∈ iso, x.offset + x.length ≤ len := by
  induction n generalizing off iso with
  | zero =>
    obtain rfl := Option.some.inj h
    exact ⟨rfl, by simp⟩
  | succ n ih =>
    unfold submit_iso at h
    dsimp only at h
    split at h
    · cases h
    rename_i hin
    obtain ⟨rest, hrest, rfl⟩ := Option.map_eq_some_iff.mp h
    obtain ⟨hlen, hall⟩ := ih hrest
    constructor
    · rw [List.length_cons, hlen]
    · intro x hx
      rcases List.mem_cons.mp hx with rfl | hx
      · dsimp only
        omega
      · exact hall x hx

/-- The URB the server made of a message, in terms of its words. -/
structure Decoded (m : List UInt8) (v : USBIPURB) : Prop where
  seqnum : v.seqnum = be32At m 4
  in_ : v.in_ = decide (be32At m 0x0c = usbip_dir_in)
  len : v.len = be32At m 0x18
  packets : v.number_of_packets = (toInt32 (be32At m 0x20)).toNat
  start_frame : v.start_frame = toInt32 (be32At m 0x1c)
  iso_length : v.iso.length = v.number_of_packets
  iso_inside : ∀ x ∈ v.iso, x.offset + x.length ≤ v.len
  buf : v.in_ = true → v.buf.length = max v.len 1

theorem decoded_of_accept {s : Server} {m : List UInt8} {v : USBIPURB}
    (h : (submit_accept s m).2 = some v) : Decoded m v := by
  have hbuf : (submit_urb s m).2.in_ = true →
      (submit_urb s m).2.buf.length = max (submit_urb s m).2.len 1 := by
    intro hin
    show (if (submit_urb s m).2.in_ = true then _ else _ : List UInt8).length = _
    rw [if_pos hin]
    exact List.length_replicate
  rw [submit_accept_eq rfl rfl] at h
  split at h
  · cases h
  split at h
  · cases h
  split at h
  · split at h
    · cases h
    rename_i iso hiso
    obtain rfl := Option.some.inj h
    obtain ⟨hlen, hin⟩ := submit_iso_some hiso
    exact ⟨rfl, rfl, rfl, rfl, rfl, hlen, hin, hbuf⟩
  · rename_i hnp
    obtain rfl := Option.some.inj h
    have hz : (toInt32 (be32At m 0x20)).toNat = 0 := by omega
    refine ⟨rfl, rfl, rfl, hz.symm, rfl, rfl, ?_, hbuf⟩
    intro x hx
    cases hx

/-- Where an ISO packet's bytes lie in the buffer. -/
def USBIPIsoDesc.bytes (d : USBIPIsoDesc) : Finset Nat := Finset.Ico d.offset (d.offset + d.length)

/-- An URB the server made of the message `m`, with an answer: any status, any
    actual length up to the buffer, ISO packets in disjoint regions with any
    actual lengths and statuses. -/
structure Answered (m : List UInt8) (u : USBIPURB) : Prop where
  framed : usbip_msg_len .attached m = m.length
  cmd : be32At m 0 = usbip_cmd_submit
  made : ∃ s v, (submit_accept s m).2 = some v ∧ Same v u ∧ u.start_frame = v.start_frame ∧
    u.buf.length = v.buf.length ∧
    u.iso.map (fun d => (d.offset, d.length)) = v.iso.map fun d => (d.offset, d.length)
  actual : u.packet.actual_length ≤ u.len
  iso_actual : ∀ d ∈ u.iso, d.actual_length ≤ d.length
  iso_status : ∀ d ∈ u.iso, -2 ^ 31 ≤ d.status ∧ d.status < 2 ^ 31
  disjoint : u.iso.Pairwise fun a b => Disjoint a.bytes b.bytes

/-- A framed CMD_SUBMIT asks for at most 16 MiB. -/
theorem framed_len {m : List UInt8} (hf : usbip_msg_len .attached m = m.length)
    (hcmd : be32At m 0 = usbip_cmd_submit) : be32At m 0x18 ≤ usbip_max_xfer := by
  unfold usbip_msg_len at hf
  rw [if_neg (by decide)] at hf
  split at hf
  · -- a shorter message would have length 0, and no command
    have hnil : m = [] := List.eq_nil_of_length_eq_zero (Int.natCast_eq_zero.mp hf.symm)
    rw [hnil] at hcmd
    exact absurd hcmd (by decide)
  dsimp only at hf
  split at hf
  · omega
  rename_i hgood
  have hlt := be32At_lt m 0x18
  unfold toInt32 at hgood
  unfold usbip_max_xfer at hgood ⊢
  split at hgood <;> omega

/-- Regions that do not overlap fit into the buffer together. -/
theorem sum_lengths_le {l : List USBIPIsoDesc} {n : Nat} (hin : ∀ d ∈ l, d.offset + d.length ≤ n)
    (hdis : l.Pairwise fun a b => Disjoint a.bytes b.bytes) : (l.map (·.length)).sum ≤ n := by
  -- the union of the regions has as many elements as they have bytes
  have hunion : ∃ F : Finset Nat, F.card = (l.map (·.length)).sum ∧ F ⊆ Finset.range n ∧
      ∀ A : Finset Nat, (∀ d ∈ l, Disjoint A d.bytes) → Disjoint A F := by
    induction l with
    | nil => exact ⟨∅, rfl, Finset.empty_subset _, fun A _ => Finset.disjoint_empty_right A⟩
    | cons d l ih =>
      obtain ⟨hd, hl⟩ := List.pairwise_cons.mp hdis
      obtain ⟨F, hcard, hsub, hall⟩ := ih (fun x hx => hin x (List.mem_cons_of_mem _ hx)) hl
      refine ⟨d.bytes ∪ F, ?_, ?_, ?_⟩
      · rw [Finset.card_union_of_disjoint (hall _ hd), hcard, List.map_cons, List.sum_cons]
        unfold USBIPIsoDesc.bytes
        rw [Nat.card_Ico, Nat.add_sub_cancel_left]
      · apply Finset.union_subset _ hsub
        intro x hx
        have hx' := Finset.mem_Ico.mp hx
        have hd' := hin d List.mem_cons_self
        rw [Finset.mem_range]
        omega
      · intro A hA
        rw [Finset.disjoint_union_right]
        exact ⟨hA d List.mem_cons_self, hall A fun x hx => hA x (List.mem_cons_of_mem _ hx)⟩
  obtain ⟨F, hcard, hsub, _⟩ := hunion
  have hle := Finset.card_le_card hsub
  rw [Finset.card_range] at hle
  omega

section Answer

variable {m : List UInt8} {u : USBIPURB}

theorem Answered.decoded (h : Answered m u) : ∃ v, Decoded m v ∧ Same v u ∧
    u.start_frame = v.start_frame ∧ u.buf.length = v.buf.length ∧
    u.iso.map (fun d => (d.offset, d.length)) = v.iso.map fun d => (d.offset, d.length) := by
  obtain ⟨s, v, hv, hrest⟩ := h.made
  exact ⟨v, decoded_of_accept hv, hrest⟩

theorem Answered.len_le (h : Answered m u) : u.len ≤ usbip_max_xfer := by
  obtain ⟨v, hd, hs, _⟩ := h.decoded
  rw [hs.len, hd.len]
  exact framed_len h.framed h.cmd

theorem Answered.iso_length (h : Answered m u) : u.iso.length = u.number_of_packets := by
  obtain ⟨v, hd, hs, _, _, hiso⟩ := h.decoded
  have hlen := congrArg List.length hiso
  rw [List.length_map, List.length_map] at hlen
  rw [hlen, hd.iso_length, hs.np]

theorem Answered.iso_inside (h : Answered m u) : ∀ d ∈ u.iso, d.offset + d.length ≤ u.len := by
  intro d hd
  obtain ⟨v, hdec, hs, _, _, hiso⟩ := h.decoded
  have hmem : (d.offset, d.length) ∈ v.iso.map fun d => (d.offset, d.length) := by
    rw [← hiso]
    exact List.mem_map.mpr ⟨d, hd, rfl⟩
  obtain ⟨x, hx, heq⟩ := List.mem_map.mp hmem
  have hin := hdec.iso_inside x hx
  have hoff : x.offset = d.offset := congrArg Prod.fst heq
  have hlen : x.length = d.length := congrArg Prod.snd heq
  rw [hs.len, ← hoff, ← hlen]
  exact hin

theorem Answered.buf_length (h : Answered m u) (hin : u.in_ = true) : u.len ≤ u.buf.length := by
  obtain ⟨v, hdec, hs, _, hbuf, _⟩ := h.decoded
  have hb := hdec.buf (hs.in_ ▸ hin)
  rw [hbuf, hb, hs.len]
  exact Nat.le_max_left _ _

/-- The ISO packets' actual lengths add up to at most the buffer. -/
theorem Answered.sum_actual (h : Answered m u) : (u.iso.map (·.actual_length)).sum ≤ u.len := by
  have hle : (u.iso.map (·.actual_length)).sum ≤ (u.iso.map (·.length)).sum :=
    List.sum_le_sum h.iso_actual
  exact hle.trans (sum_lengths_le h.iso_inside h.disjoint)

/-- What the reply reports as the actual length. -/
def USBIPURB.actual (u : USBIPURB) : Nat :=
  if u.number_of_packets ≠ 0 then (u.iso.map (·.actual_length)).sum else u.packet.actual_length

theorem Answered.actual_le (h : Answered m u) : u.actual ≤ u.len := by
  unfold USBIPURB.actual
  split
  · exact h.sum_actual
  · exact h.actual

theorem Answered.ret_actual (h : Answered m u) : u.ret_actual = u.actual := by
  have hsum := h.sum_actual
  have hlen := h.len_le
  unfold usbip_max_xfer at hlen
  unfold USBIPURB.ret_actual USBIPURB.actual
  split
  · exact Nat.mod_eq_of_lt (by omega)
  · rfl

/-- The bytes of the reply's data. -/
def USBIPURB.reply_data (u : USBIPURB) : List UInt8 :=
  if u.in_ then
    if u.number_of_packets ≠ 0 then u.iso.flatMap u.iso_data else u.buf.take u.actual
  else []

/-- The data is as long as the reply says. -/
theorem Answered.data_length (h : Answered m u) (hin : u.in_ = true) :
    u.reply_data.length = u.actual := by
  have hbuf := h.buf_length hin
  have hins := h.iso_inside
  have hact := h.iso_actual
  unfold USBIPURB.reply_data
  rw [if_pos hin]
  by_cases hnp : u.number_of_packets ≠ 0
  · rw [if_pos hnp, List.length_flatMap]
    unfold USBIPURB.actual
    rw [if_pos hnp]
    apply congrArg List.sum
    apply List.map_congr_left
    intro d hd
    have h1 := hins d hd
    have h2 := hact d hd
    unfold USBIPURB.iso_data
    rw [List.length_take, List.length_drop]
    omega
  · have hle := h.actual_le
    rw [if_neg hnp, List.length_take]
    omega

end Answer

/-! ## What the server sends -/

theorem usbip_flush_loop_out (n : Nat) (s : Server) : (usbip_flush_loop n s).out = s.out := by
  induction n generalizing s with
  | zero => rfl
  | succ n ih =>
    unfold usbip_flush_loop
    split
    · rfl
    · dsimp only
      split
      · rfl
      · rw [ih]

theorem usbip_send_out {s : Server} (d : List UInt8) (hc : s.conn ≠ .none) :
    (usbip_send s d).out = s.out ++ d ∧ (usbip_send s d).conn = s.conn := by
  obtain ⟨_, _, _, _, hsent⟩ := usbip_send_sent s d
  constructor
  · unfold usbip_send
    rw [if_neg hc]
    exact usbip_flush_loop_out _ _
  · rw [hsent]

theorem foldl_send_out (l : List (List UInt8)) {s : Server} (hc : s.conn ≠ .none) :
    (l.foldl usbip_send s).out = s.out ++ l.flatten ∧ (l.foldl usbip_send s).conn = s.conn := by
  induction l generalizing s with
  | nil => exact ⟨(List.append_nil _).symm, rfl⟩
  | cons d l ih =>
    obtain ⟨hout, hconn⟩ := usbip_send_out d hc
    have hc' : (usbip_send s d).conn ≠ .none := by
      rw [hconn]
      exact hc
    obtain ⟨hout', hconn'⟩ := ih hc'
    rw [List.foldl_cons]
    refine ⟨?_, hconn'.trans hconn⟩
    rw [hout', hout, List.append_assoc, List.flatten_cons]

/-- The reply to an URB as one byte string. -/
def reply_bytes (u : USBIPURB) : List UInt8 :=
  ret_submit_header u ++ (u.reply_data ++ u.iso.flatMap iso_desc_bytes)

theorem send_ret_submit_out {m : List UInt8} {u : USBIPURB} {s : Server} (h : Answered m u)
    (hc : s.conn ≠ .none) :
    (usbip_send_ret_submit s u).out = s.out ++ reply_bytes u ∧
      (usbip_send_ret_submit s u).conn = s.conn := by
  have hpieces : (ret_submit_pieces u).flatten = reply_bytes u := by
    have hact := h.ret_actual
    unfold ret_submit_pieces reply_bytes USBIPURB.reply_data
    rw [List.append_assoc, List.flatten_append, List.flatten_append, List.flatten_singleton,
      List.flatMap_def (f := iso_desc_bytes), hact]
    by_cases hin : u.in_ = true
    · rw [if_pos hin, if_pos hin]
      by_cases hnp : u.number_of_packets ≠ 0
      · rw [if_pos hnp, if_pos hnp, List.flatMap_def]
      · rw [if_neg hnp, if_neg hnp]
        by_cases hz : u.actual ≠ 0
        · rw [if_pos hz, List.flatten_singleton]
        · rw [if_neg hz, not_not.mp hz]
          rfl
    · rw [if_neg hin, if_neg hin]
      rfl
  rw [← hpieces]
  exact foldl_send_out _ (s := s.note (.ret_submit u.id u.seqnum)) hc

/-- The status of a RET_UNLINK. -/
def unlink_status (s : Server) (victim : Nat) : Int :=
  if (usbip_find_urb s victim).isSome then -usbip_econnreset else 0

theorem handle_unlink_out {s : Server} (seqnum victim : Nat) (hc : s.conn ≠ .none) :
    (usbip_handle_unlink s seqnum victim).out =
        s.out ++ ret_unlink_header seqnum (unlink_status s victim) ∧
      (usbip_handle_unlink s seqnum victim).conn = s.conn := by
  unfold usbip_handle_unlink unlink_status
  cases usbip_find_urb s victim with
  | none => exact usbip_send_out _ (s := s.note (.ret_unlink seqnum victim 0 none)) hc
  | some u =>
    obtain ⟨_, _, _, _, _, _, hm⟩ := unlink_free_moved s u
    have hc' : (usbip_urb_free (usbip_urb_unlink s u) u).conn ≠ .none := by
      rw [hm]
      exact hc
    obtain ⟨hout, hconn⟩ := usbip_send_out
      (s := (usbip_urb_free (usbip_urb_unlink s u) u).note
        (.ret_unlink seqnum victim (-usbip_econnreset) (some u.id)))
      (ret_unlink_header seqnum (-usbip_econnreset)) hc'
    refine ⟨hout.trans ?_, hconn.trans ?_⟩
    · show (usbip_urb_free (usbip_urb_unlink s u) u).out ++ _ = _
      rw [hm]
      rfl
    · show (usbip_urb_free (usbip_urb_unlink s u) u).conn = _
      rw [hm]

/-! ## What the client reads -/

section Reading

variable {c : UsbipClient} {m : List UInt8} {u : USBIPURB}

theorem recv_exact_append {n : Int} (a b : List UInt8) (hn : n = a.length) :
    ({ c with sock := a ++ b } : UsbipClient).recv_exact n = .ok (a, { c with sock := b }) := by
  have hle : ¬ ((a ++ b).length : Int) < n := by
    rw [hn, List.length_append]
    omega
  unfold UsbipClient.recv_exact
  rw [if_neg hle, hn, Int.toNat_natCast]
  show Except.ok ((a ++ b).take a.length,
    ({ c with sock := (a ++ b).drop a.length } : UsbipClient)) = _
  rw [List.take_left, List.drop_left]

theorem ok_bind {ε α β : Type} (a : α) (f : α → Except ε β) : (Except.ok a >>= f) = f a := rfl

theorem read_one_append (hdr later : List UInt8) (hlen : hdr.length = usbip_hdr_len) :
    ({ c with sock := hdr ++ later } : UsbipClient).read_one =
      ({ c with sock := later } : UsbipClient).read_reply hdr := by
  unfold UsbipClient.read_one
  rw [recv_exact_append hdr later (congrArg Nat.cast hlen).symm, ok_bind]

/-- The client's view of an ISO descriptor. -/
def USBIPIsoDesc.packet (d : USBIPIsoDesc) : IsoPacket :=
  ⟨d.offset, d.length, d.actual_length, d.status⟩

theorem unpack_iso_desc_bytes {d : USBIPIsoDesc} (hoff : d.offset < 2 ^ 32)
    (hlen : d.length < 2 ^ 32)
    (hact : d.actual_length < 2 ^ 32) (hst : -2 ^ 31 ≤ d.status ∧ d.status < 2 ^ 31) :
    unpack_iso_desc (iso_desc_bytes d) = d.packet := by
  have hb : iso_desc_bytes d =
      words [d.offset, d.length, d.actual_length, ofInt32 d.status] ++ [] := by
    simp [iso_desc_bytes]
  have h0 : be32At (iso_desc_bytes d) 0 = d.offset := by
    rw [hb]
    exact be32At_word [] 0 rfl hoff
  have h1 : be32At (iso_desc_bytes d) 4 = d.length := by
    rw [hb]
    exact be32At_word [] 1 rfl hlen
  have h2 : be32At (iso_desc_bytes d) 8 = d.actual_length := by
    rw [hb]
    exact be32At_word [] 2 rfl hact
  have h3 : be32At (iso_desc_bytes d) 12 = ofInt32 d.status := by
    rw [hb]
    exact be32At_word [] 3 rfl (ofInt32_lt _)
  unfold unpack_iso_desc USBIPIsoDesc.packet
  rw [h0, h1, h2, h3, toInt32_ofInt32 _ hst.1 hst.2]

/-- A descriptor whose fields fit the wire. -/
def USBIPIsoDesc.fits (d : USBIPIsoDesc) : Prop :=
  d.offset < 2 ^ 32 ∧ d.length < 2 ^ 32 ∧ d.actual_length < 2 ^ 32 ∧
    -2 ^ 31 ≤ d.status ∧ d.status < 2 ^ 31

theorem recv_iso_descs (ds : List USBIPIsoDesc) (hfit : ∀ d ∈ ds, d.fits) (later : List UInt8) :
    ({ c with sock := ds.flatMap iso_desc_bytes ++ later } : UsbipClient).recv_iso ds.length =
      .ok (ds.map USBIPIsoDesc.packet, { c with sock := later }) := by
  induction ds with
  | nil => rfl
  | cons d ds ih =>
    obtain ⟨hoff, hlen, hact, hst⟩ := hfit d List.mem_cons_self
    have hrest := ih fun x hx => hfit x (List.mem_cons_of_mem _ hx)
    have hrecv := recv_exact_append (c := c) (n := usbip_iso_desc_len) (iso_desc_bytes d)
      (ds.flatMap iso_desc_bytes ++ later) rfl
    rw [List.flatMap_cons, List.append_assoc, List.length_cons]
    unfold UsbipClient.recv_iso
    rw [hrecv]
    dsimp only [bind, Except.bind]
    rw [hrest, unpack_iso_desc_bytes hoff hlen hact hst]
    rfl

theorem Answered.fits (h : Answered m u) : ∀ d ∈ u.iso, d.fits := by
  intro d hd
  have hin := h.iso_inside d hd
  have hact := h.iso_actual d hd
  have hlen := h.len_le
  unfold usbip_max_xfer at hlen
  exact ⟨by omega, by omega, by omega, h.iso_status d hd⟩

/-- What the client should make of the reply to an URB. -/
def USBIPURB.reply (u : USBIPURB) : RetSubmit where
  seqnum := u.seqnum
  status := u.ret_status
  actual_length := u.actual
  start_frame := if u.number_of_packets ≠ 0 then u.start_frame else 0
  number_of_packets := u.number_of_packets
  error_count := u.ret_errors
  data := u.reply_data
  iso := u.iso.map USBIPIsoDesc.packet

/-- The words of a RET_SUBMIT header. -/
theorem ret_submit_header_eq (u : USBIPURB) : ret_submit_header u =
    words [usbip_ret_submit, u.seqnum, 0, 0, 0, ofInt32 u.ret_status, u.ret_actual,
      (if u.number_of_packets ≠ 0 then ofInt32 u.start_frame else 0), u.number_of_packets,
      u.ret_errors] ++ List.replicate 8 0 := by
  simp [ret_submit_header]

theorem ret_status_range (u : USBIPURB) : -2 ^ 31 ≤ u.ret_status ∧ u.ret_status < 2 ^ 31 := by
  unfold USBIPURB.ret_status usbip_urb_status usbip_eremoteio usbip_epipe usbip_eoverflow
    usbip_enodev usbip_eproto
  split
  · decide
  · split
    · split <;> decide
    all_goals decide

theorem toInt32_range (n : Nat) (h : n < 2 ^ 32) : -2 ^ 31 ≤ toInt32 n ∧ toInt32 n < 2 ^ 31 := by
  unfold toInt32
  split <;> omega

/-- The client reads every field of the header back. -/
structure RetHeader (u : USBIPURB) (hdr : List UInt8) : Prop where
  cmd : be32At hdr 0 = usbip_ret_submit
  seqnum : be32At hdr 4 = u.seqnum
  status : toInt32 (be32At hdr 0x14) = u.ret_status
  actual : toInt32 (be32At hdr 0x18) = u.actual
  start_frame : toInt32 (be32At hdr 0x1c) = if u.number_of_packets ≠ 0 then u.start_frame else 0
  packets : toInt32 (be32At hdr 0x20) = u.number_of_packets
  errors : toInt32 (be32At hdr 0x24) = u.ret_errors

theorem Answered.packets_le (h : Answered m u) : u.number_of_packets < 2 ^ 31 := by
  obtain ⟨v, hd, hs, _⟩ := h.decoded
  have hr := toInt32_range _ (be32At_lt m 0x20)
  rw [hs.np, hd.packets]
  omega

theorem Answered.header (h : Answered m u) : RetHeader u (ret_submit_header u) := by
  obtain ⟨v, hd, hs, hsf, _⟩ := h.decoded
  have hlen := h.len_le
  have hact := h.actual_le
  have hnp := h.packets_le
  unfold usbip_max_xfer at hlen
  have hseq : u.seqnum < 2 ^ 32 := by
    rw [hs.seqnum, hd.seqnum]
    exact be32At_lt m 4
  have herr : u.ret_errors < 2 ^ 31 := by
    unfold USBIPURB.ret_errors
    split
    · have hcount := List.countP_le_length
        (p := fun d : USBIPIsoDesc => decide (d.status ≠ 0)) (l := u.iso)
      rw [h.iso_length] at hcount
      omega
    · omega
  have hframe : -2 ^ 31 ≤ u.start_frame ∧ u.start_frame < 2 ^ 31 := by
    rw [hsf, hd.start_frame]
    exact toInt32_range _ (be32At_lt m 0x1c)
  have hw := fun i w hi hw => @be32At_word [usbip_ret_submit, u.seqnum, 0, 0, 0,
    ofInt32 u.ret_status, u.ret_actual,
    (if u.number_of_packets ≠ 0 then ofInt32 u.start_frame else 0), u.number_of_packets,
    u.ret_errors] w (List.replicate 8 0) i hi hw
  rw [← ret_submit_header_eq] at hw
  constructor
  · exact hw 0 _ rfl (by decide)
  · exact hw 1 _ rfl hseq
  · have h5 := hw 5 _ rfl (ofInt32_lt _)
    rw [h5]
    exact toInt32_ofInt32 _ (ret_status_range u).1 (ret_status_range u).2
  · have h6 := hw 6 _ rfl (by rw [h.ret_actual]; omega)
    rw [h6, h.ret_actual]
    exact toInt32_of_lt _ (by omega)
  · by_cases hiso : u.number_of_packets ≠ 0
    · have h7 := hw 7 _ rfl (by rw [if_pos hiso]; exact ofInt32_lt _)
      rw [h7, if_pos hiso, if_pos hiso]
      exact toInt32_ofInt32 _ hframe.1 hframe.2
    · have h7 := hw 7 _ rfl (by rw [if_neg hiso]; decide)
      rw [h7, if_neg hiso, if_neg hiso]
      rfl
  · have h8 := hw 8 _ rfl (by omega)
    rw [h8]
    exact toInt32_of_lt _ hnp
  · have h9 := hw 9 _ rfl (by omega)
    rw [h9]
    exact toInt32_of_lt _ herr

/-- The client reads the reply to one of its URBs. -/
theorem read_one_submit (h : Answered m u) {dir : Int} {n : Nat}
    {rest : List (Nat × Option (Int × Nat))}
    (hpop : dict_pop c.pending u.seqnum = some (some (dir, n), rest))
    (hdir : dir = usbip_dir_in ↔ u.in_ = true) (hn : n = u.number_of_packets) (later : List UInt8) :
    ({ c with sock := reply_bytes u ++ later } : UsbipClient).read_one =
      .ok { c with
        sock := later
        pending := rest
        replies := dict_set c.replies u.seqnum (.submit u.reply) } := by
  have hh := h.header
  have hdata : ({ c with
        sock := u.reply_data ++ (u.iso.flatMap iso_desc_bytes ++ later), pending := rest } :
      UsbipClient).recv_data dir u.actual =
      .ok (u.reply_data,
        { c with sock := u.iso.flatMap iso_desc_bytes ++ later, pending := rest }) := by
    unfold UsbipClient.recv_data
    by_cases hin : u.in_ = true
    · rw [if_pos (hdir.mpr hin)]
      exact recv_exact_append (c := { c with pending := rest }) _ _
        (congrArg Nat.cast (h.data_length hin)).symm
    · have hnil : u.reply_data = [] := by
        unfold USBIPURB.reply_data
        rw [if_neg hin]
      rw [if_neg (mt hdir.mp hin), hnil]
      rfl
  have hiso := recv_iso_descs (c := { c with pending := rest }) u.iso h.fits later
  have hcount : (if n ≠ 0 then (u.number_of_packets : Int).toNat else 0) = u.iso.length := by
    rw [hn, h.iso_length, Int.toNat_natCast]
    split <;> omega
  unfold reply_bytes
  rw [List.append_assoc, List.append_assoc, read_one_append _ _ rfl]
  unfold UsbipClient.read_reply UsbipClient.read_ret_submit
  rw [if_pos hh.cmd]
  simp only [hh.seqnum, hpop, hh.status, hh.actual, hh.start_frame, hh.packets, hh.errors]
  rw [hdata, ok_bind]
  dsimp only
  rw [hcount, hiso]
  rfl

/-- The client reads the reply to one of its unlinks. -/
theorem read_one_unlink {seqnum : Nat} {status : Int} {e : Option (Int × Nat)}
    {rest : List (Nat × Option (Int × Nat))} (hpop : dict_pop c.pending seqnum = some (e, rest))
    (hseq : seqnum < 2 ^ 32) (hst : -2 ^ 31 ≤ status ∧ status < 2 ^ 31) (later : List UInt8) :
    ({ c with sock := ret_unlink_header seqnum status ++ later } : UsbipClient).read_one =
      .ok { c with
        sock := later
        pending := rest
        replies := dict_set c.replies seqnum (.unlink ⟨seqnum, status⟩) } := by
  have hwords : ret_unlink_header seqnum status =
      words [usbip_ret_unlink, seqnum, 0, 0, 0, ofInt32 status] ++ List.replicate 24 0 := by
    simp [ret_unlink_header]
  have hcmd : be32At (ret_unlink_header seqnum status) 0 = usbip_ret_unlink := by
    rw [hwords]
    exact be32At_word _ 0 rfl (by decide)
  have hnum : be32At (ret_unlink_header seqnum status) 4 = seqnum := by
    rw [hwords]
    exact be32At_word _ 1 rfl hseq
  have hstat : be32At (ret_unlink_header seqnum status) 0x14 = ofInt32 status := by
    rw [hwords]
    exact be32At_word _ 5 rfl (ofInt32_lt _)
  rw [read_one_append _ _ rfl]
  unfold UsbipClient.read_reply UsbipClient.read_ret_unlink
  rw [hcmd, if_neg (by decide), if_pos rfl]
  simp only [hnum, hpop, hstat, toInt32_ofInt32 _ hst.1 hst.2]

end Reading

/-! ## A stream of replies -/

/-- A reply the server sends: to an URB, or to a CMD_UNLINK. -/
inductive Answer where
  | submit (u : USBIPURB)
  | unlink (seqnum victim : Nat)

def Answer.seqnum : Answer → Nat
  | .submit u => u.seqnum
  | .unlink seqnum _ => seqnum

def serve (s : Server) : Answer → Server
  | .submit u => usbip_send_ret_submit s u
  | .unlink seqnum victim => usbip_handle_unlink s seqnum victim

/-- What the client should make of a reply sent in state `s`. -/
def expected (s : Server) : Answer → Reply
  | .submit u => .submit u.reply
  | .unlink seqnum victim => .unlink ⟨seqnum, unlink_status s victim⟩

/-- The server sends replies one after the other. -/
def serve_all : Server → List Answer → Server × List (Nat × Reply)
  | s, [] => (s, [])
  | s, r :: rs =>
    let (s', es) := serve_all (serve s r) rs
    (s', (r.seqnum, expected s r) :: es)

/-- The reply is one to the message `m`. -/
def Answer.of_message (m : List UInt8) : Answer → Prop
  | .submit u => Answered m u
  | .unlink seqnum victim =>
    be32At m 0 = usbip_cmd_unlink ∧ be32At m 4 = seqnum ∧ be32At m 0x14 = victim

/-- The reply answers a message the client sent and still waits for. -/
structure Answers (c : UsbipClient) (r : Answer) : Prop where
  pending : r.seqnum ∈ c.pending.map Prod.fst
  message : ∃ m ∈ c.sent, r.of_message m

/-- **One reply**: the server's bytes, and what the client makes of them. -/
theorem serve_read {c : UsbipClient} {s : Server} {r : Answer} (hc : c.Inv) (hs : s.conn ≠ .none)
    (hr : Answers c r) : ∃ bytes, (serve s r).out = s.out ++ bytes ∧ (serve s r).conn = s.conn ∧
      ∀ later, ({ c with sock := bytes ++ later } : UsbipClient).read_one = .ok { c with
        sock := later
        pending := c.pending.eraseP (·.1 == r.seqnum)
        replies := c.replies ++ [(r.seqnum, expected s r)] } := by
  obtain ⟨hpend, hmsg⟩ := hr
  obtain ⟨e, hmem, hpop⟩ := dict_pop_of_mem hpend
  have hfresh : ∀ x ∈ c.replies, x.1 ≠ r.seqnum := by
    intro x hx heq
    exact hc.disjoint _ hmem x hx heq.symm
  cases r with
  | submit u =>
    obtain ⟨m, hm, ha⟩ := hmsg
    obtain ⟨v, hd, hsame, _⟩ := ha.decoded
    have hseq : be32At m 4 = u.seqnum := hd.seqnum.symm.trans hsame.seqnum.symm
    -- the table entry is the one of this message
    obtain ⟨_, dir, n, rfl, hdir, hn⟩ | ⟨hcmd, _⟩ := hc.remembers _ hmem m hm hseq
    · have hdir' : dir = usbip_dir_in ↔ u.in_ = true := by
        rw [hsame.in_, hd.in_, decide_eq_true_iff]
        omega
      have hn' : n = u.number_of_packets := by
        rw [hsame.np, hd.packets, hn, Int.toNat_natCast]
      obtain ⟨hout, hconn⟩ := send_ret_submit_out ha hs
      refine ⟨_, hout, hconn, ?_⟩
      intro later
      rw [← dict_set_new hfresh]
      exact read_one_submit ha hpop hdir' hn' later
    · rw [ha.cmd] at hcmd
      exact absurd hcmd (by decide)
  | unlink seqnum victim =>
    obtain ⟨m, _, _, hseq, _⟩ := hmsg
    have hlt : seqnum < 2 ^ 32 := by
      rw [← hseq]
      exact be32At_lt m 4
    have hst : -2 ^ 31 ≤ unlink_status s victim ∧ unlink_status s victim < 2 ^ 31 := by
      unfold unlink_status usbip_econnreset
      split <;> decide
    obtain ⟨hout, hconn⟩ := handle_unlink_out seqnum victim hs
    refine ⟨_, hout, hconn, ?_⟩
    intro later
    rw [← dict_set_new hfresh]
    exact read_one_unlink hpop hlt hst later

/-- **Replies stay in step.**  For a client that has submitted and unlinked URBs
    (and read earlier replies) in any way, and a server that answers any of the
    messages it still waits for, each at most once and in any order: the bytes
    the server sends, read by `_read_one` once per reply, are consumed exactly,
    and the client ends with every reply, in order. -/
theorem replies_in_step (c : UsbipClient) (s : Server) (rs : List Answer) (hc : c.Reachable)
    (hs : s.conn ≠ .none) (hans : ∀ r ∈ rs, Answers c r) (hnodup : (rs.map Answer.seqnum).Nodup) :
    ∃ bytes, (serve_all s rs).1.out = s.out ++ bytes ∧ ∀ later, ∃ c',
      ({ c with sock := bytes ++ later } : UsbipClient).read_many rs.length = .ok c' ∧
        c'.sock = later ∧ c'.replies = c.replies ++ (serve_all s rs).2 := by
  have hinv := client_inv hc
  clear hc
  induction rs generalizing c s with
  | nil =>
    refine ⟨[], (List.append_nil _).symm, ?_⟩
    intro later
    exact ⟨_, rfl, rfl, (List.append_nil _).symm⟩
  | cons r rs ih =>
    obtain ⟨hr, hrs⟩ := List.forall_mem_cons.mp hans
    rw [List.map_cons, List.nodup_cons] at hnodup
    obtain ⟨bytes, hout, hconn, hread⟩ := serve_read hinv hs hr
    have hinv' := read_one_inv (c := { c with sock := bytes ++ [] })
      ⟨hinv.1, hinv.2, hinv.3, hinv.4, hinv.5, hinv.6⟩ (hread [])
    have hs' : (serve s r).conn ≠ .none := by
      rw [hconn]
      exact hs
    -- the other requests are still pending
    have hrs' : ∀ x ∈ rs, Answers { c with
        sock := []
        pending := c.pending.eraseP (·.1 == r.seqnum)
        replies := c.replies ++ [(r.seqnum, expected s r)] } x := by
      intro x hx
      obtain ⟨hp, hm⟩ := hrs x hx
      refine ⟨mem_popped hp ?_, hm⟩
      intro heq
      exact hnodup.1 (heq ▸ List.mem_map.mpr ⟨x, hx, rfl⟩)
    obtain ⟨bytes', hout', hread'⟩ := ih _ (serve s r) hs' hrs' hnodup.2 hinv'
    refine ⟨bytes ++ bytes', ?_, ?_⟩
    · show (serve_all (serve s r) rs).1.out = _
      rw [hout', hout, List.append_assoc]
    · intro later
      obtain ⟨c', hc', hsock, hreplies⟩ := hread' later
      refine ⟨c', ?_, hsock, ?_⟩
      · rw [List.length_cons]
        unfold UsbipClient.read_many
        rw [List.append_assoc, hread]
        exact hc'
      · rw [hreplies, List.append_assoc]
        rfl

/-- An isochronous IN request of two packets. -/
def iso_in : SubmitArgs where
  ep := 1
  direction := 1
  length := 8
  iso := some [{ offset := 0, length := 4 }, { offset := 4, length := 4 }]

/-- A client that submits an ISO and a bulk IN URB, then unlinks the bulk one. -/
def busy_client : Except Error UsbipClient := do
  let c ← ({ devid := 0x10001 } : UsbipClient).submit iso_in
  let c ← c.submit { ep := 2, direction := 1, length := 4 }
  c.unlink 2

/-- The ISO URB, answered with 3 and 1 bytes. -/
def iso_in_urb : USBIPURB :=
  { (iso_in.cmd 1 0x10001).urb 0 with
    buf := [1, 2, 3, 0, 5, 0, 0, 0]
    iso := [{ offset := 0, length := 4, actual_length := 3 },
      { offset := 4, length := 4, actual_length := 1 }] }

/-- A server that still holds the bulk URB. -/
def busy_server : Server :=
  { conn := .attached, inflight := [{ id := 1, seqnum := 2, len := 4, state := .inflight }] }

theorem iso_in_answered {m : List UInt8} (hm : pack_cmd_submit (iso_in.cmd 1 0x10001) = some m) :
    Answered m iso_in_urb := by
  have hwf : (iso_in.cmd 1 0x10001).WellFormed :=
    ⟨.inr rfl, by decide, by decide, rfl, rfl, by decide, rfl⟩
  have hlen := msg_len_packed hwf hm []
  have hlayout := layout_packed hwf hm []
  rw [List.append_nil] at hlen hlayout
  have hmade : (submit_accept { conn := .attached } m).2 = some ((iso_in.cmd 1 0x10001).urb 0) := by
    rw [hlayout.submit_accept hwf]
    rfl
  refine ⟨hlen, hlayout.cmd, ⟨_, _, hmade, ⟨rfl, rfl, rfl, rfl, rfl, rfl, rfl, rfl⟩, rfl, rfl, rfl⟩,
    ?_, ?_, ?_, ?_⟩ <;> decide

/-- The client of `busy_client` reads the reply to its unlink, then the data of
    its ISO URB without the gap. -/
theorem iso_and_unlink_in_step : ∃ c, busy_client = .ok c ∧ ∃ bytes c',
    ({ c with sock := bytes } : UsbipClient).read_many 2 = .ok c' ∧ c'.sock = [] ∧
      c'.replies = [(3, .unlink ⟨3, -104⟩), (1, .submit ⟨1, 0, 4, 0, 2, 0, [1, 2, 3, 5],
        [⟨0, 4, 3, 0⟩, ⟨4, 4, 1, 0⟩]⟩)] := by
  obtain ⟨c, hok⟩ : ∃ c, busy_client = .ok c :=
    ⟨match busy_client with | .ok c => c | .error _ => {}, by decide +kernel⟩
  refine ⟨c, hok, ?_⟩
  have hreach : c.Reachable := by
    obtain ⟨c₁, h₁, hok⟩ := bind_ok hok
    obtain ⟨c₂, h₂, hok⟩ := bind_ok hok
    exact .unlink 2 (.submit _ (.submit _ (.connect 0x10001) h₁) h₂) hok
  have hc : c = match busy_client with | .ok c => c | .error _ => {} := by rw [hok]
  have htable : c.pending = [(1, some (1, 2)), (2, some (1, 0)), (3, none)] ∧ c.replies = [] := by
    rw [hc]
    decide +kernel
  have hmsgs : ∃ m₁ m₂ m₃, c.sent = [m₁, m₂, m₃] ∧
      pack_cmd_submit (iso_in.cmd 1 0x10001) = some m₁ ∧ be32At m₃ 0 = usbip_cmd_unlink ∧
      be32At m₃ 4 = 3 ∧ be32At m₃ 0x14 = 2 := by
    rw [hc]
    refine ⟨_, _, _, rfl, ?_, ?_, ?_, ?_⟩ <;> decide +kernel
  obtain ⟨m₁, m₂, m₃, hsent, hm₁, hm₃⟩ := hmsgs
  have hans : ∀ r ∈ [Answer.unlink 3 2, .submit iso_in_urb], Answers c r := by
    intro r hr
    rcases List.mem_cons.mp hr with rfl | hr
    · refine ⟨?_, m₃, ?_, hm₃⟩
      · rw [htable.1]
        decide
      · rw [hsent]
        exact List.mem_of_getElem? (i := 2) rfl
    · obtain rfl := List.mem_singleton.mp hr
      refine ⟨?_, m₁, ?_, iso_in_answered hm₁⟩
      · rw [htable.1]
        decide
      · rw [hsent]
        exact List.mem_cons_self
  obtain ⟨bytes, _, hread⟩ := replies_in_step c busy_server _ hreach (by decide) hans (by decide)
  obtain ⟨c', hc', hsock, hreplies⟩ := hread []
  rw [List.append_nil] at hc'
  refine ⟨bytes, c', hc', hsock, ?_⟩
  rw [hreplies, htable.2]
  decide +kernel

end Usbip
