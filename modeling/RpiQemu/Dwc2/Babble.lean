import RpiQemu.Dwc2.Accounting
import RpiQemu.Dwc2.Gadget

/-! # Babble

    An IN packet that is larger than the room left in the host's buffer is
    refused: the host should see `USB_RET_BABBLE`, and `USB_RET_SUCCESS` only
    when no packet was refused.

    * `turns_packets`: the packets that move are those of the guest's transfer,
      whole and in order.
    * `turns_babble`: when the loop refuses one, told from the registers.
    * `agrees_iff`: the isochronous path reports success for a refused packet;
      the other path does not. -/

namespace Dwc2

open Register
open Usbip (UsbRet)

variable {s t : DWC2State} {n mps size xfer pkt moved : Nat} {in_ : Bool}
  {packets : List (List UInt8)} {m : Moved} {data : List UInt8}

/-! ## The packets of the guest's transfer -/

/-- The address of packet `j` of a transfer at `dma`. -/
def packet_addr (dma mps j : Nat) : Nat := if j = 0 then dma else (dma + j * mps) % 2 ^ 32

/-- Packet `j` of the guest's transfer of `xfer` bytes at `dma`. -/
def guest_packet (mem : Memory) (dma mps xfer j : Nat) : List UInt8 :=
  mem.read (packet_addr dma mps j) (min mps (xfer - j * mps))

/-- Past a full packet. -/
theorem guest_packet_succ (mem : Memory) (dma mps xfer j : Nat) :
    guest_packet mem ((dma + mps) % 2 ^ 32) mps (xfer - mps) j =
      guest_packet mem dma mps xfer (j + 1) := by
  have haddr : packet_addr ((dma + mps) % 2 ^ 32) mps j = packet_addr dma mps (j + 1) := by
    unfold packet_addr
    rw [if_neg (Nat.succ_ne_zero j), Nat.succ_mul]
    by_cases hj : j = 0
    · rw [if_pos hj, hj, Nat.zero_mul, Nat.zero_add]
    · rw [if_neg hj, Nat.mod_add_mod]
      congr 1
      omega
  unfold guest_packet
  rw [haddr, Nat.succ_mul]
  congr 2
  omega

/-- The bytes of an IN access that succeeds, and where the next ones are. -/
theorem Access.read {len : Nat} {bytes : List UInt8}
    (h : Access s n true [] len (t, some bytes)) :
    bytes = s.mem.read (dwc2_ep s n true).dma len ∧ t.mem = s.mem ∧
      (0 < len → (dwc2_ep t n true).dma = ((dwc2_ep s n true).dma + len) % 2 ^ 32) := by
  cases h with
  | none hlen =>
    subst hlen
    exact ⟨rfl, rfl, fun hpos => absurd hpos (Nat.lt_irrefl 0)⟩
  | ok _ _ _ _ hep _ _ hmem =>
    refine ⟨rfl, hmem, fun _ => ?_⟩
    rw [hep]
    rfl

/-- The packets that move are the next ones of the transfer. -/
theorem turns_packets (h : Turns n true mps size data pkt s xfer moved packets m) :
    m.packets = packets ++ (List.range (m.packets.length - packets.length)).map
      (guest_packet s.mem (dwc2_ep s n true).dma mps xfer) := by
  induction h with
  | used_up | refused | fails => simp
  | stops pkt s t xfer moved c packets bytes hc _ hacc _ =>
    obtain ⟨hbytes, _, _⟩ := hacc.read
    have hone : (packets ++ [bytes]).length - packets.length = 1 := by simp
    dsimp only
    rw [hone, hbytes, hc]
    simp [guest_packet, packet_addr, ep_chunk]
  | goes_on pkt s t xfer moved c packets bytes m hc _ hacc hfull _ hrest ih =>
    obtain ⟨hbytes, hmem, hdma⟩ := hacc.read
    have hgrow := (turns_account hrest).more
    have hlen : (packets ++ [bytes]).length = packets.length + 1 := by simp
    rw [hlen] at ih hgrow
    have hk : m.packets.length - packets.length =
        m.packets.length - (packets.length + 1) + 1 := by omega
    rw [hk, List.range_succ_eq_map, List.map_cons, List.map_map]
    refine ih.trans ?_
    -- the first of them moved in this turn, the others in the later ones
    have hfirst : bytes = guest_packet s.mem (dwc2_ep s n true).dma mps xfer 0 := by
      rw [hbytes, hc]
      simp [guest_packet, packet_addr, ep_chunk]
    have hnext : ∀ j, guest_packet t.mem (dwc2_ep t n true).dma mps (xfer - c) j =
        guest_packet s.mem (dwc2_ep s n true).dma mps xfer (j + 1) := by
      intro j
      subst hfull
      rw [hmem, ← guest_packet_succ]
      rcases Nat.eq_zero_or_pos c with hz | hpos
      · simp [guest_packet, hz, Memory.read]
      · rw [hdma hpos]
    rw [← hfirst, List.append_assoc, List.singleton_append]
    congr 2
    exact List.map_congr_left fun j _ => hnext j

/-! ## Which packet is refused -/

/-- The `k` packets before it are full and leave room, and packet `k` is larger
    than what is left. -/
structure RefusesAt (mps room pkt : Nat) (s : DWC2State) (xfer moved k : Nat) : Prop where
  lt : k < pkt
  in_xfer : k * mps ≤ xfer
  in_room : 0 < k → moved + k * mps < room
  moves : ∀ j < k, s.dma_results[j]? ≠ some false
  big : room - (moved + k * mps) < min mps (xfer - k * mps)

/-- The packet is not the first: the first is full, and succeeds. -/
theorem RefusesAt.chunk {k : Nat} (h : RefusesAt mps size pkt s xfer moved k) (hk : 0 < k) :
    ep_chunk true mps (size - moved) xfer = mps ∧ moved + mps < size ∧
      s.dma_results.headD true = true := by
  have hle : mps ≤ k * mps := Nat.le_mul_of_pos_left mps hk
  have hx := h.in_xfer
  have hroom := h.in_room hk
  refine ⟨?_, by omega, (headD_true_iff _).mpr (h.moves 0 hk)⟩
  have hmin : min mps xfer = mps := by omega
  exact hmin

/-- The loop refuses a packet when the registers say so. -/
theorem turns_babble (h : Turns n true mps size data pkt s xfer moved packets m) :
    m.babble = true ↔ ∃ k, RefusesAt mps size pkt s xfer moved k := by
  induction h with
  | used_up s xfer moved packets =>
    refine ⟨fun h => Bool.noConfusion h, ?_⟩
    rintro ⟨k, hk⟩
    exact absurd hk.lt (Nat.not_lt_zero k)
  -- The packet at hand is the one refused.
  | refused pkt s xfer moved packets _ hbig =>
    refine ⟨fun _ => ⟨0, Nat.succ_pos _, by omega, fun h => absurd h (Nat.lt_irrefl 0),
      fun j hj => absurd hj (Nat.not_lt_zero j), ?_⟩, fun _ => rfl⟩
    rw [Nat.zero_mul, Nat.add_zero, Nat.sub_zero]
    exact hbig
  -- The access failed, so the loop never came to a packet further on.
  | fails pkt s t xfer moved c packets hc hfit hacc =>
    refine ⟨fun h => Bool.noConfusion h, ?_⟩
    rintro ⟨k, hk⟩
    rcases Nat.eq_zero_or_pos k with rfl | hpos
    · have hbig := hk.big
      rw [Nat.zero_mul, Nat.add_zero, Nat.sub_zero] at hbig
      have hmin : c = min mps xfer := hc
      omega
    · cases hacc with
      | fail _ _ hbad _ _ _ _ _ =>
        rw [(hk.chunk hpos).2.2] at hbad
        cases hbad
  | stops pkt s t xfer moved c packets bytes hc hfit hacc hstop =>
    refine ⟨fun h => Bool.noConfusion h, ?_⟩
    rintro ⟨k, hk⟩
    rcases Nat.eq_zero_or_pos k with rfl | hpos
    · have hbig := hk.big
      rw [Nat.zero_mul, Nat.add_zero, Nat.sub_zero] at hbig
      have hmin : c = min mps xfer := hc
      omega
    · obtain ⟨hmps, hlt, _⟩ := hk.chunk hpos
      omega
  -- A full packet was moved: the refusal is one later, seen from here.
  | goes_on pkt s t xfer moved c packets bytes m hc hfit hacc hfull hmore _ ih =>
    have hmin : c = min mps xfer := hc
    subst hfull
    rw [ih]
    constructor
    · rintro ⟨k, hk⟩
      have hmul : (k + 1) * c = k * c + c := Nat.succ_mul k c
      have hx := hk.in_xfer
      have hbig := hk.big
      obtain ⟨hok, ht⟩ := hacc.some_results (by omega)
      refine ⟨k + 1, by have := hk.lt; omega, by omega, fun _ => ?_, fun j hj => ?_, ?_⟩
      · rcases Nat.eq_zero_or_pos k with rfl | hpos
        · omega
        · have hroom := hk.in_room hpos
          omega
      · cases j with
        | zero => exact (headD_true_iff _).mp hok
        | succ j =>
          have hnext := hk.moves j (by omega)
          rwa [ht, List.getElem?_tail] at hnext
      · rw [hmul]
        omega
    · rintro ⟨k, hk⟩
      rcases Nat.eq_zero_or_pos k with rfl | hpos
      · have hbig := hk.big
        rw [Nat.zero_mul, Nat.add_zero, Nat.sub_zero] at hbig
        omega
      · obtain ⟨k, rfl⟩ : ∃ k', k = k' + 1 := ⟨k - 1, by omega⟩
        have hmul : (k + 1) * c = k * c + c := Nat.succ_mul k c
        have hx := hk.in_xfer
        have hbig := hk.big
        have hroom := hk.in_room hpos
        rw [hmul] at hx hbig hroom
        obtain ⟨_, ht⟩ := hacc.some_results (by omega)
        refine ⟨k, by have := hk.lt; omega, by omega, fun _ => by omega, fun j hj => ?_, by omega⟩
        rw [ht, List.getElem?_tail]
        exact hk.moves (j + 1) (by omega)

/-! ## A call -/

/-- The bytes that move are those of the packets. -/
theorem turns_flatten (h : Turns n true mps size [] pkt s xfer moved packets m) :
    m.packets.flatten.length + moved = packets.flatten.length + m.moved := by
  induction h with
  | used_up | refused | fails => rfl
  | stops pkt s t xfer moved c packets bytes _ _ hacc _ =>
    obtain ⟨hbytes, _, _⟩ := hacc.read
    simp [hbytes]
    omega
  | goes_on pkt s t xfer moved c packets bytes m _ _ hacc _ _ _ ih =>
    obtain ⟨hbytes, _, _⟩ := hacc.read
    have hlen : (packets ++ [bytes]).flatten.length = packets.flatten.length + c := by
      simp [hbytes]
    rw [hlen] at ih
    omega

/-- A packet that is refused ends the host's transfer. -/
theorem turns_babble_done (h : Turns n in_ mps size data pkt s xfer moved packets m) :
    m.babble = true → m.host_done = true := by
  induction h with
  | used_up | fails | stops => exact fun h => Bool.noConfusion h
  | refused => exact fun _ => rfl
  | goes_on _ _ _ _ _ _ _ _ _ _ _ _ _ _ _ ih => exact ih

/-- The first `k` packets of the transfer armed on an IN endpoint. -/
def armed_packets (s : DWC2State) (n k : Nat) : List (List UInt8) :=
  (List.range k).map (guest_packet s.mem (dwc2_ep s n true).dma (dwc2_ep_mps s n true)
    (dwc2_tsiz_get s n true).1)

/-- A packet of the armed transfer is larger than the room left when its turn
    comes. -/
def Refuses (s : DWC2State) (n room : Nat) : Prop :=
  on DXEPCTL_STALL (dwc2_ep s n true).ctl = false ∧ in_blocked s n = false ∧
    ∃ k, RefusesAt (dwc2_ep_mps s n true) room (dwc2_tsiz_get s n true).2 s
      (dwc2_tsiz_get s n true).1 0 k

/-- What a call of `dwc2_ep_in_packets` leaves. -/
structure Sent (s : DWC2State) (n room : Nat) (m : Moved) : Prop where
  packets : m.packets = armed_packets s n m.packets.length
  bytes : m.packets.flatten.length = m.moved
  dma : (dwc2_ep m.s n true).dma % 2 ^ 32 = ((dwc2_ep s n true).dma + m.moved) % 2 ^ 32
  babble : m.babble = true ↔ in_blocked s n = false ∧
    ∃ k, RefusesAt (dwc2_ep_mps s n true) room (dwc2_tsiz_get s n true).2 s
      (dwc2_tsiz_get s n true).1 0 k
  ends : m.babble = true → m.host_done = true

theorem turns_sent {room : Nat} (hb : in_blocked s n = false)
    (h : Turns n true (dwc2_ep_mps s n true) room [] (dwc2_tsiz_get s n true).2 s
      (dwc2_tsiz_get s n true).1 0 [] m) : Sent s n room m := by
  have hpackets := turns_packets h
  have hflat := turns_flatten h
  have hdma := (turns_account h).dma
  simp only [List.length_nil, Nat.sub_zero, List.nil_append, List.flatten_nil, Nat.add_zero,
    Nat.zero_add] at hpackets hflat hdma
  exact
    { packets := hpackets, bytes := hflat, dma := hdma,
      babble := (turns_babble h).trans (by simp [hb]), ends := turns_babble_done h }

theorem in_packets_sent (s : DWC2State) (n room : Nat) :
    Sent s n room (dwc2_ep_in_packets s n room) := by
  have hcall := in_packets_call s n room
  generalize dwc2_ep_in_packets s n room = m at hcall
  cases hcall with
  | blocked hb =>
    have hb' : in_blocked s n = true := hb
    exact
      { packets := rfl, bytes := rfl, dma := rfl, babble := by simp [hb'],
        ends := fun h => Bool.noConfusion h }
  | failed m hb hturns _ => exact turns_sent hb hturns
  | ended m hb hturns _ =>
    have hsent := turns_sent hb hturns
    have haccount := turns_account hturns
    obtain ⟨hxlt, hklt⟩ := tsiz_get_lt s n true
    have hsize := haccount.size
    have hcount := haccount.count
    simp only [List.length_nil, Nat.add_zero] at hsize hcount
    have hback := written_back m.s n true m.xfer m.pkt (decide (m.pkt = 0 ∨ m.short_pkt = true))
      (by omega) (by omega)
    simp only [decide_eq_true_eq] at hback
    refine { hsent with dma := ?_ }
    dsimp only
    rw [hback.2.1]
    exact hsent.dma

/-! ## The two callers -/

/-- The room in the host's buffer as the two callers count it. -/
def in_room (iso : Bool) (p : USBPacket) : Nat :=
  if iso then p.iov.length % 2 ^ 32 else room_left p p.actual_length

/-- The controller after a call on the host's IN packet, and the packet as the host
    sees it: by `dwc2_gadget_handle_iso`, or by `dwc2_ep_in_run` for a packet that
    waits. -/
def in_answer (iso : Bool) (g : DWC2GadgetState) (n : Nat) (p : USBPacket) :
    DWC2State × USBPacket :=
  if iso then
    let (g, p) := dwc2_gadget_handle_iso g p n true
    (g.dwc2, p)
  else
    let p := { p with status := .async }
    let (g, done) := dwc2_ep_in_run (g.set_in n (some p)) n p
    let p := (g.in_p n).getD p
    (g.dwc2, if done = true ∧ p.status = .async then { p with status := .success } else p)

/-- The packets that left the guest's transfer are in the host's buffer. -/
def Whole (s : DWC2State) (n : Nat) (p : USBPacket) (t : DWC2State) (q : USBPacket) : Prop :=
  ∃ k, q.iov = (usb_packet_copy p (armed_packets s n k).flatten).iov ∧
    q.actual_length = (usb_packet_copy p (armed_packets s n k).flatten).actual_length ∧
    (dwc2_ep t n true).dma % 2 ^ 32 =
      ((dwc2_ep s n true).dma + (armed_packets s n k).flatten.length) % 2 ^ 32

/-- A packet that is refused is babble, and success says that none was. -/
structure Agrees (iso : Bool) (g : DWC2GadgetState) (n : Nat) (p : USBPacket) : Prop where
  babble : Refuses g.dwc2 n (in_room iso p) → (in_answer iso g n p).2.status = .babble
  success : (in_answer iso g n p).2.status = .success →
    Whole g.dwc2 n p (in_answer iso g n p).1 (in_answer iso g n p).2 ∧
      ¬ Refuses g.dwc2 n (in_room iso p)

/-- Whatever was sent is whole. -/
theorem Sent.whole {room : Nat} (h : Sent s n room m) {p q : USBPacket}
    (hiov : q.iov = (usb_packet_copy p m.packets.flatten).iov)
    (hlen : q.actual_length = (usb_packet_copy p m.packets.flatten).actual_length)
    (hdma : (dwc2_ep t n true).dma = (dwc2_ep m.s n true).dma) : Whole s n p t q := by
  have hpackets := h.packets
  refine ⟨m.packets.length, ?_, ?_, ?_⟩
  · rw [← hpackets]
    exact hiov
  · rw [← hpackets]
    exact hlen
  · rw [← hpackets, hdma, h.bytes]
    exact h.dma

theorem iso_agrees (g : DWC2GadgetState) (n : Nat) (p : USBPacket) :
    Agrees true g n p ↔ ¬ Refuses g.dwc2 n (in_room true p) := by
  have hsent := in_packets_sent g.dwc2 n (p.iov.length % 2 ^ 32)
  have hstatus : (in_answer true g n p).2.status =
      if (dwc2_ep_in_packets g.dwc2 n (p.iov.length % 2 ^ 32)).moved ≠ 0 ∨
        (dwc2_ep_in_packets g.dwc2 n (p.iov.length % 2 ^ 32)).host_done = true then .success
      else .nak := rfl
  constructor
  · intro h hrefuses
    have hbabble := hsent.babble.mpr hrefuses.2
    -- what was refused sets the loop's end, which is what the status is read off
    have hstatus' := h.babble hrefuses
    rw [hstatus, if_pos (Or.inr (hsent.ends hbabble))] at hstatus'
    cases hstatus'
  · intro hnot
    refine ⟨fun h => absurd h hnot, fun hsuccess => ⟨hsent.whole rfl rfl ?_, hnot⟩⟩
    have hne : (in_answer true g n p).2.status ≠ .nak := by
      rw [hsuccess]
      decide
    rw [hstatus] at hne
    show (dwc2_ep (if _ then _ else _) n true).dma = _
    rw [if_neg hne]

theorem armed_of_not_blocked (h : in_blocked s n = false) : dwc2_ep_armed s n true = true := by
  unfold in_blocked at h
  unfold dwc2_ep_armed
  simp only [Bool.or_eq_false_iff, Bool.not_eq_false'] at h
  simp [h.1.1, h.1.2]

theorem bulk_agrees (g : DWC2GadgetState) (n : Nat) (p : USBPacket) : Agrees false g n p := by
  have hsent := in_packets_sent g.dwc2 n (room_left p p.actual_length)
  by_cases hstall : on DXEPCTL_STALL (dwc2_ep g.dwc2 n true).ctl = true
  · have hanswer : (in_answer false g n p).2.status = .stall := by
      unfold in_answer dwc2_ep_in_run
      simp [DWC2GadgetState.set_in, hstall]
    refine ⟨fun h => ?_, fun h => ?_⟩
    · rw [h.1] at hstall
      cases hstall
    · rw [hanswer] at h
      cases h
  by_cases harmed : dwc2_ep_armed g.dwc2 n true = true
  · have hanswer : in_answer false g n p =
        ((dwc2_ep_in_packets g.dwc2 n (room_left p p.actual_length)).s,
          { usb_packet_copy p
              (dwc2_ep_in_packets g.dwc2 n (room_left p p.actual_length)).packets.flatten with
            status :=
              if (dwc2_ep_in_packets g.dwc2 n (room_left p p.actual_length)).babble then .babble
              else if (dwc2_ep_in_packets g.dwc2 n (room_left p p.actual_length)).host_done then
                .success
              else .async }) := by
      have hroom : room_left { p with status := UsbRet.async } p.actual_length =
        room_left p p.actual_length := rfl
      unfold in_answer dwc2_ep_in_run
      simp only [Bool.false_eq_true, if_false, DWC2GadgetState.set_in, hstall, harmed,
        Bool.not_true, Function.update_self, Option.getD_some, hroom]
      generalize dwc2_ep_in_packets g.dwc2 n (room_left p p.actual_length) = m at hsent ⊢
      cases hb : m.babble with
      | true => simp [usb_packet_copy]
      | false => cases hd : m.host_done <;> simp [usb_packet_copy]
    generalize dwc2_ep_in_packets g.dwc2 n (room_left p p.actual_length) = m at hsent hanswer
    refine ⟨fun h => ?_, fun h => ⟨?_, fun hrefuses => ?_⟩⟩
    · rw [hanswer]
      dsimp only
      rw [if_pos (hsent.babble.mpr h.2)]
    · rw [hanswer]
      exact hsent.whole rfl rfl rfl
    · rw [hanswer] at h
      dsimp only at h
      rw [if_pos (hsent.babble.mpr hrefuses.2)] at h
      cases h
  · -- nothing is armed: the packet waits
    have hanswer : (in_answer false g n p).2.status = .async := by
      unfold in_answer dwc2_ep_in_run
      simp [DWC2GadgetState.set_in, hstall, harmed]
    refine ⟨fun h => absurd (armed_of_not_blocked h.2.1) harmed, fun h => ?_⟩
    rw [hanswer] at h
    cases h

/-- The two callers agree but for an isochronous packet that is refused. -/
theorem agrees_iff (iso : Bool) (g : DWC2GadgetState) (n : Nat) (p : USBPacket) :
    Agrees iso g n p ↔ ¬ (iso = true ∧ Refuses g.dwc2 n (in_room iso p)) := by
  cases iso with
  | true => simpa using iso_agrees g n p
  | false => simpa using bulk_agrees g n p

/-- EP1 IN is isochronous, with a packet of 64 bytes armed. -/
def iso_armed : DWC2GadgetState :=
  { dwc2 := { iepreg := fun _ =>
      { ctl := 2 ^ 31 + 2 ^ 18 + 2 ^ 15 + 64, tsiz := 2 ^ 19 + 64, dma := 4096 } } }

/-- The host asks for 32 bytes. -/
def asks_half : USBPacket := { id := 0, nr := 1, in_ := true, iov := List.replicate 32 0 }

/-- The host gets none of the packet, and success. -/
theorem not_agrees : ¬ ∀ iso g n p, Agrees iso g n p := by
  intro h
  have hrefuses : Refuses iso_armed.dwc2 1 32 := by
    refine ⟨by decide, by decide, 0, ?_⟩
    exact
      { lt := by decide, in_xfer := by decide, in_room := by decide,
        moves := fun j hj => absurd hj (Nat.not_lt_zero j), big := by decide }
  have hbabble := (h true iso_armed 1 asks_half).babble hrefuses
  revert hbabble
  decide +kernel

end Dwc2
