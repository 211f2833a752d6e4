import RpiQemu.Dwc2.Babble
import RpiQemu.Dwc2.OutData

/-! # The data of a host's IN packet

    On the wire an IN transfer ends at the first packet that is short or fills the
    host's buffer, and in babble at a packet that is larger than the room left.

    * **The wire** (`host_takes`): what a host makes of a stream of packets.
    * **One call** (`in_packets_takes`): the packets of the armed transfer, taken so.
    * **All calls** (`in_data_on_wire`): the calls for a host packet, with whatever the
      guest arms between them, are the wire's transfer on the stream of all armed
      packets.
    * A host buffer of 2^32 bytes or more does not fit the engine's count of the room
      (`huge_buffer_babbles`). -/

namespace Dwc2

open Register
open Usbip (UsbRet)

variable {s t : DWC2State} {n mps size xfer pkt moved room : Nat} {data : List UInt8}
  {packets : List (List UInt8)} {m : Moved} {p : USBPacket} {g : DWC2GadgetState}

/-! ## The wire -/

/-- What a host with `room` bytes of buffer receives of a stream of packets, each with
    the largest size it may have, and how the transfer ends. -/
def host_takes (room : Nat) : List (Nat × List UInt8) → List UInt8 × Option UsbRet
  | [] => ([], none)
  | (mps, b) :: rest =>
    if room < b.length then ([], some .babble)
    else if b.length < mps ∨ b.length = room then (b, some .success)
    else
      let r := host_takes (room - b.length) rest
      (b ++ r.1, r.2)

theorem host_takes_le (room : Nat) (l : List (Nat × List UInt8)) :
    (host_takes room l).1.length ≤ room := by
  induction l generalizing room with
  | nil => exact Nat.zero_le _
  | cons x l ih =>
    obtain ⟨mps, b⟩ := x
    unfold host_takes
    split
    · exact Nat.zero_le _
    · next hfit =>
      split
      · exact Nat.not_lt.mp hfit
      · have hrest := ih (room - b.length)
        dsimp only
        rw [List.length_append]
        omega

theorem host_takes_babble {b : List UInt8} (l : List (Nat × List UInt8)) (h : room < b.length) :
    host_takes room ((mps, b) :: l) = ([], some .babble) := if_pos h

theorem host_takes_last {b : List UInt8} (l : List (Nat × List UInt8)) (hfit : b.length ≤ room)
    (h : b.length < mps ∨ b.length = room) :
    host_takes room ((mps, b) :: l) = (b, some .success) := by
  rw [host_takes, if_neg (Nat.not_lt.mpr hfit), if_pos h]

theorem host_takes_more {b : List UInt8} (l : List (Nat × List UInt8)) (hfit : b.length ≤ room)
    (h : ¬ (b.length < mps ∨ b.length = room)) :
    host_takes room ((mps, b) :: l) =
      (b ++ (host_takes (room - b.length) l).1, (host_takes (room - b.length) l).2) := by
  rw [host_takes, if_neg (Nat.not_lt.mpr hfit), if_neg h]

/-- A transfer that has ended takes no more packets; one that has not goes on in the
    room that is left. -/
theorem host_takes_append (room : Nat) (l l' : List (Nat × List UInt8)) :
    host_takes room (l ++ l') =
      if (host_takes room l).2.isSome then host_takes room l
      else
        ((host_takes room l).1 ++ (host_takes (room - (host_takes room l).1.length) l').1,
          (host_takes (room - (host_takes room l).1.length) l').2) := by
  induction l generalizing room with
  | nil => rfl
  | cons x l ih =>
    obtain ⟨mps, b⟩ := x
    rw [List.cons_append]
    -- babble and a last packet end the first part as they end the whole
    by_cases hbig : room < b.length
    · rw [host_takes_babble _ hbig, host_takes_babble _ hbig]
      rfl
    have hfit := Nat.not_lt.mp hbig
    by_cases hlast : b.length < mps ∨ b.length = room
    · rw [host_takes_last _ hfit hlast, host_takes_last _ hfit hlast]
      rfl
    rw [host_takes_more _ hfit hlast, host_takes_more _ hfit hlast, ih]
    dsimp only
    split
    · rfl
    · rw [List.append_assoc, List.length_append, Nat.sub_sub]

/-! ## One call -/

/-- The packet after the first of a transfer is the first of what is left of it. -/
theorem Access.next_packet {c : Nat} {bytes : List UInt8}
    (h : Access s n true [] c (t, some bytes)) (hfull : c = mps) (j : Nat) :
    guest_packet t.mem (dwc2_ep t n true).dma mps (xfer - c) j =
      guest_packet s.mem (dwc2_ep s n true).dma mps xfer (j + 1) := by
  obtain ⟨-, hmem, hdma⟩ := h.read
  subst hfull
  rw [hmem, ← guest_packet_succ]
  -- an empty packet does not move the address, and carries no byte
  rcases Nat.eq_zero_or_pos c with hz | hpos
  · simp [guest_packet, hz, Memory.read]
  · rw [hdma hpos]

/-- The first packet of a transfer is the access's. -/
theorem Access.first_packet {c : Nat} {bytes : List UInt8}
    (h : Access s n true [] c (t, some bytes)) (hc : c = min mps xfer) :
    bytes = guest_packet s.mem (dwc2_ep s n true).dma mps xfer 0 := by
  obtain ⟨hbytes, -, -⟩ := h.read
  rw [hbytes, hc]
  simp [guest_packet, packet_addr]

theorem guest_packet_length (mem : Memory) (dma j : Nat) :
    (guest_packet mem dma mps xfer j).length = min mps (xfer - j * mps) :=
  Memory.read_length _ _ _

/-- The packets that a transfer has left. -/
def packets_left (s : DWC2State) (n mps xfer pkt : Nat) : List (Nat × List UInt8) :=
  (List.range pkt).map fun j => (mps, guest_packet s.mem (dwc2_ep s n true).dma mps xfer j)

theorem packets_left_succ (s : DWC2State) (n mps xfer pkt : Nat) :
    packets_left s n mps xfer (pkt + 1) =
      (mps, guest_packet s.mem (dwc2_ep s n true).dma mps xfer 0) ::
        (List.range pkt).map fun j =>
          (mps, guest_packet s.mem (dwc2_ep s n true).dma mps xfer (j + 1)) := by
  unfold packets_left
  rw [List.range_succ_eq_map, List.map_cons, List.map_map]
  rfl

/-- How a run of turns ends for the host. -/
def Moved.ends (m : Moved) : Option UsbRet :=
  if m.babble then some .babble else if m.host_done then some .success else none

/-- The loop takes the packets as the wire does, when every access succeeds. -/
theorem turns_takes (h : Turns n true mps size [] pkt s xfer moved packets m)
    (hok : ∀ b ∈ s.dma_results, b = true) (hmoved : moved ≤ size) :
    m.packets.flatten =
        packets.flatten ++ (host_takes (size - moved) (packets_left s n mps xfer pkt)).1 ∧
      m.ends = (host_takes (size - moved) (packets_left s n mps xfer pkt)).2 := by
  -- the direction and the data are the loop's parameters, kept apart for the induction
  generalize hin : true = in_, hdata : ([] : List UInt8) = data at h
  induction h with
  | used_up s xfer moved packets => exact ⟨(List.append_nil _).symm, rfl⟩
  | refused pkt s xfer moved packets _ hbig =>
    subst hin
    have hlen : size - moved < (guest_packet s.mem (dwc2_ep s n true).dma mps xfer 0).length := by
      rw [guest_packet_length, Nat.zero_mul, Nat.sub_zero]
      exact hbig
    rw [packets_left_succ, host_takes_babble _ hlen]
    exact ⟨(List.append_nil _).symm, rfl⟩
  | fails pkt s t xfer moved c packets hc hfit hacc =>
    cases hacc with
    | fail _ _ hbad _ _ _ _ _ =>
      -- no access fails
      cases hr : s.dma_results with
      | nil =>
        rw [hr] at hbad
        exact absurd hbad (by decide)
      | cons b l =>
        rw [hr] at hbad
        exact absurd ((hok b (by rw [hr]; exact List.mem_cons_self)).symm.trans hbad) (by decide)
  | stops pkt s t xfer moved c packets bytes hc hfit hacc hstop =>
    subst hin hdata
    have hfirst := hacc.first_packet hc
    have hlen : bytes.length = c := by
      rw [hfirst, guest_packet_length, Nat.zero_mul, Nat.sub_zero]
      exact hc.symm
    rw [packets_left_succ, ← hfirst, host_takes_last _ (by omega) (by omega)]
    exact ⟨by simp, rfl⟩
  | goes_on pkt s t xfer moved c packets bytes m hc hfit hacc hfull hmore _ ih =>
    subst hin hdata
    have hfirst := hacc.first_packet hc
    have hlen : bytes.length = c := by
      rw [hfirst, guest_packet_length, Nat.zero_mul, Nat.sub_zero]
      exact hc.symm
    -- what the wire has left is the transfer of the next turn
    have hnext : ((List.range pkt).map fun j =>
        (mps, guest_packet s.mem (dwc2_ep s n true).dma mps xfer (j + 1))) =
        packets_left t n mps (xfer - c) pkt :=
      List.map_congr_left fun j _ => by rw [hacc.next_packet hfull j]
    -- the access used up the first of the results
    have hok' : ∀ b ∈ t.dma_results, b = true := by
      cases hacc with
      | none _ => exact hok
      | ok _ _ _ _ _ hr _ _ =>
        rw [hr]
        exact fun b hb => hok b (List.mem_of_mem_tail hb)
    obtain ⟨hbytes, hends⟩ := ih hok' (by omega)
    rw [packets_left_succ, ← hfirst, hnext, host_takes_more _ (by omega) (by omega)]
    dsimp only
    rw [hlen, Nat.sub_sub]
    refine ⟨?_, hends⟩
    rw [hbytes, List.flatten_append, List.append_assoc]
    simp

/-- The packets of the transfer armed on an IN endpoint, when it does not NAK. -/
def armed_stream (s : DWC2State) (n : Nat) : List (Nat × List UInt8) :=
  if in_blocked s n then []
  else packets_left s n (dwc2_ep_mps s n true) (dwc2_tsiz_get s n true).1 (dwc2_tsiz_get s n true).2

theorem in_packets_takes (hok : ∀ b ∈ s.dma_results, b = true) (n room : Nat) :
    (dwc2_ep_in_packets s n room).packets.flatten = (host_takes room (armed_stream s n)).1 ∧
      (dwc2_ep_in_packets s n room).ends = (host_takes room (armed_stream s n)).2 ∧
      (dwc2_ep_in_packets s n room).packets.flatten.length ≤ (dwc2_tsiz_get s n true).1 := by
  have hturns : ∀ {m : Moved}, in_blocked s n = false →
      Turns n true (dwc2_ep_mps s n true) room [] (dwc2_tsiz_get s n true).2 s
        (dwc2_tsiz_get s n true).1 0 [] m →
      m.packets.flatten = (host_takes room (armed_stream s n)).1 ∧
        m.ends = (host_takes room (armed_stream s n)).2 ∧
        m.packets.flatten.length ≤ (dwc2_tsiz_get s n true).1 := by
    intro m hb h
    have hstream : armed_stream s n = packets_left s n (dwc2_ep_mps s n true)
        (dwc2_tsiz_get s n true).1 (dwc2_tsiz_get s n true).2 := by
      rw [armed_stream, hb]
      rfl
    obtain ⟨hbytes, hends⟩ := turns_takes h hok (Nat.zero_le _)
    rw [Nat.sub_zero, ← hstream] at hbytes hends
    have hflat := turns_flatten h
    have hsize := (turns_account h).size
    rw [List.flatten_nil, List.length_nil] at hflat
    exact ⟨hbytes, hends, by omega⟩
  have hcall := in_packets_call s n room
  generalize dwc2_ep_in_packets s n room = m at hcall
  cases hcall with
  | blocked hb =>
    have hstream : armed_stream s n = [] := if_pos hb
    rw [hstream]
    exact ⟨rfl, rfl, Nat.zero_le _⟩
  | failed m hb h _ => exact hturns hb h
  | ended m hb h _ =>
    obtain ⟨hbytes, hends, hxfer⟩ := hturns hb h
    exact ⟨hbytes, hends, hxfer⟩

/-! ## All calls for a host packet -/

/-- What the calls of `dwc2_ep_in_run` for a host packet have done: the gadget, with
    the packet in `in_p`, and whether the last call ended the packet. -/
structure InCalls where
  g : DWC2GadgetState
  done : Bool := false

/-- One more call, on the controller as the guest has left it. -/
def in_call (n : Nat) (c : InCalls) (s : DWC2State) : InCalls :=
  match c.g.in_p n with
  | none => c
  | some p =>
    if c.done then c
    else
      let r := dwc2_ep_in_run { c.g with dwc2 := s } n p
      { g := r.1, done := r.2 }

/-- The status that the host's packet ends with (`dwc2_gadget_packet_done`), once it
    does. -/
def InCalls.status (c : InCalls) (n : Nat) : Option UsbRet :=
  if c.done then
    (c.g.in_p n).map fun p => if p.status = .async then .success else p.status
  else none

/-- The host's buffer `iov` holds `bytes` at its start, and the packet says so. -/
def Holds (iov bytes : List UInt8) (q : USBPacket) : Prop :=
  q.iov = bytes ++ iov.drop bytes.length ∧ q.actual_length = bytes.length

theorem holds_copy {iov bytes more : List UInt8} {q : USBPacket} (h : Holds iov bytes q) :
    Holds iov (bytes ++ more) (usb_packet_copy q more) := by
  obtain ⟨hiov, hlen⟩ := h
  unfold Holds usb_packet_copy
  dsimp only
  rw [hiov, hlen, List.take_left, List.length_append]
  refine ⟨?_, rfl⟩
  congr 1
  rw [List.drop_append, List.drop_eq_nil_of_le (Nat.le_add_right _ _), List.nil_append,
    List.drop_drop]
  congr 1
  omega

theorem holds_in_packet {iov bytes : List UInt8} {q : USBPacket} (h : Holds iov bytes q)
    (m : Moved) : Holds iov (bytes ++ m.packets.flatten) (in_packet q m) := by
  have hcopy := @holds_copy iov bytes m.packets.flatten q h
  unfold in_packet
  dsimp only
  split
  · exact hcopy
  · exact hcopy

/-- How the call ends the host's packet. -/
theorem in_packet_ends {q : USBPacket} (hp : q.status = .success ∨ q.status = .async)
    (hends : m.babble = true → m.host_done = true) :
    m.host_done = m.ends.isSome ∧ (m.host_done = false → (in_packet q m).status = q.status) ∧
      (m.host_done = true →
        some (if (in_packet q m).status = .async then .success else (in_packet q m).status) =
          m.ends) := by
  unfold Moved.ends in_packet
  cases hb : m.babble with
  | true =>
    rw [hends hb]
    exact ⟨rfl, fun hno => Bool.noConfusion hno, fun _ => rfl⟩
  | false =>
    cases hd : m.host_done with
    | true =>
      refine ⟨rfl, fun hno => Bool.noConfusion hno, fun _ => ?_⟩
      have hstatus : (usb_packet_copy q m.packets.flatten).status = q.status := rfl
      simp only [Bool.false_eq_true, if_false, if_true]
      rw [hstatus]
      rcases hp with hp | hp
      · rw [hp]
        rfl
      · rw [hp]
        rfl
    | false => exact ⟨rfl, fun _ => rfl, fun hno => Bool.noConfusion hno⟩

/-- What holds after calls in which the guest armed the packets of `l`. -/
structure Taken (n : Nat) (p : USBPacket) (l : List (Nat × List UInt8)) (c : InCalls) : Prop where
  held : ∃ q, c.g.in_p n = some q ∧ Holds p.iov (host_takes p.iov.length l).1 q ∧
    (c.done = false → q.status = p.status)
  done : c.done = (host_takes p.iov.length l).2.isSome
  status : c.status n = (host_takes p.iov.length l).2

theorem in_call_taken (hlen : p.iov.length < 2 ^ 32) (hp : p.status = .success ∨ p.status = .async)
    {l : List (Nat × List UInt8)} {c : InCalls} (h : Taken n p l c)
    (hstall : on DXEPCTL_STALL (dwc2_ep s n true).ctl = false)
    (hok : ∀ b ∈ s.dma_results, b = true) :
    Taken n p (l ++ armed_stream s n) (in_call n c s) := by
  obtain ⟨⟨q, hq, hholds, hqs⟩, hdone, hstatus⟩ := h
  have happend := host_takes_append p.iov.length l (armed_stream s n)
  unfold in_call
  rw [hq]
  dsimp only
  cases hd : c.done with
  | true =>
    -- the transfer has ended
    rw [hd] at hdone
    rw [if_pos hdone.symm] at happend
    rw [if_pos rfl]
    exact ⟨⟨q, hq, by rw [happend]; exact hholds, hqs⟩, by rw [happend, hd]; exact hdone,
      by rw [happend]; exact hstatus⟩
  | false =>
    rw [hd] at hdone
    rw [if_neg (by rw [← hdone]; decide)] at happend
    rw [if_neg (by decide)]
    have hle := host_takes_le p.iov.length l
    have hsame := hqs hd
    have hroom : room_left q q.actual_length =
        p.iov.length - (host_takes p.iov.length l).1.length := by
      unfold room_left
      rw [hholds.1, hholds.2, List.length_append, List.length_drop]
      exact (Nat.mod_eq_of_lt (by omega)).trans (by omega)
    have hrun := ep_in_run_cases { c.g with dwc2 := s } n q
    generalize dwc2_ep_in_run { c.g with dwc2 := s } n q = r at hrun
    cases hrun with
    | stalled hyes => exact absurd (hyes.symm.trans hstall) (by decide)
    | waits _ hblocked =>
      have hstream : armed_stream s n = [] := if_pos hblocked
      rw [hstream, List.append_nil]
      refine ⟨⟨q, hq, hholds, fun _ => hsame⟩, hdone, ?_⟩
      rw [← hstatus, InCalls.status, InCalls.status, hd]
    | moves m _ hm =>
      obtain ⟨hbytes, hends, -⟩ := in_packets_takes hok n (room_left q q.actual_length)
      dsimp only at hm
      rw [← hm, hroom] at hbytes hends
      rw [← hbytes, ← hends] at happend
      have hlast : m.babble = true → m.host_done = true := by
        rw [hm]
        exact (in_packets_sent s n _).ends
      have hp' : q.status = .success ∨ q.status = .async := by
        rw [hsame]
        exact hp
      obtain ⟨hsome, hkept, hstatus'⟩ := in_packet_ends hp' hlast
      have hself : (DWC2GadgetState.set_in { c.g with dwc2 := m.s } n
          (some (in_packet q m))).in_p n = some (in_packet q m) := by
        simp [DWC2GadgetState.set_in]
      refine ⟨⟨_, hself, ?_, fun hno => (hkept hno).trans hsame⟩, ?_, ?_⟩
      · rw [happend]
        exact holds_in_packet hholds m
      · rw [happend]
        exact hsome
      · rw [happend]
        unfold InCalls.status
        dsimp only
        rw [hself]
        cases hend : m.host_done with
        | true =>
          rw [if_pos rfl]
          exact hstatus' hend
        | false =>
          rw [hend] at hsome
          rw [if_neg (by decide)]
          exact (Option.isNone_iff_eq_none.mp (by simpa using hsome.symm)).symm

theorem in_calls_taken (hlen : p.iov.length < 2 ^ 32)
    (hp : p.status = .success ∨ p.status = .async) {ss : List DWC2State}
    (hstall : ∀ s ∈ ss, on DXEPCTL_STALL (dwc2_ep s n true).ctl = false)
    (hok : ∀ s ∈ ss, ∀ b ∈ s.dma_results, b = true) {l : List (Nat × List UInt8)} {c : InCalls}
    (h : Taken n p l c) :
    Taken n p (l ++ ss.flatMap fun s => armed_stream s n) (ss.foldl (in_call n) c) := by
  induction ss generalizing l c with
  | nil => simpa using h
  | cons s ss ih =>
    rw [List.flatMap_cons, ← List.append_assoc]
    apply ih (fun s' hs' => hstall s' (List.mem_cons_of_mem s hs'))
      (fun s' hs' => hok s' (List.mem_cons_of_mem s hs'))
    exact in_call_taken hlen hp h (hstall s List.mem_cons_self) (hok s List.mem_cons_self)

/-- **IN transfers end where they would on the wire.**  The guest may have armed
    anything before each call.  A host packet whose buffer is smaller than 2^32 bytes
    receives what the wire's transfer takes of the packets that were armed, and ends as
    that does, and then; and the next call stages no more than the room and the armed
    transfer have. -/
theorem in_data_on_wire (hlen : p.iov.length < 2 ^ 32)
    (hp : p.status = .success ∨ p.status = .async) (hg : g.in_p n = some p)
    (hempty : p.actual_length = 0) (ss : List DWC2State)
    (hstall : ∀ s ∈ ss, on DXEPCTL_STALL (dwc2_ep s n true).ctl = false)
    (hok : ∀ s ∈ ss, ∀ b ∈ s.dma_results, b = true) :
    let c := ss.foldl (in_call n) { g := g }
    let w := host_takes p.iov.length (ss.flatMap fun s => armed_stream s n)
    c.status n = w.2 ∧
    ∃ q, c.g.in_p n = some q ∧ q.iov = w.1 ++ p.iov.drop w.1.length ∧
      q.actual_length = w.1.length ∧
      ∀ s, (∀ b ∈ s.dma_results, b = true) →
        (dwc2_ep_in_packets s n (room_left q q.actual_length)).packets.flatten.length ≤
          min (room_left q q.actual_length) (dwc2_tsiz_get s n true).1 := by
  intro c w
  have hstart : Taken n p [] { g := g } :=
    ⟨⟨p, hg, ⟨rfl, hempty⟩, fun _ => rfl⟩, rfl, rfl⟩
  have hc : Taken n p (ss.flatMap fun s => armed_stream s n) c :=
    in_calls_taken hlen hp hstall hok hstart
  obtain ⟨q, hq, ⟨hiov, hactual⟩, -⟩ := hc.held
  refine ⟨hc.status, q, hq, hiov, hactual, fun s hs => ?_⟩
  obtain ⟨hbytes, -, hxfer⟩ := in_packets_takes hs n (room_left q q.actual_length)
  refine Nat.le_min.mpr ⟨?_, hxfer⟩
  rw [hbytes]
  exact host_takes_le _ _

/-- `k` bytes at address 16, armed as one packet of up to four bytes on endpoint 1. -/
def armed_in (k : Nat) : DWC2State :=
  { iepreg := fun j =>
      if j = 1 then
        { ctl := raise DXEPCTL_EPENA 4, tsiz := dp (tsiz_pkt 1 true) k 1, dma := 16 }
      else {}
    mem := fun a => UInt8.ofNat a }

/-- A gadget that was handed `p` on endpoint 1. -/
def handed_in (p : USBPacket) : DWC2GadgetState :=
  { dwc2 := {}, in_p := fun k => if k = 1 then some p else none }

/-- A full packet, a NAK and a short packet; what is armed after it is for the next
    host packet. -/
theorem short_packet_ends :
    let c := [armed_in 4, {}, armed_in 2, armed_in 4].foldl (in_call 1)
      { g := handed_in { id := 0, nr := 1, in_ := true, iov := List.replicate 8 0 } }
    c.status 1 = some .success ∧
      ∃ q, c.g.in_p 1 = some q ∧ q.iov = [16, 17, 18, 19, 16, 17, 0, 0] ∧
        q.actual_length = 6 := by
  intro c
  obtain ⟨hstatus, q, hq, hiov, hlen, -⟩ := @in_data_on_wire 1
    { id := 0, nr := 1, in_ := true, iov := List.replicate 8 0 } (handed_in _) (by decide)
    (.inl rfl) rfl rfl [armed_in 4, {}, armed_in 2, armed_in 4] (by decide) (by decide)
  have hwire : host_takes 8 ([armed_in 4, {}, armed_in 2, armed_in 4].flatMap fun s =>
      armed_stream s 1) = ([16, 17, 18, 19, 16, 17], some .success) := by decide +kernel
  rw [List.length_replicate, hwire] at hstatus hiov hlen
  exact ⟨hstatus, q, hq, hiov, hlen⟩

/-- When the engine sees no room it refuses a packet of some bytes. -/
theorem babbles_of_no_room (hroom : room_left p 0 = 0) (hempty : p.actual_length = 0) :
    (in_call 1 { g := handed_in p } (armed_in 4)).status 1 = some .babble := by
  have hbabble : (dwc2_ep_in_packets (armed_in 4) 1 0).babble = true := by decide
  have hdone : (dwc2_ep_in_packets (armed_in 4) 1 0).host_done = true := by decide
  have hrun : dwc2_ep_in_run { handed_in p with dwc2 := armed_in 4 } 1 p =
      (({ handed_in p with dwc2 := (dwc2_ep_in_packets (armed_in 4) 1 0).s } :
        DWC2GadgetState).set_in 1
          (some { usb_packet_copy p (dwc2_ep_in_packets (armed_in 4) 1 0).packets.flatten with
            status := .babble }), true) := by
    unfold dwc2_ep_in_run
    dsimp only
    rw [if_neg (by decide), if_neg (by decide), hempty, hroom, hbabble, hdone]
    rfl
  have hg : (in_call 1 { g := handed_in p } (armed_in 4)).g =
      (dwc2_ep_in_run { handed_in p with dwc2 := armed_in 4 } 1 p).1 := rfl
  have hd : (in_call 1 { g := handed_in p } (armed_in 4)).done =
      (dwc2_ep_in_run { handed_in p with dwc2 := armed_in 4 } 1 p).2 := rfl
  rw [hrun] at hg hd
  unfold InCalls.status
  rw [hd, hg]
  simp [DWC2GadgetState.set_in]

/-- A host buffer of 2^32 bytes: its first packet is refused as babble. -/
theorem huge_buffer_babbles :
    let p : USBPacket := { id := 0, nr := 1, in_ := true, iov := huge_data }
    let c := [armed_in 4].foldl (in_call 1) { g := handed_in p }
    c.status 1 ≠ (host_takes p.iov.length ([armed_in 4].flatMap fun s => armed_stream s 1)).2 := by
  intro p c
  have hlen : p.iov.length = 2 ^ 32 := huge_data_length
  have hroom : room_left p 0 = 0 := by
    unfold room_left
    rw [hlen]
    decide
  have hstatus : c.status 1 = some .babble := babbles_of_no_room hroom rfl
  rw [hstatus, hlen]
  decide +kernel

end Dwc2
