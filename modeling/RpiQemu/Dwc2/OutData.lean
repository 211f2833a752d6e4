import RpiQemu.Dwc2.Settled

/-! # The data of a host's OUT packet

    The engine delivers a host packet over as many calls of `dwc2_ep_out_run` as the
    guest makes it take: before each the guest may have programmed the controller in
    any way.

    * **One call** (`turns_written`, `turns_host_done`): the DMA writes that succeed
      carry the next bytes of the host's data, and the call reports the packet's end
      exactly when it has accepted a packet and nothing is left.
    * **All calls** (`out_data_in_order`): what was written is the first `out_off`
      bytes of the data, and the packet ends with success when these are all of it.
    * A packet of 2^32 bytes or more does not fit the engine's counters
      (`huge_packet_lost`). -/

namespace Dwc2

open Register
open Usbip (UsbRet)

variable {s t : DWC2State} {n mps size xfer pkt moved : Nat} {data : List UInt8}
  {packets : List (List UInt8)} {m : Moved} {p : USBPacket} {g : DWC2GadgetState}

/-! ## One call -/

/-- The bytes of the DMA writes that succeeded. -/
def written (log : List Dma) : List UInt8 :=
  (log.filter fun a => a.write && a.ok).flatMap Dma.data

theorem written_append (l l' : List Dma) : written (l ++ l') = written l ++ written l' := by
  unfold written
  rw [List.filter_append, List.flatMap_append]

/-- An access that succeeds writes the next bytes of the window. -/
theorem access_written {c : Nat} {bytes : List UInt8}
    (h : Access s n false (ep_buf false data moved c) c (t, some bytes)) :
    ∃ l, t.dma_log = s.dma_log ++ l ∧ written l = (data.drop moved).take c := by
  cases h with
  | none hlen =>
    refine ⟨[], (List.append_nil _).symm, ?_⟩
    rw [hlen, List.take_zero]
    rfl
  | ok _ _ _ _ _ _ hlog _ =>
    refine ⟨_, hlog, ?_⟩
    simp [written, access_entry, access_data, ep_buf]

/-- The DMA writes of a run of turns that succeed carry the window's next bytes. -/
theorem turns_written (h : Turns n false mps size data pkt s xfer moved packets m)
    (hmoved : moved ≤ size) :
    m.moved ≤ size ∧ moved ≤ m.moved ∧ ∃ l, m.s.dma_log = s.dma_log ++ l ∧
      written l = (data.drop moved).take (m.moved - moved) := by
  generalize hin : false = in_ at h
  induction h with
  | used_up s xfer moved packets | refused pkt s xfer moved packets _ _ =>
    refine ⟨hmoved, Nat.le_refl _, [], (List.append_nil _).symm, ?_⟩
    rw [Nat.sub_self, List.take_zero]
    rfl
  | fails pkt s t xfer moved c packets hc hfit hacc =>
    cases hacc with
    | fail _ _ _ _ _ _ hlog _ =>
      refine ⟨hmoved, Nat.le_refl _, _, hlog, ?_⟩
      rw [Nat.sub_self, List.take_zero]
      simp [written, access_entry]
  | stops pkt s t xfer moved c packets bytes hc hfit hacc hstop =>
    subst hin
    obtain ⟨l, hlog, hl⟩ := access_written hacc
    dsimp only
    refine ⟨by omega, Nat.le_add_right _ _, l, hlog, ?_⟩
    rw [hl, Nat.add_sub_cancel_left]
  | goes_on pkt s t xfer moved c packets bytes m hc hfit hacc hfull hmore _ ih =>
    subst hin
    obtain ⟨l, hlog, hl⟩ := access_written hacc
    obtain ⟨hle, hge, l', hlog', hl'⟩ := ih (by omega)
    refine ⟨hle, by omega, l ++ l', by rw [hlog', hlog, List.append_assoc], ?_⟩
    -- the first packet's bytes, and those after them
    have hsplit : m.moved - moved = c + (m.moved - (moved + c)) := by omega
    rw [written_append, hl, hl', hsplit, List.take_add, List.drop_drop]

/-- The host's transfer ends when a packet was accepted and nothing is left. -/
theorem turns_host_done (h : Turns n false mps size data pkt s xfer moved packets m)
    (hopen : packets ≠ [] → moved ≠ size) :
    m.host_done = true ↔ m.moved = size ∧ m.packets ≠ [] := by
  generalize hin : false = in_ at h
  induction h with
  | used_up s xfer moved packets =>
    constructor
    · exact fun h => Bool.noConfusion h
    · exact fun h => absurd h.1 (hopen h.2)
  | refused pkt s xfer moved packets hno _ => exact absurd (hin.trans hno) (by decide)
  | fails pkt s t xfer moved c packets hc hfit hacc =>
    constructor
    · exact fun h => Bool.noConfusion h
    · exact fun h => absurd h.1 (hopen h.2)
  | stops pkt s t xfer moved c packets bytes hc hfit hacc hstop =>
    subst hin
    simp
  | goes_on pkt s t xfer moved c packets bytes m hc hfit hacc hfull hmore _ ih =>
    exact ih fun _ => hmore

/-- What a call of `dwc2_ep_out_packets` writes and reports. -/
structure Delivers (s : DWC2State) (n : Nat) (data : List UInt8) (size : Nat) (m : Moved) :
    Prop where
  moved_le : m.moved ≤ size
  xfer : m.moved ≤ (dwc2_tsiz_get s n false).1
  idle : m.packets = [] → m.moved = 0
  log : ∃ l, m.s.dma_log = s.dma_log ++ l ∧ written l = data.take m.moved
  host_done : m.host_done = true ↔ m.moved = size ∧ m.packets ≠ []

theorem out_packets_delivers (s : DWC2State) (n : Nat) (data : List UInt8) (size : Nat) :
    Delivers s n data size (dwc2_ep_out_packets s n data size) := by
  have hturns : ∀ {m : Moved}, Turns n false (dwc2_ep_mps s n false) size data
      (dwc2_tsiz_get s n false).2 s (dwc2_tsiz_get s n false).1 0 [] m →
      Delivers s n data size m := by
    intro m h
    obtain ⟨hle, -, l, hlog, hl⟩ := turns_written h (Nat.zero_le _)
    rw [Nat.sub_zero, List.drop_zero] at hl
    have hacc := turns_account h
    refine ⟨hle, ?_, ?_, ⟨l, hlog, hl⟩, turns_host_done h fun hne => absurd rfl hne⟩
    · have hsize := hacc.size
      omega
    · intro hnone
      have hfull := hacc.full
      rw [hnone, List.length_nil, Nat.sub_zero, Nat.mul_zero] at hfull
      exact Nat.le_zero.mp hfull
  have hcall := out_packets_call s n data size
  generalize dwc2_ep_out_packets s n data size = m at hcall
  cases hcall with
  | blocked _ =>
    refine ⟨Nat.zero_le _, Nat.zero_le _, fun _ => rfl,
      ⟨[], (List.append_nil _).symm, List.take_zero.symm⟩, ?_⟩
    simp
  | failed m _ h _ => exact hturns h
  | ended m _ h _ =>
    obtain ⟨hle, hxfer, hidle, ⟨l, hlog, hl⟩, hdone⟩ := hturns h
    refine ⟨hle, hxfer, hidle, ⟨l, ?_, hl⟩, hdone⟩
    -- the registers are written back, with no access
    rw [← hlog]
    dsimp only
    split <;> rfl

/-! ## The window -/

/-- Bytes past the window are not read. -/
theorem out_loop_window (junk : List UInt8) (h : min (size - moved) xfer ≤ data.length - moved) :
    out_loop n mps size (data ++ junk) pkt s xfer moved packets =
      out_loop n mps size data pkt s xfer moved packets := by
  induction pkt generalizing s xfer moved packets with
  | zero => rfl
  | succ pkt ih =>
    unfold out_loop
    dsimp only
    generalize hc : min (min mps (size - moved)) xfer = c
    have hread : ((data ++ junk).drop moved).take c = (data.drop moved).take c := by
      by_cases hzero : c = 0
      · rw [hzero, List.take_zero, List.take_zero]
      · have hin : moved ≤ data.length := by omega
        have hlen : c ≤ (data.drop moved).length := by
          rw [List.length_drop]
          omega
        rw [List.drop_append_of_le_length hin, List.take_append_of_le_length hlen]
    rw [hread]
    cases hdma : dwc2_ep_dma s n false ((data.drop moved).take c) c with
    | mk t bytes =>
      cases bytes with
      | none => rfl
      | some bytes =>
        dsimp only
        rw [ih (by omega)]

theorem out_packets_window (junk : List UInt8)
    (h : min size (dwc2_tsiz_get s n false).1 ≤ data.length) :
    dwc2_ep_out_packets s n (data ++ junk) size = dwc2_ep_out_packets s n data size := by
  unfold dwc2_ep_out_packets
  dsimp only
  rw [out_loop_window junk (by simpa using h)]

/-! ## All calls for a host packet -/

/-- The window on the host's data that `dwc2_ep_out_run` copies for the packets. -/
def out_window (g : DWC2GadgetState) (n : Nat) (p : USBPacket) : List UInt8 :=
  (p.iov.drop (g.out_off n)).take
    (min (p.iov.length - g.out_off n) (dwc2_tsiz_get g.dwc2 n false).1)

/-- The packets that a call of `dwc2_ep_out_run` accepts. -/
def out_accepted (g : DWC2GadgetState) (n : Nat) (p : USBPacket) : List (List UInt8) :=
  if on DXEPCTL_STALL (dwc2_ep g.dwc2 n false).ctl then []
  else (dwc2_ep_out_packets g.dwc2 n (out_window g n p) (room_left p (g.out_off n))).packets

/-- What the calls for a host packet have done: the gadget, with the packet in
    `out_p`, the DMA accesses and the packets they accepted, and whether the last call
    ended the host's packet. -/
structure OutCalls where
  g : DWC2GadgetState
  log : List Dma := []
  accepted : List (List UInt8) := []
  done : Bool := false

/-- One more call, on the controller as the guest has left it. -/
def out_call (n : Nat) (c : OutCalls) (s : DWC2State) : OutCalls :=
  match c.g.out_p n with
  | none => c
  | some p =>
    if c.done then c
    else
      let g := { c.g with dwc2 := s }
      let r := dwc2_ep_out_run g n p
      { g := r.1
        log := c.log ++ r.1.dwc2.dma_log.drop s.dma_log.length
        accepted := c.accepted ++ out_accepted g n p
        done := r.2 }

/-- The status that the host's packet ends with (`dwc2_gadget_packet_done`), once it
    does. -/
def OutCalls.status (c : OutCalls) (n : Nat) : Option UsbRet :=
  if c.done then
    (c.g.out_p n).map fun p => if p.status = .async then .success else p.status
  else none

/-- What holds between the calls for the host's packet `p`. -/
structure Delivered (n : Nat) (p : USBPacket) (c : OutCalls) : Prop where
  held : ∃ q, c.g.out_p n = some q ∧ q.iov = p.iov ∧ (c.done = false → q.status = p.status)
  off_le : c.g.out_off n ≤ p.iov.length
  data : written c.log = p.iov.take (c.g.out_off n)
  status : c.status n = some .success ↔ c.g.out_off n = p.iov.length ∧ c.accepted ≠ []

/-- A call that waits changes nothing and accepts nothing. -/
theorem blocked_accepts (h : ep_blocked g.dwc2 n false = true) :
    (dwc2_ep_out_packets g.dwc2 n data size).packets = [] := by
  have hcall := out_packets_call g.dwc2 n data size
  generalize dwc2_ep_out_packets g.dwc2 n data size = m at hcall
  cases hcall with
  | blocked _ => rfl
  | failed m hno _ _ => exact absurd (h.symm.trans hno) (by decide)
  | ended m hno _ _ => exact absurd (h.symm.trans hno) (by decide)

/-- A packet that has not ended is still open. -/
theorem Delivered.still_open {c : OutCalls} (h : Delivered n p c) (hd : c.done = false) :
    ¬ (c.g.out_off n = p.iov.length ∧ c.accepted ≠ []) := by
  rw [← h.status, OutCalls.status, hd]
  simp

theorem Delivered.packet {c : OutCalls} {q : USBPacket} (h : Delivered n p c)
    (hq : c.g.out_p n = some q) :
    q.iov = p.iov ∧ (c.done = false → q.status = p.status) := by
  obtain ⟨q', hq', hsame⟩ := h.held
  -- the endpoint holds one packet
  cases Option.some.inj (hq.symm.trans hq')
  exact hsame

/-- The call stalls the packet. -/
theorem Delivered.stalled {c : OutCalls} {q : USBPacket} (h : Delivered n p c)
    (hd : c.done = false) (hq : c.g.out_p n = some q) (s : DWC2State) :
    Delivered n p
      { g := ({ c.g with dwc2 := s } : DWC2GadgetState).set_out n (some { q with status := .stall })
        log := c.log, accepted := c.accepted, done := true } := by
  have hself : (({ c.g with dwc2 := s } : DWC2GadgetState).set_out n
      (some { q with status := .stall })).out_p n = some { q with status := .stall } := by
    simp [DWC2GadgetState.set_out]
  refine ⟨⟨_, hself, (h.packet hq).1, fun hno => Bool.noConfusion hno⟩, h.off_le, h.data, ?_⟩
  constructor
  · intro hsucc
    unfold OutCalls.status at hsucc
    rw [if_pos rfl, hself] at hsucc
    exact absurd hsucc (by simp)
  · exact fun hall => absurd hall (h.still_open hd)

/-- The call waits. -/
theorem Delivered.waits {c : OutCalls} (h : Delivered n p c) (hd : c.done = false)
    (s : DWC2State) :
    Delivered n p
      { g := { c.g with dwc2 := s }, log := c.log, accepted := c.accepted, done := false } := by
  obtain ⟨q, hq, hiov, hstatus⟩ := h.held
  refine ⟨⟨q, hq, hiov, fun _ => hstatus hd⟩, h.off_le, h.data, ?_⟩
  constructor
  · intro hno
    simp [OutCalls.status] at hno
  · exact fun hall => absurd hall (h.still_open hd)

/-- The call moves packets. -/
theorem Delivered.moves {c : OutCalls} {q : USBPacket} (h : Delivered n p c)
    (hd : c.done = false) (hq : c.g.out_p n = some q) (hlen : p.iov.length < 2 ^ 32)
    (hp : p.status = .success ∨ p.status = .async) (s : DWC2State)
    (hm : m = dwc2_ep_out_packets s n (out_window { c.g with dwc2 := s } n q)
      (room_left q (c.g.out_off n))) :
    Delivered n p
      { g := ({ c.g with
          dwc2 := m.s
          out_off := Function.update c.g.out_off n ((c.g.out_off n + m.moved) % 2 ^ 32) } :
          DWC2GadgetState).set_out n
            (some (if m.host_done then { q with actual_length := q.iov.length } else q))
        log := c.log ++ m.s.dma_log.drop s.dma_log.length
        accepted := c.accepted ++ m.packets
        done := m.host_done } := by
  obtain ⟨hiov, hsame⟩ := h.packet hq
  have hopen := h.still_open hd
  have hoff := h.off_le
  have hroom : room_left q (c.g.out_off n) = p.iov.length - c.g.out_off n := by
    unfold room_left
    rw [hiov]
    exact Nat.mod_eq_of_lt (by omega)
  obtain ⟨hle, hxfer, hidle, ⟨l, hlog, hl⟩, hdone⟩ := out_packets_delivers s n
    (out_window { c.g with dwc2 := s } n q) (room_left q (c.g.out_off n))
  rw [← hm, hroom] at hle hdone
  rw [← hm] at hxfer hidle hlog hl
  -- the window holds all that was moved
  have hwindow : min m.moved (min (p.iov.length - c.g.out_off n) (dwc2_tsiz_get s n false).1)
      = m.moved := by omega
  unfold out_window at hl
  dsimp only at hl
  rw [List.take_take, hiov, hwindow] at hl
  -- `out_off` is a `uint32_t`, and the packet is shorter than it wraps
  have hmoved : (c.g.out_off n + m.moved) % 2 ^ 32 = c.g.out_off n + m.moved :=
    Nat.mod_eq_of_lt (by omega)
  rw [hmoved]
  -- the end of the packet only sets its length
  have hkept : ∀ b : Bool, (if b then { q with actual_length := q.iov.length } else q).iov = p.iov ∧
      (if b then { q with actual_length := q.iov.length } else q).status = p.status := by
    intro b
    cases b <;> exact ⟨hiov, hsame hd⟩
  obtain ⟨hiov', hstatus'⟩ := hkept m.host_done
  generalize (if m.host_done = true then { q with actual_length := q.iov.length } else q) = q'
    at hiov' hstatus' ⊢
  have hself : (({ c.g with
      dwc2 := m.s
      out_off := Function.update c.g.out_off n (c.g.out_off n + m.moved) } :
      DWC2GadgetState).set_out n (some q')).out_p n = some q' := by
    simp [DWC2GadgetState.set_out]
  have hnext : (({ c.g with
      dwc2 := m.s
      out_off := Function.update c.g.out_off n (c.g.out_off n + m.moved) } :
      DWC2GadgetState).set_out n (some q')).out_off n = c.g.out_off n + m.moved := by
    simp [DWC2GadgetState.set_out]
  refine ⟨⟨q', hself, hiov', fun _ => hstatus'⟩, ?_, ?_, ?_⟩
  · dsimp only
    rw [hnext]
    omega
  · dsimp only
    -- the bytes of this call are the next ones of the packet
    rw [hlog, List.drop_left, written_append, h.data, hl, hnext, List.take_add]
  · unfold OutCalls.status
    dsimp only
    rw [hself, hnext]
    cases hend : m.host_done with
    | true =>
      -- the call that accepts the last packet reports the end
      obtain ⟨hall, hsome⟩ := hdone.mp hend
      have hsuccess : (if q'.status = .async then UsbRet.success else q'.status) = .success := by
        rw [hstatus']
        rcases hp with hp | hp <;> rw [hp] <;> rfl
      rw [if_pos rfl, Option.map_some, hsuccess]
      refine ⟨fun _ => ⟨by omega, ?_⟩, fun _ => rfl⟩
      exact fun hnil => hsome (List.append_eq_nil_iff.mp hnil).2
    | false =>
      constructor
      · intro hno
        simp at hno
      · rintro ⟨hall, hsome⟩
        -- a call that accepts nothing leaves the offset, and the packet was open before
        by_cases hnone : m.packets = []
        · rw [hidle hnone, Nat.add_zero] at hall
          rw [hnone, List.append_nil] at hsome
          exact absurd ⟨hall, hsome⟩ hopen
        · exact absurd (hdone.mpr ⟨by omega, hnone⟩) (by simp [hend])

theorem out_call_delivered (hlen : p.iov.length < 2 ^ 32)
    (hp : p.status = .success ∨ p.status = .async) {c : OutCalls} (h : Delivered n p c)
    (s : DWC2State) : Delivered n p (out_call n c s) := by
  obtain ⟨q, hq, -⟩ := h.held
  unfold out_call
  rw [hq]
  dsimp only
  cases hd : c.done with
  | true =>
    rw [if_pos rfl]
    exact h
  | false =>
    rw [if_neg (by decide)]
    have hrun := ep_out_run_cases { c.g with dwc2 := s } n q
    generalize dwc2_ep_out_run { c.g with dwc2 := s } n q = r at hrun
    cases hrun with
    | stalled hstall =>
      have hacc : out_accepted { c.g with dwc2 := s } n q = [] := if_pos hstall
      have hlog : (DWC2GadgetState.set_out { c.g with dwc2 := s } n
          (some { q with status := .stall })).dwc2.dma_log = s.dma_log := rfl
      rw [hacc, hlog, List.drop_length, List.append_nil, List.append_nil]
      exact h.stalled hd hq s
    | waits hstall hblocked =>
      have hacc : out_accepted { c.g with dwc2 := s } n q = [] := by
        unfold out_accepted
        rw [if_neg (by rw [hstall]; decide)]
        exact blocked_accepts hblocked
      rw [hacc, List.drop_length, List.append_nil, List.append_nil]
      exact h.waits hd s
    | moves m hstall hm =>
      have hacc : out_accepted { c.g with dwc2 := s } n q = m.packets := by
        unfold out_accepted out_window
        rw [if_neg (by rw [hstall]; decide), hm]
      rw [hacc]
      exact h.moves hd hq hlen hp s hm

theorem calls_delivered (hlen : p.iov.length < 2 ^ 32)
    (hp : p.status = .success ∨ p.status = .async) (ss : List DWC2State) {c : OutCalls}
    (h : Delivered n p c) : Delivered n p (ss.foldl (out_call n) c) := by
  induction ss generalizing c with
  | nil => exact h
  | cons s ss ih => exact ih (out_call_delivered hlen hp h s)

/-- **OUT data, once and in order.**  The guest may have programmed the controller in
    any way before each call, and any DMA write may fail.  What was written for a host
    packet of less than 2^32 bytes is the first `out_off` bytes of its data; it ends
    with success exactly when these are all of it and a packet was accepted for it; and
    no call reads a byte outside of the window it copied. -/
theorem out_data_in_order (hlen : p.iov.length < 2 ^ 32)
    (hp : p.status = .success ∨ p.status = .async) (hg : g.out_p n = some p)
    (hoff : g.out_off n = 0) (ss : List DWC2State) :
    let c := ss.foldl (out_call n) { g := g }
    written c.log = p.iov.take (c.g.out_off n) ∧ c.g.out_off n ≤ p.iov.length ∧
    (c.status n = some .success ↔ c.g.out_off n = p.iov.length ∧ c.accepted ≠ []) ∧
    ∀ s q junk, c.g.out_p n = some q →
      dwc2_ep_out_packets s n (out_window { c.g with dwc2 := s } n q ++ junk)
          (room_left q (c.g.out_off n)) =
        dwc2_ep_out_packets s n (out_window { c.g with dwc2 := s } n q)
          (room_left q (c.g.out_off n)) := by
  intro c
  have hstart : Delivered n p { g := g } := by
    refine ⟨⟨p, hg, rfl, fun _ => rfl⟩, by rw [hoff]; exact Nat.zero_le _, ?_, ?_⟩
    · rw [hoff, List.take_zero]
      rfl
    · constructor
      · intro hno
        simp [OutCalls.status] at hno
      · exact fun hall => absurd rfl hall.2
  have hc : Delivered n p c := calls_delivered hlen hp ss hstart
  refine ⟨hc.data, hc.off_le, hc.status, fun s q junk hq => ?_⟩
  apply out_packets_window
  have hroom : room_left q (c.g.out_off n) ≤ q.iov.length - c.g.out_off n := Nat.mod_le _ _
  unfold out_window
  rw [List.length_take, List.length_drop]
  dsimp only
  omega

/-- A transfer of one packet of up to four bytes, armed on endpoint 1. -/
def armed_out : DWC2State :=
  { oepreg := fun k =>
      if k = 1 then { ctl := raise DXEPCTL_EPENA 4, tsiz := dp (tsiz_pkt 1 false) 4 1 } else {} }

/-- A gadget that was handed `p` on endpoint 1. -/
def handed_out (p : USBPacket) : DWC2GadgetState :=
  { dwc2 := {}, out_p := fun k => if k = 1 then some p else none }

/-- Six bytes over three arms; the second arm's DMA write fails. -/
theorem six_bytes_in_order :
    let c := [armed_out, { armed_out with dma_results := [false] }, armed_out].foldl (out_call 1)
      { g := handed_out { id := 0, nr := 1, iov := [1, 2, 3, 4, 5, 6] } }
    written c.log = [1, 2, 3, 4, 5, 6] ∧ c.status 1 = some .success := by
  intro c
  obtain ⟨hdata, -, hstatus, -⟩ := @out_data_in_order 1
    { id := 0, nr := 1, iov := [1, 2, 3, 4, 5, 6] } (handed_out _) (by decide) (.inl rfl) rfl rfl
    [armed_out, { armed_out with dma_results := [false] }, armed_out]
  have hoff : c.g.out_off 1 = 6 := by decide +kernel
  refine ⟨hdata.trans ?_, hstatus.mpr ⟨hoff, by decide +kernel⟩⟩
  rw [show c.g.out_off 1 = 6 from hoff]
  rfl

/-- When the engine sees no room it accepts an empty packet, and the host's packet is
    over. -/
theorem lost_of_no_room (hroom : room_left p 0 = 0) (hp : p.status = .success) :
    (out_call 1 { g := handed_out p } armed_out).status 1 = some .success ∧
      (out_call 1 { g := handed_out p } armed_out).g.out_off 1 = 0 := by
  have hone : ∀ data, dwc2_ep_out_packets armed_out 1 data 0 =
      dwc2_ep_out_packets armed_out 1 [] 0 := fun data =>
    @out_packets_window armed_out 1 0 [] data (Nat.le_of_eq (Nat.zero_min _))
  have hmoved : (dwc2_ep_out_packets armed_out 1 [] 0).moved = 0 := by decide
  have hdone : (dwc2_ep_out_packets armed_out 1 [] 0).host_done = true := by decide
  have hrun : dwc2_ep_out_run { handed_out p with dwc2 := armed_out } 1 p =
      (({ handed_out p with
          dwc2 := (dwc2_ep_out_packets armed_out 1 [] 0).s
          out_off := Function.update (handed_out p).out_off 1 0 } : DWC2GadgetState).set_out 1
        (some { p with actual_length := p.iov.length }), true) := by
    unfold dwc2_ep_out_run
    dsimp only
    rw [if_neg (by decide), if_neg (by decide)]
    have hoff : (handed_out p).out_off 1 = 0 := rfl
    rw [hoff, hroom, hone, hmoved, hdone]
    rfl
  have hg : (out_call 1 { g := handed_out p } armed_out).g =
      (dwc2_ep_out_run { handed_out p with dwc2 := armed_out } 1 p).1 := rfl
  have hd : (out_call 1 { g := handed_out p } armed_out).done =
      (dwc2_ep_out_run { handed_out p with dwc2 := armed_out } 1 p).2 := rfl
  rw [hrun] at hg hd
  unfold OutCalls.status
  rw [hd, hg]
  constructor
  · simp [DWC2GadgetState.set_out, hp]
  · simp [DWC2GadgetState.set_out]

/-- The data of a packet of 2^32 bytes. -/
@[irreducible] def huge_data : List UInt8 := List.replicate (2 ^ 32) 0

theorem huge_data_length : huge_data.length = 2 ^ 32 := by
  unfold huge_data
  exact List.length_replicate

/-- A host packet of 2^32 bytes: nothing of it is delivered, and it ends with success. -/
theorem huge_packet_lost :
    let p : USBPacket := { id := 0, nr := 1, iov := huge_data }
    let c := [armed_out].foldl (out_call 1) { g := handed_out p }
    ¬ (c.status 1 = some .success ↔ c.g.out_off 1 = p.iov.length ∧ c.accepted ≠ []) := by
  intro p c
  have hlen : p.iov.length = 2 ^ 32 := huge_data_length
  have hroom : room_left p 0 = 0 := by
    unfold room_left
    rw [hlen]
    decide
  obtain ⟨hstatus, hoff⟩ := lost_of_no_room hroom rfl
  intro hiff
  have hall := (hiff.mp hstatus).1
  rw [hlen] at hall
  exact absurd (hoff.symm.trans hall) (by decide)

end Dwc2
