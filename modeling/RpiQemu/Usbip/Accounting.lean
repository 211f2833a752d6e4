import RpiQemu.Usbip.Connection
import RpiQemu.Usbip.SubmitCodec

/-! # The client's counters

    `nurbs` and `urb_bytes` count the client's URBs that are alive: on a list,
    or carried by a call in progress.  They are raised before a CMD_SUBMIT has
    been checked and lowered in `usbip_urb_free`, both modulo their width; that
    neither ever wraps is why the limits of a client hold. -/

namespace Usbip

open Bytes Relation

/-- A configuration some run passes through. -/
def InRun (c : Cfg) : Prop := ∃ s₀ c₀, Reachable s₀ ∧ Arrive s₀ c₀ ∧ Steps c₀ c

/-- The URBs not yet answered or freed. -/
def alive (c : Cfg) : Multiset Ident := carried c.1 + c.2.lanes.listed

theorem InRun.inv {c : Cfg} (h : InRun c) : Inv c := by
  obtain ⟨s₀, c₀, hs, harr, hsteps⟩ := h
  have hinv : Inv c₀ := (reachable_inv hs).next (arrive_next (reachable_inv hs) harr)
  induction hsteps with
  | refl => exact hinv
  | tail _ hstep ih => exact inv_step ih hstep

variable {H : List Tok} {s : Server}

/-- Freeing an URB that is alive subtracts it, without wrapping. -/
theorem free_subtracts {u : USBIPURB} (h : Inv (H, s)) (hu : ident u ∈ alive (H, s))
    (hint : u.internal = false) :
    (usbip_urb_free s u).nurbs + 1 = s.nurbs ∧
      (usbip_urb_free s u).urb_bytes + u.len = s.urb_bytes := by
  have hacc := h.ledger.accounted
  have hmem : ident u ∈ Ledger.clients (alive (H, s)) := Multiset.mem_filter.mpr ⟨hu, hint⟩
  -- take the URB out of the count
  obtain ⟨m, hm⟩ := Multiset.exists_cons_of_mem hmem
  have hn : s.nurbs = m.card + 1 := by
    have h1 : s.nurbs = (Ledger.clients (alive (H, s))).card := hacc.nurbs
    rw [h1, hm, Multiset.card_cons]
  have hb : s.urb_bytes = u.len + (m.map Ident.len).sum := by
    have h1 : s.urb_bytes = ((Ledger.clients (alive (H, s))).map Ident.len).sum := hacc.urb_bytes
    rw [h1, hm, Multiset.map_cons, Multiset.sum_cons]
    rfl
  have hnle : s.nurbs ≤ usbip_max_urbs := h.ledger.nurbs_le
  have hble : s.urb_bytes ≤ usbip_max_urb_bytes := h.ledger.urb_bytes_le
  unfold usbip_max_urbs at hnle
  unfold usbip_max_urb_bytes at hble
  unfold usbip_urb_free
  rw [if_neg (by rw [hint]; decide)]
  dsimp only
  omega

/-- Raising the counters for a message within the limits adds to them, without
    wrapping. -/
theorem raise_adds {d : List UInt8} (hlim : submit_over_limit s d = false) :
    (submit_urb s d).1.nurbs = s.nurbs + 1 ∧
      (submit_urb s d).1.urb_bytes = s.urb_bytes + be32At d 0x18 ∧
      (submit_urb s d).1.nurbs ≤ usbip_max_urbs ∧
      (submit_urb s d).1.urb_bytes ≤ usbip_max_urb_bytes := by
  have hn : (submit_urb s d).1.nurbs = (s.nurbs + 1) % 2 ^ 32 := rfl
  have hb : (submit_urb s d).1.urb_bytes = (s.urb_bytes + be32At d 0x18) % 2 ^ 64 := rfl
  unfold submit_over_limit over_limit at hlim
  rw [Bool.or_eq_false_iff, decide_eq_false_iff_not, decide_eq_false_iff_not] at hlim
  unfold usbip_max_urbs usbip_max_urb_bytes at *
  omega

/-- **Resource accounting.**  In every configuration of every run: the counters
    are the number of the client's URBs alive and the sum of their lengths
    (between events, of those on the lists), and within the limits; freeing a
    live URB subtracts exactly its share; a CMD_SUBMIT within the limits adds
    exactly its share before its descriptors are checked, and one that is then
    rejected leaves nothing counted; and whenever the connection is reset, both
    counters end at 0. -/
theorem resource_accounting (hrun : InRun (H, s)) :
    (s.nurbs = (Ledger.clients (alive (H, s))).card ∧
      s.urb_bytes = ((Ledger.clients (alive (H, s))).map Ident.len).sum ∧
      s.nurbs ≤ usbip_max_urbs ∧ s.urb_bytes ≤ usbip_max_urb_bytes) ∧
    (H = [] → s.nurbs = s.urbs.countP (fun u => !u.internal) ∧
      s.urb_bytes = ((s.urbs.filter fun u => !u.internal).map (·.len)).sum) ∧
    (∀ u, ident u ∈ alive (H, s) → u.internal = false →
      (usbip_urb_free s u).nurbs + 1 = s.nurbs ∧
        (usbip_urb_free s u).urb_bytes + u.len = s.urb_bytes) ∧
    (∀ d T, H = .msg d :: T →
      (submit_over_limit s d = false → (submit_urb s d).1.nurbs = s.nurbs + 1 ∧
        (submit_urb s d).1.urb_bytes = s.urb_bytes + be32At d 0x18 ∧
        (submit_urb s d).1.nurbs ≤ usbip_max_urbs ∧
        (submit_urb s d).1.urb_bytes ≤ usbip_max_urb_bytes) ∧
      ((submit_accept s d).2 = none →
        (submit_accept s d).1.nurbs = 0 ∧ (submit_accept s d).1.urb_bytes = 0)) ∧
    (carried H = 0 →
      (usbip_reset_connection s).nurbs = 0 ∧ (usbip_reset_connection s).urb_bytes = 0) := by
  have hinv := hrun.inv
  have hacc := hinv.ledger.accounted
  have hle : s.nurbs ≤ usbip_max_urbs ∧ s.urb_bytes ≤ usbip_max_urb_bytes :=
    ⟨hinv.ledger.nurbs_le, hinv.ledger.urb_bytes_le⟩
  refine ⟨⟨hacc.nurbs, hacc.urb_bytes, hle⟩, ?_, ?_, ?_, ?_⟩
  · intro hH
    subst hH
    -- With an empty stack nothing is in hand: what lives is listed.
    have hlist : alive ([], s) = (s.urbs.map ident : Multiset Ident) := by
      rw [urbs_listed hinv.wf]
      exact zero_add _
    have hcl : Ledger.clients (alive ([], s)) =
        ((s.urbs.filter fun u => !u.internal).map ident : Multiset Ident) := by
      rw [hlist]
      unfold Ledger.clients
      rw [Multiset.filter_coe, List.filter_map]
      congr 3
      funext u
      show decide (u.internal = false) = !u.internal
      cases u.internal <;> rfl
    constructor
    · have h1 : s.nurbs = (Ledger.clients (alive ([], s))).card := hacc.nurbs
      rw [h1, hcl, Multiset.coe_card, List.length_map, List.countP_eq_length_filter]
    · have h1 : s.urb_bytes = ((Ledger.clients (alive ([], s))).map Ident.len).sum := hacc.urb_bytes
      rw [h1, hcl, Multiset.map_coe, Multiset.sum_coe, List.map_map]
      rfl
  · intro u hu hint
    exact free_subtracts hinv hu hint
  · intro d T hH
    subst hH
    obtain ⟨s₀, c₀, hs, harr, hsteps⟩ := hrun
    refine ⟨raise_adds, ?_⟩
    intro hrej
    exact (reject_empties ⟨s₀, c₀, T, hs, harr, hsteps⟩ hrej).2
  · intro hcar
    exact (reset_connection_emptied s hinv.wf hinv.distinct).counters (hinv.counted hcar)

/-- After `bulk_session` one URB of 8 bytes is left, and a reset frees it. -/
theorem bulk_session_accounted :
    let s := run (Server.init true) bulk_session
    s.nurbs = 1 ∧ s.urb_bytes = 8 ∧ s.urbs.countP (fun u => !u.internal) = 1 ∧
      (usbip_reset_connection s).nurbs = 0 ∧ (usbip_reset_connection s).urb_bytes = 0 := by
  intro s
  have hcount : s.nurbs = 1 ∧ s.urb_bytes = 8 := by decide +kernel
  have hreach : Reachable s := ⟨true, bulk_session, rfl⟩
  -- nothing below depends on how the session went
  generalize s = t at hcount hreach
  have hrun : InRun ([], t) := ⟨t, ([], t), hreach, .input t t.script t.chr_write, .refl⟩
  obtain ⟨_, hboundary, _, _, hreset⟩ := resource_accounting hrun
  have hlist := (hboundary rfl).1
  rw [hcount.1] at hlist
  exact ⟨hcount.1, hcount.2, hlist.symm, hreset rfl⟩

end Usbip
