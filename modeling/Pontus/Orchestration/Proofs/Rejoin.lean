import Pontus.Orchestration.Proofs.Moves

/-!
# Rebuilds in flight

What comparing one node with the primary can do to the tracker, and that it
knows of every `rejoin` goroutine: there is at most one for a node, and none for
a node that the tracker does not have in flight.
-/

namespace Pontus.Orchestration

open Lib Pool

def Tracker.entry (t : Tracker) (node : Bytes) : RejoinState := (t node).getD ⟨0, none, false⟩

inductive Compared (o : Options) (t : Tracker) (primary : Bytes) (b : Backend) (now : Int) :
    Tracker × Bool → Prop
  | spared (hneeds : needsRejoin b primary = false) :
      Compared o t primary b now (t.forget b.address, false)
  | left : Compared o t primary b now (t, false)
  | noted (hnone : t b.address = none) :
      Compared o t primary b now (Function.update t b.address (some ⟨0, none, false⟩), false)
  | started (hneeds : needsRejoin b primary = true) (hidle : (t.entry b.address).inFlight = false)
      (hbudget : (t.entry b.address).attempts < o.autoRejoinMaxAttempts)
      (hgap : ∀ last, (t.entry b.address).lastAttempt = some last →
        o.autoRejoinInterval ≤ now - last) :
      Compared o t primary b now
        (Function.update t b.address
          (some ⟨(t.entry b.address).attempts + 1, some now, true⟩), true)

theorem Tracker.update_entry (t : Tracker) (node : Bytes) (h : t node = some state) :
    Function.update t node (some (t.entry node)) = t := by
  rw [Tracker.entry, h, getD_some, ← h, Function.update_eq_self]

theorem compared (o : Options) (t : Tracker) (primary : Bytes) (b : Backend) (now : Int) :
    Compared o t primary b now (reconcileRejoin o t primary b now) := by
  unfold reconcileRejoin
  split
  · rename_i hneeds
    exact .spared (by simpa using hneeds)
  rename_i hneeds
  split
  · exact .left
  -- the entry alone is the tracker as it was, or with an entry more
  have hnoted : Compared o t primary b now
      (Function.update t b.address (some (t.entry b.address)), false) := by
    cases hentry : t b.address with
    | none =>
      rw [Tracker.entry, hentry]
      exact .noted hentry
    | some =>
      rw [t.update_entry b.address hentry]
      exact .left
  unfold Tracker.begin
  dsimp only
  split
  · exact hnoted
  rename_i hidle
  split
  · exact hnoted
  rename_i hbudget
  split
  · exact hnoted
  rename_i hgap
  rw [Function.update_idem]
  refine .started (by simpa using hneeds) (Bool.eq_false_of_not_eq_true hidle)
    (Int.not_le.1 hbudget)
    ?_
  intro _ hlast
  by_contra hshort
  apply hgap
  rw [and_eq_true]
  constructor
  · by_contra hnone
    rw [not_eq_true, Option.isSome_eq_false_iff, isNone_iff_eq_none] at hnone
    rw [Tracker.entry, hnone] at hlast
    cases hlast
  · change ((t.entry b.address).lastAttempt.any _) = true
    rw [hlast, any_some, decide_eq_true_eq]
    exact Int.not_le.1 hshort

def Tracker.InFlight (t : Tracker) (node : Bytes) : Prop :=
  ∃ state, t node = some state ∧ state.inFlight = true

def System.rejoinsOf (s : System) (node : Bytes) : Nat := s.rejoining.countP (·.1 == node)

def Flights (s : System) : Prop :=
  ∀ node, s.rejoinsOf node ≤ 1 ∧ (0 < s.rejoinsOf node → s.rejoins.InFlight node)

namespace Tracker

variable {t : Tracker} {node node' : Bytes}

theorem InFlight.of_eq {t' : Tracker} (h : t.InFlight node) (heq : t' node = t node) :
    t'.InFlight node := by
  obtain ⟨state, hstate, hflight⟩ := h
  exact ⟨state, heq.trans hstate, hflight⟩

theorem InFlight.forget (h : t.InFlight node) (node' : Bytes) : (t.forget node').InFlight node := by
  obtain ⟨state, hstate, hflight⟩ := h
  unfold Tracker.forget
  split
  · exact ⟨state, hstate, hflight⟩
  · rename_i state' hstate'
    split
    · exact ⟨state, hstate, hflight⟩
    · rename_i hidle
      by_cases hnode : node = node'
      · subst hnode
        rw [hstate, some_inj] at hstate'
        rw [hstate'] at hflight
        exact absurd hflight hidle
      · exact ⟨state, by rw [update_of_ne hnode]; exact hstate, hflight⟩

theorem finish_of_ne (h : node ≠ node') (succeeded : Bool) :
    t.finish node' succeeded node = t node := by
  unfold Tracker.finish
  cases t node' with
  | none => rfl
  | some => exact update_of_ne h _ _

theorem not_inFlight_entry (h : (t.entry node).inFlight = false) : ¬t.InFlight node := by
  rintro ⟨_, hstate, hflight⟩
  rw [Tracker.entry, hstate, getD_some, hflight] at h
  cases h

end Tracker

theorem Compared.inFlight (h : Compared o t primary b now result) (hflight : t.InFlight node) :
    result.1.InFlight node := by
  cases h with
  | spared => exact hflight.forget b.address
  | left => exact hflight
  | noted hnone =>
    have hne : node ≠ b.address := by
      rintro rfl
      obtain ⟨_, hstate, -⟩ := hflight
      rw [hnone] at hstate
      cases hstate
    exact hflight.of_eq (update_of_ne hne _ _)
  | started _ hidle =>
    have hne : node ≠ b.address := by
      rintro rfl
      exact Tracker.not_inFlight_entry hidle hflight
    exact hflight.of_eq (update_of_ne hne _ _)

section
variable {cfg : Settings} {s s' : System} {node : Bytes}

theorem Flights.of_eq (h : Flights s) (hrejoining : s'.rejoining = s.rejoining)
    (hrejoins : s'.rejoins = s.rejoins) : Flights s' := by
  intro node
  unfold System.rejoinsOf
  rw [hrejoining, hrejoins]
  exact h node

theorem rejoinsOf_erase (h : (node, phase) ∈ s.rejoining) (node' : Bytes) :
    s.rejoinsOf node' = (s.rejoining.erase (node, phase)).countP (·.1 == node') +
      if node = node' then 1 else 0 := by
  rw [System.rejoinsOf, (List.perm_cons_erase h).countP_eq, List.countP_cons]
  simp only [beq_iff_eq]

theorem rejoinsOf_moveRejoin (h : (node, before) ∈ s.rejoining) (node' : Bytes) :
    (s.moveRejoin node before behind).rejoinsOf node' = s.rejoinsOf node' := by
  rw [rejoinsOf_erase h, System.rejoinsOf, System.moveRejoin, List.countP_cons]
  simp only [beq_iff_eq]

theorem Flights.moveRejoin (h : Flights s) (hmem : (node, before) ∈ s.rejoining) :
    Flights (s.moveRejoin node before behind) := by
  intro node'
  rw [rejoinsOf_moveRejoin hmem]
  exact h node'

theorem Flights.endRejoin (h : Flights s) (hmem : (node, phase) ∈ s.rejoining) (succeeded : Bool) :
    Flights (s.endRejoin node phase succeeded) := by
  intro node'
  have hcount : s.rejoinsOf node' = (s.endRejoin node phase succeeded).rejoinsOf node' +
      if node = node' then 1 else 0 := rejoinsOf_erase hmem node'
  obtain ⟨hone, hflight⟩ := h node'
  by_cases hnode : node = node'
  · -- its only goroutine is gone
    rw [if_pos hnode] at hcount
    constructor
    · omega
    · intro hpos
      omega
  · rw [if_neg hnode, Nat.add_zero] at hcount
    rw [← hcount]
    refine ⟨hone, fun hpos => ?_⟩
    exact (hflight hpos).of_eq (Tracker.finish_of_ne (Ne.symm hnode) succeeded)

theorem Flights.compare (h : Flights s) (primary : Bytes) (pending : List Bytes) (b : Backend)
    (now : Int) : Flights (s.reconcile cfg primary pending b now) := by
  have hcompared := compared cfg.opts s.rejoins primary b now
  unfold System.reconcile
  generalize reconcileRejoin cfg.opts s.rejoins primary b now = result at hcompared
  intro node
  obtain ⟨hone, hflight⟩ := h node
  have hkept : s.rejoins.InFlight node → result.1.InFlight node := hcompared.inFlight
  cases hcompared with
  | spared | left | noted => exact ⟨hone, fun hpos => hkept (hflight hpos)⟩
  | started _ hidle =>
    by_cases hnode : b.address = node
    · subst hnode
      have hzero : s.rejoinsOf b.address = 0 := by
        by_contra hpos
        exact Tracker.not_inFlight_entry hidle (hflight (Nat.pos_of_ne_zero hpos))
      unfold System.rejoinsOf at hzero ⊢
      dsimp only
      rw [if_pos rfl, List.countP_cons, hzero]
      simp only [beq_self_eq_true, if_true, Nat.zero_add, Nat.le_refl, true_and]
      intro _
      exact ⟨_, update_self _ _ _, rfl⟩
    · unfold System.rejoinsOf at hone hflight ⊢
      dsimp only
      rw [if_pos rfl, List.countP_cons]
      simp only [beq_iff_eq, hnode, if_false, Nat.add_zero]
      exact ⟨hone, fun hpos => hkept (hflight hpos)⟩

/-- **One step.** -/
theorem Flights.step (h : Flights s) (hmoved : Moved cfg s a s') : Flights s' := by
  cases hmoved with
  | compared => exact h.compare _ _ _ _
  | rebuildStarted hmem => exact h.moveRejoin hmem
  | rebuilt hmem => exact h.moveRejoin hmem
  | rebuildFailed hmem => exact h.endRejoin hmem false
  | confirmed hmem => exact (h.endRejoin hmem true).of_eq rfl rfl
  | unconfirmed hmem => exact h.endRejoin hmem false
  | @refused c hat | @finished c k hat => cases c <;> exact h.of_eq rfl rfl
  | _ => exact h.of_eq rfl rfl

theorem Flights.start (owned leader : Bool) (clock : Int) :
    Flights (System.start owned leader clock) := by
  intro _
  exact ⟨Nat.zero_le 1, fun hpos => absurd hpos (lt_irrefl 0)⟩

end

end Pontus.Orchestration
