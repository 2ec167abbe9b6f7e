import Pontus.Orchestration.Proofs.Rebuilds

/-!
# The budget of rebuilds

The tracker counts the rebuilds of a node.  Its count is dropped when a rebuild
succeeds and whenever a tick finds that the node needs none: because it streams
again, or because it is down, draining or no replica for a moment.
-/

namespace Pontus.Orchestration

open Lib Pool Tracker

/-- When rebuilds of a node were started since it was last seen healthy and
streaming, the last one first. -/
def startsOf (node : Bytes) : List NodeEvent → List Int
  | [] => []
  | .started node' now :: log =>
    if node' = node then now :: startsOf node log else startsOf node log
  | .streaming node' :: log => if node' = node then [] else startsOf node log

/-- The node has had no more rebuilds than it may, none too soon after another
and no two at a time. -/
structure WithinBudget (o : Options) (s : System) (node : Bytes) : Prop where
  attempts : ((startsOf node s.log).length : Int) ≤ o.autoRejoinMaxAttempts
  apart : (startsOf node s.log).Pairwise fun later earlier => o.autoRejoinInterval ≤ later - earlier
  single : s.rejoinsOf node ≤ 1

def seenStreaming (s : System) : Action → Bool
  | .reconcile b _ =>
    match s.monitor with
    | .reconciling primary _ =>
      needsRejoin b primary || (b.healthy && b.replicating) ||
        (s.rejoins b.address).all (·.inFlight)
    | _ => true
  | .confirmed _ healthy => healthy
  | _ => true

structure Counted (o : Options) (state : RejoinState) (starts : List Int) : Prop where
  counted : (starts.length : Int) ≤ state.attempts
  budget : state.attempts ≤ o.autoRejoinMaxAttempts
  last : ∀ now, starts.head? = some now → state.lastAttempt = some now
  apart : starts.Pairwise fun later earlier => o.autoRejoinInterval ≤ later - earlier

namespace Counted

variable {o : Options} {state : RejoinState} {starts : List Int}

theorem fresh (h : 0 ≤ o.autoRejoinMaxAttempts) : Counted o ⟨0, none, false⟩ [] where
  counted := Int.le_refl 0
  budget := h
  last now hnow := by cases hnow
  apart := List.Pairwise.nil

theorem seen (h : Counted o state starts) : Counted o state [] where
  counted := by
    have hcounted := h.counted
    rw [length_nil]
    omega
  budget := h.budget
  last now hnow := by cases hnow
  apart := List.Pairwise.nil

theorem start (h : Counted o state starts) (hinterval : 0 < o.autoRejoinInterval)
    (hbudget : state.attempts < o.autoRejoinMaxAttempts)
    (hgap : ∀ last, state.lastAttempt = some last → o.autoRejoinInterval ≤ now - last) :
    Counted o ⟨state.attempts + 1, some now, true⟩ (now :: starts) := by
  have hcounted := h.counted
  refine ⟨?_, ?_, ?_, ?_⟩
  · rw [length_cons]
    push_cast
    omega
  · change state.attempts + 1 ≤ o.autoRejoinMaxAttempts
    omega
  · intro _ ht
    exact ht
  · refine List.Pairwise.cons ?_ h.apart
    intro _ hearlier
    -- the last start is far enough back, the ones before it further
    cases starts with
    | nil => cases hearlier
    | cons last =>
      have hlast := hgap last (h.last last rfl)
      rcases mem_cons.1 hearlier with rfl | hearlier
      · exact hlast
      · have hbefore := List.rel_of_pairwise_cons h.apart hearlier
        omega

end Counted

def Budgeted (o : Options) (s : System) : Prop :=
  ∀ node, Counted o (s.rejoins.entry node) (startsOf node s.log)

namespace Tracker

theorem entry_update_self (t : Tracker) (node : Bytes) (state : Option RejoinState) :
    Tracker.entry (Function.update t node state) node = state.getD ⟨0, none, false⟩ := by
  rw [Tracker.entry, update_self]

theorem entry_update_of_ne (t : Tracker) (h : node' ≠ node) (state : Option RejoinState) :
    Tracker.entry (Function.update t node state) node' = t.entry node' := by
  rw [Tracker.entry, update_of_ne h, Tracker.entry]

theorem entry_forget_of_ne (t : Tracker) (h : node' ≠ node) :
    (t.forget node).entry node' = t.entry node' := by
  unfold Tracker.forget
  split
  · rfl
  · split
    · rfl
    · exact entry_update_of_ne t h none

theorem entry_forget_self (t : Tracker) (node : Bytes) :
    (t.forget node).entry node = t.entry node ∨
      (t.forget node).entry node = ⟨0, none, false⟩ ∧ (t node).all (·.inFlight) = false := by
  unfold Tracker.forget
  split
  · exact .inl rfl
  · rename_i state hstate
    split
    · exact .inl rfl
    · rename_i hidle
      refine .inr ⟨entry_update_self t node none, ?_⟩
      rw [hstate]
      simpa using hidle

theorem entry_finish_of_ne (t : Tracker) (h : node' ≠ node) (succeeded : Bool) :
    (t.finish node succeeded).entry node' = t.entry node' := by
  rw [Tracker.entry, finish_of_ne h, Tracker.entry]

theorem entry_of_none {t : Tracker} (h : t node = none) : t.entry node = ⟨0, none, false⟩ := by
  rw [Tracker.entry, h, Option.getD_none]

theorem finish_of_none {t : Tracker} (h : t node = none) (succeeded : Bool) :
    t.finish node succeeded = t := by
  rw [Tracker.finish, h]

theorem entry_finish_false (t : Tracker) (node : Bytes) :
    (t.finish node false).entry node = { t.entry node with inFlight := false } := by
  cases hstate : t node with
  | none => rw [finish_of_none hstate, entry_of_none hstate]
  | some =>
    rw [Tracker.finish, hstate]
    rw [entry_update_self, Tracker.entry, hstate]
    rfl

theorem entry_finish_true (t : Tracker) (node : Bytes) :
    (t.finish node true).entry node = ⟨0, none, false⟩ := by
  cases hstate : t node with
  | none => rw [finish_of_none hstate, entry_of_none hstate]
  | some =>
    rw [Tracker.finish, hstate]
    exact entry_update_self t node none

end Tracker

namespace Budgeted

variable {cfg : Settings} {s s' : System}

theorem of_eq (h : Budgeted o s) (hrejoins : s'.rejoins = s.rejoins) (hlog : s'.log = s.log) :
    Budgeted o s' := by
  intro node
  rw [hrejoins, hlog]
  exact h node

theorem compare (h : Budgeted cfg.opts s) {b : Backend}
    (hat : s.monitor = .reconciling primary (b.address :: pending))
    (hallowed : seenStreaming s (.reconcile b now)) :
    Budgeted cfg.opts (s.reconcile cfg primary pending b now) := by
  simp only [seenStreaming, hat, or_eq_true] at hallowed
  have hcompared := compared cfg.opts s.rejoins primary b now
  unfold System.reconcile
  generalize reconcileRejoin cfg.opts s.rejoins primary b now = result at hcompared
  intro node
  dsimp only
  have hnode := h node
  -- what is seen of the node now
  have hseen : Counted cfg.opts (s.rejoins.entry node) (startsOf node
      (if b.healthy && b.replicating then .streaming b.address :: s.log else s.log)) := by
    split
    · rw [startsOf]
      split
      · exact hnode.seen
      · exact hnode
    · exact hnode
  cases hcompared with
  | left => exact hseen
  | noted hnone =>
    by_cases hsame : node = b.address
    · subst hsame
      rw [entry_update_self]
      rw [entry_of_none hnone] at hseen
      exact hseen
    · rw [entry_update_of_ne _ hsame]
      exact hseen
  | spared hneeds =>
    by_cases hsame : node = b.address
    · subst hsame
      rcases s.rejoins.entry_forget_self b.address with hkept | ⟨hdropped, hidle⟩
      · rw [hkept]
        exact hseen
      · -- the count is dropped: it is seen streaming
        rw [hneeds, hidle] at hallowed
        have hstreams : (b.healthy && b.replicating) := by simpa using hallowed
        simp only [hdropped, hstreams, false_eq_true, if_true, if_false, startsOf]
        exact Counted.fresh (by have := hnode.counted; have := hnode.budget; omega)
    · rw [entry_forget_of_ne _ hsame]
      exact hseen
  | started hneeds _ hbudget hgap =>
    have hnot : (b.healthy && b.replicating) = false := by
      simp only [needsRejoin, and_eq_true, not_eq_true'] at hneeds
      rw [hneeds.1.2, Bool.and_false]
    rw [hnot, if_pos rfl]
    simp only [false_eq_true, if_false, startsOf]
    by_cases hsame : b.address = node
    · subst hsame
      rw [entry_update_self, if_pos rfl]
      exact hnode.start cfg.options.sane_interval_pos hbudget hgap
    · rw [entry_update_of_ne _ (Ne.symm hsame), if_neg hsame]
      exact hnode

theorem fail (h : Budgeted o s) (node : Bytes) (phase : RejoinAt) :
    Budgeted o (s.endRejoin node phase false) := by
  intro node'
  have hnode := h node'
  change Counted o ((s.rejoins.finish node false).entry node') (startsOf node' s.log)
  by_cases hsame : node' = node
  · subst hsame
    rw [entry_finish_false]
    exact ⟨hnode.1, hnode.2, hnode.3, hnode.4⟩
  · rw [entry_finish_of_ne _ hsame]
    exact hnode

theorem succeed (h : Budgeted o s) (node : Bytes) (phase : RejoinAt) :
    Budgeted o { s.endRejoin node phase true with log := .streaming node :: s.log } := by
  intro node'
  have hnode := h node'
  change Counted o ((s.rejoins.finish node true).entry node')
    (startsOf node' (.streaming node :: s.log))
  rw [startsOf]
  by_cases hsame : node = node'
  · subst hsame
    rw [entry_finish_true, if_pos rfl]
    exact Counted.fresh (by have := hnode.counted; have := hnode.budget; omega)
  · rw [entry_finish_of_ne _ (Ne.symm hsame), if_neg hsame]
    exact hnode

/-- **One step.** -/
theorem step (h : Budgeted cfg.opts s) (hallowed : seenStreaming s a)
    (hmoved : Moved cfg s a s') : Budgeted cfg.opts s' := by
  cases hmoved with
  | compared hat => exact h.compare hat hallowed
  | rebuildFailed => exact h.fail _ _
  | unconfirmed => exact h.fail _ _
  | @confirmed node healthy =>
    cases healthy with
    | true => exact h.succeed node .confirming
    | false => cases hallowed
  | @refused c hat | @finished c k hat => cases c <;> exact h.of_eq rfl rfl
  | _ => exact h.of_eq rfl rfl

end Budgeted

/-- **The budget is kept where only nodes that stream are forgotten.**  In every
run in which a tick that finds a counted node in no need of a rebuild sees it
healthy and replicating, and a rebuild is confirmed of a healthy node only, no
node has more rebuilds than its budget, two too close to each other or two at a
time, between two sightings of it as healthy and streaming. -/
theorem rejoin_budget_respected (cfg : Settings) (owned leader : Bool) (clock : Int)
    {actions : List Action} {s : System}
    (hseen : Along (System.step cfg) (fun s a => seenStreaming s a = true)
      (System.start owned leader clock) actions)
    (hrun : run (System.step cfg) (System.start owned leader clock) actions = some s)
    (node : Bytes) : WithinBudget cfg.opts s node := by
  have hstart : Budgeted cfg.opts (System.start owned leader clock) := by
    intro node
    apply Counted.fresh
    unfold Settings.opts Options.sane
    dsimp only
    split <;> omega
  have hbudget : ∀ s a s', Budgeted cfg.opts s → seenStreaming s a = true →
      System.step cfg s a = some s' → Budgeted cfg.opts s' :=
    fun s a s' hs hallowed hstep => hs.step hallowed (moved hstep)
  have hflights : ∀ s a s', Flights s → True → System.step cfg s a = some s' → Flights s' :=
    fun s a s' hs _ hstep => hs.step (moved hstep)
  have hcounted := run_invariant hbudget hstart hseen hrun node
  have hflight := run_invariant hflights (Flights.start owned leader clock)
    (along_of_forall fun _ _ => trivial) hrun node
  exact ⟨hcounted.counted.trans hcounted.budget, hcounted.apart, hflight.1⟩

def compares (db3 : Backend) (now : Int) : List Action :=
  [.tick, .look [newPrimary "db2", db3], .reconcile (newPrimary "db2") now, .reconcile db3 now,
    .reconciled]

def rebuildFails : List Action := [.rejoin (ascii "db3"), .rebuilt (ascii "db3") false]

def rebuiltTwice : List Action :=
  compares (stale "db3") 100 ++ rebuildFails ++ compares (stale "db3") (5 * minute) ++
    compares (stale "db3") (5 * minute + 100)

theorem second_rebuild_in_time :
    ∃ s, run (System.step automatic) (System.start true true 0) rebuiltTwice = some s ∧
      startsOf (ascii "db3") s.log = [5 * minute + 100, 100] ∧
      WithinBudget automatic.opts s (ascii "db3") := by
  have hseen : Along (System.step automatic) (fun s a => seenStreaming s a = true)
      (System.start true true 0) rebuiltTwice := by decide +kernel
  exact ⟨_, rfl, by decide +kernel, rejoin_budget_respected automatic true true 0 hseen rfl _⟩

theorem budget_forgotten_while_down :
    ∃ s, run (System.step ⟨⟨true, 1, true, true, 5 * minute, 1⟩, false⟩) (System.start true true 0)
        (compares (stale "db3") 100 ++ rebuildFails ++
          compares { stale "db3" with healthy := false } 200 ++ compares (stale "db3") 300) =
            some s ∧
      startsOf (ascii "db3") s.log = [300, 100] ∧
      ¬WithinBudget (Settings.opts ⟨⟨true, 1, true, true, 5 * minute, 1⟩, false⟩) s
        (ascii "db3") := by
  have hstarts : ∀ s, startsOf (ascii "db3") s.log = [300, 100] →
      ¬WithinBudget (Settings.opts ⟨⟨true, 1, true, true, 5 * minute, 1⟩, false⟩) s
        (ascii "db3") := by
    intro _ hs h
    have hattempts := h.attempts
    rw [hs] at hattempts
    revert hattempts
    decide
  exact ⟨_, rfl, by decide +kernel, hstarts _ (by decide +kernel)⟩

end Pontus.Orchestration
