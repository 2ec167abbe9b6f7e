import Pontus.Agent.Rebuild

/-!
# The last good cluster

A run begins by removing what an earlier one has left, and with it the cluster
that was kept until its replacement is proven: where the replacement never came
up, nothing is left to go back to.  `pg_rewind` works in place and leaves nothing
when it fails.  Where runs begin on a cluster that has been started, and
`pg_rewind` does what it is asked, there always is one.
-/

namespace Pontus.Agent

open Lib

variable {d : Option Directory} {f : Directory → Directory}

namespace Rebuild

def beginsProven (s : Rebuild) : RebuildAction → Prop
  | .setup _ => Proven s.data
  | .next (.failed _) => s.stage ≠ .pgRewind
  | _ => True

instance (s : Rebuild) (a : RebuildAction) : Decidable (s.beginsProven a) := by
  unfold beginsProven
  split <;> infer_instance

def Whole (d : Option Directory) : Prop := ∃ tree, d = some tree ∧ tree.complete

structure Intact (s : Rebuild) : Prop where
  proven : Proven s.data
  found : s.data = s.found

/-- The data directory holds a cluster; where it has not been started yet, the
one before it is kept. -/
structure Installed (s : Rebuild) : Prop where
  whole : Whole s.data
  kept : Proven s.data ∨ Proven s.previous

def Good (s : Rebuild) : Prop :=
  match s.stage with
  | .idle => Proven s.data ∨ Proven s.previous
  | .failed beforeSwap => if beforeSwap then s.Intact else Proven s.data ∨ Proven s.previous
  | .clearStaging _ => s.Intact
  | .clearPrevious _ => s.Intact
  | .captureIdentity => s.Intact
  | .stopForRewind => s.Intact
  | .pgRewind => s.Intact
  | .baseBackup => s.Intact
  | .stopPostgres => s.Intact ∧ Whole s.staging
  | .moveAside => s.Intact ∧ Whole s.staging
  | .install => Proven s.previous ∧ Whole s.staging
  | .restore => Proven s.previous
  | .writeSignal => s.Installed
  | .writeConfig => s.Installed
  | .startPostgres => s.Installed
  | .statSignal => Proven s.data
  | .discardPrevious => Proven s.data

variable {s s' : Rebuild}

theorem Good.kept (h : s.Good) : Proven s.data ∨ Proven s.previous := by
  rw [Good] at h
  split at h
  · exact h
  · split at h
    · exact .inl h.proven
    · exact h
  · exact .inl h.proven
  · exact .inl h.proven
  · exact .inl h.proven
  · exact .inl h.proven
  · exact .inl h.proven
  · exact .inl h.proven
  · exact .inl h.1.proven
  · exact .inl h.1.proven
  · exact .inr h.1
  · exact .inr h
  · exact h.kept
  · exact h.kept
  · exact h.kept
  · exact .inl h
  · exact .inl h

theorem Good.safe (h : s.Good) : s.Safe := by
  rcases h.kept with hdata | hprevious
  · exact .inl hdata
  · exact .inr (.inl hprevious)

theorem Good.untouched (h : s.Good) : s.Untouched := by
  intro hstage
  rw [Good, hstage] at h
  exact h.found

theorem whole_of_proven (h : Proven d) : Whole d := by
  obtain ⟨tree, htree, hcomplete, -⟩ := h
  exact ⟨tree, htree, hcomplete⟩

theorem proven_map (h : Proven d) (hcomplete : ∀ tree, tree.complete → (f tree).complete)
    (hstarted : ∀ tree, tree.started → (f tree).started) : Proven (d.map f) := by
  obtain ⟨tree, rfl, hproven⟩ := h
  exact ⟨f tree, rfl, hcomplete tree hproven.1, hstarted tree hproven.2⟩

theorem whole_map (h : Whole d) (hcomplete : ∀ tree, tree.complete → (f tree).complete) :
    Whole (d.map f) := by
  obtain ⟨tree, rfl, hwhole⟩ := h
  exact ⟨f tree, rfl, hcomplete tree hwhole⟩

theorem proven_start (h : Whole d) : Proven (d.map ({ · with started := true })) := by
  obtain ⟨_, rfl, hcomplete⟩ := h
  exact ⟨_, rfl, hcomplete, rfl⟩

theorem proven_scribbled (h : Proven d) (left : Option Directory) : Proven (scribbled d left) := by
  obtain ⟨tree, rfl, hproven⟩ := h
  cases left with
  | none => exact ⟨tree, rfl, hproven⟩
  | some => exact ⟨_, rfl, hproven⟩

theorem Installed.write (h : s.Installed) (hdata : s'.data = s.data.map f)
    (hprevious : s'.previous = s.previous) (hcomplete : ∀ tree, tree.complete → (f tree).complete)
    (hstarted : ∀ tree, tree.started → (f tree).started) : s'.Installed := by
  constructor
  · rw [hdata]
    exact whole_map h.whole hcomplete
  · rw [hdata, hprevious]
    exact h.kept.imp_left fun hproven => proven_map hproven hcomplete hstarted

theorem Installed.scribbled (h : s.Installed) (left : Option Directory) :
    Proven (Rebuild.scribbled s.data left) ∨ Proven s.previous :=
  h.kept.imp_left fun hdata => proven_scribbled hdata left

theorem Good.next (h : s.Good) (hallowed : s.beginsProven (.next outcome))
    (hstep : s.next outcome = some s') : s'.Good := by
  obtain ⟨data, _, _, stage, request, _, _⟩ := s
  cases stage with
  | idle | failed beforeSwap => cases hstep
  -- Up to the swap nothing touches the data directory.
  | clearStaging failing | stopForRewind =>
    cases outcome with
    | ok tree | failed left =>
      cases hstep
      exact ⟨h.proven, h.found⟩
  | clearPrevious failing =>
    cases outcome with
    | ok =>
      cases hstep
      cases failing with
      | true | false => exact ⟨h.proven, h.found⟩
    | failed =>
      cases hstep
      exact ⟨h.proven, h.found⟩
  | captureIdentity =>
    cases hstep
    cases request.rewind with
    | true | false => exact ⟨h.proven, h.found⟩
  | pgRewind =>
    cases outcome with
    | ok tree =>
      cases hstep
      have hdata : Proven (data.map fun d =>
          { tree with complete := true, started := d.started }) :=
        proven_map h.proven (fun _ _ => rfl) (fun _ hstarted => hstarted)
      exact ⟨whole_of_proven hdata, .inl hdata⟩
    | failed => exact absurd rfl hallowed
  | baseBackup =>
    cases outcome with
    | ok =>
      cases hstep
      exact ⟨⟨h.proven, h.found⟩, ⟨_, rfl, rfl⟩⟩
    | failed =>
      cases hstep
      exact ⟨h.proven, h.found⟩
  | stopPostgres =>
    cases outcome with
    | ok =>
      cases hstep
      exact ⟨⟨h.1.proven, h.1.found⟩, h.2⟩
    | failed =>
      cases hstep
      exact ⟨h.1.proven, h.1.found⟩
  -- The swap: the old cluster is moved before the new one takes its place.
  | moveAside =>
    cases outcome with
    | ok =>
      obtain ⟨-, hnext⟩ := ite_none_right_eq_some.1 hstep
      cases hnext
      exact ⟨h.1.proven, h.2⟩
    | failed =>
      cases hstep
      exact ⟨h.1.proven, h.1.found⟩
  | install =>
    cases outcome with
    | ok =>
      obtain ⟨-, hnext⟩ := ite_none_right_eq_some.1 hstep
      cases hnext
      exact ⟨h.2, .inr h.1⟩
    | failed =>
      cases hstep
      exact h.1
  | restore =>
    cases outcome with
    | ok =>
      obtain ⟨-, hnext⟩ := ite_none_right_eq_some.1 hstep
      cases hnext
      exact .inl h
    | failed =>
      cases hstep
      exact .inr h
  -- The new cluster is set up while the old one is still there.
  | writeSignal | writeConfig =>
    cases outcome with
    | ok =>
      cases hstep
      exact h.write rfl rfl (fun _ hcomplete => hcomplete) (fun _ hstarted => hstarted)
    | failed left =>
      cases hstep
      exact h.scribbled left
  | startPostgres =>
    cases outcome with
    | ok =>
      cases hstep
      exact proven_start h.whole
    | failed =>
      cases hstep
      exact h.kept
  -- It has been started, so the old one may go.
  | statSignal =>
    cases outcome with
    | ok =>
      rcases ite_eq_iff.1 hstep with ⟨-, hnext⟩ | ⟨-, hnext⟩
      · cases hnext
        exact h
      · cases hnext
        exact .inl h
    | failed =>
      cases hstep
      exact .inl h
  | discardPrevious =>
    cases outcome with
    | ok tree | failed left =>
      cases hstep
      exact .inl h

theorem Good.step (h : s.Good) (hallowed : s.beginsProven a) (hstep : s.step a = some s') :
    s'.Good := by
  cases a with
  | setup =>
    simp only [Rebuild.step, ite_none_right_eq_some, some_inj] at hstep
    rw [← hstep.2]
    exact ⟨hallowed, rfl⟩
  | next => exact h.next hallowed hstep
  | kill =>
    cases hstep
    exact h.kept

end Rebuild

/-- **There is always a cluster to go back to.** -/
theorem rebuilds_keep_a_cluster {s s' : Rebuild} (hidle : s.stage = .idle) (hproven : Proven s.data)
    {actions : List RebuildAction} (hallowed : Along Rebuild.step Rebuild.beginsProven s actions)
    (hrun : run Rebuild.step s actions = some s') : s'.Safe ∧ s'.Untouched := by
  have hgood : s.Good := by
    rw [Rebuild.Good, hidle]
    exact .inl hproven
  have hgood' : s'.Good :=
    run_invariant (fun _ _ _ hs ha hstep => hs.step ha hstep) hgood hallowed hrun
  exact ⟨hgood'.safe, hgood'.untouched⟩

def cluster (contents : Nat) (started : Bool) : Directory :=
  ⟨true, false, ⟨some (ascii "port = 6544\n"), none⟩, contents, true, started⟩

def runningNode : Rebuild :=
  ⟨some (cluster 1 true), none, none, .idle, ⟨[], 0, [], [], [], false⟩, fun _ => none, none⟩

def rebuildRequest (rewind : Bool) : Request :=
  ⟨ascii "10.0.0.1", 5432, ascii "repl", [], ascii "pontus", rewind⟩

def works : RebuildAction := .next (.ok (cluster 2 false))

def untilStart : List RebuildAction := .setup (rebuildRequest false) :: List.replicate 9 works

def rebuiltTwice : List RebuildAction :=
  untilStart ++ [works, works, works, .setup (rebuildRequest true), works, works, works, works,
    works, .kill]

theorem rebuilds_keep_a_cluster_twice :
    ∃ s', run Rebuild.step runningNode rebuiltTwice = some s' ∧ s'.data ≠ runningNode.data ∧
      s'.Safe ∧ s'.Untouched := by
  have hmoves : Along Rebuild.step Rebuild.beginsProven runningNode rebuiltTwice ∧
      (run Rebuild.step runningNode rebuiltTwice).any
        (fun s' => decide (s'.data ≠ runningNode.data)) = true := by
    decide +kernel
  obtain ⟨hallowed, s', hrun, hdata⟩ := exists_allowed_run hmoves
  exact ⟨s', hrun, of_decide_eq_true hdata,
    rebuilds_keep_a_cluster rfl (by decide +kernel) hallowed hrun⟩

def triedAgain : List RebuildAction :=
  untilStart ++ [.next (.failed none), .setup (rebuildRequest false), works, works]

def rewoundInPart : List RebuildAction :=
  [.setup (rebuildRequest true), works, works, works, works,
    .next (.failed (some { cluster 3 false with complete := false })), .next (.failed none), works,
    works]

/-- **Nothing to go back to.**  The second attempt has removed the old cluster
while the new one has never been started; and a failure that comes before any
swap leaves the data directory in pieces. -/
theorem last_cluster_lost :
    (runningNode.stage = .idle ∧ Proven runningNode.data) ∧
    (∃ s, run Rebuild.step runningNode triedAgain = some s ∧ ¬ s.Safe) ∧
    ∃ s, run Rebuild.step runningNode rewoundInPart = some s ∧ ¬ s.Untouched ∧ ¬ s.Safe := by
  have hagain : (run Rebuild.step runningNode triedAgain).any
      (fun s => decide (¬ s.Safe)) = true := by
    decide +kernel
  have hrewound : (run Rebuild.step runningNode rewoundInPart).any
      (fun s => decide (¬ s.Untouched ∧ ¬ s.Safe)) = true := by
    decide +kernel
  obtain ⟨s, hrun, hs⟩ := exists_run hagain
  obtain ⟨t, hrun', ht⟩ := exists_run hrewound
  exact ⟨by decide +kernel, ⟨s, hrun, of_decide_eq_true hs⟩, t, hrun', of_decide_eq_true ht⟩

end Pontus.Agent
