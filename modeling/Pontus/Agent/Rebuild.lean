import Pontus.Agent.Settings
import Pontus.Lib.Run

/-!
# Rebuilding a node

`run` turns a node into a replica of another: by `pg_rewind` in place, or by a
base backup that is assembled beside the cluster and swapped in by two renames.
A step here is one use of a tool or of the file system.  Each may fail, and what
a tool leaves behind then is part of the step; the agent may be killed between
any two.
-/

namespace Pontus.Agent

open Lib

structure Directory where
  /-- `PG_VERSION` -/
  version : Bool
  /-- `standby.signal` -/
  signal : Bool
  files : Files
  contents : Nat
  complete : Bool
  started : Bool
  deriving DecidableEq

inductive RebuildAt
  | idle
  | failed (beforeSwap : Bool)
  /-- `clearStaging`, at the start or behind a failure -/
  | clearStaging (failing : Bool)
  | clearPrevious (failing : Bool)
  | captureIdentity
  | stopForRewind
  | pgRewind
  | baseBackup
  | stopPostgres
  /-- `swapInStaging`: the old cluster is moved aside -/
  | moveAside
  | install
  | restore
  /-- `writeStandbyConfig`: first `standby.signal` -/
  | writeSignal
  | writeConfig
  | startPostgres
  | statSignal
  | discardPrevious
  deriving DecidableEq

structure Rebuild where
  data : Option Directory
  /-- `.pontus-rebuild` -/
  staging : Option Directory
  /-- `.pontus-previous` -/
  previous : Option Directory
  stage : RebuildAt
  request : Request
  identity : Bytes → Option Bytes
  found : Option Directory

/-- How a step ends.  Tools that write leave a directory, also where they
fail. -/
inductive Outcome
  | ok (tree : Directory)
  | failed (left : Option Directory)
  deriving DecidableEq

inductive RebuildAction
  /-- `SetupReplication` -/
  | setup (request : Request)
  | next (outcome : Outcome)
  | kill
  deriving DecidableEq

namespace Rebuild

def fail (s : Rebuild) (beforeSwap : Bool) : Rebuild := { s with stage := .failed beforeSwap }

def goto (s : Rebuild) (stage : RebuildAt) : Rebuild := { s with stage := stage }

def scribbled (data left : Option Directory) : Option Directory :=
  match data, left with
  | some d, some tree => some { d with files := tree.files, signal := tree.signal }
  | data, _ => data

def next (s : Rebuild) (outcome : Outcome) : Option Rebuild :=
  match s.stage, outcome with
  | .idle, _ => none
  | .failed _, _ => none
  | .clearStaging failing, .ok _ => some { s with staging := none, stage := .clearPrevious failing }
  | .clearStaging _, .failed left => some { s with staging := left, stage := .failed true }
  | .clearPrevious failing, .ok _ =>
    some { s with previous := none, stage := if failing then .failed true else .captureIdentity }
  | .clearPrevious _, .failed left => some { s with previous := left, stage := .failed true }
  | .captureIdentity, _ =>
    some { s with
      identity := (s.data.map fun d => Agent.captureIdentity d.files).getD fun _ => none
      stage := if s.request.rewind then .stopForRewind else .baseBackup }
  | .stopForRewind, .ok _ => some (s.goto .pgRewind)
  | .stopForRewind, .failed _ => some (s.fail true)
  -- It works in place; a failure falls through to the full copy.
  | .pgRewind, .ok tree =>
    some { s with
      data := s.data.map fun d => { tree with complete := true, started := d.started }
      stage := .writeSignal }
  | .pgRewind, .failed left => some { s with data := left, stage := .baseBackup }
  | .baseBackup, .ok tree =>
    some { s with
      staging := some { tree with complete := true, started := false }
      stage := .stopPostgres }
  | .baseBackup, .failed left => some { s with staging := left, stage := .clearStaging true }
  | .stopPostgres, .ok _ => some (s.goto .moveAside)
  | .stopPostgres, .failed _ => some (s.goto (.clearStaging true))
  -- A directory that holds something is not renamed over.
  | .moveAside, .ok _ =>
    if s.data.isSome ∧ s.previous = none then
      some { s with data := none, previous := s.data, stage := .install }
    else none
  | .moveAside, .failed _ => some (s.fail true)
  | .install, .ok _ =>
    if s.staging.isSome ∧ s.data = none then
      some { s with data := s.staging, staging := none, stage := .writeSignal }
    else none
  | .install, .failed _ => some (s.goto .restore)
  | .restore, .ok _ =>
    if s.previous.isSome ∧ s.data = none then
      some { s with data := s.previous, previous := none, stage := .failed false }
    else none
  | .restore, .failed _ => some (s.fail false)
  | .writeSignal, .ok _ =>
    some { s with data := s.data.map ({ · with signal := true }), stage := .writeConfig }
  | .writeSignal, .failed left =>
    some { s with data := scribbled s.data left, stage := .failed false }
  | .writeConfig, .ok _ =>
    some { s with
      data := s.data.map fun d =>
        { d with
          files :=
            { d.files with
              auto := some (standbyConf s.request s.identity (d.files.auto.getD [])) } }
      stage := .startPostgres }
  | .writeConfig, .failed left =>
    some { s with data := scribbled s.data left, stage := .failed false }
  | .startPostgres, .ok _ =>
    some { s with data := s.data.map ({ · with started := true }), stage := .statSignal }
  | .startPostgres, .failed _ => some (s.fail false)
  | .statSignal, .ok _ =>
    if s.data.any (·.signal) then some (s.goto .discardPrevious) else some (s.fail false)
  | .statSignal, .failed _ => some (s.fail false)
  -- A failure here is not fatal.
  | .discardPrevious, .ok _ => some { s with previous := none, stage := .idle }
  | .discardPrevious, .failed left => some { s with previous := left, stage := .idle }

def resting (s : Rebuild) : Bool :=
  match s.stage with
  | .idle => true
  | .failed _ => true
  | _ => false

def step (s : Rebuild) : RebuildAction → Option Rebuild
  -- `validateDataDir`
  | .setup request =>
    if s.resting ∧ s.data.any (·.version) then
      some { s with stage := .clearStaging false, request := request, found := s.data }
    else none
  | .next outcome => s.next outcome
  | .kill => some (s.goto .idle)

end Rebuild

def Proven (d : Option Directory) : Prop := ∃ tree, d = some tree ∧ tree.complete ∧ tree.started

instance (d : Option Directory) : Decidable (Proven d) :=
  match d with
  | none => isFalse fun h => by
    obtain ⟨tree, htree, -⟩ := h
    cases htree
  | some tree =>
    decidable_of_iff (tree.complete ∧ tree.started) ⟨fun h => ⟨tree, rfl, h⟩, fun h => by
      obtain ⟨tree', htree, hproven⟩ := h
      cases htree
      exact hproven⟩

namespace Rebuild

def Safe (s : Rebuild) : Prop := Proven s.data ∨ Proven s.previous ∨ Proven s.staging

/-- A failure that came before the swap has changed nothing. -/
def Untouched (s : Rebuild) : Prop := s.stage = .failed true → s.data = s.found

instance (s : Rebuild) : Decidable s.Safe := inferInstanceAs (Decidable (_ ∨ _))

instance (s : Rebuild) : Decidable s.Untouched := inferInstanceAs (Decidable (_ → _))

end Rebuild

end Pontus.Agent
