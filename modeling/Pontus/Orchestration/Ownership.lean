import Mathlib.Logic.Function.Basic
import Mathlib.Data.Fintype.Basic
import Pontus.Lib.Bytes
import Pontus.Lib.Run

/-!
# Which process orchestrates a host

An upgrade runs two processes on one host for a while.  A file lock decides
which of them may act on the cluster: a registry claims it when it is made and
gives it back when it stops, and the kernel drops it when its process exits.
The managers of a process do not look at the lock but at a predicate that was
installed when it was claimed.
-/

namespace Pontus.Orchestration

open Lib

inductive Owner
  | unset
  | always
  | never
  deriving DecidableEq

def Owner.owned : Owner → Bool
  | .unset => true
  | .always => true
  | .never => false

inductive Stage
  | absent
  /-- in `NewRegistry`, with nothing claimed yet -/
  | claiming
  /-- `claimOrchestration` has asked for the lock and calls `SetOwnership` next -/
  | claimed (owner : Owner)
  | running
  /-- in `StopAll`, with the lock given back -/
  | stopping
  deriving DecidableEq

structure Process where
  stage : Stage
  /-- the file that `orchestrationLock` has locked -/
  lock : Option Bytes
  owner : Owner
  managers : Nat
  deriving DecidableEq

def Process.none : Process := ⟨.absent, Option.none, .unset, 0⟩

structure Host (ι : Type) where
  locks : Bytes → Option ι
  process : ι → Process
  /-- whose ticks went on to `monitor`, the last one first -/
  monitored : List ι

def Host.idle {ι : Type} : Host ι := ⟨fun _ => none, fun _ => .none, []⟩

def isAbs (path : Bytes) : Bool := path.head? == some 47

section
variable {ι : Type} [DecidableEq ι]

/-- `AcquireOrchestration`.  The file may not be opened or locked for reasons
that have nothing to do with another process. -/
def acquireOrchestration (locks : Bytes → Option ι) (p : ι) (path : Bytes) (opened : Bool) :
    Option (Bytes → Option ι) :=
  if !opened then none
  else
    match locks path with
    | some _ => none
    | none => some (Function.update locks path (some p))

def release (locks : Bytes → Option ι) : Option Bytes → Bytes → Option ι
  | none => locks
  | some path => Function.update locks path none

/-- `claimOrchestration`: the locks behind it, the file this process has locked
and the predicate it installs. -/
def claimOrchestration (locks : Bytes → Option ι) (p : ι) (path : Option Bytes) (opened : Bool) :
    (Bytes → Option ι) × Option Bytes × Owner :=
  match path with
  | none => (locks, none, .unset)
  | some path =>
    if !isAbs path then (locks, none, .unset)
    else
      match acquireOrchestration locks p path opened with
      | none => (locks, none, .never)
      | some locks => (locks, some path, .always)

inductive OwnershipAction (ι : Type)
  /-- `NewRegistry` is called -/
  | start (p : ι)
  | claim (p : ι) (opened : Bool)
  | setOwnership (p : ι)
  /-- `CreateProxyState` starts a manager -/
  | startManager (p : ι)
  | tick (p : ι)
  | stopManager (p : ι)
  /-- the first step of `StopAll` -/
  | stopAll (p : ι)
  | exit (p : ι)
  deriving DecidableEq

def Host.put (s : Host ι) (locks : Bytes → Option ι) (p : ι) (x : Process) : Host ι :=
  { s with locks := locks, process := Function.update s.process p x }

theorem Host.process_put_self (s : Host ι) (locks : Bytes → Option ι) (p : ι) (x : Process) :
    (s.put locks p x).process p = x :=
  update_self ..

theorem Host.process_put_of_ne (s : Host ι) (locks : Bytes → Option ι) (hq : q ≠ p) (x : Process) :
    (s.put locks p x).process q = s.process q :=
  update_of_ne hq ..

def Host.step (paths : ι → Option Bytes) (s : Host ι) : OwnershipAction ι → Option (Host ι)
  | .start p =>
    if (s.process p).stage = .absent then
      some (s.put s.locks p { Process.none with stage := .claiming })
    else none
  | .claim p opened =>
    if (s.process p).stage = .claiming then
      let (locks, lock, owner) := claimOrchestration s.locks p (paths p) opened
      some (s.put locks p { s.process p with stage := .claimed owner, lock := lock })
    else none
  | .setOwnership p =>
    match (s.process p).stage with
    | .claimed owner =>
      some (s.put s.locks p { s.process p with stage := .running, owner := owner })
    | _ => none
  | .startManager p =>
    if (s.process p).stage = .running ∨ (s.process p).stage = .stopping then
      some (s.put s.locks p { s.process p with managers := (s.process p).managers + 1 })
    else none
  | .tick p =>
    if 0 < (s.process p).managers then
      some { s with
        monitored := if (s.process p).owner.owned then p :: s.monitored else s.monitored }
    else none
  | .stopManager p =>
    if 0 < (s.process p).managers then
      some (s.put s.locks p { s.process p with managers := (s.process p).managers - 1 })
    else none
  | .stopAll p =>
    if (s.process p).stage = .running then
      some (s.put (release s.locks (s.process p).lock) p
        { s.process p with stage := .stopping, lock := none })
    else none
  | .exit p => some (s.put (release s.locks (s.process p).lock) p .none)

end

def Host.Orchestrates {ι : Type} (s : Host ι) (p : ι) : Prop :=
  0 < (s.process p).managers ∧ (s.process p).owner.owned = true

instance {ι : Type} (s : Host ι) (p : ι) : Decidable (s.Orchestrates p) :=
  inferInstanceAs (Decidable (_ ∧ _))

end Pontus.Orchestration
