import Pontus.Pool.Server

/-!
# What the failover manager goes by

Its options, the backends as they look at the moment they are asked, and the
choices it makes of them: the replica to promote, the primary to keep, the
replicas to re-point and the nodes to rebuild.
-/

namespace Pontus.Orchestration

open Lib Pool

structure Options where
  enabled : Bool
  failureThreshold : Int
  followPrimary : Bool
  autoRejoin : Bool
  autoRejoinInterval : Int
  autoRejoinMaxAttempts : Int
  deriving DecidableEq

def minute : Int := 60000000000

def Options.sane (o : Options) : Options :=
  { o with
    failureThreshold := if o.failureThreshold ≤ 0 then 3 else o.failureThreshold
    autoRejoinInterval := if o.autoRejoinInterval ≤ 0 then 5 * minute else o.autoRejoinInterval
    autoRejoinMaxAttempts := if o.autoRejoinMaxAttempts ≤ 0 then 3 else o.autoRejoinMaxAttempts }

theorem Options.sane_interval_pos (o : Options) : 0 < o.sane.autoRejoinInterval := by
  unfold Options.sane minute
  dsimp only
  split <;> omega

structure Backend where
  address : Bytes
  role : Role
  healthy : Bool
  /-- `IsReplicating` -/
  replicating : Bool
  draining : Bool
  /-- what `CheckReplicationLag` answers for it, if it does -/
  lag : Option Int
  deriving DecidableEq

def findBestLoop : List Backend → Option Backend → Int → Option Backend
  | [], best, _ => best
  | b :: bs, best, minLag =>
    if b.role ≠ .replica || !b.healthy then findBestLoop bs best minLag
    else
      match b.lag with
      | none => findBestLoop bs best minLag
      | some lag =>
        if minLag = -1 ∨ lag < minLag then findBestLoop bs (some b) lag
        else findBestLoop bs best minLag

def findBestReplica (bs : List Backend) : Option Backend := findBestLoop bs none (-1)

def replicasToFollow (primary : Bytes) (bs : List Backend) : List Bytes :=
  (bs.filter fun b => b.address != primary && b.role == .replica && b.healthy).map Backend.address

def allPrimaries (bs : List Backend) : List Backend := bs.filter (·.role == .primary)

def healthyPrimaries (bs : List Backend) : List Backend := (allPrimaries bs).filter (·.healthy)

inductive Course
  | missed
  | splitBrain
  | rejoin (primary : Bytes)
  deriving DecidableEq

def course (bs : List Backend) : Course :=
  match healthyPrimaries bs with
  | [] => .missed
  | primary :: _ => if 1 < (allPrimaries bs).length then .splitBrain else .rejoin primary.address

def winner (consensusPrimary lastPromoted : Bytes) (bs : List Backend) : Option Backend :=
  let named :=
    if consensusPrimary = [] then none
    else (allPrimaries bs).find? (·.address == consensusPrimary)
  match named with
  | some p => some p
  | none =>
    match (allPrimaries bs).find? fun p => p.address == lastPromoted && p.healthy with
    | some p => some p
    | none => (healthyPrimaries bs).head?

def losers (bs : List Backend) (kept : Bytes) : List Bytes :=
  ((allPrimaries bs).filter (·.address != kept)).map Backend.address

/-- A node that is up but not part of the cluster's replication. -/
def needsRejoin (b : Backend) (primary : Bytes) : Bool :=
  b.address != primary && b.role == .replica && b.healthy && !b.replicating && !b.draining

/-! ## Rebuilds that have been tried -/

structure RejoinState where
  attempts : Int
  /-- `none` for the zero time -/
  lastAttempt : Option Int
  inFlight : Bool
  deriving DecidableEq

abbrev Tracker := Bytes → Option RejoinState

inductive Begun
  | ok
  | exhausted
  | refused
  deriving DecidableEq

namespace Tracker

def begin (t : Tracker) (addr : Bytes) (interval maxAttempts now : Int) : Tracker × Begun :=
  let found := (t addr).isSome
  let state := (t addr).getD ⟨0, none, false⟩
  let t := Function.update t addr (some state)
  if state.inFlight then (t, .refused)
  else if maxAttempts ≤ state.attempts then (t, .exhausted)
  else if found && state.lastAttempt.any fun last => now - last < interval then (t, .refused)
  else (Function.update t addr (some ⟨state.attempts + 1, some now, true⟩), .ok)

def finish (t : Tracker) (addr : Bytes) (succeeded : Bool) : Tracker :=
  match t addr with
  | none => t
  | some state =>
    Function.update t addr (if succeeded then none else some { state with inFlight := false })

def forget (t : Tracker) (addr : Bytes) : Tracker :=
  match t addr with
  | none => t
  | some state => if state.inFlight then t else Function.update t addr none

end Tracker

def reconcileRejoin (o : Options) (t : Tracker) (primary : Bytes) (b : Backend) (now : Int) :
    Tracker × Bool :=
  if !needsRejoin b primary then (t.forget b.address, false)
  else if !o.autoRejoin then (t, false)
  else
    let (t, begun) := t.begin b.address o.autoRejoinInterval o.autoRejoinMaxAttempts now
    (t, begun == .ok)

/-- `reconcileRejoins`, with the nodes whose rebuild is started.  Each backend is
looked at in its turn, at the time given with it. -/
def reconcileRejoins (o : Options) (primary : Bytes) :
    List (Backend × Int) → Tracker → Tracker × List Bytes
  | [], t => (t, [])
  | (b, now) :: bs, t =>
    let (t, started) := reconcileRejoin o t primary b now
    let (t, rest) := reconcileRejoins o primary bs t
    (t, if started then b.address :: rest else rest)

end Pontus.Orchestration
