import Pontus.Pool.Server

/-!
# Whether a backend replicates

A deep check asks a backend for its role and, over the admin session, whether a
WAL receiver is connected.  `IsReplicating` is read off what the last one has
stored and off the policy by which a replica that had stopped is let back in.
-/

namespace Pontus.Pool

open Lib

def defaultReattachInterval : Int := 60000000000

structure ReattachPolicy where
  enabled : Bool
  dwell : Int
  deriving DecidableEq

def setAutoReattach (enabled : Bool) (dwell : Int) : ReattachPolicy :=
  ⟨enabled, if dwell ≤ 0 then defaultReattachInterval else dwell⟩

structure ReplicationStatus where
  inRecovery : Bool
  replayAge : Int
  caughtUp : Bool
  streaming : Bool
  deriving DecidableEq

namespace ReplicationStatus

def role (s : ReplicationStatus) : Role := if s.inRecovery then .replica else .primary

def lag (s : ReplicationStatus) : Int :=
  if !s.inRecovery then 0
  else if s.streaming && s.caughtUp then 0
  else if s.replayAge < 0 then 0
  else s.replayAge

end ReplicationStatus

structure ServerStatus where
  address : Bytes
  /-- `admin.Available()`, settled when the server is made -/
  admin : Bool
  role : Role
  healthy : Bool
  replicationLag : Int
  draining : Bool
  replicating : Bool
  /-- zero where no run of streaming has begun -/
  replicatingSince : Int
  stoppedReplicating : Bool
  deriving DecidableEq

namespace ServerStatus

def new (address : Bytes) (admin : Bool) (role : Role) : ServerStatus where
  address := address
  admin := admin
  role := role
  healthy := true
  replicationLag := 0
  draining := false
  replicating := false
  replicatingSince := 0
  stoppedReplicating := false

def isReplicating (p : ServerStatus) (policy : ReattachPolicy) (now : Int) : Bool :=
  if p.role ≠ .replica then true
  else if !policy.enabled then true
  else if !p.replicating then false
  else if !p.stoppedReplicating then true
  else if p.replicatingSince = 0 then false
  else decide (policy.dwell ≤ now - p.replicatingSince)

def setReplicating (p : ServerStatus) (streaming : Bool) (now : Int) : ServerStatus :=
  if !streaming then
    { p with replicating := false, replicatingSince := 0, stoppedReplicating := true }
  else if !p.replicating then { p with replicating := true, replicatingSince := now }
  else p

def setRole (p : ServerStatus) (role : Role) : ServerStatus :=
  { p with
    role := role
    draining := p.draining || (p.role == .primary && role == .replica) }

end ServerStatus

/-- The stores of a deep check.  Others may read the server between two of
them. -/
inductive Store
  | setHealthy (healthy : Bool)
  | setLag (lag : Int)
  /-- `setReplicating` with what this status says -/
  | setReplicating (status : ReplicationStatus)
  /-- `setRole`, where the role is another than before -/
  | setRole (role : Role)
  deriving DecidableEq

def ServerStatus.perform (p : ServerStatus) (now : Int) : Store → ServerStatus
  | .setHealthy healthy => { p with healthy := healthy }
  | .setLag lag => { p with replicationLag := lag }
  | .setReplicating status => p.setReplicating (!status.inRecovery || status.streaming) now
  | .setRole role => if p.role ≠ role then p.setRole role else p

structure CheckAnswers where
  status : Option ReplicationStatus
  /-- a pooled connection is acquired and `DeepCheck` succeeds on it -/
  alive : Bool
  isReadOnly : Option Bool
  replicationLag : Option Int
  deriving DecidableEq

def deepCheckAdmin : Option ReplicationStatus → List Store × Bool
  | none => ([.setHealthy false], false)
  | some status =>
    ([.setHealthy true, .setLag status.lag, .setReplicating status, .setRole status.role], true)

/-- `deepCheck`.  Without an admin session nobody asks about the WAL receiver. -/
def deepCheck (admin : Bool) (answers : CheckAnswers) : List Store × Bool :=
  if admin then deepCheckAdmin answers.status
  else if !answers.alive then ([.setHealthy false], false)
  else
    (.setHealthy true ::
      ((answers.isReadOnly.toList.map fun readOnly =>
          .setRole (if readOnly then .replica else .primary)) ++
        answers.replicationLag.toList.map .setLag), true)

end Pontus.Pool
