import Pontus.Orchestration.FailoverManager
import Pontus.Pool.Reattach

/-!
# The manager among its servers

Every server checks itself on a ticker of its own, the health monitor probes
it, and the failover manager reads what they have left at its own times.
-/

namespace Pontus.Orchestration

open Lib Pool

structure Node where
  status : ServerStatus
  checking : List Store
  report : Option ReplicationStatus
  deriving DecidableEq

namespace Node

def new (address : Bytes) (admin : Bool) (role : Role) : Node := ⟨.new address admin role, [], none⟩

/-- What the manager finds when it looks at the server; `IsReplicating` goes by
the wall clock. -/
def observe (n : Node) (policy : ReattachPolicy) (wall : Int) : Backend where
  address := n.status.address
  role := n.status.role
  healthy := n.status.healthy
  replicating := n.status.isReplicating policy wall
  draining := n.status.draining
  lag := none

def check (n : Node) (answers : CheckAnswers) : Option Node :=
  match n.checking with
  | [] => some { n with checking := (deepCheck n.status.admin answers).1 }
  | _ :: _ => none

def store (n : Node) (wall : Int) : Option Node :=
  match n.checking with
  | [] => none
  | st :: checking =>
    some {
      status := n.status.perform wall st
      checking := checking
      report :=
        match st with
        | .setReplicating status => some status
        | _ => n.report }

end Node

structure Cluster where
  manager : System
  policy : ReattachPolicy
  nodes : List Node

inductive Event
  | check (i : Nat) (answers : CheckAnswers)
  | store (i : Nat) (wall : Int)
  | unreachable (i : Nat)
  | drained (i : Nat)
  | setAutoReattach (enabled : Bool) (dwell : Int)
  | look (wall : Int)
  /-- and compares this one with the primary; `now` is the monotonic clock, by
  which the tracker goes -/
  | compare (i : Nat) (wall now : Int)
  | manager (a : Action)
  deriving DecidableEq

namespace Cluster

def start (owned leader : Bool) (clock : Int) (policy : ReattachPolicy)
    (servers : List (Bytes × Bool × Role)) : Cluster where
  manager := System.start owned leader clock
  policy := policy
  nodes := servers.map fun p => Node.new p.1 p.2.1 p.2.2

def updateNode (c : Cluster) (i : Nat) (f : Node → Option Node) : Option Cluster :=
  match c.nodes[i]? with
  | none => none
  | some n => (f n).map fun n => { c with nodes := c.nodes.set i n }

def move (cfg : Settings) (c : Cluster) (a : Action) : Option Cluster :=
  (c.manager.step cfg a).map fun s => { c with manager := s }

def step (cfg : Settings) (c : Cluster) : Event → Option Cluster
  | .check i answers => c.updateNode i (·.check answers)
  | .store i wall => c.updateNode i (·.store wall)
  | .unreachable i =>
    c.updateNode i fun n => some { n with status := { n.status with healthy := false } }
  | .drained i =>
    c.updateNode i fun n => some { n with status := { n.status with draining := false } }
  | .setAutoReattach enabled dwell => some { c with policy := Pool.setAutoReattach enabled dwell }
  | .look wall => c.move cfg (.look (c.nodes.map (·.observe c.policy wall)))
  | .compare i wall now =>
    match c.nodes[i]? with
    | none => none
    | some n => c.move cfg (.reconcile (n.observe c.policy wall) now)
  | .manager (.look _) => none
  | .manager (.reconcile _ _) => none
  | .manager a => c.move cfg a

end Cluster

end Pontus.Orchestration
