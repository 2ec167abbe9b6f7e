import Pontus.Orchestration.Cluster
import Pontus.Orchestration.Proofs.Promotions

/-!
# Rebuilds of nodes that were not seen to have stopped

`needsRejoin` goes by `IsReplicating`, which says whether a replica may be read
from.  A replica that no check has asked yet may not, nor may one that streams
again but has not done so for long enough; and either is rebuilt.
-/

namespace Pontus.Orchestration

open Lib Pool

/-- The last deep check that succeeded found it in recovery without a WAL
receiver. -/
def Node.SeenNotStreaming (n : Node) : Prop :=
  ∃ status, n.report = some status ∧ status.inRecovery = true ∧ status.streaming = false

def Cluster.Rebuilds (cfg : Settings) (c : Cluster) (n : Node) (wall now : Int) : Prop :=
  ∃ primary pending, c.manager.monitor = .reconciling primary (n.status.address :: pending) ∧
    (reconcileRejoin cfg.opts c.manager.rejoins primary (n.observe c.policy wall) now).2 = true

def RebuildsSeen (cfg : Settings) (c : Cluster) : Event → Prop
  | .compare i wall now =>
    ∀ n, c.nodes[i]? = some n → c.Rebuilds cfg n wall now → n.SeenNotStreaming
  | _ => True

/-- A check over the admin session has recorded whether the server streams, and
a replica that streams has done so for long enough. -/
def Node.settled (n : Node) (policy : ReattachPolicy) (wall : Int) : Bool :=
  (n.status.replicating || n.status.stoppedReplicating) &&
    (!n.status.replicating || n.status.isReplicating policy wall)

structure RebuildDue (cfg : Settings) (c : Cluster) (n : Node) (primary : Bytes) (wall now : Int) :
    Prop where
  needs : needsRejoin (n.observe c.policy wall) primary = true
  auto : cfg.opts.autoRejoin = true
  begins : (c.manager.rejoins.begin n.status.address cfg.opts.autoRejoinInterval
    cfg.opts.autoRejoinMaxAttempts now).2 = .ok

def SettledWhenDue (cfg : Settings) (c : Cluster) : Event → Prop
  | .compare i wall now => ∀ n, c.nodes[i]? = some n → ∀ primary pending,
      c.manager.monitor = .reconciling primary (n.status.address :: pending) →
      RebuildDue cfg c n primary wall now → n.settled c.policy wall = true
  | _ => True

theorem reconcileRejoin_starts :
    (reconcileRejoin cfg.opts c.manager.rejoins primary (n.observe c.policy wall) now).2 ↔
      RebuildDue cfg c n primary wall now := by
  unfold reconcileRejoin
  constructor
  · intro hstarts
    split at hstarts
    · cases hstarts
    rename_i hneeds
    split at hstarts
    · cases hstarts
    rename_i hauto
    exact ⟨by simpa using hneeds, by simpa using hauto, of_decide_eq_true hstarts⟩
  · intro h
    rw [h.needs, h.auto]
    change ((c.manager.rejoins.begin n.status.address _ _ now).2 == Begun.ok) = true
    rw [h.begins]
    rfl

inductive Node.Recorded (n : Node) : Prop
  | unasked (hreport : n.report = none) (hreplicating : n.status.replicating = false)
      (hstopped : n.status.stoppedReplicating = false)
  | streams {status : ReplicationStatus} (hreport : n.report = some status)
      (hstreams : (!status.inRecovery || status.streaming) = true)
      (hreplicating : n.status.replicating = true)
  | stopped {status : ReplicationStatus} (hreport : n.report = some status)
      (hstreams : (!status.inRecovery || status.streaming) = false)
      (hreplicating : n.status.replicating = false) (hstopped : n.status.stoppedReplicating = true)

theorem perform_setRole (p : ServerStatus) (now : Int) (role : Role) :
    (p.perform now (.setRole role)).replicating = p.replicating ∧
      (p.perform now (.setRole role)).stoppedReplicating = p.stoppedReplicating := by
  unfold ServerStatus.perform
  dsimp only
  split <;> exact ⟨rfl, rfl⟩

namespace Node

variable {n n' : Node}

theorem Recorded.new (address : Bytes) (admin : Bool) (role : Role) :
    (Node.new address admin role).Recorded := .unasked rfl rfl rfl

theorem Recorded.of_eq (h : n.Recorded) (hreported : n'.report = n.report)
    (hreplicating : n'.status.replicating = n.status.replicating)
    (hstopped : n'.status.stoppedReplicating = n.status.stoppedReplicating) : n'.Recorded := by
  cases h with
  | unasked h₁ h₂ h₃ =>
    exact .unasked (hreported.trans h₁) (hreplicating.trans h₂) (hstopped.trans h₃)
  | streams h₁ h₂ h₃ => exact .streams (hreported.trans h₁) h₂ (hreplicating.trans h₃)
  | stopped h₁ h₂ h₃ h₄ =>
    exact .stopped (hreported.trans h₁) h₂ (hreplicating.trans h₃) (hstopped.trans h₄)

theorem Recorded.check (h : n.Recorded) (hcheck : n.check answers = some n') : n'.Recorded := by
  unfold Node.check at hcheck
  split at hcheck
  · cases hcheck
    exact h.of_eq rfl rfl rfl
  · cases hcheck

theorem Recorded.setReplicating (p : ServerStatus) (status : ReplicationStatus)
    (checking : List Store) (now : Int) :
    Node.Recorded ⟨p.perform now (.setReplicating status), checking, some status⟩ := by
  cases hstreams : !status.inRecovery || status.streaming with
  | false =>
    refine .stopped rfl hstreams ?_ ?_ <;>
      simp [ServerStatus.perform, ServerStatus.setReplicating, hstreams]
  | true =>
    refine .streams rfl hstreams ?_
    cases hreplicating : p.replicating <;>
      simp [ServerStatus.perform, ServerStatus.setReplicating, hstreams, hreplicating]

theorem Recorded.store (h : n.Recorded) (hstore : n.store now = some n') : n'.Recorded := by
  unfold Node.store at hstore
  split at hstore
  · cases hstore
  · rename_i st checking _
    cases hstore
    cases st with
    | setReplicating status => exact .setReplicating n.status status checking now
    | setHealthy | setLag => exact h.of_eq rfl rfl rfl
    | setRole role =>
      have hkeeps := perform_setRole n.status now role
      exact h.of_eq rfl hkeeps.1 hkeeps.2

/-- **A node that needs a rebuild has been seen not to stream just when it is
settled.** -/
theorem Recorded.seen_iff_settled (h : n.Recorded)
    (hnot : n.status.isReplicating policy wall = false) :
    n.SeenNotStreaming ↔ n.settled policy wall := by
  unfold Node.settled
  rw [hnot, Bool.or_false]
  cases h with
  | unasked hreported hreplicating hstopped =>
    rw [hreplicating, hstopped]
    constructor
    · rintro ⟨status, hsome, _⟩
      rw [hreported] at hsome
      cases hsome
    · nofun
  | @streams _ hreported hstreams hreplicating =>
    rw [hreplicating]
    constructor
    · rintro ⟨_, hsome, hrecovery, hnone⟩
      rw [hreported, some_inj] at hsome
      rw [hsome, hrecovery, hnone] at hstreams
      cases hstreams
    · nofun
  | @stopped status hreported hstreams hreplicating hstopped =>
    rw [hreplicating, hstopped]
    refine iff_of_true ⟨status, hreported, ?_⟩ rfl
    simpa using hstreams

end Node

namespace Cluster

variable {cfg : Settings} {c c' : Cluster}

def Recorded (c : Cluster) : Prop := ∀ n ∈ c.nodes, n.Recorded

theorem Recorded.start (owned leader : Bool) (clock : Int) (policy : ReattachPolicy)
    (servers : List (Bytes × Bool × Role)) :
    (Cluster.start owned leader clock policy servers).Recorded := by
  intro _ hn
  obtain ⟨p, _, rfl⟩ := mem_map.1 hn
  exact .new p.1 p.2.1 p.2.2

variable (h : c.Recorded)
include h

theorem Recorded.updateNode (hf : ∀ n n', n.Recorded → f n = some n' → n'.Recorded)
    (hstep : c.updateNode i f = some c') : c'.Recorded := by
  unfold Cluster.updateNode at hstep
  split at hstep
  · cases hstep
  · rename_i n hn
    obtain ⟨_, hn', rfl⟩ := map_eq_some_iff.1 hstep
    intro m hm
    rcases List.mem_or_eq_of_mem_set hm with hold | rfl
    · exact h m hold
    · exact hf n m (h n (List.mem_of_getElem? hn)) hn'

theorem Recorded.move (hstep : c.move cfg a = some c') : c'.Recorded := by
  obtain ⟨_, _, rfl⟩ := map_eq_some_iff.1 hstep
  exact h

/-- **One step.** -/
theorem Recorded.step (hstep : c.step cfg e = some c') : c'.Recorded := by
  cases e with
  | check => exact h.updateNode (fun _ _ hn hcheck => hn.check hcheck) hstep
  | store => exact h.updateNode (fun _ _ hn hstore => hn.store hstore) hstep
  | unreachable i | drained i =>
    refine h.updateNode (fun n n' hn hset => ?_) hstep
    cases hset
    exact hn.of_eq rfl rfl rfl
  | setAutoReattach =>
    cases hstep
    exact h
  | look => exact h.move hstep
  | compare =>
    unfold Cluster.step at hstep
    dsimp only at hstep
    split at hstep
    · cases hstep
    · exact h.move hstep
  | manager a =>
    cases a with
    | look | reconcile => cases hstep
    | _ => exact h.move hstep

theorem Recorded.rebuildsSeen_iff (e : Event) : RebuildsSeen cfg c e ↔ SettledWhenDue cfg c e := by
  cases e with
  | compare _ wall now =>
    refine forall₂_congr fun n hn => ?_
    have hseen : ∀ primary, RebuildDue cfg c n primary wall now →
        (n.SeenNotStreaming ↔ n.settled c.policy wall = true) := by
      intro primary hdue
      have hneeds := hdue.needs
      simp only [needsRejoin, and_eq_true, not_eq_true'] at hneeds
      exact (h n (List.mem_of_getElem? hn)).seen_iff_settled hneeds.1.2
    constructor
    · intro hrebuilds primary pending hat hdue
      exact (hseen primary hdue).1 (hrebuilds
        ⟨primary, pending, hat, reconcileRejoin_starts.2 hdue⟩)
    · rintro hsettled ⟨primary, pending, hat, hstarts⟩
      have hdue := reconcileRejoin_starts.1 hstarts
      exact (hseen primary hdue).2 (hsettled primary pending hat hdue)
  | _ => exact Iff.rfl

end Cluster

/-- **Only nodes seen not streaming are rebuilt, where what is due is settled.**
In a run of deep checks and moves of the manager from the start of the process,
every rebuild is of a node whose last successful check found it in recovery
without a WAL receiver if and only if every node whose rebuild is due has been
asked over the admin session and, if it streams, has done so for the dwell. -/
theorem rebuilt_after_seen_not_streaming (cfg : Settings) (owned leader : Bool) (clock : Int)
    (policy : ReattachPolicy) (servers : List (Bytes × Bool × Role)) (events : List Event) :
    Along (Cluster.step cfg) (RebuildsSeen cfg) (.start owned leader clock policy servers) events ↔
      Along (Cluster.step cfg) (SettledWhenDue cfg) (.start owned leader clock policy servers)
        events := by
  have hstart := Cluster.Recorded.start owned leader clock policy servers
  constructor
  · exact Along.of_invariant (fun c e hc => (hc.rebuildsSeen_iff e).1)
      (fun c e c' hc _ hstep => hc.step hstep) hstart
  · exact Along.of_invariant (fun c e hc => (hc.rebuildsSeen_iff e).2)
      (fun c e c' hc _ hstep => hc.step hstep) hstart

def pair : Cluster :=
  .start true true 0 (setAutoReattach true 0)
    [(ascii "db1", true, .primary), (ascii "db2", true, .replica)]

def checksReplica (streaming : Bool) (now : Int) : List Event :=
  [.check 1 ⟨some ⟨true, 0, true, streaming⟩, true, none, none⟩, .store 1 now, .store 1 now,
    .store 1 now, .store 1 now]

def ticks (now : Int) : List Event := [.manager .tick, .look now, .compare 0 now now]

theorem streaming_replica_rebuilt :
    (∃ c n t, run (Cluster.step automatic) pair (ticks 5) = some c ∧
      c.nodes[1]? = some n ∧ n.report = none ∧
      ¬RebuildsSeen automatic c (.compare 1 5 5) ∧
      c.step automatic (.compare 1 5 5) = some t ∧
      t.manager.rejoining = [(ascii "db2", .starting)]) ∧
    ∃ c n t, run (Cluster.step automatic) pair
        (checksReplica false 30 ++ checksReplica true 60 ++ ticks 65) = some c ∧
      c.nodes[1]? = some n ∧ n.report = some ⟨true, 0, true, true⟩ ∧
      ¬RebuildsSeen automatic c (.compare 1 65 65) ∧
      c.step automatic (.compare 1 65 65) = some t ∧
      t.manager.rejoining = [(ascii "db2", .starting)] := by
  have hfails : ∀ (c : Cluster) (n : Node) (now : Int), c.nodes[1]? = some n →
      c.Rebuilds automatic n now now → ¬n.SeenNotStreaming →
      ¬RebuildsSeen automatic c (.compare 1 now now) :=
    fun c n now hn hrebuilds hnot h => hnot (h n hn hrebuilds)
  refine ⟨⟨_, _, _, rfl, rfl, rfl, ?_, rfl, by decide +kernel⟩,
    ⟨_, _, _, rfl, rfl, rfl, ?_, rfl, by decide +kernel⟩⟩
  · refine hfails _ _ 5 rfl ⟨ascii "db1", [], rfl, by decide +kernel⟩ ?_
    rintro ⟨status, hreport, _⟩
    cases hreport
  · refine hfails _ _ 65 rfl ⟨ascii "db1", [], rfl, by decide +kernel⟩ ?_
    rintro ⟨_, hreport, _, hnone⟩
    cases hreport
    cases hnone

end Pontus.Orchestration
