import Pontus.Lib.Run
import Pontus.Lib.RWLock

/-!
# Writers that wait for a failover

While the gateway is in failover, writers wait on a condition variable whose
lock is the read side of `failoverMu`.  Those that wake them take the write side.
A step is one use of the lock, of the condition or of the flag; the steps of any
number of calls interleave.
-/

namespace Pontus.Proxy

open Lib

inductive PauseAt
  | outside
  -- `waitWhilePaused`
  /-- the flag was set; the read lock is taken next -/
  | entering
  /-- it holds the read lock, and looks at the flag next -/
  | looping
  /-- the flag was set; `ctx.Err` is next -/
  | paused
  /-- `Wait` is next -/
  | waiting
  /-- `Wait` has registered it and releases the read lock next -/
  | registered
  | asleep
  /-- it was notified, and `Wait` takes the read lock next -/
  | waking
  | leaving
  -- `wakePaused`
  | waker
  | wakerLocked
  | wakerDone
  -- `resolveFailover`
  | resolver
  | resolving
  | stored
  | announced
  deriving DecidableEq

structure Pause (ι : Type) where
  failoverMu : RWLock ι
  inFailover : Bool
  pauseCond : List ι
  thread : ι → PauseAt
  cancelled : ι → Bool

def Pause.start {ι : Type} : Pause ι := ⟨RWLock.free, false, [], fun _ => .outside, fun _ => false⟩

inductive PauseAction (ι : Type)
  | waitWhilePaused (i : ι) (cancelled : Bool)
  /-- by the goroutine that watches a context, or by anyone else -/
  | wakePaused (i : ι)
  | resolveFailover (i : ι)
  | triggerFailover
  | cancel (i : ι)
  | next (i : ι)
  deriving DecidableEq

namespace Pause

variable {ι : Type} [DecidableEq ι]

def goto (s : Pause ι) (i : ι) (place : PauseAt) : Pause ι :=
  { s with thread := Function.update s.thread i place }

def withLock (s : Pause ι) (i : ι) (lock : Option (RWLock ι)) (place : PauseAt) :
    Option (Pause ι) :=
  lock.map fun l => { s.goto i place with failoverMu := l }

def next (s : Pause ι) (i : ι) : Option (Pause ι) :=
  match s.thread i with
  | .outside => none
  | .entering => s.withLock i (s.failoverMu.rlock i) .looping
  | .looping => some (s.goto i (if s.inFailover then .paused else .leaving))
  | .paused => some (s.goto i (if s.cancelled i then .leaving else .waiting))
  | .waiting => some { s.goto i .registered with pauseCond := i :: s.pauseCond }
  | .registered => s.withLock i (some (s.failoverMu.runlock i)) .asleep
  | .asleep => if i ∈ s.pauseCond then none else some (s.goto i .waking)
  | .waking => s.withLock i (s.failoverMu.rlock i) .looping
  | .leaving => s.withLock i (some (s.failoverMu.runlock i)) .outside
  | .waker => s.withLock i (s.failoverMu.lock i) .wakerLocked
  | .wakerLocked => some { s.goto i .wakerDone with pauseCond := [] }
  | .wakerDone => s.withLock i (some s.failoverMu.unlock) .outside
  | .resolver => s.withLock i (s.failoverMu.lock i) .resolving
  | .resolving => some { s.goto i .stored with inFailover := false }
  | .stored => some { s.goto i .announced with pauseCond := [] }
  | .announced => s.withLock i (some s.failoverMu.unlock) .outside

def step (s : Pause ι) : PauseAction ι → Option (Pause ι)
  | .waitWhilePaused i cancelled =>
    if s.thread i = .outside then
      -- A gateway that is not in failover does not touch the condition.
      some { s.goto i (if s.inFailover then .entering else .outside) with
        cancelled := Function.update s.cancelled i cancelled }
    else none
  | .wakePaused i => if s.thread i = .outside then some (s.goto i .waker) else none
  | .resolveFailover i => if s.thread i = .outside then some (s.goto i .resolver) else none
  -- `CompareAndSwap(false, true)`, without the lock
  | .triggerFailover => some { s with inFailover := true }
  | .cancel i => some { s with cancelled := Function.update s.cancelled i true }
  | .next i => s.next i

end Pause

end Pontus.Proxy
