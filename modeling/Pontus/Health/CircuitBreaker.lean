import Pontus.Lib.Run

/-!
# The circuit breaker

Calls to a backend go through a breaker: after enough failures it opens and
refuses them, and after a time without a failure it lets calls through to find
out whether the backend is back.  A call holds the lock when it asks whether it
may run and when it records how it ended, not while its function runs, so the
calls overlap.
-/

namespace Pontus.Health

open Lib

inductive State
  | stateClosed
  | stateOpen
  | stateHalfOpen
  deriving DecidableEq

structure CircuitBreaker where
  state : State
  failures : Int
  threshold : Int
  resetTimeout : Int
  lastFailure : Int
  deriving DecidableEq

namespace CircuitBreaker

/-- The breaker of a new backend.  Nothing reads the time of a failure before
there is one. -/
def newCircuitBreaker (threshold resetTimeout : Int) : CircuitBreaker :=
  ⟨.stateClosed, 0, threshold, resetTimeout, 0⟩

/-- The time that must pass without a failure has passed. -/
def expired (b : CircuitBreaker) (now : Int) : Bool := now - b.lastFailure > b.resetTimeout

def canCall (b : CircuitBreaker) (now : Int) : Bool × CircuitBreaker :=
  match b.state with
  | .stateClosed => (true, b)
  | .stateOpen => if b.expired now then (true, { b with state := .stateHalfOpen }) else (false, b)
  | .stateHalfOpen => (true, b)

def recordFailure (b : CircuitBreaker) (now : Int) : CircuitBreaker :=
  let b := { b with lastFailure := now }
  if b.state = .stateHalfOpen then { b with state := .stateOpen }
  else
    let b := { b with failures := b.failures + 1 }
    if b.failures ≥ b.threshold then { b with state := .stateOpen } else b

def recordSuccess (b : CircuitBreaker) : CircuitBreaker :=
  { b with failures := 0, state := .stateClosed }

/-- A call that comes now would be let through to try the backend: the breaker
is half open, or it is open and becomes half open. -/
def probes (b : CircuitBreaker) (now : Int) : Bool :=
  match b.state with
  | .stateClosed => false
  | .stateOpen => b.expired now
  | .stateHalfOpen => true

end CircuitBreaker

inductive Call
  | refused
  | running (probe : Bool)
  | done
  deriving DecidableEq

/-- A breaker and the calls that have come to it.  Two fields only record what
has happened. -/
structure Calls where
  breaker : CircuitBreaker
  clock : Int
  calls : List Call
  /-- it was opened, and since then no call has come after the time that must
  pass without a failure -/
  opened : Bool
  /-- a success was recorded since a failure last left it open -/
  succeeded : Bool
  deriving DecidableEq

inductive CallAction
  | call
  | finish (i : Nat) (ok : Bool)
  | wait (d : Nat)
  deriving DecidableEq

namespace Calls

def start (threshold resetTimeout clock : Int) : Calls :=
  ⟨.newCircuitBreaker threshold resetTimeout, clock, [], false, false⟩

def arrive (s : Calls) : Calls :=
  let (allowed, b) := s.breaker.canCall s.clock
  { s with
    breaker := b
    calls := s.calls ++ [if allowed then .running (s.breaker.probes s.clock) else .refused]
    opened := s.opened && !s.breaker.expired s.clock }

def record (s : Calls) (i : Nat) (ok : Bool) : Calls :=
  if ok then
    { s with breaker := s.breaker.recordSuccess, calls := s.calls.set i .done, succeeded := true }
  else
    let b := s.breaker.recordFailure s.clock
    { s with
      breaker := b
      calls := s.calls.set i .done
      opened := s.opened || decide (b.state = .stateOpen)
      succeeded := s.succeeded && decide (b.state ≠ .stateOpen) }

def step (s : Calls) : CallAction → Option Calls
  | .call => some s.arrive
  | .finish i ok =>
    match s.calls[i]? with
    | some (.running _) => some (s.record i ok)
    | _ => none
  | .wait d => some { s with clock := s.clock + d }

/-- How many functions run that were let through as a probe. -/
def probing (s : Calls) : Nat := s.calls.count (.running true)

/-- The breaker was opened, and the time that must pass without a failure has
not passed since the latest one. -/
def shut (s : Calls) : Bool := s.opened && !s.breaker.expired s.clock

end Calls

end Pontus.Health
