import Pontus.Proxy.CancelRegistry
import Pontus.Proxy.Runtime

/-!
# Cancel requests beside the sessions

A client is given the BackendKeyData of the connection its startup was completed
on, and quotes it to have its query cancelled.  The registry then knows where
the process is, until the session ends.  The connection meanwhile goes back to
the pool and carries other sessions.

`keyOf` is the key data of each connection's backend process.  `given` is no
part of the program: it remembers which session's client was given which key.
-/

namespace Pontus.Proxy

open Lib Protocol Pool

structure Cancelling where
  sys : System
  cancels : CancelSessions
  given : List (Nat × Bytes)

def openedOn (s : System) (i : Nat) (a : Act) (ch : Change) : Option (Nat × Bytes) :=
  match a, takenBy s i a with
  | .handshake _, some (backend, c, _) =>
    if ch.proc.phase = .waiting then some (c, backend) else none
  | _, _ => none

/-- The session's statement is at the backend of the connection, or on its way
there. -/
def Proc.executesOn (p : Proc) (c : Nat) : Bool :=
  match p.phase with
  | .serving _ _ => p.session.server == some c
  | _ => false

namespace Cancelling

def init : Cancelling := ⟨.init, .init, []⟩

/-- Session `i` is open: its client was given `key`, and `handleClient` remembers
where the process is. -/
def opened (r : Cancelling) (i : Nat) (key addr : Bytes) : Cancelling :=
  { r with cancels := r.cancels.opened i key addr, given := (i, key) :: r.given }

def step (cfg : Config) (keyOf : Nat → Bytes) (r : Cancelling) : Action → Option Cancelling
  | .act i a =>
    (change cfg r.sys i a).map fun ch =>
      let r := match openedOn r.sys i a ch with
        | some (c, backend) => r.opened i (keyOf c) backend
        | none =>
          -- what `handleClient` deferred runs as it returns
          if ch.proc.phase = Phase.closed then { r with cancels := r.cancels.closed i } else r
      { r with sys := r.sys.apply i ch }
  | a => (Pontus.Proxy.step cfg r.sys a).map fun sys => { r with sys := sys }

end Cancelling

end Pontus.Proxy
