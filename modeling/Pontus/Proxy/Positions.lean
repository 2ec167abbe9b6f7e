import Pontus.Proxy.HandleClient

/-!
# Read your writes

After a write the gateway asks the primary for its write position and keeps it
with the session; a read that is sent to a replica waits there for the replica
to reach the position.  `Routed` puts beside the gateway what that is about:
which backends are replicas, how far the primary has written, and for every
session whether the connection it holds was taken from a replica and for which
position it was waited there.
-/

namespace Pontus.Proxy

open Lib Protocol Pool

def hexDigit (b : UInt8) : Nat :=
  if '0'.toUInt8 ≤ b ∧ b ≤ '9'.toUInt8 then (b - '0'.toUInt8).toNat
  else if 'a'.toUInt8 ≤ b ∧ b ≤ 'f'.toUInt8 then (b - 'a'.toUInt8).toNat + 10
  else (b - 'A'.toUInt8).toNat + 10

def hexValue (digits : Bytes) : Nat := digits.foldl (fun n d => 16 * n + hexDigit d) 0

/-- The position a `pg_lsn` stands for: two words in hexadecimal, with a slash
between them. -/
def lsnValue (lsn : Bytes) : Nat :=
  match cutAt '/'.toUInt8 lsn with
  | some (high, low) => hexValue high * 2 ^ 32 + hexValue low
  | none => hexValue lsn

example : lsnValue (ascii "1/A0") = 2 ^ 32 + 160 := by decide

structure Route where
  replica : Bool
  waited : Option Bytes
  deriving DecidableEq

structure Routed where
  sys : System
  role : Bytes → Bool
  route : Nat → Route
  written : Nat

def Routed.init (role : Bytes → Bool) : Routed := ⟨.init, role, fun _ => ⟨false, none⟩, 0⟩

inductive RoutedAction
  | gateway (a : Action)
  | promote (backend : Bytes) (replica : Bool)
  | write (bytes : Nat)

def Phase.firstTry : Phase → Bool
  | .acquiring _ retry => !retry
  | .acquiringHome _ retry => !retry
  | _ => false

namespace Routed

def position (r : Routed) (i : Nat) : Bytes := (r.sys.procs i).session.state.lastLSN

def admits (r : Routed) : Action → Bool
  | .act _ (.acquire env) => env.picked.all fun (backend, _) => env.replica == r.role backend
  | .act i (.acquireHome _ env) =>
    (r.sys.procs i).session.homeBackend.all fun home => env.replica == r.role home
  | _ => true

def waitedFor (r : Routed) (i : Nat) (env : AcquireEnv) : Option Bytes :=
  if (r.sys.procs i).phase.firstTry && (r.sys.procs i).session.queryInfo.readOnly &&
      r.position i ≠ [] && env.replica && waitLSN env.rounds == some true then
    some (r.position i)
  else none

/-- The connection the session has got by this move. -/
def taken (r : Routed) (i : Nat) (backend : Option Bytes) : Act → Route
  | .acquire env => ⟨env.replica, r.waitedFor i env⟩
  | .acquireHome _ env => ⟨env.replica, r.waitedFor i env⟩
  | _ => ⟨backend.any r.role, none⟩

def routes (r : Routed) (sys : System) : Action → Nat → Route
  | .act i a =>
    if (r.sys.procs i).session.server = none ∧ (sys.procs i).session.server ≠ none then
      Function.update r.route i (r.taken i (sys.procs i).session.backend a)
    else r.route
  | _ => r.route

def step (cfg : Config) (r : Routed) : RoutedAction → Option Routed
  | .gateway a =>
    if r.admits a then
      (Pontus.Proxy.step cfg r.sys a).map fun sys => { r with sys := sys, route := r.routes sys a }
    else none
  | .promote backend replica => some { r with role := Function.update r.role backend replica }
  | .write bytes => some { r with written := r.written + bytes }

end Routed

/-- The connection on which the write position is asked for while this request
is served, as it is when the question is written; `none` where it is not asked. -/
def queriesLSN (cfg : Config) (s : System) (i : Nat) (env : ServeEnv) : Option PoolConn :=
  match (s.procs i).phase, (s.procs i).session.server with
  | .serving led _, some c =>
    match replaySession i (s.procs i).session (s.conns c) env with
    | some replayed =>
      if replayed.succeeded && env.writeError.isNone then
        (forwardReply cfg i (s.procs i).session led replayed.conn env).bind fun a =>
          if !a.session.queryInfo.readOnly && a.response.err.isNone then some a.conn else none
      else none
    | none => none
  | _, _ => none

end Pontus.Proxy
