import Mathlib.Data.List.AList
import Pontus.Lib.Bytes
import Pontus.Lib.Run

/-!
# Routing a cancel request

A client cancels a query on a connection of its own, with the process id and
the secret it was given at startup.  Nothing in that packet says which backend
the process is on; `CancelRegistry` remembers it, by process id, for as long as
the session lives.
-/

namespace Pontus.Protocol

open Lib

structure CancelKey where
  processID : Nat
  secret : Nat
  raw : Bytes
  deriving DecidableEq

def cancelKeyLen : Nat := 16

def parseCancelKey (packet : Bytes) : Option CancelKey :=
  match packet.take cancelKeyLen with
  | [_, _, _, _, _, _, _, _, p₀, p₁, p₂, p₃, s₀, s₁, s₂, s₃] =>
    some ⟨beU32 p₀ p₁ p₂ p₃, beU32 s₀ s₁ s₂ s₃, packet.take cancelKeyLen⟩
  | _ => none

def backendKeyProcessID : Bytes → Option Nat
  | p₀ :: p₁ :: p₂ :: p₃ :: _ :: _ :: _ :: _ :: _ => some (beU32 p₀ p₁ p₂ p₃)
  | _ => none

/-- The packet a client cancels with, given its BackendKeyData. -/
def cancelRequest (key : Bytes) : Bytes := putU32 16 ++ putU32 80877102 ++ key

end Pontus.Protocol

namespace Pontus.Proxy

open Lib Protocol

structure CancelRegistry where
  byPID : AList fun _ : Nat => Bytes

namespace CancelRegistry

def new : CancelRegistry := ⟨∅⟩

/-- What is remembered under: nothing for a short key or an unknown address. -/
def pidOf (backendKey addr : Bytes) : Option Nat :=
  if addr = [] then none else backendKeyProcessID backendKey

/-- Record where a session's backend process is; 0 when there is nothing to be
forgotten. -/
def remember (r : CancelRegistry) (backendKey addr : Bytes) : CancelRegistry × Nat :=
  match pidOf backendKey addr with
  | none => (r, 0)
  | some pid => (⟨r.byPID.insert pid addr⟩, pid)

def forget (r : CancelRegistry) (pid : Nat) : CancelRegistry :=
  if pid = 0 then r else ⟨r.byPID.erase pid⟩

def addrFor (r : CancelRegistry) (pid : Nat) : Option Bytes := r.byPID.lookup pid

end CancelRegistry

inductive CancelError
  | noKey
  | dial (addr : Bytes)
  | deadline
  | send (addr : Bytes)
  deriving DecidableEq

structure CancelEnv where
  dials : Bool
  setsDeadline : Bool
  writes : Bool

/-- Where the packet is forwarded to, and what is forwarded.  A process id
nobody knows is dropped without a word. -/
def routeCancel (r : CancelRegistry) (key : Option CancelKey) (env : CancelEnv) :
    Except CancelError (Option (Bytes × Bytes)) :=
  match key with
  | none => .error .noKey
  | some key =>
    match r.addrFor key.processID with
    | none => .ok none
    | some addr =>
      if !env.dials then .error (.dial addr)
      else if !env.setsDeadline then .error .deadline
      else if !env.writes then .error (.send addr)
      else .ok (some (addr, key.raw))

/-- A live session: the key its client was given, the backend that issued it,
and what `handleClient` forgets as it returns. -/
structure Registered where
  key : Bytes
  addr : Bytes
  cancelPID : Nat
  deriving DecidableEq

/-- The process id the session's key is remembered under. -/
def Registered.pid (r : Registered) : Option Nat := CancelRegistry.pidOf r.key r.addr

structure CancelSessions where
  registry : CancelRegistry
  live : AList fun _ : Nat => Registered

namespace CancelSessions

def init : CancelSessions := ⟨.new, ∅⟩

def opened (s : CancelSessions) (i : Nat) (key addr : Bytes) : CancelSessions :=
  let (registry, cancelPID) := s.registry.remember key addr
  ⟨registry, s.live.insert i ⟨key, addr, cancelPID⟩⟩

def closed (s : CancelSessions) (i : Nat) : CancelSessions :=
  match s.live.lookup i with
  | none => s
  | some r => ⟨s.registry.forget r.cancelPID, s.live.erase i⟩

end CancelSessions

inductive CancelEvent
  | opened (session : Nat) (key addr : Bytes)
  | closed (session : Nat)
  deriving DecidableEq

def CancelSessions.step (s : CancelSessions) : CancelEvent → Option CancelSessions
  | .opened i key addr => if i ∈ s.live then none else some (s.opened i key addr)
  | .closed i => if i ∈ s.live then some (s.closed i) else none

end Pontus.Proxy
