import Pontus.Protocol.Startup
import Pontus.Proxy.ReadRequest
import Pontus.Proxy.Session

/-!
# The gateway as a whole

Client sessions, each served by a goroutine of its own, the connections of the
pools, and the table of requests in flight.  A session's code is cut where it
touches what the sessions share; between two cuts it works on its own record
and on at most one connection, the one it holds.  `Change` is what such a piece
does, `System.apply` carries it out.

The log is no part of the program.  It records what is written, handed over and
given back, for the theorems to speak about.
-/

namespace Pontus.Proxy

open Lib Protocol Pool

structure Led where
  call : Nat
  key : Bytes
  deriving DecidableEq

inductive Phase
  | fresh
  /-- in the loop of `openSession`, with this many attempts left -/
  | opening (req : StartupRequest) (attempts : Nat)
  | waiting
  | received
  /-- at the top of `executeRequest` -/
  | entering
  | following (call : Nat)
  /-- in `acquireForSession`; `retry` after a replica did not catch up -/
  | acquiring (led : Option Led) (retry : Bool)
  /-- in `acquireForSession`, falling back to the home backend -/
  | acquiringHome (led : Option Led) (retry : Bool)
  /-- holds a connection for the request; `acquired` in this very call -/
  | serving (led : Option Led) (acquired : Bool)
  /-- `executeRequest` returns -/
  | returning (led : Option Led) (failed : Bool)
  | concluding (failed : Bool)
  | closed
  deriving DecidableEq

structure Proc where
  session : Session
  phase : Phase
  batchOpen : Bool
  deriving DecidableEq

def Proc.new : Proc := ⟨.new, .fresh, false⟩

def Session.identity (s : Session) : Identity := ⟨s.state.user, s.state.database⟩

inductive Event
  /-- `executeRequest` was entered -/
  | entered (session : Nat)
  /-- `openSession` or `acquireForSession` handed a connection over -/
  | handed (session conn : Nat) (identity : Identity) (state : PoolConn)
  | replayed (session conn : Nat) (messages : List Bytes) (txState : TransactionState)
      (batchOpen : Bool)
  | wrote (session conn : Nat) (data : Bytes)
  /-- `proxyResponse` returned without error, having forwarded `reply` -/
  | replied (session : Nat) (call : Option Nat) (reply : Bytes)
  | shared (session call : Nat) (data : Bytes)
  /-- `Backend.Release` was called on a connection in this state -/
  | released (session conn : Nat) (state : PoolConn)
  deriving DecidableEq

def Event.session : Event → Nat
  | entered i => i
  | handed i _ _ _ => i
  | replayed i _ _ _ _ => i
  | wrote i _ _ => i
  | replied i _ _ => i
  | shared i _ _ => i
  | released i _ _ => i

structure Config where
  unicode : UnicodeTables
  hash : Bytes → Bytes
  /-- a credential store is configured: Pontus authenticates clients and
  backends itself -/
  credentials : Bool
  pooling : PoolingMode
  maxMessageBytes : Nat
  maxCaptureBytes : Int

/-- The gateway as it is set up with nothing configured but who authenticates,
for texts in ASCII. -/
def Config.initial (hash : Bytes → Bytes) (credentials : Bool) : Config :=
  ⟨.ascii, hash, credentials, .poolTransaction, defaultMaxMessageBytes, 0⟩

structure System where
  procs : Nat → Proc
  conns : Nat → PoolConn
  nextConn : Nat
  calls : Nat → InflightCall
  nextCall : Nat
  inFlight : Bytes → Option Nat
  draining : Bytes → Bool
  log : List Event

def System.init : System where
  procs _ := .new
  conns _ := .dialled ⟨[], ⟨[], []⟩⟩ (.returned .destroyed)
  nextConn := 0
  calls _ := .new
  nextCall := 0
  inFlight _ := none
  draining _ := false
  log := []

/-- What a piece of a session's code does to the system. -/
structure Change where
  proc : Proc
  conn : Option (Nat × PoolConn) := none
  call : Option (Nat × InflightCall) := none
  inFlight : Option (Bytes × Option Nat) := none
  events : List Event := []

namespace System

def setConn (s : System) (c : Nat) (conn : PoolConn) : System :=
  { s with
    conns := Function.update s.conns c conn
    nextConn := if c = s.nextConn then c + 1 else s.nextConn }

def setCall (s : System) (k : Nat) (call : InflightCall) : System :=
  { s with
    calls := Function.update s.calls k call
    nextCall := if k = s.nextCall then k + 1 else s.nextCall }

def apply (s : System) (i : Nat) (ch : Change) : System :=
  let s := match ch.conn with
    | some (c, conn) => s.setConn c conn
    | none => s
  let s := match ch.call with
    | some (k, call) => s.setCall k call
    | none => s
  let s := match ch.inFlight with
    | some (key, call) => { s with inFlight := Function.update s.inFlight key call }
    | none => s
  { s with procs := Function.update s.procs i ch.proc, log := ch.events ++ s.log }

end System

/-- Where the engine takes a connection from: a new socket, or one that was
given back to the same pool. -/
inductive Source
  | dial
  | pooled (conn : Nat)
  deriving DecidableEq

def Place.isReturned : Place → Bool
  | .held _ => false
  | .returned _ => true

namespace System

/-- `AcquireFor`: the connection handed to session `i`.  All that is asked of
the engine is that the connection was dialled by this pool. -/
def take (s : System) (i : Nat) (key : PoolKey) : Source → Option (Nat × PoolConn)
  | .dial => some (s.nextConn, .dialled key (.held i))
  | .pooled c =>
    if c < s.nextConn ∧ (s.conns c).pool = key ∧ Place.isReturned (s.conns c).place = true then
      some (c, { s.conns c with place := .held i })
    else none

def isDraining (s : System) (backend : Option Bytes) : Bool := (backend.map s.draining).getD false

end System

end Pontus.Proxy
