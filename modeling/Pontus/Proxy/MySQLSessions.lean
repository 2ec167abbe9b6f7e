import Pontus.Lib.Run
import Pontus.Protocol.MySQL
import Pontus.Proxy.System

/-!
# MySQL sessions

A MySQL server speaks first, so the gateway takes a connection before it knows
who the client is, and relays the handshake over it without reading it.  The
sessions share the connections of their pools between transactions; a session's
code is cut where it takes a connection or gives one back, and the runs of
`step` are every interleaving.
-/

namespace Pontus.Proxy.MySQL

open Lib Protocol Pool
open Protocol.TransactionState

def responseEndFor (_ : Bytes) : ResponseEnd := ⟨true, []⟩

/-- Error 1290, ER_OPTION_PREVENTS_STATEMENT, as text. -/
def isReadOnlyError (data : Bytes) : Bool := containsBytes (ascii "1290") data

def proxyResponse (setDeadline relay : Option NetError) (capture : Option ResponseCapture)
    (readOnly : Bool) (request : Bytes) (passes : List Pass) : Option Response :=
  match setDeadline with
  | some err => some ⟨stateError, false, some err, none, capture, 0, [], passes⟩
  | none =>
    if readOnly && capture.isNone then
      (proxyResponseFastPath relay (responseEndFor request) passes).toOption
    else
      (responseLoop isReadOnlyError relay (responseEndFor request)
        ⟨newReplyScanner (responseEndFor request), capture, false, false, 0, []⟩ passes).toOption

structure Relay where
  read : Except NetError Bytes
  write : Option NetError

def Relay.forward (what : String) (r : Relay) : Except (Bytes × NetError) Bytes :=
  match r.read with
  | .error err => .error (ascii ("failed to read " ++ what), err)
  | .ok data =>
    match r.write with
    | some err => .error (ascii ("failed to forward " ++ what), err)
    | none => .ok data

structure HandshakeEnv where
  greeting : Relay
  response : Relay
  result : Relay

structure Exchange where
  response : Bytes
  result : Bytes
  deriving DecidableEq

def handshake (env : HandshakeEnv) : Except (Bytes × NetError) Exchange := do
  let _ ← env.greeting.forward "server handshake"
  let response ← env.response.forward "client response"
  let result ← env.result.forward "auth result"
  return ⟨response, result⟩

/-- Whom the server authenticated: the name behind 32 bytes of capabilities,
limits and filler, if the answer is an OK packet. -/
def Exchange.user (e : Exchange) : Option Bytes :=
  if e.result[4]? = some 0 then some ((e.response.drop 36).takeWhile (· ≠ 0)) else none

inductive Phase
  /-- in the loop of `openSession`, with this many attempts left -/
  | opening (attempts : Nat)
  | waiting
  | acquiring
  | acquiringHome
  | serving
  | closed
  deriving DecidableEq

structure Session where
  /-- `state.User` and `state.Database` -/
  identity : Identity
  phase : Phase
  backend : Option Bytes
  server : Option Nat
  homeBackend : Option Bytes
  own : Option Exchange

structure Conn where
  conn : Pool.Conn
  pool : PoolKey
  place : Place
  carried : Option Exchange

/-- A connection was handed to a session by `acquireForSession`: the handshake
of the session and the one the connection carried. -/
structure Handed where
  own : Option Exchange
  carried : Option Exchange
  deriving DecidableEq

structure System where
  sessions : Nat → Session
  conns : Nat → Conn
  nextConn : Nat
  log : List Handed

def System.init : System where
  sessions _ := ⟨⟨[], []⟩, .opening 8, none, none, none, none⟩
  conns _ := ⟨.new, ⟨[], ⟨[], []⟩⟩, .returned .destroyed, none⟩
  nextConn := 0
  log := []

/-- `AcquireFor`: a new connection, or one that lies idle in the same pool. -/
def System.take (s : System) (i : Nat) (key : PoolKey) : Source → Option (Nat × Conn)
  | .dial => some (s.nextConn, ⟨.new, key, .held i, none⟩)
  | .pooled c =>
    if (s.conns c).pool = key ∧ (s.conns c).place = .returned .idle then
      some (c, { s.conns c with place := .held i })
    else none

def Conn.release (c : Conn) (draining : Bool) : Conn :=
  let conn := if draining then c.conn.markBroken else c.conn
  { c with conn := conn, place := .returned conn.fate }

def Conn.record (c : Conn) (f : Pool.Conn → Pool.Conn) : Conn := { c with conn := f c.conn }

def Session.close (p : Session) : Session := { p with server := none, phase := .closed }

/-- What the network does while a request is served.  `writeFails` when the
session cannot be rebuilt on the connection or the request not be written. -/
structure ServeEnv where
  writeFails : Bool
  setDeadline : Option NetError
  relay : Option NetError
  capture : Option ResponseCapture
  readOnly : Bool
  data : Bytes
  passes : List Pass

structure Change where
  session : Session
  conn : Option (Nat × Conn) := none
  handed : List Handed := []

section
variable (credentials draining : Bool) (s : System) (i : Nat) (p : Session)

/-- One attempt of `openSession`.  A connection past its handshake cannot carry
another; one that completes it is ready, and is recorded as opened for the
names in the session's state. -/
def attempt (picked : Option (Bytes × Source)) (env : HandshakeEnv) : Option Change :=
  match p.phase, picked with
  | .opening (_ + 1), none => some { session := p.close }
  | .opening (attempts + 1), some (backend, source) =>
    (s.take i ⟨backend, p.identity⟩ source).map fun (c, conn) =>
      if conn.conn.ready then
        { session := if attempts = 0 then p.close else { p with phase := .opening attempts }
          conn := some (c, (conn.record .markBroken).release draining) }
      else
        match handshake env with
        | .error _ => { session := p.close, conn := some (c, conn.release draining) }
        | .ok exchange =>
          let conn := { conn.record (·.markReady.setIdentity p.identity) with
            carried := some exchange }
          let p := { p with
            phase := .waiting, homeBackend := some backend, own := some exchange }
          -- The session has no transaction open yet.
          if credentials then
            { session := p, conn := some (c, (conn.record .markDirty).release draining) }
          else
            { session := { p with backend := some backend, server := some c }
              conn := some (c, conn) }
  | _, _ => none

/-- A request arrives.  The middleware may refuse it, which ends the session and
gives its connection back as it is. -/
def request (refused : Bool) : Option Change :=
  match p.phase, p.server with
  | .waiting, none =>
    some { session := if refused then p.close else { p with phase := .acquiring } }
  | .waiting, some c =>
    if refused then some { session := p.close, conn := some (c, (s.conns c).release draining) }
    else some { session := { p with phase := .serving } }
  | _, _ => none

def obtained (backend : Bytes) (c : Nat) (conn : Conn) : Change where
  session := { p with phase := .serving, backend := some backend, server := some c }
  conn := some (c, conn)
  handed := [⟨p.own, conn.carried⟩]

/-- The first half of `acquireForSession`.  This handler leaves the session no
verifier, so a connection that is not ready cannot be authenticated. -/
def acquire (picked : Option (Bytes × Source)) : Option Change :=
  match p.phase, picked with
  | .acquiring, none => some { session := { p with phase := .acquiringHome } }
  | .acquiring, some (backend, source) =>
    (s.take i ⟨backend, p.identity⟩ source).map fun (c, conn) =>
      if conn.conn.ready && conn.conn.belongsTo p.identity then obtained p backend c conn
      else
        { session := { p with phase := .acquiringHome }, conn := some (c, conn.release draining) }
  | _, _ => none

def acquireHome (source : Option Source) : Option Change :=
  match p.phase, p.homeBackend, source with
  | .acquiringHome, some home, some source =>
    (s.take i ⟨home, p.identity⟩ source).map fun (c, conn) =>
      if !conn.conn.ready || !conn.conn.belongsTo p.identity then
        { session := p.close, conn := some (c, conn.release draining) }
      else obtained p home c conn
  | .acquiringHome, _, _ => some { session := p.close }
  | _, _, _ => none

/-- The request is written and its reply forwarded; the connection goes back
behind a transaction. -/
def serve (env : ServeEnv) : Option Change :=
  match p.phase, p.server with
  | .serving, some c =>
    if env.writeFails then
      some
        { session := p.close
          conn := some (c, ((s.conns c).record .markBroken).release draining) }
    else
      (proxyResponse env.setDeadline env.relay env.capture env.readOnly env.data env.passes).map
        fun r =>
        let conn := (s.conns c).record fun conn =>
          if env.passes.any (·.readError.isSome) then conn.markBroken else conn
        if r.err.isSome && !r.isReadOnlyErr then
          { session := p.close, conn := some (c, conn.release draining) }
        else if PoolingMode.poolTransaction.shouldReleaseAt r.state false then
          let conn := if credentials then conn.record .markDirty else conn
          { session := { p with phase := .waiting, backend := none, server := none }
            conn := some (c, conn.release draining) }
        else { session := { p with phase := .waiting }, conn := some (c, conn) }
  | _, _ => none

def leave : Option Change :=
  match p.phase, p.server with
  | .waiting, some c =>
    some { session := p.close, conn := some (c, ((s.conns c).record .markDirty).release draining) }
  | .waiting, none => some { session := p.close }
  | _, _ => none

end

inductive Act
  | attempt (picked : Option (Bytes × Source)) (env : HandshakeEnv)
  | request (refused : Bool)
  | acquire (picked : Option (Bytes × Source))
  | acquireHome (source : Option Source)
  | serve (env : ServeEnv)
  | leave

def change (credentials draining : Bool) (s : System) (i : Nat) : Act → Option Change
  | .attempt picked env => attempt credentials draining s i (s.sessions i) picked env
  | .request refused => request draining s (s.sessions i) refused
  | .acquire picked => acquire draining s i (s.sessions i) picked
  | .acquireHome source => acquireHome draining s i (s.sessions i) source
  | .serve env => serve credentials draining s (s.sessions i) env
  | .leave => leave draining s (s.sessions i)

def System.setConn (s : System) (c : Nat) (conn : Conn) : System :=
  { s with
    conns := Function.update s.conns c conn
    nextConn := if c = s.nextConn then c + 1 else s.nextConn }

def System.apply (s : System) (i : Nat) (ch : Change) : System :=
  let s := match ch.conn with
    | some (c, conn) => s.setConn c conn
    | none => s
  { s with sessions := Function.update s.sessions i ch.session, log := ch.handed ++ s.log }

/-- `Execute`, as far as the reset of a connection needs it: what the one read
gave must not be an ERR packet. -/
def execute (reply : Except NetError Bytes) : Bool :=
  match reply with
  | .error _ => false
  | .ok data => data[4]? != some 0xff

/-- A session moves, its backend draining or not, or the engine resets a
connection it was given back. -/
inductive Action
  | act (session : Nat) (draining : Bool) (a : Act)
  | recycle (conn : Nat) (rollback reset : Except NetError Bytes)

def step (credentials : Bool) (s : System) : Action → Option System
  | .act i draining a => (change credentials draining s i a).map (s.apply i)
  | .recycle c rollback reset =>
    if (s.conns c).place = .returned .cleanup then
      let conn := s.conns c
      some (s.setConn c (if execute rollback && execute reset then
        { conn.record (·.forgetStatements.markClean) with place := .returned .idle }
      else { conn with place := .returned .destroyed }))
    else none

end Pontus.Proxy.MySQL
