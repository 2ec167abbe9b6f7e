import Pontus.Lib.Run
import Pontus.Proxy.ExecuteRequest
import Pontus.Proxy.OpenSession

/-!
# The session loop

`handleClient` reads a request, sends it through the middleware and gives the
connection back between transactions; the rest of its code is `openSession` and
`executeRequest`.  `step` is one move of the whole gateway, and the runs of
`step` are every interleaving of any number of sessions.
-/

namespace Pontus.Proxy

open Lib Protocol Pool

/-- `releaseToPool` as the session ends: the connection is marked for a reset,
whatever state it is in. -/
def leaveSession (s : System) (i : Nat) (p : Proc) : Change :=
  match p.session.backend, p.session.server with
  | some backend, some c =>
    let conn := (s.conns c).markDirty
    { proc := p.close
      conn := some (c, conn.release (s.draining backend))
      events := [.released i c conn] }
  | _, _ => { proc := p.close }

def receive (cfg : Config) (s : System) (i : Nat) (p : Proc) (script : List ClientRead) :
    Option Change :=
  if p.phase ≠ .waiting then none
  else
    match readRequest cfg.maxMessageBytes script with
    | none => none
    | some (_, some _) => some (leaveSession s i p)
    | some (data, none) =>
      if cfg.credentials && isTerminate data then some (leaveSession s i p)
      else
        let session := p.session.receive cfg.unicode data
        let refused := cfg.pooling.rejectsTransactions && session.queryInfo.inTransaction
        some { proc := { p with
          session := session
          phase := if refused then .waiting else .received } }

/-- The middleware in front of `executeRequest`: what the rate limiters said,
whether the cache is on, what it has under the key, and whether the client took
a stored reply. -/
structure MiddlewareEnv where
  refused : Bool
  cacheEnabled : Bool
  entry : Option CacheEntry
  writeFails : Bool

def middleware (cfg : Config) (p : Proc) (env : MiddlewareEnv) : Option Change :=
  if p.phase ≠ .received then none
  else if env.refused then some { proc := { p with phase := .concluding true } }
  else
    match cacheHandle cfg.hash env.cacheEnabled (fun _ => env.entry) p.session with
    | .hit _ =>
      some { proc := { p with
        phase := .concluding env.writeFails
        batchOpen := batchOpenAfter p.batchOpen p.session.data } }
    | .next session | .write session | .miss _ session =>
      some { proc := { p with session := session, phase := .entering } }

/-- Behind the middleware chain.  An error ends the session and gives the
connection back as it is. -/
def conclude (cfg : Config) (s : System) (i : Nat) (p : Proc) : Option Change :=
  match p.phase with
  | .concluding true =>
    match p.session.server with
    | some c =>
      some { proc := p.close
             conn := some (c, (s.conns c).release (s.isDraining p.session.backend))
             events := [.released i c (s.conns c)] }
    | none => some { proc := p.close }
  | .concluding false =>
    match p.session.server with
    | some c =>
      if cfg.pooling.shouldRelease p.session.state (isPinned p.session.state) then
        let conn := if cfg.credentials then (s.conns c).markDirty else s.conns c
        some { proc := { p with
                session := { p.session with server := none, backend := none }
                phase := .waiting }
               conn := some (c, conn.release (s.isDraining p.session.backend))
               events := [.released i c conn] }
      else some { proc := { p with phase := .waiting } }
    | none => some { proc := { p with phase := .waiting } }
  | _ => none

inductive Act
  | connect (env : ConnectEnv)
  | handshake (env : HandshakeEnv)
  | receive (script : List ClientRead)
  | middleware (env : MiddlewareEnv)
  | enter
  | follow (writeFails : Bool)
  | acquire (env : AcquireEnv)
  | acquireHome (source : Option Source) (env : AcquireEnv)
  | serve (env : ServeEnv)
  | finish
  | conclude

/-- Whose pool a move takes a connection from, and where the connection comes
from. -/
def Act.takes (p : Proc) : Act → Option (Bytes × Source)
  | .handshake env => env.picked
  | .acquire env => env.picked
  | .acquireHome source _ => p.session.homeBackend.bind fun home => source.map (home, ·)
  | _ => none

def Act.completesStartup : Act → Bool
  | .handshake env => env.started
  | .acquire env => env.authenticated
  | _ => false

def Act.startupPacket (cfg : Config) (p : Proc) : Act → Option Bytes
  | .handshake _ =>
    match p.phase with
    | .opening req _ =>
      some (if cfg.credentials then writeStartup req.user req.database else req.raw)
    | _ => none
  | .acquire _ =>
    if cfg.credentials then some (writeStartup p.session.state.user p.session.state.database)
    else none
  | _ => none

def change (cfg : Config) (s : System) (i : Nat) : Act → Option Change
  | .connect env => connect cfg (s.procs i) env
  | .handshake env => handshake cfg s i (s.procs i) env
  | .receive script => receive cfg s i (s.procs i) script
  | .middleware env => middleware cfg (s.procs i) env
  | .enter => enter cfg s i (s.procs i)
  | .follow writeFails => follow s i (s.procs i) writeFails
  | .acquire env => acquire cfg s i (s.procs i) env
  | .acquireHome source env => acquireHome s i (s.procs i) source env
  | .serve env => serve cfg s i (s.procs i) env
  | .finish => finish s (s.procs i)
  | .conclude => conclude cfg s i (s.procs i)

/-- A session moves, the engine resets a connection it was given back, or a
backend starts or stops draining. -/
inductive Action
  | act (session : Nat) (a : Act)
  | recycle (conn : Nat) (rollback discard : RoundTrip)
  | drain (backend : Bytes) (draining : Bool)

def step (cfg : Config) (s : System) : Action → Option System
  | .act i a => (change cfg s i a).map (s.apply i)
  | .recycle c rollback discard =>
    if c < s.nextConn ∧ (s.conns c).place = .returned .cleanup then
      ((s.conns c).recycle rollback discard).map (s.setConn c)
    else none
  | .drain backend draining =>
    some { s with draining := Function.update s.draining backend draining }

def completed (status : UInt8) : List Frame :=
  [⟨'C'.toUInt8, ascii "OK" ++ [0], by decide⟩, ⟨'Z'.toUInt8, [status], by simp⟩]

def askedOnce (reply : List Frame) : RoundTrip := ⟨none, reply, [⟨Frame.encodeAll reply, none⟩]⟩

/-- A request whose reply arrives in one read and leaves nothing behind, with
nothing to be replayed. -/
def ServeEnv.undisturbed (reply : List Frame) (status : UInt8) : ServeEnv where
  varOrder := []
  stmtOrder := []
  replays := []
  writeError := none
  reply := reply
  forgets := []
  effects := []
  setDeadline := none
  relay := none
  passes := [⟨Frame.encodeAll reply, none, none⟩]
  lsn := askedOnce (completed status)

def appStartup : Bytes :=
  startupPacket (putU32 196608) [(ascii "user", ascii "app"), (ascii "database", ascii "app")]

def opens (i : Nat) (packet backend : Bytes) (source : Source) : List Action :=
  [.act i (.connect ⟨packet, [], true⟩), .act i (.handshake ⟨some (backend, source), true, true⟩)]

def sends (i : Nat) (data : Bytes) : List Action :=
  [.act i (.receive [⟨data, none⟩]), .act i (.middleware ⟨false, false, none, false⟩),
    .act i .enter]

/-- Session `i` takes a connection of the primary. -/
def acquires (i : Nat) (backend : Bytes) (source : Source) : List Action :=
  [.act i (.acquire ⟨some (backend, source), true, true, false, []⟩)]

/-- Session `i`'s request is served, and its call returns. -/
def serves (i : Nat) (env : ServeEnv) : List Action :=
  [.act i (.serve env), .act i .finish, .act i .conclude]

def resets (c : Nat) : List Action :=
  [.recycle c (askedOnce (completed 'I'.toUInt8)) (askedOnce (completed 'I'.toUInt8))]

/-- Session `i` begins on a connection of its own, asks once and gives it back. -/
def asksOnce (i : Nat) : List Action :=
  opens i appStartup (ascii "db") .dial ++ sends i (simpleQuery (ascii "SELECT 1")) ++
    serves i (.undisturbed (completed 'I'.toUInt8) 'I'.toUInt8)

/-! ## The packets the clients came with

No part of the program: for every client that was let in, its session and what
it sent. -/

structure Opening where
  session : Nat
  identity : Identity
  packet : Bytes
  deriving DecidableEq

structure Opened where
  sys : System
  openings : List Opening

def Opened.init : Opened := ⟨.init, []⟩

def Action.opening (cfg : Config) : Action → Option Opening
  | .act i (.connect env) =>
    if env.accepted then
      ((readStartup cfg.unicode env.packet).bind (resolveDatabase env.routes)).map fun req =>
        ⟨i, ⟨req.user, req.database⟩, env.packet⟩
    else none
  | _ => none

def Opened.step (cfg : Config) (r : Opened) (a : Action) : Option Opened :=
  (Pontus.Proxy.step cfg r.sys a).map fun sys => ⟨sys, (a.opening cfg).toList ++ r.openings⟩

/-- Every startup packet the backend was sent on the connection sets what
`packet` sets. -/
def InForceOn (packet : Bytes) (conn : PoolConn) : Prop :=
  conn.wire.startups ≠ [] ∧ ∀ started ∈ conn.wire.startups, SameParams started packet

/-- Strings whose length fits the eight bytes it is written in. -/
structure Session.Sized (s : Session) : Prop where
  backend : (s.backend.getD []).length < 2 ^ 64
  database : s.state.database.length < 2 ^ 64
  user : s.state.user.length < 2 ^ 64

end Pontus.Proxy
