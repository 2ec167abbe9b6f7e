import Pontus.Proxy.System

/-!
# Opening a session

`openSession` reads the client's startup packet, resolves the database it
names, and looks for a connection: up to eight times, because a connection that
cannot carry this session is destroyed and another one is asked for.
-/

namespace Pontus.Proxy

open Lib Protocol Pool

def identityAttempts : Nat := 8

/-- `resolveDatabase`: the parsed field and the raw packet change together. -/
def resolveDatabase (routes : Config.Databases) (req : StartupRequest) : Option StartupRequest :=
  if routes = [] then some req
  else
    let route := routes.resolve req.database
    if route.database = req.database then some req
    else
      (rewriteStartupDatabase req.raw route.database).map fun raw =>
        { req with raw := raw, database := route.database }

/-- The client's packet, the routing table in force, and whether the client
proved who it is and did not ask for the administration console. -/
structure ConnectEnv where
  packet : Bytes
  routes : Config.Databases
  accepted : Bool

def Proc.close (p : Proc) : Proc :=
  { p with session := { p.session with server := none }, phase := .closed }

/-- From the client's first byte to the choice of a backend. -/
def connect (cfg : Config) (p : Proc) (env : ConnectEnv) : Option Change :=
  if p.phase ≠ .fresh ∨ env.routes.validate cfg.unicode ≠ none then none
  else
    match (readStartup cfg.unicode env.packet).bind (resolveDatabase env.routes) with
    | none => some { proc := p.close }
    | some req =>
      if !env.accepted then some { proc := p.close }
      else
        let state := { p.session.state with user := req.user, database := req.database }
        some { proc := { p with
          session := { p.session with state := state }
          phase := .opening req identityAttempts } }

inductive OpenOutcome
  | completed
  /-- the connection cannot carry this session; destroy it and try another -/
  | wrongConnection
  | failed
  deriving DecidableEq

/-- Which backend and connection the attempt got, whether the backend completed
its startup exchange, and whether the client took the rest. -/
structure HandshakeEnv where
  picked : Option (Bytes × Source)
  started : Bool
  completed : Bool

/-- `openAuthenticatedBackend` when Pontus authenticates, `CompleteHandshake`
when it passes the client's packet through. -/
def openBackend (cfg : Config) (req : StartupRequest) (conn : PoolConn) (env : HandshakeEnv) :
    PoolConn × OpenOutcome :=
  let outcome := if env.started && env.completed then OpenOutcome.completed else .failed
  if !cfg.credentials then
    -- A startup packet down a connection past its startup would kill it.
    if conn.conn.ready then (conn, .wrongConnection)
    else ({ conn with wire := conn.wire.startup req.raw env.started }, outcome)
  else if conn.conn.ready then
    if !conn.conn.belongsTo ⟨req.user, req.database⟩ then (conn, .wrongConnection)
    else (conn, if env.completed then .completed else .failed)
  else
    ({ conn with wire := conn.wire.startup (writeStartup req.user req.database) env.started },
      outcome)

/-- The connection carries the session: `openSession` returns it, and
`handleClient` gives it back at once when it can authenticate another. -/
def sessionOpened (cfg : Config) (s : System) (i : Nat) (p : Proc) (backend : Bytes) (c : Nat)
    (conn : PoolConn) : Change :=
  let identity := p.session.identity
  let conn := { conn with conn := conn.conn.markReady.setIdentity identity }
  let handed := Event.handed i c identity conn
  let session := { p.session with backend := some backend, homeBackend := some backend }
  if cfg.credentials && cfg.pooling.shouldRelease session.state false then
    { proc := { p with
        session := { session with backend := none, server := none }, phase := .waiting }
      conn := some (c, conn.markDirty.release (s.draining backend))
      events := [.released i c conn.markDirty, handed] }
  else
    { proc := { p with session := { session with server := some c }, phase := .waiting }
      conn := some (c, conn)
      events := [handed] }

def handshake (cfg : Config) (s : System) (i : Nat) (p : Proc) (env : HandshakeEnv) :
    Option Change :=
  match p.phase with
  | .opening req (attempts + 1) =>
    match env.picked with
    | none => some { proc := p.close }
    | some (backend, source) =>
      (s.take i ⟨backend, p.session.identity⟩ source).map fun (c, conn) =>
        let (conn, outcome) := openBackend cfg req conn env
        match outcome with
        | .completed => sessionOpened cfg s i p backend c conn
        | .wrongConnection =>
          let conn := conn.markBroken
          { proc :=
              if attempts = 0 then p.close else { p with phase := .opening req attempts }
            conn := some (c, conn.release (s.draining backend))
            events := [.released i c conn] }
        | .failed =>
          { proc := p.close
            conn := some (c, conn.release (s.draining backend))
            events := [.released i c conn] }
  | _ => none

end Pontus.Proxy
