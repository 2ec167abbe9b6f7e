import Pontus.Lib.Ledger
import Pontus.Proxy.HandleClient

/-!
# Work beside the sessions

Sessions are not the only ones to take connections out of the pools.  A request
is mirrored to the shadow backends, a stale entry of the result cache is
refreshed, a backend without a privileged channel is probed, and a replication
stream is carried to the primary, each by a goroutine of its own and on a
connection of the pool that belongs to no client.  Goroutines are numbered,
whether they serve a client or run such an errand.

`calls` and `said` are no part of the program.  They record the successful
calls of `AcquireFor` and the calls of `Release`, and what errands have written.
-/

namespace Pontus.Proxy

open Lib Protocol Pool

inductive Job
  | mirrorRequest
  | backgroundRefresh
  | deepCheck
  | handleReplication
  deriving DecidableEq

/-- An errand with the connection it has, and the messages it has still to
write. -/
structure Errand where
  job : Job
  backend : Bytes
  conn : Nat
  todo : List Bytes
  deriving DecidableEq

/-- Health checks and anything else Pontus does on its own behalf. -/
def systemIdentity : Identity := ⟨[], []⟩

/-- The question of `DeepCheck`; a backend that does not answer it is not
asked the others. -/
def deepCheckQuery : Bytes := simpleQuery (ascii "SELECT 1")

/-- The questions of `deepCheck`: `DeepCheck`, `IsReadOnly`,
`GetReplicationLag`, and those of `CollectMetrics`. -/
def deepCheckQueries : List Bytes :=
  let inRecovery := simpleQuery (ascii "SELECT pg_is_in_recovery()")
  [deepCheckQuery, inRecovery,
    simpleQuery (ascii ("SELECT CASE WHEN pg_is_in_recovery() THEN COALESCE(EXTRACT(EPOCH FROM " ++
      "(now() - pg_last_xact_replay_timestamp())), 0) ELSE 0 END")),
    inRecovery,
    simpleQuery (ascii ("\n\t\tSELECT \n\t\t\t(SELECT count(*) FROM pg_stat_activity)," ++
      "\n\t\t\t(SELECT setting::int FROM pg_settings WHERE name = 'max_connections')," ++
      "\n\t\t\tsum(xact_commit), \n\t\t\tsum(xact_rollback), \n\t\t\tsum(blks_read), " ++
      "\n\t\t\tsum(blks_hit), \n\t\t\tsum(conflicts), \n\t\t\tsum(deadlocks)" ++
      "\n\t\tFROM pg_stat_database\n\t")),
    simpleQuery
      (ascii "SELECT pg_wal_lsn_diff(pg_last_wal_receive_lsn(), pg_last_wal_replay_lsn())")]

def Session.copied (session : Session) (varOrder : List Bytes) : List Bytes :=
  (replayItems session.state varOrder []).map ReplayItem.message ++ [session.data]

/-- A connection was obtained by `AcquireFor`, or given to `Release`. -/
abbrev Call := Entry Nat Bytes Nat

def Event.releasedConn : Event → Option Nat
  | .released _ c _ => some c
  | _ => none

def takenBy (s : System) (i : Nat) (a : Act) : Option (Bytes × Nat × PoolConn) :=
  (a.takes (s.procs i)).bind fun (backend, source) =>
    (s.take i ⟨backend, (s.procs i).session.identity⟩ source).map (backend, ·)

/-- The calls of a move, newest first.  `Release` is called on the backend the
move took the connection from, and on the session's backend if it took none. -/
def callsOf (s : System) (i : Nat) (a : Act) (ch : Change) : List Call :=
  let backend := match a.takes (s.procs i) with
    | some (backend, _) => some backend
    | none => (s.procs i).session.backend
  (ch.events.filterMap Event.releasedConn).filterMap
      (fun c => backend.map (Entry.returned i · c)) ++
    ((takenBy s i a).map fun (backend, c, _) => Entry.taken i backend c).toList

def startedBy (s : System) (i : Nat) (a : Act) (ch : Change) : Option Nat :=
  match takenBy s i a, ch.conn with
  | some (_, c, before), some (_, after) =>
    if a.completesStartup && after.wire.startups ≠ before.wire.startups then some c else none
  | _, _ => none

/-- What an errand wrote, and whether a startup exchange had been completed on
the connection. -/
structure Said where
  job : Job
  conn : Nat
  message : Bytes
  started : Bool
  deriving DecidableEq

structure Runtime where
  sys : System
  errands : Nat → Option Errand
  calls : List Call
  started : Nat → Bool
  said : List Said

def Runtime.init : Runtime := ⟨.init, fun _ => none, [], fun _ => false, []⟩

/-- A session or the engine moves; session `i`'s request is mirrored, or its
answer from the cache is due for a refresh; a backend is probed; a client asks
for a replication stream; an errand writes its next message, or ends. -/
inductive RuntimeAction
  | gateway (a : Action)
  | mirror (k i : Nat) (backend : Bytes) (source : Source) (varOrder : List Bytes)
  | refresh (k i : Nat) (env : MiddlewareEnv) (source : Source) (varOrder : List Bytes)
  | check (k : Nat) (backend : Bytes) (source : Source)
  | replicate (k : Nat) (backend : Bytes) (source : Source) (startup : Option (Bytes × Bool))
  | speak (k : Nat) (t : RoundTrip) (goesOn : Bool)
  | finish (k : Nat)

namespace Runtime

/-- `Server.checkedOut`: one up for every `AcquireFor`, one down for every
`Release`. -/
def checkedOut (r : Runtime) (backend : Bytes) : Int := balance r.calls backend

/-- Goroutine `k` takes a connection of the system's pool for an errand.  The
probe goes to the engine itself, past `AcquireFor`; a replication stream writes
the client's packet before anything else. -/
def start (r : Runtime) (k : Nat) (job : Job) (backend : Bytes) (source : Source)
    (todo : List Bytes) (startup : Option (Bytes × Bool)) : Option Runtime :=
  if (r.sys.procs k).phase ≠ .fresh then none
  else
    (r.sys.take k ⟨backend, systemIdentity⟩ source).map fun (c, conn) =>
      let wire := match startup with
        | some (packet, completed) => conn.wire.startup packet completed
        | none => conn.wire
      { r with
        sys := { r.sys.setConn c { conn with wire := wire } with
          procs := Function.update r.sys.procs k { r.sys.procs k with phase := .closed } }
        errands := Function.update r.errands k (some ⟨job, backend, c, todo⟩)
        calls := if job = .deepCheck then r.calls else .taken k backend c :: r.calls
        started := if startup.any Prod.snd then Function.update r.started c true else r.started }

/-- The errand writes its next message and reads the answer; `goesOn` is
whether the answer lets it go on. -/
def speak (r : Runtime) (k : Nat) (t : RoundTrip) (goesOn : Bool) : Option Runtime :=
  match r.errands k with
  | some ⟨job, backend, c, message :: rest⟩ =>
    ((r.sys.conns c).roundTrip t).map fun conn =>
      let failed := job = .deepCheck ∧ message = deepCheckQuery ∧ !goesOn
      { r with
        sys := r.sys.setConn c (conn.markBrokenIf failed)
        errands := Function.update r.errands k (some ⟨job, backend, c, if goesOn then rest else []⟩)
        said := ⟨job, c, message, r.started c⟩ :: r.said }
  | _ => none

/-- The errand gives its connection back.  One that carried a replication
stream cannot serve a pooled session. -/
def finish (r : Runtime) (k : Nat) : Option Runtime :=
  match r.errands k with
  | some ⟨job, backend, c, []⟩ =>
    let conn := (r.sys.conns c).markBrokenIf (job = .handleReplication)
    some { r with
      sys := r.sys.setConn c (conn.release (job ≠ .deepCheck && r.sys.draining backend))
      errands := Function.update r.errands k none
      calls := if job = .deepCheck then r.calls else .returned k backend c :: r.calls }
  | _ => none

/-- The requests that are mirrored are those a session is about to write. -/
def mirrors (r : Runtime) (i : Nat) : Bool :=
  match (r.sys.procs i).phase with
  | .serving _ _ => true
  | _ => false

def revalidates (cfg : Config) (r : Runtime) (i : Nat) (env : MiddlewareEnv) : Bool :=
  (r.sys.procs i).phase == .received && !env.refused && !env.writeFails &&
    match cacheHandle cfg.hash env.cacheEnabled (fun _ => env.entry) (r.sys.procs i).session with
    | .hit entry => entry.needsRevalidate
    | _ => false

def step (cfg : Config) (r : Runtime) : RuntimeAction → Option Runtime
  | .gateway (.act i a) =>
    (change cfg r.sys i a).map fun ch =>
      { r with
        sys := r.sys.apply i ch
        calls := callsOf r.sys i a ch ++ r.calls
        started := match startedBy r.sys i a ch with
          | some c => Function.update r.started c true
          | none => r.started }
  | .gateway a => (Pontus.Proxy.step cfg r.sys a).map fun sys => { r with sys := sys }
  | .mirror k i backend source varOrder =>
    if r.mirrors i && varOrder.isPerm (r.sys.procs i).session.state.vars.keys then
      r.start k .mirrorRequest backend source ((r.sys.procs i).session.copied varOrder) none
    else none
  | .refresh k i env source varOrder =>
    match (r.sys.procs i).session.backend with
    | some backend =>
      if r.revalidates cfg i env && varOrder.isPerm (r.sys.procs i).session.state.vars.keys then
        r.start k .backgroundRefresh backend source ((r.sys.procs i).session.copied varOrder) none
      else none
    | none => none
  | .check k backend source => r.start k .deepCheck backend source deepCheckQueries none
  | .replicate k backend source startup => r.start k .handleReplication backend source [] startup
  | .speak k t goesOn => r.speak k t goesOn
  | .finish k => r.finish k

end Runtime

end Pontus.Proxy
