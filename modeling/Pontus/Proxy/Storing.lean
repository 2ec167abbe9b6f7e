import Pontus.Lib.Assignments
import Pontus.Proxy.Caching
import Pontus.Proxy.HandleClient

/-!
# What the result cache is given to store

Replies are stored in two places.  `Cache.Handle` stores what the response loop
captured of a request that missed; `backgroundRefresh` puts a request again, on
a connection of its own, and stores what it reads.

`Storing` is the gateway with its refreshes.  It also keeps what the program
cannot see: which settings are in force on each connection, and how the request
that is being answered was executed.  Every call of `Manager.Set` goes to a log
with the session its key was made from.
-/

namespace Pontus.Proxy

open Lib Protocol Pool

def maxRefreshBytes : Nat := 8 * 2 ^ 20

/-- The read loop of `backgroundRefresh`; `some none` when the refresh is given
up.  Every read is looked at by itself. -/
def refreshLoop : Bytes → List Read → Option (Option Bytes)
  | _, [] => none
  | capture, read :: rest =>
    let ends (result : Option Bytes) := if rest.isEmpty then some result else none
    if read.data ≠ [] ∧ maxRefreshBytes < capture.length + read.data.length then ends none
    else
      let capture := capture ++ read.data
      if read.data ≠ [] ∧ peekTransactionState read.data ≠ .statePartial then ends (some capture)
      else if read.err.isSome then ends none
      else refreshLoop capture rest

/-- What the network does while an entry is refreshed: the connection `Acquire`
returned, if it did, the replays, and the request itself. -/
structure RefreshEnv where
  source : Option Source
  varOrder : List Bytes
  replays : List AwaitTrip
  trip : RoundTrip

structure Refreshed where
  conn : PoolConn
  captured : Option Bytes

/-- `backgroundRefresh` between `Acquire` and `Release`.  The settings of
session `i` are replayed, its prepared statements are not. -/
def backgroundRefresh (i : Nat) (state : SessionState) (c : PoolConn) (env : RefreshEnv) :
    Option Refreshed :=
  if !env.varOrder.isPerm state.vars.keys then none
  else
    match replayLoop i c (replayItems state env.varOrder []) env.replays with
    | none => none
    | some replayed =>
      if !replayed.succeeded then some ⟨replayed.conn, none⟩
      else
        match replayed.conn.roundTrip env.trip, env.trip.writeError with
        | none, _ => none
        | some conn, some _ => some ⟨conn, none⟩
        | some conn, none => (refreshLoop [] env.trip.reads).map fun captured => ⟨conn, captured⟩

/-- A refresh on its way: its key, and the session that found the entry stale,
as it was then. -/
structure RefreshJob where
  key : Bytes
  session : Nat
  asked : Session

/-- The settings a replay puts in force: each name's SET that was written and
met no ErrorResponse. -/
def replaySettings (vars : StringMap) : List Bytes → List AwaitTrip → StringMap → StringMap
  | name :: names, t :: trips, inForce =>
    replaySettings vars names trips
      (if t.trip.writeError.isNone && !t.trip.reply.any (·.tag == 'E'.toUInt8) then
        assignKey inForce (name, vars.lookup name)
      else inForce)
  | _, _, inForce => inForce

def settingsReplayed (session : Session) (env : ServeEnv) (inForce : StringMap) : StringMap :=
  if session.shouldReplay then replaySettings session.state.vars env.varOrder env.replays inForce
  else inForce

/-- How a backend executed a request: the connection, the settings in force on
it, and all the backend answered. -/
structure Execution where
  request : Bytes
  reply : List Frame
  conn : PoolConn
  inForce : StringMap

/-- A call of `Manager.Set`: the session the key was made from, the value, and
the execution it is taken from, if there was one. -/
structure Stored where
  key : Bytes
  asked : Session
  value : Bytes
  execution : Option Execution

structure Storing where
  system : System
  inForce : Nat → StringMap
  missed : Nat → Option Session
  executed : Nat → Option Execution
  refreshes : List RefreshJob
  stored : List Stored

/-- The SET in force for a name from now on, or that there is none. -/
abbrev SettingChanges := List (Bytes × Option Bytes)

inductive StoringStep
  /-- a session moves; `changes` is what a startup packet or a request does to
  the settings -/
  | session (i : Nat) (a : Act) (changes : SettingChanges)
  | recycle (conn : Nat) (rollback discard : RoundTrip) (changes : SettingChanges)
  | drain (backend : Bytes) (draining : Bool)
  | refresh (key : Bytes) (env : RefreshEnv) (changes : SettingChanges)

namespace Storing

def init : Storing := ⟨.init, fun _ => ∅, fun _ => none, fun _ => none, [], []⟩

def sessionOf (s : Storing) (i : Nat) : Session := (s.system.procs i).session

def settings (s : Storing) (c : Nat) : StringMap := if c < s.system.nextConn then s.inForce c else ∅

def replayed (s : Storing) (i c : Nat) (env : ServeEnv) : StringMap :=
  settingsReplayed (s.sessionOf i) env (s.settings c)

def reaches (s : Storing) (i c : Nat) (env : ServeEnv) : Bool :=
  (replaySession i (s.sessionOf i) (s.system.conns c) env).any Replayed.succeeded &&
    env.writeError.isNone

/-- The settings in force on the connection a move touches, behind the move. -/
def settingsAfter (s : Storing) (i : Nat) (a : Act) (changes : SettingChanges) (c : Nat) :
    StringMap :=
  match a with
  | .handshake _ => assignKeys (s.settings c) changes
  | .serve env =>
    if s.reaches i c env then assignKeys (s.replayed i c env) changes else s.replayed i c env
  | _ => s.settings c

def revalidate (cfg : Config) (s : Storing) (i : Nat) : List RefreshJob :=
  let key := cacheKey cfg.hash (s.sessionOf i)
  if (s.sessionOf i).backend.isNone || s.refreshes.any (·.key == key) ||
      decide (maxConcurrentRefreshes ≤ s.refreshes.length) then s.refreshes
  else ⟨key, i, s.sessionOf i⟩ :: s.refreshes

def lookedUp (cfg : Config) (s : Storing) (i : Nat) (env : MiddlewareEnv) : Storing :=
  if env.refused then s
  else
    match cacheHandle cfg.hash env.cacheEnabled (fun _ => env.entry) (s.sessionOf i) with
    | .miss _ _ => { s with missed := Function.update s.missed i (some (s.sessionOf i)) }
    | .hit entry =>
      if !env.writeFails && entry.needsRevalidate then { s with refreshes := s.revalidate cfg i }
      else s
    | .next _ => s
    | .write _ => s

def concluded (cfg : Config) (s : Storing) (i : Nat) : Storing :=
  match s.missed i with
  | none => s
  | some asked =>
    let o : NextResult :=
      ⟨decide ((s.system.procs i).phase ≠ .concluding false), (s.sessionOf i).replyFailed,
        (s.sessionOf i).responseCapture.getD []⟩
    { s with
      missed := Function.update s.missed i none
      stored :=
        if o.storable then ⟨cacheKey cfg.hash asked, asked, o.captured, s.executed i⟩ :: s.stored
        else s.stored }

def noted (cfg : Config) (s : Storing) (i : Nat) : Act → Storing
  | .middleware env => s.lookedUp cfg i env
  | .serve env =>
    match (s.sessionOf i).server with
    | some c =>
      if s.reaches i c env then
        { s with
          executed := Function.update s.executed i
            (some ⟨(s.sessionOf i).data, env.reply, s.system.conns c, s.replayed i c env⟩) }
      else s
    | none => s
  | .conclude => s.concluded cfg i
  | _ => s

def moved (cfg : Config) (s : Storing) (i : Nat) (a : Act) (changes : SettingChanges)
    (ch : Change) : Storing :=
  { s.noted cfg i a with
    system := s.system.apply i ch
    inForce :=
      match ch.conn with
      | some (c, _) => Function.update s.inForce c (s.settingsAfter i a changes c)
      | none => s.inForce }

def recycled (s : Storing) (c : Nat) (rollback discard : RoundTrip) (changes : SettingChanges) :
    StringMap :=
  if execute rollback = some true ∧ discard.reply.any (·.tag == 'E'.toUInt8) = false then ∅
  else assignKeys (s.inForce c) changes

def refreshed (s : Storing) (job : RefreshJob) (backend : Bytes) (c : Nat) (conn : PoolConn)
    (env : RefreshEnv) (changes : SettingChanges) (r : Refreshed) : Storing :=
  let vars := (s.sessionOf job.session).state.vars
  let inForce := replaySettings vars env.varOrder env.replays (s.settings c)
  { s with
    system := s.system.setConn c (r.conn.release (s.system.draining backend))
    inForce := Function.update s.inForce c (assignKeys inForce changes)
    refreshes := s.refreshes.filter (·.key != job.key)
    stored :=
      match r.captured with
      | some value =>
        if value = [] then s.stored
        else
          ⟨job.key, job.asked, value, some ⟨job.asked.data, env.trip.reply, conn, inForce⟩⟩ ::
            s.stored
      | none => s.stored }

/-- `Acquire` takes a connection of the pool that is nobody's. -/
def refresh (s : Storing) (key : Bytes) (env : RefreshEnv) (changes : SettingChanges) :
    Option Storing :=
  match s.refreshes.find? (·.key == key) with
  | none => none
  | some job =>
    match env.source, job.asked.backend with
    | some source, some backend =>
      match s.system.take job.session ⟨backend, ⟨[], []⟩⟩ source with
      | none => none
      | some (c, conn) =>
        (backgroundRefresh job.session (s.sessionOf job.session).state conn env).map
          (s.refreshed job backend c conn env changes)
    | _, _ => some { s with refreshes := s.refreshes.filter (·.key != key) }

def step (cfg : Config) (s : Storing) : StoringStep → Option Storing
  | .session i a changes => (change cfg s.system i a).map (s.moved cfg i a changes)
  | .recycle c rollback discard changes =>
    (Proxy.step cfg s.system (.recycle c rollback discard)).map fun system =>
      { s with
        system := system
        inForce := Function.update s.inForce c (s.recycled c rollback discard changes) }
  | .drain backend draining =>
    (Proxy.step cfg s.system (.drain backend draining)).map fun system =>
      { s with system := system }
  | .refresh key env changes => s.refresh key env changes

end Storing

end Pontus.Proxy
