import Pontus.Lib.CappedMap
import Pontus.Lib.Run
import Pontus.Pool.Conn

/-!
# One pool for each identity

A backend keeps a pool for every user and database it is asked for.  `PoolSet`
is the map of these pools with the ceilings that are put on it; the engine
behind each pool, `pooling.Core`, is known by what it says of itself.

Go walks a map in an order of its own: where the outcome depends on it, the
order is an argument.  Instants and durations are in nanoseconds.
-/

namespace Pontus.Pool

open Lib

structure Core where
  /-- which engine this is: a caller may still have hold of one whose pool has
  been dropped -/
  number : Nat
  maxConns : Int
  idle : Nat
  active : Nat
  deriving DecidableEq

namespace Core

def new (number : Nat) (maxConns : Int) : Core := ⟨number, maxConns, 0, 0⟩

def totalConnections (c : Core) : Nat := c.idle + c.active

end Core

structure PoolEntry where
  core : Core
  lastUsed : Int
  deriving DecidableEq

structure PoolSet where
  pools : AList fun _ : Identity => PoolEntry
  /-- the ceiling over all pools together; none if it is not positive -/
  maxTotal : Int
  maxPools : Nat
  idleTTL : Int
  closed : Bool
  cores : Nat

def int32 (n : Int) : Int := n.bmod (2 ^ 32)

def maxIdentityPools : Nat := 256

def identityPoolTTL : Int := 5 * 60 * 1000000000

def backendConnMultiplier : Int := 4

def backendConnCeiling (perIdentity : Int) : Int :=
  if perIdentity ≤ 0 then 0 else int32 (perIdentity * backendConnMultiplier)

def newPoolSet (maxTotal : Int) (maxPools : Nat) (idleTTL : Int) : PoolSet :=
  ⟨∅, maxTotal, maxPools, idleTTL, false, 0⟩

def serverPools (maxConns : Int) : PoolSet :=
  newPoolSet (backendConnCeiling maxConns) maxIdentityPools identityPoolTTL

/-- The lower of the pool's own ceiling and the rule for its database. -/
def ceilingFor (configured limit : Int) : Int :=
  if 0 < limit ∧ limit < configured then limit else configured

namespace PoolSet

def openConns (s : PoolSet) : Nat := weight (fun _ entry => entry.core.totalConnections) s.pools

def totalLocked (s : PoolSet) : Int := int32 s.openConns

def idler (s : PoolSet) (victim : Option (Identity × Int)) (id : Identity) :
    Option (Identity × Int) :=
  match s.pools.lookup id with
  | none => victim
  | some entry =>
    -- in use; taking it would break a live session
    if 0 < entry.core.active then victim
    else
      match victim with
      | none => some (id, entry.lastUsed)
      | some (_, oldest) => if entry.lastUsed < oldest then some (id, entry.lastUsed) else victim

/-- The least recently used pool with nothing checked out, the first of several
in the order of the walk; what `order` leaves out comes behind it. -/
def idlest (s : PoolSet) (order : List Identity) : Option (Identity × Int) :=
  (order ++ s.pools.keys).foldl s.idler none

/-- The victim is closed, which ends its idle connections, and dropped. -/
def evictIdlestLocked (s : PoolSet) (order : List Identity) : Option PoolSet :=
  (s.idlest order).map fun victim => { s with pools := s.pools.erase victim.1 }

/-- Nobody has asked for the pool since the cutoff, and nobody has anything of
it. -/
def isStale (s : PoolSet) (cutoff : Int) (id : Identity) : Bool :=
  (s.pools.lookup id).any fun entry => !(cutoff < entry.lastUsed) && !(0 < entry.core.active)

def reapLocked (s : PoolSet) (now : Int) : PoolSet :=
  if s.idleTTL ≤ 0 then s
  else
    { s with
      pools := (s.pools.keys.filter (s.isStale (now - s.idleTTL))).foldl
        (fun pools id => pools.erase id) s.pools }

inductive GetError
  | poolClosed
  /-- `%w: %d identity pools on %s and all are in use` -/
  | poolsInUse (pools : Nat)
  /-- `%w: %d connections on %s and none idle` -/
  | connectionsInUse (total : Int)
  /-- `pool for %s on %s: %w` -/
  | newCore (id : Identity)
  deriving DecidableEq

def ensureRoomLocked (s : PoolSet) (order : List Identity) : Except GetError PoolSet :=
  if s.maxTotal ≤ 0 ∨ s.totalLocked < s.maxTotal then .ok s
  else
    match s.evictIdlestLocked order with
    | some s => .ok s
    | none => .error (.connectionsInUse s.totalLocked)

/-- What a call of `get` finds: the clock as it looks for pools to reap and as
it stores one, the orders in which the map is walked, the ceilings in force,
and whether an engine could be built. -/
structure GetEnv where
  reapAt : Int
  now : Int
  poolOrder : List Identity
  roomOrder : List Identity
  maxConns : Int
  databaseLimit : Int
  built : Bool

/-- `get`: the set behind it, and the engine of the identity's pool.  What was
reaped and evicted stays so when the call fails. -/
def get (s : PoolSet) (id : Identity) (env : GetEnv) : PoolSet × Except GetError Core :=
  if s.closed then (s, .error .poolClosed)
  else
    match s.pools.lookup id with
    | some entry =>
      ({ s with pools := s.pools.insert id { entry with lastUsed := env.now } }, .ok entry.core)
    | none =>
      let s := s.reapLocked env.reapAt
      let freed :=
        if s.maxPools ≤ s.pools.keys.length then s.evictIdlestLocked env.poolOrder else some s
      match freed with
      | none => (s, .error (.poolsInUse s.pools.keys.length))
      | some s =>
        match s.ensureRoomLocked env.roomOrder with
        | .error err => (s, .error err)
        | .ok s =>
          if !env.built then (s, .error (.newCore id))
          else
            let core := Core.new s.cores (ceilingFor env.maxConns env.databaseLimit)
            ({ s with
                pools := s.pools.insert id ⟨core, env.now⟩
                cores := s.cores + 1 }, .ok core)

def close (s : PoolSet) : PoolSet := { s with pools := ∅, closed := true }

/-- A step of an engine a caller got for `id`.  A caller whose pool has been
dropped since does nothing to the set. -/
def onCore (s : PoolSet) (id : Identity) (number : Nat) (f : Core → Option Core) :
    Option PoolSet :=
  match s.pools.lookup id with
  | some entry =>
    if entry.core.number = number then
      (f entry.core).map fun core =>
        { s with pools := s.pools.insert id { entry with core := core } }
    else some s
  | none => some s

end PoolSet

namespace Core

/-- `Acquire` opens a connection, within the engine's own ceiling. -/
def dial (c : Core) : Option Core :=
  if (c.totalConnections : Int) < c.maxConns then some { c with active := c.active + 1 } else none

def reuse (c : Core) : Option Core :=
  if 0 < c.idle then some { c with idle := c.idle - 1, active := c.active + 1 } else none

def release (c : Core) (kept : Bool) : Option Core :=
  if 0 < c.active then
    some { c with idle := if kept then c.idle + 1 else c.idle, active := c.active - 1 }
  else none

/-- The engine ends a connection that has been idle for too long. -/
def expire (c : Core) : Option Core :=
  if 0 < c.idle then some { c with idle := c.idle - 1 } else none

end Core

/-- `AcquireFor` asks for a pool and then, outside the set's lock, its engine
for a connection; other callers come between the two. -/
inductive PoolAction
  | get (id : Identity) (env : PoolSet.GetEnv)
  | dial (id : Identity) (core : Nat)
  | reuse (id : Identity) (core : Nat)
  | release (id : Identity) (core : Nat) (kept : Bool)
  | expire (id : Identity) (core : Nat)
  /-- `Server.SetMaxConns`, as it reaches one engine -/
  | resize (id : Identity) (core : Nat) (configured limit : Int)
  | close

namespace PoolSet

def step (s : PoolSet) : PoolAction → Option PoolSet
  | .get id env => some (s.get id env).1
  | .dial id core => s.onCore id core Core.dial
  | .reuse id core => s.onCore id core Core.reuse
  | .release id core kept => s.onCore id core (Core.release · kept)
  | .expire id core => s.onCore id core Core.expire
  | .resize id core configured limit =>
    s.onCore id core fun c => some { c with maxConns := ceilingFor configured limit }
  | .close => some s.close

end PoolSet

end Pontus.Pool
