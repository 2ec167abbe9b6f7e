import Pontus.Cache.Manager
import Pontus.Lib.Run
import Pontus.Proxy.Session

/-!
# Readers and writers of the result cache

`cacheHandle` is `Cache.Handle` up to the call of `next`, `cacheReturn` what it
does behind it.  Between the two the backend executes the request, and other
sessions come and go.  A move of `Caching` is one such half, the execution
itself, or a move of a background refresh.  Every execution is stamped with the
moment it happened at, and every write with the moment it took effect.
-/

namespace Pontus.Proxy

open Lib Protocol Cache

/-- What `next` came to: whether it returned an error, whether the reply held an
ErrorResponse, and what was captured of it. -/
structure NextResult where
  failed : Bool
  replyFailed : Bool
  captured : Bytes
  deriving DecidableEq

def NextResult.storable (o : NextResult) : Bool := !o.failed && !o.replyFailed && o.captured != []

/-- The orders in which `Set` walks the manager's map when it is full. -/
structure Walks where
  scan : List Bytes
  rank : List Bytes

/-- `Cache.Handle` behind `next`: store the reply of a miss, evict what a write
names.  `value` is what is kept of the captured bytes. -/
def cacheReturn {V : Type} (ttl : Time) (m : Manager V) (step : CacheStep) (o : NextResult)
    (value : V) (now : Time) (walks : Walks) : Manager V :=
  match step with
  | .miss key s =>
    if o.storable then m.set key value ttl s.queryInfo.affectedTables now walks.scan walks.rank
    else m
  | .write s =>
    if !o.failed && s.queryInfo.affectedTables != [] then m.invalidate s.queryInfo.affectedTables
    else m
  | .next _ => m
  | .hit _ => m

structure Reply where
  bytes : Bytes
  computed : Nat
  deriving DecidableEq

inductive Handling
  | idle
  | handed (step : CacheStep)
  | executed (step : CacheStep) (computed : Nat)

structure Write where
  session : Nat
  tables : List Bytes
  /-- the moment it took effect, unless its transaction is still open -/
  effect : Option Nat
  /-- its `Cache.Handle` has returned -/
  returned : Bool
  deriving DecidableEq

structure Refresh where
  key : Bytes
  tables : List Bytes
  computed : Option Nat
  deriving DecidableEq

structure Caching where
  manager : Manager Reply
  now : Time
  moment : Nat
  handling : Nat → Handling
  writes : List Write
  refreshes : List Refresh

structure CacheConfig where
  hash : Bytes → Bytes
  enabled : Bool
  ttl : Time

/-- What becomes of the session's transaction with a request.  A statement
outside of one commits by itself. -/
inductive Ending
  | commits
  | staysOpen
  | rollsBack
  deriving DecidableEq

inductive CachingStep
  /-- a session enters `Cache.Handle` with a request -/
  | lookup (i : Nat) (session : Session) (writeFails : Bool)
  | execute (i : Nat) (written : List Bytes) (ending : Ending)
  /-- `next` returns, and `Cache.Handle` with it -/
  | finish (i : Nat) (o : NextResult) (walks : Walks)
  /-- the session's transaction is lost with its connection -/
  | abort (i : Nat)
  | refreshed (key : Bytes)
  | refreshEnds (key : Bytes) (captured : Option Bytes) (walks : Walks)
  | tick (elapsed : Nat)
  | cleanup

namespace Write

def isOpen (w : Write) (i : Nat) : Bool := w.session == i && w.effect.isNone

def takeEffect (i moment : Nat) (w : Write) : Write :=
  if w.isOpen i then { w with effect := some moment } else w

def handleReturns (i : Nat) (w : Write) : Write :=
  if w.session = i then { w with returned := true } else w

end Write

def maxConcurrentRefreshes : Nat := 8

namespace Caching

def start (maxSize : Int) : Caching := ⟨newManagerWithSize maxSize, 0, 0, fun _ => .idle, [], []⟩

def get (s : Caching) (key : Bytes) : Option CacheEntry :=
  (s.manager.get key s.now).map fun found => ⟨found.1.bytes, found.2⟩

def revalidate (s : Caching) (key : Bytes) (session : Session) : Caching :=
  if session.backend.isNone || s.refreshes.any (·.key == key) ||
      decide (maxConcurrentRefreshes ≤ s.refreshes.length) then s
  else { s with refreshes := ⟨key, session.queryInfo.affectedTables, none⟩ :: s.refreshes }

/-- The writes there are when a request has been executed, before its
transaction ends. -/
def wrote (s : Caching) (i : Nat) (written : List Bytes) : List Write :=
  if written = [] then s.writes else ⟨i, written, none, false⟩ :: s.writes

def writesAfter (s : Caching) (i : Nat) (written : List Bytes) : Ending → List Write
  | .commits => (s.wrote i written).map (Write.takeEffect i s.moment)
  | .staysOpen => s.wrote i written
  | .rollsBack => (s.wrote i written).filter fun w => !w.isOpen i

/-- A request that was never executed is answered by another's reply, or fails;
nothing is captured of it. -/
def finish (cfg : CacheConfig) (s : Caching) (i : Nat) (o : NextResult) (walks : Walks) :
    Option Caching :=
  let returned (m : Manager Reply) : Caching :=
    { s with
      manager := m
      handling := Function.update s.handling i .idle
      writes := s.writes.map (Write.handleReturns i) }
  match s.handling i with
  | .idle => none
  | .handed step =>
    if o.captured = [] then
      some (returned (cacheReturn cfg.ttl s.manager step o ⟨[], 0⟩ s.now walks))
    else none
  | .executed step computed =>
    some (returned (cacheReturn cfg.ttl s.manager step o ⟨o.captured, computed⟩ s.now walks))

def refreshEnds (cfg : CacheConfig) (s : Caching) (key : Bytes) (captured : Option Bytes)
    (walks : Walks) : Option Caching :=
  match s.refreshes.find? (·.key == key) with
  | none => none
  | some refresh =>
    let ended := { s with refreshes := s.refreshes.filter (·.key != key) }
    match captured, refresh.computed with
    | none, _ => some ended
    | some bytes, some computed =>
      if bytes = [] then some ended
      else
        some { ended with
          manager := s.manager.set key ⟨bytes, computed⟩ cfg.ttl refresh.tables s.now
            walks.scan walks.rank }
    | some _, none => none

def step (cfg : CacheConfig) (s : Caching) : CachingStep → Option Caching
  | .lookup i session writeFails =>
    match s.handling i with
    | .idle =>
      match cacheHandle cfg.hash cfg.enabled s.get session with
      | .hit entry =>
        some (if !writeFails && entry.needsRevalidate then
          s.revalidate (cacheKey cfg.hash session) session else s)
      | handed => some { s with handling := Function.update s.handling i (.handed handed) }
    | _ => none
  | .execute i written ending =>
    match s.handling i with
    | .handed handed =>
      some { s with
        moment := s.moment + 1
        handling := Function.update s.handling i (.executed handed s.moment)
        writes := s.writesAfter i written ending }
    | _ => none
  | .finish i o walks => s.finish cfg i o walks
  | .abort i => some { s with writes := s.writes.filter fun w => !w.isOpen i }
  | .refreshed key =>
    some { s with
      moment := s.moment + 1
      refreshes := s.refreshes.map fun r =>
        if r.key = key then { r with computed := r.computed.or (some s.moment) } else r }
  | .refreshEnds key captured walks => s.refreshEnds cfg key captured walks
  | .tick elapsed => some { s with now := s.now + elapsed }
  | .cleanup => some { s with manager := s.manager.cleanup s.now }

end Caching

end Pontus.Proxy
