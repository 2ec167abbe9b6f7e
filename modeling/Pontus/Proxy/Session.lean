import Mathlib.Data.List.Sort
import Pontus.Protocol.Classifier

/-!
# A client session

The record the request path hands from step to step, the rule that says when
its backend connection goes back to the pool, and the key under which a reply
may be shared.  Backends are known by their address and connections by a
number.
-/

namespace Pontus.Proxy

open Lib Protocol

structure Session where
  state : SessionState
  backend : Option Bytes
  /-- the backend that carried this session's handshake -/
  homeBackend : Option Bytes
  server : Option Nat
  normalized : Bytes
  queryInfo : QueryInfo
  data : Bytes
  shouldReplay : Bool
  /-- the contents of the buffer the result cache set up, if it did -/
  responseCapture : Option Bytes
  replyFailed : Bool
  deriving DecidableEq

namespace Session

def new : Session :=
  ⟨.empty, none, none, none, [], ⟨false, false, []⟩, [], false, none, false⟩

/-- A request as `handleClient` prepares it for the middleware. -/
def receive (u : UnicodeTables) (s : Session) (data : Bytes) : Session :=
  { s with data := data, normalized := normalizeQuery data, queryInfo := classifyQuery u data }

variable (u : UnicodeTables) (s : Session) (data : Bytes)

@[simp] theorem receive_data :
    (s.receive u data).data = data := rfl

@[simp] theorem receive_state :
    (s.receive u data).state = s.state := rfl

@[simp] theorem receive_queryInfo :
    (s.receive u data).queryInfo = classifyQuery u data := rfl

end Session

inductive PoolingMode
  | poolTransaction
  | poolSession
  | poolStatement
  deriving DecidableEq

namespace PoolingMode

/-- Whether the connection may go back to the pool now. -/
def shouldReleaseAt (m : PoolingMode) (txState : TransactionState) (pinned : Bool) : Bool :=
  if pinned then false
  else if m = .poolSession then false
  else txState == .stateIdle

def shouldRelease (m : PoolingMode) (state : SessionState) (pinned : Bool) : Bool :=
  m.shouldReleaseAt state.txState pinned

def rejectsTransactions (m : PoolingMode) : Bool := m == .poolStatement

theorem idle_of_shouldReleaseAt {m : PoolingMode} (h : m.shouldReleaseAt txState pinned) :
    txState = .stateIdle := by
  unfold shouldReleaseAt at h
  split at h
  · exact Bool.noConfusion h
  · split at h
    · exact Bool.noConfusion h
    · exact beq_iff_eq.1 h

theorem ne_poolSession_of_shouldReleaseAt {m : PoolingMode}
    (h : m.shouldReleaseAt txState pinned) : m ≠ .poolSession := by
  intro hm
  rw [hm] at h
  unfold shouldReleaseAt at h
  split at h <;> exact Bool.noConfusion h

end PoolingMode

def keyPart (part : Bytes) : Bytes := putU64 part.length ++ part

/-- Everything that can change the answer, in one text: the backend, who asks,
the settings in the order of their names, and the bytes to be executed. -/
def cacheKeyText (s : Session) : Bytes :=
  let names := s.state.vars.keys.insertionSort (· ≤ ·)
  keyPart (s.backend.getD []) ++ keyPart s.state.database ++ keyPart s.state.user ++
    names.flatMap (fun name => keyPart name ++ keyPart ((s.state.vars.lookup name).getD [])) ++
    keyPart s.data

def cacheKey (hash : Bytes → Bytes) (s : Session) : Bytes := hash (cacheKeyText s)

/-! ## Answering with another request's bytes -/

structure CacheEntry where
  response : Bytes
  needsRevalidate : Bool
  deriving DecidableEq

inductive CacheStep
  | next (s : Session)
  | write (s : Session)
  | hit (entry : CacheEntry)
  | miss (key : Bytes) (s : Session)

def inTransaction (s : Session) : Bool :=
  s.state.txState != .stateIdle && s.state.txState != .statePartial

/-- `enabled` is that a manager is there and the configuration turns it on;
`get` is the manager's lookup. -/
def cacheHandle (hash : Bytes → Bytes) (enabled : Bool) (get : Bytes → Option CacheEntry)
    (s : Session) : CacheStep :=
  if !enabled || s.normalized == [] then .next s
  else if !cacheable s.data then .next s
  else if !s.queryInfo.readOnly then .write s
  else if s.queryInfo.inTransaction || inTransaction s then .next s
  else
    let key := cacheKey hash s
    match get key with
    | some entry => .hit entry
    | none => .miss key { s with responseCapture := some [], replyFailed := false }

inductive CallError
  | failed
  | captureTooLarge
  deriving DecidableEq

structure InflightCall where
  done : Bool
  data : Bytes
  err : Option CallError
  deriving DecidableEq

def InflightCall.new : InflightCall := ⟨false, [], none⟩

def canCollapse (s : Session) : Bool :=
  s.queryInfo.readOnly && !s.queryInfo.inTransaction && s.state.txState == .stateIdle

inductive Collapse
  | alone
  | lead (key : Bytes)
  | follow (call : Nat)
  deriving DecidableEq

def collapse (hash : Bytes → Bytes) (inFlight : Bytes → Option Nat) (s : Session) : Collapse :=
  if canCollapse s then
    match inFlight (cacheKey hash s) with
    | some call => .follow call
    | none => .lead (cacheKey hash s)
  else .alone

/-- What a follower writes to its client once the call is done; `none` sends it
on to execute the request itself. -/
def InflightCall.answer (call : InflightCall) : Option Bytes :=
  match call.err with
  | none => some call.data
  | some _ => none

end Pontus.Proxy
