import Pontus.Protocol.RoundTrip

/-!
# Pooled connections

`Conn` is the record Pontus keeps of a backend connection.  `Wire` is the other
end: what the backend has been told and has sent, which Pontus can only learn
by reading.  The driver decides from the record alone what becomes of a
connection that is given back.
-/

namespace Pontus.Pool

open Lib Protocol

structure Identity where
  user : Bytes
  database : Bytes
  deriving DecidableEq

structure Conn where
  broken : Bool
  dirty : Bool
  ready : Bool
  identity : Identity
  stmts : List Bytes
  deriving DecidableEq

namespace Conn

def new : Conn := ⟨false, false, false, ⟨[], []⟩, []⟩

def markBroken (c : Conn) : Conn := { c with broken := true }

def markDirty (c : Conn) : Conn := { c with dirty := true }

def markReady (c : Conn) : Conn := { c with ready := true }

def setIdentity (c : Conn) (identity : Identity) : Conn := { c with identity := identity }

def belongsTo (c : Conn) (identity : Identity) : Bool :=
  if c.identity = ⟨[], []⟩ then true else c.identity == identity

def hasStatement (c : Conn) (name : Bytes) : Bool := c.stmts.contains name

def addStatement (c : Conn) (name : Bytes) : Conn :=
  if name = [] then c else { c with stmts := name :: c.stmts }

def markClean (c : Conn) : Conn := { c with dirty := false }

def forgetStatements (c : Conn) : Conn := { c with stmts := [] }

end Conn

/-- What the engine makes of a connection that is given back. -/
inductive Fate
  | idle
  | cleanup
  | destroyed
  deriving DecidableEq

/-- `Dead`, `Ready` and `NeedsCleanup`, in the order the engine asks. -/
def Conn.fate (c : Conn) : Fate :=
  if c.broken then .destroyed
  else if !c.ready then .destroyed
  else if c.dirty then .cleanup
  else .idle

/-- What a request can leave behind in the backend's session. -/
inductive Effect
  | setting (name : Bytes)
  | statement (name : Bytes)
  deriving DecidableEq

structure Residue where
  owner : Nat
  effect : Effect
  deriving DecidableEq

structure Wire where
  startups : List Bytes
  unread : Bytes
  status : TransactionState
  residue : List Residue
  deriving DecidableEq

def lastStatus (before : TransactionState) (reply : List Frame) : TransactionState :=
  reply.foldl (fun status m =>
    match m.body with
    | b :: _ => if m.tag = 'Z'.toUInt8 then transactionStatus b else status
    | [] => status) before

namespace Wire

def new : Wire := ⟨[], [], .statePartial, []⟩

/-- The backend answers and `taken` is read; what is read comes off the front
of what was sent. -/
def exchange (w : Wire) (reply : List Frame) (taken : Bytes) : Option Wire :=
  let sent := w.unread ++ Frame.encodeAll reply
  if taken <+: sent then
    some { w with unread := sent.drop taken.length, status := lastStatus w.status reply }
  else none

/-- A startup packet is written.  When the exchange completes it has been read
message by message up to ReadyForQuery. -/
def startup (w : Wire) (packet : Bytes) (completed : Bool) : Wire :=
  if completed then { w with startups := packet :: w.startups, unread := [], status := .stateIdle }
  else { w with startups := packet :: w.startups }

def leave (w : Wire) (owner : Nat) (effects : List Effect) : Wire :=
  { w with residue := effects.map (⟨owner, ·⟩) ++ w.residue }

def forget (w : Wire) (effects : List Effect) : Wire :=
  { w with residue := w.residue.filter (·.effect ∉ effects) }

end Wire

inductive Place
  | held (session : Nat)
  | returned (fate : Fate)
  deriving DecidableEq

structure PoolKey where
  backend : Bytes
  identity : Identity
  deriving DecidableEq

structure PoolConn where
  conn : Conn
  wire : Wire
  pool : PoolKey
  place : Place
  deriving DecidableEq

namespace PoolConn

def dialled (pool : PoolKey) (place : Place) : PoolConn := ⟨.new, .new, pool, place⟩

def markBroken (c : PoolConn) : PoolConn := { c with conn := c.conn.markBroken }

def markDirty (c : PoolConn) : PoolConn := { c with conn := c.conn.markDirty }

/-- `Conn.Read` and `Conn.Write` record a transport failure. -/
def markBrokenIf (c : PoolConn) (failed : Bool) : PoolConn := if failed then c.markBroken else c

def roundTrip (c : PoolConn) (t : RoundTrip) : Option PoolConn :=
  match t.writeError with
  | some _ => some c.markBroken
  | none =>
    (c.wire.exchange t.reply t.taken).map fun wire =>
      { c with wire := wire }.markBrokenIf t.readFails

def roundTrips (c : PoolConn) : List RoundTrip → Option PoolConn
  | [] => some c
  | t :: rounds => (c.roundTrip t).bind (roundTrips · rounds)

/-- `Backend.Release`; a draining backend sheds what it gets back. -/
def release (c : PoolConn) (draining : Bool) : PoolConn :=
  let conn := if draining then c.conn.markBroken else c.conn
  { c with conn := conn, place := .returned conn.fate }

/-- `Recyclable`: roll back, discard the session, and forget what was known of
it.  A DISCARD ALL that meets no error leaves nothing behind. -/
def recycle (c : PoolConn) (rollback discard : RoundTrip) : Option PoolConn := do
  let c ← c.roundTrip rollback
  if !(← execute rollback) then return { c with place := .returned .destroyed }
  let c ← c.roundTrip discard
  let c :=
    if discard.reply.any (·.tag == 'E'.toUInt8) then c
    else { c with wire := { c.wire with residue := [] } }
  if !(← execute discard) then return { c with place := .returned .destroyed }
  return { c with conn := c.conn.forgetStatements.markClean, place := .returned .idle }

end PoolConn

end Pontus.Pool
