import Pontus.Protocol.ClientMessages
import Pontus.Proxy.ExecuteRequest

/-!
# Prepared statements in three places

A client opens and closes prepared statements.  Pontus keeps the texts in the
session, so that they can be prepared again elsewhere, and the names on the
connection, so that none is prepared twice; the backend has the statements
themselves.  The three are followed here through whole buffers of messages,
through connections given back and taken, and through replays.
-/

namespace Pontus.Proxy

open Lib Protocol Pool

structure Prepared where
  text : Bytes
  types : List UInt32
  deriving DecidableEq

abbrev PreparedMap := AList fun _ : Bytes => Prepared

namespace PreparedMap

def opens (m : PreparedMap) : ClientMessage → PreparedMap
  | .parse name text types => m.insert name ⟨text, types⟩
  | .closeStatement name => m.erase name
  | _ => m

/-- The backend takes a message.  It refuses to prepare a named statement twice;
the unnamed one is replaced.  No simple query is part of these buffers. -/
def prepare (m : PreparedMap) : ClientMessage → Option PreparedMap
  | .parse name text types =>
    if name ≠ [] ∧ name ∈ m then none else some (m.insert name ⟨text, types⟩)
  | .closeStatement name => some (m.erase name)
  | .sync => some m
  | .query _ => none

end PreparedMap

/-- A connection: what Pontus has on record, and the statements the backend
has. -/
structure Held where
  conn : Conn
  server : PreparedMap

/-- One step of `ReplayPreparedStatements`: a name on record is passed over, any
other is prepared from its text alone. -/
def replayStatement (stmts : StringMap) (h : Held) (name : Bytes) : Option Held :=
  if h.conn.hasStatement name then some h
  else
    (h.server.prepare (.parse name ((stmts.lookup name).getD []) [])).map fun server =>
      ⟨h.conn.addStatement name, server⟩

def replayStatements (stmts : StringMap) (order : List Bytes) (h : Held) : Option Held :=
  if order.isPerm stmts.keys then order.foldlM (replayStatement stmts) h else none

structure Preparing where
  state : SessionState
  opened : PreparedMap
  held : Option Held

inductive PreparingStep
  | request (ms : List ClientMessage) (status : TransactionState)
  | release
  | acquire (h : Held)
  | replay (order : List Bytes)

namespace Preparing

def start : Preparing := ⟨.empty, ∅, none⟩

def step (s : Preparing) : PreparingStep → Option Preparing
  | .request ms status =>
    match s.held with
    | none => none
    | some h =>
      let data := ClientMessage.encodeAll ms
      if ms.all ClientMessage.wellFormed then
        (ms.foldlM PreparedMap.prepare h.server).map fun server =>
          { state := settleTransaction (trackRequest s.state data) status
            opened := ms.foldl PreparedMap.opens s.opened
            held := some ⟨h.conn.addStatement (parseStatementName data), server⟩ }
      else none
  | .release => if s.held.isSome && !isPinned s.state then some { s with held := none } else none
  | .acquire h => if s.held.isNone then some { s with held := some h } else none
  | .replay order =>
    (s.held.bind (replayStatements s.state.stmts order)).map fun h => { s with held := some h }

end Preparing

end Pontus.Proxy
