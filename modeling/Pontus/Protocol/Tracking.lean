import Pontus.Protocol.SessionState

/-!
# Tracking what a client sends

After a request has been written to a backend, the handler records what the
session would need on another connection.  All the trackers look at the first
message of the buffer.
-/

namespace Pontus.Protocol

open Lib

def messageBody (data : Bytes) : Option Bytes :=
  match data with
  | _ :: b₁ :: b₂ :: b₃ :: b₄ :: rest =>
    let length := beU32 b₁ b₂ b₃ b₄
    if length < 4 ∨ data.length < 1 + length then none else some (rest.take (length - 4))
  | _ => none

/-- A NUL-terminated string, or everything when there is no terminator. -/
def trimTerminator (body : Bytes) : Bytes := ((cutAt 0 body).map Prod.fst).getD body

def extractQueryBytes (data : Bytes) : Bytes :=
  if data.length < 6 then []
  else
    match messageBody data with
    | none => []
    | some body =>
      if data.head? = some 'Q'.toUInt8 then trimTerminator body
      else if data.head? = some 'P'.toUInt8 then
        match cutAt 0 body with
        | none => []
        | some (_, rest) => trimTerminator rest
      else []

def maxSessionVars : Nat := 64

def maxSessionStmts : Nat := 256

def trackStatement (state : SessionState) (query : Bytes) : SessionState :=
  let state := { state with
    pinnedBy := (state.pinnedBy ||| pinReasonFor query).clear (unpinReasonFor query) }
  match parseSet query with
  | (_, .scopeNotSet) => state
  | (_, .scopeTransaction) => state
  | (_, .scopeUnknown) => { state with pinnedBy := state.pinnedBy ||| PinReason.pinUntrackedState }
  | (name, .scopeSession) =>
    -- Past the cap the session stops being movable instead of losing settings.
    if name ∉ state.vars ∧ maxSessionVars ≤ state.vars.keys.length then
      { state with pinnedBy := state.pinnedBy ||| PinReason.pinUntrackedState }
    else { state with vars := state.vars.insert name query }

def trackSessionState (state : SessionState) (data : Bytes) : SessionState :=
  if data.length < 6 ∨ data.head? ≠ some 'Q'.toUInt8 then state
  else
    let query := extractQueryBytes data
    if query = [] then state else trackStatement state query

def trackPreparedStatement (state : SessionState) (data : Bytes) : SessionState :=
  if data.length < 6 ∨ data.head? ≠ some 'P'.toUInt8 then state
  else
    match (messageBody data).bind (cutAt 0) with
    | none => state
    | some (name, rest) =>
      match cutAt 0 rest with
      | none => state
      | some (query, _) =>
        if name ∉ state.stmts ∧ maxSessionStmts ≤ state.stmts.keys.length then
          { state with pinnedBy := state.pinnedBy ||| PinReason.pinUntrackedState }
        else { state with stmts := state.stmts.insert name query }

def forgetPreparedStatement (state : SessionState) (data : Bytes) : SessionState :=
  if data.length < 7 ∨ data.head? ≠ some 'C'.toUInt8 then state
  else
    match messageBody data with
    | some (kind :: name) =>
      if name = [] ∨ kind ≠ 'S'.toUInt8 then state
      else
        match cutAt 0 name with
        | none => state
        | some (name, _) => { state with stmts := state.stmts.erase name }
    | _ => state

def parseStatementName (data : Bytes) : Bytes :=
  if data.length < 6 ∨ data.head? ≠ some 'P'.toUInt8 then []
  else ((cutAt 0 (data.drop 5)).map Prod.fst).getD []

/-- What `executeRequest` records once a request has been written. -/
def trackRequest (state : SessionState) (data : Bytes) : SessionState :=
  forgetPreparedStatement (trackPreparedStatement (trackSessionState state data) data) data

/-- What `executeRequest` records once the reply has ended in `txState`. -/
def settleTransaction (state : SessionState) (txState : TransactionState) : SessionState :=
  let state :=
    if txState = .stateIdle ∧ state.txState ≠ .stateIdle then releaseTransactionPins state
    else state
  { state with txState := txState }

end Pontus.Protocol
