import Pontus.Protocol.ReplyScanner

/-!
# What a PostgreSQL backend answers

The server's side of the wire protocol, as far as the end of a reply depends on
it: which client messages close a unit with ReadyForQuery, which messages may
turn up at any time, and the complete answers to the messages of an
extended-protocol batch that meets no error.
-/

namespace Pontus.Protocol

open Lib

def closesUnit (m : Frame) : Bool := m.tag == feSync || m.tag == feQuery

def isReadyForQuery (m : Frame) : Bool := m.tag == 'Z'.toUInt8

/-- Notice, notification and parameter status may arrive between any two
messages of a reply. -/
def isAsync (m : Frame) : Bool :=
  m.tag == 'N'.toUInt8 || m.tag == 'A'.toUInt8 || m.tag == 'S'.toUInt8

/-- The messages of an extended-protocol batch, Sync apart. -/
def isExtended (m : Frame) : Bool :=
  [feParse, feBind, feDescribe, feExecute, feClose, feFunctionCal, feFlush].contains m.tag

def producesReply (m : Frame) : Bool := isExtended m && m.tag != feFlush

/-- What an Execute may send before its completion: rows, and the two sides of
a COPY. -/
def isExecuteOutput (m : Frame) : Bool := (ascii "DdcHGW").contains m.tag

/-- The complete answers a backend that meets no error may give to a message. -/
inductive Answers : Frame → List Frame → Prop
  | parse {q a : Frame} (hq : q.tag = feParse) (ha : a.tag = '1'.toUInt8) (hbody : a.body = []) :
      Answers q [a]
  | bind {q a : Frame} (hq : q.tag = feBind) (ha : a.tag = '2'.toUInt8) (hbody : a.body = []) :
      Answers q [a]
  | describeStatement {q params row : Frame} (hq : q.tag = feDescribe)
      (htarget : q.body.head? = some 'S'.toUInt8)
      (hparams : params.tag = 't'.toUInt8) (hparamsBody : params.body ≠ [])
      (hrow : row.tag = 'T'.toUInt8 ∧ row.body ≠ [] ∨ row.tag = 'n'.toUInt8 ∧ row.body = []) :
      Answers q [params, row]
  | describePortal {q row : Frame} (hq : q.tag = feDescribe)
      (htarget : q.body.head? = some 'P'.toUInt8)
      (hrow : row.tag = 'T'.toUInt8 ∧ row.body ≠ [] ∨ row.tag = 'n'.toUInt8 ∧ row.body = []) :
      Answers q [row]
  | execute {q done : Frame} {output : List Frame} (hq : q.tag = feExecute)
      (houtput : ∀ m ∈ output, isExecuteOutput m = true)
      (hdone : done.tag = 'C'.toUInt8 ∧ done.body ≠ [] ∨
        (done.tag = 's'.toUInt8 ∨ done.tag = 'I'.toUInt8) ∧ done.body = []) :
      Answers q (output ++ [done])
  | close {q a : Frame} (hq : q.tag = feClose) (ha : a.tag = '3'.toUInt8) (hbody : a.body = []) :
      Answers q [a]
  | functionCall {q value ready : Frame} (hq : q.tag = feFunctionCal)
      (hvalue : value.tag = 'V'.toUInt8) (hvalueBody : value.body ≠ [])
      (hready : isReadyForQuery ready = true) (hstatus : ready.body.length = 1) :
      Answers q [value, ready]
  | flush {q : Frame} (hq : q.tag = feFlush) : Answers q []

/-- The messages of `request` answered in order, with asynchronous messages
anywhere between. -/
def RepliesTo (request reply : List Frame) : Prop :=
  ∃ answers, List.Forall₂ Answers request answers ∧
    reply.filter (fun m => !isAsync m) = answers.flatten

end Pontus.Protocol
