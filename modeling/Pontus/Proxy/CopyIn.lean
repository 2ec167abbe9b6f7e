import Pontus.Proxy.AsyncWatcher
import Pontus.Proxy.ReadRequest

/-!
# COPY FROM STDIN

A backend that answers CopyInResponse waits for the client.  `copyPump` then
relays what the client sends, a buffer of whole messages at a time, until a
buffer holds the message that ends the copy; or until the backend has finished
with the copy on its own account and the reader of its reply stops the pump.
-/

namespace Pontus.Proxy

open Lib Protocol

def isCopyEnd (tag : UInt8) : Bool := tag == 'c'.toUInt8 || tag == 'f'.toUInt8

def endsCopyInLoop : Nat → Bytes → Bool
  | 0, _ => false
  | _ + 1, [] => false
  | fuel + 1, tag :: data =>
    match messageLength (tag :: data) with
    | none => false
    | some total =>
      if (tag :: data).length < total then false
      else if isCopyEnd tag then true
      else endsCopyInLoop fuel ((tag :: data).drop total)

/-- Whether these messages finish the client's side of a copy. -/
def endsCopyIn (data : Bytes) : Bool := endsCopyInLoop (data.length + 1) data

structure PumpTurn where
  /-- `stop` was called: of the pieces on their way, so many arrive before the
  deadline it sets -/
  stop : Option Nat
  write : Option ShortWrite
  deriving DecidableEq

def PumpTurn.undisturbed : PumpTurn := ⟨none, none⟩

inductive PumpEnd
  | copyEnded
  | stopped
  | readFailed (err : ReadError)
  | writeFailed (err : NetError)
  | waiting
  deriving DecidableEq

structure Relayed where
  written : Bytes
  discarded : Bytes
  rest : List Bytes
  ended : PumpEnd
  deriving DecidableEq

/-- `readRequest` under the deadline of `stop`: what has not arrived by then
does not come, as if the stream ended there. -/
def interruptedRead (bufSize maxMessageBytes : Nat) (pieces : List Bytes) (arrived : Nat) :
    Bytes × List Bytes :=
  match readRequestFrom bufSize maxMessageBytes true (pieces.take arrived) with
  | none => ([], pieces)
  | some ((data, _), rest) => (data, rest ++ pieces.drop arrived)

/-- The loop of `relay`.  Every pass that does not end it takes something off
the socket, so the bytes on their way bound the passes. -/
def relayLoop (bufSize maxMessageBytes : Nat) (closes : Bool) : Nat → List PumpTurn →
    List Bytes → Relayed
  | 0, _, pieces => ⟨[], [], pieces, .waiting⟩
  | fuel + 1, turns, pieces =>
    let turn := turns.headD .undisturbed
    match turn.stop with
    | some arrived =>
      let (data, rest) := interruptedRead bufSize maxMessageBytes pieces arrived
      ⟨[], data, rest, .stopped⟩
    | none =>
      match readRequestFrom bufSize maxMessageBytes closes pieces with
      | none => ⟨[], [], pieces, .waiting⟩
      | some ((data, err), rest) =>
        let goOn : Relayed :=
          match err with
          | some err => ⟨[], [], rest, .readFailed err⟩
          | none => relayLoop bufSize maxMessageBytes closes fuel turns.tail rest
        if data = [] then goOn
        else
          let (sent, werr) := writeConn data turn.write
          match werr with
          | some werr => ⟨sent, [], rest, .writeFailed werr⟩
          | none =>
            if endsCopyIn data then ⟨sent, [], rest, .copyEnded⟩
            else { goOn with written := sent ++ goOn.written }

def copyRelay (bufSize maxMessageBytes : Nat) (closes : Bool) (turns : List PumpTurn)
    (pieces : List Bytes) : Relayed :=
  relayLoop bufSize maxMessageBytes closes (pieces.flatten.length + 1) turns pieces

end Pontus.Proxy
