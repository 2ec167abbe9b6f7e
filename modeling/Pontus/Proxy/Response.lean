import Pontus.Protocol.RoundTrip

/-!
# Forwarding a reply

`proxyResponse` reads the backend, hands every chunk to the client and to the
reply scanner, and returns when the scanner says the reply has ended.  What the
network does is data here: each pass of the loop carries what `Read` returned
and what became of the client write, and a loop that has used up its passes is
still waiting in `Read`.
-/

namespace Pontus.Proxy

open Lib Protocol
open Protocol.TransactionState

def defaultMaxCaptureBytes : Nat := 8 * 2 ^ 20

structure ResponseCapture where
  buf : Bytes
  limit : Nat
  overflowed : Bool
  deriving DecidableEq

def newResponseCapture (buf : Bytes) (limit : Int) : ResponseCapture :=
  ⟨buf, if limit ≤ 0 then defaultMaxCaptureBytes else limit.toNat, false⟩

namespace ResponseCapture

/-- Record a chunk unless the bound has been passed; the first overflow gives
the buffer up. -/
def write (c : ResponseCapture) (chunk : Bytes) : ResponseCapture :=
  if c.overflowed then c
  else if c.limit < c.buf.length + chunk.length then { c with overflowed := true, buf := [] }
  else { c with buf := c.buf ++ chunk }

def bytes (c : ResponseCapture) : Bytes := if c.overflowed then [] else c.buf

end ResponseCapture

/-- One pass of a response loop: what the backend read returned, and the
outcome of writing those bytes to the client. -/
structure Pass where
  data : Bytes
  readError : Option NetError
  writeError : Option NetError
  deriving DecidableEq

structure ResponseLoop where
  scan : ReplyScanner
  capture : Option ResponseCapture
  isReadOnlyErr : Bool
  pump : Bool
  sent : Nat
  /-- what has been handed to `client.Write` -/
  written : Bytes
  deriving DecidableEq

/-- What a response loop returns, with its out-parameters and the passes it
left to be read. -/
structure Response where
  state : TransactionState
  isReadOnlyErr : Bool
  err : Option NetError
  failed : Option Bool
  capture : Option ResponseCapture
  sent : Nat
  written : Bytes
  unread : List Pass
  deriving DecidableEq

/-- A Flush leaves the extended-protocol sequence open, so the state is not
idle whatever the scanner saw. -/
def midSequenceState (state : TransactionState) (ending : ResponseEnd) : TransactionState :=
  if !ending.onReadyForQuery then stateInTransaction else state

def containsBytes (sub text : Bytes) : Bool := text.tails.any sub.isPrefixOf

/-- Error code 25006, read_only_sql_transaction, in a chunk that starts with an
ErrorResponse. -/
def isReadOnlyError (data : Bytes) : Bool :=
  if data.length < 5 ∨ data.head? ≠ some 'E'.toUInt8 then false
  else containsBytes (ascii "25006") data

section
variable (inspect : Bytes → Bool) (relay : Option NetError) (ending : ResponseEnd)

def endPass (s : ResponseLoop) (p : Pass) (rest : List Pass) : Except Response ResponseLoop :=
  match p.readError with
  | some err =>
    .error ⟨stateError, s.isReadOnlyErr, some err, none, s.capture, s.sent, s.written, rest⟩
  | none => .ok s

def responsePass (s : ResponseLoop) (p : Pass) (rest : List Pass) :
    Except Response ResponseLoop :=
  if p.data = [] then endPass s p rest
  else
    let capture := s.capture.map (·.write p.data)
    let sent := s.sent + p.data.length
    let written := s.written ++ p.data
    match p.writeError with
    | some werr => .error ⟨stateError, false, some werr, none, capture, sent, written, rest⟩
    | none =>
      let isReadOnlyErr := s.isReadOnlyErr || inspect p.data
      let fed := s.scan.feed p.data
      let pump := s.pump || fed.1.sawCopyIn
      if fed.2.1 then
        match if pump then relay else none with
        | some perr =>
          .error ⟨stateError, isReadOnlyErr, some perr, none, capture, sent, written, rest⟩
        | none =>
          .error ⟨midSequenceState fed.2.2 ending, isReadOnlyErr, none, some fed.1.sawError,
            capture, sent, written, rest⟩
      else endPass ⟨fed.1, capture, isReadOnlyErr, pump, sent, written⟩ p rest

/-- What the loop returns, or where it waits for a read that has not
returned. -/
def responseLoop : ResponseLoop → List Pass → Except ResponseLoop Response
  | s, [] => .error s
  | s, p :: rest =>
    match responsePass inspect relay ending s p rest with
    | .error response => .ok response
    | .ok s => responseLoop s rest

end

/-- A read-only query with nothing to capture; the read-only error is not
looked for. -/
def proxyResponseFastPath (relay : Option NetError) (ending : ResponseEnd) (passes : List Pass) :
    Except ResponseLoop Response :=
  responseLoop (fun _ => false) relay ending
    ⟨newReplyScanner ending, none, false, false, 0, []⟩ passes

def proxyResponseWithCapture (relay : Option NetError) (capture : Option ResponseCapture)
    (ending : ResponseEnd) (passes : List Pass) : Except ResponseLoop Response :=
  responseLoop isReadOnlyError relay ending
    ⟨newReplyScanner ending, capture, false, false, 0, []⟩ passes

/-- `none` while the loop waits. -/
def proxyResponse (setDeadline relay : Option NetError) (capture : Option ResponseCapture)
    (readOnly : Bool) (ending : ResponseEnd) (passes : List Pass) : Option Response :=
  match setDeadline with
  | some err => some ⟨stateError, false, some err, none, capture, 0, [], passes⟩
  | none =>
    if readOnly && capture.isNone then (proxyResponseFastPath relay ending passes).toOption
    else (proxyResponseWithCapture relay capture ending passes).toOption

end Pontus.Proxy
