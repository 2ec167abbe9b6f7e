import Pontus.Lib.Frame

/-!
# Knowing when a reply has ended

A client ends an extended-protocol batch with Sync, which the server answers
with ReadyForQuery, or with Flush, which has no terminator of its own.
`responseEndFor` reads a request and says how its reply will end; the
`ReplyScanner` walks the backend's messages across reads that may split them
and reports when that end has been seen.
-/

namespace Pontus.Protocol

open Lib

inductive TransactionState
  | stateIdle
  | stateInTransaction
  | stateError
  | statePartial
  deriving DecidableEq

open TransactionState

def feParse : UInt8 := 'P'.toUInt8
def feBind : UInt8 := 'B'.toUInt8
def feDescribe : UInt8 := 'D'.toUInt8
def feExecute : UInt8 := 'E'.toUInt8
def feClose : UInt8 := 'C'.toUInt8
def feFunctionCal : UInt8 := 'F'.toUInt8
def feSync : UInt8 := 'S'.toUInt8
def feFlush : UInt8 := 'H'.toUInt8
def feQuery : UInt8 := 'Q'.toUInt8

def flush : Frame := ⟨feFlush, [], Frame.size_nil⟩

structure ResponseEnd where
  onReadyForQuery : Bool
  tags : Bytes
  deriving DecidableEq

/-- Whether `tag` ends the reply.  An ErrorResponse ends any exchange. -/
def ResponseEnd.awaited (r : ResponseEnd) (tag : UInt8) : Bool :=
  tag == 'E'.toUInt8 || r.tags.contains tag

/-- The backend messages that answer a frontend message; nothing for a message
that produces no reply. -/
def terminatorsFor (last describeTarget : UInt8) : Bytes :=
  if last = feParse then ['1'.toUInt8]
  else if last = feBind then ['2'.toUInt8]
  else if last = feDescribe then
    if describeTarget = 'S'.toUInt8 then ['T'.toUInt8, 'n'.toUInt8]
    else ['T'.toUInt8, 'n'.toUInt8]
  else if last = feExecute then ['C'.toUInt8, 's'.toUInt8, 'I'.toUInt8]
  else if last = feClose then ['3'.toUInt8]
  else if last = feFunctionCal then ['V'.toUInt8]
  else []

/-- The loop of `responseEndFor`; `rest` is the part of the request from the
current message on. -/
def responseEndLoop : Nat → Bytes → UInt8 → UInt8 → ResponseEnd
  | fuel + 1, rest@(tag :: b₁ :: b₂ :: b₃ :: b₄ :: behind), last, describeTarget =>
    let length := beU32 b₁ b₂ b₃ b₄
    if length < 4 then ⟨false, terminatorsFor last describeTarget⟩
    else if tag = feSync ∨ tag = feQuery then ⟨true, []⟩
    else if tag = feParse ∨ tag = feBind ∨ tag = feExecute ∨ tag = feClose ∨
        tag = feFunctionCal then
      responseEndLoop fuel (rest.drop (1 + length)) tag describeTarget
    else if tag = feDescribe then
      responseEndLoop fuel (rest.drop (1 + length)) tag (behind.headD describeTarget)
    else responseEndLoop fuel (rest.drop (1 + length)) last describeTarget
  | _, _, last, describeTarget => ⟨false, terminatorsFor last describeTarget⟩

/-- How the reply to this request will end: at ReadyForQuery when the request
holds a Sync or a simple query, otherwise at an answer to the last message that
produces one. -/
def responseEndFor (request : Bytes) : ResponseEnd := responseEndLoop request.length request 0 0

structure ReplyScanner where
  ending : ResponseEnd
  /-- a partial message header, when a read ended inside one -/
  header : Bytes
  /-- bytes of the current message body still to come -/
  skip : Nat
  /-- a ReadyForQuery header was seen but not its status byte -/
  wantStatus : Bool
  sawError : Bool
  sawCopyIn : Bool
  deriving DecidableEq

def newReplyScanner (ending : ResponseEnd) : ReplyScanner := ⟨ending, [], 0, false, false, false⟩

def transactionStatus (b : UInt8) : TransactionState :=
  if b = 'I'.toUInt8 then stateIdle
  else if b = 'T'.toUInt8 ∨ b = 'B'.toUInt8 then stateInTransaction
  else if b = 'E'.toUInt8 then stateError
  else statePartial

namespace ReplyScanner

/-- What the scanner does with a complete header whose length can be followed,
and whether the message ends the reply there and then. -/
def openMessage (s : ReplyScanner) (tag : UInt8) (length : Nat) : ReplyScanner × Bool :=
  let skip := length - 4
  let isReady := tag == 'Z'.toUInt8
  ({ s with
      header := []
      skip := skip
      sawError := s.sawError || tag == 'E'.toUInt8
      sawCopyIn := s.sawCopyIn || tag == 'G'.toUInt8
      wantStatus := s.wantStatus || (isReady && decide (0 < skip)) },
    if isReady then decide (skip = 0)
    else !s.ending.onReadyForQuery && s.ending.awaited tag)

def feedLoop : Nat → ReplyScanner → Bytes → Bool → TransactionState →
    ReplyScanner × Bool × TransactionState
  | 0, s, _, done, state => (s, done, state)
  | _ + 1, s, [], done, state => (s, done, state)
  | fuel + 1, s, chunk@(first :: _), done, state =>
    if 0 < s.skip then
      let n := min s.skip chunk.length
      -- The first body byte of ReadyForQuery is the transaction status.
      let state := if s.wantStatus then transactionStatus first else state
      feedLoop fuel { s with skip := s.skip - n, wantStatus := false } (chunk.drop n)
        (done || s.wantStatus) state
    else
      let n := min (5 - s.header.length) chunk.length
      match s.header ++ chunk.take n with
      | tag :: b₁ :: b₂ :: b₃ :: b₄ :: _ =>
        let length := beU32 b₁ b₂ b₃ b₄
        -- Not a frame this can follow: stop rather than guess.
        if length < 4 then ({ s with header := [] }, true, state)
        else
          let opened := s.openMessage tag length
          feedLoop fuel opened.1 (chunk.drop n) (done || opened.2) state
      | header => ({ s with header := header }, done, state)

/-- Consume a chunk; report whether the reply has ended, and the transaction
state if a ReadyForQuery was seen. -/
def feed (s : ReplyScanner) (chunk : Bytes) : ReplyScanner × Bool × TransactionState :=
  feedLoop (chunk.length + 1) s chunk false statePartial

end ReplyScanner

end Pontus.Protocol
