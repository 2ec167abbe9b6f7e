import Pontus.Protocol.RoundTrip

/-!
# The async watcher

While a listening session waits for its client, `asyncWatcher` forwards what
the backend sends unprompted.  It reads with deadlines, a message at a time,
and looks between messages whether it is to stop.

The backend's end is the stream of bytes it sends.  A `Poll` is what happens in
one pass of the watcher's loop: how much of the stream arrives before each of
its deadlines, what goes wrong, and whether it has been told to stop.
-/

namespace Pontus.Proxy

open Lib Protocol

/-- As many bytes as arrive before a read's deadline, and the error the read
ends with when they are too few. -/
structure Arrival where
  inTime : Nat
  err : NetError
  deriving DecidableEq

def Arrival.readFull (a : Arrival) (want : Nat) (stream : Bytes) : Bytes × Option NetError :=
  let data := stream.take (min want a.inTime)
  (data, if data.length < want then some a.err else none)

/-- A write the other end did not take whole: the bytes it took and the error. -/
structure ShortWrite where
  taken : Nat
  err : NetError
  deriving DecidableEq

def writeConn (data : Bytes) : Option ShortWrite → Bytes × Option NetError
  | none => (data, none)
  | some short => (data.dropLast.take short.taken, some short.err)

theorem length_short_write (hdata : data ≠ []) (taken : Nat) :
    (data.dropLast.take taken).length < data.length := by
  have hpos := length_pos_iff.2 hdata
  rw [length_take, List.length_dropLast]
  omega

structure Poll where
  stopping : Bool
  pollDeadline : Option NetError
  header : Arrival
  commitDeadline : Option NetError
  headerRest : Arrival
  forwardDeadline : Option NetError
  body : Arrival
  headerWrite : Option ShortWrite
  bodyWrite : Option ShortWrite

/-- A pass in which all that was sent arrives and nothing goes wrong. -/
def Poll.undisturbed : Poll :=
  { stopping := false
    pollDeadline := none
    header := ⟨5, .deadlineExceeded⟩
    commitDeadline := none
    headerRest := ⟨5, .deadlineExceeded⟩
    forwardDeadline := none
    body := ⟨2 ^ 32, .deadlineExceeded⟩
    headerWrite := none
    bodyWrite := none }

inductive WatchEnd
  | stopped
  | failed (err : NetError)
  /-- `errUnexpectedAsync` -/
  | unexpectedAsync
  deriving DecidableEq

/-- What a pass took off the backend and what it wrote to the client; the loop
goes on when it has no end. -/
structure Passed where
  consumed : Bytes
  written : Bytes
  ended : Option WatchEnd
  deriving DecidableEq

/-- NotificationResponse, NoticeResponse and ParameterStatus. -/
def asyncTags : List UInt8 := ['A'.toUInt8, 'N'.toUInt8, 'S'.toUInt8]

def isAsyncTag (tag : UInt8) : Bool := asyncTags.contains tag

def headerLength : Bytes → Nat
  | [_, b₁, b₂, b₃, b₄] => beU32 b₁ b₂ b₃ b₄
  | _ => 0

namespace Poll

/-- Relay one whole message, body included; `stream` is what comes behind its
header. -/
def forward (p : Poll) (header stream : Bytes) : Passed :=
  let length := headerLength header
  if length < 4 then ⟨[], [], some .unexpectedAsync⟩
  else
    match p.forwardDeadline with
    | some err => ⟨[], [], some (.failed err)⟩
    | none =>
      let (body, err) := p.body.readFull (length - 4) stream
      match err with
      | some err => ⟨body, [], some (.failed err)⟩
      | none =>
        let (head, err) := writeConn header p.headerWrite
        match err with
        | some err => ⟨body, head, some (.failed err)⟩
        | none =>
          if body = [] then ⟨body, head, none⟩
          else
            let (tail, err) := writeConn body p.bodyWrite
            ⟨body, head ++ tail, err.map .failed⟩

/-- The header is there: forward its message, unless a backend does not send
such a one unprompted. -/
def relay (p : Poll) (header stream : Bytes) : Passed :=
  if !(header.head?.any isAsyncTag) then ⟨header, [], some .unexpectedAsync⟩
  else
    let forwarded := p.forward header stream
    { forwarded with consumed := header ++ forwarded.consumed }

/-- A header of which a part was read: the watcher is committed to its message
and finishes it even while stopping.  `stream` is what comes behind the part. -/
def commit (p : Poll) (header stream : Bytes) : Passed :=
  match p.commitDeadline with
  | some err => ⟨header, [], some (.failed err)⟩
  | none =>
    let want := 5 - header.length
    let (more, err) := p.headerRest.readFull want stream
    match err with
    | some err => ⟨header ++ more, [], some (.failed err)⟩
    | none => p.relay (header ++ more) (stream.drop want)

def pass (p : Poll) (stream : Bytes) : Passed :=
  if p.stopping then ⟨[], [], some .stopped⟩
  else
    match p.pollDeadline with
    | some err => ⟨[], [], some (.failed err)⟩
    | none =>
      let (header, err) := p.header.readFull 5 stream
      if header = [] then
        -- nothing arrived in this interval; that is the normal case
        if p.header.err = .deadlineExceeded then ⟨[], [], none⟩
        else ⟨[], [], some (.failed p.header.err)⟩
      else
        match err with
        | none => p.relay header (stream.drop 5)
        | some _ => p.commit header (stream.drop header.length)

end Poll

structure Watched where
  consumed : Bytes
  written : Bytes
  ended : WatchEnd
  deriving DecidableEq

/-- `run` over the passes it makes; `none` while it has not returned. -/
def watchAsync : Bytes → List Poll → Option Watched
  | _, [] => none
  | stream, p :: polls =>
    let passed := p.pass stream
    match passed.ended with
    | some ended => some ⟨passed.consumed, passed.written, ended⟩
    | none =>
      (watchAsync (stream.drop passed.consumed.length) polls).map fun w =>
        { w with
          consumed := passed.consumed ++ w.consumed
          written := passed.written ++ w.written }

end Pontus.Proxy
