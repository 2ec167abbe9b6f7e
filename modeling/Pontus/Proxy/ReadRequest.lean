import Pontus.Lib.Inbound
import Pontus.Protocol.ClientMessages
import Pontus.Proxy.Response

/-!
# Reading a request

A request is what the client had sent when the loop looked, extended until no
message in it is half-finished.  It may hold several pipelined messages.
-/

namespace Pontus.Proxy

open Lib Protocol

def defaultMaxMessageBytes : Nat := 64 * 2 ^ 20

/-- How much is read when a message header itself arrived split. -/
def postgresHeaderProbe : Nat := 8

def trailingNeedLoop : Nat → Bytes → Nat
  | 0, _ => 0
  | _ + 1, [] => 0
  | fuel + 1, data =>
    match messageLength data with
    -- The header itself is incomplete; one more byte at least.
    | none => 1
    | some total =>
      if data.length < total then total - data.length
      else trailingNeedLoop fuel (data.drop total)

/-- How many more bytes are needed before every message is complete. -/
def trailingNeed (data : Bytes) : Nat := trailingNeedLoop (data.length + 1) data

inductive ReadError
  | net (err : NetError)
  | messageTooLarge (text : String)
  deriving DecidableEq

structure ClientRead where
  data : Bytes
  err : Option NetError
  deriving DecidableEq

/-- Keep reading until nothing in the buffer is half-finished.  Each element of
the script is one `io.ReadFull`, which fails exactly when it came back short;
`none` while it waits. -/
def readWholeMessage (maxMessageBytes : Nat) : Bytes → List ClientRead →
    Option (Bytes × Option ReadError)
  | data, script =>
    let need := trailingNeed data
    if need = 0 then some (data, none)
    else if maxMessageBytes < data.length + need then
      some (data, some (.messageTooLarge
        ("client message of " ++ toString (data.length + need) ++
          " bytes exceeds max_message_bytes of " ++ toString maxMessageBytes)))
    else
      let want := if need = 1 then postgresHeaderProbe else need
      match script with
      | [] => none
      | read :: script =>
        let data := data ++ read.data.take want
        if read.data.length < want then
          -- A short read is an error only if it left a message unfinished.
          if trailingNeed data = 0 then some (data, none)
          else some (data, some (.net (read.err.getD .failed)))
        else readWholeMessage maxMessageBytes data script

def readRequest (maxMessageBytes : Nat) : List ClientRead → Option (Bytes × Option ReadError)
  | [] => none
  | read :: script =>
    match read.err with
    | some err => some (read.data, some (.net err))
    | none =>
      if read.data = [] ∨ trailingNeed read.data = 0 then some (read.data, none)
      else readWholeMessage maxMessageBytes read.data script

theorem trailingNeedLoop_encodeAll (fuel : Nat) (ms : List Frame)
    (hfuel : (Frame.encodeAll ms).length < fuel) :
    trailingNeedLoop fuel (Frame.encodeAll ms) = 0 := by
  induction ms generalizing fuel with
  | nil =>
    cases fuel with
    | zero | succ fuel => rfl
  | cons _ _ ih =>
    cases fuel with
    | zero => rfl
    | succ fuel =>
      rw [Frame.encodeAll_cons, length_append, Frame.length_encode] at hfuel
      rw [Frame.encodeAll_cons, Frame.encode_eq, cons_append, trailingNeedLoop]
      · rw [← cons_append, ← Frame.encode_eq, messageLength_encode]
        dsimp only
        rw [if_neg (by rw [length_append]; omega), drop_left]
        exact ih fuel (by omega)
      · simp

theorem readRequest_encodeAll (maxMessageBytes : Nat) (ms : List Frame) (script : List ClientRead) :
    readRequest maxMessageBytes (⟨Frame.encodeAll ms, none⟩ :: script) =
      some (Frame.encodeAll ms, none) := by
  have hneed : trailingNeed (Frame.encodeAll ms) = 0 :=
    trailingNeedLoop_encodeAll _ ms (Nat.lt_succ_self _)
  simp [readRequest, hneed]

/-! ## Off the socket -/

/-- How many bytes the next `io.ReadFull` asks for. -/
def wanted (data : Bytes) : Nat :=
  if trailingNeed data = 1 then postgresHeaderProbe else trailingNeed data

def exceedsMaxMessageBytes (total maxMessageBytes : Nat) : ReadError :=
  .messageTooLarge ("client message of " ++ toString total ++
    " bytes exceeds max_message_bytes of " ++ toString maxMessageBytes)

/-- `readWholeMessage` on a socket: what it returns and what is then still on
its way, or `none` when it waits for bytes that do not come. -/
def readWholeMessageFrom (maxMessageBytes : Nat) (closes : Bool) : Nat → Bytes → List Bytes →
    Option ((Bytes × Option ReadError) × List Bytes)
  | 0, _, _ => none
  | fuel + 1, data, pieces =>
    let need := trailingNeed data
    if need = 0 then some ((data, none), pieces)
    else if maxMessageBytes < data.length + need then
      some ((data, some (exceedsMaxMessageBytes (data.length + need) maxMessageBytes)), pieces)
    else
      let read := readFull (wanted data) pieces
      if read.1.length < wanted data then
        if closes then
          if trailingNeed (data ++ read.1) = 0 then some ((data ++ read.1, none), read.2)
          else some ((data ++ read.1, some (.net .failed)), read.2)
        else none
      else readWholeMessageFrom maxMessageBytes closes fuel (data ++ read.1) read.2

/-- `readRequest` on a socket.  Every pass of its loop reads something, so the
bytes on their way bound the passes. -/
def readRequestFrom (bufSize maxMessageBytes : Nat) (closes : Bool) (pieces : List Bytes) :
    Option ((Bytes × Option ReadError) × List Bytes) :=
  match readOnce bufSize pieces with
  | none => if closes then some (([], some (.net .failed)), []) else none
  | some (data, rest) =>
    if data = [] ∨ trailingNeed data = 0 then some ((data, none), rest)
    else readWholeMessageFrom maxMessageBytes closes (rest.flatten.length + 1) data rest

/-- What one call after another returns, up to the error that ends the session
or the call that waits. -/
def readRequests (bufSize maxMessageBytes : Nat) (closes : Bool) : Nat → List Bytes →
    List (Bytes × Option ReadError)
  | 0, _ => []
  | fuel + 1, pieces =>
    match readRequestFrom bufSize maxMessageBytes closes pieces with
    | none => []
    | some ((data, some err), _) => [(data, some err)]
    | some ((data, none), rest) =>
      (data, none) :: readRequests bufSize maxMessageBytes closes fuel rest

/-- Everything the calls of a session return.  Every call but the last takes
something off the socket. -/
def sessionRequests (bufSize maxMessageBytes : Nat) (closes : Bool) (pieces : List Bytes) :
    List (Bytes × Option ReadError) :=
  readRequests bufSize maxMessageBytes closes (pieces.flatten.length + 1) pieces

/-- The buffers `readWholeMessage` finds unfinished, one for each pass of its
loop, each with what is still on its way. -/
def unfinishedBuffers (maxMessageBytes : Nat) : Nat → Bytes → List Bytes →
    List (Bytes × List Bytes)
  | 0, _, _ => []
  | fuel + 1, data, pieces =>
    if trailingNeed data = 0 then []
    else (data, pieces) ::
      if maxMessageBytes < data.length + trailingNeed data ∨
          pieces.flatten.length < wanted data then []
      else
        let read := readFull (wanted data) pieces
        unfinishedBuffers maxMessageBytes fuel (data ++ read.1) read.2

def callBuffers (bufSize maxMessageBytes : Nat) (pieces : List Bytes) :
    List (Bytes × List Bytes) :=
  match readOnce bufSize pieces with
  | none => []
  | some (data, rest) => unfinishedBuffers maxMessageBytes (rest.flatten.length + 1) data rest

end Pontus.Proxy
