import Pontus.Protocol.ReplyScanner

/-!
# Requests of Pontus's own

The handler puts questions of its own to a backend: it replays a session onto a
new connection, asks for a write position, waits for a replica to catch up, and
resets a connection before it is used again.  What the network does is data: a
round trip carries the error of the write, what the backend answers, and what
the reads return, exactly as many as are made; a function that is still waiting
for a read returns `none`.

A replay is awaited with the reply scanner.  The other questions walk each read
from its own first byte and carry nothing over to the next.
-/

namespace Pontus.Protocol

open Lib

inductive NetError
  | deadlineExceeded
  | failed
  deriving DecidableEq

structure Read where
  data : Bytes
  err : Option NetError
  deriving DecidableEq

structure RoundTrip where
  writeError : Option NetError
  reply : List Frame
  reads : List Read

def RoundTrip.taken (t : RoundTrip) : Bytes := (t.reads.map Read.data).flatten

def RoundTrip.readFails (t : RoundTrip) : Bool := t.reads.any fun r => r.err.isSome

def simpleQuery (text : Bytes) : Bytes :=
  'Q'.toUInt8 :: (putU32 (4 + (text.length + 1)) ++ (text ++ [0]))

def parseMessage (name query : Bytes) : Bytes :=
  'P'.toUInt8 :: (putU32 (4 + (name.length + 1 + query.length + 1 + 2)) ++
    (name ++ 0 :: (query ++ [0, 0, 0])))

def syncMessage : Bytes := ['S'.toUInt8, 0, 0, 0, 4]

section
variable {α β : Type}

/-- Walk the messages of one read, from its first byte to the first message
whose header is cut off.  `visit` sees what is left of the read from the
message on; every pass takes a byte, so the length of the read is fuel
enough. -/
def walkChunk (visit : α → Bytes → α ⊕ β) : Nat → α → Bytes → α ⊕ β
  | 0, acc, _ => .inl acc
  | _ + 1, acc, [] => .inl acc
  | fuel + 1, acc, tag :: rest =>
    match visit acc (tag :: rest) with
    | .inr result => .inr result
    | .inl acc =>
      match rest with
      | b₁ :: b₂ :: b₃ :: b₄ :: _ =>
        walkChunk visit fuel acc ((tag :: rest).drop (1 + beU32 b₁ b₂ b₃ b₄))
      | _ => .inl acc

def probeLoop (visit : α → Bytes → α ⊕ β) : α → List Read → Option (Except NetError β)
  | _, [] => none
  | acc, read :: rest =>
    match read.err with
    | some err => if rest.isEmpty then some (.error err) else none
    | none =>
      match walkChunk visit read.data.length acc read.data with
      | .inr result => if rest.isEmpty then some (.ok result) else none
      | .inl acc => probeLoop visit acc rest

def probe (visit : α → Bytes → α ⊕ β) (start : α) (t : RoundTrip) : Option (Except NetError β) :=
  match t.writeError with
  | some err => some (.error err)
  | none => probeLoop visit start t.reads

end

/-- A ReadyForQuery whose status lies within the read. -/
def visitStatus (state : TransactionState) (rest : Bytes) : TransactionState ⊕ Empty :=
  match rest with
  | tag :: _ :: _ :: _ :: _ :: status :: _ =>
    if tag ≠ 'Z'.toUInt8 then .inl state
    else if status = 'I'.toUInt8 then .inl .stateIdle
    else if status = 'T'.toUInt8 ∨ status = 'B'.toUInt8 then .inl .stateInTransaction
    else if status = 'E'.toUInt8 then .inl .stateError
    else .inl state
  | _ => .inl state

def peekTransactionState (data : Bytes) : TransactionState :=
  (walkChunk visitStatus data.length .statePartial data).elim id Empty.elim

/-- `Execute`: an ErrorResponse fails it, a ReadyForQuery completes it. -/
def visitExecute (_ : Unit) (rest : Bytes) : Unit ⊕ Bool :=
  if rest.head? = some 'E'.toUInt8 then .inr false
  else if rest.head? = some 'Z'.toUInt8 then .inr true
  else .inl ()

def execute (t : RoundTrip) : Option Bool :=
  (probe visitExecute () t).map fun result =>
    match result with
    | .ok completed => completed
    | .error _ => false

def firstColumn (row : Bytes) : Option Bytes :=
  match row with
  | _ :: _ :: _ :: _ :: _ :: _ :: _ :: b₀ :: b₁ :: b₂ :: b₃ :: value =>
    let colLen := beU32 b₀ b₁ b₂ b₃
    if value ≠ [] ∧ 0 < colLen ∧ colLen ≤ value.length then some (value.take colLen) else none
  | _ => none

def visitLSN (lsn : Bytes) (rest : Bytes) : Bytes ⊕ Bytes :=
  let lsn := if rest.head? = some 'D'.toUInt8 then (firstColumn rest).getD lsn else lsn
  if rest.head? = some 'Z'.toUInt8 then .inr lsn else .inl lsn

def getCurrentLSN (t : RoundTrip) : Option (Except NetError Bytes) := probe visitLSN [] t

def visitCaughtUp (caughtUp : Bool) (rest : Bytes) : Bool ⊕ Bool :=
  let caughtUp := caughtUp ||
    (rest.head? == some 'D'.toUInt8 && (rest.drop 11).head? == some 't'.toUInt8)
  if rest.head? = some 'Z'.toUInt8 then .inr caughtUp else .inl caughtUp

/-- Ask again until the replica has caught up.  Behind the last round the
context has ended. -/
def waitLSN : List RoundTrip → Option Bool
  | [] => none
  | t :: rounds =>
    match probe visitCaughtUp false t with
    | none => none
    | some (.error _) => if rounds.isEmpty then some false else none
    | some (.ok true) => if rounds.isEmpty then some true else none
    | some (.ok false) => if rounds.isEmpty then some false else waitLSN rounds

/-- Consume exactly one reply; `false` when the backend refused the request or
the connection failed. -/
def awaitLoop : ReplyScanner → List Read → Option Bool
  | _, [] => none
  | scan, read :: rest =>
    let fed := scan.feed read.data
    if read.data ≠ [] ∧ fed.2.1 = true then if rest.isEmpty then some (!fed.1.sawError) else none
    else if read.err.isSome then if rest.isEmpty then some false else none
    else awaitLoop fed.1 rest

def awaitReply (setDeadline : Option NetError) (reads : List Read) : Option Bool :=
  match setDeadline with
  | some _ => if reads.isEmpty then some false else none
  | none => awaitLoop (newReplyScanner ⟨true, []⟩) reads

end Pontus.Protocol
