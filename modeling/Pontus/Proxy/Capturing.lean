import Pontus.Lib.Buffer
import Pontus.Lib.Run
import Pontus.Proxy.ExecuteRequest

/-!
# Where a captured reply lives

`Session.ResponseCapture` is a pointer to a buffer, `responseCapture` wraps the
same buffer, and what `Cache.Handle` stores is a slice of its array.  Here the
requests of one session are followed at that level: which buffer each of them
writes its reply to, and what becomes of the arrays the stored slices look at.
-/

namespace Pontus.Proxy

open Lib Protocol

structure HeapCapture where
  buffer : Buffer
  limit : Nat
  overflowed : Bool
  deriving DecidableEq

namespace HeapCapture

def wrap (buffer : Buffer) (limit : Int) : HeapCapture :=
  ⟨buffer, (newResponseCapture [] limit).limit, false⟩

/-- `spare` is the room left in a larger array, if the buffer has to move. -/
def write (h : Heap UInt8) (c : HeapCapture) (chunk : Bytes) (spare : Nat) :
    Heap UInt8 × HeapCapture :=
  if c.overflowed then (h, c)
  else if c.limit < c.buffer.length + chunk.length then
    (h, { c with overflowed := true, buffer := c.buffer.reset })
  else
    let written := c.buffer.write h chunk spare
    (written.1, { c with buffer := written.2 })

def writeAll (h : Heap UInt8) (c : HeapCapture) : List (Bytes × Nat) → Heap UInt8 × HeapCapture
  | [] => (h, c)
  | (chunk, spare) :: chunks =>
    let written := c.write h chunk spare
    writeAll written.1 written.2 chunks

def view (h : Heap UInt8) (c : HeapCapture) : ResponseCapture :=
  ⟨c.buffer.contents h, c.limit, c.overflowed⟩

end HeapCapture

structure StoredSlice where
  slice : Slice
  bytes : Bytes
  deriving DecidableEq

/-- A session between two requests: its buffer, what was stored of its replies,
and the capture its last request used, with the reply to that request. -/
structure Capturing where
  heap : Heap UInt8
  responseCapture : Option Buffer
  stored : List StoredSlice
  used : Option (HeapCapture × Bytes)

/-- A request on its way: what `Cache.Handle` made of it, whether it leads a
call, the chunks of its reply if `executeRequest` got that far, and whether the
reply may be stored. -/
structure Exchange where
  step : CacheStep
  led : Bool
  reply : Option (List (Bytes × Nat))
  storable : Bool

def CacheStep.isMiss : CacheStep → Bool
  | .miss _ _ => true
  | _ => false

def CacheStep.isHit : CacheStep → Bool
  | .hit _ => true
  | _ => false

def Exchange.bytes (e : Exchange) : Bytes := ((e.reply.getD []).map Prod.fst).flatten

namespace Capturing

def start : Capturing := ⟨[], none, [], none⟩

/-- The buffer the session points to when `executeRequest` begins: a miss sets
up a new one. -/
def bufferFor (c : Capturing) (e : Exchange) : Option Buffer :=
  if e.step.isMiss then some .new else c.responseCapture

/-- The capture `executeRequest` sets up, if anybody wants the reply. -/
def captureOf (limit : Int) (buffer : Option Buffer) (led : Bool) : Option HeapCapture :=
  match buffer with
  | some buffer => some (.wrap buffer limit)
  | none => if led then some (.wrap .new limit) else none

def sliceOf (b : Buffer) : Option Slice := b.array.map (⟨·, b.length⟩)

def storeReply (c : Capturing) (e : Exchange) (h : Heap UInt8) (b : Buffer) : List StoredSlice :=
  if e.step.isMiss && e.storable && b.length != 0 then
    ((sliceOf b).map fun slice => ⟨slice, slice.contents h⟩).toList ++ c.stored
  else c.stored

def step (limit : Int) (c : Capturing) (e : Exchange) : Option Capturing :=
  if e.step.isHit then some { c with used := none }
  else
    match e.reply, captureOf limit (c.bufferFor e) e.led with
    | some chunks, some capture =>
      let written := capture.writeAll c.heap chunks
      some {
        heap := written.1
        responseCapture := (c.bufferFor e).map fun _ => written.2.buffer
        stored := c.storeReply e written.1 written.2.buffer
        used := some (written.2, e.bytes) }
    | _, _ => some { c with responseCapture := c.bufferFor e, used := none }

end Capturing

end Pontus.Proxy
