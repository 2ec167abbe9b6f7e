import Pontus.Protocol.RoundTrip

/-!
# The messages a tracked session is made of

The client messages that say something about a session: a simple Query, a
Parse with the types of its parameters, a Close of a statement, and the Sync
that ends a batch.  `encode` is their form on the wire.  A read is not a
message: what walks a buffer of them goes on by `messageLength`.
-/

namespace Pontus.Protocol

open Lib

/-- The total size of the message at the front of the buffer, or `none` when
its header has not arrived. -/
def messageLength (data : Bytes) : Option Nat :=
  match data with
  | _ :: b₁ :: b₂ :: b₃ :: b₄ :: _ =>
    let length := beU32 b₁ b₂ b₃ b₄
    -- A length that cannot be followed takes the bytes in hand as the message.
    if length < 4 then some data.length else some (1 + length)
  | _ => none

theorem messageLength_encode (m : Frame) (rest : Bytes) :
    messageLength (m.encode ++ rest) = some m.encode.length := by
  have hlen := m.beU32_length
  rw [Frame.encode_eq]
  simp only [messageLength, cons_append]
  rw [hlen, if_neg (by omega)]
  simp only [length_cons, some_inj]
  omega

inductive ClientMessage
  | query (text : Bytes)
  | parse (name text : Bytes) (types : List UInt32)
  | closeStatement (name : Bytes)
  | sync
  deriving DecidableEq

namespace ClientMessage

def putU16 (n : Nat) : Bytes := [UInt8.ofNat (n / 2 ^ 8), UInt8.ofNat n]

def tag : ClientMessage → UInt8
  | query _ => feQuery
  | parse _ _ _ => feParse
  | closeStatement _ => feClose
  | sync => feSync

def parameterTypes (types : List UInt32) : Bytes :=
  putU16 types.length ++ types.flatMap fun oid => putU32 oid.toNat

def body : ClientMessage → Bytes
  | query text => text ++ [0]
  | parse name text types => name ++ 0 :: (text ++ 0 :: parameterTypes types)
  | closeStatement name => 'S'.toUInt8 :: (name ++ [0])
  | sync => []

def stringsEnd : ClientMessage → Bool
  | query text => !text.contains 0
  | parse name text _ => !name.contains 0 && !text.contains 0
  | closeStatement name => !name.contains 0
  | sync => true

/-- The strings end where they say and the length prefix describes the
message. -/
def wellFormed (m : ClientMessage) : Bool := decide (4 + m.body.length < 2 ^ 32) && m.stringsEnd

def encode (m : ClientMessage) : Bytes := m.tag :: (putU32 (4 + m.body.length) ++ m.body)

def encodeAll (ms : List ClientMessage) : Bytes := ms.flatMap encode

theorem wellFormed_iff {m : ClientMessage} :
    m.wellFormed ↔ 4 + m.body.length < 2 ^ 32 ∧ m.stringsEnd := by
  rw [wellFormed, and_eq_true, decide_eq_true_eq]

def frame (m : ClientMessage) (h : m.wellFormed = true) : Frame :=
  ⟨m.tag, m.body, (wellFormed_iff.1 h).1⟩

end ClientMessage

end Pontus.Protocol
