import Pontus.Protocol.ReplyScanner

/-!
# MySQL on the wire

A packet is a payload behind its length, in three bytes with the least
significant first, and a sequence number; a payload of `2 ^ 24 - 1` bytes or
more takes several.  `TextReply` is what a server answers a text-protocol
command with: an OK packet, an ERR packet, or a result set, which ends in EOF
or, for a client that asked for it, in an OK packet with the header of an EOF.
-/

namespace Pontus.Protocol.MySQL

open Lib

def littleEndian : Nat → Nat → Bytes
  | 0, _ => []
  | width + 1, n => UInt8.ofNat n :: littleEndian width (n / 256)

def lengthEncoded (n : Nat) : Bytes :=
  if n < 251 then [UInt8.ofNat n]
  else if n < 2 ^ 16 then 0xfc :: littleEndian 2 n
  else if n < 2 ^ 24 then 0xfd :: littleEndian 3 n
  else 0xfe :: littleEndian 8 n

def maxPayload : Nat := 2 ^ 24 - 1

def splitPayload : Nat → Bytes → List Bytes
  | 0, payload => [payload]
  | fuel + 1, payload =>
    if payload.length < maxPayload then [payload]
    else payload.take maxPayload :: splitPayload fuel (payload.drop maxPayload)

def encodePackets : Nat → List Bytes → Bytes
  | _, [] => []
  | sequence, payload :: rest =>
    littleEndian 3 payload.length ++ UInt8.ofNat sequence ::
      (payload ++ encodePackets (sequence + 1) rest)

structure OKPacket where
  affectedRows : UInt64
  lastInsertID : UInt64
  status : UInt16
  warnings : UInt16
  info : Bytes
  deriving DecidableEq

def OKPacket.payload (header : UInt8) (p : OKPacket) : Bytes :=
  header :: (lengthEncoded p.affectedRows.toNat ++ lengthEncoded p.lastInsertID.toNat ++
    littleEndian 2 p.status.toNat ++ littleEndian 2 p.warnings.toNat ++ p.info)

structure EOFPacket where
  warnings : UInt16
  status : UInt16
  deriving DecidableEq

def EOFPacket.payload (p : EOFPacket) : Bytes :=
  0xfe :: (littleEndian 2 p.warnings.toNat ++ littleEndian 2 p.status.toNat)

inductive TextReply
  | ok (packet : OKPacket)
  | err (code : UInt16) (sqlState message : Bytes)
  | resultSet (columns : List Bytes) (behindColumns : EOFPacket) (rows : List Bytes)
      (ending : EOFPacket)
  | resultSetOK (columns rows : List Bytes) (ending : OKPacket)
  deriving DecidableEq

namespace TextReply

def payloads : TextReply → List Bytes
  | ok packet => [packet.payload 0]
  | err code sqlState message =>
    [0xff :: (littleEndian 2 code.toNat ++ '#'.toUInt8 :: (sqlState ++ message))]
  | resultSet columns behindColumns rows ending =>
    lengthEncoded columns.length :: (columns ++ behindColumns.payload :: (rows ++ [ending.payload]))
  | resultSetOK columns rows ending =>
    lengthEncoded columns.length :: (columns ++ (rows ++ [ending.payload 0xfe]))

def encode (r : TextReply) : Bytes :=
  encodePackets 1 (r.payloads.flatMap fun payload => splitPayload payload.length payload)

def status : TextReply → Option UInt16
  | ok packet => some packet.status
  | err _ _ _ => none
  | resultSet _ _ _ ending => some ending.status
  | resultSetOK _ _ ending => some ending.status

def inTransaction (r : TextReply) : Bool := r.status.any fun flags => flags.toNat % 2 == 1

end TextReply

/-! ## What the handler reads of it -/

/-- In an OK packet counted from the end, in an EOF packet from the start. -/
def statusFlags (payload : Bytes) : Nat :=
  let flagsAt (i : Nat) := (payload.getD i 0).toNat + 256 * (payload.getD (i + 1) 0).toNat
  if payload.head? = some 0 ∧ 7 ≤ payload.length then flagsAt (payload.length - 4)
  else if payload.head? = some 0xfe ∧ 5 ≤ payload.length then flagsAt 3
  else 0

def peekPacket (state : TransactionState) (payload : Bytes) : TransactionState :=
  if payload.head? = some 0 ∨ payload.head? = some 0xfe then
    if statusFlags payload % 2 = 0 then .stateIdle else .stateInTransaction
  else state

def peekLoop : Nat → TransactionState → Bytes → TransactionState
  | fuel + 1, state, a :: b :: c :: _ :: rest =>
    let length := a.toNat + 256 * b.toNat + 65536 * c.toNat
    if rest.length < length then state
    else peekLoop fuel (peekPacket state (rest.take length)) (rest.drop length)
  | _, state, _ => state

/-- Every pass takes a header, so the length of the data is fuel enough. -/
def peekTransactionState (data : Bytes) : TransactionState :=
  peekLoop data.length .statePartial data

end Pontus.Protocol.MySQL
