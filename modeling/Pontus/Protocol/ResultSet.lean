import Pontus.Protocol.ClientMessages

/-!
# Replies that Pontus makes itself

The administration console has no backend whose reply it could relay.
`ResultSet` holds rows until the client has said how they are to be encoded;
the rest of the file are the small messages around them, and what is read of
the client's own messages.
-/

namespace Pontus.Protocol

open Lib
open ClientMessage (putU16 parameterTypes)

def appendInt (dst : Bytes) (n : Nat) : Bytes := dst ++ ascii (Nat.repr n)

/-- A signed number in decimal, as `%d` prints it. -/
def decimal (n : Int) : Bytes :=
  if n < 0 then 45 :: appendInt [] n.natAbs else appendInt [] n.natAbs

def appendTagged (dst : Bytes) (tag : UInt8) (body : Bytes) : Bytes :=
  dst ++ tag :: (putU32 (body.length + 4) ++ body)

def oidInt8 : Nat := 20

def oidText : Nat := 25

structure Column where
  name : Bytes
  oid : Nat
  deriving DecidableEq

def numericColumn (name : Bytes) : Column := ⟨name, oidInt8⟩

/-- The format codes are 16-bit words; two of them have a meaning. -/
def formatText : UInt16 := 0

def formatBinary : UInt16 := 1

/-- No codes mean text, one is for every column, and otherwise each column has
its own. -/
def formatFor (formats : List UInt16) (column : Nat) : UInt16 :=
  match formats with
  | [] => formatText
  | [format] => format
  | _ => formats.getD column formatText

def parseInt (value : Bytes) : Option Int :=
  let (negative, digits) : Bool × Bytes :=
    match value with
    | 45 :: digits => (true, digits)
    | 43 :: digits => (false, digits)
    | digits => (false, digits)
  if digits = [] ∨ ¬ digits.all (fun b => 48 ≤ b && b ≤ 57) then none
  else
    let n : Nat := digits.foldl (fun n b => n * 10 + (b.toNat - 48)) 0
    if negative then if n ≤ 2 ^ 63 then some (-n) else none
    else if n < 2 ^ 63 then some n else none

/-- Eight bytes for a number in binary; NULL where a numeric column holds no
number. -/
def appendValue (dst : Bytes) (column : Column) (value : Bytes) (format : UInt16) : Bytes :=
  if format ≠ formatBinary then dst ++ putU32 value.length ++ value
  else if column.oid ≠ oidInt8 then dst ++ putU32 value.length ++ value
  else
    match parseInt value with
    | none => dst ++ putU32 (2 ^ 32 - 1)
    | some n => dst ++ putU32 8 ++ putU64 (n % 2 ^ 64).toNat

def typeSize (oid : Nat) : Nat := if oid = oidInt8 then 8 else 2 ^ 16 - 1

def commandTag (verb : Bytes) (rows : Nat) : Bytes := appendInt (verb ++ [32]) rows ++ [0]

def txIdle : UInt8 := 'I'.toUInt8

structure ResultSet where
  columns : List Column
  rows : List (List Bytes)
  err : Option Bytes
  deriving DecidableEq

namespace ResultSet

def new (columns : List Column) : ResultSet := ⟨columns, [], none⟩

/-- Append a row.  One of the wrong length is kept back, and reported when the
set is sent. -/
def row (r : ResultSet) (values : List Bytes) : ResultSet :=
  if values.length ≠ r.columns.length then
    { r with
      err := r.err.or (some (ascii "result set has " ++ decimal r.columns.length ++
        ascii " columns but the row carries " ++ decimal values.length ++ ascii " values")) }
  else { r with rows := r.rows ++ [values] }

def appendRowValues (columns : List Column) (formats : List UInt16) (values : List Bytes) : Bytes :=
  ((columns.zip values).zipIdx).foldl
    (fun body cell => appendValue body cell.1.1 cell.1.2 (formatFor formats cell.2))
    (putU16 values.length)

def appendRows (r : ResultSet) (dst : Bytes) (formats : List UInt16) : Bytes :=
  r.rows.foldl (fun dst values =>
    appendTagged dst 'D'.toUInt8 (appendRowValues r.columns formats values)) dst

def appendRowDescription (dst : Bytes) (columns : List Column) (formats : List UInt16) : Bytes :=
  appendTagged dst 'T'.toUInt8
    (columns.zipIdx.foldl (fun body column =>
      body ++ column.1.name ++ [0] ++ putU32 0 ++ putU16 0 ++ putU32 column.1.oid ++
        putU16 (typeSize column.1.oid) ++ putU32 (2 ^ 32 - 1) ++
        putU16 (formatFor formats column.2).toNat) (putU16 columns.length))

def send (r : ResultSet) : Except Bytes Bytes :=
  match r.err with
  | some err => .error err
  | none =>
    let out := appendRowDescription [] r.columns []
    let out := r.appendRows out []
    let out := appendTagged out 'C'.toUInt8 (commandTag (ascii "SELECT") r.rows.length)
    .ok (appendTagged out 'Z'.toUInt8 [txIdle])

def description (r : ResultSet) (formats : List UInt16) : Except Bytes Bytes :=
  match r.err with
  | some err => .error err
  | none => .ok (appendRowDescription [] r.columns formats)

def sendRows (r : ResultSet) (formats : List UInt16) : Except Bytes Bytes :=
  match r.err with
  | some err => .error err
  | none =>
    .ok (appendTagged (r.appendRows [] formats) 'C'.toUInt8
      (commandTag (ascii "SELECT") r.rows.length))

end ResultSet

def tagParseComplete : UInt8 := '1'.toUInt8

def tagBindComplete : UInt8 := '2'.toUInt8

def tagCloseComplete : UInt8 := '3'.toUInt8

def tagNoData : UInt8 := 'n'.toUInt8

def writeAck (tag : UInt8) : Bytes := appendTagged [] tag []

def writeReadyForQuery : Bytes := appendTagged [] 'Z'.toUInt8 [txIdle]

def writeParameterDescription (count : Nat) : Bytes :=
  appendTagged [] 't'.toUInt8 (putU16 count ++ (List.replicate count (putU32 oidText)).flatten)

def writeCommandTag (tag : Bytes) : Bytes := appendTagged [] 'C'.toUInt8 (tag ++ [0])

def writeCommandComplete (tag : Bytes) : Bytes :=
  appendTagged (writeCommandTag tag) 'Z'.toUInt8 [txIdle]

def writeEmptyQuery : Bytes := appendTagged (appendTagged [] 'I'.toUInt8 []) 'Z'.toUInt8 [txIdle]

def errorResponse (severity code message : Bytes) : Bytes :=
  let fields := 'S'.toUInt8 :: (severity ++ [0]) ++ 'V'.toUInt8 :: (severity ++ [0]) ++
    'C'.toUInt8 :: (code ++ [0]) ++ 'M'.toUInt8 :: (message ++ [0])
  appendTagged [] 'E'.toUInt8 (fields ++ [0])

def queryText (body : Bytes) : Bytes :=
  match cutAt 0 body with
  | some (text, _) => text
  | none => body

structure ParseMessage where
  name : Bytes
  query : Bytes
  deriving DecidableEq

def decodeParse (body : Bytes) : Except Bytes ParseMessage :=
  match cutAt 0 body with
  | none => .error (ascii "the Parse message has no statement name")
  | some (name, rest) =>
    match cutAt 0 rest with
    | none => .error (ascii "the Parse message has no query")
    | some (query, _) => .ok ⟨name, query⟩

/-- What a Describe asks about: `S` for a statement, `P` for a portal. -/
def describeTarget (body : Bytes) : UInt8 := body.headD 0

/-- A reader stops with an error, or it slices with a negative bound and
panics. -/
inductive ReadFault
  | error (text : Bytes)
  | panics
  deriving DecidableEq

def readInt16 : Bytes → Except ReadFault (Int × Bytes)
  | b₀ :: b₁ :: rest => .ok ((b₀.toNat * 2 ^ 8 + b₁.toNat : Int).bmod (2 ^ 16), rest)
  | _ => .error (.error (ascii "message is truncated where a count was expected"))

def parametersTruncated : Bytes := ascii "the Bind message is truncated in its parameters"

def parameterMissing (size : Int) : Bytes :=
  ascii "the Bind message declares a " ++ decimal size ++ ascii " byte parameter it does not carry"

def parameterSize (b₀ b₁ b₂ b₃ : UInt8) : Int := (beU32 b₀ b₁ b₂ b₃ : Int).bmod (2 ^ 32)

/-- Pass the parameter values, each behind its length, which is negative for
NULL. -/
def skipParameters : Nat → Bytes → Except ReadFault Bytes
  | 0, rest => .ok rest
  | count + 1, b₀ :: b₁ :: b₂ :: b₃ :: rest =>
    let size := parameterSize b₀ b₁ b₂ b₃
    if size < 0 then skipParameters count rest
    else if (rest.length : Int) < size then .error (.error (parameterMissing size))
    else skipParameters count (rest.drop size.toNat)
  | _ + 1, _ => .error (.error parametersTruncated)

def takeFormats : Nat → Bytes → List UInt16
  | count + 1, b₀ :: b₁ :: rest =>
    UInt16.ofNat (b₀.toNat * 2 ^ 8 + b₁.toNat) :: takeFormats count rest
  | _, _ => []

def carries (rest : Bytes) (count : Int) (what : Bytes) : Except ReadFault Unit :=
  if (rest.length : Int) < count * 2 then
    .error (.error (ascii "the Bind message declares " ++ decimal count ++ what ++
      ascii " formats it does not carry"))
  else if count < 0 then .error .panics
  else .ok ()

def decodeBindResultFormats (body : Bytes) : Except ReadFault (List UInt16) := do
  let truncated : ReadFault := .error (ascii "the Bind message is truncated in its names")
  let (_, rest) ← (cutAt 0 body).elim (.error truncated) .ok
  let (_, rest) ← (cutAt 0 rest).elim (.error truncated) .ok
  let (count, rest) ← readInt16 rest
  carries rest count (ascii " parameter")
  let (params, rest) ← readInt16 (rest.drop (count * 2).toNat)
  let rest ← skipParameters params.toNat rest
  let (count, rest) ← readInt16 rest
  carries rest count (ascii " result")
  return takeFormats count.toNat rest

/-! ## The messages of the extended protocol -/

inductive Target
  | statement
  | portal
  deriving DecidableEq

def Target.byte : Target → UInt8
  | .statement => 'S'.toUInt8
  | .portal => 'P'.toUInt8

inductive ExtendedMessage
  | parse (name query : Bytes) (types : List UInt32)
  | bind (portal statement : Bytes) (paramFormats : List UInt16) (params : List (Option Bytes))
      (resultFormats : List UInt16)
  | describe (target : Target) (name : Bytes)
  | execute (portal : Bytes) (maxRows : UInt32)
  | close (target : Target) (name : Bytes)
  | sync
  deriving DecidableEq

def putFormats (formats : List UInt16) : Bytes :=
  putU16 formats.length ++ formats.flatMap fun format => putU16 format.toNat

def putParameter : Option Bytes → Bytes
  | none => putU32 (2 ^ 32 - 1)
  | some value => putU32 value.length ++ value

def putParameters (params : List (Option Bytes)) : Bytes :=
  putU16 params.length ++ params.flatMap putParameter

namespace ExtendedMessage

def tag : ExtendedMessage → UInt8
  | parse .. => 'P'.toUInt8
  | bind .. => 'B'.toUInt8
  | describe .. => 'D'.toUInt8
  | execute .. => 'E'.toUInt8
  | close .. => 'C'.toUInt8
  | sync => 'S'.toUInt8

def body : ExtendedMessage → Bytes
  | parse name query types => name ++ 0 :: (query ++ 0 :: parameterTypes types)
  | bind portal statement paramFormats params resultFormats =>
    portal ++ 0 :: (statement ++ 0 :: (putFormats paramFormats ++
      (putParameters params ++ putFormats resultFormats)))
  | describe target name => target.byte :: (name ++ [0])
  | execute portal maxRows => portal ++ 0 :: putU32 maxRows.toNat
  | close target name => target.byte :: (name ++ [0])
  | sync => []

/-- Strings end at their first NUL, and the counts and lengths, which are
signed, describe what follows. -/
def wellFormed : ExtendedMessage → Bool
  | parse name query types =>
    !name.contains 0 && !query.contains 0 && decide (types.length < 2 ^ 15)
  | bind portal statement paramFormats params resultFormats =>
    !portal.contains 0 && !statement.contains 0 && decide (paramFormats.length < 2 ^ 15) &&
      decide (params.length < 2 ^ 15) &&
      params.all (fun param => decide ((param.getD []).length < 2 ^ 31)) &&
      decide (resultFormats.length < 2 ^ 15)
  | describe _ name => !name.contains 0
  | execute portal _ => !portal.contains 0
  | close _ name => !name.contains 0
  | sync => true

end ExtendedMessage

end Pontus.Protocol
