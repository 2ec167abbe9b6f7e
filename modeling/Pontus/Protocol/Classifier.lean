import Pontus.Protocol.Tokenizer
import Pontus.Protocol.Tracking

/-!
# Reading a request

What the handler tells the gateway about a request before it is run: whether it
only reads, whether it opens a transaction, which tables it names, the text
that stands for it in the statistics, and whether its reply may be stored.
-/

namespace Pontus.Protocol

open Lib

structure QueryInfo where
  readOnly : Bool
  inTransaction : Bool
  affectedTables : List Bytes
  deriving DecidableEq

/-- The local variables of `ClassifyQuery`. -/
structure Classification where
  sawRead : Bool
  sawWrite : Bool
  inTransaction : Bool
  lastKeyword : Bytes
  affectedTables : List Bytes

def readKeywords : List Bytes :=
  [ascii "SELECT", ascii "SHOW", ascii "DESCRIBE", ascii "DESC", ascii "EXPLAIN", ascii "WITH"]

def beginKeywords : List Bytes := [ascii "BEGIN", ascii "START"]

def writeKeywords : List Bytes :=
  [ascii "INSERT", ascii "DELETE", ascii "TRUNCATE", ascii "MERGE", ascii "DROP", ascii "ALTER",
    ascii "GRANT", ascii "REVOKE", ascii "CREATE", ascii "COMMENT", ascii "COPY", ascii "CALL",
    ascii "DO", ascii "VACUUM", ascii "REFRESH", ascii "REINDEX", ascii "CLUSTER", ascii "LOCK"]

def tableKeywords : List Bytes :=
  [ascii "FROM", ascii "JOIN", ascii "UPDATE", ascii "INTO", ascii "TABLE", ascii "ONLY"]

def trimByte (b : UInt8) (text : Bytes) : Bytes :=
  (((text.dropWhile (· == b)).reverse).dropWhile (· == b)).reverse

def classifyKeyword (c : Classification) (keyword : Bytes) : Classification :=
  let c :=
    if keyword ∈ readKeywords then { c with sawRead := true }
    else if keyword ∈ beginKeywords then { c with inTransaction := true }
    else if keyword = ascii "UPDATE" ∨ keyword = ascii "SHARE" then
      -- FOR UPDATE and FOR SHARE take row locks, so they are not read-only.
      if c.lastKeyword = ascii "FOR" ∨ keyword = ascii "UPDATE" then { c with sawWrite := true }
      else c
    else if keyword ∈ writeKeywords then { c with sawWrite := true }
    else c
  { c with lastKeyword := keyword }

section
variable (u : UnicodeTables)

def classifyToken (c : Classification) (token : Token) : Classification :=
  match token.type with
  | .tokenKeyword => classifyKeyword c token.value
  | .tokenIdentifier =>
    if c.lastKeyword ∈ tableKeywords then
      { c with affectedTables :=
          c.affectedTables ++ [toLower u (trimByte '"'.toUInt8 token.value)] }
    else c
  | _ => c

def firstOccurrences (tables : List Bytes) : List Bytes :=
  tables.foldl (fun seen t => if t ∈ seen then seen else seen ++ [t]) []

def classifyQuery (data : Bytes) : QueryInfo :=
  let query := extractQueryBytes data
  if query = [] then ⟨false, false, []⟩
  else
    let c := (tokenize u query).foldl (classifyToken u) ⟨false, false, false, [], []⟩
    ⟨c.sawRead && !c.sawWrite, c.inTransaction, firstOccurrences c.affectedTables⟩

end

def isIdentStart (r : Nat) : Bool :=
  r == '_'.toNat || ('a'.toNat ≤ r && r ≤ 'z'.toNat) || ('A'.toNat ≤ r && r ≤ 'Z'.toNat) || 127 < r

def isIdentPart (r : Nat) : Bool :=
  isIdentStart r || ('0'.toNat ≤ r && r ≤ '9'.toNat) || r == '$'.toNat

def isNumeralPart (r : Nat) : Bool := ('0'.toNat ≤ r && r ≤ '9'.toNat) || r == '.'.toNat

/-- The code points of a query with its literals replaced by a question mark.
Every pass takes a code point, so the length of the query is fuel enough. -/
def normalizeRunes : Nat → List Nat → List Nat
  | 0, _ => []
  | _ + 1, [] => []
  | fuel + 1, r :: rest =>
    if r = '\''.toNat then '?'.toNat :: normalizeRunes fuel (skipQuoted '\''.toNat rest)
    else if r = '"'.toNat then
      -- A quoted identifier is a name and is kept.
      '"'.toNat :: rest.takeWhile (· != '"'.toNat) ++
        '"'.toNat :: normalizeRunes fuel ((rest.dropWhile (· != '"'.toNat)).drop 1)
    else if isIdentStart r then
      r :: rest.takeWhile isIdentPart ++ normalizeRunes fuel (rest.dropWhile isIdentPart)
    else if '0'.toNat ≤ r && r ≤ '9'.toNat then
      '?'.toNat :: normalizeRunes fuel (rest.dropWhile isNumeralPart)
    else r :: normalizeRunes fuel rest

def basicNormalize (q : Bytes) : Bytes :=
  let runes := decodeRunes q
  encodeRunes (normalizeRunes runes.length runes)

def normalizeQuery (data : Bytes) : Bytes :=
  let query := extractQueryBytes data
  if query = [] then [] else basicNormalize query

theorem basicNormalize_ne_nil (h : q ≠ []) : basicNormalize q ≠ [] := by
  have hrunes := decodeRunes_ne_nil h
  unfold basicNormalize
  apply encodeRunes_ne_nil
  cases hcase : decodeRunes q with
  | nil => exact absurd hcase hrunes
  | cons =>
    rw [length_cons, normalizeRunes]
    repeat' split
    all_goals simp

theorem normalizeQuery_ne_nil (h : extractQueryBytes data ≠ []) : normalizeQuery data ≠ [] := by
  rw [normalizeQuery, if_neg h]
  exact basicNormalize_ne_nil h

theorem extractQueryBytes_of_readOnly (h : (classifyQuery u data).readOnly) :
    extractQueryBytes data ≠ [] := by
  intro hnil
  rw [classifyQuery, if_pos hnil] at h
  exact Bool.noConfusion h

def isTerminate (data : Bytes) : Bool := data.head? == some 'X'.toUInt8

/-- Only the simple query protocol: a whole query and a whole result. -/
def cacheable (data : Bytes) : Bool := data.head? == some 'Q'.toUInt8

end Pontus.Protocol
