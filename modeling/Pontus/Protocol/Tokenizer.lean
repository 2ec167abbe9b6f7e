import Pontus.Lib.Utf8

/-!
# Splitting a query into tokens

Words, literals and punctuation, walked as UTF-8.  Which code points above
ASCII are letters, digits and spaces is the business of the Unicode tables, a
parameter here.
-/

namespace Pontus.Protocol

open Lib

/-- What the Unicode tables say of the code points above ASCII. -/
structure UnicodeTables where
  isLetter : Nat → Bool
  isDigit : Nat → Bool
  isSpace : Nat → Bool
  toLower : Nat → Nat

namespace UnicodeTables

def ascii : UnicodeTables := ⟨fun _ => false, fun _ => false, fun _ => false, id⟩

end UnicodeTables

section
variable (u : UnicodeTables)

def isLetterRune (r : Nat) : Bool :=
  if r < 0x80 then ('a'.toNat ≤ r && r ≤ 'z'.toNat) || ('A'.toNat ≤ r && r ≤ 'Z'.toNat)
  else u.isLetter r

def isDigitRune (r : Nat) : Bool := if r < 0x80 then '0'.toNat ≤ r && r ≤ '9'.toNat else u.isDigit r

def isSpaceRune (r : Nat) : Bool :=
  if r < 0x80 then r == ' '.toNat || (9 ≤ r && r ≤ 13) else u.isSpace r

def toLowerRune (r : Nat) : Nat :=
  if r < 0x80 then if 'A'.toNat ≤ r && r ≤ 'Z'.toNat then r + 32 else r else u.toLower r

def toLower (text : Bytes) : Bytes := encodeRunes ((decodeRunes text).map (toLowerRune u))

end

def maxKeywordLen : Nat := 16

def keywordList : List Bytes := [
  -- statements
  ascii "SELECT", ascii "INSERT", ascii "UPDATE", ascii "DELETE", ascii "TRUNCATE",
  ascii "MERGE", ascii "CREATE", ascii "DROP", ascii "ALTER", ascii "GRANT", ascii "REVOKE",
  ascii "COMMENT", ascii "SHOW", ascii "DESCRIBE", ascii "DESC", ascii "EXPLAIN",
  ascii "ANALYZE", ascii "VACUUM", ascii "CALL", ascii "DO", ascii "COPY", ascii "REFRESH",
  ascii "REINDEX", ascii "CLUSTER",
  -- clauses and structure
  ascii "FROM", ascii "WHERE", ascii "JOIN", ascii "ON", ascii "INTO", ascii "TABLE",
  ascii "VALUES", ascii "SET", ascii "GROUP", ascii "BY", ascii "ORDER", ascii "LIMIT",
  ascii "OFFSET", ascii "HAVING", ascii "WITH", ascii "AS", ascii "RETURNING", ascii "USING",
  ascii "ONLY",
  -- transactions
  ascii "BEGIN", ascii "COMMIT", ascii "ROLLBACK", ascii "START", ascii "TRANSACTION",
  ascii "SAVEPOINT",
  -- locking
  ascii "FOR", ascii "SHARE", ascii "SKIP", ascii "LOCKED", ascii "NOWAIT", ascii "LOCK",
  -- operators
  ascii "UNION", ascii "INTERSECT", ascii "EXCEPT", ascii "OR", ascii "AND", ascii "NOT",
  ascii "IN", ascii "EXISTS"]

def upperByte (c : UInt8) : UInt8 := if 'a'.toUInt8 ≤ c && c ≤ 'z'.toUInt8 then c - 32 else c

def keywordOf (word : Bytes) : Option Bytes :=
  if word.length = 0 ∨ maxKeywordLen < word.length then none
  else
    let folded := word.map upperByte
    if folded ∈ keywordList then some folded else none

section
variable {α : Type} [DecidableEq α] (quote : α)

/-- The text behind the closing quote of a literal, where a doubled quote
stands for one; nothing when the literal is not closed. -/
def skipQuoted : List α → List α
  | [] => []
  | [_] => []
  | a :: b :: rest =>
    if a ≠ quote then skipQuoted (b :: rest)
    else if b = quote then skipQuoted rest
    else b :: rest

def unescapeQuoted : List α → List α
  | [] => []
  | [a] => if a ≠ quote then [a] else []
  | a :: b :: rest =>
    if a ≠ quote then a :: unescapeQuoted (b :: rest)
    else if b = quote then quote :: unescapeQuoted rest
    else []

end

/-- The value of the literal whose opening quote stands before `text`, and the
text behind it. -/
def readQuoted (text : Bytes) : Bytes × Bytes :=
  match cutAt '\''.toUInt8 text with
  | none => (text, [])
  | some (value, rest) =>
    if rest.head? = some '\''.toUInt8 then
      (unescapeQuoted '\''.toUInt8 text, skipQuoted '\''.toUInt8 text)
    else (value, rest)

inductive TokenType
  | tokenKeyword
  | tokenIdentifier
  | tokenLiteral
  | tokenPunctuation
  deriving DecidableEq

structure Token where
  type : TokenType
  value : Bytes
  deriving DecidableEq

/-- The longest run of code points with a property, and the text behind it.
Every pass takes a byte, so the length of the text is fuel enough. -/
def spanRunes (p : Nat → Bool) : Nat → Bytes → Bytes × Bytes
  | 0, q => ([], q)
  | _ + 1, [] => ([], [])
  | fuel + 1, b :: tail =>
    let (r, size) := decodeRune (b :: tail)
    if p r then
      let (taken, rest) := spanRunes p fuel ((b :: tail).drop size)
      ((b :: tail).take size ++ taken, rest)
    else ([], b :: tail)

section
variable (u : UnicodeTables)

def isWordPart (r : Nat) : Bool :=
  isLetterRune u r || isDigitRune u r || r == '_'.toNat || r == '.'.toNat

def isNumberPart (r : Nat) : Bool := isDigitRune u r || r == '.'.toNat

def wordToken (word : Bytes) : Token :=
  match keywordOf word with
  | some keyword => ⟨.tokenKeyword, keyword⟩
  | none => ⟨.tokenIdentifier, word⟩

def tokenizeLoop : Nat → Bytes → List Token
  | 0, _ => []
  | _ + 1, [] => []
  | fuel + 1, b :: tail =>
    let q := b :: tail
    let (r, size) := decodeRune q
    if isSpaceRune u r then tokenizeLoop fuel (q.drop size)
    else if isLetterRune u r || r == '_'.toNat then
      let (word, rest) := spanRunes (isWordPart u) q.length (q.drop size)
      wordToken (q.take size ++ word) :: tokenizeLoop fuel rest
    else if r = '\''.toNat then
      let (value, rest) := readQuoted (q.drop size)
      ⟨.tokenLiteral, value⟩ :: tokenizeLoop fuel rest
    else if isDigitRune u r then
      let (number, rest) := spanRunes (isNumberPart u) q.length (q.drop size)
      ⟨.tokenLiteral, q.take size ++ number⟩ :: tokenizeLoop fuel rest
    else ⟨.tokenPunctuation, q.take size⟩ :: tokenizeLoop fuel (q.drop size)

def tokenize (q : Bytes) : List Token := tokenizeLoop u q.length q

end

end Pontus.Protocol
