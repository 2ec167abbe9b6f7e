import Pontus.Lib.Bytes

/-!
# The lexemes of PostgreSQL

How the server cuts a text into words, quoted names, literals, numbers and
symbols, and into statements.  White space and comments go; block comments
nest; a literal ends at an apostrophe that is not doubled, or not behind a
backslash when an E stands before it; a body between two equal dollar tags is a
literal.  What is never closed takes the rest of the text.
-/

namespace Pontus.Lib.Sql

inductive Lexeme
  | word (text : Bytes)
  | quoted (name : Bytes)
  | literal
  | number
  | symbol (b : UInt8)
  deriving DecidableEq

def isBlank (b : UInt8) : Bool := b == 32 || (9 ≤ b && b ≤ 13)

def isNewline (b : UInt8) : Bool := b == 10 || b == 13

def isDigit (b : UInt8) : Bool := '0'.toUInt8 ≤ b && b ≤ '9'.toUInt8

def isNameStart (b : UInt8) : Bool :=
  ('a'.toUInt8 ≤ b && b ≤ 'z'.toUInt8) || ('A'.toUInt8 ≤ b && b ≤ 'Z'.toUInt8) ||
    b == '_'.toUInt8 || 128 ≤ b

def isTagPart (b : UInt8) : Bool := isNameStart b || isDigit b

def isNamePart (b : UInt8) : Bool := isTagPart b || b == '$'.toUInt8

def lower (b : UInt8) : UInt8 := if 'A'.toUInt8 ≤ b && b ≤ 'Z'.toUInt8 then b + 32 else b

def unquote (quote : UInt8) : Bytes → Bytes × Bytes
  | [] => ([], [])
  | [a] => (if a = quote then [] else [a], [])
  | a :: b :: rest =>
    if a ≠ quote then
      let (text, behind) := unquote quote (b :: rest)
      (a :: text, behind)
    else if b = quote then
      let (text, behind) := unquote quote rest
      (quote :: text, behind)
    else ([], b :: rest)

/-- The text behind a literal in which a backslash takes the next byte with
it. -/
def behindEscaped : Bytes → Bytes
  | [] => []
  | [_] => []
  | a :: b :: rest =>
    if a = '\\'.toUInt8 then behindEscaped rest
    else if a ≠ '\''.toUInt8 then behindEscaped (b :: rest)
    else if b = '\''.toUInt8 then behindEscaped rest
    else b :: rest

/-- The text behind a block comment; `depth` more comments are open around
it. -/
def behindComment : Nat → Bytes → Bytes
  | _, [] => []
  | _, [_] => []
  | depth, a :: b :: rest =>
    if a = '/'.toUInt8 ∧ b = '*'.toUInt8 then behindComment (depth + 1) rest
    else if a = '*'.toUInt8 ∧ b = '/'.toUInt8 then
      if depth = 0 then rest else behindComment (depth - 1) rest
    else behindComment depth (b :: rest)

/-- The tag opened by a dollar sign that stands before the text, and the text
behind the second one. -/
def dollarTag (text : Bytes) : Option (Bytes × Bytes) :=
  let tag := text.takeWhile isTagPart
  match text.dropWhile isTagPart with
  | b :: rest => if b = '$'.toUInt8 ∧ tag.head?.all isNameStart then some (tag, rest) else none
  | [] => none

def behindText (delimiter : Bytes) : Bytes → Bytes
  | [] => []
  | b :: rest =>
    if delimiter.isPrefixOf (b :: rest) then (b :: rest).drop delimiter.length
    else behindText delimiter rest

/-- Every pass takes a byte, so the length of the text is fuel enough. -/
def lexLoop : Nat → Bytes → List Lexeme
  | 0, _ => []
  | _ + 1, [] => []
  | fuel + 1, b :: rest =>
    let next := rest.head?
    if isBlank b then lexLoop fuel rest
    else if b = '-'.toUInt8 ∧ next = some '-'.toUInt8 then
      lexLoop fuel (rest.dropWhile fun b => !isNewline b)
    else if b = '/'.toUInt8 ∧ next = some '*'.toUInt8 then lexLoop fuel (behindComment 0 rest.tail)
    else if b = '\''.toUInt8 then .literal :: lexLoop fuel (unquote '\''.toUInt8 rest).2
    else if (b = 'e'.toUInt8 ∨ b = 'E'.toUInt8) ∧ next = some '\''.toUInt8 then
      .literal :: lexLoop fuel (behindEscaped rest.tail)
    else if b = '"'.toUInt8 then
      let (name, behind) := unquote '"'.toUInt8 rest
      .quoted name :: lexLoop fuel behind
    else if isNameStart b then
      .word (b :: rest.takeWhile isNamePart) :: lexLoop fuel (rest.dropWhile isNamePart)
    else if isDigit b then
      .number :: lexLoop fuel (rest.dropWhile fun b => isDigit b || b == '.'.toUInt8)
    else if b = '$'.toUInt8 then
      match dollarTag rest with
      | some (tag, body) =>
        .literal :: lexLoop fuel (behindText ('$'.toUInt8 :: (tag ++ ['$'.toUInt8])) body)
      | none => .symbol b :: lexLoop fuel rest
    else .symbol b :: lexLoop fuel rest

def lexemes (text : Bytes) : List Lexeme := lexLoop text.length text

def statements (text : Bytes) : List (List Lexeme) :=
  ((lexemes text).splitOnP (· == .symbol ';'.toUInt8)).filter fun s => !s.isEmpty

def Lexeme.spells (keyword : String) : Lexeme → Bool
  | word text => text.map lower == ascii keyword
  | _ => false

def Lexeme.names (name : String) : Lexeme → Bool
  | word text => text.map lower == ascii name
  | quoted text => text == ascii name
  | _ => false

def startsWith : List String → List Lexeme → Bool
  | [], _ => true
  | _ :: _, [] => false
  | keyword :: keywords, l :: statement => l.spells keyword && startsWith keywords statement

def containsRun (keywords : List String) (statement : List Lexeme) : Bool :=
  statement.tails.any (startsWith keywords)

def startsWithAny (keywords : List String) (statement : List Lexeme) : Bool :=
  keywords.any fun keyword => startsWith [keyword] statement

def containsAny (keywords : List String) (statement : List Lexeme) : Bool :=
  statement.any fun l => keywords.any fun keyword => l.spells keyword

end Pontus.Lib.Sql
