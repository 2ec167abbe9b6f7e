import Mathlib.Data.List.AList
import Pontus.Protocol.ReplyScanner

/-!
# Session state

What Pontus remembers about a client so that the session can move between
backend connections: the settings and prepared statements to replay, the
transaction state, and the reasons that tie it to the connection it has.
-/

namespace Pontus.Protocol

open Lib

/-- Why a session is tied to one backend connection, one bit a reason. -/
abbrev PinReason := BitVec 16

namespace PinReason

def pinListen : PinReason := 1
def pinTempTable : PinReason := 2
def pinCursor : PinReason := 4
def pinLock : PinReason := 8
def pinAdvisoryLock : PinReason := 16
def pinUntrackedState : PinReason := 32

def transactionScoped : PinReason := pinLock

def has (r other : PinReason) : Bool := r &&& other != 0

def clear (r other : PinReason) : PinReason := r &&& ~~~other

end PinReason

abbrev StringMap := AList fun _ : Bytes => Bytes

structure SessionState where
  vars : StringMap
  stmts : StringMap
  txState : TransactionState
  user : Bytes
  database : Bytes
  lastLSN : Bytes
  pinned : Bool
  pinnedBy : PinReason
  deriving DecidableEq

def SessionState.empty : SessionState := ⟨∅, ∅, .stateIdle, [], [], [], false, 0⟩

/-- Whether the session must keep its backend connection. -/
def isPinned (state : SessionState) : Bool := state.pinned || state.pinnedBy != 0

def releaseTransactionPins (state : SessionState) : SessionState :=
  { state with pinnedBy := state.pinnedBy.clear PinReason.transactionScoped }

/-! ## What pins a session, and what lets it go again -/

def isSpace (b : UInt8) : Bool :=
  b == ' '.toUInt8 || b == '\t'.toUInt8 || b == '\n'.toUInt8 || b == '\r'.toUInt8 ||
    b == 11 || b == 12

def startsLineComment : Bytes → Bool
  | a :: b :: _ => a == '-'.toUInt8 && b == '-'.toUInt8
  | _ => false

def startsBlockComment : Bytes → Bool
  | a :: b :: _ => a == '/'.toUInt8 && b == '*'.toUInt8
  | _ => false

def endsBlockComment : Bytes → Bool
  | a :: b :: _ => a == '*'.toUInt8 && b == '/'.toUInt8
  | _ => false

def startsComment (s : Bytes) : Bool := startsLineComment s || startsBlockComment s

/-- Consume a block comment, honouring nesting; an unterminated one takes the
rest of the text. -/
def skipBlockComment : Nat → Int → Bytes → Bytes
  | 0, _, s => s
  | _ + 1, _, [] => []
  | fuel + 1, depth, s@(_ :: rest) =>
    if startsBlockComment s then skipBlockComment fuel (depth + 1) (s.drop 2)
    else if endsBlockComment s then
      if depth - 1 = 0 then s.drop 2 else skipBlockComment fuel (depth - 1) (s.drop 2)
    else skipBlockComment fuel depth rest

def skipNoiseLoop : Nat → Bytes → Bytes
  | 0, s => s
  | _ + 1, [] => []
  | fuel + 1, s@(b :: rest) =>
    if isSpace b then skipNoiseLoop fuel rest
    else if startsLineComment s then skipNoiseLoop fuel (s.dropWhile (· != '\n'.toUInt8))
    else if startsBlockComment s then skipNoiseLoop fuel (skipBlockComment s.length 0 s)
    else s

def skipNoise (s : Bytes) : Bytes := skipNoiseLoop (s.length + 1) s

def spanToken : Bytes → Bytes × Bytes
  | [] => ([], [])
  | b :: rest =>
    if isSpace b || startsComment (b :: rest) then ([], b :: rest)
    else
      let (token, behind) := spanToken rest
      (b :: token, behind)

def trimStatementEnd (token : Bytes) : Bytes :=
  (token.reverse.dropWhile fun b => b == ';'.toUInt8 || b == 0).reverse

def nextToken (s : Bytes) : Bytes × Bytes :=
  let (token, rest) := spanToken (skipNoise s)
  (trimStatementEnd token, rest)

def lowerByte (b : UInt8) : UInt8 :=
  if 'A'.toUInt8 ≤ b ∧ b ≤ 'Z'.toUInt8 then b + ('a'.toUInt8 - 'A'.toUInt8) else b

def equalFold (token : Bytes) (lower : String) : Bool := token.map lowerByte == ascii lower

/-- Whether a lowercase literal appears in the text, ignoring case. -/
def containsFold (s : Bytes) (lower : String) : Bool :=
  if lower.length = 0 then false
  else s.tails.any fun t => (t.take lower.length).length == lower.length &&
    equalFold (t.take lower.length) lower

def startsPhrase : List String → Bytes → Bool
  | [], _ => true
  | word :: words, s =>
    let (token, rest) := nextToken s
    equalFold token word && startsPhrase words rest

def containsPhraseLoop : Nat → List String → Bytes → Bool
  | 0, _, _ => false
  | _ + 1, _, [] => false
  | fuel + 1, words, s => startsPhrase words s || containsPhraseLoop fuel words (nextToken s).2

def containsPhrase (s : Bytes) (words : List String) : Bool := containsPhraseLoop s.length words s

/-- Whether a CREATE creates something in the connection's temporary schema. -/
def createsTempObject (rest : Bytes) : Bool :=
  let (token, next) := nextToken rest
  let (token, next) :=
    if equalFold token "global" || equalFold token "local" then nextToken next else (token, next)
  if !equalFold token "temp" && !equalFold token "temporary" then false
  else
    let (object, _) := nextToken next
    equalFold object "table" || equalFold object "sequence" || equalFold object "view"

open PinReason

/-- What about this statement ties the session to its connection. -/
def pinReasonFor (query : Bytes) : PinReason :=
  let (verb, rest) := nextToken query
  if equalFold verb "listen" then pinListen
  else if equalFold verb "lock" then pinLock
  else if equalFold verb "declare" then
    if containsPhrase rest ["with", "hold"] then pinCursor else 0
  else if equalFold verb "create" then if createsTempObject rest then pinTempTable else 0
  else if equalFold verb "select" || equalFold verb "with" then
    if containsFold rest "pg_advisory_lock" then pinAdvisoryLock else 0
  else 0

def unpinReasonFor (query : Bytes) : PinReason :=
  let (verb, rest) := nextToken query
  let (next, _) := nextToken rest
  if equalFold verb "discard" then
    if equalFold next "all" then ~~~0
    else if equalFold next "temp" || equalFold next "temporary" then pinTempTable
    else 0
  else if equalFold verb "unlisten" then
    -- Other channels may stay registered; only the wildcard clears them all.
    if equalFold next "*" then pinListen else 0
  else if equalFold verb "close" then if equalFold next "all" then pinCursor else 0
  else 0

/-! ## Parsing a SET -/

inductive SetScope
  | scopeSession
  | scopeTransaction
  | scopeUnknown
  | scopeNotSet
  deriving DecidableEq

open SetScope

def isIdentifier (token : Bytes) : Bool :=
  token.all fun c =>
    ('a'.toUInt8 ≤ c && c ≤ 'z'.toUInt8) || ('A'.toUInt8 ≤ c && c ≤ 'Z'.toUInt8) ||
      ('0'.toUInt8 ≤ c && c ≤ '9'.toUInt8) || c == '_'.toUInt8 || c == '.'.toUInt8 ||
      c == '$'.toUInt8

def lowerASCII (token : Bytes) : Bytes := token.map lowerByte

def parseSet (query : Bytes) : Bytes × SetScope :=
  let (verb, rest) := nextToken query
  if !equalFold verb "set" then ([], scopeNotSet)
  else
    let (token, after) := nextToken rest
    if equalFold token "local" then ([], scopeTransaction)
    else
      -- SESSION may be a scope or the first word of a statement of its own.
      let (token, after) := if equalFold token "session" then nextToken after else (token, after)
      if equalFold token "transaction" || equalFold token "constraints" then ([], scopeTransaction)
      else if equalFold token "authorization" then (ascii "session_authorization", scopeSession)
      else if equalFold token "characteristics" then (ascii "session_characteristics", scopeSession)
      else if equalFold token "role" then (ascii "role", scopeSession)
      else if equalFold token "time" then
        if equalFold (nextToken after).1 "zone" then (ascii "timezone", scopeSession)
        else ([], scopeUnknown)
      else
        -- The name may be jammed against the operator.
        let token := ((cutAt '='.toUInt8 token).map Prod.fst).getD token
        if token = [] || !isIdentifier token then ([], scopeUnknown)
        else (lowerASCII token, scopeSession)

end Pontus.Protocol
