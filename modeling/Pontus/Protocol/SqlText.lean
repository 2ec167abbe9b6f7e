import Pontus.Lib.Sql
import Pontus.Protocol.ClientMessages

/-!
# Texts as the server reads them

What a statement text is to the server, by its lexemes: whether it only reads,
whether it opens a transaction, whether it leaves something on the session.
The classifier is held against this.
-/

namespace Pontus.Protocol

open Lib

structure SqlText where
  bytes : Bytes
  unterminated : 0 ∉ bytes
  fits : 4 + (bytes ++ [0]).length < 2 ^ 32

namespace SqlText

def frame (q : SqlText) : Frame := ⟨feQuery, q.bytes ++ [0], q.fits⟩

def message (q : SqlText) : Bytes := q.frame.encode

open Lib.Sql

def readingVerbs : List String := ["select", "with", "show", "explain", "describe"]

def writingWords : List String :=
  ["insert", "update", "delete", "merge", "truncate", "create", "drop", "alter", "grant",
    "revoke", "copy", "call", "do", "lock"]

def lockingClauses : List (List String) :=
  [["for", "update"], ["for", "no", "key", "update"], ["for", "share"], ["for", "key", "share"]]

def selectsInto (statement : List Lexeme) : Bool :=
  statement.tails.any fun s => startsWith ["select"] s && containsAny ["into"] s

def statementReads (statement : List Lexeme) : Bool :=
  startsWithAny readingVerbs statement && !containsAny writingWords statement &&
    !lockingClauses.any (containsRun · statement) && !selectsInto statement

def reads (q : SqlText) : Bool := (statements q.bytes).all statementReads

def opensTransaction (q : SqlText) : Bool :=
  (statements q.bytes).any fun s => startsWith ["begin"] s || startsWith ["start", "transaction"] s

def lockFunctions : List String :=
  ["pg_advisory_lock", "pg_advisory_lock_shared", "pg_try_advisory_lock",
    "pg_try_advisory_lock_shared"]

def callsLock (statement : List Lexeme) : Bool :=
  statement.tails.any fun s =>
    match s with
    | l :: .symbol b :: _ => b == '('.toUInt8 && lockFunctions.any (l.names ·)
    | _ => false

def dropOptional (options : List (List String)) (s : List Lexeme) : List Lexeme :=
  match options.find? (startsWith · s) with
  | some option => s.drop option.length
  | none => s

def tempKinds : List String := ["table", "sequence", "view"]

def createsTemp (statement : List Lexeme) : Bool :=
  let temp := dropOptional [["global"], ["local"]]
    (dropOptional [["or", "replace"]] (statement.drop 1))
  startsWith ["create"] statement && startsWithAny ["temp", "temporary"] temp &&
    startsWithAny tempKinds (dropOptional [["recursive"]] (temp.drop 1))

def createsInTempSchema (statement : List Lexeme) : Bool :=
  let kind := dropOptional [["unlogged"], ["recursive"]]
    (dropOptional [["or", "replace"]] (statement.drop 1))
  startsWith ["create"] statement && startsWithAny tempKinds kind &&
    match dropOptional [["if", "not", "exists"]] (kind.drop 1) with
    | l :: .symbol b :: _ => b == '.'.toUInt8 && l.names "pg_temp"
    | _ => false

def clauseWords : List String :=
  ["from", "where", "group", "having", "window", "union", "intersect", "except", "order", "limit",
    "offset", "fetch", "for"]

def selectsIntoTemp (statement : List Lexeme) : Bool :=
  startsWithAny ["select", "with"] statement &&
    statement.tails.any fun s =>
      let temp := dropOptional [["global"], ["local"]] (s.drop 2)
      !startsWithAny ["insert", "merge"] s && startsWith ["into"] (s.drop 1) &&
        startsWithAny ["temp", "temporary"] temp &&
        match temp.drop 1 with
        | l :: _ => !clauseWords.any (l.spells ·)
        | [] => false

def declaresHeld (statement : List Lexeme) : Bool :=
  startsWith ["declare"] statement && containsRun ["with", "hold"] statement

def takesSession (q : SqlText) : Bool :=
  (statements q.bytes).any fun s =>
    callsLock s || startsWith ["listen"] s || createsTemp s || createsInTempSchema s ||
      selectsIntoTemp s || declaresHeld s

end SqlText

end Pontus.Protocol
