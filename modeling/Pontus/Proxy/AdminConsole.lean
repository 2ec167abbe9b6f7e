import Pontus.Config.Databases
import Pontus.Protocol.ResultSet

/-!
# The administration console

A console session answers pgbouncer's administration commands from what Pontus
itself knows.  The extended protocol spreads a command over several messages;
the console keeps one slot, `ExtendedPortal`, for what they have said.

What the `SHOW` commands find changes from one message to the next, so it comes
with the message.
-/

namespace Pontus.Proxy

open Lib Protocol

inductive Topic
  | pools
  | databases
  | clients
  | lists
  | config
  | version
  | help
  | stats
  | servers
  deriving DecidableEq

/-- What a message finds: the Unicode tables, which do not change, and the rows
of every `SHOW` at this moment. -/
structure ConsoleEnv where
  tables : UnicodeTables
  /-- `unicode.ToUpper`, above ASCII -/
  upper : Nat → Nat
  shows : Topic → ResultSet

structure ConsoleReply where
  rows : Option ResultSet
  tag : Bytes
  deriving DecidableEq

structure ConsoleError where
  code : Bytes
  message : Bytes
  deriving DecidableEq

namespace ConsoleEnv

variable (env : ConsoleEnv)

def toUpperRune (r : Nat) : Nat :=
  if r < 0x80 then if 'a'.toNat ≤ r && r ≤ 'z'.toNat then r - 32 else r else env.upper r

def toUpper (text : Bytes) : Bytes := encodeRunes ((decodeRunes text).map env.toUpperRune)

def parseCommand (sql : Bytes) : Bytes × Bytes :=
  let trimSpace := Config.Databases.trimSpace env.tables
  let trimmed := trimSpace ((trimSpace sql).reverse.dropWhile (· = ';'.toUInt8)).reverse
  if trimmed = [] then ([], [])
  else
    let (first, rest) := (cutAt ' '.toUInt8 trimmed).getD (trimmed, [])
    (env.toUpper first, env.toUpper (trimSpace rest))

def rowsOf (topic : Topic) : ConsoleReply := ⟨some (env.shows topic), []⟩

def showReply (what : Bytes) : Except ConsoleError ConsoleReply :=
  if what = ascii "POOLS" then .ok (env.rowsOf .pools)
  else if what = ascii "DATABASES" then .ok (env.rowsOf .databases)
  else if what = ascii "CLIENTS" then .ok (env.rowsOf .clients)
  else if what = ascii "LISTS" then .ok (env.rowsOf .lists)
  else if what = ascii "CONFIG" then .ok (env.rowsOf .config)
  else if what = ascii "VERSION" then .ok (env.rowsOf .version)
  else if what = ascii "HELP" ∨ what = [] then .ok (env.rowsOf .help)
  else if what = ascii "STATS" ∨ what = ascii "STATS_TOTALS" ∨ what = ascii "TOTALS" then
    .ok (env.rowsOf .stats)
  else if what = ascii "SERVERS" then .ok (env.rowsOf .servers)
  else
    .error ⟨ascii "42601", ascii "unrecognised: SHOW " ++ what ++
      ascii "; SHOW HELP lists what this console answers"⟩

def probes : List Bytes :=
  [ascii "SET", ascii "BEGIN", ascii "COMMIT", ascii "ROLLBACK", ascii "DISCARD", ascii "RESET"]

def answer (sql : Bytes) : Except ConsoleError ConsoleReply :=
  let (verb, argument) := env.parseCommand sql
  if verb = [] then .ok ⟨none, []⟩
  else if verb = ascii "SHOW" then env.showReply argument
  else if verb ∈ probes then .ok ⟨none, verb⟩
  else
    .error ⟨ascii "42601", ascii "unrecognised console command: " ++ verb ++
      ascii "; SHOW HELP lists what this console answers"⟩

end ConsoleEnv

structure ExtendedPortal where
  query : Bytes
  prepared : Option ConsoleReply
  failed : Bool
  formats : List UInt16
  deriving DecidableEq

def ExtendedPortal.new : ExtendedPortal := ⟨[], none, false, []⟩

/-- The portal behind a message, what was written, and what ends the session,
if anything does. -/
structure Dispatched where
  portal : ExtendedPortal
  written : Bytes
  fault : Option ReadFault
  deriving DecidableEq

namespace ExtendedPortal

variable (env : ConsoleEnv) (portal : ExtendedPortal)

def answered (written : Bytes) : Dispatched := ⟨portal, written, none⟩

def sent (front : Bytes) (out : Except Bytes Bytes) : Dispatched :=
  match out with
  | .ok written => portal.answered (front ++ written)
  | .error err => ⟨portal, front, some (.error err)⟩

def failExtended (code message : Bytes) : Dispatched :=
  { portal with failed := true }.answered (errorResponse (ascii "ERROR") code message)

def prepare : Except ConsoleError (ConsoleReply × ExtendedPortal) :=
  match portal.prepared with
  | some reply => .ok (reply, portal)
  | none =>
    match env.answer portal.query with
    | .error err => .error err
    | .ok reply => .ok (reply, { portal with prepared := some reply })

def describe (target : UInt8) : Dispatched :=
  match portal.prepare env with
  | .error err => portal.failExtended err.code err.message
  | .ok (reply, portal) =>
    let front := if target = 'S'.toUInt8 then writeParameterDescription 0 else []
    match reply.rows with
    | none => portal.answered (front ++ writeAck tagNoData)
    | some rows => portal.sent front (rows.description portal.formats)

def execute : Dispatched :=
  match portal.prepare env with
  | .error err => portal.failExtended err.code err.message
  | .ok (reply, portal) =>
    match reply.rows with
    | none => portal.answered (writeCommandTag reply.tag)
    | some rows => portal.sent [] (rows.sendRows portal.formats)

def simpleQuery (sql : Bytes) : Dispatched :=
  match env.answer sql with
  | .error err =>
    portal.answered (errorResponse (ascii "ERROR") err.code err.message ++
      writeCommandComplete (ascii "SHOW"))
  | .ok reply =>
    match reply.rows with
    | none =>
      portal.answered (if reply.tag = [] then writeEmptyQuery else writeCommandComplete reply.tag)
    | some rows => portal.sent [] rows.send

def dispatch (tag : UInt8) (body : Bytes) : Dispatched :=
  if portal.failed ∧ tag ≠ 'S'.toUInt8 then portal.answered []
  else if tag = 'Q'.toUInt8 then portal.simpleQuery env (queryText body)
  else if tag = 'P'.toUInt8 then
    match decodeParse body with
    | .error err => portal.failExtended (ascii "08P01") err
    | .ok parsed =>
      -- the name of the statement is not kept
      { portal with query := parsed.query, prepared := none, formats := [] }.answered
        (writeAck tagParseComplete)
  else if tag = 'B'.toUInt8 then
    match decodeBindResultFormats body with
    | .error (.error err) => portal.failExtended (ascii "08P01") err
    | .error .panics => ⟨portal, [], some .panics⟩
    | .ok formats => { portal with formats := formats }.answered (writeAck tagBindComplete)
  else if tag = 'D'.toUInt8 then portal.describe env (describeTarget body)
  else if tag = 'E'.toUInt8 then portal.execute env
  else if tag = 'C'.toUInt8 then portal.answered (writeAck tagCloseComplete)
  else if tag = 'H'.toUInt8 then portal.answered []
  else if tag = 'S'.toUInt8 then { portal with failed := false }.answered writeReadyForQuery
  else
    portal.failExtended (ascii "0A000")
      (ascii "the admin console does not answer message type " ++ encodeRune tag.toNat)

end ExtendedPortal

def maxCommandBytes : Nat := 64 * 1024

/-- One turn of the loop in `serve`: the portal behind it, unless the session is
over. -/
def serveOne (env : ConsoleEnv) (portal : ExtendedPortal) (tag : UInt8) (body : Bytes) :
    Option ExtendedPortal × Bytes :=
  if maxCommandBytes < 4 + body.length then (none, [])
  else if tag = 'X'.toUInt8 then (none, [])
  else
    let done := portal.dispatch env tag body
    (if done.fault = none then some done.portal else none, done.written)

end Pontus.Proxy
