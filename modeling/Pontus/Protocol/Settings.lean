import Pontus.Protocol.SessionState

/-!
# Settings, as a backend keeps them

The statements that change a session's parameters, and what each does to them.
This is the backend's side of a SET, written down on its own; Pontus sees the
texts only.  Some parameters can be set under two names: `SET NAMES` is
`client_encoding`, `SET TIME ZONE` is `timezone`.
-/

namespace Pontus.Protocol

open Lib

inductive SettingCommand
  | assign (name value : Bytes)
  | timeZone (value : Bytes)
  | names (value : Bytes)
  | role (value : Bytes)
  | reset (name : Bytes)
  | resetAll
  | discardAll
  deriving DecidableEq

namespace SettingCommand

/-- Words that open a SET of another kind and are no parameter of their own. -/
def reservedWords : List String :=
  ["local", "transaction", "constraints", "authorization", "characteristics", "role", "time",
    "names", "session", "all"]

def isParameter (token : Bytes) : Bool :=
  !token.isEmpty && isIdentifier token && !reservedWords.any (equalFold token ·)

def readOperator (after : Bytes) : Option Bytes :=
  let (op, value) := nextToken after
  match op with
  | b :: jammed =>
    if b = '='.toUInt8 then some (jammed ++ value)
    else if equalFold op "to" then some value
    else none
  | [] => none

def readAssignment (token after : Bytes) : Option SettingCommand :=
  if equalFold token "time" then
    let (zone, value) := nextToken after
    if equalFold zone "zone" then some (timeZone value) else none
  else if equalFold token "names" then some (names after)
  else if equalFold token "role" then
    -- `SET role = r` and `SET ROLE r` name the same role.
    some (role ((readOperator after).getD after))
  else
    match cutAt '='.toUInt8 token with
    | some (name, jammed) =>
      if equalFold name "role" then some (role (jammed ++ after))
      else if isParameter name then some (assign (lowerASCII name) (jammed ++ after))
      else none
    | none =>
      if isParameter token then (readOperator after).map (assign (lowerASCII token)) else none

def read (text : Bytes) : Option SettingCommand :=
  let (verb, rest) := nextToken text
  let (token, after) := nextToken rest
  if equalFold verb "set" then
    if equalFold token "session" then
      let (token, after) := nextToken after
      readAssignment token after
    else readAssignment token after
  else if equalFold verb "reset" then
    if equalFold token "all" then some resetAll
    else if equalFold token "role" then some (reset (ascii "role"))
    else if isParameter token then some (reset (lowerASCII token))
    else none
  else if equalFold verb "discard" then if equalFold token "all" then some discardAll else none
  else none

def parameter? : SettingCommand → Option Bytes
  | assign name _ => some name
  | timeZone _ => some (ascii "timezone")
  | names _ => some (ascii "client_encoding")
  | role _ => some (ascii "role")
  | _ => none

end SettingCommand

/-- A backend, as far as parameters go: what they are on a fresh connection,
what value a SET gives, and which of them RESET ALL passes over. -/
structure Engine (V : Type) where
  fresh : Bytes → V
  value : SettingCommand → V
  survivesResetAll : Bytes → Bool

namespace Engine

variable {V : Type} (e : Engine V)

def exec (params : Bytes → V) (c : SettingCommand) : Bytes → V :=
  match c with
  | .reset name => Function.update params name (e.fresh name)
  | .resetAll => fun name => if e.survivesResetAll name then params name else e.fresh name
  | .discardAll => e.fresh
  | .assign name _ => Function.update params name (e.value c)
  | .timeZone _ => Function.update params (ascii "timezone") (e.value c)
  | .names _ => Function.update params (ascii "client_encoding") (e.value c)
  | .role _ => Function.update params (ascii "role") (e.value c)

/-- The parameters behind a list of texts on a connection; a text that is no
setting leaves them alone. -/
def execTexts (params : Bytes → V) : List Bytes → Bytes → V
  | [] => params
  | text :: texts => execTexts (((SettingCommand.read text).map (e.exec params)).getD params) texts

end Engine

end Pontus.Protocol
