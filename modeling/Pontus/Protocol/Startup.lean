import Pontus.Config.Databases
import Pontus.Pool.Conn

/-!
# Startup packets

A connection is opened by a packet of names and values, each ended by a zero
byte, the list ended by an empty name.  Pontus reads the client's packet,
rewrites the database in it when a route says so, and in its own name writes a
packet with the user and the database alone.
-/

namespace Pontus.Protocol

open Lib Pool

def cancelRequestCode : Nat := 80877102

def maxStartupLen : Nat := 10 * 2 ^ 10

abbrev Param := Bytes × Bytes

/-- The parameters from here on; every pass takes a byte, so the length is fuel
enough. -/
def paramLoop : Nat → Bytes → List Param
  | 0, _ => []
  | fuel + 1, payload =>
    match cutAt 0 payload with
    | none => []
    | some ([], _) => []
    | some (key, rest) =>
      match cutAt 0 rest with
      | none => []
      | some (value, rest) => (key, value) :: paramLoop fuel rest

/-- The parameters of a startup packet; nothing behind an empty name or a value
without an end. -/
def startupParams (packet : Bytes) : List Param := paramLoop (packet.drop 8).length (packet.drop 8)

def paramBytes (p : Param) : Bytes := p.1 ++ 0 :: (p.2 ++ [0])

def startupPacket (version : Bytes) (params : List Param) : Bytes :=
  let out := version ++ (params.flatMap paramBytes ++ [0])
  putU32 (out.length + 4) ++ out

/-- The last value given for a name, empty when there is none. -/
def lastValue (params : List Param) (key : Bytes) : Bytes :=
  (((params.filter (·.1 = key)).getLast?).map Prod.snd).getD []

def reservedNames : List Bytes := [ascii "user", ascii "database", ascii "replication"]

def runtimeNames (packet : Bytes) : List Bytes :=
  ((startupParams packet).map Prod.fst).filter (· ∉ reservedNames)

def paramValue (packet name : Bytes) : Option Bytes :=
  ((startupParams packet).filter (·.1 = name)).getLast?.map Prod.snd

def SameParams (packet packet' : Bytes) : Prop :=
  ∀ name, name ∉ reservedNames → paramValue packet name = paramValue packet' name

/-- What a backend takes from a packet: the last value of each parameter, and
the user for a database that is not named. -/
def startupIdentity (packet : Bytes) : Identity :=
  let user := lastValue (startupParams packet) (ascii "user")
  let database := lastValue (startupParams packet) (ascii "database")
  ⟨user, if database = [] then user else database⟩

structure StartupRequest where
  raw : Bytes
  user : Bytes
  database : Bytes
  replication : Bytes
  deriving DecidableEq

def extractStartupParams (packet : Bytes) : Bytes × Bytes × Bytes :=
  (startupParams packet).foldl (fun (user, database, replication) (key, value) =>
    if key = ascii "user" then (value, database, replication)
    else if key = ascii "database" then (user, value, replication)
    else if key = ascii "replication" then (user, database, value)
    else (user, database, replication)) ([], [], [])

def startupCode (packet : Bytes) : Option Nat :=
  match packet with
  | l₀ :: l₁ :: l₂ :: l₃ :: c₀ :: c₁ :: c₂ :: c₃ :: _ =>
    if beU32 l₀ l₁ l₂ l₃ = packet.length ∧ packet.length ≤ maxStartupLen then
      some (beU32 c₀ c₁ c₂ c₃)
    else none
  | _ => none

def isReplication (u : UnicodeTables) (value : Bytes) : Bool :=
  !([[], ascii "false", ascii "off", ascii "no", ascii "0"].contains
    (toLower u (Config.Databases.trimSpace u value)))

/-- `ReadStartup`, once encryption has been negotiated: the request of an
ordinary session. -/
def readStartup (u : UnicodeTables) (packet : Bytes) : Option StartupRequest :=
  match startupCode packet with
  | none => none
  | some code =>
    let (user, database, replication) := extractStartupParams packet
    let database := if database = [] then user else database
    if code = cancelRequestCode || isReplication u replication then none
    else some ⟨packet, user, database, replication⟩

def rewriteLoop (database : Bytes) : Nat → Bytes → Option (List Param)
  | 0, _ => some []
  | fuel + 1, payload =>
    match cutAt 0 payload with
    | none => some []
    | some ([], _) => some []
    | some (key, rest) =>
      match cutAt 0 rest with
      | none => none
      | some (value, rest) =>
        (rewriteLoop database fuel rest).map
          ((key, if key = ascii "database" then database else value) :: ·)

def rewriteStartupDatabase (raw database : Bytes) : Option Bytes :=
  if raw.length ≤ 8 then none
  else
    (rewriteLoop database (raw.drop 8).length (raw.drop 8)).map fun params =>
      let replaced := params.any (·.1 == ascii "database")
      startupPacket ((raw.drop 4).take 4)
        (if replaced then params else params ++ [(ascii "database", database)])

def writeStartup (user database : Bytes) : Bytes :=
  startupPacket (putU32 196608)
    ((ascii "user", user) :: if database = [] then [] else [(ascii "database", database)])

end Pontus.Protocol
