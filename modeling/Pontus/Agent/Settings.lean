import Pontus.Lib.Bytes

/-!
# The settings of a rebuilt node

A base backup brings the configuration of the primary with it.  The agent notes
the node's own address before the copy and writes it, with the primary and the
slot to follow, into the copied `postgresql.auto.conf`.  Two readers of what it
writes are set beside it: the server takes the connection string out of its
line, libpq takes the parameters out of the string.
-/

namespace Pontus.Agent

open Lib

/-! ## Lines and white space -/

def newline : UInt8 := 10

def splitLines (text : Bytes) : List Bytes := text.splitOn newline

def joinLines (lines : List Bytes) : Bytes := [newline].intercalate lines

def upTo (sep : UInt8) (text : Bytes) : Bytes :=
  match cutAt sep text with
  | some (front, _) => front
  | none => text

/-- The characters `unicode.IsSpace` knows, in UTF-8. -/
def spaces : List Bytes :=
  [[9], [10], [11], [12], [13], [32], [0xC2, 0x85], [0xC2, 0xA0], [0xE1, 0x9A, 0x80],
    [0xE2, 0x80, 0x80], [0xE2, 0x80, 0x81], [0xE2, 0x80, 0x82], [0xE2, 0x80, 0x83],
    [0xE2, 0x80, 0x84], [0xE2, 0x80, 0x85], [0xE2, 0x80, 0x86], [0xE2, 0x80, 0x87],
    [0xE2, 0x80, 0x88], [0xE2, 0x80, 0x89], [0xE2, 0x80, 0x8A], [0xE2, 0x80, 0xA8],
    [0xE2, 0x80, 0xA9], [0xE2, 0x80, 0xAF], [0xE2, 0x81, 0x9F], [0xE3, 0x80, 0x80]]

/-- Drop sequences of `ws` from the front, passing over the first `skip` bytes,
which belong to one already found. -/
def dropSpaces (ws : List Bytes) : Nat → Bytes → Bytes
  | _, [] => []
  | skip + 1, _ :: rest => dropSpaces ws skip rest
  | 0, b :: rest =>
    match ws.find? (·.isPrefixOf (b :: rest)) with
    | some w => dropSpaces ws (w.length - 1) rest
    | none => b :: rest

def trimLeft (text : Bytes) : Bytes := dropSpaces spaces 0 text

def trimRight (text : Bytes) : Bytes :=
  (dropSpaces (spaces.map List.reverse) 0 text.reverse).reverse

def trimSpace (text : Bytes) : Bytes := trimRight (trimLeft text)

def isBlank (b : UInt8) : Bool := b == 32 || b == 9 || b == 13

/-! ## What the agent reads and writes -/

structure Files where
  /-- `postgresql.conf` -/
  conf : Option Bytes
  /-- `postgresql.auto.conf` -/
  auto : Option Bytes
  deriving DecidableEq

structure Request where
  primary : Bytes
  port : Nat
  user : Bytes
  password : Bytes
  slot : Bytes
  rewind : Bool
  deriving DecidableEq

def itoa (n : Nat) : Bytes := (Nat.toDigits 10 n).map Char.toUInt8

def Request.conninfo (r : Request) : Bytes :=
  ascii "host=" ++ r.primary ++ ascii " port=" ++ itoa r.port ++
    (if r.user ≠ [] then ascii " user=" ++ r.user else []) ++
    (if r.password ≠ [] then ascii " password=" ++ r.password else [])

def portSetting : Bytes := ascii "port"

def listenSetting : Bytes := ascii "listen_addresses"

def conninfoSetting : Bytes := ascii "primary_conninfo"

def slotSetting : Bytes := ascii "primary_slot_name"

def identitySettings : List Bytes := [portSetting, listenSetting]

def settingIn (line : Bytes) : Option (Bytes × Bytes) :=
  let line := trimSpace line
  if line = [] ∨ line.head? = some 35 then none
  else
    match cutAt 61 line with
    | none => none
    | some (name, value) =>
      let name := trimSpace name
      if name ∉ identitySettings then none
      else
        -- a trailing comment
        let value := trimSpace (upTo 35 value)
        if value = [] then none else some (name, value)

def noteSetting (found : Bytes → Option Bytes) (line : Bytes) : Bytes → Option Bytes :=
  match settingIn line with
  | some (name, value) => Function.update found name (some value)
  | none => found

def settingsIn (content : Bytes) : Bytes → Option Bytes :=
  (splitLines content).foldl noteSetting fun _ => none

def captureIdentity (files : Files) (setting : Bytes) : Option Bytes :=
  (files.auto.bind (settingsIn · setting)).or (files.conf.bind (settingsIn · setting))

def stripSetting (content setting : Bytes) : Bytes :=
  let kept := (splitLines content).filter fun line => !setting.isPrefixOf (trimSpace line)
  let out := joinLines kept
  if out ≠ [] ∧ out.getLast? ≠ some newline then out ++ [newline] else out

def settingLine (setting value : Bytes) : Bytes := setting ++ ascii " = " ++ value

def replaceSetting (content setting value : Bytes) : Bytes :=
  stripSetting content setting ++ (settingLine setting value ++ [newline])

def doubleQuotes (text : Bytes) : Bytes := text.flatMap fun b => if b = 39 then [39, 39] else [b]

def inQuotes (text : Bytes) : Bytes := 39 :: text ++ [39]

def restoreIdentity (identity : Bytes → Option Bytes) (content : Bytes) : Bytes :=
  identitySettings.foldl (fun content setting =>
    match identity setting with
    | some value => replaceSetting content setting value
    | none => content) content

/-- What `writeStandbyConfig` puts in the place of `postgresql.auto.conf`. -/
def standbyConf (r : Request) (identity : Bytes → Option Bytes) (existing : Bytes) : Bytes :=
  let content := replaceSetting existing conninfoSetting (inQuotes (doubleQuotes r.conninfo))
  let content :=
    if r.slot ≠ [] then replaceSetting content slotSetting (inQuotes r.slot) else content
  restoreIdentity identity content

/-! ## How the server reads a quoted value -/

def isNameByte (b : UInt8) : Bool :=
  (97 ≤ b && b ≤ 122) || (65 ≤ b && b ≤ 90) || (48 ≤ b && b ≤ 57) || b == 95

def isOctal (b : UInt8) : Bool := 48 ≤ b && b ≤ 55

/-- The byte that stands for what follows a backslash, and how many bytes that
takes: up to three octal digits, or one. -/
def escape (text : Bytes) : UInt8 × Nat :=
  let digits := (text.take 3).takeWhile isOctal
  if digits ≠ [] then (digits.foldl (fun value digit => value * 8 + (digit - 48)) 0, digits.length)
  else
    match text with
    | 98 :: _ => (8, 1)
    | 102 :: _ => (12, 1)
    | 110 :: _ => (10, 1)
    | 114 :: _ => (13, 1)
    | 116 :: _ => (9, 1)
    | b :: _ => (b, 1)
    | [] => (0, 1)

/-- The text up to the closing quote, and what follows; the first `skip` bytes
belong to what was read before. -/
def readQuoted : Nat → Bytes → Option (Bytes × Bytes)
  | _, [] => none
  | skip + 1, _ :: rest => readQuoted skip rest
  | 0, b :: rest =>
    if b = 39 then
      if rest.head? = some 39 then (readQuoted 1 rest).map fun (text, after) => (39 :: text, after)
      else some ([], rest)
    else if b = 92 then
      (readQuoted (escape rest).2 rest).map fun (text, after) => ((escape rest).1 :: text, after)
    else (readQuoted 0 rest).map fun (text, after) => (b :: text, after)

/-- Behind a value comes the end of the line or a comment. -/
def endsLine (rest : Bytes) : Bool :=
  match rest.dropWhile isBlank with
  | [] => true
  | b :: _ => b == 35

/-- The name and the value of a line that assigns a quoted value; the server
keeps the value as a string that ends at the first zero byte. -/
def readSetting (line : Bytes) : Option (Bytes × Bytes) :=
  match (line.dropWhile isNameByte).dropWhile isBlank with
  | 61 :: rest =>
    match rest.dropWhile isBlank with
    | 39 :: rest =>
      match readQuoted 0 rest with
      | some (text, after) =>
        if endsLine after then some (line.takeWhile isNameByte, text.takeWhile (· ≠ 0)) else none
      | none => none
    | _ => none
  | _ => none

/-! ## How libpq reads a connection string -/

def isConninfoSpace (b : UInt8) : Bool := b == 32 || (9 ≤ b && b ≤ 13)

def isKeywordByte (b : UInt8) : Bool := !isConninfoSpace b && b != 61

/-- A value without quotes goes up to white space; a backslash takes the next
byte as it is. -/
def bareValue : Bool → Bytes → Bytes × Bytes
  | _, [] => ([], [])
  | escaped, b :: rest =>
    if !escaped && isConninfoSpace b then ([], rest)
    else if !escaped && b == 92 then bareValue true rest
    else (b :: (bareValue false rest).1, (bareValue false rest).2)

def quotedValue : Bool → Bytes → Option (Bytes × Bytes)
  | _, [] => none
  | escaped, b :: rest =>
    if !escaped && b == 39 then some ([], rest)
    else if !escaped && b == 92 then quotedValue true rest
    else (quotedValue false rest).map fun (value, after) => (b :: value, after)

/-- The keywords and their values; `none` where libpq refuses the string.  Every
pass takes a byte, so one more than the length of the text is fuel enough. -/
def parseConninfo : Nat → Bytes → Option (List (Bytes × Bytes))
  | 0, _ => none
  | fuel + 1, text =>
    let text := text.dropWhile isConninfoSpace
    if text = [] then some []
    else
      let name := text.takeWhile isKeywordByte
      match (text.dropWhile isKeywordByte).dropWhile isConninfoSpace with
      | 61 :: rest =>
        let rest := rest.dropWhile isConninfoSpace
        match if rest.head? = some 39 then quotedValue false rest.tail
          else some (bareValue false rest) with
        | some (value, rest) => (parseConninfo fuel rest).map ((name, value) :: ·)
        | none => none
      | _ => none

end Pontus.Agent
