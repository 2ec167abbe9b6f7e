import Pontus.Lib.Fields
import Pontus.Protocol.ResultSet

/-!
# SCRAM-SHA-256, both sides

`ScramServer` verifies a client's proof and recovers its key in doing so;
`ScramClient` answers a backend with a key that was recovered.  What the
standard library computes is a parameter, and so is what the random source
returns.
-/

namespace Pontus.Credentials

open Lib Protocol

def comma : UInt8 := ','.toUInt8

structure Primitives where
  sha256 : Bytes → Bytes
  hmac : Bytes → Bytes → Bytes
  encode : Bytes → Bytes
  decode : Bytes → Option Bytes
  length_sha256 : ∀ b, (sha256 b).length = 32
  length_hmac : ∀ key message, (hmac key message).length = 32
  decode_encode : ∀ b, decode (encode b) = some b
  encode_nil : encode [] = []
  comma_notMem_encode : ∀ b, comma ∉ encode b

inductive ScramError
  /-- `ErrAuthFailed`, as it is or wrapped -/
  | authFailed
  | nonceMismatch
  | nonceNotExtended
  | signatureMismatch
  | serverSaid (reason : Bytes)
  | clientKeySize (size : Nat)
  | noRandomness
  /-- `ErrChannelBindingUnsupported` -/
  | channelBindingUnsupported
  /-- `ErrProtocol`, wrapped -/
  | noGS2Header
  | noProof
  | noAttribute (key : UInt8)
  | emptyNonce
  | finishBeforeBegin
  | finalBeforeFirst
  | verifyBeforeFinal
  | noBinding
  | proofSize
  | iterationCount (text : Bytes)
  | signatureNotBase64
  deriving DecidableEq

structure SCRAMVerifier where
  iterations : Int
  salt : Bytes
  storedKey : Bytes
  serverKey : Bytes
  deriving DecidableEq

variable (P : Primitives)

def attr (message : Bytes) (key : UInt8) : Except ScramError Bytes :=
  match findField comma message key with
  | some value => .ok value
  | none => .error (.noAttribute key)

def splitGS2 (clientFirst : Bytes) : Except ScramError (Bytes × Bytes) :=
  match cutAt comma clientFirst with
  | none => .error .noGS2Header
  | some (flag, rest) =>
    match cutAt comma rest with
    | none => .error .noGS2Header
    | some (_, bare) => .ok (flag, bare)

def cutProof (clientFinal : Bytes) : Except ScramError (Bytes × Bytes) :=
  match cutLast (ascii ",p=") clientFinal with
  | some parts => .ok parts
  | none => .error .noProof

def decodeProof (encoded : Bytes) : Except ScramError Bytes :=
  match P.decode encoded with
  | some proof => if proof.length ≠ 32 then .error .proofSize else .ok proof
  | none => .error .proofSize

def xorBytes (a b : Bytes) : Bytes := a.zipWith (· ^^^ ·) b

def newNonce (random : Option Bytes) : Except ScramError Bytes :=
  match random with
  | some raw => .ok (P.encode raw)
  | none => .error .noRandomness

def checkBinding (binding : Bytes) : Except ScramError Unit :=
  if binding = ascii "biws" ∨ binding = ascii "eSws" then .ok ()
  else if binding = [] then .error .noBinding
  else .error .channelBindingUnsupported

def saslPrep (user : Bytes) : Bytes :=
  user.flatMap fun b =>
    if b = '='.toUInt8 then ascii "=3D" else if b = comma then ascii "=2C" else [b]

/-- `n=%s,r=%s` -/
def bareMessage (user nonce : Bytes) : Bytes :=
  field 'n'.toUInt8 (saslPrep user) ++ comma :: field 'r'.toUInt8 nonce

/-- `r=%s,s=%s,i=%d` -/
def firstMessage (verifier : SCRAMVerifier) (nonce : Bytes) : Bytes :=
  field 'r'.toUInt8 nonce ++ comma :: (field 's'.toUInt8 (P.encode verifier.salt) ++ comma ::
    field 'i'.toUInt8 (decimal verifier.iterations))

/-- `c=biws,r=%s` -/
def finalMessage (nonce : Bytes) : Bytes :=
  field 'c'.toUInt8 (ascii "biws") ++ comma :: field 'r'.toUInt8 nonce

def transcript (bare first withoutProof : Bytes) : Bytes :=
  bare ++ comma :: (first ++ comma :: withoutProof)

structure ScramServer where
  verifier : SCRAMVerifier
  clientFirstBare : Bytes
  serverFirst : Bytes
  nonce : Bytes
  clientKey : Option Bytes
  deriving DecidableEq

namespace ScramServer

def new (verifier : SCRAMVerifier) : ScramServer := ⟨verifier, [], [], [], none⟩

def begins (s : ScramServer) (random : Option Bytes) (clientFirst : Bytes) :
    Except ScramError (Bytes × ScramServer) := do
  let (gs2, bare) ← splitGS2 clientFirst
  if ascii "p=" <+: gs2 then throw .channelBindingUnsupported
  let clientNonce ← attr bare 'r'.toUInt8
  if clientNonce = [] then throw .emptyNonce
  let serverNonce ← newNonce P random
  let nonce := clientNonce ++ serverNonce
  let serverFirst := firstMessage P s.verifier nonce
  return (serverFirst,
    { s with clientFirstBare := bare, serverFirst := serverFirst, nonce := nonce })

def finish (s : ScramServer) (clientFinal : Bytes) : Except ScramError (Bytes × ScramServer) := do
  if s.serverFirst = [] then throw .finishBeforeBegin
  let (withoutProof, encoded) ← cutProof clientFinal
  let gotNonce ← attr withoutProof 'r'.toUInt8
  if gotNonce ≠ s.nonce then throw .nonceMismatch
  let binding ← attr withoutProof 'c'.toUInt8
  checkBinding binding
  let proof ← decodeProof P encoded
  let authMessage := transcript s.clientFirstBare s.serverFirst withoutProof
  let clientKey := xorBytes proof (P.hmac s.verifier.storedKey authMessage)
  if P.sha256 clientKey ≠ s.verifier.storedKey then throw .authFailed
  let serverSignature := P.hmac s.verifier.serverKey authMessage
  return (field 'v'.toUInt8 (P.encode serverSignature), { s with clientKey := some clientKey })

end ScramServer

structure ScramClient where
  user : Bytes
  clientKey : Bytes
  storedKey : Bytes
  nonce : Bytes
  firstBare : Bytes
  authMsg : Bytes
  deriving DecidableEq

namespace ScramClient

def new (user clientKey : Bytes) : Except ScramError ScramClient :=
  if clientKey.length ≠ 32 then .error (.clientKeySize clientKey.length)
  else .ok ⟨user, clientKey, P.sha256 clientKey, [], [], []⟩

def first (c : ScramClient) (random : Option Bytes) : Except ScramError (Bytes × ScramClient) := do
  let nonce ← newNonce P random
  let firstBare := bareMessage c.user nonce
  return (ascii "n,," ++ firstBare, { c with nonce := nonce, firstBare := firstBare })

def final (c : ScramClient) (serverFirst : Bytes) : Except ScramError (Bytes × ScramClient) := do
  if c.firstBare = [] then throw .finalBeforeFirst
  let combined ← attr serverFirst 'r'.toUInt8
  if combined.length ≤ c.nonce.length ∨ combined.take c.nonce.length ≠ c.nonce then
    throw .nonceNotExtended
  let _ ← attr serverFirst 's'.toUInt8
  let iterText ← attr serverFirst 'i'.toUInt8
  if ¬ (parseInt iterText).any (0 < ·) then throw (.iterationCount iterText)
  let withoutProof := finalMessage combined
  let authMsg := transcript c.firstBare serverFirst withoutProof
  let proof := xorBytes c.clientKey (P.hmac c.storedKey authMsg)
  return (withoutProof ++ (ascii ",p=" ++ P.encode proof), { c with authMsg := authMsg })

def verifyServer (c : ScramClient) (serverFinal serverKey : Bytes) : Except ScramError Unit :=
  if c.authMsg = [] then .error .verifyBeforeFinal
  else
    match attr serverFinal 'v'.toUInt8 with
    | .error e =>
      match attr serverFinal 'e'.toUInt8 with
      | .ok reason => .error (.serverSaid reason)
      | .error _ => .error e
    | .ok got =>
      match P.decode got with
      | none => .error .signatureNotBase64
      | some decoded =>
        if decoded ≠ P.hmac serverKey c.authMsg then .error .signatureMismatch else .ok ()

end ScramClient

/-- A client of the given key against a server, message by message; what the
server knows of the key at the end. -/
def exchange (user clientKey : Bytes) (verifier : SCRAMVerifier)
    (clientRandom serverRandom : Option Bytes) : Except ScramError (Option Bytes) := do
  let client ← ScramClient.new P user clientKey
  let (clientFirst, client) ← client.first P clientRandom
  let (serverFirst, server) ← (ScramServer.new verifier).begins P serverRandom clientFirst
  let (clientFinal, client) ← client.final P serverFirst
  let (serverFinal, server) ← server.finish P clientFinal
  client.verifyServer P serverFinal verifier.serverKey
  return server.clientKey

end Pontus.Credentials
