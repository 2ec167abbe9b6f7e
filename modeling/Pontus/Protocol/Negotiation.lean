import Pontus.Lib.Inbound
import Pontus.Protocol.Startup

/-!
# Encryption negotiation

Before its startup packet a client may ask for TLS or for GSSAPI encryption.
Each request is answered by one byte, and a client that was answered `S` goes on
through TLS: from there on Pontus reads another connection.
-/

namespace Pontus.Protocol

open Lib

def sslRequestCode : Nat := 80877103

def gssEncRequestCode : Nat := 80877104

inductive StartupError where
  | readLength
  | outOfRange (length : Nat)
  | readBody
  | answer
  | handshake
  | noStartup
  deriving DecidableEq

/-- What is still to be read on a connection, and whether a write succeeds. -/
structure ClientConn where
  reads : List Bytes
  writes : Bool
  deriving DecidableEq

structure StartupPacket where
  raw : Bytes
  code : Nat
  deriving DecidableEq

def readStartupPacket (r : ClientConn) : Except StartupError (StartupPacket × ClientConn) :=
  match readFull 4 r.reads with
  | ([l₀, l₁, l₂, l₃], reads) =>
    let length := beU32 l₀ l₁ l₂ l₃
    if length < 8 || length > maxStartupLen then .error (.outOfRange length)
    else
      match readFull (length - 4) reads with
      | (c₀ :: c₁ :: c₂ :: c₃ :: rest, reads) =>
        if rest.length + 8 < length then .error .readBody
        else
          .ok (⟨l₀ :: l₁ :: l₂ :: l₃ :: c₀ :: c₁ :: c₂ :: c₃ :: rest, beU32 c₀ c₁ c₂ c₃⟩,
            { r with reads := reads })
      | _ => .error .readBody
  | _ => .error .readLength

/-- The configuration, as what a handshake makes of a connection. -/
abbrev ClientTLS := Option (ClientConn → Option ClientConn)

def writeAnswer (answer : Char) (client : ClientConn) : Bytes × Except StartupError ClientConn :=
  if client.writes then ([answer.toUInt8], .ok client) else ([], .error .answer)

def negotiateTLS (tls : ClientTLS) (client : ClientConn) :
    Bytes × Except StartupError ClientConn :=
  match tls with
  | none => writeAnswer 'N' client
  | some handshake =>
    match writeAnswer 'S' client with
    | (written, .ok client) => (written, (handshake client).elim (.error .handshake) .ok)
    | failed => failed

/-- The passes of `readClientStartup`, with the bytes they write. -/
def clientStartupLoop (tls : ClientTLS) :
    Nat → ClientConn → Bytes × Except StartupError (StartupPacket × ClientConn)
  | 0, _ => ([], .error .noStartup)
  | passes + 1, client =>
    let goOn : Bytes × Except StartupError ClientConn → _
      | (written, .error e) => (written, .error e)
      | (written, .ok client) =>
        let (more, result) := clientStartupLoop tls passes client
        (written ++ more, result)
    match readStartupPacket client with
    | .error e => ([], .error e)
    | .ok (pkt, client) =>
      if pkt.code = sslRequestCode then goOn (negotiateTLS tls client)
      else if pkt.code = gssEncRequestCode then goOn (writeAnswer 'N' client)
      else ([], .ok (pkt, client))

def readClientStartup (tls : ClientTLS) (client : ClientConn) :
    Bytes × Except StartupError (StartupPacket × ClientConn) :=
  clientStartupLoop tls 2 client

end Pontus.Protocol
