import Pontus.Protocol.Negotiation

/-!
# Reaching the startup packet

A request takes a pass of the loop, and so does the startup packet: with two
passes it is reached behind one request, not behind both.
-/

namespace Pontus.Protocol

open Lib

inductive EncRequest where
  | ssl
  | gssEnc

namespace EncRequest

def code : EncRequest → Nat
  | ssl => sslRequestCode
  | gssEnc => gssEncRequestCode

def packet (r : EncRequest) : Bytes := putU32 8 ++ putU32 r.code

def answer (tls : ClientTLS) : EncRequest → UInt8
  | ssl => if tls.isSome then 'S'.toUInt8 else 'N'.toUInt8
  | gssEnc => 'N'.toUInt8

def negotiate (tls : ClientTLS) (client : ClientConn) :
    EncRequest → Bytes × Except StartupError ClientConn
  | ssl => negotiateTLS tls client
  | gssEnc => writeAnswer 'N' client

end EncRequest

/-- The client sends the requests and then `packet`, however the bytes are cut,
each on the connection it has by then: no write and no handshake fails.
`behind` is what it sends after that. -/
def Sends (tls : ClientTLS) (packet behind : Bytes) : List EncRequest → ClientConn → Prop
  | [], client => client.reads.flatten = packet ++ behind
  | r :: requests, client => ∃ after, client.reads.flatten = r.packet ++ after ∧
      ∀ left : ClientConn, left.reads.flatten = after → left.writes = client.writes →
        ∃ next, (r.negotiate tls left).2 = .ok next ∧ Sends tls packet behind requests next

variable {client next : ClientConn}

theorem readStartupPacket_eq (hcode : startupCode packet = some code)
    (hreads : client.reads.flatten = packet ++ behind) :
    ∃ left, readStartupPacket client = .ok (⟨packet, code⟩, left) ∧
      left.reads.flatten = behind ∧ left.writes = client.writes := by
  unfold startupCode at hcode
  split at hcode
  · rename_i l₀ l₁ l₂ l₃ c₀ c₁ c₂ c₃ rest
    rw [ite_none_right_eq_some, some_inj] at hcode
    obtain ⟨⟨hlength, hmax⟩, rfl⟩ := hcode
    have hhead : readFull 4 client.reads = ([l₀, l₁, l₂, l₃], (readFull 4 client.reads).2) := by
      rw [Prod.ext_iff, readFull_fst, hreads]
      exact ⟨rfl, rfl⟩
    have htail := readFull_snd_flatten 4 client.reads
    rw [hreads] at htail
    generalize (readFull 4 client.reads).2 = reads at hhead htail
    change reads.flatten = c₀ :: c₁ :: c₂ :: c₃ :: (rest ++ behind) at htail
    have hrest := readFull_snd_flatten (rest.length + 4) reads
    have hbody : readFull (rest.length + 4) reads =
        (c₀ :: c₁ :: c₂ :: c₃ :: rest, (readFull (rest.length + 4) reads).2) := by
      rw [Prod.ext_iff, readFull_fst, htail]
      simp
    simp only [length_cons] at hlength hmax
    refine ⟨{ client with reads := (readFull (rest.length + 4) reads).2 }, ?_, ?_, rfl⟩
    · have hwant : rest.length + 1 + 1 + 1 + 1 + 1 + 1 + 1 + 1 - 4 = rest.length + 4 := by omega
      rw [readStartupPacket, hhead]
      dsimp only
      rw [hlength, hwant, hbody]
      dsimp only
      rw [if_neg (by simp; omega), if_neg (by omega)]
    · dsimp only
      rw [hrest, htail]
      simp
  · cases hcode

theorem startupCode_packet (r : EncRequest) : startupCode r.packet = some r.code := by
  cases r <;> decide

theorem negotiate_ok (r : EncRequest) (h : (r.negotiate tls client).2 = .ok next) :
    r.negotiate tls client = ([r.answer tls], .ok next) := by
  refine Prod.ext ?_ h
  -- the write has not failed, so a byte was written
  cases r <;> cases tls <;> cases hwrites : client.writes <;>
    simp [EncRequest.negotiate, negotiateTLS, writeAnswer, hwrites] at h ⊢ <;> rfl

theorem clientStartupLoop_request {r : EncRequest} (passes : Nat)
    (hread : readStartupPacket client = .ok (⟨r.packet, r.code⟩, left))
    (hnext : (r.negotiate tls left).2 = .ok next) :
    clientStartupLoop tls (passes + 1) client =
      (r.answer tls :: (clientStartupLoop tls passes next).1,
        (clientStartupLoop tls passes next).2) := by
  have hanswer := negotiate_ok r hnext
  rw [clientStartupLoop, hread]
  cases r <;> simp only [EncRequest.negotiate] at hanswer <;>
    simp [EncRequest.code, hanswer, sslRequestCode, gssEncRequestCode]

theorem clientStartupLoop_eq (passes : Nat) (hcode : startupCode packet = some code)
    (hssl : code ≠ sslRequestCode) (hgssEnc : code ≠ gssEncRequestCode)
    (hsends : Sends tls packet behind requests client) :
    ∃ left : ClientConn, left.reads.flatten = behind ∧
      clientStartupLoop tls passes client = ((requests.take passes).map (·.answer tls),
        if requests.length < passes then .ok (⟨packet, code⟩, left) else .error .noStartup) := by
  induction passes generalizing requests client with
  | zero => exact ⟨⟨[behind], true⟩, by simp, by simp [clientStartupLoop]⟩
  | succ passes ih =>
    cases requests with
    | nil =>
      obtain ⟨left, hread, hbehind, -⟩ := readStartupPacket_eq hcode hsends
      exact ⟨left, hbehind, by simp [clientStartupLoop, hread, hssl, hgssEnc]⟩
    | cons r requests =>
      obtain ⟨after, hreads, hgoes⟩ := hsends
      obtain ⟨left, hread, hafter, hleft⟩ := readStartupPacket_eq (startupCode_packet r) hreads
      obtain ⟨next, hnext, hsends⟩ := hgoes left hafter hleft
      obtain ⟨last, hlast, hloop⟩ := ih hsends
      refine ⟨last, hlast, ?_⟩
      rw [clientStartupLoop_request passes hread hnext, hloop]
      simp

/-- **The startup packet is reached** exactly behind at most one request. -/
theorem startup_packet_reached (tls : ClientTLS) (requests : List EncRequest) (client : ClientConn)
    (packet behind : Bytes) {code : Nat} (hcode : startupCode packet = some code)
    (hssl : code ≠ sslRequestCode) (hgssEnc : code ≠ gssEncRequestCode)
    (hsends : Sends tls packet behind requests client) :
    ((∃ left : ClientConn, left.reads.flatten = behind ∧ readClientStartup tls client =
        (requests.map (·.answer tls), .ok (⟨packet, code⟩, left))) ↔ requests.length ≤ 1) ∧
      (2 ≤ requests.length → readClientStartup tls client =
        ((requests.take 2).map (·.answer tls), .error .noStartup)) := by
  obtain ⟨left, hbehind, hloop⟩ := clientStartupLoop_eq 2 hcode hssl hgssEnc hsends
  change readClientStartup tls client = _ at hloop
  by_cases hfew : requests.length ≤ 1
  · rw [if_pos (by omega), List.take_of_length_le (by omega)] at hloop
    exact ⟨iff_of_true ⟨left, hbehind, hloop⟩ hfew, fun hmany => by omega⟩
  · rw [if_neg (by omega)] at hloop
    refine ⟨iff_of_false ?_ hfew, fun _ => hloop⟩
    rintro ⟨_, _, hreached⟩
    rw [hloop, Prod.mk.injEq] at hreached
    cases hreached.2

def appPacket : Bytes := startupPacket [0, 3, 0, 0] [(ascii "user", ascii "app")]

/-- Behind the handshake the packet comes in two reads. -/
def throughTLS : ClientConn := ⟨[appPacket.take 5, appPacket.drop 5], true⟩

theorem startup_packet_reached_through_tls :
    ∃ left : ClientConn, left.reads.flatten = [] ∧
      readClientStartup (some fun _ => some throughTLS) ⟨[[0, 0, 0], [8, 4, 210, 22, 47]], true⟩ =
        (['S'.toUInt8], .ok (⟨appPacket, 196608⟩, left)) := by
  refine (startup_packet_reached _ [.ssl] _ appPacket [] (by decide +kernel) (by decide)
    (by decide) ⟨[], rfl, fun left _ hwrites => ⟨throughTLS, ?_, rfl⟩⟩).1.2 (by decide)
  have hwritten : left.writes = true := hwrites
  simp [EncRequest.negotiate, negotiateTLS, writeAnswer, hwritten]

theorem startup_packet_refused_behind_both :
    readClientStartup none
        ⟨[EncRequest.gssEnc.packet ++ EncRequest.ssl.packet ++ appPacket], true⟩ =
      (['N'.toUInt8, 'N'.toUInt8], .error .noStartup) := by
  decide +kernel

end Pontus.Protocol
