import Mathlib.Logic.Equiv.List
import Pontus.Credentials.Scram

/-!
# SCRAM completes for who holds the key

The two sides build the transcript each from its own pieces.  No value has a
comma in it, whoever wrote it, so every message is cut where it was put
together, and both sides sign the same bytes.
-/

namespace Pontus.Credentials

open Lib Protocol

theorem comma_notMem_saslPrep (user : Bytes) : comma ∉ saslPrep user := by
  intro hmem
  obtain ⟨b, -, hb⟩ := List.mem_flatMap.1 hmem
  split_ifs at hb with heq hcomma
  · revert hb
    decide
  · revert hb
    decide
  · exact hcomma (mem_singleton.1 hb).symm

theorem xorBytes_xorBytes (h : a.length = b.length) : xorBytes (xorBytes a b) b = a := by
  induction a generalizing b with
  | nil => rfl
  | cons x _ ih =>
    cases b with
    | nil => cases h
    | cons y =>
      have hxy : x ^^^ y ^^^ y = x := by rw [UInt8.xor_assoc, UInt8.xor_self, UInt8.xor_zero]
      have htail := ih (Nat.succ.inj h)
      simp only [xorBytes, List.zipWith_cons_cons, hxy] at htail ⊢
      rw [htail]

theorem length_xorBytes (ha : a.length = 32) (hb : b.length = 32) : (xorBytes a b).length = 32 := by
  simp [xorBytes, ha, hb]

theorem digit_toUInt8 {c : Char} (h : c.isDigit) :
    48 ≤ c.toUInt8.toNat ∧ c.toUInt8.toNat ≤ 57 ∧ c.toUInt8.toNat = c.toNat := by
  rw [Char.isDigit, and_eq_true, decide_eq_true_eq, decide_eq_true_eq] at h
  have hlow : 48 ≤ c.toNat := h.1
  have hhigh : c.toNat ≤ 57 := h.2
  have htoNat : c.toUInt8.toNat = c.toNat := by
    exact Nat.mod_eq_of_lt (by change c.toNat < 2 ^ 8; omega)
  omega

theorem mem_decimal {n : Int} (hpos : 0 < n) :
    decimal n = (Nat.toDigits 10 n.natAbs).map Char.toUInt8 ∧
      ∀ b ∈ decimal n, 48 ≤ b.toNat ∧ b.toNat ≤ 57 := by
  have hdecimal : decimal n = (Nat.toDigits 10 n.natAbs).map Char.toUInt8 := by
    rw [decimal, if_neg (by omega), appendInt, ascii, Nat.repr_eq_ofList_toDigits]
    simp
  refine ⟨hdecimal, ?_⟩
  rw [hdecimal]
  intro b hb
  obtain ⟨c, hc, rfl⟩ := mem_map.1 hb
  have hdigit := digit_toUInt8 (Nat.isDigit_of_mem_toDigits (by omega) (by omega) hc)
  exact ⟨hdigit.1, hdigit.2.1⟩

/-- What `%d` prints of a number is read back. -/
theorem parseInt_decimal {n : Int} (hpos : 0 < n) (hlt : n < 2 ^ 63) :
    parseInt (decimal n) = some n := by
  obtain ⟨hdecimal, hdigits⟩ := mem_decimal hpos
  have hvalue : (decimal n).foldl (fun n b => n * 10 + (b.toNat - 48)) 0 = n.natAbs := by
    rw [hdecimal]
    calc
      _ = Nat.ofDigitChars 10 (Nat.toDigits 10 n.natAbs) 0 := by
        rw [Nat.ofDigitChars_eq_foldl, List.foldl_map]
        apply List.foldl_ext
        intro sofar c hc
        rw [(digit_toUInt8 (Nat.isDigit_of_mem_toDigits (by omega) (by omega) hc)).2.2,
          Nat.mul_comm]
        rfl
      _ = n.natAbs := Nat.ofDigitChars_ten_toDigits
  have hne : decimal n ≠ [] := by simp [hdecimal, Nat.toDigits_ne_nil]
  generalize decimal n = digits at hdigits hvalue hne
  have hall : digits.all (fun b => 48 ≤ b && b ≤ 57) = true := by
    rw [all_eq_true]
    intro b hb
    simp only [and_eq_true, decide_eq_true_eq, UInt8.le_iff_toNat_le]
    exact hdigits b hb
  unfold parseInt
  split
  rename_i negative digits' hsign
  split at hsign
  · exact absurd (hdigits 45 mem_cons_self).1 (by decide)
  · exact absurd (hdigits 43 mem_cons_self).1 (by decide)
  · cases hsign
    rw [if_neg (by simp [hne, hall])]
    rw [hvalue, if_neg Bool.false_ne_true, if_pos (by omega)]
    congr 1
    omega

theorem comma_notMem_decimal (hpos : 0 < n) : comma ∉ decimal n := by
  intro hmem
  exact absurd ((mem_decimal hpos).2 comma hmem).1 (by decide)

theorem attr_of_findField (h : findField comma message key = some value) :
    attr message key = .ok value := by
  rw [attr, h]

variable (P : Primitives)

section
variable {nonce : Bytes} (hnonce : comma ∉ nonce)
include hnonce

theorem attr_bareMessage (user : Bytes) :
    attr (bareMessage user nonce) 'r'.toUInt8 = .ok nonce := by
  apply attr_of_findField
  rw [bareMessage, findField_ne (comma_notMem_saslPrep user) (by decide) (by decide) (by decide),
    findField_last hnonce (by decide) (by decide)]

theorem attr_firstMessage (hpos : 0 < verifier.iterations) :
    attr (firstMessage P verifier nonce) 'r'.toUInt8 = .ok nonce ∧
      attr (firstMessage P verifier nonce) 's'.toUInt8 = .ok (P.encode verifier.salt) ∧
      attr (firstMessage P verifier nonce) 'i'.toUInt8 = .ok (decimal verifier.iterations) := by
  have hsalt := P.comma_notMem_encode verifier.salt
  refine ⟨?_, ?_, ?_⟩
  · apply attr_of_findField
    exact findField_self hnonce (by decide) (by decide) _
  · apply attr_of_findField
    rw [firstMessage, findField_ne hnonce (by decide) (by decide) (by decide)]
    exact findField_self hsalt (by decide) (by decide) _
  · apply attr_of_findField
    rw [firstMessage, findField_ne hnonce (by decide) (by decide) (by decide),
      findField_ne hsalt (by decide) (by decide) (by decide)]
    exact findField_last (comma_notMem_decimal hpos) (by decide) (by decide)

theorem attr_finalMessage :
    attr (finalMessage nonce) 'r'.toUInt8 = .ok nonce ∧
      attr (finalMessage nonce) 'c'.toUInt8 = .ok (ascii "biws") := by
  constructor
  · apply attr_of_findField
    exact findField_last hnonce (by decide) (by decide)
  · apply attr_of_findField
    exact findField_self (by decide) (by decide) (by decide) _

end

theorem nonce_ne_nil (h : raw.length = 18) : P.encode raw ≠ [] := by
  intro hnil
  have hraw : some raw = some [] := by
    rw [← P.decode_encode raw, hnil, ← P.decode_encode [], P.encode_nil]
  cases hraw
  cases h

theorem begins_eq (verifier : SCRAMVerifier) (user raw : Bytes) (hnonce : comma ∉ nonce)
    (hne : nonce ≠ []) (hheader : header = ascii "n,," ∨ header = ascii "y,,") :
    (ScramServer.new verifier).begins P (some raw) (header ++ bareMessage user nonce) =
      .ok (firstMessage P verifier (nonce ++ P.encode raw),
        ⟨verifier, bareMessage user nonce, firstMessage P verifier (nonce ++ P.encode raw),
          nonce ++ P.encode raw, none⟩) := by
  obtain ⟨flag, hsplit, hflag⟩ : ∃ flag, splitGS2 (header ++ bareMessage user nonce) =
      .ok (flag, bareMessage user nonce) ∧ ¬ ascii "p=" <+: flag := by
    rcases hheader with rfl | rfl
    · exact ⟨ascii "n", rfl, by decide⟩
    · exact ⟨ascii "y", rfl, by decide⟩
  simp only [ScramServer.begins, hsplit, attr_bareMessage hnonce, hflag, hne, newNonce, if_false,
    bind, Except.bind, pure, Except.pure]
  rfl

theorem final_eq (c : ScramClient) (hpos : 0 < verifier.iterations)
    (hlt : verifier.iterations < 2 ^ 63) (hbare : c.firstBare ≠ []) (hcombined : comma ∉ combined)
    (hlen : c.nonce.length < combined.length) (hextends : combined.take c.nonce.length = c.nonce)
    (hauthMsg : authMsg = transcript c.firstBare (firstMessage P verifier combined)
      (finalMessage combined)) :
    c.final P (firstMessage P verifier combined) =
      .ok (finalMessage combined ++ (ascii ",p=" ++
        P.encode (xorBytes c.clientKey (P.hmac c.storedKey authMsg))),
        { c with authMsg := authMsg }) := by
  obtain ⟨hr, hs, hi⟩ := attr_firstMessage P hcombined hpos
  have hiterations : (parseInt (decimal verifier.iterations)).any (0 < ·) = true := by
    simp [parseInt_decimal hpos hlt, hpos]
  simp only [ScramClient.final, hbare, hr, hs, hi, hextends, Nat.not_le.2 hlen, hiterations,
    hauthMsg, ne_eq, not_true_eq_false, or_self, if_false, bind, Except.bind, pure, Except.pure]

theorem cutProof_append (withoutProof proof : Bytes) :
    cutProof (withoutProof ++ (ascii ",p=" ++ P.encode proof)) =
      .ok (withoutProof, P.encode proof) := by
  have hmark : ascii ",p=" = comma :: ascii "p=" := rfl
  rw [cutProof, hmark, cutLast_append (by decide) (P.comma_notMem_encode proof)]

/-- A final message of this exchange: behind the cut it has the nonce, and the
proof gives a key of the verifier. -/
structure ScramServer.Proven (s : ScramServer) (withoutProof proof key : Bytes) : Prop where
  nonce : attr withoutProof 'r'.toUInt8 = .ok s.nonce
  size : proof.length = 32
  key_eq : key = xorBytes proof (P.hmac s.verifier.storedKey
    (transcript s.clientFirstBare s.serverFirst withoutProof))
  stored : P.sha256 key = s.verifier.storedKey

section
variable (s : ScramServer) (hfirst : s.serverFirst ≠ [])
include hfirst

theorem finish_eq (hcut : cutProof clientFinal = .ok (withoutProof, encoded))
    (hdecode : P.decode encoded = some proof) (hproven : s.Proven P withoutProof proof key)
    (hbinding : binding = ascii "biws" ∨ binding = ascii "eSws")
    (hattr : attr withoutProof 'c'.toUInt8 = .ok binding) :
    s.finish P clientFinal =
      .ok (field 'v'.toUInt8 (P.encode (P.hmac s.verifier.serverKey
          (transcript s.clientFirstBare s.serverFirst withoutProof))),
        { s with clientKey := some key }) := by
  have hchecked : checkBinding binding = .ok () := if_pos hbinding
  have hproof : decodeProof P encoded = .ok proof := by
    rw [decodeProof, hdecode]
    exact if_neg (not_not.2 hproven.size)
  simp only [ScramServer.finish, hfirst, hcut, hproven.nonce, hattr, hchecked, hproof,
    ← hproven.key_eq, hproven.stored, ne_eq, not_true_eq_false, if_false, bind, Except.bind, pure,
    Except.pure]

theorem finish_of_key (hnonce : comma ∉ s.nonce) (hkey : key.length = 32)
    (hstored : P.sha256 key = s.verifier.storedKey) :
    ∃ proof result, s.finish P (finalMessage s.nonce ++ (ascii ",p=" ++ P.encode proof)) =
      .ok result := by
  refine ⟨xorBytes key (P.hmac s.verifier.storedKey (transcript s.clientFirstBare s.serverFirst
    (finalMessage s.nonce))), _, finish_eq P s hfirst (cutProof_append P _ _) (P.decode_encode _)
    ⟨(attr_finalMessage hnonce).1, length_xorBytes hkey (P.length_hmac _ _), ?_, hstored⟩
    (.inl rfl) (attr_finalMessage hnonce).2⟩
  rw [xorBytes_xorBytes (by rw [hkey, P.length_hmac])]

end

theorem verifyServer_eq (c : ScramClient) (serverKey : Bytes) (h : c.authMsg ≠ []) :
    c.verifyServer P (field 'v'.toUInt8 (P.encode (P.hmac serverKey c.authMsg))) serverKey =
      .ok () := by
  have hv := attr_of_findField (findField_last
    (P.comma_notMem_encode (P.hmac serverKey c.authMsg)) (by decide : comma ≠ 'v'.toUInt8)
    (by decide))
  rw [ScramClient.verifyServer, if_neg h, hv]
  simp [P.decode_encode]

structure KeyHolder where
  user : Bytes
  clientKey : Bytes
  verifier : SCRAMVerifier
  clientRandom : Bytes
  serverRandom : Bytes
  length_key : clientKey.length = 32
  stored : verifier.storedKey = P.sha256 clientKey
  iterations_pos : 0 < verifier.iterations
  iterations_lt : verifier.iterations < 2 ^ 63
  length_client : clientRandom.length = 18
  length_server : serverRandom.length = 18

def KeyHolder.exchange (k : KeyHolder P) : Except ScramError (Option Bytes) :=
  Credentials.exchange P k.user k.clientKey k.verifier (some k.clientRandom) (some k.serverRandom)

theorem KeyHolder.exchange_eq (k : KeyHolder P) : k.exchange P = .ok (some k.clientKey) := by
  have hclient := nonce_ne_nil P k.length_client
  have hserver := length_pos_iff.2 (nonce_ne_nil P k.length_server)
  have hnonce := P.comma_notMem_encode k.clientRandom
  have hcombined : comma ∉ P.encode k.clientRandom ++ P.encode k.serverRandom := by
    simp [hnonce, P.comma_notMem_encode]
  have hbegins := begins_eq P k.verifier k.user k.serverRandom hnonce hclient (.inl rfl)
  have hnew : ScramClient.new P k.user k.clientKey =
      .ok ⟨k.user, k.clientKey, P.sha256 k.clientKey, [], [], []⟩ :=
    if_neg (by simp [k.length_key])
  have hfirst (c : ScramClient) : c.first P (some k.clientRandom) =
      .ok (ascii "n,," ++ bareMessage c.user (P.encode k.clientRandom),
        { c with nonce := P.encode k.clientRandom,
                 firstBare := bareMessage c.user (P.encode k.clientRandom) }) := rfl
  -- what was signed, and the key that comes out of the proof
  obtain ⟨message, hmessage⟩ : ∃ message, message = transcript
      (bareMessage k.user (P.encode k.clientRandom))
      (firstMessage P k.verifier (P.encode k.clientRandom ++ P.encode k.serverRandom))
      (finalMessage (P.encode k.clientRandom ++ P.encode k.serverRandom)) := ⟨_, rfl⟩
  have hkey : xorBytes (xorBytes k.clientKey (P.hmac (P.sha256 k.clientKey) message))
      (P.hmac k.verifier.storedKey message) = k.clientKey := by
    rw [k.stored]
    apply xorBytes_xorBytes
    rw [k.length_key, P.length_hmac]
  have hfinal := final_eq P ⟨k.user, k.clientKey, P.sha256 k.clientKey,
    P.encode k.clientRandom, bareMessage k.user (P.encode k.clientRandom), []⟩
    k.iterations_pos k.iterations_lt (cons_ne_nil _ _) hcombined
    (by simpa using hserver) (by simp) hmessage
  have hfinish := finish_eq P ⟨k.verifier, bareMessage k.user (P.encode k.clientRandom),
    firstMessage P k.verifier (P.encode k.clientRandom ++ P.encode k.serverRandom),
    P.encode k.clientRandom ++ P.encode k.serverRandom, none⟩
    (cons_ne_nil _ _) (cutProof_append P _ _) (P.decode_encode _)
    ⟨(attr_finalMessage hcombined).1,
      length_xorBytes k.length_key (P.length_hmac (P.sha256 k.clientKey) message),
      by rw [← hmessage, hkey], k.stored.symm⟩ (.inl rfl) (attr_finalMessage hcombined).2
  rw [← hmessage] at hfinish
  have hverify := verifyServer_eq P ⟨k.user, k.clientKey, P.sha256 k.clientKey,
    P.encode k.clientRandom, bareMessage k.user (P.encode k.clientRandom), message⟩
    k.verifier.serverKey (by rw [hmessage]; exact cons_ne_nil _ _)
  simp only [KeyHolder.exchange, Credentials.exchange, hnew, hfirst, hbegins, hfinal, hfinish,
    hverify, bind, Except.bind, pure, Except.pure]

theorem bind_eq_ok {α β : Type} {x : Except ScramError α} {f : α → Except ScramError β} {b : β} :
    x >>= f = .ok b ↔ ∃ a, x = .ok a ∧ f a = .ok b := by
  cases x with
  | error => simp [bind, Except.bind]
  | ok => simp [bind, Except.bind]

theorem finish_sound {s : ScramServer} (h : s.finish P clientFinal = .ok (serverFinal, s')) :
    ∃ withoutProof encoded proof key, cutProof clientFinal = .ok (withoutProof, encoded) ∧
      (∃ binding, (binding = ascii "biws" ∨ binding = ascii "eSws") ∧
        attr withoutProof 'c'.toUInt8 = .ok binding) ∧
      P.decode encoded = some proof ∧ s.Proven P withoutProof proof key ∧
      s' = { s with clientKey := some key } := by
  unfold ScramServer.finish at h
  split at h
  · cases h
  obtain ⟨⟨withoutProof, encoded⟩, hcut, h⟩ := bind_eq_ok.1 h
  obtain ⟨nonce, hattr, h⟩ := bind_eq_ok.1 h
  dsimp only at h
  split at h
  · cases h
  rename_i hnonce
  rw [not_not.1 hnonce] at hattr
  obtain ⟨binding, hbinding, h⟩ := bind_eq_ok.1 h
  obtain ⟨_, hchecked, h⟩ := bind_eq_ok.1 h
  obtain ⟨proof, hproof, h⟩ := bind_eq_ok.1 h
  split at h
  · cases h
  rename_i hkey
  cases h
  have hdecode : P.decode encoded = some proof ∧ proof.length = 32 := by
    rw [decodeProof] at hproof
    split at hproof
    · rename_i proof' hdecode
      split at hproof
      · cases hproof
      · rename_i hsize
        cases hproof
        exact ⟨hdecode, not_not.1 hsize⟩
    · cases hproof
  have haccepted : binding = ascii "biws" ∨ binding = ascii "eSws" := by
    rw [checkBinding] at hchecked
    split at hchecked
    · assumption
    · split at hchecked <;> cases hchecked
  exact ⟨withoutProof, encoded, proof, _, hcut, ⟨binding, haccepted, hbinding⟩, hdecode.1,
    ⟨hattr, hdecode.2, rfl, not_not.1 hkey⟩, rfl⟩

theorem cutProof_eq (h : cutProof clientFinal = .ok (withoutProof, encoded)) :
    clientFinal = withoutProof ++ ascii ",p=" ++ encoded := by
  rw [cutProof] at h
  split at h
  · rename_i hlast
    cases h
    exact cutLast_eq_some hlast
  · cases h

theorem begins_sound {s s' : ScramServer}
    (h : s.begins P random clientFirst = .ok (serverFirst, s')) :
    s'.verifier = s.verifier ∧ s'.serverFirst = serverFirst ∧ serverFirst ≠ [] ∧
      ∃ flag authzid, clientFirst = flag ++ comma :: (authzid ++ comma :: s'.clientFirstBare) ∧
        comma ∉ flag ∧ comma ∉ authzid := by
  obtain ⟨⟨gs2, bare⟩, hsplit, h⟩ := bind_eq_ok.1 h
  dsimp only at h
  split at h
  · cases h
  obtain ⟨clientNonce, -, h⟩ := bind_eq_ok.1 h
  split at h
  · cases h
  obtain ⟨serverNonce, -, h⟩ := bind_eq_ok.1 h
  cases h
  refine ⟨rfl, rfl, cons_ne_nil _ _, ?_⟩
  rw [splitGS2] at hsplit
  split at hsplit
  · cases hsplit
  rename_i flag rest hflag
  split at hsplit
  · cases hsplit
  rename_i authzid bare' hauthzid
  cases hsplit
  obtain ⟨hfirst, hflag'⟩ := cutAt_eq_some hflag
  obtain ⟨hrest, hauthzid'⟩ := cutAt_eq_some hauthzid
  exact ⟨_, authzid, by rw [hfirst, hrest], hflag', hauthzid'⟩

/-- The proof in a client's final message was made with a key of the verifier,
over the messages of this exchange. -/
def ProvesKey (verifier : SCRAMVerifier) (clientFirst serverFirst clientFinal key : Bytes) : Prop :=
  ∃ flag authzid bare withoutProof encoded proof,
    clientFirst = flag ++ comma :: (authzid ++ comma :: bare) ∧ comma ∉ flag ∧ comma ∉ authzid ∧
    clientFinal = withoutProof ++ ascii ",p=" ++ encoded ∧ P.decode encoded = some proof ∧
    key = xorBytes proof (P.hmac verifier.storedKey (transcript bare serverFirst withoutProof)) ∧
    P.sha256 key = verifier.storedKey

/-- **SCRAM completes exactly for the key holder.**  Whoever holds the key gets
through, and the server has the key then; and no message gets through without
a proof of such a key, however often `Finish` has been called before. -/
theorem scram_completes_for_key_holder :
    (∀ k : KeyHolder P, k.exchange P = .ok (some k.clientKey)) ∧
      ∀ (verifier : SCRAMVerifier) (random : Option Bytes) (clientFirst serverFirst : Bytes)
        (s : ScramServer), (ScramServer.new verifier).begins P random clientFirst =
          .ok (serverFirst, s) →
        ∀ (known : Option Bytes) (clientFinal serverFinal : Bytes) (s' : ScramServer),
          ({ s with clientKey := known } : ScramServer).finish P clientFinal =
            .ok (serverFinal, s') →
          ∃ key, s'.clientKey = some key ∧
            ProvesKey P verifier clientFirst serverFirst clientFinal key := by
  refine ⟨KeyHolder.exchange_eq P, ?_⟩
  intro verifier random clientFirst serverFirst s hbegins known clientFinal serverFinal s' hfinish
  obtain ⟨hverifier, hserver, -, flag, authzid, hfirst, hflag, hauthzid⟩ := begins_sound P hbegins
  obtain ⟨withoutProof, encoded, proof, key, hcut, -, hdecode, hproven, rfl⟩ :=
    finish_sound P hfinish
  have hkey := hproven.key_eq
  have hstored := hproven.stored
  rw [hverifier] at hstored hkey
  rw [hserver] at hkey
  exact ⟨key, rfl, flag, authzid, s.clientFirstBare, withoutProof, encoded, proof, hfirst, hflag,
    hauthzid, cutProof_eq hcut, hdecode, hkey, hstored⟩

def countingPrimitives : Primitives where
  sha256 text := (text ++ List.replicate 32 0).take 32
  hmac key message := (message.reverse ++ (key ++ List.replicate 32 7)).take 32
  encode text := List.replicate (Encodable.encode (text.map UInt8.toNat)) 0
  decode code := (Encodable.decode code.length).map (List.map UInt8.ofNat)
  length_sha256 text := by simp
  length_hmac key message := by
    simp
    omega
  decode_encode text := by
    have hround : UInt8.ofNat ∘ UInt8.toNat = id := funext fun b => UInt8.ofNat_toNat
    simp [hround]
  encode_nil := rfl
  comma_notMem_encode text := by
    intro hmem
    exact absurd (List.mem_replicate.1 hmem).2 (by decide)

def commaUser : KeyHolder countingPrimitives where
  user := ascii ",=,"
  clientKey := List.replicate 32 5
  verifier := ⟨4096, [1, 2], List.replicate 32 5, List.replicate 32 6⟩
  clientRandom := List.replicate 18 3
  serverRandom := List.replicate 18 4
  length_key := rfl
  stored := rfl
  iterations_pos := by decide
  iterations_lt := by decide
  length_client := rfl
  length_server := rfl

theorem comma_user_completes :
    commaUser.exchange countingPrimitives = .ok (some (List.replicate 32 5)) :=
  (scram_completes_for_key_holder countingPrimitives).1 commaUser

/-! ## The header -/

/-- The texts `checkBinding` accepts are the encodings of two headers. -/
def Primitives.EncodesHeaders : Prop :=
  P.encode (ascii "n,,") = ascii "biws" ∧ P.encode (ascii "y,,") = ascii "eSws"

/-- What `c` has to be: the encoding of the header of the first message, which
is cut at its first two commas. -/
def BindsHeader (clientFirst bare clientFinal : Bytes) : Prop :=
  ∃ flag authzid withoutProof encoded, comma ∉ flag ∧ comma ∉ authzid ∧
    clientFirst = flag ++ comma :: (authzid ++ comma :: bare) ∧
    cutProof clientFinal = .ok (withoutProof, encoded) ∧
    attr withoutProof 'c'.toUInt8 = .ok (P.encode (flag ++ comma :: (authzid ++ [comma])))

theorem encode_inj (h : P.encode a = P.encode b) : a = b := by
  have hdecode := P.decode_encode a
  rw [h, P.decode_encode] at hdecode
  exact (Option.some.inj hdecode).symm

/-- **The header is bound** exactly if a message with this exchange's nonce and
a proof that holds has a `c` that encodes one of the two headers without an
identity only where the exchange began with just that header. -/
theorem header_bound (hP : P.EncodesHeaders) {verifier : SCRAMVerifier} {random : Option Bytes}
    {clientFirst serverFirst : Bytes} {s : ScramServer}
    (hbegins : (ScramServer.new verifier).begins P random clientFirst = .ok (serverFirst, s))
    (clientFinal : Bytes) :
    (∀ serverFinal s', s.finish P clientFinal = .ok (serverFinal, s') →
        BindsHeader P clientFirst s.clientFirstBare clientFinal) ↔
      ∀ withoutProof encoded proof key, cutProof clientFinal = .ok (withoutProof, encoded) →
        P.decode encoded = some proof → s.Proven P withoutProof proof key →
        ∀ header ∈ [ascii "n,,", ascii "y,,"],
          attr withoutProof 'c'.toUInt8 = .ok (P.encode header) →
          clientFirst = header ++ s.clientFirstBare := by
  obtain ⟨-, hserver, hne, flag, authzid, hfirst, hflag, hauthzid⟩ := begins_sound P hbegins
  constructor
  · intro hbound withoutProof encoded proof key hcut hdecode hproven header hmem hattr
    have hbinding : P.encode header = ascii "biws" ∨ P.encode header = ascii "eSws" := by
      rw [← hP.1, ← hP.2]
      exact (List.mem_pair.1 hmem).imp (congrArg _) (congrArg _)
    obtain ⟨flag, authzid, _, _, -, -, hfirst, hcut', hencoded⟩ :=
      hbound _ _ (finish_eq P s (hserver ▸ hne) hcut hdecode hproven hbinding hattr)
    cases hcut.symm.trans hcut'
    rw [hattr] at hencoded
    rw [encode_inj P (Except.ok.inj hencoded), hfirst]
    simp
  · intro hplain serverFinal s' hfinish
    obtain ⟨withoutProof, encoded, proof, key, hcut, ⟨binding, hbinding, hattr⟩, hdecode, hproven,
      -⟩ := finish_sound P hfinish
    refine ⟨flag, authzid, withoutProof, encoded, hflag, hauthzid, hfirst, hcut, ?_⟩
    obtain ⟨header, hmem, rfl⟩ : ∃ header ∈ [ascii "n,,", ascii "y,,"],
        P.encode header = binding := by
      rcases hbinding with rfl | rfl
      · exact ⟨_, by decide, hP.1⟩
      · exact ⟨_, by decide, hP.2⟩
    have hboth := hfirst.symm.trans
      (hplain withoutProof encoded proof key hcut hdecode hproven header hmem hattr)
    have hheader : flag ++ comma :: (authzid ++ [comma]) = header := by
      refine List.append_cancel_right (?_ : _ ++ s.clientFirstBare = _ ++ s.clientFirstBare)
      simpa using hboth
    rw [hheader, hattr]

def headerPrimitives : Primitives where
  sha256 := countingPrimitives.sha256
  hmac := countingPrimitives.hmac
  encode text := if text = ascii "n,," then ascii "biws"
    else if text = ascii "y,," then ascii "eSws" else countingPrimitives.encode text
  decode code := if code = ascii "biws" then some (ascii "n,,")
    else if code = ascii "eSws" then some (ascii "y,,") else countingPrimitives.decode code
  length_sha256 := countingPrimitives.length_sha256
  length_hmac := countingPrimitives.length_hmac
  decode_encode text := by
    have hne (code : Bytes) (h : ∃ b ∈ code, b ≠ 0) : countingPrimitives.encode text ≠ code := by
      rintro rfl
      obtain ⟨b, hb, hb0⟩ := h
      exact hb0 (List.eq_of_mem_replicate hb)
    by_cases hn : text = ascii "n,,"
    · simp [hn]
    by_cases hy : text = ascii "y,,"
    · rw [if_neg hn, if_pos hy, if_neg (by decide), if_pos rfl, hy]
    · rw [if_neg hn, if_neg hy, if_neg (hne (ascii "biws") (by decide)),
        if_neg (hne (ascii "eSws") (by decide)), countingPrimitives.decode_encode]
  encode_nil := rfl
  comma_notMem_encode text := by
    split_ifs
    · decide
    · decide
    · exact countingPrimitives.comma_notMem_encode text

theorem headerPrimitives_encodes : headerPrimitives.EncodesHeaders := ⟨rfl, rfl⟩

/-- Whichever header came first, the key holder gets through with `c=biws`. -/
theorem biws_accepted (hheader : header = ascii "n,," ∨ header = ascii "y,,") :
    ∃ serverFirst s proof result,
      (ScramServer.new commaUser.verifier).begins headerPrimitives (some [])
        (header ++ bareMessage [] [1]) = .ok (serverFirst, s) ∧
      s.clientFirstBare = bareMessage [] [1] ∧
      s.finish headerPrimitives
        (finalMessage [1] ++ (ascii ",p=" ++ headerPrimitives.encode proof)) =
        .ok result := by
  have hbegins := begins_eq headerPrimitives commaUser.verifier [] [] (by decide : comma ∉ [1])
    (by decide) hheader
  obtain ⟨proof, result, hfinish⟩ := finish_of_key headerPrimitives
    ⟨commaUser.verifier, bareMessage [] [1], firstMessage headerPrimitives commaUser.verifier [1],
      [1], none⟩
    (cons_ne_nil _ _) (by decide) commaUser.length_key rfl
  exact ⟨_, _, proof, result, hbegins, rfl, hfinish⟩

theorem altered_header_accepted :
    ∃ serverFirst s proof result,
      (ScramServer.new commaUser.verifier).begins headerPrimitives (some [])
        (ascii "y,," ++ bareMessage [] [1]) = .ok (serverFirst, s) ∧
      s.finish headerPrimitives
        (finalMessage [1] ++ (ascii ",p=" ++ headerPrimitives.encode proof)) =
        .ok result ∧
      attr (finalMessage [1]) 'c'.toUInt8 ≠ .ok (headerPrimitives.encode (ascii "y,,")) := by
  obtain ⟨serverFirst, s, proof, result, hbegins, -, hfinish⟩ := biws_accepted (.inr rfl)
  exact ⟨serverFirst, s, proof, result, hbegins, hfinish, by decide⟩

theorem plain_header_bound :
    ∃ proof, BindsHeader headerPrimitives (ascii "n,," ++ bareMessage [] [1]) (bareMessage [] [1])
      (finalMessage [1] ++ (ascii ",p=" ++ headerPrimitives.encode proof)) := by
  obtain ⟨_, _, proof, ⟨_, _⟩, hbegins, hbare, hfinish⟩ := biws_accepted (.inl rfl)
  have hbound := header_bound headerPrimitives headerPrimitives_encodes hbegins
    (finalMessage [1] ++ (ascii ",p=" ++ headerPrimitives.encode proof))
  rw [hbare] at hbound
  refine ⟨proof, hbound.2 (fun _ _ _ _ hcut _ _ => ?_) _ _ hfinish⟩
  cases (cutProof_append headerPrimitives _ proof).symm.trans hcut
  decide +kernel

end Pontus.Credentials
