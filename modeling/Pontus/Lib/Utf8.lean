import Pontus.Lib.Bytes

/-!
# Decoding and encoding UTF-8

Text taken from the network need not be valid UTF-8.  A byte that starts no
valid sequence decodes to the replacement character and stands for itself
alone, so that decoding never stops.  A text that is decoded and encoded again
is the same exactly when it was valid.
-/

namespace Pontus.Lib

variable {q rest : Bytes} {b₀ b b₁ : UInt8}

def runeError : Nat := 0xFFFD

def isContinuation (b : UInt8) : Bool := 0x80 ≤ b && b ≤ 0xBF

/-- The bytes that may follow the first byte of a sequence: no overlong form,
no surrogate, nothing above the last code point. -/
def acceptsSecond (b₀ b₁ : UInt8) : Bool :=
  if b₀ = 0xE0 then 0xA0 ≤ b₁ && b₁ ≤ 0xBF
  else if b₀ = 0xED then 0x80 ≤ b₁ && b₁ ≤ 0x9F
  else if b₀ = 0xF0 then 0x90 ≤ b₁ && b₁ ≤ 0xBF
  else if b₀ = 0xF4 then 0x80 ≤ b₁ && b₁ ≤ 0x8F
  else isContinuation b₁

/-- How many bytes the sequence opened by a byte takes, ASCII apart. -/
def sequenceLength (b₀ : UInt8) : Option Nat :=
  if 0xC2 ≤ b₀ && b₀ ≤ 0xDF then some 2
  else if 0xE0 ≤ b₀ && b₀ ≤ 0xEF then some 3
  else if 0xF0 ≤ b₀ && b₀ ≤ 0xF4 then some 4
  else none

/-- The first code point of a text and the number of bytes it takes. -/
def decodeRune (q : Bytes) : Nat × Nat :=
  match q with
  | [] => (runeError, 0)
  | b₀ :: rest =>
    if b₀ < 0x80 then (b₀.toNat, 1)
    else
      match sequenceLength b₀, rest with
      | some 2, b₁ :: _ =>
        if acceptsSecond b₀ b₁ then ((b₀.toNat - 0xC0) * 64 + (b₁.toNat - 0x80), 2)
        else (runeError, 1)
      | some 3, b₁ :: b₂ :: _ =>
        if acceptsSecond b₀ b₁ && isContinuation b₂ then
          ((b₀.toNat - 0xE0) * 4096 + (b₁.toNat - 0x80) * 64 + (b₂.toNat - 0x80), 3)
        else (runeError, 1)
      | some 4, b₁ :: b₂ :: b₃ :: _ =>
        if acceptsSecond b₀ b₁ && isContinuation b₂ && isContinuation b₃ then
          ((b₀.toNat - 0xF0) * 262144 + (b₁.toNat - 0x80) * 4096 +
            (b₂.toNat - 0x80) * 64 + (b₃.toNat - 0x80), 4)
        else (runeError, 1)
      | _, _ => (runeError, 1)

/-- Decode a text, passing over the first `skip` bytes, which belong to a code
point already taken. -/
def decodeFrom : Nat → Bytes → List Nat
  | _, [] => []
  | skip + 1, _ :: rest => decodeFrom skip rest
  | 0, b :: rest =>
    let (r, size) := decodeRune (b :: rest)
    r :: decodeFrom (size - 1) rest

def decodeRunes (q : Bytes) : List Nat := decodeFrom 0 q

def encodeRune (r : Nat) : Bytes :=
  if r < 0x80 then [UInt8.ofNat r]
  else if r < 0x800 then [UInt8.ofNat (0xC0 + r / 64), UInt8.ofNat (0x80 + r % 64)]
  else if 0x10FFFF < r ∨ (0xD800 ≤ r ∧ r ≤ 0xDFFF) then [0xEF, 0xBF, 0xBD]
  else if r < 0x10000 then
    [UInt8.ofNat (0xE0 + r / 4096), UInt8.ofNat (0x80 + r / 64 % 64), UInt8.ofNat (0x80 + r % 64)]
  else
    [UInt8.ofNat (0xF0 + r / 262144), UInt8.ofNat (0x80 + r / 4096 % 64),
      UInt8.ofNat (0x80 + r / 64 % 64), UInt8.ofNat (0x80 + r % 64)]

def encodeRunes (runes : List Nat) : Bytes := runes.flatMap encodeRune

theorem decodeRunes_ne_nil (h : q ≠ []) : decodeRunes q ≠ [] := by
  cases q with
  | nil => exact absurd rfl h
  | cons => simp [decodeRunes, decodeFrom]

theorem encodeRune_ne_nil (r : Nat) : encodeRune r ≠ [] := by
  unfold encodeRune
  repeat' split
  all_goals simp

theorem encodeRunes_ne_nil (h : runes ≠ []) : encodeRunes runes ≠ [] := by
  cases runes with
  | nil => exact absurd rfl h
  | cons r =>
    intro happend
    exact encodeRune_ne_nil r (append_eq_nil_iff.1 happend).1

/-! ## Valid texts -/

/-- Whether every byte of a text belongs to a valid sequence, passing over the
first `skip` bytes. -/
def validFrom : Nat → Bytes → Bool
  | _, [] => true
  | skip + 1, _ :: rest => validFrom skip rest
  | 0, b :: rest =>
    let (r, size) := decodeRune (b :: rest)
    decide (¬(r = runeError ∧ size = 1)) && validFrom (size - 1) rest

def validUtf8 (q : Bytes) : Bool := validFrom 0 q

/-- The text with the replacement character in the place of each byte that
belongs to no valid sequence. -/
def replaceInvalid (q : Bytes) : Bytes := encodeRunes (decodeRunes q)

theorem toNat_of_sequenceLength (h : sequenceLength b₀ = some n) :
    (n = 2 ∧ 0xC2 ≤ b₀.toNat ∧ b₀.toNat ≤ 0xDF) ∨ (n = 3 ∧ 0xE0 ≤ b₀.toNat ∧ b₀.toNat ≤ 0xEF) ∨
      (n = 4 ∧ 0xF0 ≤ b₀.toNat ∧ b₀.toNat ≤ 0xF4) := by
  simp only [sequenceLength, and_eq_true, decide_eq_true_eq, UInt8.le_iff_toNat_le] at h
  split_ifs at h with h₂ h₃ h₄
  · exact .inl ⟨(Option.some.inj h).symm, h₂⟩
  · exact .inr (.inl ⟨(Option.some.inj h).symm, h₃⟩)
  · exact .inr (.inr ⟨(Option.some.inj h).symm, h₄⟩)

theorem toNat_of_isContinuation (h : isContinuation b) :
    0x80 ≤ b.toNat ∧ b.toNat ≤ 0xBF := by
  simpa [isContinuation, UInt8.le_iff_toNat_le] using h

theorem toNat_of_acceptsSecond (h : acceptsSecond b₀ b₁) :
    0x80 ≤ b₁.toNat ∧ b₁.toNat ≤ 0xBF ∧ (b₀.toNat = 0xE0 → 0xA0 ≤ b₁.toNat) ∧
      (b₀.toNat = 0xED → b₁.toNat ≤ 0x9F) ∧ (b₀.toNat = 0xF0 → 0x90 ≤ b₁.toNat) ∧
      (b₀.toNat = 0xF4 → b₁.toNat ≤ 0x8F) := by
  simp only [acceptsSecond, isContinuation, ← UInt8.toNat_inj] at h
  split_ifs at h with hE0 hED hF0 hF4
  all_goals
    simp only [and_eq_true, decide_eq_true_eq, UInt8.le_iff_toNat_le, UInt8.reduceToNat] at *
    omega

theorem encodeRune_two (hlen : sequenceLength b₀ = some 2) (hsecond : acceptsSecond b₀ b₁) :
    encodeRune ((b₀.toNat - 0xC0) * 64 + (b₁.toNat - 0x80)) = [b₀, b₁] := by
  have h₀ : 0xC2 ≤ b₀.toNat ∧ b₀.toNat ≤ 0xDF := by simpa using toNat_of_sequenceLength hlen
  have h₁ := toNat_of_acceptsSecond hsecond
  rw [encodeRune, if_neg (by omega), if_pos (by omega)]
  simp only [List.cons.injEq, ← UInt8.toNat_inj, UInt8.toNat_ofNat', and_true]
  omega

theorem encodeRune_three (hlen : sequenceLength b₀ = some 3)
    (hsecond : acceptsSecond b₀ b₁) (hthird : isContinuation b₂) :
    encodeRune ((b₀.toNat - 0xE0) * 4096 + (b₁.toNat - 0x80) * 64 + (b₂.toNat - 0x80)) =
      [b₀, b₁, b₂] := by
  have h₀ : 0xE0 ≤ b₀.toNat ∧ b₀.toNat ≤ 0xEF := by simpa using toNat_of_sequenceLength hlen
  have h₁ := toNat_of_acceptsSecond hsecond
  have h₂ := toNat_of_isContinuation hthird
  rw [encodeRune, if_neg (by omega), if_neg (by omega), if_neg (by omega), if_pos (by omega)]
  simp only [List.cons.injEq, ← UInt8.toNat_inj, UInt8.toNat_ofNat', and_true]
  omega

theorem encodeRune_four (hlen : sequenceLength b₀ = some 4) (hsecond : acceptsSecond b₀ b₁)
    (hthird : isContinuation b₂) (hfourth : isContinuation b₃) :
    encodeRune ((b₀.toNat - 0xF0) * 262144 + (b₁.toNat - 0x80) * 4096 + (b₂.toNat - 0x80) * 64 +
      (b₃.toNat - 0x80)) = [b₀, b₁, b₂, b₃] := by
  have h₀ : 0xF0 ≤ b₀.toNat ∧ b₀.toNat ≤ 0xF4 := by simpa using toNat_of_sequenceLength hlen
  have h₁ := toNat_of_acceptsSecond hsecond
  have h₂ := toNat_of_isContinuation hthird
  have h₃ := toNat_of_isContinuation hfourth
  rw [encodeRune, if_neg (by omega), if_neg (by omega), if_neg (by omega), if_neg (by omega)]
  simp only [List.cons.injEq, ← UInt8.toNat_inj, UInt8.toNat_ofNat', and_true]
  omega

theorem decodeRune_spec (b : UInt8) (rest : Bytes) :
    decodeRune (b :: rest) = (runeError, 1) ∨
      ∃ r size, decodeRune (b :: rest) = (r, size + 1) ∧ ¬(r = runeError ∧ size + 1 = 1) ∧
        encodeRune r ++ rest.drop size = b :: rest := by
  unfold decodeRune
  dsimp only
  split_ifs with hascii
  · refine .inr ⟨b.toNat, 0, rfl, ?_, ?_⟩
    · rw [UInt8.lt_iff_toNat_lt] at hascii
      simp only [UInt8.reduceToNat] at hascii
      simp only [runeError]
      omega
    · rw [encodeRune, if_pos (by simpa [UInt8.lt_iff_toNat_lt] using hascii)]
      simp
  · split
    next b₁ rest hlen =>
      split_ifs with hsecond
      · exact .inr ⟨_, 1, rfl, by simp, by rw [encodeRune_two hlen hsecond]; rfl⟩
      · exact .inl rfl
    next b₁ b₂ rest hlen =>
      split_ifs with haccepted
      · obtain ⟨hsecond, hthird⟩ := and_eq_true_iff.1 haccepted
        exact .inr ⟨_, 2, rfl, by simp, by rw [encodeRune_three hlen hsecond hthird]; rfl⟩
      · exact .inl rfl
    next b₁ b₂ b₃ rest hlen =>
      split_ifs with haccepted
      · obtain ⟨hfront, hfourth⟩ := and_eq_true_iff.1 haccepted
        obtain ⟨hsecond, hthird⟩ := and_eq_true_iff.1 hfront
        exact .inr ⟨_, 3, rfl, by simp, by rw [encodeRune_four hlen hsecond hthird hfourth]; rfl⟩
      · exact .inl rfl
    next => exact .inl rfl

theorem decodeFrom_eq_drop (skip : Nat) (q : Bytes) :
    decodeFrom skip q = decodeRunes (q.drop skip) := by
  induction skip generalizing q with
  | zero => rfl
  | succ _ ih =>
    cases q with
    | nil => rfl
    | cons _ rest => exact ih rest

theorem validFrom_eq_drop (skip : Nat) (q : Bytes) :
    validFrom skip q = validUtf8 (q.drop skip) := by
  induction skip generalizing q with
  | zero => rfl
  | succ _ ih =>
    cases q with
    | nil => rfl
    | cons _ rest => exact ih rest

theorem replaceInvalid_cons (h : decodeRune (b :: rest) = (r, size + 1)) :
    replaceInvalid (b :: rest) = encodeRune r ++ replaceInvalid (rest.drop size) := by
  rw [replaceInvalid, decodeRunes, decodeFrom]
  simp only [h]
  rw [Nat.add_sub_cancel, decodeFrom_eq_drop]
  rfl

theorem validUtf8_cons (h : decodeRune (b :: rest) = (r, size + 1)) :
    validUtf8 (b :: rest) =
      (decide (¬(r = runeError ∧ size + 1 = 1)) && validUtf8 (rest.drop size)) := by
  rw [validUtf8, validFrom]
  simp only [h]
  rw [Nat.add_sub_cancel, validFrom_eq_drop]

theorem replaceInvalid_spec (q : Bytes) :
    (validUtf8 q ∧ replaceInvalid q = q) ∨
      (validUtf8 q = false ∧ q.length < (replaceInvalid q).length) := by
  induction hn : q.length using Nat.strong_induction_on generalizing q with
  | _ n ih =>
    cases q with
    | nil => exact .inl ⟨rfl, rfl⟩
    | cons b rest =>
      rw [← hn]
      rcases decodeRune_spec b rest with herror | ⟨_, size, hrune, hvalid, hbytes⟩
      · have hlonger := ih rest.length (by simp [← hn]) rest rfl
        have hinvalid : validUtf8 (b :: rest) = false := by
          rw [validUtf8_cons herror]
          rfl
        have hlen : (replaceInvalid (b :: rest)).length = 3 + (replaceInvalid rest).length := by
          rw [replaceInvalid_cons herror, length_append]
          rfl
        refine .inr ⟨hinvalid, ?_⟩
        rw [hlen, length_cons]
        rcases hlonger with ⟨-, hsame⟩ | ⟨-, hlonger⟩
        · rw [hsame]
          omega
        · omega
      · have hshort : (rest.drop size).length < n := by
          simp only [length_drop, ← hn, length_cons]
          omega
        rw [validUtf8_cons hrune, replaceInvalid_cons hrune, decide_eq_true hvalid, Bool.true_and]
        rcases ih _ hshort _ rfl with ⟨hok, hsame⟩ | ⟨hbad, _⟩
        · rw [hsame]
          exact .inl ⟨hok, hbytes⟩
        · refine .inr ⟨hbad, ?_⟩
          rw [← hbytes, length_append, length_append]
          omega

theorem replaceInvalid_eq_self_iff : replaceInvalid q = q ↔ validUtf8 q := by
  rcases replaceInvalid_spec q with ⟨hvalid, hsame⟩ | ⟨hinvalid, hlonger⟩
  · exact iff_of_true hsame hvalid
  · refine iff_of_false ?_ (by simp [hinvalid])
    intro hsame
    rw [hsame] at hlonger
    exact hlonger.false

/-! ## Code points with their bytes -/

/-- The code points of a text, each with the bytes it stands for; the first
`skip` bytes belong to one already taken. -/
def codePointsFrom : Nat → Bytes → List (Nat × Bytes)
  | _, [] => []
  | skip + 1, _ :: rest => codePointsFrom skip rest
  | 0, b :: rest =>
    let rune := decodeRune (b :: rest)
    (rune.1, (b :: rest).take rune.2) :: codePointsFrom (rune.2 - 1) rest

def codePoints (q : Bytes) : List (Nat × Bytes) := codePointsFrom 0 q

@[simp] theorem codePoints_nil : codePoints [] = [] := rfl

theorem codePointsFrom_eq_drop (skip : Nat) (q : Bytes) :
    codePointsFrom skip q = codePoints (q.drop skip) := by
  induction skip generalizing q with
  | zero => rfl
  | succ _ ih =>
    cases q with
    | nil => rfl
    | cons _ rest => exact ih rest

theorem decodeRune_size (b : UInt8) (rest : Bytes) :
    ∃ size, (decodeRune (b :: rest)).2 = size + 1 ∧ size ≤ rest.length := by
  unfold decodeRune
  dsimp only
  split_ifs with hascii
  · exact ⟨0, rfl, Nat.zero_le _⟩
  · split
    next =>
      split
      · exact ⟨1, rfl, by simp⟩
      · exact ⟨0, rfl, Nat.zero_le _⟩
    next =>
      split
      · exact ⟨2, rfl, by simp⟩
      · exact ⟨0, rfl, Nat.zero_le _⟩
    next =>
      split
      · exact ⟨3, rfl, by simp⟩
      · exact ⟨0, rfl, Nat.zero_le _⟩
    next => exact ⟨0, rfl, Nat.zero_le _⟩

theorem drop_decodeRune_suffix (b : UInt8) (rest : Bytes) :
    (b :: rest).drop (decodeRune (b :: rest)).2 <:+ rest := by
  obtain ⟨size, hsize, -⟩ := decodeRune_size b rest
  rw [hsize]
  exact List.drop_suffix size rest

theorem decodeRune_ascii (hb : b < 0x80) (rest : Bytes) :
    decodeRune (b :: rest) = (b.toNat, 1) := by
  exact if_pos hb

theorem eq_of_decodeRune_lt (h : (decodeRune (b :: rest)).1 < 0x80) :
    b.toNat = (decodeRune (b :: rest)).1 ∧ (decodeRune (b :: rest)).2 = 1 := by
  rcases decodeRune_spec b rest with herror | ⟨r, _, hrune, -, hbytes⟩
  · rw [herror] at h
    exact absurd h (by decide)
  · rw [hrune] at h ⊢
    rw [encodeRune, if_pos h, singleton_append, List.cons.injEq] at hbytes
    have hr : b.toNat = r := by
      rw [← hbytes.1, UInt8.toNat_ofNat']
      omega
    have hb : b < 0x80 := by
      rw [UInt8.lt_iff_toNat_lt, hr]
      exact h
    rw [decodeRune_ascii hb] at hrune
    exact ⟨hr, congrArg Prod.snd hrune.symm⟩

theorem codePoints_cons (b : UInt8) (rest : Bytes) :
    codePoints (b :: rest) =
      ((decodeRune (b :: rest)).1, (b :: rest).take (decodeRune (b :: rest)).2) ::
        codePoints ((b :: rest).drop (decodeRune (b :: rest)).2) := by
  obtain ⟨_, hsize, -⟩ := decodeRune_size b rest
  rw [codePoints, codePointsFrom, codePointsFrom_eq_drop, hsize, Nat.add_sub_cancel, drop_succ_cons]

theorem codePoints_ascii (hb : b < 0x80) (rest : Bytes) :
    codePoints (b :: rest) = (b.toNat, [b]) :: codePoints rest := by
  rw [codePoints_cons, decodeRune_ascii hb]
  rfl

theorem decodeRune_append_ascii (hc : c < 0x80) (b : UInt8) (front rest : Bytes) :
    decodeRune (b :: front ++ c :: rest) = decodeRune (b :: front) := by
  have hcontinues : isContinuation c = false := by
    simp [isContinuation, UInt8.le_iff_toNat_le, UInt8.lt_iff_toNat_lt] at hc ⊢
    omega
  have haccepts (b : UInt8) : acceptsSecond b c = false := by
    rw [eq_false_iff]
    intro haccepts
    have hsecond := (toNat_of_acceptsSecond haccepts).1
    rw [UInt8.lt_iff_toNat_lt] at hc
    exact absurd hsecond (by simpa using hc)
  rw [cons_append]
  by_cases hb : b < 0x80
  · rw [decodeRune_ascii hb, decodeRune_ascii hb]
  · unfold decodeRune
    dsimp only
    cases hlen : sequenceLength b with
    | none => rfl
    | some =>
      -- the byte would have to be the second, third or fourth of the sequence
      rcases toNat_of_sequenceLength hlen with ⟨rfl, -⟩ | ⟨rfl, -⟩ | ⟨rfl, -⟩
      · rcases front with _ | ⟨b₁, front⟩
        · simp [haccepts]
        · rfl
      · rcases front with _ | ⟨b₁, _ | ⟨b₂, front⟩⟩
        · rcases rest with _ | ⟨c₁, rest⟩
          · rfl
          · simp [haccepts]
        · simp [hcontinues]
        · rfl
      · rcases front with _ | ⟨_, _ | ⟨_, _ | ⟨_, _⟩⟩⟩
        · rcases rest with _ | ⟨c₁, _ | ⟨_, rest⟩⟩
          · rfl
          · rfl
          · simp [haccepts]
        · rcases rest with _ | ⟨_, _⟩
          · rfl
          · simp [hcontinues]
        · simp [hcontinues]
        · rfl

theorem codePoints_append_ascii (hc : c < 0x80) (front rest : Bytes) :
    codePoints (front ++ c :: rest) = codePoints front ++ (c.toNat, [c]) :: codePoints rest := by
  induction hn : front.length using Nat.strong_induction_on generalizing front with
  | _ n ih =>
    cases front with
    | nil => exact codePoints_ascii hc rest
    | cons b front =>
      obtain ⟨size, hsize, hle⟩ := decodeRune_size b front
      have hdrop : (b :: front ++ c :: rest).drop (size + 1) =
          front.drop size ++ c :: rest := by
        rw [cons_append, drop_succ_cons, List.drop_append_of_le_length hle]
      have htake : (b :: front ++ c :: rest).take (size + 1) = (b :: front).take (size + 1) :=
        List.take_append_of_le_length (by rw [length_cons]; omega)
      have hshorter : (front.drop size).length < n := by
        rw [length_drop, ← hn, length_cons]
        omega
      have hfirst := codePoints_cons b (front ++ c :: rest)
      rw [← cons_append, decodeRune_append_ascii hc, hsize, hdrop, htake,
        ih _ hshorter (front.drop size) rfl] at hfirst
      rw [hfirst, codePoints_cons, hsize, drop_succ_cons, cons_append]

theorem mem_of_mem_codePoints (h : c ∈ codePoints q) (hc : c.1 < 0x80) : UInt8.ofNat c.1 ∈ q := by
  induction hn : q.length using Nat.strong_induction_on generalizing q with
  | _ n ih =>
    cases q with
    | nil => cases h
    | cons b rest =>
      obtain ⟨size, hsize, -⟩ := decodeRune_size b rest
      rw [codePoints_cons, mem_cons] at h
      rcases h with rfl | h
      · obtain ⟨hb, -⟩ := eq_of_decodeRune_lt hc
        rw [← hb, UInt8.ofNat_toNat]
        exact mem_cons_self
      · rw [hsize, drop_succ_cons] at h
        have hshorter : (rest.drop size).length < n := by
          rw [length_drop, ← hn, length_cons]
          omega
        exact mem_cons_of_mem b (List.mem_of_mem_drop (ih _ hshorter h rfl))

end Pontus.Lib
