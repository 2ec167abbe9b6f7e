import Pontus.Protocol.ResultSet

/-!
# What is read of a message is what the client wrote

The counts and lengths of a well-formed message are below the sign bit, so each
reader stops where the next part begins.
-/

namespace Pontus.Protocol

open Lib
open ClientMessage (putU16)

theorem not_mem_of_not_contains {text : Bytes} (h : (!text.contains 0)) : 0 ∉ text := by
  simpa using h

theorem toNat_putU16 (hn : n < 2 ^ 16) :
    (UInt8.ofNat (n / 2 ^ 8)).toNat * 2 ^ 8 + (UInt8.ofNat n).toNat = n := by
  simp only [UInt8.toNat_ofNat']
  omega

theorem readInt16_putU16 (hn : n < 2 ^ 15) (rest : Bytes) :
    readInt16 (putU16 n ++ rest) = .ok ((n : Int), rest) := by
  have hword : ((UInt8.ofNat (n / 2 ^ 8)).toNat * 2 ^ 8 + (UInt8.ofNat n).toNat : Int) = n := by
    exact_mod_cast toNat_putU16 (by omega)
  have hsigned : (n : Int).bmod (2 ^ 16) = n := by apply Int.bmod_eq_of_le <;> omega
  simp only [putU16, cons_append, nil_append, readInt16, hword, hsigned]

theorem ok_bind (a : α) (f : α → Except ε β) : (Except.ok a >>= f) = f a := rfl

section
variable (formats : List UInt16)

theorem length_formats :
    (formats.flatMap fun format => putU16 format.toNat).length = formats.length * 2 := by
  induction formats with
  | nil => rfl
  | cons _ _ ih =>
    rw [flatMap_cons, length_append, ih, length_cons]
    simp only [putU16, length_cons, length_nil]
    omega

theorem takeFormats_append (rest : Bytes) :
    takeFormats formats.length ((formats.flatMap fun format => putU16 format.toNat) ++ rest) =
      formats := by
  induction formats with
  | nil => simp [takeFormats]
  | cons format _ ih =>
    have hformat : UInt16.ofNat ((UInt8.ofNat (format.toNat / 2 ^ 8)).toNat * 2 ^ 8 +
        (UInt8.ofNat format.toNat).toNat) = format := by
      rw [toNat_putU16 format.toNat_lt, UInt16.ofNat_toNat]
    simp only [length_cons, flatMap_cons, putU16, cons_append, nil_append,
      takeFormats, hformat, List.cons.injEq, true_and]
    exact ih

theorem carries_formats (rest what : Bytes) :
    carries ((formats.flatMap fun format => putU16 format.toNat) ++ rest) formats.length what =
      .ok () := by
  have hlen : ((((formats.flatMap fun format => putU16 format.toNat) ++ rest).length : Nat) : Int) =
      formats.length * 2 + rest.length := by
    rw [length_append, length_formats]
    push_cast
    ring
  rw [carries, hlen, if_neg (by omega), if_neg (by omega)]

theorem drop_formats (rest : Bytes) :
    ((formats.flatMap fun format => putU16 format.toNat) ++ rest).drop
      ((formats.length : Int) * 2).toNat = rest := by
  have hlen : ((formats.length : Int) * 2).toNat =
      (formats.flatMap fun format => putU16 format.toNat).length := by
    rw [length_formats]
    omega
  rw [hlen, drop_left]

end

theorem parameterSize_putU32 (hn : n < 2 ^ 32) :
    parameterSize (UInt8.ofNat (n / 2 ^ 24)) (UInt8.ofNat (n / 2 ^ 16)) (UInt8.ofNat (n / 2 ^ 8))
      (UInt8.ofNat n) = (n : Int).bmod (2 ^ 32) := by
  unfold parameterSize
  rw [beU32_putU32 hn]

theorem skipParameters_null (count : Nat) (rest : Bytes) :
    skipParameters (count + 1) (putParameter none ++ rest) = skipParameters count rest := by
  have hnull : ((2 ^ 32 - 1 : Nat) : Int).bmod (2 ^ 32) < 0 := by decide
  have hsize := parameterSize_putU32 (show 2 ^ 32 - 1 < 2 ^ 32 by decide)
  rw [putParameter, putU32, cons_append, cons_append, cons_append, cons_append,
    nil_append, skipParameters, hsize, if_pos hnull]

theorem skipParameters_value (hvalue : value.length < 2 ^ 31) (count : Nat) (rest : Bytes) :
    skipParameters (count + 1) (putParameter (some value) ++ rest) = skipParameters count rest := by
  have hsigned : (value.length : Int).bmod (2 ^ 32) = value.length := by
    apply Int.bmod_eq_of_le <;> omega
  have hsize := parameterSize_putU32 (show value.length < 2 ^ 32 by omega)
  have hcarried : ¬(((value ++ rest).length : Nat) : Int) < value.length := by
    rw [length_append]
    omega
  rw [putParameter, append_assoc, putU32, cons_append, cons_append,
    cons_append, cons_append, nil_append, skipParameters, hsize, hsigned,
    if_neg (by omega), if_neg hcarried, Int.toNat_natCast, drop_left]

theorem skipParameters_append {params : List (Option Bytes)}
    (hsizes : ∀ param ∈ params, (param.getD []).length < 2 ^ 31) (rest : Bytes) :
    skipParameters params.length (params.flatMap putParameter ++ rest) = .ok rest := by
  induction params with
  | nil => rfl
  | cons param _ ih =>
    rw [forall_mem_cons] at hsizes
    rw [length_cons, flatMap_cons, append_assoc]
    cases param with
    | none =>
      rw [skipParameters_null]
      exact ih hsizes.2
    | some value =>
      have hvalue : value.length < 2 ^ 31 := hsizes.1
      rw [skipParameters_value hvalue]
      exact ih hsizes.2

theorem decodeParse_body {name query : Bytes} {types : List UInt32}
    (h : (ExtendedMessage.parse name query types).wellFormed) :
    decodeParse (ExtendedMessage.parse name query types).body = .ok ⟨name, query⟩ := by
  simp only [ExtendedMessage.wellFormed, and_eq_true] at h
  simp only [decodeParse, ExtendedMessage.body, cutAt_append _ (not_mem_of_not_contains h.1.1),
    cutAt_append _ (not_mem_of_not_contains h.1.2)]

theorem decodeBindResultFormats_body {portal statement : Bytes} {paramFormats : List UInt16}
    {params : List (Option Bytes)} {resultFormats : List UInt16}
    (h : (ExtendedMessage.bind portal statement paramFormats params resultFormats).wellFormed) :
    decodeBindResultFormats
      (ExtendedMessage.bind portal statement paramFormats params resultFormats).body =
      .ok resultFormats := by
  simp only [ExtendedMessage.wellFormed, and_eq_true, decide_eq_true_eq, all_eq_true] at h
  obtain ⟨⟨⟨⟨⟨hportal, hstatement⟩, hparamFormats⟩, hcount⟩, hsizes⟩, hresultFormats⟩ := h
  have hresult := takeFormats_append resultFormats []
  rw [append_nil] at hresult
  have hcarries := carries_formats resultFormats [] (ascii " result")
  rw [append_nil] at hcarries
  rw [decodeBindResultFormats, ExtendedMessage.body,
    cutAt_append _ (not_mem_of_not_contains hportal), Option.elim_some, ok_bind]
  dsimp only
  rw [cutAt_append _ (not_mem_of_not_contains hstatement), Option.elim_some, ok_bind]
  rw [putFormats, append_assoc, readInt16_putU16 hparamFormats, ok_bind]
  rw [carries_formats, ok_bind, drop_formats, putParameters, append_assoc,
    readInt16_putU16 hcount, ok_bind]
  rw [Int.toNat_natCast, skipParameters_append hsizes, ok_bind, putFormats,
    readInt16_putU16 hresultFormats, ok_bind]
  rw [hcarries, ok_bind, Int.toNat_natCast, hresult]
  rfl

/-! ## Any body -/

def bindFormats (body : Bytes) : Option (Int × Bytes) := do
  let (_, rest) ← cutAt 0 body
  let (_, rest) ← cutAt 0 rest
  (readInt16 rest).toOption

def bindResultFormats (body : Bytes) : Option (Int × Bytes) := do
  let (count, rest) ← bindFormats body
  let (params, rest) ← (readInt16 (rest.drop (count * 2).toNat)).toOption
  let rest ← (skipParameters params.toNat rest).toOption
  (readInt16 rest).toOption

theorem bind_panics_iff {α β : Type} {x : Except ReadFault α} {f : α → Except ReadFault β}
    (hx : x ≠ .error .panics) :
    x >>= f = .error .panics ↔ ∃ a, x = .ok a ∧ f a = .error .panics := by
  cases x with
  | error e =>
    refine ⟨fun h => absurd ?_ hx, fun ⟨_, h, _⟩ => nomatch h⟩
    cases h
    rfl
  | ok a => exact ⟨fun h => ⟨a, rfl, h⟩, fun ⟨_, h, hf⟩ => by cases h; exact hf⟩

theorem readInt16_safe (body : Bytes) : readInt16 body ≠ .error .panics := by
  unfold readInt16
  split <;> simp

theorem skipParameters_safe (count : Nat) (rest : Bytes) :
    skipParameters count rest ≠ .error .panics := by
  fun_induction skipParameters <;> simp [*]

/-- The check passes a negative count, which is then sliced or allocated with. -/
theorem carries_bind_panics_iff {β : Type} {f : Unit → Except ReadFault β} :
    carries rest count what >>= f = .error .panics ↔
      count < 0 ∨ count * 2 ≤ rest.length ∧ f () = .error .panics := by
  unfold carries
  split
  · simp [bind, Except.bind]
    omega
  · split
    · simp [bind, Except.bind, *]
    · simp only [ok_bind]
      grind

theorem toOption_eq_some {x : Except ReadFault α} : x.toOption = some a ↔ x = .ok a := by
  cases x <;> simp [Except.toOption]

theorem ne_nil_of_readInt16 (h : readInt16 body = .ok c) : body ≠ [] := by
  rintro rfl
  cases h

theorem decodeBindResultFormats_panics_iff (body : Bytes) :
    decodeBindResultFormats body = .error .panics ↔
      (∃ c ∈ bindFormats body, c.1 < 0) ∨ ∃ c ∈ bindResultFormats body, c.1 < 0 := by
  unfold decodeBindResultFormats bindResultFormats bindFormats
  cases hportal : cutAt 0 body with
  | none => simp [bind, Except.bind]
  | some portal =>
    cases hstatement : cutAt 0 portal.2 with
    | none => simp [hstatement, bind, Except.bind]
    | some statement =>
      simp only [Option.elim_some, ok_bind, hstatement, Option.bind_eq_bind, bind_some,
        bind_panics_iff (readInt16_safe _), bind_panics_iff (skipParameters_safe _ _),
        carries_bind_panics_iff, Option.mem_def, Option.bind_eq_some_iff, toOption_eq_some]
      constructor
      · rintro ⟨c, hc, hnegative | ⟨-, params, hparams, rest, hrest, c', hc', hnegative⟩⟩
        · exact .inl ⟨c, hc, hnegative⟩
        · exact .inr ⟨c', ⟨c, hc, params, hparams, rest, hrest, hc'⟩, hnegative.resolve_right nofun⟩
      · rintro (⟨c, hc, hnegative⟩ | ⟨c', ⟨c, hc, params, hparams, rest, hrest, hc'⟩, hnegative⟩)
        · exact ⟨c, hc, .inl hnegative⟩
        · refine ⟨c, hc, (Int.lt_or_le c.1 0).imp_right fun hcount => ⟨?_, params, hparams, rest,
            hrest, c', hc', .inl hnegative⟩⟩
          -- what is read behind the codes lies inside the message
          have hinside := List.drop_eq_nil_iff.not.1 (ne_nil_of_readInt16 hparams)
          omega

/-- **A Bind message is decoded** exactly when neither of its two counts of
format codes is negative. -/
theorem bind_decoded_safely (body : Bytes) :
    (decodeBindResultFormats body ≠ .error .panics ↔
      (∀ c ∈ bindFormats body, 0 ≤ c.1) ∧ ∀ c ∈ bindResultFormats body, 0 ≤ c.1) ∧
    ∀ portal statement paramFormats params resultFormats,
      (ExtendedMessage.bind portal statement paramFormats params resultFormats).wellFormed →
      decodeBindResultFormats
        (ExtendedMessage.bind portal statement paramFormats params resultFormats).body =
          .ok resultFormats := by
  refine ⟨?_, fun _ _ _ _ _ => decodeBindResultFormats_body⟩
  rw [Ne, decodeBindResultFormats_panics_iff]
  push Not
  rfl

/-- Names, a NULL between two values, and formats of both kinds. -/
theorem bind_with_null_decoded :
    decodeBindResultFormats (ExtendedMessage.bind (ascii "p1") (ascii "s1") [0, 1, 1]
      [some (ascii "42"), none, some [0, 255]] [1, 0]).body = .ok [1, 0] :=
  (bind_decoded_safely []).2 _ _ _ _ _ (by decide)

theorem negative_count_panics : decodeBindResultFormats [0, 0, 0xFF, 0xFF] = .error .panics := by
  decide

end Pontus.Protocol
