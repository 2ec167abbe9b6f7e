import Pontus.Protocol.PlainWords

/-!
# The tokenizer reads the plain words

The words among the tokens of a text are its plain words in order, and the
classifier looks at nothing else.  So what it says of a text is told by the
plain words.
-/

namespace Pontus.Protocol

open Lib

section
variable (u : Alphabet) {r : Nat}

theorem Alphabet.apart (h : isLetterRune u.toUnicodeTables r) :
    isDigitRune u.toUnicodeTables r = false ∧ isSpaceRune u.toUnicodeTables r = false := by
  unfold isLetterRune at h
  unfold isDigitRune isSpaceRune
  by_cases hascii : r < 0x80
  · rw [if_pos hascii] at h ⊢
    rw [if_pos hascii]
    simp only [or_eq_true, and_eq_true, decide_eq_true_eq, Char.reduceToNat] at h
    simp only [Char.reduceToNat, Bool.and_eq_false_iff, or_eq_false_iff, beq_eq_false_iff_ne,
      decide_eq_false_iff_not]
    omega
  · rw [if_neg hascii] at h ⊢
    rw [if_neg hascii]
    exact ⟨u.letter_not_digit r h, u.letter_not_space r h⟩

def isWordStart (r : Nat) : Bool := isLetterRune u.toUnicodeTables r || r == '_'.toNat

theorem isWordPart_of_start (h : isWordStart u r) :
    isWordPart u.toUnicodeTables r := by
  rw [isWordStart, or_eq_true] at h
  simp only [isWordPart, or_eq_true]
  rcases h with h | h
  · exact .inl (.inl (.inl h))
  · exact .inl (.inr h)

theorem not_isNumberPart_of_start (h : isWordStart u r) :
    isNumberPart u.toUnicodeTables r = false := by
  rw [isWordStart, or_eq_true] at h
  rw [isNumberPart, or_eq_false_iff, beq_eq_false_iff_ne]
  rcases h with h | h
  · refine ⟨(u.apart h).1, ?_⟩
    rintro rfl
    cases h
  · rw [beq_iff_eq] at h
    subst h
    exact ⟨rfl, by decide⟩

theorem skipped_of_not_start (h : isWordStart u r = false) :
    isWordPart u.toUnicodeTables r = false ∨ isNumberPart u.toUnicodeTables r := by
  rw [isWordStart, or_eq_false_iff] at h
  unfold isWordPart isNumberPart
  rw [h.1, h.2, Bool.false_or, Bool.or_false]
  cases isDigitRune u.toUnicodeTables r || r == '.'.toNat with
  | false => exact .inl rfl
  | true => exact .inr rfl

theorem skipped_of_isSpace (h : isSpaceRune u.toUnicodeTables r) :
    isWordPart u.toUnicodeTables r = false ∨ isNumberPart u.toUnicodeTables r := by
  apply skipped_of_not_start
  rw [isWordStart, or_eq_false_iff, beq_eq_false_iff_ne]
  constructor
  · rw [eq_false_iff]
    intro hletter
    rw [(u.apart hletter).2] at h
    cases h
  · rintro rfl
    cases h

theorem isApostrophe_of_isWordPart (h : isWordPart u.toUnicodeTables c.1) :
    isApostrophe c = false := by
  rw [isApostrophe, beq_eq_false_iff_ne]
  intro hc
  rw [hc] at h
  cases h

end

structure Spans (p : Nat → Bool) (q : Bytes) (taken rest : Bytes) (points : List (Nat × Bytes)) :
    Prop where
  split : codePoints q = points ++ codePoints rest
  bytes : taken = points.flatMap Prod.snd
  all : ∀ c ∈ points, p c.1 = true
  stop : ∀ c, (codePoints rest).head? = some c → p c.1 = false
  length : rest.length ≤ q.length

theorem Spans.nothing (hstop : ∀ c, (codePoints q).head? = some c → p c.1 = false) :
    Spans p q [] q [] where
  split := rfl
  bytes := rfl
  all := nofun
  stop := hstop
  length := le_rfl

theorem spans_spanRunes (p : Nat → Bool) (hfuel : q.length ≤ fuel) :
    ∃ points, Spans p q (spanRunes p fuel q).1 (spanRunes p fuel q).2 points := by
  induction fuel generalizing q with
  | zero =>
    obtain rfl := List.length_eq_zero_iff.1 (Nat.le_zero.1 hfuel)
    exact ⟨[], .nothing nofun⟩
  | succ fuel ih =>
    cases q with
    | nil => exact ⟨[], .nothing nofun⟩
    | cons b tail =>
      rw [length_cons, Nat.add_le_add_iff_right] at hfuel
      have hdrop := (drop_decodeRune_suffix b tail).length_le.trans hfuel
      cases hp : p (decodeRune (b :: tail)).1 with
      | false =>
        have hspan : spanRunes p (fuel + 1) (b :: tail) = ([], b :: tail) := by simp [spanRunes, hp]
        rw [hspan]
        refine ⟨[], .nothing ?_⟩
        intro c hc
        rw [codePoints_cons, List.head?_cons, some_inj] at hc
        rw [← hc]
        exact hp
      | true =>
        obtain ⟨points, hpoints⟩ := ih hdrop
        have hspan : spanRunes p (fuel + 1) (b :: tail) =
            ((b :: tail).take (decodeRune (b :: tail)).2 ++
              (spanRunes p fuel ((b :: tail).drop (decodeRune (b :: tail)).2)).1,
            (spanRunes p fuel ((b :: tail).drop (decodeRune (b :: tail)).2)).2) := by
          simp [spanRunes, hp]
        rw [hspan]
        refine ⟨((decodeRune (b :: tail)).1, (b :: tail).take (decodeRune (b :: tail)).2) ::
          points, ?_, ?_, ?_, hpoints.stop, ?_⟩
        · rw [codePoints_cons, hpoints.split, cons_append]
        · rw [flatMap_cons, ← hpoints.bytes]
        · intro c hc
          rcases mem_cons.1 hc with rfl | hc
          · exact hp
          · exact hpoints.all c hc
        · refine hpoints.length.trans ?_
          rw [length_drop]
          exact Nat.sub_le _ _

section
variable {isPart isLead : Nat × Bytes → Bool}

theorem not_isApostrophe_of_notMem (h : '\''.toUInt8 ∉ text) :
    ∀ c ∈ codePoints text, isApostrophe c = false := by
  intro c hc
  rw [isApostrophe, beq_eq_false_iff_ne]
  intro hquote
  have hmem := mem_of_mem_codePoints hc (by rw [hquote]; decide)
  rw [hquote] at hmem
  exact h hmem

theorem skipQuoted_append (h : '\''.toUInt8 ∉ value) (rest : Bytes) :
    skipQuoted '\''.toUInt8 (value ++ '\''.toUInt8 :: rest) =
      if rest.head? = some '\''.toUInt8 then skipQuoted '\''.toUInt8 rest.tail else rest := by
  induction value with
  | nil =>
    cases rest with
    | nil => rfl
    | cons => simp [skipQuoted]
  | cons a value ih =>
    rw [mem_cons, not_or] at h
    have hne : a ≠ '\''.toUInt8 := Ne.symm h.1
    rw [← ih h.2]
    cases value with
    | nil | cons b value => simp [skipQuoted, hne]

theorem skipQuoted_of_notMem (h : '\''.toUInt8 ∉ text) : skipQuoted '\''.toUInt8 text = [] := by
  induction text with
  | nil => rfl
  | cons a text ih =>
    rw [mem_cons, not_or] at h
    have hne : a ≠ '\''.toUInt8 := Ne.symm h.1
    cases text with
    | nil => rfl
    | cons =>
      rw [skipQuoted, if_pos hne]
      exact ih h.2

theorem wordsOutside_skipQuoted (text : Bytes) :
    wordsOutside isApostrophe isPart isLead (('\''.toNat, ['\''.toUInt8]) :: codePoints text) =
      wordsOutside isApostrophe isPart isLead (codePoints (skipQuoted '\''.toUInt8 text)) := by
  induction hn : text.length using Nat.strong_induction_on generalizing text with
  | _ _ ih =>
    cases hcut : cutAt '\''.toUInt8 text with
    | none =>
      have hmem := cutAt_eq_none hcut
      rw [skipQuoted_of_notMem hmem, codePoints_nil, wordsOutside_nil]
      exact wordsOutside_unclosed rfl (not_isApostrophe_of_notMem hmem)
    | some cut =>
      obtain ⟨value, rest⟩ := cut
      obtain ⟨rfl, hmem⟩ := cutAt_eq_some hcut
      rw [length_append, length_cons] at hn
      rw [skipQuoted_append hmem, codePoints_append_ascii (by decide),
        wordsOutside_quoted rfl (not_isApostrophe_of_notMem hmem) rfl]
      split
      · -- a doubled apostrophe opens the literal again
        rename_i hdoubled
        obtain ⟨tail, rfl⟩ : ∃ tail, rest = '\''.toUInt8 :: tail := by
          cases rest with
          | nil => cases hdoubled
          | cons _ tail =>
            rw [List.head?_cons, some_inj] at hdoubled
            exact ⟨tail, by rw [hdoubled]⟩
        rw [length_cons] at hn
        exact ih tail.length (by omega) tail rfl
      · rfl

theorem length_skipQuoted [DecidableEq α] (quote : α) (text : List α) :
    (skipQuoted quote text).length ≤ text.length := by
  fun_induction skipQuoted quote text with
  | case1 => exact le_rfl
  | case2 => exact Nat.zero_le _
  | case3 _ _ _ _ ih => exact ih.trans (Nat.le_succ _)
  | case4 =>
    rw [length_cons, length_cons]
    omega
  | case5 => exact Nat.le_succ _

theorem readQuoted_rest (text : Bytes) : (readQuoted text).2 = skipQuoted '\''.toUInt8 text := by
  unfold readQuoted
  cases hcut : cutAt '\''.toUInt8 text with
  | none => exact (skipQuoted_of_notMem (cutAt_eq_none hcut)).symm
  | some cut =>
    obtain ⟨value, rest⟩ := cut
    obtain ⟨rfl, hmem⟩ := cutAt_eq_some hcut
    dsimp only
    split
    · rfl
    · rename_i hhead
      rw [skipQuoted_append hmem, if_neg hhead]

end

def Token.isWord (t : Token) : Bool := t.type == .tokenKeyword || t.type == .tokenIdentifier

theorem isWord_wordToken (word : Bytes) : (wordToken word).isWord := by
  unfold wordToken
  cases keywordOf word <;> rfl

theorem plainRuns_skip (hquote : isApostrophe c = false)
    (h : isWordPart u c.1 = false ∨ isNumberPart u c.1) (rest : List (Nat × Bytes)) :
    plainRuns u (c :: rest) = plainRuns u rest :=
  wordsOutside_cons_skip hquote h rest

theorem plainRuns_number (hpoints : ∀ c ∈ points, isNumberPart u c.1)
    (hquote : ∀ c ∈ points, isApostrophe c = false) (rest : List (Nat × Bytes)) :
    plainRuns u (points ++ rest) = plainRuns u rest := by
  induction points with
  | nil => rfl
  | cons _ _ ih =>
    rw [forall_mem_cons] at hpoints hquote
    rw [cons_append, plainRuns_skip hquote.1 (.inr hpoints.1), ih hpoints.2 hquote.2]

theorem plainWords_eq_of_plainRuns (h : plainRuns u (codePoints q) = plainRuns u (codePoints q')) :
    plainWords u q = plainWords u q' := by
  rw [plainWords, plainWords, h]

section
variable (u : Alphabet) (b : UInt8) (tail : Bytes)

theorem plainWords_skip (hquote : (decodeRune (b :: tail)).1 ≠ '\''.toNat)
    (hskip : isWordPart u.toUnicodeTables (decodeRune (b :: tail)).1 = false ∨
      isNumberPart u.toUnicodeTables (decodeRune (b :: tail)).1) :
    plainWords u.toUnicodeTables (b :: tail) =
      plainWords u.toUnicodeTables ((b :: tail).drop (decodeRune (b :: tail)).2) := by
  apply plainWords_eq_of_plainRuns
  rw [codePoints_cons]
  exact plainRuns_skip (beq_eq_false_iff_ne.2 hquote) hskip _

theorem plainWords_word (hstart : isWordStart u (decodeRune (b :: tail)).1)
    (hspan : Spans (isWordPart u.toUnicodeTables)
      ((b :: tail).drop (decodeRune (b :: tail)).2) word rest points) :
    plainWords u.toUnicodeTables (b :: tail) =
      ((b :: tail).take (decodeRune (b :: tail)).2 ++ word) ::
        plainWords u.toUnicodeTables rest := by
  have hall : ∀ c ∈ ((decodeRune (b :: tail)).1, (b :: tail).take (decodeRune (b :: tail)).2) ::
      points, isApostrophe c = false ∧ isWordPart u.toUnicodeTables c.1 = true := by
    intro c hc
    have hpart : isWordPart u.toUnicodeTables c.1 := by
      rcases mem_cons.1 hc with rfl | hc
      · exact isWordPart_of_start u hstart
      · exact hspan.all c hc
    exact ⟨isApostrophe_of_isWordPart u hpart, hpart⟩
  have hruns : plainRuns u.toUnicodeTables (codePoints (b :: tail)) =
      (((decodeRune (b :: tail)).1, (b :: tail).take (decodeRune (b :: tail)).2) :: points) ::
        plainRuns u.toUnicodeTables (codePoints rest) := by
    rw [codePoints_cons, hspan.split, ← cons_append]
    exact wordsOutside_append (not_isNumberPart_of_start u hstart) hall hspan.stop
  rw [plainWords, hruns, map_cons, flatMap_cons, ← hspan.bytes]
  rfl

theorem plainWords_number (hdigit : isDigitRune u.toUnicodeTables (decodeRune (b :: tail)).1)
    (hspan : Spans (isNumberPart u.toUnicodeTables)
      ((b :: tail).drop (decodeRune (b :: tail)).2) number rest points) :
    plainWords u.toUnicodeTables (b :: tail) = plainWords u.toUnicodeTables rest := by
  have hnumber {r : Nat} (h : isNumberPart u.toUnicodeTables r = true) :
      isWordPart u.toUnicodeTables r = true := by
    rw [isNumberPart, or_eq_true] at h
    simp only [isWordPart, or_eq_true]
    rcases h with h | h
    · exact .inl (.inl (.inr h))
    · exact .inr h
  have hall : ∀ c ∈ ((decodeRune (b :: tail)).1, (b :: tail).take (decodeRune (b :: tail)).2) ::
      points, isNumberPart u.toUnicodeTables c.1 = true := by
    intro c hc
    rcases mem_cons.1 hc with rfl | hc
    · rw [isNumberPart, hdigit, Bool.true_or]
    · exact hspan.all c hc
  apply plainWords_eq_of_plainRuns
  rw [codePoints_cons, hspan.split, ← cons_append]
  exact plainRuns_number hall (fun c hc => isApostrophe_of_isWordPart u (hnumber (hall c hc))) _

theorem plainWords_literal (hquote : (decodeRune (b :: tail)).1 = '\''.toNat) :
    plainWords u.toUnicodeTables (b :: tail) =
      plainWords u.toUnicodeTables (skipQuoted '\''.toUInt8 tail) ∧
      (b :: tail).drop (decodeRune (b :: tail)).2 = tail := by
  have hascii : (decodeRune (b :: tail)).1 < 0x80 := by
    rw [hquote]
    decide
  obtain ⟨hb, hsize⟩ := eq_of_decodeRune_lt hascii
  rw [hquote] at hb
  refine ⟨?_, by rw [hsize]; rfl⟩
  obtain rfl : b = '\''.toUInt8 := UInt8.toNat_inj.1 hb
  apply plainWords_eq_of_plainRuns
  exact wordsOutside_skipQuoted tail

end

/-- **The words among the tokens of a text are its plain words.** -/
theorem filter_tokenizeLoop (u : Alphabet) (hfuel : q.length ≤ fuel) :
    (tokenizeLoop u.toUnicodeTables fuel q).filter Token.isWord =
      (plainWords u.toUnicodeTables q).map wordToken := by
  induction fuel generalizing q with
  | zero =>
    obtain rfl := List.length_eq_zero_iff.1 (Nat.le_zero.1 hfuel)
    simp [tokenizeLoop, plainWords, plainRuns]
  | succ fuel ih =>
    cases q with
    | nil => simp [tokenizeLoop, plainWords, plainRuns]
    | cons b tail =>
      rw [length_cons, Nat.add_le_add_iff_right] at hfuel
      have hdrop := (drop_decodeRune_suffix b tail).length_le.trans hfuel
      have hspanned := (List.drop_suffix (decodeRune (b :: tail)).2 (b :: tail)).length_le
      rw [tokenizeLoop]
      dsimp only
      split
      · rename_i hspace
        rw [ih hdrop, plainWords_skip u b tail _ (skipped_of_isSpace u hspace)]
        intro hquote
        rw [hquote] at hspace
        cases hspace
      split
      · rename_i hstart
        obtain ⟨points, hspan⟩ := spans_spanRunes (isWordPart u.toUnicodeTables) hspanned
        rw [filter_cons_of_pos (isWord_wordToken _), ih (hspan.length.trans hdrop),
          plainWords_word u b tail hstart hspan, map_cons]
      rename_i hstart
      rw [not_eq_true] at hstart
      split
      · rename_i hquote
        obtain ⟨hwords, htail⟩ := plainWords_literal u b tail hquote
        rw [filter_cons_of_neg Bool.false_ne_true, htail, readQuoted_rest, ih, hwords]
        exact (length_skipQuoted _ tail).trans (by omega)
      rename_i hquote
      split
      · rename_i hdigit
        obtain ⟨points, hspan⟩ := spans_spanRunes (isNumberPart u.toUnicodeTables) hspanned
        rw [filter_cons_of_neg Bool.false_ne_true, ih (hspan.length.trans hdrop),
          plainWords_number u b tail hdigit hspan]
      · rw [filter_cons_of_neg Bool.false_ne_true, ih hdrop,
          plainWords_skip u b tail hquote (skipped_of_not_start u hstart)]

theorem filter_tokenize (u : Alphabet) (q : Bytes) :
    (tokenize u.toUnicodeTables q).filter Token.isWord =
      (plainWords u.toUnicodeTables q).map wordToken :=
  filter_tokenizeLoop u le_rfl

end Pontus.Protocol
