import Pontus.Protocol.Proofs.PlainWords

/-!
# Where the tokens stand

A literal is read up to its closing quote whichever of the two paths reads it,
and what the passes of the tokenizer take are the whole query in order.
-/

namespace Pontus.Protocol

open Lib

section
variable {α : Type} [DecidableEq α] (quote : α)

def doubled (text : List α) : List α :=
  text.flatMap fun a => if a = quote then [quote, quote] else [a]

variable {quote}

theorem doubled_of_notMem (h : quote ∉ text) : doubled quote text = text := by
  induction text with
  | nil => rfl
  | cons a text ih =>
    rw [mem_cons, not_or] at h
    rw [doubled, flatMap_cons, if_neg (Ne.symm h.1), ← doubled, ih h.2]
    rfl

theorem quoted_doubled (text : List α) (h : rest.head? ≠ some quote) :
    unescapeQuoted quote (doubled quote text ++ quote :: rest) = text ∧
      skipQuoted quote (doubled quote text ++ quote :: rest) = rest := by
  induction text with
  | nil =>
    cases rest with
    | nil => simp [doubled, unescapeQuoted, skipQuoted]
    | cons b rest =>
      have hne : b ≠ quote := fun hb => h (by rw [hb, List.head?_cons])
      simp [doubled, unescapeQuoted, skipQuoted, hne]
  | cons a text ih =>
    rw [doubled, flatMap_cons, ← doubled]
    by_cases ha : a = quote
    · simp [ha, unescapeQuoted, skipQuoted, ih]
    · -- what follows is not empty: the closing quote is there
      obtain ⟨b, tail, htail⟩ : ∃ b tail, doubled quote text ++ quote :: rest = b :: tail :=
        exists_cons_of_ne_nil (by simp)
      rw [if_neg ha, singleton_append, cons_append, htail, unescapeQuoted, skipQuoted,
        if_pos ha, if_pos ha, ← htail, ih.1, ih.2]
      exact ⟨rfl, rfl⟩

/-- `unescapeQuoted` stops where `skipQuoted` does. -/
theorem quoted_split (quote : α) (text : List α) :
    text = doubled quote (unescapeQuoted quote text) ++ quote :: skipQuoted quote text ∨
      text = doubled quote (unescapeQuoted quote text) ∧ skipQuoted quote text = [] := by
  fun_induction unescapeQuoted quote text with
  | case1 => exact .inr ⟨rfl, rfl⟩
  | case2 a ha => exact .inr ⟨by simp [doubled, ha], rfl⟩
  | case3 a ha => exact .inl (by simp_all [doubled, skipQuoted])
  | case4 a b rest ha ih => simpa [doubled, skipQuoted, ha] using ih
  | case5 a rest ha ih => simp_all [doubled, skipQuoted]
  | case6 a b rest ha hb => simp_all [doubled, skipQuoted]

end

theorem readQuoted_eq (text : Bytes) :
    readQuoted text = (unescapeQuoted '\''.toUInt8 text, skipQuoted '\''.toUInt8 text) := by
  unfold readQuoted
  cases hcut : cutAt '\''.toUInt8 text with
  | none =>
    have hmem := cutAt_eq_none hcut
    rcases quoted_split '\''.toUInt8 text with h | ⟨h, hskip⟩
    · rw [h] at hmem
      simp at hmem
    · have hvalue : '\''.toUInt8 ∉ unescapeQuoted '\''.toUInt8 text := fun hvalue =>
        hmem (h ▸ List.mem_flatMap.2 ⟨_, hvalue, by simp⟩)
      rw [doubled_of_notMem hvalue] at h
      exact Prod.ext h hskip.symm
  | some cut =>
    obtain ⟨value, rest⟩ := cut
    obtain ⟨rfl, hmem⟩ := cutAt_eq_some hcut
    dsimp only
    split
    · rfl
    · rename_i hhead
      have hread := quoted_doubled value hhead
      rw [doubled_of_notMem hmem] at hread
      rw [hread.1, hread.2]

section
variable (u : UnicodeTables)

/-- What one pass of `Tokenize` yields, and the text it leaves. -/
def pass (q : Bytes) : Option Token × Bytes :=
  let (r, size) := decodeRune q
  if isSpaceRune u r then (none, q.drop size)
  else if isLetterRune u r || r == '_'.toNat then
    let (word, rest) := spanRunes (isWordPart u) q.length (q.drop size)
    (wordToken (q.take size ++ word), rest)
  else if r = '\''.toNat then
    let (value, rest) := readQuoted (q.drop size)
    (some ⟨.tokenLiteral, value⟩, rest)
  else if isDigitRune u r then
    let (number, rest) := spanRunes (isNumberPart u) q.length (q.drop size)
    (some ⟨.tokenLiteral, q.take size ++ number⟩, rest)
  else (some ⟨.tokenPunctuation, q.take size⟩, q.drop size)

/-- The passes, each with the piece of the query it takes. -/
def passes : Nat → Bytes → List (Option Token × Bytes)
  | 0, _ => []
  | _ + 1, [] => []
  | fuel + 1, b :: tail =>
    let (token, rest) := pass u (b :: tail)
    (token, (b :: tail).take ((b :: tail).length - rest.length)) :: passes fuel rest

theorem tokenizeLoop_eq_passes (fuel : Nat) (q : Bytes) :
    tokenizeLoop u fuel q = (passes u fuel q).filterMap Prod.fst := by
  induction fuel generalizing q with
  | zero => rfl
  | succ fuel ih =>
    cases q with
    | nil => rfl
    | cons b tail =>
      simp only [tokenizeLoop, passes, pass]
      split_ifs <;> simp [ih]

theorem spanRunes_suffix (p : Nat → Bool) (fuel : Nat) (q : Bytes) :
    (spanRunes p fuel q).2 <:+ q := by
  induction fuel generalizing q with
  | zero => exact List.suffix_refl q
  | succ fuel ih =>
    cases q with
    | nil => exact List.suffix_refl []
    | cons b tail =>
      simp only [spanRunes]
      split
      · exact (ih _).trans (List.drop_suffix _ _)
      · exact List.suffix_refl _

theorem skipQuoted_suffix [DecidableEq α] (quote : α) (text : List α) :
    skipQuoted quote text <:+ text := by
  rcases quoted_split quote text with h | ⟨_, h⟩
  · exact ⟨doubled quote (unescapeQuoted quote text) ++ [quote], by
      rw [append_assoc]; exact h.symm⟩
  · rw [h]
    exact List.nil_suffix

/-- A pass takes at least the first byte. -/
theorem pass_suffix (b : UInt8) (tail : Bytes) : (pass u (b :: tail)).2 <:+ tail := by
  have hdrop := drop_decodeRune_suffix b tail
  simp only [pass]
  split_ifs
  · exact hdrop
  · exact (spanRunes_suffix _ _ _).trans hdrop
  · rw [readQuoted_rest]
    exact (skipQuoted_suffix _ _).trans hdrop
  · exact (spanRunes_suffix _ _ _).trans hdrop
  · exact hdrop

theorem passes_partition (hfuel : q.length ≤ fuel) :
    (∀ p ∈ passes u fuel q, p.2 ≠ []) ∧ (passes u fuel q).flatMap Prod.snd = q := by
  induction fuel generalizing q with
  | zero =>
    rw [List.length_eq_zero_iff.1 (Nat.le_zero.1 hfuel)]
    exact ⟨nofun, rfl⟩
  | succ fuel ih =>
    cases q with
    | nil => exact ⟨nofun, rfl⟩
    | cons b tail =>
      obtain ⟨front, hfront⟩ := pass_suffix u b tail
      have hlen := congrArg List.length hfront
      rw [length_append] at hlen
      rw [length_cons] at hfuel
      have hrest := ih (q := (pass u (b :: tail)).2) (by omega)
      have hspan : (b :: tail).take ((b :: tail).length - (pass u (b :: tail)).2.length) =
          b :: front := by
        have hcount : (b :: tail).length - (pass u (b :: tail)).2.length = (b :: front).length := by
          rw [length_cons, length_cons]
          omega
        rw [hcount]
        conv => lhs; rw [← hfront, ← cons_append]
        exact take_left
      simp only [passes, hspan]
      constructor
      · rw [forall_mem_cons]
        exact ⟨cons_ne_nil b front, hrest.1⟩
      · rw [flatMap_cons, hrest.2, cons_append, hfront]

/-- **Literals and spans are exact.**  A quoted literal gives its value back,
the paths of `readQuoted` agree on where it ends, and the passes take the whole
query, each a piece of it. -/
theorem literals_and_spans_exact :
    (∀ s r : Bytes, r.head? ≠ some '\''.toUInt8 →
        readQuoted (doubled '\''.toUInt8 s ++ '\''.toUInt8 :: r) = (s, r)) ∧
      (∀ text : Bytes,
        let value := unescapeQuoted '\''.toUInt8 text
        let rest := skipQuoted '\''.toUInt8 text
        readQuoted text = (value, rest) ∧
          (text = doubled '\''.toUInt8 value ++ '\''.toUInt8 :: rest ∨
            text = doubled '\''.toUInt8 value ∧ rest = [])) ∧
      ∀ q : Bytes,
        tokenize u q = (passes u q.length q).filterMap Prod.fst ∧
          (∀ p ∈ passes u q.length q, p.2 ≠ []) ∧ (passes u q.length q).flatMap Prod.snd = q := by
  refine ⟨?_, fun text => ⟨readQuoted_eq text, quoted_split _ text⟩, ?_⟩
  · intro s r hr
    have hread := quoted_doubled s hr
    rw [readQuoted_eq, hread.1, hread.2]
  · intro q
    exact ⟨tokenizeLoop_eq_passes u q.length q, passes_partition u (Nat.le_refl q.length)⟩

end

end Pontus.Protocol
