import Pontus.Protocol.Proofs.Pieces

/-!
# Comments before a statement

Tools that annotate queries put a comment before each.  What the scanner says
of the statement is the same with it as without.
-/

namespace Pontus.Protocol

open Lib

/-- The rest of a block comment, up to where it ends. -/
inductive BlockRest : Bytes → Prop
  | close : BlockRest ['*'.toUInt8, '/'.toUInt8]
  | nested (inner : BlockRest c) (rest : BlockRest c') :
    BlockRest ('/'.toUInt8 :: '*'.toUInt8 :: (c ++ c'))
  | byte (hopen : startsBlockComment (b :: c) = false) (hclose : endsBlockComment (b :: c) = false)
    (rest : BlockRest c) : BlockRest (b :: c)

/-- White space and complete comments, one behind the other. -/
inductive Noise : Bytes → Prop
  | nil : Noise []
  | space (hb : isSpace b) (rest : Noise p) : Noise (b :: p)
  | line (hbody : '\n'.toUInt8 ∉ body) (rest : Noise p) :
    Noise ('-'.toUInt8 :: '-'.toUInt8 :: (body ++ '\n'.toUInt8 :: p))
  | block (body : BlockRest c) (rest : Noise p) : Noise ('/'.toUInt8 :: '*'.toUInt8 :: (c ++ p))

theorem behindComment_append (h : BlockRest c) (depth : Nat) (q : Bytes) :
    Sql.behindComment depth (c ++ q) =
      if depth = 0 then q else Sql.behindComment (depth - 1) q := by
  induction h generalizing depth q with
  | close => rfl
  | nested _ _ ih ih' =>
    -- the comment inside ends first, and this one goes on behind it
    have hdeeper := ih (depth + 1)
    rw [cons_append, cons_append, append_assoc, Sql.behindComment, if_pos ⟨rfl, rfl⟩, hdeeper,
      if_neg (Nat.succ_ne_zero depth)]
    exact ih' depth q
  | @byte b c hopen hclose rest ih =>
    cases c with
    | nil => cases rest
    | cons a c =>
      simp only [startsBlockComment, endsBlockComment, Bool.and_eq_false_iff, beq_eq_false_iff_ne,
        ← not_and_or] at hopen hclose
      rw [cons_append, cons_append, Sql.behindComment, if_neg hopen, if_neg hclose]
      exact ih depth q

theorem skipNoise_space (hb : isSpace b) (q : Bytes) : skipNoise (b :: q) = skipNoise q := by
  rw [skipNoise_cons, behindNoise, if_pos hb]
  rfl

theorem skipNoise_append (h : Noise p) (q : Bytes) : skipNoise (p ++ q) = skipNoise q := by
  induction h with
  | nil => rfl
  | space hb _ ih => rw [cons_append, skipNoise_space hb, ih]
  | @line body p hbody _ ih =>
    have hgoes : ∀ b ∈ '-'.toUInt8 :: body, (b != '\n'.toUInt8) = true := by
      rw [forall_mem_cons]
      exact ⟨rfl, fun b hb => bne_iff_ne.2 fun heq => hbody (heq ▸ hb)⟩
    have hnoise : behindNoise '-'.toUInt8 ('-'.toUInt8 :: (body ++ '\n'.toUInt8 :: p) ++ q) =
        some ('\n'.toUInt8 :: (p ++ q)) := by
      rw [behindNoise, if_neg (by decide), if_pos ⟨rfl, rfl⟩, ← cons_append, append_assoc,
        List.dropWhile_append_of_pos hgoes]
      rfl
    rw [cons_append, skipNoise_cons, hnoise]
    -- the newline is left, and skipped as white space
    exact (skipNoise_space (by decide) _).trans ih
  | @block c p body _ ih =>
    have hnoise : behindNoise '/'.toUInt8 ('*'.toUInt8 :: (c ++ p) ++ q) = some (p ++ q) := by
      rw [behindNoise, if_neg (by decide), if_neg fun h => absurd h.1 (by decide),
        if_pos ⟨rfl, rfl⟩, cons_append, List.tail_cons, append_assoc, behindComment_append body,
        if_pos rfl]
    rw [cons_append, skipNoise_cons, hnoise]
    exact ih

theorem nextToken_append (h : Noise p) (q : Bytes) : nextToken (p ++ q) = nextToken q := by
  rw [nextToken, skipNoise_append h]
  rfl

theorem length_nextToken (h : s ≠ []) : (nextToken s).2.length < s.length := by
  rcases pieces_cases s with ⟨hnoise, -⟩ | ⟨-, -, hlt⟩
  · rw [nextToken_of_noise hnoise]
    exact length_pos_iff.2 h
  · exact hlt

theorem iterate_nextToken (s : Bytes) :
    ∃ n ≤ s.length, (fun rest => (nextToken rest).2)^[n] s = [] := by
  induction hlen : s.length using Nat.strong_induction_on generalizing s with
  | _ _ ih =>
    by_cases hs : s = []
    · exact ⟨0, Nat.zero_le _, hs⟩
    · have hlt := length_nextToken hs
      obtain ⟨n, hn, hend⟩ := ih _ (hlen ▸ hlt) _ rfl
      exact ⟨n + 1, by omega, hend⟩

theorem endsToken_skipNoise (h : skipNoise s ≠ []) : endsToken (skipNoise s) = false := by
  obtain ⟨b, rest, hrest⟩ := exists_cons_of_ne_nil h
  rw [hrest]
  exact (skipped_skipNoise s).starts b rest hrest

theorem containsPhraseLoop_fuel (hfuel : s.length ≤ fuel) (words : List String) :
    containsPhraseLoop fuel words s = containsPhrase s words := by
  refine fuel_enough (F := fun n s => containsPhraseLoop n words s) ?_ ?_ hfuel le_rfl
  · intro n
    cases n <;> rfl
  · intro n m b rest ih
    have hlt := length_nextToken (cons_ne_nil b rest)
    simp only [containsPhraseLoop]
    rw [ih _ (Nat.le_of_lt_succ hlt)]

/-- **Comments before a statement change nothing**, and the loops that look for
its words end.  Tokens are taken off until no text is left, the noise is skipped
up to where none starts, a comment up to where the recursion over its text ends,
and none of the loops runs out of fuel with as much as there is text. -/
theorem leading_comments_change_nothing :
    (∀ p q : Bytes, Noise p →
        pinReasonFor (p ++ q) = pinReasonFor q ∧ unpinReasonFor (p ++ q) = unpinReasonFor q ∧
          parseSet (p ++ q) = parseSet q) ∧
      ∀ s : Bytes, (s ≠ [] → (nextToken s).2.length < s.length) ∧
        (∃ n ≤ s.length, (fun rest => (nextToken rest).2)^[n] s = []) ∧
        (skipNoise s ≠ [] → endsToken (skipNoise s) = false) ∧
        ∀ fuel, s.length ≤ fuel →
          (∀ depth : Nat, skipBlockComment fuel (depth + 1) s = Sql.behindComment depth s) ∧
            skipNoiseLoop fuel s = skipNoise s ∧
            ∀ words, containsPhraseLoop fuel words s = containsPhrase s words := by
  refine ⟨?_, fun s => ⟨length_nextToken, iterate_nextToken s, endsToken_skipNoise, ?_⟩⟩
  · intro p q hp
    have htoken := nextToken_append hp q
    refine ⟨?_, ?_, ?_⟩
    · rw [pinReasonFor, htoken, ← pinReasonFor]
    · rw [unpinReasonFor, htoken, ← unpinReasonFor]
    · rw [parseSet, htoken, ← parseSet]
  · intro fuel hfuel
    exact ⟨fun depth => skipBlockComment_eq depth hfuel,
      skipNoiseLoop_fuel hfuel (Nat.le_succ _), containsPhraseLoop_fuel hfuel⟩

end Pontus.Protocol
