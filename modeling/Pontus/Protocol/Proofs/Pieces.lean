import Pontus.Lib.Lists
import Pontus.Lib.QuotedWords
import Pontus.Lib.Sql
import Pontus.Protocol.Proofs.TrackingLoss

/-!
# What ties a session, told by the pieces of the text

The scanner that looks for reasons to pin a session cuts the text at white
space and comments and at nothing else: not at punctuation, and not around
literals.  The pieces are what is left when every comment is made a blank, and
what the scanner says of a text is told by them and by the text behind the
first.
-/

namespace Pontus.Protocol

open Lib

variable {fuel : Nat} {text : Bytes} {b : UInt8} {words : List String}

/-! ## Pieces -/

def blankedLoop : Nat → Bytes → Bytes
  | 0, _ => []
  | _ + 1, [] => []
  | fuel + 1, b :: rest =>
    if b = '-'.toUInt8 ∧ rest.head? = some '-'.toUInt8 then
      ' '.toUInt8 :: blankedLoop fuel (rest.dropWhile (· != '\n'.toUInt8))
    else if b = '/'.toUInt8 ∧ rest.head? = some '*'.toUInt8 then
      ' '.toUInt8 :: blankedLoop fuel (Sql.behindComment 0 rest.tail)
    else b :: blankedLoop fuel rest

def blanked (text : Bytes) : Bytes := blankedLoop text.length text

def rawPieces (text : Bytes) : List Bytes :=
  wordsOf (fun b => !isSpace b) (fun _ => false) (blanked text)

def pieces (text : Bytes) : List Bytes := (rawPieces text).map trimStatementEnd

def behindFirst (text : Bytes) : Bytes := (spanToken (skipNoise text)).2

/-! ## Comments -/

theorem startsLineComment_cons (b : UInt8) (rest : Bytes) :
    startsLineComment (b :: rest) ↔ b = '-'.toUInt8 ∧ rest.head? = some '-'.toUInt8 := by
  cases rest with
  | nil | cons c rest => simp [startsLineComment]

theorem startsBlockComment_cons (b : UInt8) (rest : Bytes) :
    startsBlockComment (b :: rest) ↔ b = '/'.toUInt8 ∧ rest.head? = some '*'.toUInt8 := by
  cases rest with
  | nil | cons c rest => simp [startsBlockComment]

theorem length_behindComment (depth : Nat) (text : Bytes) :
    (Sql.behindComment depth text).length ≤ text.length := by
  fun_induction Sql.behindComment depth text with
  | case1 => exact le_rfl
  | case2 => exact Nat.zero_le _
  | case3 _ _ _ _ _ ih => exact ih.trans (Nat.le_add_right _ 2)
  | case4 => exact Nat.le_add_right _ 2
  | case5 _ _ _ _ _ _ _ ih => exact ih.trans (Nat.le_add_right _ 2)
  | case6 _ _ _ _ _ _ ih => exact ih.trans (Nat.le_succ _)

theorem length_behindOpened (rest : Bytes) :
    (Sql.behindComment 0 rest.tail).length ≤ rest.length := by
  refine (length_behindComment 0 rest.tail).trans ?_
  rw [List.length_tail]
  exact Nat.sub_le _ _

/-- The scanner counts the comments that are open, the server those around
the innermost. -/
theorem skipBlockComment_eq (depth : Nat) (hfuel : text.length ≤ fuel) :
    skipBlockComment fuel (depth + 1) text = Sql.behindComment depth text := by
  induction fuel generalizing depth text with
  | zero =>
    obtain rfl := List.length_eq_zero_iff.1 (Nat.le_zero.1 hfuel)
    rfl
  | succ fuel ih =>
    match text with
    | [] => rfl
    | [a] =>
      have hrest : skipBlockComment fuel (depth + 1) [] = Sql.behindComment depth [] :=
        ih depth (Nat.zero_le _)
      exact hrest
    | a :: b :: rest =>
      simp only [length_cons] at hfuel
      rw [skipBlockComment, Sql.behindComment]
      by_cases hopen : a = '/'.toUInt8 ∧ b = '*'.toUInt8
      · have hstarts : startsBlockComment (a :: b :: rest) := by simp [startsBlockComment, hopen]
        have hdeeper : skipBlockComment fuel ((depth + 1 : Nat) + 1) rest =
            Sql.behindComment (depth + 1) rest := ih (depth + 1) (by omega)
        rw [if_pos hstarts, if_pos hopen]
        exact hdeeper
      have hstarts : ¬startsBlockComment (a :: b :: rest) := by
        rw [startsBlockComment_cons]
        simpa using hopen
      rw [if_neg hstarts, if_neg hopen]
      by_cases hclose : a = '*'.toUInt8 ∧ b = '/'.toUInt8
      · have hends : endsBlockComment (a :: b :: rest) := by simp [endsBlockComment, hclose]
        rw [if_pos hends, if_pos hclose]
        cases depth with
        | zero => rfl
        | succ depth =>
          have hne : ¬((depth + 1 : Nat) : Int) + 1 - 1 = 0 := by omega
          have hout : skipBlockComment fuel (depth + 1) rest = Sql.behindComment depth rest :=
            ih depth (by omega)
          rw [if_neg hne, if_neg (Nat.succ_ne_zero depth), Int.add_sub_cancel]
          exact hout
      · have hends : ¬endsBlockComment (a :: b :: rest) := by simpa [endsBlockComment] using hclose
        rw [if_neg hends, if_neg hclose]
        exact ih depth (by rw [length_cons]; omega)

/-! ## Blanking -/

theorem length_dropWhile_le (p : UInt8 → Bool) (text : Bytes) :
    (text.dropWhile p).length ≤ text.length :=
  (List.dropWhile_suffix p).length_le

theorem blankedLoop_fuel (hfuel : text.length ≤ fuel) (hfuel' : text.length ≤ fuel') :
    blankedLoop fuel text = blankedLoop fuel' text := by
  refine fuel_enough ?_ ?_ hfuel hfuel'
  · intro n
    cases n <;> rfl
  · intro n m b rest ih
    rw [blankedLoop, blankedLoop, ih rest le_rfl, ih _ (length_dropWhile_le _ rest),
      ih _ (length_behindOpened rest)]

theorem blanked_cons (b : UInt8) (rest : Bytes) :
    blanked (b :: rest) =
      if b = '-'.toUInt8 ∧ rest.head? = some '-'.toUInt8 then
        ' '.toUInt8 :: blanked (rest.dropWhile (· != '\n'.toUInt8))
      else if b = '/'.toUInt8 ∧ rest.head? = some '*'.toUInt8 then
        ' '.toUInt8 :: blanked (Sql.behindComment 0 rest.tail)
      else b :: blanked rest := by
  have hline := length_dropWhile_le (· != '\n'.toUInt8) rest
  have hblock := length_behindOpened rest
  rw [blanked, length_cons, blankedLoop, blankedLoop_fuel hline le_rfl,
    blankedLoop_fuel hblock le_rfl]
  rfl

theorem rawPieces_blank (hb : isSpace b) (text text' : Bytes)
    (h : blanked text = b :: blanked text') : rawPieces text = rawPieces text' := by
  rw [rawPieces, h]
  exact wordsOf_cons_skip (.inl (by rw [hb]; rfl)) _

theorem rawPieces_nil : rawPieces [] = [] := wordsOf_nil

structure Skipped (text rest : Bytes) : Prop where
  pieces : rawPieces rest = rawPieces text
  starts : ∀ b more, rest = b :: more → endsToken (b :: more) = false
  length : rest.length ≤ text.length

theorem Skipped.of_blank (hb : isSpace b) (h : blanked text = b :: blanked text')
    (hlen : text'.length ≤ text.length) (hrest : Skipped text' rest) : Skipped text rest where
  pieces := hrest.pieces.trans (rawPieces_blank hb text text' h).symm
  starts := hrest.starts
  length := hrest.length.trans hlen

theorem isSpace_ne (hb : isSpace b) (hc : isSpace c = false) : b ≠ c := by
  rintro rfl
  rw [hb] at hc
  cases hc

/-- Where `skipNoise` goes on behind white space or a comment. -/
def behindNoise (b : UInt8) (rest : Bytes) : Option Bytes :=
  if isSpace b then some rest
  else if b = '-'.toUInt8 ∧ rest.head? = some '-'.toUInt8 then
    some (rest.dropWhile (· != '\n'.toUInt8))
  else if b = '/'.toUInt8 ∧ rest.head? = some '*'.toUInt8 then some (Sql.behindComment 0 rest.tail)
  else none

theorem length_behindNoise (h : behindNoise b rest = some text) : text.length ≤ rest.length := by
  unfold behindNoise at h
  split_ifs at h
  · cases h
    exact le_rfl
  · cases h
    exact length_dropWhile_le _ rest
  · cases h
    exact length_behindOpened rest

theorem skipNoiseLoop_cons (fuel : Nat) (b : UInt8) (rest : Bytes) :
    skipNoiseLoop (fuel + 1) (b :: rest) =
      (behindNoise b rest).elim (b :: rest) (skipNoiseLoop fuel) := by
  rw [skipNoiseLoop, behindNoise]
  simp only [startsLineComment_cons, startsBlockComment_cons]
  split_ifs with hspace hminus hslash
  · rfl
  · rw [hminus.1]
    rfl
  · obtain ⟨tail, rfl⟩ := List.head?_eq_some_iff.1 hslash.2
    rw [length_cons, skipBlockComment, if_pos ((startsBlockComment_cons b _).2 hslash)]
    exact congrArg (skipNoiseLoop fuel) (skipBlockComment_eq 0 (Nat.le_succ _))
  · rfl

theorem skipNoiseLoop_fuel (hfuel : text.length ≤ fuel) (hfuel' : text.length ≤ fuel') :
    skipNoiseLoop fuel text = skipNoiseLoop fuel' text := by
  refine fuel_enough ?_ ?_ hfuel hfuel'
  · intro n
    cases n <;> rfl
  · intro n m b rest ih
    rw [skipNoiseLoop_cons, skipNoiseLoop_cons]
    cases hnoise : behindNoise b rest with
    | none => rfl
    | some text => exact ih text (length_behindNoise hnoise)

theorem skipNoise_cons (b : UInt8) (rest : Bytes) :
    skipNoise (b :: rest) = (behindNoise b rest).elim (b :: rest) skipNoise := by
  rw [skipNoise, skipNoiseLoop_cons]
  cases hnoise : behindNoise b rest with
  | none => rfl
  | some text =>
    exact skipNoiseLoop_fuel ((length_behindNoise hnoise).trans (Nat.le_succ _)) (Nat.le_succ _)

theorem blanked_of_behindNoise (h : behindNoise b rest = some text) :
    ∃ c, isSpace c ∧ blanked (b :: rest) = c :: blanked text := by
  unfold behindNoise at h
  rw [blanked_cons]
  split_ifs at h with hspace hminus hslash
  · have hminus : ¬(b = '-'.toUInt8 ∧ rest.head? = some '-'.toUInt8) := fun h =>
      isSpace_ne hspace (by decide) h.1
    have hslash : ¬(b = '/'.toUInt8 ∧ rest.head? = some '*'.toUInt8) := fun h =>
      isSpace_ne hspace (by decide) h.1
    cases h
    rw [if_neg hminus, if_neg hslash]
    exact ⟨b, hspace, rfl⟩
  · cases h
    rw [if_pos hminus]
    exact ⟨_, by decide, rfl⟩
  · cases h
    rw [if_neg hminus, if_pos hslash]
    exact ⟨_, by decide, rfl⟩

theorem endsToken_of_behindNoise (h : behindNoise b rest = none) :
    endsToken (b :: rest) = false := by
  unfold behindNoise at h
  split_ifs at h with hspace hminus hslash
  rw [endsToken, startsComment, or_eq_false_iff, or_eq_false_iff]
  refine ⟨eq_false_iff.2 hspace, ?_, ?_⟩
  · exact eq_false_iff.2 (mt (startsLineComment_cons b rest).1 hminus)
  · exact eq_false_iff.2 (mt (startsBlockComment_cons b rest).1 hslash)

theorem skipped_skipNoise (text : Bytes) : Skipped text (skipNoise text) := by
  induction hn : text.length using Nat.strong_induction_on generalizing text with
  | _ _ ih =>
    cases text with
    | nil => exact ⟨rfl, nofun, le_rfl⟩
    | cons b rest =>
      rw [skipNoise_cons]
      cases hnoise : behindNoise b rest with
      | none =>
        refine ⟨rfl, ?_, le_rfl⟩
        rintro _ _ ⟨⟩
        exact endsToken_of_behindNoise hnoise
      | some text =>
        obtain ⟨c, hc, hblanked⟩ := blanked_of_behindNoise hnoise
        have hlen := (length_behindNoise hnoise).trans (Nat.le_succ rest.length)
        exact .of_blank hc hblanked hlen
          (ih text.length (hn ▸ Nat.lt_succ_of_le (length_behindNoise hnoise)) text rfl)

/-! ## Tokens are pieces -/

theorem blanked_spanToken (text : Bytes) :
    blanked text = (spanToken text).1 ++ blanked (spanToken text).2 ∧
      ∀ b ∈ (spanToken text).1, isSpace b = false := by
  induction text with
  | nil => exact ⟨rfl, forall_mem_nil _⟩
  | cons b rest ih =>
    rw [spanToken]
    split
    · exact ⟨rfl, forall_mem_nil _⟩
    · rename_i hgoes
      rw [not_eq_true, or_eq_false_iff, startsComment, or_eq_false_iff] at hgoes
      obtain ⟨hspace, hline, hblock⟩ := hgoes
      have hminus := mt (startsLineComment_cons b rest).2 (eq_false_iff.1 hline)
      have hslash := mt (startsBlockComment_cons b rest).2 (eq_false_iff.1 hblock)
      constructor
      · rw [blanked_cons, if_neg hminus, if_neg hslash, cons_append, ← ih.1]
      · intro c hc
        rcases mem_cons.1 hc with rfl | hc
        · exact hspace
        · exact ih.2 c hc

theorem head_blanked (h : endsToken text) (b : UInt8) (hb : (blanked text).head? = some b) :
    isSpace b := by
  cases text with
  | nil => cases hb
  | cons _ rest =>
    rw [blanked_cons] at hb
    split at hb
    · cases hb
      decide
    · rename_i hminus
      split at hb
      · cases hb
        decide
      · rename_i hslash
        cases hb
        rw [endsToken, startsComment, or_eq_true, or_eq_true] at h
        rcases h with hspace | hline | hblock
        · exact hspace
        · exact absurd ((startsLineComment_cons b rest).1 hline) hminus
        · exact absurd ((startsBlockComment_cons b rest).1 hblock) hslash

/-- **The next token is the next piece.** -/
theorem pieces_cases (text : Bytes) :
    (skipNoise text = [] ∧ pieces text = []) ∨
      (skipNoise text ≠ [] ∧ pieces text = (nextToken text).1 :: pieces (nextToken text).2 ∧
        (nextToken text).2.length < text.length) := by
  have hskipped := skipped_skipNoise text
  cases hrest : skipNoise text with
  | nil =>
    refine .inl ⟨rfl, ?_⟩
    rw [pieces, ← hskipped.pieces, hrest, rawPieces_nil]
    rfl
  | cons b rest =>
    have hstarts := hskipped.starts b rest hrest
    have hspan : spanToken (b :: rest) = (b :: (spanToken rest).1, (spanToken rest).2) := by
      rw [endsToken] at hstarts
      rw [spanToken, if_neg (by rw [hstarts]; exact Bool.false_ne_true)]
    have htoken : nextToken text =
        (trimStatementEnd (b :: (spanToken rest).1), (spanToken rest).2) := by
      rw [nextToken, hrest, hspan]
    obtain ⟨hblanked, hsolid⟩ := blanked_spanToken (b :: rest)
    rw [hspan] at hblanked hsolid
    have hraw : rawPieces (b :: rest) =
        (b :: (spanToken rest).1) :: rawPieces (spanToken rest).2 := by
      rw [rawPieces, hblanked]
      apply wordsOf_append rfl
      · intro c hc
        rw [hsolid c hc]
        rfl
      · intro c hc
        rw [head_blanked (endsToken_spanToken rest) c hc]
        rfl
    have hlen : (spanToken rest).2.length ≤ rest.length := by
      have happend := congrArg List.length (spanToken_append rest)
      rw [length_append] at happend
      omega
    have hle := hskipped.length
    rw [hrest, length_cons] at hle
    refine .inr ⟨cons_ne_nil b rest, ?_, ?_⟩
    · rw [pieces, ← hskipped.pieces, hrest, hraw, htoken]
      rfl
    · rw [htoken]
      dsimp only
      omega

theorem nextToken_pieces (text : Bytes) :
    (nextToken text).1 = (pieces text).headD [] ∧
      pieces (nextToken text).2 = (pieces text).tail := by
  rcases pieces_cases text with ⟨hnoise, hps⟩ | ⟨-, hps, -⟩
  · rw [hps, nextToken, hnoise]
    exact ⟨rfl, rfl⟩
  · rw [hps]
    exact ⟨rfl, rfl⟩

theorem nextToken_of_noise (h : skipNoise text = []) : nextToken text = ([], []) := by
  rw [nextToken, h]
  rfl

/-! ## Phrases -/

def piecesSpell : List String → List Bytes → Bool
  | [], _ => true
  | _ :: _, [] => false
  | word :: words, piece :: pieces => equalFold piece word && piecesSpell words pieces

section
variable (hwords : ∀ w ∈ words, equalFold [] w = false)
include hwords

theorem startsPhrase_eq (text : Bytes) :
    startsPhrase words text = piecesSpell words (pieces text) := by
  induction words generalizing text with
  | nil => rfl
  | cons _ _ ih =>
    rw [forall_mem_cons] at hwords
    rw [startsPhrase]
    rcases pieces_cases text with ⟨hnoise, hps⟩ | ⟨-, hps, -⟩
    · rw [nextToken_of_noise hnoise, hps]
      dsimp only
      rw [hwords.1, Bool.false_and]
      rfl
    · rw [hps, piecesSpell]
      dsimp only
      rw [ih hwords.2]

theorem containsPhraseLoop_eq (hne : words ≠ []) (hfuel : text.length ≤ fuel) :
    containsPhraseLoop fuel words text = (pieces text).tails.any (piecesSpell words) := by
  have hnone : piecesSpell words [] = false := by
    cases words with
    | nil => exact absurd rfl hne
    | cons => rfl
  have hnil : pieces [] = [] := rfl
  induction fuel generalizing text with
  | zero =>
    obtain rfl := List.length_eq_zero_iff.1 (Nat.le_zero.1 hfuel)
    simp [containsPhraseLoop, hnil, hnone]
  | succ _ ih =>
    cases text with
    | nil => simp [containsPhraseLoop, hnil, hnone]
    | cons b rest =>
      rw [containsPhraseLoop, startsPhrase_eq hwords]
      · rcases pieces_cases (b :: rest) with ⟨hnoise, hps⟩ | ⟨-, hps, _⟩
        · rw [nextToken_of_noise hnoise, hps, hnone, Bool.false_or]
          rw [ih (Nat.zero_le _), hnil]
        · rw [ih (by omega), hps]
          rfl
      · simp

theorem containsPhrase_eq (hne : words ≠ []) (text : Bytes) :
    containsPhrase text words = (pieces text).tails.any (piecesSpell words) :=
  containsPhraseLoop_eq hwords hne le_rfl

end

/-! ## Reasons -/

def firstIn (words : List String) (pieces : List Bytes) : Bool :=
  words.any (equalFold (pieces.headD []))

def tempObject (pieces : List Bytes) : Bool :=
  let pieces := if firstIn ["global", "local"] pieces then pieces.tail else pieces
  firstIn ["temp", "temporary"] pieces && firstIn ["table", "sequence", "view"] pieces.tail

def pinsByPieces (text : Bytes) : Bool :=
  firstIn ["listen", "lock"] (pieces text) ||
    (firstIn ["declare"] (pieces text) &&
      (pieces text).tail.tails.any (piecesSpell ["with", "hold"])) ||
    (firstIn ["create"] (pieces text) && tempObject (pieces text).tail) ||
    (firstIn ["select", "with"] (pieces text) && containsFold (behindFirst text) "pg_advisory_lock")

theorem createsTempObject_eq (text : Bytes) :
    createsTempObject text = tempObject (pieces text) := by
  obtain ⟨hfirst, hrest⟩ := nextToken_pieces text
  have hscope : (equalFold (nextToken text).1 "global" || equalFold (nextToken text).1 "local") =
      firstIn ["global", "local"] (pieces text) := by
    rw [hfirst]
    simp [firstIn]
  -- the object is looked for behind the optional scope
  have hobject (token : Bytes × Bytes) (ps : List Bytes) (htoken : token.1 = ps.headD [])
      (hnext : pieces token.2 = ps.tail) :
      (if !equalFold token.1 "temp" && !equalFold token.1 "temporary" then false
        else
          equalFold (nextToken token.2).1 "table" || equalFold (nextToken token.2).1 "sequence" ||
            equalFold (nextToken token.2).1 "view") =
        (firstIn ["temp", "temporary"] ps && firstIn ["table", "sequence", "view"] ps.tail) := by
    rw [(nextToken_pieces token.2).1, hnext, htoken]
    simp only [firstIn, any_cons, List.any_nil, Bool.or_false, Bool.or_assoc]
    cases equalFold (ps.headD []) "temp" <;> cases equalFold (ps.headD []) "temporary" <;> rfl
  have hobject' := hobject (if firstIn ["global", "local"] (pieces text) then
    nextToken (nextToken text).2 else nextToken text)
    (if firstIn ["global", "local"] (pieces text) then (pieces text).tail else pieces text)
  unfold createsTempObject tempObject
  dsimp only
  rw [hscope]
  refine Eq.trans ?_ (hobject' ?_ ?_)
  · split <;> rfl
  · split
    · rw [(nextToken_pieces _).1, hrest]
    · exact hfirst
  · split
    · rw [(nextToken_pieces _).2, hrest]
    · exact hrest

theorem equalFold_unique {token : Bytes} {word other : String} (h : equalFold token word)
    (hne : ascii word ≠ ascii other) : equalFold token other = false := by
  rw [equalFold, beq_iff_eq] at h
  rw [equalFold, h]
  exact beq_false_of_ne hne

theorem ite_ne_zero_iff {c : Bool} {r : PinReason} (hr : r ≠ 0) :
    (if c then r else 0) ≠ 0 ↔ c := by
  cases c with
  | true => exact iff_of_true hr rfl
  | false => exact iff_of_false (fun h => h rfl) Bool.false_ne_true

/-- **The reasons the scanner finds** are those of the pieces. -/
theorem pinReasonFor_ne_zero_iff (text : Bytes) :
    pinReasonFor text ≠ 0 ↔ pinsByPieces text := by
  obtain ⟨hverb, hrest⟩ := nextToken_pieces text
  have hhold : containsPhrase (nextToken text).2 ["with", "hold"] =
      (pieces text).tail.tails.any (piecesSpell ["with", "hold"]) := by
    rw [containsPhrase_eq (by decide +kernel) (cons_ne_nil _ _), hrest]
  have htemp : createsTempObject (nextToken text).2 = tempObject (pieces text).tail := by
    rw [createsTempObject_eq, hrest]
  have hbehind : (nextToken text).2 = behindFirst text := rfl
  have hfirst (words : List String) :
      firstIn words (pieces text) = words.any (equalFold (nextToken text).1) := by
    rw [firstIn, hverb]
  unfold pinReasonFor pinsByPieces
  dsimp only
  rw [hhold, htemp, hbehind, hfirst, hfirst, hfirst, hfirst]
  simp only [any_cons, List.any_nil, Bool.or_false]
  -- one case for each verb: it is no other verb
  by_cases hlisten : equalFold (nextToken text).1 "listen" = true
  · rw [if_pos hlisten, hlisten]
    exact iff_of_true (by decide) rfl
  rw [if_neg hlisten, eq_false_iff.2 hlisten, Bool.false_or]
  by_cases hlock : equalFold (nextToken text).1 "lock" = true
  · rw [if_pos hlock, hlock]
    exact iff_of_true (by decide) rfl
  rw [if_neg hlock, eq_false_iff.2 hlock, Bool.false_or]
  by_cases hdeclare : equalFold (nextToken text).1 "declare" = true
  · have hcreate : equalFold (nextToken text).1 "create" = false :=
      equalFold_unique hdeclare (by decide +kernel)
    have hselect : equalFold (nextToken text).1 "select" = false :=
      equalFold_unique hdeclare (by decide +kernel)
    have hwith : equalFold (nextToken text).1 "with" = false :=
      equalFold_unique hdeclare (by decide +kernel)
    rw [if_pos hdeclare, hdeclare, hcreate, hselect, hwith, ite_ne_zero_iff (by decide)]
    simp
  rw [if_neg hdeclare, eq_false_iff.2 hdeclare, Bool.false_and, Bool.false_or]
  by_cases hcreate : equalFold (nextToken text).1 "create" = true
  · have hselect : equalFold (nextToken text).1 "select" = false :=
      equalFold_unique hcreate (by decide +kernel)
    have hwith : equalFold (nextToken text).1 "with" = false :=
      equalFold_unique hcreate (by decide +kernel)
    rw [if_pos hcreate, hcreate, hselect, hwith, ite_ne_zero_iff (by decide)]
    simp
  rw [if_neg hcreate, eq_false_iff.2 hcreate, Bool.false_and, Bool.false_or]
  by_cases hreads : (equalFold (nextToken text).1 "select" ||
      equalFold (nextToken text).1 "with") = true
  · rw [if_pos hreads, hreads, Bool.true_and, ite_ne_zero_iff (by decide)]
  · rw [if_neg hreads, eq_false_iff.2 hreads, Bool.false_and]
    exact iff_of_false (fun h => h rfl) Bool.false_ne_true

end Pontus.Protocol
