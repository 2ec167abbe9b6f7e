import Mathlib.Data.List.TakeWhile
import Pontus.Lib.CappedMap
import Pontus.Lib.Run
import Pontus.Protocol.Proofs.ClientMessages

/-!
# Tracking is bounded, and what it drops pins the session

The trackers keep at most so many settings and statements, and a session that
asked for more keeps its connection until DISCARD ALL.  What they do not count
as a SET they do not count as dropped either: the tokenizer ends a word at
whitespace and comments only, where SQL ends it at any byte that cannot be part
of a name.
-/

namespace Pontus.Protocol

open Lib ClientMessage PinReason

variable {b : UInt8} {rest s text : Bytes} {keyword : String} {call : TrackerCall} {t : Tracked}

/-! ## A SET, as SQL reads it -/

def isNameByte (b : UInt8) : Bool :=
  ('a'.toUInt8 ≤ b && b ≤ 'z'.toUInt8) || ('A'.toUInt8 ≤ b && b ≤ 'Z'.toUInt8) ||
    ('0'.toUInt8 ≤ b && b ≤ '9'.toUInt8) || b == '_'.toUInt8 || b == '.'.toUInt8 ||
    b == '$'.toUInt8 || 128 ≤ b

def sqlWord (s : Bytes) : Bytes × Bytes :=
  ((skipNoise s).takeWhile isNameByte, (skipNoise s).dropWhile isNameByte)

def sessionScopedSet (text : Bytes) : Bool :=
  let verb := sqlWord text
  let word := sqlWord verb.2
  let scope := if equalFold word.1 "session" then (sqlWord word.2).1 else word.1
  equalFold verb.1 "set" && !equalFold word.1 "local" && !equalFold scope "transaction" &&
    !equalFold scope "constraints"

def endsToken : Bytes → Bool
  | [] => true
  | b :: rest => isSpace b || startsComment (b :: rest)

def setStandsApart (text : Bytes) : Bool :=
  let verb := sqlWord text
  let word := sqlWord verb.2
  !equalFold verb.1 "set" || endsToken verb.2 && (!equalFold word.1 "session" || endsToken word.2)

/-! ## Words and tokens -/

theorem ne_of_name (hb : isNameByte b) (hc : isNameByte c = false) : b ≠ c := by
  rintro rfl
  rw [hb] at hc
  cases hc

theorem not_isSpace_of_name (h : isNameByte b) : isSpace b = false := by
  have hne : ∀ {c : UInt8}, isNameByte c = false → (b == c) = false := fun hc =>
    beq_eq_false_iff_ne.2 (ne_of_name h hc)
  simp only [isSpace, or_eq_false_iff]
  exact ⟨⟨⟨⟨⟨hne (by decide), hne (by decide)⟩, hne (by decide)⟩, hne (by decide)⟩,
    hne (by decide)⟩, hne (by decide)⟩

theorem span_stop (hword : ∀ b ∈ word, p b) (hrest : ∀ b, rest.head? = some b → p b = false) :
    (word ++ rest).takeWhile p = word ∧ (word ++ rest).dropWhile p = rest := by
  induction word with
  | nil =>
    cases rest with
    | nil => exact ⟨rfl, rfl⟩
    | cons b => simp [hrest b rfl]
  | cons b _ ih =>
    have hb := hword b (mem_cons_self ..)
    have ih := ih fun c hc => hword c (mem_cons_of_mem _ hc)
    simp [hb, ih.1, ih.2]

theorem endsToken_spanToken (s : Bytes) : endsToken (spanToken s).2 := by
  induction s with
  | nil => rfl
  | cons _ _ ih =>
    rw [spanToken]
    split
    case isTrue hend => exact hend
    case isFalse => exact ih

theorem spanToken_append (s : Bytes) : (spanToken s).1 ++ (spanToken s).2 = s := by
  induction s with
  | nil => rfl
  | cons b _ ih =>
    rw [spanToken]
    split
    · rfl
    · exact congrArg (b :: ·) ih

theorem not_name_of_endsToken (h : endsToken s) (hb : s.head? = some b) :
    isNameByte b = false := by
  cases s with
  | nil => cases hb
  | cons c rest =>
    obtain rfl : c = _ := Option.some.inj hb
    by_contra hname
    rw [Bool.not_eq_false] at hname
    have hminus : c ≠ '-'.toUInt8 := ne_of_name hname (by decide)
    have hslash : c ≠ '/'.toUInt8 := ne_of_name hname (by decide)
    rw [endsToken, not_isSpace_of_name hname, Bool.false_or] at h
    cases rest with
    | nil => cases h
    | cons => simp [startsComment, startsLineComment, startsBlockComment, hminus, hslash] at h

theorem spanToken_word (hword : ∀ b ∈ word, isNameByte b) (hrest : endsToken rest) :
    spanToken (word ++ rest) = (word, rest) := by
  induction word with
  | nil =>
    cases rest with
    | nil => rfl
    | cons =>
      rw [endsToken] at hrest
      rw [nil_append, spanToken, if_pos hrest]
  | cons b word ih =>
    have hb := hword b (mem_cons_self ..)
    have hgoes : ¬ (isSpace b || startsComment (b :: (word ++ rest))) := fun hend =>
      Bool.false_ne_true ((not_name_of_endsToken (s := b :: (word ++ rest)) hend rfl).symm.trans hb)
    rw [cons_append, spanToken, if_neg hgoes,
      ih fun c hc => hword c (mem_cons_of_mem _ hc)]

theorem trimStatementEnd_append (token : Bytes) :
    ∃ junk, token = trimStatementEnd token ++ junk ∧ ∀ b ∈ junk, isNameByte b = false := by
  refine ⟨(token.reverse.takeWhile fun b => b == ';'.toUInt8 || b == 0).reverse, ?_, ?_⟩
  · rw [trimStatementEnd, ← List.reverse_append, List.takeWhile_append_dropWhile,
      List.reverse_reverse]
  · intro _ hb
    rw [mem_reverse] at hb
    have hjunk := List.mem_takeWhile_imp hb
    rw [or_eq_true, beq_iff_eq, beq_iff_eq] at hjunk
    rcases hjunk with rfl | rfl <;> decide

theorem sqlWord_of_token (h : ∀ b ∈ (nextToken s).1, isNameByte b) :
    (sqlWord s).1 = (nextToken s).1 := by
  obtain ⟨junk, hjunk, hend⟩ := trimStatementEnd_append (spanToken (skipNoise s)).1
  have htoken : (nextToken s).1 = trimStatementEnd (spanToken (skipNoise s)).1 := rfl
  have hsplit := spanToken_append (skipNoise s)
  rw [hjunk, ← htoken, append_assoc] at hsplit
  rw [sqlWord, ← hsplit]
  refine (span_stop h ?_).1
  intro b hb
  cases junk with
  | nil => exact not_name_of_endsToken (endsToken_spanToken _) hb
  | cons c =>
    obtain rfl : c = _ := Option.some.inj hb
    exact hend c (mem_cons_self ..)

theorem nextToken_of_endsToken (h : endsToken (sqlWord s).2) : nextToken s = sqlWord s := by
  have hword : ∀ b ∈ (sqlWord s).1, isNameByte b = true := fun b hb => List.mem_takeWhile_imp hb
  have hspan : spanToken (skipNoise s) = sqlWord s := by
    have hcut : (sqlWord s).1 ++ (sqlWord s).2 = skipNoise s := List.takeWhile_append_dropWhile
    rw [← hcut, spanToken_word hword h]
  have htrim : trimStatementEnd (sqlWord s).1 = (sqlWord s).1 := by
    obtain ⟨junk, hjunk, hend⟩ := trimStatementEnd_append (sqlWord s).1
    cases junk with
    | nil => simpa using hjunk.symm
    | cons c =>
      have hc := hword c (by rw [hjunk]; simp)
      rw [hend c (mem_cons_self ..)] at hc
      cases hc
  rw [nextToken, hspan]
  exact Prod.ext htrim rfl

theorem name_of_lowerByte (h : isNameByte (lowerByte b)) : isNameByte b := by
  rw [lowerByte] at h
  split at h
  case isTrue hupper => simp [isNameByte, hupper.1, hupper.2]
  case isFalse => exact h

theorem sqlWord_of_equalFold (hkeyword : ∀ b ∈ ascii keyword, isNameByte b)
    (h : equalFold (nextToken s).1 keyword) : (sqlWord s).1 = (nextToken s).1 := by
  apply sqlWord_of_token
  intro _ hb
  apply name_of_lowerByte
  apply hkeyword
  rw [equalFold, beq_iff_eq] at h
  rw [← h]
  exact mem_map_of_mem hb

theorem token_ne_keyword (hkeyword : ∀ b ∈ ascii keyword, isNameByte b)
    (h : equalFold (sqlWord s).1 keyword = false) : equalFold (nextToken s).1 keyword = false := by
  by_contra htoken
  rw [Bool.not_eq_false] at htoken
  rw [sqlWord_of_equalFold hkeyword htoken, htoken] at h
  cases h

theorem parseSet_scope {verb token : Bytes × Bytes} {query : Bytes} (hverb : nextToken query = verb)
    (hset : equalFold verb.1 "set") (hlocal : equalFold (nextToken verb.2).1 "local" = false)
    (htoken : (if equalFold (nextToken verb.2).1 "session" then nextToken (nextToken verb.2).2
      else nextToken verb.2) = token) (htransaction : equalFold token.1 "transaction" = false)
    (hconstraints : equalFold token.1 "constraints" = false) :
    (parseSet query).2 = .scopeSession ∨ (parseSet query).2 = .scopeUnknown := by
  unfold parseSet
  simp only [hverb, hset, hlocal, Prod.mk.eta, htoken, htransaction, hconstraints, Bool.not_true,
    false_eq_true, Bool.or_false, if_false]
  repeat' split
  all_goals simp

theorem scopeToken_ne_keyword (hkeyword : ∀ b ∈ ascii keyword, isNameByte b)
    (hapart : equalFold (sqlWord rest).1 "session" → endsToken (sqlWord rest).2)
    (h : equalFold (if equalFold (sqlWord rest).1 "session" then (sqlWord (sqlWord rest).2).1
      else (sqlWord rest).1) keyword = false) :
    equalFold (if equalFold (nextToken rest).1 "session" then nextToken (nextToken rest).2
      else nextToken rest).1 keyword = false := by
  have hnames : ∀ b ∈ ascii "session", isNameByte b = true := by decide +kernel
  by_cases hsession : equalFold (nextToken rest).1 "session" = true
  · have hword := sqlWord_of_equalFold hnames hsession
    rw [hword] at h hapart
    rw [if_pos hsession] at h ⊢
    rw [nextToken_of_endsToken (hapart hsession)]
    exact token_ne_keyword hkeyword h
  · rw [if_neg hsession]
    by_cases hword : equalFold (sqlWord rest).1 "session" = true
    · rw [nextToken_of_endsToken (hapart hword)] at hsession
      exact absurd hword hsession
    · rw [if_neg hword] at h
      exact token_ne_keyword hkeyword h

/-- **A session's SET is read as one** when it stands apart. -/
theorem parseSet_of_sessionScopedSet (hapart : setStandsApart text)
    (hset : sessionScopedSet text) :
    (parseSet text).2 = .scopeSession ∨ (parseSet text).2 = .scopeUnknown := by
  simp only [sessionScopedSet, and_eq_true, not_eq_true'] at hset
  obtain ⟨⟨⟨hverb, hlocal⟩, htransaction⟩, hconstraints⟩ := hset
  simp only [setStandsApart, hverb, Bool.not_true, Bool.false_or, and_eq_true,
    or_eq_true, not_eq_true'] at hapart
  have hsession : equalFold (sqlWord (sqlWord text).2).1 "session" = true →
      endsToken (sqlWord (sqlWord text).2).2 = true := fun h =>
    hapart.2.resolve_left (by rw [h]; exact Bool.true_eq_false.mp)
  exact parseSet_scope (nextToken_of_endsToken hapart.1) hverb
    (token_ne_keyword (by decide +kernel) hlocal) rfl
    (scopeToken_ne_keyword (by decide +kernel) hsession htransaction)
    (scopeToken_ne_keyword (by decide +kernel) hsession hconstraints)

/-! ## Runs of the trackers -/

inductive TrackerCall
  | trackSessionState (m : ClientMessage)
  | trackPreparedStatement (m : ClientMessage)
  | forgetPreparedStatement (m : ClientMessage)
  | releaseTransactionPins
  deriving DecidableEq

/-- A session's state, and whether it has asked for something since the last
DISCARD ALL that is not in it. -/
structure Tracked where
  state : SessionState
  lost : Bool
  deriving DecidableEq

namespace TrackerCall

def message? : TrackerCall → Option ClientMessage
  | trackSessionState m => some m
  | trackPreparedStatement m => some m
  | forgetPreparedStatement m => some m
  | releaseTransactionPins => none

def apply (state : SessionState) : TrackerCall → SessionState
  | trackSessionState m => Protocol.trackSessionState state m.encode
  | trackPreparedStatement m => Protocol.trackPreparedStatement state m.encode
  | forgetPreparedStatement m => Protocol.forgetPreparedStatement state m.encode
  | releaseTransactionPins => Protocol.releaseTransactionPins state

def discardsAll : TrackerCall → Bool
  | trackSessionState (.query text) => startsPhrase ["discard", "all"] text
  | _ => false

def drops (after : SessionState) : TrackerCall → Bool
  | trackSessionState (.query text) =>
    sessionScopedSet text && !after.vars.keys.any fun name => after.vars.lookup name == some text
  | trackPreparedStatement (.parse name text _) =>
    name != [] && after.stmts.lookup name != some text
  | _ => false

def standsApart : TrackerCall → Bool
  | trackSessionState (.query text) => setStandsApart text
  | _ => true

end TrackerCall

def Tracked.start : Tracked := ⟨.empty, false⟩

def Tracked.step (t : Tracked) (call : TrackerCall) : Option Tracked :=
  if call.message?.all ClientMessage.wellFormed then
    let after := call.apply t.state
    some ⟨after, t.lost && !call.discardsAll || call.drops after⟩
  else none

/-! ## The reason a loss leaves -/

theorem unpinReasonFor_untracked (h : startsPhrase ["discard", "all"] text = false) :
    (unpinReasonFor text).getLsbD 5 = false := by
  simp only [startsPhrase, Bool.and_true, Bool.and_eq_false_iff] at h
  unfold unpinReasonFor
  repeat' split
  all_goals first | rfl | simp_all

theorem repin_untracked (hpin : state.pinnedBy.getLsbD 5)
    (h : startsPhrase ["discard", "all"] text = false) : (repin state text).getLsbD 5 := by
  have hkeep := unpinReasonFor_untracked h
  simpa [repin, clear, hpin] using hkeep

/-! ## One call -/

structure CallKeeps (t : Tracked) (call : TrackerCall) (after : SessionState) : Prop where
  vars : t.state.vars.keys.length ≤ maxSessionVars → after.vars.keys.length ≤ maxSessionVars
  stmts : t.state.stmts.keys.length ≤ maxSessionStmts → after.stmts.keys.length ≤ maxSessionStmts
  keeps : call.discardsAll = false → t.state.pinnedBy.getLsbD 5 = true →
    after.pinnedBy.getLsbD 5 = true
  drops : call.standsApart = true → call.drops after = true → after.pinnedBy.getLsbD 5 = true

theorem callKeeps_query (t : Tracked) (h : StatementTracked t.state text after) :
    CallKeeps t (.trackSessionState (.query text)) after := by
  cases h with
  | passed hscope =>
    refine ⟨id, id, fun hdiscard hpin => repin_untracked hpin hdiscard, ?_⟩
    intro hapart hdrops
    simp only [TrackerCall.drops, and_eq_true] at hdrops
    have hread := parseSet_of_sessionScopedSet hapart hdrops.1
    rcases hscope with hscope | hscope
    · rw [hscope] at hread
      rcases hread with hread | hread <;> cases hread
    · rw [hscope] at hread
      rcases hread with hread | hread <;> cases hread
  | dropped => exact ⟨id, id, fun _ _ => untracked_or _, fun _ _ => untracked_or _⟩
  | @recorded name _ hroom =>
    refine ⟨fun hcap => length_keys_insert_le hroom hcap, id,
      fun hdiscard hpin => repin_untracked hpin hdiscard, ?_⟩
    intro _ hdrops
    have hheld : ((t.state.vars.insert name text).keys.any fun other =>
        (t.state.vars.insert name text).lookup other == some text) = true :=
      any_eq_true.2 ⟨name, AList.mem_keys.1 ((AList.mem_insert _).2 (.inl rfl)),
        by rw [AList.lookup_insert]; exact beq_self_eq_true _⟩
    simp only [TrackerCall.drops, hheld, Bool.not_true, Bool.and_false] at hdrops
    cases hdrops

theorem callKeeps_parse (t : Tracked) (name text : Bytes) (types : List UInt32) :
    CallKeeps t (.trackPreparedStatement (.parse name text types))
      (recordStatement t.state name text) := by
  by_cases hroom : name ∈ t.state.stmts ∨ t.state.stmts.keys.length < maxSessionStmts
  · rw [recordStatement_recorded text hroom]
    refine ⟨id, fun hcap => length_keys_insert_le hroom hcap, fun _ hpin => hpin, ?_⟩
    intro _ hdrops
    simp [TrackerCall.drops] at hdrops
  · rw [recordStatement, if_pos (by rw [not_or, Nat.not_lt] at hroom; exact hroom)]
    exact ⟨id, id, fun _ _ => untracked_or _, fun _ _ => untracked_or _⟩

theorem callKeeps_close (t : Tracked) (name : Bytes) :
    CallKeeps t (.forgetPreparedStatement (.closeStatement name))
      { t.state with stmts := t.state.stmts.erase name } := by
  exact ⟨id, fun hcap => (length_keys_erase_le _ name).trans hcap, fun _ hpin => hpin,
    nofun⟩

theorem callKeeps_skip (t : Tracked) (happly : call.apply t.state = t.state)
    (hdrops : call.drops t.state = false) : CallKeeps t call (call.apply t.state) := by
  rw [happly]
  exact ⟨id, id, fun _ hpin => hpin, fun _ h => by rw [hdrops] at h; cases h⟩

theorem callKeeps_apply (t : Tracked) (h : call.message?.all ClientMessage.wellFormed) :
    CallKeeps t call (call.apply t.state) := by
  cases call with
  | releaseTransactionPins =>
    exact ⟨id, id, fun _ hpin => release_untracked hpin, nofun⟩
  | trackSessionState m =>
    have hskip := trackSessionState_skip (m := m) t.state []
    rw [append_nil] at hskip
    cases m with
    | query text =>
      have hquery := trackSessionState_message t.state [] h
      rw [append_nil] at hquery
      rw [TrackerCall.apply, hquery]
      exact callKeeps_query t (trackStatement_tracked t.state text)
    | parse => exact callKeeps_skip t (hskip (show feParse ≠ _ by decide)) rfl
    | closeStatement => exact callKeeps_skip t (hskip (show feClose ≠ _ by decide)) rfl
    | sync => exact callKeeps_skip t (hskip (by decide)) rfl
  | trackPreparedStatement m =>
    have hskip := trackPreparedStatement_skip (m := m) t.state []
    rw [append_nil] at hskip
    cases m with
    | query => exact callKeeps_skip t (hskip (show feQuery ≠ _ by decide)) rfl
    | parse name text types =>
      have hparse := trackPreparedStatement_message t.state [] h
      rw [append_nil] at hparse
      rw [TrackerCall.apply, hparse]
      exact callKeeps_parse t name text types
    | closeStatement => exact callKeeps_skip t (hskip (show feClose ≠ _ by decide)) rfl
    | sync => exact callKeeps_skip t (hskip (by decide)) rfl
  | forgetPreparedStatement m =>
    have hskip := forgetPreparedStatement_skip (m := m) t.state []
    rw [append_nil] at hskip
    cases m with
    | query => exact callKeeps_skip t (hskip (show feQuery ≠ _ by decide)) rfl
    | parse => exact callKeeps_skip t (hskip (show feParse ≠ _ by decide)) rfl
    | closeStatement name =>
      have hclose := forgetPreparedStatement_message t.state [] h
      rw [append_nil] at hclose
      rw [TrackerCall.apply, hclose]
      exact callKeeps_close t name
    | sync => exact callKeeps_skip t (hskip (by decide)) rfl

/-! ## Runs -/

theorem Tracked.step_eq_some (h : t.step call = some t') :
    CallKeeps t call t'.state ∧ t'.lost = (t.lost && !call.discardsAll || call.drops t'.state) := by
  rw [Tracked.step] at h
  split at h
  case isFalse => cases h
  case isTrue hwell =>
      obtain rfl := Option.some.inj h
      exact ⟨callKeeps_apply t hwell, rfl⟩

def Tracked.Bounded (t : Tracked) : Prop :=
  t.state.vars.keys.length ≤ maxSessionVars ∧ t.state.stmts.keys.length ≤ maxSessionStmts

theorem bounded_of_run (hrun : run Tracked.step .start calls = some t) : t.Bounded := by
  have hall : Along Tracked.step (fun _ _ => True) .start calls :=
    along_of_forall fun _ _ => trivial
  apply run_invariant _ _ hall hrun
  · intro _ _ _ hbounded _ hstep
    obtain ⟨hkeeps, -⟩ := Tracked.step_eq_some hstep
    exact ⟨hkeeps.vars hbounded.1, hkeeps.stmts hbounded.2⟩
  · exact ⟨Nat.zero_le _, Nat.zero_le _⟩

theorem lost_step (hlost : t.lost → t.state.pinnedBy.getLsbD 5)
    (hapart : call.standsApart) (hstep : t.step call = some t') (hlost' : t'.lost) :
    t'.state.pinnedBy.getLsbD 5 := by
  obtain ⟨hkeeps, heq⟩ := Tracked.step_eq_some hstep
  rw [heq, or_eq_true, and_eq_true, not_eq_true'] at hlost'
  rcases hlost' with ⟨hbefore, hdiscard⟩ | hdrops
  · exact hkeeps.keeps hdiscard (hlost hbefore)
  · exact hkeeps.drops hapart hdrops

/-- **Tracking is bounded, and a session whose SETs stand apart is pinned from
a loss until DISCARD ALL.** -/
theorem tracking_bounded_and_loss_pinned (calls : List TrackerCall) (t : Tracked)
    (hrun : run Tracked.step .start calls = some t) :
    t.state.vars.keys.length ≤ 64 ∧ t.state.stmts.keys.length ≤ 256 ∧
      (Along Tracked.step (fun _ call => call.standsApart = true) .start calls →
        t.lost = true → isPinned t.state = true) := by
  obtain ⟨hvars, hstatements⟩ := bounded_of_run hrun
  refine ⟨hvars, hstatements, fun hapart hlost => isPinned_of_untracked ?_⟩
  have hpinned : t.lost = true → t.state.pinnedBy.getLsbD 5 = true := by
    apply run_invariant _ _ hapart hrun
    · intro _ _ _ hinv hapart hstep
      exact lost_step hinv hapart hstep
    · nofun
  exact hpinned hlost

def quotedSetting : List TrackerCall :=
  [.trackSessionState (.query (ascii "SET \"search_path\" = s")),
    .trackSessionState (.query (ascii "UNLISTEN *")), .releaseTransactionPins]

theorem quoted_setting_pins :
    ∃ t, run Tracked.step .start quotedSetting = some t ∧ t.lost = true ∧
      isPinned t.state = true := by
  obtain ⟨t, hrun, hlost⟩ := exists_run (show (run Tracked.step .start quotedSetting).any
    (fun t => t.lost) = true by decide +kernel)
  exact ⟨t, hrun, hlost, (tracking_bounded_and_loss_pinned quotedSetting t hrun).2.2
    (by decide +kernel) hlost⟩

theorem jammed_setting_lost :
    ∃ t, run Tracked.step .start
        [.trackSessionState (.query (ascii "SET\"search_path\" = s"))] = some t ∧
      t.lost = true ∧ isPinned t.state = false := by
  obtain ⟨t, hrun, h⟩ := exists_run (show (run Tracked.step .start
    [.trackSessionState (.query (ascii "SET\"search_path\" = s"))]).any
      (fun t => t.lost && !isPinned t.state) = true by decide +kernel)
  rw [and_eq_true, not_eq_true'] at h
  exact ⟨t, hrun, h.1, h.2⟩

end Pontus.Protocol
