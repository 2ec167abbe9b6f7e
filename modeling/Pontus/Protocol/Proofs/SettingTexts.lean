import Pontus.Protocol.Proofs.ClientMessages
import Pontus.Protocol.Settings

/-!
# What the trackers make of a setting

The text of each command, as the backend reads it, against what `parseSet` and
the pin detection read in it: a SET is recorded under its name, RESET passes
unseen, DISCARD ALL lifts every reason.
-/

namespace Pontus.Protocol

open Lib PinReason

variable {token after text : Bytes} {word : String} {c : SettingCommand}

def SettingCommand.key? : SettingCommand → Option Bytes
  | .assign name _ => some name
  | .timeZone _ => some (ascii "timezone")
  | .names _ => some (ascii "names")
  | .role _ => some (ascii "role")
  | _ => none

def parameterOf (key : Bytes) : Bytes :=
  if key = ascii "names" then ascii "client_encoding" else key

theorem equalFold_exclusive {a b : String} (h : equalFold token a) (hne : ascii a ≠ ascii b)
    : equalFold token b = false := by
  rw [equalFold, beq_iff_eq] at h
  rw [equalFold, h]
  exact beq_eq_false_iff_ne.2 hne

theorem equalFold_others {a : String} {words : List String} (h : equalFold token a)
    (hne : ∀ word ∈ words, ascii a ≠ ascii word) : ∀ word ∈ words, equalFold token word = false :=
  fun word hword => equalFold_exclusive h (hne word hword)

theorem equalFold_of_mem {keyword : String} (hmem : '='.toUInt8 ∈ token)
    (hkeyword : '='.toUInt8 ∉ ascii keyword) : equalFold token keyword = false := by
  rw [equalFold, beq_eq_false_iff_ne]
  intro heq
  apply hkeyword
  rw [← heq]
  exact mem_map.2 ⟨_, hmem, by decide⟩

def setTarget (token after : Bytes) : Bytes × SetScope :=
  if equalFold token "transaction" || equalFold token "constraints" then ([], .scopeTransaction)
  else if equalFold token "authorization" then (ascii "session_authorization", .scopeSession)
  else if equalFold token "characteristics" then (ascii "session_characteristics", .scopeSession)
  else if equalFold token "role" then (ascii "role", .scopeSession)
  else if equalFold token "time" then
    if equalFold (nextToken after).1 "zone" then (ascii "timezone", .scopeSession)
    else ([], .scopeUnknown)
  else
    let token := ((cutAt '='.toUInt8 token).map Prod.fst).getD token
    if token = [] || !isIdentifier token then ([], .scopeUnknown)
    else (lowerASCII token, .scopeSession)

theorem parseSet_eq (query : Bytes) :
    parseSet query = if !equalFold (nextToken query).1 "set" then ([], .scopeNotSet)
      else if equalFold (nextToken (nextToken query).2).1 "local" then ([], .scopeTransaction)
      else if equalFold (nextToken (nextToken query).2).1 "session" then
        setTarget (nextToken (nextToken (nextToken query).2).2).1
          (nextToken (nextToken (nextToken query).2).2).2
      else setTarget (nextToken (nextToken query).2).1 (nextToken (nextToken query).2).2 := by
  rcases hverb : nextToken query with ⟨verb, rest⟩
  rcases htoken : nextToken rest with ⟨token, _⟩
  unfold parseSet
  rw [hverb]
  dsimp only
  rw [htoken]
  by_cases hset : (!equalFold verb "set") = true
  · rw [if_pos hset, if_pos hset]
  · by_cases hlocal : equalFold token "local" = true
    · rw [if_pos hlocal, if_pos hlocal]
    · by_cases hsession : equalFold token "session" = true
      · rw [if_pos hsession, if_pos hsession]
        rfl
      · rw [if_neg hsession, if_neg hsession]
        rfl

theorem isParameter_iff :
    SettingCommand.isParameter token ↔ token ≠ [] ∧ isIdentifier token ∧
      ∀ word ∈ SettingCommand.reservedWords, equalFold token word = false := by
  rw [SettingCommand.isParameter, and_eq_true, and_eq_true, not_eq_true',
    not_eq_true', any_eq_false, and_assoc]
  simp

theorem isParameter_ne (word : String) (h : SettingCommand.isParameter token)
    (hword : word ∈ SettingCommand.reservedWords) : equalFold token word = false :=
  (isParameter_iff.1 h).2.2 word hword

theorem setTarget_name {name : Bytes}
    (hname : ((cutAt '='.toUInt8 token).map Prod.fst).getD token = name)
    (hkeywords : ∀ word ∈ ["transaction", "constraints", "authorization", "characteristics",
      "role", "time"], equalFold token word = false) (hne : name ≠ [])
    (hidentifier : isIdentifier name) :
    setTarget token after = (lowerASCII name, .scopeSession) := by
  have hkey : ∀ {word : String}, word ∈ ["transaction", "constraints", "authorization",
      "characteristics", "role", "time"] → ¬ equalFold token word = true := fun hmem =>
    eq_false_iff.1 (hkeywords _ hmem)
  have hgood : ¬ (decide (name = []) || !isIdentifier name) = true := by simp [hne, hidentifier]
  rw [setTarget, if_neg (by rw [or_eq_true]; exact not_or.2 ⟨hkey (by simp), hkey (by simp)⟩),
    if_neg (hkey (by simp)), if_neg (hkey (by simp)), if_neg (hkey (by simp)),
    if_neg (hkey (by simp)), hname]
  exact if_neg hgood

theorem lowerASCII_of_equalFold (h : equalFold token word) :
    lowerASCII token = ascii word := by
  rw [equalFold, beq_iff_eq] at h
  exact h

theorem isIdentifier_of_equalFold (hword : isIdentifier (ascii word))
    (h : equalFold token word) : isIdentifier token := by
  rw [← lowerASCII_of_equalFold h, isIdentifier, all_eq_true] at hword
  rw [isIdentifier, all_eq_true]
  intro b hb
  have hlower := hword (lowerByte b) (mem_map_of_mem hb)
  rw [lowerByte] at hlower
  split at hlower
  case isTrue hupper => simp [hupper.1, hupper.2]
  case isFalse => exact hlower

theorem ne_nil_of_equalFold (hword : ascii word ≠ []) (h : equalFold token word) :
    token ≠ [] := by
  rintro rfl
  exact hword (lowerASCII_of_equalFold h).symm

theorem cutAt_identifier (h : isIdentifier token) : cutAt '='.toUInt8 token = none := by
  cases hcut : cutAt '='.toUInt8 token with
  | none => rfl
  | some =>
    rw [isIdentifier, all_eq_true] at h
    have hmem := h '='.toUInt8 (by rw [(cutAt_eq_some hcut).1]; simp)
    exact absurd hmem (by decide)

theorem parameterOf_name {name : Bytes} (h : equalFold name "names" = false) :
    parameterOf (lowerASCII name) = lowerASCII name :=
  if_neg fun heq => by
    rw [equalFold, beq_eq_false_iff_ne] at h
    exact h heq

theorem setTarget_of_read (h : SettingCommand.readAssignment token after = some c) :
    ∃ key, c.key? = some key ∧ c.parameter? = some (parameterOf key) ∧
      setTarget token after = (key, .scopeSession) := by
  have hzone : parameterOf (ascii "timezone") = ascii "timezone" := by decide
  have hrole : parameterOf (ascii "role") = ascii "role" := by decide
  unfold SettingCommand.readAssignment at h
  by_cases htime : equalFold token "time" = true
  · rw [if_pos htime] at h
    dsimp only at h
    split at h
    case isFalse => cases h
    case isTrue hword =>
        obtain rfl := Option.some.inj h
        refine ⟨ascii "timezone", rfl, congrArg some hzone.symm, ?_⟩
        rw [setTarget, equalFold_exclusive htime (by decide), equalFold_exclusive htime (by decide),
          equalFold_exclusive htime (by decide), equalFold_exclusive htime (by decide),
          equalFold_exclusive htime (by decide), htime, hword]
        rfl
  rw [if_neg htime] at h
  by_cases hnames : equalFold token "names" = true
  · rw [if_pos hnames] at h
    obtain rfl := Option.some.inj h
    have hidentifier := isIdentifier_of_equalFold (by decide) hnames
    refine ⟨ascii "names", rfl, rfl, ?_⟩
    rw [← lowerASCII_of_equalFold hnames]
    exact setTarget_name (by rw [cutAt_identifier hidentifier]; rfl)
      (equalFold_others hnames (by decide)) (ne_nil_of_equalFold (by decide) hnames) hidentifier
  rw [if_neg hnames] at h
  by_cases hrole' : equalFold token "role" = true
  · rw [if_pos hrole'] at h
    obtain rfl := Option.some.inj h
    refine ⟨ascii "role", rfl, congrArg some hrole.symm, ?_⟩
    rw [setTarget, equalFold_exclusive hrole' (by decide), equalFold_exclusive hrole' (by decide),
      equalFold_exclusive hrole' (by decide), equalFold_exclusive hrole' (by decide), hrole']
    rfl
  rw [if_neg hrole'] at h
  cases hcut : cutAt '='.toUInt8 token with
  | none =>
    rw [hcut] at h
    dsimp only at h
    split at h
    case isFalse => cases h
    case isTrue hparam =>
        obtain ⟨_, -, rfl⟩ := map_eq_some_iff.1 h
        obtain ⟨hne, hidentifier, -⟩ := isParameter_iff.1 hparam
        refine ⟨lowerASCII token, rfl, ?_, ?_⟩
        · exact congrArg some (parameterOf_name (isParameter_ne "names" hparam (by decide))).symm
        · refine setTarget_name (by rw [hcut]; rfl) ?_ hne hidentifier
          intro word hword
          apply isParameter_ne word hparam
          revert word
          decide
  | some cut =>
    obtain ⟨name, _⟩ := cut
    rw [hcut] at h
    dsimp only at h
    have hmem : '='.toUInt8 ∈ token := by
      rw [(cutAt_eq_some hcut).1]
      simp
    have hkeywords : ∀ word ∈ ["transaction", "constraints", "authorization",
        "characteristics", "role", "time"], equalFold token word = false := by
      intro word _
      apply equalFold_of_mem hmem
      revert word
      decide
    split at h
    case isTrue hname =>
        obtain rfl := Option.some.inj h
        refine ⟨ascii "role", rfl, congrArg some hrole.symm, ?_⟩
        rw [← lowerASCII_of_equalFold hname]
        exact setTarget_name (by rw [hcut]; rfl) hkeywords
          (ne_nil_of_equalFold (by decide) hname) (isIdentifier_of_equalFold (by decide) hname)
    case isFalse =>
        split at h
        case isFalse => cases h
        case isTrue hparam =>
            obtain rfl := Option.some.inj h
            obtain ⟨hne, hidentifier, -⟩ := isParameter_iff.1 hparam
            refine ⟨lowerASCII name, rfl, ?_, ?_⟩
            · exact congrArg some (parameterOf_name
                (isParameter_ne "names" hparam (by decide))).symm
            · exact setTarget_name (by rw [hcut]; rfl) hkeywords hne hidentifier

theorem pinReasonFor_verb (h : ∀ word ∈ ["listen", "lock", "declare", "create", "select", "with"],
      equalFold (nextToken text).1 word = false) : pinReasonFor text = 0 := by
  simp only [forall_mem_cons, not_mem_nil, false_implies, implies_true, and_true] at h
  obtain ⟨hlisten, hlock, hdeclare, hcreate, hselect, hwith⟩ := h
  simp [pinReasonFor, hlisten, hlock, hdeclare, hcreate, hselect, hwith]

theorem unpinReasonFor_verb (h : ∀ word ∈ ["discard", "unlisten", "close"],
      equalFold (nextToken text).1 word = false) : unpinReasonFor text = 0 := by
  simp only [forall_mem_cons, not_mem_nil, false_implies, implies_true, and_true] at h
  obtain ⟨hdiscard, hunlisten, hclose⟩ := h
  simp [unpinReasonFor, hdiscard, hunlisten, hclose]

theorem parseSet_notSet (h : equalFold (nextToken text).1 "set" = false) :
    (parseSet text).2 = .scopeNotSet := by
  rw [parseSet_eq, h]
  rfl

structure CommandTracked (c : SettingCommand) (text : Bytes) : Prop where
  pin : pinReasonFor text = 0
  unpin : unpinReasonFor text = if c = .discardAll then ~~~0 else 0
  set : ∀ key, c.key? = some key →
    parseSet text = (key, .scopeSession) ∧ c.parameter? = some (parameterOf key)
  other : c.key? = none → (parseSet text).2 = .scopeNotSet

theorem commandTracked_set (hverb : equalFold (nextToken text).1 "set")
    (hparse : parseSet text = setTarget token after)
    (hread : SettingCommand.readAssignment token after = some c) : CommandTracked c text := by
  obtain ⟨_, hkey, hparam, htarget⟩ := setTarget_of_read hread
  have hnot : c ≠ .discardAll := by
    rintro rfl
    cases hkey
  refine ⟨?_, ?_, ?_, ?_⟩
  · exact pinReasonFor_verb (equalFold_others hverb (by decide))
  · rw [if_neg hnot]
    exact unpinReasonFor_verb (equalFold_others hverb (by decide))
  · intro _ hkey'
    obtain rfl := Option.some.inj (hkey.symm.trans hkey')
    exact ⟨hparse.trans htarget, hparam⟩
  · intro hnone
    rw [hkey] at hnone
    cases hnone

theorem commandTracked_reset (hverb : equalFold (nextToken text).1 "reset")
    (hkey : c.key? = none) (hnot : c ≠ .discardAll) : CommandTracked c text := by
  refine ⟨?_, ?_, ?_, ?_⟩
  · exact pinReasonFor_verb (equalFold_others hverb (by decide))
  · rw [if_neg hnot]
    exact unpinReasonFor_verb (equalFold_others hverb (by decide))
  · intro _ hsome
    rw [hkey] at hsome
    cases hsome
  · intro _
    exact parseSet_notSet (equalFold_exclusive hverb (by decide))

theorem commandTracked_discardAll (hverb : equalFold (nextToken text).1 "discard")
    (hall : equalFold (nextToken (nextToken text).2).1 "all") :
    CommandTracked .discardAll text := by
  refine ⟨?_, ?_, ?_, ?_⟩
  · exact pinReasonFor_verb (equalFold_others hverb (by decide))
  · simp [unpinReasonFor, hverb, hall]
  · nofun
  · intro _
    exact parseSet_notSet (equalFold_exclusive hverb (by decide))

theorem readAssignment_local (h : equalFold token "local") :
    SettingCommand.readAssignment token after = none := by
  have hcut := cutAt_identifier (isIdentifier_of_equalFold (by decide) h)
  have hparam : SettingCommand.isParameter token = false := by
    by_contra hparam
    rw [Bool.not_eq_false] at hparam
    have hnot := isParameter_ne "local" hparam (by decide)
    rw [h] at hnot
    cases hnot
  rw [SettingCommand.readAssignment, equalFold_exclusive h (by decide),
    equalFold_exclusive h (by decide), equalFold_exclusive h (by decide), hcut]
  rw [hparam]
  rfl

theorem commandTracked_of_read (h : SettingCommand.read text = some c) : CommandTracked c text := by
  unfold SettingCommand.read at h
  dsimp only at h
  by_cases hset : equalFold (nextToken text).1 "set" = true
  · rw [if_pos hset] at h
    have hparse := parseSet_eq text
    rw [hset, Bool.not_true, if_neg Bool.false_ne_true] at hparse
    by_cases hsession : equalFold (nextToken (nextToken text).2).1 "session" = true
    · rw [if_pos hsession] at h hparse
      rw [if_neg (eq_false_iff.1 (equalFold_exclusive hsession (by decide)))] at hparse
      exact commandTracked_set hset hparse h
    · rw [if_neg hsession] at h hparse
      by_cases hlocal : equalFold (nextToken (nextToken text).2).1 "local" = true
      · rw [readAssignment_local hlocal] at h
        cases h
      · rw [if_neg hlocal] at hparse
        exact commandTracked_set hset hparse h
  rw [if_neg hset] at h
  by_cases hreset : equalFold (nextToken text).1 "reset" = true
  · rw [if_pos hreset] at h
    split at h
    · obtain rfl := Option.some.inj h
      exact commandTracked_reset hreset rfl (by decide)
    · split at h
      · obtain rfl := Option.some.inj h
        exact commandTracked_reset hreset rfl nofun
      · split at h
        · obtain rfl := Option.some.inj h
          exact commandTracked_reset hreset rfl nofun
        · cases h
  rw [if_neg hreset] at h
  split at h
  case isFalse => cases h
  case isTrue hdiscard =>
      split at h
      case isFalse => cases h
      case isTrue hall =>
          obtain rfl := Option.some.inj h
          exact commandTracked_discardAll hdiscard hall

end Pontus.Protocol
