import Pontus.Lib.Assignments
import Pontus.Lib.Run
import Pontus.Protocol.Proofs.SettingTexts

/-!
# Replaying settings

Pontus keeps the text of the last SET under each name and replays the texts in
any order.  That gives back the parameters the client had set as long as no
parameter was set under two names, and nothing that was set was taken back:
a RESET is not tracked, and DISCARD ALL forgets the reasons but not the texts.
-/

namespace Pontus.Protocol

open Lib ClientMessage PinReason
open Function (update)

def Recorded (state : SessionState) : Prop :=
  ∀ key text, state.vars.lookup key = some text →
    ∃ c, SettingCommand.read text = some c ∧ c.parameter? = some (parameterOf key)

def Unaliased (state : SessionState) : Prop :=
  ∀ key ∈ state.vars, ∀ key' ∈ state.vars, parameterOf key = parameterOf key' → key = key'

variable {V : Type}

structure Faithful (e : Engine V) (state : SessionState) (params : Bytes → V) : Prop where
  unaliased : Unaliased state
  recorded : ∀ key text c, state.vars.lookup key = some text →
    SettingCommand.read text = some c → params (parameterOf key) = e.value c
  untouched : ∀ name, (∀ key ∈ state.vars, parameterOf key ≠ name) → params name = e.fresh name

theorem Engine.exec_set (e : Engine V) (params : Bytes → V) (h : c.parameter? = some name) :
    e.exec params c = update params name (e.value c) := by
  cases c with
  | assign n v | timeZone v | names v | role v => rw [← Option.some.inj h]; rfl
  | reset n | resetAll | discardAll => cases h

def Engine.assignment (e : Engine V) (state : SessionState) (key : Bytes) : Option (Bytes × V) :=
  ((state.vars.lookup key).bind SettingCommand.read).map fun c => (parameterOf key, e.value c)

theorem Recorded.assignment (h : Recorded state) (e : Engine V) (hkey : key ∈ state.vars) :
    ∃ text c, state.vars.lookup key = some text ∧ SettingCommand.read text = some c ∧
      c.parameter? = some (parameterOf key) ∧
      e.assignment state key = some (parameterOf key, e.value c) := by
  obtain ⟨text, htext⟩ := isSome_iff_exists.1 (AList.lookup_isSome.2 hkey)
  obtain ⟨c, hread, hparam⟩ := h key text htext
  exact ⟨text, c, htext, hread, hparam, by rw [Engine.assignment, htext, bind_some, hread]; rfl⟩

def replayTexts (state : SessionState) (order : List Bytes) : List Bytes :=
  order.filterMap fun key => state.vars.lookup key

theorem Recorded.execTexts (h : Recorded state) (e : Engine V)
    (horder : ∀ key ∈ order, key ∈ state.vars) (params : Bytes → V) :
    e.execTexts params (replayTexts state order) =
      assignAll params (order.filterMap (e.assignment state)) := by
  induction order generalizing params with
  | nil => rfl
  | cons key _ ih =>
    obtain ⟨_, _, htext, hread, hparam, hassign⟩ :=
      h.assignment e (horder key (mem_cons_self ..))
    rw [replayTexts, List.filterMap_cons_some (f := fun key => state.vars.lookup key) htext,
      List.filterMap_cons_some hassign, Engine.execTexts, assignAll, hread, map_some,
      getD_some, e.exec_set params hparam]
    exact ih (fun k hk => horder k (mem_cons_of_mem _ hk)) _

theorem Recorded.map_fst {state : SessionState} (h : Recorded state) (e : Engine V)
    {order : List Bytes} (horder : ∀ key ∈ order, key ∈ state.vars) :
    (order.filterMap (e.assignment state)).map Prod.fst = order.map parameterOf := by
  induction order with
  | nil => rfl
  | cons key _ ih =>
    obtain ⟨_, _, -, -, -, hassign⟩ := h.assignment e (horder key (mem_cons_self ..))
    rw [List.filterMap_cons_some hassign, map_cons, map_cons,
      ih fun k hk => horder k (mem_cons_of_mem _ hk)]

/-- **Recorded texts replay to the parameters, in any order.** -/
theorem Faithful.replay {e : Engine V} {state : SessionState} (h : Faithful e state params)
    (hrecorded : Recorded state) {order : List Bytes} (horder : order.Perm state.vars.keys) :
    e.execTexts e.fresh (replayTexts state order) = params := by
  have hmem : ∀ {key}, key ∈ order ↔ key ∈ state.vars := fun {key} =>
    horder.mem_iff.trans AList.mem_keys.symm
  have hnodup : (order.map parameterOf).Nodup := by
    refine List.Nodup.map_on ?_ (horder.nodup_iff.2 state.vars.keys_nodup)
    intro key hkey key' hkey' heq
    exact h.unaliased key (hmem.1 hkey) key' (hmem.1 hkey') heq
  rw [hrecorded.execTexts e fun key hkey => hmem.1 hkey]
  rw [← hrecorded.map_fst e fun key hkey => hmem.1 hkey] at hnodup
  funext name
  by_cases hset : ∃ key ∈ state.vars, parameterOf key = name
  · obtain ⟨key, hkey, rfl⟩ := hset
    obtain ⟨text, c, htext, hread, -, hassign⟩ := hrecorded.assignment e hkey
    rw [h.recorded key text c htext hread]
    exact assignAll_of_mem hnodup (List.mem_filterMap.2 ⟨key, hmem.2 hkey, hassign⟩)
  · have hnot : ∀ key ∈ state.vars, parameterOf key ≠ name := fun key hkey heq =>
      hset ⟨key, hkey, heq⟩
    rw [h.untouched name hnot, assignAll_of_notMem]
    rw [hrecorded.map_fst e fun key hkey => hmem.1 hkey, mem_map]
    rintro ⟨key, hkey, heq⟩
    exact hnot key (hmem.1 hkey) heq

structure Configured (V : Type) where
  state : SessionState
  params : Bytes → V

def Configured.step (e : Engine V) (s : Configured V) (text : Bytes) : Option (Configured V) :=
  if (query text).wellFormed then
    (SettingCommand.read text).map fun c =>
      ⟨trackRequest s.state (query text).encode, e.exec s.params c⟩
  else none

def replayable (e : Engine V) (state : SessionState) (text : Bytes) : Bool :=
  match SettingCommand.read text with
  | some (.reset name) => state.vars.keys.all fun key => parameterOf key != name
  | some .resetAll => state.vars.keys.all fun key => e.survivesResetAll (parameterOf key)
  | some .discardAll => state.vars.keys.isEmpty
  | some c =>
    state.vars.keys.all fun key => c.parameter? != some (parameterOf key) || c.key? == some key
  | none => true

structure Configured.Inv (e : Engine V) (s : Configured V) : Prop where
  recorded : Recorded s.state
  faithful : s.state.pinnedBy.getLsbD 5 = true ∨ Faithful e s.state s.params

section
variable (state : SessionState) (h : CommandTracked c text)
include h

theorem repin_of_tracked (hnot : c ≠ .discardAll) : repin state text = state.pinnedBy := by
  rw [repin, h.pin, h.unpin, if_neg hnot, clear_zero, or_none]

theorem trackStatement_other (hkey : c.key? = none) :
    trackStatement state text = { state with pinnedBy := repin state text } := by
  have hscope := h.other hkey
  have htracked := trackStatement_tracked state text
  generalize trackStatement state text = after at htracked
  cases htracked with
  | passed => rfl
  | dropped hdropped =>
    rcases hdropped with hunknown | ⟨_, hset, -⟩
    · rw [hscope] at hunknown
      cases hunknown
    · rw [hset] at hscope
      cases hscope
  | recorded hset =>
    rw [hset] at hscope
    cases hscope

theorem trackStatement_set (hkey : c.key? = some key) :
    trackStatement state text = { state with pinnedBy := state.pinnedBy ||| pinUntrackedState } ∨
      trackStatement state text = { state with vars := state.vars.insert key text } := by
  obtain ⟨hparse, -⟩ := h.set key hkey
  have hnot : c ≠ .discardAll := by
    rintro rfl
    cases hkey
  have hrepin := repin_of_tracked state h hnot
  have htracked := trackStatement_tracked state text
  generalize trackStatement state text = after at htracked
  cases htracked with
  | passed hscope =>
    rw [hparse] at hscope
    rcases hscope with hscope | hscope <;> cases hscope
  | dropped =>
    rw [hrepin]
    exact .inl rfl
  | recorded hset =>
    obtain ⟨rfl, -⟩ := Prod.mk.inj (hparse.symm.trans hset)
    rw [hrepin]
    exact .inr rfl

end

section
variable {e : Engine V} {state : SessionState} {params : Bytes → V} {c : SettingCommand}
  {text key : Bytes}

theorem Recorded.insert (h : Recorded state) (hread : SettingCommand.read text = some c)
    (hparam : c.parameter? = some (parameterOf key)) :
    Recorded { state with vars := state.vars.insert key text } := by
  intro key' text' hlookup
  by_cases hsame : key' = key
  · subst hsame
    rw [AList.lookup_insert, some_inj] at hlookup
    exact ⟨c, by rw [← hlookup, hread], hparam⟩
  · rw [AList.lookup_insert_ne hsame] at hlookup
    exact h key' text' hlookup

theorem Faithful.insert (h : Faithful e state params) (hread : SettingCommand.read text = some c)
    (honly : ∀ other ∈ state.vars, parameterOf other = parameterOf key → other = key) :
    Faithful e { state with vars := state.vars.insert key text }
      (update params (parameterOf key) (e.value c)) := by
  have hapart : ∀ other ∈ state.vars, other ≠ key → parameterOf other ≠ parameterOf key :=
    fun other hother hne heq => hne (honly other hother heq)
  refine ⟨?_, ?_, ?_⟩
  · intro a ha b hb heq
    rw [AList.mem_insert] at ha hb
    rcases ha with rfl | ha
    · rcases hb with rfl | hb
      · rfl
      · exact (honly b hb heq.symm).symm
    · rcases hb with rfl | hb
      · exact honly a ha heq
      · exact h.unaliased a ha b hb heq
  · intro other text' c' hlookup hread'
    by_cases hsame : other = key
    · subst hsame
      rw [AList.lookup_insert, some_inj] at hlookup
      rw [← hlookup, hread, some_inj] at hread'
      rw [update_self, hread']
    · rw [AList.lookup_insert_ne hsame] at hlookup
      have hmem : other ∈ state.vars := AList.lookup_isSome.1 (by rw [hlookup]; rfl)
      rw [update_of_ne (hapart other hmem hsame)]
      exact h.recorded other text' c' hlookup hread'
  · intro name hname
    have hkey : parameterOf key ≠ name := hname key ((AList.mem_insert _).2 (.inl rfl))
    rw [update_of_ne hkey.symm]
    exact h.untouched name fun other hother => hname other ((AList.mem_insert _).2 (.inr hother))

theorem Faithful.reset (h : Faithful e state params)
    (hfree : ∀ other ∈ state.vars, parameterOf other ≠ name) :
    Faithful e state (update params name (e.fresh name)) := by
  refine ⟨h.unaliased, ?_, ?_⟩
  · intro other text c hlookup hread
    have hmem : other ∈ state.vars := AList.lookup_isSome.1 (by rw [hlookup]; rfl)
    rw [update_of_ne (hfree other hmem)]
    exact h.recorded other text c hlookup hread
  · intro name' hname'
    by_cases hsame : name' = name
    · rw [hsame, update_self]
    · rw [update_of_ne hsame]
      exact h.untouched name' hname'

theorem Faithful.resetAll (h : Faithful e state params)
    (hkeep : ∀ other ∈ state.vars, e.survivesResetAll (parameterOf other)) :
    Faithful e state fun name => if e.survivesResetAll name then params name else e.fresh name := by
  refine ⟨h.unaliased, ?_, ?_⟩
  · intro other text c hlookup hread
    have hmem : other ∈ state.vars := AList.lookup_isSome.1 (by rw [hlookup]; rfl)
    rw [hkeep other hmem, if_pos rfl]
    exact h.recorded other text c hlookup hread
  · intro name hname
    split
    · exact h.untouched name hname
    · rfl

theorem faithful_fresh (hnone : ∀ other, other ∉ state.vars) : Faithful e state e.fresh := by
  refine ⟨?_, ?_, fun _ _ => rfl⟩
  · intro a ha
    exact absurd ha (hnone a)
  · intro other _ _ hlookup
    have hmem : other ∈ state.vars := AList.lookup_isSome.1 (by rw [hlookup]; rfl)
    exact absurd hmem (hnone other)

theorem replayable_set (h : replayable e state text)
    (hread : SettingCommand.read text = some c) (hkey : c.key? = some key)
    (hparam : c.parameter? = some (parameterOf key)) :
    ∀ other ∈ state.vars, parameterOf other = parameterOf key → other = key := by
  have hall : (state.vars.keys.all fun other =>
      c.parameter? != some (parameterOf other) || c.key? == some other) = true := by
    rw [replayable, hread] at h
    cases c with
    | assign n v | timeZone v | names v | role v => exact h
    | reset n | resetAll | discardAll => cases hkey
  intro other hother heq
  have hone := all_eq_true.1 hall other (AList.mem_keys.1 hother)
  rw [hparam, hkey, heq, bne_self_eq_false, Bool.false_or, beq_iff_eq, some_inj] at hone
  exact hone.symm

/-- **One setting keeps the recorded texts a description of the parameters.** -/
theorem configured_step {s s' : Configured V} (hinv : s.Inv e)
    (hreplay : replayable e s.state text) (hstep : s.step e text = some s') : s'.Inv e := by
  rw [Configured.step] at hstep
  split at hstep
  case isFalse => cases hstep
  case isTrue hwell =>
      obtain ⟨c, hread, rfl⟩ := map_eq_some_iff.1 hstep
      have htracked := commandTracked_of_read hread
      rw [trackRequest_encode s.state hwell]
      dsimp only
      cases hkey : c.key? with
      | some key =>
        obtain ⟨-, hparam⟩ := htracked.set key hkey
        rw [e.exec_set s.params hparam]
        rcases trackStatement_set s.state htracked hkey with hdrop | hinsert
        · rw [hdrop]
          exact ⟨hinv.recorded, .inl (untracked_or _)⟩
        · rw [hinsert]
          refine ⟨hinv.recorded.insert hread hparam, hinv.faithful.imp id fun hfaithful => ?_⟩
          exact hfaithful.insert hread (replayable_set hreplay hread hkey hparam)
      | none =>
        rw [trackStatement_other s.state htracked hkey]
        refine ⟨hinv.recorded, ?_⟩
        rw [replayable, hread] at hreplay
        cases c with
        | assign n v | timeZone v | names v | role v => cases hkey
        | reset =>
          rw [repin_of_tracked s.state htracked nofun]
          refine hinv.faithful.imp id fun hfaithful => hfaithful.reset fun other hother => ?_
          exact bne_iff_ne.1 (all_eq_true.1 hreplay other (AList.mem_keys.1 hother))
        | resetAll =>
          rw [repin_of_tracked s.state htracked nofun]
          refine hinv.faithful.imp id fun hfaithful => hfaithful.resetAll fun other hother => ?_
          exact all_eq_true.1 hreplay other (AList.mem_keys.1 hother)
        | discardAll =>
          refine .inr (faithful_fresh fun other hother => ?_)
          have hmem := AList.mem_keys.1 hother
          rw [List.isEmpty_iff.1 hreplay] at hmem
          cases hmem

end

def Configured.start (e : Engine V) : Configured V := ⟨.empty, e.fresh⟩

theorem run_params (hrun : run (Configured.step e) s texts = some s') :
    s'.params = e.execTexts s.params texts := by
  induction texts generalizing s with
  | nil =>
    rw [run, some_inj] at hrun
    rw [← hrun, Engine.execTexts]
  | cons _ _ ih =>
    obtain ⟨_, hstep, hrest⟩ := run_cons.1 hrun
    rw [Configured.step] at hstep
    split at hstep
    case isFalse => cases hstep
    case isTrue =>
        obtain ⟨_, hread, rfl⟩ := map_eq_some_iff.1 hstep
        rw [Engine.execTexts, hread, ih hrest]
        rfl

/-- **The settings of an unpinned session replay in any order to the parameters
it had set,** when every statement was replayable where it was made. -/
theorem settings_replay (e : Engine V) (texts : List Bytes) (s : Configured V)
    (hreplay : Along (Configured.step e) (fun s text => replayable e s.state text = true)
      (.start e) texts)
    (hrun : run (Configured.step e) (.start e) texts = some s)
    (hunpinned : isPinned s.state = false) (order : List Bytes)
    (horder : order.Perm s.state.vars.keys) (name : Bytes) :
    e.execTexts e.fresh (replayTexts s.state order) name = e.execTexts e.fresh texts name := by
  have hinv : s.Inv e := by
    apply run_invariant _ _ hreplay hrun
    · intro _ text _ hinv hreplay hstep
      exact configured_step hinv hreplay hstep
    · refine ⟨?_, .inr (faithful_fresh fun _ => AList.notMem_empty _)⟩
      nofun
  rcases hinv.faithful with hpin | hfaithful
  · rw [isPinned_of_untracked hpin] at hunpinned
    cases hunpinned
  · rw [hfaithful.replay hinv.recorded horder, run_params hrun]
    rfl

/-- A backend that remembers the SET itself; RESET ALL does not touch a role. -/
def namingEngine : Engine (Option SettingCommand) where
  fresh := fun _ => none
  value := some
  survivesResetAll := (· == ascii "role")

def plainSettings : List Bytes :=
  [ascii "SET search_path = app", ascii "set session TimeZone to 'UTC'",
    ascii "SET TIME ZONE 'CET';", ascii "SET ROLE reader", ascii "RESET work_mem"]

theorem plain_settings_replay :
    ∃ s, run (Configured.step namingEngine) (.start namingEngine) plainSettings = some s ∧
      isPinned s.state = false ∧
      namingEngine.execTexts namingEngine.fresh (replayTexts s.state s.state.vars.keys)
          (ascii "timezone") =
        namingEngine.execTexts namingEngine.fresh plainSettings (ascii "timezone") := by
  obtain ⟨hsteps, s, hrun, hunpinned⟩ := exists_allowed_run (show
    Along (Configured.step namingEngine) (fun s text => replayable namingEngine s.state text = true)
      (.start namingEngine) plainSettings ∧
    (run (Configured.step namingEngine) (.start namingEngine) plainSettings).any
      (fun s => !isPinned s.state) = true by decide +kernel)
  rw [not_eq_true'] at hunpinned
  exact ⟨s, hrun, hunpinned, settings_replay namingEngine plainSettings s hsteps hrun
    hunpinned _ (List.Perm.refl _) _⟩

theorem reset_setting_replayed :
    ∃ s, run (Configured.step namingEngine) (.start namingEngine)
        [ascii "SET work_mem = '1MB'", ascii "RESET work_mem"] = some s ∧
      isPinned s.state = false ∧ ∃ order : List Bytes, order.Perm s.state.vars.keys ∧
      namingEngine.execTexts namingEngine.fresh (replayTexts s.state order) (ascii "work_mem") ≠
        namingEngine.execTexts namingEngine.fresh
          [ascii "SET work_mem = '1MB'", ascii "RESET work_mem"] (ascii "work_mem") := by
  obtain ⟨s, hrun, h⟩ := exists_run (show (run (Configured.step namingEngine)
    (.start namingEngine) [ascii "SET work_mem = '1MB'", ascii "RESET work_mem"]).any
      (fun s => !isPinned s.state &&
        namingEngine.execTexts namingEngine.fresh (replayTexts s.state s.state.vars.keys)
            (ascii "work_mem") !=
          namingEngine.execTexts namingEngine.fresh
            [ascii "SET work_mem = '1MB'", ascii "RESET work_mem"] (ascii "work_mem")) = true
    by decide +kernel)
  rw [and_eq_true, not_eq_true', bne_iff_ne] at h
  exact ⟨s, hrun, h.1, _, List.Perm.refl _, h.2⟩

end Pontus.Protocol
