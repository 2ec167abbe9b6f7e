import Pontus.Protocol.Proofs.Tracking

/-!
# Whole sessions, statement by statement

`Exchange.send` is the session after one request, however it carried its
statements; `Statement.sendAlone` is the session after one statement in a Query
of its own.  A session whose requests each record the effect of their leading
statement, and have no other, ends with the same settings and reasons either
way.
-/

namespace Pontus.Protocol

open Lib PinReason

variable {state : SessionState} {ex : Exchange}

theorem Carries.sendable {frames : List Frame} {texts : List Bytes} (h : Carries frames texts) :
    ∀ text ∈ texts, 0 ∉ text ∧ 4 + (text.length + 1) < 2 ^ 32 := by
  induction h with
  | nil => simp
  | @query f _ _ _ _ hbody hnul _ ih =>
    intro text htext
    rcases mem_append.1 htext with htext | htext
    · obtain ⟨hmem, _⟩ := joinStatements_mem htext
      have hsize := f.size
      rw [hbody, length_append, List.length_singleton] at hsize
      exact ⟨fun h0 => hnul (hmem 0 h0), by omega⟩
    · exact ih text htext
  | @extended p _ _ _ _ _ _ _ hbody _ htext _ _ _ _ ih =>
    intro text' htext'
    rcases mem_cons.1 htext' with rfl | htext'
    · have hsize := p.size
      rw [hbody] at hsize
      simp only [length_append, length_cons] at hsize
      exact ⟨htext, by omega⟩
    · exact ih text' htext'
  | other _ _ ih => exact ih

theorem Carries.lone {f : Frame} (h : Carries [f] [text]) (hq : f.tag = feQuery) :
    f.body = text ++ [0] ∧ 0 ∉ text := by
  generalize hframes : [f] = frames at h
  generalize htexts : [text] = texts at h
  cases h with
  | nil => simp at hframes
  | @query _ _ _ _ _ hbody hnul hrest =>
    obtain ⟨rfl, rfl⟩ := hframes
    cases hrest
    rw [append_nil] at htexts
    rw [← htexts] at hbody hnul
    exact ⟨hbody, hnul⟩
  | extended hp =>
    simp only [List.cons.injEq] at hframes
    rw [← hframes.1, hq] at hp
    exact absurd hp (by decide)
  | other hf =>
    simp only [List.cons.injEq] at hframes
    rw [← hframes.1] at hf
    exact absurd hq hf.1

def Unlocked (state : SessionState) : Prop := state.pinnedBy &&& transactionScoped = 0

theorem clear_of_unlocked (h : Unlocked state) :
    state.pinnedBy.clear transactionScoped = state.pinnedBy := by
  unfold PinReason.clear
  apply BitVec.eq_of_getLsbD_eq
  intro i hi
  have hbit := congrArg (fun r : PinReason => r.getLsbD i) h
  simp only [BitVec.getLsbD_and] at hbit
  rw [BitVec.getLsbD_and, BitVec.getLsbD_not]
  have hzero : (0 : PinReason).getLsbD i = false := BitVec.getLsbD_zero
  cases hs : state.pinnedBy.getLsbD i with
  | false => rfl
  | true =>
    rw [hs, Bool.true_and] at hbit
    rw [hbit]
    simp [hi]

theorem settle_unlocked (h : Unlocked state) (status : TransactionState) :
    (settleTransaction state status).pinnedBy = state.pinnedBy ∧
      (settleTransaction state status).vars = state.vars ∧
      (settleTransaction state status).txState = status := by
  unfold settleTransaction
  by_cases hend : status = .stateIdle ∧ state.txState ≠ .stateIdle
  · rw [if_pos hend]
    exact ⟨clear_of_unlocked h, rfl, rfl⟩
  · rw [if_neg hend]
    exact ⟨rfl, rfl, rfl⟩

theorem clear_and_eq_zero {r r' other mask : PinReason} (h : r &&& mask = 0)
    (h' : r' &&& mask = 0) : (r ||| r').clear other &&& mask = 0 := by
  unfold PinReason.clear
  rw [BitVec.and_assoc, BitVec.and_comm (~~~other), ← BitVec.and_assoc,
    BitVec.and_or_distrib_right, h, h']
  simp

theorem Unlocked.trackStatement (h : Unlocked state) {query : Bytes}
    (hlock : pinReasonFor query ≠ pinLock) : Unlocked (trackStatement state query) := by
  have hpin : pinReasonFor query &&& transactionScoped = 0 := by
    have hmem := pinReasonFor_mem query
    simp only [mem_cons, not_mem_nil, or_false] at hmem
    rcases hmem with h | h | h | h | h | h
    · rw [h]; rfl
    · rw [h]; rfl
    · exact absurd h hlock
    · rw [h]; rfl
    · rw [h]; rfl
    · rw [h]; rfl
  have hbase : (state.pinnedBy ||| pinReasonFor query).clear (unpinReasonFor query) &&&
      transactionScoped = 0 := clear_and_eq_zero h hpin
  have huntracked : ∀ r : PinReason, r &&& transactionScoped = 0 →
      (r ||| pinUntrackedState) &&& transactionScoped = 0 := by
    intro _ hr
    rw [BitVec.and_or_distrib_right, hr]
    decide
  unfold Protocol.trackStatement Unlocked
  dsimp only
  repeat' split
  · exact hbase
  · exact hbase
  · exact huntracked _ hbase
  · exact huntracked _ hbase
  · exact hbase

theorem Statement.sendAlone_tracking (state : SessionState) {s : Statement} (hnul : 0 ∉ s.text)
    (hsize : 4 + (s.text.length + 1) < 2 ^ 32) :
    SameTracking (s.sendAlone state) (settleTransaction (trackStatement state s.text) s.status) :=
  (simpleQuery_tracking state hnul hsize).settle s.status

theorem foldl_sendAlone_neutral (hunlocked : Unlocked state) {statements : List Statement}
    (hneutral : ∀ s ∈ statements, Neutral s.text)
    (hsend : ∀ s ∈ statements, 0 ∉ s.text ∧ 4 + (s.text.length + 1) < 2 ^ 32) :
    (statements.foldl (fun st s => s.sendAlone st) state).pinnedBy = state.pinnedBy ∧
      (statements.foldl (fun st s => s.sendAlone st) state).vars = state.vars ∧
      (statements.foldl (fun st s => s.sendAlone st) state).txState =
        (statements.getLast?.map Statement.status).getD state.txState := by
  induction statements generalizing state with
  | nil => exact ⟨rfl, rfl, rfl⟩
  | cons s statements ih =>
    obtain ⟨hnul, hsize⟩ := hsend s (by simp)
    have hsame := s.sendAlone_tracking state hnul hsize
    rw [trackStatement_neutral state (hneutral s (by simp))] at hsame
    obtain ⟨hpin, hvars, htransaction⟩ := settle_unlocked hunlocked s.status
    have hpin' := hsame.pinnedBy.trans hpin
    have hnext : Unlocked (s.sendAlone state) := by
      unfold Unlocked
      rw [hpin']
      exact hunlocked
    obtain ⟨hp, hv, ht⟩ := ih hnext (fun r hr => hneutral r (by simp [hr]))
      (fun r hr => hsend r (by simp [hr]))
    refine ⟨hp.trans hpin', hv.trans (hsame.vars.trans hvars), ht.trans ?_⟩
    cases statements with
    | nil => rfl
    | cons => rw [List.getLast?_cons_cons, List.getLast?_cons]; rfl

namespace Exchange

def Lone (ex : Exchange) : Prop := ∃ f s, ex.frames = [f] ∧ f.tag = feQuery ∧ ex.statements = [s]

/-- Whatever the request carries, only its leading statement has an effect to
record, and the first message is recorded as that statement would be. -/
structure LeadingOnly (state : SessionState) (ex : Exchange) : Prop where
  unlocked : Unlocked state
  noLock : ∀ s ∈ ex.statements, pinReasonFor s.text ≠ pinLock
  room : ex.data.head? = some 'P'.toUInt8 → state.stmts.keys.length < maxSessionStmts
  effects :
    (ex.data.head? = some 'Q'.toUInt8 ∧ ∃ s rest, ex.statements = s :: rest ∧
        SameEffect (extractQueryBytes ex.data) s.text ∧ ∀ r ∈ rest, Neutral r.text) ∨
      ex.data.head? ≠ some 'Q'.toUInt8 ∧ ∀ s ∈ ex.statements, Neutral s.text

theorem sendable (ex : Exchange) :
    ∀ s ∈ ex.statements, 0 ∉ s.text ∧ 4 + (s.text.length + 1) < 2 ^ 32 := by
  intro s hs
  exact ex.carries.sendable s.text (mem_map_of_mem hs)

theorem lone_tracking (state : SessionState) (h : ex.Lone) :
    SameTracking (ex.send state) (ex.statements.foldl (fun st s => s.sendAlone st) state) := by
  obtain ⟨f, s, hframes, hq, hstatements⟩ := h
  have hcarries := ex.carries
  rw [hframes, hstatements] at hcarries
  obtain ⟨hbody, hnul⟩ := hcarries.lone hq
  obtain ⟨_, hlast, hreturned⟩ := ex.settled
  rw [hstatements, List.getLast?_singleton, some_inj] at hlast
  subst hlast
  have hdata : ex.data = f.encode ++ [] := by
    rw [Exchange.data, hframes]
    rfl
  obtain ⟨hpin, hvars, htransaction⟩ := trackRequest_tracking state ex.data
    (by intro h; rw [hdata, head_encode, hq] at h; exact absurd h (by decide))
  rw [hdata, trackSessionState_query state [] hq hbody hnul] at hpin hvars htransaction
  have hsent : SameTracking (ex.send state)
      (settleTransaction (trackStatement state s.text) s.status) := by
    rw [Exchange.send, hreturned, hdata]
    exact SameTracking.settle ⟨hpin, hvars, htransaction⟩ s.status
  have halone := s.sendAlone_tracking state hnul (ex.sendable s (by rw [hstatements]; simp)).2
  rw [hstatements, foldl_cons, foldl_nil]
  exact ⟨hsent.pinnedBy.trans halone.pinnedBy.symm, hsent.vars.trans halone.vars.symm,
    hsent.txState.trans halone.txState.symm⟩

theorem trackSessionState_leading (state : SessionState) {data : Bytes}
    (hq : data.head? = some 'Q'.toUInt8) :
    trackSessionState state data = trackStatement state (extractQueryBytes data) := by
  unfold trackSessionState
  by_cases hshort : data.length < 6
  · rw [if_pos (.inl hshort), extractQueryBytes, if_pos hshort,
      trackStatement_neutral state neutral_nil]
  · rw [if_neg (by rw [not_or, not_not]; exact ⟨hshort, hq⟩)]
    by_cases hempty : extractQueryBytes data = []
    · rw [if_pos hempty, hempty, trackStatement_neutral state neutral_nil]
    · rw [if_neg hempty]

theorem tracking_of_recorded {recorded : SessionState}
    (hroom : ex.data.head? = some 'P'.toUInt8 → state.stmts.keys.length < maxSessionStmts)
    (hrecorded : trackSessionState state ex.data = recorded) (hunlocked : Unlocked recorded)
    (halone : (ex.statements.foldl (fun st s => s.sendAlone st) state).pinnedBy =
        recorded.pinnedBy ∧
      (ex.statements.foldl (fun st s => s.sendAlone st) state).vars = recorded.vars ∧
      (ex.statements.foldl (fun st s => s.sendAlone st) state).txState = ex.returned) :
    SameTracking (ex.send state) (ex.statements.foldl (fun st s => s.sendAlone st) state) := by
  obtain ⟨hpin, hvars, -⟩ := trackRequest_tracking state ex.data hroom
  rw [hrecorded] at hpin hvars
  have hunlocked' : Unlocked (trackRequest state ex.data) := by
    unfold Unlocked
    rw [hpin]
    exact hunlocked
  obtain ⟨hpin', hvars', htransaction'⟩ := settle_unlocked hunlocked' ex.returned
  exact ⟨(hpin'.trans hpin).trans halone.1.symm, (hvars'.trans hvars).trans halone.2.1.symm,
    htransaction'.trans halone.2.2.symm⟩

theorem leadingOnly_tracking (h : ex.LeadingOnly state) :
    SameTracking (ex.send state) (ex.statements.foldl (fun st s => s.sendAlone st) state) := by
  have hsend := ex.sendable
  obtain ⟨_, hlast, hreturned⟩ := ex.settled
  rcases h.effects with ⟨hq, s, rest, hstatements, heffect, hneutral⟩ | ⟨hq, hneutral⟩
  · -- The leading statement is recorded; the others have nothing to record.
    have hlock : pinReasonFor s.text ≠ pinLock := h.noLock s (by rw [hstatements]; simp)
    have hunlocked := h.unlocked.trackStatement hlock
    rw [hstatements] at hsend hlast
    obtain ⟨hnul, hsize⟩ := hsend s (by simp)
    have halone := s.sendAlone_tracking state hnul hsize
    obtain ⟨hpin, hvars, htransaction⟩ := settle_unlocked hunlocked s.status
    have hnext : Unlocked (s.sendAlone state) := by
      unfold Unlocked
      rw [halone.pinnedBy, hpin]
      exact hunlocked
    obtain ⟨hp, hv, ht⟩ := foldl_sendAlone_neutral hnext hneutral
      (fun r hr => hsend r (by simp [hr]))
    have hrecorded : trackSessionState state ex.data = trackStatement state s.text := by
      rw [trackSessionState_leading state hq, trackStatement_sameEffect state heffect]
    apply tracking_of_recorded h.room hrecorded hunlocked
    · rw [hstatements, foldl_cons]
      refine ⟨hp.trans (halone.pinnedBy.trans hpin), hv.trans (halone.vars.trans hvars),
        ht.trans ?_⟩
      rw [halone.txState, htransaction, hreturned]
      rw [List.getLast?_cons, some_inj] at hlast
      rw [← hlast]
      cases rest.getLast? <;> rfl
  · obtain ⟨hp, hv, ht⟩ := foldl_sendAlone_neutral h.unlocked hneutral hsend
    apply tracking_of_recorded h.room (trackSessionState_other state hq) h.unlocked
    refine ⟨hp, hv, ?_⟩
    rw [ht, hlast, hreturned]
    rfl

end Exchange

/-- The tracked part of one session carried over to another in agreement with
it; prepared statements play no part in a statement sent alone. -/
theorem SameTracking.sendAlone (h : SameTracking a b) {s : Statement} (hnul : 0 ∉ s.text)
    (hsize : 4 + (s.text.length + 1) < 2 ^ 32) : SameTracking (s.sendAlone a) (s.sendAlone b) := by
  have ha := s.sendAlone_tracking a hnul hsize
  have hb := s.sendAlone_tracking b hnul hsize
  have hab := (h.trackStatement s.text).settle s.status
  exact ha.trans (hab.trans ⟨hb.pinnedBy.symm, hb.vars.symm, hb.txState.symm⟩)

theorem SameTracking.foldl_sendAlone (h : SameTracking a b) {statements : List Statement}
    (hsend : ∀ s ∈ statements, 0 ∉ s.text ∧ 4 + (s.text.length + 1) < 2 ^ 32) :
    SameTracking (statements.foldl (fun st s => s.sendAlone st) a)
      (statements.foldl (fun st s => s.sendAlone st) b) := by
  induction statements generalizing a b with
  | nil => exact h
  | cons s _ ih =>
    obtain ⟨hnul, hsize⟩ := hsend s (by simp)
    exact ih (h.sendAlone hnul hsize) (fun r hr => hsend r (by simp [hr]))

def RecordsEachEffect : SessionState → List Exchange → Prop
  | _, [] => True
  | state, ex :: rest => (ex.Lone ∨ ex.LeadingOnly state) ∧ RecordsEachEffect (ex.send state) rest

/-- **Tracking does not depend on the carrier, where each effect is recorded.** -/
theorem tracking_independent_of_carrier (state : SessionState) (session : List Exchange)
    (h : RecordsEachEffect state session) :
    let carried := session.foldl (fun st ex => ex.send st) state
    let alone := (session.flatMap Exchange.statements).foldl (fun st s => s.sendAlone st) state
    carried.pinnedBy = alone.pinnedBy ∧ carried.vars = alone.vars := by
  have hrun : ∀ other, SameTracking state other →
      SameTracking (session.foldl (fun st ex => ex.send st) state)
        ((session.flatMap Exchange.statements).foldl (fun st s => s.sendAlone st) other) := by
    induction session generalizing state with
    | nil => exact fun _ hsame => hsame
    | cons ex _ ih =>
      intro _ hsame
      have hstep : SameTracking (ex.send state)
          (ex.statements.foldl (fun st s => s.sendAlone st) state) := by
        rcases h.1 with hlone | hleading
        · exact Exchange.lone_tracking state hlone
        · exact Exchange.leadingOnly_tracking hleading
      have hother := hsame.foldl_sendAlone ex.sendable
      rw [foldl_cons, flatMap_cons, foldl_append]
      exact ih (ex.send state) h.2 _ (hstep.trans hother)
  have hend := hrun state (SameTracking.refl state)
  exact ⟨hend.pinnedBy, hend.vars⟩

def listenQuery : Frame := ⟨feQuery, ascii "LISTEN c" ++ [0], by decide⟩

def listenAlone : Exchange where
  frames := [listenQuery]
  statements := [⟨ascii "LISTEN c", .stateIdle⟩]
  returned := .stateIdle
  carries := (.query rfl rfl (by decide) .nil : Carries [listenQuery] ([ascii "LISTEN c"] ++ []))
  settled := ⟨_, rfl, rfl⟩

def extendedFrames (text : Bytes) (hsize : 4 + (0 :: (text ++ [0, 0, 0])).length < 2 ^ 32) :
    List Frame :=
  [⟨feParse, 0 :: (text ++ [0, 0, 0]), hsize⟩, ⟨feBind, [0, 0, 0, 0, 0, 0, 0, 0], by decide⟩,
    ⟨feExecute, [0, 0, 0, 0, 0], by decide⟩, ⟨feSync, [], Frame.size_nil⟩]

theorem carries_extendedFrames (text : Bytes)
    (hsize : 4 + (0 :: (text ++ [0, 0, 0])).length < 2 ^ 32) (hnul : 0 ∉ text) :
    Carries (extendedFrames text hsize) [text] := by
  have hmids : ∀ m ∈ [(⟨feBind, [0, 0, 0, 0, 0, 0, 0, 0], by decide⟩ : Frame),
      ⟨feExecute, [0, 0, 0, 0, 0], by decide⟩], m.tag ≠ feQuery ∧ m.tag ≠ feParse := by decide
  have hbody : 0 :: (text ++ [0, 0, 0]) = [] ++ 0 :: (text ++ 0 :: [0, 0]) := rfl
  exact .extended rfl hbody (by simp) hnul hmids (by decide) (by decide) (.other (by decide) .nil)

def selectExtended : Exchange where
  frames := extendedFrames (ascii "SELECT 1") (by decide)
  statements := [⟨ascii "SELECT 1", .stateIdle⟩]
  returned := .stateIdle
  carries := carries_extendedFrames _ _ (by decide)
  settled := ⟨_, rfl, rfl⟩

def listenExtended : Exchange where
  frames := extendedFrames (ascii "LISTEN c") (by decide)
  statements := [⟨ascii "LISTEN c", .stateIdle⟩]
  returned := .stateIdle
  carries := carries_extendedFrames _ _ (by decide)
  settled := ⟨_, rfl, rfl⟩

theorem listen_then_select_tracked :
    RecordsEachEffect .empty [listenAlone, selectExtended] ∧
      ([listenAlone, selectExtended].foldl (fun st ex => Exchange.send st ex)
        SessionState.empty).pinnedBy = pinListen := by
  have hrecords : RecordsEachEffect .empty [listenAlone, selectExtended] := by
    refine ⟨.inl ⟨_, _, rfl, rfl, rfl⟩, .inr ⟨?_, by decide, by decide, .inr ?_⟩, trivial⟩
    · unfold Unlocked
      decide
    refine ⟨by decide, ?_⟩
    intro _ hs
    rw [mem_singleton.1 hs]
    exact ⟨by decide, by decide, by decide⟩
  refine ⟨hrecords, ?_⟩
  rw [(tracking_independent_of_carrier .empty [listenAlone, selectExtended] hrecords).1]
  decide

theorem listen_untracked_when_extended :
    (listenExtended.send .empty).pinnedBy = 0 ∧
      (listenExtended.statements.foldl (fun st s => s.sendAlone st) SessionState.empty).pinnedBy =
        pinListen := by
  decide

end Pontus.Protocol
