import Pontus.Protocol.ClientMessages
import Pontus.Protocol.Tracking

/-!
# Tracking and the carrier of a statement

A client may send a statement alone in a simple Query, among others in one
Query text, or through Parse, Bind and Execute in a pipelined buffer.  The
trackers read the first message only, so what they record is what they would
have recorded of the statements sent one by one exactly as long as nothing but
the leading statement has an effect to record.
-/

namespace Pontus.Protocol

open Lib PinReason

theorem clear_zero (r : PinReason) : r.clear 0 = r := by
  exact BitVec.and_allOnes

theorem or_none (r : PinReason) : r ||| 0 = r := BitVec.or_zero

theorem pinReasonFor_mem (query : Bytes) :
    pinReasonFor query ∈ [0, pinListen, pinLock, pinCursor, pinTempTable, pinAdvisoryLock] := by
  unfold pinReasonFor
  repeat' split
  all_goals decide

structure Neutral (query : Bytes) : Prop where
  pin : pinReasonFor query = 0
  unpin : unpinReasonFor query = 0
  scope : (parseSet query).2 = .scopeNotSet ∨ (parseSet query).2 = .scopeTransaction

theorem trackStatement_neutral (state : SessionState) (h : Neutral query) :
    trackStatement state query = state := by
  have hpin : (state.pinnedBy ||| pinReasonFor query).clear (unpinReasonFor query) =
      state.pinnedBy := by
    rw [h.pin, h.unpin, clear_zero, or_none]
  unfold trackStatement
  rw [hpin]
  rcases hset : parseSet query with ⟨_, scope⟩
  have hscope := h.scope
  rw [hset] at hscope
  rcases hscope with hscope | hscope
  · rw [show scope = .scopeNotSet from hscope]
  · rw [show scope = .scopeTransaction from hscope]

/-- A statement text touches neither the prepared statements nor the
transaction state. -/
theorem trackStatement_frame (state : SessionState) (query : Bytes) :
    (trackStatement state query).stmts = state.stmts ∧
      (trackStatement state query).txState = state.txState := by
  unfold trackStatement
  dsimp only
  repeat' split
  all_goals exact ⟨rfl, rfl⟩

theorem neutral_nil : Neutral [] := ⟨by decide, by decide, by decide⟩

structure SameEffect (query query' : Bytes) : Prop where
  pin : pinReasonFor query = pinReasonFor query'
  unpin : unpinReasonFor query = unpinReasonFor query'
  set : parseSet query = parseSet query'
  text : (parseSet query').2 = .scopeSession → query = query'

theorem trackStatement_sameEffect (state : SessionState) (h : SameEffect query query') :
    trackStatement state query = trackStatement state query' := by
  unfold trackStatement
  rw [h.pin, h.unpin, h.set]
  rcases hset : parseSet query' with ⟨_, scope⟩
  cases scope with
  | scopeSession => rw [h.text (by rw [hset])]
  | scopeTransaction | scopeUnknown | scopeNotSet => rfl

theorem messageBody_encode (f : Frame) (rest : Bytes) :
    messageBody (f.encode ++ rest) = some f.body := by
  have hlen := f.beU32_length
  rw [Frame.encode_eq]
  simp only [messageBody, cons_append]
  rw [hlen, if_neg, Nat.add_sub_cancel_left, take_left]
  simp only [length_cons, length_append]
  omega

theorem head_encode (f : Frame) (rest : Bytes) : (f.encode ++ rest).head? = some f.tag := rfl

theorem length_encode_append (f : Frame) (rest : Bytes) (hbody : f.body ≠ []) :
    ¬(f.encode ++ rest).length < 6 := by
  have hpos := length_pos_iff.2 hbody
  rw [length_append, Frame.length_encode]
  omega

theorem trimTerminator_append (hnul : 0 ∉ text) (rest : Bytes) :
    trimTerminator (text ++ 0 :: rest) = text := by
  rw [trimTerminator, cutAt_append rest hnul]
  rfl

theorem extractQueryBytes_query {f : Frame} (rest : Bytes) (hq : f.tag = feQuery)
    (hbody : f.body = text ++ [0]) (hnul : 0 ∉ text) :
    extractQueryBytes (f.encode ++ rest) = text := by
  have hlong := length_encode_append f rest (by rw [hbody]; simp)
  rw [extractQueryBytes, if_neg hlong, messageBody_encode]
  dsimp only
  rw [head_encode, if_pos (by rw [hq]; rfl), hbody, trimTerminator_append hnul]

section
variable (state : SessionState)

theorem trackSessionState_query {f : Frame} (rest : Bytes) (hq : f.tag = feQuery)
    (hbody : f.body = text ++ [0]) (hnul : 0 ∉ text) :
    trackSessionState state (f.encode ++ rest) = trackStatement state text := by
  have hlong := length_encode_append f rest (by rw [hbody]; simp)
  have hhead : ¬((f.encode ++ rest).length < 6 ∨
      (f.encode ++ rest).head? ≠ some 'Q'.toUInt8) := by
    rw [head_encode, hq]
    intro h
    rcases h with h | h
    · exact hlong h
    · exact h rfl
  rw [trackSessionState, if_neg hhead, extractQueryBytes_query rest hq hbody hnul]
  by_cases htext : text = []
  · rw [if_pos htext, htext, trackStatement_neutral state neutral_nil]
  · rw [if_neg htext]

theorem trackSessionState_other (h : data.head? ≠ some 'Q'.toUInt8) :
    trackSessionState state data = state := by
  rw [trackSessionState, if_pos (.inr h)]

theorem trackSessionState_stmts (data : Bytes) :
    (trackSessionState state data).stmts = state.stmts := by
  unfold trackSessionState
  dsimp only
  repeat' split
  · rfl
  · rfl
  · exact (trackStatement_frame state _).1

theorem trackPreparedStatement_tracking (data : Bytes)
    (hfits : data.head? = some 'P'.toUInt8 → state.stmts.keys.length < maxSessionStmts) :
    (trackPreparedStatement state data).pinnedBy = state.pinnedBy ∧
      (trackPreparedStatement state data).vars = state.vars ∧
      (trackPreparedStatement state data).txState = state.txState := by
  unfold trackPreparedStatement
  by_cases hparse : data.length < 6 ∨ data.head? ≠ some 'P'.toUInt8
  · rw [if_pos hparse]
    exact ⟨rfl, rfl, rfl⟩
  · rw [if_neg hparse]
    rw [not_or, not_not] at hparse
    have hroom := hfits hparse.2
    split
    · exact ⟨rfl, rfl, rfl⟩
    · split
      · exact ⟨rfl, rfl, rfl⟩
      · rw [if_neg (by omega)]
        exact ⟨rfl, rfl, rfl⟩

theorem forgetPreparedStatement_tracking (data : Bytes) :
    (forgetPreparedStatement state data).pinnedBy = state.pinnedBy ∧
      (forgetPreparedStatement state data).vars = state.vars ∧
      (forgetPreparedStatement state data).txState = state.txState := by
  unfold forgetPreparedStatement
  repeat' split
  all_goals exact ⟨rfl, rfl, rfl⟩

theorem trackRequest_tracking (data : Bytes)
    (hfits : data.head? = some 'P'.toUInt8 → state.stmts.keys.length < maxSessionStmts) :
    (trackRequest state data).pinnedBy = (trackSessionState state data).pinnedBy ∧
      (trackRequest state data).vars = (trackSessionState state data).vars ∧
      (trackRequest state data).txState = (trackSessionState state data).txState := by
  obtain ⟨hpin, hvars, htransaction⟩ := trackPreparedStatement_tracking
    (trackSessionState state data) data
    (by rw [trackSessionState_stmts]; exact hfits)
  obtain ⟨hpin', hvars', htransaction'⟩ := forgetPreparedStatement_tracking
    (trackPreparedStatement (trackSessionState state data) data) data
  exact ⟨hpin'.trans hpin, hvars'.trans hvars, htransaction'.trans htransaction⟩

end

structure Statement where
  text : Bytes
  status : TransactionState

def joinStatements : List Bytes → Bytes
  | [] => []
  | [text] => text
  | text :: texts => text ++ ';'.toUInt8 :: joinStatements texts

theorem joinStatements_mem (h : text ∈ texts) :
    (∀ b ∈ text, b ∈ joinStatements texts) ∧ text.length ≤ (joinStatements texts).length := by
  induction texts with
  | nil => simp at h
  | cons _ texts ih =>
    cases texts with
    | nil =>
      rw [mem_singleton] at h
      rw [h]
      exact ⟨fun b hb => hb, Nat.le_refl _⟩
    | cons =>
      rw [joinStatements]
      · rcases mem_cons.1 h with rfl | h
        · refine ⟨fun b hb => mem_append_left _ hb, ?_⟩
          rw [length_append]
          omega
        · obtain ⟨hmem, _⟩ := ih h
          refine ⟨fun b hb => mem_append_right _ (mem_cons_of_mem _ (hmem b hb)), ?_⟩
          rw [length_append, length_cons]
          omega
      · simp

inductive Carries : List Frame → List Bytes → Prop
  | nil : Carries [] []
  | query {f : Frame} {rest : List Frame} {texts stmts : List Bytes} (hq : f.tag = feQuery)
      (hbody : f.body = joinStatements texts ++ [0]) (hnul : 0 ∉ joinStatements texts)
      (h : Carries rest stmts) : Carries (f :: rest) (texts ++ stmts)
  | extended {p : Frame} {mids rest : List Frame} {name text types : Bytes} {stmts : List Bytes}
      (hp : p.tag = feParse) (hbody : p.body = name ++ 0 :: (text ++ 0 :: types))
      (hname : 0 ∉ name) (htext : 0 ∉ text)
      (hmids : ∀ m ∈ mids, m.tag ≠ feQuery ∧ m.tag ≠ feParse)
      (hbind : ∃ m ∈ mids, m.tag = feBind) (hexecute : ∃ m ∈ mids, m.tag = feExecute)
      (h : Carries rest stmts) : Carries (p :: (mids ++ rest)) (text :: stmts)
  | other {f : Frame} {rest : List Frame} {stmts : List Bytes}
      (hf : f.tag ≠ feQuery ∧ f.tag ≠ feParse) (h : Carries rest stmts) :
      Carries (f :: rest) stmts

/-- One request: its messages, the statements they carry, and the transaction
state in which `executeRequest` saw the reply end, that of the last statement. -/
structure Exchange where
  frames : List Frame
  statements : List Statement
  returned : TransactionState
  carries : Carries frames (statements.map Statement.text)
  settled : ∃ s, statements.getLast? = some s ∧ returned = s.status

namespace Exchange

def data (ex : Exchange) : Bytes := Frame.encodeAll ex.frames

def send (state : SessionState) (ex : Exchange) : SessionState :=
  settleTransaction (trackRequest state ex.data) ex.returned

end Exchange

def Statement.sendAlone (state : SessionState) (s : Statement) : SessionState :=
  settleTransaction (trackRequest state (simpleQuery s.text)) s.status

structure SameTracking (a b : SessionState) : Prop where
  pinnedBy : a.pinnedBy = b.pinnedBy
  vars : a.vars = b.vars
  txState : a.txState = b.txState

theorem SameTracking.refl (a : SessionState) : SameTracking a a := ⟨rfl, rfl, rfl⟩

theorem SameTracking.trans (h : SameTracking a b) (h' : SameTracking b c) : SameTracking a c :=
  ⟨h.pinnedBy.trans h'.pinnedBy, h.vars.trans h'.vars, h.txState.trans h'.txState⟩

theorem SameTracking.trackStatement (h : SameTracking a b) (query : Bytes) :
    SameTracking (trackStatement a query) (trackStatement b query) := by
  unfold Protocol.trackStatement
  rw [h.pinnedBy, h.vars]
  rcases parseSet query with ⟨name, scope⟩
  cases scope with
  | scopeSession =>
    dsimp only
    by_cases hcap : name ∉ b.vars ∧ maxSessionVars ≤ b.vars.keys.length
    · rw [if_pos hcap, if_pos hcap]
      exact ⟨rfl, rfl, h.txState⟩
    · rw [if_neg hcap, if_neg hcap]
      exact ⟨rfl, rfl, h.txState⟩
  | scopeTransaction | scopeUnknown | scopeNotSet => exact ⟨rfl, rfl, h.txState⟩

theorem SameTracking.settle (h : SameTracking a b) (status : TransactionState) :
    SameTracking (settleTransaction a status) (settleTransaction b status) := by
  unfold settleTransaction
  rw [h.txState]
  by_cases hend : status = .stateIdle ∧ b.txState ≠ .stateIdle
  · rw [if_pos hend, if_pos hend]
    exact ⟨by simp only [releaseTransactionPins, h.pinnedBy], h.vars, rfl⟩
  · rw [if_neg hend, if_neg hend]
    exact ⟨h.pinnedBy, h.vars, rfl⟩

theorem simpleQuery_tracking (state : SessionState) {text : Bytes} (hnul : 0 ∉ text)
    (hsize : 4 + (text.length + 1) < 2 ^ 32) :
    SameTracking (trackRequest state (simpleQuery text)) (trackStatement state text) := by
  let f : Frame := ⟨feQuery, text ++ [0], by simpa using hsize⟩
  have hdata : simpleQuery text = f.encode ++ [] := by simp [simpleQuery, Frame.encode, f, feQuery]
  obtain ⟨hpin, hvars, htransaction⟩ := trackRequest_tracking state (simpleQuery text)
    (by intro h; rw [show (simpleQuery text).head? = some 'Q'.toUInt8 from rfl] at h
        exact absurd h (by decide))
  have hquery := trackSessionState_query state [] (f := f) rfl rfl hnul
  rw [← hdata] at hquery
  rw [hquery] at hpin hvars htransaction
  exact ⟨hpin, hvars, htransaction⟩

end Pontus.Protocol
