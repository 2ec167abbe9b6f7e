import Pontus.Protocol.ClientMessages
import Pontus.Protocol.Proofs.Tracking

/-!
# What the trackers make of a message

A tracker reads the first message of the buffer it is given.  Each kind of
message is recorded by one of them and passed over by the others.
-/

namespace Pontus.Protocol

open Lib ClientMessage PinReason

def repin (state : SessionState) (query : Bytes) : PinReason :=
  (state.pinnedBy ||| pinReasonFor query).clear (unpinReasonFor query)

inductive StatementTracked (state : SessionState) (query : Bytes) : SessionState → Prop
  | passed (hscope : (parseSet query).2 = .scopeNotSet ∨ (parseSet query).2 = .scopeTransaction) :
      StatementTracked state query { state with pinnedBy := repin state query }
  | dropped (hscope : (parseSet query).2 = .scopeUnknown ∨ ∃ name,
        parseSet query = (name, .scopeSession) ∧ name ∉ state.vars ∧
          maxSessionVars ≤ state.vars.keys.length) :
      StatementTracked state query
        { state with pinnedBy := repin state query ||| pinUntrackedState }
  | recorded {name : Bytes} (hset : parseSet query = (name, .scopeSession))
      (hroom : name ∈ state.vars ∨ state.vars.keys.length < maxSessionVars) :
      StatementTracked state query
        { state with pinnedBy := repin state query, vars := state.vars.insert name query }

theorem trackStatement_tracked (state : SessionState) (query : Bytes) :
    StatementTracked state query (trackStatement state query) := by
  unfold trackStatement
  rcases hset : parseSet query with ⟨name, scope⟩
  cases scope with
  | scopeNotSet => exact .passed (.inl (by rw [hset]))
  | scopeTransaction => exact .passed (.inr (by rw [hset]))
  | scopeUnknown => exact .dropped (.inl (by rw [hset]))
  | scopeSession =>
    dsimp only
    by_cases hfull : name ∉ state.vars ∧ maxSessionVars ≤ state.vars.keys.length
    · rw [if_pos hfull]
      exact .dropped (.inr ⟨name, hset, hfull.1, hfull.2⟩)
    · rw [if_neg hfull]
      refine .recorded hset ?_
      rw [not_and_or, not_not, Nat.not_le] at hfull
      exact hfull

theorem untracked_or (r : PinReason) : (r ||| pinUntrackedState).getLsbD 5 := by
  simp [pinUntrackedState]

theorem isPinned_of_untracked (h : state.pinnedBy.getLsbD 5) : isPinned state := by
  have hne : state.pinnedBy ≠ 0 := by
    intro hzero
    rw [hzero] at h
    cases h
  rw [isPinned, or_eq_true]
  exact .inr (bne_iff_ne.2 hne)

theorem release_untracked (hpin : state.pinnedBy.getLsbD 5) :
    (releaseTransactionPins state).pinnedBy.getLsbD 5 := by
  simp [releaseTransactionPins, clear, transactionScoped, pinLock, hpin]

def recordStatement (state : SessionState) (name text : Bytes) : SessionState :=
  if name ∉ state.stmts ∧ maxSessionStmts ≤ state.stmts.keys.length then
    { state with pinnedBy := state.pinnedBy ||| pinUntrackedState }
  else { state with stmts := state.stmts.insert name text }

theorem recordStatement_recorded (text : Bytes)
    (hroom : name ∈ state.stmts ∨ state.stmts.keys.length < maxSessionStmts) :
    recordStatement state name text = { state with stmts := state.stmts.insert name text } := by
  rw [recordStatement, if_neg]
  rw [not_and_or, not_not, Nat.not_le]
  exact hroom

section
variable {m : ClientMessage} (state : SessionState) (rest : Bytes)

theorem messageBody_message (h : m.wellFormed) :
    messageBody (m.encode ++ rest) = some m.body :=
  messageBody_encode (m.frame h) rest

theorem skips_other (n : Nat) {tag : UInt8} (htag : m.tag ≠ tag) :
    (m.encode ++ rest).length < n ∨ (m.encode ++ rest).head? ≠ some tag :=
  .inr fun heq => htag (Option.some.inj heq)

theorem reads_own {n : Nat} (tag : UInt8) (htag : m.tag = tag) (hlen : n ≤ 5 + m.body.length) :
    ¬ ((m.encode ++ rest).length < n ∨ (m.encode ++ rest).head? ≠ some tag) := by
  rintro (hshort | hother)
  · simp only [encode, length_append, length_cons, length_putU32] at hshort
    omega
  · exact hother (congrArg some htag)

theorem trackSessionState_skip (htag : m.tag ≠ 'Q'.toUInt8) :
    trackSessionState state (m.encode ++ rest) = state := by
  rw [trackSessionState, if_pos (skips_other rest 6 htag)]

theorem trackPreparedStatement_skip (htag : m.tag ≠ 'P'.toUInt8) :
    trackPreparedStatement state (m.encode ++ rest) = state := by
  rw [trackPreparedStatement, if_pos (skips_other rest 6 htag)]

theorem forgetPreparedStatement_skip (htag : m.tag ≠ 'C'.toUInt8) :
    forgetPreparedStatement state (m.encode ++ rest) = state := by
  rw [forgetPreparedStatement, if_pos (skips_other rest 7 htag)]

theorem not_mem_of_stringsEnd {text : Bytes} (h : (!text.contains 0)) : 0 ∉ text := by simpa using h

theorem trackSessionState_message {text : Bytes} (h : (query text).wellFormed) :
    trackSessionState state ((query text).encode ++ rest) = trackStatement state text :=
  trackSessionState_query state rest (f := (query text).frame h) rfl rfl
    (not_mem_of_stringsEnd (wellFormed_iff.1 h).2)

theorem trackPreparedStatement_message {name text : Bytes} {types : List UInt32}
    (h : (parse name text types).wellFormed) :
    trackPreparedStatement state ((parse name text types).encode ++ rest) =
      recordStatement state name text := by
  have hstrings := (wellFormed_iff.1 h).2
  rw [stringsEnd, and_eq_true] at hstrings
  have hlen : 6 ≤ 5 + (parse name text types).body.length := by
    simp only [body, length_append, length_cons]
    omega
  rw [trackPreparedStatement, if_neg (reads_own rest 'P'.toUInt8 rfl hlen),
    messageBody_message rest h,
    bind_some, body, cutAt_append _ (not_mem_of_stringsEnd hstrings.1)]
  dsimp only
  rw [cutAt_append _ (not_mem_of_stringsEnd hstrings.2)]
  rfl

theorem forgetPreparedStatement_message {name : Bytes}
    (h : (closeStatement name).wellFormed) :
    forgetPreparedStatement state ((closeStatement name).encode ++ rest) =
      { state with stmts := state.stmts.erase name } := by
  have hlen : 7 ≤ 5 + (closeStatement name).body.length := by
    simp only [body, length_append, length_cons]
    omega
  rw [forgetPreparedStatement, if_neg (reads_own rest 'C'.toUInt8 rfl hlen),
    messageBody_message rest h, body]
  dsimp only
  rw [if_neg (by simp), cutAt_append _ (not_mem_of_stringsEnd (wellFormed_iff.1 h).2)]

theorem trackRequest_message (h : m.wellFormed) :
    trackRequest state (m.encode ++ rest) =
      match m with
      | .query text => trackStatement state text
      | .parse name text _ => recordStatement state name text
      | .closeStatement name => { state with stmts := state.stmts.erase name }
      | .sync => state := by
  cases m with
  | query text =>
    have hparse : feQuery ≠ 'P'.toUInt8 := by decide
    have hclose : feQuery ≠ 'C'.toUInt8 := by decide
    rw [trackRequest, trackSessionState_message state rest h, trackPreparedStatement_skip (m :=
      query text) _ rest hparse, forgetPreparedStatement_skip (m := query text) _ rest hclose]
  | parse name text types =>
    have hquery : feParse ≠ 'Q'.toUInt8 := by decide
    have hclose : feParse ≠ 'C'.toUInt8 := by decide
    rw [trackRequest, trackSessionState_skip (m := parse name text types) _ rest hquery,
      trackPreparedStatement_message state rest h,
      forgetPreparedStatement_skip (m := parse name text types) _ rest hclose]
  | closeStatement name =>
    have hquery : feClose ≠ 'Q'.toUInt8 := by decide
    have hparse : feClose ≠ 'P'.toUInt8 := by decide
    rw [trackRequest, trackSessionState_skip (m := closeStatement name) _ rest hquery,
      trackPreparedStatement_skip (m := closeStatement name) _ rest hparse,
      forgetPreparedStatement_message state rest h]
  | sync =>
    rw [trackRequest, trackSessionState_skip (m := sync) _ rest (by decide),
      trackPreparedStatement_skip (m := sync) _ rest (by decide),
      forgetPreparedStatement_skip (m := sync) _ rest (by decide)]

theorem trackRequest_encode (h : m.wellFormed) :
    trackRequest state m.encode =
      match m with
      | .query text => trackStatement state text
      | .parse name text _ => recordStatement state name text
      | .closeStatement name => { state with stmts := state.stmts.erase name }
      | .sync => state := by
  have hmessage := trackRequest_message state [] h
  rwa [append_nil] at hmessage

theorem parseStatementName_skip (htag : m.tag ≠ 'P'.toUInt8) :
    parseStatementName (m.encode ++ rest) = [] := by
  rw [parseStatementName, if_pos (skips_other rest 6 htag)]

theorem parseStatementName_message (h : m.wellFormed) :
    parseStatementName (m.encode ++ rest) =
      match m with
      | .parse name _ _ => name
      | _ => [] := by
  cases m with
  | query text => exact parseStatementName_skip (m := query text) rest (show feQuery ≠ _ by decide)
  | closeStatement name =>
    exact parseStatementName_skip (m := closeStatement name) rest (show feClose ≠ _ by decide)
  | sync => exact parseStatementName_skip (m := sync) rest (by decide)
  | parse name text types =>
    have hstrings := (wellFormed_iff.1 h).2
    rw [stringsEnd, and_eq_true] at hstrings
    have hlen : 6 ≤ 5 + (parse name text types).body.length := by
      simp only [body, length_append, length_cons]
      omega
    have hdrop : ((parse name text types).encode ++ rest).drop 5 =
        name ++ 0 :: (text ++ 0 :: parameterTypes types ++ rest) := by
      simp [encode, putU32, body]
    rw [parseStatementName, if_neg (reads_own rest 'P'.toUInt8 rfl hlen), hdrop,
      cutAt_append _ (not_mem_of_stringsEnd hstrings.1)]
    rfl

theorem parseStatementName_encode (h : m.wellFormed) :
    parseStatementName m.encode =
      match m with
      | .parse name _ _ => name
      | _ => [] := by
  have hmessage := parseStatementName_message [] h
  rwa [append_nil] at hmessage

end

end Pontus.Protocol
