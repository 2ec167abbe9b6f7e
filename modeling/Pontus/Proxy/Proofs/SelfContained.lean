import Pontus.Proxy.Proofs.CacheHandle
import Pontus.Proxy.ReadRequest

/-!
# Which requests are answered with another request's bytes

The cache looks at the first byte of the buffer, the collapser at no byte at
all, and both at the classification of the first message.  So a read outside a
transaction is answered with foreign bytes whatever stands behind its first
message, and a Parse as readily as a Query.
-/

namespace Pontus.Proxy

open Lib Protocol Session

def LoneQuery (data : Bytes) : Prop := ∃ f : Frame, f.tag = feQuery ∧ data = f.encode

def AnsweredByAnother (hash : Bytes → Bytes) (s : Session) : Prop :=
  (∃ enabled get entry, cacheHandle hash enabled get s = .hit entry) ∨
    ∃ inFlight call, ∃ c : InflightCall, collapse hash inFlight s = .follow call ∧ c.answer ≠ none

def SharesLoneQueryOnly (u : UnicodeTables) (txState : TransactionState) (data : Bytes) : Prop :=
  LoneQuery data ∨ (classifyQuery u data).readOnly = false ∨
    (classifyQuery u data).inTransaction = true ∨
    txState = .stateInTransaction ∨ txState = .stateError ∨
    (txState = .statePartial ∧ cacheable data = false)

section
variable (u : UnicodeTables) (hash : Bytes → Bytes) (session : Session) (data : Bytes)

theorem collapse_follow_iff (s : Session) :
    (∃ inFlight call, collapse hash inFlight s = .follow call) ↔ canCollapse s := by
  constructor
  · intro ⟨_, _, h⟩
    by_contra hcan
    rw [collapse, if_neg hcan] at h
    exact Collapse.noConfusion h
  · intro hcan
    refine ⟨fun _ => some 0, 0, ?_⟩
    rw [collapse, if_pos hcan]

theorem cacheHandle_hit_iff :
    (∃ enabled get entry, cacheHandle hash enabled get (session.receive u data) = .hit entry) ↔
      cacheable data ∧ (classifyQuery u data).readOnly ∧
        (classifyQuery u data).inTransaction = false ∧
        (session.state.txState = .stateIdle ∨ session.state.txState = .statePartial) := by
  have hidle : inTransaction (session.receive u data) = false ↔
      session.state.txState = .stateIdle ∨ session.state.txState = .statePartial := by
    unfold inTransaction
    rw [receive_state]
    cases session.state.txState <;> decide
  have hanswerable (enabled : Bool) : Caching.answerable enabled (session.receive u data) = true ↔
      ((((enabled = true ∧ (session.receive u data).normalized ≠ []) ∧ cacheable data = true) ∧
        (classifyQuery u data).readOnly = true) ∧ (classifyQuery u data).inTransaction = false ∧
        (session.state.txState = .stateIdle ∨ session.state.txState = .statePartial)) := by
    simp [Caching.answerable, receive_data, receive_queryInfo, hidle]
  constructor
  · rintro ⟨enabled, _, _, h⟩
    obtain ⟨⟨⟨-, hcacheable⟩, hread⟩, htransaction⟩ := (hanswerable enabled).1 (answerable_of_hit h)
    exact ⟨hcacheable, hread, htransaction⟩
  · rintro ⟨hcacheable, hread, htransaction⟩
    have hnormal := normalizeQuery_ne_nil (extractQueryBytes_of_readOnly hread)
    refine ⟨true, fun _ => some ⟨[], false⟩, ⟨[], false⟩, hit_of_get ?_ rfl⟩
    exact (hanswerable true).2 ⟨⟨⟨⟨rfl, hnormal⟩, hcacheable⟩, hread⟩, htransaction⟩

theorem answeredByAnother_iff :
    AnsweredByAnother hash (session.receive u data) ↔
      (classifyQuery u data).readOnly ∧ (classifyQuery u data).inTransaction = false ∧
        (session.state.txState = .stateIdle ∨
          (session.state.txState = .statePartial ∧ cacheable data = true)) := by
  have hcan : canCollapse (session.receive u data) = true ↔
      (classifyQuery u data).readOnly = true ∧ (classifyQuery u data).inTransaction = false ∧
        session.state.txState = .stateIdle := by
    simp [canCollapse, receive_queryInfo, receive_state, and_assoc]
  have hfollow : (∃ inFlight call, ∃ c : InflightCall,
      collapse hash inFlight (session.receive u data) = .follow call ∧ c.answer ≠ none) ↔
      canCollapse (session.receive u data) = true := by
    rw [← collapse_follow_iff hash]
    constructor
    · intro ⟨inFlight, call, _, h, _⟩
      exact ⟨inFlight, call, h⟩
    · intro ⟨inFlight, call, h⟩
      exact ⟨inFlight, call, .new, h, by decide⟩
  rw [AnsweredByAnother, cacheHandle_hit_iff, hfollow, hcan]
  grind

/-- **Only a lone Query is answered with foreign bytes, exactly under
`SharesLoneQueryOnly`.** -/
theorem shared_bytes_lone_query_iff :
    (AnsweredByAnother hash (session.receive u data) → LoneQuery data) ↔
      SharesLoneQueryOnly u session.state.txState data := by
  rw [answeredByAnother_iff, SharesLoneQueryOnly]
  cases session.state.txState <;> cases (classifyQuery u data).readOnly <;>
    cases (classifyQuery u data).inTransaction <;> cases cacheable data <;> simp

end

theorem size_select : 4 + (0 :: (ascii "SELECT 1" ++ [0, 0, 0])).length < 2 ^ 32 := by decide

def parseSelect : Frame := ⟨feParse, 0 :: (ascii "SELECT 1" ++ [0, 0, 0]), size_select⟩

theorem parse_answered_by_follower :
    readRequest defaultMaxMessageBytes [⟨Frame.encodeAll [parseSelect, flush], none⟩] =
        some (Frame.encodeAll [parseSelect, flush], none) ∧
      AnsweredByAnother id
        (Session.new.receive .ascii (Frame.encodeAll [parseSelect, flush])) ∧
      ¬LoneQuery (Frame.encodeAll [parseSelect, flush]) := by
  refine ⟨readRequest_encodeAll _ _ _, ?_, ?_⟩
  · rw [answeredByAnother_iff]
    exact ⟨by decide, by decide, .inl rfl⟩
  · intro ⟨f, hf, hdata⟩
    have hhead : some feParse = some f.tag := congrArg List.head? hdata
    rw [hf] at hhead
    exact absurd hhead (by decide)

end Pontus.Proxy
