import Pontus.Protocol.Proofs.ClientMessages
import Pontus.Proxy.Proofs.Ownership

/-!
# Statements that fail

A request is recorded once it has been written, before its reply is read, and
nothing takes the record back: not an ErrorResponse, not a rollback.  What is
known of a session is therefore unchanged by a statement that failed exactly
when the statement had nothing new to record.
-/

namespace Pontus.Proxy

open Lib Protocol Pool ClientMessage

structure SameRecord (before after : SessionState × Conn) : Prop where
  vars : ∀ name, after.1.vars.lookup name = before.1.vars.lookup name
  stmts : ∀ name, after.1.stmts.lookup name = before.1.stmts.lookup name
  held : ∀ name, after.2.hasStatement name = before.2.hasStatement name

theorem SameRecord.refl (r : SessionState × Conn) : SameRecord r r :=
  ⟨fun _ => rfl, fun _ => rfl, fun _ => rfl⟩

theorem SameRecord.trans {a b c : SessionState × Conn} (h : SameRecord a b)
    (h' : SameRecord b c) : SameRecord a c :=
  ⟨fun name => (h'.vars name).trans (h.vars name), fun name => (h'.stmts name).trans (h.stmts name),
    fun name => (h'.held name).trans (h.held name)⟩

theorem SameRecord.symm {a b : SessionState × Conn} (h : SameRecord a b) : SameRecord b a :=
  ⟨fun name => (h.vars name).symm, fun name => (h.stmts name).symm, fun name => (h.held name).symm⟩

def recordRequest (r : SessionState × Conn) (data : Bytes) (status : TransactionState) :
    SessionState × Conn :=
  (settleTransaction (trackRequest r.1 data) status, r.2.addStatement (parseStatementName data))

theorem settleTransaction_record (state : SessionState) (status : TransactionState) (conn : Conn) :
    SameRecord (state, conn) (settleTransaction state status, conn) := by
  unfold settleTransaction
  split <;> exact ⟨fun _ => rfl, fun _ => rfl, fun _ => rfl⟩

theorem Forwarded.record {s : Session} {c : PoolConn} {a : Answered}
    (h : Forwarded cfg i s led c env a) :
    SameRecord (trackRequest s.state s.data, c.conn.addStatement (parseStatementName s.data))
      (a.session.state, a.conn.conn) := by
  obtain ⟨_, -, hconn⟩ := h.exchange
  have hstatements : a.conn.conn.stmts = (c.conn.addStatement
      (parseStatementName s.data)).stmts := by
    rw [hconn]
    cases env.readFails || a.response.err == some NetError.deadlineExceeded <;> rfl
  rw [h.session]
  refine (settleTransaction_record _ a.response.state _).trans ⟨fun _ => rfl, fun _ => rfl, ?_⟩
  intro _
  rw [Conn.hasStatement, hstatements]
  rfl

/-- The message has nothing new to record: its text is what is recorded under
its name already, there is no room for it, or there is nothing to forget. -/
def recordsNothing (state : SessionState) (conn : Conn) : ClientMessage → Bool
  | .query text =>
    match parseSet text with
    | (name, .scopeSession) =>
      state.vars.lookup name == some text ||
        decide (name ∉ state.vars ∧ maxSessionVars ≤ state.vars.keys.length)
    | _ => true
  | .parse name text _ =>
    (state.stmts.lookup name == some text ||
      decide (name ∉ state.stmts ∧ maxSessionStmts ≤ state.stmts.keys.length)) &&
      (name == [] || conn.hasStatement name)
  | .closeStatement name => decide (name ∉ state.stmts)
  | .sync => true

section
variable {m : StringMap} {key value : Bytes}

theorem lookup_insert_same_iff :
    (∀ name, (m.insert key value).lookup name = m.lookup name) ↔ m.lookup key = some value := by
  constructor
  · intro h
    rw [← h key, AList.lookup_insert]
  · intro h name
    by_cases hname : name = key
    · rw [hname, AList.lookup_insert, h]
    · rw [AList.lookup_insert_ne hname]

theorem lookup_erase_same_iff :
    (∀ name, (m.erase key).lookup name = m.lookup name) ↔ key ∉ m := by
  constructor
  · intro h
    rw [← AList.lookup_eq_none, ← h key, AList.lookup_erase]
  · intro h name
    by_cases hname : name = key
    · rw [hname, AList.lookup_erase, AList.lookup_eq_none.2 h]
    · rw [AList.lookup_erase_ne hname]

theorem addStatement_same_iff {conn : Conn} :
    (∀ other, (conn.addStatement name).hasStatement other = conn.hasStatement other) ↔
      name = [] ∨ conn.hasStatement name := by
  by_cases hname : name = []
  · rw [Conn.addStatement, if_pos hname]
    exact ⟨fun _ => .inl hname, fun _ _ => rfl⟩
  · rw [Conn.addStatement, if_neg hname]
    constructor
    · intro h
      refine .inr ?_
      rw [← h name, Conn.hasStatement]
      simp
    · rintro (h | h) other
      · exact absurd h hname
      · rw [Conn.hasStatement] at h ⊢
        rw [Conn.hasStatement]
        by_cases hother : other = name
        · rw [hother, h]
          simp
        · simp [hother]

end

section
variable (state : SessionState) (conn : Conn)

theorem record_query_iff (text : Bytes) :
    SameRecord (state, conn) (trackStatement state text, conn) ↔
      recordsNothing state conn (.query text) := by
  have htracked := trackStatement_tracked state text
  generalize trackStatement state text = after at htracked
  rw [recordsNothing]
  rcases hparse : parseSet text with ⟨name, _⟩
  cases htracked with
  | passed hscope =>
    rw [hparse] at hscope
    rcases hscope with rfl | rfl
    · exact ⟨fun _ => rfl, fun _ => ⟨fun _ => rfl, fun _ => rfl, fun _ => rfl⟩⟩
    · exact ⟨fun _ => rfl, fun _ => ⟨fun _ => rfl, fun _ => rfl, fun _ => rfl⟩⟩
  | dropped hdropped =>
    refine ⟨fun _ => ?_, fun _ => ⟨fun _ => rfl, fun _ => rfl, fun _ => rfl⟩⟩
    rcases hdropped with hunknown | ⟨_, hset, hfull⟩
    · rw [hparse] at hunknown
      obtain rfl := hunknown
      rfl
    · obtain ⟨rfl, rfl⟩ := Prod.mk.inj (hparse.symm.trans hset)
      dsimp only
      rw [decide_eq_true hfull, Bool.or_true]
  | @recorded _ hset hroom =>
    obtain ⟨rfl, rfl⟩ := Prod.mk.inj (hparse.symm.trans hset)
    have hnotFull : ¬ (name ∉ state.vars ∧ maxSessionVars ≤ state.vars.keys.length) := by
      rw [not_and_or, not_not, Nat.not_le]
      exact hroom
    dsimp only
    rw [decide_eq_false hnotFull, Bool.or_false, beq_iff_eq, ← lookup_insert_same_iff]
    exact ⟨fun h => h.vars, fun h => ⟨h, fun _ => rfl, fun _ => rfl⟩⟩

theorem record_parse_iff (name text : Bytes) (types : List UInt32) :
    SameRecord (state, conn) (recordStatement state name text, conn.addStatement name) ↔
      recordsNothing state conn (.parse name text types) := by
  have hheld : (name == [] || conn.hasStatement name) = true ↔
      ∀ other, (conn.addStatement name).hasStatement other = conn.hasStatement other := by
    rw [addStatement_same_iff, or_eq_true, beq_iff_eq]
  rw [recordsNothing, and_eq_true, hheld]
  by_cases hroom : name ∈ state.stmts ∨ state.stmts.keys.length < maxSessionStmts
  · have hnotFull : ¬ (name ∉ state.stmts ∧ maxSessionStmts ≤ state.stmts.keys.length) := by
      rw [not_and_or, not_not, Nat.not_le]
      exact hroom
    rw [recordStatement_recorded text hroom, decide_eq_false hnotFull, Bool.or_false, beq_iff_eq,
      ← lookup_insert_same_iff]
    exact ⟨fun h => ⟨h.stmts, h.held⟩, fun h => ⟨fun _ => rfl, h.1, h.2⟩⟩
  · have hfull : name ∉ state.stmts ∧ maxSessionStmts ≤ state.stmts.keys.length := by
      rw [not_or, Nat.not_lt] at hroom
      exact hroom
    rw [recordStatement, if_pos hfull, decide_eq_true hfull, Bool.or_true]
    exact ⟨fun h => ⟨rfl, h.held⟩, fun h => ⟨fun _ => rfl, fun _ => rfl, h.2⟩⟩

theorem record_close_iff (name : Bytes) :
    SameRecord (state, conn) ({ state with stmts := state.stmts.erase name }, conn) ↔
      recordsNothing state conn (.closeStatement name) := by
  rw [recordsNothing, decide_eq_true_eq, ← lookup_erase_same_iff]
  exact ⟨fun h => h.stmts, fun h => ⟨fun _ => rfl, h, fun _ => rfl⟩⟩

/-- **A request leaves the record alone exactly when its leading message has
nothing new to record.** -/
theorem record_message_iff {m : ClientMessage} (hm : m.wellFormed) (rest : Bytes) :
    SameRecord (state, conn) (trackRequest state (m.encode ++ rest),
        conn.addStatement (parseStatementName (m.encode ++ rest))) ↔
      recordsNothing state conn m := by
  rw [trackRequest_message state rest hm, parseStatementName_message rest hm]
  cases m with
  | query text => exact record_query_iff state conn text
  | parse name text types => exact record_parse_iff state conn name text types
  | closeStatement name => exact record_close_iff state conn name
  | sync => exact ⟨fun _ => rfl, fun _ => SameRecord.refl _⟩

end

theorem StringMap.mem_of_lookup {m m' : StringMap} (h : ∀ name, m'.lookup name = m.lookup name)
    (name : Bytes) : name ∈ m' ↔ name ∈ m := by
  rw [← AList.lookup_isSome, ← AList.lookup_isSome, h]

theorem StringMap.length_keys_of_lookup {m m' : StringMap}
    (h : ∀ name, m'.lookup name = m.lookup name) : m'.keys.length = m.keys.length := by
  refine List.Perm.length_eq ((List.perm_ext_iff_of_nodup m'.nodupKeys m.nodupKeys).2 ?_)
  exact StringMap.mem_of_lookup h

theorem SameRecord.recordsNothing_eq {r r' : SessionState × Conn} (h : SameRecord r r')
    (m : ClientMessage) : recordsNothing r'.1 r'.2 m = recordsNothing r.1 r.2 m := by
  cases m with
  | query text =>
    rw [recordsNothing, recordsNothing]
    rcases parseSet text with ⟨_, scope⟩
    cases scope with
    | scopeSession =>
      simp [h.vars, StringMap.length_keys_of_lookup h.vars, StringMap.mem_of_lookup h.vars]
    | scopeNotSet | scopeTransaction | scopeUnknown => rfl
  | parse =>
    simp only [recordsNothing, h.stmts, StringMap.length_keys_of_lookup h.stmts,
      StringMap.mem_of_lookup h.stmts, h.held]
  | closeStatement => simp only [recordsNothing, StringMap.mem_of_lookup h.stmts]
  | sync => rfl

/-- A later request of the same transaction: its leading message, what follows
in the buffer, and the state it left the session in. -/
structure LaterRequest where
  message : ClientMessage
  rest : Bytes
  status : TransactionState

def LaterRequest.data (r : LaterRequest) : Bytes := r.message.encode ++ r.rest

def recordAll (r : SessionState × Conn) (later : List LaterRequest) : SessionState × Conn :=
  later.foldl (fun r request => recordRequest r request.data request.status) r

theorem recordRequest_iff (r : SessionState × Conn) (request : LaterRequest)
    (hwell : request.message.wellFormed) :
    SameRecord r (recordRequest r request.data request.status) ↔
      recordsNothing r.1 r.2 request.message := by
  have hsettle := settleTransaction_record (trackRequest r.1 request.data) request.status
    (r.2.addStatement (parseStatementName request.data))
  rw [← record_message_iff r.1 r.2 hwell request.rest]
  exact ⟨fun h => h.trans hsettle.symm, fun h => h.trans hsettle⟩

theorem recordAll_iff {later : List LaterRequest}
    (hwell : ∀ request ∈ later, request.message.wellFormed) (r : SessionState × Conn) :
    (∀ n ≤ later.length, SameRecord r (recordAll r (later.take n))) ↔
      ∀ request ∈ later, recordsNothing r.1 r.2 request.message := by
  induction later generalizing r with
  | nil =>
    refine ⟨fun _ request hrequest => (not_mem_nil hrequest).elim, fun _ n _ => ?_⟩
    rw [List.take_nil]
    exact .refl r
  | cons request _ ih =>
    have hone := recordRequest_iff r request (hwell request (mem_cons_self ..))
    have hrest := ih (fun q hq => hwell q (mem_cons_of_mem _ hq))
      (recordRequest r request.data request.status)
    constructor
    · intro h
      have hsame : SameRecord r (recordRequest r request.data request.status) := h 1 (by simp)
      intro q hq
      rcases mem_cons.1 hq with rfl | hq
      · exact hone.1 hsame
      · rw [← hsame.recordsNothing_eq]
        refine hrest.1 (fun n hn => ?_) q hq
        exact hsame.symm.trans (h (n + 1) (Nat.succ_le_succ hn))
    · intro h n hn
      have hsame := hone.2 (h request (mem_cons_self ..))
      cases n with
      | zero => exact .refl r
      | succ n =>
        refine hsame.trans (hrest.2 (fun q hq => ?_) n (Nat.le_of_succ_le_succ hn))
        rw [hsame.recordsNothing_eq]
        exact h q (mem_cons_of_mem _ hq)

/-- **Statements that failed left the record as it was** exactly when none had
anything new to record: the request itself, whatever the backend replied, and
with it those that follow in a transaction rolled back later. -/
theorem failed_statement_unrecorded_iff (cfg : Config) (i : Nat) (s : Session) (led : Option Led)
    (c : PoolConn) (env : ServeEnv) (a : Answered) (m : ClientMessage) (rest : Bytes)
    (hdata : s.data = m.encode ++ rest) (hm : m.wellFormed = true)
    (hserved : forwardReply cfg i s led c env = some a) (later : List LaterRequest)
    (hlater : ∀ request ∈ later, request.message.wellFormed = true) :
    (∀ n ≤ later.length, SameRecord (s.state, c.conn)
        (recordAll (a.session.state, a.conn.conn) (later.take n))) ↔
      recordsNothing s.state c.conn m = true ∧
        ∀ request ∈ later, recordsNothing s.state c.conn request.message = true := by
  have hrecord := (forwarded_of_forwardReply hserved).record
  rw [hdata] at hrecord
  have hfirst : SameRecord (s.state, c.conn) (a.session.state, a.conn.conn) ↔
      recordsNothing s.state c.conn m = true := by
    rw [← record_message_iff s.state c.conn hm rest]
    exact ⟨fun h => h.trans hrecord.symm, fun h => h.trans hrecord⟩
  have hall := recordAll_iff hlater (a.session.state, a.conn.conn)
  constructor
  · intro h
    have hsame : SameRecord (s.state, c.conn) (a.session.state, a.conn.conn) := h 0 (Nat.zero_le _)
    refine ⟨hfirst.1 hsame, fun request hrequest => ?_⟩
    rw [← hsame.recordsNothing_eq]
    exact hall.1 (fun n hn => hsame.symm.trans (h n hn)) request hrequest
  · rintro ⟨hnothing, hothers⟩ n hn
    have hsame := hfirst.2 hnothing
    refine hsame.trans (hall.2 (fun request hrequest => ?_) n hn)
    rw [hsame.recordsNothing_eq]
    exact hothers request hrequest

def refusedSet : Bytes := ascii "SET work_mem = 'lots'"

def errorReply : List Frame :=
  [⟨'E'.toUInt8, ascii "SERROR" ++ [0, 0], by decide⟩, ⟨'Z'.toUInt8, ['I'.toUInt8], by decide⟩]

def refusedSession (state : SessionState) : Session :=
  { Session.new with state := state, data := (query refusedSet).encode }

def refusedOn : PoolConn := .dialled ⟨ascii "db", ⟨[], []⟩⟩ (.held 0)

theorem refused_set_recorded :
    errorReply.any (fun f => f.tag == 'E'.toUInt8) = true ∧
      ∃ a, forwardReply (.initial id false) 0 (refusedSession .empty) none refusedOn
          (.undisturbed errorReply 'I'.toUInt8) = some a ∧
        ¬ SameRecord (SessionState.empty, refusedOn.conn) (a.session.state, a.conn.conn) := by
  refine ⟨by decide, ?_⟩
  obtain ⟨a, hserved, hheld⟩ := (Option.any_eq_true _ _).1 (show (forwardReply (.initial id false) 0
    (refusedSession .empty) none refusedOn (.undisturbed errorReply 'I'.toUInt8)).any
      (fun a => a.session.state.vars.lookup (ascii "work_mem") == some refusedSet) = true
    by decide +kernel)
  refine ⟨a, hserved, fun hsame => ?_⟩
  have hvars := hsame.vars (ascii "work_mem")
  rw [beq_iff_eq.1 hheld] at hvars
  cases hvars

def settledState : SessionState :=
  { SessionState.empty with vars := AList.insert (ascii "work_mem") refusedSet ∅ }

def rollback : LaterRequest := ⟨.query (ascii "ROLLBACK"), [], .stateIdle⟩

theorem repeated_set_unrecorded :
    recordsNothing settledState refusedOn.conn (.query refusedSet) = true ∧
      ∃ a, forwardReply (.initial id false) 0 (refusedSession settledState) none refusedOn
          (.undisturbed errorReply 'I'.toUInt8) = some a ∧
        ∀ n ≤ 1, SameRecord (settledState, refusedOn.conn)
          (recordAll (a.session.state, a.conn.conn) ([rollback].take n)) := by
  refine ⟨by decide +kernel, ?_⟩
  obtain ⟨a, hserved, -⟩ := (Option.any_eq_true _ _).1 (show (forwardReply (.initial id false) 0
    (refusedSession settledState) none refusedOn (.undisturbed errorReply 'I'.toUInt8)).any
      (fun _ => true) = true by decide +kernel)
  exact ⟨a, hserved, (failed_statement_unrecorded_iff (.initial id false) 0
    (refusedSession settledState) none refusedOn (.undisturbed errorReply 'I'.toUInt8) a
    (.query refusedSet) [] (append_nil _).symm (by decide +kernel) hserved
    [rollback] (by decide +kernel)).2 ⟨by decide +kernel, by decide +kernel⟩⟩

end Pontus.Proxy
