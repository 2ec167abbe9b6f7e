import Pontus.Protocol.Proofs.Pieces
import Pontus.Protocol.Proofs.Reads
import Pontus.Proxy.HandleClient

/-!
# How a request is classed

A request may be a batch of messages.  The classifier decodes the first one and
the gateway goes by what it says: reads may go to a replica and may be answered
with another request's reply, and statement pooling refuses what opens a
transaction.
-/

namespace Pontus.Proxy

open Lib Protocol

def statementText (m : Frame) : Bytes :=
  if m.tag = feQuery then trimTerminator m.body
  else if m.tag = feParse then ((cutAt 0 m.body).map fun cut => trimTerminator cut.2).getD []
  else []

theorem extractQueryBytes_encode (m : Frame) (rest : Bytes) :
    extractQueryBytes (m.encode ++ rest) = statementText m := by
  unfold extractQueryBytes statementText
  by_cases hshort : (m.encode ++ rest).length < 6
  · have hempty : m.body = [] := by
      rw [length_append, Frame.length_encode] at hshort
      exact List.length_eq_zero_iff.1 (by omega)
    rw [if_pos hshort, hempty]
    split
    · rfl
    · split <;> rfl
  · rw [if_neg hshort, messageBody_encode, head_encode]
    simp only [some_inj, show 'Q'.toUInt8 = feQuery from rfl, show 'P'.toUInt8 = feParse from rfl]
    split
    · rfl
    · split
      · cases cutAt 0 m.body <;> rfl
      · rfl

def carriesRead (u : Alphabet) (m : Frame) : Bool :=
  onlyReads (plainWords u.toUnicodeTables (statementText m))

theorem readOnly_encode (u : Alphabet) (m : Frame) (rest : Bytes) :
    (classifyQuery u.toUnicodeTables (m.encode ++ rest)).readOnly = carriesRead u m := by
  rw [(classifyQuery_eq u _).1, extractQueryBytes_encode]
  rfl

theorem readOnly_alone (u : Alphabet) (m : Frame) :
    (classifyQuery u.toUnicodeTables m.encode).readOnly = carriesRead u m := by
  rw [← readOnly_encode u m [], append_nil]

def readHint (s : Session) : Bool := s.queryInfo.readOnly

/-- A batch is taken for a read only if each statement in it is one, so that a
batch with a write in it is neither routed to a replica nor shared. -/
structure BatchReads (u : UnicodeTables) (ms : List Frame) : Prop where
  all : (classifyQuery u (Frame.encodeAll ms)).readOnly = true →
    ∀ m ∈ ms, m.tag = feQuery ∨ m.tag = feParse → (classifyQuery u m.encode).readOnly = true
  kept : ∀ s : Session,
    (∃ m ∈ ms, (m.tag = feQuery ∨ m.tag = feParse) ∧ (classifyQuery u m.encode).readOnly = false) →
    readHint (s.receive u (Frame.encodeAll ms)) = false ∧
      canCollapse (s.receive u (Frame.encodeAll ms)) = false

theorem batchReads_of_all (h : (classifyQuery u (Frame.encodeAll ms)).readOnly →
      ∀ m ∈ ms, m.tag = feQuery ∨ m.tag = feParse →
        (classifyQuery u m.encode).readOnly) : BatchReads u ms where
  all := h
  kept := by
    rintro _ ⟨m, hm, hstatement, hwrite⟩
    have hbatch : (classifyQuery u (Frame.encodeAll ms)).readOnly = false := by
      rw [eq_false_iff]
      intro hread
      rw [h hread m hm hstatement] at hwrite
      cases hwrite
    rw [readHint, canCollapse, Session.receive_queryInfo, hbatch]
    exact ⟨rfl, rfl⟩

/-- **A batch is read-only only if all of it is**, just for the batches whose
first message does not read, or whose other statements all do. -/
theorem batch_reads_iff (u : Alphabet) (first : Frame) (others : List Frame) :
    BatchReads u.toUnicodeTables (first :: others) ↔
      carriesRead u first = false ∨
        ∀ m ∈ others, m.tag = feQuery ∨ m.tag = feParse → carriesRead u m = true := by
  have hbatch : (classifyQuery u.toUnicodeTables (Frame.encodeAll (first :: others))).readOnly =
      carriesRead u first := readOnly_encode u first (Frame.encodeAll others)
  constructor
  · intro h
    cases hfirst : carriesRead u first with
    | false => exact .inl rfl
    | true =>
      refine .inr ?_
      intro m hm hstatement
      rw [← readOnly_alone]
      exact h.all (hbatch.trans hfirst) m (mem_cons_of_mem first hm) hstatement
  · intro h
    apply batchReads_of_all
    intro hread m hm hstatement
    rw [hbatch] at hread
    rw [readOnly_alone]
    rcases mem_cons.1 hm with rfl | hm
    · exact hread
    · rw [hread] at h
      exact h.resolve_left Bool.true_eq_false.mp m hm hstatement

theorem size_selectQuery : 4 + (ascii "SELECT 1" ++ [0]).length < 2 ^ 32 := by decide

def selectThenDelete : List Frame :=
  [⟨feQuery, ascii "SELECT 1" ++ [0], size_selectQuery⟩,
    ⟨feQuery, ascii "DELETE FROM t" ++ [0], by decide⟩]

theorem write_in_read_batch :
    readRequest defaultMaxMessageBytes [⟨Frame.encodeAll selectThenDelete, none⟩] =
        some (Frame.encodeAll selectThenDelete, none) ∧
      (classifyQuery .ascii (Frame.encodeAll selectThenDelete)).readOnly = true ∧
      selectThenDelete.map (fun m => (classifyQuery .ascii m.encode).readOnly) = [true, false] ∧
      readHint (Session.new.receive .ascii (Frame.encodeAll selectThenDelete)) = true ∧
      canCollapse (Session.new.receive .ascii (Frame.encodeAll selectThenDelete)) = true := by
  refine ⟨readRequest_encodeAll _ _ _, ?_⟩
  decide +kernel

def Config.pooledByStatement (cfg : Config) (u : Alphabet) : Config :=
  { cfg with unicode := u.toUnicodeTables, pooling := .poolStatement }

def refuses (cfg : Config) (s : System) (i : Nat) (p : Proc) (q : SqlText) : Prop :=
  ∃ ch, receive cfg s i { p with phase := .waiting } [⟨q.message, none⟩] = some ch ∧
    ch.proc.phase = .waiting

theorem readRequest_message (maxMessageBytes : Nat) (q : SqlText) :
    readRequest maxMessageBytes [⟨q.message, none⟩] = some (q.message, none) := by
  have hwhole := readRequest_encodeAll maxMessageBytes [q.frame] []
  rwa [Frame.encodeAll_cons, Frame.encodeAll_nil, append_nil] at hwhole

theorem isTerminate_message (q : SqlText) : isTerminate q.message = false := by
  rfl

theorem receive_message (cfg : Config) (s : System) (i : Nat) (p : Proc) (q : SqlText) :
    receive cfg s i { p with phase := .waiting } [⟨q.message, none⟩] =
      some { proc := { p with
        session := p.session.receive cfg.unicode q.message
        phase :=
          if cfg.pooling.rejectsTransactions &&
            (p.session.receive cfg.unicode q.message).queryInfo.inTransaction then .waiting
          else .received } } := by
  unfold receive
  rw [if_neg (not_not_intro rfl), readRequest_message]
  dsimp only
  rw [isTerminate_message, Bool.and_false, if_neg Bool.false_ne_true]

theorem refuses_iff (cfg : Config) (u : Alphabet) (s : System) (i : Nat) (p : Proc) (q : SqlText) :
    refuses (cfg.pooledByStatement u) s i p q ↔
      (classifyQuery u.toUnicodeTables q.message).inTransaction := by
  have hrejects : (cfg.pooledByStatement u).pooling.rejectsTransactions := rfl
  unfold refuses
  rw [receive_message, hrejects, Bool.true_and, Session.receive_queryInfo]
  change _ ↔ (classifyQuery (cfg.pooledByStatement u).unicode q.message).inTransaction = true
  cases (classifyQuery (cfg.pooledByStatement u).unicode q.message).inTransaction with
  | true => exact iff_of_true ⟨_, rfl, rfl⟩ rfl
  | false =>
    refine iff_of_false ?_ Bool.false_ne_true
    rintro ⟨_, hch, hphase⟩
    cases hch
    cases hphase

/-- **Transaction starts are recognised exactly**, and refused exactly under
statement pooling, just for the texts in which BEGIN or START stands outside
apostrophes if and only if a statement opens a transaction. -/
theorem transaction_starts_recognised_iff (cfg : Config) (u : Alphabet) (s : System) (i : Nat)
    (p : Proc) (q : SqlText) :
    (((classifyQuery u.toUnicodeTables q.message).inTransaction = true ↔
          q.opensTransaction = true) ∧
        (refuses (cfg.pooledByStatement u) s i p q ↔ q.opensTransaction = true)) ↔
      mentions beginKeywords (q.words u) = q.opensTransaction := by
  rw [refuses_iff, and_self, q.inTransaction_message]
  exact Bool.eq_iff_iff.symm

def beginColumn : SqlText := ⟨ascii "SELECT \"begin\" FROM t", by decide +kernel, by decide +kernel⟩

def commentedBegin : SqlText := ⟨ascii "/* it's */ BEGIN", by decide +kernel, by decide +kernel⟩

theorem transaction_starts_misread :
    ((classifyQuery .ascii beginColumn.message).inTransaction = true ∧
        beginColumn.opensTransaction = false) ∧
      (classifyQuery .ascii commentedBegin.message).inTransaction = false ∧
        commentedBegin.opensTransaction = true := by
  decide +kernel

/-! ## Statements that stay on the session -/

/-- The request goes to the primary and to nobody else's reply. -/
structure Unshared (s : Session) : Prop where
  routed : readHint s = false
  alone : canCollapse s = false
  uncached : ∀ hash enabled get, (∀ entry, cacheHandle hash enabled get s ≠ .hit entry) ∧
    ∀ key s', cacheHandle hash enabled get s ≠ .miss key s'

theorem unshared_of_write (h : s.queryInfo.readOnly = false) : Unshared s where
  routed := h
  alone := by
    rw [canCollapse, h]
    rfl
  uncached := by
    intro hash enabled get
    have hcache : cacheHandle hash enabled get s = .next s ∨
        cacheHandle hash enabled get s = .write s := by
      unfold cacheHandle
      rw [h]
      split
      · exact .inl rfl
      split
      · exact .inl rfl
      · exact .inr rfl
    rcases hcache with hcache | hcache
    · rw [hcache]
      exact ⟨fun _ => CacheStep.noConfusion, fun _ _ => CacheStep.noConfusion⟩
    · rw [hcache]
      exact ⟨fun _ => CacheStep.noConfusion, fun _ _ => CacheStep.noConfusion⟩

def TakerKept (u : UnicodeTables) (q : SqlText) : Prop :=
  q.takesSession = true →
    pinReasonFor q.bytes ≠ 0 ∧ (classifyQuery u q.message).readOnly = false ∧
      ∀ s : Session, Unshared (s.receive u q.message)

/-- **Statements that take session state are never treated as shareable
reads**, just for the texts that take none and for those whose pieces pin the
session and whose words do not only read. -/
theorem session_takers_kept_iff (u : Alphabet) (q : SqlText) :
    TakerKept u.toUnicodeTables q ↔
      q.takesSession = false ∨ pinsByPieces q.bytes = true ∧ onlyReads (q.words u) = false := by
  unfold TakerKept
  rw [pinReasonFor_ne_zero_iff, q.readOnly_message]
  cases q.takesSession with
  | false => exact iff_of_true nofun (.inl rfl)
  | true =>
    constructor
    · intro h
      obtain ⟨hpins, hwrites, -⟩ := h rfl
      exact .inr ⟨hpins, hwrites⟩
    · rintro (h | ⟨hpins, hwrites⟩) -
      · cases h
      · refine ⟨hpins, hwrites, ?_⟩
        intro _
        apply unshared_of_write
        rw [Session.receive_queryInfo, q.readOnly_message]
        exact hwrites

def selectLock : SqlText :=
  ⟨ascii "SELECT pg_advisory_lock(1)", by decide +kernel, by decide +kernel⟩

def selectTryLock : SqlText :=
  ⟨ascii "SELECT pg_try_advisory_lock(1)", by decide +kernel, by decide +kernel⟩

def declareHeld : SqlText :=
  ⟨ascii "DECLARE c CURSOR WITH HOLD FOR SELECT 1", by decide +kernel, by decide +kernel⟩

theorem session_takers_shared :
    (selectLock.takesSession = true ∧ pinReasonFor selectLock.bytes ≠ 0 ∧
        (classifyQuery .ascii selectLock.message).readOnly = true) ∧
      (selectTryLock.takesSession = true ∧ pinReasonFor selectTryLock.bytes = 0 ∧
        (classifyQuery .ascii selectTryLock.message).readOnly = true ∧
        canCollapse (Session.new.receive .ascii selectTryLock.message) = true) ∧
      declareHeld.takesSession = true ∧
        (classifyQuery .ascii declareHeld.message).readOnly = true := by
  decide +kernel

end Pontus.Proxy
