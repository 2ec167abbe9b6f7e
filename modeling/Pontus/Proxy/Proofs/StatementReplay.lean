import Pontus.Protocol.Proofs.ClientMessages
import Pontus.Proxy.PreparedStatements
import Pontus.Proxy.Proofs.Ownership

/-!
# Replaying prepared statements

The record of a connection decides what is prepared again, so the replay is
right as long as the record is: every name on it is a statement the client has
open, prepared there as the client prepared it.  The types of parameters are
not kept, messages behind the first of a buffer are not seen, and a name that
is closed stays on record; buffers that do none of this keep the three places
in agreement.
-/

namespace Pontus.Proxy

open Lib Protocol Pool ClientMessage

variable {c : PoolConn} {order : List Bytes} {ms : List ClientMessage}

/-! ## Agreement -/

/-- The record of a connection is right: its names are open, prepared there as
the client prepared them. -/
def Held.Agrees (h : Held) (opened : PreparedMap) : Prop :=
  ∀ name, h.conn.hasStatement name = true →
    name ∈ opened ∧ h.server.lookup name = opened.lookup name

/-- The texts are those of the open statements.  One that is missing pins the
session to the connection that has it. -/
structure Preparing.Inv (s : Preparing) : Prop where
  texts : ∀ name text, s.state.stmts.lookup name = some text →
    s.opened.lookup name = some ⟨text, []⟩
  kept : ∀ name ∈ s.opened, name ∈ s.state.stmts ∨
    s.state.pinnedBy.getLsbD 5 = true ∧
      ∃ h, s.held = some h ∧ h.server.lookup name = s.opened.lookup name
  agrees : ∀ h, s.held = some h → h.Agrees s.opened

/-- After a replay: every open statement is on the connection as the client
prepared it, and no other name counts as present. -/
structure Preparing.Restored (s : Preparing) (h : Held) : Prop where
  prepared : ∀ name d, s.opened.lookup name = some d → h.server.lookup name = some d
  closed : ∀ name, name ∉ s.opened → h.conn.hasStatement name = false ∧ name ∉ s.state.stmts

theorem hasStatement_addStatement {conn : Conn} :
    (conn.addStatement name).hasStatement other ↔
      conn.hasStatement other ∨ name ≠ [] ∧ other = name := by
  by_cases hname : name = []
  · rw [Conn.addStatement, if_pos hname]
    simp [hname]
  · rw [Conn.addStatement, if_neg hname]
    simp [Conn.hasStatement, hname, or_comm]

theorem mem_of_lookup {m : PreparedMap} (h : m.lookup name = some d) : name ∈ m :=
  AList.lookup_isSome.1 (by rw [h]; rfl)

section
variable {h : Held} {opened opened' : PreparedMap} {name : Bytes} {d : Prepared}
  (hnew : opened'.lookup name = some d)
  (hothers : ∀ other, other ≠ name → opened'.lookup other = opened.lookup other)
include hnew hothers

theorem lookup_prepared {server : PreparedMap}
    (hother : server.lookup other = opened.lookup other) :
    (server.insert name d).lookup other = opened'.lookup other := by
  by_cases heq : other = name
  · rw [heq, AList.lookup_insert, hnew]
  · rw [AList.lookup_insert_ne heq, hothers other heq, hother]

theorem Held.Agrees.prepared (hagrees : h.Agrees opened) :
    Held.Agrees ⟨h.conn.addStatement name, h.server.insert name d⟩ opened' := by
  intro other hother
  rcases hasStatement_addStatement.1 hother with hold | ⟨-, rfl⟩
  · obtain ⟨hopen, hsame⟩ := hagrees other hold
    refine ⟨?_, lookup_prepared hnew hothers hsame⟩
    by_cases heq : other = name
    · rw [heq]
      exact mem_of_lookup hnew
    · rw [← AList.lookup_isSome, hothers other heq]
      exact AList.lookup_isSome.2 hopen
  · exact ⟨mem_of_lookup hnew, (AList.lookup_insert _).trans hnew.symm⟩

end

/-! ## One statement replayed -/

section
variable {s : Preparing} {h h' : Held} {name : Bytes}

theorem replayStatement_agrees (hinv : s.Inv) (hagrees : h.Agrees s.opened)
    (hname : name ∈ s.state.stmts) (hstep : replayStatement s.state.stmts h name = some h') :
    h'.Agrees s.opened ∧ h'.server.lookup name = s.opened.lookup name ∧
      ∀ other, h.server.lookup other = s.opened.lookup other →
        h'.server.lookup other = s.opened.lookup other := by
  obtain ⟨text, htext⟩ := isSome_iff_exists.1 (AList.lookup_isSome.2 hname)
  have hopen := hinv.texts name text htext
  unfold replayStatement at hstep
  split at hstep
  · rename_i hheld
    cases hstep
    exact ⟨hagrees, (hagrees name hheld).2, fun _ hother => hother⟩
  · obtain ⟨_, hserver, rfl⟩ := map_eq_some_iff.1 hstep
    rw [htext, getD_some, PreparedMap.prepare] at hserver
    split at hserver
    · cases hserver
    cases hserver
    have hothers : ∀ other, other ≠ name → s.opened.lookup other = s.opened.lookup other :=
      fun _ _ => rfl
    exact ⟨hagrees.prepared hopen hothers, (AList.lookup_insert _).trans hopen.symm,
      fun _ hother => lookup_prepared hopen hothers hother⟩

theorem replay_agrees (hinv : s.Inv) (horder : ∀ name ∈ order, name ∈ s.state.stmts)
    (hagrees : h.Agrees s.opened) (hreplay : order.foldlM (replayStatement s.state.stmts) h =
    some h') :
    h'.Agrees s.opened ∧ ∀ other, other ∈ order ∨ h.server.lookup other = s.opened.lookup other →
      h'.server.lookup other = s.opened.lookup other := by
  induction order generalizing h with
  | nil =>
    cases hreplay
    exact ⟨hagrees, fun other hother => hother.resolve_left not_mem_nil⟩
  | cons name _ ih =>
    obtain ⟨_, hmid, hrest⟩ := bind_eq_some_iff.1 hreplay
    obtain ⟨hmidAgrees, hthis, hothers⟩ :=
      replayStatement_agrees hinv hagrees (horder name (mem_cons_self ..)) hmid
    obtain ⟨hagrees', hall⟩ := ih (fun n hn => horder n (mem_cons_of_mem _ hn)) hmidAgrees hrest
    refine ⟨hagrees', fun other hother => hall other ?_⟩
    rcases hother with hother | hother
    · rcases mem_cons.1 hother with rfl | hother
      · exact .inr hthis
      · exact .inl hother
    · exact .inr (hothers other hother)

/-- **A replay restores the session.** -/
theorem replay_restored (hinv : s.Inv) (hheld : s.held = some h)
    (hreplay : replayStatements s.state.stmts order h = some h') :
    h'.Agrees s.opened ∧ ∀ name ∈ s.opened, h'.server.lookup name = s.opened.lookup name := by
  unfold replayStatements at hreplay
  split at hreplay
  case isFalse => cases hreplay
  case isTrue hperm =>
      have hmem : ∀ name, name ∈ order ↔ name ∈ s.state.stmts := fun name =>
        (List.isPerm_iff.1 hperm).mem_iff.trans AList.mem_keys.symm
      obtain ⟨hagrees, hall⟩ := replay_agrees hinv (fun name hname => (hmem name).1 hname)
        (hinv.agrees h hheld) hreplay
      refine ⟨hagrees, fun name hname => hall name ?_⟩
      rcases hinv.kept name hname with hkept | ⟨-, _, hg, hsame⟩
      · exact .inl ((hmem name).2 hkept)
      · obtain rfl := Option.some.inj (hheld.symm.trans hg)
        exact .inr hsame

end

/-! ## Buffers of messages -/

/-- A message the session can be rebuilt from: its parameters are untyped, and a
name it closes is not on record. -/
def replayableMessage (conn : Conn) : ClientMessage → Bool
  | .parse _ _ types => types.isEmpty
  | .closeStatement name => !conn.hasStatement name
  | _ => true

/-- Only the first message of a buffer says anything, and the session can be
rebuilt from it; a connection that is taken has a right record. -/
def replayableStep (s : Preparing) : PreparingStep → Bool
  | .request ms _ =>
    ms.tail.all (· == .sync) && s.held.all fun h => ms.head?.all (replayableMessage h.conn)
  | .acquire h =>
    h.conn.stmts.all fun name =>
      decide (name ∈ s.opened) && h.server.lookup name == s.opened.lookup name
  | _ => true

theorem foldlM_prepare_syncs (h : ∀ m ∈ ms, m = .sync) (server : PreparedMap) :
    ms.foldlM PreparedMap.prepare server = some server := by
  induction ms with
  | nil => rfl
  | cons m _ ih =>
    rw [h m (mem_cons_self ..)]
    exact ih fun m' hm' => h m' (mem_cons_of_mem _ hm')

theorem foldl_opens_syncs (h : ∀ m ∈ ms, m = .sync) (opened : PreparedMap) :
    ms.foldl PreparedMap.opens opened = opened := by
  induction ms with
  | nil => rfl
  | cons m _ ih =>
    rw [h m (mem_cons_self ..)]
    exact ih fun m' hm' => h m' (mem_cons_of_mem _ hm')

section
variable {s : Preparing} {h : Held} {server : PreparedMap}

/-- What a message that leads its buffer leaves in the three places, before the
reply is read. -/
def Preparing.led (s : Preparing) (h : Held) (server : PreparedMap) (m : ClientMessage) :
    Preparing :=
  { state := trackRequest s.state m.encode
    opened := s.opened.opens m
    held := some ⟨h.conn.addStatement (parseStatementName m.encode), server⟩ }

section
variable (hinv : s.Inv) (hheld : s.held = some h)
include hinv hheld

theorem led_parse (hwell : (parse name text []).wellFormed) :
    (s.led h (h.server.insert name ⟨text, []⟩) (.parse name text [])).Inv := by
  have hagrees := hinv.agrees h hheld
  unfold Preparing.led PreparedMap.opens
  rw [trackRequest_encode s.state hwell, parseStatementName_encode hwell]
  dsimp only
  have hnew : (s.opened.insert name ⟨text, []⟩).lookup name = some ⟨text, []⟩ :=
    AList.lookup_insert _
  have hothers : ∀ other, other ≠ name →
      (s.opened.insert name ⟨text, []⟩).lookup other = s.opened.lookup other :=
    fun _ hne => AList.lookup_insert_ne hne
  have hheldNow : ∀ g : Held,
      some ⟨h.conn.addStatement name, h.server.insert name ⟨text, []⟩⟩ = some g →
        g.Agrees (s.opened.insert name ⟨text, []⟩) := by
    intro g hg
    rw [← Option.some.inj hg]
    exact hagrees.prepared hnew hothers
  -- a statement whose text was dropped before is still on the connection
  have hkept : ∀ other, other ≠ name → other ∈ s.opened.insert name ⟨text, []⟩ →
      other ∈ s.state.stmts ∨ s.state.pinnedBy.getLsbD 5 = true ∧
        (h.server.insert name ⟨text, []⟩).lookup other =
          (s.opened.insert name ⟨text, []⟩).lookup other := by
    intro other hne hother
    rcases hinv.kept other (((AList.mem_insert _).1 hother).resolve_left hne) with
      hkept | ⟨hpin, g, hg, hsame⟩
    · exact .inl hkept
    · obtain rfl := Option.some.inj (hheld.symm.trans hg)
      exact .inr ⟨hpin, lookup_prepared hnew hothers hsame⟩
  by_cases hroom : name ∈ s.state.stmts ∨ s.state.stmts.keys.length < maxSessionStmts
  · rw [recordStatement_recorded text hroom]
    refine ⟨?_, ?_, hheldNow⟩
    · intro other otherText hlookup
      by_cases heq : other = name
      · rw [heq, AList.lookup_insert, some_inj] at hlookup
        rw [heq, hnew, hlookup]
      · rw [AList.lookup_insert_ne heq] at hlookup
        rw [hothers other heq, hinv.texts other otherText hlookup]
    · intro other hother
      by_cases heq : other = name
      · exact .inl ((AList.mem_insert _).2 (.inl heq))
      · rcases hkept other heq hother with hkept | ⟨hpin, hsame⟩
        · exact .inl ((AList.mem_insert _).2 (.inr hkept))
        · exact .inr ⟨hpin, _, rfl, hsame⟩
  · rw [not_or, Nat.not_lt] at hroom
    rw [recordStatement, if_pos hroom]
    refine ⟨?_, ?_, hheldNow⟩
    · intro other otherText hlookup
      have hne : other ≠ name := by
        rintro rfl
        exact hroom.1 (AList.lookup_isSome.1 (by rw [hlookup]; rfl))
      exact (hothers other hne).trans (hinv.texts other otherText hlookup)
    · intro other hother
      by_cases heq : other = name
      · refine .inr ⟨untracked_or _, _, rfl, ?_⟩
        rw [heq]
        exact (AList.lookup_insert _).trans hnew.symm
      · rcases hkept other heq hother with hkept | ⟨-, hsame⟩
        · exact .inl hkept
        · exact .inr ⟨untracked_or _, _, rfl, hsame⟩

theorem led_close (hwell : (closeStatement name).wellFormed)
    (hrecorded : h.conn.hasStatement name = false) :
    (s.led h (h.server.erase name) (.closeStatement name)).Inv := by
  have hagrees := hinv.agrees h hheld
  unfold Preparing.led PreparedMap.opens
  rw [trackRequest_encode s.state hwell, parseStatementName_encode hwell]
  have hboth : ∀ other, other ≠ name → h.server.lookup other = s.opened.lookup other →
      (h.server.erase name).lookup other = (s.opened.erase name).lookup other := by
    intro other hne hother
    rw [AList.lookup_erase_ne hne, AList.lookup_erase_ne hne, hother]
  refine ⟨?_, ?_, ?_⟩
  · intro other otherText hlookup
    by_cases heq : other = name
    · rw [heq, AList.lookup_erase] at hlookup
      cases hlookup
    · rw [AList.lookup_erase_ne heq] at hlookup
      rw [AList.lookup_erase_ne heq, hinv.texts other otherText hlookup]
  · intro other hother
    obtain ⟨hne, hopen⟩ := AList.mem_erase.1 hother
    rcases hinv.kept other hopen with hkept | ⟨hpin, g, hg, hsame⟩
    · exact .inl (AList.mem_erase.2 ⟨hne, hkept⟩)
    · obtain rfl := Option.some.inj (hheld.symm.trans hg)
      exact .inr ⟨hpin, _, rfl, hboth other hne hsame⟩
  · intro _ hg
    cases hg
    intro other hother
    have hne : other ≠ name := by
      rintro rfl
      exact nomatch hrecorded.symm.trans hother
    obtain ⟨hopen, hsame⟩ := hagrees other hother
    exact ⟨AList.mem_erase.2 ⟨hne, hopen⟩, hboth other hne hsame⟩

theorem led_sync : (s.led h h.server .sync).Inv := by
  exact ⟨hinv.texts, fun name hname => (hinv.kept name hname).imp_right fun hpinned => by
    obtain ⟨hpin, g, hg, hsame⟩ := hpinned
    obtain rfl := Option.some.inj (hheld.symm.trans hg)
    exact ⟨hpin, _, rfl, hsame⟩, fun g hg => by
    rw [← Option.some.inj hg]
    exact hinv.agrees h hheld⟩

end

theorem settled_inv (hinv : s.Inv) (status : TransactionState) :
    Preparing.Inv { s with state := settleTransaction s.state status } := by
  have hstatements : (settleTransaction s.state status).stmts = s.state.stmts := by
    unfold settleTransaction
    split <;> rfl
  have hpin : s.state.pinnedBy.getLsbD 5 = true →
      (settleTransaction s.state status).pinnedBy.getLsbD 5 = true := by
    intro hpin
    unfold settleTransaction
    split
    · exact release_untracked hpin
    · exact hpin
  refine ⟨?_, ?_, hinv.agrees⟩
  · rw [hstatements]
    exact hinv.texts
  · intro name hname
    rw [hstatements]
    rcases hinv.kept name hname with hkept | ⟨hpinned, hserver⟩
    · exact .inl hkept
    · exact .inr ⟨hpin hpinned, hserver⟩

end

theorem trackRequest_lead {m : ClientMessage} (hwell : m.wellFormed) (state : SessionState)
    (rest : Bytes) : trackRequest state (m.encode ++ rest) = trackRequest state m.encode := by
  rw [trackRequest_message state rest hwell, trackRequest_encode state hwell]

theorem parseStatementName_lead {m : ClientMessage} (hwell : m.wellFormed) (rest : Bytes) :
    parseStatementName (m.encode ++ rest) = parseStatementName m.encode := by
  rw [parseStatementName_message rest hwell, parseStatementName_encode hwell]

/-! ## Steps and runs -/

section
variable {s s' : Preparing}

theorem led_inv (hinv : s.Inv) (hheld : s.held = some h) (hwell : m.wellFormed)
    (hreplayable : replayableMessage h.conn m) (hserver : h.server.prepare m = some server) :
    (s.led h server m).Inv := by
  cases m with
  | query => cases hserver
  | parse =>
    obtain rfl := List.isEmpty_iff.1 hreplayable
    rw [PreparedMap.prepare] at hserver
    split at hserver
    · cases hserver
    · cases hserver
      exact led_parse hinv hheld hwell
  | closeStatement =>
    cases hserver
    rw [replayableMessage, not_eq_true'] at hreplayable
    exact led_close hinv hheld hwell hreplayable
  | sync =>
    cases hserver
    exact led_sync hinv hheld

theorem request_inv (hinv : s.Inv) (hreplayable : replayableStep s (.request ms status))
    (hstep : s.step (.request ms status) = some s') : s'.Inv := by
  cases hheld : s.held with
  | none =>
    rw [Preparing.step, hheld] at hstep
    cases hstep
  | some =>
    rw [Preparing.step, hheld] at hstep
    dsimp only at hstep
    split at hstep
    case isFalse => cases hstep
    case isTrue hwell =>
      obtain ⟨_, hserver, rfl⟩ := map_eq_some_iff.1 hstep
      rw [replayableStep, hheld, all_some, and_eq_true, all_eq_true] at hreplayable
      obtain ⟨htail, hhead⟩ := hreplayable
      cases ms with
      | nil =>
        cases hserver
        exact settled_inv (led_sync hinv hheld) status
      | cons m ms =>
        have hsyncs : ∀ m' ∈ ms, m' = .sync := fun m' hm' => beq_iff_eq.1 (htail m' hm')
        have hm := all_eq_true.1 hwell m (mem_cons_self ..)
        obtain ⟨_, hserver', hrest⟩ := bind_eq_some_iff.1 hserver
        rw [foldlM_prepare_syncs hsyncs, some_inj] at hrest
        rw [hrest] at hserver'
        have hled := settled_inv (led_inv hinv hheld hm hhead hserver') status
        rw [encodeAll, flatMap_cons, trackRequest_lead hm, parseStatementName_lead hm,
          foldl_cons, foldl_opens_syncs hsyncs]
        exact hled

theorem acquire_inv (hinv : s.Inv) (hreplayable : replayableStep s (.acquire h))
    (hstep : s.step (.acquire h) = some s') : s'.Inv := by
  rw [Preparing.step] at hstep
  split at hstep
  case isFalse => cases hstep
  case isTrue hfree =>
    cases hstep
    rw [replayableStep, all_eq_true] at hreplayable
    refine ⟨hinv.texts, ?_, ?_⟩
    · intro name hname
      rcases hinv.kept name hname with hkept | ⟨-, g, hg, -⟩
      · exact .inl hkept
      · rw [hg] at hfree
        cases hfree
    · intro _ hg
      cases hg
      intro name hname
      have hagrees := hreplayable name (by simpa [Conn.hasStatement] using hname)
      rw [and_eq_true, decide_eq_true_eq, beq_iff_eq] at hagrees
      exact hagrees

theorem release_inv (hinv : s.Inv) (hstep : s.step .release = some s') : s'.Inv := by
  rw [Preparing.step] at hstep
  split at hstep
  case isFalse => cases hstep
  case isTrue hfree =>
    cases hstep
    rw [and_eq_true, not_eq_true'] at hfree
    refine ⟨hinv.texts, ?_, nofun⟩
    intro name hname
    rcases hinv.kept name hname with hkept | ⟨hpin, -⟩
    · exact .inl hkept
    · exact nomatch hfree.2.symm.trans (isPinned_of_untracked hpin)

theorem replay_step (hstep : s.step (.replay order) = some s') :
    ∃ h h', s.held = some h ∧ replayStatements s.state.stmts order h = some h' ∧
      s' = { s with held := some h' } := by
  obtain ⟨h', hbind, rfl⟩ := map_eq_some_iff.1 hstep
  obtain ⟨h, hheld, hreplay⟩ := bind_eq_some_iff.1 hbind
  exact ⟨h, h', hheld, hreplay, rfl⟩

theorem replay_inv (hinv : s.Inv) (hstep : s.step (.replay order) = some s') : s'.Inv := by
  obtain ⟨_, h', hheld, hreplay, rfl⟩ := replay_step hstep
  obtain ⟨hagrees, hprepared⟩ := replay_restored hinv hheld hreplay
  refine ⟨hinv.texts, ?_, ?_⟩
  · intro name hname
    rcases hinv.kept name hname with hkept | ⟨hpin, -⟩
    · exact .inl hkept
    · exact .inr ⟨hpin, h', rfl, hprepared name hname⟩
  · intro _ hg
    cases hg
    exact hagrees

/-- **One step keeps the three places in agreement.** -/
theorem preparing_step {a : PreparingStep} (hinv : s.Inv) (hreplayable : replayableStep s a)
    (hstep : s.step a = some s') : s'.Inv := by
  cases a with
  | request => exact request_inv hinv hreplayable hstep
  | release => exact release_inv hinv hstep
  | acquire => exact acquire_inv hinv hreplayable hstep
  | replay => exact replay_inv hinv hstep

end

theorem start_inv : Preparing.start.Inv :=
  ⟨nofun, fun _ hmem => (AList.notMem_empty _ hmem).elim,
    nofun⟩

/-- **After a replay the connection has what the client has open,** in every run
whose steps can be replayed. -/
theorem statements_restored (steps : List PreparingStep) (s s' : Preparing) (order : List Bytes)
    (hreplayable : Along Preparing.step (fun s a => replayableStep s a = true) .start steps)
    (hrun : run Preparing.step .start steps = some s)
    (hreplay : s.step (.replay order) = some s') :
    ∃ h, s'.held = some h ∧ s'.Restored h := by
  have hinv : s.Inv := by
    apply run_invariant _ start_inv hreplayable hrun
    intro _ _ _ hs ha hstep
    exact preparing_step hs ha hstep
  obtain ⟨_, h', hheld, hstatements, rfl⟩ := replay_step hreplay
  obtain ⟨hagrees, hprepared⟩ := replay_restored hinv hheld hstatements
  refine ⟨h', rfl, ?_, ?_⟩
  · intro name _ hopen
    rw [hprepared name (mem_of_lookup hopen)]
    exact hopen
  · intro name hclosed
    constructor
    · rw [eq_false_iff]
      intro hrecorded
      exact hclosed (hagrees name hrecorded).1
    · intro htext
      obtain ⟨text, htext⟩ := isSome_iff_exists.1 (AList.lookup_isSome.2 htext)
      exact hclosed (mem_of_lookup (hinv.texts name text htext))

/-! ## A statement with a typed parameter -/

def unused : Held := ⟨.new, ∅⟩

def statementName : Bytes := ascii "s"

def prepareAndMove (types : List UInt32) : List PreparingStep :=
  [.acquire unused, .request [.parse statementName (ascii "SELECT $1") types, .sync] .stateIdle,
    .release, .acquire unused]

theorem typed_statement_lost :
    ∃ s s', run Preparing.step .start (prepareAndMove [23]) = some s ∧
      s.step (.replay [statementName]) = some s' ∧ ∀ h, s'.held = some h → ¬ s'.Restored h := by
  obtain ⟨s, hrun, hs⟩ := exists_run (show (run Preparing.step .start (prepareAndMove [23])).any
    (fun s => (s.step (.replay [statementName])).any fun s' =>
      s'.opened.lookup statementName == some ⟨ascii "SELECT $1", [23]⟩ &&
        s'.held.all fun h => h.server.lookup statementName == some ⟨ascii "SELECT $1", []⟩) = true
    by decide +kernel)
  cases hreplay : s.step (.replay [statementName]) with
  | none =>
    rw [hreplay] at hs
    cases hs
  | some s' =>
    refine ⟨s, s', hrun, hreplay, ?_⟩
    rw [hreplay, any_some, and_eq_true, beq_iff_eq] at hs
    intro _ hheld hrestored
    have hserver := hrestored.prepared statementName _ hs.1
    have hall := hs.2
    rw [hheld, all_some, hserver] at hall
    cases hall

theorem untyped_statement_restored :
    ∃ s s', run Preparing.step .start (prepareAndMove []) = some s ∧
      s.step (.replay [statementName]) = some s' ∧ ∃ h, s'.held = some h ∧ s'.Restored h := by
  obtain ⟨s, hrun, hs⟩ := exists_run (show (run Preparing.step .start (prepareAndMove [])).any
    (fun s => (s.step (.replay [statementName])).isSome) = true by decide +kernel)
  obtain ⟨s', hreplay⟩ := isSome_iff_exists.1 hs
  exact ⟨s, s', hrun, hreplay, statements_restored (prepareAndMove []) s s' [statementName]
    (by decide +kernel) hrun hreplay⟩

end Pontus.Proxy
