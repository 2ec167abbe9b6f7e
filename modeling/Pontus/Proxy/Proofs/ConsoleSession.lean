import Pontus.Protocol.Proofs.ExtendedMessages
import Pontus.Proxy.ConsoleSession

/-!
# The console's one slot against the protocol's statements and portals

The slot holds the statement of the latest Parse, the formats of the latest
Bind behind it and the first answer to it (`Slot`).  An Execute is answered from
the slot whatever portal it names, so it gets what it asked for where its portal
is bound to just that.
-/

namespace Pontus.Proxy

open Lib Protocol ExtendedPortal

namespace ExtendedPortal

variable {env : ConsoleEnv} {portal : ExtendedPortal}

@[simp] theorem answered_portal (written : Bytes) : (portal.answered written).portal = portal := rfl

@[simp] theorem answered_written (written : Bytes) :
    (portal.answered written).written = written := rfl

@[simp] theorem sent_portal (front : Bytes) (out : Except Bytes Bytes) :
    (portal.sent front out).portal = portal := by
  cases out <;> rfl

@[simp] theorem sent_written (front : Bytes) (out : Except Bytes Bytes) :
    (portal.sent front out).written = front ++ out.toOption.getD [] := by
  cases out with
  | error => exact (append_nil front).symm
  | ok => rfl

theorem dispatch_wellFormed {m : ExtendedMessage} (hopen : portal.failed = false)
    (hm : m.wellFormed) :
    portal.dispatch env m.tag m.body =
      match m with
      | .parse _ query _ =>
        { portal with query := query, prepared := none, formats := [] }.answered
          (writeAck tagParseComplete)
      | .bind _ _ _ _ formats =>
        { portal with formats := formats }.answered (writeAck tagBindComplete)
      | .describe target _ => portal.describe env target.byte
      | .execute .. => portal.execute env
      | .close .. => portal.answered (writeAck tagCloseComplete)
      | .sync => { portal with failed := false }.answered writeReadyForQuery := by
  have hskip (tag : UInt8) : ¬(portal.failed = true ∧ tag ≠ 'S'.toUInt8) := by
    rw [hopen]
    rintro ⟨⟨⟩, -⟩
  rw [dispatch, if_neg (hskip _)]
  cases m with
  | parse => rw [ExtendedMessage.tag, if_neg (by decide), if_pos rfl, decodeParse_body hm]
  | bind =>
    rw [ExtendedMessage.tag, if_neg (by decide), if_neg (by decide), if_pos rfl,
      decodeBindResultFormats_body hm]
  | describe =>
    rfl
  | execute =>
    rw [ExtendedMessage.tag, if_neg (by decide), if_neg (by decide), if_neg (by decide),
      if_neg (by decide), if_pos rfl]
  | close =>
    rw [ExtendedMessage.tag, if_neg (by decide), if_neg (by decide), if_neg (by decide),
      if_neg (by decide), if_neg (by decide), if_pos rfl]
  | sync =>
    rw [ExtendedMessage.tag, if_neg (by decide), if_neg (by decide), if_neg (by decide),
      if_neg (by decide), if_neg (by decide), if_neg (by decide), if_neg (by decide), if_pos rfl]

/-- Behind an error the slot does not change until Sync, which only ends the
skipping. -/
theorem dispatch_failed (hfail : portal.failed) (env : ConsoleEnv) (m : ExtendedMessage) :
    ∃ failed, (portal.dispatch env m.tag m.body).portal = { portal with failed := failed } := by
  by_cases hsync : m.tag = 'S'.toUInt8
  · refine ⟨false, ?_⟩
    rw [dispatch, if_neg (fun h => h.2 hsync), hsync, if_neg (by decide), if_neg (by decide),
      if_neg (by decide), if_neg (by decide), if_neg (by decide), if_neg (by decide),
      if_neg (by decide), if_pos rfl]
    rfl
  · refine ⟨portal.failed, ?_⟩
    rw [dispatch, if_pos ⟨hfail, hsync⟩]
    rfl

end ExtendedPortal

structure Slot (portal : ExtendedPortal) (heard : Heard) : Prop where
  query : portal.query = heard.sql
  formats : portal.formats = heard.formats
  prepared : portal.prepared.map Except.ok = heard.since.map (·.answer heard.sql)

namespace Slot

variable {env : ConsoleEnv} {portal : ExtendedPortal} {heard : Heard}

theorem new : Slot .new .new := ⟨rfl, rfl, rfl⟩

section
variable (h : Slot portal heard)
include h

theorem set_failed (failed : Bool) : Slot { portal with failed := failed } heard :=
  ⟨h.query, h.formats, h.prepared⟩

theorem prepared_eq_none (hsince : heard.since = none) : portal.prepared = none := by
  have hprepared := h.prepared
  rw [hsince] at hprepared
  exact Option.map_eq_none_iff.1 hprepared

theorem prepared_eq_some (hsince : heard.since = some before) :
    ∃ reply, portal.prepared = some reply ∧ before.answer heard.sql = .ok reply := by
  have hprepared := h.prepared
  rw [hsince, map_some, map_eq_some_iff] at hprepared
  obtain ⟨reply, hreply, hanswer⟩ := hprepared
  exact ⟨reply, hreply, hanswer.symm⟩

/-- How the slot stands when the statement is needed: it is refused, or its
answer is in the slot from now on. -/
theorem prepare (env : ConsoleEnv) :
    (∃ err, portal.prepare env = .error err ∧ heard.since = none ∧
        env.answer heard.sql = .error err) ∨
      ∃ reply, portal.prepare env = .ok (reply, { portal with prepared := some reply }) ∧
        (heard.since.getD env).answer heard.sql = .ok reply := by
  cases hsince : heard.since with
  | none =>
    have hnone := h.prepared_eq_none hsince
    cases hanswer : env.answer heard.sql with
    | error err =>
      refine .inl ⟨err, ?_, rfl, rfl⟩
      simp only [ExtendedPortal.prepare, hnone, h.query, hanswer]
    | ok reply =>
      refine .inr ⟨reply, ?_, hanswer⟩
      simp only [ExtendedPortal.prepare, hnone, h.query, hanswer]
  | some =>
    obtain ⟨reply, hreply, hanswer⟩ := h.prepared_eq_some hsince
    refine .inr ⟨reply, ?_, hanswer⟩
    simp only [ExtendedPortal.prepare, hreply]
    rw [← hreply]

end

theorem look_refused (hsince : heard.since = none) (hanswer : env.answer heard.sql = .error err) :
    heard.look env = heard := by
  rw [Heard.look, hanswer, hsince]
  cases heard with
  | mk =>
    cases hsince
    rfl

variable (h : Slot portal heard)
include h

theorem look_answered (hanswer : (heard.since.getD env).answer heard.sql = .ok reply) :
    Slot { portal with prepared := some reply } (heard.look env) := by
  have hsince : (heard.look env).since = some (heard.since.getD env) := by
    cases hbefore : heard.since with
    | none =>
      rw [hbefore, Option.getD_none] at hanswer
      simp only [Heard.look, hbefore, hanswer]
      rfl
    | some =>
      simp only [Heard.look, hbefore]
      rfl
  refine ⟨h.query, h.formats, ?_⟩
  rw [hsince, map_some]
  exact congrArg some hanswer.symm

theorem describe (target : Target) (name : Bytes) :
    Slot (portal.describe env target.byte).portal (heard.hear env (.describe target name)) := by
  rcases h.prepare env with ⟨_, hprepared, hsince, hanswer⟩ | ⟨reply, hprepared, hanswer⟩
  · rw [Heard.hear, look_refused hsince hanswer]
    simp only [ExtendedPortal.describe, hprepared]
    exact h.set_failed true
  · have hslot := h.look_answered hanswer
    simp only [ExtendedPortal.describe, hprepared]
    cases hrows : reply.rows with
    | none => exact hslot
    | some =>
      rw [sent_portal]
      exact hslot

theorem execute (name : Bytes) (maxRows : UInt32) :
    Slot (portal.execute env).portal (heard.hear env (.execute name maxRows)) := by
  rcases h.prepare env with ⟨_, hprepared, hsince, hanswer⟩ | ⟨reply, hprepared, hanswer⟩
  · rw [Heard.hear, look_refused hsince hanswer]
    simp only [ExtendedPortal.execute, hprepared]
    exact h.set_failed true
  · have hslot := h.look_answered hanswer
    simp only [ExtendedPortal.execute, hprepared]
    cases hrows : reply.rows with
    | none => exact hslot
    | some =>
      rw [sent_portal]
      exact hslot

theorem execute_written
    (hsame : ∀ before ∈ heard.since, before.answer heard.sql = env.answer heard.sql) :
    (portal.execute env).written = resultOf env heard.sql heard.formats := by
  rcases h.prepare env with ⟨_, hprepared, hsince, hanswer⟩ | ⟨reply, hprepared, hanswer⟩
  · simp only [ExtendedPortal.execute, hprepared, resultOf, hanswer]
    rfl
  · have hnow : env.answer heard.sql = .ok reply := by
      cases hsince : heard.since with
      | none =>
        rw [hsince] at hanswer
        exact hanswer
      | some before =>
        rw [hsince] at hanswer
        exact (hsame before hsince).symm.trans hanswer
    simp only [ExtendedPortal.execute, hprepared, resultOf, hnow]
    cases hrows : reply.rows with
    | none => rfl
    | some => rw [sent_written, nil_append, h.formats]

theorem dispatch {m : ExtendedMessage} (hopen : portal.failed = false) (hm : m.wellFormed) :
    Slot (portal.dispatch env m.tag m.body).portal (heard.hear env m) := by
  rw [dispatch_wellFormed hopen hm]
  cases m with
  | parse =>
    refine ⟨?_, rfl, rfl⟩
    simp [answered_portal, Heard.hear, Heard.sql]
  | bind => exact ⟨h.query, rfl, h.prepared⟩
  | describe target name => exact h.describe target name
  | execute name maxRows => exact h.execute name maxRows
  | close => exact h
  | sync => exact h.set_failed false

end Slot

theorem serveOne_portal (h : (serveOne env portal tag body).1 = some portal') :
    portal' = (portal.dispatch env tag body).portal := by
  rw [serveOne] at h
  split at h
  · cases h
  · split at h
    · cases h
    · dsimp only at h
      split at h
      · exact (Option.some.inj h).symm
      · cases h

theorem head_resultOf {env : ConsoleEnv} (formats : List UInt16)
    (hanswer : (env.answer sql).isOk = false) :
    (resultOf env sql formats).head? = some 'E'.toUInt8 := by
  cases herr : env.answer sql with
  | error =>
    rw [resultOf, herr]
    rfl
  | ok =>
    rw [herr] at hanswer
    cases hanswer

namespace ConsoleSession

variable {s s' : ConsoleSession} {a : ConsoleAction}

theorem slot_step (h : Slot s.portal s.heard) (hm : a.2.wellFormed)
    (hstep : s.step a = some s') : Slot s'.portal s'.heard := by
  rw [step, map_eq_some_iff] at hstep
  obtain ⟨_, hportal, hs'⟩ := hstep
  rw [← hs', serveOne_portal hportal]
  cases hfail : s.portal.failed with
  | false => exact h.dispatch hfail hm
  | true =>
    obtain ⟨failed, hdispatch⟩ := dispatch_failed hfail a.1 a.2
    rw [hdispatch]
    exact h.set_failed failed

/-- An Execute that is read and not skipped is answered from the slot, whatever
portal it names. -/
theorem written_execute (env : ConsoleEnv) {portal : Bytes} {maxRows : UInt32}
    (hm : (ExtendedMessage.execute portal maxRows).wellFormed)
    (hopen : s.portal.failed = false)
    (hfits : 4 + (ExtendedMessage.execute portal maxRows).body.length ≤ maxCommandBytes) :
    s.written (env, .execute portal maxRows) = (s.portal.execute env).written := by
  rw [written, serveOne, if_neg (Nat.not_lt.2 hfits), dispatch_wellFormed hopen hm,
    ExtendedMessage.tag, if_neg (by decide)]

theorem RunsLatest.sql_eq {bound : Bound} (h : s.RunsLatest env bound)
    (hsql : s.heard.statements bound.statement = some sql) : s.heard.sql = sql := by
  rw [Heard.sql, h.1, bind_some, hsql, getD_some]

theorem answers_of_asked (h : Slot s.portal s.heard) (hm : a.2.wellFormed)
    (hasked : s.Asked a) : s.Answers a := by
  obtain ⟨env, m⟩ := a
  cases m with
  | execute portal =>
    obtain ⟨hopen, hfits, hbound⟩ := hasked
    have hwritten := written_execute env hm hopen hfits
    rw [Answers]
    dsimp only at hbound ⊢
    cases hportal : s.heard.portals portal with
    | none =>
      rw [hportal] at hbound
      have hsince : s.heard.since = none := isNone_iff_eq_none.1 hbound.1
      have hsame : ∀ before ∈ s.heard.since,
          before.answer s.heard.sql = env.answer s.heard.sql := by
        rw [hsince]
        rintro _ ⟨⟩
      rw [hwritten, h.execute_written hsame]
      exact head_resultOf _ hbound.2
    | some bound =>
      rw [hportal] at hbound
      have hlatest : s.RunsLatest env bound := hbound
      intro _ hsql
      rw [hwritten, h.execute_written hlatest.2.2, hlatest.sql_eq hsql, hlatest.2.1]
  | parse name query types | bind name statement paramFormats params formats | describe target name
  | close target name | sync => exact trivial

/-- **The console answers what it was asked** in every session that runs, through
portals that are bound to it, the statement it parsed last. -/
theorem executes_answered {actions : List ConsoleAction}
    (hwell : ∀ a ∈ actions, a.2.wellFormed = true)
    (hasked : Along step Asked .new actions) : Along step Answers .new actions := by
  have hboth := hasked.and (along_of_forall_mem fun a ha _ => hwell a ha)
  have hmove (s : ConsoleSession) (a : ConsoleAction) (hslot : Slot s.portal s.heard)
      (h : s.Asked a ∧ a.2.wellFormed = true) : s.Answers a :=
    answers_of_asked hslot h.2 h.1
  apply Along.of_invariant hmove ?_ Slot.new hboth
  intro _ _ _ hslot h hstep
  exact slot_step hslot h.2 hstep

/-! ### Sessions of a driver -/

def found (clients : Bytes) : ConsoleEnv :=
  ⟨.ascii, id, fun topic =>
    (ResultSet.new [numericColumn (ascii "n")]).row
      [if topic = .clients then clients else ascii "0"]⟩

def showClients (name : Bytes) : ExtendedMessage := .parse name (ascii "show clients;") []

def showVersion (name : Bytes) : ExtendedMessage := .parse name (ascii "SHOW VERSION") []

def bindTo (portal statement : Bytes) (format : UInt16) : ExtendedMessage :=
  .bind portal statement [] [] [format]

def inTurn : List ConsoleAction :=
  [showClients (ascii "a"), .describe .statement (ascii "a"), .sync,
    bindTo [] (ascii "a") formatBinary, .describe .portal [], .execute [] 0, .sync,
    showVersion (ascii "b"), bindTo [] (ascii "b") formatText, .execute [] 0, .close .portal [],
    .sync, .parse [] (ascii "VACUUM") [], .execute (ascii "c") 0].map (Prod.mk (found (ascii "7")))

theorem executes_answered_in_turn :
    (∀ a ∈ inTurn, a.2.wellFormed = true) ∧ Along step Asked .new inTurn ∧
      (run step .new inTurn).isSome = true ∧ Along step Answers .new inTurn := by
  have hwell : ∀ a ∈ inTurn, a.2.wellFormed = true := by decide +kernel
  have hrun : Along step Asked .new inTurn ∧ (run step .new inTurn).isSome = true := by
    decide +kernel
  exact ⟨hwell, hrun.1, hrun.2, executes_answered hwell hrun.1⟩

def interleaved : List ConsoleAction :=
  [showClients (ascii "a"), showVersion (ascii "b"), bindTo [] (ascii "a") formatText,
    .execute [] 0].map (Prod.mk (found (ascii "7")))

def unbound : List ConsoleAction :=
  [showClients (ascii "a"), .execute (ascii "p") 0].map (Prod.mk (found (ascii "7")))

def runTwice : List ConsoleAction :=
  [showClients (ascii "a"), bindTo [] (ascii "a") formatText, .execute [] 0, .sync,
    bindTo [] (ascii "a") formatText].map (Prod.mk (found (ascii "7"))) ++
  [(found (ascii "8"), .execute [] 0)]

def twoFormats : List ConsoleAction :=
  [showClients (ascii "a"), bindTo (ascii "p") (ascii "a") formatText,
    bindTo (ascii "q") (ascii "a") formatBinary, .execute (ascii "p") 0].map
      (Prod.mk (found (ascii "7")))

def LastUnanswered (actions : List ConsoleAction) : Prop :=
  (∀ a ∈ actions, a.2.wellFormed = true) ∧ (run step .new actions).isSome = true ∧
    Along step Answers .new actions.dropLast ∧ ¬Along step Answers .new actions

instance (actions : List ConsoleAction) : Decidable (LastUnanswered actions) := by
  unfold LastUnanswered
  infer_instance

theorem executes_not_answered :
    LastUnanswered interleaved ∧ LastUnanswered unbound ∧ LastUnanswered runTwice ∧
      LastUnanswered twoFormats := by
  decide +kernel

end ConsoleSession

end Pontus.Proxy
