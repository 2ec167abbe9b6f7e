import Pontus.Proxy.Proofs.System

/-!
# Who holds a connection

A connection is held by one session at a time, and a move touches the moving
session's connection only.
-/

namespace Pontus.Proxy

open Lib Protocol Pool
open List (forall_mem_singleton)
open Function (update)

variable {conn c' : PoolConn} {p : Proc} {r : Replayed} {session : Session} {led : Option Led}
variable {a' : Answered} {events : List Event} {call : Option (Nat × InflightCall)}

/-! ## Holding a connection -/

def Phase.unserved : Phase → Bool
  | .fresh | .opening _ _ | .acquiring _ _ | .acquiringHome _ _ | .closed => true
  | _ => false

structure Owned (s : System) : Prop where
  holds : ∀ i c, (s.procs i).session.server = some c → (s.conns c).place = .held i
  without : ∀ i, (s.procs i).phase.unserved = true → (s.procs i).session.server = none
  fresh : ∀ c i, s.nextConn ≤ c → (s.conns c).place ≠ .held i

theorem owned_init : Owned .init := by
  constructor
  · nofun
  · intro i _
    rfl
  · nofun

structure Change.Legal (s : System) (i : Nat) (ch : Change) : Prop where
  touched : ∀ c conn, ch.conn = some (c, conn) →
    c ≤ s.nextConn ∧ ∀ j, (s.conns c).place = .held j → j = i
  place : ∀ c conn j, ch.conn = some (c, conn) → conn.place = .held j → j = i
  server : ∀ c, ch.proc.session.server = some c →
    (∃ conn, ch.conn = some (c, conn) ∧ conn.place = .held i) ∨
      ch.conn = none ∧ (s.procs i).session.server = some c
  without : ch.proc.phase.unserved = true → ch.proc.session.server = none
  events : ∀ e ∈ ch.events, e.session = i

def System.Free (s : System) (c : Nat) : Prop := c ≤ s.nextConn ∧ ∀ j, (s.conns c).place ≠ .held j

theorem System.free_of_returned {s : System} (hc : c < s.nextConn)
    (hplace : Place.isReturned (s.conns c).place) : s.Free c := by
  refine ⟨Nat.le_of_lt hc, ?_⟩
  intro _ hj
  rw [hj] at hplace
  cases hplace

theorem System.Taken.isFree {s : System} (hs : Owned s) (h : s.Taken i key source c conn) :
    s.Free c := by
  cases h with
  | dial => exact ⟨Nat.le_refl _, fun j => hs.fresh _ j (Nat.le_refl _)⟩
  | pooled hc _ hplace => exact free_of_returned hc hplace

namespace Owned

variable {s : System} {i : Nat} {ch : Change}

variable (hs : Owned s)
include hs

theorem lt_nextConn (h : (s.procs i).session.server = some c) : c < s.nextConn := by
  by_contra hle
  exact hs.fresh c i (Nat.le_of_not_lt hle) (hs.holds i c h)

theorem apply (hl : ch.Legal s i) : Owned (s.apply i ch) := by
  have hwithout : ∀ j, ((s.apply i ch).procs j).phase.unserved = true →
      ((s.apply i ch).procs j).session.server = none := by
    intro j
    rw [System.apply_procs]
    by_cases hj : j = i
    · subst hj
      rw [update_self]
      exact hl.without
    · rw [update_of_ne hj]
      exact hs.without j
  cases hconn : ch.conn with
  | none =>
    refine ⟨?_, hwithout, ?_⟩
    · intro j c hserver
      rw [System.apply_conns_none s i ch hconn]
      rw [System.apply_procs] at hserver
      by_cases hj : j = i
      · subst hj
        rw [update_self] at hserver
        rcases hl.server c hserver with ⟨conn, hsome, -⟩ | ⟨-, hbefore⟩
        · rw [hconn] at hsome
          cases hsome
        · exact hs.holds j c hbefore
      · rw [update_of_ne hj] at hserver
        exact hs.holds j c hserver
    · intro c j hle
      rw [System.apply_nextConn_none s i ch hconn] at hle
      rw [System.apply_conns_none s i ch hconn]
      exact hs.fresh c j hle
  | some touched =>
    obtain ⟨d, conn⟩ := touched
    obtain ⟨_, hfree⟩ := hl.touched d conn hconn
    refine ⟨?_, hwithout, ?_⟩
    · intro j c hserver
      rw [System.apply_conns_some s i ch hconn]
      rw [System.apply_procs] at hserver
      by_cases hj : j = i
      · subst hj
        rw [update_self] at hserver
        rcases hl.server c hserver with ⟨_, hsome, hplace⟩ | ⟨hnone, -⟩
        · rw [hconn, some_inj, Prod.mk.injEq] at hsome
          rw [← hsome.1, update_self, hsome.2]
          exact hplace
        · rw [hconn] at hnone
          cases hnone
      · rw [update_of_ne hj] at hserver
        have hheld := hs.holds j c hserver
        have hne : c ≠ d := by
          intro hcd
          rw [hcd] at hheld
          exact hj (hfree j hheld)
        rw [update_of_ne hne]
        exact hheld
    · intro c j hle
      rw [System.apply_nextConn_some s i ch hconn] at hle
      rw [System.apply_conns_some s i ch hconn]
      have hne : c ≠ d := by
        intro hcd
        split at hle <;> omega
      rw [update_of_ne hne]
      apply hs.fresh c j
      split at hle
      · omega
      · exact hle

theorem ne_of_free (hfree : s.Free c) (hserver : (s.procs i).session.server = some d) : d ≠ c := by
  intro hdc
  have hheld := hs.holds i d hserver
  rw [hdc] at hheld
  exact hfree.2 i hheld

theorem setConn_of_ne (conn : PoolConn) (hc : c ≤ s.nextConn)
    (hne : ∀ j d, (s.procs j).session.server = some d → d ≠ c) : Owned (s.setConn c conn) := by
  refine ⟨?_, hs.without, ?_⟩
  · intro j d hserver
    change (update s.conns c conn d).place = .held j
    rw [update_of_ne (hne j d hserver)]
    exact hs.holds j d hserver
  · intro d j hle
    change (if c = s.nextConn then c + 1 else s.nextConn) ≤ d at hle
    change (update s.conns c conn d).place ≠ .held j
    have hout : d ≠ c ∧ s.nextConn ≤ d := by split at hle <;> omega
    rw [update_of_ne hout.1]
    exact hs.fresh d j hout.2

theorem setConn (conn : PoolConn) (hfree : s.Free c) : Owned (s.setConn c conn) :=
  hs.setConn_of_ne conn hfree.1 fun _ _ hserver => hs.ne_of_free hfree hserver

theorem setProc (hafter : p.session.server = none) :
    Owned { s with procs := update s.procs i p } := by
  refine ⟨?_, ?_, hs.fresh⟩
  · intro j c hserver
    dsimp only at hserver ⊢
    by_cases hj : j = i
    · subst hj
      rw [update_self] at hserver
      exact nomatch hafter.symm.trans hserver
    · rw [update_of_ne hj] at hserver
      exact hs.holds j c hserver
  · intro j hunserved
    dsimp only at hunserved ⊢
    by_cases hj : j = i
    · subst hj
      rw [update_self]
      exact hafter
    · rw [update_of_ne hj] at hunserved ⊢
      exact hs.without j hunserved

end Owned

/-! ## Every move is legal -/

section
variable {cfg : Config} {s : System} {i : Nat}

structure Kept (c c' : PoolConn) : Prop where
  place : c'.place = c.place
  pool : c'.pool = c.pool
  startups : c'.wire.startups = c.wire.startups
  ready : c'.conn.ready = c.conn.ready
  dirty : c'.conn.dirty = c.conn.dirty

theorem Kept.refl (c : PoolConn) : Kept c c := ⟨rfl, rfl, rfl, rfl, rfl⟩

theorem Kept.trans (h : Kept c c') (h' : Kept c' c'') : Kept c c'' :=
  ⟨h'.place.trans h.place, h'.pool.trans h.pool, h'.startups.trans h.startups,
    h'.ready.trans h.ready, h'.dirty.trans h.dirty⟩

theorem markBroken_kept (c : PoolConn) : Kept c c.markBroken := ⟨rfl, rfl, rfl, rfl, rfl⟩

theorem markBrokenIf_kept (c : PoolConn) (failed : Bool) : Kept c (c.markBrokenIf failed) := by
  unfold PoolConn.markBrokenIf
  split
  · exact markBroken_kept c
  · exact .refl c

theorem addStatement_kept (c : PoolConn) (name : Bytes) :
    Kept c { c with conn := c.conn.addStatement name } := by
  unfold Conn.addStatement
  split <;> exact ⟨rfl, rfl, rfl, rfl, rfl⟩

theorem exchange_eq {w : Wire} (h : w.exchange reply taken = some w') :
    taken <+: w.unread ++ Frame.encodeAll reply ∧
      w' = { w with
        unread := (w.unread ++ Frame.encodeAll reply).drop taken.length
        status := lastStatus w.status reply } := by
  unfold Wire.exchange at h
  dsimp only at h
  split at h
  · rename_i htaken
    cases h
    exact ⟨htaken, rfl⟩
  · cases h

inductive RoundTripped (c : PoolConn) (t : RoundTrip) : PoolConn → Prop
  | unwritten (hwrite : t.writeError ≠ none) : RoundTripped c t c.markBroken
  | exchanged {wire : Wire} (hwrite : t.writeError = none)
      (htaken : t.taken <+: c.wire.unread ++ Frame.encodeAll t.reply)
      (hwire : wire = { c.wire with
        unread := (c.wire.unread ++ Frame.encodeAll t.reply).drop t.taken.length
        status := lastStatus c.wire.status t.reply }) :
      RoundTripped c t ({ c with wire := wire }.markBrokenIf t.readFails)

theorem roundTripped (h : c.roundTrip t = some c') : RoundTripped c t c' := by
  unfold PoolConn.roundTrip at h
  split at h
  · rename_i err hwrite
    cases h
    exact .unwritten (by rw [hwrite]; simp)
  · rename_i hwrite
    obtain ⟨_, hwire, rfl⟩ := map_eq_some_iff.1 h
    obtain ⟨htaken, hwire⟩ := exchange_eq hwire
    exact .exchanged hwrite htaken hwire

theorem roundTrip_kept (h : c.roundTrip t = some c') : Kept c c' := by
  cases roundTripped h with
  | unwritten => exact markBroken_kept c
  | @exchanged wire _ _ hwire =>
    have hexchange : Kept c { c with wire := wire } := by
      rw [hwire]
      exact ⟨rfl, rfl, rfl, rfl, rfl⟩
    exact hexchange.trans (markBrokenIf_kept _ _)

theorem roundTrips_kept (h : c.roundTrips rounds = some c') : Kept c c' := by
  induction rounds generalizing c with
  | nil =>
    cases h
    exact .refl _
  | cons _ _ ih =>
    obtain ⟨_, hd, hrest⟩ := bind_eq_some_iff.1 h
    exact (roundTrip_kept hd).trans (ih hrest)

theorem record_kept (c : PoolConn) (item : ReplayItem) :
    Kept c { c with conn := item.record c.conn } := by
  cases item with
  | setting => exact .refl c
  | statement name => exact addStatement_kept c name

/-- The ways through `replayLoop`: an item the connection is known to hold is
passed over, one that is missing is written and answered, and the first that is
refused ends it. -/
inductive Replays (i : Nat) : PoolConn → List ReplayItem → List AwaitTrip → Replayed → Prop
  | done (c : PoolConn) : Replays i c [] [] ⟨c, [], true⟩
  | held {c : PoolConn} {item : ReplayItem} {items : List ReplayItem} {trips : List AwaitTrip}
      {r : Replayed} (hheld : item.isHeld c.conn = true) (hrest : Replays i c items trips r) :
      Replays i c (item :: items) trips r
  | written {c c' : PoolConn} {item : ReplayItem} {items : List ReplayItem} {t : AwaitTrip}
      {trips : List AwaitTrip} {r : Replayed} (hmissing : item.isHeld c.conn = false)
      (htrip : c.roundTrip t.trip = some c') (hawait : t.await = some true)
      (hrest : Replays i { c' with
        wire := c'.wire.leave i [item.effect], conn := item.record c'.conn } items trips r) :
      Replays i c (item :: items) (t :: trips) { r with messages := item.message :: r.messages }
  | refused {c c' : PoolConn} {item : ReplayItem} {items : List ReplayItem} {t : AwaitTrip}
      (hmissing : item.isHeld c.conn = false) (htrip : c.roundTrip t.trip = some c')
      (hawait : t.await = some false) :
      Replays i c (item :: items) [t]
        ⟨{ c' with wire := c'.wire.leave i [item.effect] }, [item.message], false⟩

theorem replays_of_replayLoop (h : replayLoop i c items trips = some r) :
    Replays i c items trips r := by
  induction items generalizing c trips r with
  | nil =>
    cases trips with
    | nil =>
      cases h
      exact .done c
    | cons => cases h
  | cons _ _ ih =>
    unfold replayLoop at h
    split at h
    · rename_i hheld
      exact .held hheld (ih h)
    rename_i hmessage
    rw [not_eq_true] at hmessage
    split at h
    · cases h
    split at h
    · rename_i t trips c' succeeded htrip hawait
      split at h
      · rename_i hok
        obtain ⟨_, hr', rfl⟩ := map_eq_some_iff.1 h
        rw [hok] at hawait
        exact .written hmessage htrip hawait (ih hr')
      · rename_i hfail
        rw [not_eq_true] at hfail
        split at h
        · rename_i hlast
          cases h
          rw [hfail] at hawait
          rw [List.isEmpty_iff.1 hlast]
          exact .refused hmessage htrip hawait
        · cases h
    · cases h

/-- The ways through `replaySession`: there is nothing to do, or both maps are
walked, each in an order of its own. -/
theorem replaySession_cases (h : replaySession i session c env = some r) :
    (session.shouldReplay = false ∧ env.replays = [] ∧ r = ⟨c, [], true⟩) ∨
      session.shouldReplay ∧ env.varOrder.Perm session.state.vars.keys ∧
        env.stmtOrder.Perm session.state.stmts.keys ∧
        ∃ r', Replays i c (replayItems session.state env.varOrder env.stmtOrder) env.replays r' ∧
          r = { r' with conn := r'.conn.markBrokenIf (!r'.succeeded) } := by
  unfold replaySession at h
  split at h
  · rename_i hreplay
    split at h
    · rename_i hnone
      cases h
      exact .inl ⟨by simpa using hreplay, List.isEmpty_iff.1 hnone, rfl⟩
    · cases h
  rename_i hreplay
  split at h
  · rename_i horder
    rw [and_eq_true, List.isPerm_iff, List.isPerm_iff] at horder
    obtain ⟨r', hr', rfl⟩ := map_eq_some_iff.1 h
    exact .inr ⟨by simpa using hreplay, horder.1, horder.2, r', replays_of_replayLoop hr', rfl⟩
  · cases h

theorem Replays.kept (h : Replays i c items trips r) : Kept c r.conn := by
  have hleft (c : PoolConn) (item : ReplayItem) :
      Kept c { c with wire := c.wire.leave i [item.effect] } := ⟨rfl, rfl, rfl, rfl, rfl⟩
  induction h with
  | done c => exact .refl c
  | held _ _ ih => exact ih
  | written _ htrip _ _ ih =>
    exact (((roundTrip_kept htrip).trans (hleft _ _)).trans (record_kept _ _)).trans ih
  | refused _ htrip => exact (roundTrip_kept htrip).trans (hleft _ _)

theorem replaySession_kept (h : replaySession i session c env = some r) : Kept c r.conn := by
  rcases replaySession_cases h with ⟨-, -, rfl⟩ | ⟨-, -, -, _, hr', rfl⟩
  · exact .refl c
  · exact hr'.kept.trans (markBrokenIf_kept _ _)

structure Forwarded (cfg : Config) (i : Nat) (session : Session) (led : Option Led)
    (c : PoolConn) (env : ServeEnv) (a : Answered) : Prop where
  exchange : ∃ wire, ((c.wire.forget env.forgets).leave i env.effects).exchange env.reply
      env.taken = some wire ∧
    a.conn = { c with
      wire := wire
      conn := c.conn.addStatement (parseStatementName session.data) }.markBrokenIf
      (env.readFails || a.response.err == some NetError.deadlineExceeded)
  response : proxyResponse env.setDeadline env.relay (captureFor cfg session led)
    session.queryInfo.readOnly (responseEndFor session.data) env.passes = some a.response
  unread : a.response.unread = []
  session : a.session = { session with
    state := settleTransaction (trackRequest session.state session.data) a.response.state
    responseCapture := session.responseCapture.bind fun _ =>
      a.response.capture.map ResponseCapture.buf
    replyFailed := a.response.failed.getD session.replyFailed }

theorem forwarded_of_forwardReply (h : forwardReply cfg i session led c env = some a) :
    Forwarded cfg i session led c env a := by
  unfold forwardReply at h
  split at h
  · rename_i wire r hwire hresponse
    split at h
    · rename_i hunread
      cases h
      exact ⟨⟨wire, hwire, rfl⟩, hresponse, hunread, rfl⟩
    · cases h
  · cases h

theorem Forwarded.kept (h : Forwarded cfg i session led c env a) : Kept c a.conn := by
  obtain ⟨wire, hwire, hconn⟩ := h.exchange
  have hstartups : wire.startups = c.wire.startups := by
    rw [(exchange_eq hwire).2]
    rfl
  have hexchange : Kept c { c with wire := wire } := ⟨rfl, rfl, hstartups, rfl, rfl⟩
  rw [hconn]
  exact hexchange.trans ((addStatement_kept _ _).trans (markBrokenIf_kept _ _))

structure SameClient (state state' : SessionState) : Prop where
  user : state'.user = state.user
  database : state'.database = state.database
  lastLSN : state'.lastLSN = state.lastLSN

theorem SameClient.trans (h : SameClient state state') (h' : SameClient state' state'') :
    SameClient state state'' :=
  ⟨h'.user.trans h.user, h'.database.trans h.database, h'.lastLSN.trans h.lastLSN⟩

section
variable (state : SessionState) (data : Bytes)

theorem trackSessionState_sameClient : SameClient state (trackSessionState state data) := by
  unfold trackSessionState trackStatement
  dsimp only
  repeat' split
  all_goals exact ⟨rfl, rfl, rfl⟩

theorem trackPreparedStatement_sameClient :
    SameClient state (trackPreparedStatement state data) := by
  unfold trackPreparedStatement
  repeat' split
  all_goals exact ⟨rfl, rfl, rfl⟩

theorem forgetPreparedStatement_sameClient :
    SameClient state (forgetPreparedStatement state data) := by
  unfold forgetPreparedStatement
  repeat' split
  all_goals exact ⟨rfl, rfl, rfl⟩

end

theorem settleTransaction_sameClient (state : SessionState) (txState : TransactionState) :
    SameClient state (settleTransaction state txState) := by
  unfold settleTransaction
  split <;> exact ⟨rfl, rfl, rfl⟩

theorem Forwarded.sameClient (h : Forwarded cfg i session led c env a) :
    SameClient session.state a.session.state := by
  have htracked : SameClient session.state (trackRequest session.state session.data) :=
    (trackSessionState_sameClient _ _).trans
      ((trackPreparedStatement_sameClient _ _).trans (forgetPreparedStatement_sameClient _ _))
  rw [h.session]
  exact htracked.trans (settleTransaction_sameClient _ _)

structure LSNRecorded (a a' : Answered) (env : ServeEnv) : Prop where
  response : a'.response = a.response
  session : a'.session = a.session ∨ ∃ lsn, a'.session =
      { a.session with state := { a.session.state with lastLSN := lsn } } ∧
    a.session.queryInfo.readOnly = false ∧ a.response.err = none ∧
      getCurrentLSN env.lsn = some (.ok lsn)
  conn : a'.conn = a.conn ∨
    (a.session.queryInfo.readOnly = false ∧ a.response.err = none) ∧
      a.conn.roundTrip env.lsn = some a'.conn ∧ getCurrentLSN env.lsn ≠ none

theorem lsnRecorded_of_recordLSN (h : recordLSN a env = some a') : LSNRecorded a a' env := by
  unfold recordLSN at h
  split at h
  · rename_i hcondition
    rw [and_eq_true, not_eq_true', isNone_iff_eq_none] at hcondition
    split at h
    · rename_i conn lsn hconn hlsn
      cases h
      exact ⟨rfl, .inr ⟨lsn, rfl, hcondition.1, hcondition.2, hlsn⟩,
        .inr ⟨hcondition, hconn, by rw [hlsn]; simp⟩⟩
    · rename_i conn err hconn hlsn
      cases h
      exact ⟨rfl, .inl rfl, .inr ⟨hcondition, hconn, by rw [hlsn]; simp⟩⟩
    · cases h
  · cases h
    exact ⟨rfl, .inl rfl, .inl rfl⟩

theorem LSNRecorded.kept (h : LSNRecorded a a' env) : Kept a.conn a'.conn := by
  rcases h.conn with hconn | ⟨-, hconn, -⟩
  · rw [hconn]
    exact .refl _
  · exact roundTrip_kept hconn

theorem served_kept (hreplay : replaySession i session c env = some r)
    (hforwarded : Forwarded cfg i session led r.conn env a) (hrecorded : LSNRecorded a a' env) :
    Kept c a'.conn :=
  ((replaySession_kept hreplay).trans hforwarded.kept).trans hrecorded.kept

theorem LSNRecorded.server (h : LSNRecorded a a' env) : a'.session.server = a.session.server := by
  rcases h.session with hsession | ⟨_, hsession, -⟩ <;> rw [hsession]

theorem LSNRecorded.backend (h : LSNRecorded a a' env) :
    a'.session.backend = a.session.backend := by
  rcases h.session with hsession | ⟨_, hsession, -⟩ <;> rw [hsession]

theorem settleTransaction_txState (state : SessionState) (txState : TransactionState) :
    (settleTransaction state txState).txState = txState := rfl

theorem LSNRecorded.txState (hforwarded : Forwarded cfg i session led c env a)
    (h : LSNRecorded a a' env) : a'.session.state.txState = a'.response.state := by
  rw [h.response]
  rcases h.session with hsession | ⟨_, hsession, -⟩
  · rw [hsession, hforwarded.session, settleTransaction_txState]
  · rw [hsession, hforwarded.session, settleTransaction_txState]

theorem legal_of_proc (hserver : p.session.server = none ∨
      p.session.server = (s.procs i).session.server ∧ p.phase.unserved = false)
    (hevents : ∀ e ∈ events, e.session = i) :
    Change.Legal s i { proc := p, call := call, inFlight := inFlight, events := events } where
  touched := by
    nofun
  place := by
    intro c _ _ h
    cases h
  server := by
    intro _ hc
    rcases hserver with hnone | ⟨hsame, -⟩
    · rw [hnone] at hc
      cases hc
    · rw [hsame] at hc
      exact .inr ⟨rfl, hc⟩
  without := by
    intro h
    rcases hserver with hnone | ⟨-, hphase⟩
    · exact hnone
    · rw [hphase] at h
      cases h
  events := hevents

section
variable (hbound : c ≤ s.nextConn) (hfree : ∀ j, (s.conns c).place = .held j → j = i)
include hbound hfree

theorem legal_of_kept (hplace : conn.place = .held i) (hserver : p.session.server = some c)
    (hphase : p.phase.unserved = false) (hevents : ∀ e ∈ events, e.session = i) :
    Change.Legal s i { proc := p, conn := some (c, conn), call := call, events := events } where
  touched := by
    intro d conn' h
    cases h
    exact ⟨hbound, hfree⟩
  place := by
    intro d _ _ h hj
    cases h
    rw [hplace, Place.held.injEq] at hj
    exact hj.symm
  server := by
    intro _ hd
    rw [hserver, some_inj] at hd
    rw [← hd]
    exact .inl ⟨conn, rfl, hplace⟩
  without := by
    intro h
    rw [hphase] at h
    cases h
  events := hevents

theorem legal_of_released (hserver : p.session.server = none)
    (hevents : ∀ e ∈ events, e.session = i) :
    Change.Legal s i
      { proc := p, conn := some (c, conn.release draining), call := call, events := events } where
  touched := by
    intro d conn' h
    cases h
    exact ⟨hbound, hfree⟩
  place := by
    intro d _ _ h hj
    cases h
    cases hj
  server := by
    intro _ hd
    rw [hserver] at hd
    cases hd
  without := fun _ => hserver
  events := hevents

end

theorem System.Taken.free (hs : Owned s) (h : s.Taken i key source c conn) :
    c ≤ s.nextConn ∧ ∀ j, (s.conns c).place = .held j → j = i :=
  ⟨(h.isFree hs).1, fun j hj => absurd hj ((h.isFree hs).2 j)⟩

theorem Owned.free (hs : Owned s) (h : (s.procs i).session.server = some c) :
    c ≤ s.nextConn ∧ ∀ j, (s.conns c).place = .held j → j = i := by
  refine ⟨Nat.le_of_lt (hs.lt_nextConn h), ?_⟩
  intro _ hj
  rw [hs.holds i c h, Place.held.injEq] at hj
  exact hj.symm

theorem Obtained.legal (hs : Owned s)
    (hfree : c ≤ s.nextConn ∧ ∀ j, (s.conns c).place = .held j → j = i)
    (hplace : conn.place = .held i) (hphase : (s.procs i).phase.unserved)
    (h : Obtained s i led retry backend c conn env ch) : ch.Legal s i := by
  cases h with
  | installed hconn =>
    apply legal_of_kept hfree.1 hfree.2 _ rfl rfl
    · exact forall_mem_singleton.2 rfl
    · rcases hconn with rfl | ⟨hconn, -⟩
      · exact hplace
      · rw [(roundTrips_kept hconn).place]
        exact hplace
  | behind =>
    refine legal_of_released hfree.1 hfree.2 ?_ ?_
    · exact hs.without i hphase
    · exact forall_mem_cons.2 ⟨rfl, forall_mem_singleton.2 rfl⟩

theorem openBackend_place (h : openBackend cfg req conn env = (conn', outcome)) :
    conn'.place = conn.place := by
  cases backendOpened h with
  | reused hready | started hready hpacket hout => rfl

theorem proceed_server (p : Proc) (led : Option Led) :
    (p.proceed led).session.server = none ∨
      (p.proceed led).session.server = p.session.server ∧
        (p.proceed led).phase.unserved = false := by
  cases hserver : p.session.server with
  | none => exact .inl hserver
  | some =>
    refine .inr ⟨hserver, ?_⟩
    simp only [Proc.proceed, hserver]
    rfl

theorem forall_served {P : Event → Prop} {reply : List Event} {replied wrote replayed : Event}
    {succeeded : Bool} (hreply : reply = if succeeded then [replied] else []) (hreplied : P replied)
    (hwrote : P wrote) (hreplayed : P replayed) : ∀ e ∈ reply ++ [wrote, replayed], P e := by
  have hwritten : ∀ e ∈ [wrote, replayed], P e :=
    forall_mem_cons.2 ⟨hwrote, forall_mem_singleton.2 hreplayed⟩
  rw [hreply]
  cases succeeded with
  | false => exact hwritten
  | true => exact forall_mem_cons.2 ⟨hreplied, hwritten⟩

theorem settle_legal (hbound : c ≤ s.nextConn) (hfree : ∀ j, (s.conns c).place = .held j → j = i)
    (hplace : a.conn.place = .held i) (hserver : a.session.server = some c)
    (hreply : reply = if a.response.err.isNone then
      [Event.replied i (led.map Led.call) taken] else [])
    (hevents : events = reply ++ [.wrote i c data, .replayed i c messages txState batchOpen]) :
    (settle cfg s i (s.procs i) led c a events).Legal s i := by
  have hown : ∀ e ∈ events, e.session = i := by
    rw [hevents]
    exact forall_served hreply rfl rfl rfl
  unfold settle
  split
  · apply legal_of_released hbound hfree rfl
    exact forall_mem_cons.2 ⟨rfl, hown⟩
  · exact legal_of_kept hbound hfree hplace hserver rfl hown

/-- **Every move is legal.** -/
theorem legal_of_outcome (hs : Owned s) (h : Outcome cfg s i a ch) : ch.Legal s i := by
  have hwithout := hs.without i
  cases h with
  | connectClosed hphase | noBackend hphase
  | concludedClosed => exact legal_of_proc (.inl rfl) (by simp)
  | connected hphase | notPicked hphase | noHome hphase =>
    exact legal_of_proc (.inl (hwithout (by rw [hphase]; rfl))) (by simp)
  | opened _ _ htaken hopen =>
    obtain ⟨hbound, hfree⟩ := htaken.free hs
    unfold sessionOpened
    dsimp only
    split
    · apply legal_of_released hbound hfree rfl
      exact forall_mem_cons.2 ⟨rfl, forall_mem_singleton.2 rfl⟩
    · exact legal_of_kept hbound hfree ((openBackend_place hopen).trans htaken.place) rfl rfl
        (forall_mem_singleton.2 rfl)
  | wrongConnection hphase _ htaken _ hp =>
    obtain ⟨hbound, hfree⟩ := htaken.free hs
    apply legal_of_released hbound hfree _ (forall_mem_singleton.2 rfl)
    rcases hp with rfl | ⟨left, rfl⟩
    · rfl
    · exact hwithout (by rw [hphase]; rfl)
  | openFailed _ _ htaken =>
    obtain ⟨hbound, hfree⟩ := htaken.free hs
    exact legal_of_released hbound hfree rfl (forall_mem_singleton.2 rfl)
  | left =>
    unfold leaveSession
    split
    · rename_i backend c hback hserver
      obtain ⟨hbound, hfree⟩ := hs.free hserver
      exact legal_of_released hbound hfree rfl (forall_mem_singleton.2 rfl)
    · exact legal_of_proc (.inl rfl) (by simp)
  | request _ hnext =>
    refine legal_of_proc (.inr ⟨rfl, ?_⟩) (by simp)
    rcases hnext with rfl | rfl <;> rfl
  | refused hphase href | hit hphase href hhit | finished hphase | finishedLeader hphase
  | concluded => exact legal_of_proc (.inr ⟨rfl, rfl⟩) (by simp)
  | passed _ _ hsession =>
    apply legal_of_proc (.inr ⟨_, rfl⟩) (by simp)
    rcases hsession with rfl | rfl <;> rfl
  | alone hphase
  | leads => exact legal_of_proc (proceed_server _ _) (forall_mem_singleton.2 rfl)
  | follows => exact legal_of_proc (.inr ⟨rfl, rfl⟩) (forall_mem_singleton.2 rfl)
  | shared =>
    refine legal_of_proc (.inr ⟨rfl, rfl⟩) ?_
    split
    · simp
    · exact forall_mem_singleton.2 rfl
  | fallsThrough => exact legal_of_proc (proceed_server _ _) (by simp)
  | usable hphase hpicked htaken hready hobtained
  | usableHome hphase _ htaken _ hobtained =>
    exact (obtained_cases hobtained).legal hs (htaken.free hs) htaken.place (by rw [hphase]; rfl)
  | authenticated hphase _ htaken _ hobtained =>
    refine (obtained_cases hobtained).legal hs (htaken.free hs) ?_ (by rw [hphase]; rfl)
    exact htaken.place
  | unusable hphase hpicked htaken hwire | unusableHome hphase hhome htaken =>
    obtain ⟨hbound, hfree⟩ := htaken.free hs
    exact legal_of_released hbound hfree (hwithout (by rw [hphase]; rfl))
      (forall_mem_singleton.2 rfl)
  | replayFailed _ hserver hreplay =>
    obtain ⟨hbound, hfree⟩ := hs.free hserver
    exact legal_of_kept hbound hfree
      ((replaySession_kept hreplay).place.trans (hs.holds i _ hserver)) hserver rfl
      (forall_mem_singleton.2 rfl)
  | writeFailed _ hserver =>
    obtain ⟨hbound, hfree⟩ := hs.free hserver
    apply legal_of_released hbound hfree rfl
    exact forall_mem_cons.2 ⟨rfl, forall_mem_singleton.2 rfl⟩
  | @answered _ _ _ _ _ _ a' _ _ hserver hreplay _ _ hforward hlsn hreply =>
    obtain ⟨hbound, hfree⟩ := hs.free hserver
    have hforwarded := forwarded_of_forwardReply hforward
    have hrecorded := lsnRecorded_of_recordLSN hlsn
    have hplace : a'.conn.place = .held i :=
      (served_kept hreplay hforwarded hrecorded).place.trans (hs.holds i _ hserver)
    exact settle_legal hbound hfree hplace
      (by rw [hrecorded.server, hforwarded.session]; exact hserver) hreply rfl
  | concludedFailed hphase hserver | concludedReleased hphase hserver hreleased hconn =>
    obtain ⟨hbound, hfree⟩ := hs.free hserver
    exact legal_of_released hbound hfree rfl (forall_mem_singleton.2 rfl)

end

end Pontus.Proxy
