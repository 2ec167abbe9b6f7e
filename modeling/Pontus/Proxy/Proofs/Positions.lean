import Pontus.Proxy.Positions
import Pontus.Proxy.Proofs.Turns
import Pontus.Proxy.Proofs.WholeReply

/-!
# A session's write position

The position is set from the answer to a query of the gateway's own, behind
every request that is not a read, and whatever that answer is.  When such
requests go to the primary, end outside a failed transaction and with no batch
open, and the primary says how far it has written, the position only grows; and
when only a read that is tried for the first time may go to a replica, the
replica has been waited for.
-/

namespace Pontus.Proxy

open Lib Protocol Pool Protocol.ReplyScanner
open Protocol.TransactionState

def PositionKept (old new : Bytes) : Prop := old = [] ∨ new ≠ [] ∧ lsnValue old ≤ lsnValue new

theorem PositionKept.refl (lsn : Bytes) : PositionKept lsn lsn := by
  by_cases h : lsn = []
  · exact .inl h
  · exact .inr ⟨h, le_rfl⟩

theorem PositionKept.trans (h : PositionKept old mid) (h' : PositionKept mid new) :
    PositionKept old new := by
  rcases h with h | ⟨hmid, hle⟩
  · exact .inl h
  · rcases h' with h' | ⟨hnew, hle'⟩
    · exact absurd h' hmid
    · exact .inr ⟨hnew, hle.trans hle'⟩

/-! ## The condition -/

def ServeEnv.endsUnfailed (session : Session) (env : ServeEnv) : Bool :=
  env.replays.all AwaitTrip.readsReply &&
    endsWithReply (streamSignals (responseEndFor session.data) env.reply)
      (env.passes.map Pass.data) &&
    (endStatus env.reply).any fun status => status != stateError

def tellsWritten (t : RoundTrip) (written : Nat) : Bool :=
  t.writeError.isSome || t.readFails || t.reports fun lsn => lsnValue lsn == written

/-- A session that has a position takes a connection of a replica only for a
read, and only as long as the primary has not been asked for instead. -/
def Routed.mayTake (r : Routed) (i : Nat) (env : AcquireEnv) : Bool :=
  !env.replica || r.position i == [] ||
    ((r.sys.procs i).session.queryInfo.readOnly && (r.sys.procs i).phase.firstTry)

/-- A request that is not a read is served on the primary, with nothing unread
there; it leaves no batch open and no failed transaction behind, and the
primary tells how far it has written. -/
def Routed.keepsPosition (r : Routed) : RoutedAction → Bool
  | .gateway (.act i (.serve env)) =>
    let p := r.sys.procs i
    p.session.queryInfo.readOnly ||
      (!(r.route i).replica &&
        p.session.server.all (fun c => (r.sys.conns c).wire.unread.isEmpty) &&
        env.endsUnfailed p.session && !batchOpenAfter p.batchOpen p.session.data &&
        tellsWritten env.lsn r.written)
  | .gateway (.act i (.acquire env)) => r.mayTake i env
  | .gateway (.act i (.acquireHome _ env)) => r.mayTake i env
  | _ => true

/-! ## What a move does to the position -/

section
variable {cfg : Config} {s : System} {i : Nat} {a : Act} {ch : Change}

/-- The position is left alone, or set from the answer to the gateway's own
question. -/
theorem Turn.position (h : Turn cfg s i a ch) :
    ch.proc.session.state.lastLSN = (s.procs i).session.state.lastLSN ∨
      ∃ env, a = .serve env ∧ (s.procs i).phase.starting = false ∧
        (s.procs i).session.queryInfo.readOnly = false ∧
        getCurrentLSN env.lsn = some (.ok ch.proc.session.state.lastLSN) := by
  cases h with
  | named | closed | installed | replayFailed | concludedReleased => exact .inl rfl
  | quiet hcontinues | bypassed hcontinues => exact .inl (by rw [hcontinues.state])
  | opened =>
    unfold sessionOpened
    dsimp only
    split <;> exact .inl rfl
  | givenBack _ _ hproc => rcases hproc with rfl | ⟨phase, rfl, -⟩ <;> exact .inl rfl
  | leaves _ _ _ hstate => exact .inl (by rw [hstate])
  | @answered env _ _ _ _ _ _ _ hphase _ _ _ hforwarded hrecorded =>
    rw [settle_state]
    rcases hrecorded.session with hsession | ⟨lsn, hsession, hreadOnly, -, hlsn⟩
    · rw [hsession]
      exact .inl hforwarded.sameClient.lastLSN
    · rw [hforwarded.session] at hreadOnly
      rw [hsession]
      exact .inr ⟨env, rfl, by rw [hphase]; rfl, hreadOnly, hlsn⟩

end

/-! ## The invariant -/

structure PositionInv (r : Routed) : Prop where
  owned : Owned r.sys
  starting : ∀ i, (r.sys.procs i).phase.starting = true → r.position i = []
  waited : ∀ i c, (r.sys.procs i).session.server = some c → (r.route i).replica = true →
    r.position i = [] ∨ (r.route i).waited = some (r.position i)
  written : ∀ i, lsnValue (r.position i) ≤ r.written

theorem positionInv_init (role : Bytes → Bool) : PositionInv (.init role) where
  owned := owned_init
  starting := fun _ _ => rfl
  waited := fun _ _ h => nomatch h
  written := fun _ => le_rfl

section
variable {cfg : Config} {r : Routed} {i : Nat} {a : Act} {ch : Change}

theorem position_of_tellsWritten (ht : tellsWritten t written)
    (h : getCurrentLSN t = some (.ok lsn)) : lsn ≠ [] ∧ lsnValue lsn = written := by
  unfold getCurrentLSN at h
  have hwrite : t.writeError = none := by
    unfold probe at h
    split at h
    · cases h
    · assumption
  have hreads : t.readFails = false := by
    unfold probe at h
    rw [hwrite] at h
    exact probeLoop_reads h
  rw [tellsWritten, hwrite, hreads, Option.isSome_none, Bool.false_or, Bool.false_or] at ht
  obtain ⟨hvalue, hne⟩ := RoundTrip.of_getCurrentLSN ht h
  exact ⟨hne, eq_of_beq hvalue⟩

theorem Routed.recorded (hallowed : r.keepsPosition (.gateway (.act i a)))
    (h : Turn cfg r.sys i a ch) :
    ch.proc.session.state.lastLSN = r.position i ∨
      (∃ env, a = .serve env) ∧ (r.sys.procs i).phase.starting = false ∧
        (r.route i).replica = false ∧ ch.proc.session.state.lastLSN ≠ [] ∧
        lsnValue ch.proc.session.state.lastLSN = r.written := by
  rcases h.position with hsame | ⟨env, rfl, hstarted, hreadOnly, hlsn⟩
  · exact .inl hsame
  · simp only [Routed.keepsPosition, hreadOnly, Bool.false_or, and_eq_true,
      not_eq_true'] at hallowed
    obtain ⟨⟨⟨⟨hprimary, -⟩, -⟩, -⟩, htells⟩ := hallowed
    obtain ⟨hne, hvalue⟩ := position_of_tellsWritten htells hlsn
    exact .inr ⟨⟨env, rfl⟩, hstarted, hprimary, hne, hvalue⟩

theorem Routed.taken_waited (hallowed : r.keepsPosition (.gateway (.act i a)))
    (hacquires : (r.sys.procs i).Acquires led retry env a)
    (hwaited : (!retry && (r.sys.procs i).session.queryInfo.readOnly &&
      (r.sys.procs i).session.state.lastLSN ≠ [] && env.replica) = true →
      waitLSN env.rounds = some true) (hreplica : (r.taken i backend a).replica) :
    r.position i = [] ∨ (r.taken i backend a).waited = some (r.position i) := by
  have hmay : r.mayTake i env = true ∧ (r.sys.procs i).phase.firstTry = !retry ∧
      r.taken i backend a = ⟨env.replica, r.waitedFor i env⟩ := by
    cases hacquires with
    | picked hphase | home hphase => exact ⟨hallowed, by rw [hphase]; rfl, rfl⟩
  obtain ⟨hmay, htry, htaken⟩ := hmay
  rw [htaken] at hreplica ⊢
  dsimp only at hreplica ⊢
  by_cases hpos : r.position i = []
  · exact .inl hpos
  · rw [Routed.mayTake, hreplica, htry, beq_false_of_ne hpos, Bool.not_true, Bool.false_or,
      Bool.false_or, and_eq_true] at hmay
    have hwait : waitLSN env.rounds = some true := by
      have hdecide : decide ((r.sys.procs i).session.state.lastLSN ≠ []) = true :=
        decide_eq_true hpos
      apply hwaited
      rw [hmay.1, hmay.2, hreplica, hdecide]
      rfl
    refine .inr ?_
    unfold Routed.waitedFor
    rw [htry, hmay.1, hmay.2, hreplica, hwait, decide_eq_true hpos]
    rfl

theorem Routed.routes_other {sys : System} {j : Nat} (hj : j ≠ i) :
    r.routes sys (.act i a) j = r.route j := by
  dsimp only [Routed.routes]
  split
  · rw [update_of_ne hj]
  · rfl

theorem Routed.routes_held {sys : System} {c : Nat}
    (h : (r.sys.procs i).session.server = some c) : r.routes sys (.act i a) = r.route := by
  dsimp only [Routed.routes]
  rw [h, if_neg (by simp)]

theorem Routed.routes_got {sys : System} (h : (r.sys.procs i).session.server = none)
    (hgot : (sys.procs i).session.server = some c) :
    r.routes sys (.act i a) i = r.taken i (sys.procs i).session.backend a := by
  dsimp only [Routed.routes]
  rw [h, hgot, if_pos (by simp), update_self]

section
variable (hr : PositionInv r) (hallowed : r.keepsPosition (.gateway (.act i a)))
include hr hallowed

theorem PositionInv.act_waited (hturn : Turn cfg r.sys i a ch) (hself : sys.procs i = ch.proc)
    (hserver : ch.proc.session.server = some c) (hreplica : (r.routes sys (.act i a) i).replica) :
    ch.proc.session.state.lastLSN = [] ∨
      (r.routes sys (.act i a) i).waited = some ch.proc.session.state.lastLSN := by
  rcases hturn.server hr.owned hserver with hheld | ⟨hnone, hgot⟩
  · rw [Routed.routes_held hheld] at hreplica ⊢
    rcases Routed.recorded hallowed hturn with hsame | ⟨-, -, hprimary, -⟩
    · rw [hsame]
      exact hr.waited i c hheld hreplica
    · exact nomatch hprimary.symm.trans hreplica
  · rw [Routed.routes_got hnone (by rw [hself]; exact hserver)] at hreplica ⊢
    rcases Routed.recorded hallowed hturn with hsame | ⟨⟨env, rfl⟩, hstarted, -⟩
    · rw [hsame]
      rcases hgot with hstarting | ⟨led, retry, env, hacquires, hwaited⟩
      · exact .inl (hr.starting i hstarting)
      · exact Routed.taken_waited hallowed hacquires hwaited hreplica
    · -- nothing is acquired where a request is served
      rcases hgot with hstarting | ⟨led, retry, env', hacquires, -⟩
      · exact nomatch hstarted.symm.trans hstarting
      · cases hacquires

theorem PositionInv.act (hout : Outcome cfg r.sys i a ch) :
    PositionInv { r with
      sys := r.sys.apply i ch, route := r.routes (r.sys.apply i ch) (.act i a) } := by
  have hturn := turn_of_outcome hr.owned hout
  have hrecorded := Routed.recorded hallowed hturn
  have hself : (r.sys.apply i ch).procs i = ch.proc := by
    rw [System.apply_procs, update_self]
  have hother : ∀ j, j ≠ i → (r.sys.apply i ch).procs j = r.sys.procs j := by
    intro j hj
    rw [System.apply_procs, update_of_ne hj]
  refine ⟨hr.owned.apply (legal_of_outcome hr.owned hout), ?_, ?_, ?_⟩
  · intro j hstarting
    dsimp only [Routed.position] at hstarting ⊢
    by_cases hj : j = i
    · subst hj
      rw [hself] at hstarting ⊢
      have hstarting := hturn.starting hstarting
      rcases hrecorded with hsame | ⟨-, hstarted, -⟩
      · rw [hsame]
        exact hr.starting j hstarting
      · exact nomatch hstarted.symm.trans hstarting
    · rw [hother j hj] at hstarting ⊢
      exact hr.starting j hstarting
  · intro j c hserver hreplica
    dsimp only [Routed.position] at hserver hreplica ⊢
    by_cases hj : j = i
    · subst hj
      rw [hself] at hserver ⊢
      exact hr.act_waited hallowed hturn hself hserver hreplica
    · rw [hother j hj] at hserver ⊢
      rw [Routed.routes_other hj] at hreplica ⊢
      exact hr.waited j c hserver hreplica
  · intro j
    dsimp only [Routed.position]
    by_cases hj : j = i
    · subst hj
      rw [hself]
      rcases hrecorded with hsame | ⟨-, -, -, -, hvalue⟩
      · rw [hsame]
        exact hr.written j
      · exact hvalue.le
    · rw [hother j hj]
      exact hr.written j

theorem PositionInv.act_kept (hout : Outcome cfg r.sys i a ch) (j : Nat) :
    PositionKept (r.position j) ((r.sys.apply i ch).procs j).session.state.lastLSN := by
  by_cases hj : j = i
  · subst hj
    rw [System.apply_procs, update_self]
    rcases Routed.recorded hallowed (turn_of_outcome hr.owned hout) with
      hsame | ⟨-, -, -, hne, hvalue⟩
    · rw [hsame]
      exact .refl _
    · refine .inr ⟨hne, ?_⟩
      rw [hvalue]
      exact hr.written j
  · rw [System.apply_procs, update_of_ne hj]
    exact .refl _

end

/-- **Every allowed move keeps the positions.** -/
theorem PositionInv.step (hr : PositionInv r) {a : RoutedAction} {r' : Routed}
    (hallowed : r.keepsPosition a) (h : r.step cfg a = some r') :
    PositionInv r' ∧ ∀ i, PositionKept (r.position i) (r'.position i) := by
  cases a with
  | gateway =>
    simp only [Routed.step] at h
    split at h
    · obtain ⟨sys, hsystem, rfl⟩ := map_eq_some_iff.1 h
      cases moved_of_step hsystem with
      | session hout => exact ⟨hr.act hallowed hout, hr.act_kept hallowed hout⟩
      | reset hc hplace =>
        refine ⟨⟨?_, hr.starting, hr.waited, hr.written⟩, fun i => .refl _⟩
        exact hr.owned.setConn _ (System.free_of_returned hc (by rw [hplace]; rfl))
      | drained =>
        refine ⟨⟨?_, hr.starting, hr.waited, hr.written⟩, fun i => .refl _⟩
        exact ⟨hr.owned.holds, hr.owned.without, hr.owned.fresh⟩
    · cases h
  | promote =>
    cases h
    exact ⟨⟨hr.owned, hr.starting, hr.waited, hr.written⟩, fun i => .refl _⟩
  | write =>
    cases h
    refine ⟨⟨hr.owned, hr.starting, hr.waited, ?_⟩, fun i => .refl _⟩
    intro i
    exact (hr.written i).trans (Nat.le_add_right _ _)

structure KeptSince (start r : Routed) : Prop where
  inv : PositionInv r
  kept : ∀ i, PositionKept (start.position i) (r.position i)

theorem KeptSince.run {start : Routed} {actions : List RoutedAction} {r' : Routed}
    (hr : KeptSince start r)
    (hallowed : Along (Routed.step cfg) (fun r a => r.keepsPosition a = true) r actions)
    (hrun : Pontus.Lib.run (Routed.step cfg) r actions = some r') : KeptSince start r' := by
  apply run_invariant _ hr hallowed hrun
  intro u a u' hu ha hstep
  obtain ⟨hinv, hkept⟩ := hu.inv.step ha hstep
  exact ⟨hinv, fun i => (hu.kept i).trans (hkept i)⟩

/-! ## The gateway's own question -/

/-- The connection is between two messages, no batch is open behind the
request, and the transaction on it has not failed. -/
structure AskedAtRest (p : Proc) (conn : PoolConn) : Prop where
  unread : conn.wire.unread = []
  batch : batchOpenAfter p.batchOpen p.session.data = false
  status : conn.wire.status ≠ stateError

theorem askedAtRest (hallowed : r.keepsPosition (.gateway (.act i (.serve env))))
    (h : queriesLSN cfg r.sys i env = some conn) : AskedAtRest (r.sys.procs i) conn := by
  unfold queriesLSN at h
  split at h
  swap
  · cases h
  rename_i led acquired c hphase hserver
  split at h
  swap
  · cases h
  rename_i replayed hreplay
  split at h
  swap
  · cases h
  rename_i hwritten
  rw [and_eq_true] at hwritten
  obtain ⟨answered, hforward, hasked⟩ := bind_eq_some_iff.1 h
  split at hasked
  swap
  · cases hasked
  rename_i hwrites
  cases hasked
  have hforwarded := forwarded_of_forwardReply hforward
  rw [hforwarded.session, and_eq_true, not_eq_true', isNone_iff_eq_none] at hwrites
  obtain ⟨hreadOnly, herr⟩ := hwrites
  dsimp only at hreadOnly
  simp only [Routed.keepsPosition, hreadOnly, hserver, Bool.false_or, and_eq_true, all_some,
    List.isEmpty_iff, not_eq_true', ServeEnv.endsUnfailed, Option.any_eq_true] at hallowed
  obtain ⟨⟨⟨⟨-, hunread⟩, ⟨hreplays, hends⟩, status, hstatus, hunfailed⟩, hbatch⟩, -⟩ := hallowed
  have hrest := replaySession_unread hreplays hunread hreplay hwritten.1
  obtain ⟨htaken, -⟩ := hforwarded.whole hrest herr hends
  refine ⟨hforwarded.wire_unread hrest htaken, hbatch, ?_⟩
  rw [hforwarded.status, lastStatus_of_endStatus _ hstatus]
  exact bne_iff_ne.1 hunfailed

end

/-! ## The runs -/

/-- What is promised of the positions between two points of a run, and of the
next move behind the first. -/
structure PositionsHeld (cfg : Config) (r : Routed) (next : List RoutedAction) (r' : Routed) :
    Prop where
  kept : ∀ i, PositionKept (r.position i) (r'.position i)
  waited : ∀ i led acquired c, (r.sys.procs i).phase = .serving led acquired →
    (r.sys.procs i).session.server = some c → (r.sys.procs i).session.queryInfo.readOnly = true →
    (r.route i).replica = true → r.position i ≠ [] →
    (r.route i).waited = some (r.position i)
  asked : ∀ i env conn, next.head? = some (.gateway (.act i (.serve env))) →
    queriesLSN cfg r.sys i env = some conn → AskedAtRest (r.sys.procs i) conn

/-- **Read-your-writes positions are kept.**  From any point of a run to any
later one no session's position is lost or replaced by an older one, a read
that is served on a replica was preceded there by a wait for the session's
position, and the write position is asked for only on a connection at rest. -/
theorem positions_held (cfg : Config) (role : Bytes → Bool) {before next : List RoutedAction}
    {r r' : Routed}
    (hallowed : Along (Routed.step cfg) (fun r a => r.keepsPosition a = true) (.init role)
      (before ++ next))
    (hbefore : run (Routed.step cfg) (.init role) before = some r)
    (hnext : run (Routed.step cfg) r next = some r') : PositionsHeld cfg r next r' := by
  have hstart : KeptSince (.init role) (.init role) := ⟨positionInv_init role, fun i => .refl _⟩
  have hr := (hstart.run hallowed.front hbefore).inv
  have hbehind := hallowed.behind hbefore
  have hsince : KeptSince r r := ⟨hr, fun i => .refl _⟩
  refine ⟨(hsince.run hbehind hnext).kept, ?_, ?_⟩
  · intro i led acquired c _ hserver _ hreplica hposition
    rcases hr.waited i c hserver hreplica with hnone | hwaited
    · exact absurd hnone hposition
    · exact hwaited
  · intro i env conn hhead hasked
    obtain ⟨rest, rfl⟩ : ∃ rest, next = .gateway (.act i (.serve env)) :: rest := by
      cases next with
      | nil => cases hhead
      | cons _ rest =>
        cases hhead
        exact ⟨rest, rfl⟩
    exact askedAtRest hbehind.1 hasked

/-! ## Runs with a replica -/

theorem size_lsnRow : 4 + ([0, 1, 0, 0, 0, 4] ++ ascii "0/10").length < 2 ^ 32 := by decide

theorem size_truthRow (b : UInt8) : 4 + [0, 1, 0, 0, 0, 1, b].length < 2 ^ 32 := by simp

def lsnAnswer (status : UInt8) : List Frame :=
  ⟨'D'.toUInt8, [0, 1, 0, 0, 0, 4] ++ ascii "0/10", size_lsnRow⟩ :: completed status

def caughtUpAnswer (truth : UInt8) : List Frame :=
  ⟨'D'.toUInt8, [0, 1, 0, 0, 0, 1, truth], size_truthRow truth⟩ :: completed 'I'.toUInt8

def writesUnder (status : UInt8) : ServeEnv :=
  { ServeEnv.undisturbed (completed status) status with lsn := askedOnce (lsnAnswer status) }

def opensAndWrites : List RoutedAction :=
  (opens 0 appStartup (ascii "primary") .dial ++ resets 0).map .gateway ++ [.write 16] ++
    (sends 0 (simpleQuery (ascii "INSERT INTO t VALUES (1)")) ++
      acquires 0 (ascii "primary") (.pooled 0) ++ serves 0 (writesUnder 'I'.toUInt8) ++
      resets 0).map .gateway

def readsBehindWait : List RoutedAction :=
  (sends 0 (simpleQuery (ascii "SELECT 1")) ++
    [Action.act 0 (.acquire ⟨some (ascii "replica", .dial), true, true, true,
      [askedOnce (caughtUpAnswer 't'.toUInt8)]⟩)]).map .gateway

def servesRead : List RoutedAction :=
  (serves 0 (.undisturbed (completed 'I'.toUInt8) 'I'.toUInt8)).map .gateway

def replicaRole : Bytes → Bool := fun backend => backend == ascii "replica"

theorem Phase.serving_of_acquired {phase : Phase} (h : phase.acquired) :
    ∃ led, phase = .serving led true := by
  cases phase <;> first | exact ⟨_, congrArg _ h⟩ | cases h

theorem read_behind_wait :
    ∃ r r', run (Routed.step (Config.initial id true)) (.init replicaRole)
        (opensAndWrites ++ readsBehindWait) = some r ∧
      run (Routed.step (Config.initial id true)) r servesRead = some r' ∧
      PositionKept (ascii "0/10") (r'.position 0) ∧
      (r.route 0).waited = some (ascii "0/10") := by
  have hboth : Along (Routed.step (Config.initial id true))
      (fun r a => r.keepsPosition a = true) (.init replicaRole)
      (opensAndWrites ++ readsBehindWait ++ servesRead) ∧
    (run (Routed.step (Config.initial id true)) (.init replicaRole)
      (opensAndWrites ++ readsBehindWait)).any (fun r =>
      (r.sys.procs 0).phase.acquired && (r.sys.procs 0).session.server == some 1 &&
        (r.sys.procs 0).session.queryInfo.readOnly && (r.route 0).replica &&
        r.position 0 == ascii "0/10" &&
        (run (Routed.step (Config.initial id true)) r servesRead).isSome) = true := by
    decide +kernel
  obtain ⟨hallowed, hfirst⟩ := hboth
  obtain ⟨r, hr, hfacts⟩ := exists_run hfirst
  simp only [and_eq_true, beq_iff_eq] at hfacts
  obtain ⟨⟨⟨⟨⟨hphase, hserver⟩, hreadOnly⟩, hreplica⟩, hposition⟩, hlast⟩ := hfacts
  obtain ⟨r', hr'⟩ := isSome_iff_exists.1 hlast
  obtain ⟨led, hphase⟩ := Phase.serving_of_acquired hphase
  have hheld := positions_held (Config.initial id true) replicaRole hallowed hr hr'
  refine ⟨r, r', hr, hr', ?_, ?_⟩
  · rw [← hposition]
    exact hheld.kept 0
  · rw [← hposition]
    exact hheld.waited 0 led true 1 hphase hserver hreadOnly hreplica (by rw [hposition]; decide)

def failedAnswer : List Frame :=
  [⟨'E'.toUInt8, [0], by simp⟩, ⟨'Z'.toUInt8, ['E'.toUInt8], by simp⟩]

def beginsAndFails : List RoutedAction :=
  (sends 0 (simpleQuery (ascii "BEGIN")) ++ acquires 0 (ascii "primary") (.pooled 0) ++
    serves 0 (writesUnder 'T'.toUInt8) ++
    sends 0 (simpleQuery (ascii "INSERT INTO t VALUES (1)"))).map .gateway

def servesFailure : ServeEnv :=
  { ServeEnv.undisturbed failedAnswer 'E'.toUInt8 with lsn := askedOnce failedAnswer }

def writesBehindFailover : List RoutedAction :=
  (opens 0 appStartup (ascii "old") .dial ++ resets 0).map .gateway ++
    [.promote (ascii "old") true, .write 16] ++
    (sends 0 (simpleQuery (ascii "INSERT INTO t VALUES (1)")) ++
      acquires 0 (ascii "new") .dial ++ serves 0 (writesUnder 'I'.toUInt8) ++
      resets 1).map .gateway

def readsFromHome : List RoutedAction :=
  (sends 0 (simpleQuery (ascii "SELECT 1")) ++
    [Action.act 0 (.acquire ⟨some (ascii "old", .pooled 0), true, true, true,
        [askedOnce (caughtUpAnswer 'f'.toUInt8)]⟩),
      Action.act 0 (.acquire ⟨none, true, true, false, []⟩),
      Action.act 0 (.acquireHome (some (.pooled 0)) ⟨none, true, true, true, []⟩)]).map .gateway

theorem position_lost_and_passed_over :
    (∃ r r' conn, run (Routed.step (Config.initial id true)) (.init replicaRole)
        (opensAndWrites ++ beginsAndFails) = some r ∧
      Routed.step (Config.initial id true) r (.gateway (.act 0 (.serve servesFailure))) = some r' ∧
      queriesLSN (Config.initial id true) r.sys 0 servesFailure = some conn ∧
      conn.wire.status = stateError ∧ r.position 0 = ascii "0/10" ∧ r'.position 0 = []) ∧
    ∃ r r', run (Routed.step (Config.initial id true)) (.init replicaRole)
        (writesBehindFailover ++ readsFromHome) = some r ∧
      run (Routed.step (Config.initial id true)) r servesRead = some r' ∧
      (r.sys.procs 0).session.queryInfo.readOnly = true ∧ (r.route 0).replica = true ∧
      r.position 0 = ascii "0/10" ∧ (r.route 0).waited = none ∧
      (r.sys.procs 0).session.server = some 0 ∧
      Event.wrote 0 0 (simpleQuery (ascii "SELECT 1")) ∈ r'.sys.log := by
  constructor
  · obtain ⟨r, hr, hfacts⟩ := exists_run (show (run (Routed.step (Config.initial id true))
      (.init replicaRole) (opensAndWrites ++ beginsAndFails)).any (fun r =>
        r.position 0 == ascii "0/10" &&
          ((queriesLSN (Config.initial id true) r.sys 0 servesFailure).any
            fun conn => conn.wire.status == stateError) &&
          (Routed.step (Config.initial id true) r (.gateway (.act 0 (.serve servesFailure)))).any
            fun r' => r'.position 0 == []) = true by decide +kernel)
    simp only [and_eq_true, beq_iff_eq, Option.any_eq_true] at hfacts
    obtain ⟨⟨hposition, conn, hasked, hstatus⟩, r', hr', hlost⟩ := hfacts
    exact ⟨r, r', conn, hr, hr', hasked, hstatus, hposition, hlost⟩
  · obtain ⟨r, hr, hfacts⟩ := exists_run (show (run (Routed.step (Config.initial id true))
      (.init replicaRole) (writesBehindFailover ++ readsFromHome)).any (fun r =>
        (r.sys.procs 0).session.queryInfo.readOnly && (r.route 0).replica &&
          r.position 0 == ascii "0/10" && (r.route 0).waited == none &&
          (r.sys.procs 0).session.server == some 0 &&
          (run (Routed.step (Config.initial id true)) r servesRead).any fun r' =>
            decide (Event.wrote 0 0 (simpleQuery (ascii "SELECT 1")) ∈ r'.sys.log)) = true by
      decide +kernel)
    simp only [and_eq_true, beq_iff_eq] at hfacts
    obtain ⟨⟨⟨⟨⟨hreadOnly, hreplica⟩, hposition⟩, hwaited⟩, hserver⟩, hlast⟩ := hfacts
    obtain ⟨r', hr', hwrote⟩ := exists_run hlast
    exact ⟨r, r', hr, hr', hreadOnly, hreplica, hposition, hwaited, hserver,
      of_decide_eq_true hwrote⟩

end Pontus.Proxy
