import Pontus.Proxy.Proofs.Turns
import Pontus.Proxy.Proofs.WholeReply

/-!
# A held connection stays held

Two places give a connection back between requests: `executeRequest`, by the
state it read off the reply, and `handleClient`, by the state of the session.
The second only ever undoes what the first left undone for the same reasons.
So a session keeps its connection while the backend is in a transaction, a
batch is open or the session is pinned, as long as the state read off a reply
is the state the backend reported last and a batch is not opened behind the
message that is waited for.
-/

namespace Pontus.Proxy

open Lib Protocol Pool Protocol.ReplyScanner PoolingMode
open LocalInv (keeps_of_kept keeps_of_proc keeps_of_released)
open Protocol.TransactionState

/-- The session may not lose the connection now: the backend is in a
transaction, a batch is open, or the session is pinned. -/
def Owes (s : System) (i c : Nat) : Prop :=
  (s.conns c).wire.status ≠ stateIdle ∨ (s.procs i).batchOpen = true ∨
    isPinned (s.procs i).session.state = true

/-! ## The condition -/

/-- The read that ends the reply holds its end, which is a ReadyForQuery; and
behind an idle one the probe for the write position ends idle. -/
def ServeEnv.endsKnown (session : Session) (env : ServeEnv) : Bool :=
  env.replays.all AwaitTrip.readsReply &&
    endsWithReply (streamSignals (responseEndFor session.data) env.reply)
      (env.passes.map Pass.data) &&
    (endStatus env.reply).isSome &&
    (session.queryInfo.readOnly || endStatus env.reply != some stateIdle ||
      endStatus env.lsn.reply == some stateIdle)

/-- A request answered without a backend leaves no batch open, where the
session could lose a connection over it. -/
def Proc.bypassKeeps (cfg : Config) (p : Proc) : Bool :=
  p.session.server.isNone ||
    !cfg.pooling.shouldRelease p.session.state (isPinned p.session.state) ||
    !batchOpenAfter p.batchOpen p.session.data

/-- A request that waits for ReadyForQuery finds nothing unread on its
connection, is answered to its end, and leaves no batch open behind the message
it waits for. -/
def keepsOwed (cfg : Config) (s : System) : Action → Bool
  | .act i (.serve env) =>
    cfg.pooling == .poolSession || !(responseEndFor (s.procs i).session.data).onReadyForQuery ||
      (s.procs i).session.server.all (fun c => (s.conns c).wire.unread.isEmpty) &&
        env.endsKnown (s.procs i).session &&
        !batchOpenAfter (s.procs i).batchOpen (s.procs i).session.data
  | .act i (.middleware env) =>
    match cacheHandle cfg.hash env.cacheEnabled (fun _ => env.entry) (s.procs i).session with
    | .hit _ => (s.procs i).bypassKeeps cfg
    | _ => true
  | .act i (.follow _) => (s.procs i).bypassKeeps cfg
  | _ => true

/-! ## What a released connection is like -/

section
variable {cfg : Config} {i : Nat} {session : Session} {led : Option Led} {env : ServeEnv}

theorem LSNRecorded.status (h : LSNRecorded a a' env) (hidle : a.conn.wire.status = stateIdle)
    (hprobe : a.session.queryInfo.readOnly ∨ endStatus env.lsn.reply = some stateIdle) :
    a'.conn.wire.status = stateIdle := by
  rcases h.conn with hconn | ⟨⟨hwrites, -⟩, htrip, -⟩
  · rw [hconn]
    exact hidle
  · have hround := roundTripped htrip
    generalize a'.conn = conn at hround ⊢
    cases hround with
    | unwritten => exact hidle
    | exchanged _ _ hwire =>
      rw [markBrokenIf_wire, hwire]
      rcases hprobe with hreads | hprobe
      · rw [hwrites] at hreads
        cases hreads
      · exact lastStatus_of_endStatus _ hprobe

/-- **Behind a reply that was read as idle**, the backend is idle. -/
theorem idle_of_response (hends : env.endsKnown session) (hc : c.wire.unread = [])
    (hreplay : replaySession i session c env = some r) (hok : r.succeeded)
    (hforwarded : Forwarded cfg i session led r.conn env a) (hrecorded : LSNRecorded a a' env)
    (hidle : a.response.state = stateIdle) : a'.conn.wire.status = stateIdle := by
  simp only [ServeEnv.endsKnown, and_eq_true, or_eq_true, bne_iff_ne, ne_eq, beq_iff_eq] at hends
  obtain ⟨⟨⟨hreplays, hends⟩, hstatus⟩, hlsn⟩ := hends
  obtain ⟨herr, hready⟩ := ready_of_idle hforwarded.response hidle
  have hunread := replaySession_unread hreplays hc hreplay hok
  obtain ⟨st, hstates⟩ := isSome_iff_exists.1 hstatus
  have hstate := (hforwarded.whole hunread herr hends).2 st hstates
  rw [hidle, midSequenceState, hready] at hstate
  obtain rfl : _ = _ := hstate
  apply hrecorded.status
  · rw [hforwarded.status, lastStatus_of_endStatus _ hstates]
  · rw [hforwarded.session]
    rcases hlsn with (hreads | hne) | hprobe
    · exact .inl hreads
    · exact absurd hstates hne
    · exact .inr hprobe

end

/-! ## What may be released -/

theorem PoolingMode.unpinned_of_shouldReleaseAt {m : PoolingMode}
    (h : m.shouldReleaseAt txState pinned) : pinned = false := by
  cases pinned with
  | false => rfl
  | true => cases h

/-- A connection that `handleClient` would give back is owed nothing. -/
def owedInv (cfg : Config) : LocalInv where
  conn _ := True
  proc p := p.phase.starting = true → p.batchOpen = false
  held _ p c := p.phase.live = true → p.phase.acquired = false →
    cfg.pooling.shouldRelease p.session.state (isPinned p.session.state) = true →
    c.wire.status = stateIdle ∧ p.batchOpen = false
  event _ := True

theorem openBackend_idle (hcredentials : cfg.credentials = false)
    (h : openBackend cfg req conn env = (conn', .completed)) : conn'.wire.status = stateIdle := by
  unfold openBackend at h
  simp only [hcredentials, Bool.not_false, if_true] at h
  split at h
  · simp at h
  · rw [Prod.mk.injEq] at h
    obtain ⟨rfl, hcompleted⟩ := h
    cases hstarted : env.started with
    | true => rfl
    | false =>
      rw [hstarted] at hcompleted
      cases hcompleted

section
variable {cfg : Config} {s : System} {i : Nat}

theorem owed_opened (hs : (owedInv cfg).Holds s) {env : HandshakeEnv} {req : StartupRequest}
    {attempts c : Nat} {backend : Bytes} {conn conn' : PoolConn}
    (hphase : (s.procs i).phase = .opening req attempts)
    (hopen : openBackend cfg req conn env = (conn', .completed)) :
    (owedInv cfg).Keeps s i (sessionOpened cfg s i (s.procs i) backend c conn') := by
  have hbatch : (s.procs i).batchOpen = false := hs.proc i (by rw [hphase]; rfl)
  unfold sessionOpened
  dsimp only
  split
  · exact keeps_of_released trivial nofun rfl (fun _ _ => trivial)
  · rename_i hkept
    refine keeps_of_kept trivial nofun ?_ (fun _ _ => trivial)
    intro _ _ hreleased
    refine ⟨?_, hbatch⟩
    have hunpinned := unpinned_of_shouldReleaseAt hreleased
    rw [hunpinned] at hreleased
    have hcredentials : cfg.credentials = false := by
      rw [hreleased, Bool.and_true, not_eq_true] at hkept
      exact hkept
    have hidle := openBackend_idle hcredentials hopen
    exact hidle

theorem owed_answered (hforwarded : Forwarded cfg i session led conn env a)
    (hrecorded : LSNRecorded a a' env) :
    (owedInv cfg).Keeps s i (settle cfg s i (s.procs i) led c a' events) := by
  unfold settle
  split
  · exact keeps_of_released trivial nofun rfl (fun _ _ => trivial)
  · rename_i hkept
    refine keeps_of_kept trivial nofun ?_ (fun _ _ => trivial)
    intro _ _ hreleased
    dsimp only [PoolingMode.shouldRelease] at hreleased
    rw [hrecorded.txState hforwarded] at hreleased
    exact absurd hreleased hkept

variable (hs : (owedInv cfg).Holds s)
include hs

theorem owed_bypassed (hcontinues : (s.procs i).Continues p)
    (hbatch : p.batchOpen = batchOpenAfter (s.procs i).batchOpen (s.procs i).session.data)
    (hkeeps : (s.procs i).bypassKeeps cfg) :
    (owedInv cfg).Keeps s i { proc := p, events := events } := by
  apply keeps_of_proc
  · intro h
    rw [hcontinues.started] at h
    cases h
  · intro c hserver hlive _ hreleased
    rw [hcontinues.server] at hserver
    rw [hcontinues.state] at hreleased
    refine ⟨(hs.held i c hserver (hcontinues.live hlive) hcontinues.before hreleased).1, ?_⟩
    simp only [Proc.bypassKeeps, hserver, hreleased, isNone_some, Bool.not_true,
      Bool.or_self, Bool.false_or, not_eq_true'] at hkeeps
    rw [hbatch]
    exact hkeeps
  · intro _ _
    trivial

/-- **Every move keeps it so.** -/
theorem owed_keeps (hallowed : keepsOwed cfg s (.act i a)) (h : Turn cfg s i a ch) :
    (owedInv cfg).Keeps s i ch := by
  have hwithout := hs.owned.without i
  cases h with
  | named hphase =>
    have hnone := hwithout (by rw [hphase]; rfl)
    refine keeps_of_proc (fun _ => hs.proc i (by rw [hphase]; rfl)) ?_ (fun _ _ => trivial)
    intro c hserver
    exact nomatch hnone.symm.trans hserver
  | quiet hcontinues hbatch =>
    refine keeps_of_proc ?_ ?_ (fun _ _ => trivial)
    · intro h
      rw [hcontinues.started] at h
      cases h
    · intro c hserver hlive _ hreleased
      rw [hcontinues.server] at hserver
      rw [hcontinues.state] at hreleased
      rw [hbatch]
      exact hs.held i c hserver (hcontinues.live hlive) hcontinues.before hreleased
  | bypassed hcontinues haction hbatch =>
    refine owed_bypassed hs hcontinues hbatch ?_
    rcases haction with ⟨_, _, rfl, hhit⟩ | ⟨_, rfl⟩
    · simp only [keepsOwed, hhit] at hallowed
      exact hallowed
    · exact hallowed
  | closed =>
    refine keeps_of_proc nofun ?_ (fun _ _ => trivial)
    nofun
  | opened hphase _ _ hopen => exact owed_opened hs hphase hopen
  | givenBack hunserved _ hproc =>
    have hnone := hwithout hunserved
    rcases hproc with rfl | ⟨_, rfl, -, hstarting⟩
    · exact keeps_of_released trivial nofun rfl (fun _ _ => trivial)
    · refine keeps_of_released trivial ?_ hnone (fun _ _ => trivial)
      intro h
      obtain ⟨_, _, _, -, hopening⟩ := hstarting h
      exact hs.proc i (by rw [hopening]; rfl)
  | installed =>
    exact keeps_of_kept trivial nofun nofun
      (fun _ _ => trivial)
  | replayFailed =>
    exact keeps_of_kept trivial nofun nofun
      (fun _ _ => trivial)
  | leaves _ hgone hlive =>
    refine keeps_of_released trivial ?_ hgone (fun _ _ => trivial)
    intro h
    rw [Phase.live_of_starting h] at hlive
    cases hlive
  | concludedReleased =>
    exact keeps_of_released trivial nofun rfl (fun _ _ => trivial)
  | answered _ _ _ _ hforwarded hrecorded => exact owed_answered hforwarded hrecorded

/-- **A move of a session that holds a connection**: the session does not go
on, it still holds the connection, or the connection is owed nothing. -/
theorem owed_or_held {ch : Change} (hallowed : keepsOwed cfg s (.act i a)) (h : Turn cfg s i a ch)
    (hserver : (s.procs i).session.server = some c) :
    ch.proc.phase.live = false ∨
      (ch.proc.session.server = some c ∧ ch.proc.phase.acquired = false) ∨
      ¬ Owes (s.apply i ch) i c := by
  have hwithout := hs.owned.without i
  have hserved : ¬ (s.procs i).phase.unserved := by
    intro hunserved
    exact nomatch hserver.symm.trans (hwithout hunserved)
  cases h with
  | named hphase hread hrequest
  | opened hphase => exact absurd (by rw [hphase]; rfl) hserved
  | quiet hcontinues hbatch hevents | bypassed hcontinues haction hbatch hevents =>
    exact .inr (.inl ⟨hcontinues.server.trans hserver, hcontinues.after⟩)
  | closed _ | replayFailed _ => exact .inl rfl
  | givenBack hunserved hlive hproc htaken hevents
  | installed hunserved => exact absurd hunserved hserved
  | leaves _ _ hlive => exact .inl hlive
  | @concludedReleased d conn hphase hserver' hreleased hconn =>
    obtain rfl : d = c := Option.some.inj (hserver'.symm.trans hserver)
    obtain ⟨hidle, hbatch⟩ := hs.held i d hserver (by rw [hphase]; rfl) (by rw [hphase]; rfl)
      hreleased
    have hwire : conn.wire = (s.conns d).wire := by
      rw [hconn]
      split <;> rfl
    have hunpinned := unpinned_of_shouldReleaseAt hreleased
    refine .inr (.inr ?_)
    unfold Owes
    rw [System.apply_procs, update_self, System.apply_conns_some _ _ _ rfl, update_self]
    rintro (hstatus | hopen | hpin)
    · exact hstatus ((congrArg Wire.status hwire).trans hidle)
    · exact nomatch hbatch.symm.trans hopen
    · exact nomatch hunpinned.symm.trans hpin
  | @answered env led acquired d replayed a a' reply hphase hserver' hreplay hreplayed hforwarded
    hrecorded hreply =>
    obtain rfl : d = _ := Option.some.inj (hserver'.symm.trans hserver)
    have hkept : a'.session.server = some d := by
      rw [hrecorded.server, hforwarded.session]
      exact hserver
    unfold settle
    split
    swap
    · exact .inr (.inl ⟨hkept, rfl⟩)
    rename_i hreleased
    have hidle := idle_of_shouldReleaseAt hreleased
    have hunpinned := unpinned_of_shouldReleaseAt hreleased
    rw [hrecorded.response] at hidle
    have hready := (ready_of_idle hforwarded.response hidle).2
    have hmode : (cfg.pooling == .poolSession) = false :=
      beq_false_of_ne (ne_poolSession_of_shouldReleaseAt hreleased)
    simp only [keepsOwed, hmode, hready, hserver, Bool.not_true, Bool.false_or,
      all_some, and_eq_true, List.isEmpty_iff, not_eq_true'] at hallowed
    obtain ⟨⟨hunread, hends⟩, hbatch⟩ := hallowed
    have hstatus := idle_of_response hends hunread hreplay hreplayed hforwarded hrecorded hidle
    refine .inr (.inr ?_)
    unfold Owes
    rw [System.apply_procs, update_self, System.apply_conns_some _ _ _ rfl, update_self]
    rintro (hne | hopen | hpin)
    · apply hne
      split <;> exact hstatus
    · exact nomatch hbatch.symm.trans hopen
    · exact nomatch hunpinned.symm.trans hpin

end

/-! ## Until the next request -/

/-- A session that holds a connection it may not lose, and a log in which
nobody else has used the connection since `log`; unless it does not go on. -/
structure StillHeld (cfg : Config) (log : List Event) (i c : Nat) (s : System) : Prop where
  owned : Owned s
  held : (s.procs i).phase.live = true → (s.procs i).session.server = some c ∧
    cfg.pooling.shouldRelease (s.procs i).session.state
      (isPinned (s.procs i).session.state) = false ∧
    ∃ events, s.log = events ++ log ∧ ∀ e ∈ events, e.conn = some c → e.session = i

section
variable {cfg : Config} {log : List Event} {i c : Nat} {s : System}

variable (hs : StillHeld cfg log i c s)
include hs

theorem StillHeld.own (hquiet : ∀ env, a ≠ .serve env) (hout : Outcome cfg s i a ch) :
    StillHeld cfg log i c (s.apply i ch) := by
  have hlegal := legal_of_outcome hs.owned hout
  have hturn := turn_of_outcome hs.owned hout
  refine ⟨hs.owned.apply hlegal, ?_⟩
  rw [System.apply_procs, update_self, System.apply_log]
  intro hlive
  obtain ⟨hserver, hreleased, events, hlog, hevents⟩ := hs.held (hturn.live hlive)
  have hgrown : ∃ events, ch.events ++ s.log = events ++ log ∧
      ∀ e ∈ events, e.conn = some c → e.session = i := by
    refine ⟨ch.events ++ events, by rw [hlog, append_assoc], ?_⟩
    intro e he hconn
    rcases mem_append.1 he with he | he
    · exact hlegal.events e he
    · exact hevents e he hconn
  have hserved : ¬ (s.procs i).phase.unserved := by
    intro hunserved
    exact nomatch hserver.symm.trans (hs.owned.without i hunserved)
  cases hturn with
  | named hphase | opened hphase => exact absurd (by rw [hphase]; rfl) hserved
  | quiet hcontinues | bypassed hcontinues =>
    rw [hcontinues.server, hcontinues.state]
    exact ⟨hserver, hreleased, hgrown⟩
  | closed | replayFailed => cases hlive
  | givenBack hunserved | installed hunserved => exact absurd hunserved hserved
  | leaves _ _ hdead => exact nomatch hdead.symm.trans hlive
  | concludedReleased _ _ hreleased' => exact nomatch hreleased'.symm.trans hreleased
  | answered => exact absurd rfl (hquiet _)

theorem StillHeld.others (hj : j ≠ i) (hout : Outcome cfg s j a ch) :
    StillHeld cfg log i c (s.apply j ch) := by
  have hlegal := legal_of_outcome hs.owned hout
  have hturn := turn_of_outcome hs.owned hout
  refine ⟨hs.owned.apply hlegal, ?_⟩
  rw [System.apply_procs, update_of_ne (Ne.symm hj), System.apply_log]
  intro hlive
  obtain ⟨hserver, hreleased, events, hlog, hevents⟩ := hs.held hlive
  refine ⟨hserver, hreleased, ch.events ++ events, by rw [hlog, append_assoc], ?_⟩
  intro e he hconn
  rcases mem_append.1 he with he | he
  · -- it would have touched a connection that is held
    obtain ⟨conn, htouched⟩ := hturn.event_conn he hconn
    exact absurd ((hlegal.touched c conn htouched).2 i (hs.owned.holds i c hserver)).symm hj
  · exact hevents e he hconn

theorem StillHeld.step (hquiet : ∀ env, a ≠ .act i (.serve env)) (hstep : step cfg s a = some s') :
    StillHeld cfg log i c s' := by
  cases moved_of_step hstep with
  | @session j _ _ hout =>
    by_cases hj : j = i
    · subst hj
      refine hs.own ?_ hout
      rintro env rfl
      exact hquiet env rfl
    · exact hs.others hj hout
  | reset hc hplace =>
    exact ⟨hs.owned.setConn _ (System.free_of_returned hc (by rw [hplace]; rfl)), hs.held⟩
  | drained => exact ⟨⟨hs.owned.holds, hs.owned.without, hs.owned.fresh⟩, hs.held⟩

theorem StillHeld.run (hquiet : ∀ env, Action.act i (.serve env) ∉ between)
    (hrun : Pontus.Lib.run (Pontus.Proxy.step cfg) s between = some s') :
    StillHeld cfg log i c s' := by
  induction between generalizing s with
  | nil =>
    rw [Pontus.Lib.run, some_inj] at hrun
    rw [← hrun]
    exact hs
  | cons _ _ ih =>
    obtain ⟨_, ht, hrest⟩ := run_cons.1 hrun
    refine ih (hs.step ?_ ht) ?_ hrest
    · rintro env rfl
      exact hquiet env (mem_cons_self ..)
    · intro env hmem
      exact hquiet env (mem_cons_of_mem _ hmem)

end

/-! ## The runs -/

theorem owed_init (cfg : Config) : (owedInv cfg).Holds .init where
  owned := owned_init
  conn := fun _ => trivial
  proc := fun _ _ => rfl
  held := nofun
  log := fun _ h => nomatch h

theorem owed_run (hallowed : Along (step cfg) (fun s a => keepsOwed cfg s a = true) .init actions)
    (hrun : run (step cfg) .init actions = some s) : (owedInv cfg).Holds s := by
  refine LocalInv.Holds.run ?_ ?_ (owed_init cfg) hallowed hrun
  · intro s _ _ _ hs ha hout
    exact owed_keeps hs ha (turn_of_outcome hs.owned hout)
  · intro _ _ _ _ _ _ _ _ _
    trivial

theorem stillHeld_of_owes (hs : (owedInv cfg).Holds s) (hallowed : keepsOwed cfg s (.act i a))
    (hheld : (s.procs i).session.server = some c) (hmove : step cfg s (.act i a) = some s')
    (howes : Owes s' i c) : StillHeld cfg s'.log i c s' := by
  cases moved_of_step hmove with
  | @session i _ ch hout =>
    have hlegal := legal_of_outcome hs.owned hout
    have hturn := turn_of_outcome hs.owned hout
    have hnext := hs.apply hlegal (owed_keeps hs hallowed hturn)
    refine ⟨hnext.owned, ?_⟩
    intro hlive
    have hproc : (s.apply i ch).procs i = ch.proc := by rw [System.apply_procs, update_self]
    rcases owed_or_held hs hallowed hturn hheld with hdead | ⟨hserver, hacquired⟩ | hfree
    · rw [hproc] at hlive
      exact nomatch hdead.symm.trans hlive
    · rw [← hproc] at hserver hacquired
      refine ⟨hserver, eq_false_iff.2 ?_, [], rfl, fun _ h => nomatch h⟩
      intro hreleased
      obtain ⟨hidle, hbatch⟩ := hnext.held i c hserver hlive hacquired hreleased
      rcases howes with hstatus | hopen | hpin
      · exact hstatus hidle
      · exact nomatch hbatch.symm.trans hopen
      · exact nomatch (unpinned_of_shouldReleaseAt hreleased).symm.trans hpin
    · exact absurd howes hfree

theorem live_of_serve (h : Outcome cfg s i (.serve env) ch) : (s.procs i).phase.live := by
  cases h with
  | replayFailed hphase | writeFailed hphase | answered hphase => rw [hphase]; rfl

/-- **A held connection stays held.**  Let a session that holds a connection
make a move, a request it serves in particular, and let the connection be one
the session may not lose then.  The session's next request goes to the same
connection, and no other session uses the connection in between. -/
theorem held_connection_stays_held (cfg : Config) {before between : List Action}
    {s₀ s₁ s₂ s₃ : System} {i c : Nat} {a : Act} {env : ServeEnv}
    (hallowed : Along (step cfg) (fun s a => keepsOwed cfg s a = true) .init (before ++ [.act i a]))
    (hbefore : run (step cfg) .init before = some s₀)
    (hheld : (s₀.procs i).session.server = some c)
    (hmove : step cfg s₀ (.act i a) = some s₁) (howes : Owes s₁ i c)
    (hbetween : run (step cfg) s₁ between = some s₂)
    (hnone : ∀ env, Action.act i (.serve env) ∉ between)
    (hnext : step cfg s₂ (.act i (.serve env)) = some s₃) :
    (s₂.procs i).session.server = some c ∧
      ∃ used next, s₂.log = used ++ s₁.log ∧ s₃.log = next ++ s₂.log ∧
        (∀ e ∈ used, e.conn = some c → e.session = i) ∧
        ∀ d data, Event.wrote i d data ∈ next → d = c := by
  have hinv := owed_run hallowed.front hbefore
  have hok : keepsOwed cfg s₀ (.act i a) = true := (hallowed.behind hbefore).1
  have hstill : StillHeld cfg s₁.log i c s₁ := stillHeld_of_owes hinv hok hheld hmove howes
  have hstill := hstill.run hnone hbetween
  cases moved_of_step hnext with
  | session houtcome =>
    have hturn := turn_of_outcome hstill.owned houtcome
    obtain ⟨hserver, -, used, hused, hown⟩ := hstill.held (live_of_serve houtcome)
    refine ⟨hserver, used, _, hused, System.apply_log _ _ _, hown, ?_⟩
    intro _ _ hwrote
    exact Option.some.inj ((hturn.wrote hwrote).2.1.symm.trans hserver)

def begins : List Action :=
  opens 0 appStartup (ascii "db") .dial ++ sends 0 (simpleQuery (ascii "BEGIN"))

def begun : Act := .serve (.undisturbed (completed 'T'.toUInt8) 'T'.toUInt8)

def meetsAnother : List Action :=
  [.act 0 .finish, .act 0 .conclude] ++ opens 1 appStartup (ascii "db") .dial ++
    sends 0 (simpleQuery (ascii "SELECT 1"))

def owes (s : System) (i c : Nat) : Bool :=
  decide ((s.conns c).wire.status ≠ stateIdle) || (s.procs i).batchOpen ||
    isPinned (s.procs i).session.state

theorem owes_iff : owes s i c ↔ Owes s i c := by simp [owes, Owes, or_assoc]

theorem transaction_keeps_connection :
    ∃ s₀ s₁ s₂ s₃, run (step (Config.initial id false)) .init begins = some s₀ ∧
      step (Config.initial id false) s₀ (.act 0 begun) = some s₁ ∧ Owes s₁ 0 0 ∧
      run (step (Config.initial id false)) s₁ meetsAnother = some s₂ ∧
      step (Config.initial id false) s₂ (.act 0 begun) = some s₃ ∧
      (s₂.procs 0).session.server = some 0 := by
  have hallowed : Along (step (Config.initial id false))
      (fun s a => keepsOwed (Config.initial id false) s a = true) .init
      (begins ++ [.act 0 begun]) := by
    decide +kernel
  obtain ⟨s₀, h₀, hfacts⟩ := exists_run (show (run (step (Config.initial id false)) .init
    begins).any (fun s₀ => (s₀.procs 0).session.server == some 0 &&
      (step (Config.initial id false) s₀ (.act 0 begun)).any fun s₁ => owes s₁ 0 0 &&
        (run (step (Config.initial id false)) s₁ meetsAnother).any fun s₂ =>
          (step (Config.initial id false) s₂ (.act 0 begun)).isSome) = true by decide +kernel)
  simp only [and_eq_true, beq_iff_eq, Option.any_eq_true, owes_iff, isSome_iff_exists] at hfacts
  obtain ⟨hheld, s₁, hmove, howes, s₂, h₂, s₃, hnext⟩ := hfacts
  exact ⟨s₀, s₁, s₂, s₃, h₀, hmove, howes, h₂, hnext,
    (held_connection_stays_held _ hallowed h₀ hheld hmove howes h₂
      (by simp [meetsAnother, opens, sends]) hnext).1⟩

def pipelines : List Action :=
  opens 0 appStartup (ascii "db") .dial ++
    sends 0 (simpleQuery (ascii "SELECT 1") ++ simpleQuery (ascii "BEGIN"))

def firstReplyRead : Act :=
  .serve { ServeEnv.undisturbed (completed 'I'.toUInt8 ++ completed 'T'.toUInt8) 'T'.toUInt8 with
    passes := [⟨Frame.encodeAll (completed 'I'.toUInt8), none, none⟩] }

def swapsConnections : List Action :=
  [.act 0 .finish, .act 0 .conclude] ++ opens 1 appStartup (ascii "db") .dial ++
    sends 1 (simpleQuery (ascii "SELECT 1")) ++
    serves 1 (.undisturbed (completed 'I'.toUInt8) 'I'.toUInt8) ++
    sends 1 (simpleQuery (ascii "SELECT 1")) ++ acquires 1 (ascii "db") (.pooled 0) ++
    serves 1 (.undisturbed (completed 'T'.toUInt8) 'T'.toUInt8) ++
    sends 0 (simpleQuery (ascii "SELECT 1")) ++ acquires 0 (ascii "db") (.pooled 1)

def answeredIdle : Act := .serve (.undisturbed (completed 'I'.toUInt8) 'I'.toUInt8)

theorem open_transaction_given_away :
    ∃ s₀ s₁ s₂ s₃, run (step (Config.initial id false)) .init pipelines = some s₀ ∧
      (s₀.procs 0).session.server = some 0 ∧
      step (Config.initial id false) s₀ (.act 0 firstReplyRead) = some s₁ ∧ Owes s₁ 0 0 ∧
      run (step (Config.initial id false)) s₁ swapsConnections = some s₂ ∧
      (∀ env, Action.act 0 (.serve env) ∉ swapsConnections) ∧
      step (Config.initial id false) s₂ (.act 0 answeredIdle) = some s₃ ∧
      Event.wrote 1 0 (simpleQuery (ascii "SELECT 1")) ∈ s₂.log ∧
      Event.wrote 0 1 (simpleQuery (ascii "SELECT 1")) ∈ s₃.log := by
  obtain ⟨s₀, h₀, hfacts⟩ := exists_run (show (run (step (Config.initial id false)) .init
    pipelines).any (fun s₀ => (s₀.procs 0).session.server == some 0 &&
      (step (Config.initial id false) s₀ (.act 0 firstReplyRead)).any fun s₁ => owes s₁ 0 0 &&
        (run (step (Config.initial id false)) s₁ swapsConnections).any fun s₂ =>
          decide (Event.wrote 1 0 (simpleQuery (ascii "SELECT 1")) ∈ s₂.log) &&
          (step (Config.initial id false) s₂ (.act 0 answeredIdle)).any fun s₃ =>
            decide (Event.wrote 0 1 (simpleQuery (ascii "SELECT 1")) ∈ s₃.log)) = true by
    decide +kernel)
  simp only [and_eq_true, beq_iff_eq, Option.any_eq_true, owes_iff, decide_eq_true_eq] at hfacts
  obtain ⟨hheld, s₁, hmove, howes, s₂, h₂, hstranger, s₃, hnext, hmoved⟩ := hfacts
  refine ⟨s₀, s₁, s₂, s₃, h₀, hheld, hmove, howes, h₂, ?_, hnext, hstranger, hmoved⟩
  simp [swapsConnections, opens, sends, serves, acquires]

end Pontus.Proxy
