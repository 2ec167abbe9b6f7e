import Pontus.Proxy.Proofs.WholeReply
import Pontus.Proxy.Storing

/-!
# Which settings are in force

A session's settings are in force on the connection it holds when nothing was
in force before that is not the session's, when every request does to them what
the tracker records, and when what the backend says to a replay is what is read
of it.
-/

namespace Pontus.Proxy

open Lib Protocol Pool

variable {trips : List AwaitTrip} {r : Replayed} {vars inForce : StringMap} {names : List Bytes}
variable {session : Session} {source : Source}

/-! ## Replaying -/

/-- A replay that went well left nothing unread, and the backend refused none of
its messages. -/
theorem Replays.accepted (h : Replays i c items trips r)
    (htrips : trips.all AwaitTrip.readsReply) (hunread : c.wire.unread = [])
    (hok : r.succeeded) : r.conn.wire.unread = [] ∧ ∀ t ∈ trips, ∃ c', Accepted t c' := by
  induction h with
  | done => exact ⟨hunread, nofun⟩
  | held _ _ ih => exact ih htrips hunread hok
  | @written _ c' _ _ _ _ _ _ htrip hawait _ ih =>
    rw [all_cons, and_eq_true] at htrips
    have haccepted := accepted_of_await htrips.1 hawait hunread htrip
    obtain ⟨hend, hrest⟩ := ih htrips.2 haccepted.unread hok
    refine ⟨hend, ?_⟩
    intro t' ht'
    rcases mem_cons.1 ht' with rfl | ht'
    · exact ⟨c', haccepted⟩
    · exact hrest t' ht'
  | refused => cases hok

theorem Replays.replaySettings {stmts : List ReplayItem} (h : Replays i c
      (names.map (fun name => .setting name ((vars.lookup name).getD [])) ++ stmts) trips r)
    (hok : r.succeeded) (haccepted : ∀ t ∈ trips, ∃ c', Accepted t c') (inForce : StringMap) :
    Proxy.replaySettings vars names trips inForce =
      assignKeys inForce (names.map fun name => (name, vars.lookup name)) := by
  induction names generalizing c trips r inForce with
  | nil => rfl
  | cons _ _ ih =>
    cases h with
    | held hheld => cases hheld
    | refused => cases hok
    | @written _ _ _ _ t _ _ _ _ _ hrest =>
      obtain ⟨_, hfirst⟩ := haccepted t mem_cons_self
      rw [Proxy.replaySettings, hfirst.written, hfirst.noError]
      exact ih hrest hok (fun t' ht' => haccepted t' (mem_cons_of_mem t ht')) _

theorem Replays.restores {stmts : List ReplayItem} (h : Replays i c
      (names.map (fun name => .setting name ((vars.lookup name).getD [])) ++ stmts) trips r)
    (hok : r.succeeded) (haccepted : ∀ t ∈ trips, ∃ c', Accepted t c')
    (hnames : names.Perm vars.keys) (hown : ∀ name, name ∈ inForce → name ∈ vars) (name : Bytes) :
    (Proxy.replaySettings vars names trips inForce).lookup name = vars.lookup name := by
  rw [h.replaySettings hok haccepted]
  have hrest : (fun name => (assignKeys inForce
      (names.map fun name => (name, vars.lookup name))).lookup name) =
      fun name => vars.lookup name := by
    rw [lookup_assignKeys]
    apply assignAll_restore (hnames.nodup_iff.2 vars.keys_nodup)
    intro name hname
    rw [hnames.mem_iff, ← AList.mem_keys] at hname
    rw [AList.lookup_eq_none.2 hname, AList.lookup_eq_none.2 (fun hin => hname (hown name hin))]
  exact congrFun hrest name

theorem mem_replaySettings (hnames : ∀ n ∈ names, n ∈ vars) (hown : ∀ n, n ∈ inForce → n ∈ vars)
    (h : name ∈ replaySettings vars names trips inForce) : name ∈ vars := by
  induction names generalizing trips inForce with
  | nil => exact hown name h
  | cons n _ ih =>
    cases trips with
    | nil => exact hown name h
    | cons =>
      refine ih (fun k hk => hnames k (mem_cons_of_mem n hk)) ?_ h
      intro k hk
      split at hk
      · rcases mem_assignKey hk with rfl | hk
        · exact hnames k mem_cons_self
        · exact hown k hk
      · exact hown k hk

/-! ## A session and its connection -/

structure Carries (session : Session) (inForce : StringMap) : Prop where
  own : ∀ name, name ∈ inForce → name ∈ session.state.vars
  same : session.shouldReplay = false → ∀ name, inForce.lookup name = session.state.vars.lookup name

theorem Carries.of_same (h : ∀ name, inForce.lookup name = session.state.vars.lookup name) :
    Carries session inForce := by
  refine ⟨?_, fun _ => h⟩
  intro name hname
  rw [← AList.lookup_isSome, h name] at hname
  exact AList.lookup_isSome.1 hname

theorem Carries.replayFailed (h : Carries session inForce)
    (hreplay : replaySession i session c env = some r) :
    Carries session (settingsReplayed session env inForce) := by
  unfold settingsReplayed
  rcases replaySession_cases hreplay with ⟨hno, -, -⟩ | ⟨hyes, horder, -, -⟩
  · rw [hno]
    exact h
  · rw [hyes]
    refine ⟨?_, fun hno => nomatch hyes.symm.trans hno⟩
    intro _ hname
    exact mem_replaySettings (fun n hn => AList.mem_keys.2 (horder.mem_iff.1 hn)) h.own hname

/-- **Behind a replay the session's settings are in force.** -/
theorem Carries.replayed (h : Carries session inForce)
    (htrips : env.replays.all AwaitTrip.readsReply) (hunread : c.wire.unread = [])
    (hreplay : replaySession i session c env = some r) (hok : r.succeeded) :
    r.conn.wire.unread = [] ∧
      ∀ name, (settingsReplayed session env inForce).lookup name =
        session.state.vars.lookup name := by
  unfold settingsReplayed
  rcases replaySession_cases hreplay with ⟨hno, -, rfl⟩ | ⟨hyes, horder, -, _, hr', rfl⟩
  · rw [hno]
    exact ⟨hunread, h.same hno⟩
  · obtain ⟨hend, haccepted⟩ := hr'.accepted htrips hunread hok
    refine ⟨by rw [markBrokenIf_wire]; exact hend, ?_⟩
    rw [hyes, if_pos rfl]
    exact hr'.restores hok haccepted horder h.own

/-! ## How a session comes to hold a connection -/

/-- The connection session `i` holds behind a move: the one it had, one it was
given, or the one its request was served on. -/
inductive Holding (cfg : Config) (s : System) (i c : Nat) (ch : Change) : Act → Prop
  | kept {a : Act} (hserver : (s.procs i).session.server = some c) (hconn : ch.conn = none)
      (hvars : ch.proc.session.state.vars = (s.procs i).session.state.vars)
      (hreplay : ch.proc.session.shouldReplay = (s.procs i).session.shouldReplay) :
      Holding cfg s i c ch a
  | opened {env : HandshakeEnv} {backend : Bytes} {source : Source} {key : PoolKey}
      {conn conn' : PoolConn} (hpicked : env.picked = some (backend, source))
      (htaken : s.Taken i key source c conn) (hconn : ch.conn = some (c, conn'))
      (hvars : ch.proc.session.state.vars = (s.procs i).session.state.vars) :
      Holding cfg s i c ch (.handshake env)
  | acquired {env : AcquireEnv} {backend : Bytes} {source : Source} {key : PoolKey}
      {conn conn' : PoolConn} (hpicked : env.picked = some (backend, source))
      (htaken : s.Taken i key source c conn) (hconn : ch.conn = some (c, conn'))
      (hvars : ch.proc.session.state.vars = (s.procs i).session.state.vars)
      (hreplay : ch.proc.session.shouldReplay = true) : Holding cfg s i c ch (.acquire env)
  | acquiredHome {env : AcquireEnv} {source : Source} {key : PoolKey} {conn conn' : PoolConn}
      (htaken : s.Taken i key source c conn) (hconn : ch.conn = some (c, conn'))
      (hvars : ch.proc.session.state.vars = (s.procs i).session.state.vars)
      (hreplay : ch.proc.session.shouldReplay = true) :
      Holding cfg s i c ch (.acquireHome (some source) env)
  | replayFailed {env : ServeEnv} {r : Replayed} {conn' : PoolConn}
      (hserver : (s.procs i).session.server = some c) (hconn : ch.conn = some (c, conn'))
      (hreplay : replaySession i (s.procs i).session (s.conns c) env = some r)
      (hfailed : r.succeeded = false) (hsession : ch.proc.session = (s.procs i).session) :
      Holding cfg s i c ch (.serve env)
  | answered {env : ServeEnv} {r : Replayed} {conn' : PoolConn}
      (hserver : (s.procs i).session.server = some c) (hconn : ch.conn = some (c, conn'))
      (hreplay : replaySession i (s.procs i).session (s.conns c) env = some r)
      (hsucceeded : r.succeeded = true) (hwrite : env.writeError = none)
      (hvars : ch.proc.session.state.vars =
        (trackRequest (s.procs i).session.state (s.procs i).session.data).vars) :
      Holding cfg s i c ch (.serve env)

theorem settleTransaction_vars (state : SessionState) (txState : TransactionState) :
    (settleTransaction state txState).vars = state.vars := by
  unfold settleTransaction
  split <;> rfl

theorem vars_of_served (hforwarded : Forwarded cfg i session led c env a)
    (hrecorded : LSNRecorded a a' env) :
    a'.session.state.vars = (trackRequest session.state session.data).vars := by
  have hvars : a.session.state.vars = (trackRequest session.state session.data).vars := by
    rw [hforwarded.session, settleTransaction_vars]
  rcases hrecorded.session with hsession | ⟨_, hsession, -⟩
  · rw [hsession, hvars]
  · rw [hsession, ← hvars]

section
variable {cfg : Config} {s : System} {i c : Nat} {ch : Change}

theorem Obtained.server (hs : Owned s) (hphase : (s.procs i).phase.unserved)
    (h : Obtained s i led retry backend d conn env ch) (hserver : ch.proc.session.server = some c) :
    d = c ∧ (∃ conn', ch.conn = some (c, conn')) ∧
      ch.proc.session.state.vars = (s.procs i).session.state.vars ∧
      ch.proc.session.shouldReplay := by
  cases h with
  | installed =>
    cases hserver
    exact ⟨rfl, ⟨_, rfl⟩, rfl, rfl⟩
  | behind => exact nomatch (hs.without i hphase).symm.trans hserver

theorem holding_of_outcome (hs : Owned s) (h : Outcome cfg s i a ch)
    (hserver : ch.proc.session.server = some c) : Holding cfg s i c ch a := by
  have hwithout : (s.procs i).phase.unserved = true →
      (s.procs i).session.server ≠ some c := by
    intro hphase hsome
    rw [hs.without i hphase] at hsome
    cases hsome
  cases h with
  | connectClosed hphase | noBackend hphase | openFailed | writeFailed | concludedFailed
  | concludedClosed | concludedReleased => cases hserver
  | connected hphase | request hphase hnext | refused | hit | alone | follows | leads | shared
  | fallsThrough | notPicked | noHome | finished | finishedLeader
  | concluded => exact .kept hserver rfl rfl rfl
  | opened _ hpicked htaken =>
    unfold sessionOpened at hserver ⊢
    dsimp only at hserver ⊢
    split at hserver
    · cases hserver
    · rename_i hkeep
      rw [if_neg hkeep]
      cases hserver
      exact .opened hpicked htaken rfl rfl
  | wrongConnection hphase _ _ _ hp =>
    rcases hp with rfl | ⟨left, rfl⟩
    · cases hserver
    · exact absurd hserver (hwithout (by rw [hphase]; rfl))
  | left =>
    unfold leaveSession at hserver
    split at hserver <;> cases hserver
  | passed _ _ hsession => rcases hsession with rfl | rfl <;> exact .kept hserver rfl rfl rfl
  | usable hphase hpicked htaken hready hobtained
  | authenticated hphase hpicked htaken _ hobtained =>
    obtain ⟨rfl, ⟨conn', hconn⟩, hvars, hreplay⟩ :=
      (obtained_cases hobtained).server hs (by rw [hphase]; rfl) hserver
    exact .acquired hpicked htaken hconn hvars hreplay
  | unusable hphase | unusableHome hphase => exact absurd hserver (hwithout (by rw [hphase]; rfl))
  | usableHome hphase _ htaken _ hobtained =>
    obtain ⟨rfl, ⟨_, hconn⟩, hvars, hreplay⟩ :=
      (obtained_cases hobtained).server hs (by rw [hphase]; rfl) hserver
    exact .acquiredHome htaken hconn hvars hreplay
  | @replayFailed _ _ _ d _ _ hheld hreplay hfail =>
    have hd : d = c := Option.some.inj (hheld.symm.trans hserver)
    subst hd
    exact .replayFailed hheld rfl hreplay hfail rfl
  | @answered env led acquired d replayed a a' reply hphase hheld hreplay hreplayed hwrite
    hforward hlsn hreply =>
    have hforwarded := forwarded_of_forwardReply hforward
    have hrecorded := lsnRecorded_of_recordLSN hlsn
    unfold settle at hserver ⊢
    split at hserver
    · cases hserver
    · rename_i hkeep
      rw [if_neg hkeep]
      have hsame : a'.session.server = (s.procs i).session.server := by
        rw [hrecorded.server, hforwarded.session]
      have hd : d = c := Option.some.inj (hheld.symm.trans (hsame.symm.trans hserver))
      subst hd
      exact .answered hheld rfl hreplay hreplayed hwrite (vars_of_served hforwarded hrecorded)

end

/-! ## Every move keeps the settings -/

def sameSettings (m m' : StringMap) : Bool := m.entries.isPerm m'.entries

theorem lookup_of_sameSettings (h : sameSettings m m') (name : Bytes) :
    m.lookup name = m'.lookup name :=
  AList.perm_lookup (List.isPerm_iff.1 h)

namespace Storing

def offered (s : Storing) : Source → StringMap
  | .dial => ∅
  | .pooled c => s.inForce c

def offersOwn (s : Storing) (i : Nat) (source : Source) : Bool :=
  (s.offered source).keys.all fun name => (s.sessionOf i).state.vars.keys.contains name

/-- What session `i`'s request finds on its connection and does to it: nothing
is unread, the replays are read to their end, and the request sets what the
tracker records of it. -/
def tracksSettings (s : Storing) (i c : Nat) (env : ServeEnv) (changes : SettingChanges) : Bool :=
  (s.system.conns c).wire.unread == [] && env.replays.all AwaitTrip.readsReply &&
    sameSettings (assignKeys (s.sessionOf i).state.vars changes)
      (trackRequest (s.sessionOf i).state (s.sessionOf i).data).vars

def keepsSettings (s : Storing) (i : Nat) (changes : SettingChanges) : Act → Bool
  | .handshake env => env.picked.all fun p =>
    sameSettings (assignKeys (s.offered p.2) changes) (s.sessionOf i).state.vars
  | .acquire env => env.picked.all fun p => s.offersOwn i p.2
  | .acquireHome source _ => source.all fun source => s.offersOwn i source
  | .serve env => (s.sessionOf i).server.all fun c => s.tracksSettings i c env changes
  | _ => true

def SettingsInForce (s : Storing) : Prop :=
  ∀ i c, (s.sessionOf i).server = some c → Carries (s.sessionOf i) (s.inForce c)

variable {cfg : Config} {s : Storing} {i c : Nat} {changes : SettingChanges}

theorem settings_of_taken (h : s.system.Taken i key source c conn) :
    s.settings c = s.offered source := by
  cases h with
  | dial => exact if_neg (Nat.lt_irrefl _)
  | pooled hc => exact if_pos hc

theorem settings_of_server (hs : Owned s.system) (h : (s.sessionOf i).server = some c) :
    s.settings c = s.inForce c :=
  if_pos (hs.lt_nextConn h)

theorem own_of_offersOwn (h : s.offersOwn i source) (hname : name ∈ s.offered source) :
    name ∈ (s.sessionOf i).state.vars := by
  unfold offersOwn at h
  rw [all_eq_true] at h
  exact AList.mem_keys.2 (contains_iff_mem.1 (h name (AList.mem_keys.1 hname)))

theorem carries_offered (h : s.offersOwn i source)
    (hvars : session.state.vars = (s.sessionOf i).state.vars)
    (hreplay : session.shouldReplay) : Carries session (s.offered source) := by
  refine ⟨?_, fun hno => nomatch hreplay.symm.trans hno⟩
  rw [hvars]
  exact fun name => own_of_offersOwn h

theorem of_tracksSettings (h : s.tracksSettings i c env changes) :
    (s.system.conns c).wire.unread = [] ∧ env.replays.all AwaitTrip.readsReply ∧
      ∀ name, (assignKeys (s.sessionOf i).state.vars changes).lookup name =
        (trackRequest (s.sessionOf i).state (s.sessionOf i).data).vars.lookup name := by
  unfold tracksSettings at h
  rw [and_eq_true, and_eq_true, beq_iff_eq] at h
  exact ⟨h.1.1, h.1.2, lookup_of_sameSettings h.2⟩

theorem carries_moved (hs : Owned s.system) (hsets : s.SettingsInForce)
    (hallowed : s.keepsSettings i changes a) (hout : Outcome cfg s.system i a ch)
    (hserver : ch.proc.session.server = some c) :
    Carries ch.proc.session ((s.moved cfg i a changes ch).inForce c) := by
  have hinForce : ∀ conn, ch.conn = some (c, conn) →
      (s.moved cfg i a changes ch).inForce c = s.settingsAfter i a changes c := by
    intro _ hconn
    unfold moved
    rw [hconn]
    exact update_self ..
  cases holding_of_outcome hs hout hserver with
  | kept hheld hconn hvars hreplay =>
    have hbefore := hsets i c hheld
    unfold moved
    rw [hconn]
    constructor
    · rw [hvars]
      exact hbefore.own
    · rw [hvars, hreplay]
      exact hbefore.same
  | opened hpicked htaken hconn hvars =>
    rw [hinForce _ hconn, settingsAfter, settings_of_taken htaken]
    rw [keepsSettings, hpicked] at hallowed
    refine .of_same ?_
    rw [hvars]
    exact lookup_of_sameSettings hallowed
  | acquired hpicked htaken hconn hvars hreplay =>
    rw [hinForce _ hconn, settingsAfter, settings_of_taken htaken]
    · rw [keepsSettings, hpicked] at hallowed
      exact carries_offered hallowed hvars hreplay
    · nofun
    · intro env h
      cases h
  | acquiredHome htaken hconn hvars hreplay =>
    rw [hinForce _ hconn, settingsAfter, settings_of_taken htaken]
    · exact carries_offered hallowed hvars hreplay
    · nofun
    · nofun
  | @replayFailed env _ _ hheld hconn hreplay hfail hsession =>
    have hreaches : s.reaches i c env = false := by
      unfold reaches sessionOf
      rw [hreplay, any_some, hfail]
      rfl
    rw [hinForce _ hconn, settingsAfter, hreaches, replayed, settings_of_server hs hheld, hsession]
    exact (hsets i c hheld).replayFailed hreplay
  | @answered env _ _ hheld hconn hreplay hok hwrite hvars =>
    have hreaches : s.reaches i c env := by
      unfold reaches sessionOf
      rw [hreplay, any_some, hok, hwrite]
      rfl
    have htracks : s.tracksSettings i c env changes := by
      rw [keepsSettings, sessionOf, hheld] at hallowed
      exact hallowed
    obtain ⟨hunread, htrips, hrecorded⟩ := of_tracksSettings htracks
    obtain ⟨-, hsame⟩ := (hsets i c hheld).replayed htrips hunread hreplay hok
    rw [hinForce _ hconn, settingsAfter, hreaches, if_pos rfl, replayed,
      settings_of_server hs hheld]
    refine .of_same ?_
    intro name
    rw [hvars]
    rw [lookup_assignKeys_congr hsame]
    exact hrecorded name

/-- **A move keeps every session's settings in force.** -/
theorem SettingsInForce.moved (h : s.SettingsInForce) (hs : Owned s.system)
    (hallowed : s.keepsSettings i changes a) (hout : Outcome cfg s.system i a ch) :
    (s.moved cfg i a changes ch).SettingsInForce := by
  intro j c hserver
  change Carries ((s.system.apply i ch).procs j).session _
  change ((s.system.apply i ch).procs j).session.server = some c at hserver
  rw [System.apply_procs] at hserver ⊢
  by_cases hj : j = i
  · subst hj
    rw [update_self] at hserver ⊢
    exact carries_moved hs h hallowed hout hserver
  · rw [update_of_ne hj] at hserver ⊢
    have hsame : (s.moved cfg i a changes ch).inForce c = s.inForce c := by
      unfold Storing.moved
      cases hconn : ch.conn with
      | none => rfl
      | some touched =>
        apply update_of_ne
        intro hcd
        have hheld := hs.holds j c hserver
        rw [hcd] at hheld
        exact hj (((legal_of_outcome hs hout).touched touched.1 touched.2 hconn).2 j hheld)
    rw [hsame]
    exact h j c hserver

theorem SettingsInForce.touched {s' : Storing} (h : s.SettingsInForce) (hs : Owned s.system)
    (hfree : s.system.Free c) (hprocs : s'.system.procs = s.system.procs)
    (hinForce : s'.inForce = Function.update s.inForce c m) : s'.SettingsInForce := by
  intro j d hserver
  unfold sessionOf at hserver ⊢
  rw [hprocs] at hserver ⊢
  rw [hinForce, update_of_ne (hs.ne_of_free hfree hserver)]
  exact h j d hserver

end Storing

end Pontus.Proxy
