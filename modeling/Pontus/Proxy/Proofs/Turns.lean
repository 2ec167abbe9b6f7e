import Pontus.Proxy.Proofs.Invariant

/-!
# What a move means to the session's connection

`Outcome` tells the moves apart by the code that makes them.  Most of them only
move the session on; `Turn` tells them apart by what becomes of the session's
connection, which is what the invariants about holding one are proved from.
-/

namespace Pontus.Proxy

open Lib Protocol Pool
open List (forall_mem_singleton)

def Event.conn : Event → Option Nat
  | .handed _ c _ _ => some c
  | .replayed _ c _ _ _ => some c
  | .wrote _ c _ => some c
  | .released _ c _ => some c
  | .entered _ => none
  | .replied _ _ _ => none
  | .shared _ _ _ => none

def Phase.starting : Phase → Bool
  | .fresh => true
  | .opening _ _ => true
  | _ => false

theorem Phase.live_of_starting {phase : Phase} (h : phase.starting) : phase.live := by
  cases phase <;> first | rfl | cases h

structure Proc.Continues (p p' : Proc) : Prop where
  server : p'.session.server = p.session.server
  backend : p'.session.backend = p.session.backend
  state : p'.session.state = p.session.state
  live : p'.phase.live = true → p.phase.live = true
  before : p.phase.acquired = false
  after : p'.phase.acquired = false
  started : p'.phase.starting = false

structure Carried (conn conn' : PoolConn) : Prop where
  pool : conn'.pool = conn.pool
  startups : conn'.wire.startups = conn.wire.startups
  ready : conn'.conn.ready = conn.conn.ready

theorem Kept.carried (h : Kept conn conn') : Carried conn conn' := ⟨h.pool, h.startups, h.ready⟩

theorem Carried.markDirty (conn : PoolConn) : Carried conn conn.markDirty := ⟨rfl, rfl, rfl⟩

theorem Carried.release (conn : PoolConn) (draining : Bool) :
    Carried conn (conn.release draining) := by
  refine ⟨rfl, rfl, ?_⟩
  cases draining <;> rfl

theorem Carried.trans (h : Carried conn conn') (h' : Carried conn' conn'') : Carried conn conn'' :=
  ⟨h'.pool.trans h.pool, h'.startups.trans h.startups, h'.ready.trans h.ready⟩

theorem Carried.markDirtyIf (conn : PoolConn) (credentials : Bool) :
    Carried conn (if credentials then conn.markDirty else conn) := by
  split
  · exact .markDirty conn
  · exact (Kept.refl conn).carried

theorem Recycled.carried {conn conn' : PoolConn} {rollback discard : RoundTrip}
    (h : Recycled conn rollback discard conn') : Carried conn conn' := by
  cases h with
  | rollbackFailed hrollback =>
    have hkept := roundTrip_kept hrollback
    exact ⟨hkept.pool, hkept.startups, hkept.ready⟩
  | discardFailed hrollback hdiscard hwire =>
    have hkept := (roundTrip_kept hrollback).trans (roundTrip_kept hdiscard)
    refine ⟨hkept.pool, ?_, hkept.ready⟩
    rcases hwire with rfl | rfl <;> exact hkept.startups
  | reset hrollback _ hdiscard _ hwire =>
    have hkept := (roundTrip_kept hrollback).trans (roundTrip_kept hdiscard)
    refine ⟨hkept.pool, ?_, hkept.ready⟩
    rcases hwire with ⟨rfl, -⟩ | rfl <;> exact hkept.startups

/-- A connection that was taken, and what the move makes of it: nothing as far
as its startup goes, or the packet of the move was written on it. -/
structure Readied (cfg : Config) (p : Proc) (a : Act) (conn conn' : PoolConn) : Prop where
  pool : conn'.pool = conn.pool
  startup : conn'.wire.startups = conn.wire.startups ∧
      (conn'.conn.ready = true → conn.conn.ready = true) ∨
    ∃ packet, a.startupPacket cfg p = some packet ∧
      conn'.wire.startups = packet :: conn.wire.startups ∧
      (conn'.conn.ready = true → a.completesStartup = true)

theorem Readied.refl (cfg : Config) (p : Proc) (a : Act) (conn : PoolConn) :
    Readied cfg p a conn conn := ⟨rfl, .inl ⟨rfl, id⟩⟩

theorem Readied.carried (h : Readied cfg p a conn conn') (h' : Carried conn' conn'') :
    Readied cfg p a conn conn'' := by
  refine ⟨h'.pool.trans h.pool, ?_⟩
  rw [h'.startups, h'.ready]
  exact h.startup

theorem startup_startups (w : Wire) (packet : Bytes) (completed : Bool) :
    (w.startup packet completed).startups = packet :: w.startups := by
  unfold Wire.startup
  split <;> rfl

theorem openBackend_readied (hphase : p.phase = .opening req attempts)
    (h : openBackend cfg req conn env = (conn', outcome)) :
    Readied cfg p (.handshake env) conn conn' := by
  cases backendOpened h with
  | reused => exact .refl _ _ _ _
  | started hready hpacket =>
    refine ⟨rfl, .inr ⟨_, ?_, startup_startups _ _ _, ?_⟩⟩
    · rw [Act.startupPacket, hphase, hpacket]
    · intro h
      exact nomatch hready.symm.trans h

theorem openBackend_opened (identity : Identity) (hphase : p.phase = .opening req attempts)
    (h : openBackend cfg req conn env = (conn', .completed)) :
    Readied cfg p (.handshake env) conn
      { conn' with conn := conn'.conn.markReady.setIdentity identity } := by
  refine ⟨(openBackend_readied hphase h).pool, ?_⟩
  cases backendOpened h with
  | reused hready => exact .inl ⟨rfl, fun _ => hready⟩
  | started _ hpacket hout =>
    refine .inr ⟨_, ?_, startup_startups _ _ _, fun _ => ?_⟩
    · rw [Act.startupPacket, hphase, hpacket]
    · cases hstarted : env.started with
      | true => exact hstarted
      | false =>
        rw [hstarted] at hout
        cases hout

inductive Proc.Acquires (p : Proc) (led : Option Led) (retry : Bool) (env : AcquireEnv) :
    Act → Prop
  | picked (hphase : p.phase = .acquiring led retry) : Acquires p led retry env (.acquire env)
  | home {source : Option Source} (hphase : p.phase = .acquiringHome led retry) :
      Acquires p led retry env (.acquireHome source env)

section
variable (cfg : Config) (s : System) (i : Nat)

inductive Turn : Act → Change → Prop
  | named {env : ConnectEnv} {read req : StartupRequest} (hphase : (s.procs i).phase = .fresh)
      (hread : readStartup cfg.unicode env.packet = some read)
      (hrequest : resolveDatabase env.routes read = some req) :
      Turn (.connect env)
        { proc := { s.procs i with
            session := { (s.procs i).session with
              state := { (s.procs i).session.state with
                user := req.user, database := req.database } }
            phase := .opening req identityAttempts } }
  | quiet {a : Act} {p : Proc} {call : Option (Nat × InflightCall)}
      {inFlight : Option (Bytes × Option Nat)} {events : List Event}
      (hcontinues : (s.procs i).Continues p) (hbatch : p.batchOpen = (s.procs i).batchOpen)
      (hevents : ∀ e ∈ events, e.session = i ∧ e.conn = none)
      (htakes : a.takes (s.procs i) = none) :
      Turn a { proc := p, call := call, inFlight := inFlight, events := events }
  | bypassed {a : Act} {p : Proc} {events : List Event} (hcontinues : (s.procs i).Continues p)
      (haction : (∃ env entry, a = .middleware env ∧
        cacheHandle cfg.hash env.cacheEnabled (fun _ => env.entry) (s.procs i).session =
          .hit entry) ∨ ∃ writeFails, a = .follow writeFails)
      (hbatch : p.batchOpen = batchOpenAfter (s.procs i).batchOpen (s.procs i).session.data)
      (hevents : ∀ e ∈ events, e.session = i ∧ e.conn = none) :
      Turn a { proc := p, events := events }
  | closed {a : Act} (hserver : (s.procs i).session.server = none ∨
        (s.procs i).session.backend = none) (htakes : a.takes (s.procs i) = none) :
      Turn a { proc := (s.procs i).close }
  | opened {env : HandshakeEnv} {req : StartupRequest} {attempts c : Nat} {backend : Bytes}
      {source : Source} {conn conn' : PoolConn}
      (hphase : (s.procs i).phase = .opening req attempts)
      (hpicked : env.picked = some (backend, source))
      (htaken : s.Taken i ⟨backend, (s.procs i).session.identity⟩ source c conn)
      (hopen : openBackend cfg req conn env = (conn', .completed)) :
      Turn (.handshake env) (sessionOpened cfg s i (s.procs i) backend c conn')
  | givenBack {a : Act} {p : Proc} {backend : Bytes} {source : Source} {c : Nat}
      {conn conn' : PoolConn} {events : List Event}
      (hunserved : (s.procs i).phase.unserved = true) (hlive : (s.procs i).phase.live = true)
      (hproc : p = (s.procs i).close ∨ ∃ phase, p = { s.procs i with phase := phase } ∧
        phase.acquired = false ∧ (phase.starting = true → ∃ req left left',
          phase = .opening req left ∧ (s.procs i).phase = .opening req left'))
      (htaken : s.Taken i ⟨backend, (s.procs i).session.identity⟩ source c conn)
      (hevents : events = [] ∨ ∃ state,
        events = [.handed i c (s.procs i).session.identity state] ∧ Kept state conn' ∧
          state.conn.ready = true)
      (htakes : a.takes (s.procs i) = some (backend, source))
      (hreadied : Readied cfg (s.procs i) a conn conn') :
      Turn a
        { proc := p
          conn := some (c, conn'.release (s.draining backend))
          events := .released i c conn' :: events }
  | installed {a : Act} {led : Option Led} {retry : Bool} {env : AcquireEnv} {backend : Bytes}
      {source : Source} {c : Nat} {conn conn' conn'' : PoolConn}
      (hunserved : (s.procs i).phase.unserved = true)
      (hlive : (s.procs i).phase.live = true) (hstarted : (s.procs i).phase.starting = false)
      (htaken : s.Taken i ⟨backend, (s.procs i).session.identity⟩ source c conn)
      (hacquires : (s.procs i).Acquires led retry env a)
      (hwaited : (!retry && (s.procs i).session.queryInfo.readOnly &&
        (s.procs i).session.state.lastLSN ≠ [] && env.replica) = true →
        waitLSN env.rounds = some true)
      (htakes : a.takes (s.procs i) = some (backend, source))
      (hreadied : Readied cfg (s.procs i) a conn conn'') (hkept : Kept conn' conn'')
      (hready : conn'.conn.ready = true) :
      Turn a
        { proc := { s.procs i with
            session := { (s.procs i).session with
              backend := some backend, server := some c, shouldReplay := true }
            phase := .serving led true }
          conn := some (c, conn'')
          events := [.handed i c (s.procs i).session.identity conn'] }
  | replayFailed {env : ServeEnv} {led : Option Led} {c : Nat} {replayed : Replayed}
      (hserver : (s.procs i).session.server = some c)
      (hcarried : Carried (s.conns c) replayed.conn) :
      Turn (.serve env)
        { proc := { s.procs i with phase := .returning led true }
          conn := some (c, replayed.conn)
          events := [.replayed i c replayed.messages (s.procs i).session.state.txState
            (s.procs i).batchOpen] }
  /-- the session gives its connection back and does not go on -/
  | leaves {a : Act} {p : Proc} {c : Nat} {conn : PoolConn} {draining : Bool}
      {events : List Event} (hserver : (s.procs i).session.server = some c)
      (hgone : p.session.server = none) (hlive : p.phase.live = false)
      (hstate : p.session.state = (s.procs i).session.state)
      (hdraining : (s.procs i).session.backend ≠ none →
        draining = s.isDraining (s.procs i).session.backend)
      (hbatch : p.batchOpen = (s.procs i).batchOpen)
      (hevents : ∀ e ∈ events, e.session = i ∧ ∃ messages txState batchOpen,
        e = .replayed i c messages txState batchOpen)
      (htakes : a.takes (s.procs i) = none) (hcarried : Carried (s.conns c) conn) :
      Turn a
        { proc := p
          conn := some (c, conn.release draining)
          events := .released i c conn :: events }
  | concludedReleased {c : Nat} {conn : PoolConn} (hphase : (s.procs i).phase = .concluding false)
      (hserver : (s.procs i).session.server = some c)
      (hrelease : cfg.pooling.shouldRelease (s.procs i).session.state
        (isPinned (s.procs i).session.state) = true)
      (hconn : conn = if cfg.credentials then (s.conns c).markDirty else s.conns c) :
      Turn .conclude
        { proc := { s.procs i with
            session := { (s.procs i).session with server := none, backend := none }
            phase := .waiting }
          conn := some (c, conn.release (s.isDraining (s.procs i).session.backend))
          events := [.released i c conn] }
  | answered {env : ServeEnv} {led : Option Led} {acquired : Bool} {c : Nat}
      {replayed : Replayed} {a a' : Answered} {reply : List Event}
      (hphase : (s.procs i).phase = .serving led acquired)
      (hserver : (s.procs i).session.server = some c)
      (hreplay : replaySession i (s.procs i).session (s.conns c) env = some replayed)
      (hreplayed : replayed.succeeded = true)
      (hforwarded : Forwarded cfg i (s.procs i).session led replayed.conn env a)
      (hrecorded : LSNRecorded a a' env)
      (hreply : reply = if a'.response.err.isNone then
        [Event.replied i (led.map Led.call) env.taken] else []) :
      Turn (.serve env)
        (settle cfg s i (s.procs i) led c a' (reply ++ [.wrote i c (s.procs i).session.data,
          .replayed i c replayed.messages (s.procs i).session.state.txState (s.procs i).batchOpen]))

variable {cfg s i}

theorem Proc.continues_phase {p : Proc} {phase : Phase} (hlive : phase.live →
    p.phase.live) (hbefore : p.phase.acquired = false) (hafter : phase.acquired = false)
    (hstarted : phase.starting = false) : p.Continues { p with phase := phase } :=
  ⟨rfl, rfl, rfl, hlive, hbefore, hafter, hstarted⟩

theorem Proc.continues_proceed {p : Proc} (led : Option Led) (hlive : p.phase.live)
    (hbefore : p.phase.acquired = false) : p.Continues (p.proceed led) := by
  unfold Proc.proceed
  split <;> exact continues_phase (fun _ => hlive) hbefore rfl rfl

theorem Proc.Acquires.phase {p : Proc} (h : p.Acquires led retry env a) :
    p.phase.unserved ∧ p.phase.live ∧ p.phase.starting = false := by
  cases h with
  | picked hphase | home hphase =>
    rw [hphase]
    exact ⟨rfl, rfl, rfl⟩

theorem Obtained.turn {a : Act} {conn' : PoolConn}
    (hacquires : (s.procs i).Acquires led retry env a)
    (htakes : a.takes (s.procs i) = some (backend, source))
    (htaken : s.Taken i ⟨backend, (s.procs i).session.identity⟩ source c conn)
    (hreadied : Readied cfg (s.procs i) a conn conn') (hready : conn'.conn.ready)
    (h : Obtained s i led retry backend c conn' env ch) : Turn cfg s i a ch := by
  obtain ⟨hunserved, hlive, hstarted⟩ := hacquires.phase
  cases h with
  | @installed conn'' hconn hwaited =>
    have hkept : Kept conn' conn'' := by
      rcases hconn with rfl | ⟨hconn, -⟩
      · exact .refl _
      · exact roundTrips_kept hconn
    exact .installed hunserved hlive hstarted htaken hacquires hwaited htakes
      (hreadied.carried hkept.carried) hkept hready
  | behind hconn =>
    have hkept := roundTrips_kept hconn
    refine .givenBack hunserved hlive (.inr ⟨.acquiring led true, rfl, rfl, ?_⟩) htaken
      (.inr ⟨_, rfl, hkept, hready⟩) htakes (hreadied.carried hkept.carried)
    nofun

/-- **Every move is one of these.** -/
theorem turn_of_outcome (hs : Owned s) {a : Act} {ch : Change} (h : Outcome cfg s i a ch) :
    Turn cfg s i a ch := by
  have hwithout := hs.without i
  have hnone : ∀ e ∈ ([] : List Event), e.session = i ∧ e.conn = none := fun e he => nomatch he
  cases h with
  | connectClosed hphase => exact .closed (.inl (hwithout (by rw [hphase]; rfl))) rfl
  | connected hphase _ hread hrequest => exact .named hphase hread hrequest
  | noBackend hphase hpicked => exact .closed (.inl (hwithout (by rw [hphase]; rfl))) hpicked
  | opened hphase hpicked htaken hopen => exact .opened hphase hpicked htaken hopen
  | wrongConnection hphase hpicked htaken hopen hp =>
    refine .givenBack (by rw [hphase]; rfl) (by rw [hphase]; rfl) ?_ htaken (.inl rfl) hpicked
      ((openBackend_readied hphase hopen).carried (markBroken_kept _).carried)
    rcases hp with rfl | ⟨left, rfl⟩
    · exact .inl rfl
    · exact .inr ⟨_, rfl, rfl, fun _ => ⟨_, _, _, rfl, hphase⟩⟩
  | openFailed hphase hpicked htaken hopen =>
    exact .givenBack (by rw [hphase]; rfl) (by rw [hphase]; rfl) (.inl rfl) htaken (.inl rfl)
      hpicked (openBackend_readied hphase hopen)
  | left =>
    unfold leaveSession
    split
    · rename_i backend c hback hserver
      refine .leaves hserver rfl rfl rfl ?_ rfl (fun e he => nomatch he) rfl (.markDirty _)
      intro _
      rw [hback]
      rfl
    · rename_i hnever
      refine .closed ?_ rfl
      cases hserver : (s.procs i).session.server with
      | none => exact .inl rfl
      | some c =>
        cases hback : (s.procs i).session.backend with
        | none => exact .inr rfl
        | some backend => exact absurd hserver (hnever backend c hback)
  | request hphase hnext =>
    refine .quiet ⟨rfl, rfl, rfl, ?_, by rw [hphase]; rfl, ?_, ?_⟩ rfl hnone rfl
    · intro _
      rw [hphase]
      rfl
    · rcases hnext with rfl | rfl <;> rfl
    · rcases hnext with rfl | rfl <;> rfl
  | refused hphase =>
    exact .quiet (Proc.continues_phase nofun (by rw [hphase]; rfl) rfl rfl) rfl
      hnone rfl
  | hit hphase _ hhit =>
    refine .bypassed ⟨rfl, rfl, rfl, ?_, by rw [hphase]; rfl, rfl, rfl⟩
      (.inl ⟨_, _, rfl, hhit⟩) rfl hnone
    intro _
    rw [hphase]
    rfl
  | passed hphase _ hsession =>
    refine .quiet ⟨?_, ?_, ?_, ?_, by rw [hphase]; rfl, rfl, rfl⟩ rfl hnone rfl
    · rcases hsession with rfl | rfl <;> rfl
    · rcases hsession with rfl | rfl <;> rfl
    · rcases hsession with rfl | rfl <;> rfl
    · intro _
      rw [hphase]
      rfl
  | alone hphase =>
    exact .quiet (Proc.continues_proceed none (by rw [hphase]; rfl) (by rw [hphase]; rfl)) rfl
      (forall_mem_singleton.2 ⟨rfl, rfl⟩) rfl
  | follows hphase =>
    refine .quiet (Proc.continues_phase ?_ (by rw [hphase]; rfl) rfl rfl) rfl
      (forall_mem_singleton.2 ⟨rfl, rfl⟩) rfl
    intro _
    rw [hphase]
    rfl
  | leads hphase =>
    exact .quiet (Proc.continues_proceed _ (by rw [hphase]; rfl) (by rw [hphase]; rfl)) rfl
      (forall_mem_singleton.2 ⟨rfl, rfl⟩) rfl
  | shared hphase =>
    refine .bypassed ⟨rfl, rfl, rfl, ?_, by rw [hphase]; rfl, rfl, rfl⟩ (.inr ⟨_, rfl⟩) rfl ?_
    · intro _
      rw [hphase]
      rfl
    · split
      · exact hnone
      · exact forall_mem_singleton.2 ⟨rfl, rfl⟩
  | fallsThrough hphase =>
    exact .quiet (Proc.continues_proceed none (by rw [hphase]; rfl) (by rw [hphase]; rfl))
      rfl hnone rfl
  | notPicked hphase hpicked =>
    refine .quiet (Proc.continues_phase ?_ (by rw [hphase]; rfl) rfl rfl) rfl hnone hpicked
    intro _
    rw [hphase]
    rfl
  | usable hphase hpicked htaken hready hobtained =>
    exact (obtained_cases hobtained).turn (.picked hphase) hpicked htaken (.refl _ _ _ _) hready
  | authenticated hphase hpicked htaken _ hobtained hauthenticated hcredentials =>
    refine (obtained_cases hobtained).turn (.picked hphase) hpicked htaken ?_ rfl
    exact ⟨rfl, .inr ⟨_, if_pos hcredentials, startup_startups _ _ _, fun _ => hauthenticated⟩⟩
  | unusable hphase hpicked htaken hwire hcredentials =>
    refine .givenBack (by rw [hphase]; rfl) (by rw [hphase]; rfl) (.inr ⟨_, rfl, rfl, ?_⟩)
      htaken (.inl rfl) hpicked ⟨rfl, ?_⟩
    · nofun
    · rcases hwire with rfl | ⟨hready, rfl⟩
      · exact .inl ⟨rfl, id⟩
      · refine .inr ⟨_, if_pos ?_, startup_startups _ _ _, fun h => ?_⟩
        · refine hcredentials.resolve_right fun hsame => ?_
          have hstartups := congrArg Wire.startups hsame
          exact List.cons_ne_self _ _ hstartups
        · exact nomatch hready.symm.trans h
  | noHome hphase hnever =>
    refine .quiet (Proc.continues_phase nofun (by rw [hphase]; rfl) rfl rfl) rfl
      hnone ?_
    rcases hnever with hhome | rfl
    · rw [Act.takes, hhome]
      rfl
    · simp [Act.takes]
  | unusableHome hphase hhome htaken =>
    refine .givenBack (by rw [hphase]; rfl) (by rw [hphase]; rfl) (.inr ⟨_, rfl, rfl, ?_⟩)
      htaken (.inl rfl) (by rw [Act.takes, hhome]; rfl) (.refl _ _ _ _)
    nofun
  | usableHome hphase hhome htaken hready hobtained =>
    exact (obtained_cases hobtained).turn (.home hphase) (by rw [Act.takes, hhome]; rfl) htaken
      (.refl _ _ _ _) hready
  | replayFailed _ hserver hreplay =>
    exact .replayFailed hserver (replaySession_kept hreplay).carried
  | writeFailed _ hserver hreplay =>
    exact .leaves hserver rfl rfl rfl (fun _ => rfl) rfl
      (forall_mem_singleton.2 ⟨rfl, _, _, _, rfl⟩) rfl
      ((replaySession_kept hreplay).trans (markBroken_kept _)).carried
  | answered hphase hserver hreplay hreplayed _ hforward hlsn hreply =>
    exact .answered hphase hserver hreplay hreplayed (forwarded_of_forwardReply hforward)
      (lsnRecorded_of_recordLSN hlsn) hreply
  | finished hphase | finishedLeader hphase =>
    refine .quiet (Proc.continues_phase ?_ (by rw [hphase]; rfl) rfl rfl) rfl hnone rfl
    intro hlive
    rw [hphase]
    exact hlive
  | concludedFailed _ hserver =>
    exact .leaves hserver rfl rfl rfl (fun _ => rfl) rfl (fun e he => nomatch he) rfl
      (Kept.refl _).carried
  | concludedClosed _ hserver => exact .closed (.inl hserver) rfl
  | concludedReleased hphase hserver hreleased hconn =>
    exact .concludedReleased hphase hserver hreleased hconn
  | concluded hphase =>
    refine .quiet (Proc.continues_phase ?_ (by rw [hphase]; rfl) rfl rfl) rfl hnone rfl
    intro _
    rw [hphase]
    rfl

theorem change_closed (h : (s.procs i).phase = .closed) : change cfg s i a = none := by
  cases a <;>
    simp [change, connect, handshake, receive, middleware, enter, follow, acquire, acquireHome,
      serve, finish, conclude, h]

theorem change_fresh (hphase : (s.procs i).phase = .fresh) (h : change cfg s i a = some ch) :
    ∃ env, a = .connect env := by
  cases a with
  | connect env => exact ⟨env, rfl⟩
  | _ =>
    simp [change, handshake, receive, middleware, enter, follow, acquire, acquireHome,
      serve, finish, conclude, hphase] at h

/-! ## What the turns have in common -/

theorem Turn.live (h : Turn cfg s i a ch) (hlive : ch.proc.phase.live) :
    (s.procs i).phase.live := by
  cases h with
  | named hphase | opened hphase | concludedReleased hphase | answered hphase => rw [hphase]; rfl
  | quiet hcontinues | bypassed hcontinues => exact hcontinues.live hlive
  | closed | replayFailed => cases hlive
  | givenBack _ halive | installed _ halive => exact halive
  | leaves _ _ hdead => exact nomatch hdead.symm.trans hlive

theorem Turn.starting (h : Turn cfg s i a ch) (hstarting : ch.proc.phase.starting) :
    (s.procs i).phase.starting := by
  cases h with
  | named hphase | opened hphase => rw [hphase]; rfl
  | quiet hcontinues | bypassed hcontinues => exact nomatch hcontinues.started.symm.trans hstarting
  | closed | installed | replayFailed | concludedReleased => cases hstarting
  | givenBack _ _ hproc =>
    rcases hproc with rfl | ⟨phase, rfl, -, hphase⟩
    · cases hstarting
    · obtain ⟨_, _, _, -, hopening⟩ := hphase hstarting
      rw [hopening]
      rfl
  | leaves _ _ hlive =>
    rw [Phase.live_of_starting hstarting] at hlive
    cases hlive
  | answered =>
    unfold settle at hstarting
    split at hstarting <;> cases hstarting

/-- A session holds the connection it held, or has none, or got one: by its
handshake or for a request. -/
theorem Turn.server (hs : Owned s) (h : Turn cfg s i a ch)
    (hserver : ch.proc.session.server = some c) :
    (s.procs i).session.server = some c ∨
      (s.procs i).session.server = none ∧ ((s.procs i).phase.starting ∨
        ∃ led retry env, (s.procs i).Acquires led retry env a ∧
          ((!retry && (s.procs i).session.queryInfo.readOnly &&
            (s.procs i).session.state.lastLSN ≠ [] && env.replica) = true →
            waitLSN env.rounds = some true)) := by
  have hwithout := hs.without i
  cases h with
  | named | replayFailed => exact .inl hserver
  | quiet hcontinues | bypassed hcontinues => exact .inl (hcontinues.server.symm.trans hserver)
  | closed | concludedReleased => cases hserver
  | opened hphase => exact .inr ⟨hwithout (by rw [hphase]; rfl), .inl (by rw [hphase]; rfl)⟩
  | givenBack _ _ hproc =>
    rcases hproc with rfl | ⟨phase, rfl, -⟩
    · cases hserver
    · exact .inl hserver
  | installed hunserved _ _ _ hacquires hwaited =>
    exact .inr ⟨hwithout hunserved, .inr ⟨_, _, _, hacquires, hwaited⟩⟩
  | leaves _ hgone => exact nomatch hgone.symm.trans hserver
  | answered _ _ _ _ hforwarded hrecorded =>
    unfold settle at hserver
    split at hserver
    · cases hserver
    · rw [hrecorded.server, hforwarded.session] at hserver
      exact .inl hserver

theorem settle_state : (settle cfg s i p led c a events).proc.session.state = a.session.state := by
  unfold settle
  split <;> rfl

/-- An entry of a request on a connection: about that connection if about any,
what it wrote is the request, and it hands nothing over. -/
structure Event.ServedOn (i c : Nat) (data : Bytes) (e : Event) : Prop where
  conn : e.conn = none ∨ e.conn = some c
  wrote : ∀ j d data', e = .wrote j d data' → j = i ∧ d = c ∧ data' = data
  handed : ∀ j d identity conn, e ≠ .handed j d identity conn

theorem settle_event_conn (hreply : reply = if a.response.err.isNone then
      [Event.replied i (led.map Led.call) taken] else []) :
    ∀ e ∈ (settle cfg s i p led c a (reply ++ [.wrote i c data,
      .replayed i c messages txState batchOpen])).events, e.ServedOn i c data := by
  have hserved : ∀ e ∈ reply ++ [.wrote i c data, .replayed i c messages txState batchOpen],
      e.ServedOn i c data := by
    refine forall_served hreply ?_ ?_ ?_
    · exact ⟨.inl rfl, by rintro _ _ _ ⟨⟩, by rintro _ _ _ _ ⟨⟩⟩
    · refine ⟨.inr rfl, ?_, by rintro _ _ _ _ ⟨⟩⟩
      rintro j d data' ⟨⟩
      exact ⟨rfl, rfl, rfl⟩
    · exact ⟨.inr rfl, by rintro _ _ _ ⟨⟩, by rintro _ _ _ _ ⟨⟩⟩
  unfold settle
  split
  · refine forall_mem_cons.2 ⟨?_, hserved⟩
    exact ⟨.inr rfl, by rintro _ _ _ ⟨⟩, by rintro _ _ _ _ ⟨⟩⟩
  · exact hserved

theorem settle_conn : ∃ conn, (settle cfg s i p led c a events).conn = some (c, conn) ∧
      Carried a.conn conn ∧
      (conn = a.conn ∧ (settle cfg s i p led c a events).proc.session = a.session ∨
        ∃ (conn' : PoolConn) (draining : Bool), conn = conn'.release draining) := by
  unfold settle
  split
  · refine ⟨_, rfl, (Carried.markDirtyIf _ _).trans (.release _ _), .inr ⟨_, _, rfl⟩⟩
  · exact ⟨_, rfl, (Kept.refl _).carried, .inl ⟨rfl, rfl⟩⟩

theorem Turn.event_conn (h : Turn cfg s i a ch) (he : e ∈ ch.events) (hc : e.conn = some c) :
    ∃ conn, ch.conn = some (c, conn) := by
  cases h with
  | named | closed => cases he
  | quiet _ _ hevents | bypassed _ _ _ hevents => exact nomatch (hevents e he).2.symm.trans hc
  | opened =>
    unfold sessionOpened at he ⊢
    dsimp only at he ⊢
    split at he
    · rename_i hreleased
      rw [if_pos hreleased]
      simp only [mem_cons, not_mem_nil, or_false] at he
      rcases he with rfl | rfl
      · cases hc
        exact ⟨_, rfl⟩
      · cases hc
        exact ⟨_, rfl⟩
    · rename_i hreleased
      rw [if_neg hreleased]
      rw [mem_singleton.1 he] at hc
      cases hc
      exact ⟨_, rfl⟩
  | givenBack _ _ _ _ hevents =>
    rcases mem_cons.1 he with rfl | he
    · cases hc
      exact ⟨_, rfl⟩
    · rcases hevents with rfl | ⟨state, rfl, -⟩
      · cases he
      · rw [mem_singleton.1 he] at hc
        cases hc
        exact ⟨_, rfl⟩
  | installed | replayFailed | concludedReleased =>
    rw [mem_singleton.1 he] at hc
    cases hc
    exact ⟨_, rfl⟩
  | leaves _ _ _ _ _ _ hevents =>
    rcases mem_cons.1 he with rfl | he
    · cases hc
      exact ⟨_, rfl⟩
    · obtain ⟨-, _, _, _, rfl⟩ := hevents e he
      cases hc
      exact ⟨_, rfl⟩
  | answered _ _ _ _ _ _ hreply =>
    rcases (settle_event_conn hreply e he).conn with hnone | hsome
    · exact nomatch hnone.symm.trans hc
    · cases hsome.symm.trans hc
      obtain ⟨conn, hsettled, -⟩ := settle_conn
      exact ⟨conn, hsettled⟩

theorem Turn.wrote (h : Turn cfg s i a ch) (he : Event.wrote j d data ∈ ch.events) :
    j = i ∧ (s.procs i).session.server = some d ∧ data = (s.procs i).session.data := by
  cases h with
  | named | closed => cases he
  | quiet _ _ hevents | bypassed _ _ _ hevents => exact nomatch (hevents _ he).2
  | opened =>
    unfold sessionOpened at he
    dsimp only at he
    split at he <;> simp at he
  | givenBack _ _ _ _ hevents => rcases hevents with rfl | ⟨state, rfl, -⟩ <;> simp at he
  | installed | replayFailed | concludedReleased => simp at he
  | leaves _ _ _ _ _ _ hevents =>
    rcases mem_cons.1 he with he | he
    · cases he
    · obtain ⟨-, _, _, _, he⟩ := hevents _ he
      cases he
  | answered _ hserver _ _ _ _ hreply =>
    obtain ⟨rfl, rfl, rfl⟩ := (settle_event_conn hreply _ he).wrote j d data rfl
    exact ⟨rfl, hserver, rfl⟩

/-! ## The client of a session -/

theorem Session.identity_of_state {session session' : Session}
    (h : session'.state = session.state) : session'.identity = session.identity := by
  unfold identity
  rw [h]

theorem Forwarded.identity {session : Session} {a : Answered}
    (h : Forwarded cfg i session led c env a) : a.session.identity = session.identity := by
  unfold Session.identity
  rw [h.sameClient.user, h.sameClient.database]

theorem LSNRecorded.identity (h : LSNRecorded a a' env) :
    a'.session.identity = a.session.identity := by
  rcases h.session with hsession | ⟨lsn, hsession, -⟩
  · rw [hsession]
  · rw [hsession]
    rfl

structure Proc.SameSession (p p' : Proc) : Prop where
  identity : p'.session.identity = p.session.identity
  opening : ∀ req left, p'.phase = .opening req left → ∃ left', p.phase = .opening req left'
  fresh : p'.phase ≠ .fresh

theorem Proc.SameSession.of_started {p p' : Proc} (hid : p'.session.identity = p.session.identity)
    (hstarted : p'.phase.starting = false) : p.SameSession p' := by
  refine ⟨hid, ?_, ?_⟩
  · intro _ _ hopening
    rw [hopening] at hstarted
    cases hstarted
  · intro hfresh
    rw [hfresh] at hstarted
    cases hstarted

theorem Turn.client {ch : Change} (h : Turn cfg s i a ch) :
    (∃ env read req, a = .connect env ∧ (s.procs i).phase = .fresh ∧
      readStartup cfg.unicode env.packet = some read ∧ resolveDatabase env.routes read = some req ∧
      ch.proc = { s.procs i with
        session := { (s.procs i).session with
          state := { (s.procs i).session.state with user := req.user, database := req.database } }
        phase := .opening req identityAttempts }) ∨
      (s.procs i).SameSession ch.proc := by
  cases h with
  | named hphase hread hrequest => exact .inl ⟨_, _, _, rfl, hphase, hread, hrequest, rfl⟩
  | quiet hcontinues | bypassed hcontinues =>
    exact .inr (.of_started (Session.identity_of_state hcontinues.state) hcontinues.started)
  | closed | installed | replayFailed | concludedReleased => exact .inr (.of_started rfl rfl)
  | opened =>
    unfold sessionOpened
    dsimp only
    split <;> exact .inr (.of_started rfl rfl)
  | givenBack _ _ hproc =>
    rcases hproc with rfl | ⟨phase, rfl, -, hstarting⟩
    · exact .inr (.of_started rfl rfl)
    · refine .inr ⟨rfl, ?_, ?_⟩
      · intro req _ hopening
        dsimp only at hopening
        obtain ⟨_, left₁, left₂, hphase, hbefore⟩ := hstarting (by rw [hopening]; rfl)
        cases hphase.symm.trans hopening
        exact ⟨left₂, hbefore⟩
      · intro hfresh
        dsimp only at hfresh
        obtain ⟨_, _, _, hphase, -⟩ := hstarting (by rw [hfresh]; rfl)
        exact nomatch hphase.symm.trans hfresh
  | leaves _ _ hlive hstate =>
    refine .inr (.of_started (Session.identity_of_state hstate) ?_)
    rw [eq_false_iff]
    intro hstarting
    exact nomatch hlive.symm.trans (Phase.live_of_starting hstarting)
  | answered _ _ _ _ hforwarded hrecorded =>
    refine .inr (.of_started ?_ ?_)
    · rw [Session.identity_of_state settle_state, hrecorded.identity, hforwarded.identity]
    · unfold settle
      split <;> rfl

/-! ## The connection of a turn -/

variable (cfg s i) in
/-- What a move does to a connection: one the session had carries its traffic,
one the move took may be started. -/
inductive Touched (a : Act) (c : Nat) (conn' : PoolConn) : Prop
  | own (hserver : (s.procs i).session.server = some c) (htakes : a.takes (s.procs i) = none)
      (hcarried : Carried (s.conns c) conn')
  | taken {backend : Bytes} {source : Source} {conn : PoolConn}
      (htakes : a.takes (s.procs i) = some (backend, source))
      (htaken : s.Taken i ⟨backend, (s.procs i).session.identity⟩ source c conn)
      (hreadied : Readied cfg (s.procs i) a conn conn')

theorem Turn.touched (h : Turn cfg s i a ch) (hconn : ch.conn = some (c, conn)) :
    Touched cfg s i a c conn := by
  cases h with
  | named | quiet | bypassed | closed => cases hconn
  | opened hphase hpicked htaken hopen =>
    have hreadied := openBackend_opened (s.procs i).session.identity hphase hopen
    unfold sessionOpened at hconn
    dsimp only at hconn
    split at hconn
    · cases hconn
      exact .taken hpicked htaken (hreadied.carried ((Carried.markDirty _).trans (.release _ _)))
    · cases hconn
      exact .taken hpicked htaken hreadied
  | givenBack _ _ _ htaken _ htakes hreadied =>
    cases hconn
    exact .taken htakes htaken (hreadied.carried (.release _ _))
  | installed _ _ _ htaken _ _ htakes hreadied =>
    cases hconn
    exact .taken htakes htaken hreadied
  | replayFailed hserver hcarried =>
    cases hconn
    exact .own hserver rfl hcarried
  | leaves hserver _ _ _ _ _ _ htakes hcarried =>
    cases hconn
    exact .own hserver htakes (hcarried.trans (.release _ _))
  | concludedReleased _ hserver _ hdirty =>
    cases hconn
    rw [hdirty]
    exact .own hserver rfl ((Carried.markDirtyIf _ _).trans (.release _ _))
  | answered _ hserver hreplay _ hforwarded hrecorded =>
    obtain ⟨_, hsettled, hcarried, -⟩ := settle_conn
    cases hsettled.symm.trans hconn
    exact .own hserver rfl ((served_kept hreplay hforwarded hrecorded).carried.trans hcarried)

theorem Turn.released (h : Turn cfg s i a ch) (hlegal : ch.Legal s i)
    (hconn : ch.conn = some (c, conn)) :
    conn.place = .held i ∨
      ∃ (conn' : PoolConn) (draining : Bool), conn = conn'.release draining := by
  have hheld : ch.proc.session.server = some c → conn.place = .held i := by
    intro hserver
    rcases hlegal.server c hserver with ⟨conn', hconn', hplace⟩ | ⟨hnone, -⟩
    · cases hconn'.symm.trans hconn
      exact hplace
    · exact nomatch hnone.symm.trans hconn
  cases h with
  | named | quiet | bypassed | closed => cases hconn
  | opened =>
    unfold sessionOpened at hconn hheld
    dsimp only at hconn hheld
    split at hconn
    · cases hconn
      exact .inr ⟨_, _, rfl⟩
    · rename_i hkept
      cases hconn
      rw [if_neg hkept] at hheld
      exact .inl (hheld rfl)
  | givenBack | leaves | concludedReleased =>
    cases hconn
    exact .inr ⟨_, _, rfl⟩
  | installed =>
    cases hconn
    exact .inl (hheld rfl)
  | replayFailed hserver =>
    cases hconn
    exact .inl (hheld hserver)
  | answered _ hserver _ _ hforwarded hrecorded =>
    obtain ⟨_, hsettled, -, hkept⟩ := settle_conn
    cases hsettled.symm.trans hconn
    rcases hkept with ⟨rfl, hsession⟩ | hreleases
    · refine .inl (hheld ?_)
      rw [hsession, hrecorded.server, hforwarded.session]
      exact hserver
    · exact .inr hreleases

theorem Turn.obtained (h : Turn cfg s i a ch) (hs : Owned s)
    (hserver : ch.proc.session.server = some c) (hconn : ch.conn = some (c, conn)) :
    (s.procs i).session.server = some c ∨ conn.conn.ready := by
  have hwithout := hs.without i
  cases h with
  | named | replayFailed => exact .inl hserver
  | quiet | bypassed => cases hconn
  | closed | concludedReleased => cases hserver
  | opened =>
    unfold sessionOpened at hserver hconn
    dsimp only at hserver hconn
    split at hconn
    · rename_i hreleased
      rw [if_pos hreleased] at hserver
      cases hserver
    · cases hconn
      exact .inr rfl
  | givenBack hunserved _ hproc =>
    rcases hproc with rfl | ⟨phase, rfl, -⟩
    · cases hserver
    · exact nomatch (hwithout hunserved).symm.trans hserver
  | installed _ _ _ _ _ _ _ _ hkept hready =>
    cases hconn
    exact .inr (hkept.ready.trans hready)
  | leaves _ hgone => exact nomatch hgone.symm.trans hserver
  | answered _ hserved =>
    obtain ⟨_, hsettled, -⟩ := settle_conn
    cases hsettled.symm.trans hconn
    exact .inl hserved

structure Handed (i c : Nat) (identity : Identity) (conn : PoolConn) (s : System) (ch : Change) :
    Prop where
  identity : identity = (s.procs i).session.identity
  ready : conn.conn.ready = true
  conn : ∃ conn', ch.conn = some (c, conn') ∧ Carried conn conn'

theorem Turn.handed (h : Turn cfg s i a ch) (he : Event.handed j c identity conn ∈ ch.events) :
    Handed i c identity conn s ch := by
  cases h with
  | named | closed => cases he
  | quiet _ _ hevents | bypassed _ _ _ hevents => exact nomatch (hevents _ he).2
  | opened =>
    unfold sessionOpened at he ⊢
    dsimp only at he ⊢
    split at he
    · rename_i hreleased
      rw [if_pos hreleased]
      rcases mem_cons.1 he with he | he
      · cases he
      · cases mem_singleton.1 he
        exact ⟨rfl, rfl, _, rfl, (Carried.markDirty _).trans (.release _ _)⟩
    · rename_i hreleased
      rw [if_neg hreleased]
      cases mem_singleton.1 he
      exact ⟨rfl, rfl, _, rfl, (Kept.refl _).carried⟩
  | givenBack _ _ _ _ hevents =>
    rcases mem_cons.1 he with he | he
    · cases he
    · rcases hevents with rfl | ⟨state, rfl, hkept, hready⟩
      · cases he
      · cases mem_singleton.1 he
        exact ⟨rfl, hready, _, rfl, hkept.carried.trans (.release _ _)⟩
  | installed _ _ _ _ _ _ _ _ hkept hready =>
    cases mem_singleton.1 he
    exact ⟨rfl, hready, _, rfl, hkept.carried⟩
  | replayFailed | concludedReleased => exact nomatch mem_singleton.1 he
  | leaves _ _ _ _ _ _ hevents =>
    rcases mem_cons.1 he with he | he
    · cases he
    · obtain ⟨-, _, _, _, he⟩ := hevents _ he
      cases he
  | answered _ _ _ _ _ _ hreply => exact absurd rfl ((settle_event_conn hreply _ he).handed _ _ _ _)

end

end Pontus.Proxy
