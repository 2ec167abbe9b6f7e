import Pontus.Proxy.HandleClient
import Pontus.Proxy.Proofs.CacheHandle

/-!
# What a move does

`Outcome` says once what each piece of a session's code can do; every invariant
is derived from it.  A session moves its own record and at most one connection,
which no other session holds, so that an invariant which speaks of connections,
of sessions with the connection they hold, and of single entries of the log, is
kept as soon as the moving session keeps its own part of it.
-/

namespace Pontus.Proxy

open Lib Protocol Pool

variable {c : Nat} {conn : PoolConn} {key : PoolKey}

/-! ## Carrying out a change -/

namespace System

variable (s : System) (i : Nat) (ch : Change)

theorem apply_procs : (s.apply i ch).procs = Function.update s.procs i ch.proc := by
  unfold apply
  cases ch.conn <;> cases ch.call <;> cases ch.inFlight <;> rfl

theorem apply_log : (s.apply i ch).log = ch.events ++ s.log := by
  unfold apply
  cases ch.conn <;> cases ch.call <;> cases ch.inFlight <;> rfl

theorem apply_conns_none (h : ch.conn = none) : (s.apply i ch).conns = s.conns := by
  unfold apply
  rw [h]
  cases ch.call <;> cases ch.inFlight <;> rfl

theorem apply_conns_some (h : ch.conn = some (c, conn)) :
    (s.apply i ch).conns = Function.update s.conns c conn := by
  unfold apply
  rw [h]
  cases ch.call <;> cases ch.inFlight <;> rfl

theorem apply_nextConn_none (h : ch.conn = none) : (s.apply i ch).nextConn = s.nextConn := by
  unfold apply
  rw [h]
  cases ch.call <;> cases ch.inFlight <;> rfl

theorem apply_nextConn_some (h : ch.conn = some (c, conn)) :
    (s.apply i ch).nextConn = if c = s.nextConn then c + 1 else s.nextConn := by
  unfold apply
  rw [h]
  cases ch.call <;> cases ch.inFlight <;> rfl

theorem apply_nextCall_none (h : ch.call = none) : (s.apply i ch).nextCall = s.nextCall := by
  unfold apply
  rw [h]
  cases ch.conn <;> cases ch.inFlight <;> rfl

theorem apply_nextCall_some (h : ch.call = some (k, call)) :
    (s.apply i ch).nextCall = if k = s.nextCall then k + 1 else s.nextCall := by
  unfold apply
  rw [h]
  cases ch.conn <;> cases ch.inFlight <;> rfl

theorem apply_calls_none (h : ch.call = none) : (s.apply i ch).calls = s.calls := by
  unfold apply
  rw [h]
  cases ch.conn <;> cases ch.inFlight <;> rfl

theorem apply_calls_some (h : ch.call = some (k, call)) :
    (s.apply i ch).calls = Function.update s.calls k call := by
  unfold apply
  rw [h]
  cases ch.conn <;> cases ch.inFlight <;> rfl

end System

/-! ## Taking a connection -/

inductive System.Taken (s : System) (i : Nat) (key : PoolKey) : Source → Nat → PoolConn → Prop
  | dial : Taken s i key .dial s.nextConn (.dialled key (.held i))
  | pooled {c : Nat} (hc : c < s.nextConn) (hpool : (s.conns c).pool = key)
      (hplace : Place.isReturned (s.conns c).place = true) :
      Taken s i key (.pooled c) c { s.conns c with place := .held i }

theorem System.taken_of_take {s : System} (h : s.take i key source = some (c, conn)) :
    s.Taken i key source c conn := by
  cases source with
  | dial =>
    simp only [take, some_inj, Prod.mk.injEq] at h
    rw [← h.1, ← h.2]
    exact .dial
  | pooled d =>
    simp only [take] at h
    split at h
    · rename_i hcondition
      simp only [some_inj, Prod.mk.injEq] at h
      rw [← h.1, ← h.2]
      exact .pooled hcondition.1 hcondition.2.1 hcondition.2.2
    · cases h

theorem System.Taken.take {s : System} (h : s.Taken i key source c conn) :
    s.take i key source = some (c, conn) := by
  cases h with
  | dial => rfl
  | pooled hc hpool hplace => exact if_pos ⟨hc, hpool, hplace⟩

theorem System.Taken.place {s : System} (h : s.Taken i key source c conn) :
    conn.place = .held i := by
  cases h <;> rfl

theorem System.Taken.pool {s : System} (h : s.Taken i key source c conn) : conn.pool = key := by
  cases h with
  | dial => rfl
  | pooled _ hpool _ => exact hpool

/-! ## The outcomes of a move -/

section
variable (cfg : Config) (s : System) (i : Nat)

inductive Outcome : Act → Change → Prop
  | connectClosed {env : ConnectEnv} (hphase : (s.procs i).phase = .fresh) :
      Outcome (.connect env) { proc := (s.procs i).close }
  | connected {env : ConnectEnv} {read req : StartupRequest}
      (hphase : (s.procs i).phase = .fresh) (hvalid : env.routes.validate cfg.unicode = none)
      (hread : readStartup cfg.unicode env.packet = some read)
      (hrequest : resolveDatabase env.routes read = some req) :
      Outcome (.connect env)
        { proc := { s.procs i with
            session := { (s.procs i).session with
              state := { (s.procs i).session.state with
                user := req.user, database := req.database } }
            phase := .opening req identityAttempts } }
  | noBackend {env : HandshakeEnv} {req : StartupRequest} {attempts : Nat}
      (hphase : (s.procs i).phase = .opening req attempts) (hpicked : env.picked = none) :
      Outcome (.handshake env) { proc := (s.procs i).close }
  | opened {env : HandshakeEnv} {req : StartupRequest} {attempts c : Nat} {backend : Bytes}
      {source : Source} {conn conn' : PoolConn}
      (hphase : (s.procs i).phase = .opening req attempts)
      (hpicked : env.picked = some (backend, source))
      (htaken : s.Taken i ⟨backend, (s.procs i).session.identity⟩ source c conn)
      (hopen : openBackend cfg req conn env = (conn', .completed)) :
      Outcome (.handshake env) (sessionOpened cfg s i (s.procs i) backend c conn')
  | wrongConnection {env : HandshakeEnv} {req : StartupRequest} {attempts c : Nat}
      {backend : Bytes} {source : Source} {conn conn' : PoolConn} {p : Proc}
      (hphase : (s.procs i).phase = .opening req attempts)
      (hpicked : env.picked = some (backend, source))
      (htaken : s.Taken i ⟨backend, (s.procs i).session.identity⟩ source c conn)
      (hopen : openBackend cfg req conn env = (conn', .wrongConnection))
      (hp : p = (s.procs i).close ∨ ∃ left, p = { s.procs i with phase := .opening req left }) :
      Outcome (.handshake env)
        { proc := p
          conn := some (c, conn'.markBroken.release (s.draining backend))
          events := [.released i c conn'.markBroken] }
  | openFailed {env : HandshakeEnv} {req : StartupRequest} {attempts c : Nat} {backend : Bytes}
      {source : Source} {conn conn' : PoolConn}
      (hphase : (s.procs i).phase = .opening req attempts)
      (hpicked : env.picked = some (backend, source))
      (htaken : s.Taken i ⟨backend, (s.procs i).session.identity⟩ source c conn)
      (hopen : openBackend cfg req conn env = (conn', .failed)) :
      Outcome (.handshake env)
        { proc := (s.procs i).close
          conn := some (c, conn'.release (s.draining backend))
          events := [.released i c conn'] }
  | left {script : List ClientRead} (hphase : (s.procs i).phase = .waiting) :
      Outcome (.receive script) (leaveSession s i (s.procs i))
  | request {script : List ClientRead} {data : Bytes} {phase : Phase}
      (hphase : (s.procs i).phase = .waiting) (hnext : phase = .waiting ∨ phase = .received) :
      Outcome (.receive script)
        { proc := { s.procs i with
            session := (s.procs i).session.receive cfg.unicode data, phase := phase } }
  | refused {env : MiddlewareEnv} (hphase : (s.procs i).phase = .received)
      (hrefused : env.refused = true) :
      Outcome (.middleware env) { proc := { s.procs i with phase := .concluding true } }
  | hit {env : MiddlewareEnv} {entry : CacheEntry} (hphase : (s.procs i).phase = .received)
      (hrefused : env.refused = false)
      (hhit : cacheHandle cfg.hash env.cacheEnabled (fun _ => env.entry) (s.procs i).session =
        .hit entry) :
      Outcome (.middleware env)
        { proc := { s.procs i with
            phase := .concluding env.writeFails
            batchOpen := batchOpenAfter (s.procs i).batchOpen (s.procs i).session.data } }
  | passed {env : MiddlewareEnv} {session : Session} (hphase : (s.procs i).phase = .received)
      (hrefused : env.refused = false)
      (hsession : session = (s.procs i).session ∨
        session = { (s.procs i).session with responseCapture := some [], replyFailed := false }) :
      Outcome (.middleware env)
        { proc := { s.procs i with session := session, phase := .entering } }
  | alone (hphase : (s.procs i).phase = .entering) :
      Outcome .enter { proc := (s.procs i).proceed none, events := [.entered i] }
  | follows {call : Nat} (hphase : (s.procs i).phase = .entering)
      (hcollapse : collapse cfg.hash s.inFlight (s.procs i).session = .follow call) :
      Outcome .enter { proc := { s.procs i with phase := .following call }, events := [.entered i] }
  | leads {key : Bytes} (hphase : (s.procs i).phase = .entering) :
      Outcome .enter
        { proc := (s.procs i).proceed (some ⟨s.nextCall, key⟩)
          call := some (s.nextCall, .new)
          inFlight := some (key, some s.nextCall)
          events := [.entered i] }
  | shared {call : Nat} {data : Bytes} {writeFails : Bool}
      (hphase : (s.procs i).phase = .following call) (hdone : (s.calls call).done = true)
      (hanswer : (s.calls call).answer = some data) :
      Outcome (.follow writeFails)
        { proc := { s.procs i with
            phase := .returning none writeFails
            batchOpen := batchOpenAfter (s.procs i).batchOpen (s.procs i).session.data }
          events := if writeFails then [] else [.shared i call data] }
  | fallsThrough {call : Nat} {writeFails : Bool} (hphase : (s.procs i).phase = .following call)
      (hdone : (s.calls call).done = true) (hanswer : (s.calls call).answer = none) :
      Outcome (.follow writeFails) { proc := (s.procs i).proceed none }
  | notPicked {env : AcquireEnv} {led : Option Led} {retry : Bool}
      (hphase : (s.procs i).phase = .acquiring led retry) (hpicked : env.picked = none) :
      Outcome (.acquire env) { proc := { s.procs i with phase := .acquiringHome led retry } }
  | usable {env : AcquireEnv} {led : Option Led} {retry : Bool} {backend : Bytes}
      {source : Source} {c : Nat} {conn : PoolConn} {ch : Change}
      (hphase : (s.procs i).phase = .acquiring led retry)
      (hpicked : env.picked = some (backend, source))
      (htaken : s.Taken i ⟨backend, (s.procs i).session.identity⟩ source c conn)
      (hready : conn.conn.ready = true)
      (hobtained : obtained s i (s.procs i) led retry backend c conn env = some ch) :
      Outcome (.acquire env) ch
  | authenticated {env : AcquireEnv} {led : Option Led} {retry : Bool} {backend : Bytes}
      {source : Source} {c : Nat} {conn : PoolConn} {ch : Change}
      (hphase : (s.procs i).phase = .acquiring led retry)
      (hpicked : env.picked = some (backend, source))
      (htaken : s.Taken i ⟨backend, (s.procs i).session.identity⟩ source c conn)
      (hready : conn.conn.ready = false)
      (hobtained : obtained s i (s.procs i) led retry backend c
        { conn with
          wire := conn.wire.startup (writeStartup (s.procs i).session.identity.user
            (s.procs i).session.identity.database) true
          conn := (conn.conn.setIdentity (s.procs i).session.identity).markReady } env = some ch)
      (hauthenticated : env.authenticated = true) (hcredentials : cfg.credentials = true) :
      Outcome (.acquire env) ch
  | unusable {env : AcquireEnv} {led : Option Led} {retry : Bool} {backend : Bytes}
      {source : Source} {c : Nat} {conn : PoolConn} {wire : Wire}
      (hphase : (s.procs i).phase = .acquiring led retry)
      (hpicked : env.picked = some (backend, source))
      (htaken : s.Taken i ⟨backend, (s.procs i).session.identity⟩ source c conn)
      (hwire : wire = conn.wire ∨ conn.conn.ready = false ∧
        wire = conn.wire.startup (writeStartup (s.procs i).session.identity.user
          (s.procs i).session.identity.database) false)
      (hcredentials : cfg.credentials = true ∨ wire = conn.wire) :
      Outcome (.acquire env)
        { proc := { s.procs i with phase := .acquiringHome led retry }
          conn := some (c, { conn with wire := wire }.release (s.draining backend))
          events := [.released i c { conn with wire := wire }] }
  | noHome {source : Option Source} {env : AcquireEnv} {led : Option Led} {retry : Bool}
      (hphase : (s.procs i).phase = .acquiringHome led retry)
      (hnone : (s.procs i).session.homeBackend = none ∨ source = none) :
      Outcome (.acquireHome source env) { proc := { s.procs i with phase := .returning led true } }
  | unusableHome {source : Source} {env : AcquireEnv} {led : Option Led} {retry : Bool}
      {home : Bytes} {c : Nat} {conn : PoolConn}
      (hphase : (s.procs i).phase = .acquiringHome led retry)
      (hhome : (s.procs i).session.homeBackend = some home)
      (htaken : s.Taken i ⟨home, (s.procs i).session.identity⟩ source c conn)
      (hunusable : (conn.conn.ready && conn.conn.belongsTo (s.procs i).session.identity) = false) :
      Outcome (.acquireHome (some source) env)
        { proc := { s.procs i with phase := .returning led true }
          conn := some (c, conn.release (s.draining home))
          events := [.released i c conn] }
  | usableHome {source : Source} {env : AcquireEnv} {led : Option Led} {retry : Bool}
      {home : Bytes} {c : Nat} {conn : PoolConn} {ch : Change}
      (hphase : (s.procs i).phase = .acquiringHome led retry)
      (hhome : (s.procs i).session.homeBackend = some home)
      (htaken : s.Taken i ⟨home, (s.procs i).session.identity⟩ source c conn)
      (hready : conn.conn.ready = true)
      (hobtained : obtained s i (s.procs i) led retry home c conn env = some ch) :
      Outcome (.acquireHome (some source) env) ch
  | replayFailed {env : ServeEnv} {led : Option Led} {acquired : Bool} {c : Nat}
      {replayed : Replayed} (hphase : (s.procs i).phase = .serving led acquired)
      (hserver : (s.procs i).session.server = some c)
      (hreplay : replaySession i (s.procs i).session (s.conns c) env = some replayed)
      (hfailed : replayed.succeeded = false) :
      Outcome (.serve env)
        { proc := { s.procs i with phase := .returning led true }
          conn := some (c, replayed.conn)
          events := [.replayed i c replayed.messages (s.procs i).session.state.txState
            (s.procs i).batchOpen] }
  | writeFailed {env : ServeEnv} {led : Option Led} {acquired : Bool} {c : Nat}
      {replayed : Replayed} (hphase : (s.procs i).phase = .serving led acquired)
      (hserver : (s.procs i).session.server = some c)
      (hreplay : replaySession i (s.procs i).session (s.conns c) env = some replayed)
      (hreplayed : replayed.succeeded = true) (hwrite : env.writeError ≠ none) :
      Outcome (.serve env)
        { proc := { s.procs i with
            session := { (s.procs i).session with server := none }, phase := .returning led true }
          conn := some (c, replayed.conn.markBroken.release
            (s.isDraining (s.procs i).session.backend))
          events := [.released i c replayed.conn.markBroken,
            .replayed i c replayed.messages (s.procs i).session.state.txState
              (s.procs i).batchOpen] }
  | answered {env : ServeEnv} {led : Option Led} {acquired : Bool} {c : Nat}
      {replayed : Replayed} {a a' : Answered} {reply : List Event}
      (hphase : (s.procs i).phase = .serving led acquired)
      (hserver : (s.procs i).session.server = some c)
      (hreplay : replaySession i (s.procs i).session (s.conns c) env = some replayed)
      (hreplayed : replayed.succeeded = true) (hwrite : env.writeError = none)
      (hforward : forwardReply cfg i (s.procs i).session led replayed.conn env = some a)
      (hlsn : recordLSN a env = some a')
      (hreply : reply = if a'.response.err.isNone then
        [Event.replied i (led.map Led.call) env.taken] else []) :
      Outcome (.serve env)
        (settle cfg s i (s.procs i) led c a' (reply ++ [.wrote i c (s.procs i).session.data,
          .replayed i c replayed.messages (s.procs i).session.state.txState
            (s.procs i).batchOpen]))
  | finished {failed : Bool} (hphase : (s.procs i).phase = .returning none failed) :
      Outcome .finish { proc := { s.procs i with phase := .concluding failed } }
  | finishedLeader {led : Led} {failed : Bool}
      (hphase : (s.procs i).phase = .returning (some led) failed) :
      Outcome .finish
        { proc := { s.procs i with phase := .concluding failed }
          call := some (led.call, { s.calls led.call with done := true })
          inFlight := some (led.key, none) }
  | concludedFailed {c : Nat} (hphase : (s.procs i).phase = .concluding true)
      (hserver : (s.procs i).session.server = some c) :
      Outcome .conclude
        { proc := (s.procs i).close
          conn := some (c, (s.conns c).release (s.isDraining (s.procs i).session.backend))
          events := [.released i c (s.conns c)] }
  | concludedClosed (hphase : (s.procs i).phase = .concluding true)
      (hserver : (s.procs i).session.server = none) :
      Outcome .conclude { proc := (s.procs i).close }
  | concludedReleased {c : Nat} {conn : PoolConn} (hphase : (s.procs i).phase = .concluding false)
      (hserver : (s.procs i).session.server = some c)
      (hrelease : cfg.pooling.shouldRelease (s.procs i).session.state
        (isPinned (s.procs i).session.state) = true)
      (hconn : conn = if cfg.credentials then (s.conns c).markDirty else s.conns c) :
      Outcome .conclude
        { proc := { s.procs i with
            session := { (s.procs i).session with server := none, backend := none }
            phase := .waiting }
          conn := some (c, conn.release (s.isDraining (s.procs i).session.backend))
          events := [.released i c conn] }
  | concluded (hphase : (s.procs i).phase = .concluding false) :
      Outcome .conclude { proc := { s.procs i with phase := .waiting } }

variable {cfg s i}

theorem outcome_connect (h : connect cfg (s.procs i) env = some ch) :
    Outcome cfg s i (.connect env) ch := by
  unfold connect at h
  split at h
  · cases h
  rename_i hcondition
  rw [not_or, not_not, not_not] at hcondition
  split at h
  · cases h
    exact .connectClosed hcondition.1
  rename_i req hbind
  obtain ⟨_, hread, hrequest⟩ := bind_eq_some_iff.1 hbind
  split at h
  · cases h
    exact .connectClosed hcondition.1
  · cases h
    exact .connected hcondition.1 hcondition.2 hread hrequest

theorem outcome_handshake (h : handshake cfg s i (s.procs i) env = some ch) :
    Outcome cfg s i (.handshake env) ch := by
  unfold handshake at h
  split at h
  · rename_i req attempts hphase
    split at h
    · rename_i hpicked
      cases h
      exact .noBackend hphase hpicked
    rename_i backend source hpicked
    obtain ⟨⟨_, conn⟩, htake, hch⟩ := map_eq_some_iff.1 h
    have htaken := System.taken_of_take htake
    dsimp only at hch
    rcases hopen : openBackend cfg req conn env with ⟨_, outcome⟩
    rw [hopen] at hch
    cases outcome with
    | completed =>
      cases hch
      exact .opened hphase hpicked htaken hopen
    | wrongConnection =>
      cases hch
      apply Outcome.wrongConnection hphase hpicked htaken hopen
      split
      · exact .inl rfl
      · exact .inr ⟨attempts, rfl⟩
    | failed =>
      cases hch
      exact .openFailed hphase hpicked htaken hopen
  · cases h

theorem outcome_receive (h : receive cfg s i (s.procs i) script = some ch) :
    Outcome cfg s i (.receive script) ch := by
  unfold receive at h
  split at h
  · cases h
  rename_i hphase
  rw [not_not] at hphase
  split at h
  · cases h
  · cases h
    exact .left hphase
  split at h
  · cases h
    exact .left hphase
  · cases h
    apply Outcome.request hphase
    split
    · exact .inl rfl
    · exact .inr rfl

theorem outcome_middleware (h : middleware cfg (s.procs i) env = some ch) :
    Outcome cfg s i (.middleware env) ch := by
  unfold middleware at h
  split at h
  · cases h
  rename_i hphase
  rw [not_not] at hphase
  split at h
  · rename_i href
    cases h
    exact .refused hphase href
  rename_i href
  rw [not_eq_true] at href
  split at h
  · rename_i entry hhit
    cases h
    exact .hit hphase href hhit
  all_goals
    rename_i hcache
    cases h
    apply Outcome.passed hphase href
    cases handled_of_eq hcache
    first | exact .inl rfl | exact .inr rfl

theorem outcome_enter (h : enter cfg s i (s.procs i) = some ch) : Outcome cfg s i .enter ch := by
  unfold enter at h
  split at h
  · cases h
  rename_i hphase
  rw [not_not] at hphase
  split at h
  · cases h
    exact .alone hphase
  · rename_i call hcollapse
    cases h
    exact .follows hphase hcollapse
  · cases h
    exact .leads hphase

theorem outcome_follow (h : follow s i (s.procs i) writeFails = some ch) :
    Outcome cfg s i (.follow writeFails) ch := by
  unfold follow at h
  split at h
  · rename_i call hphase
    split at h
    · cases h
    rename_i hdone
    rw [not_eq_true, not_eq_false'] at hdone
    split at h
    · rename_i data hanswer
      cases h
      exact .shared hphase hdone hanswer
    · rename_i hanswer
      cases h
      exact .fallsThrough hphase hdone hanswer
  · cases h

theorem outcome_acquire (h : acquire cfg s i (s.procs i) env = some ch) :
    Outcome cfg s i (.acquire env) ch := by
  unfold acquire at h
  split at h
  · rename_i led retry hphase
    split at h
    · rename_i hpicked
      cases h
      exact .notPicked hphase hpicked
    rename_i backend source hpicked
    obtain ⟨⟨_, _⟩, htake, hch⟩ := bind_eq_some_iff.1 h
    have htaken := System.taken_of_take htake
    dsimp only at hch
    split at hch
    · rename_i hready
      rw [and_eq_true] at hready
      exact .usable hphase hpicked htaken hready.1 hch
    split at hch
    · rename_i hauthMsg
      rw [and_eq_true, and_eq_true, not_eq_true'] at hauthMsg
      split at hch
      · rename_i hok
        rw [hok] at hch
        exact .authenticated hphase hpicked htaken hauthMsg.1.1 hch hok hauthMsg.1.2
      · rename_i hok
        rw [not_eq_true] at hok
        rw [hok] at hch
        cases hch
        exact .unusable hphase hpicked htaken (.inr ⟨hauthMsg.1.1, rfl⟩) (.inl hauthMsg.1.2)
    · cases hch
      exact .unusable hphase hpicked htaken (.inl rfl) (.inr rfl)
  · cases h

theorem outcome_acquireHome (h : acquireHome s i (s.procs i) source env = some ch) :
    Outcome cfg s i (.acquireHome source env) ch := by
  unfold acquireHome at h
  split at h
  · rename_i led retry hphase
    dsimp only at h
    split at h
    · rename_i home source hhome
      obtain ⟨⟨_, _⟩, htake, hch⟩ := bind_eq_some_iff.1 h
      have htaken := System.taken_of_take htake
      split at hch
      · rename_i hunusable
        cases hch
        rw [← Bool.not_and, not_eq_true'] at hunusable
        exact .unusableHome hphase hhome htaken hunusable
      · rename_i hready
        rw [or_eq_true, not_or, not_eq_true', Bool.not_eq_false] at hready
        exact .usableHome hphase hhome htaken hready.1 hch
    · rename_i hnone
      cases h
      apply Outcome.noHome hphase
      by_contra hboth
      rw [not_or] at hboth
      obtain ⟨home, hhome⟩ := Option.ne_none_iff_exists'.1 hboth.1
      obtain ⟨source', hsource⟩ := Option.ne_none_iff_exists'.1 hboth.2
      exact hnone home source' hhome hsource
  · cases h

theorem outcome_serve (h : serve cfg s i (s.procs i) env = some ch) :
    Outcome cfg s i (.serve env) ch := by
  unfold serve at h
  split at h
  · rename_i led acquired c hphase hserver
    split at h
    · cases h
    rename_i replayed hreplay
    split at h
    · rename_i hfail
      rw [not_eq_true'] at hfail
      cases h
      exact .replayFailed hphase hserver hreplay hfail
    rename_i hreplayed
    rw [not_eq_true, not_eq_false'] at hreplayed
    split at h
    · rename_i hwrite
      cases h
      exact .writeFailed hphase hserver hreplay hreplayed
        (fun hnone => by rw [hnone] at hwrite; exact Bool.noConfusion hwrite)
    · rename_i hwrite
      rw [not_eq_true, Option.isSome_eq_false_iff, isNone_iff_eq_none] at hwrite
      obtain ⟨_, hbind, hch⟩ := map_eq_some_iff.1 h
      obtain ⟨_, hforward, hlsn⟩ := bind_eq_some_iff.1 hbind
      cases hch
      exact .answered hphase hserver hreplay hreplayed hwrite hforward hlsn rfl
  · cases h

theorem outcome_finish (h : finish s (s.procs i) = some ch) : Outcome cfg s i .finish ch := by
  unfold finish at h
  split at h
  · rename_i failed hphase
    cases h
    exact .finished hphase
  · rename_i led failed hphase
    cases h
    exact .finishedLeader hphase
  · cases h

theorem outcome_conclude (h : conclude cfg s i (s.procs i) = some ch) :
    Outcome cfg s i .conclude ch := by
  unfold conclude at h
  split at h
  · rename_i hphase
    split at h
    · rename_i c hserver
      cases h
      exact .concludedFailed hphase hserver
    · rename_i hserver
      cases h
      exact .concludedClosed hphase hserver
  · rename_i hphase
    split at h
    · rename_i c hserver
      split at h
      · rename_i hreleased
        cases h
        exact .concludedReleased hphase hserver hreleased rfl
      · cases h
        exact .concluded hphase
    · cases h
      exact .concluded hphase
  · cases h

/-- **Inversion.**  A session's move is one of the outcomes. -/
theorem outcome_of_change (h : change cfg s i a = some ch) : Outcome cfg s i a ch := by
  cases a with
  | connect env => exact outcome_connect h
  | handshake env => exact outcome_handshake h
  | receive script => exact outcome_receive h
  | middleware env => exact outcome_middleware h
  | enter => exact outcome_enter h
  | follow writeFails => exact outcome_follow h
  | acquire env => exact outcome_acquire h
  | acquireHome source env => exact outcome_acquireHome h
  | serve env => exact outcome_serve h
  | finish => exact outcome_finish h
  | conclude => exact outcome_conclude h

inductive BackendOpened (cfg : Config) (req : StartupRequest) (conn : PoolConn)
    (env : HandshakeEnv) :
    PoolConn → OpenOutcome → Prop
  | reused {outcome : OpenOutcome} (hready : conn.conn.ready = true) :
      BackendOpened cfg req conn env conn outcome
  | started {packet : Bytes} {outcome : OpenOutcome} (hready : conn.conn.ready = false)
      (hpacket : packet = if cfg.credentials then writeStartup req.user req.database else req.raw)
      (houtcome : outcome = if env.started && env.completed then .completed else .failed) :
      BackendOpened cfg req conn env
        { conn with wire := conn.wire.startup packet env.started } outcome

theorem backendOpened (h : openBackend cfg req conn env = (conn', outcome)) :
    BackendOpened cfg req conn env conn' outcome := by
  unfold openBackend at h
  dsimp only at h
  split at h
  · rename_i hcredentials
    rw [not_eq_true'] at hcredentials
    split at h
    · rename_i hready
      cases h
      exact .reused hready
    · rename_i hready
      cases h
      exact .started (eq_false_iff.2 hready) (by rw [hcredentials]; rfl) rfl
  · rename_i hcredentials
    rw [not_eq_true', Bool.not_eq_false] at hcredentials
    split at h
    · rename_i hready
      split at h
      · cases h
        exact .reused hready
      · cases h
        exact .reused hready
    · rename_i hready
      cases h
      exact .started (eq_false_iff.2 hready) (by rw [hcredentials]; rfl) rfl

inductive Obtained (s : System) (i : Nat) (led : Option Led) (retry : Bool) (backend : Bytes)
    (c : Nat) (conn : PoolConn) (env : AcquireEnv) : Change → Prop
  | installed {conn' : PoolConn}
      (hconn : conn' = conn ∨
        conn.roundTrips env.rounds = some conn' ∧ waitLSN env.rounds = some true)
      (hwaited : (!retry && (s.procs i).session.queryInfo.readOnly &&
        (s.procs i).session.state.lastLSN ≠ [] && env.replica) = true →
        waitLSN env.rounds = some true) :
      Obtained s i led retry backend c conn env
        { proc := { s.procs i with
            session := { (s.procs i).session with
              backend := some backend, server := some c, shouldReplay := true }
            phase := .serving led true }
          conn := some (c, conn')
          events := [.handed i c (s.procs i).session.identity conn] }
  | behind {conn' : PoolConn} (hconn : conn.roundTrips env.rounds = some conn')
      (hwait : waitLSN env.rounds = some false) :
      Obtained s i led retry backend c conn env
        { proc := { s.procs i with phase := .acquiring led true }
          conn := some (c, conn'.release (s.draining backend))
          events := [.released i c conn', .handed i c (s.procs i).session.identity conn] }

theorem obtained_cases (h : obtained s i (s.procs i) led retry backend c conn env = some ch) :
    Obtained s i led retry backend c conn env ch := by
  unfold obtained at h
  split at h
  · split at h
    · rename_i conn' hconn hwait
      cases h
      exact .installed (.inr ⟨hconn, hwait⟩) (fun _ => hwait)
    · rename_i conn' hconn hwait
      cases h
      exact .behind hconn hwait
    · cases h
  · rename_i hnever
    cases h
    exact .installed (.inl rfl) (fun hwaits => absurd hwaits hnever)

end

end Pontus.Proxy
