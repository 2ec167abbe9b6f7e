import Pontus.Proxy.Proofs.Identity
import Pontus.Proxy.Proofs.InForce

/-!
# What a stored reply answers

A reply that is stored under a key should be the whole answer to the key's
request, without an error, from a connection opened for the key's user and
database and with the key's settings in force.  Every stored reply comes from an
execution, and what is asked of the execution is followed from the lookup that
missed to the `Set`.
-/

namespace Pontus.Proxy

open Lib Protocol Pool Protocol.ReplyScanner

variable {session : Session} {conn : PoolConn} {value : Bytes} {state : SessionState}
variable {replayed : Replayed} {s' : Storing}

/-! ## Right answers -/

structure Execution.Answers (x : Execution) (asked : Session) (value : Bytes) : Prop where
  request : x.request = asked.data
  whole : value = Frame.encodeAll x.reply
  ended : (endStatus x.reply).isSome = true
  noError : x.reply.any (·.tag == 'E'.toUInt8) = false
  started : x.conn.conn.ready = true
  opened : OpenedFor asked.identity x.conn
  settings : ∀ name, x.inForce.lookup name = asked.state.vars.lookup name

def Stored.Right (hash : Bytes → Bytes) (r : Stored) : Prop :=
  r.key = cacheKey hash r.asked ∧ ∃ x, r.execution = some x ∧ x.Answers r.asked r.value

/-! ## A miss on its way -/

structure Asks (asked session : Session) : Prop where
  data : session.data = asked.data
  state : session.state = asked.state
  capture : session.responseCapture = some []

def Captured (asked : Session) (executed : Option Execution) (session : Session) : Prop :=
  session.replyFailed = false → session.responseCapture.getD [] ≠ [] →
    ∃ x, executed = some x ∧ x.Answers asked (session.responseCapture.getD [])

def Pending (asked : Session) (executed : Option Execution) (p : Proc) : Prop :=
  match p.phase with
  | .entering | .following _ | .acquiring _ _ | .acquiringHome _ _ | .serving _ _ =>
    Asks asked p.session
  | .returning _ failed | .concluding failed => failed = false → Captured asked executed p.session
  | _ => False

theorem captured_of_asks (h : Asks asked session) : Captured asked executed session := by
  intro _ hcapped
  rw [h.capture] at hcapped
  exact absurd rfl hcapped

theorem pending_proceed {p : Proc} (h : Asks asked p.session) (led : Option Led) :
    Pending asked executed (p.proceed led) := by
  unfold Proc.proceed
  cases p.session.server with
  | none | some c => exact h

section
variable {cfg : Config} {s : System} {i : Nat} {ch : Change} {asked : Session}
variable {executed : Option Execution}

theorem Obtained.pending (h : Obtained s i led retry backend c conn env ch)
    (hasks : Asks asked (s.procs i).session) : Pending asked executed ch.proc := by
  cases h with
  | installed => exact ⟨hasks.data, hasks.state, hasks.capture⟩
  | behind => exact hasks

def Act.isPlain : Act → Bool
  | .middleware _ | .serve _ | .conclude => false
  | _ => true

/-- Between the lookup and the execution, and behind it, nothing changes that
matters. -/
theorem Pending.moved (hplain : a.isPlain) (h : Outcome cfg s i a ch)
    (hpending : Pending asked executed (s.procs i)) : Pending asked executed ch.proc := by
  unfold Pending at hpending
  cases h with
  | connectClosed hphase | connected hphase | noBackend hphase | opened hphase
  | wrongConnection hphase | openFailed hphase | left hphase | request hphase =>
    rw [hphase] at hpending
    exact hpending.elim
  | refused | hit | passed | replayFailed | writeFailed | answered | concludedFailed
  | concludedClosed | concludedReleased | concluded => cases hplain
  | follows hphase | notPicked hphase | unusable hphase | finished hphase | finishedLeader hphase =>
    rw [hphase] at hpending
    exact hpending
  | alone hphase | leads hphase | fallsThrough hphase =>
    rw [hphase] at hpending
    exact pending_proceed hpending _
  | shared hphase =>
    rw [hphase] at hpending
    exact fun _ => captured_of_asks hpending
  | usable hphase _ _ _ hobtained | authenticated hphase _ _ _ hobtained
  | usableHome hphase _ _ _ hobtained =>
    rw [hphase] at hpending
    exact (obtained_cases hobtained).pending hpending
  | noHome hphase | unusableHome hphase =>
    exact nofun

end

/-! ## Executing what was asked -/

/-- The reply to a request that missed: it ends with a ReadyForQuery, the first
read that could end it holds the rest of it, and no read fails behind one that
looks like a read-only error. -/
def ServeEnv.answersWhole (session : Session) (env : ServeEnv) : Bool :=
  (endStatus env.reply).isSome &&
    endsWithReply (streamSignals (responseEndFor session.data) env.reply)
      (env.passes.map Pass.data) &&
    !(env.passes.any (fun p => isReadOnlyError p.data) && (env.readFails || env.relay.isSome))

/-- The reply to one Query is such a reply, however it is cut into reads, unless
a read-only error is lost. -/
theorem ServeEnv.answersWhole_once {env : ServeEnv} {ready : Frame}
    (hending : (responseEndFor session.data).onReadyForQuery)
    (hreply : env.reply = before ++ [ready]) (hbefore : ∀ m ∈ before, ¬isReadyForQuery m)
    (hready : isReadyForQuery ready) (hbody : ready.body = [status])
    (hreads : env.readFails = false) (hrelay : env.relay = none) :
    env.answersWhole session := by
  unfold answersWhole
  rw [hreply, endsWithReply_once hending hbefore hready hbody, hreads, hrelay, endStatus,
    List.getLast?_concat, bind_some, hbody]
  dsimp only
  rw [if_pos hready]
  simp

theorem Forwarded.answersWhole (h : Forwarded cfg i session led c env a)
    (hwhole : env.answersWhole session) (hunread : c.wire.unread = [])
    (hcapture : session.responseCapture = some [])
    (hfail : (a.response.err.isSome && !a.response.isReadOnlyErr) = false)
    (hreply : a.session.replyFailed = false) (hcapped : a.session.responseCapture.getD [] ≠ []) :
    a.session.responseCapture.getD [] = Frame.encodeAll env.reply ∧ (endStatus env.reply).isSome ∧
      env.reply.any (·.tag == 'E'.toUInt8) = false := by
  unfold ServeEnv.answersWhole at hwhole
  rw [and_eq_true, and_eq_true, not_eq_true', Bool.and_eq_false_iff] at hwhole
  obtain ⟨⟨hstatus, hends⟩, hreadOnly⟩ := hwhole
  have herr : a.response.err = none := by
    by_contra hne
    rw [Option.isSome_iff_ne_none.2 hne, Bool.true_and, not_eq_false'] at hfail
    obtain ⟨⟨p, hp, hlooks⟩, hlost⟩ := proxyResponse_readOnly_failed h.response hfail hne
    rcases hreadOnly with hnone | hnone
    · rw [any_eq_false] at hnone
      exact hnone p hp hlooks
    · rw [or_eq_false_iff, Option.isSome_eq_false_iff, isNone_iff_eq_none] at hnone
      rcases hlost with ⟨q, hq, hread⟩ | hrelay
      · have hfails := any_eq_false.1 hnone.1 q hq
        exact hfails (Option.isSome_iff_ne_none.2 hread)
      · exact hrelay hnone.2
  obtain ⟨htaken, -⟩ := h.whole hunread herr hends
  have hnoError : env.reply.any (·.tag == 'E'.toUInt8) = false := by
    rw [h.session, h.failed herr htaken] at hreply
    exact hreply
  have hstart : captureFor cfg session led = some (newResponseCapture [] cfg.maxCaptureBytes) := by
    rw [captureFor, hcapture]
  obtain ⟨capture, hresult, hbuffer⟩ := h.capture hstart herr
  have hvalue : a.session.responseCapture.getD [] = capture.buf := by
    rw [h.session, hcapture, hresult]
    rfl
  rw [hvalue] at hcapped ⊢
  rcases hbuffer with ⟨-, hnil⟩ | ⟨-, hbuffer⟩
  · exact absurd hnil hcapped
  · exact ⟨hbuffer.trans htaken, hstatus, hnoError⟩

theorem LSNRecorded.captured (h : LSNRecorded a a' env) :
    a'.session.replyFailed = a.session.replyFailed ∧
      a'.session.responseCapture = a.session.responseCapture := by
  rcases h.session with hsession | ⟨_, hsession, -⟩
  · rw [hsession]
    exact ⟨rfl, rfl⟩
  · rw [hsession]
    exact ⟨rfl, rfl⟩

namespace Storing

variable {cfg : Config} {s : Storing} {i : Nat} {changes : SettingChanges}

def answersMiss (s : Storing) (i : Nat) : Act → Bool
  | .serve env => (s.missed i).isNone || env.answersWhole (s.sessionOf i)
  | _ => true

theorem opened_of_server (hs : identityInv.Holds s.system)
    (hserver : (s.sessionOf i).server = some c) :
    (s.system.conns c).conn.ready ∧ OpenedFor (s.sessionOf i).identity (s.system.conns c) := by
  obtain ⟨hpool, hready⟩ := hs.held i c hserver
  refine ⟨hready, ?_⟩
  have hopened := (hs.conn c).openedFor hready
  rw [hpool] at hopened
  exact hopened

/-- **The execution of what was asked.** -/
theorem pending_served (hs : identityInv.Holds s.system) (hsets : s.SettingsInForce)
    (hkeeps : s.keepsSettings i changes (.serve env))
    (hanswers : s.answersMiss i (.serve env)) (hmiss : s.missed i = some asked)
    (hpending : Pending asked (s.executed i) (s.system.procs i))
    (h : Outcome cfg s.system i (.serve env) ch) :
    Pending asked ((s.noted cfg i (.serve env)).executed i) ch.proc := by
  cases h with
  | replayFailed | writeFailed => exact nofun
  | @answered _ led acquired c r a a' reply hphase hserver hreplay hreplayed hwrite hforward hlsn
    hreply =>
    have hforwarded := forwarded_of_forwardReply hforward
    have hrecorded := lsnRecorded_of_recordLSN hlsn
    obtain ⟨hreplyFailed, hcapture⟩ := hrecorded.captured
    have hasks : Asks asked (s.sessionOf i) := by
      unfold Pending at hpending
      rw [hphase] at hpending
      exact hpending
    have htracks : s.tracksSettings i c env changes := by
      rw [keepsSettings, sessionOf, hserver] at hkeeps
      exact hkeeps
    have hwhole : env.answersWhole (s.sessionOf i) := by
      rw [answersMiss, hmiss] at hanswers
      exact hanswers
    obtain ⟨hunread, htrips, -⟩ := of_tracksSettings htracks
    obtain ⟨hempty, hsame⟩ := (hsets i c hserver).replayed htrips hunread hreplay hreplayed
    have hexecuted : (s.noted cfg i (.serve env)).executed i = some
        ⟨(s.sessionOf i).data, env.reply, s.system.conns c, s.replayed i c env⟩ := by
      have hreaches : s.reaches i c env := by
        unfold reaches sessionOf
        rw [hreplay, any_some, hreplayed, hwrite]
        rfl
      have hheld : (s.sessionOf i).server = some c := hserver
      rw [noted, hheld]
      dsimp only
      rw [if_pos hreaches]
      exact update_self ..
    have hcapped : (a'.response.err.isSome && !a'.response.isReadOnlyErr) = false →
        Captured asked ((s.noted cfg i (.serve env)).executed i) a'.session := by
      intro hfail hreplied hstored
      rw [hrecorded.response] at hfail
      rw [hreplyFailed] at hreplied
      rw [hcapture] at hstored ⊢
      obtain ⟨hvalue, hended, hnoError⟩ := hforwarded.answersWhole hwhole hempty hasks.capture hfail
        hreplied hstored
      obtain ⟨hready, hopened⟩ := opened_of_server hs hserver
      refine ⟨_, hexecuted, hasks.data, hvalue, hended, hnoError, hready, ?_, ?_⟩
      · rw [Session.identity, hasks.state] at hopened
        exact hopened
      · intro name
        rw [← hasks.state, ← hsame name, replayed, settings_of_server hs.owned hserver]
    unfold settle
    split <;> exact hcapped

/-! ## The lookup and the `Set` -/

theorem pending_lookedUp (hpending : ∀ asked, s.missed i = some asked →
      Pending asked (s.executed i) (s.system.procs i))
    (hmiss : (s.lookedUp cfg i env).missed i = some asked)
    (h : middleware cfg (s.system.procs i) env = some ch) :
    Pending asked ((s.lookedUp cfg i env).executed i) ch.proc := by
  unfold middleware at h
  split at h
  · cases h
  rename_i hphase
  rw [not_not] at hphase
  -- nothing is pending before the lookup
  have hbefore : s.missed i ≠ some asked := by
    intro hsome
    have hnot := hpending asked hsome
    unfold Pending at hnot
    rw [hphase] at hnot
    exact hnot
  unfold lookedUp at hmiss ⊢
  unfold sessionOf at hmiss ⊢
  split at h
  · rename_i href
    rw [if_pos href] at hmiss
    exact absurd hmiss hbefore
  rename_i href
  rw [if_neg href] at hmiss ⊢
  cases hstep : cacheHandle cfg.hash env.cacheEnabled (fun _ => env.entry)
      (s.system.procs i).session with
  | hit =>
    rw [hstep] at hmiss
    dsimp only at hmiss
    split at hmiss <;> exact absurd hmiss hbefore
  | next =>
    rw [hstep] at hmiss
    exact absurd hmiss hbefore
  | write =>
    rw [hstep] at hmiss
    exact absurd hmiss hbefore
  | miss =>
    rw [hstep] at hmiss h
    dsimp only at hmiss h
    rw [update_self, some_inj] at hmiss
    cases h
    cases handled_of_eq hstep
    rw [← hmiss]
    exact ⟨rfl, rfl, rfl⟩

theorem concluded_missed (cfg : Config) (s : Storing) (i : Nat) :
    (s.concluded cfg i).missed i = none := by
  unfold concluded
  cases hmiss : s.missed i with
  | none => exact hmiss
  | some => exact update_self ..

theorem right_of_concluded (hpending : ∀ asked, s.missed i = some asked →
      Pending asked (s.executed i) (s.system.procs i))
      (hstored : ∀ r ∈ s.stored, r.Right cfg.hash) :
    ∀ r ∈ (s.concluded cfg i).stored, r.Right cfg.hash := by
  unfold concluded
  cases hmiss : s.missed i with
  | none => exact hstored
  | some asked =>
    dsimp only
    split
    · rename_i hstorable
      rw [NextResult.storable, and_eq_true, and_eq_true, not_eq_true',
        not_eq_true', decide_eq_false_iff_not, not_not, bne_iff_ne] at hstorable
      obtain ⟨⟨hphase, hreplied⟩, hcapped⟩ := hstorable
      have hasked := hpending asked hmiss
      unfold Pending at hasked
      rw [hphase] at hasked
      exact forall_mem_cons.2 ⟨⟨rfl, hasked rfl hreplied hcapped⟩, hstored⟩
    · exact hstored

end Storing

/-! ## Putting the question again -/

theorem refreshLoop_some (h : refreshLoop capture reads = some (some value)) :
    value = capture ++ (reads.map Read.data).flatten ∧
      ∃ read ∈ reads, peekTransactionState read.data ≠ .statePartial := by
  induction reads generalizing capture with
  | nil => cases h
  | cons read _ ih =>
    unfold refreshLoop at h
    dsimp only at h
    split at h
    · split at h <;> cases h
    split at h
    · rename_i hpeek
      split at h
      · rename_i hlast
        cases h
        rw [List.isEmpty_iff.1 hlast, map_cons, flatten_cons, List.map_nil,
          List.flatten_nil, append_nil]
        exact ⟨rfl, read, mem_cons_self, hpeek.2⟩
      · cases h
    split at h
    · split at h <;> cases h
    · obtain ⟨hvalue, read', hread', hpeek⟩ := ih h
      refine ⟨?_, read', mem_cons_of_mem read hread', hpeek⟩
      rw [hvalue, map_cons, flatten_cons, append_assoc]

structure Refreshes (i : Nat) (state : SessionState) (c : PoolConn) (env : RefreshEnv)
    (replayed : Replayed) (value : Bytes) : Prop where
  order : env.varOrder.Perm state.vars.keys
  replays : Replays i c (replayItems state env.varOrder []) env.replays replayed
  succeeded : replayed.succeeded = true
  taken : env.trip.taken <+: replayed.conn.wire.unread ++ Frame.encodeAll env.trip.reply
  loop : refreshLoop [] env.trip.reads = some (some value)

theorem refreshes_of_backgroundRefresh (h : backgroundRefresh i state c env = some r) :
    Kept c r.conn ∧ ∀ value, r.captured = some value →
      ∃ replayed, Refreshes i state c env replayed value := by
  unfold backgroundRefresh at h
  split at h
  · cases h
  rename_i horder
  rw [not_eq_true, not_eq_false', List.isPerm_iff] at horder
  split at h
  · cases h
  rename_i replayed hloop
  have hreplays := replays_of_replayLoop hloop
  split at h
  · cases h
    exact ⟨hreplays.kept, nofun⟩
  rename_i hok
  rw [not_eq_true, not_eq_false'] at hok
  split at h
  · cases h
  · rename_i conn err hconn hwrite
    cases h
    exact ⟨hreplays.kept.trans (roundTrip_kept hconn), nofun⟩
  · rename_i conn hconn hwrite
    obtain ⟨_, hcapped, rfl⟩ := map_eq_some_iff.1 h
    refine ⟨hreplays.kept.trans (roundTrip_kept hconn), ?_⟩
    intro _ hvalue
    cases hvalue
    cases roundTripped hconn with
    | unwritten hunwritten => exact absurd hwrite hunwritten
    | exchanged _ htaken => exact ⟨replayed, horder, hreplays, hok, htaken, hcapped⟩

theorem Refreshes.whole (h : Refreshes i state c env replayed value)
    (horderly : env.trip.orderly) : value = Frame.encodeAll env.trip.reply := by
  obtain ⟨hvalue, read, hread, hpeek⟩ := refreshLoop_some h.loop
  have hchunks : Frame.wholeChunks env.trip.reply (env.trip.reads.map Read.data) := by
    unfold RoundTrip.orderly at horderly
    rw [and_eq_true] at horderly
    exact horderly.1
  obtain ⟨groups, rest, hgroups, hreads⟩ := Frame.exists_groups hchunks
  have hdata : read.data ∈ groups.map Frame.encodeAll := by
    rw [← hreads]
    exact mem_map_of_mem hread
  obtain ⟨_, hgroup, hencoded⟩ := mem_map.1 hdata
  rw [← hencoded] at hpeek
  obtain ⟨m, hm, hready⟩ := ready_of_peek hpeek
  obtain ⟨before, after, hflat⟩ := List.append_of_mem (List.mem_flatten_of_mem hgroup hm)
  have hnil := RoundTrip.nil_of_ready horderly
    (show env.trip.reply = before ++ m :: (after ++ rest) by rw [hgroups, hflat]; simp) hready
  rw [hvalue, nil_append, hreads, Frame.flatten_map_encodeAll, hgroups,
    (append_eq_nil_iff.1 hnil).2, append_nil]

theorem Replays.silent (h : Replays i c items trips r) (hunread : c.wire.unread = [])
    (htrips : ∀ t ∈ trips, t.trip.reply = []) : r.conn.wire.unread = [] := by
  have hexchange : ∀ {c c' : PoolConn} {t : AwaitTrip}, c.wire.unread = [] → t.trip.reply = [] →
      c.roundTrip t.trip = some c' → c'.wire.unread = [] := by
    intro _ _ _ hc ht htrip
    cases roundTripped htrip with
    | unwritten => exact hc
    | exchanged _ _ hwire => rw [markBrokenIf_wire, hwire, hc, ht]; exact List.drop_nil
  induction h with
  | done => exact hunread
  | held _ _ ih => exact ih hunread htrips
  | written _ htrip _ _ ih =>
    rw [forall_mem_cons] at htrips
    have hnext := hexchange hunread htrips.1 htrip
    exact ih hnext htrips.2
  | refused _ htrip =>
    rw [forall_mem_cons] at htrips
    have hnext := hexchange hunread htrips.1 htrip
    exact hnext

def RefreshEnv.silent (env : RefreshEnv) (c : PoolConn) : Bool :=
  c.wire.unread == [] && env.replays.all (fun t => t.trip.reply.isEmpty) && env.trip.reply.isEmpty

theorem Refreshes.nil_of_silent (h : Refreshes i state c env replayed value)
    (hsilent : env.silent c) : value = [] := by
  unfold RefreshEnv.silent at hsilent
  rw [and_eq_true, and_eq_true, beq_iff_eq, all_eq_true, List.isEmpty_iff] at hsilent
  obtain ⟨⟨hunread, htrips⟩, hreply⟩ := hsilent
  have hrest := h.replays.silent hunread fun t ht => List.isEmpty_iff.1 (htrips t ht)
  have htaken := h.taken
  rw [hrest, hreply, nil_append, Frame.encodeAll_nil, List.prefix_nil] at htaken
  rw [(refreshLoop_some h.loop).1, nil_append]
  exact htaken

/-! ## The invariant -/

namespace Storing

/-- The refresh of `job` puts its question again on connection `c`: started for
the identity it was taken for, which is the key's, with nothing unread and no
settings but the session's, which are still the key's; and the reply is read
message by message and holds no error. -/
def putsAgain (s : Storing) (job : RefreshJob) (c : Nat) (conn : PoolConn) (env : RefreshEnv) :
    Bool :=
  let vars := (s.sessionOf job.session).state.vars
  conn.conn.ready && job.asked.identity == ⟨[], []⟩ && conn.wire.unread == [] &&
    (s.settings c).keys.all (fun name => vars.keys.contains name) &&
    sameSettings vars job.asked.state.vars && env.replays.all AwaitTrip.readsReply &&
    env.trip.orderly && (endStatus env.trip.reply).isSome &&
    !env.trip.reply.any (·.tag == 'E'.toUInt8)

def refreshesRight (s : Storing) (job : RefreshJob) (env : RefreshEnv) : Bool :=
  env.source.all fun source => job.asked.backend.all fun backend =>
    (s.system.take job.session ⟨backend, ⟨[], []⟩⟩ source).all fun taken =>
      env.silent taken.2 || s.putsAgain job taken.1 taken.2 env

def answersKeys (cfg : Config) (s : Storing) : StoringStep → Bool
  | .session i a changes =>
    routesToName cfg (.act i a) && s.keepsSettings i changes a && s.answersMiss i a
  | .refresh key env _ => (s.refreshes.find? (·.key == key)).all fun job => s.refreshesRight job env
  | _ => true

structure Inv (cfg : Config) (s : Storing) : Prop where
  identity : identityInv.Holds s.system
  settings : s.SettingsInForce
  pending : ∀ i asked, s.missed i = some asked → Pending asked (s.executed i) (s.system.procs i)
  refreshes : ∀ job ∈ s.refreshes, job.key = cacheKey cfg.hash job.asked
  stored : ∀ r ∈ s.stored, r.Right cfg.hash

variable {cfg : Config} {s : Storing} {i : Nat} {changes : SettingChanges}

theorem inv_init : Inv cfg init where
  identity := identity_init
  settings := by
    nofun
  pending := by
    intro _ _ hmiss
    cases hmiss
  refreshes := by
    intro _ hjob
    cases hjob
  stored := by
    intro _ hr
    cases hr

/-! ### A session moves -/

inductive Noted (cfg : Config) (s : Storing) (i : Nat) : Act → Storing → Prop
  | nothing {a : Act} : Noted cfg s i a s
  | missed {env : MiddlewareEnv} : Noted cfg s i (.middleware env)
      { s with missed := Function.update s.missed i (some (s.sessionOf i)) }
  | revalidated {env : MiddlewareEnv} : Noted cfg s i (.middleware env)
      { s with refreshes := s.revalidate cfg i }
  | executed {env : ServeEnv} {x : Execution} : Noted cfg s i (.serve env)
      { s with executed := Function.update s.executed i (some x) }
  | concluded : Noted cfg s i .conclude (s.concluded cfg i)

theorem noted_cases (cfg : Config) (s : Storing) (i : Nat) (a : Act) :
    Noted cfg s i a (s.noted cfg i a) := by
  cases a with
  | middleware env =>
    change Noted cfg s i _ (s.lookedUp cfg i env)
    unfold lookedUp
    split
    · exact .nothing
    split
    · exact .missed
    · split
      · exact .revalidated
      · exact .nothing
    · exact .nothing
    · exact .nothing
  | serve =>
    unfold noted
    dsimp only
    split
    · split
      · exact .executed
      · exact .nothing
    · exact .nothing
  | conclude => exact .concluded
  | _ => exact .nothing

theorem Noted.other (h : Noted cfg s i a s') (hj : j ≠ i) :
    s'.missed j = s.missed j ∧ s'.executed j = s.executed j := by
  cases h with
  | nothing | revalidated => exact ⟨rfl, rfl⟩
  | missed => exact ⟨update_of_ne hj _ _, rfl⟩
  | executed => exact ⟨rfl, update_of_ne hj _ _⟩
  | concluded =>
    unfold Storing.concluded
    split
    · exact ⟨rfl, rfl⟩
    · exact ⟨update_of_ne hj _ _, rfl⟩

theorem Noted.refreshes (h : Noted cfg s i a s')
    (hs : ∀ job ∈ s.refreshes, job.key = cacheKey cfg.hash job.asked) :
    ∀ job ∈ s'.refreshes, job.key = cacheKey cfg.hash job.asked := by
  cases h with
  | nothing | missed | executed => exact hs
  | revalidated =>
    unfold revalidate
    dsimp only
    split
    · exact hs
    · exact forall_mem_cons.2 ⟨rfl, hs⟩
  | concluded =>
    unfold Storing.concluded
    split <;> exact hs

theorem Noted.stored (h : Noted cfg s i a s') (hs : Inv cfg s) :
    ∀ r ∈ s'.stored, r.Right cfg.hash := by
  cases h with
  | nothing | missed | revalidated | executed => exact hs.stored
  | concluded => exact right_of_concluded (hs.pending i) hs.stored

theorem Inv.pending_moved (h : Inv cfg s) (hkeeps : s.keepsSettings i changes a)
    (hanswers : s.answersMiss i a) (hchange : change cfg s.system i a = some ch)
    (hmiss : (s.noted cfg i a).missed i = some asked) :
    Pending asked ((s.noted cfg i a).executed i) ch.proc := by
  have hout := outcome_of_change hchange
  cases a with
  | middleware => exact pending_lookedUp (h.pending i) hmiss hchange
  | serve env =>
    have hbefore : s.missed i = some asked := by
      have hnoted := noted_cases cfg s i (.serve env)
      generalize s.noted cfg i (.serve env) = s' at hnoted hmiss
      cases hnoted with
      | nothing | executed => exact hmiss
    exact pending_served h.identity h.settings hkeeps hanswers hbefore
      (h.pending i asked hbefore) hout
  | conclude => exact nomatch (concluded_missed cfg s i).symm.trans hmiss
  | _ => exact (h.pending i asked hmiss).moved rfl hout

theorem Inv.moved (h : Inv cfg s) (hroutes : routesToName cfg (.act i a))
    (hkeeps : s.keepsSettings i changes a) (hanswers : s.answersMiss i a)
    (hchange : change cfg s.system i a = some ch) :
    Inv cfg (s.moved cfg i a changes ch) where
  identity :=
    have hout := outcome_of_change hchange
    h.identity.apply (legal_of_outcome h.identity.owned hout)
      (identity_keeps h.identity hroutes hout)
  settings := h.settings.moved h.identity.owned hkeeps (outcome_of_change hchange)
  pending := by
    intro j asked hmiss
    change (s.noted cfg i a).missed j = some asked at hmiss
    change Pending asked ((s.noted cfg i a).executed j) ((s.system.apply i ch).procs j)
    rw [System.apply_procs]
    by_cases hj : j = i
    · subst hj
      rw [update_self]
      exact h.pending_moved hkeeps hanswers hchange hmiss
    · obtain ⟨hsame, hexecuted⟩ := (noted_cases cfg s i a).other hj
      rw [hsame] at hmiss
      rw [hexecuted, update_of_ne hj]
      exact h.pending j asked hmiss
  refreshes := (noted_cases cfg s i a).refreshes h.refreshes
  stored := (noted_cases cfg s i a).stored h

/-! ### A refresh runs -/

structure PutsAgain (s : Storing) (job : RefreshJob) (c : Nat) (conn : PoolConn)
    (env : RefreshEnv) : Prop where
  ready : conn.conn.ready = true
  identity : job.asked.identity = ⟨[], []⟩
  unread : conn.wire.unread = []
  own : ∀ name, name ∈ s.settings c → name ∈ (s.sessionOf job.session).state.vars
  vars : ∀ name, (s.sessionOf job.session).state.vars.lookup name = job.asked.state.vars.lookup name
  trips : env.replays.all AwaitTrip.readsReply = true
  orderly : env.trip.orderly = true
  ended : (endStatus env.trip.reply).isSome = true
  noError : env.trip.reply.any (·.tag == 'E'.toUInt8) = false

theorem of_putsAgain (h : s.putsAgain job c conn env) : s.PutsAgain job c conn env := by
  unfold putsAgain at h
  simp only [and_eq_true, beq_iff_eq, not_eq_true', all_eq_true, contains_iff_mem] at h
  obtain ⟨⟨⟨⟨⟨⟨⟨⟨hready, hid⟩, hunread⟩, hown⟩, hvars⟩, htrips⟩, horderly⟩, hended⟩, hnoError⟩ := h
  exact ⟨hready, hid, hunread, fun name hname => AList.mem_keys.2
    (hown name (AList.mem_keys.1 hname)),
    lookup_of_sameSettings hvars, all_eq_true.2 htrips, horderly, hended, hnoError⟩

theorem answers_of_refreshes (hs : identityInv.Holds s.system)
    (htaken : s.system.Taken job.session ⟨backend, ⟨[], []⟩⟩ source c conn)
    (hputs : s.PutsAgain job c conn env)
    (h : Refreshes job.session (s.sessionOf job.session).state conn env replayed value) :
    (⟨job.asked.data, env.trip.reply, conn,
      replaySettings (s.sessionOf job.session).state.vars env.varOrder env.replays
        (s.settings c)⟩ : Execution).Answers job.asked value where
  request := rfl
  whole := h.whole hputs.orderly
  ended := hputs.ended
  noError := hputs.noError
  started := hputs.ready
  opened := by
    have hopened := (attributed_taken hs htaken).openedFor hputs.ready
    rw [htaken.pool] at hopened
    rw [hputs.identity]
    exact hopened
  settings := by
    intro name
    obtain ⟨-, haccepted⟩ := h.replays.accepted hputs.trips hputs.unread h.succeeded
    rw [← hputs.vars name]
    exact h.replays.restores h.succeeded haccepted h.order hputs.own name

theorem Inv.refreshed (h : Inv cfg s)
    (hallowed : s.answersKeys cfg (.refresh key env changes))
    (hstep : s.refresh key env changes = some s') : Inv cfg s' := by
  unfold refresh at hstep
  split at hstep
  · cases hstep
  rename_i job hfind
  have hjob := List.mem_of_find?_eq_some hfind
  have hover : ∀ k, ∀ job ∈ s.refreshes.filter (·.key != k),
      job.key = cacheKey cfg.hash job.asked :=
    fun k job hjob => h.refreshes job (List.mem_of_mem_filter hjob)
  split at hstep
  · rename_i source backend hsource hback
    split at hstep
    · cases hstep
    rename_i c conn htake
    have htaken := System.taken_of_take htake
    have hfree := htaken.isFree h.identity.owned
    obtain ⟨_, hrefresh, rfl⟩ := map_eq_some_iff.1 hstep
    obtain ⟨hkept, hstores⟩ := refreshes_of_backgroundRefresh hrefresh
    have hright : (env.silent conn || s.putsAgain job c conn env) := by
      rw [answersKeys, hfind, all_some, refreshesRight, hsource, hback] at hallowed
      simp only [all_some, htake] at hallowed
      exact hallowed
    refine ⟨?_, ?_, h.pending, hover job.key, ?_⟩
    · exact h.identity.setConn hfree
        ((attributed_taken h.identity htaken).carried (hkept.carried.trans (.release _ _)))
    · exact h.settings.touched h.identity.owned hfree rfl rfl
    · unfold Storing.refreshed
      split
      · rename_i value hcapped
        split
        · exact h.stored
        · rename_i hvalue
          obtain ⟨_, hrefreshes⟩ := hstores value hcapped
          rcases (or_eq_true _ _).mp hright with hsilent | hputs
          · exact absurd (hrefreshes.nil_of_silent hsilent) hvalue
          · exact forall_mem_cons.2 ⟨⟨h.refreshes job hjob, _, rfl,
              answers_of_refreshes h.identity htaken (of_putsAgain hputs) hrefreshes⟩, h.stored⟩
      · exact h.stored
  · cases hstep
    exact ⟨h.identity, h.settings, h.pending, hover key, h.stored⟩

/-! ### The runs -/

theorem Inv.step (h : Inv cfg s) (hallowed : s.answersKeys cfg a)
    (hstep : s.step cfg a = some s') : Inv cfg s' := by
  cases a with
  | session =>
    obtain ⟨_, hchange, rfl⟩ := map_eq_some_iff.1 hstep
    rw [answersKeys, and_eq_true, and_eq_true] at hallowed
    exact h.moved hallowed.1.1 hallowed.1.2 hallowed.2 hchange
  | recycle c =>
    obtain ⟨_, hsystem, rfl⟩ := map_eq_some_iff.1 hstep
    cases moved_of_step hsystem with
    | reset hc hplace hrecycled =>
      have hfree := System.free_of_returned hc (by rw [hplace]; rfl)
      exact ⟨h.identity.setConn hfree ((h.identity.conn c).carried hrecycled.carried),
        h.settings.touched h.identity.owned hfree rfl rfl, h.pending, h.refreshes, h.stored⟩
  | drain =>
    cases hstep
    have hs := h.identity
    exact ⟨⟨⟨hs.owned.holds, hs.owned.without, hs.owned.fresh⟩, hs.conn, hs.proc, hs.held,
      hs.log⟩, h.settings, h.pending, h.refreshes, h.stored⟩
  | refresh => exact h.refreshed hallowed hstep

/-- **Stored replies answer their keys**, whatever the sessions and refreshes do
and however the replies are cut into reads, as long as every move meets
`answersKeys`. -/
theorem stored_replies_answer_their_keys (cfg : Config) {steps : List StoringStep} {s : Storing}
    (hallowed : Along (step cfg) (fun s a => s.answersKeys cfg a = true) init steps)
    (hrun : run (step cfg) init steps = some s) : ∀ r ∈ s.stored, r.Right cfg.hash := by
  have hinv : Inv cfg s := by
    apply run_invariant _ inv_init hallowed hrun
    intro _ _ _ hs ha hstep
    exact hs.step ha hstep
  exact hinv.stored

def moves (acts : List Act) : List StoringStep := acts.map fun a => .session 0 a []

def sessionOpens : List StoringStep :=
  moves [.connect ⟨appStartup, [], true⟩, .handshake ⟨some (ascii "db", .dial), true, true⟩]

def sendsThroughCache (data : Bytes) : List StoringStep :=
  moves [.receive [⟨data, none⟩], .middleware ⟨false, true, none, false⟩, .enter]

def setSearchPath : Bytes := ascii "SET search_path TO app"

def setThenAsked : List StoringStep :=
  sessionOpens ++ sendsThroughCache (simpleQuery setSearchPath) ++
    [.session 0 (.serve (.undisturbed (completed 'I'.toUInt8) 'I'.toUInt8))
      [(ascii "search_path", some setSearchPath)]] ++
    moves [.finish, .conclude] ++ sendsThroughCache (simpleQuery (ascii "SELECT 1")) ++
    moves [.acquire ⟨some (ascii "db", .pooled 0), true, true, false, []⟩,
      .serve { ServeEnv.undisturbed (completed 'I'.toUInt8) 'I'.toUInt8 with
        varOrder := [ascii "search_path"]
        replays := [⟨none, askedOnce (completed 'I'.toUInt8)⟩] },
      .finish, .conclude]

theorem replayed_query_stored_right :
    ∃ s r, run (step (Config.initial id false)) init setThenAsked = some s ∧ r ∈ s.stored ∧
      r.value = Frame.encodeAll (completed 'I'.toUInt8) ∧
      r.asked.state.vars.lookup (ascii "search_path") = some setSearchPath ∧ r.Right id := by
  obtain ⟨hallowed, s, hrun, hs⟩ := exists_allowed_run (show
    Along (step (Config.initial id false))
      (fun s a => s.answersKeys (Config.initial id false) a = true) init setThenAsked ∧
    (run (step (Config.initial id false)) init setThenAsked).any (fun s => s.stored.any fun r =>
      r.value == Frame.encodeAll (completed 'I'.toUInt8) &&
        r.asked.state.vars.lookup (ascii "search_path") == some setSearchPath) = true by
    decide +kernel)
  obtain ⟨r, hr, hvalue⟩ := any_eq_true.1 hs
  rw [and_eq_true, beq_iff_eq, beq_iff_eq] at hvalue
  exact ⟨s, r, hrun, hr, hvalue.1, hvalue.2, stored_replies_answer_their_keys _ hallowed hrun r hr⟩

def readOnlyRefusal : Frame :=
  ⟨'E'.toUInt8, ascii "SERROR" ++ 0 :: (ascii "C25006" ++ [0, 0]), by decide⟩

def refusedThenLost : List StoringStep :=
  sessionOpens ++ sendsThroughCache (simpleQuery (ascii "SELECT f()")) ++
    moves [.serve { ServeEnv.undisturbed [readOnlyRefusal] 'I'.toUInt8 with
        passes := [⟨Frame.encodeAll [readOnlyRefusal], none, none⟩, ⟨[], some .failed, none⟩] },
      .finish, .conclude]

theorem refusal_stored :
    ∃ s r, run (step (Config.initial id false)) init refusedThenLost = some s ∧ r ∈ s.stored ∧
      r.asked.data = simpleQuery (ascii "SELECT f()") ∧
      r.value = Frame.encodeAll [readOnlyRefusal] ∧ ¬r.Right id := by
  obtain ⟨s, hrun, hs⟩ := exists_run (show (run (step (Config.initial id false)) init
    refusedThenLost).any (fun s => s.stored.any fun r =>
      r.asked.data == simpleQuery (ascii "SELECT f()") &&
        r.value == Frame.encodeAll [readOnlyRefusal] &&
        r.execution.all fun x => x.reply.any (·.tag == 'E'.toUInt8)) = true by decide +kernel)
  obtain ⟨r, hr, hstored⟩ := any_eq_true.1 hs
  rw [and_eq_true, and_eq_true, beq_iff_eq, beq_iff_eq] at hstored
  obtain ⟨⟨hdata, hvalue⟩, herror⟩ := hstored
  refine ⟨s, r, hrun, hr, hdata, hvalue, ?_⟩
  intro ⟨_, _, hx, hanswers⟩
  rw [hx, all_some, hanswers.noError] at herror
  cases herror

end Storing

end Pontus.Proxy
