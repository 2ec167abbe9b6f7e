import Pontus.Proxy.Proofs.Invariant
import Pontus.Proxy.Proofs.WholeReply

/-!
# What goes back into the idle set

A connection that is given back unmarked is handed to the next session as it
is.  It is clean as long as every reply is read whole, and as long as a session
is not turned away, or loses its client, in the middle of a transaction: those
two ends give the connection back without a mark.
-/

namespace Pontus.Proxy

open Lib Protocol Pool LocalInv
open Protocol.TransactionState
open List (forall_mem_singleton)

variable {p : Proc}

/-! ## The property -/

/-- A connection that goes straight back to the idle set has been read to the
end and is outside a transaction. -/
def Event.CleanRelease : Event → Prop
  | .released _ _ c => c.conn.broken = false → c.conn.dirty = false → c.conn.ready = true →
      c.wire.unread = [] ∧ c.wire.status = stateIdle
  | _ => True

def Act.rounds : Act → List RoundTrip
  | .acquire env => env.rounds
  | .acquireHome _ env => env.rounds
  | _ => []

/-- Replies are read whole, and a session that holds a connection is refused,
or loses its client over a stored reply, only between transactions. -/
def endsClean (s : System) : Action → Bool
  | .act i (.middleware env) =>
    !(env.refused || env.writeFails) || (s.procs i).session.server.isNone ||
      (s.procs i).session.state.txState == stateIdle
  | .act i (.serve env) => env.readsAll (s.procs i).session
  | .act _ a => a.fromIdle s && a.rounds.all restsIdle
  | .recycle _ rollback discard => rollback.orderly && restsIdle discard
  | .drain _ _ => true

/-! ## The invariant -/

def cleanInv : LocalInv where
  conn c := (c.place = .returned .idle →
      c.conn.ready = true ∧ c.conn.dirty = false ∧ RestsAt stateIdle c) ∧
    (c.place = .returned .cleanup → c.conn.ready = true ∧ NothingUnread c)
  proc p := ∀ call, p.phase = .following call → p.session.state.txState = stateIdle
  held _ p c := c.conn.ready = true ∧ c.conn.dirty = false ∧ NothingUnread c ∧
    (p.session.state.txState = stateIdle ∨ p.phase.live = false → RestsAt stateIdle c)
  event := Event.CleanRelease

structure Returnable (c : PoolConn) : Prop where
  unread : c.conn.ready = true → NothingUnread c
  idle : c.conn.ready = true → c.conn.dirty = false → RestsAt stateIdle c

theorem Returnable.of_broken {c : PoolConn} (h : c.conn.broken) : Returnable c :=
  ⟨fun _ => .inl h, fun _ _ => .inl h⟩

theorem Returnable.of_rests {c : PoolConn} (h : c.conn.ready → RestsAt stateIdle c) :
    Returnable c :=
  ⟨fun hready => (h hready).nothingUnread, fun hready _ => h hready⟩

theorem Returnable.of_dirty {c : PoolConn} (h : NothingUnread c) : Returnable c.markDirty :=
  ⟨fun _ => h, nofun⟩

theorem Returnable.released (h : Returnable c) (i k : Nat) :
    Event.CleanRelease (.released i k c) := by
  intro hbroken hdirty hready
  rcases h.idle hready hdirty with hbroken' | hrests
  · rw [hbroken] at hbroken'
    cases hbroken'
  · exact hrests

theorem release_ready (c : PoolConn) (draining : Bool) :
    (c.release draining).conn.ready = c.conn.ready := by
  cases draining <;> rfl

theorem release_dirty (c : PoolConn) (draining : Bool) :
    (c.release draining).conn.dirty = c.conn.dirty := by
  cases draining <;> rfl

theorem Returnable.conn {c : PoolConn} (h : Returnable c) (draining : Bool) :
    cleanInv.conn (c.release draining) := by
  constructor
  · intro hplace
    obtain ⟨hbroken, hready, hdirty⟩ := release_idle hplace
    rw [release_ready, release_dirty]
    exact ⟨hready, hdirty, .inr (h.released 0 0 hbroken hdirty hready)⟩
  · intro hplace
    obtain ⟨hbroken, hready, -⟩ := release_returned hplace (by decide)
    rw [release_ready]
    refine ⟨hready, .inr ?_⟩
    rcases h.unread hready with hbroken' | hunread
    · rw [hbroken] at hbroken'
      cases hbroken'
    · exact hunread

theorem cleanInv_conn_of_held {c : PoolConn} (h : c.place = .held i) : cleanInv.conn c := by
  constructor
  · intro hplace
    rw [h] at hplace
    cases hplace
  · intro hplace
    rw [h] at hplace
    cases hplace

theorem cleanInv_held_of_rests {c : PoolConn} (hready : c.conn.ready)
    (hdirty : c.conn.dirty = false) (hrests : RestsAt stateIdle c) : cleanInv.held i p c :=
  ⟨hready, hdirty, hrests.nothingUnread, fun _ => hrests⟩

section
variable {cfg : Config} {s : System} {i : Nat}

theorem Returnable.keeps {conn : PoolConn} (h : Returnable conn) {c : Nat} {draining : Bool}
    {events : List Event} (hproc : cleanInv.proc p) (hserver : p.session.server = none)
    (hevents : ∀ e ∈ events, e.CleanRelease) :
    cleanInv.Keeps s i
      { proc := p, conn := some (c, conn.release draining)
        events := .released i c conn :: events } :=
  keeps_of_released (h.conn _) hproc hserver (forall_mem_cons.2 ⟨h.released i c, hevents⟩)

/-! ### Connections from the pool -/

theorem taken_rests (hs : cleanInv.Holds s) {source : Source} {conn : PoolConn}
    (hsource : source.fromIdle s) (h : s.Taken i key source c conn) :
    conn.conn.dirty = false ∧ (conn.conn.ready → RestsAt stateIdle conn) := by
  cases h with
  | dial => exact ⟨rfl, nofun⟩
  | pooled =>
    obtain ⟨-, hdirty, hrests⟩ := (hs.conn _).1 (eq_of_beq hsource)
    exact ⟨hdirty, fun _ => hrests⟩

theorem openBackend_rests {conn conn' : PoolConn}
    (hconn : conn.conn.ready → RestsAt stateIdle conn)
    (h : openBackend cfg req conn env = (conn', outcome)) :
    conn'.conn = conn.conn ∧
      (conn'.conn.ready ∨ outcome = .completed → RestsAt stateIdle conn') := by
  cases backendOpened h with
  | reused hready => exact ⟨rfl, fun _ => hconn hready⟩
  | started hready _ hout =>
    refine ⟨rfl, ?_⟩
    intro hcompleted
    rcases hcompleted with hready' | hcompleted
    · rw [hready] at hready'
      cases hready'
    · cases hstarted : env.started with
      | true => exact .inr ⟨rfl, rfl⟩
      | false =>
        rw [hcompleted, hstarted] at hout
        cases hout

theorem Obtained.clean (hs : cleanInv.Holds s) {led : Option Led} {retry : Bool}
    {backend : Bytes} {c : Nat} {conn : PoolConn} {env : AcquireEnv} {ch : Change}
    (hphase : (s.procs i).phase.unserved) (hplace : conn.place = .held i)
    (hready : conn.conn.ready) (hdirty : conn.conn.dirty = false)
    (hrests : RestsAt stateIdle conn) (hrounds : env.rounds.all restsIdle)
    (h : Obtained s i led retry backend c conn env ch) : cleanInv.Keeps s i ch := by
  cases h with
  | @installed conn' hinstalled =>
    have hconn' : Kept conn conn' ∧ RestsAt stateIdle conn' := by
      rcases hinstalled with rfl | ⟨htrips, hwait⟩
      · exact ⟨.refl _, hrests⟩
      · refine ⟨roundTrips_kept htrips, roundTrips_idle hrounds ?_ hrests htrips⟩
        rw [hwait]
        exact some_ne_none _
    obtain ⟨hkept, hrests'⟩ := hconn'
    refine keeps_of_kept (cleanInv_conn_of_held (hkept.place.trans hplace))
      nofun ?_ (forall_mem_singleton.2 trivial)
    exact cleanInv_held_of_rests (hkept.ready.trans hready) (hkept.dirty.trans hdirty) hrests'
  | behind htrips hwait =>
    have hrests' : RestsAt stateIdle _ :=
      roundTrips_idle hrounds (by rw [hwait]; exact some_ne_none _) hrests htrips
    have hreturnable := Returnable.of_rests fun _ => hrests'
    exact hreturnable.keeps nofun (hs.owned.without i hphase)
      (forall_mem_singleton.2 trivial)

/-! ### The session's record -/

theorem clean_moved (hs : cleanInv.Holds s) (hproc : cleanInv.proc p)
    (hserver : p.session.server = none ∨ p.session.server = (s.procs i).session.server ∧
      p.session.state.txState = (s.procs i).session.state.txState ∧
      (p.phase.live = false →
        (s.procs i).session.state.txState = stateIdle ∨ (s.procs i).phase.live = false))
    (hevents : ∀ e ∈ events, e.CleanRelease) :
    cleanInv.Keeps s i { proc := p, call := call, inFlight := inFlight, events := events } := by
  apply keeps_of_proc hproc _ hevents
  intro c hc
  rcases hserver with hnone | ⟨hsame, hstate, hlive⟩
  · rw [hnone] at hc
    cases hc
  · rw [hsame] at hc
    obtain ⟨hready, hdirty, hunread, hrests⟩ := hs.held i c hc
    refine ⟨hready, hdirty, hunread, ?_⟩
    intro hidle
    rcases hidle with hidle | hended
    · exact hrests (.inl (hstate.symm.trans hidle))
    · exact hrests (hlive hended)

theorem clean_goes_on (hs : cleanInv.Holds s) (hproc : cleanInv.proc p)
    (hserver : p.session.server = (s.procs i).session.server)
    (hstate : p.session.state.txState = (s.procs i).session.state.txState) (hlive : p.phase.live)
    (hevents : ∀ e ∈ events, e.CleanRelease) :
    cleanInv.Keeps s i { proc := p, call := call, inFlight := inFlight, events := events } := by
  refine clean_moved hs hproc (.inr ⟨hserver, hstate, fun hended => ?_⟩) hevents
  rw [hlive] at hended
  cases hended

/-- A request that ends without a backend, of a session that has no connection
or is between transactions. -/
theorem clean_ends (hs : cleanInv.Holds s) (hproc : cleanInv.proc p)
    (hserver : p.session.server = (s.procs i).session.server)
    (hstate : p.session.state.txState = (s.procs i).session.state.txState)
    (hallowed : (s.procs i).session.server = none ∨
      (s.procs i).session.state.txState = stateIdle) (hevents : ∀ e ∈ events, e.CleanRelease) :
    cleanInv.Keeps s i { proc := p, events := events } := by
  apply clean_moved hs hproc _ hevents
  rcases hallowed with hnone | hidle
  · exact .inl (hserver.trans hnone)
  · exact .inr ⟨hserver, hstate, fun _ => .inl hidle⟩

theorem collapse_follow {hash : Bytes → Bytes} {inFlight : Bytes → Option Nat}
    {session : Session} {call : Nat} (h : collapse hash inFlight session = .follow call) :
    session.state.txState = stateIdle := by
  unfold collapse at h
  split at h
  · rename_i hcollapse
    unfold canCollapse at hcollapse
    rw [and_eq_true, beq_iff_eq] at hcollapse
    exact hcollapse.2
  · cases h

theorem proceed_clean (p : Proc) (led : Option Led) :
    (p.proceed led).phase.live ∧ cleanInv.proc (p.proceed led) := by
  unfold Proc.proceed
  split <;> exact ⟨rfl, nofun⟩

theorem clean_opened (hs : cleanInv.Holds s) {req : StartupRequest} {key : PoolKey}
    {source : Source} {backend : Bytes} {c : Nat} {conn conn' : PoolConn} {env : HandshakeEnv}
    (hsource : source.fromIdle s) (htaken : s.Taken i key source c conn)
    (hopen : openBackend cfg req conn env = (conn', .completed)) :
    cleanInv.Keeps s i (sessionOpened cfg s i (s.procs i) backend c conn') := by
  obtain ⟨hdirty, hrests⟩ := taken_rests hs hsource htaken
  obtain ⟨hconn, hopened⟩ := openBackend_rests hrests hopen
  have hrests' : RestsAt stateIdle conn' := hopened (.inr rfl)
  unfold sessionOpened
  dsimp only
  split
  · have hunread : NothingUnread { conn' with
        conn := conn'.conn.markReady.setIdentity (s.procs i).session.identity } :=
      hrests'.nothingUnread
    exact (Returnable.of_dirty hunread).keeps nofun rfl
      (forall_mem_singleton.2 trivial)
  · have hplace : conn'.place = .held i := (openBackend_place hopen).trans htaken.place
    refine keeps_of_kept ?_ nofun
      (cleanInv_held_of_rests rfl ?_ hrests') (forall_mem_singleton.2 trivial)
    · exact cleanInv_conn_of_held hplace
    · rw [← hconn] at hdirty
      exact hdirty

theorem clean_answered (hs : cleanInv.Holds s) {replayed : Replayed}
    (hallowed : endsClean s (.act i (.serve env))) (hserver : (s.procs i).session.server = some c)
    (hreplay : replaySession i (s.procs i).session (s.conns c) env = some replayed)
    (hforward : forwardReply cfg i (s.procs i).session led replayed.conn env = some a)
    (hlsn : recordLSN a env = some a') (hevents : ∀ e ∈ events, e.CleanRelease) :
    cleanInv.Keeps s i (settle cfg s i (s.procs i) led c a' events) := by
  have hforwarded := forwarded_of_forwardReply hforward
  have hrecorded := lsnRecorded_of_recordLSN hlsn
  obtain ⟨hready, hdirty, hunread, -⟩ := hs.held i c hserver
  have hsettled := settled_of_served hallowed hunread hreplay hforwarded hrecorded
  have hkept := served_kept hreplay hforwarded hrecorded
  refine keeps_of_settle nofun ?_
    ⟨cleanInv_conn_of_held (hkept.place.trans (hs.owned.holds i c hserver)), ?_⟩ hevents
  · intro hreleased conn _ hconn
    have hidle := hsettled.idle (PoolingMode.idle_of_shouldReleaseAt hreleased)
    have hreturnable : Returnable conn := by
      rw [hconn]
      split
      · exact .of_dirty hsettled.unread
      · exact .of_rests fun _ => hidle
    exact ⟨hreturnable.conn _, hreturnable.released i c⟩
  · intro _ hfail
    refine ⟨hkept.ready.trans hready, hkept.dirty.trans hdirty, hsettled.unread, ?_⟩
    intro hidle
    rcases hidle with hidle | hended
    · exact hsettled.idle ((hrecorded.txState hforwarded).symm.trans hidle)
    · exact hsettled.failed (hfail ((not_eq_false' _).mp hended))

/-- **Every move keeps the idle set clean.** -/
theorem clean_keeps (hs : cleanInv.Holds s) {a : Act} {ch : Change}
    (hallowed : endsClean s (.act i a)) (h : Outcome cfg s i a ch) : cleanInv.Keeps s i ch := by
  have hnone : ∀ e ∈ ([] : List Event), e.CleanRelease := fun e he => nomatch he
  have hwithout := hs.owned.without i
  cases h with
  -- the connections are left alone
  | connectClosed | noBackend | concludedClosed =>
    exact clean_moved hs nofun (.inl rfl) hnone
  | connected | notPicked | concluded =>
    exact clean_goes_on hs nofun rfl rfl rfl hnone
  | opened _ hpicked htaken hopen =>
    obtain ⟨hidle, -⟩ := and_eq_true_iff.1 hallowed
    exact clean_opened hs (picked_fromIdle hidle hpicked) htaken hopen
  | @wrongConnection env req attempts c backend source conn conn' p hphase hpicked htaken hopen
    hp =>
    have hreturnable : Returnable conn'.markBroken := .of_broken rfl
    refine hreturnable.keeps ?_ ?_ hnone
    · rcases hp with rfl | ⟨left, rfl⟩ <;> exact nofun
    · rcases hp with rfl | ⟨left, rfl⟩
      · rfl
      · exact hwithout (by rw [hphase]; rfl)
  | @openFailed _ _ _ _ _ _ _ _ _ hpicked htaken hopen =>
    obtain ⟨hidle, -⟩ := and_eq_true_iff.1 hallowed
    have hsource := picked_fromIdle hidle hpicked
    obtain ⟨-, hopened⟩ := openBackend_rests (taken_rests hs hsource htaken).2 hopen
    have hreturnable := Returnable.of_rests fun hready => hopened (.inl hready)
    exact hreturnable.keeps nofun rfl hnone
  | left =>
    unfold leaveSession
    split
    · rename_i backend c hback hserver
      have hreturnable := Returnable.of_dirty (hs.held i c hserver).2.2.1
      exact hreturnable.keeps nofun rfl hnone
    · exact clean_moved hs nofun (.inl rfl) hnone
  | request _ hnext =>
    rcases hnext with rfl | rfl <;> exact clean_goes_on hs nofun rfl rfl rfl hnone
  | @refused _ _ href =>
    simp only [endsClean, href, Bool.true_or, Bool.not_true, Bool.false_or,
      or_eq_true, isNone_iff_eq_none, beq_iff_eq] at hallowed
    exact clean_ends hs nofun rfl rfl hallowed hnone
  | @hit env =>
    cases hwrite : env.writeFails with
    | false => exact clean_goes_on hs nofun rfl rfl rfl hnone
    | true =>
      simp only [endsClean, hwrite, Bool.or_true, Bool.not_true, Bool.false_or,
        or_eq_true, isNone_iff_eq_none, beq_iff_eq] at hallowed
      exact clean_ends hs nofun rfl rfl hallowed hnone
  | passed _ _ hsession =>
    rcases hsession with rfl | rfl <;> exact clean_goes_on hs nofun rfl rfl rfl hnone
  | alone =>
    obtain ⟨hlive, hproc⟩ := proceed_clean (s.procs i) none
    exact clean_goes_on hs hproc rfl rfl hlive (forall_mem_singleton.2 trivial)
  | follows _ hcollapse =>
    exact clean_goes_on hs (fun _ _ => collapse_follow hcollapse) rfl rfl rfl
      (forall_mem_singleton.2 trivial)
  | @leads key =>
    obtain ⟨hlive, hproc⟩ := proceed_clean (s.procs i) (some ⟨s.nextCall, key⟩)
    exact clean_goes_on hs hproc rfl rfl hlive (forall_mem_singleton.2 trivial)
  | shared hphase =>
    refine clean_moved hs nofun
      (.inr ⟨rfl, rfl, fun _ => .inl (hs.proc i _ hphase)⟩) ?_
    split
    · exact hnone
    · exact forall_mem_singleton.2 trivial
  | fallsThrough =>
    obtain ⟨hlive, hproc⟩ := proceed_clean (s.procs i) none
    exact clean_goes_on hs hproc rfl rfl hlive hnone
  | usable hphase hpicked htaken hready hobtained =>
    obtain ⟨hidle, hrounds⟩ := and_eq_true_iff.1 hallowed
    have hsource := picked_fromIdle hidle hpicked
    obtain ⟨hdirty, hrests⟩ := taken_rests hs hsource htaken
    exact (obtained_cases hobtained).clean hs (by rw [hphase]; rfl) htaken.place hready hdirty
      (hrests hready) hrounds
  | authenticated hphase hpicked htaken _ hobtained =>
    obtain ⟨hidle, hrounds⟩ := and_eq_true_iff.1 hallowed
    have hsource := picked_fromIdle hidle hpicked
    obtain ⟨hdirty, -⟩ := taken_rests hs hsource htaken
    refine (obtained_cases hobtained).clean hs (by rw [hphase]; rfl) ?_ rfl ?_ ?_ hrounds
    · exact htaken.place
    · exact hdirty
    · exact .inr ⟨rfl, rfl⟩
  | @unusable _ _ _ _ _ _ conn wire hphase hpicked htaken hwire =>
    obtain ⟨hidle, -⟩ := and_eq_true_iff.1 hallowed
    have hsource := picked_fromIdle hidle hpicked
    obtain ⟨-, hrests⟩ := taken_rests hs hsource htaken
    have hreturnable : Returnable { conn with wire := wire } := by
      apply Returnable.of_rests
      intro hready
      rcases hwire with rfl | ⟨hfresh, -⟩
      · exact hrests hready
      · rw [hfresh] at hready
        cases hready
    exact hreturnable.keeps nofun (hwithout (by rw [hphase]; rfl)) hnone
  | noHome hphase =>
    exact clean_moved hs nofun (.inl (hwithout (by rw [hphase]; rfl))) hnone
  | @unusableHome _ _ _ _ _ _ _ hphase _ htaken =>
    obtain ⟨hsource, -⟩ := and_eq_true_iff.1 hallowed
    have hreturnable := Returnable.of_rests (taken_rests hs hsource htaken).2
    exact hreturnable.keeps nofun (hwithout (by rw [hphase]; rfl)) hnone
  | usableHome hphase _ htaken hready hobtained =>
    obtain ⟨hsource, hrounds⟩ := and_eq_true_iff.1 hallowed
    obtain ⟨hdirty, hrests⟩ := taken_rests hs hsource htaken
    exact (obtained_cases hobtained).clean hs (by rw [hphase]; rfl) htaken.place hready hdirty
      (hrests hready) hrounds
  | @replayFailed _ _ _ c _ _ hserver hreplay hfail =>
    obtain ⟨hready, hdirty, -, -⟩ := hs.held i c hserver
    have hkept := replaySession_kept hreplay
    have hbroken := replaySession_failed hreplay hfail
    exact keeps_of_kept
      (cleanInv_conn_of_held (hkept.place.trans (hs.owned.holds i c hserver)))
      nofun
      (cleanInv_held_of_rests (hkept.ready.trans hready) (hkept.dirty.trans hdirty) (.inl hbroken))
      (forall_mem_singleton.2 trivial)
  | @writeFailed _ _ _ _ replayed =>
    have hreturnable : Returnable replayed.conn.markBroken := .of_broken rfl
    exact hreturnable.keeps nofun rfl (forall_mem_singleton.2 trivial)
  | answered _ hserver hreplay _ _ hforward hlsn hreply =>
    exact clean_answered hs hallowed hserver hreplay hforward hlsn
      (forall_served hreply trivial trivial trivial)
  | finished hphase | finishedLeader hphase =>
    refine clean_moved hs nofun (.inr ⟨rfl, rfl, fun hended => .inr ?_⟩) hnone
    rw [hphase]
    exact hended
  | @concludedFailed c hphase hserver =>
    have hrests := (hs.held i c hserver).2.2.2 (.inr (by rw [hphase]; rfl))
    have hreturnable := Returnable.of_rests fun _ => hrests
    exact hreturnable.keeps nofun rfl hnone
  | @concludedReleased c conn _ hserver hreleased hconn =>
    obtain ⟨-, -, hunread, hrests⟩ := hs.held i c hserver
    have hidle := PoolingMode.idle_of_shouldReleaseAt hreleased
    have hreturnable : Returnable conn := by
      rw [hconn]
      split
      · exact .of_dirty hunread
      · exact .of_rests fun _ => hrests (.inl hidle)
    exact hreturnable.keeps nofun rfl hnone

theorem clean_init : cleanInv.Holds .init where
  owned := owned_init
  conn := fun _ => ⟨nofun, nofun⟩
  proc := nofun
  held := by
    nofun
  log := by
    intro _ he
    cases he

theorem recycled_clean {c c' : PoolConn} {rollback discard : RoundTrip}
    (hrollback : rollback.orderly) (hdiscard : restsIdle discard) (hready : c.conn.ready)
    (hunread : NothingUnread c) (h : Recycled c rollback discard c') : cleanInv.conn c' := by
  constructor
  · intro hplace
    cases h with
    | rollbackFailed htrip | discardFailed htrip htrip' hwire => cases hplace
    | @reset _ _ _ htrip hrolled htrip' hdiscarded hwire =>
      unfold restsIdle at hdiscard
      rw [and_eq_true, beq_iff_eq] at hdiscard
      have hrolledBack := readWhole_of_execute hrollback hrolled hunread htrip
      have hreset := readWhole_of_execute hdiscard.1 hdiscarded hrolledBack.unread htrip'
      have hrests := hreset.status _ hdiscard.2
      have hkept := (roundTrip_kept htrip).trans (roundTrip_kept htrip')
      refine ⟨hkept.ready.trans hready, rfl, ?_⟩
      rcases hwire with ⟨rfl, -⟩ | rfl <;> exact hrests
  · intro hplace
    cases h with
    | rollbackFailed htrip | discardFailed htrip htrip' hwire
    | reset => cases hplace

end

/-! ## The runs -/

/-- **No half-used connection goes back into the idle set**, whatever the
interleaving. -/
theorem unmarked_release_is_clean (cfg : Config) {actions : List Action} {s : System}
    (hclean : Along (step cfg) (fun s a => endsClean s a = true) .init actions)
    (hrun : run (step cfg) .init actions = some s) :
    ∀ i c conn, Event.released i c conn ∈ s.log → conn.conn.broken = false →
      conn.conn.dirty = false → conn.conn.ready = true →
      conn.wire.unread = [] ∧ conn.wire.status = stateIdle := by
  have hholds : cleanInv.Holds s := by
    refine LocalInv.Holds.run ?_ ?_ clean_init hclean hrun
    · intro s i _ _ hs hallowed houtcome
      exact clean_keeps hs hallowed houtcome
    · intro _ c rollback discard conn hs hallowed hplace hrecycled
      have hallowed : (rollback.orderly && restsIdle discard) = true := hallowed
      rw [and_eq_true] at hallowed
      obtain ⟨hready, hunread⟩ := (hs.conn c).2 hplace
      exact recycled_clean hallowed.1 hallowed.2 hready hunread hrecycled
  intro _ _ _ hreleased
  exact hholds.log _ hreleased

def transactionServed : List Action :=
  opens 0 appStartup (ascii "db") .dial ++ sends 0 (simpleQuery (ascii "BEGIN")) ++
    serves 0 (.undisturbed (completed 'T'.toUInt8) 'T'.toUInt8) ++
    sends 0 (simpleQuery (ascii "COMMIT")) ++
    serves 0 (.undisturbed (completed 'I'.toUInt8) 'I'.toUInt8)

theorem committed_connection_released_clean :
    ∃ s, run (step (Config.initial id false)) .init transactionServed = some s ∧
      ∃ conn, Event.released 0 0 conn ∈ s.log ∧ conn.conn.broken = false ∧
        conn.conn.dirty = false ∧ conn.conn.ready = true ∧
        conn.wire.unread = [] ∧ conn.wire.status = stateIdle := by
  obtain ⟨hclean, s, hrun, hreleased⟩ := exists_allowed_run (show
    Along (step (Config.initial id false)) (fun s a => endsClean s a = true) .init
      transactionServed ∧
    (run (step (Config.initial id false)) .init transactionServed).any (fun s => s.log.any fun e =>
      match e with
      | .released 0 0 conn => !conn.conn.broken && !conn.conn.dirty && conn.conn.ready
      | _ => false) = true by decide +kernel)
  obtain ⟨_, he, hmatch⟩ := any_eq_true.1 hreleased
  split at hmatch
  · rename_i conn
    simp only [and_eq_true, not_eq_true'] at hmatch
    obtain ⟨⟨hbroken, hdirty⟩, hready⟩ := hmatch
    exact ⟨s, hrun, conn, he, hbroken, hdirty, hready,
      unmarked_release_is_clean _ hclean hrun 0 0 conn he hbroken hdirty hready⟩
  · cases hmatch

def refusedInTransaction : List Action :=
  opens 0 appStartup (ascii "db") .dial ++ sends 0 (simpleQuery (ascii "BEGIN")) ++
    serves 0 (.undisturbed (completed 'T'.toUInt8) 'T'.toUInt8) ++
    [.act 0 (.receive [⟨simpleQuery (ascii "SELECT 1"), none⟩]),
      .act 0 (.middleware ⟨true, false, none, false⟩), .act 0 .conclude]

theorem open_transaction_released_unmarked :
    ∃ s, run (step (Config.initial id false)) .init refusedInTransaction = some s ∧
      (s.conns 0).place = .returned .idle ∧
      ∃ conn, Event.released 0 0 conn ∈ s.log ∧ conn.conn.broken = false ∧
        conn.conn.dirty = false ∧ conn.conn.ready = true ∧
        conn.wire.status = stateInTransaction := by
  obtain ⟨s, hrun, h⟩ := exists_run (show (run (step (Config.initial id false)) .init
    refusedInTransaction).any (fun s => (s.conns 0).place == .returned .idle &&
      s.log.any fun e =>
        match e with
        | .released 0 0 conn => !conn.conn.broken && !conn.conn.dirty && conn.conn.ready &&
            conn.wire.status == stateInTransaction
        | _ => false) = true by decide +kernel)
  rw [and_eq_true, beq_iff_eq] at h
  obtain ⟨hplace, hreleased⟩ := h
  obtain ⟨_, he, hmatch⟩ := any_eq_true.1 hreleased
  split at hmatch
  · rename_i conn
    simp only [and_eq_true, not_eq_true', beq_iff_eq] at hmatch
    obtain ⟨⟨⟨hbroken, hdirty⟩, hready⟩, hstatus⟩ := hmatch
    exact ⟨s, hrun, hplace, conn, he, hbroken, hdirty, hready, hstatus⟩
  · cases hmatch

end Pontus.Proxy
