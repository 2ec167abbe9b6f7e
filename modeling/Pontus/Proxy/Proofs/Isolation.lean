import Pontus.Protocol.Proofs.RoundTrip
import Pontus.Proxy.Proofs.Invariant

/-!
# What a session finds on its connections

Settings and prepared statements stay in the backend's session when a
connection goes back.  With a credential store the connection is reset before
it is idle again; without one it is not, and the next session of the same
identity finds what the last one left.
-/

namespace Pontus.Proxy

open Lib Protocol Pool
open LocalInv (keeps_of_kept keeps_of_proc keeps_of_released keeps_of_settle)
open List (forall_mem_singleton)

/-! ## Residue -/

def OwnedBy (i : Nat) (c : PoolConn) : Prop := ∀ r ∈ c.wire.residue, r.owner = i

instance (i : Nat) (c : PoolConn) : Decidable (OwnedBy i c) :=
  inferInstanceAs (Decidable (∀ r ∈ c.wire.residue, r.owner = i))

theorem ownedBy_of_residue (h : OwnedBy i c) (hresult : c'.wire.residue = c.wire.residue) :
    OwnedBy i c' := by
  unfold OwnedBy
  rw [hresult]
  exact h

theorem markBrokenIf_residue (c : PoolConn) (failed : Bool) :
    (c.markBrokenIf failed).wire.residue = c.wire.residue := by
  unfold PoolConn.markBrokenIf
  split <;> rfl

theorem roundTrip_residue {c c' : PoolConn} (h : c.roundTrip t = some c') :
    c'.wire.residue = c.wire.residue := by
  cases roundTripped h with
  | unwritten => rfl
  | exchanged _ _ hwire => rw [markBrokenIf_residue, hwire]

theorem roundTrips_residue {c c' : PoolConn} (h : c.roundTrips rounds = some c') :
    c'.wire.residue = c.wire.residue := by
  induction rounds generalizing c with
  | nil =>
    cases h
    rfl
  | cons _ _ ih =>
    obtain ⟨_, hd, hrest⟩ := bind_eq_some_iff.1 h
    rw [ih hrest, roundTrip_residue hd]

structure Added (i : Nat) (quiet : Prop) (c c' : PoolConn) : Prop where
  owned : OwnedBy i c → OwnedBy i c'
  nothing : quiet → c.wire.residue = [] → c'.wire.residue = []

theorem Replays.added {r : Replayed} (h : Replays i c items trips r) :
    Added i (trips = []) c r.conn := by
  have hleft {c c' : PoolConn} {t : RoundTrip} (htrip : c.roundTrip t = some c')
      (item : ReplayItem) (hc : OwnedBy i c) :
      OwnedBy i { c' with wire := c'.wire.leave i [item.effect] } := by
    intro x hx
    rcases mem_cons.1 hx with rfl | hx
    · rfl
    · exact ownedBy_of_residue hc (roundTrip_residue htrip) x hx
  induction h with
  | done => exact ⟨id, fun _ => id⟩
  | held _ _ ih => exact ih
  | written _ htrip _ _ ih =>
    exact ⟨fun hc => ih.owned (hleft htrip _ hc), nofun⟩
  | refused _ htrip => exact ⟨hleft htrip _, nofun⟩

theorem replaySession_added (h : replaySession i session c env = some r) :
    Added i (env.replays = []) c r.conn := by
  rcases replaySession_cases h with ⟨-, -, rfl⟩ | ⟨-, -, -, r', hr', rfl⟩
  · exact ⟨id, fun _ => id⟩
  · have hadded := hr'.added
    have hsame := markBrokenIf_residue r'.conn (!r'.succeeded)
    refine ⟨fun hc => ownedBy_of_residue (hadded.owned hc) hsame, ?_⟩
    intro hquiet hc
    rw [hsame]
    exact hadded.nothing hquiet hc

theorem Forwarded.added {cfg : Config} {i : Nat} {session : Session} {led : Option Led}
    {c : PoolConn} {env : ServeEnv} {a : Answered} (h : Forwarded cfg i session led c env a) :
    Added i (env.effects = []) c a.conn := by
  obtain ⟨_, hwire, hconn⟩ := h.exchange
  have hresult : a.conn.wire.residue =
      env.effects.map (⟨i, ·⟩) ++ c.wire.residue.filter (·.effect ∉ env.forgets) := by
    rw [hconn, markBrokenIf_residue, (exchange_eq hwire).2]
    rfl
  constructor
  · intro hc x hx
    rw [hresult] at hx
    rcases mem_append.1 hx with hx | hx
    · obtain ⟨_, -, rfl⟩ := mem_map.1 hx
      rfl
    · exact hc x (List.mem_of_mem_filter hx)
  · intro hquiet hc
    rw [hresult, hquiet, hc]
    rfl

theorem LSNRecorded.residue {a a' : Answered} (h : LSNRecorded a a' env) :
    a'.conn.wire.residue = a.conn.wire.residue := by
  rcases h.conn with hconn | ⟨-, hconn, -⟩
  · rw [hconn]
  · exact roundTrip_residue hconn

/-! ## The invariant -/

/-- What a session leaves behind is reset when the connection goes back between
transactions, or the connection does not go back. -/
def Config.confines (cfg : Config) : Bool := cfg.credentials || cfg.pooling == .poolSession

theorem confines_of_released {cfg : Config} (hcredentials : ¬cfg.credentials)
    (hreleased : cfg.pooling.shouldReleaseAt txState pinned) : cfg.confines = false := by
  unfold Config.confines
  rw [or_eq_false_iff, beq_eq_false_iff_ne]
  exact ⟨eq_false_iff.2 hcredentials, PoolingMode.ne_poolSession_of_shouldReleaseAt hreleased⟩

def Event.OwnState : Event → Prop
  | .handed i _ _ conn => OwnedBy i conn
  | _ => True

def isolationInv (cfg : Config) : LocalInv where
  conn c := c.place = .returned .idle → c.wire.residue = []
  proc _ := True
  held i _ c := OwnedBy i c ∧ (cfg.confines = false → c.wire.residue = [])
  event := Event.OwnState

/-- The engine hands out idle connections.  Without a reset between
transactions no request leaves anything behind; a session that ends in an error
gives back a connection with nothing on it, or a broken one; and the reads of a
reset hold whole messages. -/
def isolates (cfg : Config) (s : System) : Action → Bool
  | .act _ (.serve env) => cfg.confines || (env.replays.isEmpty && env.effects.isEmpty)
  | .act i .conclude =>
    (s.procs i).phase == .concluding false || (s.procs i).session.server.all fun c =>
      (s.conns c).wire.residue.isEmpty || (s.conns c).conn.broken
  | .act _ a => a.fromIdle s
  | .recycle _ _ discard => discard.orderly
  | .drain _ _ => true

theorem release_isolated {c : PoolConn}
    (h : c.wire.residue = [] ∨ c.conn.broken ∨ c.conn.dirty) (draining : Bool) :
    (c.release draining).place = .returned .idle → (c.release draining).wire.residue = [] := by
  intro hplace
  obtain ⟨hbroken, -, hdirty⟩ := release_idle hplace
  rcases h with h | h | h
  · exact h
  · rw [hbroken] at h
    cases h
  · rw [hdirty] at h
    cases h

section
variable {cfg : Config} {s : System} {i : Nat}

theorem taken_residue (hs : (isolationInv cfg).Holds s) (hsource : source.fromIdle s)
    (h : s.Taken i key source c conn) : conn.wire.residue = [] := by
  cases h with
  | dial => rfl
  | pooled => exact hs.conn _ (eq_of_beq hsource)

theorem openBackend_residue (h : openBackend cfg req conn env = (conn', outcome)) :
    conn'.wire.residue = conn.wire.residue := by
  cases backendOpened h with
  | reused => rfl
  | started =>
    unfold Wire.startup
    split <;> rfl

theorem isolated_of_nil (h : c.wire.residue = []) : (isolationInv cfg).held i p c := by
  refine ⟨?_, fun _ => h⟩
  intro _ hx
  rw [h] at hx
  cases hx

section
variable (hs : (isolationInv cfg).Holds s)
include hs

theorem isolation_moved
    (hserver : p.session.server = none ∨ p.session.server = (s.procs i).session.server)
    (hevents : ∀ e ∈ events, e.OwnState) :
    (isolationInv cfg).Keeps s i
      { proc := p, call := call, inFlight := inFlight, events := events } := by
  apply keeps_of_proc trivial _ hevents
  intro c hc
  rcases hserver with hnone | hsame
  · rw [hnone] at hc
    cases hc
  · rw [hsame] at hc
    exact hs.held i c hc

theorem Obtained.isolation {conn : PoolConn} (hphase : (s.procs i).phase.unserved)
    (hconn : conn.wire.residue = []) (h : Obtained s i led retry backend c conn env ch) :
    (isolationInv cfg).Keeps s i ch := by
  have hhanded : Event.OwnState (.handed i c (s.procs i).session.identity conn) :=
    (isolated_of_nil hconn : (isolationInv cfg).held i (s.procs i) conn).1
  cases h with
  | @installed conn' hinstalled =>
    have hresult : conn'.wire.residue = [] := by
      rcases hinstalled with rfl | ⟨hrounds, -⟩
      · exact hconn
      · rw [roundTrips_residue hrounds, hconn]
    refine keeps_of_kept (fun _ => hresult) trivial (isolated_of_nil hresult) ?_
    exact forall_mem_singleton.2 hhanded
  | behind hrounds =>
    have hresult := (roundTrips_residue hrounds).trans hconn
    refine keeps_of_released (release_isolated (.inl hresult) _) trivial
      (hs.owned.without i hphase) ?_
    exact forall_mem_cons.2 ⟨trivial, forall_mem_singleton.2 hhanded⟩

theorem isolation_opened {source : Source} (hsource : source.fromIdle s)
    (htaken : s.Taken i key source c conn)
    (hopen : openBackend cfg req conn env = (conn', .completed)) :
    (isolationInv cfg).Keeps s i (sessionOpened cfg s i (s.procs i) backend c conn') := by
  have hresult := (openBackend_residue hopen).trans (taken_residue hs hsource htaken)
  have hhanded : Event.OwnState (.handed i c (s.procs i).session.identity { conn' with
      conn := conn'.conn.markReady.setIdentity (s.procs i).session.identity }) := by
    intro _ hx
    rw [hresult] at hx
    cases hx
  unfold sessionOpened
  dsimp only
  split
  · refine keeps_of_released (release_isolated (.inr (.inr rfl)) _) trivial rfl ?_
    exact forall_mem_cons.2 ⟨trivial, forall_mem_singleton.2 hhanded⟩
  · exact keeps_of_kept (fun _ => hresult) trivial (isolated_of_nil hresult)
      (forall_mem_singleton.2 hhanded)

theorem isolation_answered (hallowed : isolates cfg s (.act i (.serve env)))
    (hserver : (s.procs i).session.server = some c)
    (hreplay : replaySession i (s.procs i).session (s.conns c) env = some replayed)
    (hforward : forwardReply cfg i (s.procs i).session led replayed.conn env = some a)
    (hlsn : recordLSN a env = some a') (hevents : ∀ e ∈ events, e.OwnState) :
    (isolationInv cfg).Keeps s i (settle cfg s i (s.procs i) led c a' events) := by
  have hforwarded := forwarded_of_forwardReply hforward
  have hrecorded := lsnRecorded_of_recordLSN hlsn
  have hheld := hs.held i c hserver
  have hreplays := replaySession_added hreplay
  have hanswer := hforwarded.added
  have howned : OwnedBy i a'.conn :=
    ownedBy_of_residue (hanswer.owned (hreplays.owned hheld.1)) hrecorded.residue
  have hnothing : cfg.confines = false → a'.conn.wire.residue = [] := by
    intro hconfines
    simp only [isolates, hconfines, Bool.false_or, and_eq_true, List.isEmpty_iff] at hallowed
    rw [hrecorded.residue]
    exact hanswer.nothing hallowed.2 (hreplays.nothing hallowed.1 (hheld.2 hconfines))
  have hplace : a'.conn.place = .held i :=
    (served_kept hreplay hforwarded hrecorded).place.trans (hs.owned.holds i c hserver)
  refine keeps_of_settle (fun _ _ => trivial) ?_ ⟨?_, fun _ _ => ⟨howned, hnothing⟩⟩ hevents
  · intro hreleased _ _ hconn
    refine ⟨release_isolated ?_ _, trivial⟩
    rw [hconn]
    by_cases hcredentials : cfg.credentials = true
    · rw [if_pos hcredentials]
      exact .inr (.inr rfl)
    · rw [if_neg hcredentials]
      exact .inl (hnothing (confines_of_released hcredentials hreleased))
  · intro hidle
    rw [hplace] at hidle
    cases hidle

/-- **Every move keeps the sessions apart.** -/
theorem isolation_keeps {a : Act} {ch : Change} (hallowed : isolates cfg s (.act i a))
    (h : Outcome cfg s i a ch) : (isolationInv cfg).Keeps s i ch := by
  have hnone : ∀ e ∈ ([] : List Event), e.OwnState := fun e he => nomatch he
  have hwithout := hs.owned.without i
  cases h with
  -- the connections are left alone
  | connectClosed | noBackend | concludedClosed => exact isolation_moved hs (.inl rfl) hnone
  | connected | request | refused | hit | fallsThrough | notPicked | noHome | finished
  | finishedLeader | concluded => exact isolation_moved hs (.inr rfl) hnone
  | opened _ hpicked htaken hopen =>
    exact isolation_opened hs (picked_fromIdle hallowed hpicked) htaken hopen
  | @wrongConnection env req attempts c backend source conn conn' p hphase hpicked htaken hopen
    hp =>
    refine keeps_of_released (release_isolated (.inr (.inl rfl)) _) trivial ?_
      (forall_mem_singleton.2 trivial)
    rcases hp with rfl | ⟨left, rfl⟩
    · rfl
    · exact hwithout (by rw [hphase]; rfl)
  | @openFailed _ _ _ _ _ _ _ _ _ hpicked htaken hopen =>
    have hsource := picked_fromIdle hallowed hpicked
    have hresult := (openBackend_residue hopen).trans (taken_residue hs hsource htaken)
    exact keeps_of_released (release_isolated (.inl hresult) _) trivial rfl
      (forall_mem_singleton.2 trivial)
  | left =>
    unfold leaveSession
    split
    · exact keeps_of_released (release_isolated (.inr (.inr rfl)) _) trivial rfl
        (forall_mem_singleton.2 trivial)
    · exact isolation_moved hs (.inl rfl) hnone
  | passed _ _ hsession =>
    rcases hsession with rfl | rfl <;> exact isolation_moved hs (.inr rfl) hnone
  | alone | follows | leads => exact isolation_moved hs (.inr rfl) (forall_mem_singleton.2 trivial)
  | shared =>
    refine isolation_moved hs (.inr rfl) ?_
    split
    · exact hnone
    · exact forall_mem_singleton.2 trivial
  | @usable _ _ _ _ _ _ _ _ hphase hpicked htaken _ hobtained =>
    have hsource := picked_fromIdle hallowed hpicked
    exact (obtained_cases hobtained).isolation hs (by rw [hphase]; rfl)
      (taken_residue hs hsource htaken)
  | @authenticated env led retry backend source c conn ch hphase hpicked htaken hready
    hobtained =>
    have hsource := picked_fromIdle hallowed hpicked
    have hresult := taken_residue hs hsource htaken
    refine (obtained_cases hobtained).isolation hs (by rw [hphase]; rfl) ?_
    exact hresult
  | @unusable _ _ _ _ _ _ _ wire hphase hpicked htaken hwire =>
    have hsource := picked_fromIdle hallowed hpicked
    have hresult : wire.residue = [] := by
      have htakenResidue := taken_residue hs hsource htaken
      rcases hwire with rfl | ⟨-, rfl⟩ <;> exact htakenResidue
    refine keeps_of_released (release_isolated (.inl ?_) _) trivial
      (hwithout (by rw [hphase]; rfl)) (forall_mem_singleton.2 trivial)
    exact hresult
  | @unusableHome source _ _ _ _ _ _ hphase _ htaken =>
    have hsource : source.fromIdle s := hallowed
    exact keeps_of_released
      (release_isolated (.inl (taken_residue hs hsource htaken)) _) trivial
      (hwithout (by rw [hphase]; rfl)) (forall_mem_singleton.2 trivial)
  | @usableHome source _ _ _ _ _ _ _ hphase _ htaken _ hobtained =>
    have hsource : source.fromIdle s := hallowed
    exact (obtained_cases hobtained).isolation hs (by rw [hphase]; rfl)
      (taken_residue hs hsource htaken)
  | @replayFailed _ _ _ c replayed _ hserver hreplay =>
    have hheld := hs.held i c hserver
    have hadded := replaySession_added hreplay
    have hplace : replayed.conn.place = .held i :=
      (replaySession_kept hreplay).place.trans (hs.owned.holds i c hserver)
    refine keeps_of_kept ?_ trivial ⟨hadded.owned hheld.1, ?_⟩
      (forall_mem_singleton.2 trivial)
    · intro hidle
      rw [hplace] at hidle
      cases hidle
    · intro hconfines
      simp only [isolates, hconfines, Bool.false_or, and_eq_true, List.isEmpty_iff] at hallowed
      exact hadded.nothing hallowed.1 (hheld.2 hconfines)
  | writeFailed =>
    refine keeps_of_released (release_isolated (.inr (.inl rfl)) _) trivial rfl ?_
    exact forall_mem_cons.2 ⟨trivial, forall_mem_singleton.2 trivial⟩
  | answered _ hserver hreplay _ _ hforward hlsn hreply =>
    exact isolation_answered hs hallowed hserver hreplay hforward hlsn
      (forall_served hreply trivial trivial trivial)
  | @concludedFailed _ hphase hserver =>
    refine keeps_of_released (release_isolated ?_ _) trivial rfl
      (forall_mem_singleton.2 trivial)
    simp only [isolates, hserver, hphase, all_some, or_eq_true, List.isEmpty_iff,
      beq_iff_eq] at hallowed
    rcases hallowed with hfail | hempty | hbroken
    · cases hfail
    · exact .inl hempty
    · exact .inr (.inl hbroken)
  | @concludedReleased c _ _ hserver hreleased hconn =>
    refine keeps_of_released (release_isolated ?_ _) trivial rfl
      (forall_mem_singleton.2 trivial)
    rw [hconn]
    by_cases hcredentials : cfg.credentials = true
    · rw [if_pos hcredentials]
      exact .inr (.inr rfl)
    · rw [if_neg hcredentials]
      exact .inl ((hs.held i c hserver).2 (confines_of_released hcredentials hreleased))

end

theorem isolation_init : (isolationInv cfg).Holds .init where
  owned := owned_init
  conn := fun _ _ => rfl
  proc := fun _ => trivial
  held := by
    nofun
  log := by
    intro _ he
    cases he

theorem recycled_isolated {c' : PoolConn} {rollback discard : RoundTrip}
    (hdiscard : discard.orderly) (h : Recycled c rollback discard c') :
    c'.place = .returned .idle → c'.wire.residue = [] := by
  intro hidle
  cases h with
  | rollbackFailed hrollback | discardFailed hrollback hdiscarded hwire => cases hidle
  | reset _ _ _ hexecuted hwire =>
    rcases hwire with ⟨-, herror⟩ | rfl
    · rw [(RoundTrip.of_execute hdiscard hexecuted).2.2] at herror
      cases herror
    · rfl

end

/-! ## The runs -/

/-- **A connection that is handed to a session carries nothing of another
one**, whatever the interleaving. -/
theorem handed_connection_carries_own_state (cfg : Config) {actions : List Action} {s : System}
    (hisolates : Along (step cfg) (fun s a => isolates cfg s a = true) .init actions)
    (hrun : run (step cfg) .init actions = some s) :
    ∀ i c identity conn, Event.handed i c identity conn ∈ s.log → OwnedBy i conn := by
  have hholds : (isolationInv cfg).Holds s := by
    refine LocalInv.Holds.run ?_ ?_ isolation_init hisolates hrun
    · intro s i _ _ hs hallowed houtcome
      exact isolation_keeps hs hallowed houtcome
    · intro _ c _ _ conn _ hallowed _ hrecycled
      exact recycled_isolated hallowed hrecycled
  intro _ _ _ _ hhanded
  exact hholds.log _ hhanded

def setServed : ServeEnv :=
  { ServeEnv.undisturbed (completed 'I'.toUInt8) 'I'.toUInt8 with
    effects := [.setting (ascii "a")] }

def setThenReset : List Action :=
  opens 0 appStartup (ascii "db") .dial ++ resets 0 ++
    sends 0 (simpleQuery (ascii "SET a = 1")) ++ acquires 0 (ascii "db") (.pooled 0) ++
    serves 0 setServed ++ resets 0 ++ opens 1 appStartup (ascii "db") (.pooled 0)

def Event.hands (i c : Nat) : Event → Bool
  | .handed session conn _ _ => session == i && conn == c
  | _ => false

theorem Event.handed_of_hands {e : Event} (h : e.hands i c) :
    ∃ identity conn, e = .handed i c identity conn := by
  cases e with
  | handed _ _ identity state =>
    rw [Event.hands, and_eq_true, beq_iff_eq, beq_iff_eq] at h
    exact ⟨identity, state, by rw [h.1, h.2]⟩
  | _ => cases h

theorem reset_connection_carries_own_state :
    ∃ s, run (step (Config.initial id true)) .init setThenReset = some s ∧
      ∃ identity conn, Event.handed 1 0 identity conn ∈ s.log ∧ OwnedBy 1 conn := by
  obtain ⟨hisolates, s, hrun, hhanded⟩ := exists_allowed_run (show
    Along (step (Config.initial id true))
      (fun s a => isolates (Config.initial id true) s a = true) .init setThenReset ∧
    (run (step (Config.initial id true)) .init setThenReset).any
      (fun s => s.log.any (Event.hands 1 0)) = true by decide +kernel)
  obtain ⟨_, he, hhands⟩ := any_eq_true.1 hhanded
  obtain ⟨identity, conn, rfl⟩ := Event.handed_of_hands hhands
  exact ⟨s, hrun, identity, conn, he,
    handed_connection_carries_own_state _ hisolates hrun 1 0 identity conn he⟩

def setThenShared : List Action :=
  opens 0 appStartup (ascii "db") .dial ++ opens 1 appStartup (ascii "db") .dial ++
    sends 0 (simpleQuery (ascii "SET a = 1")) ++ serves 0 setServed ++
    sends 1 (simpleQuery (ascii "SELECT 1")) ++
    serves 1 (.undisturbed (completed 'I'.toUInt8) 'I'.toUInt8) ++
    sends 1 (simpleQuery (ascii "SELECT 1")) ++ acquires 1 (ascii "db") (.pooled 0)

theorem set_carried_to_another_session :
    ∃ s, run (step (Config.initial id false)) .init setThenShared = some s ∧
      (s.procs 0).session.identity = (s.procs 1).session.identity ∧
      ∃ identity conn, Event.handed 1 0 identity conn ∈ s.log ∧
        ⟨0, .setting (ascii "a")⟩ ∈ conn.wire.residue := by
  obtain ⟨s, hrun, h⟩ := exists_run (show (run (step (Config.initial id false)) .init
    setThenShared).any (fun s =>
      (s.procs 0).session.identity == (s.procs 1).session.identity &&
      decide (Event.handed 1 0 (s.procs 1).session.identity (s.conns 0) ∈ s.log) &&
      decide (⟨0, .setting (ascii "a")⟩ ∈ (s.conns 0).wire.residue)) = true by decide +kernel)
  simp only [and_eq_true, beq_iff_eq, decide_eq_true_eq] at h
  obtain ⟨⟨hidentity, hhanded⟩, hresidue⟩ := h
  exact ⟨s, hrun, hidentity, _, _, hhanded, hresidue⟩

end Pontus.Proxy
