import Pontus.Proxy.Proofs.Invariant
import Pontus.Proxy.Proofs.Response

/-!
# When a session is replayed

`ShouldReplay` is set when a connection is acquired and never cleared, so a
session that keeps its connection is replayed on it before every request.  As
long as there is nothing to replay then, replay messages are written where they
belong: on a connection just acquired, between transactions and batches.
-/

namespace Pontus.Proxy

open Lib Protocol Pool
open List (forall_mem_singleton)

variable {log events : List Event} {ch : Change} {p : Proc} {led : Option Led}

/-! ## The property -/

/-- Replay messages were written with nothing between them and the hand-over of
the connection: in the call that acquired it, before any client byte, outside
transactions and batches. -/
def AtCheckout (before : List Event) : Event → Prop
  | .replayed i c messages txState batchOpen =>
    messages = [] ∨
      (∃ identity state, before.find? (·.session == i) = some (.handed i c identity state)) ∧
      txState ≠ .stateInTransaction ∧ txState ≠ .stateError ∧ batchOpen = false
  | _ => True

def ReplaysAtCheckout (log : List Event) : Prop :=
  ∀ after e before, log = after ++ e :: before → AtCheckout before e

theorem replaysAtCheckout_nil : ReplaysAtCheckout [] := by
  intro _ _ _ h
  exact absurd h.symm (List.append_ne_nil_of_right_ne_nil _ (cons_ne_nil _ _))

theorem replaysAtCheckout_cons (he : AtCheckout log e) (hlog : ReplaysAtCheckout log) :
    ReplaysAtCheckout (e :: log) := by
  intro after e' before h
  cases after with
  | nil =>
    rw [nil_append, List.cons.injEq] at h
    rw [← h.1, ← h.2]
    exact he
  | cons _ after =>
    rw [cons_append, List.cons.injEq] at h
    exact hlog after e' before h.2

def Event.noReplay : Event → Bool
  | .replayed _ _ _ _ _ => false
  | _ => true

theorem replaysAtCheckout_other (he : e.noReplay) (hlog : ReplaysAtCheckout log) :
    ReplaysAtCheckout (e :: log) := by
  apply replaysAtCheckout_cons _ hlog
  cases e with
  | replayed => cases he
  | _ => trivial

theorem replaysAtCheckout_append (hevents : ∀ e ∈ events, e.noReplay)
    (hlog : ReplaysAtCheckout log) : ReplaysAtCheckout (events ++ log) := by
  induction events with
  | nil => exact hlog
  | cons e _ ih =>
    exact replaysAtCheckout_other (hevents e (by simp))
      (ih fun e' he' => hevents e' (mem_cons_of_mem _ he'))

/-! ## Nothing to replay -/

/-- A session whose settings and statements need not be written to a connection
with this record. -/
def nothingToReplay (session : Session) (conn : Conn) : Bool :=
  !session.shouldReplay ||
    (session.state.vars.keys.isEmpty && session.state.stmts.keys.all conn.hasStatement)

theorem Replays.held_silent (h : Replays i c items trips r)
    (hitems : ∀ item ∈ items, item.isHeld c.conn) : r.messages = [] := by
  induction h with
  | done => rfl
  | held _ _ ih => exact ih fun item hitem => hitems item (mem_cons_of_mem _ hitem)
  | written hmessage => exact nomatch hmessage.symm.trans (hitems _ (mem_cons_self ..))
  | refused hmessage => exact nomatch hmessage.symm.trans (hitems _ (mem_cons_self ..))

theorem replaySession_nothing (hnothing : nothingToReplay session c.conn)
    (h : replaySession i session c env = some r) : r.messages = [] := by
  rcases replaySession_cases h with ⟨-, -, rfl⟩ | ⟨hreplay, hvarOrder, hstmtOrder, _, hr', rfl⟩
  · rfl
  · rw [nothingToReplay, hreplay, Bool.not_true, Bool.false_or, and_eq_true,
      List.isEmpty_iff] at hnothing
    have hvars : env.varOrder = [] := by
      rw [hnothing.1] at hvarOrder
      exact hvarOrder.eq_nil
    apply hr'.held_silent
    intro _ hitem
    rw [replayItems, hvars, List.map_nil, nil_append] at hitem
    obtain ⟨name, hname, rfl⟩ := mem_map.1 hitem
    exact all_eq_true.1 hnothing.2 name (hstmtOrder.mem_iff.1 hname)

/-! ## The invariant -/

structure Proc.Settled (p : Proc) : Prop where
  unserved : p.session.server = none → p.phase.live = true → p.session.state.txState = .stateIdle
  acquired : p.phase.acquired = true → p.session.state.txState = .stateIdle
  idle : p.session.state.txState = .stateIdle → p.batchOpen = false

def HandedLast (log : List Event) (i c : Nat) : Prop :=
  ∃ identity state, log.find? (·.session == i) = some (.handed i c identity state)

structure CheckoutInv (s : System) : Prop where
  owned : Owned s
  proc : ∀ i, (s.procs i).Settled
  handed : ∀ i c, (s.procs i).phase.acquired = true → (s.procs i).session.server = some c →
    HandedLast s.log i c
  log : ReplaysAtCheckout s.log

structure CheckoutKeeps (s : System) (i : Nat) (ch : Change) : Prop where
  proc : ch.proc.Settled
  handed : ∀ c, ch.proc.phase.acquired = true → ch.proc.session.server = some c →
    HandedLast (ch.events ++ s.log) i c
  log : ReplaysAtCheckout (ch.events ++ s.log)

/-- On a connection held from an earlier call there is nothing to replay; and a
request that may leave the session idle, or that is answered without a backend,
leaves no batch open. -/
def replaysOnce (cfg : Config) (s : System) : Action → Bool
  | .act i (.serve _) =>
    ((s.procs i).phase.acquired || (s.procs i).session.server.all fun c =>
      nothingToReplay (s.procs i).session (s.conns c).conn) &&
    (!(responseEndFor (s.procs i).session.data).onReadyForQuery ||
      !batchOpenAfter (s.procs i).batchOpen (s.procs i).session.data)
  | .act i (.middleware env) =>
    match cacheHandle cfg.hash env.cacheEnabled (fun _ => env.entry) (s.procs i).session with
    | .hit _ => !batchOpenAfter (s.procs i).batchOpen (s.procs i).session.data
    | _ => true
  | .act i (.follow _) => !batchOpenAfter (s.procs i).batchOpen (s.procs i).session.data
  | _ => true

theorem CheckoutInv.apply (h : CheckoutInv s) (hl : ch.Legal s i) (hk : CheckoutKeeps s i ch) :
    CheckoutInv (s.apply i ch) where
  owned := h.owned.apply hl
  proc := by
    intro j
    rw [System.apply_procs]
    by_cases hj : j = i
    · rw [hj, update_self]
      exact hk.proc
    · rw [update_of_ne hj]
      exact h.proc j
  handed := by
    intro j c
    rw [System.apply_procs, System.apply_log]
    by_cases hj : j = i
    · rw [hj, update_self]
      exact hk.handed c
    · rw [update_of_ne hj]
      intro hacquired hserver
      obtain ⟨identity, state, hfind⟩ := h.handed j c hacquired hserver
      -- the entries of the move are all about session `i`
      have hskip : ch.events.find? (·.session == j) = none := by
        rw [List.find?_eq_none]
        intro e he hsession
        exact hj ((eq_of_beq hsession).symm.trans (hl.events e he))
      refine ⟨identity, state, ?_⟩
      rw [List.find?_append, hskip, Option.none_or]
      exact hfind
  log := by
    rw [System.apply_log]
    exact hk.log

/-! ### The moves -/

section
variable {cfg : Config} {s : System} {i : Nat}

theorem checkout_moved (hs : CheckoutInv s) (hproc : p.Settled)
    (hacquired : p.phase.acquired = false) (hevents : ∀ e ∈ events, e.noReplay) :
    CheckoutKeeps s i
      { proc := p, conn := conn, call := call, inFlight := inFlight, events := events } where
  proc := hproc
  handed := by
    intro _ h
    rw [hacquired] at h
    cases h
  log := replaysAtCheckout_append hevents hs.log

theorem Proc.Settled.close (h : p.Settled) : p.close.Settled where
  unserved := nofun
  acquired := nofun
  idle := h.idle

theorem Proc.Settled.of_state {p' : Proc} (h : p.Settled)
    (hstate : p'.session.state.txState = p.session.state.txState)
    (hbatch : p'.batchOpen = p.batchOpen)
    (hserver : p'.session.server = none → p'.phase.live →
      p.session.server = none ∧ p.phase.live) (hacquired : p'.phase.acquired = false) :
    p'.Settled where
  unserved := by
    intro hnone hlive
    obtain ⟨hnone, hlive⟩ := hserver hnone hlive
    rw [hstate]
    exact h.unserved hnone hlive
  acquired := by
    intro h
    rw [hacquired] at h
    cases h
  idle := by
    rw [hstate, hbatch]
    exact h.idle

theorem checkout_goes_on (hs : CheckoutInv s) {conn : Option (Nat × PoolConn)}
    {call : Option (Nat × InflightCall)} {inFlight : Option (Bytes × Option Nat)}
    (hlive : (s.procs i).phase.live)
    (hstate : p.session.state.txState = (s.procs i).session.state.txState)
    (hbatch : p.batchOpen = (s.procs i).batchOpen)
    (hserver : p.session.server = (s.procs i).session.server) (hacquired : p.phase.acquired = false)
    (hevents : ∀ e ∈ events, e.noReplay) :
    CheckoutKeeps s i
      { proc := p, conn := conn, call := call, inFlight := inFlight, events := events } := by
  refine checkout_moved hs ?_ hacquired hevents
  exact (hs.proc i).of_state hstate hbatch (fun hnone _ => ⟨hserver.symm.trans hnone, hlive⟩)
    hacquired

theorem Proc.Settled.of_answered {p' : Proc} (h : p.Settled)
    (hstate : p'.session.state.txState = p.session.state.txState) (hbatch : p'.batchOpen = false)
    (hserver : p'.session.server = p.session.server) (hlive : p.phase.live)
    (hacquired : p'.phase.acquired = false) : p'.Settled where
  unserved := by
    intro hnone _
    rw [hserver] at hnone
    rw [hstate]
    exact h.unserved hnone hlive
  acquired := by
    intro h
    rw [hacquired] at h
    cases h
  idle := fun _ => hbatch

theorem proceed_settled (hs : CheckoutInv s) (led : Option Led)
    (hlive : (s.procs i).phase.live) :
    ((s.procs i).proceed led).Settled ∧ ((s.procs i).proceed led).phase.acquired = false := by
  have hacquired : ((s.procs i).proceed led).phase.acquired = false := by
    unfold Proc.proceed
    split <;> rfl
  exact ⟨(hs.proc i).of_state rfl rfl (fun hnone _ => ⟨hnone, hlive⟩) hacquired, hacquired⟩

theorem Obtained.checkout (hs : CheckoutInv s) {retry : Bool} {backend : Bytes} {c : Nat}
    {conn : PoolConn} {env : AcquireEnv} (hphase : (s.procs i).phase.unserved)
    (hlive : (s.procs i).phase.live) (h : Obtained s i led retry backend c conn env ch) :
    CheckoutKeeps s i ch := by
  have hnone := hs.owned.without i hphase
  have hidle := (hs.proc i).unserved hnone hlive
  cases h with
  | installed =>
    constructor
    · refine ⟨fun _ _ => hidle, fun _ => hidle, (hs.proc i).idle⟩
    · intro _ _ hserver
      cases hserver
      refine ⟨(s.procs i).session.identity, conn, ?_⟩
      exact List.find?_cons_of_pos (beq_self_eq_true _)
    · apply replaysAtCheckout_append _ hs.log
      exact forall_mem_singleton.2 rfl
  | behind =>
    apply checkout_moved hs _ rfl
    · exact forall_mem_cons.2 ⟨rfl, forall_mem_singleton.2 rfl⟩
    · exact (hs.proc i).of_state rfl rfl (fun _ _ => ⟨hnone, hlive⟩) rfl

theorem served_atCheckout (hs : CheckoutInv s)
    (hallowed : replaysOnce cfg s (.act i (.serve env)))
    (hserver : (s.procs i).session.server = some c)
    (hreplay : replaySession i (s.procs i).session (s.conns c) env = some replayed) :
    ReplaysAtCheckout (.replayed i c replayed.messages (s.procs i).session.state.txState
      (s.procs i).batchOpen :: s.log) := by
  apply replaysAtCheckout_cons _ hs.log
  by_cases hacquired : (s.procs i).phase.acquired = true
  · have hidle := (hs.proc i).acquired hacquired
    refine .inr ⟨hs.handed i c hacquired hserver, ?_, ?_, (hs.proc i).idle hidle⟩
    · rw [hidle]
      exact nofun
    · rw [hidle]
      exact nofun
  · simp only [replaysOnce, hacquired, hserver, all_some, Bool.false_or, and_eq_true] at hallowed
    exact .inl (replaySession_nothing hallowed.1 hreplay)

theorem settle_settled (hallowed : replaysOnce cfg s (.act i (.serve env)))
    (hforwarded : Forwarded cfg i (s.procs i).session led c env a)
    (hrecorded : LSNRecorded a a' env) (server : Option Nat) (led' : Option Led) (failed : Bool)
    (hserver : server = none → a'.response.state = .stateIdle) :
    Proc.Settled ⟨{ a'.session with server := server }, .returning led' failed,
      batchOpenAfter (s.procs i).batchOpen (s.procs i).session.data⟩ := by
  have hstate := hrecorded.txState hforwarded
  constructor
  · intro hnone _
    rw [hstate]
    exact hserver hnone
  · nofun
  · intro hidle
    rw [hstate, hrecorded.response] at hidle
    have hready := (ready_of_idle hforwarded.response hidle).2
    simp only [replaysOnce, hready, Bool.not_true, Bool.false_or, and_eq_true,
      not_eq_true'] at hallowed
    exact hallowed.2

theorem checkout_answered (hs : CheckoutInv s)
    (hallowed : replaysOnce cfg s (.act i (.serve env)))
    (hserver : (s.procs i).session.server = some c)
    (hreplay : replaySession i (s.procs i).session (s.conns c) env = some replayed)
    (hforward : forwardReply cfg i (s.procs i).session led replayed.conn env = some a)
    (hlsn : recordLSN a env = some a') (hreply : reply = if a'.response.err.isNone then
      [Event.replied i (led.map Led.call) env.taken] else []) :
    CheckoutKeeps s i (settle cfg s i (s.procs i) led c a' (reply ++
      [.wrote i c (s.procs i).session.data, .replayed i c replayed.messages
        (s.procs i).session.state.txState (s.procs i).batchOpen])) := by
  have hforwarded := forwarded_of_forwardReply hforward
  have hrecorded := lsnRecorded_of_recordLSN hlsn
  have hreplays := served_atCheckout hs hallowed hserver hreplay
  have hlog : ReplaysAtCheckout ((reply ++ [.wrote i c (s.procs i).session.data,
      .replayed i c replayed.messages (s.procs i).session.state.txState
        (s.procs i).batchOpen]) ++ s.log) := by
    rw [append_assoc]
    apply replaysAtCheckout_append _ (replaysAtCheckout_other rfl hreplays)
    intro _ he
    rw [hreply] at he
    split at he
    · rw [mem_singleton.1 he]
      rfl
    · cases he
  unfold settle
  split
  · rename_i hreleased
    refine ⟨?_, nofun, replaysAtCheckout_other rfl hlog⟩
    exact settle_settled hallowed hforwarded hrecorded none led _
      (fun _ => PoolingMode.idle_of_shouldReleaseAt hreleased)
  · refine ⟨?_, nofun, hlog⟩
    have hkept : a'.session.server = some c := by
      rw [hrecorded.server, hforwarded.session]
      exact hserver
    exact settle_settled hallowed hforwarded hrecorded a'.session.server led _
      (fun hnone => nomatch hkept.symm.trans hnone)

/-- **Every move keeps replays at checkout.** -/
theorem checkout_keeps (hs : CheckoutInv s) {a : Act}
    (hallowed : replaysOnce cfg s (.act i a)) (h : Outcome cfg s i a ch) :
    CheckoutKeeps s i ch := by
  have hproc := hs.proc i
  have hnone : ∀ e ∈ ([] : List Event), e.noReplay = true := fun e he => nomatch he
  have hwithout := hs.owned.without i
  cases h with
  | connectClosed | noBackend | concludedClosed => exact checkout_moved hs hproc.close rfl hnone
  | connected hphase hvalid hread hrequest | notPicked hphase | concluded hphase =>
    exact checkout_goes_on hs (by rw [hphase]; rfl) rfl rfl rfl rfl hnone
  | opened hphase =>
    have hserver := hwithout (by rw [hphase]; rfl)
    have hlive : (s.procs i).phase.live := by
      rw [hphase]
      rfl
    unfold sessionOpened
    dsimp only
    split
    · refine checkout_moved hs ?_ rfl ?_
      · exact hproc.of_state rfl rfl (fun _ _ => ⟨hserver, hlive⟩) rfl
      · exact forall_mem_cons.2 ⟨rfl, forall_mem_singleton.2 rfl⟩
    · refine checkout_moved hs ?_ rfl (forall_mem_singleton.2 rfl)
      exact hproc.of_state rfl rfl (fun _ _ => ⟨hserver, hlive⟩) rfl
  | wrongConnection hphase _ _ _ hp =>
    rcases hp with rfl | ⟨left, rfl⟩
    · exact checkout_moved hs hproc.close rfl (forall_mem_singleton.2 rfl)
    · exact checkout_goes_on hs (by rw [hphase]; rfl) rfl rfl rfl rfl (forall_mem_singleton.2 rfl)
  | openFailed | concludedFailed =>
    exact checkout_moved hs hproc.close rfl (forall_mem_singleton.2 rfl)
  | left =>
    unfold leaveSession
    split
    · exact checkout_moved hs hproc.close rfl (forall_mem_singleton.2 rfl)
    · exact checkout_moved hs hproc.close rfl hnone
  | request hphase hnext =>
    have hlive : (s.procs i).phase.live := by
      rw [hphase]
      rfl
    rcases hnext with rfl | rfl <;> exact checkout_goes_on hs hlive rfl rfl rfl rfl hnone
  | refused hphase href | noHome hphase =>
    exact checkout_moved hs (hproc.of_state rfl rfl nofun rfl) rfl hnone
  | hit hphase _ hhit =>
    simp only [replaysOnce, hhit, not_eq_true'] at hallowed
    refine checkout_moved hs ?_ rfl hnone
    exact hproc.of_answered rfl hallowed rfl (by rw [hphase]; rfl) rfl
  | passed hphase _ hsession =>
    have hlive : (s.procs i).phase.live := by
      rw [hphase]
      rfl
    rcases hsession with rfl | rfl <;> exact checkout_goes_on hs hlive rfl rfl rfl rfl hnone
  | alone hphase =>
    obtain ⟨hsettled, hacquired⟩ := proceed_settled hs none (by rw [hphase]; rfl)
    exact checkout_moved hs hsettled hacquired (forall_mem_singleton.2 rfl)
  | follows hphase hcollapse | unusable hphase hpicked htaken hwire =>
    exact checkout_goes_on hs (by rw [hphase]; rfl) rfl rfl rfl rfl (forall_mem_singleton.2 rfl)
  | leads hphase =>
    obtain ⟨hsettled, hacquired⟩ := proceed_settled hs (some ⟨s.nextCall, _⟩) (by rw [hphase]; rfl)
    exact checkout_moved hs hsettled hacquired (forall_mem_singleton.2 rfl)
  | shared hphase =>
    simp only [replaysOnce, not_eq_true'] at hallowed
    refine checkout_moved hs ?_ rfl ?_
    · exact hproc.of_answered rfl hallowed rfl (by rw [hphase]; rfl) rfl
    · split
      · exact hnone
      · exact forall_mem_singleton.2 rfl
  | fallsThrough hphase =>
    obtain ⟨hsettled, hacquired⟩ := proceed_settled hs none (by rw [hphase]; rfl)
    exact checkout_moved hs hsettled hacquired hnone
  | usable hphase hpicked htaken hready hobtained
  | authenticated hphase hpicked htaken hready hobtained
  | usableHome hphase _ _ _ hobtained =>
    exact (obtained_cases hobtained).checkout hs (by rw [hphase]; rfl) (by rw [hphase]; rfl)
  | unusableHome =>
    exact checkout_moved hs (hproc.of_state rfl rfl nofun rfl) rfl
      (forall_mem_singleton.2 rfl)
  | replayFailed _ hserver hreplay =>
    refine ⟨hproc.of_state rfl rfl nofun rfl, nofun, ?_⟩
    exact served_atCheckout hs hallowed hserver hreplay
  | writeFailed _ hserver hreplay =>
    refine ⟨hproc.of_state rfl rfl nofun rfl, nofun, ?_⟩
    exact replaysAtCheckout_other rfl (served_atCheckout hs hallowed hserver hreplay)
  | answered _ hserver hreplay _ _ hforward hlsn hreply =>
    exact checkout_answered hs hallowed hserver hreplay hforward hlsn hreply
  | @finished failed hphase | @finishedLeader led failed hphase =>
    refine checkout_moved hs ?_ rfl hnone
    exact hproc.of_state rfl rfl (fun hserver hlive => ⟨hserver, by rw [hphase]; exact hlive⟩) rfl
  | concludedReleased _ _ hreleased =>
    refine checkout_moved hs ?_ rfl (forall_mem_singleton.2 rfl)
    refine ⟨fun _ _ => ?_, nofun, hproc.idle⟩
    exact PoolingMode.idle_of_shouldReleaseAt hreleased

theorem checkout_init : CheckoutInv .init where
  owned := owned_init
  proc := fun _ => ⟨fun _ _ => rfl, fun _ => rfl, fun _ => rfl⟩
  handed := nofun
  log := replaysAtCheckout_nil

theorem checkout_step (hs : CheckoutInv s) (hallowed : replaysOnce cfg s a)
    (hstep : step cfg s a = some s') : CheckoutInv s' := by
  cases moved_of_step hstep with
  | session hout =>
    exact hs.apply (legal_of_outcome hs.owned hout) (checkout_keeps hs hallowed hout)
  | reset hc hplace =>
    exact ⟨hs.owned.setConn _ (System.free_of_returned hc (by rw [hplace]; rfl)), hs.proc,
      hs.handed, hs.log⟩
  | drained =>
    exact ⟨⟨hs.owned.holds, hs.owned.without, hs.owned.fresh⟩, hs.proc, hs.handed, hs.log⟩

end

/-! ## The runs -/

/-- **Replay messages are written once per checkout, at a clean boundary.** -/
theorem replays_written_at_checkout (cfg : Config) {actions : List Action} {s : System}
    (honce : Along (step cfg) (fun s a => replaysOnce cfg s a = true) .init actions)
    (hrun : run (step cfg) .init actions = some s) : ReplaysAtCheckout s.log := by
  have hinv : CheckoutInv s := by
    apply run_invariant _ checkout_init honce hrun
    intro _ _ _ hs hallowed hstep
    exact checkout_step hs hallowed hstep
  exact hinv.log

def replayServed (before after : UInt8) : ServeEnv :=
  { ServeEnv.undisturbed (completed after) after with
    varOrder := [ascii "a"]
    replays := [⟨none, askedOnce (completed before)⟩] }

def setsAndReturns : List Action :=
  opens 0 appStartup (ascii "db") .dial ++ sends 0 (simpleQuery (ascii "SET a = 1")) ++
    serves 0 (.undisturbed (completed 'I'.toUInt8) 'I'.toUInt8)

def replaysOnAcquired : List Action :=
  setsAndReturns ++ sends 0 (simpleQuery (ascii "SELECT 1")) ++
    acquires 0 (ascii "db") (.pooled 0) ++ serves 0 (replayServed 'I'.toUInt8 'I'.toUInt8)

theorem setting_replayed_at_checkout :
    ∃ s, run (step (Config.initial id false)) .init replaysOnAcquired = some s ∧
      Event.replayed 0 0 [simpleQuery (ascii "SET a = 1")] .stateIdle false ∈ s.log ∧
      ReplaysAtCheckout s.log := by
  obtain ⟨honce, s, hrun, hreplayed⟩ := exists_allowed_run (show
    Along (step (Config.initial id false))
      (fun s a => replaysOnce (Config.initial id false) s a = true) .init replaysOnAcquired ∧
    (run (step (Config.initial id false)) .init replaysOnAcquired).any (fun s =>
      decide (Event.replayed 0 0 [simpleQuery (ascii "SET a = 1")] .stateIdle false ∈ s.log)) =
        true by decide +kernel)
  exact ⟨s, hrun, of_decide_eq_true hreplayed, replays_written_at_checkout _ honce hrun⟩

def replaysInTransaction : List Action :=
  setsAndReturns ++ sends 0 (simpleQuery (ascii "BEGIN")) ++
    acquires 0 (ascii "db") (.pooled 0) ++ serves 0 (replayServed 'I'.toUInt8 'T'.toUInt8) ++
    sends 0 (simpleQuery (ascii "SELECT 1")) ++
    serves 0 (replayServed 'T'.toUInt8 'T'.toUInt8)

theorem setting_replayed_in_transaction :
    ∃ s, run (step (Config.initial id false)) .init replaysInTransaction = some s ∧
      Event.replayed 0 0 [simpleQuery (ascii "SET a = 1")] .stateInTransaction false ∈ s.log ∧
      ¬ReplaysAtCheckout s.log := by
  obtain ⟨s, hrun, hreplayed⟩ := exists_run (show (run (step (Config.initial id false)) .init
    replaysInTransaction).any (fun s => decide (Event.replayed 0 0
      [simpleQuery (ascii "SET a = 1")] .stateInTransaction false ∈ s.log)) = true by
      decide +kernel)
  have hreplayed := of_decide_eq_true hreplayed
  refine ⟨s, hrun, hreplayed, ?_⟩
  intro hlog
  obtain ⟨after, before, hsplit⟩ := List.append_of_mem hreplayed
  rcases hlog after _ before hsplit with hempty | ⟨-, hstate, -, -⟩
  · cases hempty
  · exact hstate rfl

end Pontus.Proxy
