import Pontus.Protocol.Proofs.Carriers
import Pontus.Proxy.Proofs.Turns

/-!
# Pins that end with their transaction

A LOCK ties the session to its connection until the transaction ends.  The tie
is recorded when the request is written and lifted when a reply ends idle in a
session that was not idle before, so a LOCK that comes while the session is
idle is never followed by the change that would lift it.
-/

namespace Pontus.Protocol

open Lib PinReason

def locksTables (data : Bytes) : Bool :=
  data.head? == some 'Q'.toUInt8 && equalFold (nextToken (extractQueryBytes data)).1 "lock"

theorem equalFold_lock_of_pinReasonFor (h : pinReasonFor query = pinLock) :
    equalFold (nextToken query).1 "lock" := by
  unfold pinReasonFor at h
  dsimp only at h
  split at h
  · exact absurd h (by decide)
  split at h
  · assumption
  · -- no other verb gives this reason
    exfalso
    revert h
    repeat' split
    all_goals decide

section
variable (h : Unlocked state)
include h

theorem Unlocked.of_pinnedBy (hpin : state'.pinnedBy = state.pinnedBy) : Unlocked state' := by
  unfold Unlocked at h ⊢
  rw [hpin]
  exact h

theorem Unlocked.untracked (hpin : state'.pinnedBy = state.pinnedBy ||| pinUntrackedState) :
    Unlocked state' := by
  unfold Unlocked at h ⊢
  rw [hpin, BitVec.and_or_distrib_right, h]
  decide

theorem Unlocked.trackSessionState (hlocks : locksTables data = false) :
    Unlocked (trackSessionState state data) := by
  unfold Protocol.trackSessionState
  split
  · exact h
  rename_i hquery
  rw [not_or, not_not] at hquery
  dsimp only
  split
  · exact h
  · apply h.trackStatement
    intro hpin
    rw [locksTables, hquery.2, equalFold_lock_of_pinReasonFor hpin] at hlocks
    cases hlocks

theorem Unlocked.trackPreparedStatement (data : Bytes) :
    Unlocked (trackPreparedStatement state data) := by
  unfold Protocol.trackPreparedStatement
  repeat' split
  · exact h
  · exact h
  · exact h
  · exact h.untracked rfl
  · exact h.of_pinnedBy rfl

theorem Unlocked.forgetPreparedStatement (data : Bytes) :
    Unlocked (forgetPreparedStatement state data) := by
  unfold Protocol.forgetPreparedStatement
  repeat' split
  all_goals exact h

theorem Unlocked.trackRequest (hlocks : locksTables data = false) :
    Unlocked (trackRequest state data) :=
  ((h.trackSessionState hlocks).trackPreparedStatement data).forgetPreparedStatement data

end

theorem trackRequest_txState (state : SessionState) (data : Bytes) :
    (trackRequest state data).txState = state.txState := by
  have hforget (state : SessionState) :
      (forgetPreparedStatement state data).txState = state.txState := by
    unfold forgetPreparedStatement
    repeat' split
    all_goals rfl
  have hprepared (state : SessionState) :
      (trackPreparedStatement state data).txState = state.txState := by
    unfold trackPreparedStatement
    repeat' split
    all_goals rfl
  have hquery : (trackSessionState state data).txState = state.txState := by
    unfold trackSessionState
    dsimp only
    repeat' split
    · rfl
    · rfl
    · exact (trackStatement_frame state _).2
  rw [trackRequest, hforget, hprepared, hquery]

theorem unlocked_releaseTransactionPins (state : SessionState) :
    Unlocked (releaseTransactionPins state) := by
  unfold Unlocked releaseTransactionPins PinReason.clear
  rw [BitVec.and_assoc, BitVec.not_and_self]
  exact BitVec.and_zero

/-- The reply has ended: if the session is idle now, it was idle before or the
reasons were lifted. -/
theorem unlocked_settleTransaction (hidle : status = .stateIdle)
    (h : state.txState = .stateIdle → Unlocked state) :
    Unlocked (settleTransaction state status) := by
  unfold settleTransaction
  by_cases hbefore : state.txState = .stateIdle
  · rw [if_neg (fun hend => hend.2 hbefore)]
    exact (h hbefore).of_pinnedBy rfl
  · rw [if_pos ⟨hidle, hbefore⟩]
    exact (unlocked_releaseTransactionPins state).of_pinnedBy rfl

end Pontus.Protocol

namespace Pontus.Proxy

open Lib Protocol Pool

def System.locksInside (s : System) : Action → Bool
  | .act i (.serve _) =>
    !locksTables (s.procs i).session.data || (s.procs i).session.state.txState != .stateIdle
  | _ => true

/-- An idle session has no reason to keep its connection that a transaction's
end would lift. -/
def SessionState.PinsEnded (state : SessionState) : Prop :=
  state.txState = .stateIdle → Unlocked state

structure PinInv (s : System) : Prop where
  owned : Owned s
  ended : ∀ i, SessionState.PinsEnded (s.procs i).session.state

theorem unlocked_empty : Unlocked .empty := by
  unfold Unlocked
  decide

theorem pinInv_init : PinInv .init where
  owned := owned_init
  ended := fun _ _ => unlocked_empty

section
variable {cfg : Config} {s : System} {i : Nat} {a : Act} {ch : Change}

theorem pinsEnded_of_served {session : Session} {led : Option Led} {c : PoolConn}
    {env : ServeEnv} {a a' : Answered} (h : SessionState.PinsEnded session.state)
    (hlocks : locksTables session.data → session.state.txState ≠ .stateIdle)
    (hforwarded : Forwarded cfg i session led c env a) (hrecorded : LSNRecorded a a' env) :
    SessionState.PinsEnded a'.session.state := by
  have hsettled : SessionState.PinsEnded a.session.state := by
    rw [hforwarded.session]
    intro hidle
    apply unlocked_settleTransaction hidle
    intro hbefore
    rw [trackRequest_txState] at hbefore
    apply (h hbefore).trackRequest
    exact eq_false_iff.2 fun hlock => hlocks hlock hbefore
  rcases hrecorded.session with hsession | ⟨_, hsession, -⟩
  · rw [hsession]
    exact hsettled
  · rw [hsession]
    exact hsettled

/-- **One move.**  Only a served request changes what is recorded. -/
theorem Turn.pinsEnded (h : Turn cfg s i a ch)
    (hbefore : SessionState.PinsEnded (s.procs i).session.state)
    (hallowed : s.locksInside (.act i a)) : SessionState.PinsEnded ch.proc.session.state := by
  cases h with
  | named | closed | installed | replayFailed | concludedReleased => exact hbefore
  | quiet hcontinues | bypassed hcontinues =>
    rw [hcontinues.state]
    exact hbefore
  | opened =>
    unfold sessionOpened
    dsimp only
    split <;> exact hbefore
  | givenBack _ _ hproc => rcases hproc with rfl | ⟨_, rfl, -⟩ <;> exact hbefore
  | leaves _ _ _ hstate =>
    rw [hstate]
    exact hbefore
  | answered _ _ _ _ hforwarded hrecorded =>
    rw [settle_state]
    apply pinsEnded_of_served hbefore _ hforwarded hrecorded
    intro hlocks
    rw [System.locksInside, hlocks, Bool.not_true, Bool.false_or] at hallowed
    exact bne_iff_ne.1 hallowed

end

/-- **Every allowed move.** -/
theorem PinInv.step (hs : PinInv s) (hallowed : s.locksInside a) (h : step cfg s a = some s') :
    PinInv s' := by
  cases moved_of_step h with
  | @session i _ _ hout =>
    refine ⟨hs.owned.apply (legal_of_outcome hs.owned hout), ?_⟩
    intro j
    by_cases hj : j = i
    · subst hj
      rw [System.apply_procs, update_self]
      exact (turn_of_outcome hs.owned hout).pinsEnded (hs.ended j) hallowed
    · rw [System.apply_procs, update_of_ne hj]
      exact hs.ended j
  | reset hc hplace =>
    exact ⟨hs.owned.setConn _ (System.free_of_returned hc (by rw [hplace]; rfl)), hs.ended⟩
  | drained => exact ⟨⟨hs.owned.holds, hs.owned.without, hs.owned.fresh⟩, hs.ended⟩

/-- **Transaction-scoped pins end with the transaction.**  In every run that
locks tables only inside transactions, a session whose last reply ended idle
has no such pin, wherever the run stands. -/
theorem transaction_pins_ended (cfg : Config) {actions : List Action} {s : System}
    (hallowed : Along (step cfg) (fun s a => s.locksInside a = true) .init actions)
    (hrun : run (step cfg) .init actions = some s) (i : Nat)
    (hidle : (s.procs i).session.state.txState = .stateIdle) :
    (s.procs i).session.state.pinnedBy.has PinReason.transactionScoped = false := by
  have hinv : PinInv s := by
    apply run_invariant _ pinInv_init hallowed hrun
    intro _ _ _ ht ha hstep
    exact ht.step ha hstep
  have hunlocked : (s.procs i).session.state.pinnedBy &&& PinReason.transactionScoped = 0 :=
    hinv.ended i hidle
  rw [PinReason.has, hunlocked]
  rfl

def opensReset : List Action := opens 0 appStartup (ascii "primary") .dial ++ resets 0

/-- A statement goes to the session's connection and is answered in a state. -/
def locking (text : String) (status : UInt8) : List Action :=
  sends 0 (simpleQuery (ascii text)) ++ serves 0 (.undisturbed (completed status) status)

def beginsTransaction : List Action :=
  sends 0 (simpleQuery (ascii "BEGIN")) ++ acquires 0 (ascii "primary") (.pooled 0) ++
    serves 0 (.undisturbed (completed 'T'.toUInt8) 'T'.toUInt8)

def locksInTransaction : List Action :=
  opensReset ++ beginsTransaction ++ locking "LOCK TABLE t" 'T'.toUInt8 ++
    locking "COMMIT" 'I'.toUInt8

theorem pins_ended_by_commit :
    ∃ s, run (step (Config.initial id true)) .init locksInTransaction = some s ∧
      (s.procs 0).session.state.txState = .stateIdle ∧
      (s.procs 0).session.state.pinnedBy.has PinReason.transactionScoped = false := by
  have hboth : Along (step (Config.initial id true)) (fun s a => s.locksInside a = true) .init
        locksInTransaction ∧
      (run (step (Config.initial id true)) .init locksInTransaction).any (fun s =>
        (s.procs 0).session.state.txState == .stateIdle) = true := by
    decide +kernel
  obtain ⟨hallowed, s, hrun, hidle⟩ := exists_allowed_run hboth
  have hidle := eq_of_beq hidle
  exact ⟨s, hrun, hidle, transaction_pins_ended _ hallowed hrun 0 hidle⟩

def locksAndWrites : List Action :=
  opensReset ++ sends 0 (simpleQuery (ascii "LOCK TABLE t; DELETE FROM t")) ++
    acquires 0 (ascii "primary") (.pooled 0) ++
    [.act 0 (.serve (.undisturbed (completed 'I'.toUInt8) 'I'.toUInt8))]

theorem pin_outlives_transaction :
    ∃ s, run (step (Config.initial id true)) .init locksAndWrites = some s ∧
      (s.procs 0).session.state.txState = .stateIdle ∧
      Event.replied 0 none (Frame.encodeAll (completed 'I'.toUInt8)) ∈ s.log ∧
      (s.procs 0).session.state.pinnedBy.has PinReason.transactionScoped = true ∧
      (s.procs 0).session.server = some 0 := by
  have hrun : (run (step (Config.initial id true)) .init locksAndWrites).any (fun s =>
      (s.procs 0).session.state.txState == .stateIdle &&
        s.log.contains (Event.replied 0 none (Frame.encodeAll (completed 'I'.toUInt8))) &&
        (s.procs 0).session.state.pinnedBy.has PinReason.transactionScoped &&
        (s.procs 0).session.server == some 0) = true := by
    decide +kernel
  obtain ⟨s, hs, hfacts⟩ := exists_run hrun
  simp only [and_eq_true, beq_iff_eq, contains_iff_mem] at hfacts
  obtain ⟨⟨⟨hidle, hreplied⟩, hpin⟩, hserver⟩ := hfacts
  exact ⟨s, hs, hidle, hreplied, hpin, hserver⟩

end Pontus.Proxy
