import Pontus.Health.CircuitBreaker

/-!
# An open breaker stays shut

A call that was let through before the breaker opened may end after it, and
records a success that closes it at once; and a breaker that is half open lets
every call through.  Apart from these two the breaker does what it is for.
-/

namespace Pontus.Health

open Lib CircuitBreaker

/-- The breaker keeps its promise at a move: no call that comes while it is shut
is let through, and behind the move at most one function runs as a probe of a
half open breaker. -/
structure StaysShut (s : Calls) (a : CallAction) : Prop where
  refused : a = .call → s.shut = true → (s.breaker.canCall s.clock).1 = false
  probe : ∀ s', s.step a = some s' → s'.breaker.state = .stateHalfOpen → s'.probing ≤ 1

/-- A call does not come while the breaker is to be shut and a success has been
recorded since it was last left open; nor, where it would be a probe, while
another one runs. -/
def arrivesInTurn (s : Calls) : CallAction → Prop
  | .call =>
    ¬(s.shut = true ∧ s.succeeded = true) ∧ (s.breaker.probes s.clock = true → s.probing = 0)
  | .finish _ _ => True
  | .wait _ => True

namespace CircuitBreaker

variable {b : CircuitBreaker} {now : Int}

theorem canCall_of_probes (h : b.probes now) :
    b.canCall now = (true, { b with state := .stateHalfOpen }) := by
  unfold probes at h
  unfold canCall
  cases hstate : b.state with
  | stateClosed => simp [hstate] at h
  | stateOpen =>
    rw [hstate] at h
    exact if_pos h
  | stateHalfOpen =>
    obtain ⟨_, _, _, _, _⟩ := b
    cases hstate
    rfl

theorem canCall_of_not_probes (h : b.probes now = false) :
    b.canCall now = (decide (b.state = .stateClosed), b) := by
  unfold probes at h
  unfold canCall
  cases hstate : b.state with
  | stateClosed => rfl
  | stateOpen =>
    simp only [hstate] at h
    simp [h]
  | stateHalfOpen => simp [hstate] at h

end CircuitBreaker

namespace Calls

variable {s s' : Calls}

theorem step_finish (hstep : s.step (.finish i ok) = some s') :
    i < s.calls.length ∧ s' = s.record i ok := by
  cases hcall : s.calls[i]? with
  | none => simp [step, hcall] at hstep
  | some call =>
    cases call with
    | running =>
      simp only [step, hcall, Option.some.injEq] at hstep
      exact ⟨(List.getElem?_eq_some_iff.1 hcall).1, hstep.symm⟩
    | refused | done => simp [step, hcall] at hstep

structure Recorded (s : Calls) : Prop where
  closed : s.opened = true → s.succeeded = true → s.breaker.state = .stateClosed
  opened : s.opened = true → s.succeeded = false → s.breaker.state = .stateOpen

theorem Recorded.start (threshold resetTimeout clock : Int) :
    (start threshold resetTimeout clock).Recorded where
  closed h := by cases h
  opened h := by cases h

theorem shut_iff : s.shut = true ↔ s.opened = true ∧ s.breaker.expired s.clock = false := by
  rw [shut, Bool.and_eq_true, Bool.not_eq_true']

theorem Recorded.not_probes (h : s.Recorded) (hshut : s.shut) :
    s.breaker.probes s.clock = false := by
  obtain ⟨hopened, hexpired⟩ := shut_iff.1 hshut
  unfold CircuitBreaker.probes
  cases hok : s.succeeded with
  | true => rw [h.closed hopened hok]
  | false =>
    rw [h.opened hopened hok]
    exact hexpired

theorem Recorded.canCall_of_shut (h : s.Recorded) (hshut : s.shut) :
    (s.breaker.canCall s.clock).1 = s.succeeded := by
  have hopened := (shut_iff.1 hshut).1
  rw [canCall_of_not_probes (h.not_probes hshut)]
  cases hok : s.succeeded with
  | true => simp [h.closed hopened hok]
  | false => simp [h.opened hopened hok]

theorem Recorded.arrive (h : s.Recorded) : s.arrive.Recorded := by
  have hbreaker (hopened : s.arrive.opened = true) : s.arrive.breaker = s.breaker := by
    rw [Calls.arrive, canCall_of_not_probes (h.not_probes hopened)]
  refine ⟨fun hopened hok => ?_, fun hopened hok => ?_⟩
  · rw [hbreaker hopened]
    exact h.closed (shut_iff.1 hopened).1 hok
  · rw [hbreaker hopened]
    exact h.opened (shut_iff.1 hopened).1 hok

/-- A failure opens the breaker or leaves it as it was. -/
theorem recordFailure_state (b : CircuitBreaker) (now : Int) :
    (b.recordFailure now).state = .stateOpen ∨ (b.recordFailure now).state = b.state := by
  unfold CircuitBreaker.recordFailure
  dsimp only
  split
  · exact .inl rfl
  · split
    · exact .inl rfl
    · exact .inr rfl

theorem Recorded.record (h : s.Recorded) (i : Nat) (ok : Bool) : (s.record i ok).Recorded := by
  cases ok with
  | true => exact ⟨fun _ _ => rfl, fun _ hok => by cases hok⟩
  | false =>
    by_cases hopen : (s.breaker.recordFailure s.clock).state = .stateOpen
    · refine ⟨fun _ hok => ?_, fun _ _ => hopen⟩
      simp [Calls.record, hopen] at hok
    · have hsame := (recordFailure_state s.breaker s.clock).resolve_left hopen
      simp only [Calls.record, Bool.false_eq_true, if_false, hopen, decide_false, Bool.or_false,
        ne_eq, not_false_eq_true, decide_true, Bool.and_true]
      exact ⟨fun hopened hok => hsame.trans (h.closed hopened hok),
        fun hopened hok => hsame.trans (h.opened hopened hok)⟩

theorem Recorded.step (h : s.Recorded) (hstep : s.step a = some s') : s'.Recorded := by
  cases a with
  | call =>
    cases hstep
    exact h.arrive
  | finish i ok =>
    obtain ⟨_, rfl⟩ := step_finish hstep
    exact h.record i ok
  | wait =>
    cases hstep
    exact ⟨h.closed, h.opened⟩

theorem probing_arrive (s : Calls) :
    s.arrive.probing = s.probing + (s.breaker.probes s.clock).toNat := by
  unfold arrive probing
  cases hprobes : s.breaker.probes s.clock with
  | true =>
    rw [canCall_of_probes hprobes]
    simp
  | false =>
    rw [canCall_of_not_probes hprobes]
    by_cases hclosed : s.breaker.state = .stateClosed <;> simp [hclosed]

theorem halfOpen_arrive (hprobes : s.breaker.probes s.clock) :
    s.arrive.breaker.state = .stateHalfOpen := by
  rw [arrive, canCall_of_probes hprobes]

theorem probing_finish (hstep : s.step (.finish i ok) = some s') : s'.probing ≤ s.probing := by
  obtain ⟨hi, rfl⟩ := step_finish hstep
  have hcalls : (s.record i ok).calls = s.calls.set i .done := by cases ok <;> rfl
  rw [probing, probing, hcalls, List.count_set hi]
  simp

structure Sound (s : Calls) : Prop extends s.Recorded where
  alone : s.probing ≤ 1

theorem Sound.staysShut_iff (h : s.Sound) (a : CallAction) : StaysShut s a ↔ arrivesInTurn s a := by
  cases a with
  | call =>
    have hprobe : (∀ s', s.step .call = some s' → s'.breaker.state = .stateHalfOpen →
        s'.probing ≤ 1) ↔ (s.breaker.probes s.clock = true → s.probing = 0) := by
      constructor
      · intro hall hprobes
        have hone := hall s.arrive rfl (halfOpen_arrive hprobes)
        rw [probing_arrive, hprobes, Bool.toNat_true] at hone
        omega
      · intro hzero s' hstep _
        rw [← Option.some.inj hstep, probing_arrive]
        cases hprobes : s.breaker.probes s.clock with
        | true => simp [hzero hprobes]
        | false => simpa using h.alone
    constructor
    · intro hkept
      refine ⟨?_, hprobe.1 hkept.probe⟩
      rintro ⟨hshut, hok⟩
      have href := hkept.refused rfl hshut
      rw [h.canCall_of_shut hshut, hok] at href
      cases href
    · rintro ⟨hfirst, hsecond⟩
      refine ⟨fun _ hshut => ?_, hprobe.2 hsecond⟩
      rw [h.canCall_of_shut hshut]
      exact Bool.eq_false_iff.2 fun hok => hfirst ⟨hshut, hok⟩
  | finish =>
    refine iff_of_true ⟨?_, ?_⟩ trivial
    · nofun
    · intro s' hstep _
      exact Nat.le_trans (probing_finish hstep) h.alone
  | wait =>
    refine iff_of_true ⟨?_, ?_⟩ trivial
    · nofun
    · intro _ hstep _
      rw [← Option.some.inj hstep]
      exact h.alone

theorem Sound.step (h : s.Sound) (hturn : arrivesInTurn s a) (hstep : s.step a = some s') :
    s'.Sound := by
  refine ⟨h.toRecorded.step hstep, ?_⟩
  cases a with
  | call =>
    rw [← Option.some.inj hstep, probing_arrive]
    cases hprobes : s.breaker.probes s.clock with
    | true => simp [hturn.2 hprobes]
    | false => simpa using h.alone
  | finish => exact Nat.le_trans (probing_finish hstep) h.alone
  | wait =>
    rw [← Option.some.inj hstep]
    exact h.alone

end Calls

/-- **An open breaker stays shut** exactly in the runs in which no call comes
within the timeout of the latest failure once a success was recorded since the
breaker was opened, and no probe comes while another one runs. -/
theorem breaker_stays_shut_iff (threshold resetTimeout clock : Int) (actions : List CallAction) :
    Along Calls.step StaysShut (.start threshold resetTimeout clock) actions ↔
      Along Calls.step arrivesInTurn (.start threshold resetTimeout clock) actions := by
  have hstart : (Calls.start threshold resetTimeout clock).Sound :=
    ⟨.start threshold resetTimeout clock, Nat.zero_le 1⟩
  constructor
  · refine Along.of_invariant (fun s a hs => (Calls.Sound.staysShut_iff hs a).1) ?_ hstart
    intro s a s' hs hkept hstep
    exact hs.step ((hs.staysShut_iff a).1 hkept) hstep
  · refine Along.of_invariant (fun s a hs => (Calls.Sound.staysShut_iff hs a).2) ?_ hstart
    intro _ _ _ hs hturn hstep
    exact hs.step hturn hstep

def opens : List CallAction :=
  List.replicate 7 .call ++ [.wait 1000000000, .finish 0 false, .finish 1 false, .finish 2 false,
    .finish 3 false, .finish 4 false]

def backendBreaker : Calls := .start 5 30000000000 0

/-- Calls that were let through before the breaker opened succeed and fail; or two
come after the timeout. -/
theorem shut_breaker_lets_calls_through :
    (∃ s, run Calls.step backendBreaker (opens ++ [.wait 1000000000, .finish 5 true,
        .wait 1000000000, .finish 6 false]) = some s ∧ s.shut = true ∧
      (s.breaker.canCall s.clock).1 = true) ∧
    ∃ s, run Calls.step backendBreaker (opens ++ [.wait 31000000000, .call, .call]) = some s ∧
      s.breaker.state = .stateHalfOpen ∧ s.probing = 2 := by
  have hfirst : (run Calls.step backendBreaker (opens ++ [.wait 1000000000, .finish 5 true,
      .wait 1000000000, .finish 6 false])).any (fun s =>
      decide (s.shut = true ∧ (s.breaker.canCall s.clock).1 = true)) = true := by
    decide +kernel
  have hsecond : (run Calls.step backendBreaker (opens ++ [.wait 31000000000, .call, .call])).any
      (fun s => decide (s.breaker.state = .stateHalfOpen ∧ s.probing = 2)) = true := by
    decide +kernel
  obtain ⟨s, hrun, hs⟩ := exists_run hfirst
  obtain ⟨s', hrun', hs'⟩ := exists_run hsecond
  exact ⟨⟨s, hrun, of_decide_eq_true hs⟩, ⟨s', hrun', of_decide_eq_true hs'⟩⟩

end Pontus.Health
