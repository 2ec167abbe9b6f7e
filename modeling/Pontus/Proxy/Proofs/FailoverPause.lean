import Pontus.Proxy.FailoverPause

/-!
# No writer sleeps through the end of a failover

A writer that has found the flag set holds the read lock until it is registered,
and the flag is cleared under the write lock.  So the flag is set whenever
somebody is registered, except between the store and the broadcast of
`resolveFailover`.
-/

namespace Pontus.Proxy

open Lib

namespace PauseAt

def reads : PauseAt → Bool
  | .looping => true
  | .paused => true
  | .waiting => true
  | .registered => true
  | .leaving => true
  | _ => false

def writes : PauseAt → Bool
  | .wakerLocked => true
  | .wakerDone => true
  | .resolving => true
  | .stored => true
  | .announced => true
  | _ => false

/-- It has found the flag set, under the read lock that it still holds. -/
def pausing : PauseAt → Bool
  | .paused => true
  | .waiting => true
  | .registered => true
  | _ => false

theorem reads_of_pausing {place : PauseAt} (h : place.pausing) : place.reads := by
  cases place <;> first | rfl | cases h

end PauseAt

namespace Pause

variable {ι : Type}

structure Sound (s : Pause ι) : Prop where
  lock : s.failoverMu.Agrees (fun i => (s.thread i).reads) fun i => (s.thread i).writes
  pausing : ∀ i, (s.thread i).pausing = true → s.inFailover = true
  heard : s.pauseCond ≠ [] → s.inFailover = true ∨ ∃ i, s.thread i = .stored

theorem Sound.start : (start : Pause ι).Sound where
  lock := RWLock.Agrees.free
  pausing _ h := by cases h
  heard h := absurd rfl h

variable [DecidableEq ι] {s s' : Pause ι} {i : ι} {place old : PauseAt}

theorem thread_goto_self : (s.goto i place).thread i = place := by simp [goto]

theorem thread_goto_of_ne (hj : j ≠ i) : (s.goto i place).thread j = s.thread j := by
  simp [goto, hj]

theorem pausing_goto (h : s.Sound) (hplace : place.pausing → s.inFailover) (j : ι)
    (hj : ((s.goto i place).thread j).pausing) : s.inFailover := by
  by_cases hji : j = i
  · rw [hji, thread_goto_self] at hj
    exact hplace hj
  · rw [thread_goto_of_ne hji] at hj
    exact h.pausing j hj

theorem heard_goto (h : s.Sound) (hthread : s.thread i = old) (hold : old ≠ .stored)
    (hcondition : s.pauseCond ≠ []) :
    s.inFailover ∨ ∃ j, (s.goto i place).thread j = .stored := by
  rcases h.heard hcondition with hflag | ⟨j, hj⟩
  · exact .inl hflag
  · refine .inr ⟨j, ?_⟩
    have hji : j ≠ i := by
      rintro rfl
      exact hold (hthread.symm.trans hj)
    rw [thread_goto_of_ne hji]
    exact hj

theorem apply_goto_of_eq (f : PauseAt → Bool) (hthread : s.thread i = old)
    (hplace : f place = f old)
    (j : ι) : f ((s.goto i place).thread j) = f (s.thread j) := by
  by_cases hji : j = i
  · rw [hji, thread_goto_self, hplace, hthread]
  · rw [thread_goto_of_ne hji]

theorem apply_goto_of_ne (f : PauseAt → Bool) (j : ι) (hji : j ≠ i) :
    f ((s.goto i place).thread j) = f (s.thread j) := by
  rw [thread_goto_of_ne hji]

def AgreesAt (s : Pause ι) (i : ι) (place : PauseAt) (l : RWLock ι) : Prop :=
  l.Agrees (fun j => ((s.goto i place).thread j).reads) fun j => ((s.goto i place).thread j).writes

omit [DecidableEq ι] in
theorem not_pausing (hpausing : place.pausing = false) :
    place.pausing → s.inFailover := by
  intro htrue
  rw [hpausing] at htrue
  cases htrue

section
variable (h : s.Sound) (hthread : s.thread i = old)
include h hthread

theorem Sound.agreesAt (hreads : place.reads = old.reads) (hwrites : place.writes = old.writes) :
    s.AgreesAt i place s.failoverMu :=
  h.lock.congr (apply_goto_of_eq PauseAt.reads hthread hreads)
    (apply_goto_of_eq PauseAt.writes hthread hwrites)

theorem Sound.agreesAt_rlock (hlock : s.failoverMu.rlock i = some l) (hreads : place.reads)
    (hwrites : place.writes = old.writes) : s.AgreesAt i place l := by
  have hself : ((s.goto i place).thread i).reads := by rw [thread_goto_self, hreads]
  exact (h.lock.rlock hlock (apply_goto_of_ne PauseAt.reads) hself).congr (fun _ => rfl)
    (apply_goto_of_eq PauseAt.writes hthread hwrites)

theorem Sound.agreesAt_runlock (hreads : place.reads = false)
    (hwrites : place.writes = old.writes) :
    s.AgreesAt i place (s.failoverMu.runlock i) := by
  have hself : ((s.goto i place).thread i).reads = false := by rw [thread_goto_self, hreads]
  exact (h.lock.runlock (apply_goto_of_ne PauseAt.reads) hself).congr (fun _ => rfl)
    (apply_goto_of_eq PauseAt.writes hthread hwrites)

theorem Sound.agreesAt_lock (hlock : s.failoverMu.lock i = some l)
    (hreads : place.reads = old.reads)
    (hwrites : place.writes) : s.AgreesAt i place l := by
  have hself : ((s.goto i place).thread i).writes := by rw [thread_goto_self, hwrites]
  exact (h.lock.lock hlock (apply_goto_of_ne PauseAt.writes) hself).congr
    (apply_goto_of_eq PauseAt.reads hthread hreads) (fun _ => rfl)

theorem Sound.agreesAt_unlock (hholds : old.writes) (hreads : place.reads = old.reads)
    (hwrites : place.writes = false) : s.AgreesAt i place s.failoverMu.unlock := by
  have hself : ((s.goto i place).thread i).writes = false := by rw [thread_goto_self, hwrites]
  have hholds' : (s.thread i).writes := by rw [hthread, hholds]
  exact (h.lock.unlock hholds' (apply_goto_of_ne PauseAt.writes) hself).congr
    (apply_goto_of_eq PauseAt.reads hthread hreads) (fun _ => rfl)

theorem Sound.goto (hreads : place.reads = old.reads) (hwrites : place.writes = old.writes)
    (hpausing : place.pausing → s.inFailover) (hold : old ≠ .stored) : (s.goto i place).Sound where
  lock := h.agreesAt hthread hreads hwrites
  pausing := pausing_goto h hpausing
  heard := heard_goto h hthread hold

theorem Sound.withLock {lock : Option (RWLock ι)}
    (hlock : ∀ l, lock = some l → s.AgreesAt i place l) (hpausing : place.pausing = false)
    (hold : old ≠ .stored) (hstep : s.withLock i lock place = some s') : s'.Sound := by
  rw [Pause.withLock, Option.map_eq_some_iff] at hstep
  obtain ⟨l, hl, rfl⟩ := hstep
  exact ⟨hlock l hl, pausing_goto h (not_pausing hpausing), heard_goto h hthread hold⟩

theorem Sound.rlock (hstep : s.withLock i (s.failoverMu.rlock i) place = some s')
    (hreads : place.reads) (hwrites : place.writes = old.writes) (hpausing : place.pausing = false)
    (hold : old ≠ .stored) : s'.Sound :=
  h.withLock hthread (fun _ hl => h.agreesAt_rlock hthread hl hreads hwrites) hpausing hold hstep

theorem Sound.runlock (hstep : s.withLock i (some (s.failoverMu.runlock i)) place = some s')
    (hreads : place.reads = false) (hwrites : place.writes = old.writes)
    (hpausing : place.pausing = false) (hold : old ≠ .stored) : s'.Sound := by
  refine h.withLock hthread ?_ hpausing hold hstep
  intro _ hl
  rw [← Option.some.inj hl]
  exact h.agreesAt_runlock hthread hreads hwrites

theorem Sound.acquire (hstep : s.withLock i (s.failoverMu.lock i) place = some s')
    (hreads : place.reads = old.reads) (hwrites : place.writes) (hpausing : place.pausing = false)
    (hold : old ≠ .stored) : s'.Sound :=
  h.withLock hthread (fun _ hl => h.agreesAt_lock hthread hl hreads hwrites) hpausing hold hstep

theorem Sound.unlock (hstep : s.withLock i (some s.failoverMu.unlock) .outside = some s')
    (hholds : old.writes) (hreads : old.reads = false) (hold : old ≠ .stored) : s'.Sound := by
  refine h.withLock hthread ?_ rfl hold hstep
  intro _ hl
  rw [← Option.some.inj hl]
  exact h.agreesAt_unlock hthread hholds hreads.symm rfl

theorem Sound.broadcast (hreads : place.reads = old.reads) (hwrites : place.writes = old.writes)
    (hpausing : place.pausing = false) :
    Sound { s.goto i place with pauseCond := [] } where
  lock := h.agreesAt hthread hreads hwrites
  pausing := pausing_goto h (not_pausing hpausing)
  heard hne := absurd rfl hne

end

theorem Sound.register (h : s.Sound) (hthread : s.thread i = .waiting) :
    Sound { s.goto i .registered with pauseCond := i :: s.pauseCond } := by
  have hflag : s.inFailover := by
    apply h.pausing i
    rw [hthread]
    rfl
  exact ⟨h.agreesAt hthread rfl rfl, pausing_goto h fun _ => hflag, fun _ => .inl hflag⟩

theorem Sound.store (h : s.Sound) (hthread : s.thread i = .resolving) :
    Sound { s.goto i .stored with inFailover := false } := by
  have hwrites : (s.thread i).writes := by
    rw [hthread]
    rfl
  refine ⟨h.agreesAt hthread rfl rfl, ?_, fun _ => .inr ⟨i, thread_goto_self⟩⟩
  intro j hj
  by_cases hji : j = i
  · rw [hji, thread_goto_self] at hj
    cases hj
  · rw [thread_goto_of_ne hji] at hj
    have hreads := PauseAt.reads_of_pausing hj
    rw [h.lock.not_reads hwrites j] at hreads
    cases hreads

theorem Sound.next (h : s.Sound) (hstep : s.next i = some s') : s'.Sound := by
  rw [Pause.next] at hstep
  cases hthread : s.thread i <;> simp only [hthread, reduceCtorEq, Option.some.injEq] at hstep
  case entering => exact h.rlock hthread hstep rfl rfl rfl (by decide)
  case looping =>
      rw [← hstep]
      cases hflag : s.inFailover with
      | true => exact h.goto hthread rfl rfl (fun _ => hflag) (by decide)
      | false => exact h.goto hthread rfl rfl (not_pausing rfl) (by decide)
  case paused =>
      have hflag : s.inFailover := by
        apply h.pausing i
        rw [hthread]
        rfl
      rw [← hstep]
      cases hcancelled : s.cancelled i with
      | true | false => exact h.goto hthread rfl rfl (fun _ => hflag) (by decide)
  case waiting =>
      rw [← hstep]
      exact h.register hthread
  case registered => exact h.runlock hthread hstep rfl rfl rfl (by decide)
  case asleep =>
      rw [Option.ite_none_left_eq_some, Option.some.injEq] at hstep
      rw [← hstep.2]
      exact h.goto hthread rfl rfl (not_pausing rfl) (by decide)
  case waking => exact h.rlock hthread hstep rfl rfl rfl (by decide)
  case leaving => exact h.runlock hthread hstep rfl rfl rfl (by decide)
  case waker => exact h.acquire hthread hstep rfl rfl rfl (by decide)
  case wakerLocked =>
      rw [← hstep]
      exact h.broadcast hthread rfl rfl rfl
  case wakerDone => exact h.unlock hthread hstep rfl rfl (by decide)
  case resolver => exact h.acquire hthread hstep rfl rfl rfl (by decide)
  case resolving =>
      rw [← hstep]
      exact h.store hthread
  case stored =>
      rw [← hstep]
      exact h.broadcast hthread rfl rfl rfl
  case announced => exact h.unlock hthread hstep rfl rfl (by decide)

theorem Sound.step (h : s.Sound) (hstep : s.step a = some s') : s'.Sound := by
  cases a with
  | waitWhilePaused i =>
    simp only [Pause.step, Option.ite_none_right_eq_some, Option.some.injEq] at hstep
    obtain ⟨hthread, rfl⟩ := hstep
    have hgoto : (s.goto i (if s.inFailover then .entering else .outside)).Sound := by
      cases s.inFailover with
      | true | false => exact h.goto hthread rfl rfl (not_pausing rfl) (by decide)
    exact ⟨hgoto.lock, hgoto.pausing, hgoto.heard⟩
  | wakePaused i | resolveFailover i =>
    simp only [Pause.step, Option.ite_none_right_eq_some, Option.some.injEq] at hstep
    rw [← hstep.2]
    exact h.goto hstep.1 rfl rfl (not_pausing rfl) (by decide)
  | triggerFailover =>
    cases hstep
    exact ⟨h.lock, fun _ _ => rfl, fun _ => .inl rfl⟩
  | cancel =>
    cases hstep
    exact ⟨h.lock, h.pausing, h.heard⟩
  | next => exact h.next hstep

end Pause

/-- **No writer sleeps through the end of a failover.** -/
theorem no_writer_left_asleep {ι : Type} [DecidableEq ι] {actions : List (PauseAction ι)}
    {s : Pause ι} (hrun : run Pause.step Pause.start actions = some s)
    (hover : s.inFailover = false) (hresolve : ∀ i, s.thread i ≠ .stored) :
    ∀ i, i ∉ s.pauseCond := by
  have hsound : s.Sound :=
    run_invariant (fun _ _ _ hs _ hstep => hs.step hstep) Pause.Sound.start
      (along_of_forall fun _ _ => trivial) hrun
  intro _ hi
  rcases hsound.heard (List.ne_nil_of_mem hi) with hflag | ⟨j, hj⟩
  · rw [hover] at hflag
    cases hflag
  · exact hresolve j hj

def resolvedWhileRegistering : List (PauseAction (Fin 3)) :=
  [.triggerFailover, .waitWhilePaused 0 false, .next 0, .next 0, .next 0, .resolveFailover 2,
    .waitWhilePaused 1 true, .next 1, .next 1, .next 0, .next 1, .next 1, .next 0, .next 2, .next 2,
    .next 2, .next 2]

theorem no_writer_left_asleep_at_the_window :
    ∃ s : Pause (Fin 3), run Pause.step Pause.start resolvedWhileRegistering = some s ∧
      s.thread 0 = .asleep ∧ ∀ i, i ∉ s.pauseCond := by
  have hmoves : (run Pause.step Pause.start resolvedWhileRegistering).any
      (fun s => decide (s.thread 0 = .asleep ∧ s.inFailover = false ∧
        ∀ i, s.thread i ≠ .stored)) = true := by
    decide +kernel
  obtain ⟨s, hrun, hs⟩ := exists_run hmoves
  obtain ⟨hasleep, hover, hresolve⟩ := of_decide_eq_true hs
  exact ⟨s, hrun, hasleep, no_writer_left_asleep hrun hover hresolve⟩

end Pontus.Proxy
