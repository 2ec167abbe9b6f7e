import Pontus.Orchestration.Ownership

/-!
# One owner per host

The predicate that `claimOrchestration` installs is never taken back.  A process
that has given the lock back in `StopAll` therefore goes on as an owner while it
drains, and one that claims the lock meanwhile becomes a second one.  Where a
lock is only claimed when no such process is left, there is one owner at a time.
-/

namespace Pontus.Orchestration

open Lib

variable {ι : Type}

def claimedWhenDrained (s : Host ι) : OwnershipAction ι → Prop
  | .claim p _ => ∀ q, q ≠ p → (s.process q).stage = .stopping → (s.process q).owner.owned = false
  | _ => True

instance [DecidableEq ι] [Fintype ι] (s : Host ι) (a : OwnershipAction ι) :
    Decidable (claimedWhenDrained s a) := by
  cases a <;> unfold claimedWhenDrained <;> infer_instance

theorem claimOrchestration_cases [DecidableEq ι] (locks : Bytes → Option ι) (p : ι)
    (habs : isAbs path) (opened : Bool) :
    claimOrchestration locks p (some path) opened = (locks, none, .never) ∨
      (locks path = none ∧ claimOrchestration locks p (some path) opened =
        (Function.update locks path (some p), some path, .always)) := by
  simp only [claimOrchestration, acquireOrchestration, habs]
  cases opened with
  | false => exact .inl rfl
  | true =>
    cases hlock : locks path with
    | none => exact .inr ⟨rfl, rfl⟩
    | some => exact .inl rfl

def Process.claims (x : Process) : Bool :=
  match x.stage with
  | .absent => false
  | .claiming => false
  | .claimed owner => owner.owned
  | .running => x.owner.owned
  | .stopping => x.owner.owned

structure Sole (path : Bytes) (s : Host ι) : Prop where
  held : ∀ p file, (s.process p).lock = some file → s.locks file = some p
  backed : ∀ p, (s.process p).claims = true → (s.process p).stage ≠ .stopping →
    (s.process p).lock = some path
  sole : ∀ p q, (s.process p).claims = true → (s.process q).claims = true → p = q
  managed : ∀ p, 0 < (s.process p).managers →
    (s.process p).stage = .running ∨ (s.process p).stage = .stopping

namespace Sole

variable {path : Bytes} {s : Host ι}

theorem idle : Sole path (Host.idle : Host ι) where
  held p file hfile := by cases hfile
  backed p hclaims := by cases hclaims
  sole p q hclaims := by cases hclaims
  managed p hmanagers := by cases hmanagers

theorem claims_of_orchestrates (h : Sole path s) (hp : s.Orchestrates p) :
    (s.process p).claims := by
  rw [Process.claims]
  rcases h.managed p hp.1 with hstage | hstage
  · rw [hstage]
    exact hp.2
  · rw [hstage]
    exact hp.2

theorem others (h : Sole path s) (hp : (s.process p).claims) (hq : q ≠ p) :
    (s.process q).claims = false := by
  cases hclaims : (s.process q).claims with
  | false => rfl
  | true => exact absurd (h.sole q p hclaims hp) hq

theorem release_others (h : Sole path s) (p : ι) (hq : q ≠ p)
    (hlock : (s.process q).lock = some file) :
    release s.locks (s.process p).lock file = some q := by
  have hfile := h.held q file hlock
  cases hp : (s.process p).lock with
  | none =>
    exact hfile
  | some mine =>
    have hmine := h.held p mine hp
    have hne : file ≠ mine := by
      intro heq
      rw [heq, hmine, some_inj] at hfile
      exact hq hfile.symm
    rw [release, update_of_ne hne]
    exact hfile

theorem others_of_free (h : Sole path s) (hfree : s.locks path = none)
    (hdrained : (s.process q).stage = .stopping → (s.process q).owner.owned = false) :
    (s.process q).claims = false := by
  cases hclaims : (s.process q).claims with
  | false => rfl
  | true =>
    by_cases hstage : (s.process q).stage = .stopping
    · rw [Process.claims, hstage] at hclaims
      rw [hdrained hstage] at hclaims
      cases hclaims
    · have hheld := h.held q path (h.backed q hclaims hstage)
      rw [hfree] at hheld
      cases hheld

section
variable [DecidableEq ι]

variable (h : Sole path s)
include h

theorem put (hothers : ∀ q file, q ≠ p → (s.process q).lock = some file → locks file = some q)
    (hheld : ∀ file, x.lock = some file → locks file = some p)
    (hbacked : x.claims → x.stage ≠ .stopping → x.lock = some path)
    (hsole : x.claims → ∀ q, q ≠ p → (s.process q).claims = false)
    (hmanagers : 0 < x.managers → x.stage = .running ∨ x.stage = .stopping) :
    Sole path (s.put locks p x) := by
  have hsame := s.process_put_self locks p x
  have hother : ∀ q, q ≠ p → (s.put locks p x).process q = s.process q := by
    intro q hq
    exact s.process_put_of_ne locks hq x
  refine ⟨?_, ?_, ?_, ?_⟩
  · intro q file hfile
    by_cases hq : q = p
    · rw [hq, hsame] at hfile
      rw [hq]
      exact hheld file hfile
    · rw [hother q hq] at hfile
      exact hothers q file hq hfile
  · intro q
    by_cases hq : q = p
    · rw [hq, hsame]
      exact hbacked
    · rw [hother q hq]
      exact h.backed q
  · intro q r hclaimsq hclaimsr
    by_cases hq : q = p
    · by_cases hr : r = p
      · rw [hq, hr]
      · rw [hq, hsame] at hclaimsq
        rw [hother r hr, hsole hclaimsq r hr] at hclaimsr
        cases hclaimsr
    · rw [hother q hq] at hclaimsq
      by_cases hr : r = p
      · rw [hr, hsame] at hclaimsr
        rw [hsole hclaimsr q hq] at hclaimsq
        cases hclaimsq
      · rw [hother r hr] at hclaimsr
        exact h.sole q r hclaimsq hclaimsr
  · intro q
    by_cases hq : q = p
    · rw [hq, hsame]
      exact hmanagers
    · rw [hother q hq]
      exact h.managed q

theorem quiet (hlock : x.lock = none) (hclaims : x.claims = false)
    (hmanagers : 0 < x.managers → x.stage = .running ∨ x.stage = .stopping) :
    Sole path (s.put s.locks p x) := by
  refine h.put ?_ ?_ ?_ ?_ hmanagers
  · intro q file _ hfile
    exact h.held q file hfile
  · intro _ hfile
    rw [hlock] at hfile
    cases hfile
  · intro hx
    rw [hclaims] at hx
    cases hx
  · intro hx
    rw [hclaims] at hx
    cases hx

theorem claim (habs : isAbs path) (hstage : (s.process p).stage = .claiming)
    (hallowed : claimedWhenDrained s (.claim p opened)) :
    Sole path (s.put (claimOrchestration s.locks p (some path) opened).1 p
      { s.process p with
        stage := .claimed (claimOrchestration s.locks p (some path) opened).2.2
        lock := (claimOrchestration s.locks p (some path) opened).2.1 }) := by
  have hmanagers : ¬ 0 < (s.process p).managers := by
    intro hmanagers
    rcases h.managed p hmanagers with hrunning | hstop
    · rw [hstage] at hrunning
      cases hrunning
    · rw [hstage] at hstop
      cases hstop
  rcases claimOrchestration_cases s.locks p habs opened with hclaim | ⟨hfree, hclaim⟩
  · rw [hclaim]
    exact h.quiet rfl rfl fun hpos => absurd hpos hmanagers
  · rw [hclaim]
    refine h.put ?_ ?_ ?_ ?_ ?_
    · intro q file _ hlock
      have hfile := h.held q file hlock
      have hne : file ≠ path := by
        intro heq
        rw [heq, hfree] at hfile
        cases hfile
      change Function.update s.locks path (some p) file = some q
      rw [update_of_ne hne]
      exact hfile
    · intro _ hfile
      rw [some_inj] at hfile
      rw [← hfile]
      exact update_self path (some p) s.locks
    · intro _ _
      rfl
    · intro _ q hq
      exact h.others_of_free hfree (hallowed q hq)
    · intro hpos
      exact absurd hpos hmanagers

theorem keep (hlock : x.lock = (s.process p).lock) (hclaims : x.claims → (s.process p).claims)
    (hstage : x.claims → x.stage ≠ .stopping → (s.process p).stage ≠ .stopping)
    (hmanagers : 0 < x.managers → x.stage = .running ∨ x.stage = .stopping) :
    Sole path (s.put s.locks p x) := by
  refine h.put ?_ ?_ ?_ ?_ hmanagers
  · intro q file _ hfile
    exact h.held q file hfile
  · intro file hfile
    rw [hlock] at hfile
    exact h.held p file hfile
  · intro hx hstop
    rw [hlock]
    exact h.backed p (hclaims hx) (hstage hx hstop)
  · intro hx _ hq
    exact h.others (hclaims hx) hq

theorem leave (hlock : x.lock = none) (hclaims : x.claims → (s.process p).claims)
    (hstage : x.claims → x.stage = .stopping)
    (hmanagers : 0 < x.managers → x.stage = .running ∨ x.stage = .stopping) :
    Sole path (s.put (release s.locks (s.process p).lock) p x) := by
  refine h.put ?_ ?_ ?_ ?_ hmanagers
  · intro q file hq hfile
    exact h.release_others p hq hfile
  · intro _ hfile
    rw [hlock] at hfile
    cases hfile
  · intro hx hstop
    exact absurd (hstage hx) hstop
  · intro hx _ hq
    exact h.others (hclaims hx) hq

theorem step (habs : isAbs path) (hallowed : claimedWhenDrained s a)
    (hstep : s.step (fun _ => some path) a = some s') : Sole path s' := by
  cases a with
  | start =>
    simp only [Host.step, ite_none_right_eq_some, some_inj] at hstep
    rw [← hstep.2]
    refine h.quiet rfl rfl ?_
    nofun
  | claim =>
    simp only [Host.step, ite_none_right_eq_some, some_inj] at hstep
    rw [← hstep.2]
    exact h.claim habs hstep.1 hallowed
  | setOwnership =>
    rw [Host.step] at hstep
    split at hstep
    · rename_i owner hstage
      rw [some_inj] at hstep
      rw [← hstep]
      refine h.keep rfl ?_ ?_ ?_
      · intro hx
        rw [Process.claims, hstage]
        exact hx
      · intro _ _
        rw [hstage]
        exact Stage.noConfusion
      · intro _
        exact .inl rfl
    · cases hstep
  | startManager =>
    simp only [Host.step, ite_none_right_eq_some, some_inj] at hstep
    rw [← hstep.2]
    exact h.keep rfl (fun hx => hx) (fun _ hx => hx) (fun _ => hstep.1)
  | tick =>
    simp only [Host.step, ite_none_right_eq_some, some_inj] at hstep
    rw [← hstep.2]
    exact ⟨h.held, h.backed, h.sole, h.managed⟩
  | stopManager p =>
    simp only [Host.step, ite_none_right_eq_some, some_inj] at hstep
    rw [← hstep.2]
    exact h.keep rfl (fun hx => hx) (fun _ hx => hx) (fun _ => h.managed p hstep.1)
  | stopAll =>
    simp only [Host.step, ite_none_right_eq_some, some_inj] at hstep
    rw [← hstep.2]
    refine h.leave rfl ?_ (fun _ => rfl) (fun _ => .inr rfl)
    intro hx
    rw [Process.claims, hstep.1]
    exact hx
  | exit =>
    simp only [Host.step, some_inj] at hstep
    rw [← hstep]
    refine h.leave rfl ?_ ?_ ?_
    · nofun
    · nofun
    · nofun

end

end Sole

/-- **One owner at a time.** -/
theorem one_owner [DecidableEq ι] {path : Bytes} (habs : isAbs path = true)
    {actions : List (OwnershipAction ι)}
    {s : Host ι}
    (hallowed : Along (Host.step fun _ => some path) claimedWhenDrained Host.idle actions)
    (hrun : run (Host.step fun _ => some path) Host.idle actions = some s) :
    ∀ p q, s.Orchestrates p → s.Orchestrates q → p = q := by
  have h : Sole path s :=
    run_invariant (fun _ _ _ hs ha hstep => hs.step habs ha hstep) Sole.idle hallowed hrun
  intro p q hp hq
  exact h.sole p q (h.claims_of_orchestrates hp) (h.claims_of_orchestrates hq)

def lockPath : Bytes := ascii "/var/lib/pontus/orchestration.lock"

def registered (p : Bool) : List (OwnershipAction Bool) :=
  [.start p, .claim p true, .setOwnership p, .startManager p]

def takeover : List (OwnershipAction Bool) :=
  registered false ++ registered true ++
    [.tick true, .tick false, .stopAll false, .exit true, .exit false] ++ registered true

theorem one_owner_of_takeover :
    ∃ s : Host Bool, run (Host.step fun _ => some lockPath) Host.idle takeover = some s ∧
      (s.Orchestrates true ∧ s.monitored = [false]) ∧
      ∀ p q, s.Orchestrates p → s.Orchestrates q → p = q := by
  have hmoves : Along (Host.step fun _ => some lockPath) claimedWhenDrained Host.idle takeover ∧
      (run (Host.step fun _ => some lockPath) Host.idle takeover).any
        (fun s => decide (s.Orchestrates true ∧ s.monitored = [false])) = true := by
    decide +kernel
  obtain ⟨hallowed, s, hrun, hs⟩ := exists_allowed_run hmoves
  exact ⟨s, hrun, of_decide_eq_true hs, one_owner (by decide +kernel) hallowed hrun⟩

def upgrade : List (OwnershipAction Bool) :=
  registered false ++ [.stopAll false] ++ registered true ++ [.tick false, .tick true]

/-- **Two owners.**  The first process has given the lock back and drains, the
second has claimed it, and a tick of each goes on to `monitor`. -/
theorem two_owners_while_draining :
    isAbs lockPath = true ∧
    ∃ s : Host Bool, run (Host.step fun _ => some lockPath) Host.idle upgrade = some s ∧
      s.Orchestrates false ∧ s.Orchestrates true ∧ s.monitored = [true, false] := by
  have hmoves : (run (Host.step fun _ => some lockPath) Host.idle upgrade).any
      (fun s => decide (s.Orchestrates false ∧ s.Orchestrates true ∧
        s.monitored = [true, false])) = true := by
    decide +kernel
  obtain ⟨s, hrun, hs⟩ := exists_run hmoves
  exact ⟨by decide +kernel, s, hrun, of_decide_eq_true hs⟩

end Pontus.Orchestration
