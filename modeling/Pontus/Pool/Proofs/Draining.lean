import Mathlib.Data.Fintype.Basic
import Pontus.Pool.Draining

/-!
# Draining ends

The flag is cleared by a `Release` that finds no connection out.  So it has to
be set while one is out, or while a `Release` has still to look: a flag that is
set later stays, since a draining backend hands out nothing that could be given
back.
-/

namespace Pontus.Pool

open Lib

variable {ι κ : Type}

/-- A `Release` that has counted its connection off, and has still to look at
the count or to clear the flag. -/
def DrainAt.leaving : DrainAt κ → Bool
  | .released _ | .returning _ | .returned | .lastCheck | .ending => true
  | _ => false

/-- Neither a role change nor a `Release` is in progress. -/
def DrainAt.quiet : DrainAt κ → Bool
  | .outside | .entering | .acquiring | .counting _ => true
  | _ => false

theorem DrainAt.not_leaving_of_quiet {place : DrainAt κ} (h : place.quiet) :
    place.leaving = false := by
  cases place <;> first | rfl | cases h

def DrainAt.givenBack : DrainAt κ → Option κ
  | .releasing c => some c
  | _ => none

def givesBackOut (s : Drain ι κ) : DrainAction ι κ → Prop
  | .next i => ∀ c ∈ (s.thread i).givenBack, c ∈ s.held
  | _ => True

/-- Besides, the flag is set while a connection is out or a `Release` has still
to look. -/
def drainsInUse (s : Drain ι κ) : DrainAction ι κ → Prop
  | .next i =>
    (∀ c ∈ (s.thread i).givenBack, c ∈ s.held) ∧
      (s.thread i = .demoted → 0 < s.checkedOut ∨ ∃ j, (s.thread j).leaving = true)
  | _ => True

instance [Fintype ι] [DecidableEq κ] (s : Drain ι κ) : ∀ a, Decidable (drainsInUse s a)
  | .next _ => inferInstanceAs (Decidable (_ ∧ (_ → _)))
  | .acquireFor _ => isTrue trivial
  | .release _ _ => isTrue trivial
  | .setRole _ _ => isTrue trivial
  | .acquired _ _ => isTrue trivial
  | .recycled _ _ => isTrue trivial

namespace Drain

structure Sound (s : Drain ι κ) : Prop where
  count : s.checkedOut = s.held.length
  ends : s.draining = true → s.held = [] → ∃ j, (s.thread j).leaving = true

theorem Sound.start (role : Role) (idle : List κ) : (start role idle : Drain ι κ).Sound where
  count := rfl
  ends hdraining := by cases hdraining

variable [DecidableEq ι] {s s' : Drain ι κ} {i : ι} {place old : DrainAt κ}

theorem thread_goto_self : (s.goto i place).thread i = place := by simp [goto]

theorem thread_goto_of_ne (hj : j ≠ i) : (s.goto i place).thread j = s.thread j := by
  simp [goto, hj]

theorem exists_leaving_goto (hthread : s.thread i = old)
    (hleaving : old.leaving → place.leaving)
    (h : ∃ j, (s.thread j).leaving) : ∃ j, ((s.goto i place).thread j).leaving := by
  obtain ⟨j, hj⟩ := h
  refine ⟨j, ?_⟩
  by_cases hji : j = i
  · rw [hji, hthread] at hj
    rw [hji, thread_goto_self]
    exact hleaving hj
  · rw [thread_goto_of_ne hji]
    exact hj

/-- A step that changes neither the flag nor the count, by a call that is not
the one to clear the flag or still is. -/
theorem Sound.goto (h : s.Sound) (hthread : s.thread i = old)
    (hleaving : old.leaving → place.leaving) : (s.goto i place).Sound where
  count := h.count
  ends hdraining hheld := exists_leaving_goto hthread hleaving (h.ends hdraining hheld)

omit [DecidableEq ι] in
theorem Sound.of_eq (h : s.Sound) (hcount : s'.checkedOut = s.checkedOut) (hheld : s'.held = s.held)
    (hdraining : s'.draining = s.draining) (hthread : s'.thread = s.thread) : s'.Sound := by
  constructor
  · rw [hcount, hheld]
    exact h.count
  · rw [hdraining, hheld, hthread]
    exact h.ends

theorem Sound.counted (h : s.Sound) (i : ι) (c : κ) :
    Sound { s.goto i .outside with checkedOut := s.checkedOut + 1, held := c :: s.held } where
  count := by simp [h.count]
  ends _ hheld := by cases hheld

theorem Sound.countedOff [DecidableEq κ] (h : s.Sound) (i : ι) (hc : c ∈ s.held) :
    Sound { s.goto i (.released c) with
      checkedOut := s.checkedOut - 1
      held := s.held.erase c } where
  count := by
    have hpos := List.length_pos_of_mem hc
    simp only [List.length_erase_of_mem hc, h.count]
    omega
  ends _ _ := ⟨i, congrArg DrainAt.leaving thread_goto_self⟩

/-- A call that ends because there is nothing to clear, or because a connection
is out. -/
theorem Sound.leave (h : s.Sound) (hnothing : s.draining = false ∨ s.checkedOut ≠ 0) :
    (s.goto i .outside).Sound where
  count := h.count
  ends hdraining hheld := by
    change s.draining = true at hdraining
    change s.held = [] at hheld
    rcases hnothing with hoff | hout
    · rw [hoff] at hdraining
      cases hdraining
    · rw [h.count, hheld] at hout
      exact absurd rfl hout

variable [DecidableEq κ]

theorem Sound.next (h : s.Sound) (huse : drainsInUse s (.next i)) (hstep : s.next i = some s') :
    s'.Sound := by
  rw [Drain.next] at hstep
  obtain ⟨hout, huse⟩ := huse
  cases hthread : s.thread i <;> simp only [hthread, reduceCtorEq, some_inj] at hstep hout huse
  case entering =>
      rw [← hstep]
      exact h.goto hthread (by rintro ⟨⟩)
  case counting c =>
      rw [← hstep]
      exact h.counted i c
  case releasing c =>
      rw [← hstep]
      exact h.countedOff i (hout c rfl)
  case released c =>
      rw [← hstep]
      have hgoto : (s.goto i (.returning c)).Sound := h.goto hthread fun _ => rfl
      cases s.draining with
      | true => exact hgoto.of_eq rfl rfl rfl rfl
      | false => exact hgoto
  case returned =>
      rw [← hstep]
      cases hdraining : s.draining with
      | true => exact h.goto hthread fun _ => rfl
      | false => exact h.leave (.inl hdraining)
  case lastCheck =>
      rw [← hstep]
      by_cases hout : s.checkedOut = 0
      · rw [if_pos hout]
        exact h.goto hthread fun _ => rfl
      · rw [if_neg hout]
        exact h.leave (.inr hout)
  case ending =>
      rw [← hstep]
      exact ⟨h.count, nofun⟩
  case setting role =>
      rw [← hstep]
      exact (h.goto hthread (by rintro ⟨⟩)).of_eq rfl rfl rfl rfl
  case demoted =>
      rw [← hstep]
      refine ⟨h.count, fun _ hheld => ?_⟩
      change s.held = [] at hheld
      rcases huse trivial with hcount | hleaving
      · rw [h.count, hheld] at hcount
        exact absurd hcount (by simp)
      · exact exists_leaving_goto hthread (by rintro ⟨⟩) hleaving
  case clearing =>
      rw [← hstep]
      exact (h.goto hthread (by rintro ⟨⟩)).of_eq rfl rfl rfl rfl

theorem Sound.step (h : s.Sound) {a : DrainAction ι κ} (huse : drainsInUse s a)
    (hstep : s.step a = some s') : s'.Sound := by
  cases a with
  | acquireFor i | setRole i role =>
    simp only [Drain.step, ite_none_right_eq_some, some_inj] at hstep
    rw [← hstep.2]
    exact h.goto hstep.1 (by rintro ⟨⟩)
  | release _ conn =>
    simp only [Drain.step, ite_none_right_eq_some] at hstep
    cases conn with
    | none =>
      rw [← Option.some.inj hstep.2]
      exact h
    | some =>
      rw [← Option.some.inj hstep.2]
      exact h.goto hstep.1 (by rintro ⟨⟩)
  | acquired _ answer =>
    simp only [Drain.step, ite_none_right_eq_some] at hstep
    cases answer with
    | none =>
      rw [← Option.some.inj hstep.2]
      exact h.goto hstep.1 (by rintro ⟨⟩)
    | some =>
      rw [← Option.some.inj hstep.2]
      exact (h.goto hstep.1 (by rintro ⟨⟩)).of_eq rfl rfl rfl rfl
  | recycled i =>
    cases hthread : s.thread i <;>
      simp only [Drain.step, hthread, reduceCtorEq, some_inj] at hstep
    rw [← hstep]
    exact (h.goto hthread fun _ => rfl).of_eq rfl rfl rfl rfl
  | next => exact h.next huse hstep

end Drain

variable [DecidableEq ι] [DecidableEq κ]

/-- **Draining can end.**  A backend that drains while nobody changes its role
or gives a connection back has one out. -/
theorem draining_has_one_out {role : Role} {idle : List κ} {actions : List (DrainAction ι κ)}
    {s : Drain ι κ} (huse : Along Drain.step drainsInUse (.start role idle) actions)
    (hrun : run Drain.step (.start role idle) actions = some s)
    (hquiet : ∀ i, (s.thread i).quiet = true) (hdraining : s.draining = true) :
    s.held ≠ [] ∧ s.checkedOut = s.held.length := by
  have hsound : s.Sound :=
    run_invariant (fun _ _ _ hs hallowed hstep => hs.step hallowed hstep) (.start role idle)
      huse hrun
  refine ⟨?_, hsound.count⟩
  intro hheld
  obtain ⟨i, hi⟩ := hsound.ends hdraining hheld
  rw [DrainAt.not_leaving_of_quiet (hquiet i)] at hi
  cases hi

def demotedInUse : List (DrainAction (Fin 2) Nat) :=
  [.acquireFor 0, .next 0, .acquired 0 (some 7), .next 0, .setRole 1 .replica, .next 1, .next 1,
    .next 1, .acquireFor 0, .next 0]

theorem draining_has_one_out_demoted :
    ∃ s : Drain (Fin 2) Nat, run Drain.step (.start .primary [7]) demotedInUse = some s ∧
      s.draining = true ∧ s.held ≠ [] ∧ s.checkedOut = s.held.length := by
  have hmoves : Along Drain.step drainsInUse (.start .primary [7]) demotedInUse ∧
      (run Drain.step (.start .primary [7]) demotedInUse).any (fun s =>
        decide ((∀ i, (s.thread i).quiet = true) ∧ s.draining = true)) = true := by
    decide +kernel
  obtain ⟨huse, s, hrun, hs⟩ := exists_allowed_run hmoves
  obtain ⟨hquiet, hdraining⟩ := of_decide_eq_true hs
  exact ⟨s, hrun, hdraining, draining_has_one_out huse hrun hquiet hdraining⟩

/-- A call that cannot come to a connection, nor to clearing the flag. -/
def DrainAt.barred : DrainAt κ → Bool
  | .outside | .entering | .releasing _ | .setting _ | .demoted | .clearing => true
  | _ => false

structure Drain.Stuck (s : Drain ι κ) : Prop where
  draining : s.draining = true
  held : s.held = []
  barred : ∀ i, (s.thread i).barred = true

namespace Drain

variable {s s' : Drain ι κ}

omit [DecidableEq κ] in
theorem barred_goto (h : ∀ i, (s.thread i).barred) (i : ι) (hplace : place.barred)
    (j : ι) : ((s.goto i place).thread j).barred := by
  by_cases hji : j = i
  · rw [hji, thread_goto_self, hplace]
  · rw [thread_goto_of_ne hji]
    exact h j

omit [DecidableEq κ] in
theorem Stuck.goto (h : s.Stuck) (i : ι) (hplace : place.barred) : (s.goto i place).Stuck :=
  ⟨h.draining, h.held, barred_goto h.barred i hplace⟩

theorem Stuck.next (h : s.Stuck) (hout : givesBackOut s (.next i)) (hstep : s.next i = some s') :
    s'.Stuck := by
  have hbarred := h.barred i
  rw [Drain.next] at hstep
  rw [givesBackOut] at hout
  cases hthread : s.thread i <;> rw [hthread] at hbarred hout <;>
    simp only [hthread, reduceCtorEq, some_inj] at hstep <;>
    try cases hbarred
  case entering =>
      rw [← hstep, h.draining]
      exact h.goto i rfl
  case releasing c =>
      have hc := hout c rfl
      rw [h.held] at hc
      cases hc
  case setting role =>
      rw [← hstep]
      refine ⟨h.draining, h.held, barred_goto h.barred i ?_⟩
      split_ifs <;> rfl
  case demoted =>
      rw [← hstep]
      exact ⟨rfl, h.held, barred_goto h.barred i rfl⟩
  case clearing =>
      rw [← hstep]
      exact ⟨h.draining, h.held, barred_goto h.barred i rfl⟩

theorem Stuck.step (h : s.Stuck) {a : DrainAction ι κ} (hout : givesBackOut s a)
    (hstep : s.step a = some s') : s'.Stuck := by
  cases a with
  | acquireFor i | setRole i role =>
    simp only [Drain.step, ite_none_right_eq_some, some_inj] at hstep
    rw [← hstep.2]
    exact h.goto i rfl
  | release i conn =>
    simp only [Drain.step, ite_none_right_eq_some] at hstep
    cases conn with
    | none =>
      rw [← Option.some.inj hstep.2]
      exact h
    | some =>
      rw [← Option.some.inj hstep.2]
      exact h.goto i rfl
  | acquired i =>
    simp only [Drain.step, ite_none_right_eq_some] at hstep
    have hbarred := h.barred i
    rw [hstep.1] at hbarred
    cases hbarred
  | recycled i =>
    have hbarred := h.barred i
    cases hthread : s.thread i <;> rw [hthread] at hbarred <;>
      simp only [Drain.step, hthread, reduceCtorEq] at hstep
    cases hbarred
  | next => exact h.next hout hstep

theorem Stuck.run {actions : List (DrainAction ι κ)} (h : s.Stuck)
    (hout : Along Drain.step givesBackOut s actions)
    (hrun : Lib.run Drain.step s actions = some s') : s'.Stuck :=
  run_invariant (fun _ _ _ hs hallowed hstep => hs.step hallowed hstep) h hout hrun

end Drain

theorem demoted_for_ever :
    (∃ s : Drain (Fin 2) Nat, run Drain.step (.start .primary [7])
        [.setRole 1 .replica, .next 1, .next 1, .next 1] = some s ∧
      (∀ i, (s.thread i).quiet = true) ∧ s.Stuck) ∧
    ∃ s : Drain (Fin 2) Nat, run Drain.step (.start .primary [7])
        [.acquireFor 0, .next 0, .acquired 0 (some 7), .next 0, .setRole 1 .replica, .next 1,
          .release 0 (some 7), .next 0, .next 0, .recycled 0 true, .next 0, .next 1, .next 1] =
        some s ∧
      (∀ i, (s.thread i).quiet = true) ∧ s.Stuck := by
  have hfirst : (run Drain.step (.start .primary [7] : Drain (Fin 2) Nat)
      [.setRole 1 .replica, .next 1, .next 1, .next 1]).any (fun s =>
        decide ((∀ i, (s.thread i).quiet = true) ∧ s.draining = true ∧ s.held = [] ∧
          ∀ i, (s.thread i).barred = true)) = true := by
    decide +kernel
  have hsecond : (run Drain.step (.start .primary [7] : Drain (Fin 2) Nat)
      [.acquireFor 0, .next 0, .acquired 0 (some 7), .next 0, .setRole 1 .replica, .next 1,
        .release 0 (some 7), .next 0, .next 0, .recycled 0 true, .next 0, .next 1, .next 1]).any
      (fun s => decide ((∀ i, (s.thread i).quiet = true) ∧ s.draining = true ∧ s.held = [] ∧
        ∀ i, (s.thread i).barred = true)) = true := by
    decide +kernel
  obtain ⟨s, hrun, hs⟩ := exists_run hfirst
  obtain ⟨t, hrun', ht⟩ := exists_run hsecond
  obtain ⟨hquiet, hdraining, hheld, hbarred⟩ := of_decide_eq_true hs
  obtain ⟨hquiet', hdraining', hheld', hbarred'⟩ := of_decide_eq_true ht
  exact ⟨⟨s, hrun, hquiet, hdraining, hheld, hbarred⟩,
    ⟨t, hrun', hquiet', hdraining', hheld', hbarred'⟩⟩

end Pontus.Pool
