import Mathlib.Data.Option.Basic

/-!
# Runs of a transition system

A system moves by a partial function of its state and an action.  A property
that holds at the start and that every allowed move keeps holds wherever a run
of allowed moves ends.
-/

namespace Pontus.Lib

universe u v

section
variable {σ : Type u} {α : Type v} (step : σ → α → Option σ)

def run : σ → List α → Option σ
  | s, [] => some s
  | s, a :: as => (step s a).bind (run · as)

def Along (allowed : σ → α → Prop) : σ → List α → Prop
  | _, [] => True
  | s, a :: as => allowed s a ∧ ∀ s', step s a = some s' → Along allowed s' as

instance Along.decidable {allowed : σ → α → Prop} [∀ s a, Decidable (allowed s a)] :
    ∀ s as, Decidable (Along step allowed s as)
  | _, [] => isTrue trivial
  | s, a :: as =>
    match hstep : step s a with
    | none =>
      decidable_of_iff (allowed s a)
        ⟨fun h => ⟨h, fun _ hs' => nomatch hstep.symm.trans hs'⟩, fun h => h.1⟩
    | some t =>
      haveI : Decidable (Along step allowed t as) := Along.decidable t as
      decidable_of_iff (allowed s a ∧ Along step allowed t as)
        ⟨fun h => ⟨h.1, fun _ hs' => Option.some.inj (hstep.symm.trans hs') ▸ h.2⟩,
          fun h => ⟨h.1, h.2 t hstep⟩⟩

variable {step}

theorem run_cons :
    run step s (a :: as) = some s' ↔ ∃ t, step s a = some t ∧ run step t as = some s' := by
  rw [run, Option.bind_eq_some_iff]

theorem Along.front (h : Along step allowed s (as ++ bs)) : Along step allowed s as := by
  induction as generalizing s with
  | nil => exact trivial
  | cons _ _ ih => exact ⟨h.1, fun t ht => ih (h.2 t ht)⟩

theorem Along.behind (h : Along step allowed s (as ++ bs)) (hrun : run step s as = some t) :
    Along step allowed t bs := by
  induction as generalizing s with
  | nil =>
    rw [run, Option.some.injEq] at hrun
    rw [← hrun]
    exact h
  | cons _ _ ih =>
    obtain ⟨u, hu, hrest⟩ := run_cons.1 hrun
    exact ih (h.2 u hu) hrest

theorem along_of_forall_mem (h : ∀ a ∈ as, ∀ s, allowed s a) : Along step allowed s as := by
  induction as generalizing s with
  | nil => exact trivial
  | cons _ _ ih =>
    rw [List.forall_mem_cons] at h
    exact ⟨h.1 s, fun _ _ => ih h.2⟩

theorem along_of_forall (h : ∀ s a, allowed s a) : Along step allowed s as :=
  along_of_forall_mem fun a _ s => h s a

theorem Along.and (h : Along step allowed s as) (halso : Along step also s as) :
    Along step (fun s a => allowed s a ∧ also s a) s as := by
  induction as generalizing s with
  | nil => exact trivial
  | cons _ _ ih => exact ⟨⟨h.1, halso.1⟩, fun t ht => ih (h.2 t ht) (halso.2 t ht)⟩

theorem exists_run (h : (run step s as).any p) :
    ∃ s', run step s as = some s' ∧ p s' :=
  (Option.any_eq_true p _).1 h

theorem exists_allowed_run (h : Along step allowed s as ∧ (run step s as).any p) :
    Along step allowed s as ∧ ∃ s', run step s as = some s' ∧ p s' :=
  ⟨h.1, exists_run h.2⟩

/-- **The invariant rule.** -/
theorem run_invariant {Inv : σ → Prop} {allowed : σ → α → Prop}
    (hstep : ∀ s a s', Inv s → allowed s a → step s a = some s' → Inv s') {s s' : σ} {as : List α}
    (hs : Inv s) (hallowed : Along step allowed s as) (hrun : run step s as = some s') :
    Inv s' := by
  induction as generalizing s with
  | nil =>
    rw [run, Option.some.injEq] at hrun
    rw [← hrun]
    exact hs
  | cons a _ ih =>
    obtain ⟨t, ht, hrest⟩ := run_cons.1 hrun
    exact ih (hstep s a t hs hallowed.1 ht) (hallowed.2 t ht) hrest

/-- What the allowed moves of a run are like, where an invariant says it of one
move. -/
theorem Along.of_invariant {Inv : σ → Prop} {allowed P : σ → α → Prop}
    (hmove : ∀ s a, Inv s → allowed s a → P s a)
    (hstep : ∀ s a s', Inv s → allowed s a → step s a = some s' → Inv s') {s : σ} {as : List α}
    (hs : Inv s) (hallowed : Along step allowed s as) : Along step P s as := by
  induction as generalizing s with
  | nil => exact trivial
  | cons a _ ih =>
    refine ⟨hmove s a hs hallowed.1, ?_⟩
    intro t ht
    exact ih (hstep s a t hs hallowed.1 ht) (hallowed.2 t ht)

/-- **Exactness.**  Where a move keeps a property just when it is allowed, the
property holds all along a run just when every move of it is allowed. -/
theorem along_iff_forall_take {P : σ → Prop} {allowed : σ → α → Prop}
    (hstep : ∀ s a s', P s → step s a = some s' → (P s' ↔ allowed s a)) {s s' : σ}
    {as : List α} (hs : P s) (hrun : run step s as = some s') :
    Along step allowed s as ↔ ∀ k t, run step s (as.take k) = some t → P t := by
  constructor
  · intro hallowed k t ht
    induction as generalizing s k with
    | nil =>
      rw [List.take_nil, run, Option.some.injEq] at ht
      rw [← ht]
      exact hs
    | cons a _ ih =>
      cases k with
      | zero =>
        rw [List.take_zero, run, Option.some.injEq] at ht
        rw [← ht]
        exact hs
      | succ k =>
        obtain ⟨u, hu, hrest⟩ := run_cons.1 ht
        obtain ⟨_, hu', hrun'⟩ := run_cons.1 hrun
        rw [hu, Option.some.injEq] at hu'
        rw [← hu'] at hrun'
        exact ih ((hstep s a u hs hu).2 hallowed.1) hrun' (hallowed.2 u hu) k hrest
  · intro hall
    induction as generalizing s with
    | nil => exact trivial
    | cons a as ih =>
      obtain ⟨t, ht, hrest⟩ := run_cons.1 hrun
      have hone : run step s ((a :: as).take 1) = some t :=
        run_cons.2 ⟨t, ht, by rw [List.take_zero, run]⟩
      have hPt : P t := hall 1 t hone
      refine ⟨(hstep s a t hs ht).1 hPt, ?_⟩
      intro _ hu
      rw [ht, Option.some.injEq] at hu
      rw [← hu]
      apply ih hPt hrest
      intro k v hv
      exact hall (k + 1) v (run_cons.2 ⟨t, ht, hv⟩)

end

end Pontus.Lib
