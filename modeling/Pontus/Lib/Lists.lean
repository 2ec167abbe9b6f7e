import Mathlib.Data.List.Forall2

/-!
# Lists

Two ways of splitting one list at an element either agree or put one of the two
elements among those before the other.  Of two lists related element by element
each splits as the other does.  A loop with fuel that takes an element at each
pass does not run out of it before the list ends.
-/

namespace Pontus.Lib

variable {α : Type}

theorem split_cases (h : before ++ x :: after = before' ++ y :: after') :
    (before' = before ∧ y = x ∧ after' = after) ∨
      (∃ mid, before' = before ++ x :: mid ∧ after = mid ++ y :: after') ∨
      ∃ mid, before = before' ++ y :: mid ∧ after' = mid ++ x :: after := by
  rcases List.append_eq_append_iff.1 h with ⟨mid, hbefore, hrest⟩ | ⟨mid, hbefore, hrest⟩
  · cases mid with
    | nil =>
      simp only [List.nil_append, List.cons.injEq] at hrest
      exact Or.inl ⟨by rw [hbefore, List.append_nil], hrest.1.symm, hrest.2.symm⟩
    | cons _ mid =>
      simp only [List.cons_append, List.cons.injEq] at hrest
      obtain ⟨rfl, hafter⟩ := hrest
      exact Or.inr (Or.inl ⟨mid, hbefore, hafter⟩)
  · cases mid with
    | nil =>
      simp only [List.nil_append, List.cons.injEq] at hrest
      exact Or.inl ⟨by rw [hbefore, List.append_nil], hrest.1, hrest.2⟩
    | cons _ mid =>
      simp only [List.cons_append, List.cons.injEq] at hrest
      obtain ⟨rfl, hafter⟩ := hrest
      exact Or.inr (Or.inr ⟨mid, hbefore, hafter⟩)

theorem last_split_unique {p : α → Prop} {before after before' after' : List α} {x y : α}
    (h : before ++ x :: after = before' ++ y :: after') (hx : p x) (hy : p y)
    (hafter : ∀ z ∈ after, ¬p z) (hafter' : ∀ z ∈ after', ¬p z) : before = before' ∧ x = y := by
  rcases split_cases h with ⟨hbefore, hyx, -⟩ | ⟨_, -, hmid⟩ | ⟨_, -, hmid⟩
  · exact ⟨hbefore.symm, hyx.symm⟩
  · exact absurd hy (hafter y (by rw [hmid]; simp))
  · exact absurd hx (hafter' x (by rw [hmid]; simp))

theorem split_at_last {p : α → Prop} {before pre post : List α} {last x : α}
    (h : before ++ [last] = pre ++ x :: post) (hbefore : ∀ y ∈ before, ¬p y) (hx : p x) :
    pre = before ∧ x = last ∧ post = [] := by
  rcases split_cases h with hsame | ⟨_, -, hmid⟩ | ⟨_, hmid, -⟩
  · exact hsame
  · simp at hmid
  · exact absurd hx (hbefore x (by rw [hmid]; simp))

theorem exists_last [DecidablePred p] (h : ∃ x ∈ xs, p x) :
    ∃ before x after, xs = before ++ x :: after ∧ p x ∧ ∀ y ∈ after, ¬p y := by
  induction xs with
  | nil => simp at h
  | cons x xs ih =>
    by_cases hrest : ∃ y ∈ xs, p y
    · obtain ⟨before, y, after, rfl, hy, hafter⟩ := ih hrest
      exact ⟨x :: before, y, after, rfl, hy, hafter⟩
    · refine ⟨[], x, xs, rfl, ?_, ?_⟩
      · obtain ⟨y, hmem, hy⟩ := h
        rcases List.mem_cons.1 hmem with rfl | hmem
        · exact hy
        · exact absurd ⟨y, hmem, hy⟩ hrest
      · intro y hmem hy
        exact hrest ⟨y, hmem, hy⟩

theorem forall₂_split {R : α → β → Prop} (h : List.Forall₂ R (xs ++ x :: ys) zs) :
    ∃ as a bs, zs = as ++ a :: bs ∧ List.Forall₂ R xs as ∧ R x a ∧ List.Forall₂ R ys bs := by
  induction xs generalizing zs with
  | nil =>
    cases h with
    | cons hxa htail => exact ⟨[], _, _, rfl, .nil, hxa, htail⟩
  | cons _ _ ih =>
    cases h with
    | cons hya htail =>
      obtain ⟨as, a, bs, rfl, has, hxa, hbs⟩ := ih htail
      exact ⟨_ :: as, a, bs, rfl, .cons hya has, hxa, hbs⟩

theorem forall₂_exists {R : α → β → Prop} (h : List.Forall₂ R xs ys) (hx : x ∈ xs) :
    ∃ y ∈ ys, R x y := by
  obtain ⟨_, _, rfl⟩ := List.append_of_mem hx
  obtain ⟨as, y, _, rfl, -, hy, -⟩ := forall₂_split h
  exact ⟨y, List.mem_append_right as List.mem_cons_self, hy⟩

theorem fuel_enough {F : Nat → List α → β} (hnil : ∀ n, F n [] = F 0 [])
    (hcons : ∀ n m x xs, (∀ ys, ys.length ≤ xs.length → F n ys = F m ys) →
      F (n + 1) (x :: xs) = F (m + 1) (x :: xs))
    (hfuel : xs.length ≤ fuel) (hfuel' : xs.length ≤ fuel') : F fuel xs = F fuel' xs := by
  induction fuel generalizing xs fuel' with
  | zero => rw [List.length_eq_zero_iff.1 (Nat.le_zero.1 hfuel), hnil fuel']
  | succ fuel ih =>
    cases xs with
    | nil => rw [hnil, hnil fuel']
    | cons x xs =>
      rw [List.length_cons] at hfuel hfuel'
      obtain ⟨m, rfl⟩ := Nat.exists_eq_succ_of_ne_zero (Nat.ne_zero_of_lt hfuel')
      exact hcons fuel m x xs fun ys hys => ih (by omega) (by omega)

end Pontus.Lib
