import Mathlib.Algebra.Ring.Int.Defs
import Mathlib.Data.List.Basic
import Mathlib.Logic.Function.Basic

/-!
# Ledgers

Holders take items out on an account and return them.  A ledger is a list of
such entries, newest first, in which nothing is taken that is out and nothing
is returned but by who has it and to the account it was taken on.  At any time
it says who has what; everything else that was taken has been returned, exactly
as often, and the balance of an account is the number of items that are out on
it.
-/

namespace Pontus.Lib

open Function (update_of_ne update_self)

variable {H B C : Type}

inductive Entry (H B C : Type)
  | taken (holder : H) (account : B) (item : C)
  | returned (holder : H) (account : B) (item : C)
  deriving DecidableEq

inductive Ledger [DecidableEq C] : List (Entry H B C) → (C → Option (H × B)) → Prop
  | nil : Ledger [] fun _ => none
  | take {entries : List (Entry H B C)} {held : C → Option (H × B)} {h : H} {b : B} {c : C}
      (hledger : Ledger entries held) (hfree : held c = none) :
      Ledger (.taken h b c :: entries) (Function.update held c (some (h, b)))
  | give {entries : List (Entry H B C)} {held : C → Option (H × B)} {h : H} {b : B} {c : C}
      (hledger : Ledger entries held) (hheld : held c = some (h, b)) :
      Ledger (.returned h b c :: entries) (Function.update held c none)

def Entry.delta [DecidableEq B] (b : B) : Entry H B C → Int
  | .taken _ account _ => if account = b then 1 else 0
  | .returned _ account _ => if account = b then -1 else 0

def balance [DecidableEq B] (entries : List (Entry H B C)) (b : B) : Int :=
  (entries.map (Entry.delta b)).sum

@[simp] theorem balance_nil [DecidableEq B] (b : B) : balance ([] : List (Entry H B C)) b = 0 := rfl

@[simp] theorem balance_cons [DecidableEq B] (e : Entry H B C) (entries : List (Entry H B C))
    (b : B) : balance (e :: entries) b = e.delta b + balance entries b := by
  simp [balance]

namespace Ledger

variable [DecidableEq B] [DecidableEq C] {entries : List (Entry H B C)} {held : C → Option (H × B)}

/-- **Everything taken is returned once**, or has been returned once less often
and is out. -/
theorem count_taken [DecidableEq H] (hledger : Ledger entries held) (h : H) (b : B) (c : C) :
    entries.count (.taken h b c) =
      entries.count (.returned h b c) + if held c = some (h, b) then 1 else 0 := by
  induction hledger with
  | nil => simp
  | @take _ _ h' b' c' _ hfree ih =>
    rw [List.count_cons, List.count_cons, ih]
    by_cases hc : c' = c
    · subst hc
      by_cases hsame : h' = h ∧ b' = b
      · obtain ⟨rfl, rfl⟩ := hsame
        simp [hfree]
      · have hne : (Entry.taken h' b' c' == Entry.taken h b c') = false := by
          simp only [beq_eq_false_iff_ne, ne_eq, Entry.taken.injEq, and_true]
          exact hsame
        simp [hfree, hne, hsame]
    · have hne : (Entry.taken h' b' c' == Entry.taken h b c) = false := by simp [hc]
      simp [hne, update_of_ne (Ne.symm hc)]
  | @give _ _ h' b' c' _ hheld ih =>
    rw [List.count_cons, List.count_cons, ih]
    by_cases hc : c' = c
    · subst hc
      by_cases hsame : h' = h ∧ b' = b
      · obtain ⟨rfl, rfl⟩ := hsame
        simp [hheld]
      · have hne : (Entry.returned h' b' c' == Entry.returned h b c') = false := by
          simp only [beq_eq_false_iff_ne, ne_eq, Entry.returned.injEq, and_true]
          exact hsame
        simp [hheld, hne, hsame]
    · have hne : (Entry.returned h' b' c' == Entry.returned h b c) = false := by simp [hc]
      simp [hne, update_of_ne (Ne.symm hc)]

/-- **The balance of an account is the number of items out on it.** -/
theorem balance_eq (hledger : Ledger entries held) (b : B) :
    ∃ out : List C, out.Nodup ∧ (∀ c, c ∈ out ↔ ∃ h, held c = some (h, b)) ∧
      balance entries b = out.length := by
  induction hledger with
  | nil => exact ⟨[], List.nodup_nil, by simp, by simp⟩
  | @take _ _ _ b' c' _ hfree ih =>
    obtain ⟨out, hnodup, hmem, hbalance⟩ := ih
    have hnew : c' ∉ out := by
      rw [hmem, hfree]
      simp
    by_cases hb : b' = b
    · subst hb
      refine ⟨c' :: out, List.nodup_cons.2 ⟨hnew, hnodup⟩, ?_, ?_⟩
      · intro c
        by_cases hc : c = c'
        · subst hc
          simp
        · simp [hc, hmem]
      · simp [Entry.delta, hbalance]
        omega
    · refine ⟨out, hnodup, ?_, by simp [Entry.delta, hb, hbalance]⟩
      intro c
      by_cases hc : c = c'
      · subst hc
        simp [hnew, hb]
      · simp [hc, hmem]
  | @give _ _ h' b' c' _ hheld ih =>
    obtain ⟨out, hnodup, hmem, hbalance⟩ := ih
    by_cases hb : b' = b
    · subst hb
      have hout : c' ∈ out := (hmem c').2 ⟨h', hheld⟩
      refine ⟨out.erase c', hnodup.erase c', ?_, ?_⟩
      · intro c
        rw [hnodup.mem_erase_iff]
        by_cases hc : c = c'
        · subst hc
          simp
        · simp [hc, hmem]
      · have hlen := List.length_erase_of_mem hout
        have hpos := List.length_pos_of_mem hout
        simp only [balance_cons, Entry.delta, if_true, hbalance]
        omega
    · have hout : c' ∉ out := by
        rw [hmem, hheld]
        simp [hb]
      refine ⟨out, hnodup, ?_, by simp [Entry.delta, hb, hbalance]⟩
      intro c
      by_cases hc : c = c'
      · subst hc
        simp [hout]
      · simp [hc, hmem]

end Ledger

section
variable [DecidableEq C]

def Books (entries : List (Entry H B C)) (has : H → Option (C × B)) : Prop :=
  ∃ held, Ledger entries held ∧ ∀ c h b, held c = some (h, b) ↔ has h = some (c, b)

namespace Books

variable {entries : List (Entry H B C)} {has : H → Option (C × B)} {h : H} {b : B} {c : C}

theorem nil : Books ([] : List (Entry H B C)) fun _ => none := ⟨_, .nil, fun _ _ _ => by simp⟩

theorem take [DecidableEq H] (hbooks : Books entries has) (hnone : has h = none)
    (hfree : ∀ h' b', has h' ≠ some (c, b')) :
    Books (.taken h b c :: entries) (Function.update has h (some (c, b))) := by
  obtain ⟨held, hledger, hagrees⟩ := hbooks
  have hc : held c = none := by
    rw [Option.eq_none_iff_forall_ne_some]
    rintro ⟨h', b'⟩ hheld
    exact hfree h' b' ((hagrees c h' b').1 hheld)
  refine ⟨_, hledger.take hc, ?_⟩
  intro c' h' b'
  by_cases hh : h' = h
  · subst hh
    rw [update_self]
    by_cases hc' : c' = c
    · subst hc'
      rw [update_self]
      simp
    · have hout : held c' ≠ some (h', b') := by
        rw [ne_eq, hagrees, hnone]
        simp
      rw [update_of_ne hc']
      simp [hout, Ne.symm hc']
  · rw [update_of_ne hh]
    by_cases hc' : c' = c
    · subst hc'
      rw [update_self]
      simp [hfree h' b', Ne.symm hh]
    · rw [update_of_ne hc', hagrees]

theorem give [DecidableEq H] (hbooks : Books entries has) (hhas : has h = some (c, b)) :
    Books (.returned h b c :: entries) (Function.update has h none) := by
  obtain ⟨_, hledger, hagrees⟩ := hbooks
  have hheld := (hagrees c h b).2 hhas
  refine ⟨_, hledger.give hheld, ?_⟩
  intro c' h' b'
  by_cases hc' : c' = c
  · subst hc'
    rw [update_self]
    by_cases hh : h' = h
    · subst hh
      simp
    · have hother : has h' ≠ some (c', b') := by
        rw [ne_eq, ← hagrees, hheld]
        simp [Ne.symm hh]
      rw [update_of_ne hh]
      simp [hother]
  · rw [update_of_ne hc', hagrees]
    by_cases hh : h' = h
    · subst hh
      rw [update_self, hhas]
      simp [Ne.symm hc']
    · rw [update_of_ne hh]

theorem count_taken [DecidableEq H] [DecidableEq B] (hbooks : Books entries has) (h : H) (b : B)
    (c : C) :
    entries.count (.taken h b c) =
      entries.count (.returned h b c) + if has h = some (c, b) then 1 else 0 := by
  obtain ⟨_, hledger, hagrees⟩ := hbooks
  rw [hledger.count_taken h b c]
  simp only [hagrees]

theorem balance_eq [DecidableEq B] (hbooks : Books entries has) (b : B) :
    ∃ out : List C, out.Nodup ∧ (∀ c, c ∈ out ↔ ∃ h, has h = some (c, b)) ∧
      balance entries b = out.length := by
  obtain ⟨_, hledger, hagrees⟩ := hbooks
  obtain ⟨out, hnodup, hmem, hbalance⟩ := hledger.balance_eq b
  refine ⟨out, hnodup, ?_, hbalance⟩
  intro _
  rw [hmem]
  simp only [hagrees]

end Books

end

end Pontus.Lib
