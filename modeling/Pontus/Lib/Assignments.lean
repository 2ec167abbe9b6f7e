import Mathlib.Data.List.AList

/-!
# Assignments in any order

A list of assignments to distinct places gives each place its own value,
whatever the order they are made in, and leaves every other place alone.  A
finite map is a function with values at some places; keys are assigned to it or
taken away from it.
-/

namespace Pontus.Lib

universe u v

variable {α : Type u} {β : Type v} [DecidableEq α]

def assignAll (f : α → β) : List (α × β) → α → β
  | [] => f
  | (a, b) :: rest => assignAll (Function.update f a b) rest

theorem assignAll_of_notMem {assignments : List (α × β)} (h : a ∉ assignments.map Prod.fst) :
    assignAll f assignments a = f a := by
  induction assignments generalizing f with
  | nil => rfl
  | cons _ _ ih =>
    rw [List.map_cons, List.mem_cons, not_or] at h
    rw [assignAll, ih h.2, Function.update_of_ne h.1]

theorem assignAll_of_mem {assignments : List (α × β)} (hnodup : (assignments.map Prod.fst).Nodup)
    (h : (a, b) ∈ assignments) : assignAll f assignments a = b := by
  induction assignments generalizing f with
  | nil => exact nomatch h
  | cons _ _ ih =>
    rw [List.map_cons, List.nodup_cons] at hnodup
    rw [assignAll]
    rcases List.mem_cons.1 h with rfl | h
    · rw [assignAll_of_notMem hnodup.1, Function.update_self]
    · exact ih hnodup.2 h

theorem assignAll_restore {places : List α} (hnodup : places.Nodup)
    (h : ∀ a, a ∉ places → f a = g a) : assignAll f (places.map fun a => (a, g a)) = g := by
  have hfirst : (places.map fun a => (a, g a)).map Prod.fst = places := by
    rw [List.map_map]
    exact List.map_id places
  funext a
  by_cases ha : a ∈ places
  · apply assignAll_of_mem
    · rw [hfirst]
      exact hnodup
    · exact List.mem_map_of_mem ha
  · rw [assignAll_of_notMem (by rw [hfirst]; exact ha)]
    exact h a ha

def assignKey (m : AList fun _ : α => β) : α × Option β → AList fun _ : α => β
  | (a, some b) => m.insert a b
  | (a, none) => m.erase a

def assignKeys (m : AList fun _ : α => β) (changes : List (α × Option β)) :
    AList fun _ : α => β :=
  changes.foldl assignKey m

theorem lookup_assignKey (m : AList fun _ : α => β) (change : α × Option β) :
    (fun a => (assignKey m change).lookup a) =
      Function.update (fun a => m.lookup a) change.1 change.2 := by
  obtain ⟨key, value⟩ := change
  funext a
  by_cases ha : a = key
  · subst ha
    rw [Function.update_self]
    cases value with
    | none => exact AList.lookup_erase a m
    | some => exact AList.lookup_insert m
  · rw [Function.update_of_ne ha]
    cases value with
    | none => exact AList.lookup_erase_ne ha
    | some => exact AList.lookup_insert_ne ha

theorem mem_assignKey {change : α × Option β} (h : a ∈ assignKey m change) :
    a = change.1 ∨ a ∈ m := by
  obtain ⟨_, value⟩ := change
  cases value with
  | none => exact Or.inr (AList.mem_erase.1 h).2
  | some => exact (AList.mem_insert m).1 h

theorem lookup_assignKeys (m : AList fun _ : α => β) (changes : List (α × Option β)) :
    (fun a => (assignKeys m changes).lookup a) = assignAll (fun a => m.lookup a) changes := by
  induction changes generalizing m with
  | nil => rfl
  | cons change _ ih =>
    obtain ⟨key, value⟩ := change
    rw [assignAll, ← lookup_assignKey m (key, value), ← ih]
    rfl

theorem lookup_assignKeys_congr (h : ∀ a, m.lookup a = m'.lookup a) (changes : List (α × Option β))
    (a : α) : (assignKeys m changes).lookup a = (assignKeys m' changes).lookup a := by
  have hsame : (fun a => m.lookup a) = fun a => m'.lookup a := funext h
  have hchanged := lookup_assignKeys m changes
  rw [hsame, ← lookup_assignKeys m'] at hchanged
  exact congrFun hchanged a

end Pontus.Lib
