import Mathlib.Data.List.AList

/-!
# An index of keys

A map from places to the keys that stand there, each key under any number of
places.  A place whose last key goes is dropped with it.
-/

namespace Pontus.Lib

universe u v

variable {τ : Type u} {κ : Type v} [DecidableEq τ]

abbrev Index (τ : Type u) (κ : Type v) := AList fun _ : τ => List κ

namespace Index

def Holds (ix : Index τ κ) (place : τ) (key : κ) : Prop := ∃ keys ∈ ix.lookup place, key ∈ keys

variable {ix : Index τ κ} {key k : κ} {place p : τ} {keys : List κ} {places : List τ}

theorem holds_iff (h : ix.lookup p = some keys) : ix.Holds p k ↔ k ∈ keys := by
  constructor
  · rintro ⟨_, hkeys', hk⟩
    rw [h] at hkeys'
    cases hkeys'
    exact hk
  · exact fun hk => ⟨keys, h, hk⟩

theorem not_holds (h : ix.lookup p = none) : ¬ ix.Holds p k := by
  rintro ⟨_, hkeys, -⟩
  rw [h] at hkeys
  cases hkeys

theorem holds_of_lookup {ix' : Index τ κ} (h : ix'.lookup p = ix.lookup p) :
    ix'.Holds p k ↔ ix.Holds p k := by
  rw [Holds, Holds, h]

theorem holds_erase : Holds (ix.erase place) p k ↔ ix.Holds p k ∧ p ≠ place := by
  by_cases hp : p = place
  · subst hp
    simp [not_holds (AList.lookup_erase p ix)]
  · rw [holds_of_lookup (AList.lookup_erase_ne hp)]
    simp [hp]

variable [DecidableEq κ]

def addAt (key : κ) (ix : Index τ κ) (place : τ) : Index τ κ :=
  match ix.lookup place with
  | none => ix.insert place [key]
  | some keys => ix.insert place (if key ∈ keys then keys else key :: keys)

def dropAt (key : κ) (ix : Index τ κ) (place : τ) : Index τ κ :=
  match ix.lookup place with
  | none => ix
  | some keys =>
    let keys := keys.filter (· ≠ key)
    if keys = [] then ix.erase place else ix.insert place keys

def add (ix : Index τ κ) (key : κ) (places : List τ) : Index τ κ := places.foldl (addAt key) ix

def drop (ix : Index τ κ) (key : κ) (places : List τ) : Index τ κ := places.foldl (dropAt key) ix

theorem holds_addAt : (addAt key ix place).Holds p k ↔ ix.Holds p k ∨ p = place ∧ k = key := by
  unfold addAt
  by_cases hp : p = place
  · subst hp
    split
    · rename_i hnone
      rw [holds_iff (AList.lookup_insert _), List.mem_singleton]
      simp [not_holds hnone]
    · rename_i keys hkeys
      rw [holds_iff (AList.lookup_insert _), holds_iff hkeys]
      split
      · rename_i hmem
        constructor
        · exact .inl
        · rintro (hk | ⟨-, rfl⟩)
          · exact hk
          · exact hmem
      · rw [List.mem_cons, or_comm]
        simp
  · have hother : ∀ keys, Holds (ix.insert place keys) p k ↔ ix.Holds p k := fun keys =>
      holds_of_lookup (AList.lookup_insert_ne hp)
    split
    · rw [hother]
      simp [hp]
    · rw [hother]
      simp [hp]

theorem holds_dropAt :
    (dropAt key ix place).Holds p k ↔ ix.Holds p k ∧ ¬ (p = place ∧ k = key) := by
  unfold dropAt
  by_cases hp : p = place
  · subst hp
    split
    · rename_i hnone
      simp [not_holds hnone]
    · rename_i keys hkeys
      dsimp only
      split
      · rename_i hempty
        rw [holds_erase, holds_iff hkeys]
        rw [List.filter_eq_nil_iff] at hempty
        constructor
        · rintro ⟨-, hne⟩
          exact absurd rfl hne
        · rintro ⟨hk, hne⟩
          exact absurd (by simpa using hempty k hk) fun heq => hne ⟨rfl, heq⟩
      · rw [holds_iff (AList.lookup_insert _), holds_iff hkeys, List.mem_filter]
        simp
  · have hne : ¬ (p = place ∧ k = key) := fun h => hp h.1
    split
    · exact (and_iff_left hne).symm
    · dsimp only
      split
      · rw [holds_of_lookup (AList.lookup_erase_ne hp)]
        exact (and_iff_left hne).symm
      · rw [holds_of_lookup (AList.lookup_insert_ne hp)]
        exact (and_iff_left hne).symm

theorem holds_add : (ix.add key places).Holds p k ↔ ix.Holds p k ∨ p ∈ places ∧ k = key := by
  induction places generalizing ix with
  | nil => simp [add]
  | cons place places ih =>
    change ((addAt key ix place).add key places).Holds p k ↔ _
    rw [ih, holds_addAt, List.mem_cons]
    tauto

theorem holds_drop : (ix.drop key places).Holds p k ↔ ix.Holds p k ∧ ¬ (p ∈ places ∧ k = key) := by
  induction places generalizing ix with
  | nil => simp [drop]
  | cons place places ih =>
    change ((dropAt key ix place).drop key places).Holds p k ↔ _
    rw [ih, holds_dropAt, List.mem_cons]
    tauto

def Full (ix : Index τ κ) : Prop := ∀ p keys, ix.lookup p = some keys → keys ≠ []

omit [DecidableEq κ] in
theorem Full.empty : Full (∅ : Index τ κ) := by
  intro _ _ h
  rw [AList.lookup_empty] at h
  cases h

omit [DecidableEq κ] in
theorem Full.erase (h : ix.Full) (place : τ) : Full (AList.erase place ix) := by
  intro p keys hkeys
  by_cases hp : p = place
  · rw [hp, AList.lookup_erase] at hkeys
    cases hkeys
  · rw [AList.lookup_erase_ne hp] at hkeys
    exact h p keys hkeys

omit [DecidableEq κ] in
theorem Full.insert (h : ix.Full) {place : τ} {keys : List κ} (hkeys : keys ≠ []) :
    Full (AList.insert place keys ix) := by
  intro p keys' hkeys'
  by_cases hp : p = place
  · rw [hp, AList.lookup_insert, Option.some.injEq] at hkeys'
    rw [← hkeys']
    exact hkeys
  · rw [AList.lookup_insert_ne hp] at hkeys'
    exact h p keys' hkeys'

theorem Full.addAt (h : ix.Full) : Full (addAt key ix place) := by
  unfold Index.addAt
  split
  · exact h.insert (List.cons_ne_nil _ _)
  · rename_i keys hkeys
    refine h.insert ?_
    split_ifs
    · exact h place keys hkeys
    · exact List.cons_ne_nil _ _

theorem Full.dropAt (h : ix.Full) : Full (dropAt key ix place) := by
  unfold Index.dropAt
  split
  · exact h
  · dsimp only
    split_ifs with hempty
    · exact h.erase place
    · exact h.insert hempty

theorem Full.add (h : ix.Full) : Full (ix.add key places) := by
  induction places generalizing ix with
  | nil => exact h
  | cons _ _ ih => exact ih h.addAt

theorem Full.drop (h : ix.Full) : Full (ix.drop key places) := by
  induction places generalizing ix with
  | nil => exact h
  | cons _ _ ih => exact ih h.dropAt

end Index

end Pontus.Lib
