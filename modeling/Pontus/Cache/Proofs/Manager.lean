import Pontus.Cache.Manager

/-!
# The index is exact

A key stands under a table exactly when its entry was read from the table, so
`invalidate` evicts the entries that depend on a table it is given and no
others.  `set` passes through a state where this fails for the key it is about
to store; nothing of that key is indexed then.
-/

namespace Pontus.Cache

open Lib Index

variable {V : Type} {m : Manager V}

def Manager.Reads (m : Manager V) (table key : Bytes) : Prop :=
  ∃ item, m.items.lookup key = some item ∧ table ∈ item.tables

def Manager.WellIndexed (m : Manager V) : Prop :=
  ∀ table key, m.tables.Holds table key ↔ m.Reads table key

structure Manager.IndexedBut (m : Manager V) (key : Bytes) : Prop where
  others : ∀ table other, other ≠ key → (m.tables.Holds table other ↔ m.Reads table other)
  nothing : ∀ table, ¬ m.tables.Holds table key

theorem lookup_remove (m : Manager V) (key k : Bytes) :
    (m.remove key).items.lookup k = if k = key then none else m.items.lookup k := by
  unfold Manager.remove
  by_cases hk : k = key
  · subst hk
    rw [if_pos rfl]
    split
    · assumption
    · exact AList.lookup_erase k _
  · rw [if_neg hk]
    split
    · rfl
    · exact AList.lookup_erase_ne hk

theorem reads_remove : (m.remove key).Reads table k ↔ m.Reads table k ∧ k ≠ key := by
  unfold Manager.Reads
  rw [lookup_remove]
  by_cases hk : k = key
  · simp [hk]
  · simp [hk]

theorem reads_of_lookup (h : m.items.lookup key = some item) :
    m.Reads table key ↔ table ∈ item.tables := by
  constructor
  · rintro ⟨_, hitem', htable⟩
    rw [h] at hitem'
    cases hitem'
    exact htable
  · exact fun htable => ⟨item, h, htable⟩

theorem not_reads (h : m.items.lookup key = none) : ¬ m.Reads table key := by
  rintro ⟨_, hitem, -⟩
  exact nomatch h.symm.trans hitem

theorem holds_unindexOld :
    (m.unindexOld key).tables.Holds table k ↔
      m.tables.Holds table k ∧ ¬ (k = key ∧ m.Reads table key) := by
  unfold Manager.unindexOld
  split
  · rename_i item hitem
    rw [Manager.unindex, holds_drop, reads_of_lookup hitem, and_comm (a := k = key)]
  · rename_i hnone
    simp [not_reads hnone]

theorem items_unindexOld (m : Manager V) (key : Bytes) : (m.unindexOld key).items = m.items := by
  unfold Manager.unindexOld
  split <;> rfl

theorem tables_remove (m : Manager V) (key : Bytes) :
    (m.remove key).tables = (m.unindexOld key).tables := by
  unfold Manager.remove Manager.unindexOld
  split
  · rename_i hnone
    rw [hnone]
  · rename_i item hitem
    rw [hitem]

theorem holds_remove :
    (m.remove key).tables.Holds table k ↔
      m.tables.Holds table k ∧ ¬ (k = key ∧ m.Reads table key) := by
  rw [tables_remove, holds_unindexOld]

theorem Manager.WellIndexed.remove (h : m.WellIndexed) (key : Bytes) :
    (m.remove key).WellIndexed := by
  intro table k
  rw [holds_remove, reads_remove, h table k]
  refine and_congr_right fun hreads => ?_
  constructor
  · rintro hnot rfl
    exact hnot ⟨rfl, hreads⟩
  · rintro hne ⟨heq, -⟩
    exact hne heq

theorem Manager.IndexedBut.remove (h : m.IndexedBut key) (other : Bytes) :
    (m.remove other).IndexedBut key := by
  constructor
  · intro table k hk
    rw [holds_remove, reads_remove, h.others table k hk]
    refine and_congr_right fun hreads => ?_
    constructor
    · rintro hnot rfl
      exact hnot ⟨rfl, hreads⟩
    · rintro hne ⟨heq, -⟩
      exact hne heq
  · intro table hholds
    exact h.nothing table (holds_remove.1 hholds).1

theorem evictLocked_cases (m : Manager V) (now : Time) (scan rank : List Bytes) :
    m.evictLocked now scan rank = m ∨ ∃ key, m.evictLocked now scan rank = m.remove key := by
  unfold Manager.evictLocked
  split
  · exact .inr ⟨_, rfl⟩
  · split
    · exact .inl rfl
    · split
      · exact .inl rfl
      · exact .inr ⟨_, rfl⟩

theorem Manager.WellIndexed.unindexOld (h : m.WellIndexed) (key : Bytes) :
    (m.unindexOld key).IndexedBut key := by
  constructor
  · intro table other hother
    rw [holds_unindexOld, h table other]
    unfold Manager.Reads
    rw [items_unindexOld]
    exact and_iff_left fun heq => hother heq.1
  · intro table hkey
    rw [holds_unindexOld, h table key] at hkey
    exact hkey.2 ⟨rfl, hkey.1⟩

theorem Manager.IndexedBut.makeRoom (h : m.IndexedBut key) (now : Time) (scan rank : List Bytes) :
    (m.makeRoom now scan rank).IndexedBut key := by
  unfold Manager.makeRoom
  split
  · rcases evictLocked_cases m now scan rank with heq | ⟨other, heq⟩
    · rw [heq]
      exact h
    · rw [heq]
      exact h.remove other
  · exact h

theorem lookup_makeRoom (h : (m.makeRoom now scan rank).items.lookup k = some item) :
    m.items.lookup k = some item := by
  unfold Manager.makeRoom at h
  split at h
  · rcases evictLocked_cases m now scan rank with heq | ⟨_, heq⟩
    · rw [heq] at h
      exact h
    · rw [heq, lookup_remove] at h
      split at h
      · cases h
      · exact h
  · exact h

section
variable {key : Bytes} {value : V} {ttl now : Time} {tables scan rank : List Bytes}

theorem lookup_set_self :
    (m.set key value ttl tables now scan rank).items.lookup key =
      some ⟨value, now + ttl, now + ttl * 2, tables⟩ :=
  AList.lookup_insert _

theorem lookup_set (hk : k ≠ key)
    (h : (m.set key value ttl tables now scan rank).items.lookup k = some item) :
    m.items.lookup k = some item := by
  have hroom : ((m.unindexOld key).makeRoom now scan rank).items.lookup k = some item := by
    rw [← AList.lookup_insert_ne hk]
    exact h
  have hold := lookup_makeRoom hroom
  rw [items_unindexOld] at hold
  exact hold

theorem Manager.WellIndexed.set (h : m.WellIndexed) :
    (m.set key value ttl tables now scan rank).WellIndexed := by
  have hbut := (h.unindexOld key).makeRoom now scan rank
  intro table k
  change ((((m.unindexOld key).makeRoom now scan rank).tables).add key tables).Holds table k ↔ _
  rw [holds_add]
  by_cases hk : k = key
  · rw [hk, reads_of_lookup lookup_set_self]
    simp [hbut.nothing table]
  · rw [hbut.others table k hk]
    have hlookup : (m.set key value ttl tables now scan rank).items.lookup k =
        ((m.unindexOld key).makeRoom now scan rank).items.lookup k := AList.lookup_insert_ne hk
    unfold Manager.Reads
    rw [hlookup]
    simp [hk]

end

theorem lookup_foldl_remove (keys : List Bytes) (m : Manager V) (k : Bytes) :
    (keys.foldl Manager.remove m).items.lookup k = if k ∈ keys then none else m.items.lookup k := by
  induction keys generalizing m with
  | nil => simp
  | cons key _ ih =>
    rw [foldl_cons, ih, lookup_remove]
    by_cases hk : k = key
    · simp [hk]
    · simp [hk]

theorem Manager.WellIndexed.foldl_remove (keys : List Bytes) (h : m.WellIndexed) :
    (keys.foldl Manager.remove m).WellIndexed := by
  induction keys generalizing m with
  | nil => exact h
  | cons key _ ih => exact ih (h.remove key)

section
variable (h : m.WellIndexed)
include h

theorem lookup_invalidateTable :
    (m.invalidateTable table).items.lookup key = some item ↔
      m.items.lookup key = some item ∧ table ∉ item.tables := by
  have hindex := h table key
  unfold Manager.invalidateTable
  split
  · rename_i hnone
    refine (and_iff_left_of_imp fun hitem htable => ?_).symm
    exact not_holds hnone (hindex.2 ⟨item, hitem, htable⟩)
  · rename_i keys hkeys
    rw [holds_iff hkeys] at hindex
    rw [lookup_foldl_remove]
    split
    · rename_i hkey
      refine iff_of_false nofun ?_
      rintro ⟨hitem, hnot⟩
      exact hnot ((reads_of_lookup hitem).1 (hindex.1 hkey))
    · rename_i hkey
      refine (and_iff_left_of_imp fun hitem htable => ?_).symm
      exact hkey (hindex.2 ⟨item, hitem, htable⟩)

theorem Manager.WellIndexed.invalidateTable (table : Bytes) :
    (m.invalidateTable table).WellIndexed := by
  have hgone : ∀ key, ¬ (m.invalidateTable table).Reads table key := by
    rintro _ ⟨_, hitem, htable⟩
    exact ((lookup_invalidateTable h).1 hitem).2 htable
  unfold Manager.invalidateTable at hgone ⊢
  split
  · exact h
  · rename_i keys hkeys
    rw [hkeys] at hgone
    have hrest := h.foldl_remove keys
    intro t k
    rw [holds_erase, hrest t k]
    refine and_iff_left_of_imp fun hreads => ?_
    rintro rfl
    exact hgone k hreads

theorem Manager.WellIndexed.invalidate (tables : List Bytes) :
    (m.invalidate tables).WellIndexed := by
  induction tables generalizing m with
  | nil => exact h
  | cons table _ ih => exact ih (h.invalidateTable table)

/-- **What is left behind an invalidation** are the entries that read from none
of the tables. -/
theorem lookup_invalidate :
    (m.invalidate tables).items.lookup key = some item ↔
      m.items.lookup key = some item ∧ ∀ table ∈ tables, table ∉ item.tables := by
  induction tables generalizing m with
  | nil => simp [Manager.invalidate]
  | cons table tables ih =>
    change ((m.invalidateTable table).invalidate tables).items.lookup key = some item ↔ _
    rw [ih (h.invalidateTable table), lookup_invalidateTable h, forall_mem_cons, and_assoc]

theorem Manager.WellIndexed.cleanup (now : Time) : (m.cleanup now).WellIndexed := by
  unfold Manager.cleanup
  generalize m.items.keys = keys
  induction keys generalizing m with
  | nil => exact h
  | cons key _ ih =>
    rw [foldl_cons]
    split
    · exact ih (h.remove key)
    · exact ih h

end

theorem lookup_cleanup (h : (m.cleanup now).items.lookup key = some item) :
    m.items.lookup key = some item := by
  unfold Manager.cleanup at h
  generalize m.items.keys = keys at h
  induction keys generalizing m with
  | nil => exact h
  | cons _ _ ih =>
    rw [foldl_cons] at h
    split at h
    · have hold := ih h
      rw [lookup_remove] at hold
      split at hold
      · cases hold
      · exact hold
    · exact ih h

theorem wellIndexed_new (maxSize : Int) : (newManagerWithSize maxSize : Manager V).WellIndexed := by
  intro _ _
  refine iff_of_false (not_holds (AList.lookup_empty _)) (not_reads (AList.lookup_empty _))

/-- **The index is exact** whatever was done to the manager. -/
theorem Reached.wellIndexed (h : Reached m) : m.WellIndexed := by
  induction h with
  | new maxSize => exact wellIndexed_new maxSize
  | set _ _ _ _ _ _ _ _ ih => exact ih.set
  | invalidate _ tables ih => exact ih.invalidate tables
  | cleanup _ now ih => exact ih.cleanup now

end Pontus.Cache
