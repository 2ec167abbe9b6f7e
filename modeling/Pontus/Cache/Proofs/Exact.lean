import Mathlib.Data.List.Induction
import Pontus.Cache.Proofs.Manager
import Pontus.Lib.CappedMap
import Pontus.Lib.Run

/-!
# The cache keeps its bound

Making room removes an entry whenever there is one, so that storing a new one
stays within the bound; and the index keeps no table without a key.
-/

namespace Pontus.Cache

open Lib

variable {V : Type} {m m' : Manager V} {maxSize : Nat}

theorem oldest_concat_of_none (h : m.items.lookup key = none) (order : List Bytes) :
    m.oldest (order ++ [key]) = m.oldest order := by
  rw [Manager.oldest, foldl_append, foldl_cons, foldl_nil, h]
  rfl

theorem oldest_concat_of_some {key : Bytes} {item : Item V} (h : m.items.lookup key = some item)
    (order : List Bytes) :
    ∃ k t, m.oldest (order ++ [key]) = some (k, t) ∧
      (k = key ∨ ∃ t', m.oldest order = some (k, t')) := by
  rw [Manager.oldest, foldl_append, foldl_cons, foldl_nil, h, ← Manager.oldest]
  cases m.oldest order with
  | none => exact ⟨key, item.expiration, rfl, .inl rfl⟩
  | some entry =>
    obtain ⟨k, t⟩ := entry
    dsimp only
    split_ifs
    · exact ⟨key, item.expiration, rfl, .inl rfl⟩
    · exact ⟨k, t, rfl, .inr ⟨t, rfl⟩⟩

theorem oldest_mem (h : m.oldest order = some (k, t)) : k ∈ order ∧ k ∈ m.items := by
  induction order using List.reverseRecOn generalizing k t with
  | nil => cases h
  | append_singleton order key ih =>
    cases hlookup : m.items.lookup key with
    | none =>
      rw [oldest_concat_of_none hlookup] at h
      exact ⟨mem_append_left _ (ih h).1, (ih h).2⟩
    | some =>
      obtain ⟨_, _, hconcat, hk⟩ := oldest_concat_of_some hlookup order
      rw [hconcat, some_inj, Prod.mk.injEq] at h
      rw [← h.1]
      rcases hk with rfl | ⟨_, hold⟩
      · exact ⟨by simp, AList.lookup_isSome.1 (by rw [hlookup]; rfl)⟩
      · exact ⟨mem_append_left _ (ih hold).1, (ih hold).2⟩

theorem exists_oldest (hkey : key ∈ order) (hitem : key ∈ m.items) :
    ∃ k t, m.oldest order = some (k, t) := by
  induction order using List.reverseRecOn with
  | nil => cases hkey
  | append_singleton order last ih =>
    cases hlookup : m.items.lookup last with
    | some =>
      obtain ⟨k, t, hconcat, -⟩ := oldest_concat_of_some hlookup order
      exact ⟨k, t, hconcat⟩
    | none =>
      rw [oldest_concat_of_none hlookup]
      apply ih
      rcases mem_append.1 hkey with hkey | hkey
      · exact hkey
      · rw [mem_singleton.1 hkey] at hitem
        exact absurd hitem (AList.lookup_eq_none.1 hlookup)

theorem mem_items_of_isPast (h : m.isPast now key) : key ∈ m.items := by
  obtain ⟨_, hitem, -⟩ := (Option.any_eq_true _ _).1 h
  exact AList.lookup_isSome.1 (by rw [hitem]; rfl)

theorem evictLocked_of_mem (now : Time) (scan : List Bytes) (hrank : m.Walks rank)
    (hkeys : [] ∉ m.items) (hitems : m.items.keys ≠ []) :
    ∃ key ∈ m.items, m.evictLocked now scan rank = m.remove key := by
  unfold Manager.evictLocked
  cases hscan : scan.find? (m.isPast now) with
  | some key => exact ⟨key, mem_items_of_isPast (List.find?_some hscan), rfl⟩
  | none =>
    obtain ⟨_, hkey⟩ := List.exists_mem_of_ne_nil _ hitems
    obtain ⟨k, _, holdest⟩ := exists_oldest (hrank.mem_iff.2 hkey) (AList.mem_keys.2 hkey)
    have hk : k ∈ m.items := (oldest_mem holdest).2
    refine ⟨k, hk, ?_⟩
    rw [holdest]
    refine if_neg ?_
    rintro rfl
    exact hkeys hk

theorem items_remove (m : Manager V) (key : Bytes) : (m.remove key).items = m.items.erase key := by
  unfold Manager.remove
  cases hlookup : m.items.lookup key with
  | none => exact (erase_of_notMem (AList.lookup_eq_none.1 hlookup)).symm
  | some => rfl

structure Shrinks (m m' : Manager V) : Prop where
  maxSize : m'.maxSize = m.maxSize
  keys : m'.items.keys.Sublist m.items.keys
  full : m.tables.Full → m'.tables.Full

theorem Shrinks.refl (m : Manager V) : Shrinks m m := ⟨rfl, List.Sublist.refl _, id⟩

theorem Shrinks.trans (h : Shrinks m m') (h' : Shrinks m' m'') : Shrinks m m'' :=
  ⟨h'.maxSize.trans h.maxSize, h'.keys.trans h.keys, fun hfull => h'.full (h.full hfull)⟩

theorem shrinks_unindexOld (m : Manager V) (key : Bytes) : Shrinks m (m.unindexOld key) := by
  unfold Manager.unindexOld
  split
  · exact ⟨rfl, List.Sublist.refl _, fun hfull => hfull.drop⟩
  · exact .refl m

theorem shrinks_remove (m : Manager V) (key : Bytes) : Shrinks m (m.remove key) := by
  refine ⟨?_, ?_, ?_⟩
  · unfold Manager.remove
    split <;> rfl
  · rw [items_remove]
    exact keys_erase_sublist m.items key
  · rw [tables_remove]
    exact (shrinks_unindexOld m key).full

theorem shrinks_foldl_remove (keys : List Bytes) (m : Manager V) :
    Shrinks m (keys.foldl Manager.remove m) := by
  induction keys generalizing m with
  | nil => exact .refl m
  | cons key _ ih => exact (shrinks_remove m key).trans (ih (m.remove key))

theorem shrinks_invalidateTable (m : Manager V) (table : Bytes) :
    Shrinks m (m.invalidateTable table) := by
  unfold Manager.invalidateTable
  split
  · exact .refl m
  · rename_i keys _
    have hfold := shrinks_foldl_remove keys m
    exact ⟨hfold.maxSize, hfold.keys, fun hfull => (hfold.full hfull).erase table⟩

theorem shrinks_invalidate (tables : List Bytes) (m : Manager V) :
    Shrinks m (m.invalidate tables) := by
  induction tables generalizing m with
  | nil => exact .refl m
  | cons table _ ih => exact (shrinks_invalidateTable m table).trans (ih _)

theorem shrinks_cleanup (m : Manager V) (now : Time) : Shrinks m (m.cleanup now) := by
  unfold Manager.cleanup
  generalize m.items.keys = keys
  induction keys generalizing m with
  | nil => exact .refl m
  | cons key _ ih =>
    rw [foldl_cons]
    split_ifs
    · exact (shrinks_remove m key).trans (ih _)
    · exact ih m

theorem shrinks_evictLocked (m : Manager V) (now : Time) (scan rank : List Bytes) :
    Shrinks m (m.evictLocked now scan rank) := by
  rcases evictLocked_cases m now scan rank with heq | ⟨key, heq⟩
  · rw [heq]
    exact .refl m
  · rw [heq]
    exact shrinks_remove m key

theorem shrinks_makeRoom (m : Manager V) (now : Time) (scan rank : List Bytes) :
    Shrinks m (m.makeRoom now scan rank) := by
  unfold Manager.makeRoom
  split_ifs
  · exact shrinks_evictLocked m now scan rank
  · exact .refl m

structure Kept (maxSize : Nat) (m : Manager V) : Prop where
  indexed : m.WellIndexed
  full : m.tables.Full
  size : m.maxSize = maxSize
  bounded : m.items.keys.length ≤ maxSize
  named : [] ∉ m.items

theorem Kept.shrinks (h : Kept maxSize m) (hshrinks : Shrinks m m') (hindex : m'.WellIndexed) :
    Kept maxSize m' where
  indexed := hindex
  full := hshrinks.full h.full
  size := hshrinks.maxSize.trans h.size
  bounded := hshrinks.keys.length_le.trans h.bounded
  named hmem := h.named (hshrinks.keys.subset hmem)

theorem length_makeRoom (hrank : m.Walks rank) (hbounded : m.items.keys.length ≤ m.maxSize)
    (hroomy : 1 ≤ m.maxSize) (hnamed : [] ∉ m.items) :
    (m.makeRoom now scan rank).items.keys.length < m.maxSize := by
  unfold Manager.makeRoom
  split_ifs with hfull
  · have hitems : m.items.keys ≠ [] := by
      intro hnil
      rw [hnil, length_nil] at hfull
      omega
    obtain ⟨_, hkey, hremove⟩ := evictLocked_of_mem now scan hrank hnamed hitems
    have hlen := length_keys_erase_of_mem hkey
    rw [hremove, items_remove]
    omega
  · omega

theorem Kept.set (h : Kept maxSize m) (hsize : 1 ≤ maxSize) (hkey : key ≠ []) (value : V)
    (ttl : Time) (tables : List Bytes) (now : Time) (scan : List Bytes) (hrank : m.Walks rank) :
    Kept maxSize (m.set key value ttl tables now scan rank) := by
  have hunindex := shrinks_unindexOld m key
  have hroom := hunindex.trans (shrinks_makeRoom (m.unindexOld key) now scan rank)
  have hmax : (m.unindexOld key).maxSize = maxSize := hunindex.maxSize.trans h.size
  have hwalks : (m.unindexOld key).Walks rank := by
    rw [Manager.Walks, items_unindexOld]
    exact hrank
  have hlen : ((m.unindexOld key).makeRoom now scan rank).items.keys.length < maxSize := by
    rw [← hmax]
    apply length_makeRoom hwalks
    · rw [items_unindexOld, hmax]
      exact h.bounded
    · rw [hmax]
      exact hsize
    · rw [items_unindexOld]
      exact h.named
  refine ⟨h.indexed.set, (hroom.full h.full).add, hroom.maxSize.trans h.size, ?_, ?_⟩
  · exact length_keys_insert_le (.inr hlen) hlen.le
  · intro hmem
    rcases (AList.mem_insert _).1 hmem with hnil | hmem
    · exact hkey hnil.symm
    · exact h.named (hroom.keys.subset hmem)

theorem Kept.step (h : Kept maxSize m) (hsize : 1 ≤ maxSize) (hkey : a.key ≠ some [])
    (hstep : m.step a = some m') : Kept maxSize m' := by
  cases a with
  | set key value ttl tables now scan =>
    simp only [Manager.step, ite_none_right_eq_some, some_inj] at hstep
    obtain ⟨⟨-, hrank⟩, rfl⟩ := hstep
    have hnamed : key ≠ [] := fun hnil => hkey (congrArg some hnil)
    exact h.set hsize hnamed value ttl tables now scan hrank
  | invalidate tables =>
    cases hstep
    exact h.shrinks (shrinks_invalidate tables m) (h.indexed.invalidate tables)
  | cleanup now =>
    cases hstep
    exact h.shrinks (shrinks_cleanup m now) (h.indexed.cleanup now)
  | evict now scan rank =>
    simp only [Manager.step, ite_none_right_eq_some, some_inj] at hstep
    obtain ⟨-, rfl⟩ := hstep
    refine h.shrinks (shrinks_evictLocked m now scan rank) ?_
    rcases evictLocked_cases m now scan rank with heq | ⟨key, heq⟩
    · rw [heq]
      exact h.indexed
    · rw [heq]
      exact h.indexed.remove key

theorem Kept.empty (maxSize : Nat) : Kept maxSize (⟨∅, ∅, maxSize⟩ : Manager V) where
  indexed _ _ :=
    iff_of_false (Index.not_holds (AList.lookup_empty _)) (not_reads (AList.lookup_empty _))
  full := .empty
  size := rfl
  bounded := Nat.zero_le _
  named hmem := absurd hmem (AList.notMem_empty _)

/-- The index has exactly what the entries depend on, the entries are within the
bound, and an invalidation removes what depends on its tables and nothing
else. -/
structure Exact (m : Manager V) (maxSize : Nat) : Prop where
  index : ∀ table key, m.tables.Holds table key ↔
    ∃ item, m.items.lookup key = some item ∧ table ∈ item.tables
  noEmpty : ∀ table keys, m.tables.lookup table = some keys → keys ≠ []
  bounded : m.items.keys.length ≤ maxSize
  invalidates : ∀ tables key item, (m.invalidate tables).items.lookup key = some item ↔
    m.items.lookup key = some item ∧ ∀ table ∈ tables, table ∉ item.tables

/-- **The cache index is exact.** -/
theorem cache_index_exact (hsize : 1 ≤ maxSize) {actions : List (CacheAction V)}
    (hkeys : ∀ a ∈ actions, a.key ≠ some []) {m : Manager V}
    (hrun : run Manager.step ⟨∅, ∅, maxSize⟩ actions = some m) : Exact m maxSize := by
  have hkept : Kept maxSize m :=
    run_invariant (fun _ _ _ hs hkey hstep => hs.step hsize hkey hstep) (.empty maxSize)
      (along_of_forall_mem fun a ha _ => hkeys a ha) hrun
  exact ⟨hkept.indexed, hkept.full, hkept.bounded, fun _ _ _ => lookup_invalidate hkept.indexed⟩

def smallCache : List (CacheAction Nat) :=
  [.set (ascii "a") 1 10 [ascii "t", ascii "u", ascii "t"] 0 [] [],
    .set (ascii "b") 2 20 [ascii "u"] 1 [ascii "a"] [ascii "a"],
    .set (ascii "c") 3 30 [ascii "v"] 2 [ascii "b", ascii "a"] [ascii "a", ascii "b"],
    .set (ascii "b") 4 20 [ascii "t"] 3 [ascii "c", ascii "b"] [ascii "b", ascii "c"],
    .invalidate [ascii "v"], .cleanup 4]

theorem cache_index_exact_small :
    ∃ m : Manager Nat, run Manager.step ⟨∅, ∅, 2⟩ smallCache = some m ∧
      m.items.keys = [ascii "b"] ∧ Exact m 2 := by
  have hmoves : (run Manager.step (⟨∅, ∅, 2⟩ : Manager Nat) smallCache).any
      (fun m => decide (m.items.keys = [ascii "b"])) = true := by
    decide +kernel
  obtain ⟨m, hrun, hkeys⟩ := exists_run hmoves
  exact ⟨m, hrun, of_decide_eq_true hkeys, cache_index_exact (by decide) (by decide) hrun⟩

end Pontus.Cache
