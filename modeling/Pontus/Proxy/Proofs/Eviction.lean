import Pontus.Proxy.Proofs.Coherence

/-!
# Writes that evict, and writes that do not

A write evicts what it makes stale only on one way through `Cache.Handle`: as a
simple query, taken for a write by its text, that comes back without an error;
and then the tables its text was seen to name.  A write that is carried by the
extended protocol goes past the cache, and the entries it makes stale stay.
-/

namespace Pontus.Proxy

open Lib Protocol Cache

/-- When `Cache.Handle` returns for a request the backend executed, no entry is
left that was read from a table it wrote to: whatever other sessions made of the
manager in the meantime. -/
def EvictsWritten (hash : Bytes → Bytes) (enabled : Bool) (ttl : Time) (s : Session)
    (o : NextResult) (written : List Bytes) : Prop :=
  ∀ (get : Bytes → Option CacheEntry) (m : Manager Bytes), Reached m →
    (∀ entry, cacheHandle hash enabled get s ≠ .hit entry) → ∀ now walks key item,
      (cacheReturn ttl m (cacheHandle hash enabled get s) o o.captured now walks).items.lookup key =
        some item → ∀ t ∈ written, t ∉ item.tables

/-- The request is a simple query taken for a write, its text names the tables
it writes to, and it comes back without an error. -/
def evictsTables (enabled : Bool) (s : Session) (o : NextResult) (written : List Bytes) : Bool :=
  enabled && s.normalized != [] && cacheable s.data && !s.queryInfo.readOnly && !o.failed &&
    written.all fun t => decide (t ∈ s.queryInfo.affectedTables)

def oneEntry (key table : Bytes) : Manager Bytes :=
  (newManagerWithSize 2).set key [] 0 [table] 0 [] []

theorem reached_oneEntry (key table : Bytes) : Reached (oneEntry key table) :=
  .set (.new 2) key [] 0 [table] 0 [] []

theorem lookup_oneEntry (key table : Bytes) :
    (oneEntry key table).items.lookup key = some ⟨[], 0, 0, [table]⟩ := lookup_set_self

theorem lookup_set_oneEntry (hk : k ≠ key) (value : Bytes) (ttl : Time) (tables : List Bytes)
    (now : Time) (scan rank : List Bytes) :
    ((oneEntry key table).set k value ttl tables now scan rank).items.lookup key =
      some ⟨[], 0, 0, [table]⟩ := by
  have hroom : (((oneEntry key table).unindexOld k).makeRoom now scan rank).items =
      (oneEntry key table).items := by
    have hsize : ((oneEntry key table).unindexOld k).maxSize = 2 := by
      unfold Manager.unindexOld
      split <;> rfl
    have hlen : (oneEntry key table).items.keys.length = 1 := rfl
    rw [Manager.makeRoom, if_neg, items_unindexOld]
    rw [hsize, items_unindexOld, hlen]
    decide
  exact (AList.lookup_insert_ne hk.symm).trans (by rw [hroom]; exact lookup_oneEntry key table)

variable {hash : Bytes → Bytes} {enabled : Bool} {ttl : Time} {s : Session} {o : NextResult}
  {written : List Bytes}

theorem not_evictsWritten {step : CacheStep}
    (hstep : cacheHandle hash enabled (fun _ => none) s = step)
    (hmiss : ∀ entry, step ≠ .hit entry) (key : Bytes) (ht : t ∈ written)
    (hkept : (cacheReturn ttl (oneEntry key t) step o o.captured 0 ⟨[], []⟩).items.lookup key =
      some ⟨[], 0, 0, [t]⟩) : ¬ EvictsWritten hash enabled ttl s o written := by
  intro hevicts
  rw [← hstep] at hkept hmiss
  exact hevicts (fun _ => none) (oneEntry key t) (reached_oneEntry key t) hmiss 0 ⟨[], []⟩ key
    ⟨[], 0, 0, [t]⟩ hkept t ht (List.mem_singleton_self t)

theorem lookup_unlisted (hnot : t ∉ s.queryInfo.affectedTables) :
    (cacheReturn ttl (oneEntry [] t) (.write s) o o.captured 0 ⟨[], []⟩).items.lookup [] =
      some ⟨[], 0, 0, [t]⟩ := by
  rw [cacheReturn]
  split
  · refine (lookup_invalidate (reached_oneEntry [] t).wellIndexed).2 ⟨lookup_oneEntry [] t, ?_⟩
    intro _ htable hmem
    rw [mem_singleton.1 hmem] at htable
    exact hnot htable
  · exact lookup_oneEntry [] t

theorem evictsWritten_of_evictsTables (h : evictsTables enabled s o written) :
    EvictsWritten hash enabled ttl s o written := by
  simp only [evictsTables, and_eq_true, bne_iff_ne, not_eq_true', all_eq_true,
    decide_eq_true_eq] at h
  obtain ⟨⟨⟨⟨⟨henabled, hnormalized⟩, hcacheable⟩, hwrite⟩, hok⟩, hlisted⟩ := h
  intro get _ hm _ _ _ _ _ hitem t ht
  have hhandled : cacheHandle hash enabled get s = .write s := by
    rw [cacheHandle, henabled, hcacheable, hwrite, beq_eq_false_iff_ne.2 hnormalized]
    rfl
  have hsome : s.queryInfo.affectedTables ≠ [] := List.ne_nil_of_mem (hlisted t ht)
  rw [hhandled, cacheReturn, hok, bne_iff_ne.2 hsome] at hitem
  exact ((lookup_invalidate hm.wellIndexed).1 hitem).2 t (hlisted t ht)

/-- **A write evicts what it makes stale** exactly when it is a simple query
taken for a write that names its tables and comes back without an error. -/
theorem written_tables_evicted_iff (hash : Bytes → Bytes) (enabled : Bool) (ttl : Time)
    (s : Session) (o : NextResult) (written : List Bytes) (hwritten : written ≠ []) :
    EvictsWritten hash enabled ttl s o written ↔ evictsTables enabled s o written = true := by
  refine ⟨fun hevicts => ?_, evictsWritten_of_evictsTables⟩
  obtain ⟨t, ht⟩ := List.exists_mem_of_ne_nil written hwritten
  cases hstep : cacheHandle hash enabled (fun _ => none) s with
  | hit => exact nomatch get_of_hit hstep
  | next =>
    refine absurd hevicts (not_evictsWritten hstep (fun _ => CacheStep.noConfusion) [] ht ?_)
    exact lookup_oneEntry [] t
  | write =>
    cases handled_of_eq hstep with
    | write henabled hnormalized hcacheable hwrite =>
      have hsucceeded : o.failed = false := by
        rw [eq_false_iff]
        intro hfailed
        refine not_evictsWritten hstep (fun _ => CacheStep.noConfusion) [] ht ?_ hevicts
        rw [cacheReturn, hfailed]
        exact lookup_oneEntry [] t
      have hlisted : ∀ t ∈ written, t ∈ s.queryInfo.affectedTables := by
        intro t ht
        by_contra hnot
        refine not_evictsWritten hstep (fun _ => CacheStep.noConfusion) [] ht ?_ hevicts
        exact lookup_unlisted hnot
      simp only [evictsTables, and_eq_true, bne_iff_ne, not_eq_true',
        all_eq_true, decide_eq_true_eq]
      exact ⟨⟨⟨⟨⟨henabled, hnormalized⟩, hcacheable⟩, hwrite⟩, hsucceeded⟩, hlisted⟩
  | miss key =>
    -- stored beside the new entry, under a key of its own
    have hkey : key ≠ 0 :: key := (List.cons_ne_self 0 key).symm
    refine absurd hevicts (not_evictsWritten hstep (fun _ => CacheStep.noConfusion) (0 :: key)
      ht ?_)
    rw [cacheReturn]
    split
    · exact lookup_set_oneEntry hkey _ _ _ _ _ _
    · exact lookup_oneEntry _ t

theorem size_bind : 4 + ([0, 0, 0, 0, 0, 0, 0, 0] : Bytes).length < 2 ^ 32 := by decide

theorem size_execute : 4 + ([0, 0, 0, 0, 0] : Bytes).length < 2 ^ 32 := by decide

def insertRequest : Bytes :=
  (ClientMessage.parse [] (ascii "INSERT INTO stock VALUES (1)") []).encode ++
    Frame.encodeAll [⟨'B'.toUInt8, [0, 0, 0, 0, 0, 0, 0, 0], size_bind⟩,
      ⟨'E'.toUInt8, [0, 0, 0, 0, 0], size_execute⟩, ⟨'S'.toUInt8, [], Frame.size_nil⟩]

def inserting : Session := Session.new.receive .ascii insertRequest

def succeeded : NextResult := ⟨false, false, []⟩

theorem extended_write_keeps_entry :
    ascii "stock" ∈ inserting.queryInfo.affectedTables ∧ inserting.queryInfo.readOnly = false ∧
      Reached (oneEntry [] (ascii "stock")) ∧
      ∃ item, (cacheReturn 1000 (oneEntry [] (ascii "stock"))
          (cacheHandle id true (fun _ => none) inserting) succeeded [] 0
          ⟨[], []⟩).items.lookup [] = some item ∧ ascii "stock" ∈ item.tables := by
  have hkept : ascii "stock" ∈ inserting.queryInfo.affectedTables ∧
      inserting.queryInfo.readOnly = false ∧
      (cacheReturn 1000 (oneEntry [] (ascii "stock"))
        (cacheHandle id true (fun _ => none) inserting) succeeded [] 0 ⟨[], []⟩).items.lookup [] =
          some ⟨[], 0, 0, [ascii "stock"]⟩ := by
    decide +kernel
  exact ⟨hkept.1, hkept.2.1, reached_oneEntry _ _, _, hkept.2.2, List.mem_singleton_self _⟩

theorem simple_write_evicts :
    evictsTables true Caching.writing succeeded [ascii "stock"] = true ∧
      EvictsWritten id true 1000 Caching.writing succeeded [ascii "stock"] := by
  have hevicts : evictsTables true Caching.writing succeeded [ascii "stock"] = true := by
    decide +kernel
  exact ⟨hevicts, (written_tables_evicted_iff id true 1000 Caching.writing succeeded
    [ascii "stock"] (by decide)).2 hevicts⟩

end Pontus.Proxy
