import Pontus.Cache.Proofs.Manager
import Pontus.Protocol.ClientMessages
import Pontus.Proxy.Caching
import Pontus.Proxy.Proofs.CacheHandle
import Pontus.Proxy.System

/-!
# No stale reply behind a write

A stored reply may be older than a write to its tables only while the write is
still to evict it.  Two things can break this.  A reply is computed before a
write, and stored after the write has evicted what it found; or a write has
evicted at its statement what is stored again before its commit.  Along runs in
which neither happens, and no write fails behind its effect, a lookup never
answers with a reply older than a write that has returned.
-/

namespace Pontus.Proxy

open Lib Protocol Cache
open Function (update)

/-! ## The condition -/

def Write.touches (w : Write) (tables : List Bytes) : Bool :=
  w.tables.any fun t => decide (t ∈ tables)

theorem Write.touches_iff {w : Write} {tables : List Bytes} :
    w.touches tables ↔ ∃ t ∈ w.tables, t ∈ tables := by
  simp [Write.touches]

namespace Caching

def stores (s : Caching) (w : Write) : Bool :=
  s.manager.items.keys.any fun key =>
    (s.manager.items.lookup key).any fun item => w.touches item.tables

/-- A write to one of the tables that took effect later than the moment has
returned, so that nothing will evict what is stored now. -/
def overtaken (s : Caching) (computed : Nat) (tables : List Bytes) : Bool :=
  s.writes.any fun w =>
    w.returned && w.touches tables && w.effect.any fun effect => decide (computed < effect)

/-- The statements that write are those `Cache.Handle` takes for writes, and
their tables are among the ones it evicts. -/
def listsTables (s : Caching) : CachingStep → Bool
  | .execute i written _ =>
    match s.handling i with
    | .handed (.write session) => written.all fun t => decide (t ∈ session.queryInfo.affectedTables)
    | _ => written.isEmpty
  | _ => true

def evictsInTime (s : Caching) : CachingStep → Bool
  | .execute i _ .commits => s.writes.all fun w => !w.isOpen i || !w.returned || !s.stores w
  | .finish i o _ =>
    match s.handling i with
    | .executed (.miss _ session) computed =>
      !o.storable || !s.overtaken computed session.queryInfo.affectedTables
    | .executed (.write _) _ =>
      !o.failed || s.writes.all fun w =>
        w.session != i || w.returned || w.effect.isNone || !s.stores w
    | _ => true
  | .refreshEnds key captured _ =>
    (captured.getD []).isEmpty ||
      (s.refreshes.find? (·.key == key)).all fun r =>
        r.computed.all fun computed => !s.overtaken computed r.tables
  | _ => true

/-! ## The invariant -/

def Evicts (handling : Nat → Handling) (w : Write) : Prop :=
  ∃ session computed, handling w.session = .executed (.write session) computed ∧
    ∀ t ∈ w.tables, t ∈ session.queryInfo.affectedTables

/-- The reply under the key is as new as the writes to its tables, but for those
that are still to evict it. -/
def Fresh (writes : List Write) (item : Item Reply) : Prop :=
  ∀ w ∈ writes, ∀ effect, w.effect = some effect → w.touches item.tables = true →
    item.value.computed < effect → w.returned = false

structure Inv (s : Caching) : Prop where
  indexed : s.manager.WellIndexed
  pending : ∀ w ∈ s.writes, w.returned = false → Evicts s.handling w
  fresh : ∀ key item, s.manager.items.lookup key = some item → Fresh s.writes item

variable {cfg : CacheConfig} {s s' : Caching}

theorem stores_of_lookup (h : s.manager.items.lookup key = some item)
    (ht : w.touches item.tables) : s.stores w := by
  rw [stores, any_eq_true]
  refine ⟨key, AList.mem_keys.1 (AList.lookup_isSome.1 (by rw [h]; rfl)), ?_⟩
  rw [h]
  exact ht

theorem fresh_of_not_overtaken (h : s.overtaken item.value.computed item.tables = false) :
    Fresh s.writes item := by
  intro w hw _ heffect htouches hlt
  rw [overtaken, any_eq_false] at h
  have hnot := h w hw
  rw [htouches, heffect, any_some, decide_eq_true hlt, Bool.and_true, Bool.and_true] at hnot
  exact not_eq_true _ ▸ hnot

/-! ## Executions -/

theorem Evicts.update {handling : Nat → Handling} {w : Write} {i : Nat} (x : Handling)
    (h : Evicts handling w) (hne : w.session ≠ i) : Evicts (update handling i x) w := by
  obtain ⟨session, computed, hhandling, htables⟩ := h
  refine ⟨session, computed, ?_, htables⟩
  rw [update_of_ne hne]
  exact hhandling

theorem Inv.session_ne (hinv : s.Inv) (hw : w ∈ s.writes) (hreturned : w.returned = false)
    (hi : ∀ session computed, s.handling i ≠ .executed (.write session) computed) :
    w.session ≠ i := by
  rintro rfl
  obtain ⟨session, computed, hhandling, -⟩ := hinv.pending w hw hreturned
  exact hi session computed hhandling

/-- An execution adds a write that is still to evict, and lets writes of the same
session take effect. -/
theorem mem_writesAfter (h : w' ∈ s.writesAfter i written ending) :
    (∃ w ∈ s.writes, w'.session = w.session ∧ w'.tables = w.tables ∧ w'.returned = w.returned ∧
      (w'.effect = w.effect ∨ ending = .commits ∧ w.isOpen i = true)) ∨
      (w'.session = i ∧ w'.tables = written ∧ written ≠ [] ∧ w'.returned = false) := by
  have hwrote : ∀ w ∈ s.wrote i written, w ∈ s.writes ∨
      (w.session = i ∧ w.tables = written ∧ written ≠ [] ∧ w.returned = false) := by
    intro w hw
    unfold wrote at hw
    split at hw
    · exact .inl hw
    · rename_i hsome
      rcases mem_cons.1 hw with rfl | hw
      · exact .inr ⟨rfl, rfl, hsome, rfl⟩
      · exact .inl hw
  have hkept : ∀ w ∈ s.wrote i written, (∃ w₀ ∈ s.writes, w.session = w₀.session ∧
      w.tables = w₀.tables ∧ w.returned = w₀.returned ∧
      (w.effect = w₀.effect ∨ ending = .commits ∧ w₀.isOpen i = true)) ∨
      (w.session = i ∧ w.tables = written ∧ written ≠ [] ∧ w.returned = false) := by
    intro w hw
    exact (hwrote w hw).imp_left fun hw => ⟨w, hw, rfl, rfl, rfl, .inl rfl⟩
  cases ending with
  | staysOpen => exact hkept w' h
  | rollsBack => exact hkept w' (mem_filter.1 h).1
  | commits =>
    obtain ⟨w, hw, rfl⟩ := mem_map.1 h
    unfold Write.takeEffect
    split
    · rename_i hopen
      exact (hwrote w hw).imp_left fun hw => ⟨w, hw, rfl, rfl, rfl, .inr ⟨rfl, hopen⟩⟩
    · exact hkept w hw

theorem execute_inv (hinv : s.Inv) (hlists : s.listsTables (.execute i written ending))
    (htime : s.evictsInTime (.execute i written ending))
    (hstep : s.step cfg (.execute i written ending) = some s') : s'.Inv := by
  rw [step] at hstep
  split at hstep
  case h_2 => cases hstep
  case h_1 handed hhandling =>
    cases hstep
    have hnot : ∀ session computed, s.handling i ≠ .executed (.write session) computed := by
      intro session computed heq
      exact nomatch hhandling.symm.trans heq
    refine ⟨hinv.indexed, ?_, ?_⟩
    · intro w' hw' hreturned
      rcases mem_writesAfter hw' with
        ⟨w, hw, hsession, htables, hsame, -⟩ | ⟨hsession, htables, hsome, -⟩
      · rw [hsame] at hreturned
        have hne := hinv.session_ne hw hreturned hnot
        obtain ⟨session, computed, hevicts, hall⟩ :=
          (hinv.pending w hw hreturned).update (.executed handed s.moment) hne
        exact ⟨session, computed, hsession ▸ hevicts, htables ▸ hall⟩
      · -- the new write: its request is the one taken for a write
        rw [listsTables, hhandling] at hlists
        cases handed with
        | write session =>
          refine ⟨session, s.moment, ?_, ?_⟩
          · rw [hsession]
            exact update_self ..
          · intro t ht
            rw [htables] at ht
            exact of_decide_eq_true (all_eq_true.1 hlists t ht)
        | next session | hit entry
        | miss => exact absurd (List.isEmpty_iff.1 hlists) hsome
    · intro key item hitem _ hw' effect heffect htouches hlt
      rcases mem_writesAfter hw' with
        ⟨w, hw, -, htables, hsame, hsameEffect | ⟨rfl, hopen⟩⟩ | ⟨-, -, -, hreturned⟩
      · rw [hsame]
        rw [hsameEffect] at heffect
        rw [Write.touches, htables] at htouches
        exact hinv.fresh key item hitem w hw effect heffect htouches hlt
      · rw [hsame]
        rw [Write.touches, htables] at htouches
        have hall := all_eq_true.1 htime w hw
        rw [hopen, stores_of_lookup (s := s) hitem htouches, Bool.not_true, Bool.false_or,
          Bool.or_false, not_eq_true'] at hall
        exact hall
      · exact hreturned

/-! ## Returns -/

/-- `Cache.Handle` returns.  What is stored then is fresh, and has nothing of the
tables whose eviction ends with it. -/
theorem return_inv (hinv : s.Inv) (hindex : m.WellIndexed)
    (hfresh : ∀ key item, m.items.lookup key = some item → Fresh s.writes item)
    (hgone : ∀ key item, m.items.lookup key = some item → ∀ w ∈ s.writes, w.session = i →
      w.returned = false → w.effect.isSome → w.touches item.tables = false) :
    Inv { s with
      manager := m
      handling := update s.handling i .idle
      writes := s.writes.map (Write.handleReturns i) } := by
  refine ⟨hindex, ?_, ?_⟩
  · intro w' hw' hreturned
    obtain ⟨w, hw, rfl⟩ := mem_map.1 hw'
    unfold Write.handleReturns at hreturned ⊢
    split at hreturned
    · cases hreturned
    · rename_i hne
      rw [if_neg hne]
      exact (hinv.pending w hw hreturned).update .idle hne
  · intro key item hitem _ hw' effect heffect htouches hlt
    obtain ⟨w, hw, rfl⟩ := mem_map.1 hw'
    have hsame : (w.handleReturns i).tables = w.tables ∧ (w.handleReturns i).effect = w.effect := by
      unfold Write.handleReturns
      split <;> exact ⟨rfl, rfl⟩
    rw [hsame.2] at heffect
    rw [Write.touches, hsame.1] at htouches
    have hreturned := hfresh key item hitem w hw effect heffect htouches hlt
    by_cases hsession : w.session = i
    · have hnot := hgone key item hitem w hw hsession hreturned (by rw [heffect]; rfl)
      exact nomatch hnot.symm.trans htouches
    · rw [Write.handleReturns, if_neg hsession]
      exact hreturned

section
variable {i : Nat} {o : NextResult} {walks : Walks} {value : Reply}

theorem return_other (hinv : s.Inv)
    (hi : ∀ session computed, s.handling i ≠ .executed (.write session) computed)
    (hindex : m.WellIndexed)
    (hfresh : ∀ key item, m.items.lookup key = some item → Fresh s.writes item) :
    Inv { s with
      manager := m
      handling := update s.handling i .idle
      writes := s.writes.map (Write.handleReturns i) } := by
  refine return_inv hinv hindex hfresh fun key item hitem w hw hsession hreturned _ => ?_
  exact absurd hsession (hinv.session_ne hw hreturned hi)

theorem set_fresh (hinv : s.Inv) {key : Bytes} {tables : List Bytes}
    (hnot : s.overtaken value.computed tables = false) {k : Bytes} {item : Item Reply}
    (h : (s.manager.set key value cfg.ttl tables s.now walks.scan walks.rank).items.lookup k =
      some item) : Fresh s.writes item := by
  by_cases hk : k = key
  · rw [hk, lookup_set_self] at h
    cases h
    exact fresh_of_not_overtaken hnot
  · exact hinv.fresh k item (lookup_set hk h)

theorem invalidate_fresh (hinv : s.Inv)
    (h : (s.manager.invalidate tables).items.lookup k = some item) : Fresh s.writes item :=
  hinv.fresh k item ((lookup_invalidate hinv.indexed).1 h).1

theorem handed_inv (hinv : s.Inv) (hhandling : s.handling i = .handed handed)
    (hnothing : o.captured = []) :
    Inv { s with
      manager := cacheReturn cfg.ttl s.manager handed o value s.now walks
      handling := update s.handling i .idle
      writes := s.writes.map (Write.handleReturns i) } := by
  have hi : ∀ session computed, s.handling i ≠ .executed (.write session) computed := by
    intro session _ heq
    exact nomatch hhandling.symm.trans heq
  have hnot : o.storable = false := by
    rw [NextResult.storable, hnothing, bne_self_eq_false, Bool.and_false]
  cases handed with
  | miss =>
    rw [cacheReturn, hnot]
    exact return_other hinv hi hinv.indexed hinv.fresh
  | next session | hit entry => exact return_other hinv hi hinv.indexed hinv.fresh
  | write =>
    rw [cacheReturn]
    split
    · exact return_other hinv hi (hinv.indexed.invalidate _) fun _ _ => invalidate_fresh hinv
    · exact return_other hinv hi hinv.indexed hinv.fresh

theorem write_inv {session : Session} {computed : Nat} (hinv : s.Inv)
    (hhandling : s.handling i = .executed (.write session) computed)
    (htime : (!o.failed || s.writes.all fun w => w.session != i || w.returned ||
      w.effect.isNone || !s.stores w) = true) :
    Inv { s with
      manager := cacheReturn cfg.ttl s.manager (.write session) o value s.now walks
      handling := update s.handling i .idle
      writes := s.writes.map (Write.handleReturns i) } := by
  -- the tables of a write still to evict are the ones evicted now
  have hlisted : ∀ w ∈ s.writes, w.session = i → w.returned = false → ∀ t ∈ w.tables,
      t ∈ session.queryInfo.affectedTables := by
    intro w hw hsession hreturned
    obtain ⟨_, _, hevicts, htables⟩ := hinv.pending w hw hreturned
    rw [hsession, hhandling] at hevicts
    cases hevicts
    exact htables
  rw [cacheReturn]
  split
  · refine return_inv hinv (hinv.indexed.invalidate _) (fun _ _ => invalidate_fresh hinv) ?_
    intro key item hitem w hw hsession hreturned _
    have hnone := ((lookup_invalidate hinv.indexed).1 hitem).2
    rw [eq_false_iff, Ne, Write.touches_iff]
    rintro ⟨t, ht, htable⟩
    exact hnone t (hlisted w hw hsession hreturned t ht) htable
  · rename_i hkeeps
    refine return_inv hinv hinv.indexed hinv.fresh ?_
    intro _ _ hitem w hw hsession hreturned heffect
    rw [eq_false_iff]
    intro htouches
    by_cases hfail : o.failed = true
    · rw [hfail, Bool.not_true, Bool.false_or] at htime
      have hall := all_eq_true.1 htime w hw
      rw [hsession, hreturned, stores_of_lookup hitem htouches, Option.isNone_eq_false_iff.2
        heffect, bne_self_eq_false] at hall
      cases hall
    · have hempty : session.queryInfo.affectedTables = [] := by simpa [hfail] using hkeeps
      obtain ⟨t, ht, -⟩ := Write.touches_iff.1 htouches
      have hmem := hlisted w hw hsession hreturned t ht
      rw [hempty] at hmem
      exact not_mem_nil hmem

theorem finish_inv (hinv : s.Inv) (htime : s.evictsInTime (.finish i o walks))
    (hstep : s.step cfg (.finish i o walks) = some s') : s'.Inv := by
  rw [step, finish] at hstep
  rw [evictsInTime] at htime
  cases hhandling : s.handling i with
  | idle =>
    rw [hhandling] at hstep
    cases hstep
  | handed =>
    rw [hhandling] at hstep
    dsimp only at hstep
    split at hstep
    case isFalse => cases hstep
    case isTrue hnothing =>
      cases hstep
      exact handed_inv hinv hhandling hnothing
  | executed handed computed =>
    rw [hhandling] at hstep htime
    cases hstep
    cases handed with
    | next session | hit entry =>
      exact return_other hinv (fun _ _ heq => nomatch hhandling.symm.trans heq)
        hinv.indexed hinv.fresh
    | miss _ session =>
      have hi : ∀ session computed, s.handling i ≠ .executed (.write session) computed :=
        fun _ _ heq => nomatch hhandling.symm.trans heq
      rw [cacheReturn]
      split
      · rename_i hstorable
        dsimp only at htime
        rw [hstorable, Bool.not_true, Bool.false_or, not_eq_true'] at htime
        exact return_other hinv hi hinv.indexed.set fun k item hitem => set_fresh hinv htime hitem
      · exact return_other hinv hi hinv.indexed hinv.fresh
    | write => exact write_inv hinv hhandling htime

theorem refreshEnds_inv {key : Bytes} {captured : Option Bytes} (hinv : s.Inv)
    (htime : s.evictsInTime (.refreshEnds key captured walks))
    (hstep : s.step cfg (.refreshEnds key captured walks) = some s') : s'.Inv := by
  rw [step, refreshEnds] at hstep
  rw [evictsInTime] at htime
  split at hstep
  · cases hstep
  rename_i refresh hfound
  rw [hfound, all_some] at htime
  split at hstep
  · cases hstep
    exact ⟨hinv.indexed, hinv.pending, hinv.fresh⟩
  · rename_i bytes computed hcomputed
    split at hstep
    · cases hstep
      exact ⟨hinv.indexed, hinv.pending, hinv.fresh⟩
    · rename_i hsome
      cases hstep
      rw [hcomputed, all_some, getD_some, List.isEmpty_eq_false_iff.2 hsome,
        Bool.false_or, not_eq_true'] at htime
      exact ⟨hinv.indexed.set, hinv.pending, fun k item hitem => set_fresh hinv htime hitem⟩
  · cases hstep

end

/-! ## Runs -/

theorem lookup_inv (hinv : s.Inv) (hstep : s.step cfg (.lookup i session writeFails) = some s') :
    s'.Inv := by
  rw [step] at hstep
  split at hstep
  case h_2 => cases hstep
  case h_1 hidle =>
    split at hstep
    · cases hstep
      split
      · unfold revalidate
        split
        · exact hinv
        · exact ⟨hinv.indexed, hinv.pending, hinv.fresh⟩
      · exact hinv
    · cases hstep
      refine ⟨hinv.indexed, fun w hw hreturned => ?_, hinv.fresh⟩
      refine (hinv.pending w hw hreturned).update _ (hinv.session_ne hw hreturned ?_)
      exact fun _ _ heq => nomatch hidle.symm.trans heq

/-- **One move keeps what is stored fresh.** -/
theorem step_inv {a : CachingStep} (hinv : s.Inv) (hlists : s.listsTables a)
    (htime : s.evictsInTime a) (hstep : s.step cfg a = some s') : s'.Inv := by
  cases a with
  | lookup => exact lookup_inv hinv hstep
  | execute => exact execute_inv hinv hlists htime hstep
  | finish => exact finish_inv hinv htime hstep
  | abort =>
    cases hstep
    exact ⟨hinv.indexed, fun w hw => hinv.pending w (mem_filter.1 hw).1,
      fun key item hitem w hw => hinv.fresh key item hitem w (mem_filter.1 hw).1⟩
  | refreshed key | tick elapsed =>
    cases hstep
    exact ⟨hinv.indexed, hinv.pending, hinv.fresh⟩
  | refreshEnds => exact refreshEnds_inv hinv htime hstep
  | cleanup =>
    cases hstep
    exact ⟨hinv.indexed.cleanup s.now, hinv.pending,
      fun key item hitem => hinv.fresh key item (lookup_cleanup hitem)⟩

theorem start_inv (maxSize : Int) : (start maxSize).Inv :=
  ⟨wellIndexed_new maxSize, nofun,
    fun _ _ hitem => nomatch (AList.lookup_empty _).symm.trans hitem⟩

theorem lookup_of_get {entry : CacheEntry} (h : s.get key = some entry) :
    ∃ item, s.manager.items.lookup key = some item ∧ item.value.bytes = entry.response := by
  obtain ⟨_, hfound, rfl⟩ := map_eq_some_iff.1 h
  unfold Manager.get at hfound
  split at hfound
  · cases hfound
  · rename_i item hitem
    refine ⟨item, hitem, ?_⟩
    split at hfound
    · split at hfound
      · cases hfound
        rfl
      · cases hfound
    · cases hfound
      rfl

/-- **No lookup answers with a reply older than a write that has returned,** in
any interleaving in which evictions come in time. -/
theorem lookups_current (cfg : CacheConfig) (maxSize : Int) (steps : List CachingStep) (s : Caching)
    (hsteps : Along (step cfg) (fun s a => s.listsTables a = true ∧ s.evictsInTime a = true)
      (start maxSize) steps)
    (hrun : run (step cfg) (start maxSize) steps = some s) (session : Session) (entry : CacheEntry)
    (hhit : cacheHandle cfg.hash cfg.enabled s.get session = .hit entry) :
    ∃ item, s.manager.items.lookup (cacheKey cfg.hash session) = some item ∧
      item.value.bytes = entry.response ∧
      ∀ w ∈ s.writes, w.returned = true → ∀ effect, w.effect = some effect →
        ∀ t ∈ w.tables, t ∈ item.tables → effect ≤ item.value.computed := by
  have hinv : s.Inv := by
    apply run_invariant _ (start_inv maxSize) hsteps hrun
    intro _ _ _ hs ha hstep
    exact step_inv hs ha.1 ha.2 hstep
  obtain ⟨item, hitem, hbytes⟩ := lookup_of_get (get_of_hit hhit)
  refine ⟨item, hitem, hbytes, fun w hw hreturned effect heffect t ht htable => ?_⟩
  by_contra hlt
  rw [Nat.not_le] at hlt
  have htouches := Write.touches_iff.2 ⟨t, ht, htable⟩
  exact nomatch hreturned.symm.trans (hinv.fresh _ item hitem w hw effect heffect htouches hlt)

/-! ## A reply stored behind the eviction -/

def asking (text : Bytes) : Session := Session.new.receive .ascii (ClientMessage.query text).encode

def reading : Session := asking (ascii "SELECT n FROM stock")

def writing : Session := asking (ascii "UPDATE stock SET n = 0")

def plainCache : CacheConfig := ⟨id, true, 1000⟩

theorem answerable_reading : answerable plainCache.enabled reading := by decide +kernel

def noWalks : Walks := ⟨[], []⟩

def succeeds (captured : Bytes) : NextResult := ⟨false, false, captured⟩

def overtakenRead : List CachingStep :=
  [.lookup 0 reading false, .execute 0 [] .commits,
    .lookup 1 writing false, .execute 1 [ascii "stock"] .commits, .finish 1 (succeeds []) noWalks,
    .finish 0 (succeeds (ascii "n = 7")) noWalks]

theorem overtaken_reply_served :
    ∃ s entry item, run (step plainCache) (start 100) overtakenRead = some s ∧
      Along (step plainCache) (fun s a => s.listsTables a = true) (start 100) overtakenRead ∧
      cacheHandle plainCache.hash plainCache.enabled s.get reading = .hit entry ∧
      s.manager.items.lookup (cacheKey plainCache.hash reading) = some item ∧
      ∃ w ∈ s.writes, w.returned = true ∧ ∃ effect, w.effect = some effect ∧
        ascii "stock" ∈ w.tables ∧ ascii "stock" ∈ item.tables ∧ item.value.computed < effect := by
  obtain ⟨hlists, s, hrun, hs⟩ := exists_allowed_run (show
    Along (step plainCache) (fun s a => s.listsTables a = true) (start 100) overtakenRead ∧
    (run (step plainCache) (start 100) overtakenRead).any (fun s =>
      s.get (cacheKey plainCache.hash reading) == some ⟨ascii "n = 7", false⟩ &&
      s.manager.items.lookup (cacheKey plainCache.hash reading) ==
        some ⟨⟨ascii "n = 7", 0⟩, 1000, 2000, [ascii "stock"]⟩ &&
      s.writes == [⟨1, [ascii "stock"], some 1, true⟩]) = true by decide +kernel)
  rw [and_eq_true, and_eq_true, beq_iff_eq, beq_iff_eq, beq_iff_eq] at hs
  obtain ⟨⟨hget, hitem⟩, hwrites⟩ := hs
  refine ⟨s, ⟨ascii "n = 7", false⟩, _, hrun, hlists, ?_, hitem,
    ⟨1, [ascii "stock"], some 1, true⟩, ?_, rfl, 1, rfl, by decide, by decide, by decide⟩
  · exact hit_of_get answerable_reading hget
  · rw [hwrites]
    exact List.mem_singleton_self _

def readThenWritten : List CachingStep :=
  [.lookup 0 reading false, .execute 0 [] .commits, .finish 0 (succeeds (ascii "n = 7")) noWalks,
    .lookup 1 writing false, .execute 1 [ascii "stock"] .commits, .finish 1 (succeeds []) noWalks,
    .lookup 2 reading false, .execute 2 [] .commits, .finish 2 (succeeds (ascii "n = 0")) noWalks]

theorem reread_reply_current :
    ∃ s item, run (step plainCache) (start 100) readThenWritten = some s ∧
      s.manager.items.lookup (cacheKey plainCache.hash reading) = some item ∧
      item.value.bytes = ascii "n = 0" ∧
      ∀ w ∈ s.writes, w.returned = true → ∀ effect, w.effect = some effect →
        ∀ t ∈ w.tables, t ∈ item.tables → effect ≤ item.value.computed := by
  obtain ⟨hsteps, s, hrun, hs⟩ := exists_allowed_run (show
    Along (step plainCache) (fun s a => s.listsTables a = true ∧ s.evictsInTime a = true)
      (start 100) readThenWritten ∧
    (run (step plainCache) (start 100) readThenWritten).any (fun s =>
      s.get (cacheKey plainCache.hash reading) == some ⟨ascii "n = 0", false⟩) = true by
    decide +kernel)
  obtain ⟨item, hitem⟩ := lookups_current plainCache 100 readThenWritten s hsteps hrun reading
    ⟨ascii "n = 0", false⟩ (hit_of_get answerable_reading (beq_iff_eq.1 hs))
  exact ⟨s, item, hrun, hitem⟩

end Caching

end Pontus.Proxy
