import Pontus.Pool.PoolSet

/-!
# The ceilings of a backend

The number of pools stays within its bound whatever happens.  The connections
of all pools together are counted only when a pool is made, and the engines dial
up to their own ceilings afterwards: the count keeps the total within its
ceiling where the pools that are there when another is made are full.
-/

namespace Pontus.Pool

open Lib

theorem lookup_insert_cases {pools : AList fun _ : Identity => PoolEntry} {id id' : Identity}
    (h : (pools.insert id new).lookup id' = some entry) :
    entry = new ∨ pools.lookup id' = some entry := by
  by_cases hid : id' = id
  · subst hid
    rw [AList.lookup_insert, Option.some.injEq] at h
    exact .inl h.symm
  · rw [AList.lookup_insert_ne hid] at h
    exact .inr h

namespace PoolSet

variable {s s' t : PoolSet} {id : Identity}

structure Shrunk (s s' : PoolSet) : Prop where
  pools : s'.pools.keys.length ≤ s.pools.keys.length
  maxTotal : s'.maxTotal = s.maxTotal
  maxPools : s'.maxPools = s.maxPools
  kept : ∀ id entry, s'.pools.lookup id = some entry → s.pools.lookup id = some entry

theorem Shrunk.refl (s : PoolSet) : Shrunk s s := ⟨Nat.le_refl _, rfl, rfl, fun _ _ h => h⟩

theorem Shrunk.trans (h : Shrunk s s') (h' : Shrunk s' t) : Shrunk s t :=
  ⟨h'.pools.trans h.pools, h'.maxTotal.trans h.maxTotal, h'.maxPools.trans h.maxPools,
    fun id entry hentry => h.kept id entry (h'.kept id entry hentry)⟩

theorem shrunk_erase (s : PoolSet) (id : Identity) :
    Shrunk s { s with pools := s.pools.erase id } where
  pools := length_keys_erase_le s.pools id
  maxTotal := rfl
  maxPools := rfl
  kept := by
    intro id' entry hentry
    by_cases hid : id' = id
    · subst hid
      rw [AList.lookup_erase] at hentry
      cases hentry
    · rwa [AList.lookup_erase_ne hid] at hentry

theorem mem_of_idler (h : s.idler victim id = some v) : victim = some v ∨ v.1 ∈ s.pools := by
  unfold idler at h
  split at h
  · exact .inl h
  rename_i entry hlookup
  have hid : id ∈ s.pools := AList.lookup_isSome.1 (by rw [hlookup]; rfl)
  split at h
  · exact .inl h
  split at h
  · cases h
    exact .inr hid
  · split at h
    · cases h
      exact .inr hid
    · exact .inl h

theorem mem_of_idlest (h : s.idlest order = some v) : v.1 ∈ s.pools := by
  suffices hwalk : ∀ (ids : List Identity) (victim : Option (Identity × Int)),
      ids.foldl s.idler victim = some v → victim = some v ∨ v.1 ∈ s.pools from
    (hwalk _ none h).resolve_left (by simp)
  intro ids
  induction ids with
  | nil => exact fun victim hv => .inl hv
  | cons _ _ ih =>
    intro _ hv
    rcases ih _ hv with hstep | hmem
    · exact mem_of_idler hstep
    · exact .inr hmem

theorem evicted (h : s.evictIdlestLocked order = some s') :
    Shrunk s s' ∧ s'.pools.keys.length < s.pools.keys.length := by
  obtain ⟨victim, hvictim, rfl⟩ := map_eq_some_iff.1 h
  refine ⟨shrunk_erase s victim.1, ?_⟩
  have hmem := AList.mem_keys.1 (mem_of_idlest hvictim)
  have hpos := List.length_pos_of_mem hmem
  simp only [AList.keys_erase, List.length_erase_of_mem hmem]
  omega

theorem shrunk_eraseAll (s : PoolSet) (ids : List Identity) :
    Shrunk s { s with pools := ids.foldl (fun pools id => pools.erase id) s.pools } := by
  induction ids generalizing s with
  | nil => exact .refl s
  | cons id _ ih =>
    have hrest := ih { s with pools := s.pools.erase id }
    exact (shrunk_erase s id).trans hrest

theorem reaped (s : PoolSet) (now : Int) : Shrunk s (s.reapLocked now) := by
  unfold reapLocked
  split
  · exact .refl s
  · exact shrunk_eraseAll s _

/-- The total is below the ceiling, or a pool was given up for the new one. -/
theorem roomEnsured (h : s.ensureRoomLocked order = .ok s') :
    Shrunk s s' ∧ (s.maxTotal ≤ 0 ∨ s'.totalLocked < s.maxTotal ∨
      s'.pools.keys.length < s.pools.keys.length) := by
  unfold ensureRoomLocked at h
  split at h
  · rename_i hroom
    cases h
    exact ⟨.refl s, hroom.imp_right .inl⟩
  · split at h
    · rename_i hevicted
      cases h
      obtain ⟨hshrunk, hless⟩ := evicted hevicted
      exact ⟨hshrunk, .inr (.inr hless)⟩
    · simp at h

/-- What `get` does: a pool is there, pools are dropped and none is made, or one
without connections is made behind them. -/
inductive Got (s : PoolSet) (id : Identity) (env : GetEnv) : PoolSet → Prop
  | found {entry : PoolEntry} {now : Int} (hlookup : s.pools.lookup id = some entry) :
      Got s id env { s with pools := s.pools.insert id { entry with lastUsed := now } }
  | refused {left : PoolSet} (hshrunk : Shrunk s left) : Got s id env left
  | made {left : PoolSet} {number cores : Nat} {now : Int}
      (hmissing : s.pools.lookup id = none) (hshrunk : Shrunk s left)
      (hroom : s.pools.keys.length ≤ s.maxPools → left.pools.keys.length < s.maxPools)
      (hchecked : s.maxTotal ≤ 0 ∨ left.totalLocked < s.maxTotal ∨
        left.pools.keys.length < s.pools.keys.length) :
      Got s id env { left with
        pools := left.pools.insert id
          ⟨Core.new number (ceilingFor env.maxConns env.databaseLimit), now⟩
        cores := cores }

theorem got_of_get (s : PoolSet) (id : Identity) (env : GetEnv) :
    Got s id env (s.get id env).1 := by
  unfold get
  split
  · exact .refused (.refl s)
  split
  · rename_i entry hlookup
    exact .found hlookup
  rename_i hmissing
  have hreaped := reaped s env.reapAt
  dsimp only
  split
  · exact .refused hreaped
  rename_i freed hfreed
  -- behind the first eviction there is room for one more pool
  have hroom : Shrunk s freed ∧
      (s.pools.keys.length ≤ s.maxPools → freed.pools.keys.length < s.maxPools) := by
    have hpools := hreaped.pools
    rw [hreaped.maxPools] at hfreed
    split at hfreed
    · obtain ⟨hshrunk, _⟩ := evicted hfreed
      exact ⟨hreaped.trans hshrunk, by omega⟩
    · cases hfreed
      exact ⟨hreaped, by omega⟩
  split
  · exact .refused hroom.1
  rename_i left hleft
  obtain ⟨hensured, hchecked⟩ := roomEnsured hleft
  have hpools := hroom.1.pools
  rw [hroom.1.maxTotal] at hchecked
  split
  · exact .refused (hroom.1.trans hensured)
  · exact .made hmissing (hroom.1.trans hensured)
      (fun hbound => Nat.lt_of_le_of_lt hensured.pools (hroom.2 hbound))
      (hchecked.imp_right (.imp_right fun hless => Nat.lt_of_lt_of_le hless hpools))

theorem length_keys_found (h : s.pools.lookup id = some entry)
    (hbound : s.pools.keys.length ≤ bound) : (s.pools.insert id new).keys.length ≤ bound :=
  length_keys_insert_le (.inl (AList.lookup_isSome.1 (by rw [h]; rfl))) hbound

theorem Got.pools_le (h : Got s id env s') (hbound : s.pools.keys.length ≤ s.maxPools) :
    s'.maxPools = s.maxPools ∧ s'.pools.keys.length ≤ s.maxPools := by
  cases h with
  | found hlookup => exact ⟨rfl, length_keys_found hlookup hbound⟩
  | refused hshrunk => exact ⟨hshrunk.maxPools, hshrunk.pools.trans hbound⟩
  | made _ hshrunk hroom =>
    have hless := hroom hbound
    exact ⟨hshrunk.maxPools, length_keys_insert_le (.inr hless) hless.le⟩

theorem onCore_cases (h : s.onCore id core f = some s') :
    (∃ entry c, s.pools.lookup id = some entry ∧ f entry.core = some c ∧
      s' = { s with pools := s.pools.insert id { entry with core := c } }) ∨ s' = s := by
  unfold onCore at h
  split at h
  · rename_i entry hlookup
    split at h
    · obtain ⟨c, hc, rfl⟩ := map_eq_some_iff.1 h
      exact .inl ⟨entry, c, hlookup, hc, rfl⟩
    · cases h
      exact .inr rfl
  · cases h
    exact .inr rfl

/-- The steps that are an engine's, with what they do to it. -/
theorem step_cases (h : s.step a = some s') :
    (∃ id env, a = .get id env ∧ Got s id env s') ∨ s' = s.close ∨
      ∃ id number f, s.onCore id number f = some s' ∧
        ((∃ configured limit, a = .resize id number configured limit ∧
            f = fun c => some { c with maxConns := ceilingFor configured limit }) ∨
          f = Core.dial ∨ f = Core.reuse ∨ (∃ kept, f = (Core.release · kept)) ∨
          f = Core.expire) := by
  cases a with
  | get id env =>
    cases h
    exact .inl ⟨id, env, rfl, got_of_get s id env⟩
  | close =>
    cases h
    exact .inr (.inl rfl)
  | dial id number => exact .inr (.inr ⟨id, number, _, h, by simp⟩)
  | reuse id number => exact .inr (.inr ⟨id, number, _, h, by simp⟩)
  | release id number kept =>
    have h : s.onCore id number (Core.release · kept) = some s' := h
    exact .inr (.inr ⟨id, number, _, h, .inr (.inr (.inr (.inl ⟨kept, rfl⟩)))⟩)
  | expire id number => exact .inr (.inr ⟨id, number, _, h, by simp⟩)
  | resize id number configured limit =>
    have h : s.onCore id number (fun c => some { c with maxConns := ceilingFor configured limit }) =
      some s' := h
    exact .inr (.inr ⟨id, number, _, h, .inl ⟨configured, limit, rfl, rfl⟩⟩)

theorem pools_le_step (hbound : s.pools.keys.length ≤ s.maxPools) (h : s.step a = some s') :
    s'.maxPools = s.maxPools ∧ s'.pools.keys.length ≤ s.maxPools := by
  obtain ⟨_, _, -, hgot⟩ | rfl | ⟨_, _, _, hcore, -⟩ := step_cases h
  · exact hgot.pools_le hbound
  · exact ⟨rfl, Nat.zero_le _⟩
  · obtain ⟨_, _, hlookup, -, rfl⟩ | rfl := onCore_cases hcore
    · exact ⟨rfl, length_keys_found hlookup hbound⟩
    · exact ⟨rfl, hbound⟩

/-! ## Connections -/

structure Within (perPool : Nat) (c : Core) : Prop where
  ceiling : c.maxConns ≤ perPool
  conns : c.totalConnections ≤ perPool

/-- No engine is given a ceiling above `perPool`, and a pool is made only while
fewer than `slots` are there or each that is there has `perPool` connections
open. -/
def fillsFirst (perPool slots : Nat) (s : PoolSet) : PoolAction → Bool
  | .get id env =>
    (s.pools.lookup id).isSome ||
      decide (ceilingFor env.maxConns env.databaseLimit ≤ perPool) &&
        (decide (s.pools.keys.length < slots) ||
          s.pools.entries.all fun e => decide (perPool ≤ e.2.core.totalConnections))
  | .resize _ _ configured limit => decide (ceilingFor configured limit ≤ perPool)
  | _ => true

structure Filled (perPool slots : Nat) (s : PoolSet) : Prop where
  maxTotal : s.maxTotal = (perPool * slots : Nat)
  pools : s.pools.keys.length ≤ slots
  cores : ∀ id entry, s.pools.lookup id = some entry → Within perPool entry.core

namespace Filled

variable {perPool slots : Nat} (h : Filled perPool slots s)
include h

theorem openConns_le : s.openConns ≤ perPool * slots := by
  have hweight : s.openConns ≤ s.pools.keys.length * perPool :=
    weight_le fun id entry hlookup => (h.cores id entry hlookup).conns
  rw [Nat.mul_comm perPool]
  exact hweight.trans (Nat.mul_le_mul_right _ h.pools)

theorem shrunk (hshrunk : Shrunk s s') : Filled perPool slots s' :=
  ⟨hshrunk.maxTotal.trans h.maxTotal, hshrunk.pools.trans h.pools,
    fun id entry hentry => h.cores id entry (hshrunk.kept id entry hentry)⟩

theorem replace (hlookup : s.pools.lookup id = some entry) (hnew : Within perPool new.core) :
    Filled perPool slots { s with pools := s.pools.insert id new } := by
  refine ⟨h.maxTotal, length_keys_found hlookup h.pools, fun id' entry' hentry => ?_⟩
  obtain rfl | hentry := lookup_insert_cases hentry
  · exact hnew
  · exact h.cores id' entry' hentry

/-- Where all pools are full, the count below the ceiling says that one more
fits. -/
theorem lt_slots (hfull : ∀ id entry, s.pools.lookup id = some entry →
      perPool ≤ entry.core.totalConnections) (hsize : perPool * slots < 2 ^ 31)
    (hroom : s.totalLocked < s.maxTotal) : s.pools.keys.length < slots := by
  have hle := h.openConns_le
  have hcount : s.totalLocked = s.openConns := by
    rw [totalLocked, int32]
    apply Int.bmod_eq_of_le <;> omega
  have hweight : s.pools.keys.length * perPool ≤ s.openConns :=
    le_weight fun id entry hlookup => hfull id entry hlookup
  rw [hcount, h.maxTotal] at hroom
  have hless : s.pools.keys.length * perPool < slots * perPool := by
    rw [Nat.mul_comm slots]
    omega
  exact Nat.lt_of_mul_lt_mul_right hless

theorem get (hpositive : 0 < perPool * slots) (hsize : perPool * slots < 2 ^ 31)
    (hallowed : s.fillsFirst perPool slots (.get id env) = true) (hgot : Got s id env s') :
    Filled perPool slots s' := by
  cases hgot with
  | found hlookup =>
    have hwithin := h.cores _ _ hlookup
    exact h.replace hlookup hwithin
  | refused hshrunk => exact h.shrunk hshrunk
  | @made left _ _ _ hmissing hshrunk _ hchecked =>
    simp only [fillsFirst, hmissing, Option.isSome_none, Bool.false_or, and_eq_true, or_eq_true,
      decide_eq_true_eq, all_eq_true] at hallowed
    obtain ⟨hceiling, hfew⟩ := hallowed
    have hleft := h.shrunk hshrunk
    have hless : left.pools.keys.length < slots := by
      rcases hfew with hfew | hfull
      · exact Nat.lt_of_le_of_lt hshrunk.pools hfew
      rcases hchecked with hnone | hroom | hless
      · rw [h.maxTotal] at hnone
        omega
      · rw [← hshrunk.maxTotal] at hroom
        refine hleft.lt_slots (fun id' entry hentry => ?_) hsize hroom
        exact hfull ⟨id', entry⟩ (AList.mem_lookup_iff.1 (hshrunk.kept id' entry hentry))
      · exact Nat.lt_of_lt_of_le hless h.pools
    refine ⟨hleft.maxTotal, length_keys_insert_le (.inr hless) hless.le, ?_⟩
    intro id' entry hentry
    obtain rfl | hentry := lookup_insert_cases hentry
    · exact ⟨hceiling, Nat.zero_le _⟩
    · exact hleft.cores id' entry hentry

theorem onCore (hcore : s.onCore id number f = some s')
    (hf : ∀ c c', f c = some c' → Within perPool c → Within perPool c') :
    Filled perPool slots s' := by
  obtain ⟨entry, c, hlookup, hc, rfl⟩ | rfl := onCore_cases hcore
  · exact h.replace hlookup (hf _ _ hc (h.cores _ _ hlookup))
  · exact h

/-- **One step.** -/
theorem step (hpositive : 0 < perPool * slots) (hsize : perPool * slots < 2 ^ 31)
    (hallowed : s.fillsFirst perPool slots a = true) (hstep : s.step a = some s') :
    Filled perPool slots s' := by
  obtain ⟨_, _, rfl, hgot⟩ | rfl | ⟨_, _, f, hcore, hf⟩ := step_cases hstep
  · exact h.get hpositive hsize hallowed hgot
  · exact ⟨h.maxTotal, Nat.zero_le _, fun _ _ hentry => by cases hentry⟩
  · refine h.onCore hcore fun c c' hc hwithin => ?_
    obtain ⟨hceiling, hconns⟩ := hwithin
    unfold Core.totalConnections at hconns
    obtain ⟨configured, limit, rfl, rfl⟩ | rfl | rfl | ⟨kept, rfl⟩ | rfl := hf
    · cases hc
      exact ⟨of_decide_eq_true hallowed, hconns⟩
    · simp only [Core.dial, Option.ite_none_right_eq_some, Option.some.injEq] at hc
      obtain ⟨hroom, rfl⟩ := hc
      unfold Core.totalConnections at hroom
      exact ⟨hceiling, by simp only [Core.totalConnections]; omega⟩
    · simp only [Core.reuse, Option.ite_none_right_eq_some, Option.some.injEq] at hc
      obtain ⟨hidle, rfl⟩ := hc
      exact ⟨hceiling, by simp only [Core.totalConnections]; omega⟩
    · simp only [Core.release, Option.ite_none_right_eq_some, Option.some.injEq] at hc
      obtain ⟨hactive, rfl⟩ := hc
      exact ⟨hceiling, by simp only [Core.totalConnections]; split <;> omega⟩
    · simp only [Core.expire, Option.ite_none_right_eq_some, Option.some.injEq] at hc
      obtain ⟨hidle, rfl⟩ := hc
      exact ⟨hceiling, by simp only [Core.totalConnections]; omega⟩

end Filled

end PoolSet

open PoolSet

def fiveUsers : List Identity :=
  ["ann", "bob", "cat", "dan", "eve"].map fun user => ⟨ascii user, ascii "app"⟩

def asksForPools (users : List Identity) : List PoolAction :=
  users.map fun user => .get user ⟨0, 0, [], [], 1, 0, true⟩

def dialsEach (users : List Identity) : List PoolAction :=
  users.mapIdx fun core user => .dial user core

/-- Four pools are filled; a fifth is made when one of the four is idle, which is
given up for it. -/
def fillsFour : List PoolAction :=
  asksForPools (fiveUsers.take 4) ++ dialsEach (fiveUsers.take 4) ++
    [.release ⟨ascii "ann", ascii "app"⟩ 0 true] ++ asksForPools fiveUsers ++
    [.dial ⟨ascii "eve", ascii "app"⟩ 4]

end Pontus.Pool
