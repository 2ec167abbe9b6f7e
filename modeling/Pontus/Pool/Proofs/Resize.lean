import Pontus.Pool.Server

/-!
# A resize is uniform

A resize that no pool refuses gives every pool, and every pool made later, the
lower of the number asked for and the rule of its database.  One that a pool
refuses has still changed the template and the pools that took it.
-/

namespace Pontus.Pool

open Lib

variable {n : Int} {p : Server} {pool : Identity × Engine} {s : ServerPools}

/-- What a pool is to have: the number, or the rule of its database where it has
one and that is lower. -/
def capped (n limit : Int) : Int := if 0 < limit then min n limit else n

theorem ceilingFor_eq_capped (n limit : Int) : ceilingFor n limit = capped n limit := by
  unfold ceilingFor capped
  split_ifs <;> omega

theorem maxConns_newPool (p : Server) (id : Identity) :
    (p.newPool id).maxConns = capped p.coreConfig.maxConns (p.limitFor id.database) := by
  unfold Server.newPool
  dsimp only
  split_ifs with hlimit
  · exact ceilingFor_eq_capped _ _
  · rw [capped, if_neg hlimit]

namespace ServerPools

def target (p : Server) (n : Int) (id : Identity) : Int := capped n (p.limitFor id.database)

def resized (p : Server) (n : Int) (pool : Identity × Engine) : Identity × Engine :=
  (pool.1, (pool.2.setMaxConns (target p n pool.1)).1)

def refusal (p : Server) (n : Int) (pool : Identity × Engine) : Option Refusal :=
  (pool.2.setMaxConns (target p n pool.1)).2

theorem resizeEach_eq (p : Server) (n : Int) (pools : List (Identity × Engine))
    (firstErr : Option Refusal) :
    resizeEach p n pools firstErr =
      (pools.map (resized p n), firstErr.or (pools.findSome? (refusal p n))) := by
  induction pools generalizing firstErr with
  | nil => simp [resizeEach]
  | cons pool _ ih =>
    obtain ⟨id, core⟩ := pool
    simp only [resizeEach, ih, ceilingFor_eq_capped, map_cons, List.findSome?_cons,
      Option.or_assoc, resized, refusal, target]
    cases (core.setMaxConns (capped n (p.limitFor id.database))).2 <;> simp

theorem setMaxConns_eq (s : ServerPools) (n : Int) :
    s.setMaxConns n = (⟨s.server.setMaxConns n, s.pools.map (resized s.server n)⟩,
      s.pools.findSome? (refusal s.server n)) := by
  rw [setMaxConns, resizeEach_eq]
  rfl

theorem resized_of_accepts (h : pool.2.accepts (target p n pool.1)) :
    resized p n pool = (pool.1, { pool.2 with maxConns := target p n pool.1 }) := by
  rw [resized, Engine.setMaxConns, if_pos h]

theorem resized_of_refuses (h : pool.2.accepts (target p n pool.1) = false) :
    resized p n pool = pool := by
  simp [resized, Engine.setMaxConns, h]

theorem refusal_eq_none_iff :
    refusal p n pool = none ↔ pool.2.accepts (target p n pool.1) := by
  unfold refusal Engine.setMaxConns
  split_ifs with h <;> simp [h]

def Accepted (s : ServerPools) (n : Int) : Prop :=
  ∀ pool ∈ s.pools, pool.2.accepts (target s.server n pool.1) = true

theorem setMaxConns_eq_none_iff (s : ServerPools) (n : Int) :
    (s.setMaxConns n).2 = none ↔ s.Accepted n := by
  rw [setMaxConns_eq, List.findSome?_eq_none_iff]
  simp only [refusal_eq_none_iff]
  rfl

def ceilings (s : ServerPools) : List (Identity × Int) :=
  s.pools.map fun pool => (pool.1, pool.2.maxConns)

theorem laterCeiling_setMaxConns (s : ServerPools) (n : Int) (id : Identity) :
    (s.setMaxConns n).1.laterCeiling id = target s.server n id := by
  rw [laterCeiling, setMaxConns_eq, maxConns_newPool]
  rfl

theorem ceilings_of_accepted (h : s.Accepted n) :
    (s.setMaxConns n).1.ceilings = s.pools.map fun pool => (pool.1, target s.server n pool.1) := by
  rw [ceilings, setMaxConns_eq, map_map]
  apply List.map_congr_left
  intro pool hpool
  rw [Function.comp_apply, resized_of_accepts (h pool hpool)]

theorem ceilings_eq_iff (s : ServerPools) (n : Int) :
    (s.setMaxConns n).1.ceilings = s.ceilings ↔ ∀ pool ∈ s.pools,
      pool.2.accepts (target s.server n pool.1) → pool.2.maxConns = target s.server n pool.1 := by
  rw [ceilings, ceilings, setMaxConns_eq, map_map, List.map_inj_left]
  refine forall₂_congr fun pool _ => ?_
  rw [Function.comp_apply]
  cases haccepts : pool.2.accepts (target s.server n pool.1) with
  | true =>
    rw [resized_of_accepts haccepts]
    simp [eq_comm]
  | false =>
    rw [resized_of_refuses haccepts]
    simp

/-- A resize that goes through gives every pool, present and future, its
ceiling; one that is refused changes none. -/
structure Uniform (s : ServerPools) (n : Int) : Prop where
  done : (s.setMaxConns n).2 = none →
    ((s.setMaxConns n).1.ceilings = s.pools.map fun pool =>
      (pool.1, capped n (s.server.limitFor pool.1.database))) ∧
    ∀ id, (s.setMaxConns n).1.laterCeiling id = capped n (s.server.limitFor id.database)
  refused : (s.setMaxConns n).2 ≠ none → (s.setMaxConns n).1.ceilings = s.ceilings ∧
    ∀ id, (s.setMaxConns n).1.laterCeiling id = s.laterCeiling id

theorem uniform_of_refused
    (h : (s.setMaxConns n).2 ≠ none → (s.setMaxConns n).1.ceilings = s.ceilings ∧
      ∀ id, (s.setMaxConns n).1.laterCeiling id = s.laterCeiling id) : s.Uniform n := by
  refine ⟨?_, h⟩
  intro hnone
  exact ⟨ceilings_of_accepted ((setMaxConns_eq_none_iff s n).1 hnone), laterCeiling_setMaxConns s n⟩

theorem Accepted.uniform (h : s.Accepted n) : s.Uniform n :=
  uniform_of_refused fun herr => absurd ((setMaxConns_eq_none_iff s n).2 h) herr

/-- **A resize is uniform** exactly when no pool refuses its part, or when the
pools that do not refuse, and the template, stand already where it would put
them. -/
theorem resize_uniform_iff (s : ServerPools) (n : Int) :
    s.Uniform n ↔ (∀ pool ∈ s.pools, pool.2.accepts (target s.server n pool.1) = true) ∨
      ((∀ pool ∈ s.pools, pool.2.accepts (target s.server n pool.1) = true →
          pool.2.maxConns = target s.server n pool.1) ∧
        ∀ id, s.laterCeiling id = target s.server n id) := by
  have hlater : (∀ id, (s.setMaxConns n).1.laterCeiling id = s.laterCeiling id) ↔
      ∀ id, s.laterCeiling id = target s.server n id := by
    simp only [laterCeiling_setMaxConns, eq_comm]
  constructor
  · intro huniform
    by_cases haccepted : s.Accepted n
    · exact .inl haccepted
    · obtain ⟨hpools, hsame⟩ :=
        huniform.refused fun hnone => haccepted ((setMaxConns_eq_none_iff s n).1 hnone)
      exact .inr ⟨(ceilings_eq_iff s n).1 hpools, hlater.1 hsame⟩
  · rintro (haccepted | ⟨hpools, hsame⟩)
    · exact Accepted.uniform haccepted
    · exact uniform_of_refused fun _ => ⟨(ceilings_eq_iff s n).2 hpools, hlater.2 hsame⟩

end ServerPools

def boundedLimits : DatabaseLimits := fun database => if database = ascii "bounded" then 2 else 0

def eightConns : Except NewServerError ServerPools :=
  (newServer id (ascii "10.0.0.1:5432") [] (ascii "10.0.0.1:9091") [] .primary 1 8 []).map fun p =>
    ⟨p.setDatabaseLimits (some boundedLimits), []⟩

def twoPools : List ResizeAction :=
  [.newPool ⟨ascii "app", ascii "bounded"⟩, .newPool ⟨ascii "app", ascii "free"⟩, .setMaxConns 1]

theorem refused_resize_changes_ceilings :
    ∃ start s, eightConns = .ok start ∧ run ServerPools.step start twoPools = some s ∧
      (s.setMaxConns 9).2 ≠ none ∧
      s.ceilings = [(⟨ascii "app", ascii "free"⟩, 1), (⟨ascii "app", ascii "bounded"⟩, 1)] ∧
      (s.setMaxConns 9).1.ceilings =
        [(⟨ascii "app", ascii "free"⟩, 1), (⟨ascii "app", ascii "bounded"⟩, 2)] ∧
      s.laterCeiling ⟨ascii "new", ascii "free"⟩ = 1 ∧
      (s.setMaxConns 9).1.laterCeiling ⟨ascii "new", ascii "free"⟩ = 9 := by
  refine ⟨_, _, rfl, rfl, ?_⟩
  decide +kernel

end Pontus.Pool
