import Pontus.Orchestration.FailoverManager

/-!
# Who is demoted for whom

The primary that is kept may be one that consensus names, healthy or not, and
every other primary is demoted for it, reachable or not.
-/

namespace Pontus.Orchestration

open Lib Pool

def HealthyAs (role : Role) (bs : List Backend) (address : Bytes) : Prop :=
  ∃ b ∈ bs, b.address = address ∧ b.role = role ∧ b.healthy = true

instance (role : Role) (bs : List Backend) (address : Bytes) :
    Decidable (HealthyAs role bs address) :=
  inferInstanceAs (Decidable (∃ b ∈ bs, b.address = address ∧ b.role = role ∧ b.healthy = true))

namespace RebuildCall

def node : RebuildCall → Bytes
  | .demotion node _ => node
  | .rejoin node _ => node

def primary : RebuildCall → Bytes
  | .demotion _ kept => kept
  | .rejoin _ primary => primary

def role : RebuildCall → Role
  | .demotion _ _ => .primary
  | .rejoin _ _ => .replica

end RebuildCall

structure SafeCall (bs : List Backend) (consensusPrimary lastPromoted : Bytes) (c : RebuildCall) :
    Prop where
  primary : HealthyAs .primary bs c.primary
  spared : ¬(HealthyAs c.role bs c.node ∧ ¬HealthyAs .primary bs c.primary)
  reachable : HealthyAs c.role bs c.node
  promoted : HealthyAs .primary bs lastPromoted →
    ¬(consensusPrimary ≠ [] ∧ consensusPrimary ≠ lastPromoted ∧
      HealthyAs .primary bs consensusPrimary) → c.primary = lastPromoted

section
variable {bs : List Backend}

theorem mem_allPrimaries : b ∈ allPrimaries bs ↔ b ∈ bs ∧ b.role = .primary := by
  rw [allPrimaries, mem_filter, beq_iff_eq]

theorem mem_healthyPrimaries :
    b ∈ healthyPrimaries bs ↔ b ∈ allPrimaries bs ∧ b.healthy := by
  rw [healthyPrimaries, mem_filter]

theorem healthyAs_of_mem (h : b ∈ healthyPrimaries bs) : HealthyAs .primary bs b.address := by
  obtain ⟨hprimary, hhealthy⟩ := mem_healthyPrimaries.1 h
  obtain ⟨hmem, hrole⟩ := mem_allPrimaries.1 hprimary
  exact ⟨b, hmem, rfl, hrole, hhealthy⟩

theorem healthyAs_iff :
    HealthyAs .primary bs address ↔ ∃ b ∈ healthyPrimaries bs, b.address = address := by
  constructor
  · rintro ⟨b, hmem, haddress, hrole, hhealthy⟩
    exact ⟨b, mem_healthyPrimaries.2 ⟨mem_allPrimaries.2 ⟨hmem, hrole⟩, hhealthy⟩, haddress⟩
  · rintro ⟨_, hmem, rfl⟩
    exact healthyAs_of_mem hmem

theorem course_eq_missed (h : course bs = .missed) : healthyPrimaries bs = [] := by
  unfold course at h
  split at h
  · assumption
  · split at h <;> cases h

theorem course_eq_splitBrain (h : course bs = .splitBrain) : ∃ p, p ∈ healthyPrimaries bs := by
  unfold course at h
  split at h
  · cases h
  · rename_i p ps hhealthy
    exact ⟨p, by rw [hhealthy]; exact mem_cons_self⟩

theorem course_eq_rejoin (h : course bs = .rejoin primary) :
    ∃ p ∈ healthyPrimaries bs, p.address = primary ∧ ∀ q ∈ allPrimaries bs, q = p := by
  unfold course at h
  split at h
  · cases h
  rename_i p ps hhealthy
  split at h
  · cases h
  rename_i hlen
  cases h
  have hp : p ∈ healthyPrimaries bs := by
    rw [hhealthy]
    exact mem_cons_self
  refine ⟨p, hp, rfl, ?_⟩
  intro _ hq
  obtain ⟨_, hall⟩ := List.length_eq_one_iff.1
    (Nat.le_antisymm (Nat.not_lt.1 hlen) (List.length_pos_of_mem hq))
  have hp' := (mem_healthyPrimaries.1 hp).1
  rw [hall, mem_singleton] at hq hp'
  rw [hq, hp']

theorem winner_cases (h : winner consensusPrimary lastPromoted bs = some kept) :
    kept ∈ allPrimaries bs ∧
      (kept.address = consensusPrimary ∧ consensusPrimary ≠ [] ∨
        kept.healthy ∧ (HealthyAs .primary bs lastPromoted → kept.address = lastPromoted)) := by
  unfold winner at h
  dsimp only at h
  split at h
  · rename_i p hnamed
    cases h
    split at hnamed
    · cases hnamed
    · rename_i hcons
      have hmatch := List.find?_some hnamed
      exact ⟨List.mem_of_find?_eq_some hnamed, .inl ⟨eq_of_beq hmatch, hcons⟩⟩
  · split at h
    · rename_i p hpromoted
      cases h
      have hmatch := List.find?_some hpromoted
      rw [and_eq_true] at hmatch
      exact ⟨List.mem_of_find?_eq_some hpromoted, .inr ⟨hmatch.2, fun _ => eq_of_beq hmatch.1⟩⟩
    · rename_i hnone
      obtain ⟨hprimary, hhealthy⟩ := mem_healthyPrimaries.1 (List.mem_of_mem_head? h)
      refine ⟨hprimary, .inr ⟨hhealthy, ?_⟩⟩
      -- the second rule would have found it
      intro hlast
      obtain ⟨b, hb, rfl⟩ := healthyAs_iff.1 hlast
      obtain ⟨hbprimary, hbhealthy⟩ := mem_healthyPrimaries.1 hb
      have hnot := List.find?_eq_none.1 hnone b hbprimary
      rw [beq_self_eq_true, hbhealthy] at hnot
      exact absurd rfl hnot

theorem exists_winner (consensusPrimary lastPromoted : Bytes) (h : p ∈ healthyPrimaries bs) :
    ∃ kept, winner consensusPrimary lastPromoted bs = some kept := by
  obtain ⟨first, _, hhealthy⟩ := exists_cons_of_ne_nil (List.ne_nil_of_mem h)
  unfold winner
  dsimp only
  split
  · exact ⟨_, rfl⟩
  · split
    · exact ⟨_, rfl⟩
    · rw [hhealthy]
      exact ⟨first, rfl⟩

theorem mem_losers :
    node ∈ losers bs kept ↔ node ≠ kept ∧ ∃ p ∈ allPrimaries bs, p.address = node := by
  constructor
  · intro h
    obtain ⟨p, hp, rfl⟩ := mem_map.1 h
    obtain ⟨hprimary, hne⟩ := mem_filter.1 hp
    exact ⟨bne_iff_ne.1 hne, p, hprimary, rfl⟩
  · rintro ⟨hne, _, hprimary, rfl⟩
    exact mem_map_of_mem (mem_filter.2 ⟨hprimary, bne_iff_ne.2 hne⟩)

end

theorem needsRejoin_of_started (h : node ∈ (reconcileRejoins o primary backends t).2) :
    ∃ b ∈ backends.map Prod.fst, b.address = node ∧ needsRejoin b primary := by
  induction backends generalizing t with
  | nil => cases h
  | cons first backends ih =>
    obtain ⟨b, now⟩ := first
    rw [reconcileRejoins] at h
    dsimp only at h
    have hrest : node ∈ (reconcileRejoins o primary backends
        (reconcileRejoin o t primary b now).1).2 →
        ∃ b' ∈ ((b, now) :: backends).map Prod.fst, b'.address = node ∧
          needsRejoin b' primary = true := by
      intro hnode
      obtain ⟨b', hmem, hb'⟩ := ih hnode
      exact ⟨b', mem_cons_of_mem _ hmem, hb'⟩
    split at h
    · rename_i hstarted
      rcases mem_cons.1 h with rfl | h
      · refine ⟨b, mem_cons_self, rfl, ?_⟩
        by_contra hneeds
        rw [not_eq_true] at hneeds
        rw [reconcileRejoin, hneeds] at hstarted
        cases hstarted
      · exact hrest h
    · exact hrest h

section
variable {bs : List Backend} {consensusPrimary lastPromoted : Bytes}

theorem SafeCall.of_healthy (hprimary : HealthyAs .primary bs c.primary)
    (hreach : HealthyAs c.role bs c.node) (hpromoted : HealthyAs .primary bs lastPromoted →
      ¬(consensusPrimary ≠ [] ∧ consensusPrimary ≠ lastPromoted ∧
        HealthyAs .primary bs consensusPrimary) → c.primary = lastPromoted) :
    SafeCall bs consensusPrimary lastPromoted c :=
  ⟨hprimary, fun h => h.2 hprimary, hreach, hpromoted⟩

theorem safe_rejoin (hcourse : course bs = .rejoin primary) (hmem : b ∈ bs)
    (hneeds : needsRejoin b primary) :
    SafeCall bs consensusPrimary lastPromoted (.rejoin b.address primary) := by
  obtain ⟨_, hp, rfl, honly⟩ := course_eq_rejoin hcourse
  simp only [needsRejoin, and_eq_true, beq_iff_eq] at hneeds
  apply SafeCall.of_healthy
  · exact healthyAs_of_mem hp
  · exact ⟨b, hmem, rfl, hneeds.1.1.1.2, hneeds.1.1.2⟩
  · intro hlast _
    obtain ⟨q, hq, rfl⟩ := healthyAs_iff.1 hlast
    exact congrArg Backend.address (honly q (mem_healthyPrimaries.1 hq).1).symm

theorem safe_demotion (hwinner : winner consensusPrimary lastPromoted bs = some kept)
    (hall : ∀ p ∈ allPrimaries bs, HealthyAs .primary bs p.address)
    (hnode : node ∈ losers bs kept.address) :
    SafeCall bs consensusPrimary lastPromoted (.demotion node kept.address) := by
  obtain ⟨hkept, hrule⟩ := winner_cases hwinner
  obtain ⟨-, p, hp, rfl⟩ := mem_losers.1 hnode
  apply SafeCall.of_healthy
  · exact hall kept hkept
  · exact hall p hp
  · intro hlast hother
    rcases hrule with ⟨hnamed, hcons⟩ | ⟨-, hpromoted⟩
    · by_contra hne
      apply hother
      rw [← hnamed]
      exact ⟨hnamed ▸ hcons, hne, hall kept hkept⟩
    · exact hpromoted hlast

theorem healthyAs_of_safe {kept : Backend} (hfirst : first ∈ healthyPrimaries bs)
    (hsafe : ∀ node ∈ losers bs kept.address,
      SafeCall bs consensusPrimary lastPromoted (.demotion node kept.address)) {p : Backend}
    (hp : p ∈ allPrimaries bs) : HealthyAs .primary bs p.address := by
  by_cases hloser : p.address = kept.address
  · rw [hloser]
    by_cases hfirstKept : first.address = kept.address
    · rw [← hfirstKept]
      exact healthyAs_of_mem hfirst
    · -- a healthy primary is demoted, so the one that is kept is healthy as well
      have hnode : first.address ∈ losers bs kept.address :=
        mem_losers.2 ⟨hfirstKept, first, (mem_healthyPrimaries.1 hfirst).1, rfl⟩
      exact (hsafe _ hnode).primary
  · exact (hsafe p.address (mem_losers.2 ⟨hloser, p, hp, rfl⟩)).reachable

end

/-- **When a tick sacrifices no good primary.**  It does nothing, or finds no
healthy primary at all, or no primary it finds is down. -/
theorem split_brain_spares_good_primary (o : Options) (state : FailoverState)
    (consensus : Option Consensus) (lastPromoted : Bytes) (rejoins : Tracker)
    (backends : List (Backend × Int)) :
    (∀ c ∈ monitorCalls o state consensus lastPromoted rejoins backends,
      SafeCall (backends.map Prod.fst) ((consensus.map Consensus.primary).getD []) lastPromoted c) ↔
    state = .promoting ∨ consensus.any (!·.isLeader) = true ∨
      healthyPrimaries (backends.map Prod.fst) = [] ∨
      ∀ p ∈ allPrimaries (backends.map Prod.fst),
        HealthyAs .primary (backends.map Prod.fst) p.address := by
  unfold monitorCalls
  by_cases hstate : state = .promoting
  · simp [hstate]
  by_cases hleader : consensus.any (!·.isLeader) = true
  · simp [hleader]
  rw [if_neg hstate, if_neg hleader]
  simp only [hstate, hleader, false_or]
  cases hcourse : course (backends.map Prod.fst) with
  | missed => simp [course_eq_missed hcourse]
  | splitBrain =>
    obtain ⟨_, hfirst⟩ := course_eq_splitBrain hcourse
    have hsome : ¬healthyPrimaries (backends.map Prod.fst) = [] := List.ne_nil_of_mem hfirst
    obtain ⟨_, hwinner⟩ := exists_winner ((consensus.map Consensus.primary).getD [])
      lastPromoted hfirst
    simp only [hwinner, List.forall_mem_map]
    constructor
    · exact fun hsafe => .inr (.inr fun p hp => healthyAs_of_safe hfirst hsafe hp)
    · rintro (hfalse | hnone | hall) node hnode
      · cases hfalse
      · exact absurd hnone hsome
      · exact safe_demotion hwinner hall hnode
  | rejoin =>
    obtain ⟨_, hp, -, honly⟩ := course_eq_rejoin hcourse
    simp only [List.forall_mem_map]
    constructor
    · intro _
      refine .inr (.inr fun q hq => ?_)
      rw [honly q hq]
      exact healthyAs_of_mem hp
    · intro _ _ hnode
      obtain ⟨_, hmem, rfl, hneeds⟩ := needsRejoin_of_started hnode
      exact safe_rejoin hcourse hmem hneeds

def seenPrimary (address : String) (healthy : Bool) : Backend × Int :=
  (⟨ascii address, .primary, healthy, true, false, none⟩, 0)

theorem promoted_primary_demoted_for_dead_one :
    monitorCalls ⟨true, 3, true, true, minute, 3⟩ .idle (some ⟨true, ascii "db1"⟩) (ascii "db2")
        (fun _ => none) [seenPrimary "db1" false, seenPrimary "db2" true] =
      [.demotion (ascii "db2") (ascii "db1")] ∧
    ¬SafeCall [(seenPrimary "db1" false).1, (seenPrimary "db2" true).1] (ascii "db1") (ascii "db2")
      (.demotion (ascii "db2") (ascii "db1")) ∧
    monitorCalls ⟨true, 3, true, true, minute, 3⟩ .idle none (ascii "db2") (fun _ => none)
        [seenPrimary "db1" false, seenPrimary "db2" true] =
      [.demotion (ascii "db1") (ascii "db2")] ∧
    ¬SafeCall [(seenPrimary "db1" false).1, (seenPrimary "db2" true).1] [] (ascii "db2")
      (.demotion (ascii "db1") (ascii "db2")) := by
  have hdown : ¬HealthyAs .primary [(seenPrimary "db1" false).1, (seenPrimary "db2" true).1]
      (ascii "db1") := by decide +kernel
  exact ⟨by decide +kernel, fun h => hdown h.primary, by decide +kernel, fun h => hdown h.reachable⟩

end Pontus.Orchestration
