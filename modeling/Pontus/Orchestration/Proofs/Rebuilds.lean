import Pontus.Orchestration.Proofs.Promotions
import Pontus.Orchestration.Proofs.Rejoin

/-!
# One rebuild of a node at a time

Three parts of the manager call `DemoteToReplica`, and a fourth promotes.  Only
rejoins keep a record of what they have under way, and only they look at it.
-/

namespace Pontus.Orchestration

open Lib Pool

namespace System

/-- Calls of `DemoteToReplica` for a node by the resolution of a split brain. -/
def demotionsOf (s : System) (node : Bytes) : Nat :=
  match s.monitor with
  | .inDemotion node' _ _ => if node' = node then 1 else 0
  | _ => 0

def inProgress (s : System) (node : Bytes) : Nat :=
  s.demotionsOf node + s.following.count node + s.rejoining.count (node, .rebuilding)

def rebuildsOf (s : System) (node : Bytes) : Nat :=
  s.rejoining.count (node, .starting) + s.rejoining.count (node, .rebuilding)

end System

/-- No node is rebuilt twice at a time, and none that is being rebuilt is
promoted. -/
structure RebuildsApart (s : System) (a : Action) : Prop where
  single : ∀ node, s.inProgress node ≤ 1
  promotes : ∀ c bs k b, a = .search c bs → s.call c = .searching k →
    findBestReplica bs = some b → s.inProgress b.address = 0

namespace System

/-- The nodes that the resolution of a split brain has taken, or may take. -/
def demotions (s : System) : List Bytes :=
  match s.monitor with
  | .resolving bs => (allPrimaries bs).map Backend.address
  | .demoting _ pending => pending
  | .inDemotion node _ pending => node :: pending
  | _ => []

def taken (s : System) (node : Bytes) : Nat :=
  s.demotions.count node + s.following.count node + s.rebuildsOf node

end System

/-- Whoever looks sees a node that is being rebuilt, or is about to be, as one
that is down: not as a healthy replica, and the monitor not as a primary.  No
address is listed twice. -/
def seenDown (s : System) : Action → Bool
  | .look bs =>
    decide (bs.map Backend.address).Nodup &&
      bs.all fun b => b.role != .primary || s.taken b.address == 0
  | .follow _ bs =>
    decide (bs.map Backend.address).Nodup &&
      bs.all fun b => b.role != .replica || !b.healthy || s.taken b.address == 0
  | .reconcile b _ => !b.healthy || s.following.count b.address == 0
  | .search _ bs => bs.all fun b => b.role != .replica || !b.healthy || s.inProgress b.address == 0
  | _ => true

structure Exclusive (s : System) : Prop where
  flights : Flights s
  single : ∀ node, s.taken node ≤ 1

theorem demotionsOf_le (s : System) (node : Bytes) :
    s.demotionsOf node ≤ s.demotions.count node := by
  unfold System.demotionsOf System.demotions
  split
  · split <;> simp [*]
  · exact Nat.zero_le _

theorem inProgress_le_taken (s : System) (node : Bytes) : s.inProgress node ≤ s.taken node := by
  have hdemotions := demotionsOf_le s node
  unfold System.inProgress System.taken System.rebuildsOf
  omega

/-- Nodes of a list that are taken by nobody can be taken once more each. -/
theorem count_add_le_one {n : Bytes → Nat} {bs : List Backend} {p : Backend → Bool}
    (haddresses : (bs.map Backend.address).Nodup)
    (hfree : ∀ b ∈ bs, p b = true → n b.address = 0) (hsingle : n node ≤ 1) :
    ((bs.filter p).map Backend.address).count node + n node ≤ 1 := by
  by_cases hmem : node ∈ (bs.filter p).map Backend.address
  · have hone : ((bs.filter p).map Backend.address).count node ≤ 1 :=
      List.nodup_iff_count_le_one.1
        (haddresses.sublist (List.filter_sublist.map Backend.address)) node
    obtain ⟨b, hb, rfl⟩ := List.mem_map.1 hmem
    obtain ⟨hb, hp⟩ := mem_filter.1 hb
    rw [hfree b hb hp]
    exact hone
  · rw [List.count_eq_zero_of_not_mem hmem]
    omega

theorem findBestLoop_eq_some (h : findBestLoop bs best minLag = some b) :
    best = some b ∨ b ∈ bs ∧ b.role = .replica ∧ b.healthy = true := by
  induction bs generalizing best minLag with
  | nil => exact .inl h
  | cons d bs ih =>
    have hrest {best : Option Backend} {minLag : Int} (h : findBestLoop bs best minLag = some b) :=
      (ih h).imp_right fun hb => And.imp_left (mem_cons_of_mem d) hb
    unfold findBestLoop at h
    split at h
    · exact hrest h
    rename_i hskip
    split at h
    · exact hrest h
    · split at h
      · rcases hrest h with heq | hmem
        · cases heq
          simp only [or_eq_true, decide_eq_true_eq, not_eq_true', not_or, not_not,
            Bool.not_eq_false] at hskip
          exact .inr ⟨mem_cons_self, hskip⟩
        · exact .inr hmem
      · exact hrest h

theorem count_le_rejoinsOf (s : System) (node : Bytes) : s.rebuildsOf node ≤ s.rejoinsOf node := by
  unfold System.rebuildsOf System.rejoinsOf
  induction s.rejoining with
  | nil => exact Nat.le_refl 0
  | cons r _ ih =>
    obtain ⟨node', phase⟩ := r
    simp only [count_cons, List.countP_cons, beq_iff_eq, Prod.mk.injEq]
    by_cases hnode : node' = node
    · cases phase <;> simp [hnode] <;> omega
    · simp only [hnode, false_and, if_false, Nat.add_zero]
      exact ih

theorem rebuildsOf_reconcile (cfg : Settings) (s : System) (primary : Bytes) (pending : List Bytes)
    (b : Backend) (now : Int) (node : Bytes) :
    (s.reconcile cfg primary pending b now).rebuildsOf node = s.rebuildsOf node +
      if (reconcileRejoin cfg.opts s.rejoins primary b now).2 = true ∧ b.address = node
      then 1 else 0 := by
  unfold System.reconcile System.rebuildsOf
  dsimp only
  cases (reconcileRejoin cfg.opts s.rejoins primary b now).2 with
  | false => simp
  | true =>
    simp only [if_true, count_cons, beq_iff_eq, Prod.mk.injEq, and_true, true_and,
      reduceCtorEq, and_false, if_false]
    omega

theorem rebuildsOf_erase {s : System} (h : (node, phase) ∈ s.rejoining) (node' : Bytes) :
    s.rebuildsOf node' = (s.rejoining.erase (node, phase)).count (node', .starting) +
      (s.rejoining.erase (node, phase)).count (node', .rebuilding) +
      if phase ≠ .confirming ∧ node = node' then 1 else 0 := by
  have hperm := List.perm_cons_erase h
  rw [System.rebuildsOf, hperm.count_eq, hperm.count_eq, count_cons, count_cons]
  by_cases hnode : node = node'
  · cases phase <;> simp [hnode] <;> omega
  · simp [hnode]

namespace Exclusive

variable {cfg : Settings} {s s' : System}

theorem start (owned leader : Bool) (clock : Int) : Exclusive (System.start owned leader clock) :=
  ⟨Flights.start owned leader clock, fun _ => Nat.zero_le 1⟩

variable (h : Exclusive s)
include h

theorem of_le (hflights : Flights s')
    (hdemotions : ∀ node, s'.demotions.count node ≤ s.demotions.count node)
    (hfollowing : ∀ node, s'.following.count node ≤ s.following.count node)
    (hrebuilds : ∀ node, s'.rebuildsOf node ≤ s.rebuildsOf node) : Exclusive s' := by
  refine ⟨hflights, fun node => ?_⟩
  have hsingle := h.single node
  have hdemotions := hdemotions node
  have hfollowing := hfollowing node
  have hrebuilds := hrebuilds node
  unfold System.taken at hsingle ⊢
  omega

theorem move (hdemotions : s'.demotions.Sublist s.demotions)
    (hfollowing : s'.following = s.following)
    (hrejoining : s'.rejoining = s.rejoining) (hrejoins : s'.rejoins = s.rejoins) :
    Exclusive s' := by
  refine h.of_le (h.flights.of_eq hrejoining hrejoins) (fun _ => hdemotions.count_le _) ?_ ?_
  · intro node
    rw [hfollowing]
  · intro _
    unfold System.rebuildsOf
    rw [hrejoining]

theorem of_eq (hmonitor : s'.monitor = s.monitor) (hfollowing : s'.following = s.following)
    (hrejoining : s'.rejoining = s.rejoining) (hrejoins : s'.rejoins = s.rejoins) :
    Exclusive s' := by
  refine h.move ?_ hfollowing hrejoining hrejoins
  rw [System.demotions, hmonitor]
  exact List.Sublist.refl _

theorem several (hat : s.monitor = .looking) (hseen : seenDown s (.look bs)) :
    Exclusive
      { s with missedPrimary := 0, checks := true :: s.checks, monitor := .resolving bs } := by
  refine ⟨h.flights.of_eq rfl rfl, fun node => ?_⟩
  simp only [seenDown, and_eq_true, decide_eq_true_eq, all_eq_true, or_eq_true, bne_iff_ne,
    beq_iff_eq] at hseen
  have hnone : s.demotions.count node = 0 := by rw [System.demotions, hat]; rfl
  have hle : ((allPrimaries bs).map Backend.address).count node + s.taken node ≤ 1 := by
    refine count_add_le_one hseen.1 (fun b hb hprimary => ?_) (h.single node)
    exact (hseen.2 b hb).resolve_left (not_not.2 (by simpa using hprimary))
  change ((allPrimaries bs).map Backend.address).count node + s.following.count node +
    s.rebuildsOf node ≤ 1
  unfold System.taken at hle
  omega

theorem follow (hseen : seenDown s (.follow primary bs)) :
    Exclusive { s with
      follows := s.follows.erase primary
      following := replicasToFollow primary bs ++ s.following } := by
  refine ⟨h.flights.of_eq rfl rfl, fun node => ?_⟩
  simp only [seenDown, and_eq_true, decide_eq_true_eq, all_eq_true, or_eq_true, bne_iff_ne,
    not_eq_true', beq_iff_eq] at hseen
  have hle : (replicasToFollow primary bs).count node + s.taken node ≤ 1 := by
    refine count_add_le_one hseen.1 (fun b hb hfollows => ?_) (h.single node)
    simp only [and_eq_true, beq_iff_eq] at hfollows
    exact (hseen.2 b hb).resolve_left (by simp [hfollows.1.2, hfollows.2])
  change s.demotions.count node + (replicasToFollow primary bs ++ s.following).count node +
    s.rebuildsOf node ≤ 1
  rw [List.count_append]
  unfold System.taken at hle
  omega

theorem compare (hseen : seenDown s (.reconcile b now)) :
    Exclusive (s.reconcile cfg primary pending b now) := by
  refine ⟨h.flights.compare primary pending b now, fun node => ?_⟩
  have hflights := h.flights node
  have hsingle := h.single node
  have hrejoins := count_le_rejoinsOf s node
  have hcompared := compared cfg.opts s.rejoins primary b now
  have hrebuilds := rebuildsOf_reconcile cfg s primary pending b now node
  simp only [seenDown, or_eq_true, not_eq_true', beq_iff_eq] at hseen
  unfold System.taken at hsingle ⊢
  rw [hrebuilds]
  change 0 + s.following.count node + _ ≤ 1
  generalize reconcileRejoin cfg.opts s.rejoins primary b now = result at hcompared
  cases hcompared with
  | spared | left | noted =>
    rw [if_neg fun hboth => Bool.false_ne_true hboth.1]
    omega
  | started hneeds hidle =>
    by_cases hnode : b.address = node
    · subst hnode
      have hhealthy : b.healthy = true := by
        simp only [needsRejoin, and_eq_true] at hneeds
        exact hneeds.1.1.2
      have hfollowing : s.following.count b.address = 0 := hseen.resolve_left (by simp [hhealthy])
      have hzero : s.rejoinsOf b.address = 0 := by
        by_contra hpos
        exact Tracker.not_inFlight_entry hidle (hflights.2 (Nat.pos_of_ne_zero hpos))
      rw [if_pos ⟨rfl, rfl⟩]
      omega
    · rw [if_neg fun hboth => hnode hboth.2]
      omega

theorem moveRejoin {node : Bytes} {before behind : RejoinAt} (hmem : (node, before) ∈ s.rejoining)
    (hbefore : before ≠ .confirming) : Exclusive (s.moveRejoin node before behind) := by
  refine h.of_le (h.flights.moveRejoin hmem) (fun _ => Nat.le_refl _) (fun _ => Nat.le_refl _) ?_
  intro node'
  rw [rebuildsOf_erase hmem, System.rebuildsOf, System.moveRejoin, count_cons, count_cons]
  by_cases hnode : node = node'
  · cases before <;> cases behind <;> simp_all <;> omega
  · simp [hnode]

theorem endRejoin {node : Bytes} {phase : RejoinAt} (hmem : (node, phase) ∈ s.rejoining)
    (succeeded : Bool) : Exclusive (s.endRejoin node phase succeeded) := by
  refine h.of_le (h.flights.endRejoin hmem succeeded) (fun _ => Nat.le_refl _)
    (fun _ => Nat.le_refl _) ?_
  intro _
  rw [rebuildsOf_erase hmem]
  exact Nat.le_add_right _ _

/-- **One step.** -/
theorem step (hseen : seenDown s a) (hmoved : Moved cfg s a s') : Exclusive s' := by
  have hnothing (hmonitor : s'.demotions = []) : s'.demotions.Sublist s.demotions := by
    rw [hmonitor]
    exact List.nil_sublist _
  cases hmoved with
  | foundSeveral hat => exact h.several hat hseen
  | compared => exact h.compare hseen
  | followStarted => exact h.follow hseen
  | followEnded =>
    refine h.of_le (h.flights.of_eq rfl rfl) (fun _ => Nat.le_refl _) ?_ fun _ => Nat.le_refl _
    exact fun node => List.erase_sublist.count_le node
  | rebuildStarted hmem | rebuilt hmem => exact h.moveRejoin hmem (by simp)
  | rebuildFailed hmem | unconfirmed hmem => exact h.endRejoin hmem false
  | confirmed hmem => exact (h.endRejoin hmem true).of_eq rfl rfl rfl rfl
  | resolved hat =>
    refine h.move ?_ rfl rfl rfl
    simp only [System.demotions, hat]
    exact List.filter_sublist.map Backend.address
  | demotionStarted hat =>
    refine h.move ?_ rfl rfl rfl
    simp only [System.demotions, hat]
    exact List.Sublist.refl _
  | demotionEnded hat =>
    refine h.move ?_ rfl rfl rfl
    simp only [System.demotions, hat]
    exact List.sublist_cons_self _ _
  | ticked | missed | alarmed | foundOne | unresolved | allDemoted | allCompared =>
    exact h.move (hnothing rfl) rfl rfl rfl
  | @refused c hat | @finished c k hat =>
    cases c with
    | monitor => exact h.move (hnothing rfl) rfl rfl rfl
    | gateway => exact h.of_eq rfl rfl rfl rfl
  | _ => exact h.of_eq rfl rfl rfl rfl

end Exclusive

/-- **One rebuild of a node at a time, where a node that is being rebuilt is seen
to be down.**  In every interleaving in which what is looked at shows it so, a
node is never rebuilt twice at a time nor promoted while it is being rebuilt.
That rejoins keep off each other, and off the demotions of the tick they come
from, needs no condition. -/
theorem one_rebuild_per_node (cfg : Settings) (owned leader : Bool) (clock : Int)
    {actions : List Action}
    (hseen : Along (System.step cfg) (fun s a => seenDown s a = true)
      (System.start owned leader clock) actions) :
    Along (System.step cfg) RebuildsApart (System.start owned leader clock) actions ∧
    ∀ s, run (System.step cfg) (System.start owned leader clock) actions = some s →
      ∀ node, s.inProgress node ≤ 1 := by
  have hstart := Exclusive.start owned leader clock
  have hstep : ∀ s a s', Exclusive s → seenDown s a = true → System.step cfg s a = some s' →
      Exclusive s' := fun s a s' hs hallowed hstep => hs.step hallowed (moved hstep)
  constructor
  · refine Along.of_invariant ?_ hstep hstart hseen
    intro s _ hs hallowed
    refine ⟨fun node => (inProgress_le_taken s node).trans (hs.single node), ?_⟩
    rintro _ _ _ b rfl - hbest
    obtain ⟨hmem, hrole, hhealthy⟩ := (findBestLoop_eq_some hbest).resolve_left nofun
    simp only [seenDown, all_eq_true, or_eq_true, bne_iff_ne, not_eq_true', beq_iff_eq] at hallowed
    exact (hallowed b hmem).resolve_left (by simp [hrole, hhealthy])
  · intro s hrun node
    exact (inProgress_le_taken s node).trans ((run_invariant hstep hstart hseen hrun).single node)

def newPrimary (address : String) : Backend := ⟨ascii address, .primary, true, true, false, none⟩

def stale (address : String) : Backend := ⟨ascii address, .replica, true, false, false, none⟩

def failsOver : List Action :=
  [.tick, .look [replica "db2", replica "db3"]] ++
    promotion .monitor [replica "db2", replica "db3"] ++
    [.follow (ascii "db2") [replica "db2", replica "db3"]]

def rejoins : List Action :=
  [.verified 1 (ascii "db2"), .tick, .look [newPrimary "db2", stale "db3"],
    .reconcile (newPrimary "db2") 100, .reconcile (stale "db3") 100, .rejoin (ascii "db3")]

theorem rejoined_behind_follower :
    (run (System.step automatic) (System.start true true 0)
        (failsOver ++ [.followed (ascii "db3")] ++ rejoins)).map System.rejoining =
      some [(ascii "db3", .rebuilding)] ∧
    Along (System.step automatic) RebuildsApart (System.start true true 0)
        (failsOver ++ [.followed (ascii "db3")] ++ rejoins) ∧
      ∀ s, run (System.step automatic) (System.start true true 0)
          (failsOver ++ [.followed (ascii "db3")] ++ rejoins) = some s →
        ∀ node, s.inProgress node ≤ 1 :=
  ⟨by decide +kernel, one_rebuild_per_node automatic true true 0 (by decide +kernel)⟩

theorem follower_rebuilt_twice :
    ∃ s t, run (System.step automatic) (System.start true true 0) (failsOver ++ rejoins) = some s ∧
      s.following = [ascii "db3"] ∧ s.rejoining = [(ascii "db3", .rebuilding)] ∧
      s.inProgress (ascii "db3") = 2 ∧
      run (System.step automatic) s [.write, .enter .gateway] = some t ∧
      ¬RebuildsApart t (.search .gateway [replica "db3"]) := by
  refine ⟨_, _, rfl, by decide +kernel, by decide +kernel, by decide +kernel, rfl, ?_⟩
  intro h
  have hnone := h.promotes .gateway _ 2 (replica "db3") rfl (by decide +kernel)
    (by decide +kernel)
  revert hnone
  decide +kernel

end Pontus.Orchestration
