import Pontus.Orchestration.Proofs.Promotions

/-!
# Which replica is promoted

`findBestReplica` takes the least of the lags that `CheckReplicationLag`
answers.  That check acquires a connection and answers zero, so the replica
promoted is the first that is healthy and reachable, whatever it has replayed.
-/

namespace Pontus.Orchestration

open Lib Pool

def checkReplicationLag (bs : List Backend) (acquires : Backend → Bool) (address : Bytes) :
    Option Int :=
  match bs.find? (·.address == address) with
  | none => none
  | some target => if acquires target then some 0 else none

/-- A replica that ought to be promoted, by what the pool knows of each. -/
structure BestReplica (lagOf : Backend → Int) (bs : List Backend) (a : Backend) : Prop where
  mem : a ∈ bs
  replica : a.role = .replica
  healthy : a.healthy = true
  stays : a.draining = false
  streams : (∃ b ∈ bs, b.role = .replica ∧ b.healthy = true ∧ b.replicating = true) →
    a.replicating = true
  least : ∀ b ∈ bs, b.role = .replica → b.healthy = true → b.draining = false →
    (a.replicating = true → b.replicating = true) → lagOf a ≤ lagOf b

def Backend.answering (b : Backend) : Bool := b.role == .replica && b.healthy && b.lag.isSome

/-- No healthy replica lets a connection be acquired, or a best one is listed
before all others that do. -/
def BestFirst (acquires : Backend → Bool) (lagOf : Backend → Int) (bs : List Backend) : Prop :=
  let reachable := fun b : Backend => b.role = .replica ∧ b.healthy = true ∧ acquires b = true
  (∀ b ∈ bs, ¬reachable b) ∨
    ∃ front best behind, bs = front ++ best :: behind ∧ reachable best ∧
      (∀ b ∈ front, ¬reachable b) ∧ BestReplica lagOf bs best

theorem checkReplicationLag_eq (h : checkReplicationLag bs acquires address = some lag) :
    lag = 0 := by
  unfold checkReplicationLag at h
  split at h
  · cases h
  · split at h <;> cases h
    rfl

theorem findBestLoop_zero (hzero : ∀ b ∈ bs, ∀ lag, b.lag = some lag → lag = 0) :
    findBestLoop bs (some best) 0 = some best := by
  induction bs with
  | nil => rfl
  | cons b bs ih =>
    have hrest := ih fun c hc => hzero c (mem_cons_of_mem b hc)
    unfold findBestLoop
    split
    · exact hrest
    · cases hlag : b.lag with
      | none => exact hrest
      | some lag =>
        rw [hzero b mem_cons_self lag hlag]
        exact hrest

theorem findBestReplica_eq (hzero : ∀ b ∈ bs, ∀ lag, b.lag = some lag → lag = 0) :
    findBestReplica bs = bs.find? Backend.answering := by
  unfold findBestReplica
  induction bs with
  | nil => rfl
  | cons b bs ih =>
    have hrest := fun c hc => hzero c (mem_cons_of_mem b hc)
    unfold findBestLoop
    rw [List.find?_cons]
    by_cases hskip : (b.role ≠ .replica || !b.healthy) = true
    · have hno : b.answering = false := by
        simp only [or_eq_true, decide_eq_true_eq, not_eq_true'] at hskip
        rcases hskip with _ | _ <;> simp [Backend.answering, *]
      rw [if_pos hskip, hno, ih hrest]
    · simp only [or_eq_true, decide_eq_true_eq, not_eq_true', not_or, not_not,
        Bool.not_eq_false] at hskip
      cases hlag : b.lag with
      | none => simp [Backend.answering, hlag, ih hrest]
      | some lag =>
        rw [hzero b mem_cons_self lag hlag]
        simp [Backend.answering, hlag, hskip, findBestLoop_zero hrest]

theorem answering_iff {bs : List Backend} (haddresses : (bs.map Backend.address).Nodup)
    (hb : b ∈ bs) (hlag : b.lag = checkReplicationLag bs acquires b.address) :
    b.answering = true ↔ b.role = .replica ∧ b.healthy = true ∧ acquires b = true := by
  have hfind : bs.find? (·.address == b.address) = some b := by
    cases hfound : bs.find? (·.address == b.address) with
    | none => exact absurd (beq_self_eq_true b.address) (List.find?_eq_none.1 hfound b hb)
    | some d =>
      rw [List.inj_on_of_nodup_map haddresses (List.mem_of_find?_eq_some hfound) hb
        (by simpa using List.find?_some hfound)]
  have hsome : b.lag.isSome = acquires b := by
    rw [hlag, checkReplicationLag, hfind]
    cases hacquires : acquires b <;> simp [hacquires]
  simp [Backend.answering, hsome, and_assoc]

theorem bestFirst_iff (hanswering : ∀ b ∈ bs, b.answering = true ↔
      b.role = .replica ∧ b.healthy = true ∧ acquires b = true) :
    BestFirst acquires lagOf bs ↔
      ∀ b, bs.find? Backend.answering = some b → BestReplica lagOf bs b := by
  constructor
  · rintro (hnone | ⟨front, best, behind, rfl, hreachable, hfront, hbest⟩) b hfound
    · have hb := List.mem_of_find?_eq_some hfound
      exact absurd ((hanswering b hb).1 (List.find?_some hfound)) (hnone b hb)
    · have hskip : front.find? Backend.answering = none := List.find?_eq_none.2 fun d hd h =>
        hfront d hd ((hanswering d (by simp [hd])).1 h)
      rw [List.find?_append, hskip, Option.none_or,
        List.find?_cons_of_pos ((hanswering best (by simp)).2 hreachable)] at hfound
      cases hfound
      exact hbest
  · intro hleads
    cases hfound : bs.find? Backend.answering with
    | none =>
      left
      intro b hb hreachable
      exact List.find?_eq_none.1 hfound b hb ((hanswering b hb).2 hreachable)
    | some b =>
      right
      have hbest := hleads b hfound
      obtain ⟨hb, front, behind, rfl, hfront⟩ := List.find?_eq_some_iff_append.1 hfound
      refine ⟨front, b, behind, rfl, (hanswering b (by simp)).1 hb, ?_, hbest⟩
      intro d hd hreachable
      have hno := hfront d hd
      rw [(hanswering d (by simp [hd])).2 hreachable] at hno
      cases hno

theorem search_promotes_iff (cfg : Settings) {s : System} (hcall : s.call c = .searching k) :
    (∃ s', s.step cfg (.search c bs) = some s' ∧ s'.call c = .promoting k address) ↔
      ∃ b, findBestReplica bs = some b ∧ b.address = address := by
  constructor
  · rintro ⟨s', hstep, haddress⟩
    cases moved hstep with
    | noReplica => simp [System.setCall] at haddress
    | promotes _ hfound =>
      simp only [System.setCall, update_self, CallAt.promoting.injEq] at haddress
      exact ⟨_, hfound, haddress.2⟩
  · rintro ⟨b, hfound, rfl⟩
    refine ⟨s.setCall c (.promoting k b.address), ?_, by simp [System.setCall]⟩
    simp only [System.step, hcall, System.search, hfound]

/-- **The best replica is promoted** exactly where it is listed first. -/
theorem best_replica_promoted {cfg : Settings} {s : System} {c : Caller} {k : Nat}
    {bs : List Backend} (acquires : Backend → Bool) (lagOf : Backend → Int)
    (haddresses : (bs.map Backend.address).Nodup)
    (hlag : ∀ b ∈ bs, b.lag = checkReplicationLag bs acquires b.address)
    (hcall : s.call c = .searching k) :
    (∀ s' address, s.step cfg (.search c bs) = some s' → s'.call c = .promoting k address →
        ∃ a, a.address = address ∧ BestReplica lagOf bs a) ↔
      BestFirst acquires lagOf bs := by
  have hfind := findBestReplica_eq fun b hb lag h =>
    checkReplicationLag_eq ((hlag b hb).symm.trans h)
  rw [bestFirst_iff fun b hb => answering_iff haddresses hb (hlag b hb), ← hfind]
  constructor
  · intro hpromoted b hfound
    obtain ⟨s', hstep, hpromoting⟩ := (search_promotes_iff cfg hcall).2 ⟨b, hfound, rfl⟩
    obtain ⟨a, haddress, ha⟩ := hpromoted s' _ hstep hpromoting
    have hb : b ∈ bs := List.mem_of_find?_eq_some (hfind ▸ hfound)
    rwa [List.inj_on_of_nodup_map haddresses ha.mem hb haddress] at ha
  · intro hbest s' address hstep hpromoting
    obtain ⟨b, hfound, haddress⟩ := (search_promotes_iff cfg hcall).1 ⟨s', hstep, hpromoting⟩
    exact ⟨b, haddress, hbest b hfound⟩

def staleReplica : Backend := ⟨ascii "a", .replica, true, false, true, some 0⟩

def freshReplica : Backend := ⟨ascii "b", .replica, true, true, false, some 0⟩

/-- A minute behind without a WAL receiver. -/
def measuredLag (b : Backend) : Int := if b.replicating then 0 else 60

theorem freshReplica_best : BestReplica measuredLag [freshReplica, staleReplica] freshReplica :=
  ⟨by decide, rfl, rfl, rfl, fun _ => rfl, by decide⟩

theorem fresh_replica_promoted :
    ∃ a, a.address = ascii "b" ∧ BestReplica measuredLag [freshReplica, staleReplica] a := by
  let s := (System.start true true 0).setCall .gateway (.searching 1)
  have hstep : s.step automatic (.search .gateway [freshReplica, staleReplica]) = some _ := rfl
  refine (best_replica_promoted (fun _ => true) measuredLag (by decide) (by decide) rfl).2
    (.inr ?_) _ _ hstep rfl
  exact ⟨[], freshReplica, [staleReplica], rfl, by decide, by simp, freshReplica_best⟩

/-- The first of the two is draining and a minute behind, and is promoted. -/
theorem stale_replica_promoted :
    (∀ b ∈ [staleReplica, freshReplica],
      b.lag = checkReplicationLag [staleReplica, freshReplica] (fun _ => true) b.address) ∧
    ∃ s, run (System.step automatic) (System.start true true 0)
        [.write, .enter .gateway, .search .gateway [staleReplica, freshReplica]] = some s ∧
      s.call .gateway = .promoting 1 (ascii "a") ∧
      ¬∃ a, a.address = ascii "a" ∧ BestReplica measuredLag [staleReplica, freshReplica] a := by
  refine ⟨by decide, _, rfl, by decide +kernel, ?_⟩
  rintro ⟨_, haddress, hbest⟩
  rcases List.mem_pair.1 hbest.mem with rfl | rfl
  · cases hbest.stays
  · exact absurd haddress (by decide)

end Pontus.Orchestration
