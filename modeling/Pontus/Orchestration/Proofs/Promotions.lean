import Pontus.Orchestration.Proofs.Moves

/-!
# Promotions and their verification

`TriggerFailover` refuses only while another call has the state at `Promoting`.
A promotion that is being verified does not keep the next one out, and its
verification then overwrites what the next one has recorded.
-/

namespace Pontus.Orchestration

open Lib Pool

def CallAt.number : CallAt → Option Nat
  | .absent => none
  | .entering => none
  | .searching k => some k
  | .promoting k _ => some k
  | .promoted k _ => some k
  | .recorded k _ => some k
  | .cleared k _ => some k
  | .spawning k _ => some k
  | .returning k => some k

/-- The promotions that are not over: from the moment their call sets the state
until it returns, and until their verification ends. -/
def System.unfinished (s : System) : List Nat :=
  (s.call .monitor).number.toList ++ (s.call .gateway).number.toList ++ s.verifying.map Prod.fst

/-- A call that gets to `PromoteToPrimary` has no other promotion beside it, and
a verification that ends is that of the last promotion. -/
structure PromotionsApart (s : System) (a : Action) : Prop where
  promotes : ∀ c bs k b, a = .search c bs → s.call c = .searching k →
    findBestReplica bs = some b → s.unfinished = [k]
  verifies : ∀ k node, a = .verified k node ∨ a = .unverified k node → (k, node) ∈ s.verifying →
    k = s.entered

def Action.enters : Action → Bool
  | .enter _ => true
  | _ => false

def CallAt.returns : CallAt → Bool
  | .returning _ => true
  | _ => false

/-- `TriggerFailover` gets past its guard only when the state is not `Verifying`
either, and no call has its deferred reset of the state before it. -/
def EntersSettled (cfg : Settings) (s : System) (a : Action) : Prop :=
  a.enters = true → cfg.opts.enabled = true → s.state ≠ .promoting →
    s.state ≠ .verifying ∧ (s.call .monitor).returns = false ∧ (s.call .gateway).returns = false

instance (cfg : Settings) (s : System) (a : Action) : Decidable (EntersSettled cfg s a) :=
  inferInstanceAs (Decidable (_ → _ → _ → _))

/-- The state a call has set, until it returns. -/
def CallAt.sets : CallAt → Option FailoverState
  | .searching _ => some .promoting
  | .promoting _ _ => some .promoting
  | .promoted _ _ => some .promoting
  | .recorded _ _ => some .promoting
  | .cleared _ _ => some .promoting
  | .spawning _ _ => some .verifying
  | _ => none

theorem CallAt.sets_of_number {a : CallAt} (hnumber : a.number ≠ none) (hreturns : ¬a.returns) :
    a.sets = some .promoting ∨ a.sets = some .verifying := by
  cases a <;> simp_all [CallAt.number, CallAt.returns, CallAt.sets]

theorem CallAt.sets_of_unnumbered {a : CallAt} (h : a.number = none) : a.sets = none := by
  cases a <;> simp_all [CallAt.number, CallAt.sets]

/-- What the guard rests on: the state is that of the call or of the
verification under way. -/
structure Apart (s : System) : Prop where
  called : ∀ c k, (s.call c).number = some k → k = s.entered
  single : (s.call .monitor).number = none ∨ (s.call .gateway).number = none
  verified : ∀ v ∈ s.verifying, v.1 = s.entered
  fresh : ∀ c, (s.call c).sets ≠ none → s.verifying = []
  shown : ∀ c state, (s.call c).sets = some state → s.state = state
  last : s.verifying.length ≤ 1
  awaited : s.verifying ≠ [] → s.state = .verifying

namespace Apart

variable {s s' : System}

theorem of_eq (h : Apart s) (hcall : s'.call = s.call) (hverifying : s'.verifying = s.verifying)
    (hentered : s'.entered = s.entered) (hstate : s'.state = s.state) : Apart s' := by
  obtain ⟨hcalled, hsingle, hverified, hfresh, hsets, hlast, hawaited⟩ := h
  constructor <;> simpa only [hcall, hverifying, hentered, hstate]

theorem other (h : Apart s) (hnumber : (s.call c).number ≠ none) (hne : d ≠ c) :
    (s.call d).number = none := by
  have hsingle := h.single
  cases c <;> cases d <;> simp_all

/-- A call that goes on, in the state it has set or a new one. -/
theorem goesOn (h : Apart s) {a : CallAt} {state : FailoverState}
    (hnumber : a.number = (s.call c).number)
    (hbusy : (s.call c).sets ≠ none) (hsets : ∀ set, a.sets = some set → state = set) :
    Apart { s.setCall c a with state := state } := by
  have hnumbered : (s.call c).number ≠ none := fun hnone =>
    hbusy (CallAt.sets_of_unnumbered hnone)
  have hverifying := h.fresh c hbusy
  have hnow : ∀ d, ((s.setCall c a).call d).number = (s.call d).number := by
    intro d
    by_cases hd : d = c
    · subst hd
      simpa [System.setCall] using hnumber
    · simp [System.setCall, hd]
  refine ⟨fun d k hk => h.called d k ((hnow d).symm.trans hk), ?_, h.verified,
    fun _ _ => hverifying, ?_, h.last, fun hne => absurd hverifying hne⟩
  · rw [hnow, hnow]
    exact h.single
  · intro d set hset
    by_cases hd : d = c
    · subst hd
      exact hsets set (by simpa [System.setCall] using hset)
    · have hnone := CallAt.sets_of_unnumbered (h.other hnumbered hd)
      simp [System.setCall, hd, hnone] at hset

theorem keepsState (h : Apart s) {a : CallAt} (hnumber : a.number = (s.call c).number)
    (hbusy : (s.call c).sets ≠ none) (hsets : a.sets = (s.call c).sets) :
    Apart (s.setCall c a) :=
  (h.goesOn hnumber hbusy fun set hset => h.shown c set (hsets ▸ hset)).of_eq rfl rfl rfl rfl

/-- A call that has set no state comes or goes. -/
theorem setCall (h : Apart s) {a : CallAt} (hnumber : a.number = none) :
    Apart (s.setCall c a) := by
  have hnow : ∀ d, ((s.setCall c a).call d).number = none ∨
      (s.setCall c a).call d = s.call d := by
    intro d
    by_cases hd : d = c
    · subst hd
      exact .inl (by simpa [System.setCall] using hnumber)
    · exact .inr (by simp [System.setCall, hd])
  have hsets : ∀ d, ((s.setCall c a).call d).sets ≠ none →
      (s.setCall c a).call d = s.call d := fun d hd =>
    (hnow d).resolve_left fun hnone => hd (CallAt.sets_of_unnumbered hnone)
  refine ⟨?_, ?_, h.verified, ?_, ?_, h.last, h.awaited⟩
  · intro d k hk
    rcases hnow d with hnone | hsame
    · rw [hnone] at hk
      cases hk
    · exact h.called d k (hsame ▸ hk)
  · refine h.single.imp (fun hnone => ?_) fun hnone => ?_
    · exact (hnow .monitor).elim id (· ▸ hnone)
    · exact (hnow .gateway).elim id (· ▸ hnone)
  · intro d hd
    exact h.fresh d (hsets d hd ▸ hd)
  · intro d set hset
    exact h.shown d set (hsets d (hset ▸ some_ne_none set) ▸ hset)

theorem leave (h : Apart s) (c : Caller) : Apart (s.leave c) := by
  have habsent : Apart (s.setCall c .absent) := h.setCall rfl
  cases c
  · exact habsent.of_eq rfl rfl rfl rfl
  · exact habsent

/-- The guard and the condition leave nothing unfinished. -/
theorem nothing_unfinished (h : Apart s) (hpromoting : s.state ≠ .promoting)
    (hsettled : s.state ≠ .verifying ∧ (s.call .monitor).returns = false ∧
      (s.call .gateway).returns = false) :
    (∀ c, (s.call c).number = none) ∧ s.verifying = [] := by
  refine ⟨fun c => ?_, ?_⟩
  · by_contra hnumber
    have hreturns : ¬(s.call c).returns := by
      cases c
      · simp [hsettled.2.1]
      · simp [hsettled.2.2]
    rcases CallAt.sets_of_number hnumber hreturns with hset | hset
    · exact hpromoting (h.shown c _ hset)
    · exact hsettled.1 (h.shown c _ hset)
  · by_contra hne
    exact hsettled.1 (h.awaited hne)

theorem unfinished_eq (h : Apart s) (hnumber : (s.call c).number = some k)
    (hbusy : (s.call c).sets ≠ none) : s.unfinished = [k] := by
  have hverifying := h.fresh c hbusy
  have hother : ∀ d, d ≠ c → (s.call d).number = none := fun d =>
    h.other (hnumber ▸ some_ne_none k)
  unfold System.unfinished
  cases c with
  | monitor =>
    rw [hnumber, hother .gateway (by decide), hverifying]
    rfl
  | gateway =>
    rw [hnumber, hother .monitor (by decide), hverifying]
    rfl

theorem enter (hcalls : ∀ c, (s.call c).number = none) (hverifying : s.verifying = [])
    (c : Caller) :
    Apart { s.setCall c (.searching (s.entered + 1)) with
      state := .promoting, entered := s.entered + 1 } := by
  have hother : ∀ d, d ≠ c → (s.setCall c (.searching (s.entered + 1))).call d = s.call d :=
    fun d hd => by simp [System.setCall, hd]
  refine ⟨?_, ?_, ?_, fun _ _ => hverifying, ?_, by simp [System.setCall, hverifying],
    fun hne => absurd hverifying hne⟩
  · intro d k hk
    by_cases hd : d = c
    · subst hd
      simp only [System.setCall, update_self, CallAt.number, some_inj] at hk
      exact hk.symm
    · simp only [hother d hd, hcalls d] at hk
      cases hk
  · cases c
    · exact .inr (hcalls .gateway)
    · exact .inl (hcalls .monitor)
  · intro v hv
    change v ∈ s.verifying at hv
    rw [hverifying] at hv
    cases hv
  · intro d set hset
    by_cases hd : d = c
    · subst hd
      simp only [System.setCall, update_self, CallAt.sets, some_inj] at hset
      exact hset
    · simp only [hother d hd, CallAt.sets_of_unnumbered (hcalls d)] at hset
      cases hset

theorem spawn {cfg : Settings} (h : Apart s) {c : Caller} {k : Nat} {node : Bytes}
    (hat : s.call c = .spawning k node) : Apart (s.spawn cfg c k node) := by
  have hnumber : (s.call c).number = some k := by rw [hat]; rfl
  have hset : (s.call c).sets = some .verifying := by rw [hat]; rfl
  have hbusy : (s.call c).sets ≠ none := hset ▸ some_ne_none _
  have hreturns : Apart { s.setCall c (.returning k) with state := s.state } :=
    h.goesOn hnumber.symm hbusy fun _ h => by cases h
  have hverifying := h.fresh c hbusy
  -- no call is busy any more
  have hidle : ∀ d, ((s.setCall c (.returning k)).call d).sets = none := by
    intro d
    by_cases hd : d = c
    · subst hd
      simp [System.setCall, CallAt.sets]
    · simpa [System.setCall, hd] using
        CallAt.sets_of_unnumbered (h.other (hnumber ▸ some_ne_none k) hd)
  refine ⟨hreturns.called, hreturns.single, ?_, fun d hd => absurd (hidle d) hd, ?_, ?_, ?_⟩
  · intro v hv
    rcases mem_cons.1 hv with rfl | hv
    · exact h.called c k hnumber
    · exact h.verified v hv
  · intro d set hset
    exact absurd (hidle d) (hset ▸ some_ne_none set)
  · simp [System.spawn, System.setCall, hverifying]
  · exact fun _ => h.shown c _ hset

theorem verificationEnds (h : Apart s) (hmem : v ∈ s.verifying) (state : FailoverState) :
    Apart { s with state := state, verifying := s.verifying.erase v } := by
  have hnone : s.verifying.erase v = [] := by
    have hlast := h.last
    rw [← List.length_eq_zero_iff, List.length_erase_of_mem hmem]
    omega
  have hidle : ∀ c, ¬(s.call c).sets ≠ none := fun c hc => by
    rw [h.fresh c hc] at hmem
    cases hmem
  refine ⟨h.called, h.single, ?_, fun c hc => absurd hc (hidle c), ?_, by simp [hnone],
    fun hne => absurd hnone hne⟩
  · exact fun u hu => h.verified u (List.mem_of_mem_erase hu)
  · exact fun c set hset => absurd (hset ▸ some_ne_none set) (hidle c)

/-- The deferred reset of the only call. -/
theorem afterwards (h : Apart s) (hat : s.call c = .returning k) : Apart (s.afterwards c) := by
  have hidle : ∀ d, (s.call d).sets = none := by
    intro d
    by_cases hd : d = c
    · subst hd
      rw [hat]
      rfl
    · exact CallAt.sets_of_unnumbered (h.other (by rw [hat]; exact some_ne_none k) hd)
  have hreset : Apart { s with state := if s.state = .promoting then .idle else s.state } := by
    refine ⟨h.called, h.single, h.verified, h.fresh, ?_, h.last, ?_⟩
    · exact fun d set hset => absurd (hidle d) (hset ▸ some_ne_none set)
    · intro hne
      simp [h.awaited hne]
  exact hreset.leave c

/-- **One step.** -/
theorem step (h : Apart s) (hallowed : EntersSettled cfg s a) (hmoved : Moved cfg s a s') :
    Apart s' := by
  cases hmoved with
  | entered _ henabled hstate =>
    obtain ⟨hcalls, hverifying⟩ := h.nothing_unfinished hstate (hallowed rfl henabled hstate)
    exact enter hcalls hverifying _
  | refused => exact h.leave _
  | spawned hat => exact h.spawn hat
  | finished hat => exact h.afterwards hat
  | alarmed | wrote => exact (h.setCall rfl).of_eq rfl rfl rfl rfl
  | noReplica hat | promotionFailed hat =>
    exact h.goesOn (by rw [hat]; rfl) (by rw [hat]; exact some_ne_none _) fun _ h => by cases h
  | promotes hat | promotionDone hat =>
    exact h.keepsState (by rw [hat]; rfl) (by rw [hat]; exact some_ne_none _) (by rw [hat]; rfl)
  | recorded hat | cleared hat =>
    exact (h.keepsState (by rw [hat]; rfl) (by rw [hat]; exact some_ne_none _)
      (by rw [hat]; rfl)).of_eq rfl rfl rfl rfl
  | verifies hat =>
    exact h.goesOn (by rw [hat]; rfl) (by rw [hat]; exact some_ne_none _)
      fun set hset => Option.some.inj hset
  | verified hmem | unverified hmem => exact h.verificationEnds hmem _
  | _ => exact h.of_eq rfl rfl rfl rfl

theorem promotionsApart (h : Apart s) : PromotionsApart s a := by
  constructor
  · intro _ _ k _ _ hat _
    apply h.unfinished_eq
    · rw [hat]
      rfl
    · rw [hat]
      exact some_ne_none _
  · intro k node _ hmem
    exact h.verified (k, node) hmem

theorem start (owned leader : Bool) (clock : Int) : Apart (System.start owned leader clock) where
  called c k hk := by cases hk
  single := .inl rfl
  verified v hv := by cases hv
  fresh c hc := absurd rfl hc
  shown c set hset := by cases hset
  last := Nat.zero_le 1
  awaited hne := absurd rfl hne

end Apart

/-- **Promotions do not overlap where the guard keeps out the state `Verifying`
too.**  In every interleaving in which `TriggerFailover` gets past its guard in
neither of the two states, and with no deferred reset outstanding, no two
promotions run side by side, and a verification leaves alone what a later
promotion has recorded. -/
theorem promotions_do_not_overlap (cfg : Settings) (owned leader : Bool) (clock : Int)
    {actions : List Action}
    (hsettled : Along (System.step cfg) (EntersSettled cfg) (System.start owned leader clock)
      actions) :
    Along (System.step cfg) PromotionsApart (System.start owned leader clock) actions := by
  refine Along.of_invariant ?_ ?_ (Apart.start owned leader clock) hsettled
  · exact fun s a hs _ => hs.promotionsApart
  · exact fun s a s' hs hallowed hstep => hs.step hallowed (moved hstep)

def automatic : Settings := ⟨⟨true, 1, true, true, 5 * minute, 3⟩, false⟩

/-- A healthy replica, with the lag that is answered for every one. -/
def replica (address : String) : Backend := ⟨ascii address, .replica, true, true, false, some 0⟩

def downReplica (address : String) : Backend := { replica address with healthy := false }

def promotion (c : Caller) (bs : List Backend) : List Action :=
  [.enter c, .search c bs, .promoted c true, .record c, .clear c, .verify c, .spawn c, .finish c]

def promotesTwo : List Action :=
  [.tick, .look [replica "db2", replica "db3"]] ++
    promotion .monitor [replica "db2", replica "db3"] ++ [.verified 1 (ascii "db2")] ++
    [.tick, .look [replica "db3"]] ++ promotion .monitor [replica "db3"] ++
    [.verified 2 (ascii "db3")]

theorem promotions_in_turn :
    (run (System.step automatic) (System.start true true 0) promotesTwo).map System.lastPromoted =
        some (ascii "db3") ∧
      Along (System.step automatic) PromotionsApart (System.start true true 0) promotesTwo :=
  ⟨by decide +kernel, promotions_do_not_overlap automatic true true 0 (by decide +kernel)⟩

/-- While `db2` is promoted it answers no health check, and `db3` is promoted as
well. -/
theorem second_replica_promoted :
    ∃ s t, run (System.step automatic) (System.start true true 0)
        ([.write] ++ promotion .gateway [replica "db2", replica "db3"] ++
          [.tick, .look [downReplica "db2", replica "db3"], .enter .monitor]) = some s ∧
      s.verifying = [(1, ascii "db2")] ∧ s.state = .promoting ∧
      ¬PromotionsApart s (.search .monitor [downReplica "db2", replica "db3"]) ∧
      run (System.step automatic) s [.search .monitor [downReplica "db2", replica "db3"]] = some t ∧
      t.call .monitor = .promoting 2 (ascii "db3") ∧
      ¬PromotionsApart t (.verified 1 (ascii "db2")) ∧
      (t.step automatic (.verified 1 (ascii "db2"))).map System.state = some .idle := by
  refine ⟨_, _, rfl, by decide +kernel, by decide +kernel, ?_, rfl, by decide +kernel, ?_,
    by decide +kernel⟩
  · intro h
    have halone := h.promotes .monitor _ 2 (replica "db3") rfl (by decide +kernel)
      (by decide +kernel)
    revert halone
    decide +kernel
  · intro h
    have hlast := h.verifies 1 (ascii "db2") (.inl rfl) (by decide +kernel)
    revert hlast
    decide +kernel

end Pontus.Orchestration
