import Pontus.Orchestration.Proofs.Promotions

/-!
# What a promotion is authorised by

On the monitor's way to a promotion ownership, leadership and the number of
failed checks are looked at.  The gateway's way joins it behind them.
-/

namespace Pontus.Orchestration

open Lib Pool

def System.misses (s : System) : Nat := (s.checks.takeWhile (!·)).length

structure Acts (cfg : Settings) (owned leader : Bool) : Prop where
  owned : owned = true
  leader : cfg.consensus = true → leader = true

structure Authority (cfg : Settings) (owned leader : Bool) (misses : Nat) : Prop
    extends Acts cfg owned leader where
  enabled : cfg.opts.enabled = true
  checks : cfg.opts.failureThreshold ≤ misses

def Authorised (cfg : Settings) (s : System) : Prop := Authority cfg s.owned s.leader s.misses

def PromotesAuthorised (cfg : Settings) (s : System) (a : Action) : Prop :=
  ∀ c bs k b, a = .search c bs → s.call c = .searching k → findBestReplica bs = some b →
    Authorised cfg s

def CallAt.isSearching : CallAt → Bool
  | .searching _ => true
  | _ => false

def System.pending (s : System) : Bool :=
  s.monitor == .looking || s.call .monitor == .entering || (s.call .monitor).isSearching ||
    (s.call .gateway).isSearching

/-- The gateway gets past the guard only while the monitor's call stands before
it; and until it has promoted, neither ownership nor leadership is lost and no
check finds a healthy primary. -/
def staysAuthorised (cfg : Settings) (s : System) : Action → Bool
  | .enter .gateway =>
    !cfg.opts.enabled || s.state == .promoting || s.call .monitor == .entering
  | .own b => b || !s.pending
  | .lead b => b || !cfg.consensus || !s.pending
  | .look bs => course bs == .missed || !(s.call .gateway).isSearching
  | _ => true

structure Watched (cfg : Settings) (s : System) : Prop where
  missed : s.missedPrimary ≤ s.misses
  looking : s.monitor = .looking → Acts cfg s.owned s.leader
  entering : s.call .monitor = .entering → Authority cfg s.owned s.leader s.misses
  searching : ∀ c k, s.call c = .searching k → Authority cfg s.owned s.leader s.misses
  -- the monitor waits for its call
  calling : s.call .monitor ≠ .absent → s.monitor = .calling

theorem isSearching_searching (k : Nat) : (CallAt.searching k).isSearching = true := rfl

theorem pending_eq_false {s : System} (h : s.pending = false) :
    s.monitor ≠ .looking ∧ s.call .monitor ≠ .entering ∧ ∀ c k, s.call c ≠ .searching k := by
  simp only [System.pending, or_eq_false_iff, beq_eq_false_iff_ne] at h
  refine ⟨h.1.1.1, h.1.1.2, ?_⟩
  intro c _ hat
  cases c with
  | monitor =>
    rw [hat] at h
    exact absurd h.1.2 (by simp [isSearching_searching])
  | gateway =>
    rw [hat] at h
    exact absurd h.2 (by simp [isSearching_searching])

namespace Watched

variable {cfg : Settings} {s s' : System}

theorem start (cfg : Settings) (owned leader : Bool) (clock : Int) :
    Watched cfg (System.start owned leader clock) where
  missed := Nat.le_refl 0
  looking h := by cases h
  entering h := by cases h
  searching c k h := by cases h
  calling h := absurd rfl h

variable (h : Watched cfg s)
include h

theorem absent (hat : s.monitor ≠ .calling) : s.call .monitor = .absent := by
  by_contra hcall
  exact hat (h.calling hcall)

theorem of_eq (hmiss : s'.missedPrimary ≤ s.missedPrimary) (hmonitor : s'.monitor = s.monitor)
    (hcall : s'.call = s.call) (howned : s'.owned = s.owned) (hleader : s'.leader = s.leader)
    (hchecks : s'.checks = s.checks) : Watched cfg s' := by
  have hmisses : s'.misses = s.misses := by
    unfold System.misses
    rw [hchecks]
  constructor
  · rw [hmisses]
    exact hmiss.trans h.missed
  · rw [hmonitor, howned, hleader]
    exact h.looking
  · rw [hcall, howned, hleader, hmisses]
    exact h.entering
  · rw [hcall, howned, hleader, hmisses]
    exact h.searching
  · rw [hcall, hmonitor]
    exact h.calling

theorem move (hat : s.monitor ≠ .calling) (hlooking : m = .looking → Acts cfg s.owned s.leader) :
    Watched cfg { s with monitor := m } where
  missed := h.missed
  looking := hlooking
  entering := h.entering
  searching := h.searching
  calling hcall := absurd (h.absent hat) hcall

theorem found (hat : s.monitor = .looking) (hsearch : (s.call .gateway).isSearching = false)
    (hm : m ≠ .looking) :
    Watched cfg { s with missedPrimary := 0, checks := true :: s.checks, monitor := m } := by
  have habsent : s.call .monitor = .absent := h.absent (by rw [hat]; simp)
  refine ⟨Nat.zero_le _, fun hlooking => absurd hlooking hm, ?_, ?_,
    fun hcall => absurd habsent hcall⟩
  · intro hentering
    rw [habsent] at hentering
    cases hentering
  · intro c k hcall
    cases c with
    | monitor =>
      rw [habsent] at hcall
      cases hcall
    | gateway =>
      rw [hcall] at hsearch
      cases hsearch

theorem miss :
    Watched cfg { s with missedPrimary := s.missedPrimary + 1, checks := false :: s.checks } := by
  have hmore : ∀ {owned leader}, Authority cfg owned leader s.misses →
      Authority cfg owned leader (s.misses + 1) := by
    intro _ _ hauthority
    refine { hauthority with checks := hauthority.checks.trans ?_ }
    exact Int.ofNat_le.2 (Nat.le_succ _)
  exact ⟨Nat.succ_le_succ h.missed, h.looking, fun hcall => hmore (h.entering hcall),
    fun c k hcall => hmore (h.searching c k hcall), h.calling⟩

theorem setCall (hentering : a = .entering → c = .monitor → Authority cfg s.owned s.leader s.misses)
    (hsearch : ∀ k, a = .searching k → Authority cfg s.owned s.leader s.misses)
    (hpresent : c = .monitor → a ≠ .absent → s.monitor = .calling) :
    Watched cfg (s.setCall c a) := by
  refine ⟨h.missed, h.looking, ?_, ?_, ?_⟩
  · intro hcall
    by_cases hc : Caller.monitor = c
    · subst hc
      exact hentering hcall rfl
    · simp only [System.setCall, update_of_ne hc] at hcall
      exact h.entering hcall
  · intro d k hcall
    by_cases hd : d = c
    · subst hd
      simp only [System.setCall, update_self] at hcall
      exact hsearch k hcall
    · simp only [System.setCall, update_of_ne hd] at hcall
      exact h.searching d k hcall
  · intro hcall
    by_cases hc : Caller.monitor = c
    · subst hc
      exact hpresent rfl hcall
    · simp only [System.setCall, update_of_ne hc] at hcall
      exact h.calling hcall

theorem advance (hat : s.call c = b) (hcall : s'.call = Function.update s.call c a)
    (hmiss : s'.missedPrimary ≤ s.missedPrimary) (hmonitor : s'.monitor = s.monitor)
    (howned : s'.owned = s.owned) (hleader : s'.leader = s.leader) (hchecks : s'.checks = s.checks)
    (hb : b ≠ .absent) (ha : a ≠ .entering) (hsearch : a.isSearching = false) : Watched cfg s' := by
  have hnext : Watched cfg (s.setCall c a) := by
    refine h.setCall (fun heq => absurd heq ha) ?_ ?_
    · rintro _ rfl
      cases hsearch
    · rintro rfl _
      apply h.calling
      rw [hat]
      exact hb
  exact hnext.of_eq hmiss hmonitor hcall howned hleader hchecks

theorem leave (c : Caller) : Watched cfg (s.leave c) := by
  have habsent : Watched cfg (s.setCall c .absent) := by
    refine h.setCall ?_ ?_ ?_
    · nofun
    · nofun
    · intro _ hne
      exact absurd rfl hne
  cases c with
  | gateway => exact habsent
  | monitor =>
    refine ⟨h.missed, fun hm => ?_, habsent.entering, habsent.searching, fun hcall => ?_⟩
    · cases hm
    · exact absurd (by simp [System.leave, System.setCall]) hcall

theorem of_not_pending (hpending : s.pending = false) (owned leader : Bool) :
    Watched cfg { s with owned := owned, leader := leader } := by
  obtain ⟨hlooking, hentering, hsearch⟩ := pending_eq_false hpending
  exact ⟨h.missed, fun hat => absurd hat hlooking, fun hat => absurd hat hentering,
    fun c k hat => absurd hat (hsearch c k), h.calling⟩

theorem own (hallowed : staysAuthorised cfg s (.own b) = true) :
    Watched cfg { s with owned := b } := by
  cases b with
  | true =>
    exact ⟨h.missed, fun hat => { h.looking hat with owned := rfl },
      fun hat => { h.entering hat with owned := rfl },
      fun c k hat => { h.searching c k hat with owned := rfl }, h.calling⟩
  | false =>
    have hpending : s.pending = false := by simpa [staysAuthorised] using hallowed
    exact h.of_not_pending hpending false s.leader

theorem of_leads (hleads : cfg.consensus = true → b = true) : Watched cfg { s with leader := b } :=
  ⟨h.missed, fun hat => { h.looking hat with leader := hleads },
    fun hat => { h.entering hat with leader := hleads },
    fun c k hat => { h.searching c k hat with leader := hleads }, h.calling⟩

theorem lead (hallowed : staysAuthorised cfg s (.lead b) = true) :
    Watched cfg { s with leader := b } := by
  simp only [staysAuthorised, or_eq_true, not_eq_true'] at hallowed
  rcases hallowed with (hleads | hnone) | hpending
  · exact h.of_leads fun _ => hleads
  · refine h.of_leads fun hcons => ?_
    rw [hnone] at hcons
    cases hcons
  · exact h.of_not_pending hpending s.owned b

/-- Who gets past the guard is authorised by what the monitor has looked at. -/
theorem authority_of_enters (hat : s.call c = .entering) (henabled : cfg.opts.enabled = true)
    (hstate : s.state ≠ .promoting) (hallowed : staysAuthorised cfg s (.enter c) = true) :
    Authority cfg s.owned s.leader s.misses := by
  cases c with
  | monitor => exact h.entering hat
  | gateway =>
    simp only [staysAuthorised, henabled, Bool.not_true, Bool.false_or, or_eq_true, beq_iff_eq,
      hstate,
      false_or] at hallowed
    exact h.entering hallowed

/-- **One step.** -/
theorem step (hallowed : staysAuthorised cfg s a = true) (hmoved : Moved cfg s a s') :
    Watched cfg s' := by
  cases hmoved with
  | owned => exact h.own hallowed
  | led => exact h.lead hallowed
  | skipped | writeWaits => exact h
  | ticked hat howned hstate hleader =>
    exact h.move (by rw [hat]; simp) fun _ => ⟨howned, hleader⟩
  | missed hat hcourse => exact h.miss.move (by rw [hat]; simp) nofun
  | alarmed hat hcourse henabled hthreshold =>
    have hacts := h.looking hat
    have hchecks : cfg.opts.failureThreshold ≤ (s.misses + 1 : Nat) :=
      hthreshold.trans (Int.ofNat_le.2 (Nat.succ_le_succ h.missed))
    have hcalling : Watched cfg { s with
        missedPrimary := s.missedPrimary + 1, checks := false :: s.checks, monitor := .calling } :=
      h.miss.move (by rw [hat]; simp) nofun
    exact hcalling.setCall (fun _ _ => ⟨hacts, henabled, hchecks⟩) nofun
      fun _ _ => rfl
  | foundSeveral hat hcourse | foundOne hat hcourse =>
    refine h.found hat ?_ (by simp)
    simpa [staysAuthorised, hcourse] using hallowed
  | unresolved hat | resolved hat | allDemoted hat | demotionStarted hat | demotionEnded hat
  | allCompared hat => exact h.move (by rw [hat]; simp) nofun
  | @compared primary pending b now hat hclock =>
    have hmoved : Watched cfg { s with monitor := .reconciling primary pending } :=
      h.move (by rw [hat]; simp) nofun
    exact hmoved.of_eq le_rfl rfl rfl rfl rfl rfl
  | wrote =>
    have hentering : Watched cfg (s.setCall .gateway .entering) := by
      refine h.setCall ?_ ?_ ?_
      · nofun
      · nofun
      · nofun
    exact hentering.of_eq le_rfl rfl rfl rfl rfl rfl
  | refused hat => exact h.leave _
  | @entered c hat henabled hstate =>
    have hauthority := h.authority_of_enters hat henabled hstate hallowed
    have hsearch : Watched cfg (s.setCall c (.searching (s.entered + 1))) := by
      refine h.setCall nofun (fun _ _ => hauthority) ?_
      rintro rfl _
      exact h.calling (by rw [hat]; simp)
    exact hsearch.of_eq le_rfl rfl rfl rfl rfl rfl
  | noReplica hat | promotes hat | promotionFailed hat | promotionDone hat | recorded hat
  | verifies hat | spawned hat =>
    exact h.advance hat rfl le_rfl rfl rfl rfl rfl (by simp) (by simp) rfl
  | cleared hat =>
    exact h.advance hat rfl (Nat.zero_le _) rfl rfl rfl rfl (by simp) (by simp) rfl
  | @finished c k hat =>
    have hleft : Watched cfg { s with state := if s.state = .promoting then .idle else s.state } :=
      h.of_eq le_rfl rfl rfl rfl rfl rfl
    exact hleft.leave c
  | _ => exact h.of_eq le_rfl rfl rfl rfl rfl rfl

end Watched

/-- **Promotions are authorised where the monitor has decided on them.**  In
every run in which the gateway gets past the guard only while the monitor's call
stands before it, and what the monitor looked at stays so until the promotion,
every promotion is authorised. -/
theorem promotions_authorised (cfg : Settings) (owned leader : Bool) (clock : Int)
    {actions : List Action}
    (hstays : Along (System.step cfg) (fun s a => staysAuthorised cfg s a = true)
      (System.start owned leader clock) actions) :
    Along (System.step cfg) (PromotesAuthorised cfg) (System.start owned leader clock) actions := by
  refine Along.of_invariant ?_ ?_ (Watched.start cfg owned leader clock) hstays
  · exact fun s a hs _ c bs k b _ hat _ => hs.searching c k hat
  · exact fun s a s' hs hallowed hstep => hs.step hallowed (moved hstep)

def threeChecks (bs : List Backend) : List Action :=
  [.tick, .look bs, .tick, .look bs, .tick, .look bs]

/-- The monitor promotes `db2`, and later the gateway is before it at the guard
and promotes `db3`. -/
def thirdCheck : List Action :=
  threeChecks [replica "db2"] ++ promotion .monitor [replica "db2"] ++
    [.verified 1 (ascii "db2")] ++ threeChecks [replica "db3"] ++
    [.write, .enter .gateway, .enter .monitor] ++ (promotion .gateway [replica "db3"]).tail

def threeMisses : Settings := ⟨⟨true, 3, true, true, 5 * minute, 3⟩, true⟩

theorem third_check_promotes :
    (run (System.step threeMisses) (System.start true true 0) thirdCheck).map
        System.lastPromoted = some (ascii "db3") ∧
      Along (System.step threeMisses) (PromotesAuthorised threeMisses) (System.start true true 0)
        thirdCheck :=
  ⟨by decide +kernel, promotions_authorised _ true true 0 (by decide +kernel)⟩

theorem write_promotes_unauthorised :
    ∃ s t, run (System.step threeMisses) (System.start false false 0)
        [.write, .enter .gateway] = some s ∧
      s.owned = false ∧ s.leader = false ∧ s.misses = 0 ∧
      ¬PromotesAuthorised threeMisses s (.search .gateway [replica "db2"]) ∧
      s.step threeMisses (.search .gateway [replica "db2"]) = some t ∧
      t.call .gateway = .promoting 1 (ascii "db2") := by
  refine ⟨_, _, rfl, rfl, rfl, rfl, ?_, rfl, by decide +kernel⟩
  intro h
  have howned := (h .gateway _ 1 (replica "db2") rfl rfl (by decide +kernel)).owned
  cases howned

end Pontus.Orchestration
