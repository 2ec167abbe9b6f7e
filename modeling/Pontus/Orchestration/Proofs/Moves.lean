import Pontus.Orchestration.FailoverManager

/-!
# What a step of the manager can do

`Moved` lists the steps with what they need and what they leave behind.  Every
invariant of the manager is a case analysis of it.
-/

namespace Pontus.Orchestration

open Lib Pool

inductive Moved (cfg : Settings) (s : System) : Action → System → Prop
  | owned : Moved cfg s (.own b) { s with owned := b }
  | led : Moved cfg s (.lead b) { s with leader := b }
  -- the monitor
  | skipped (hat : s.monitor = .waiting) : Moved cfg s .tick s
  | ticked (hat : s.monitor = .waiting) (howned : s.owned = true) (hstate : s.state ≠ .promoting)
      (hleader : cfg.consensus = true → s.leader = true) :
      Moved cfg s .tick { s with monitor := .looking }
  | missed (hat : s.monitor = .looking) (hcourse : course bs = .missed) :
      Moved cfg s (.look bs)
        { s with
          missedPrimary := s.missedPrimary + 1
          checks := false :: s.checks
          monitor := .waiting }
  | alarmed (hat : s.monitor = .looking) (hcourse : course bs = .missed)
      (henabled : cfg.opts.enabled = true)
      (hthreshold : cfg.opts.failureThreshold ≤ (s.missedPrimary + 1 : Nat)) :
      Moved cfg s (.look bs)
        { s.setCall .monitor .entering with
          missedPrimary := s.missedPrimary + 1
          checks := false :: s.checks
          monitor := .calling }
  | foundSeveral (hat : s.monitor = .looking) (hcourse : course bs = .splitBrain) :
      Moved cfg s (.look bs)
        { s with missedPrimary := 0, checks := true :: s.checks, monitor := .resolving bs }
  | foundOne (hat : s.monitor = .looking) (hcourse : course bs = .rejoin primary) :
      Moved cfg s (.look bs)
        { s with
          missedPrimary := 0
          checks := true :: s.checks
          monitor := .reconciling primary (bs.map Backend.address) }
  | unresolved (hat : s.monitor = .resolving bs) :
      Moved cfg s (.resolve consensusPrimary) { s with monitor := .waiting }
  | resolved {kept : Backend} (hat : s.monitor = .resolving bs) :
      Moved cfg s (.resolve consensusPrimary)
        { s with monitor := .demoting kept.address (losers bs kept.address) }
  | allDemoted {kept : Bytes} (hat : s.monitor = .demoting kept []) :
      Moved cfg s .demote { s with monitor := .waiting }
  | demotionStarted {kept : Bytes} (hat : s.monitor = .demoting kept (node :: pending)) :
      Moved cfg s .demote { s with monitor := .inDemotion node kept pending }
  | demotionEnded {kept : Bytes} (hat : s.monitor = .inDemotion node kept pending) :
      Moved cfg s .demoted { s with monitor := .demoting kept pending }
  | compared
      (hat : s.monitor = .reconciling primary (b.address :: pending)) (hclock : s.clock ≤ now) :
      Moved cfg s (.reconcile b now) (s.reconcile cfg primary pending b now)
  | allCompared (hat : s.monitor = .reconciling primary []) :
      Moved cfg s .reconciled { s with monitor := .waiting }
  -- the gateway
  | writeWaits (hfailover : s.inFailover = true) : Moved cfg s .write s
  | wrote (hfailover : s.inFailover = false) :
      Moved cfg s .write { s.setCall .gateway .entering with inFailover := true }
  | resumed (hcall : s.call .gateway = .absent) : Moved cfg s .resume { s with inFailover := false }
  -- `TriggerFailover`
  | refused (hat : s.call c = .entering) : Moved cfg s (.enter c) (s.leave c)
  | entered (hat : s.call c = .entering) (henabled : cfg.opts.enabled = true)
      (hstate : s.state ≠ .promoting) :
      Moved cfg s (.enter c)
        { s.setCall c (.searching (s.entered + 1)) with
          state := .promoting
          entered := s.entered + 1 }
  | noReplica (hat : s.call c = .searching k) (hnone : findBestReplica bs = none) :
      Moved cfg s (.search c bs) { s.setCall c (.returning k) with state := .failed }
  | promotes (hat : s.call c = .searching k) (hbest : findBestReplica bs = some b) :
      Moved cfg s (.search c bs) (s.setCall c (.promoting k b.address))
  | promotionFailed (hat : s.call c = .promoting k node) :
      Moved cfg s (.promoted c false) { s.setCall c (.returning k) with state := .failed }
  | promotionDone (hat : s.call c = .promoting k node) :
      Moved cfg s (.promoted c true) (s.setCall c (.promoted k node))
  | recorded (hat : s.call c = .promoted k node) :
      Moved cfg s (.record c) { s.setCall c (.recorded k node) with lastPromoted := node }
  | cleared (hat : s.call c = .recorded k node) :
      Moved cfg s (.clear c) { s.setCall c (.cleared k node) with missedPrimary := 0 }
  | verifies (hat : s.call c = .cleared k node) :
      Moved cfg s (.verify c) { s.setCall c (.spawning k node) with state := .verifying }
  | spawned (hat : s.call c = .spawning k node) :
      Moved cfg s (.spawn c) (s.spawn cfg c k node)
  | finished (hat : s.call c = .returning k) :
      Moved cfg s (.finish c) (s.afterwards c)
  -- its goroutines
  | verified (hmem : (k, node) ∈ s.verifying) :
      Moved cfg s (.verified k node)
        { s with state := .idle, verifying := s.verifying.erase (k, node) }
  | unverified (hmem : (k, node) ∈ s.verifying) :
      Moved cfg s (.unverified k node)
        { s with state := .failed, verifying := s.verifying.erase (k, node) }
  | followStarted (hmem : primary ∈ s.follows) :
      Moved cfg s (.follow primary bs)
        { s with
          follows := s.follows.erase primary
          following := replicasToFollow primary bs ++ s.following }
  | followEnded (hmem : node ∈ s.following) :
      Moved cfg s (.followed node) { s with following := s.following.erase node }
  | rebuildStarted (hmem : (node, .starting) ∈ s.rejoining) :
      Moved cfg s (.rejoin node) (s.moveRejoin node .starting .rebuilding)
  | rebuilt (hmem : (node, .rebuilding) ∈ s.rejoining) :
      Moved cfg s (.rebuilt node true) (s.moveRejoin node .rebuilding .confirming)
  | rebuildFailed (hmem : (node, .rebuilding) ∈ s.rejoining) :
      Moved cfg s (.rebuilt node false) (s.endRejoin node .rebuilding false)
  | confirmed (hmem : (node, .confirming) ∈ s.rejoining) :
      Moved cfg s (.confirmed node healthy)
        { s.endRejoin node .confirming true with
          log := if healthy then .streaming node :: s.log else s.log }
  | unconfirmed (hmem : (node, .confirming) ∈ s.rejoining) :
      Moved cfg s (.unconfirmed node) (s.endRejoin node .confirming false)

section
variable {cfg : Settings} {s : System}

theorem moved_tick (hat : s.monitor = .waiting) : Moved cfg s .tick (s.tick cfg) := by
  unfold System.tick
  split
  · exact .skipped hat
  rename_i howned
  split
  · exact .skipped hat
  rename_i hstate
  split
  · exact .skipped hat
  rename_i hleader
  refine .ticked hat (by simpa using howned) hstate ?_
  intro hcons
  simpa [hcons] using hleader

theorem moved_look (hat : s.monitor = .looking) (bs : List Backend) :
    Moved cfg s (.look bs) (s.look cfg bs) := by
  unfold System.look
  split
  · rename_i hcourse
    unfold System.miss
    dsimp only
    split
    · exact .missed hat hcourse
    rename_i henabled
    split
    · exact .missed hat hcourse
    rename_i hthreshold
    exact .alarmed hat hcourse (by simpa using henabled) (Int.not_lt.1 hthreshold)
  · rename_i hcourse
    exact .foundSeveral hat hcourse
  · rename_i primary hcourse
    exact .foundOne hat hcourse

theorem moved_enter (hat : s.call c = .entering) : Moved cfg s (.enter c) (s.enter cfg c) := by
  unfold System.enter
  split
  · exact .refused hat
  rename_i henabled
  split
  · exact .refused hat
  rename_i hstate
  exact .entered hat (by simpa using henabled) hstate

theorem moved_search (hat : s.call c = .searching k) (bs : List Backend) :
    Moved cfg s (.search c bs) (s.search c k bs) := by
  unfold System.search
  split
  · rename_i hnone
    exact .noReplica hat hnone
  · rename_i b hbest
    exact .promotes hat hbest

end

/-- **What a step can do.** -/
theorem moved (h : s.step cfg a = some s') : Moved cfg s a s' := by
  unfold System.step at h
  cases a with
  | own =>
    cases h
    exact .owned
  | lead =>
    cases h
    exact .led
  | tick =>
    dsimp only at h
    split at h <;> cases h
    exact moved_tick ‹_›
  | look bs =>
    dsimp only at h
    split at h <;> cases h
    exact moved_look ‹_› bs
  | resolve =>
    dsimp only at h
    split at h <;> cases h
    rename_i bs hat
    unfold System.resolve
    split
    · exact .unresolved hat
    · exact .resolved hat
  | demote =>
    dsimp only at h
    split at h <;> cases h
    · exact .allDemoted ‹_›
    · exact .demotionStarted ‹_›
  | demoted =>
    dsimp only at h
    split at h <;> cases h
    exact .demotionEnded ‹_›
  | reconcile =>
    dsimp only at h
    split at h
    · rename_i primary address pending hat
      split at h <;> cases h
      rename_i hboth
      obtain ⟨rfl, hclock⟩ := hboth
      exact .compared hat hclock
    · cases h
  | reconciled =>
    dsimp only at h
    split at h <;> cases h
    exact .allCompared ‹_›
  | write =>
    dsimp only at h
    split at h <;> cases h
    · exact .writeWaits ‹_›
    · exact .wrote (Bool.eq_false_of_not_eq_true ‹_›)
  | resume =>
    dsimp only at h
    split at h <;> cases h
    rename_i hboth
    exact .resumed hboth.2
  | enter =>
    dsimp only at h
    split at h <;> cases h
    exact moved_enter ‹_›
  | search _ bs =>
    dsimp only at h
    split at h <;> cases h
    exact moved_search ‹_› bs
  | promoted _ ok =>
    dsimp only at h
    split at h <;> cases h
    rename_i k node hat
    cases ok with
    | false => exact .promotionFailed hat
    | true => exact .promotionDone hat
  | record =>
    dsimp only at h
    split at h <;> cases h
    exact .recorded ‹_›
  | clear =>
    dsimp only at h
    split at h <;> cases h
    exact .cleared ‹_›
  | verify =>
    dsimp only at h
    split at h <;> cases h
    exact .verifies ‹_›
  | spawn =>
    dsimp only at h
    split at h <;> cases h
    exact .spawned ‹_›
  | finish =>
    dsimp only at h
    split at h <;> cases h
    exact .finished ‹_›
  | verified =>
    dsimp only at h
    split at h <;> cases h
    exact .verified ‹_›
  | unverified =>
    dsimp only at h
    split at h <;> cases h
    exact .unverified ‹_›
  | follow =>
    dsimp only at h
    split at h <;> cases h
    exact .followStarted ‹_›
  | followed =>
    dsimp only at h
    split at h <;> cases h
    exact .followEnded ‹_›
  | rejoin =>
    dsimp only at h
    split at h <;> cases h
    exact .rebuildStarted ‹_›
  | rebuilt _ ok =>
    dsimp only at h
    split at h <;> cases h
    rename_i hmem
    cases ok with
    | false => exact .rebuildFailed hmem
    | true => exact .rebuilt hmem
  | confirmed =>
    dsimp only at h
    split at h <;> cases h
    exact .confirmed ‹_›
  | unconfirmed =>
    dsimp only at h
    split at h <;> cases h
    exact .unconfirmed ‹_›

end Pontus.Orchestration
