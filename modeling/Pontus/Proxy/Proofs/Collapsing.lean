import Pontus.Proxy.Proofs.Invariant
import Pontus.Proxy.Proofs.WholeReply

/-!
# What a collapsed follower is given

A leader reports in its call what became of the reply, but only once it gets as
far as the reply.  Every earlier return leaves the call as it was made, without
an error, and the followers take its empty data for an answer.
-/

namespace Pontus.Proxy

open Lib Protocol Pool
open List (forall_mem_singleton)

/-! ## The captured reply -/

/-- The reply of a request that starts with an empty buffer is captured whole,
or the call is marked. -/
theorem Forwarded.captured {session : Session} {env : ServeEnv} {a : Answered}
    (h : Forwarded cfg i session (some led) c env a)
    (hcapture : session.responseCapture.getD [] = []) :
    (callResult a.response).err ≠ none ∨
      a.response.err = none ∧ (callResult a.response).data = env.taken := by
  by_cases herr : a.response.err = none
  · have hstart : captureFor cfg session (some led) =
        some (newResponseCapture [] cfg.maxCaptureBytes) := by
      unfold captureFor
      cases hsome : session.responseCapture with
      | none => rfl
      | some =>
        rw [hsome, getD_some] at hcapture
        rw [hcapture]
    obtain ⟨_, hresult, hbuffer⟩ := h.capture hstart herr
    unfold callResult
    rw [hresult, herr]
    rcases hbuffer with ⟨hover, -⟩ | ⟨hover, hbuffer⟩
    · apply Or.inl
      simp [hover]
    · refine Or.inr ⟨rfl, ?_⟩
      simp only [map_some, getD_some, ResponseCapture.bytes, hover, false_eq_true, if_false]
      exact hbuffer
  · apply Or.inl
    unfold callResult
    rw [if_pos (Option.isSome_iff_ne_none.2 herr)]
    exact nofun

/-! ## The invariant -/

def Phase.led : Phase → Option Led
  | .acquiring led _ | .acquiringHome led _ | .serving led _ | .returning led _ => led
  | _ => none

def Reported (log : List Event) (k : Nat) (call : InflightCall) : Prop :=
  call.err ≠ none ∨ ∃ j, Event.replied j (some k) call.data ∈ log

theorem Reported.mono (h : Reported log k call) (events : List Event) :
    Reported (events ++ log) k call := by
  rcases h with herr | ⟨j, hreplied⟩
  · exact .inl herr
  · exact .inr ⟨j, mem_append_right _ hreplied⟩

structure CollapseInv (s : System) : Prop where
  bound : ∀ i led, (s.procs i).phase.led = some led → led.call < s.nextCall
  unique : ∀ i j led led', (s.procs i).phase.led = some led →
    (s.procs j).phase.led = some led' → led.call = led'.call → i = j
  done : ∀ k, (s.calls k).done = true → k < s.nextCall ∧
    (∀ i led, (s.procs i).phase.led = some led → led.call ≠ k) ∧ Reported s.log k (s.calls k)
  returning : ∀ i led failed, (s.procs i).phase = .returning (some led) failed →
    Reported s.log led.call (s.calls led.call)
  shared : ∀ i k data, Event.shared i k data ∈ s.log → ∃ j, Event.replied j (some k) data ∈ s.log

/-- What a move does to the calls: nothing, make a new one and lead it, write
into the one the session leads, or give that one up. -/
inductive CallMove (s : System) (i : Nat) (ch : Change) : Prop
  | kept (hcall : ch.call = none)
      (hled : ch.proc.phase.led = none ∨ ch.proc.phase.led = (s.procs i).phase.led)
      (hreturning : ∀ led failed, ch.proc.phase = .returning (some led) failed →
        Reported (ch.events ++ s.log) led.call (s.calls led.call))
  | leads (key : Bytes) (hcall : ch.call = some (s.nextCall, .new))
      (hled : ch.proc.phase.led = some ⟨s.nextCall, key⟩)
      (hreturning : ∀ led failed, ch.proc.phase ≠ .returning led failed)
  | answers (led : Led) (call : InflightCall) (hcall : ch.call = some (led.call, call))
      (hbefore : (s.procs i).phase.led = some led) (hled : ch.proc.phase.led = some led)
      (hopen : call.done = false) (hreported : Reported (ch.events ++ s.log) led.call call)
  | finishes (led : Led) (call : InflightCall) (hcall : ch.call = some (led.call, call))
      (hbefore : (s.procs i).phase.led = some led) (hled : ch.proc.phase.led = none)
      (hreported : Reported (ch.events ++ s.log) led.call call)

structure CollapseKeeps (s : System) (i : Nat) (ch : Change) : Prop where
  call : CallMove s i ch
  shared : ∀ j k data, Event.shared j k data ∈ ch.events →
    ∃ j, Event.replied j (some k) data ∈ s.log

section
variable {s : System} {i : Nat} {ch : Change}

theorem phase_apply_self : ((s.apply i ch).procs i).phase = ch.proc.phase := by
  rw [System.apply_procs, update_self]

theorem phase_apply_other (hj : j ≠ i) : ((s.apply i ch).procs j).phase = (s.procs j).phase := by
  rw [System.apply_procs, update_of_ne hj]

theorem led_before
    (hled : ch.proc.phase.led = none ∨ ch.proc.phase.led = (s.procs i).phase.led)
    (h : ((s.apply i ch).procs j).phase.led = some led) :
    (s.procs j).phase.led = some led := by
  by_cases hj : j = i
  · subst hj
    rw [phase_apply_self] at h
    rcases hled with hnone | hsame
    · rw [hnone] at h
      cases h
    · rw [← hsame]
      exact h
  · rw [phase_apply_other hj] at h
    exact h

theorem led_of_returning {phase : Phase} (h : phase = .returning (some led) failed) :
    phase.led = some led := by
  rw [h]
  rfl

variable (h : CollapseInv s) (hk : CollapseKeeps s i ch)
include h hk

theorem CollapseInv.shared_apply (j k : Nat) (data : Bytes)
    (hshared : Event.shared j k data ∈ (s.apply i ch).log) :
    ∃ j, Event.replied j (some k) data ∈ (s.apply i ch).log := by
  rw [System.apply_log] at hshared ⊢
  rcases mem_append.1 hshared with hnew | hold
  · obtain ⟨j', hreplied⟩ := hk.shared j k data hnew
    exact ⟨j', mem_append_right _ hreplied⟩
  · obtain ⟨j', hreplied⟩ := h.shared j k data hold
    exact ⟨j', mem_append_right _ hreplied⟩

theorem CollapseInv.apply_kept (hcall : ch.call = none)
    (hled : ch.proc.phase.led = none ∨ ch.proc.phase.led = (s.procs i).phase.led)
    (hreturning : ∀ led failed, ch.proc.phase = .returning (some led) failed →
      Reported (ch.events ++ s.log) led.call (s.calls led.call)) : CollapseInv (s.apply i ch) := by
  have hcalls := System.apply_calls_none s i ch hcall
  have hnext := System.apply_nextCall_none s i ch hcall
  refine ⟨?_, ?_, ?_, ?_, h.shared_apply hk⟩
  · intro j led hj
    rw [hnext]
    exact h.bound j led (led_before hled hj)
  · intro j j' led led' hj hj'
    exact h.unique j j' led led' (led_before hled hj) (led_before hled hj')
  · intro k hk'
    rw [hcalls] at hk' ⊢
    obtain ⟨hbound, hnobody, hreported⟩ := h.done k hk'
    rw [hnext, System.apply_log]
    exact ⟨hbound, fun j led hj => hnobody j led (led_before hled hj), hreported.mono _⟩
  · intro j led failed hphase
    rw [hcalls, System.apply_log]
    by_cases hj : j = i
    · rw [hj, phase_apply_self] at hphase
      exact hreturning led failed hphase
    · rw [phase_apply_other hj] at hphase
      exact (h.returning j led failed hphase).mono _

theorem CollapseInv.apply_leads (hcall : ch.call = some (s.nextCall, .new))
    (hled : ch.proc.phase.led = some ⟨s.nextCall, key⟩)
    (hreturning : ∀ led failed, ch.proc.phase ≠ .returning led failed) :
    CollapseInv (s.apply i ch) := by
  have hcalls := System.apply_calls_some s i ch hcall
  have hnext : (s.apply i ch).nextCall = s.nextCall + 1 := by
    rw [System.apply_nextCall_some s i ch hcall, if_pos rfl]
  -- the mover leads the new call, everybody else an older one
  have hcases : ∀ j led, ((s.apply i ch).procs j).phase.led = some led →
      (j = i ∧ led.call = s.nextCall) ∨
        (j ≠ i ∧ (s.procs j).phase.led = some led ∧ led.call < s.nextCall) := by
    intro j led hj
    by_cases hji : j = i
    · rw [hji, phase_apply_self, hled, some_inj] at hj
      exact .inl ⟨hji, by rw [← hj]⟩
    · rw [phase_apply_other hji] at hj
      exact .inr ⟨hji, hj, h.bound j led hj⟩
  refine ⟨?_, ?_, ?_, ?_, h.shared_apply hk⟩
  · intro j led hj
    rcases hcases j led hj with ⟨-, heq⟩ | ⟨-, -, hlt⟩ <;> omega
  · intro j j' led led' hj hj' heq
    rcases hcases j led hj with ⟨hji, _⟩ | ⟨hji, hold, hlt⟩
    · rcases hcases j' led' hj' with ⟨hji', -⟩ | ⟨-, -, _⟩
      · rw [hji, hji']
      · omega
    · rcases hcases j' led' hj' with ⟨-, _⟩ | ⟨-, hold', -⟩
      · omega
      · exact h.unique j j' led led' hold hold' heq
  · intro k hdone
    rw [hcalls] at hdone ⊢
    by_cases hk' : k = s.nextCall
    · rw [hk', update_self] at hdone
      cases hdone
    · rw [update_of_ne hk'] at hdone ⊢
      obtain ⟨_, hnobody, hreported⟩ := h.done k hdone
      rw [hnext, System.apply_log]
      refine ⟨by omega, ?_, hreported.mono _⟩
      intro j led hj
      rcases hcases j led hj with ⟨-, _⟩ | ⟨-, hold, -⟩
      · omega
      · exact hnobody j led hold
  · intro j led failed hphase
    rw [hcalls, System.apply_log]
    by_cases hj : j = i
    · rw [hj, phase_apply_self] at hphase
      exact absurd hphase (hreturning _ _)
    · rw [phase_apply_other hj] at hphase
      have hlt := h.bound j led (led_of_returning hphase)
      rw [update_of_ne (Nat.ne_of_lt hlt)]
      exact (h.returning j led failed hphase).mono _

theorem CollapseInv.apply_written (hcall : ch.call = some (led.call, call))
    (hbefore : (s.procs i).phase.led = some led)
    (hled : ch.proc.phase.led = none ∨ ch.proc.phase.led = some led ∧ call.done = false)
    (hreported : Reported (ch.events ++ s.log) led.call call) : CollapseInv (s.apply i ch) := by
  have hcalls := System.apply_calls_some s i ch hcall
  have hbound := h.bound i led hbefore
  have hnext : (s.apply i ch).nextCall = s.nextCall := by
    rw [System.apply_nextCall_some s i ch hcall, if_neg (Nat.ne_of_lt hbound)]
  have hled' : ch.proc.phase.led = none ∨ ch.proc.phase.led = (s.procs i).phase.led := by
    rw [hbefore]
    rcases hled with hnone | ⟨hsome, -⟩
    · exact .inl hnone
    · exact .inr hsome
  refine ⟨?_, ?_, ?_, ?_, h.shared_apply hk⟩
  · intro j led' hj
    rw [hnext]
    exact h.bound j led' (led_before hled' hj)
  · intro j j' led₁ led₂ hj hj'
    exact h.unique j j' led₁ led₂ (led_before hled' hj) (led_before hled' hj')
  · intro k hdone
    rw [hcalls] at hdone ⊢
    rw [hnext, System.apply_log]
    by_cases hk' : k = led.call
    · rw [hk', update_self] at hdone ⊢
      refine ⟨hbound, ?_, hreported⟩
      intro j led' hj heq
      -- nobody else led the call, and the mover has given it up
      have hji := h.unique j i led' led (led_before hled' hj) hbefore heq
      rw [hji, phase_apply_self] at hj
      rcases hled with hnone | ⟨-, hopen⟩
      · rw [hnone] at hj
        cases hj
      · rw [hopen] at hdone
        cases hdone
    · rw [update_of_ne hk'] at hdone ⊢
      obtain ⟨hlt, hnobody, hreplay⟩ := h.done k hdone
      exact ⟨hlt, fun j led' hj => hnobody j led' (led_before hled' hj), hreplay.mono _⟩
  · intro j led' failed hphase
    rw [hcalls, System.apply_log]
    by_cases hj : j = i
    · rw [hj, phase_apply_self] at hphase
      have hsome := led_of_returning hphase
      rcases hled with hnone | ⟨hsame, -⟩
      · rw [hnone] at hsome
        cases hsome
      · rw [hsame, some_inj] at hsome
        rw [← hsome, update_self]
        exact hreported
    · rw [phase_apply_other hj] at hphase
      have hne : led'.call ≠ led.call := by
        intro heq
        exact hj (h.unique j i led' led (led_of_returning hphase) hbefore heq)
      rw [update_of_ne hne]
      exact (h.returning j led' failed hphase).mono _

theorem CollapseInv.apply : CollapseInv (s.apply i ch) := by
  cases hk.call with
  | kept hcall hled hreturning => exact h.apply_kept hk hcall hled hreturning
  | leads _ hcall hled hreturning => exact h.apply_leads hk hcall hled hreturning
  | answers _ _ hcall hbefore hled hopen hreported =>
    exact h.apply_written hk hcall hbefore (.inr ⟨hled, hopen⟩) hreported
  | finishes _ _ hcall hbefore hled hreported =>
    exact h.apply_written hk hcall hbefore (.inl hled) hreported

end

/-! ### The moves -/

def homeUsable (s : System) (i : Nat) (source : Option Source) : Bool :=
  let session := (s.procs i).session
  match session.homeBackend, source with
  | some home, some source =>
    (s.take i ⟨home, session.identity⟩ source).all fun (_, conn) =>
      conn.conn.ready && conn.conn.belongsTo session.identity
  | _, _ => false

/-- A leader gets as far as the reply: its last resort for a connection holds,
the replay and the write of the request go well, and its buffer is empty. -/
def leaderReachesReply (s : System) : Action → Bool
  | .act i (.acquireHome source _) => (s.procs i).phase.led.isNone || homeUsable s i source
  | .act i (.serve env) =>
    (s.procs i).phase.led.isNone ||
      (env.writeError.isNone && env.replays.all (fun t => t.await == some true) &&
        ((s.procs i).session.responseCapture.getD []).isEmpty)
  | _ => true

theorem Replays.succeeds (h : Replays i c items trips r)
    (hawait : ∀ t ∈ trips, t.await = some true) :
    r.succeeded := by
  induction h with
  | done => rfl
  | held _ _ ih => exact ih hawait
  | written _ _ _ _ ih => exact ih fun t ht => hawait t (mem_cons_of_mem _ ht)
  | refused _ _ href => exact nomatch href.symm.trans (hawait _ (mem_cons_self ..))

theorem replaySession_succeeds (hawait : ∀ t ∈ env.replays, t.await = some true)
    (h : replaySession i session c env = some r) : r.succeeded := by
  rcases replaySession_cases h with ⟨-, -, rfl⟩ | ⟨-, -, -, _, hr', rfl⟩
  · rfl
  · exact hr'.succeeds hawait

def Event.noShare : Event → Bool
  | .shared _ _ _ => false
  | _ => true

section
variable {cfg : Config} {s : System} {i : Nat}

theorem noShare_shared {events : List Event} (hevents : ∀ e ∈ events, e.noShare)
    (j k : Nat) (data : Bytes) (h : Event.shared j k data ∈ events) :
    ∃ j, Event.replied j (some k) data ∈ s.log :=
  nomatch hevents _ h

theorem collapse_moved {p : Proc} (hled : p.phase.led = none ∨ p.phase.led = (s.procs i).phase.led)
    (hreturning : ∀ led failed, p.phase ≠ .returning (some led) failed)
    (hevents : ∀ e ∈ events, e.noShare) :
    CollapseKeeps s i { proc := p, conn := conn, inFlight := inFlight, events := events } where
  call := .kept rfl hled fun led failed hphase => absurd hphase (hreturning led failed)
  shared := noShare_shared hevents

theorem proceed_led (p : Proc) (led : Option Led) : (p.proceed led).phase.led = led := by
  unfold Proc.proceed
  split <;> rfl

theorem proceed_not_returning (p : Proc) (led led' : Option Led) (failed : Bool) :
    (p.proceed led).phase ≠ .returning led' failed := by
  unfold Proc.proceed
  split <;> exact nofun

theorem Obtained.collapse (hled : (s.procs i).phase.led = led)
    (h : Obtained s i led retry backend c conn env ch) : CollapseKeeps s i ch := by
  cases h with
  | installed =>
    refine collapse_moved (.inr hled.symm) nofun ?_
    exact forall_mem_singleton.2 rfl
  | behind =>
    refine collapse_moved (.inr hled.symm) nofun ?_
    exact forall_mem_cons.2 ⟨rfl, forall_mem_singleton.2 rfl⟩

theorem settle_collapse {env : ServeEnv} {led : Option Led} {a' : Answered}
    (hallowed : leaderReachesReply s (.act i (.serve env)))
    (hphase : (s.procs i).phase = .serving led acquired)
    (hforwarded : Forwarded cfg i (s.procs i).session led conn env a)
    (hrecorded : LSNRecorded a a' env) (hreply : reply = if a'.response.err.isNone then
      [Event.replied i (led.map Led.call) env.taken] else [])
    (hevents : ∀ e ∈ events, e.noShare) :
    CollapseKeeps s i (settle cfg s i (s.procs i) led c a' (reply ++ events)) := by
  have hshared : ∀ e ∈ reply ++ events, e.noShare = true := by
    intro e he
    rcases mem_append.1 he with he | he
    · rw [hreply] at he
      split at he
      · rw [mem_singleton.1 he]
        rfl
      · cases he
    · exact hevents e he
  have hreported : ∀ l, led = some l →
      Reported ((reply ++ events) ++ s.log) l.call (callResult a'.response) := by
    intro l hl
    have hbuffer : (s.procs i).session.responseCapture.getD [] = [] := by
      simp only [leaderReachesReply, hphase, Phase.led, hl, isNone_some, Bool.false_or,
        and_eq_true, List.isEmpty_iff] at hallowed
      exact hallowed.2
    rw [hl] at hforwarded hreply
    rw [hrecorded.response] at hreply ⊢
    rcases hforwarded.captured hbuffer with herr | ⟨hnone, hdata⟩
    · exact .inl herr
    · refine .inr ⟨i, ?_⟩
      rw [hreply, hnone, hdata]
      simp
  have hbefore : (s.procs i).phase.led = led := by
    rw [hphase]
    rfl
  cases led with
  | none =>
    unfold settle
    split
    · refine collapse_moved (.inl rfl) nofun ?_
      exact forall_mem_cons.2 ⟨rfl, hshared⟩
    · exact collapse_moved (.inl rfl) nofun hshared
  | some l =>
    unfold settle
    split
    · refine ⟨.answers l (callResult a'.response) rfl hbefore rfl rfl ?_, ?_⟩
      · exact (hreported l rfl).mono [_]
      · apply noShare_shared
        exact forall_mem_cons.2 ⟨rfl, hshared⟩
    · exact ⟨.answers l (callResult a'.response) rfl hbefore rfl rfl (hreported l rfl),
        noShare_shared hshared⟩

/-- **Every move keeps the calls honest.** -/
theorem collapse_keeps (hs : CollapseInv s) {a : Act} {ch : Change}
    (hallowed : leaderReachesReply s (.act i a)) (h : Outcome cfg s i a ch) :
    CollapseKeeps s i ch := by
  have hnone : ∀ e ∈ ([] : List Event), e.noShare = true := fun e he => nomatch he
  cases h with
  -- nobody leads and nothing is shared
  | connectClosed | connected | noBackend | refused | hit | passed | finished | concludedClosed
  | concluded => exact collapse_moved (.inl rfl) nofun hnone
  | opened =>
    unfold sessionOpened
    dsimp only
    split
    · refine collapse_moved (.inl rfl) nofun ?_
      exact forall_mem_cons.2 ⟨rfl, forall_mem_singleton.2 rfl⟩
    · exact collapse_moved (.inl rfl) nofun (forall_mem_singleton.2 rfl)
  | wrongConnection _ _ _ _ hp =>
    rcases hp with rfl | ⟨left, rfl⟩
    · exact collapse_moved (.inl rfl) nofun (forall_mem_singleton.2 rfl)
    · exact collapse_moved (.inl rfl) nofun (forall_mem_singleton.2 rfl)
  | openFailed | follows | concludedFailed | concludedReleased =>
    exact collapse_moved (.inl rfl) nofun (forall_mem_singleton.2 rfl)
  | left =>
    unfold leaveSession
    split
    · exact collapse_moved (.inl rfl) nofun (forall_mem_singleton.2 rfl)
    · exact collapse_moved (.inl rfl) nofun hnone
  | request _ hnext =>
    rcases hnext with rfl | rfl <;> exact collapse_moved (.inl rfl) nofun hnone
  | alone =>
    exact collapse_moved (.inl (proceed_led _ _))
      (fun _ _ => proceed_not_returning _ _ _ _) (forall_mem_singleton.2 rfl)
  | @leads key =>
    exact ⟨.leads key rfl (proceed_led _ _) (fun _ _ => proceed_not_returning _ _ _ _),
      noShare_shared (forall_mem_singleton.2 rfl)⟩
  | @shared _ _ _ _ hdone hanswer =>
    refine ⟨.kept rfl (.inl rfl) nofun, ?_⟩
    intro _ k _ hshared
    split at hshared
    · cases hshared
    · rw [mem_singleton, Event.shared.injEq] at hshared
      obtain ⟨-, rfl, rfl⟩ := hshared
      obtain ⟨-, -, hreported⟩ := hs.done k hdone
      unfold InflightCall.answer at hanswer
      rcases hreported with herr | ⟨j', hreplied⟩
      · split at hanswer
        · rename_i hok
          exact absurd hok herr
        · cases hanswer
      · split at hanswer
        · cases hanswer
          exact ⟨j', hreplied⟩
        · cases hanswer
  | fallsThrough =>
    exact collapse_moved (.inl (proceed_led _ _)) (fun _ _ => proceed_not_returning _ _ _ _) hnone
  | notPicked hphase =>
    refine collapse_moved (.inr ?_) nofun hnone
    rw [hphase]
    rfl
  | usable hphase _ _ _ hobtained | authenticated hphase _ _ _ hobtained
  | usableHome hphase _ _ _ hobtained =>
    exact (obtained_cases hobtained).collapse (by rw [hphase]; rfl)
  | unusable hphase =>
    refine collapse_moved (.inr ?_) nofun (forall_mem_singleton.2 rfl)
    rw [hphase]
    rfl
  | @noHome _ _ led _ hphase hnoHome =>
    cases led with
    | none => exact collapse_moved (.inl rfl) nofun hnone
    | some =>
      simp only [leaderReachesReply, hphase, Phase.led, isNone_some, Bool.false_or,
        homeUsable] at hallowed
      rcases hnoHome with hnoHome | hnoHome
      · rw [hnoHome] at hallowed
        cases hallowed
      · rw [hnoHome] at hallowed
        split at hallowed
        · rename_i hsome
          cases hsome
        · cases hallowed
  | @unusableHome _ _ led _ _ _ _ hphase hhome htaken hunusable =>
    cases led with
    | none =>
      exact collapse_moved (.inl rfl) nofun (forall_mem_singleton.2 rfl)
    | some =>
      simp only [leaderReachesReply, hphase, Phase.led, isNone_some, Bool.false_or,
        homeUsable, hhome, htaken.take, all_some, hunusable] at hallowed
      cases hallowed
  | @replayFailed _ led _ _ _ hphase _ hreplay hfail =>
    cases led with
    | none =>
      exact collapse_moved (.inl rfl) nofun (forall_mem_singleton.2 rfl)
    | some =>
      simp only [leaderReachesReply, hphase, Phase.led, isNone_some, Bool.false_or,
        and_eq_true, all_eq_true, beq_iff_eq] at hallowed
      rw [replaySession_succeeds hallowed.1.2 hreplay] at hfail
      cases hfail
  | @writeFailed _ led _ _ _ hphase _ _ _ hwrite =>
    cases led with
    | none =>
      refine collapse_moved (.inl rfl) nofun ?_
      exact forall_mem_cons.2 ⟨rfl, forall_mem_singleton.2 rfl⟩
    | some =>
      simp only [leaderReachesReply, hphase, Phase.led, isNone_some, Bool.false_or,
        and_eq_true, isNone_iff_eq_none] at hallowed
      exact absurd hallowed.1.1 hwrite
  | answered hphase _ _ _ _ hforward hlsn hreply =>
    refine settle_collapse hallowed hphase (forwarded_of_forwardReply hforward)
      (lsnRecorded_of_recordLSN hlsn) hreply ?_
    exact forall_mem_cons.2 ⟨rfl, forall_mem_singleton.2 rfl⟩
  | @finishedLeader led failed hphase =>
    refine ⟨.finishes led _ rfl (led_of_returning hphase) rfl ?_, noShare_shared hnone⟩
    exact hs.returning i led failed hphase

theorem collapse_init : CollapseInv .init where
  bound := nofun
  unique := nofun
  done := nofun
  returning := nofun
  shared := nofun

theorem collapse_step (hs : CollapseInv s) (hallowed : leaderReachesReply s a)
    (hstep : step cfg s a = some s') : CollapseInv s' := by
  cases moved_of_step hstep with
  | session hout => exact hs.apply (collapse_keeps hs hallowed hout)
  | reset => exact ⟨hs.bound, hs.unique, hs.done, hs.returning, hs.shared⟩
  | drained => exact ⟨hs.bound, hs.unique, hs.done, hs.returning, hs.shared⟩

end

/-! ## The runs -/

/-- **Followers share complete replies only.**  Whatever the interleaving, what
a follower wrote to its client was forwarded whole by a leader whose reply met
no error; and a follower about to move is answered with such data or goes on to
execute the request itself. -/
theorem followers_share_complete_replies (cfg : Config) {actions : List Action} {s : System}
    (hreaches : Along (step cfg) (fun s a => leaderReachesReply s a = true) .init actions)
    (hrun : run (step cfg) .init actions = some s) :
    (∀ i k data, Event.shared i k data ∈ s.log →
        ∃ j, Event.replied j (some k) data ∈ s.log) ∧
      ∀ i k writeFails ch, (s.procs i).phase = .following k →
        follow s i (s.procs i) writeFails = some ch →
        (∃ j, Event.replied j (some k) (s.calls k).data ∈ s.log) ∨
          ch = { proc := (s.procs i).proceed none } := by
  have hinv : CollapseInv s := by
    apply run_invariant _ collapse_init hreaches hrun
    intro _ _ _ hs hallowed hstep
    exact collapse_step hs hallowed hstep
  refine ⟨hinv.shared, ?_⟩
  intro _ k _ _ hphase hfollow
  unfold follow at hfollow
  rw [hphase] at hfollow
  dsimp only at hfollow
  split at hfollow
  · cases hfollow
  rename_i hdone
  rw [not_eq_true, not_eq_false'] at hdone
  obtain ⟨-, -, hreported⟩ := hinv.done k hdone
  rcases hreported with herr | hreplied
  · apply Or.inr
    unfold InflightCall.answer at hfollow
    split at hfollow
    · rename_i hsome
      split at hsome
      · rename_i hok
        exact absurd hok herr
      · cases hsome
    · cases hfollow
      rfl
  · exact Or.inl hreplied

def oneLeadsOneFollows : List Action :=
  opens 0 appStartup (ascii "db") .dial ++ opens 1 appStartup (ascii "db") .dial ++
    sends 0 (simpleQuery (ascii "SELECT 1")) ++ sends 1 (simpleQuery (ascii "SELECT 1"))

def leaderServed : List Action :=
  oneLeadsOneFollows ++ acquires 0 (ascii "db") .dial ++
    serves 0 (.undisturbed (completed 'I'.toUInt8) 'I'.toUInt8) ++ [.act 1 (.follow false)]

theorem follower_shares_served_reply :
    ∃ s, run (step (Config.initial id true)) .init leaderServed = some s ∧
      Event.shared 1 0 (Frame.encodeAll (completed 'I'.toUInt8)) ∈ s.log ∧
      ∃ j, Event.replied j (some 0) (Frame.encodeAll (completed 'I'.toUInt8)) ∈ s.log := by
  have hreaches : Along (step (Config.initial id true))
      (fun s a => leaderReachesReply s a = true) .init leaderServed := by
    decide +kernel
  obtain ⟨s, hrun, hshared⟩ := exists_run (show (run (step (Config.initial id true)) .init
    leaderServed).any (fun s => decide (Event.shared 1 0
      (Frame.encodeAll (completed 'I'.toUInt8)) ∈ s.log)) = true by decide +kernel)
  have hshared := of_decide_eq_true hshared
  exact ⟨s, hrun, hshared, (followers_share_complete_replies _ hreaches hrun).1 1 0 _ hshared⟩

def leaderUnserved : List Action :=
  oneLeadsOneFollows ++
    [.act 0 (.acquire ⟨none, false, false, false, []⟩),
      .act 0 (.acquireHome none ⟨none, false, false, false, []⟩), .act 0 .finish,
      .act 1 (.follow false)]

theorem follower_shares_nothing :
    ∃ s, run (step (Config.initial id true)) .init leaderUnserved = some s ∧
      Event.shared 1 0 [] ∈ s.log ∧ ¬∃ j, Event.replied j (some 0) [] ∈ s.log := by
  obtain ⟨s, hrun, h⟩ := exists_run (show (run (step (Config.initial id true)) .init
    leaderUnserved).any (fun s => decide (Event.shared 1 0 [] ∈ s.log) &&
      s.log.all fun e => match e with
        | .replied _ _ _ => false
        | _ => true) = true by decide +kernel)
  rw [and_eq_true, decide_eq_true_eq, all_eq_true] at h
  refine ⟨s, hrun, h.1, ?_⟩
  intro ⟨_, hreplied⟩
  exact nomatch h.2 _ hreplied

end Pontus.Proxy
