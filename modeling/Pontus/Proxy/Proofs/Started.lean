import Pontus.Proxy.Proofs.Accounts

/-!
# What Pontus itself says is said on started connections

A connection is `Ready` once somebody has completed a startup exchange on it,
and the engine keeps only those.  So an errand that is lent an idle connection
speaks on a started one.  The engine dials a raw socket where nothing is idle,
and an errand writes no startup packet: mirroring, a refresh and the probe then
put their queries to a backend that is still waiting for one.
-/

namespace Pontus.Proxy

open Lib Protocol Pool
open Function (update)

variable {i c k : Nat} {r' : Runtime}

def Source.idle (s : System) : Source → Bool
  | .dial => false
  | .pooled c => (s.conns c).place == .returned .idle

def Runtime.lendsIdle (r : Runtime) : RuntimeAction → Bool
  | .mirror _ _ _ source _ => source.idle r.sys
  | .refresh _ _ _ source _ => source.idle r.sys
  | .check _ _ source => source.idle r.sys
  | _ => true

structure Vouched (started : Bool) (conn : PoolConn) : Prop where
  ready : conn.conn.ready = true → started = true
  returned : ∀ fate, conn.place = .returned fate → fate ≠ .destroyed → conn.conn.ready = true

namespace Vouched

variable {started : Bool} {conn conn' : PoolConn}

theorem of_held (hplace : conn.place = .held i) (hready : conn.conn.ready = true → started = true) :
    Vouched started conn := by
  refine ⟨hready, ?_⟩
  intro _ hreturned
  exact nomatch hplace.symm.trans hreturned

theorem release (draining : Bool) (hready : conn.conn.ready = true → started = true) :
    Vouched started (conn.release draining) := by
  have hsame := (Carried.release conn draining).ready
  refine ⟨fun h => hready (hsame.symm.trans h), ?_⟩
  intro _ hplace hfate
  exact hsame.trans (release_returned hplace hfate).2.1

theorem kept (h : Vouched started conn) (hkept : Kept conn conn') : Vouched started conn' := by
  constructor
  · rw [hkept.ready]
    exact h.ready
  · rw [hkept.ready, hkept.place]
    exact h.returned

theorem recycled {rollback discard : RoundTrip} (h : Vouched started conn)
    (hplace : conn.place = .returned .cleanup) (hrecycled : Recycled conn rollback discard conn') :
    Vouched started conn' := by
  have hready := hrecycled.carried.ready.trans (h.returned .cleanup hplace (by decide))
  refine ⟨?_, fun _ _ _ => hready⟩
  rw [hrecycled.carried.ready]
  exact h.ready

end Vouched

structure SpeaksStarted (r : Runtime) : Prop where
  accounted : Accounted r
  conn : ∀ c, Vouched (r.started c) (r.sys.conns c)
  errand : ∀ k e, r.errands k = some e → e.job ≠ .handleReplication → r.started e.conn = true
  said : ∀ q ∈ r.said, q.job ≠ .handleReplication → q.started = true

theorem speaksStarted_init : SpeaksStarted .init where
  accounted := accounted_init
  conn c := by
    constructor
    · nofun
    · rintro _ ⟨⟩ hfate
      exact absurd rfl hfate
  errand := nofun
  said := forall_mem_nil _

theorem started_update (h : started d = true) : update started c true d = true := by
  by_cases hd : d = c
  · rw [hd, update_self]
  · rw [update_of_ne hd, h]

namespace SpeaksStarted

variable {cfg : Config} {r : Runtime}

variable (hr : SpeaksStarted r)
include hr

theorem taken_ready {conn : PoolConn} (htaken : r.sys.Taken i key source c conn)
    (hready : conn.conn.ready = true) : r.started c = true := by
  cases htaken with
  | dial => cases hready
  | pooled => exact (hr.conn c).ready hready

theorem touched_ready {ch : Change} {conn : PoolConn} (hconn : ch.conn = some (c, conn))
    (h : Touched cfg r.sys i a c conn) (hready : conn.conn.ready = true) :
    r.started c = true ∨ startedBy r.sys i a ch = some c := by
  cases h with
  | own hserver htakes hcarried => exact .inl ((hr.conn c).ready (hcarried.ready.symm.trans hready))
  | @taken backend source before htakes htaken hreadied =>
    rcases hreadied.startup with ⟨-, hbefore⟩ | ⟨_, -, hstartups, hcompletes⟩
    · exact .inl (hr.taken_ready htaken (hbefore hready))
    · refine .inr ?_
      have hdiffers : conn.wire.startups ≠ before.wire.startups := by
        rw [hstartups]
        exact List.cons_ne_self _ _
      unfold startedBy takenBy
      simp [htakes, htaken.take, hconn, hcompletes hready, hdiffers]

theorem act {a : Act} {ch : Change} {started : Nat → Bool} (hch : change cfg r.sys i a = some ch)
    (hstarted : started = match startedBy r.sys i a ch with
      | some c => update r.started c true
      | none => r.started) :
    SpeaksStarted { r with
      sys := r.sys.apply i ch, calls := callsOf r.sys i a ch ++ r.calls, started := started } := by
  have hout := outcome_of_change hch
  have hlegal := legal_of_outcome hr.accounted.owned hout
  have hturn := turn_of_outcome hr.accounted.owned hout
  have hgrows : ∀ c, r.started c = true → started c = true := by
    intro c hc
    rw [hstarted]
    split
    · exact started_update hc
    · exact hc
  refine ⟨hr.accounted.act hch, ?_, ?_, hr.said⟩
  · intro c
    cases hconn : ch.conn with
    | none =>
      rw [System.apply_conns_none _ _ _ hconn]
      exact ⟨fun h => hgrows c ((hr.conn c).ready h), (hr.conn c).returned⟩
    | some touched =>
      obtain ⟨d, conn⟩ := touched
      rw [System.apply_conns_some _ _ _ hconn]
      by_cases hc : c = d
      · subst hc
        rw [update_self]
        have hready : conn.conn.ready = true → started c = true := by
          intro h
          rcases hr.touched_ready hconn (hturn.touched hconn) h with hbefore | hnow
          · exact hgrows c hbefore
          · rw [hstarted, hnow]
            dsimp only
            rw [update_self]
        rcases hturn.released hlegal hconn with hheld | ⟨conn', draining, rfl⟩
        · exact .of_held hheld hready
        · exact .release draining fun h =>
            hready ((Carried.release conn' draining).ready.trans h)
      · rw [update_of_ne hc]
        exact ⟨fun h => hgrows c ((hr.conn c).ready h), (hr.conn c).returned⟩
  · intro k e he hjob
    exact hgrows e.conn (hr.errand k e he hjob)

theorem conn_update {conn : PoolConn} (hconn : Vouched (r.started c) conn) (d : Nat) :
    Vouched (r.started d) (update r.sys.conns c conn d) := by
  by_cases hd : d = c
  · subst hd
    rw [update_self]
    exact hconn
  · rw [update_of_ne hd]
    exact hr.conn d

theorem start (hidle : job = .handleReplication ∨ source.idle r.sys = true)
    (h : r.start k job backend source todo startup = some r') : SpeaksStarted r' := by
  have haccounted := hr.accounted.start h
  unfold Runtime.start at h
  split at h
  · cases h
  obtain ⟨⟨c, _⟩, htake, rfl⟩ := map_eq_some_iff.1 h
  have htaken := System.taken_of_take htake
  -- a stream's own exchange may complete, and completes nothing else
  have hgrows : ∀ d, r.started d = true →
      (if startup.any Prod.snd then update r.started c true else r.started) d = true := by
    intro d hd
    split
    · exact started_update hd
    · exact hd
  refine ⟨haccounted, ?_, ?_, hr.said⟩
  · intro d
    dsimp only [System.setConn]
    by_cases hd : d = c
    · subst hd
      rw [update_self]
      refine .of_held htaken.place ?_
      intro hready
      exact hgrows d (hr.taken_ready htaken hready)
    · rw [update_of_ne hd]
      exact ⟨fun hready => hgrows d ((hr.conn d).ready hready), (hr.conn d).returned⟩
  · intro j e he hjob
    dsimp only at he ⊢
    by_cases hj : j = k
    · subst hj
      rw [update_self] at he
      cases he
      have hlent := hidle.resolve_left hjob
      apply hgrows
      cases htaken with
      | dial => cases hlent
      | pooled =>
        have hplace := eq_of_beq hlent
        exact (hr.conn c).ready ((hr.conn c).returned .idle hplace (by decide))
    · rw [update_of_ne hj] at he
      exact hgrows _ (hr.errand j e he hjob)

theorem speak (h : r.speak k t goesOn = some r') : SpeaksStarted r' := by
  have haccounted := hr.accounted.speak h
  unfold Runtime.speak at h
  split at h
  · rename_i job backend c message rest he
    obtain ⟨_, htrip, rfl⟩ := map_eq_some_iff.1 h
    have hstarted := hr.errand k _ he
    refine ⟨haccounted, ?_, ?_, ?_⟩
    · exact hr.conn_update ((hr.conn c).kept ((roundTrip_kept htrip).trans (markBrokenIf_kept _ _)))
    · intro j e hj hjob
      dsimp only at hj
      by_cases hjk : j = k
      · subst hjk
        rw [update_self] at hj
        cases hj
        exact hstarted hjob
      · rw [update_of_ne hjk] at hj
        exact hr.errand j e hj hjob
    · rw [forall_mem_cons]
      exact ⟨hstarted, hr.said⟩
  · cases h

theorem finish (h : r.finish k = some r') : SpeaksStarted r' := by
  have haccounted := hr.accounted.finish h
  unfold Runtime.finish at h
  split at h
  · rename_i job backend c he
    cases h
    refine ⟨haccounted, ?_, ?_, hr.said⟩
    · apply hr.conn_update
      apply Vouched.release
      rw [(markBrokenIf_kept _ _).ready]
      exact (hr.conn c).ready
    · intro j e hj
      dsimp only at hj
      by_cases hjk : j = k
      · subst hjk
        rw [update_self] at hj
        cases hj
      · rw [update_of_ne hjk] at hj
        exact hr.errand j e hj
  · cases h

theorem step (hidle : r.lendsIdle a = true) (h : r.step cfg a = some r') : SpeaksStarted r' := by
  have haccounted := hr.accounted.step h
  cases a with
  | gateway a =>
    cases a with
    | act i a =>
      obtain ⟨_, hch, rfl⟩ := map_eq_some_iff.1 h
      exact hr.act hch rfl
    | recycle c rollback discard =>
      obtain ⟨sys, hsystem, rfl⟩ := map_eq_some_iff.1 h
      cases moved_of_step hsystem with
      | reset hc hplace hrecycled =>
        exact ⟨haccounted, hr.conn_update ((hr.conn c).recycled hplace hrecycled), hr.errand,
          hr.said⟩
    | drain backend draining =>
      simp only [Runtime.step] at h
      obtain ⟨_, hsystem, rfl⟩ := map_eq_some_iff.1 h
      cases moved_of_step hsystem with
      | drained => exact ⟨haccounted, hr.conn, hr.errand, hr.said⟩
  | mirror k i backend source varOrder =>
    simp only [Runtime.step] at h
    split at h
    · exact hr.start (.inr hidle) h
    · cases h
  | refresh k i env source varOrder =>
    simp only [Runtime.step] at h
    split at h
    · split at h
      · exact hr.start (.inr hidle) h
      · cases h
    · cases h
  | check k backend source =>
    simp only [Runtime.step] at h
    exact hr.start (.inr hidle) h
  | replicate k backend source startup => exact hr.start (.inl rfl) h
  | speak k t goesOn => exact hr.speak h
  | finish k => exact hr.finish h

end SpeaksStarted

/-- **Pontus speaks on started connections**, where what it asks itself is asked
on connections the pools keep: what a probe, a refresh or a copy of a request
writes is written behind a completed startup exchange. -/
theorem said_on_started (cfg : Config) {actions : List RuntimeAction} {r : Runtime}
    (hidle : Along (Runtime.step cfg) (fun r a => r.lendsIdle a = true) .init actions)
    (hrun : run (Runtime.step cfg) .init actions = some r) :
    ∀ q ∈ r.said, q.job ≠ .handleReplication → q.started = true := by
  have hr : SpeaksStarted r := by
    apply run_invariant _ speaksStarted_init hidle hrun
    intro _ _ _ hu ha hstep
    exact hu.step ha hstep
  exact hr.said

/-- The pool of the errands is that of clients who name no user, so only behind
one of these, let in by a backend that asks for none, does a probe find a
connection that was started. -/
def probesReused : List RuntimeAction :=
  (opens 0 (startupPacket (putU32 196608) []) (ascii "db") .dial ++
    sends 0 (simpleQuery (ascii "SELECT 1")) ++
    serves 0 (.undisturbed (completed 'I'.toUInt8) 'I'.toUInt8)).map .gateway ++
  [.check 1 (ascii "db") (.pooled 0), .speak 1 (askedOnce (completed 'I'.toUInt8)) true]

theorem probe_on_started :
    ∃ r, run (Runtime.step (.initial id false)) .init probesReused = some r ∧
      r.said = [⟨.deepCheck, 0, deepCheckQuery, true⟩] ∧
      ∀ q ∈ r.said, q.job ≠ .handleReplication → q.started = true := by
  have hidle : Along (Runtime.step (.initial id false)) (fun r a => r.lendsIdle a = true) .init
      probesReused := by
    decide +kernel
  have hlast : (run (Runtime.step (.initial id false)) .init probesReused).any
      (fun r => r.said = [⟨.deepCheck, 0, deepCheckQuery, true⟩]) = true := by
    decide +kernel
  obtain ⟨r, hrun, hr⟩ := exists_run hlast
  exact ⟨r, hrun, of_decide_eq_true hr, said_on_started _ hidle hrun⟩

def unanswered : RoundTrip := ⟨none, [], [⟨[], some .failed⟩]⟩

def staleEntry : MiddlewareEnv := ⟨false, true, some ⟨[], true⟩, false⟩

def errandsOnDialled : List RuntimeAction :=
  [.check 1 (ascii "db") .dial, .speak 1 unanswered false, .finish 1] ++
  (opens 0 appStartup (ascii "db") .dial ++
    [Action.act 0 (.receive [⟨simpleQuery (ascii "SELECT 1"), none⟩])]).map .gateway ++
  [.refresh 2 0 staleEntry .dial [], .speak 2 unanswered false] ++
  ([Action.act 0 (.middleware staleEntry), Action.act 0 .conclude] ++
    sends 0 (simpleQuery (ascii "SELECT 1")) ++
    acquires 0 (ascii "db") (.pooled 1)).map .gateway ++
  [.mirror 3 0 (ascii "shadow") .dial [], .speak 3 unanswered false]

theorem errands_on_raw_sockets :
    ∃ r, run (Runtime.step (.initial id false)) .init errandsOnDialled = some r ∧
      r.said = [⟨.mirrorRequest, 3, simpleQuery (ascii "SELECT 1"), false⟩,
        ⟨.backgroundRefresh, 2, simpleQuery (ascii "SELECT 1"), false⟩,
        ⟨.deepCheck, 0, deepCheckQuery, false⟩] ∧
      ∀ q ∈ r.said, (r.sys.conns q.conn).wire.startups = [] := by
  have hlast : (run (Runtime.step (.initial id false)) .init errandsOnDialled).any
      (fun r => r.said = [⟨.mirrorRequest, 3, simpleQuery (ascii "SELECT 1"), false⟩,
        ⟨.backgroundRefresh, 2, simpleQuery (ascii "SELECT 1"), false⟩,
        ⟨.deepCheck, 0, deepCheckQuery, false⟩] ∧
        ∀ q ∈ r.said, (r.sys.conns q.conn).wire.startups = []) = true := by
    decide +kernel
  obtain ⟨r, hrun, hr⟩ := exists_run hlast
  exact ⟨r, hrun, of_decide_eq_true hr⟩

end Pontus.Proxy
