import Pontus.Proxy.Proofs.Ownership

/-!
# Invariants of the gateway

What a session leaves alone stays as it was.  So an invariant which speaks of
connections, of sessions with the connection they hold, and of single entries
of the log, holds along every run as soon as each move keeps the moving
session's part of it.
-/

namespace Pontus.Proxy

open Lib Protocol Pool

variable {cfg : Config} {s' : System} {p : Proc} {call : Option (Nat × InflightCall)}
variable {events : List Event} {conn : PoolConn}

def Source.fromIdle (s : System) : Source → Bool
  | .dial => true
  | .pooled c => (s.conns c).place == .returned .idle

/-- Wherever a session takes a connection, the engine keeps to that. -/
def Act.fromIdle (s : System) : Act → Bool
  | .handshake env => env.picked.all fun p => p.2.fromIdle s
  | .acquire env => env.picked.all fun p => p.2.fromIdle s
  | .acquireHome source _ => source.all fun p => p.fromIdle s
  | _ => true

theorem picked_fromIdle {picked : Option (Bytes × Source)} {source : Source}
    (h : (picked.all fun p => p.2.fromIdle s) = true) (hpicked : picked = some (backend, source)) :
    source.fromIdle s = true := by
  rw [hpicked] at h
  exact h

theorem fate_eq (c : Conn) :
    c.fate = .destroyed ∨
      c.broken = false ∧ c.ready = true ∧ c.fate = if c.dirty then .cleanup else .idle := by
  unfold Conn.fate
  cases c.broken with
  | true => exact .inl rfl
  | false =>
    cases c.ready with
    | false => exact .inl rfl
    | true => exact .inr ⟨rfl, rfl, rfl⟩

theorem release_returned {c : PoolConn} (h : (c.release draining).place = .returned fate)
    (hfate : fate ≠ .destroyed) :
    c.conn.broken = false ∧ c.conn.ready = true ∧
      fate = if c.conn.dirty then .cleanup else .idle := by
  have hplace : (if draining then c.conn.markBroken else c.conn).fate = fate :=
    (Place.returned.injEq _ _).mp h
  cases draining with
  | true => exact absurd hplace.symm hfate
  | false =>
    rcases fate_eq c.conn with hdestroyed | ⟨hbroken, hready, hkept⟩
    · exact absurd (hplace.symm.trans hdestroyed) hfate
    · exact ⟨hbroken, hready, hplace.symm.trans hkept⟩

theorem release_idle {c : PoolConn} (h : (c.release draining).place = .returned .idle) :
    c.conn.broken = false ∧ c.conn.ready = true ∧ c.conn.dirty = false := by
  obtain ⟨hbroken, hready, hfate⟩ := release_returned h (by decide)
  refine ⟨hbroken, hready, ?_⟩
  cases hdirty : c.conn.dirty with
  | false => rfl
  | true =>
    rw [hdirty] at hfate
    cases hfate

inductive Recycled (c : PoolConn) (rollback discard : RoundTrip) : PoolConn → Prop
  | rollbackFailed {c₁ : PoolConn} (hrollback : c.roundTrip rollback = some c₁) :
      Recycled c rollback discard { c₁ with place := .returned .destroyed }
  | discardFailed {c₁ c₂ : PoolConn} {wire : Wire} (hrollback : c.roundTrip rollback = some c₁)
      (hdiscard : c₁.roundTrip discard = some c₂)
      (hwire : wire = c₂.wire ∨ wire = { c₂.wire with residue := [] }) :
      Recycled c rollback discard { c₂ with wire := wire, place := .returned .destroyed }
  | reset {c₁ c₂ : PoolConn} {wire : Wire} (hrollback : c.roundTrip rollback = some c₁)
      (hrolled : execute rollback = some true) (hdiscard : c₁.roundTrip discard = some c₂)
      (hdiscarded : execute discard = some true)
      (hwire : wire = c₂.wire ∧ discard.reply.any (·.tag == 'E'.toUInt8) = true ∨
        wire = { c₂.wire with residue := [] }) :
      Recycled c rollback discard
        { c₂ with
          wire := wire, conn := c₂.conn.forgetStatements.markClean, place := .returned .idle }

theorem recycled_of_recycle {c c' : PoolConn} {rollback discard : RoundTrip}
    (h : c.recycle rollback discard = some c') : Recycled c rollback discard c' := by
  simp only [PoolConn.recycle, Option.bind_eq_bind, bind_eq_some_iff, pure] at h
  obtain ⟨_, hrollback, rolled, hrolled, h⟩ := h
  cases rolled with
  | false =>
    cases h
    exact .rollbackFailed hrollback
  | true =>
    simp only [Bool.not_true, false_eq_true, if_false, bind_eq_some_iff] at h
    obtain ⟨_, hdiscard, discarded, hdiscarded, h⟩ := h
    cases discarded with
    | false =>
      cases h
      split
      · exact .discardFailed hrollback hdiscard (.inl rfl)
      · have hfail := Recycled.discardFailed hrollback hdiscard (.inr rfl)
        exact hfail
    | true =>
      cases h
      split
      · rename_i herror
        exact .reset hrollback hrolled hdiscard hdiscarded (.inl ⟨rfl, herror⟩)
      · have hreset := Recycled.reset hrollback hrolled hdiscard hdiscarded (.inr rfl)
        exact hreset

inductive Moved (cfg : Config) (s : System) : Action → System → Prop
  | session {i : Nat} {a : Act} {ch : Change} (houtcome : Outcome cfg s i a ch) :
      Moved cfg s (.act i a) (s.apply i ch)
  | reset {c : Nat} {rollback discard : RoundTrip} {conn : PoolConn} (hc : c < s.nextConn)
      (hplace : (s.conns c).place = .returned .cleanup)
      (hrecycled : Recycled (s.conns c) rollback discard conn) :
      Moved cfg s (.recycle c rollback discard) (s.setConn c conn)
  | drained {backend : Bytes} {draining : Bool} :
      Moved cfg s (.drain backend draining)
        { s with draining := Function.update s.draining backend draining }

theorem moved_of_step (h : step cfg s a = some s') : Moved cfg s a s' := by
  cases a with
  | act i a =>
    obtain ⟨_, hch, rfl⟩ := map_eq_some_iff.1 h
    exact .session (outcome_of_change hch)
  | recycle c rollback discard =>
    simp only [step] at h
    split at h
    · rename_i hcondition
      obtain ⟨_, hconn, rfl⟩ := map_eq_some_iff.1 h
      exact .reset hcondition.1 hcondition.2 (recycled_of_recycle hconn)
    · cases h
  | drain backend draining =>
    cases h
    exact .drained

def Phase.live : Phase → Bool
  | .returning _ failed => !failed
  | .concluding failed => !failed
  | .closed => false
  | _ => true

def Phase.acquired : Phase → Bool
  | .serving _ acquired => acquired
  | _ => false

/-- What is asked of each connection, of each session, of a session with the
connection it holds, and of each entry of the log. -/
structure LocalInv where
  conn : PoolConn → Prop
  proc : Proc → Prop
  held : Nat → Proc → PoolConn → Prop
  event : Event → Prop

namespace LocalInv

structure Holds (I : LocalInv) (s : System) : Prop where
  owned : Owned s
  conn : ∀ c, I.conn (s.conns c)
  proc : ∀ i, I.proc (s.procs i)
  held : ∀ i c, (s.procs i).session.server = some c → I.held i (s.procs i) (s.conns c)
  log : ∀ e ∈ s.log, I.event e

structure Keeps (I : LocalInv) (s : System) (i : Nat) (ch : Change) : Prop where
  conn : ∀ c conn, ch.conn = some (c, conn) → I.conn conn
  proc : I.proc ch.proc
  held : ∀ c conn, ch.proc.session.server = some c →
    (ch.conn = some (c, conn) ∨ ch.conn = none ∧ conn = s.conns c) → I.held i ch.proc conn
  events : ∀ e ∈ ch.events, I.event e

variable {I : LocalInv} {s : System} {i : Nat} {ch : Change}

theorem Holds.conn_apply (h : I.Holds s) (hk : I.Keeps s i ch) (c : Nat) :
    I.conn ((s.apply i ch).conns c) := by
  cases hconn : ch.conn with
  | none =>
    rw [System.apply_conns_none s i ch hconn]
    exact h.conn c
  | some touched =>
    obtain ⟨d, conn⟩ := touched
    rw [System.apply_conns_some s i ch hconn]
    by_cases hc : c = d
    · rw [hc, update_self]
      exact hk.conn d conn hconn
    · rw [update_of_ne hc]
      exact h.conn c

theorem Holds.proc_apply (h : I.Holds s) (hk : I.Keeps s i ch) (j : Nat) :
    I.proc ((s.apply i ch).procs j) := by
  rw [System.apply_procs]
  by_cases hj : j = i
  · rw [hj, update_self]
    exact hk.proc
  · rw [update_of_ne hj]
    exact h.proc j

theorem Holds.held_apply (h : I.Holds s) (hl : ch.Legal s i) (hk : I.Keeps s i ch)
    (hserver : ((s.apply i ch).procs j).session.server = some c) :
    I.held j ((s.apply i ch).procs j) ((s.apply i ch).conns c) := by
  rw [System.apply_procs] at hserver ⊢
  by_cases hj : j = i
  · subst hj
    rw [update_self] at hserver ⊢
    rcases hl.server c hserver with ⟨conn, hconn, -⟩ | ⟨hconn, -⟩
    · rw [System.apply_conns_some s j ch hconn, update_self]
      exact hk.held c conn hserver (.inl hconn)
    · rw [System.apply_conns_none s j ch hconn]
      exact hk.held c _ hserver (.inr ⟨hconn, rfl⟩)
  · rw [update_of_ne hj] at hserver ⊢
    cases hconn : ch.conn with
    | none =>
      rw [System.apply_conns_none s i ch hconn]
      exact h.held j c hserver
    | some touched =>
      obtain ⟨d, conn⟩ := touched
      rw [System.apply_conns_some s i ch hconn]
      have hne : c ≠ d := by
        intro hcd
        have hheld := h.owned.holds j c hserver
        rw [hcd] at hheld
        exact hj ((hl.touched d conn hconn).2 j hheld)
      rw [update_of_ne hne]
      exact h.held j c hserver

/-- **The step rule.**  The moving session's part is enough. -/
theorem Holds.apply (h : I.Holds s) (hl : ch.Legal s i) (hk : I.Keeps s i ch) :
    I.Holds (s.apply i ch) where
  owned := h.owned.apply hl
  conn := h.conn_apply hk
  proc := h.proc_apply hk
  held := by
    intro _ _ hserver
    exact h.held_apply hl hk hserver
  log := by
    intro e he
    rw [System.apply_log, mem_append] at he
    rcases he with he | he
    · exact hk.events e he
    · exact h.log e he

theorem keeps_of_proc (hproc : I.proc p)
    (hheld : ∀ c, p.session.server = some c → I.held i p (s.conns c))
    (hevents : ∀ e ∈ events, I.event e) :
    I.Keeps s i { proc := p, call := call, inFlight := inFlight, events := events } where
  conn := by
    nofun
  proc := hproc
  held := by
    intro c _ hserver h
    rcases h with h | ⟨-, rfl⟩
    · cases h
    · exact hheld c hserver
  events := hevents

theorem keeps_of_kept (hconn : I.conn conn) (hproc : I.proc p) (hheld : I.held i p conn)
    (hevents : ∀ e ∈ events, I.event e) :
    I.Keeps s i { proc := p, conn := some (c, conn), call := call, events := events } where
  conn := by
    intro d conn' h
    cases h
    exact hconn
  proc := hproc
  held := by
    intro _ _ _ h
    rcases h with h | ⟨h, -⟩
    · cases h
      exact hheld
    · cases h
  events := hevents

theorem keeps_of_released (hconn : I.conn conn) (hproc : I.proc p)
    (hserver : p.session.server = none) (hevents : ∀ e ∈ events, I.event e) :
    I.Keeps s i { proc := p, conn := some (c, conn), call := call, events := events } where
  conn := by
    intro d conn' h
    cases h
    exact hconn
  proc := hproc
  held := by
    intro _ _ hd
    rw [hserver] at hd
    cases hd
  events := hevents

theorem keeps_of_settle (hproc : ∀ server failed, I.proc
      ⟨{ a.session with server := server }, .returning led failed,
        batchOpenAfter p.batchOpen p.session.data⟩)
    (hreleases : cfg.pooling.shouldReleaseAt a.response.state (isPinned a.session.state) = true →
      ∀ conn draining, conn = (if cfg.credentials then a.conn.markDirty else a.conn) →
        I.conn (conn.release draining) ∧ I.event (.released i c conn))
    (hkept : I.conn a.conn ∧ ∀ failed, (failed = true → a.response.err ≠ none) → I.held i
      ⟨a.session, .returning led failed, batchOpenAfter p.batchOpen p.session.data⟩ a.conn)
    (hevents : ∀ e ∈ events, I.event e) : I.Keeps s i (settle cfg s i p led c a events) := by
  unfold settle
  split
  · rename_i hreleased
    obtain ⟨hconn, hevent⟩ := hreleases hreleased _ (s.isDraining a.session.backend) rfl
    apply keeps_of_released hconn (hproc _ _) rfl
    intro e he
    rcases mem_cons.1 he with rfl | he
    · exact hevent
    · exact hevents e he
  · refine keeps_of_kept hkept.1 (hproc _ _) (hkept.2 _ ?_) hevents
    intro hfail herr
    rw [herr] at hfail
    cases hfail

theorem Holds.setConn (h : I.Holds s) (hfree : s.Free c) (hconn : I.conn conn) :
    I.Holds (s.setConn c conn) := by
  refine ⟨h.owned.setConn conn hfree, ?_, h.proc, ?_, h.log⟩
  · intro d
    change I.conn (Function.update s.conns c conn d)
    by_cases hd : d = c
    · rw [hd, update_self]
      exact hconn
    · rw [update_of_ne hd]
      exact h.conn d
  · intro j d hserver
    change I.held j (s.procs j) (Function.update s.conns c conn d)
    rw [update_of_ne (h.owned.ne_of_free hfree hserver)]
    exact h.held j d hserver

theorem Holds.of_step (h : I.Holds s)
    (haction : ∀ i b ch, a = .act i b → Outcome cfg s i b ch → I.Keeps s i ch)
    (hrecycle : ∀ c rollback discard conn, a = .recycle c rollback discard →
      (s.conns c).place = .returned .cleanup → Recycled (s.conns c) rollback discard conn →
      I.conn conn) (hstep : Pontus.Proxy.step cfg s a = some s') : I.Holds s' := by
  cases moved_of_step hstep with
  | session hout =>
    exact h.apply (legal_of_outcome h.owned hout) (haction _ _ _ rfl hout)
  | reset hc hplace hrecycled =>
    exact h.setConn (System.free_of_returned hc (by rw [hplace]; rfl))
      (hrecycle _ _ _ _ rfl hplace hrecycled)
  | drained =>
    exact ⟨⟨h.owned.holds, h.owned.without, h.owned.fresh⟩, h.conn, h.proc, h.held, h.log⟩

/-- **The run rule.**  The sessions' part, and the connections the engine
resets. -/
theorem Holds.run (haction : ∀ s i a ch, I.Holds s → allowed s (.act i a) → Outcome cfg s i a ch →
      I.Keeps s i ch) (hrecycle : ∀ s c rollback discard conn, I.Holds s →
      allowed s (.recycle c rollback discard) → (s.conns c).place = .returned .cleanup →
      Recycled (s.conns c) rollback discard conn → I.conn conn) (h : I.Holds s)
    (hallowed : Along (step cfg) allowed s actions)
    (hrun : Pontus.Lib.run (step cfg) s actions = some s') : I.Holds s' := by
  apply run_invariant _ h hallowed hrun
  intro s _ _ hs ha hstep
  refine hs.of_step ?_ ?_ hstep
  · rintro i b ch rfl hout
    exact haction s i b ch hs ha hout
  · rintro c rollback discard conn rfl hplace hrecycled
    exact hrecycle s c rollback discard conn hs ha hplace hrecycled

end LocalInv

theorem Owned.step (h : Owned s) (hstep : Pontus.Proxy.step cfg s a = some s') : Owned s' := by
  cases moved_of_step hstep with
  | session hout => exact h.apply (legal_of_outcome h hout)
  | reset hc hplace => exact h.setConn _ (System.free_of_returned hc (by rw [hplace]; rfl))
  | drained => exact ⟨h.holds, h.without, h.fresh⟩

/-- **A connection has one user.**  What a session holds is out to it and to
nobody else, so none goes on with what it has given back. -/
theorem connection_has_one_user (cfg : Config)
    (hrun : run (step cfg) .init actions = some s) (i c : Nat)
    (hc : (s.procs i).session.server = some c) :
    (s.conns c).place = .held i ∧ ∀ j, (s.procs j).session.server = some c → j = i := by
  have howned : Owned s :=
    run_invariant (fun _ _ _ h _ => h.step) owned_init (along_of_forall fun _ _ => trivial) hrun
  have hplace := howned.holds i c hc
  refine ⟨hplace, fun j hj => ?_⟩
  rw [howned.holds j c hj, Place.held.injEq] at hplace
  exact hplace

/-- Two sessions have each given a connection back and take the other's. -/
def takesEachOthers : List Action :=
  asksOnce 0 ++ asksOnce 1 ++
    sends 0 (simpleQuery (ascii "SELECT 2")) ++ acquires 0 (ascii "db") (.pooled 1) ++
    sends 1 (simpleQuery (ascii "SELECT 3")) ++ acquires 1 (ascii "db") (.pooled 0)

theorem swapped_connections_have_one_user :
    ∃ s, run (step (Config.initial id false)) .init takesEachOthers = some s ∧
      ((s.procs 0).session.server = some 1 ∧ (s.procs 1).session.server = some 0) ∧
      ((s.conns 1).place = .held 0 ∧ (s.conns 0).place = .held 1) ∧
      ∀ j, (s.procs j).session.server = some 0 → j = 1 := by
  obtain ⟨s, hrun, hs⟩ := exists_run (show (run (step (Config.initial id false)) .init
    takesEachOthers).any (fun s => (s.procs 0).session.server = some 1 ∧
      (s.procs 1).session.server = some 0) = true by decide +kernel)
  have hservers := of_decide_eq_true hs
  have hfirst := connection_has_one_user _ hrun 0 1 hservers.1
  have hsecond := connection_has_one_user _ hrun 1 0 hservers.2
  exact ⟨s, hrun, hservers, ⟨hfirst.1, hsecond.1⟩, hsecond.2⟩

end Pontus.Proxy
