import Pontus.Proxy.Proofs.Turns
import Pontus.Proxy.Runtime

/-!
# Every checkout is returned once

A session takes a connection, gives one back, or takes one and gives it back in
the same move; it never takes one while it has one, and it gives back the one
it has to the backend it has it from.  So do the errands, each of which takes
one connection and returns it.  The calls of all of them are a ledger, and what
is checked out on a backend is what sessions and errands have of it.
-/

namespace Pontus.Proxy

open Lib Protocol Pool
open Function (update update_eq_self)

variable {r r' : Runtime}

variable {p : Proc} {c : Nat} {backend : Bytes} {source : Source}

def Proc.holding (p : Proc) : Option (Nat × Bytes) :=
  match p.session.server, p.session.backend with
  | some c, some backend => some (c, backend)
  | _, _ => none

def Errand.holding (e : Errand) : Option (Nat × Bytes) :=
  if e.job = .deepCheck then none else some (e.conn, e.backend)

def Runtime.holding (r : Runtime) (k : Nat) : Option (Nat × Bytes) :=
  match r.errands k with
  | some e => e.holding
  | none => (r.sys.procs k).holding

theorem Runtime.holding_update (hself : r'.holding k = has)
    (hother : ∀ j, j ≠ k → r'.errands j = r.errands j ∧ r'.sys.procs j = r.sys.procs j) :
    r'.holding = update r.holding k has := by
  funext j
  by_cases hj : j = k
  · subst hj
    rw [update_self, hself]
  · obtain ⟨herrand, hproc⟩ := hother j hj
    rw [update_of_ne hj]
    unfold Runtime.holding
    rw [herrand, hproc]

theorem Runtime.holding_session (h : r.errands k = none) :
    r.holding k = (r.sys.procs k).holding := by
  unfold Runtime.holding
  rw [h]

theorem Runtime.holding_errand {e : Errand} (h : r.errands k = some e) :
    r.holding k = e.holding := by
  unfold Runtime.holding
  rw [h]

theorem Proc.holding_of_server_none (h : p.session.server = none) : p.holding = none := by
  unfold holding
  rw [h]

theorem Proc.holding_eq (hserver : p.session.server = some c)
    (hback : p.session.backend = some backend) : p.holding = some (c, backend) := by
  unfold holding
  rw [hserver, hback]

theorem Proc.server_of_holding (h : p.holding = some (c, backend)) : p.session.server = some c := by
  unfold holding at h
  split at h
  · rename_i hserver hback
    cases h
    exact hserver
  · cases h

/-! ## The calls of a move -/

inductive Booked (s : System) (i : Nat) (before after : Option (Nat × Bytes)) : List Call → Prop
  | still (hsame : after = before) : Booked s i before after []
  | took {c : Nat} {backend : Bytes} (hfree : s.Free c) (hbefore : before = none)
      (hafter : after = some (c, backend)) : Booked s i before after [.taken i backend c]
  | gave {c : Nat} {backend : Bytes} (hbefore : before = some (c, backend))
      (hafter : after = none) : Booked s i before after [.returned i backend c]
  | tookAndGave {c : Nat} {backend : Bytes} (hfree : s.Free c) (hbefore : before = none)
      (hafter : after = none) :
      Booked s i before after [.returned i backend c, .taken i backend c]

section
variable {cfg : Config} {s : System} {i : Nat} {a : Act} {ch : Change}

theorem callsOf_taking {conn : PoolConn} (htakes : a.takes (s.procs i) = some (backend, source))
    (htaken : s.Taken i ⟨backend, (s.procs i).session.identity⟩ source c conn) :
    callsOf s i a ch = (ch.events.filterMap Event.releasedConn).map (Entry.returned i backend ·) ++
      [.taken i backend c] := by
  unfold callsOf takenBy
  simp [htakes, htaken.take]

theorem callsOf_holding (htakes : a.takes (s.procs i) = none) :
    callsOf s i a ch = (ch.events.filterMap Event.releasedConn).filterMap
      fun c => (s.procs i).session.backend.map (Entry.returned i · c) := by
  unfold callsOf takenBy
  simp [htakes]

theorem releasedConn_of_conn {e : Event} (h : e.conn = none) : e.releasedConn = none := by
  cases e <;> first | rfl | cases h

theorem releases_nil {events : List Event} (h : ∀ e ∈ events, e.releasedConn = none) :
    events.filterMap Event.releasedConn = [] := List.filterMap_eq_nil_iff.2 h

def Proc.backed (p : Proc) : Prop := p.session.server ≠ none → p.session.backend ≠ none

theorem settle_releases {led : Option Led} {a : Answered}
    (hreply : reply = if a.response.err.isNone then
      [Event.replied i (led.map Led.call) taken] else []) :
    (settle cfg s i p led c a (reply ++ [.wrote i c data,
      .replayed i c messages txState batchOpen])).events.filterMap Event.releasedConn =
        if cfg.pooling.shouldReleaseAt a.response.state (isPinned a.session.state) then [c]
        else [] := by
  have hnone : (reply ++ [Event.wrote i c data,
      Event.replayed i c messages txState batchOpen]).filterMap Event.releasedConn = [] := by
    apply releases_nil
    exact forall_served hreply rfl rfl rfl
  unfold settle
  split
  · rw [List.filterMap_cons, hnone]
    rfl
  · exact hnone

theorem Proc.Continues.holding {p' : Proc} (h : p.Continues p') : p'.holding = p.holding := by
  unfold Proc.holding
  rw [h.server, h.backend]

theorem booked_still (htakes : a.takes (s.procs i) = none)
    (hevents : ∀ e ∈ ch.events, e.releasedConn = none)
    (hsame : ch.proc.holding = (s.procs i).holding) :
    Booked s i (s.procs i).holding ch.proc.holding (callsOf s i a ch) := by
  rw [callsOf_holding htakes, releases_nil hevents]
  exact .still hsame

theorem booked_gave (htakes : a.takes (s.procs i) = none) (hbacked : (s.procs i).backed)
    (hserver : (s.procs i).session.server = some c)
    (hreleases : ch.events.filterMap Event.releasedConn = [c])
    (hgone : ch.proc.session.server = none) :
    Booked s i (s.procs i).holding ch.proc.holding (callsOf s i a ch) := by
  have hsome : (s.procs i).session.backend ≠ none := by
    apply hbacked
    rw [hserver]
    simp
  obtain ⟨_, hback⟩ := Option.ne_none_iff_exists'.1 hsome
  rw [callsOf_holding htakes, hreleases, hback]
  exact .gave (Proc.holding_eq hserver hback) (Proc.holding_of_server_none hgone)

/-- **Every move keeps the books.** -/
theorem Turn.booked (hs : Owned s) (hbacked : (s.procs i).backed) (h : Turn cfg s i a ch) :
    Booked s i (s.procs i).holding ch.proc.holding (callsOf s i a ch) := by
  have hwithout : (s.procs i).phase.unserved = true → (s.procs i).holding = none :=
    fun hunserved => Proc.holding_of_server_none (hs.without i hunserved)
  cases h with
  | named => exact booked_still rfl (forall_mem_nil _) rfl
  | quiet hcontinues _ hevents htakes =>
    exact booked_still htakes (fun e he => releasedConn_of_conn (hevents e he).2) hcontinues.holding
  | bypassed hcontinues haction _ hevents =>
    refine booked_still ?_ (fun e he => releasedConn_of_conn (hevents e he).2) hcontinues.holding
    rcases haction with ⟨env, _, rfl, -⟩ | ⟨_, rfl⟩ <;> rfl
  | closed hserver htakes =>
    have hnone : (s.procs i).session.server = none := by
      rcases hserver with hnone | hback
      · exact hnone
      · by_contra hsome
        exact hbacked hsome hback
    refine booked_still htakes (forall_mem_nil _) ?_
    rw [Proc.holding_of_server_none hnone]
    exact Proc.holding_of_server_none rfl
  | @opened env _ _ _ backend source _ _ hphase hpicked htaken =>
    have hbefore := hwithout (by rw [hphase]; rfl)
    have hfree := htaken.isFree hs
    have htakes : (Act.handshake env).takes (s.procs i) = some (backend, source) := hpicked
    rw [callsOf_taking htakes htaken]
    unfold sessionOpened
    dsimp only
    split
    · exact .tookAndGave hfree hbefore (Proc.holding_of_server_none rfl)
    · exact .took hfree hbefore (Proc.holding_eq rfl rfl)
  | @givenBack _ p _ _ _ _ _ _ hunserved _ hproc htaken hevents htakes =>
    have hafter : p.holding = none := by
      rcases hproc with rfl | ⟨_, rfl, -⟩
      · exact Proc.holding_of_server_none rfl
      · exact hwithout hunserved
    rw [callsOf_taking htakes htaken]
    rcases hevents with rfl | ⟨_, rfl, -⟩
    · exact .tookAndGave (htaken.isFree hs) (hwithout hunserved) hafter
    · exact .tookAndGave (htaken.isFree hs) (hwithout hunserved) hafter
  | installed hunserved _ _ htaken _ _ htakes =>
    rw [callsOf_taking htakes htaken]
    exact .took (htaken.isFree hs) (hwithout hunserved) (Proc.holding_eq rfl rfl)
  | replayFailed => exact booked_still rfl (List.forall_mem_singleton.2 rfl) rfl
  | leaves hserver hgone _ _ _ _ hevents htakes =>
    refine booked_gave htakes hbacked hserver ?_ hgone
    rw [List.filterMap_cons, releases_nil]
    · rfl
    · intro e he
      obtain ⟨-, _, _, _, rfl⟩ := hevents e he
      rfl
  | concludedReleased _ hserver => exact booked_gave rfl hbacked hserver rfl rfl
  | @answered env _ _ _ _ _ a' _ _ hserver _ _ hforwarded hrecorded hreply =>
    have htakes : (Act.serve env).takes (s.procs i) = none := rfl
    cases hreleased : cfg.pooling.shouldReleaseAt a'.response.state (isPinned a'.session.state) with
    | true =>
      refine booked_gave htakes hbacked hserver
        ((settle_releases hreply).trans (if_pos hreleased)) ?_
      unfold settle
      rw [if_pos hreleased]
    | false =>
      rw [callsOf_holding htakes, settle_releases hreply, hreleased]
      refine .still ?_
      unfold settle
      rw [if_neg (by rw [hreleased]; simp)]
      unfold Proc.holding
      rw [hrecorded.server, hrecorded.backend, hforwarded.session]

theorem Turn.backed (hbacked : (s.procs i).backed) (h : Turn cfg s i a ch) : ch.proc.backed := by
  cases h with
  | named | replayFailed => exact hbacked
  | quiet hcontinues | bypassed hcontinues =>
    unfold Proc.backed
    rw [hcontinues.server, hcontinues.backend]
    exact hbacked
  | closed | concludedReleased => exact fun h => absurd rfl h
  | opened =>
    unfold sessionOpened
    dsimp only
    split
    · exact fun h => absurd rfl h
    · exact fun _ => some_ne_none _
  | givenBack _ _ hproc =>
    rcases hproc with rfl | ⟨_, rfl, -⟩
    · exact fun h => absurd rfl h
    · exact hbacked
  | installed => exact fun _ => some_ne_none _
  | leaves _ hgone => exact fun h => absurd hgone h
  | answered _ _ _ _ hforwarded hrecorded =>
    unfold settle
    split
    · exact fun h => absurd rfl h
    · unfold Proc.backed
      rw [hrecorded.server, hrecorded.backend, hforwarded.session]
      exact hbacked

theorem Booked.books (h : Booked s i before after calls) (hbooks : Books entries has)
    (hhas : has i = before)
    (hplace : ∀ k c backend, has k = some (c, backend) → (s.conns c).place = .held k) :
    Books (calls ++ entries) (update has i after) := by
  have hnobody : ∀ c, s.Free c → ∀ k backend, has k ≠ some (c, backend) := by
    intro c hfree k backend hsome
    exact hfree.2 k (hplace k c backend hsome)
  cases h with
  | still hsame =>
    rw [hsame, ← hhas, update_eq_self]
    exact hbooks
  | took hfree hbefore hafter =>
    rw [hafter]
    exact hbooks.take (hhas.trans hbefore) (hnobody _ hfree)
  | gave hbefore hafter =>
    rw [hafter]
    exact hbooks.give (hhas.trans hbefore)
  | @tookAndGave _ backend hfree hbefore hafter =>
    have htaken := hbooks.take (b := backend) (hhas.trans hbefore) (hnobody _ hfree)
    have hgiven := htaken.give (update_self i _ has)
    rw [Function.update_idem] at hgiven
    rw [hafter]
    exact hgiven

theorem Change.Legal.conns_held (h : ch.Legal s i) (hk : k ≠ i)
    (hplace : (s.conns c).place = .held k) : (s.apply i ch).conns c = s.conns c := by
  cases hconn : ch.conn with
  | none => rw [System.apply_conns_none _ _ _ hconn]
  | some touched =>
    obtain ⟨_, conn⟩ := touched
    rw [System.apply_conns_some _ _ _ hconn, update_of_ne]
    rintro rfl
    exact hk ((h.touched c conn hconn).2 k hplace)

end

/-! ## Everything that runs -/

structure Accounted (r : Runtime) : Prop where
  owned : Owned r.sys
  backed : ∀ i, (r.sys.procs i).backed
  errand : ∀ k e, r.errands k = some e →
    (r.sys.conns e.conn).place = .held k ∧ (r.sys.procs k).phase = .closed
  books : Books r.calls r.holding

theorem accounted_init : Accounted .init where
  owned := owned_init
  backed := fun _ h => absurd rfl h
  errand := nofun
  books := Books.nil

namespace Accounted

variable {cfg : Config} {r : Runtime}

variable (hr : Accounted r)
include hr

theorem place (h : r.holding k = some (c, backend)) : (r.sys.conns c).place = .held k := by
  unfold Runtime.holding at h
  split at h
  · rename_i e he
    unfold Errand.holding at h
    split at h
    · cases h
    · cases h
      exact (hr.errand k e he).1
  · exact hr.owned.holds k c (Proc.server_of_holding h)

theorem ne_of_errand (he : r.errands k = some e)
    (hserver : (r.sys.procs j).session.server = some d) :
    d ≠ e.conn := by
  rintro rfl
  obtain ⟨hplace, hclosed⟩ := hr.errand k e he
  have hj : j = k := Place.held.inj ((hr.owned.holds j _ hserver).symm.trans hplace)
  rw [hj] at hserver
  exact nomatch (hr.owned.without k (by rw [hclosed]; rfl)).symm.trans hserver

theorem lt_of_errand (he : r.errands k = some e) : e.conn < r.sys.nextConn := by
  by_contra hle
  exact hr.owned.fresh e.conn k (Nat.not_lt.1 hle) (hr.errand k e he).1

theorem act {i : Nat} {a : Act} {ch : Change} {started : Nat → Bool}
    (hch : change cfg r.sys i a = some ch) :
    Accounted { r with
      sys := r.sys.apply i ch, calls := callsOf r.sys i a ch ++ r.calls, started := started } := by
  have hout := outcome_of_change hch
  have hlegal := legal_of_outcome hr.owned hout
  have hturn := turn_of_outcome hr.owned hout
  have hnone : r.errands i = none := by
    rw [Option.eq_none_iff_forall_ne_some]
    intro e he
    rw [change_closed (hr.errand i e he).2] at hch
    cases hch
  refine ⟨hr.owned.apply hlegal, ?_, ?_, ?_⟩
  · intro j
    rw [System.apply_procs]
    by_cases hj : j = i
    · subst hj
      rw [update_self]
      exact hturn.backed (hr.backed j)
    · rw [update_of_ne hj]
      exact hr.backed j
  · intro k e he
    have hk : k ≠ i := by
      rintro rfl
      exact nomatch hnone.symm.trans he
    obtain ⟨hplace, hclosed⟩ := hr.errand k e he
    rw [hlegal.conns_held hk hplace, System.apply_procs, update_of_ne hk]
    exact ⟨hplace, hclosed⟩
  · rw [Runtime.holding_update (r := r) (k := i)]
    · exact (hturn.booked hr.owned (hr.backed i)).books hr.books
        (Runtime.holding_session hnone) (fun k c backend => hr.place)
    · unfold Runtime.holding
      rw [hnone, System.apply_procs, update_self]
    · intro _ hj
      rw [System.apply_procs, update_of_ne hj]
      exact ⟨rfl, rfl⟩

theorem setConn (conn : PoolConn) (hfree : r.sys.Free c) :
    Accounted { r with sys := r.sys.setConn c conn } := by
  refine ⟨hr.owned.setConn conn hfree, hr.backed, ?_, hr.books⟩
  intro k e he
  obtain ⟨hplace, hclosed⟩ := hr.errand k e he
  refine ⟨?_, hclosed⟩
  dsimp only [System.setConn]
  rw [update_of_ne]
  · exact hplace
  · rintro rfl
    exact hfree.2 k hplace

theorem start {k : Nat} {job : Job} {todo : List Bytes} {startup : Option (Bytes × Bool)}
    (h : r.start k job backend source todo startup = some r') : Accounted r' := by
  unfold Runtime.start at h
  split at h
  · cases h
  rename_i hfresh
  rw [not_not] at hfresh
  obtain ⟨⟨_, _⟩, htake, rfl⟩ := map_eq_some_iff.1 h
  have htaken := System.taken_of_take htake
  have hfree := htaken.isFree hr.owned
  have hserver := hr.owned.without k (by rw [hfresh]; rfl)
  have hnone : r.errands k = none := by
    rw [Option.eq_none_iff_forall_ne_some]
    intro e he
    exact nomatch hfresh.symm.trans (hr.errand k e he).2
  have hhas : r.holding k = none := by
    unfold Runtime.holding
    rw [hnone]
    exact Proc.holding_of_server_none hserver
  refine ⟨?_, ?_, ?_, ?_⟩
  · exact (hr.owned.setConn _ hfree).setProc hserver
  · intro j
    dsimp only
    by_cases hj : j = k
    · subst hj
      rw [update_self]
      exact hr.backed j
    · rw [update_of_ne hj]
      exact hr.backed j
  · intro j e he
    dsimp only [System.setConn] at he ⊢
    by_cases hj : j = k
    · subst hj
      rw [update_self] at he ⊢
      cases he
      rw [update_self]
      exact ⟨htaken.place, rfl⟩
    · rw [update_of_ne hj] at he ⊢
      obtain ⟨hplace, hclosed⟩ := hr.errand j e he
      rw [update_of_ne]
      · exact ⟨hplace, hclosed⟩
      · rintro rfl
        exact hfree.2 j hplace
  · rw [Runtime.holding_update (r := r) (Runtime.holding_errand (update_self k _ _))]
    · unfold Errand.holding
      dsimp only
      split
      · rw [← hhas, update_eq_self]
        exact hr.books
      · exact hr.books.take hhas (fun j b hsome => hfree.2 j (hr.place hsome))
    · intro _ hj
      exact ⟨update_of_ne hj _ _, update_of_ne hj _ _⟩

theorem setErrand {e : Errand} (he : r.errands k = some e) {conn : PoolConn} {e' : Option Errand}
    (hconn : ∀ e'', e' = some e'' → e''.conn = e.conn ∧ conn.place = .held k)
    (hbooks : Books calls (update r.holding k (e'.bind Errand.holding))) :
    Accounted { r with
      sys := r.sys.setConn e.conn conn, errands := update r.errands k e',
      calls := calls, said := said } := by
  obtain ⟨hplace, hclosed⟩ := hr.errand k e he
  have hserver := hr.owned.without k (by rw [hclosed]; rfl)
  refine ⟨?_, hr.backed, ?_, ?_⟩
  · exact hr.owned.setConn_of_ne conn (Nat.le_of_lt (hr.lt_of_errand he))
      (fun _ _ => hr.ne_of_errand he)
  · intro j e'' he''
    dsimp only [System.setConn] at he'' ⊢
    by_cases hj : j = k
    · subst hj
      rw [update_self] at he''
      obtain ⟨hsame, hheld⟩ := hconn e'' he''
      rw [hsame, update_self]
      exact ⟨hheld, hclosed⟩
    · rw [update_of_ne hj] at he''
      obtain ⟨hplace', hclosed'⟩ := hr.errand j e'' he''
      rw [update_of_ne]
      · exact ⟨hplace', hclosed'⟩
      · intro hsame
        rw [hsame] at hplace'
        exact hj (Place.held.inj (hplace'.symm.trans hplace))
  · rw [Runtime.holding_update (r := r) (k := k)]
    · exact hbooks
    · cases e' with
      | none =>
        refine (Runtime.holding_session (update_self k _ _)).trans ?_
        exact Proc.holding_of_server_none hserver
      | some => exact Runtime.holding_errand (update_self k _ _)
    · intro _ hj
      exact ⟨update_of_ne hj _ _, rfl⟩

theorem speak {k : Nat} {t : RoundTrip} {goesOn : Bool} (h : r.speak k t goesOn = some r') :
    Accounted r' := by
  unfold Runtime.speak at h
  split at h
  · rename_i job backend c message rest he
    obtain ⟨_, htrip, rfl⟩ := map_eq_some_iff.1 h
    have hplace := (hr.errand k _ he).1
    refine hr.setErrand he ?_ ?_
    · rintro _ ⟨⟩
      refine ⟨rfl, ?_⟩
      rw [(markBrokenIf_kept _ _).place, (roundTrip_kept htrip).place]
      exact hplace
    · have hsame : r.holding k = Errand.holding ⟨job, backend, c, if goesOn then rest else []⟩ :=
        (Runtime.holding_errand he).trans rfl
      rw [bind_some, ← hsame, update_eq_self]
      exact hr.books
  · cases h

theorem finish {k : Nat} (h : r.finish k = some r') : Accounted r' := by
  unfold Runtime.finish at h
  split at h
  · rename_i job backend c he
    cases h
    refine hr.setErrand he nofun ?_
    have hhas : r.holding k = Errand.holding ⟨job, backend, c, []⟩ := Runtime.holding_errand he
    unfold Errand.holding at hhas
    rw [Option.bind_none]
    split at hhas
    · rename_i hprobe
      rw [if_pos hprobe, ← hhas, update_eq_self]
      exact hr.books
    · rename_i hcounted
      rw [if_neg hcounted]
      exact hr.books.give hhas
  · cases h

/-- **Every step keeps the accounts.** -/
theorem step (h : r.step cfg a = some r') : Accounted r' := by
  cases a with
  | gateway a =>
    cases a with
    | act =>
      obtain ⟨_, hch, rfl⟩ := map_eq_some_iff.1 h
      exact hr.act hch
    | recycle =>
      obtain ⟨sys, hsystem, rfl⟩ := map_eq_some_iff.1 h
      cases moved_of_step hsystem with
      | reset hc hplace => exact hr.setConn _ (System.free_of_returned hc (by rw [hplace]; rfl))
    | drain =>
      simp only [Runtime.step] at h
      obtain ⟨_, hsystem, rfl⟩ := map_eq_some_iff.1 h
      cases moved_of_step hsystem with
      | drained =>
        exact ⟨⟨hr.owned.holds, hr.owned.without, hr.owned.fresh⟩, hr.backed, hr.errand, hr.books⟩
  | mirror =>
    simp only [Runtime.step] at h
    split at h
    · exact hr.start h
    · cases h
  | refresh =>
    simp only [Runtime.step] at h
    split at h
    · split at h
      · exact hr.start h
      · cases h
    · cases h
  | check =>
    simp only [Runtime.step] at h
    exact hr.start h
  | replicate => exact hr.start h
  | speak => exact hr.speak h
  | finish => exact hr.finish h

theorem run (hrun : Pontus.Lib.run (Runtime.step cfg) r actions = some r') : Accounted r' := by
  apply run_invariant _ hr (along_of_forall fun _ _ => trivial) hrun
  intro _ _ _ hu _ hstep
  exact hu.step hstep

end Accounted

/-! ## The runs -/

def Runtime.ended (r : Runtime) (k : Nat) : Prop :=
  (r.sys.procs k).phase = .closed ∧ r.errands k = none

def Runtime.noSession (r : Runtime) : Prop :=
  ∀ k, ((r.sys.procs k).phase = .fresh ∨ (r.sys.procs k).phase = .closed) ∧
    ∀ e, r.errands k = some e → e.job ≠ .handleReplication

structure Balanced (r : Runtime) : Prop where
  once : ∀ k backend c, r.calls.count (.taken k backend c) =
    r.calls.count (.returned k backend c) + if r.holding k = some (c, backend) then 1 else 0
  ended : ∀ k, r.ended k → ∀ backend c,
    r.calls.count (.taken k backend c) = r.calls.count (.returned k backend c)
  counter : ∀ backend, ∃ out : List Nat, out.Nodup ∧
    (∀ c, c ∈ out ↔ ∃ k, r.holding k = some (c, backend)) ∧ r.checkedOut backend = out.length
  nonneg : ∀ backend, 0 ≤ r.checkedOut backend
  idle : r.noSession → (∀ k, r.errands k = none) → ∀ backend, r.checkedOut backend = 0

theorem Accounted.holding_of_unserved (hr : Accounted r) (herrand : r.errands k = none)
    (hphase : (r.sys.procs k).phase.unserved) : r.holding k = none := by
  rw [Runtime.holding_session herrand]
  exact Proc.holding_of_server_none (hr.owned.without k hphase)

/-- **Every checkout is returned once.**  A goroutine that has ended has passed
each connection it obtained to `Release` on its backend as often as it obtained
it, and `checkedOut` is the number of connections that live sessions and
running errands have of the backend. -/
theorem checkouts_returned (cfg : Config) {actions : List RuntimeAction} {r : Runtime}
    (hrun : run (Runtime.step cfg) .init actions = some r) : Balanced r := by
  have hr := accounted_init.run hrun
  have hcounter := fun backend => hr.books.balance_eq backend
  refine ⟨hr.books.count_taken, ?_, hcounter, ?_, ?_⟩
  · intro k ⟨hclosed, herrand⟩ backend c
    have hnone := hr.holding_of_unserved herrand (by rw [hclosed]; rfl)
    rw [hr.books.count_taken, hnone]
    rfl
  · intro backend
    obtain ⟨out, -, -, hbalance⟩ := hcounter backend
    rw [Runtime.checkedOut, hbalance]
    exact Int.natCast_nonneg _
  · intro hsessions herrands backend
    obtain ⟨out, -, hmem, hbalance⟩ := hcounter backend
    have hempty : out = [] := by
      rw [List.eq_nil_iff_forall_not_mem]
      intro c hc
      obtain ⟨k, hk⟩ := (hmem c).1 hc
      have hphase : (r.sys.procs k).phase.unserved = true := by
        rcases (hsessions k).1 with hfresh | hclosed
        · rw [hfresh]
          rfl
        · rw [hclosed]
          rfl
      rw [hr.holding_of_unserved (herrands k) hphase] at hk
      cases hk
    rw [Runtime.checkedOut, hbalance, hempty]
    rfl

def leavesMirrored : List RuntimeAction :=
  (opens 0 appStartup (ascii "db") .dial ++
    sends 0 (simpleQuery (ascii "SELECT 1"))).map .gateway ++
    [.mirror 1 0 (ascii "shadow") .dial []] ++
    (serves 0 (.undisturbed (completed 'I'.toUInt8) 'I'.toUInt8) ++
      [Action.act 0 (.receive [⟨[], some .failed⟩])]).map .gateway

def mirrorEnds : List RuntimeAction :=
  [.speak 1 (askedOnce (completed 'I'.toUInt8)) true, .finish 1]

def RuntimeAction.goroutine : RuntimeAction → Option Nat
  | .gateway (.act i _) => some i
  | .gateway _ => none
  | .mirror k .. | .refresh k .. | .check k .. | .replicate k .. | .speak k .. | .finish k => some k

def Runtime.KeptAt (r : Runtime) (k : Nat) (r' : Runtime) : Prop :=
  r'.sys.procs k = r.sys.procs k ∧ r'.errands k = r.errands k

namespace Runtime.KeptAt

variable {cfg : Config} {r r' : Runtime} {k : Nat}

theorem start {j : Nat} {job : Job} {todo : List Bytes} {startup : Option (Bytes × Bool)}
    (hk : k ≠ j) (h : r.start j job backend source todo startup = some r') : r.KeptAt k r' := by
  unfold Runtime.start at h
  split at h
  · cases h
  · obtain ⟨⟨_, _⟩, -, rfl⟩ := map_eq_some_iff.1 h
    exact ⟨update_of_ne hk _ _, update_of_ne hk _ _⟩

theorem step (hk : a.goroutine ≠ some k) (h : r.step cfg a = some r') : r.KeptAt k r' := by
  cases a with
  | gateway a =>
    cases a with
    | act =>
      obtain ⟨_, -, rfl⟩ := map_eq_some_iff.1 h
      refine ⟨?_, rfl⟩
      rw [System.apply_procs, update_of_ne]
      rintro rfl
      exact hk rfl
    | recycle =>
      obtain ⟨sys, hsystem, rfl⟩ := map_eq_some_iff.1 h
      cases moved_of_step hsystem with
      | reset => exact ⟨rfl, rfl⟩
    | drain =>
      simp only [Runtime.step] at h
      obtain ⟨_, hsystem, rfl⟩ := map_eq_some_iff.1 h
      cases moved_of_step hsystem with
      | drained => exact ⟨rfl, rfl⟩
  | mirror =>
    simp only [Runtime.step] at h
    split at h
    · exact start (fun hkj => hk (congrArg some hkj.symm)) h
    · cases h
  | refresh =>
    simp only [Runtime.step] at h
    split at h
    · split at h
      · exact start (fun hkj => hk (congrArg some hkj.symm)) h
      · cases h
    · cases h
  | check =>
    simp only [Runtime.step] at h
    exact start (fun hkj => hk (congrArg some hkj.symm)) h
  | replicate => exact start (fun hkj => hk (congrArg some hkj.symm)) h
  | speak =>
    simp only [Runtime.step, Runtime.speak] at h
    split at h
    · obtain ⟨_, -, rfl⟩ := map_eq_some_iff.1 h
      exact ⟨rfl, update_of_ne (fun hkj => hk (congrArg some hkj.symm)) _ _⟩
    · cases h
  | finish =>
    simp only [Runtime.step, Runtime.finish] at h
    split at h
    · cases h
      exact ⟨rfl, update_of_ne (fun hkj => hk (congrArg some hkj.symm)) _ _⟩
    · cases h

theorem run (hk : ∀ a ∈ actions, a.goroutine ≠ some k)
    (hrun : Pontus.Lib.run (Runtime.step cfg) r actions = some r') : r.KeptAt k r' := by
  have hallowed : Along (Runtime.step cfg) (fun _ a => a.goroutine ≠ some k) r actions :=
    along_of_forall_mem fun a ha _ => hk a ha
  apply run_invariant _ (show r.KeptAt k r from ⟨rfl, rfl⟩) hallowed hrun
  intro _ _ _ hu ha hstep
  obtain ⟨hproc, herrand⟩ := step ha hstep
  exact ⟨hproc.trans hu.1, herrand.trans hu.2⟩

end Runtime.KeptAt

theorem mirror_checked_out_behind_session :
    ∃ r, run (Runtime.step (.initial id false)) .init leavesMirrored = some r ∧
      r.noSession ∧ r.checkedOut (ascii "shadow") = 1 := by
  have hlast : (run (Runtime.step (.initial id false)) .init leavesMirrored).any
      (fun r => (r.sys.procs 0).phase = .closed ∧ r.errands 0 = none ∧
        (r.sys.procs 1).phase = .closed ∧ (r.errands 1).map Errand.job = some .mirrorRequest ∧
        r.checkedOut (ascii "shadow") = 1) = true := by
    decide +kernel
  obtain ⟨r, hrun, hr⟩ := exists_run hlast
  obtain ⟨hclosed, hnone, hclosed', hjob, hone⟩ := of_decide_eq_true hr
  refine ⟨r, hrun, ?_, hone⟩
  have hothers : ∀ a ∈ leavesMirrored, a.goroutine = some 0 ∨ a.goroutine = some 1 := by
    decide +kernel
  intro k
  rcases k with _ | _ | k
  · refine ⟨.inr hclosed, ?_⟩
    rw [hnone]
    rintro e ⟨⟩
  · refine ⟨.inr hclosed', ?_⟩
    intro e he
    rw [he, map_some, some_inj] at hjob
    rw [hjob]
    decide
  · have hkept : Runtime.KeptAt .init (k + 2) r := by
      apply Runtime.KeptAt.run _ hrun
      intro a ha
      rcases hothers a ha with h | h <;> simp [h]
    obtain ⟨hproc, herrand⟩ := hkept
    rw [hproc, herrand]
    exact ⟨.inl rfl, nofun⟩

theorem mirrored_session_balanced :
    ∃ r, run (Runtime.step (.initial id false)) .init (leavesMirrored ++ mirrorEnds) = some r ∧
      Balanced r ∧ r.ended 0 ∧ r.ended 1 ∧
      r.calls = [.returned 1 (ascii "shadow") 1, .returned 0 (ascii "db") 0,
        .taken 1 (ascii "shadow") 1, .taken 0 (ascii "db") 0] := by
  have hlast : (run (Runtime.step (.initial id false)) .init (leavesMirrored ++ mirrorEnds)).any
      (fun r => ((r.sys.procs 0).phase = .closed ∧ r.errands 0 = none) ∧
        ((r.sys.procs 1).phase = .closed ∧ r.errands 1 = none) ∧
        r.calls = [.returned 1 (ascii "shadow") 1, .returned 0 (ascii "db") 0,
          .taken 1 (ascii "shadow") 1, .taken 0 (ascii "db") 0]) = true := by
    decide +kernel
  obtain ⟨r, hrun, hr⟩ := exists_run hlast
  obtain ⟨hzero, hone, hcalls⟩ := of_decide_eq_true hr
  exact ⟨r, hrun, checkouts_returned _ hrun, hzero, hone, hcalls⟩

end Pontus.Proxy
