import Pontus.Proxy.Cancelling
import Pontus.Proxy.Proofs.CancelRegistry
import Pontus.Proxy.Proofs.Turns

/-!
# Whose statement a cancel request hits

A key names the backend process of one connection, whoever uses it.  So a cancel
request hits its own session as long as no session gets a connection whose key
another session's client could have forwarded.  The pools know nothing of keys:
they lend the connection of one session to the next, and under a credential
store several clients are given the key of one connection.
-/

namespace Pontus.Proxy

open Lib Protocol Pool

def CancelRegistry.routes (registry : CancelRegistry) (key : Bytes) : Bool :=
  (backendKeyProcessID key).any fun pid => (registry.addrFor pid).isSome

def Cancelling.strays (r : Cancelling) (j : Nat) (key : Bytes) : Bool :=
  r.cancels.registry.routes key && r.given.any fun g => g.1 != j && g.2 == key

/-- A session that gets a connection for a statement gets one whose key nobody
else can cancel with; a key that is handed out makes no connection that is in
use, nor the session's own, one that somebody else can cancel on. -/
def Cancelling.keepsKeys (cfg : Config) (keyOf : Nat → Bytes) (r : Cancelling) : Action → Bool
  | .act i a =>
    match a, takenBy r.sys i a with
    | .handshake env, some (backend, c, _) =>
      let r' := r.opened i (keyOf c) backend
      !env.completed ||
        ((cfg.credentials && cfg.pooling.shouldRelease (r.sys.procs i).session.state false) ||
            !r'.strays i (keyOf c)) &&
          (List.range r.sys.nextConn).all fun d =>
            match (r.sys.conns d).place with
            | .held j => !r'.strays j (keyOf d)
            | .returned _ => true
    | _, some (_, c, _) => !r.strays i (keyOf c)
    | _, none => true
  | _ => true

theorem processID_of_parseCancelKey (h : parseCancelKey (cancelRequest key) = some parsed) :
    backendKeyProcessID key = some parsed.processID := by
  rcases key with _ | ⟨_, _ | ⟨_, _ | ⟨_, _ | ⟨_, _ | ⟨_, _ | ⟨_, _ | ⟨_, _ | ⟨_, _⟩⟩⟩⟩⟩⟩⟩⟩
  case cons.cons.cons.cons.cons.cons.cons.cons =>
    simp only [parseCancelKey, cancelRequest, putU32, cancelKeyLen, cons_append,
      nil_append, List.take_succ_cons, List.take_zero, some_inj] at h
    rw [← h]
    rfl
  all_goals simp [parseCancelKey, cancelRequest, putU32, cancelKeyLen] at h

theorem routes_of_routeCancel
    (h : routeCancel registry (parseCancelKey (cancelRequest key)) env = .ok (some sent)) :
    registry.routes key := by
  cases hparsed : parseCancelKey (cancelRequest key) with
  | none =>
    rw [hparsed] at h
    cases h
  | some parsed =>
    rw [hparsed] at h
    unfold routeCancel at h
    dsimp only at h
    cases haddress : registry.addrFor parsed.processID with
    | none =>
      rw [haddress] at h
      cases h
    | some => simp [CancelRegistry.routes, processID_of_parseCancelKey hparsed, haddress]

theorem routes_closed {s : CancelSessions} (h : (s.closed i).registry.routes key) :
    s.registry.routes key := by
  unfold CancelSessions.closed at h
  split at h
  · exact h
  · unfold CancelRegistry.routes at h ⊢
    obtain ⟨_, hpid, haddress⟩ := (Option.any_eq_true _ _).1 h
    rw [CancelRegistry.addrFor_forget] at haddress
    split at haddress
    · cases haddress
    · rw [hpid]
      exact haddress

theorem strays_closed {r : Cancelling} (h : r.strays j key = false) :
    Cancelling.strays { r with cancels := r.cancels.closed i } j key = false := by
  rw [← not_eq_true] at h ⊢
  intro hstrays
  unfold Cancelling.strays at h hstrays
  rw [and_eq_true] at h hstrays
  exact h ⟨routes_closed hstrays.1, hstrays.2⟩

section
variable {cfg : Config} {s : System} {i : Nat} {a : Act} {ch : Change}

inductive Holder (cfg : Config) (s : System) (i : Nat) (a : Act) (ch : Change) (c : Nat) : Prop
  | had (hserver : (s.procs i).session.server = some c)
  | opened {env : HandshakeEnv} {backend : Bytes} {conn : PoolConn} (haction : a = .handshake env)
      (hcompleted : env.completed = true) (htaken : takenBy s i a = some (backend, c, conn))
      (hwaiting : ch.proc.phase = .waiting)
      (hkept : (cfg.credentials &&
        cfg.pooling.shouldRelease (s.procs i).session.state false) = false)
  | acquired {backend : Bytes} {conn : PoolConn} (haction : ∀ env, a ≠ .handshake env)
      (htaken : takenBy s i a = some (backend, c, conn))

theorem takenBy_of_taken (htakes : a.takes (s.procs i) = some (backend, source))
    (htaken : s.Taken i ⟨backend, (s.procs i).session.identity⟩ source c conn) :
    takenBy s i a = some (backend, c, conn) := by
  unfold takenBy
  simp [htakes, htaken.take]

theorem completed_of_openBackend (h : openBackend cfg req conn env = (conn', .completed)) :
    env.completed := by
  unfold openBackend at h
  cases hcompleted : env.completed with
  | true => rfl
  | false =>
    simp only [hcompleted, Bool.and_false, false_eq_true, if_false] at h
    repeat' split at h
    all_goals simp at h

theorem completed_of_waiting (h : Outcome cfg s i (.handshake env) ch)
    (hwaiting : ch.proc.phase = .waiting) : env.completed := by
  cases h with
  | noBackend | openFailed => cases hwaiting
  | opened _ _ _ hopen => exact completed_of_openBackend hopen
  | wrongConnection _ _ _ _ hp => rcases hp with rfl | ⟨_, rfl⟩ <;> cases hwaiting

theorem Turn.holder (h : Turn cfg s i a ch) (hserver : ch.proc.session.server = some c) :
    Holder cfg s i a ch c := by
  cases h with
  | named | replayFailed => exact .had hserver
  | quiet hcontinues | bypassed hcontinues => exact .had (hcontinues.server.symm.trans hserver)
  | closed | concludedReleased => cases hserver
  | opened _ hpicked htaken hopen =>
    have htaken := takenBy_of_taken (a := .handshake _) hpicked htaken
    unfold sessionOpened at hserver ⊢
    dsimp only at hserver ⊢
    split at hserver
    · cases hserver
    · rename_i hkept
      cases hserver
      rw [if_neg hkept]
      exact .opened rfl (completed_of_openBackend hopen) htaken rfl (not_eq_true _ ▸ hkept)
  | givenBack _ _ hproc =>
    rcases hproc with rfl | ⟨_, rfl, -⟩
    · cases hserver
    · exact .had hserver
  | installed _ _ _ htaken hacquires _ htakes =>
    cases hserver
    refine .acquired ?_ (takenBy_of_taken htakes htaken)
    rintro _ rfl
    cases hacquires
  | leaves _ hgone =>
    rw [hgone] at hserver
    cases hserver
  | answered _ _ _ _ hforwarded hrecorded =>
    unfold settle at hserver
    split at hserver
    · cases hserver
    · rw [hrecorded.server, hforwarded.session] at hserver
      exact .had hserver

end

structure KeysInv (keyOf : Nat → Bytes) (r : Cancelling) : Prop where
  owned : Owned r.sys
  apart : ∀ j c, (r.sys.procs j).session.server = some c → r.strays j (keyOf c) = false

theorem keysInv_init (keyOf : Nat → Bytes) : KeysInv keyOf .init where
  owned := owned_init
  apart := nofun

namespace KeysInv

variable {cfg : Config} {keyOf : Nat → Bytes} {r : Cancelling} {i : Nat} {a : Act} {ch : Change}

section
variable (hr : KeysInv keyOf r) (hkeeps : r.keepsKeys cfg keyOf (.act i a))
  (hout : Outcome cfg r.sys i a ch)
include hr hkeeps hout

theorem opened (hopened : openedOn r.sys i a ch = some (c, backend)) :
    KeysInv keyOf { r.opened i (keyOf c) backend with sys := r.sys.apply i ch } := by
  have hlegal := legal_of_outcome hr.owned hout
  have hturn := turn_of_outcome hr.owned hout
  unfold openedOn at hopened
  split at hopened
  · rename_i env backend' c' conn htaken
    rw [ite_none_right_eq_some, some_inj, Prod.mk.injEq] at hopened
    obtain ⟨hwaiting, rfl, rfl⟩ := hopened
    simp only [Cancelling.keepsKeys, htaken, completed_of_waiting hout hwaiting, Bool.not_true,
      Bool.false_or, and_eq_true, all_eq_true, List.mem_range] at hkeeps
    obtain ⟨hown, hothers⟩ := hkeeps
    -- whoever has a connection has it still, and nobody new can cancel on it
    have hheld : ∀ j d, (r.sys.procs j).session.server = some d →
        (r.opened i (keyOf c') backend').strays j (keyOf d) = false := by
      intro j d hserver
      have hplace := hr.owned.holds j d hserver
      have hlt : d < r.sys.nextConn := by
        by_contra hle
        exact hr.owned.fresh d j (Nat.not_lt.1 hle) hplace
      have hd := hothers d hlt
      rw [hplace] at hd
      exact not_eq_true' _ ▸ hd
    refine ⟨hr.owned.apply hlegal, ?_⟩
    intro j d hserver
    rw [System.apply_procs] at hserver
    by_cases hj : j = i
    · subst hj
      rw [update_self] at hserver
      cases hturn.holder hserver with
      | had hbefore => exact hheld j d hbefore
      | opened _ _ htaken' _ hkept =>
        cases htaken.symm.trans htaken'
        rw [hkept, Bool.false_or, not_eq_true'] at hown
        exact hown
      | acquired haction => exact absurd rfl (haction env)
    · rw [update_of_ne hj] at hserver
      exact hheld j d hserver
  · cases hopened

theorem moved (hopened : openedOn r.sys i a ch = none) :
    KeysInv keyOf { r with sys := r.sys.apply i ch } := by
  have hlegal := legal_of_outcome hr.owned hout
  have hturn := turn_of_outcome hr.owned hout
  refine ⟨hr.owned.apply hlegal, ?_⟩
  intro j d hserver
  rw [System.apply_procs] at hserver
  by_cases hj : j = i
  · subst hj
    rw [update_self] at hserver
    cases hturn.holder hserver with
    | had hbefore => exact hr.apart j d hbefore
    | opened haction _ htaken hwaiting =>
      subst haction
      simp [openedOn, htaken, hwaiting] at hopened
    | acquired haction htaken =>
      unfold Cancelling.keepsKeys at hkeeps
      dsimp only at hkeeps
      rw [htaken] at hkeeps
      split at hkeeps
      · exact absurd rfl (haction _)
      · rename_i heq
        cases heq
        exact not_eq_true' _ ▸ hkeeps
      · rename_i heq
        cases heq
  · rw [update_of_ne hj] at hserver
    exact hr.apart j d hserver

end

theorem closed (hr : KeysInv keyOf r) (i : Nat) :
    KeysInv keyOf { r with cancels := r.cancels.closed i } :=
  ⟨hr.owned, fun j c hserver => strays_closed (hr.apart j c hserver)⟩

theorem step (hr : KeysInv keyOf r) (hkeeps : r.keepsKeys cfg keyOf b)
    (h : r.step cfg keyOf b = some r') : KeysInv keyOf r' := by
  cases b with
  | act i =>
    obtain ⟨_, hch, rfl⟩ := map_eq_some_iff.1 h
    have hout := outcome_of_change hch
    split
    · rename_i c backend hopened
      exact hr.opened hkeeps hout hopened
    · rename_i hnone
      have hmoved := hr.moved hkeeps hout hnone
      split
      · exact hmoved.closed i
      · exact hmoved
  | recycle =>
    obtain ⟨sys, hsystem, rfl⟩ := map_eq_some_iff.1 h
    cases moved_of_step hsystem with
    | reset hc hplace =>
      exact ⟨hr.owned.setConn _ (System.free_of_returned hc (by rw [hplace]; rfl)), hr.apart⟩
  | drain =>
    simp only [Cancelling.step] at h
    obtain ⟨_, hsystem, rfl⟩ := map_eq_some_iff.1 h
    cases moved_of_step hsystem with
    | drained => exact ⟨⟨hr.owned.holds, hr.owned.without, hr.owned.fresh⟩, hr.apart⟩

end KeysInv

theorem Proc.server_of_executesOn {p : Proc} (h : p.executesOn c) :
    p.session.server = some c := by
  unfold executesOn at h
  split at h
  · exact eq_of_beq h
  · cases h

/-- **A cancel request hits its own session**, where nobody is lent a connection
on which somebody else can cancel: when a packet with the key a client was given
is forwarded, the process the key names executes nobody else's statement. -/
theorem cancels_hit_their_session (cfg : Config) (keyOf : Nat → Bytes) {actions : List Action}
    {r : Cancelling}
    (hkeeps : Along (Cancelling.step cfg keyOf) (fun r b => r.keepsKeys cfg keyOf b = true) .init
      actions)
    (hrun : run (Cancelling.step cfg keyOf) .init actions = some r)
    {i : Nat} {key : Bytes} (hgiven : (i, key) ∈ r.given) {env : CancelEnv} {sent : Bytes × Bytes}
    (hforwarded : routeCancel r.cancels.registry (parseCancelKey (cancelRequest key)) env =
      .ok (some sent)) :
    ∀ j c, keyOf c = key → (r.sys.procs j).executesOn c = true → j = i := by
  have hr : KeysInv keyOf r := by
    apply run_invariant _ (keysInv_init keyOf) hkeeps hrun
    intro _ _ _ hu hb hstep
    exact hu.step hb hstep
  intro j c hkey hexecutes
  by_contra hj
  have hapart := hr.apart j c (Proc.server_of_executesOn hexecutes)
  rw [← not_eq_true] at hapart
  apply hapart
  unfold Cancelling.strays
  rw [and_eq_true, any_eq_true, hkey]
  refine ⟨routes_of_routeCancel hforwarded, (i, key), hgiven, ?_⟩
  simpa using fun h : i = j => hj h.symm

def ownKeys (c : Nat) : Bytes := backendKey (c + 1) 7

def cancelReaches : CancelEnv := ⟨true, true, true⟩

def asksOnOwn : List Action :=
  opens 0 appStartup (ascii "db") .dial ++ opens 1 appStartup (ascii "db") .dial ++
    sends 1 (simpleQuery (ascii "SELECT 1"))

theorem own_statement_cancelled :
    ∃ r, run (Cancelling.step (.initial id false) ownKeys) .init asksOnOwn = some r ∧
      (r.sys.procs 1).executesOn 1 = true ∧
      routeCancel r.cancels.registry (parseCancelKey (cancelRequest (ownKeys 1))) cancelReaches =
        .ok (some (ascii "db", cancelRequest (ownKeys 1))) ∧
      ∀ j c, ownKeys c = ownKeys 1 → (r.sys.procs j).executesOn c = true → j = 1 := by
  have hkeeps : Along (Cancelling.step (.initial id false) ownKeys)
      (fun r b => r.keepsKeys (.initial id false) ownKeys b = true) .init asksOnOwn := by
    decide +kernel
  have hlast : (run (Cancelling.step (.initial id false) ownKeys) .init asksOnOwn).any
      (fun r => (r.sys.procs 1).executesOn 1 = true ∧ (1, ownKeys 1) ∈ r.given ∧
        r.cancels.registry.addrFor 2 = some (ascii "db")) = true := by
    decide +kernel
  obtain ⟨r, hrun, hr⟩ := exists_run hlast
  obtain ⟨hexecutes, hgiven, haddress⟩ := of_decide_eq_true hr
  have hparsed : parseCancelKey (cancelRequest (ownKeys 1)) =
      some ⟨2, 7, cancelRequest (ownKeys 1)⟩ := by
    decide +kernel
  have hforwarded : routeCancel r.cancels.registry (parseCancelKey (cancelRequest (ownKeys 1)))
      cancelReaches = .ok (some (ascii "db", cancelRequest (ownKeys 1))) := by
    rw [hparsed, routeCancel]
    rw [haddress]
    rfl
  exact ⟨r, hrun, hexecutes, hforwarded,
    cancels_hit_their_session _ ownKeys hkeeps hrun hgiven hforwarded⟩

def asksOnShared : List Action :=
  opens 0 appStartup (ascii "db") .dial ++ resets 0 ++
    opens 1 appStartup (ascii "db") (.pooled 0) ++ resets 0 ++
    sends 1 (simpleQuery (ascii "SELECT 1")) ++ acquires 1 (ascii "db") (.pooled 0)

def asksOnLent : List Action :=
  asksOnce 0 ++ asksOnce 1 ++ sends 1 (simpleQuery (ascii "SELECT 1")) ++
    acquires 1 (ascii "db") (.pooled 0)

/-- The first client's cancel request is forwarded to the backend that executes
the second one's statement, on the very process the key names. -/
def Cancelling.HitsSecond (r : Cancelling) : Prop :=
  (0, ownKeys 0) ∈ r.given ∧ (r.sys.procs 1).executesOn 0 = true ∧
    (r.sys.conns 0).pool.backend = ascii "db" ∧
    routeCancel r.cancels.registry (parseCancelKey (cancelRequest (ownKeys 0))) cancelReaches =
      .ok (some (ascii "db", cancelRequest (ownKeys 0)))

theorem hitsSecond_of_run (h : (run (Cancelling.step cfg ownKeys) .init actions).any (fun r =>
      (0, ownKeys 0) ∈ r.given ∧ (r.sys.procs 1).executesOn 0 = true ∧
        (r.sys.conns 0).pool.backend = ascii "db" ∧
        r.cancels.registry.addrFor 1 = some (ascii "db")) = true) :
    ∃ r, run (Cancelling.step cfg ownKeys) .init actions = some r ∧ r.HitsSecond := by
  obtain ⟨r, hrun, hr⟩ := exists_run h
  obtain ⟨hgiven, hexecutes, hback, haddress⟩ := of_decide_eq_true hr
  have hparsed : parseCancelKey (cancelRequest (ownKeys 0)) =
      some ⟨1, 7, cancelRequest (ownKeys 0)⟩ := by
    decide +kernel
  refine ⟨r, hrun, hgiven, hexecutes, hback, ?_⟩
  rw [hparsed, routeCancel]
  rw [haddress]
  rfl

theorem cancel_hits_another_session :
    (∃ r, run (Cancelling.step (.initial id true) ownKeys) .init asksOnShared = some r ∧
      r.HitsSecond) ∧
    ∃ r, run (Cancelling.step (.initial id false) ownKeys) .init asksOnLent = some r ∧
      r.HitsSecond := by
  constructor
  · apply hitsSecond_of_run
    decide +kernel
  · apply hitsSecond_of_run
    decide +kernel

end Pontus.Proxy
