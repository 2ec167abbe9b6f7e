import Pontus.Protocol.Proofs.Startup
import Pontus.Proxy.Proofs.Turns

/-!
# Whose connection a session is given

The startup packets a backend was sent named the identity its pool is kept for,
and a session asks the pool of its own identity.  A routing table can break the
first half: a target with a zero byte in it is read as more than a name.
-/

namespace Pontus.Proxy

open Lib Protocol Pool
open List (forall_mem_singleton)

structure Attributed (c : PoolConn) : Prop where
  opened : ∀ packet ∈ c.wire.startups, startupIdentity packet = c.pool.identity
  started : c.conn.ready = true → c.wire.startups ≠ []

/-- The session's names can be written into a packet, and the packet at hand
while it is being opened says what they say. -/
structure Named (p : Proc) : Prop where
  user : (0 : UInt8) ∉ p.session.state.user
  database : (0 : UInt8) ∉ p.session.state.database
  unnamed : p.session.state.database = [] → p.session.state.user = []
  opening : ∀ req attempts, p.phase = .opening req attempts →
    startupIdentity req.raw = p.session.identity ∧
      (⟨req.user, req.database⟩ : Identity) = p.session.identity

def OpenedFor (identity : Identity) (c : PoolConn) : Prop :=
  c.wire.startups ≠ [] ∧ ∀ packet ∈ c.wire.startups, startupIdentity packet = identity

instance (identity : Identity) (c : PoolConn) : Decidable (OpenedFor identity c) :=
  inferInstanceAs (Decidable (c.wire.startups ≠ [] ∧
    ∀ packet ∈ c.wire.startups, startupIdentity packet = identity))

def Event.OwnIdentity : Event → Prop
  | .handed _ _ identity conn => OpenedFor identity conn
  | _ => True

def identityInv : LocalInv where
  conn := Attributed
  proc := Named
  held _ p c := c.pool.identity = p.session.identity ∧ c.conn.ready = true
  event := Event.OwnIdentity

def routesToName (cfg : Config) : Action → Bool
  | .act _ (.connect env) =>
    (readStartup cfg.unicode env.packet).all fun req =>
      !(env.routes.resolve req.database).database.contains 0
  | _ => true

/-! ### Connections -/

theorem Attributed.carried (h : Attributed c) (hcarried : Carried c c') : Attributed c' := by
  constructor
  · rw [hcarried.startups, hcarried.pool]
    exact h.opened
  · rw [hcarried.startups, hcarried.ready]
    exact h.started

theorem Attributed.openedFor (h : Attributed c) (hready : c.conn.ready) :
    OpenedFor c.pool.identity c :=
  ⟨h.started hready, h.opened⟩

theorem Attributed.readied (h : Attributed c) (hreadied : Readied cfg p a c c')
    (hpacket : ∀ packet, a.startupPacket cfg p = some packet →
      startupIdentity packet = c.pool.identity) : Attributed c' := by
  rcases hreadied.startup with ⟨hstartups, hready⟩ | ⟨packet, hwritten, hstartups, -⟩
  · constructor
    · rw [hstartups, hreadied.pool]
      exact h.opened
    · rw [hstartups]
      exact fun hready' => h.started (hready hready')
  · constructor
    · rw [hstartups, hreadied.pool]
      exact forall_mem_cons.2 ⟨hpacket packet hwritten, h.opened⟩
    · intro _
      rw [hstartups]
      exact cons_ne_nil _ _

theorem attributed_taken (hs : identityInv.Holds s) (h : s.Taken i key source c conn) :
    Attributed conn := by
  cases h with
  | dial =>
    constructor
    · nofun
    · nofun
  | pooled => exact ⟨(hs.conn c).opened, (hs.conn c).started⟩

/-! ### Sessions -/

theorem Named.of_sameSession (h : Named p) (hsame : p.SameSession p') : Named p' := by
  obtain ⟨huser, hdatabase⟩ := (Identity.mk.injEq _ _ _ _).mp hsame.identity
  constructor
  · rw [huser]
    exact h.user
  · rw [hdatabase]
    exact h.database
  · rw [huser, hdatabase]
    exact h.unnamed
  · intro req left hopening
    obtain ⟨left', hbefore⟩ := hsame.opening req left hopening
    rw [hsame.identity]
    exact h.opening req left' hbefore

theorem Named.written (h : Named p) :
    startupIdentity (writeStartup p.session.identity.user p.session.identity.database) =
      p.session.identity :=
  startupIdentity_writeStartup h.user h.database h.unnamed

theorem Named.startupPacket {p : Proc} {a : Act} (h : Named p)
    (hpacket : a.startupPacket cfg p = some packet) : startupIdentity packet =
    p.session.identity := by
  cases a with
  | handshake =>
    simp only [Act.startupPacket] at hpacket
    split at hpacket
    · rename_i req left hphase
      obtain ⟨hraw, hfields⟩ := h.opening req left hphase
      obtain ⟨huser, hdatabase⟩ := (Identity.mk.injEq _ _ _ _).mp hfields
      cases hpacket
      split
      · rw [huser, hdatabase]
        exact h.written
      · exact hraw
    · cases hpacket
  | acquire =>
    rw [Act.startupPacket, ite_none_right_eq_some] at hpacket
    rw [← Option.some.inj hpacket.2]
    exact h.written
  | _ => cases hpacket

theorem resolveDatabase_faithful (hrequest : req.Faithful)
    (hroute : (0 : UInt8) ∉ (routes.resolve req.database).database)
    (h : resolveDatabase routes req = some req') : req'.Faithful := by
  unfold resolveDatabase at h
  split at h
  · cases h
    exact hrequest
  dsimp only at h
  split at h
  · cases h
    exact hrequest
  · rename_i hne
    obtain ⟨_, hraw, rfl⟩ := map_eq_some_iff.1 h
    have htarget : (routes.resolve req.database).database ≠ [] := by
      rcases routes.resolve_database req.database with hsame | ⟨_, -, -, hd, heq⟩
      · exact absurd hsame hne
      · rw [heq]
        exact hd
    constructor
    · rw [startupIdentity_rewrite htarget hroute hraw, hrequest.identity]
    · exact hrequest.user
    · exact hroute
    · intro hnil
      exact absurd hnil htarget

/-! ### The moves -/

section
variable {cfg : Config} {s : System} {i : Nat} {a : Act} {ch : Change}

theorem Touched.identity (hs : identityInv.Holds s) (h : Touched cfg s i a c conn) :
    Attributed conn ∧ conn.pool.identity = (s.procs i).session.identity := by
  cases h with
  | own hserver _ hcarried =>
    refine ⟨(hs.conn c).carried hcarried, ?_⟩
    rw [hcarried.pool]
    exact (hs.held i c hserver).1
  | taken _ htaken hreadied =>
    have hpool := congrArg PoolKey.identity htaken.pool
    refine ⟨(attributed_taken hs htaken).readied hreadied ?_, ?_⟩
    · intro _ hpacket
      rw [hpool]
      exact (hs.proc i).startupPacket hpacket
    · rw [hreadied.pool]
      exact hpool

theorem Turn.named_proc (hs : identityInv.Holds s)
    (hallowed : routesToName cfg (.act i a)) (h : Turn cfg s i a ch) : Named ch.proc := by
  rcases h.client with ⟨env, read, _, rfl, _, hread, hrequest, hproc⟩ | hsame
  · have hroute : (0 : UInt8) ∉ (env.routes.resolve read.database).database := by
      simp only [routesToName, hread, all_some, not_eq_true',
        List.contains_eq_mem, decide_eq_false_iff_not] at hallowed
      exact hallowed
    have hfaithful := resolveDatabase_faithful (readStartup_faithful hread).1 hroute hrequest
    rw [hproc]
    refine ⟨hfaithful.user, hfaithful.database, hfaithful.unnamed, ?_⟩
    rintro _ _ ⟨⟩
    exact ⟨hfaithful.identity, rfl⟩
  · exact (hs.proc i).of_sameSession hsame

theorem Turn.identity_of_server (hs : Owned s) (h : Turn cfg s i a ch)
    (hserver : ch.proc.session.server = some c) :
    ch.proc.session.identity = (s.procs i).session.identity := by
  rcases h.client with ⟨_, _, _, -, hphase, -, -, hproc⟩ | hsame
  · rw [hproc] at hserver
    exact nomatch (hs.without i (by rw [hphase]; rfl)).symm.trans hserver
  · exact hsame.identity

/-- **Every move keeps the identities apart.** -/
theorem identity_keeps (hs : identityInv.Holds s) (hallowed : routesToName cfg (.act i a))
    (h : Outcome cfg s i a ch) : identityInv.Keeps s i ch := by
  have hlegal := legal_of_outcome hs.owned h
  have hturn := turn_of_outcome hs.owned h
  refine ⟨?_, hturn.named_proc hs hallowed, ?_, ?_⟩
  · intro c conn hconn
    exact ((hturn.touched hconn).identity hs).1
  · intro c conn hserver hconn
    have hsame := hturn.identity_of_server hs.owned hserver
    rcases hconn with hconn | ⟨hnone, rfl⟩
    · have htouched := hturn.touched hconn
      refine ⟨(htouched.identity hs).2.trans hsame.symm, ?_⟩
      rcases hturn.obtained hs.owned hserver hconn with hbefore | hready
      · cases htouched with
        | own _ _ hcarried => exact hcarried.ready.trans (hs.held i c hbefore).2
        | taken _ htaken => exact absurd (hs.owned.holds i c hbefore) ((htaken.isFree hs.owned).2 i)
      · exact hready
    · rcases hlegal.server c hserver with ⟨_, hsome, -⟩ | ⟨-, hbefore⟩
      · exact nomatch hnone.symm.trans hsome
      · obtain ⟨hpool, hready⟩ := hs.held i c hbefore
        exact ⟨hpool.trans hsame.symm, hready⟩
  · intro e he
    cases e with
    | handed =>
      have hhanded := hturn.handed he
      obtain ⟨_, hconn, hcarried⟩ := hhanded.conn
      obtain ⟨hattributed, hpool⟩ := (hturn.touched hconn).identity hs
      have hopened := hattributed.openedFor (hcarried.ready.trans hhanded.ready)
      rw [hpool, ← hhanded.identity] at hopened
      unfold OpenedFor at hopened
      rw [hcarried.startups] at hopened
      exact hopened
    | _ => trivial

theorem identity_init : identityInv.Holds .init where
  owned := owned_init
  conn := by
    intro c
    constructor
    · nofun
    · nofun
  proc := by
    intro i
    refine ⟨not_mem_nil, not_mem_nil, fun _ => rfl, ?_⟩
    nofun
  held := by
    nofun
  log := by
    intro _ he
    cases he

end

/-- **A session is given connections opened for itself alone**, whatever the
interleaving, and keeps them so, as long as no route names a target with a zero
byte in it. -/
theorem connections_opened_for_their_session (cfg : Config) {actions : List Action} {s : System}
    (hroutes : Along (step cfg) (fun _ a => routesToName cfg a = true) .init actions)
    (hrun : run (step cfg) .init actions = some s) :
    (∀ i c identity conn, Event.handed i c identity conn ∈ s.log → OpenedFor identity conn) ∧
      ∀ i c, (s.procs i).session.server = some c →
        OpenedFor (s.procs i).session.identity (s.conns c) := by
  have hholds : identityInv.Holds s := by
    refine LocalInv.Holds.run ?_ ?_ identity_init hroutes hrun
    · intro s i _ _ hs hallowed houtcome
      exact identity_keeps hs hallowed houtcome
    · intro _ c _ _ conn hs _ _ hrecycled
      exact (hs.conn c).carried hrecycled.carried
  constructor
  · intro i c _ _ hhanded
    exact hholds.log _ hhanded
  · intro i c hserver
    obtain ⟨hpool, hready⟩ := hholds.held i c hserver
    rw [← hpool]
    exact (hholds.conn c).openedFor hready

def aliceStartup : Bytes :=
  startupPacket (putU32 196608) [(ascii "user", ascii "alice"), (ascii "database", ascii "app")]

def aliceConnects (routes : Config.Databases) : List Action :=
  [.act 0 (.connect ⟨aliceStartup, routes, true⟩),
    .act 0 (.handshake ⟨some (ascii "db", .dial), true, true⟩)]

theorem routed_connection_opened_for_alice :
    ∃ s, run (step (Config.initial id false)) .init
        (aliceConnects [⟨ascii "app", ascii "prod", 0⟩]) = some s ∧
      (s.procs 0).session.server = some 0 ∧ OpenedFor (s.procs 0).session.identity (s.conns 0) := by
  have hroutes : Along (step (Config.initial id false))
      (fun _ a => routesToName (Config.initial id false) a = true) .init
      (aliceConnects [⟨ascii "app", ascii "prod", 0⟩]) := by decide +kernel
  obtain ⟨s, hrun, hserver⟩ := exists_run (show (run (step (Config.initial id false)) .init
    (aliceConnects [⟨ascii "app", ascii "prod", 0⟩])).any
      (fun s => (s.procs 0).session.server == some 0) = true by decide +kernel)
  have hserver := eq_of_beq hserver
  exact ⟨s, hrun, hserver, (connections_opened_for_their_session _ hroutes hrun).2 0 0 hserver⟩

def zeroByteRoute : Config.Databases :=
  [⟨ascii "app", ascii "prod" ++ 0 :: (ascii "user" ++ 0 :: ascii "admin"), 0⟩]

theorem zero_byte_route_opens_as_admin :
    ∃ s, run (step (Config.initial id false)) .init (aliceConnects zeroByteRoute) = some s ∧
      (s.procs 0).session.server = some 0 ∧
      (s.procs 0).session.identity.user = ascii "alice" ∧
      (s.conns 0).wire.startups.map (fun packet => (startupIdentity packet).user) =
        [ascii "admin"] ∧
      ∃ identity conn, Event.handed 0 0 identity conn ∈ s.log ∧ ¬OpenedFor identity conn := by
  obtain ⟨s, hrun, h⟩ := exists_run (show (run (step (Config.initial id false)) .init
    (aliceConnects zeroByteRoute)).any (fun s => (s.procs 0).session.server == some 0 &&
      (s.procs 0).session.identity.user == ascii "alice" &&
      (s.conns 0).wire.startups.map (fun packet => (startupIdentity packet).user) ==
        [ascii "admin"] &&
      decide (Event.handed 0 0 (s.procs 0).session.identity (s.conns 0) ∈ s.log) &&
      decide (¬OpenedFor (s.procs 0).session.identity (s.conns 0))) = true by decide +kernel)
  simp only [and_eq_true, beq_iff_eq, decide_eq_true_eq] at h
  obtain ⟨⟨⟨⟨hserver, huser⟩, hpackets⟩, hhanded⟩, hopened⟩ := h
  exact ⟨s, hrun, hserver, huser, hpackets, _, _, hhanded, hopened⟩

end Pontus.Proxy
