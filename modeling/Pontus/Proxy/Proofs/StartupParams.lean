import Pontus.Proxy.Proofs.CacheKey
import Pontus.Proxy.Proofs.Identity

/-!
# Whose run-time parameters are in force

A connection is started with a packet of one session, or with one that sets
nothing, and carries every session of the same user and database after that.
So a session finds its own parameters in force where all sessions of a user and
a database ask for the same ones, and with a credential store only where they
ask for none.  The key a reply is shared under names the user and the database;
where these settle the parameters, it tells sessions with different ones apart.
-/

namespace Pontus.Proxy

open Lib Protocol Pool
open List (forall_mem_singleton)

/-- Clients of one user and database ask for the same parameters, with a
credential store for none. -/
def Opened.sharesParams (cfg : Config) (r : Opened) (a : Action) : Bool :=
  routesToName cfg a && (a.opening cfg).all fun o =>
    if cfg.credentials then (runtimeNames o.packet).isEmpty
    else r.openings.all fun o' => o'.identity ≠ o.identity || SameParams o'.packet o.packet

/-! ## Keys -/

theorem identity_of_cacheKeyText (hsized : session.Sized) (hsized' : session'.Sized)
    (h : cacheKeyText session = cacheKeyText session') : session.identity = session'.identity := by
  unfold cacheKeyText at h
  simp only [append_assoc] at h
  obtain ⟨-, h⟩ := keyPart_append_inj hsized.backend hsized'.backend h
  obtain ⟨hdatabase, h⟩ := keyPart_append_inj hsized.database hsized'.database h
  obtain ⟨huser, -⟩ := keyPart_append_inj hsized.user hsized'.user h
  unfold Session.identity
  rw [huser, hdatabase]

/-! ## Clients -/

theorem resolveDatabase_sameParams (hroute : (0 : UInt8) ∉ (routes.resolve req.database).database)
    (h : resolveDatabase routes req = some req') : SameParams req'.raw req.raw := by
  unfold resolveDatabase at h
  split at h
  · cases h
    exact .refl _
  · dsimp only at h
    split at h
    · cases h
      exact .refl _
    · obtain ⟨_, hraw, rfl⟩ := map_eq_some_iff.1 h
      exact sameParams_rewrite hroute hraw

structure Proc.OpenedAs (p : Proc) (o : Opening) : Prop where
  identity : p.session.identity = o.identity
  params : ∀ req left, p.phase = .opening req left → SameParams req.raw o.packet
  named : p.phase ≠ .fresh

theorem Proc.OpenedAs.of_sameSession {p p' : Proc} (h : p.OpenedAs o) (hsame : p.SameSession p') :
    p'.OpenedAs o := by
  refine ⟨hsame.identity.trans h.identity, ?_, hsame.fresh⟩
  intro req left hopening
  obtain ⟨left', hbefore⟩ := hsame.opening req left hopening
  exact h.params req left' hbefore

def Phase.idle (phase : Phase) : Prop := phase = .fresh ∨ phase = .closed

section
variable {cfg : Config} {s : System} {i : Nat} {a : Act} {ch : Change}

theorem opening_of_connect (hroutes : routesToName cfg (.act i (.connect env)))
    (h : change cfg s i (.connect env) = some ch) :
    (∃ o, Action.opening cfg (.act i (.connect env)) = some o ∧ o.session = i ∧
      (s.procs i).phase = .fresh ∧ ch.proc.OpenedAs o) ∨
    Action.opening cfg (.act i (.connect env)) = none ∧ ch.proc = (s.procs i).close := by
  simp only [change, connect] at h
  split at h
  · cases h
  · rename_i hcondition
    rw [not_or, not_not] at hcondition
    unfold Action.opening
    dsimp only
    split at h
    · rename_i hnone
      cases h
      rw [hnone, Option.map_none, ite_self]
      exact .inr ⟨rfl, rfl⟩
    · rename_i req hrequest
      split at h
      · rename_i href
        cases h
        rw [if_neg (by simpa using href)]
        exact .inr ⟨rfl, rfl⟩
      · rename_i haccepted
        cases h
        obtain ⟨read, hread, hresolved⟩ := bind_eq_some_iff.1 hrequest
        have hroute : (0 : UInt8) ∉ (env.routes.resolve read.database).database := by
          simp only [routesToName, hread, all_some, not_eq_true',
            List.contains_eq_mem, decide_eq_false_iff_not] at hroutes
          exact hroutes
        have hsame := resolveDatabase_sameParams hroute hresolved
        rw [(readStartup_faithful hread).2] at hsame
        rw [if_pos (by simpa using haccepted), hrequest, map_some]
        refine .inl ⟨_, rfl, rfl, hcondition.1, rfl, ?_, by rintro ⟨⟩⟩
        rintro _ _ ⟨⟩
        exact hsame

/-- A move lets in a client whose session was nobody's, or goes on with the
session there is. -/
theorem opening_cases (hroutes : routesToName cfg (.act i a))
    (hch : change cfg s i a = some ch) (hturn : Turn cfg s i a ch) :
    (∃ o, Action.opening cfg (.act i a) = some o ∧ o.session = i ∧ (s.procs i).phase = .fresh ∧
      ch.proc.OpenedAs o) ∨
    Action.opening cfg (.act i a) = none ∧ (s.procs i).SameSession ch.proc ∧
      ((s.procs i).phase.idle → ch.proc.phase.idle) := by
  by_cases hconn : ∃ env, a = .connect env
  · obtain ⟨env, rfl⟩ := hconn
    rcases opening_of_connect hroutes hch with hopened | ⟨hnone, hproc⟩
    · exact .inl hopened
    · rw [hproc]
      exact .inr ⟨hnone, .of_started rfl rfl, fun _ => .inr rfl⟩
  · refine .inr ⟨?_, ?_, ?_⟩
    · unfold Action.opening
      split
      · rename_i env haction
        cases haction
        exact absurd ⟨env, rfl⟩ hconn
      · rfl
    · rcases hturn.client with ⟨env, _, _, haction, -⟩ | hsame
      · exact absurd ⟨env, haction⟩ hconn
      · exact hsame
    · rintro (hfresh | hclosed)
      · exact absurd (change_fresh hfresh hch) hconn
      · rw [change_closed hclosed] at hch
        cases hch

end

/-! ## The invariant -/

/-- Clients that ask for the same things where it matters, and connections
started with what clients of their pool ask for. -/
structure ParamsInv (cfg : Config) (r : Opened) : Prop where
  identity : identityInv.Holds r.sys
  opened : ∀ o ∈ r.openings, (r.sys.procs o.session).OpenedAs o
  named : ∀ i, ¬(r.sys.procs i).phase.idle → ∃ o ∈ r.openings, o.session = i
  plain : cfg.credentials = true → ∀ o ∈ r.openings, runtimeNames o.packet = []
  agree : ∀ o ∈ r.openings, ∀ o' ∈ r.openings, o.identity = o'.identity →
    SameParams o.packet o'.packet
  conn : ∀ c, ∀ packet ∈ (r.sys.conns c).wire.startups, ∃ o ∈ r.openings,
    o.identity = (r.sys.conns c).pool.identity ∧ SameParams packet o.packet

theorem paramsInv_init (cfg : Config) : ParamsInv cfg .init where
  identity := identity_init
  opened := forall_mem_nil _
  named := fun _ h => absurd (.inl rfl) h
  plain := fun _ => forall_mem_nil _
  agree := forall_mem_nil _
  conn := fun _ => forall_mem_nil _

namespace ParamsInv

variable {cfg : Config} {r : Opened} {i : Nat} {a : Act} {ch : Change}

variable (hr : ParamsInv cfg r)
include hr

theorem startupPacket (ho : o ∈ r.openings)
    (h : a.startupPacket cfg (r.sys.procs o.session) = some packet) :
    SameParams packet o.packet := by
  have hnamed := hr.identity.proc o.session
  cases a with
  | handshake =>
    simp only [Act.startupPacket] at h
    split at h
    · rename_i req left hphase
      obtain ⟨huser, hdatabase⟩ := (Identity.mk.injEq _ _ _ _).mp (hnamed.opening req left hphase).2
      cases h
      split
      · rename_i hcredentials
        rw [huser, hdatabase]
        exact sameParams_of_nil (runtimeNames_writeStartup hnamed.user hnamed.database)
          (hr.plain hcredentials o ho)
      · exact (hr.opened o ho).params req left hphase
    · cases h
  | acquire =>
    rw [Act.startupPacket, ite_none_right_eq_some] at h
    obtain ⟨hcredentials, hpacket⟩ := h
    rw [← Option.some.inj hpacket]
    exact sameParams_of_nil (runtimeNames_writeStartup hnamed.user hnamed.database)
      (hr.plain hcredentials o ho)
  | _ => cases h

theorem touched (hch : change cfg r.sys i a = some ch) {conn : PoolConn}
    (h : Touched cfg r.sys i a c conn) (hpacket : packet ∈ conn.wire.startups) :
    ∃ o ∈ r.openings, o.identity = conn.pool.identity ∧ SameParams packet o.packet := by
  cases h with
  | own _ _ hcarried =>
    rw [hcarried.startups] at hpacket
    rw [hcarried.pool]
    exact hr.conn c packet hpacket
  | @taken _ _ before _ htaken hreadied =>
    have hbefore : packet ∈ before.wire.startups →
        ∃ o ∈ r.openings, o.identity = before.pool.identity ∧ SameParams packet o.packet := by
      intro hpacket
      cases htaken with
      | dial => cases hpacket
      | pooled => exact hr.conn c packet hpacket
    rw [hreadied.pool]
    rcases hreadied.startup with ⟨hstartups, -⟩ | ⟨_, hwritten, hstartups, -⟩
    · rw [hstartups] at hpacket
      exact hbefore hpacket
    · rw [hstartups] at hpacket
      rcases mem_cons.1 hpacket with rfl | hpacket
      · have hlive : ¬(r.sys.procs i).phase.idle := by
          rintro (hfresh | hclosed)
          · obtain ⟨_, rfl⟩ := change_fresh hfresh hch
            cases hwritten
          · rw [change_closed hclosed] at hch
            cases hch
        obtain ⟨o, ho, rfl⟩ := hr.named i hlive
        refine ⟨o, ho, ?_, hr.startupPacket ho hwritten⟩
        rw [htaken.pool]
        exact (hr.opened o ho).identity.symm
      · exact hbefore hpacket

/-- A client that is let in asks for what the others of its user and database
ask for. -/
theorem agrees {b : Action} {o : Opening} (hshares : r.sharesParams cfg b)
    (hopening : b.opening cfg = some o) :
    (cfg.credentials → runtimeNames o.packet = []) ∧
      ∀ o' ∈ r.openings, o'.identity = o.identity → SameParams o'.packet o.packet := by
  unfold Opened.sharesParams at hshares
  rw [hopening, all_some, and_eq_true] at hshares
  obtain ⟨-, hshares⟩ := hshares
  split at hshares
  · rename_i hcredentials
    have hnone := List.isEmpty_iff.1 hshares
    refine ⟨fun _ => hnone, ?_⟩
    intro o' ho' _
    exact sameParams_of_nil (hr.plain hcredentials o' ho') hnone
  · rename_i hpassthrough
    refine ⟨fun hcredentials => absurd hcredentials hpassthrough, ?_⟩
    intro o' ho' hsame
    have hshared := all_eq_true.1 hshares o' ho'
    simpa [hsame] using hshared

theorem act (hshares : r.sharesParams cfg (.act i a)) (hch : change cfg r.sys i a = some ch)
    (hid : identityInv.Holds (r.sys.apply i ch)) :
    ParamsInv cfg ⟨r.sys.apply i ch, (Action.opening cfg (.act i a)).toList ++ r.openings⟩ := by
  have hroutes := (and_eq_true_iff.1 hshares).1
  have hturn := turn_of_outcome hr.identity.owned (outcome_of_change hch)
  have hothers : ∀ j, j ≠ i → (r.sys.apply i ch).procs j = r.sys.procs j := by
    intro j hj
    rw [System.apply_procs, update_of_ne hj]
  have hself : (r.sys.apply i ch).procs i = ch.proc := by
    rw [System.apply_procs, update_self]
  have hconn : ∀ c, ∀ packet ∈ ((r.sys.apply i ch).conns c).wire.startups, ∃ o ∈ r.openings,
      o.identity = ((r.sys.apply i ch).conns c).pool.identity ∧ SameParams packet o.packet := by
    intro c packet hpacket
    cases hconn : ch.conn with
    | none =>
      rw [System.apply_conns_none _ _ _ hconn] at hpacket ⊢
      exact hr.conn c packet hpacket
    | some touched =>
      obtain ⟨d, _⟩ := touched
      rw [System.apply_conns_some _ _ _ hconn] at hpacket ⊢
      by_cases hc : c = d
      · subst hc
        rw [update_self] at hpacket ⊢
        exact hr.touched hch (hturn.touched hconn) hpacket
      · rw [update_of_ne hc] at hpacket ⊢
        exact hr.conn c packet hpacket
  rcases opening_cases hroutes hch hturn with
    ⟨o, hopening, hsession, hfresh, hopened⟩ | ⟨hnone, hsame, hidle⟩
  · obtain ⟨hplain, hagree⟩ := hr.agrees hshares hopening
    rw [hopening, Option.toList_some, singleton_append]
    refine ⟨hid, ?_, ?_, ?_, ?_, ?_⟩
    · refine forall_mem_cons.2 ⟨?_, ?_⟩
      · rw [hsession, hself]
        exact hopened
      · intro o' ho'
        have hbefore := hr.opened o' ho'
        rw [hothers]
        · exact hbefore
        · intro hi
          rw [hi] at hbefore
          exact hbefore.named hfresh
    · intro j hj
      by_cases hji : j = i
      · exact ⟨o, mem_cons_self, hsession.trans hji.symm⟩
      · rw [hothers j hji] at hj
        obtain ⟨o', ho', rfl⟩ := hr.named j hj
        exact ⟨o', mem_cons_of_mem _ ho', rfl⟩
    · intro hcredentials
      exact forall_mem_cons.2 ⟨hplain hcredentials, hr.plain hcredentials⟩
    · refine forall_mem_cons.2 ⟨forall_mem_cons.2 ⟨fun _ => .refl _, ?_⟩, ?_⟩
      · intro o' ho' hsame
        exact (hagree o' ho' hsame.symm).symm
      · intro o' ho'
        exact forall_mem_cons.2 ⟨hagree o' ho', hr.agree o' ho'⟩
    · intro c packet hpacket
      obtain ⟨o', ho', hpool⟩ := hconn c packet hpacket
      exact ⟨o', mem_cons_of_mem _ ho', hpool⟩
  · rw [hnone, Option.toList_none, nil_append]
    refine ⟨hid, ?_, ?_, hr.plain, hr.agree, hconn⟩
    · intro o ho
      by_cases hi : o.session = i
      · have hbefore := hr.opened o ho
        rw [hi] at hbefore ⊢
        rw [hself]
        exact hbefore.of_sameSession hsame
      · rw [hothers _ hi]
        exact hr.opened o ho
    · intro j hj
      apply hr.named
      by_cases hji : j = i
      · subst hji
        rw [hself] at hj
        exact fun h => hj (hidle h)
      · rw [hothers j hji] at hj
        exact hj

theorem step (hshares : r.sharesParams cfg b) (h : r.step cfg b = some r') : ParamsInv cfg r' := by
  obtain ⟨sys, hsystem, rfl⟩ := map_eq_some_iff.1 h
  have hroutes := (and_eq_true_iff.1 hshares).1
  have hid : identityInv.Holds sys := by
    refine hr.identity.of_step ?_ ?_ hsystem
    · rintro _ _ ch rfl hout
      exact identity_keeps hr.identity hroutes hout
    · rintro c _ _ _ rfl - hrecycled
      exact (hr.identity.conn c).carried hrecycled.carried
  cases b with
  | act =>
    obtain ⟨_, hch, rfl⟩ := map_eq_some_iff.1 hsystem
    exact hr.act hshares hch hid
  | recycle c =>
    cases moved_of_step hsystem with
    | reset _ _ hrecycled =>
      refine ⟨hid, hr.opened, hr.named, hr.plain, hr.agree, ?_⟩
      intro d packet
      dsimp only [System.setConn]
      by_cases hd : d = c
      · subst hd
        rw [update_self, hrecycled.carried.startups, hrecycled.carried.pool]
        exact hr.conn d packet
      · rw [update_of_ne hd]
        exact hr.conn d packet
  | drain =>
    cases moved_of_step hsystem with
    | drained => exact ⟨hid, hr.opened, hr.named, hr.plain, hr.agree, hr.conn⟩

theorem run (hshares : Along (Opened.step cfg) (fun r b => r.sharesParams cfg b = true) r actions)
    (hrun : Pontus.Lib.run (Opened.step cfg) r actions = some r') : ParamsInv cfg r' := by
  apply run_invariant _ hr hshares hrun
  intro _ _ _ hu hb hstep
  exact hu.step hb hstep

end ParamsInv

/-! ## The runs -/

def Opening.knownTo (o : Opening) (r : Opened) : Prop := o ∈ r.openings

theorem Opening.knownTo.run {o : Opening} (ho : o.knownTo r)
    (hrun : Pontus.Lib.run (Opened.step cfg) r actions = some r') : o.knownTo r' := by
  apply run_invariant _ ho (along_of_forall fun _ _ => trivial) hrun
  intro _ _ _ hu _ hstep
  obtain ⟨_, -, rfl⟩ := map_eq_some_iff.1 hstep
  exact mem_append_right _ hu

instance (packet : Bytes) (conn : PoolConn) : Decidable (InForceOn packet conn) :=
  inferInstanceAs (Decidable (conn.wire.startups ≠ [] ∧
    ∀ started ∈ conn.wire.startups, SameParams started packet))

/-- **A session's run-time parameters are in force wherever it runs a
statement**, and sessions with different ones never meet under one key, where
the user and the database settle the parameters. -/
theorem startup_params_in_force (cfg : Config) (hhash : Function.Injective cfg.hash)
    {actions later : List Action} {r r' : Opened}
    (hshares : Along (Opened.step cfg) (fun r b => r.sharesParams cfg b = true) .init
      (actions ++ later))
    (hrun : run (Opened.step cfg) .init actions = some r)
    (hlater : run (Opened.step cfg) r later = some r') :
    (∀ o ∈ r.openings, ∀ a ch c data, change cfg r.sys o.session a = some ch →
      Event.wrote o.session c data ∈ ch.events → InForceOn o.packet (r.sys.conns c)) ∧
    ∀ o ∈ r.openings, ∀ o' ∈ r'.openings, ¬SameParams o.packet o'.packet →
      (r.sys.procs o.session).session.Sized → (r'.sys.procs o'.session).session.Sized →
      cacheKey cfg.hash (r.sys.procs o.session).session ≠
        cacheKey cfg.hash (r'.sys.procs o'.session).session := by
  have hr := (paramsInv_init cfg).run hshares.front hrun
  have hr' := hr.run (hshares.behind hrun) hlater
  constructor
  · intro o ho _ _ c _ hch hwrote
    have hturn := turn_of_outcome hr.identity.owned (outcome_of_change hch)
    obtain ⟨-, hserver, -⟩ := hturn.wrote hwrote
    obtain ⟨hpool, hready⟩ := hr.identity.held o.session c hserver
    refine ⟨(hr.identity.conn c).started hready, ?_⟩
    intro started hstarted
    obtain ⟨o', ho', hidentity, hsame⟩ := hr.conn c started hstarted
    refine hsame.trans (hr.agree o' ho' o ho ?_)
    rw [hidentity, hpool]
    exact (hr.opened o ho).identity
  · intro o ho o' ho' hdiffer hsized hsized' hkeys
    have hidentity := identity_of_cacheKeyText hsized hsized' (hhash hkeys)
    rw [(hr.opened o ho).identity, (hr'.opened o' ho').identity] at hidentity
    exact hdiffer (hr'.agree o (Opening.knownTo.run ho hlater) o' ho' hidentity)

def pathStartup (name path : Bytes) : Bytes :=
  startupPacket (putU32 196608)
    [(ascii "user", name), (ascii "database", name), (ascii "search_path", path)]

def pathOpening (i : Nat) (name path : Bytes) : Opening := ⟨i, ⟨name, name⟩, pathStartup name path⟩

def readsTable : Bytes := simpleQuery (ascii "SELECT x FROM t")

/-- Two clients of app are connected, each on a connection of its own, and ask
the same question. -/
def bothAsk (path path' : Bytes) : List Action :=
  opens 0 (pathStartup (ascii "app") path) (ascii "db") .dial ++
  opens 1 (pathStartup (ascii "app") path') (ascii "db") .dial ++
  [.act 0 (.receive [⟨readsTable, none⟩]), .act 1 (.receive [⟨readsTable, none⟩])]

def secondAsksAgain : List Action :=
  let served (i : Nat) : List Action :=
    [.act i (.middleware ⟨false, false, none, false⟩), .act i .enter] ++
      serves i (.undisturbed (completed 'I'.toUInt8) 'I'.toUInt8)
  served 0 ++ served 1 ++ sends 1 readsTable ++ acquires 1 (ascii "db") (.pooled 0)

/-- With a credential store: the client's packet is answered by Pontus, and its
question is asked on a connection Pontus has started itself. -/
def asksThroughStore (path : Bytes) : List Action :=
  opens 0 (pathStartup (ascii "app") path) (ascii "db") .dial ++ resets 0 ++
    sends 0 readsTable ++ acquires 0 (ascii "db") (.pooled 0) ++
    serves 0 (.undisturbed (completed 'I'.toUInt8) 'I'.toUInt8)

theorem shared_path_in_force :
    ∃ r, run (Opened.step (.initial id false)) .init
        (bothAsk (ascii "a") (ascii "a") ++ secondAsksAgain ++
          opens 2 (pathStartup (ascii "eve") (ascii "b")) (ascii "db") .dial) = some r ∧
      (r.sys.procs 1).session.server = some 0 ∧
      InForceOn (pathStartup (ascii "app") (ascii "a")) (r.sys.conns 0) ∧
      cacheKey id (r.sys.procs 1).session ≠ cacheKey id (r.sys.procs 2).session := by
  have hboth : Along (Opened.step (.initial id false))
      (fun r b => r.sharesParams (.initial id false) b = true) .init
      (bothAsk (ascii "a") (ascii "a") ++ secondAsksAgain ++
        opens 2 (pathStartup (ascii "eve") (ascii "b")) (ascii "db") .dial ++ []) ∧
    (run (Opened.step (.initial id false)) .init
      (bothAsk (ascii "a") (ascii "a") ++ secondAsksAgain ++
        opens 2 (pathStartup (ascii "eve") (ascii "b")) (ascii "db") .dial)).any (fun r =>
      (r.sys.procs 1).session.server = some 0 ∧
      pathOpening 1 (ascii "app") (ascii "a") ∈ r.openings ∧
      pathOpening 2 (ascii "eve") (ascii "b") ∈ r.openings ∧
      (change (.initial id false) r.sys 1
        (.serve (.undisturbed (completed 'I'.toUInt8) 'I'.toUInt8))).any (fun ch =>
          Event.wrote 1 0 readsTable ∈ ch.events) = true ∧
      ∀ i ∈ [1, 2], ((r.sys.procs i).session.backend.getD []).length < 2 ^ 64 ∧
        (r.sys.procs i).session.state.database.length < 2 ^ 64 ∧
        (r.sys.procs i).session.state.user.length < 2 ^ 64) = true := by
    decide +kernel
  obtain ⟨hshares, hlast⟩ := hboth
  obtain ⟨r, hrun, hr⟩ := exists_run hlast
  obtain ⟨hserver, hone, htwo, hserves, hsized⟩ := of_decide_eq_true hr
  obtain ⟨ch, hch, hwrote⟩ := (Option.any_eq_true _ _).1 hserves
  obtain ⟨hforce, hkeys⟩ := startup_params_in_force _ Function.injective_id hshares hrun rfl
  have hsized₁ := hsized 1 (by decide)
  have hsized₂ := hsized 2 (by decide)
  have hdiffer : ¬SameParams (pathStartup (ascii "app") (ascii "a"))
      (pathStartup (ascii "eve") (ascii "b")) := by
    decide +kernel
  refine ⟨r, hrun, hserver, ?_, ?_⟩
  · exact hforce (pathOpening 1 _ _) hone _ ch 0 readsTable hch (of_decide_eq_true hwrote)
  · exact hkeys (pathOpening 1 _ _) hone (pathOpening 2 _ _) htwo hdiffer
      ⟨hsized₁.1, hsized₁.2.1, hsized₁.2.2⟩ ⟨hsized₂.1, hsized₂.2.1, hsized₂.2.2⟩

theorem startup_params_lost :
    (∃ r, run (Opened.step (.initial id true)) .init (asksThroughStore (ascii "a")) = some r ∧
      pathOpening 0 (ascii "app") (ascii "a") ∈ r.openings ∧
      Event.wrote 0 0 readsTable ∈ r.sys.log ∧
      Event.replayed 0 0 [] .stateIdle false ∈ r.sys.log ∧
      (r.sys.conns 0).wire.startups.map (paramValue · (ascii "search_path")) = [none]) ∧
    (∃ r, run (Opened.step (.initial id false)) .init (bothAsk (ascii "a") (ascii "b")) = some r ∧
      pathOpening 0 (ascii "app") (ascii "a") ∈ r.openings ∧
      pathOpening 1 (ascii "app") (ascii "b") ∈ r.openings ∧
      cacheKey id (r.sys.procs 0).session = cacheKey id (r.sys.procs 1).session) ∧
    ∃ r, run (Opened.step (.initial id false)) .init
        (bothAsk (ascii "a") (ascii "b") ++ secondAsksAgain ++
          serves 1 (.undisturbed (completed 'I'.toUInt8) 'I'.toUInt8)) = some r ∧
      pathOpening 1 (ascii "app") (ascii "b") ∈ r.openings ∧
      Event.wrote 1 0 readsTable ∈ r.sys.log ∧
      Event.replayed 1 0 [] .stateIdle false ∈ r.sys.log ∧
      (r.sys.conns 0).wire.startups.map (paramValue · (ascii "search_path")) =
        [some (ascii "a")] := by
  have hstore : (run (Opened.step (.initial id true)) .init (asksThroughStore (ascii "a"))).any
      (fun r => pathOpening 0 (ascii "app") (ascii "a") ∈ r.openings ∧
        Event.wrote 0 0 readsTable ∈ r.sys.log ∧
        Event.replayed 0 0 [] .stateIdle false ∈ r.sys.log ∧
        (r.sys.conns 0).wire.startups.map (paramValue · (ascii "search_path")) = [none]) =
          true := by
    decide +kernel
  have hboth : (run (Opened.step (.initial id false)) .init (bothAsk (ascii "a") (ascii "b"))).any
      (fun r => pathOpening 0 (ascii "app") (ascii "a") ∈ r.openings ∧
        pathOpening 1 (ascii "app") (ascii "b") ∈ r.openings ∧
        cacheKey id (r.sys.procs 0).session = cacheKey id (r.sys.procs 1).session) = true ∧
    (run (Opened.step (.initial id false)) .init
      (bothAsk (ascii "a") (ascii "b") ++ secondAsksAgain ++
        serves 1 (.undisturbed (completed 'I'.toUInt8) 'I'.toUInt8))).any (fun r =>
      pathOpening 1 (ascii "app") (ascii "b") ∈ r.openings ∧
      Event.wrote 1 0 readsTable ∈ r.sys.log ∧
      Event.replayed 1 0 [] .stateIdle false ∈ r.sys.log ∧
      (r.sys.conns 0).wire.startups.map (paramValue · (ascii "search_path")) =
        [some (ascii "a")]) = true := by
    decide +kernel
  obtain ⟨r₁, hrun₁, hr₁⟩ := exists_run hstore
  obtain ⟨r₂, hrun₂, hr₂⟩ := exists_run hboth.1
  obtain ⟨r₃, hrun₃, hr₃⟩ := exists_run hboth.2
  exact ⟨⟨r₁, hrun₁, of_decide_eq_true hr₁⟩, ⟨r₂, hrun₂, of_decide_eq_true hr₂⟩,
    r₃, hrun₃, of_decide_eq_true hr₃⟩

end Pontus.Proxy
