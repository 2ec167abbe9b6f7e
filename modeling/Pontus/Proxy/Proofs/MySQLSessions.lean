import Pontus.Proxy.Proofs.MySQLReplies

/-!
# Whose connection a MySQL session is given

Nothing in the handshake fills in the session's names, so every connection is
recorded as nobody's and the pools do not tell the users apart.  What keeps
users apart then is the backend: as long as each backend has one user and the
sessions ask the backends of their own, a session is handed connections of its
own user.
-/

namespace Pontus.Proxy.MySQL

open Lib Protocol Pool

def Handed.SameUser (h : Handed) : Prop :=
  ∃ own carried user, h.own = some own ∧ h.carried = some carried ∧
    own.user = some user ∧ carried.user = some user

section
variable (owner : Bytes → Bytes)

def dedicated (s : System) : Action → Bool
  | .act _ _ (.attempt (some (backend, _)) env) =>
    match handshake env with
    | .ok e => e.user == some (owner backend)
    | .error _ => true
  | .act i _ (.acquire (some (backend, _))) =>
    (s.sessions i).own.bind Exchange.user == some (owner backend)
  | _ => true

def Conn.Attributed (c : Conn) : Prop :=
  c.conn.ready = true → ∃ e, c.carried = some e ∧ e.user = some (owner c.pool.backend)

def Session.Attributed (p : Session) : Prop :=
  ∀ home, p.homeBackend = some home → ∃ e, p.own = some e ∧ e.user = some (owner home)

structure Attributed (s : System) : Prop where
  conns : ∀ c, (s.conns c).Attributed owner
  sessions : ∀ i, (s.sessions i).Attributed owner
  log : ∀ h ∈ s.log, h.SameUser

variable {owner} {s : System} {i : Nat}

theorem Conn.Attributed.record {c : Conn} (h : c.Attributed owner)
    (hf : ∀ conn, (f conn).ready = conn.ready) : (c.record f).Attributed owner := by
  intro hready
  exact h ((hf c.conn).symm.trans hready)

theorem Conn.Attributed.release {c : Conn} (h : c.Attributed owner) (draining : Bool) :
    (c.release draining).Attributed owner := by
  intro hready
  apply h
  cases draining with
  | false => exact hready
  | true => exact hready

theorem Attributed.take (hs : Attributed owner s) (h : s.take i key source = some (c, conn)) :
    conn.Attributed owner ∧ conn.pool = key := by
  cases source with
  | dial =>
    cases h
    refine ⟨?_, rfl⟩
    nofun
  | pooled =>
    rw [System.take, ite_none_right_eq_some] at h
    obtain ⟨⟨hpool, -⟩, h⟩ := h
    cases h
    exact ⟨hs.conns _, hpool⟩

structure Change.Keeps (owner : Bytes → Bytes) (ch : Change) : Prop where
  session : ch.session.Attributed owner
  conn : ∀ c conn, ch.conn = some (c, conn) → conn.Attributed owner
  handed : ∀ h ∈ ch.handed, h.SameUser

theorem Attributed.setConn (hs : Attributed owner s) (h : conn.Attributed owner) (c : Nat) :
    Attributed owner (s.setConn c conn) := by
  refine ⟨?_, hs.sessions, hs.log⟩
  intro d
  by_cases hd : d = c
  · subst hd
    simpa [System.setConn] using h
  · simpa [System.setConn, hd] using hs.conns d

theorem Attributed.apply (hs : Attributed owner s) (h : ch.Keeps owner) :
    Attributed owner (s.apply i ch) := by
  have hmoved (t : System) (ht : Attributed owner t) : Attributed owner
      { t with
        sessions := Function.update t.sessions i ch.session
        log := ch.handed ++ t.log } := by
    refine ⟨ht.conns, ?_, List.forall_mem_append.2 ⟨h.handed, ht.log⟩⟩
    intro j
    by_cases hj : j = i
    · subst hj
      simpa using h.session
    · simpa [hj] using ht.sessions j
  unfold System.apply
  split
  · rename_i c conn hsome
    exact hmoved _ (hs.setConn (h.conn c conn hsome) c)
  · exact hmoved s hs

section
variable {credentials draining : Bool} {p p' : Session} {ch : Change} {c : Nat} {conn : Conn}

theorem keeps_session (hp : p.Attributed owner)
    (hsame : (p'.homeBackend, p'.own) = (p.homeBackend, p.own)) :
    ({ session := p' } : Change).Keeps owner := by
  obtain ⟨hhome, hown⟩ := (Prod.mk.injEq _ _ _ _).mp hsame
  refine ⟨?_, fun _ _ h => (nomatch h), fun _ h => (nomatch h)⟩
  rw [Session.Attributed, hhome, hown]
  exact hp

theorem keeps_conn (hp : p.Attributed owner) (hconn : conn.Attributed owner)
    (hsame : (p'.homeBackend, p'.own) = (p.homeBackend, p.own)) :
    ({ session := p', conn := some (c, conn) } : Change).Keeps owner := by
  refine ⟨(keeps_session hp hsame).session, ?_, fun _ h => (nomatch h)⟩
  rintro _ _ ⟨⟩
  exact hconn

theorem keeps_obtained (hp : p.Attributed owner) (hconn : conn.Attributed owner)
    (hready : conn.conn.ready)
    (hown : p.own.bind Exchange.user = some (owner conn.pool.backend)) :
    (obtained p backend c conn).Keeps owner := by
  obtain ⟨carried, hcarried, huser⟩ := hconn hready
  obtain ⟨own, hsome, hname⟩ := bind_eq_some_iff.1 hown
  refine ⟨hp, ?_, ?_⟩
  · rintro _ _ ⟨⟩
    exact hconn
  · rintro _ (_ | ⟨_, ⟨⟩⟩)
    exact ⟨own, carried, _, hsome, hcarried, hname, huser⟩

variable (hs : Attributed owner s) (hp : p.Attributed owner)
include hs hp

theorem keeps_attempt {picked : Option (Bytes × Source)} {env : HandshakeEnv}
    (hallowed : ∀ backend source e, picked = some (backend, source) → handshake env = .ok e →
      e.user = some (owner backend))
    (h : attempt credentials draining s i p picked env = some ch) : ch.Keeps owner := by
  unfold attempt at h
  split at h
  · cases h
    exact keeps_session hp rfl
  · rename_i backend source _
    obtain ⟨⟨_, conn⟩, htake, rfl⟩ := map_eq_some_iff.1 h
    obtain ⟨hconn, hpool⟩ := hs.take htake
    dsimp only
    split
    · refine keeps_conn hp ((hconn.record ?_).release draining) ?_
      · exact fun _ => rfl
      · split <;> rfl
    · split
      · exact keeps_conn hp (hconn.release draining) rfl
      · rename_i e hexchange
        have huser := hallowed backend source e rfl hexchange
        have hstarted : ({ conn.record (·.markReady.setIdentity p.identity) with
            carried := some e } : Conn).Attributed owner := by
          intro _
          exact ⟨e, rfl, huser.trans (congrArg (fun key => some (owner key.backend)) hpool.symm)⟩
        have hopened (held : Option Bytes) (server : Option Nat) : Session.Attributed owner
            ⟨p.identity, .waiting, held, server, some backend, some e⟩ := by
          rintro _ ⟨⟩
          exact ⟨e, rfl, huser⟩
        split
        · exact keeps_conn (hopened _ _) ((hstarted.record (f := .markDirty) fun _ => rfl).release
            draining) rfl
        · exact keeps_conn (hopened _ _) hstarted rfl
  · cases h

theorem keeps_request {refused : Bool} (h : request draining s p refused = some ch) :
    ch.Keeps owner := by
  unfold request at h
  split at h
  · cases h
    refine keeps_session hp ?_
    split <;> rfl
  · split at h
    · cases h
      exact keeps_conn hp ((hs.conns _).release draining) rfl
    · cases h
      exact keeps_session hp rfl
  · cases h

theorem keeps_acquire {picked : Option (Bytes × Source)}
    (hallowed : ∀ backend source, picked = some (backend, source) →
      p.own.bind Exchange.user = some (owner backend))
    (h : acquire draining s i p picked = some ch) : ch.Keeps owner := by
  unfold acquire at h
  split at h
  · cases h
    exact keeps_session hp rfl
  · obtain ⟨⟨_, _⟩, htake, rfl⟩ := map_eq_some_iff.1 h
    obtain ⟨hconn, hpool⟩ := hs.take htake
    dsimp only
    split
    · rename_i hready
      refine keeps_obtained hp hconn (and_eq_true_iff.1 hready).1 ?_
      rw [hpool]
      exact hallowed _ _ rfl
    · exact keeps_conn hp (hconn.release draining) rfl
  · cases h

theorem keeps_acquireHome {source : Option Source}
    (h : acquireHome draining s i p source = some ch) : ch.Keeps owner := by
  unfold acquireHome at h
  split at h
  · rename_i home source _ hhome
    obtain ⟨⟨_, _⟩, htake, rfl⟩ := map_eq_some_iff.1 h
    obtain ⟨hconn, hpool⟩ := hs.take htake
    dsimp only
    split
    · exact keeps_conn hp (hconn.release draining) rfl
    · rename_i hready
      refine keeps_obtained hp hconn (by simp at hready; exact hready.1) ?_
      obtain ⟨_, hown, huser⟩ := hp home hhome
      rw [hown, hpool]
      exact huser
  · cases h
    exact keeps_session hp rfl
  · cases h

theorem keeps_serve {env : ServeEnv} (h : serve credentials draining s p env = some ch) :
    ch.Keeps owner := by
  unfold serve at h
  split at h
  · rename_i c _ _
    have hconn := hs.conns c
    split at h
    · cases h
      exact keeps_conn hp ((hconn.record (f := .markBroken) fun _ => rfl).release draining) rfl
    · obtain ⟨_, -, rfl⟩ := map_eq_some_iff.1 h
      have hread := hconn.record (f := fun conn =>
        if env.passes.any (·.readError.isSome) then conn.markBroken else conn)
        (by intro _; split <;> rfl)
      dsimp only
      split
      · exact keeps_conn hp (hread.release draining) rfl
      · split
        · refine keeps_conn hp ?_ rfl
          split
          · exact (hread.record (f := .markDirty) fun _ => rfl).release draining
          · exact hread.release draining
        · exact keeps_conn hp hread rfl
  · cases h

theorem keeps_leave (h : leave draining s p = some ch) : ch.Keeps owner := by
  unfold leave at h
  split at h
  · cases h
    exact keeps_conn hp (((hs.conns _).record (f := .markDirty) fun _ => rfl).release draining) rfl
  · cases h
    exact keeps_session hp rfl
  · cases h

end

theorem keeps_change (hs : Attributed owner s) (hallowed : dedicated owner s (.act i draining a))
    (h : change credentials draining s i a = some ch) : ch.Keeps owner := by
  have hp := hs.sessions i
  cases a with
  | attempt =>
    refine keeps_attempt hs hp ?_ h
    rintro backend source _ rfl hexchange
    rw [dedicated, hexchange] at hallowed
    exact eq_of_beq hallowed
  | request => exact keeps_request hs hp h
  | acquire =>
    refine keeps_acquire hs hp ?_ h
    rintro _ _ rfl
    exact eq_of_beq hallowed
  | acquireHome => exact keeps_acquireHome hs hp h
  | serve => exact keeps_serve hs hp h
  | leave => exact keeps_leave hs hp h

theorem attributed_step (hs : Attributed owner s) (hallowed : dedicated owner s a)
    (h : step credentials s a = some s') : Attributed owner s' := by
  cases a with
  | act =>
    obtain ⟨_, hch, rfl⟩ := map_eq_some_iff.1 h
    exact hs.apply (keeps_change hs hallowed hch)
  | recycle c =>
    rw [step, ite_none_right_eq_some] at h
    obtain ⟨-, h⟩ := h
    cases h
    apply hs.setConn
    split <;> exact hs.conns c

theorem attributed_init : Attributed owner .init := by
  refine ⟨?_, ?_, fun _ h => (nomatch h)⟩
  · nofun
  · nofun

/-- **A MySQL session is handed connections of its own user**, whatever the
interleaving, when each backend has one user and the sessions ask the backends
of their own. -/
theorem sessions_keep_to_their_user (credentials : Bool) (owner : Bytes → Bytes)
    {actions : List Action} {s : System}
    (hdedicated : Along (step credentials) (fun s a => dedicated owner s a = true) .init actions)
    (hrun : run (step credentials) .init actions = some s) : ∀ h ∈ s.log, h.SameUser :=
  (run_invariant (fun _ _ _ => attributed_step) attributed_init hdedicated hrun).log

def welcomes (user : Bytes) : HandshakeEnv where
  greeting := ⟨.ok [1, 0, 0, 0, 10], none⟩
  response := ⟨.ok ([36, 0, 0, 1] ++ List.replicate 32 0 ++ user ++ [0]), none⟩
  result := ⟨.ok [7, 0, 0, 2, 0, 0, 0, 2, 0, 0, 0], none⟩

def opens (i : Nat) (user backend : Bytes) : Action :=
  .act i false (.attempt (some (backend, .dial)) (welcomes user))

def queries (i : Nat) : List Action :=
  [.act i false (.request false),
    .act i false (.serve ⟨false, none, none, none, false, [], [.undisturbed forgedReply.encode]⟩)]

def acquires (i c : Nat) (backend : Bytes) : List Action :=
  [.act i false (.request false), .act i false (.acquire (some (backend, .pooled c)))]

def handedOver : List Action :=
  [opens 0 (ascii "alice") (ascii "db"), opens 1 (ascii "bob") (ascii "db")] ++
    queries 0 ++ queries 1 ++ acquires 1 0 (ascii "db")

theorem bob_is_handed_alice :
    ∃ s, run (step false) .init handedOver = some s ∧
      s.log.map (fun h => (h.own.bind Exchange.user, h.carried.bind Exchange.user)) =
        [(some (ascii "bob"), some (ascii "alice"))] ∧ ¬∀ h ∈ s.log, h.SameUser := by
  obtain ⟨s, hrun, h⟩ := exists_run (show (run (step false) .init
    handedOver).any (fun s =>
      s.log.map (fun h => (h.own.bind Exchange.user, h.carried.bind Exchange.user)) ==
        [(some (ascii "bob"), some (ascii "alice"))]) = true by decide +kernel)
  have hlog := eq_of_beq h
  refine ⟨s, hrun, hlog, ?_⟩
  intro hall
  obtain ⟨handed, hsingle, husers⟩ := List.map_eq_singleton_iff.1 hlog
  obtain ⟨_, _, _, hown, hcarried, huser, huser'⟩ := hall handed (by simp [hsingle])
  rw [hown, hcarried, bind_some, bind_some, huser, huser'] at husers
  cases husers

def ownBackend (user : Bytes) : Bytes := ascii "db-" ++ user

/-- Alice has a backend and a session, bob another with two sessions, the second
of which is handed what the first gave back. -/
def handedAmongOwn : List Action :=
  [opens 0 (ascii "alice") (ownBackend (ascii "alice")),
    opens 1 (ascii "bob") (ownBackend (ascii "bob")),
    opens 2 (ascii "bob") (ownBackend (ascii "bob"))] ++
    queries 0 ++ queries 1 ++ queries 2 ++ acquires 2 1 (ownBackend (ascii "bob")) ++
    acquires 0 0 (ownBackend (ascii "alice"))

theorem own_backends_keep_users_apart :
    ∃ s, run (step false) .init handedAmongOwn = some s ∧
      s.log.map (fun h => h.carried.bind Exchange.user) =
        [some (ascii "alice"), some (ascii "bob")] ∧ ∀ h ∈ s.log, h.SameUser := by
  obtain ⟨hdedicated, s, hrun, h⟩ := exists_allowed_run (show
    Along (step false) (fun s a => dedicated (List.drop 3) s a = true) .init handedAmongOwn ∧
      (run (step false) .init handedAmongOwn).any (fun s =>
        s.log.map (fun h => h.carried.bind Exchange.user) ==
          [some (ascii "alice"), some (ascii "bob")]) = true by decide +kernel)
  exact ⟨s, hrun, eq_of_beq h, sessions_keep_to_their_user false _ hdedicated hrun⟩

end

end Pontus.Proxy.MySQL
