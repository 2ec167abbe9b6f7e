import Pontus.Management.Registry
import Pontus.Proxy.OpenSession

/-!
# Ceilings of single databases

A rule of the routing table caps the pools of the name it lists.  The name is
resolved when a session opens and its pool is kept under the result; the cap is
looked up under the result once more.  A rule that rewrites its name is not
found there.
-/

namespace Pontus.Management

open Pontus.Lib Pontus.Protocol Pontus.Pool Pontus.Config Pontus.Proxy Databases

structure CeilingReaches (routes : Databases) (name : Bytes) (id : Identity) (pool : CoreConfig) :
    Prop where
  maxConns : pool.maxConns ≤ (routes.resolve name).maxConns
  maxConnsLimit : pool.maxConnsLimit ≤ (routes.resolve name).maxConns
  own : ∀ d, routes.rule id.database = some d → 0 < d.maxConns → routes.rule name = some d

instance (routes : Databases) (name : Bytes) (id : Identity) (pool : CoreConfig) :
    Decidable (CeilingReaches routes name id pool) :=
  decidable_of_iff (pool.maxConns ≤ (routes.resolve name).maxConns ∧
      pool.maxConnsLimit ≤ (routes.resolve name).maxConns ∧
      ∀ d ∈ routes.rule id.database, 0 < d.maxConns → routes.rule name = some d)
    ⟨fun ⟨h, hlimit, hown⟩ => ⟨h, hlimit, hown⟩, fun h => ⟨h.1, h.2, h.3⟩⟩

theorem resolveDatabase_database (h : resolveDatabase routes req = some req') :
    req'.database = (routes.resolve req.database).database := by
  unfold resolveDatabase at h
  split at h
  · rename_i hnil
    cases h
    rw [hnil]
    rfl
  · dsimp only at h
    split at h
    · rename_i hsame
      cases h
      exact hsame.symm
    · rw [map_eq_some_iff] at h
      obtain ⟨_, -, rfl⟩ := h
      rfl

/-- A session that gets past its startup packet is kept under the database its
name stands for, by a table that can be served. -/
theorem connect_database {cfg : Proxy.Config} {env : ConnectEnv} {ch : Change}
    {asked : StartupRequest} (hconn : connect cfg p env = some ch)
    (hphase : ch.proc.phase = .opening req attempts)
    (hasked : readStartup cfg.unicode env.packet = some asked) :
    env.routes.validate cfg.unicode = none ∧
      ch.proc.session.identity.database = (env.routes.resolve asked.database).database := by
  unfold connect at hconn
  split at hconn
  · cases hconn
  rename_i hallowed
  rw [not_or, not_not, not_not] at hallowed
  refine ⟨hallowed.2, ?_⟩
  split at hconn
  · cases hconn
    cases hphase
  · rename_i req' hrequest
    rw [hasked, bind_some] at hrequest
    split at hconn
    · cases hconn
      cases hphase
    · cases hconn
      exact resolveDatabase_database hrequest

theorem createBackend_limits {r : Registry} {p : Server} (h : r.createBackend maxConns c = some p)
    (hrules : r.databases ≠ []) : p.databaseLimits = some r.databases.limit := by
  unfold Registry.createBackend at h
  dsimp only at h
  split at h
  · cases h
  · rw [if_neg hrules] at h
    cases h
    rfl

theorem resized_limits (p : Server) (resizes : List Int) :
    (resizes.foldl Server.setMaxConns p).databaseLimits = p.databaseLimits := by
  induction resizes generalizing p with
  | nil => rfl
  | cons n _ ih => exact ih (p.setMaxConns n)

theorem newPool_of_limit {p : Server} {id : Identity} (h : 0 < p.limitFor id.database) :
    (p.newPool id).maxConns ≤ p.limitFor id.database ∧
      (p.newPool id).maxConnsLimit ≤ p.limitFor id.database := by
  unfold Server.newPool
  rw [if_pos h]
  exact ⟨ceilingFor_le_limit h, ceilingFor_le_limit h⟩

theorem newPool_of_no_limit {p : Server} {id : Identity} (h : ¬0 < p.limitFor id.database) :
    p.newPool id = p.coreConfig := by
  unfold Server.newPool
  rw [if_neg h]

theorem limit_not_pos {routes : Databases} :
    ¬0 < routes.limit name ↔ ∀ d, routes.rule name = some d → d.maxConns ≤ 0 := by
  rw [limit_eq_rule]
  cases routes.rule name with
  | none | some d => simp

theorem rule_rewritten_ne {routes : Databases} (hvalid : routes.validate u = none)
    (hrewritten : (routes.resolve name).database ≠ name) (hrule : routes.rule name = some d) :
    routes.rule (routes.resolve name).database ≠ some d := by
  intro htarget
  obtain ⟨_, he, hname, hdatabase⟩ := rule_of_rewritten hrewritten
  rw [hrule, some_inj] at he
  subst he
  obtain ⟨hmem, hlisted | hwild⟩ := rule_spec htarget
  · exact hrewritten (hlisted.symm.trans hname)
  · exact hdatabase (wildcard_of_validateLoop hvalid hmem hwild)

/-- **When a ceiling reaches its pool.**  A rule caps the pools of its name if
it does not rewrite it.  If it does, the pools have the ceiling of their
backend alone, which may happen to be low enough, or one of another rule. -/
theorem database_ceiling_reaches_pool (r : Registry) {cfg : Proxy.Config} {p : Proc}
    {env : ConnectEnv} {ch : Change} {req asked : StartupRequest} {attempts : Nat}
    (hroutes : env.routes = r.databases) (hconnect : connect cfg p env = some ch)
    (hphase : ch.proc.phase = .opening req attempts)
    (hasked : readStartup cfg.unicode env.packet = some asked)
    (hceiling : 0 < (r.databases.resolve asked.database).maxConns)
    {maxConns : Int} {c : BackendConfig} {server : Server}
    (hserver : r.createBackend maxConns c = some server) (resizes : List Int) :
    CeilingReaches r.databases asked.database ch.proc.session.identity
        ((resizes.foldl Server.setMaxConns server).newPool ch.proc.session.identity) ↔
      (r.databases.resolve asked.database).database = asked.database ∨
        (∀ d, r.databases.rule (r.databases.resolve asked.database).database = some d →
          d.maxConns ≤ 0) ∧
        (resizes.foldl Server.setMaxConns server).coreConfig.maxConns ≤
          (r.databases.resolve asked.database).maxConns ∧
        (resizes.foldl Server.setMaxConns server).coreConfig.maxConnsLimit ≤
          (r.databases.resolve asked.database).maxConns := by
  obtain ⟨hvalid, hdatabase⟩ := connect_database hconnect hphase hasked
  rw [hroutes] at hvalid hdatabase
  have hrules : r.databases ≠ [] := by
    intro hnil
    rw [hnil] at hceiling
    exact lt_irrefl 0 hceiling
  generalize hresized : resizes.foldl Server.setMaxConns server = resized
  have hlimits : resized.limitFor ch.proc.session.identity.database =
      r.databases.limit (r.databases.resolve asked.database).database := by
    have hinstalled : resized.databaseLimits = some r.databases.limit := by
      rw [← hresized, resized_limits]
      exact createBackend_limits hserver hrules
    rw [Server.limitFor, hinstalled, hdatabase]
  by_cases hsame : (r.databases.resolve asked.database).database = asked.database
  · refine iff_of_true ?_ (.inl hsame)
    rw [hsame] at hlimits hdatabase
    have hcapped : 0 < resized.limitFor ch.proc.session.identity.database := by
      rw [hlimits]
      exact hceiling
    obtain ⟨hmax, hlimit⟩ := newPool_of_limit hcapped
    rw [hlimits] at hmax hlimit
    refine ⟨hmax, hlimit, ?_⟩
    intro d hd _
    rw [← hdatabase]
    exact hd
  · rw [or_iff_right hsame]
    have hunlimited : (∀ d, r.databases.rule (r.databases.resolve asked.database).database =
        some d → d.maxConns ≤ 0) → resized.newPool ch.proc.session.identity =
          resized.coreConfig := by
      intro hnone
      apply newPool_of_no_limit
      rw [hlimits]
      exact limit_not_pos.2 hnone
    constructor
    · intro hreaches
      have hnone : ∀ d, r.databases.rule (r.databases.resolve asked.database).database = some d →
          d.maxConns ≤ 0 := by
        intro d hd
        by_contra hpositive
        have hown := hreaches.own d (by rw [hdatabase]; exact hd) (by omega)
        exact rule_rewritten_ne hvalid hsame hown hd
      have hmax := hreaches.maxConns
      have hlimit := hreaches.maxConnsLimit
      rw [hunlimited hnone] at hmax hlimit
      exact ⟨hnone, hmax, hlimit⟩
    · rintro ⟨hnone, hmax, hlimit⟩
      rw [hunlimited hnone]
      refine ⟨hmax, hlimit, ?_⟩
      intro d hd hpositive
      rw [hdatabase] at hd
      exact absurd (hnone d hd) (by omega)

def appClient (routes : Databases) : ConnectEnv :=
  ⟨startupPacket (putU32 196608) [(ascii "user", ascii "alice"), (ascii "database", ascii "app")],
    routes, true⟩

def fresh : Proc := (System.init).procs 0

def roomyBackend : BackendConfig := ⟨ascii "10.0.0.1:5432", [], [], 1, false, [], [], [], [], none⟩

def appSession (routes : Databases) : Option (Change × Server) := do
  let ch ← connect (Config.initial id false) fresh (appClient routes)
  let server ← Registry.createBackend ⟨routes, id⟩ 100 roomyBackend
  return (ch, server)

def listedRules : Databases := [⟨ascii "app", [], 20⟩]

theorem listed_ceiling_reaches_pool :
    ∃ ch server, appSession listedRules = some (ch, server) ∧
      CeilingReaches listedRules (ascii "app") ch.proc.session.identity
        (server.newPool ch.proc.session.identity) := by
  have hasked : readStartup (Config.initial id false).unicode (appClient listedRules).packet =
      some ⟨(appClient listedRules).packet, ascii "alice", ascii "app", []⟩ := by decide +kernel
  refine ⟨_, _, rfl, ?_⟩
  exact (database_ceiling_reaches_pool ⟨listedRules, id⟩ (p := fresh) rfl rfl rfl hasked
    (by decide +kernel) (c := roomyBackend) rfl []).2 (.inl (by decide +kernel))

def documentedRules : Databases := [⟨ascii "app", ascii "app_prod", 20⟩, ⟨ascii "*", [], 5⟩]

theorem rewritten_ceiling_lost :
    (∃ ch server, appSession documentedRules = some (ch, server) ∧
      documentedRules.validate .ascii = none ∧
      (documentedRules.resolve (ascii "app")).maxConns = 20 ∧
      server.newPool ch.proc.session.identity = ⟨5, 5⟩ ∧
      ¬CeilingReaches documentedRules (ascii "app") ch.proc.session.identity
        (server.newPool ch.proc.session.identity)) ∧
    ∃ ch server, appSession (documentedRules.take 1) = some (ch, server) ∧
      server.newPool ch.proc.session.identity = ⟨100, 100⟩ ∧
      ¬CeilingReaches (documentedRules.take 1) (ascii "app") ch.proc.session.identity
        (server.newPool ch.proc.session.identity) := by
  constructor
  · refine ⟨_, _, rfl, ?_, ?_, ?_, ?_⟩ <;> decide +kernel
  · refine ⟨_, _, rfl, ?_, ?_⟩ <;> decide +kernel

end Pontus.Management
