import Pontus.Management.Manager

/-!
# What a management call can do

`Called` lists the ways a call can go: it is refused before anything has
changed, or it has changed what runs and what is configured when the store
answers.  Every property of the operations is read off it.
-/

namespace Pontus.Management

open Lib Pool

def Project.withBackend (p : Project) (id : Bytes) (ps : Proxy) (cfg : BackendConfig)
    (server : Server) (grown : Nat) : Project :=
  (p.setProxy id (some (ps.addServer server grown))).setBackends ps.config
    ((p.configs ps.config).backends ++ [cfg])

def Project.withProxy (p : Project) (cfg : ProxyConfig) (ps : Proxy) : Project :=
  { (p.newConfig cfg).setProxy cfg.id (some ps) with config := p.config ++ [p.nextConfig] }

def Proxy.undone (ps : Proxy) (server : Server) (grown : Nat) : Proxy :=
  ((ps.addServer server grown).setServer ps.servers.length Server.close).dropServer

def Registry.addedBackend (r : Registry) (maxConns : Int) (cfg : BackendConfig) :
    Except NewServerError Server :=
  newServer r.withDefaults cfg.address cfg.zone cfg.agentAddress cfg.agentToken cfg.serverRole
    cfg.serverWeight maxConns cfg.adminDsn

def named (req : ProxyConfig) (env : Project.ProxyEnv) : ProxyConfig :=
  if req.id = [] then { req with id := env.newId } else req

inductive Called (r : Registry) (p : Project) : Call → Result → Prop
  | refused {c : Call} {err : ManagementError} : Called r p c (p, .error err)
  | backendAdded {id : Bytes} {req cfg : BackendConfig} {env : AddEnv} {ps : Proxy}
      {server : Server} (hproxy : p.proxies id = some ps) (hcompleted : req.completed = .ok cfg)
      (hserver : r.addedBackend (p.configs ps.config).maxConns cfg = .ok server)
      (hupsert : env.upsert = true) :
      Called r p (.addBackend id req env) ((p.withBackend id ps cfg server env.grown).save true)
  | backendUndone {id : Bytes} {req : BackendConfig} {env : AddEnv} {ps : Proxy} {server : Server}
      (hproxy : p.proxies id = some ps) (hupsert : env.upsert = false) :
      Called r p (.addBackend id req env)
        (p.setProxy id (some (ps.undone server env.grown)), .error .upsert)
  | backendRemoved {id address : Bytes} {env : Project.RemoveEnv} {ps : Proxy} {idx n : Nat}
      (hproxy : p.proxies id = some ps) (hindex : ps.indexOf address = some idx)
      (hn : ps.serving[idx]? = some n) :
      Called r p (.removeBackend id address env)
        (((p.forgetBackend ps.config address).setProxy id
          (some ((ps.setServer n Server.close).removeServer idx))).save env.upsert)
  | removalCrashed {id address : Bytes} {env : Project.RemoveEnv} {ps : Proxy} {cfg : BackendConfig}
      {idx : Nat} (hproxy : p.proxies id = some ps) (hindex : ps.indexOf address = some idx)
      (hfound : (p.configs ps.config).backends.find? (·.address == address) = some cfg)
      (hmanaged : cfg.managedByAgent = true) (hconnected : env.agentConnected = true)
      (hnil : cfg.agentConfig = none) :
      Called r p (.removeBackend id address env)
        (p.forgetBackend ps.config address, .error .nilAgentConfig)
  | backendUpdated {id address : Bytes} {req : BackendConfig} {upsert : Bool} {ps : Proxy}
      {idx n : Nat} (hproxy : p.proxies id = some ps) (hindex : ps.indexOf address = some idx)
      (hn : ps.serving[idx]? = some n) :
      Called r p (.updateBackend id address req upsert)
        (((p.setProxy id (some (ps.setServer n (·.setWeight req.weight)))).replaceBackend ps.config
          address req).save upsert)
  | proxyAdded {req : ProxyConfig} {env : Project.ProxyEnv} {ps : Proxy}
      (hcreated : r.createProxyState p.nextConfig (named req env) env.listens = some ps)
      (hupsert : env.upsert = true) :
      Called r p (.addProxy req env) ((p.withProxy (named req env) ps).save true)
  | proxyForgotten {req : ProxyConfig} {env : Project.ProxyEnv} {ps : Proxy}
      (hcreated : r.createProxyState p.nextConfig (named req env) env.listens = some ps)
      (hupsert : env.upsert = false) :
      Called r p (.addProxy req env)
        ((p.withProxy (named req env) ps).setProxy (named req env).id none, .error .upsert)
  | proxyRemoved {id : Bytes} {upsert : Bool} {ps : Proxy} (hproxy : p.proxies id = some ps) :
      Called r p (.removeProxy id upsert) (((p.setProxy id none).forgetProxy id).save upsert)
  | proxyStopped {req : ProxyConfig} {env : Project.ProxyEnv} {ps : Proxy}
      (hproxy : p.proxies req.id = some ps)
      (hmoved : (p.configs ps.config).address ≠ req.address) (hlistens : env.listens = false) :
      Called r p (.updateProxy req env)
        (p.setProxy req.id (some ps.stop), .error (.listen req.address))
  | proxyUpdated {req : ProxyConfig} {env : Project.ProxyEnv} {ps ps' : Proxy}
      (hproxy : p.proxies req.id = some ps)
      (hreplaced : (p.configs ps.config).address ≠ req.address ∧
          r.createProxyState p.nextConfig req env.listens = some ps' ∨
        (p.configs ps.config).address = req.address ∧ ps' = { ps with config := p.nextConfig }) :
      Called r p (.updateProxy req env)
        ((((p.newConfig req).setProxy req.id (some ps')).replaceProxy req.id
          p.nextConfig).save env.upsert)

section
variable {r : Registry} {p : Project}

theorem undone_eq (p : Project) (id : Bytes) (ps ps' : Proxy) (cfg : BackendConfig) :
    (((p.setProxy id (some ps)).setBackends ps.config
        ((p.configs ps.config).backends ++ [cfg])).setProxy id (some ps')).setBackends ps.config
      (((p.setProxy id (some ps)).setBackends ps.config
        ((p.configs ps.config).backends ++ [cfg])).configs ps.config).backends.dropLast =
      p.setProxy id (some ps') := by
  simp [Project.setBackends, Project.setConfig, Project.setProxy]

theorem called_addBackend (p : Project) (id : Bytes) (req : BackendConfig) (env : AddEnv) :
    Called r p (.addBackend id req env) (p.addBackend r id req env) := by
  unfold Project.addBackend
  split
  · exact .refused
  rename_i ps hproxy
  split
  · exact .refused
  rename_i cfg hcompleted
  split
  · exact .refused
  rename_i server hserver
  split
  · exact .refused
  dsimp only [Project.upsert]
  cases hupsert : env.upsert with
  | true => exact .backendAdded hproxy hcompleted hserver hupsert
  | false =>
    have hundone := undone_eq p id (ps.addServer server env.grown) (ps.undone server env.grown) cfg
    have hlast : (ps.addServer server env.grown).servers.length - 1 = ps.servers.length := by
      simp [Proxy.addServer]
    rw [hlast]
    have hresult : Called r p (.addBackend id req env)
        (p.setProxy id (some (ps.undone server env.grown)), .error .upsert) :=
      .backendUndone hproxy hupsert
    rw [← hundone] at hresult
    exact hresult

theorem indexOf_serving {ps : Proxy} (h : ps.indexOf address = some idx) :
    ∃ n, ps.serving[idx]? = some n := by
  obtain ⟨hlt, -⟩ := List.findIdx?_eq_some_iff_getElem.1 h
  exact ⟨_, List.getElem?_eq_getElem hlt⟩

theorem called_removeBackend (p : Project) (id address : Bytes) (env : Project.RemoveEnv) :
    Called r p (.removeBackend id address env) (p.removeBackend id address env) := by
  unfold Project.removeBackend
  split
  · exact .refused
  rename_i ps hproxy
  split
  · exact .refused
  rename_i idx hindex
  obtain ⟨_, hn⟩ := indexOf_serving hindex
  dsimp only
  split
  · rename_i hcrash
    obtain ⟨_, hfound, hconfig⟩ := (Option.any_eq_true _ _).1 hcrash
    simp only [and_eq_true, isNone_iff_eq_none] at hconfig
    exact .removalCrashed hproxy hindex hfound hconfig.1.1 hconfig.1.2 hconfig.2
  · rw [hn]
    exact .backendRemoved hproxy hindex hn

theorem called_updateBackend (p : Project) (id address : Bytes) (req : BackendConfig)
    (upsert : Bool) :
    Called r p (.updateBackend id address req upsert) (p.updateBackend id address req upsert) := by
  unfold Project.updateBackend
  split
  · exact .refused
  rename_i ps hproxy
  split
  · exact .refused
  rename_i idx hindex
  obtain ⟨_, hn⟩ := indexOf_serving hindex
  rw [hn]
  exact .backendUpdated hproxy hindex hn

theorem called_addProxy (p : Project) (req : ProxyConfig) (env : Project.ProxyEnv) :
    Called r p (.addProxy req env) (p.addProxy r req env) := by
  unfold Project.addProxy
  dsimp only
  split
  · exact .refused
  rename_i ps hcreated
  cases hupsert : env.upsert with
  | true => exact .proxyAdded hcreated hupsert
  | false => exact .proxyForgotten hcreated hupsert

theorem called_removeProxy (p : Project) (id : Bytes) (upsert : Bool) :
    Called r p (.removeProxy id upsert) (p.removeProxy id upsert) := by
  unfold Project.removeProxy
  split
  · exact .refused
  · rename_i ps hproxy
    exact .proxyRemoved hproxy

theorem createProxyState_eq_none : r.createProxyState ref cfg listens = none ↔ listens = false := by
  unfold Registry.createProxyState
  cases listens <;> simp

theorem called_updateProxy (p : Project) (req : ProxyConfig) (env : Project.ProxyEnv) :
    Called r p (.updateProxy req env) (p.updateProxy r req env) := by
  unfold Project.updateProxy
  split
  · exact .refused
  rename_i ps hproxy
  dsimp only
  by_cases hmoved : (p.configs ps.config).address ≠ req.address
  · rw [if_pos hmoved]
    cases hcreated : r.createProxyState p.nextConfig req env.listens with
    | none => exact .proxyStopped hproxy hmoved (createProxyState_eq_none.1 hcreated)
    | some => exact .proxyUpdated hproxy (.inl ⟨hmoved, hcreated⟩)
  · rw [if_neg hmoved]
    exact .proxyUpdated hproxy (.inr ⟨not_not.1 hmoved, rfl⟩)

end

/-- **What a call can do.** -/
theorem called (r : Registry) (p : Project) (c : Call) : Called r p c (p.call r c) := by
  cases c with
  | addProxy req env => exact called_addProxy p req env
  | removeProxy id upsert => exact called_removeProxy p id upsert
  | updateProxy req env => exact called_updateProxy p req env
  | addBackend id req env => exact called_addBackend p id req env
  | removeBackend id address env => exact called_removeBackend p id address env
  | updateBackend id address req upsert => exact called_updateBackend p id address req upsert

end Pontus.Management
