import Pontus.Management.Registry

/-!
# The management operations

A project is what runs, what is configured in memory and what the store holds.
`ProxyConfig` values are shared: a running proxy and the project's list refer
to the same one, so they are kept by number.  Every operation holds the
project's lock, and is one step here.
-/

namespace Pontus.Management

open Lib Pool

structure Project where
  /-- the `ProxyConfig` values there are, by number -/
  configs : Nat → ProxyConfig
  nextConfig : Nat
  proxies : Bytes → Option Proxy
  /-- `Config.Proxies` -/
  config : List Nat
  stored : List ProxyConfig

namespace Project

def configured (p : Project) : List ProxyConfig := p.config.map p.configs

def setProxy (p : Project) (id : Bytes) (ps : Option Proxy) : Project :=
  { p with proxies := Function.update p.proxies id ps }

def setConfig (p : Project) (ref : Nat) (cfg : ProxyConfig) : Project :=
  { p with configs := Function.update p.configs ref cfg }

def setBackends (p : Project) (ref : Nat) (backends : List BackendConfig) : Project :=
  p.setConfig ref { p.configs ref with backends := backends }

def newConfig (p : Project) (cfg : ProxyConfig) : Project :=
  { p.setConfig p.nextConfig cfg with nextConfig := p.nextConfig + 1 }

def upsert (p : Project) (succeeds : Bool) : Option Project :=
  if succeeds then some { p with stored := p.configured } else none

def configIndex (p : Project) (id : Bytes) : Option Nat :=
  p.config.findIdx? fun ref => (p.configs ref).id == id

def forgetProxy (p : Project) (id : Bytes) : Project :=
  match p.configIndex id with
  | none => p
  | some i => { p with config := p.config.eraseIdx i }

def replaceProxy (p : Project) (id : Bytes) (ref : Nat) : Project :=
  match p.configIndex id with
  | none => p
  | some i => { p with config := p.config.set i ref }

end Project

/-- The proxies of a project that is started, one after the other; one that
cannot be created is logged and left out. -/
def Registry.loadLoop (r : Registry) (listens : Nat → Bool) :
    Nat → List ProxyConfig → (Bytes → Option Proxy) → Bytes → Option Proxy
  | _, [], proxies => proxies
  | ref, cfg :: cfgs, proxies =>
    match r.createProxyState ref cfg (listens ref) with
    | none => r.loadLoop listens (ref + 1) cfgs proxies
    | some ps => r.loadLoop listens (ref + 1) cfgs (Function.update proxies cfg.id (some ps))

def Registry.createProjectState (r : Registry) (cfgs : List ProxyConfig) (listens : Nat → Bool) :
    Project where
  configs ref := cfgs.getD ref ⟨[], [], [], [], 0⟩
  nextConfig := cfgs.length
  proxies := r.loadLoop listens 0 cfgs fun _ => none
  config := List.range cfgs.length
  stored := cfgs

inductive AgentFailure
  | notStarted
  | failed
  deriving DecidableEq

inductive ManagementError
  /-- `proxy not found` -/
  | proxyNotFound
  /-- `backend not found` -/
  | backendNotFound
  /-- `agent address is mandatory` -/
  | agentAddressMandatory
  /-- `failed to create backend: %w` -/
  | createBackend (err : NewServerError)
  /-- `failed to start database installation: %w`, `database installation failed: %w` -/
  | installation (failure : AgentFailure)
  /-- `managed by agent requested but agent is not reachable at %s` -/
  | agentUnreachable (agentAddr : Bytes)
  /-- `failed to start database initialization: %w`, `database initialization failed: %w` -/
  | initialization (failure : AgentFailure)
  /-- `failed to listen on %s: %w` -/
  | listen (address : Bytes)
  | upsert
  | nilAgentClient
  | nilAgentConfig
  deriving DecidableEq

abbrev Result := Project × Except ManagementError Unit

/-- The end of most operations: what has been changed is stored, and an error
of the store is returned. -/
def Project.save (p : Project) (succeeds : Bool) : Result :=
  match p.upsert succeeds with
  | some p => (p, .ok ())
  | none => (p, .error .upsert)

/-- `AddBackend` completes the addresses on the request, and so in what is
stored. -/
def BackendConfig.completed (c : BackendConfig) : Except ManagementError BackendConfig :=
  if c.agentAddress = [] then
    if c.address = [] then .error .agentAddressMandatory
    else .ok { c with agentAddress := joinHostPort (hostOf c.address) agentPort }
  else if c.address = [] then
    -- might be just a host
    let host := ((splitHostPort c.agentAddress).map Prod.fst).getD c.agentAddress
    .ok { c with address := joinHostPort host postgresPort }
  else .ok c

structure AgentEnv where
  connected : Bool
  install : Option AgentFailure
  initialise : Option AgentFailure

def BackendConfig.prepare (c : BackendConfig) (env : AgentEnv) : Option ManagementError :=
  match c.agentConfig with
  | none => none
  | some agent =>
    if !c.managedByAgent then none
    else
      -- whether there is a client for the agent is only looked at afterwards
      match (if !agent.installIfMissing then none
        else if env.connected then env.install.map .installation
        else some .nilAgentClient) with
      | some err => some err
      | none =>
        if !env.connected then some (.agentUnreachable c.agentAddress)
        else env.initialise.map .initialization

/-- The agent's answers, the capacity of an array that has to grow, and whether
the store takes the project. -/
structure AddEnv where
  agent : AgentEnv
  grown : Nat
  upsert : Bool

namespace Proxy

def addServer (ps : Proxy) (server : Server) (grown : Nat) : Proxy :=
  let (arrays, backends) := ps.arrays.push ps.backends ps.servers.length grown
  { ps with servers := ps.servers ++ [server], arrays := arrays, backends := backends }

def dropServer (ps : Proxy) : Proxy :=
  { ps with backends := { ps.backends with len := ps.backends.len - 1 } }

def removeServer (ps : Proxy) (idx : Nat) : Proxy :=
  let (arrays, backends) := ps.arrays.removeAt ps.backends idx
  { ps with arrays := arrays, backends := backends }

def indexOf (ps : Proxy) (address : Bytes) : Option Nat :=
  ps.serving.findIdx? fun n => (ps.server n).any (·.address == address)

end Proxy

def ProxyConfig.indexOf (cfg : ProxyConfig) (address : Bytes) : Option Nat :=
  cfg.backends.findIdx? (·.address == address)

namespace Project

def forgetBackend (p : Project) (ref : Nat) (address : Bytes) : Project :=
  match (p.configs ref).indexOf address with
  | none => p
  | some i => p.setBackends ref ((p.configs ref).backends.eraseIdx i)

def replaceBackend (p : Project) (ref : Nat) (address : Bytes) (req : BackendConfig) : Project :=
  match (p.configs ref).indexOf address with
  | none => p
  | some i => p.setBackends ref ((p.configs ref).backends.set i req)

def addBackend (r : Registry) (p : Project) (proxyId : Bytes) (req : BackendConfig)
    (env : AddEnv) : Result :=
  match p.proxies proxyId with
  | none => (p, .error .proxyNotFound)
  | some ps =>
    match req.completed with
    | .error err => (p, .error err)
    | .ok req =>
      match newServer r.withDefaults req.address req.zone req.agentAddress req.agentToken
        req.serverRole req.serverWeight (p.configs ps.config).maxConns req.adminDsn with
      | .error err => (p, .error (.createBackend err))
      | .ok backend =>
        match req.prepare env.agent with
        | some err => (p, .error err)
        | none =>
          let ps := ps.addServer backend env.grown
          let p := p.setProxy proxyId (some ps)
          let p := p.setBackends ps.config ((p.configs ps.config).backends ++ [req])
          match p.upsert env.upsert with
          | some p => (p, .ok ())
          | none =>
            let ps := (ps.setServer (ps.servers.length - 1) Server.close).dropServer
            let p := p.setProxy proxyId (some ps)
            (p.setBackends ps.config (p.configs ps.config).backends.dropLast, .error .upsert)

/-- Whether the agent of the removed backend is connected, and whether the
store takes the project. -/
structure RemoveEnv where
  agentConnected : Bool
  upsert : Bool

def removeBackend (p : Project) (proxyId address : Bytes) (env : RemoveEnv) : Result :=
  match p.proxies proxyId with
  | none => (p, .error .proxyNotFound)
  | some ps =>
    match ps.indexOf address with
    | none => (p, .error .backendNotFound)
    | some idx =>
      let removed := (p.configs ps.config).backends.find? (·.address == address)
      let p := p.forgetBackend ps.config address
      -- the agent's own answer is not looked at
      if removed.any (fun c =>
          c.managedByAgent && env.agentConnected && c.agentConfig.isNone) then
        (p, .error .nilAgentConfig)
      else
        let ps :=
          match ps.serving[idx]? with
          | none => ps
          | some n => ps.setServer n Server.close
        let p := p.setProxy proxyId (some (ps.removeServer idx))
        p.save env.upsert

def updateBackend (p : Project) (proxyId address : Bytes) (req : BackendConfig) (upsert : Bool) :
    Result :=
  match p.proxies proxyId with
  | none => (p, .error .proxyNotFound)
  | some ps =>
    match ps.indexOf address with
    | none => (p, .error .backendNotFound)
    | some idx =>
      let ps :=
        match ps.serving[idx]? with
        | none => ps
        | some n => ps.setServer n (·.setWeight req.weight)
      let p := (p.setProxy proxyId (some ps)).replaceBackend ps.config address req
      p.save upsert

/-- The id a proxy without one is given, whether its address can be listened
on, and whether the store takes the project. -/
structure ProxyEnv where
  newId : Bytes
  listens : Bool
  upsert : Bool

def addProxy (r : Registry) (p : Project) (req : ProxyConfig) (env : ProxyEnv) : Result :=
  let cfg := if req.id = [] then { req with id := env.newId } else req
  match r.createProxyState p.nextConfig cfg env.listens with
  | none => (p, .error (.listen cfg.address))
  | some ps =>
    let ref := p.nextConfig
    let p := (p.newConfig cfg).setProxy cfg.id (some ps)
    let p := { p with config := p.config ++ [ref] }
    match p.upsert env.upsert with
    | some p => (p, .ok ())
    | none => (p.setProxy cfg.id none, .error .upsert)

def removeProxy (p : Project) (proxyId : Bytes) (upsert : Bool) : Result :=
  match p.proxies proxyId with
  | none => (p, .error .proxyNotFound)
  | some _ =>
    -- the proxy is stopped and forgotten
    let p := (p.setProxy proxyId none).forgetProxy proxyId
    p.save upsert

def updateProxy (r : Registry) (p : Project) (req : ProxyConfig) (env : ProxyEnv) : Result :=
  match p.proxies req.id with
  | none => (p, .error .proxyNotFound)
  | some ps =>
    let ref := p.nextConfig
    let replaced :=
      -- a proxy is replaced by another one where its address changes
      if (p.configs ps.config).address ≠ req.address then (r.createProxyState ref req env.listens)
      else some { ps with config := ref }
    match replaced with
    | none => (p.setProxy req.id (some ps.stop), .error (.listen req.address))
    | some ps =>
      let p := ((p.newConfig req).setProxy req.id (some ps)).replaceProxy req.id ref
      p.save env.upsert

end Project

inductive Call
  | addProxy (req : ProxyConfig) (env : Project.ProxyEnv)
  | removeProxy (proxyId : Bytes) (upsert : Bool)
  | updateProxy (req : ProxyConfig) (env : Project.ProxyEnv)
  | addBackend (proxyId : Bytes) (req : BackendConfig) (env : AddEnv)
  | removeBackend (proxyId address : Bytes) (env : Project.RemoveEnv)
  | updateBackend (proxyId address : Bytes) (req : BackendConfig) (upsert : Bool)

namespace Project

def call (r : Registry) (p : Project) : Call → Result
  | .addProxy req env => p.addProxy r req env
  | .removeProxy proxyId upsert => p.removeProxy proxyId upsert
  | .updateProxy req env => p.updateProxy r req env
  | .addBackend proxyId req env => p.addBackend r proxyId req env
  | .removeBackend proxyId address env => p.removeBackend proxyId address env
  | .updateBackend proxyId address req upsert => p.updateBackend proxyId address req upsert

def step (r : Registry) (p : Project) (c : Call) : Option Project := some (p.call r c).1

end Project

end Pontus.Management
