import Pontus.Lib.HostPort
import Pontus.Lib.Slice
import Pontus.Pool.Server

/-!
# Proxies from their configuration

What the management store keeps of a proxy and its backends, and what the
registry makes of that when a proxy is created.
-/

namespace Pontus.Management

open Lib Pool

structure AgentDatabaseConfig where
  dataDirectory : Bytes
  installIfMissing : Bool
  deriving DecidableEq

structure BackendConfig where
  address : Bytes
  zone : Bytes
  /-- `primary` or `replica`; empty for a primary -/
  role : Bytes
  weight : Int
  managedByAgent : Bool
  agentAddress : Bytes
  agentToken : Bytes
  adminDsn : Bytes
  peerAddress : Bytes
  agentConfig : Option AgentDatabaseConfig
  deriving DecidableEq

structure ProxyConfig where
  id : Bytes
  address : Bytes
  backends : List BackendConfig
  balancer : Bytes
  maxConns : Int
  deriving DecidableEq

namespace BackendConfig

def serverRole (c : BackendConfig) : Role := if c.role = [] then .primary else .ofText c.role

def serverWeight (c : BackendConfig) : Int := if c.weight ≤ 0 then 1 else c.weight

end BackendConfig

def agentPort : Bytes := ascii "9091"

def postgresPort : Bytes := ascii "5432"

/-- The host of an address, empty where it has none to show. -/
def hostOf (addr : Bytes) : Bytes := ((splitHostPort addr).map Prod.fst).getD []

/-- The addresses `CreateProxyState` takes for a backend: an empty one is
inferred from the other. -/
def BackendConfig.inferred (c : BackendConfig) : Bytes × Bytes :=
  if c.agentAddress = [] ∧ c.address ≠ [] then
    (c.address, joinHostPort (hostOf c.address) agentPort)
  else if c.agentAddress ≠ [] ∧ c.address = [] then
    (joinHostPort (hostOf c.agentAddress) postgresPort, c.agentAddress)
  else (c.address, c.agentAddress)

/-- What the registry brings to every proxy it creates: the routing table of
its defaults, and the engine's defaults. -/
structure Registry where
  databases : Config.Databases
  withDefaults : CoreConfig → CoreConfig

/-- One backend of `CreateProxyState`.  A server that cannot be made is logged
and left out. -/
def Registry.createBackend (r : Registry) (maxConns : Int) (c : BackendConfig) : Option Server :=
  let (address, agentAddr) := c.inferred
  match newServer r.withDefaults address c.zone agentAddr c.agentToken c.serverRole
    c.serverWeight maxConns c.adminDsn with
  | .error _ => none
  | .ok p =>
    let p := p.setPeerAddress c.peerAddress
    let p :=
      match c.agentConfig with
      | none => p
      | some agent => p.setDataDirectory agent.dataDirectory
    some (if r.databases = [] then p else p.setDatabaseLimits (some r.databases.limit))

/-- `state.Proxy`.  Servers are known by number, in the order they were made. -/
structure Proxy where
  /-- the number of its `ProxyConfig` -/
  config : Nat
  servers : List Server
  arrays : Arrays Nat
  backends : ArraySlice
  /-- the slice that the failover manager, the provisioner and the
  administration console were given to ask for the backends -/
  captured : ArraySlice
  balancer : List Nat
  monitor : List Nat
  stopped : Bool

namespace Proxy

def serving (ps : Proxy) : List Nat := ps.arrays.read ps.backends

/-- What the failover manager's `backends` and the console's return. -/
def supplied (ps : Proxy) : List Nat := ps.arrays.read ps.captured

def server (ps : Proxy) (n : Nat) : Option Server := ps.servers[n]?

def nodes (ps : Proxy) : List Server := ps.serving.filterMap ps.server

def setServer (ps : Proxy) (n : Nat) (f : Server → Server) : Proxy :=
  { ps with servers := ps.servers.modify n f }

def stop (ps : Proxy) : Proxy :=
  ps.serving.foldl (fun ps n => ps.setServer n Server.close) { ps with stopped := true }

end Proxy

/-- `CreateProxyState`; it fails where the proxy's address cannot be listened
on. -/
def Registry.createProxyState (r : Registry) (ref : Nat) (cfg : ProxyConfig) (listens : Bool) :
    Option Proxy :=
  let servers := cfg.backends.filterMap (r.createBackend cfg.maxConns)
  let numbers := List.range servers.length
  let (arrays, backends) := Arrays.make [] numbers cfg.backends.length
  if !listens then none
  else
    some {
      config := ref
      servers := servers
      arrays := arrays
      backends := backends
      captured := backends
      balancer := numbers
      monitor := numbers
      stopped := false }

end Pontus.Management
