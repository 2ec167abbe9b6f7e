import Pontus.Config.Databases
import Pontus.Pool.PoolSet

/-!
# A backend as it is configured

`Server` holds what `NewServer` and the setters after it are given: where a
backend is, what it is for, and the ceilings its pools are built with.
-/

namespace Pontus.Pool

open Lib

inductive Role
  | primary
  | replica
  | other (text : Bytes)
  deriving DecidableEq

def Role.ofText (text : Bytes) : Role :=
  if text = ascii "primary" then .primary
  else if text = ascii "replica" then .replica
  else .other text

/-- `DatabaseLimits`: the ceiling for a database, zero where it has none. -/
abbrev DatabaseLimits := Bytes → Int

/-- The part of `pooling.Config` that says how many connections a pool opens. -/
structure CoreConfig where
  maxConns : Int
  /-- how far a resize may raise `maxConns` -/
  maxConnsLimit : Int
  deriving DecidableEq

structure Server where
  address : Bytes
  zone : Bytes
  agentAddr : Bytes
  agentToken : Bytes
  adminDSN : Bytes
  role : Role
  weight : Int
  maxConns : Int
  /-- how other nodes reach this one, where that is not `address` -/
  peerAddr : Bytes
  dataDir : Bytes
  databaseLimits : Option DatabaseLimits
  coreConfig : CoreConfig
  closed : Bool

/-- `agent address is mandatory for backend %s` -/
structure NewServerError where
  address : Bytes
  deriving DecidableEq

/-- `NewServer`; `withDefaults` is the engine's own completion of a
configuration. -/
def newServer (withDefaults : CoreConfig → CoreConfig) (address zone agentAddr agentToken : Bytes)
    (role : Role) (weight maxConns : Int) (adminDSN : Bytes) : Except NewServerError Server :=
  if agentAddr = [] then .error ⟨address⟩
  else
    .ok {
      address := address
      zone := zone
      agentAddr := agentAddr
      agentToken := agentToken
      adminDSN := adminDSN
      role := role
      weight := weight
      maxConns := maxConns
      peerAddr := []
      dataDir := []
      databaseLimits := none
      coreConfig := withDefaults ⟨maxConns, maxConns⟩
      closed := false }

namespace Server

def setPeerAddress (p : Server) (addr : Bytes) : Server := { p with peerAddr := addr }

def peerAddress (p : Server) : Bytes := if p.peerAddr = [] then p.address else p.peerAddr

def setDataDirectory (p : Server) (dir : Bytes) : Server := { p with dataDir := dir }

def setDatabaseLimits (p : Server) (limits : Option DatabaseLimits) : Server :=
  { p with databaseLimits := limits }

def setWeight (p : Server) (weight : Int) : Server := { p with weight := weight }

def close (p : Server) : Server := { p with closed := true }

def limitFor (p : Server) (database : Bytes) : Int :=
  match p.databaseLimits with
  | none => 0
  | some limits => limits database

def newPool (p : Server) (id : Identity) : CoreConfig :=
  let cfg := p.coreConfig
  let limit := p.limitFor id.database
  if 0 < limit then ⟨ceilingFor cfg.maxConns limit, ceilingFor cfg.maxConnsLimit limit⟩ else cfg

/-- `SetMaxConns`, as far as the pools created behind it are concerned. -/
def setMaxConns (p : Server) (n : Int) : Server :=
  { p with coreConfig := { p.coreConfig with maxConns := n } }

end Server

theorem ceilingFor_le_limit (h : 0 < limit) : ceilingFor configured limit ≤ limit := by
  unfold ceilingFor
  split <;> omega

/-! ## Resizing the pools of a backend -/

/-- The bounds of one engine.  The outer two are fixed when it is made. -/
structure Engine where
  minConns : Int
  maxConns : Int
  maxConnsLimit : Int
  deriving DecidableEq

structure Refusal where
  engine : Engine
  n : Int
  deriving DecidableEq

namespace Engine

def new (cfg : CoreConfig) : Engine := ⟨0, cfg.maxConns, cfg.maxConnsLimit⟩

def accepts (e : Engine) (n : Int) : Bool := e.minConns ≤ n && n ≤ e.maxConnsLimit

def setMaxConns (e : Engine) (n : Int) : Engine × Option Refusal :=
  if e.accepts n then ({ e with maxConns := n }, none) else (e, some ⟨e, n⟩)

end Engine

structure ServerPools where
  server : Server
  pools : List (Identity × Engine)

namespace ServerPools

def resizeEach (p : Server) (n : Int) :
    List (Identity × Engine) → Option Refusal → List (Identity × Engine) × Option Refusal
  | [], firstErr => ([], firstErr)
  | (id, core) :: rest, firstErr =>
    let target := ceilingFor n (p.limitFor id.database)
    let (core, err) := core.setMaxConns target
    let (rest, firstErr) := resizeEach p n rest (firstErr.or err)
    ((id, core) :: rest, firstErr)

def setMaxConns (s : ServerPools) (n : Int) : ServerPools × Option Refusal :=
  let server := s.server.setMaxConns n
  let (pools, firstErr) := resizeEach server n s.pools none
  (⟨server, pools⟩, firstErr)

def laterCeiling (s : ServerPools) (id : Identity) : Int := (s.server.newPool id).maxConns

end ServerPools

inductive ResizeAction
  | newPool (id : Identity)
  | drop (id : Identity)
  | setDatabaseLimits (limits : Option DatabaseLimits)
  | setMaxConns (n : Int)

def ServerPools.step (s : ServerPools) : ResizeAction → Option ServerPools
  | .newPool id =>
    if id ∈ s.pools.map Prod.fst then none
    else some { s with pools := (id, .new (s.server.newPool id)) :: s.pools }
  | .drop id => some { s with pools := s.pools.filter fun pool => pool.1 ≠ id }
  | .setDatabaseLimits limits => some { s with server := s.server.setDatabaseLimits limits }
  | .setMaxConns n => some (s.setMaxConns n).1

end Pontus.Pool
