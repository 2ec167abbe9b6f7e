import Pontus.Orchestration.Backend

/-!
# The failover manager and its goroutines

The monitor ticks, the gateway asks for a failover when a write finds no
primary, and both start goroutines: to verify a promotion, to re-point replicas
and to rebuild nodes.  A step here goes from one use of the manager's lock, or
from one call of the provisioner, to the next; steps of different goroutines
come in any order.  What the backends look like, what the provisioner answers
and who owns or leads is part of the steps.
-/

namespace Pontus.Orchestration

open Lib Pool

inductive FailoverState
  | idle
  | monitoring
  | promoting
  | verifying
  | failed
  deriving DecidableEq

structure Consensus where
  isLeader : Bool
  primary : Bytes
  deriving DecidableEq

/-- A call of `DemoteToReplica`, from a split brain or for a rejoin. -/
inductive RebuildCall
  | demotion (node kept : Bytes)
  | rejoin (node primary : Bytes)
  deriving DecidableEq

def monitorCalls (o : Options) (state : FailoverState) (consensus : Option Consensus)
    (lastPromoted : Bytes) (rejoins : Tracker) (backends : List (Backend × Int)) :
    List RebuildCall :=
  let bs := backends.map Prod.fst
  if state = .promoting then []
  else if consensus.any (!·.isLeader) then []
  else
    match course bs with
    | .missed => []
    | .splitBrain =>
      match winner ((consensus.map Consensus.primary).getD []) lastPromoted bs with
      | none => []
      | some kept => (losers bs kept.address).map (.demotion · kept.address)
    | .rejoin primary => (reconcileRejoins o primary backends rejoins).2.map (.rejoin · primary)

/-- The two callers of `TriggerFailover`.  Neither calls it twice at a time: the
monitor waits for it, and the gateway has `inFailover`. -/
inductive Caller
  | monitor
  | gateway
  deriving DecidableEq

/-- Where a call of `TriggerFailover` is.  Calls that have set the state are
numbered. -/
inductive CallAt
  | absent
  /-- neither the option nor the state has been looked at -/
  | entering
  | searching (k : Nat)
  /-- `PromoteToPrimary` is running -/
  | promoting (k : Nat) (node : Bytes)
  | promoted (k : Nat) (node : Bytes)
  /-- `lastPromoted` is set -/
  | recorded (k : Nat) (node : Bytes)
  /-- `missedPrimary` is zero -/
  | cleared (k : Nat) (node : Bytes)
  /-- the state is `Verifying` -/
  | spawning (k : Nat) (node : Bytes)
  | returning (k : Nat)
  deriving DecidableEq

inductive MonitorAt
  | waiting
  | looking
  /-- in `TriggerFailover` -/
  | calling
  | resolving (backends : List Backend)
  | demoting (kept : Bytes) (pending : List Bytes)
  /-- `DemoteToReplica` is running for `node` -/
  | inDemotion (node kept : Bytes) (pending : List Bytes)
  | reconciling (primary : Bytes) (pending : List Bytes)
  deriving DecidableEq

inductive RejoinAt
  | starting
  /-- `DemoteToReplica` is running -/
  | rebuilding
  | confirming
  deriving DecidableEq

inductive NodeEvent
  /-- a `rejoin` goroutine was started -/
  | started (node : Bytes) (now : Int)
  | streaming (node : Bytes)
  deriving DecidableEq

structure System where
  -- the manager
  state : FailoverState
  lastPromoted : Bytes
  missedPrimary : Nat
  rejoins : Tracker
  -- its goroutines and its callers
  monitor : MonitorAt
  call : Caller → CallAt
  /-- `verifyPromotion`: the call that started it, and the promoted node -/
  verifying : List (Nat × Bytes)
  /-- `followNewPrimary` goroutines that have not looked for replicas yet -/
  follows : List Bytes
  /-- replicas for which one of them has `DemoteToReplica` running -/
  following : List Bytes
  rejoining : List (Bytes × RejoinAt)
  inFailover : Bool
  -- around it
  owned : Bool
  leader : Bool
  clock : Int
  -- what has been
  entered : Nat
  /-- the checks of the monitor, the last one first: was a healthy primary found? -/
  checks : List Bool
  log : List NodeEvent

def System.start (owned leader : Bool) (clock : Int) : System where
  state := .idle
  lastPromoted := []
  missedPrimary := 0
  rejoins := fun _ => none
  monitor := .waiting
  call := fun _ => .absent
  verifying := []
  follows := []
  following := []
  rejoining := []
  inFailover := false
  owned := owned
  leader := leader
  clock := clock
  entered := 0
  checks := []
  log := []

/-- How the manager was set up; `consensus` says whether there is one. -/
structure Settings where
  options : Options
  consensus : Bool
  deriving DecidableEq

def Settings.opts (cfg : Settings) : Options := cfg.options.sane

inductive Action
  | own (b : Bool)
  | lead (b : Bool)
  | tick
  | look (backends : List Backend)
  | resolve (consensusPrimary : Bytes)
  | demote
  | demoted
  | reconcile (b : Backend) (now : Int)
  | reconciled
  | write
  | resume
  | enter (c : Caller)
  | search (c : Caller) (backends : List Backend)
  | promoted (c : Caller) (ok : Bool)
  | record (c : Caller)
  | clear (c : Caller)
  | verify (c : Caller)
  | spawn (c : Caller)
  | finish (c : Caller)
  /-- a `verifyPromotion` sees its node as a healthy primary -/
  | verified (k : Nat) (node : Bytes)
  | unverified (k : Nat) (node : Bytes)
  | follow (primary : Bytes) (backends : List Backend)
  | followed (node : Bytes)
  | rejoin (node : Bytes)
  | rebuilt (node : Bytes) (ok : Bool)
  /-- `confirmRejoined` sees a replica that replicates; it does not ask whether
  it is healthy -/
  | confirmed (node : Bytes) (healthy : Bool)
  | unconfirmed (node : Bytes)
  deriving DecidableEq

namespace System

def setCall (s : System) (c : Caller) (a : CallAt) : System :=
  { s with call := Function.update s.call c a }

def leave (s : System) (c : Caller) : System :=
  match c with
  | .monitor => { s.setCall .monitor .absent with monitor := .waiting }
  | .gateway => s.setCall .gateway .absent

def tick (cfg : Settings) (s : System) : System :=
  if !s.owned then s
  else if s.state = .promoting then s
  else if cfg.consensus && !s.leader then s
  else { s with monitor := .looking }

def miss (cfg : Settings) (s : System) : System :=
  let missed := s.missedPrimary + 1
  let s := { s with missedPrimary := missed, checks := false :: s.checks }
  if !cfg.opts.enabled then { s with monitor := .waiting }
  else if (missed : Int) < cfg.opts.failureThreshold then { s with monitor := .waiting }
  else { s.setCall .monitor .entering with monitor := .calling }

def look (cfg : Settings) (s : System) (bs : List Backend) : System :=
  match course bs with
  | .missed => s.miss cfg
  | .splitBrain =>
    { s with missedPrimary := 0, checks := true :: s.checks, monitor := .resolving bs }
  | .rejoin primary =>
    { s with
      missedPrimary := 0
      checks := true :: s.checks
      monitor := .reconciling primary (bs.map Backend.address) }

def resolve (s : System) (bs : List Backend) (consensusPrimary : Bytes) : System :=
  match winner consensusPrimary s.lastPromoted bs with
  | none => { s with monitor := .waiting }
  | some kept => { s with monitor := .demoting kept.address (losers bs kept.address) }

def reconcile (cfg : Settings) (s : System) (primary : Bytes) (pending : List Bytes) (b : Backend)
    (now : Int) : System :=
  let (rejoins, started) := reconcileRejoin cfg.opts s.rejoins primary b now
  let seen := if b.healthy && b.replicating then .streaming b.address :: s.log else s.log
  { s with
    rejoins := rejoins
    monitor := .reconciling primary pending
    clock := now
    rejoining := if started then (b.address, .starting) :: s.rejoining else s.rejoining
    log := if started then .started b.address now :: seen else seen }

def enter (cfg : Settings) (s : System) (c : Caller) : System :=
  if !cfg.opts.enabled then s.leave c
  -- failover already in progress
  else if s.state = .promoting then s.leave c
  else
    { s.setCall c (.searching (s.entered + 1)) with
      state := .promoting
      entered := s.entered + 1 }

def search (s : System) (c : Caller) (k : Nat) (bs : List Backend) : System :=
  match findBestReplica bs with
  | none => { s.setCall c (.returning k) with state := .failed }
  | some b => s.setCall c (.promoting k b.address)

def endPromotion (s : System) (c : Caller) (k : Nat) (node : Bytes) (ok : Bool) : System :=
  if ok then s.setCall c (.promoted k node)
  else { s.setCall c (.returning k) with state := .failed }

def spawn (cfg : Settings) (s : System) (c : Caller) (k : Nat) (node : Bytes) : System :=
  { s.setCall c (.returning k) with
    follows := if cfg.opts.followPrimary then node :: s.follows else s.follows
    verifying := (k, node) :: s.verifying }

def afterwards (s : System) (c : Caller) : System :=
  let s : System := { s with state := if s.state = .promoting then .idle else s.state }
  s.leave c

def endRejoin (s : System) (node : Bytes) (phase : RejoinAt) (succeeded : Bool) : System :=
  { s with
    rejoins := s.rejoins.finish node succeeded
    rejoining := s.rejoining.erase (node, phase) }

def moveRejoin (s : System) (node : Bytes) (before behind : RejoinAt) : System :=
  { s with rejoining := (node, behind) :: s.rejoining.erase (node, before) }

def step (cfg : Settings) (s : System) : Action → Option System
  | .own b => some { s with owned := b }
  | .lead b => some { s with leader := b }
  | .tick =>
    match s.monitor with
    | .waiting => some (s.tick cfg)
    | _ => none
  | .look bs =>
    match s.monitor with
    | .looking => some (s.look cfg bs)
    | _ => none
  | .resolve consensusPrimary =>
    match s.monitor with
    | .resolving bs => some (s.resolve bs (if cfg.consensus then consensusPrimary else []))
    | _ => none
  | .demote =>
    match s.monitor with
    | .demoting _ [] => some { s with monitor := .waiting }
    | .demoting kept (node :: pending) => some { s with monitor := .inDemotion node kept pending }
    | _ => none
  | .demoted =>
    match s.monitor with
    | .inDemotion _ kept pending => some { s with monitor := .demoting kept pending }
    | _ => none
  | .reconcile b now =>
    match s.monitor with
    | .reconciling primary (address :: pending) =>
      if b.address = address ∧ s.clock ≤ now then some (s.reconcile cfg primary pending b now)
      else none
    | _ => none
  | .reconciled =>
    match s.monitor with
    | .reconciling _ [] => some { s with monitor := .waiting }
    | _ => none
  | .write =>
    if s.inFailover then some s
    else some { s.setCall .gateway .entering with inFailover := true }
  | .resume =>
    if s.inFailover = true ∧ s.call .gateway = .absent then some { s with inFailover := false }
    else none
  | .enter c =>
    match s.call c with
    | .entering => some (s.enter cfg c)
    | _ => none
  | .search c bs =>
    match s.call c with
    | .searching k => some (s.search c k bs)
    | _ => none
  | .promoted c ok =>
    match s.call c with
    | .promoting k node => some (s.endPromotion c k node ok)
    | _ => none
  | .record c =>
    match s.call c with
    | .promoted k node => some { s.setCall c (.recorded k node) with lastPromoted := node }
    | _ => none
  | .clear c =>
    match s.call c with
    | .recorded k node => some { s.setCall c (.cleared k node) with missedPrimary := 0 }
    | _ => none
  | .verify c =>
    match s.call c with
    | .cleared k node => some { s.setCall c (.spawning k node) with state := .verifying }
    | _ => none
  | .spawn c =>
    match s.call c with
    | .spawning k node => some (s.spawn cfg c k node)
    | _ => none
  | .finish c =>
    match s.call c with
    | .returning _ => some (s.afterwards c)
    | _ => none
  | .verified k node =>
    if (k, node) ∈ s.verifying then
      some { s with state := .idle, verifying := s.verifying.erase (k, node) }
    else none
  | .unverified k node =>
    if (k, node) ∈ s.verifying then
      some { s with state := .failed, verifying := s.verifying.erase (k, node) }
    else none
  | .follow primary bs =>
    if primary ∈ s.follows then
      some { s with
        follows := s.follows.erase primary
        following := replicasToFollow primary bs ++ s.following }
    else none
  | .followed node =>
    if node ∈ s.following then some { s with following := s.following.erase node } else none
  | .rejoin node =>
    if (node, .starting) ∈ s.rejoining then some (s.moveRejoin node .starting .rebuilding)
    else none
  | .rebuilt node ok =>
    if (node, .rebuilding) ∈ s.rejoining then
      some (if ok then s.moveRejoin node .rebuilding .confirming
        else s.endRejoin node .rebuilding false)
    else none
  | .confirmed node healthy =>
    if (node, .confirming) ∈ s.rejoining then
      some { s.endRejoin node .confirming true with
        log := if healthy then .streaming node :: s.log else s.log }
    else none
  | .unconfirmed node =>
    if (node, .confirming) ∈ s.rejoining then some (s.endRejoin node .confirming false) else none

end System

end Pontus.Orchestration
