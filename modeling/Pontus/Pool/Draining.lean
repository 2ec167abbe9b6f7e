import Pontus.Pool.Server

/-!
# Draining

A backend that was the primary and has become a replica drains: it hands out no
connection until those that are out have come back.  The flag is set by
`setRole`, looked at by `AcquireFor` and cleared by `Release`, each of which
makes several steps; the steps of any number of calls interleave.
-/

namespace Pontus.Pool

open Lib

inductive DrainAt (κ : Type)
  | outside
  -- `AcquireFor`
  /-- `IsDraining` is next -/
  | entering
  | acquiring
  | counting (c : κ)
  -- `Release`
  | releasing (c : κ)
  | released (c : κ)
  | returning (c : κ)
  | returned
  /-- the flag was set; `ActiveConns` is next -/
  | lastCheck
  | ending
  -- `setRole`
  | setting (role : Role)
  | demoted
  | clearing
  deriving DecidableEq

/-- The part of a `Server` that draining is about, and the calls to it. -/
structure Drain (ι κ : Type) where
  role : Role
  draining : Bool
  checkedOut : Int
  idle : List κ
  broken : κ → Bool
  /-- the connections that have been counted and not counted off: what the count
  is meant to count -/
  held : List κ
  thread : ι → DrainAt κ

inductive DrainAction (ι κ : Type)
  | acquireFor (i : ι)
  /-- nothing is done here with a connection that is not the pool's -/
  | release (i : ι) (conn : Option κ)
  | setRole (i : ι) (role : Role)
  | acquired (i : ι) (answer : Option κ)
  /-- what a pool does with a connection that it gets back whole -/
  | recycled (i : ι) (kept : Bool)
  | next (i : ι)
  deriving DecidableEq

namespace Drain

variable {ι κ : Type}

def start (role : Role) (idle : List κ) : Drain ι κ :=
  ⟨role, false, 0, idle, fun _ => false, [], fun _ => .outside⟩

variable [DecidableEq ι] [DecidableEq κ]

def goto (s : Drain ι κ) (i : ι) (place : DrainAt κ) : Drain ι κ :=
  { s with thread := Function.update s.thread i place }

def markBroken (s : Drain ι κ) (c : κ) : Drain ι κ :=
  { s with broken := Function.update s.broken c true }

def next (s : Drain ι κ) (i : ι) : Option (Drain ι κ) :=
  match s.thread i with
  | .outside => none
  | .entering => some (s.goto i (if s.draining then .outside else .acquiring))
  | .acquiring => none
  | .counting c =>
    some { s.goto i .outside with checkedOut := s.checkedOut + 1, held := c :: s.held }
  | .releasing c =>
    some { s.goto i (.released c) with checkedOut := s.checkedOut - 1, held := s.held.erase c }
  | .released c => some ((if s.draining then s.markBroken c else s).goto i (.returning c))
  | .returning _ => none
  | .returned => some (s.goto i (if s.draining then .lastCheck else .outside))
  | .lastCheck => some (s.goto i (if s.checkedOut = 0 then .ending else .outside))
  | .ending => some { s.goto i .outside with draining := false }
  | .setting role =>
    some { s.goto i (if s.role = .primary ∧ role = .replica then .demoted else .outside) with
      role := role }
  | .demoted => some { s.goto i .clearing with draining := true }
  | .clearing => some { s.goto i .outside with idle := [] }

def step (s : Drain ι κ) : DrainAction ι κ → Option (Drain ι κ)
  | .acquireFor i => if s.thread i = .outside then some (s.goto i .entering) else none
  | .release i conn =>
    if s.thread i = .outside then
      match conn with
      | some c => some (s.goto i (.releasing c))
      | none => some s
    else none
  | .setRole i role => if s.thread i = .outside then some (s.goto i (.setting role)) else none
  | .acquired i answer =>
    if s.thread i = .acquiring then
      match answer with
      | some c => some { s.goto i (.counting c) with idle := s.idle.erase c }
      | none => some (s.goto i .outside)
    else none
  | .recycled i kept =>
    match s.thread i with
    | .returning c =>
      some { s.goto i .returned with
        idle := if kept && !s.broken c then c :: s.idle else s.idle }
    | _ => none
  | .next i => s.next i

end Drain

end Pontus.Pool
