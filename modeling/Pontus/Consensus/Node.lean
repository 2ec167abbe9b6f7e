import Pontus.Lib.Utf8

/-!
# The replicated state and its snapshots

Raft hands the committed entries to the state machine one by one.  Now and then
it asks for a snapshot, which stands for the entries before it: a node that
starts again, or that lags behind, restores the snapshot and applies only the
entries behind it.
-/

namespace Pontus.Consensus

open Lib

def cmdSyncBackends : Bytes := ascii "sync_backends"

def cmdUpdateConfig : Bytes := ascii "update_config"

def cmdSetPrimary : Bytes := ascii "set_primary"

structure Command where
  op : Bytes
  data : Option Bytes
  deriving DecidableEq

abbrev Backends (β : Type) := Option (List (Option β))

@[ext] structure ClusterState (β : Type) where
  backends : Backends β
  config : Option Bytes
  primary : Bytes
  deriving DecidableEq

def ClusterState.zero {β : Type} : ClusterState β := ⟨none, none, []⟩

/-- The JSON object of a state: the fields it has, with what they hold.  A null
in the place of a slice is kept, one in the place of the string is no field. -/
@[ext] structure Document (β : Type) where
  backends : Option (Backends β)
  config : Option (Option Bytes)
  primary : Option Bytes
  deriving DecidableEq

variable {β : Type}

/-- `omitzero`: a field at its zero value is left out. -/
def ClusterState.document (s : ClusterState β) : Document β where
  backends := s.backends.map some
  config := s.config.map some
  primary := if s.primary = [] then none else some s.primary

/-- Decoding sets the fields the object has and leaves the others alone. -/
def Document.into (d : Document β) (s : ClusterState β) : ClusterState β where
  backends := d.backends.getD s.backends
  config := d.config.getD s.config
  primary := d.primary.getD s.primary

def Backends.replaceInvalid (valid : β → β) (bs : Backends β) : Backends β :=
  bs.map (·.map (·.map valid))

def Document.replaceInvalid (valid : β → β) (d : Document β) : Document β where
  backends := d.backends.map (Backends.replaceInvalid valid)
  config := d.config
  primary := d.primary.map Lib.replaceInvalid

/-- What is taken from the Go library: `encoding/json` on the types in use, and
the quoting of `%q`.  Marshalling writes what unmarshalling reads back, with
the invalid UTF-8 of its strings replaced; the strings of what has been read
are valid. -/
structure Json (β : Type) where
  quote : Bytes → Bytes
  unmarshalCommand : Bytes → Except Bytes Command
  unmarshalBackends : Bytes → Except Bytes (Backends β)
  marshal : Document β → Except Bytes Bytes
  unmarshal : Bytes → Except Bytes (Document β)
  /-- a backend with the invalid UTF-8 of its strings replaced -/
  valid : β → β
  unmarshal_marshal : ∀ d, ∃ b, marshal d = .ok b ∧ unmarshal b = .ok (d.replaceInvalid valid)
  valid_of_unmarshal : ∀ {b bs}, unmarshalBackends b = .ok bs → bs.replaceInvalid valid = bs

def apply (j : Json β) (s : ClusterState β) (data : Bytes) : ClusterState β × Option Bytes :=
  match j.unmarshalCommand data with
  | .error e => (s, some e)
  | .ok cmd =>
    if cmd.op = cmdSyncBackends then
      match j.unmarshalBackends (cmd.data.getD []) with
      | .error e => (s, some e)
      | .ok backends => ({ s with backends := backends }, none)
    else if cmd.op = cmdUpdateConfig then ({ s with config := cmd.data }, none)
    else if cmd.op = cmdSetPrimary then ({ s with primary := cmd.data.getD [] }, none)
    else (s, some (ascii "unknown consensus command " ++ j.quote cmd.op))

def applyAll (j : Json β) (s : ClusterState β) : List Bytes → ClusterState β × List (Option Bytes)
  | [] => (s, [])
  | data :: log =>
    let (s', result) := apply j s data
    let (s'', results) := applyAll j s' log
    (s'', result :: results)

/-- Where Raft keeps a snapshot: the errors its methods report. -/
structure Sink where
  write : Bytes → Option Bytes
  close : Option Bytes

def persist (j : Json β) (sink : Sink) (s : ClusterState β) : Except Bytes Bytes :=
  match j.marshal s.document with
  | .error e => .error e
  | .ok b =>
    match sink.write b with
    | some e => .error e
    | none =>
      match sink.close with
      | some e => .error e
      | none => .ok b

def restore (j : Json β) (s : ClusterState β) (b : Bytes) : ClusterState β × Option Bytes :=
  match j.unmarshal b with
  | .error e => (s, some e)
  | .ok d => (d.into .zero, none)

end Pontus.Consensus
