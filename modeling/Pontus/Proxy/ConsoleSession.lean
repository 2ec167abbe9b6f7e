import Pontus.Lib.Run
import Pontus.Proxy.AdminConsole

/-!
# A console session, and what its client has said

The protocol gives a client statements and portals under names of its own: a
Parse says what a name stands for, a Bind which statement a portal runs and in
which formats its rows come.  `Heard` keeps all of that, which is what a server
needs to answer an Execute.  The session of the console carries it beside the
slot the console really has.
-/

namespace Pontus.Proxy

open Lib Protocol

structure Bound where
  statement : Bytes
  formats : List UInt16
  deriving DecidableEq

/-- What the messages that were not skipped have said. -/
structure Heard where
  statements : Bytes → Option Bytes
  portals : Bytes → Option Bound
  parsed : Option Bytes
  /-- the formats of the latest Bind, where it follows that Parse -/
  formats : List UInt16
  since : Option ConsoleEnv

namespace Heard

def new : Heard := ⟨fun _ => none, fun _ => none, none, [], none⟩

def sql (heard : Heard) : Bytes := (heard.parsed.bind heard.statements).getD []

def look (heard : Heard) (env : ConsoleEnv) : Heard :=
  { heard with since := heard.since <|> if (env.answer heard.sql).isOk then some env else none }

def hear (heard : Heard) (env : ConsoleEnv) : ExtendedMessage → Heard
  | .parse name query _ =>
    { heard with
      statements := Function.update heard.statements name (some query)
      parsed := some name
      formats := []
      since := none }
  | .bind portal statement _ _ formats =>
    { heard with
      portals := Function.update heard.portals portal (some ⟨statement, formats⟩)
      formats := formats }
  | .describe .. | .execute .. => heard.look env
  | .close .. | .sync => heard

end Heard

def resultOf (env : ConsoleEnv) (sql : Bytes) (formats : List UInt16) : Bytes :=
  match env.answer sql with
  | .error err => errorResponse (ascii "ERROR") err.code err.message
  | .ok reply =>
    match reply.rows with
    | none => writeCommandTag reply.tag
    -- rows that do not fit their columns are not sent at all
    | some rows => (rows.sendRows formats).toOption.getD []

structure ConsoleSession where
  portal : ExtendedPortal
  heard : Heard

abbrev ConsoleAction := ConsoleEnv × ExtendedMessage

namespace ConsoleSession

def new : ConsoleSession := ⟨.new, .new⟩

def written (s : ConsoleSession) (a : ConsoleAction) : Bytes :=
  (serveOne a.1 s.portal a.2.tag a.2.body).2

def step (s : ConsoleSession) (a : ConsoleAction) : Option ConsoleSession :=
  (serveOne a.1 s.portal a.2.tag a.2.body).1.map fun portal =>
    ⟨portal, if s.portal.failed then s.heard else s.heard.hear a.1 a.2⟩

/-- An Execute gets the result, at this moment, of the statement its portal is
bound to, in the formats it was bound with; an Execute of a portal that has not
been bound gets an ErrorResponse. -/
def Answers (s : ConsoleSession) (a : ConsoleAction) : Prop :=
  match a.2 with
  | .execute portal _ =>
    match s.heard.portals portal with
    | none => (s.written a).head? = some 'E'.toUInt8
    | some bound =>
      ∀ sql ∈ s.heard.statements bound.statement, s.written a = resultOf a.1 sql bound.formats
  | _ => True

instance (s : ConsoleSession) (a : ConsoleAction) : Decidable (s.Answers a) := by
  unfold Answers
  split
  · split <;> infer_instance
  · infer_instance

/-- The client runs the statement it parsed last, through a portal bound to it
in the formats the latest Bind asked for, and what the console finds for the
statement has not changed since it was first described or run. -/
def RunsLatest (s : ConsoleSession) (env : ConsoleEnv) (bound : Bound) : Prop :=
  s.heard.parsed = some bound.statement ∧ s.heard.formats = bound.formats ∧
    ∀ before ∈ s.heard.since, before.answer s.heard.sql = env.answer s.heard.sql

instance (s : ConsoleSession) (env : ConsoleEnv) (bound : Bound) :
    Decidable (s.RunsLatest env bound) := by
  unfold RunsLatest
  infer_instance

def Asked (s : ConsoleSession) (a : ConsoleAction) : Prop :=
  match a.2 with
  | .execute portal _ =>
    s.portal.failed = false ∧ 4 + a.2.body.length ≤ maxCommandBytes ∧
      match s.heard.portals portal with
      | none => s.heard.since.isNone = true ∧ (a.1.answer s.heard.sql).isOk = false
      | some bound => s.RunsLatest a.1 bound
  | _ => True

instance (s : ConsoleSession) (a : ConsoleAction) : Decidable (s.Asked a) := by
  unfold Asked
  split
  · split <;> infer_instance
  · infer_instance

end ConsoleSession

end Pontus.Proxy
