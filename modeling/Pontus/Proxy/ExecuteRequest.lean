import Pontus.Proxy.System

/-!
# Executing a request

`executeRequest`, cut where it meets the other sessions: it enters through the
collapser, waits as a follower or takes a connection, rebuilds the session on
it, writes the request, forwards the reply, and gives the connection back when
the pooling mode says so.
-/

namespace Pontus.Proxy

open Lib Protocol Pool

/-- Whether an extended-protocol batch is open behind the messages of a
request; the loop walks them as `responseEndFor` does. -/
def batchLoop : Nat → Bytes → Bool → Bool
  | fuel + 1, rest@(tag :: b₁ :: b₂ :: b₃ :: b₄ :: _), isOpen =>
    let length := beU32 b₁ b₂ b₃ b₄
    if length < 4 then isOpen
    else
      let isOpen :=
        if tag = feSync ∨ tag = feQuery then false
        else if tag = feParse ∨ tag = feBind ∨ tag = feDescribe ∨ tag = feExecute ∨
            tag = feClose ∨ tag = feFunctionCal then true
        else isOpen
      batchLoop fuel (rest.drop (1 + length)) isOpen
  | _, _, isOpen => isOpen

def batchOpenAfter (isOpen : Bool) (data : Bytes) : Bool := batchLoop data.length data isOpen

/-- The `if s.Server == nil` of `executeRequest`. -/
def Proc.proceed (p : Proc) (led : Option Led) : Proc :=
  { p with phase := if p.session.server.isNone then .acquiring led false else .serving led false }

def enter (cfg : Config) (s : System) (i : Nat) (p : Proc) : Option Change :=
  if p.phase ≠ .entering then none
  else
    match collapse cfg.hash s.inFlight p.session with
    | .alone => some { proc := p.proceed none, events := [.entered i] }
    | .follow call => some { proc := { p with phase := .following call }, events := [.entered i] }
    | .lead key =>
      some { proc := p.proceed (some ⟨s.nextCall, key⟩)
             call := some (s.nextCall, .new)
             inFlight := some (key, some s.nextCall)
             events := [.entered i] }

def follow (s : System) (i : Nat) (p : Proc) (writeFails : Bool) : Option Change :=
  match p.phase with
  | .following call =>
    if !(s.calls call).done then none
    else
      match (s.calls call).answer with
      | some data =>
        some { proc := { p with
                phase := .returning none writeFails
                batchOpen := batchOpenAfter p.batchOpen p.session.data }
               events := if writeFails then [] else [.shared i call data] }
      | none => some { proc := p.proceed none }
  | _ => none

/-- What the network does while a connection is acquired: whom the balancer
picked, whether a fresh connection can be authenticated for this session and
was, and the rounds in which a replica is asked for the session's last write. -/
structure AcquireEnv where
  picked : Option (Bytes × Source)
  authenticates : Bool
  authenticated : Bool
  replica : Bool
  rounds : List RoundTrip

/-- `acquireForSession` returns a connection.  A read on a replica waits for
the session's last write; a replica that does not catch up is given back and
the primary is asked. -/
def obtained (s : System) (i : Nat) (p : Proc) (led : Option Led) (retry : Bool) (backend : Bytes)
    (c : Nat) (conn : PoolConn) (env : AcquireEnv) : Option Change :=
  let handed := Event.handed i c p.session.identity conn
  let install (conn : PoolConn) : Change :=
    { proc := { p with
        session := { p.session with
          backend := some backend, server := some c, shouldReplay := true }
        phase := .serving led true }
      conn := some (c, conn)
      events := [handed] }
  if !retry && p.session.queryInfo.readOnly && p.session.state.lastLSN ≠ [] && env.replica then
    match conn.roundTrips env.rounds, waitLSN env.rounds with
    | some conn, some true => some (install conn)
    | some conn, some false =>
      some { proc := { p with phase := .acquiring led true }
             conn := some (c, conn.release (s.draining backend))
             events := [.released i c conn, handed] }
    | _, _ => none
  else some (install conn)

def acquire (cfg : Config) (s : System) (i : Nat) (p : Proc) (env : AcquireEnv) : Option Change :=
  match p.phase with
  | .acquiring led retry =>
    match env.picked with
    | none => some { proc := { p with phase := .acquiringHome led retry } }
    | some (backend, source) =>
      let identity := p.session.identity
      (s.take i ⟨backend, identity⟩ source).bind fun (c, conn) =>
        let giveBack (conn : PoolConn) : Change :=
          { proc := { p with phase := .acquiringHome led retry }
            conn := some (c, conn.release (s.draining backend))
            events := [.released i c conn] }
        if conn.conn.ready && conn.conn.belongsTo identity then
          obtained s i p led retry backend c conn env
        else if !conn.conn.ready && cfg.credentials && env.authenticates then
          let packet := writeStartup identity.user identity.database
          let conn := { conn with wire := conn.wire.startup packet env.authenticated }
          if env.authenticated then
            let conn := { conn with conn := (conn.conn.setIdentity identity).markReady }
            obtained s i p led retry backend c conn env
          else some (giveBack conn)
        else some (giveBack conn)
  | _ => none

/-- The second half: the backend that carried this session's handshake. -/
def acquireHome (s : System) (i : Nat) (p : Proc) (source : Option Source) (env : AcquireEnv) :
    Option Change :=
  match p.phase with
  | .acquiringHome led retry =>
    let failed : Proc := { p with phase := .returning led true }
    match p.session.homeBackend, source with
    | some home, some source =>
      let identity := p.session.identity
      (s.take i ⟨home, identity⟩ source).bind fun (c, conn) =>
        if !conn.conn.ready || !conn.conn.belongsTo identity then
          some { proc := failed
                 conn := some (c, conn.release (s.draining home))
                 events := [.released i c conn] }
        else obtained s i p led retry home c conn env
    | _, _ => some { proc := failed }
  | _ => none

inductive ReplayItem
  | setting (name query : Bytes)
  | statement (name query : Bytes)
  deriving DecidableEq

namespace ReplayItem

def message : ReplayItem → Bytes
  | setting _ query => simpleQuery query
  | statement name query => parseMessage name query ++ syncMessage

def effect : ReplayItem → Effect
  | setting name _ => .setting name
  | statement name _ => .statement name

def isHeld (conn : Conn) : ReplayItem → Bool
  | setting _ _ => false
  | statement name _ => conn.hasStatement name

def record (conn : Conn) : ReplayItem → Conn
  | setting _ _ => conn
  | statement name _ => conn.addStatement name

end ReplayItem

structure AwaitTrip where
  setDeadline : Option NetError
  trip : RoundTrip

def AwaitTrip.await (t : AwaitTrip) : Option Bool :=
  match t.trip.writeError with
  | some _ => some false
  | none => awaitReply t.setDeadline t.trip.reads

structure Replayed where
  conn : PoolConn
  messages : List Bytes
  succeeded : Bool

/-- The loops of `ReplaySessionState` and `ReplayPreparedStatements`, one
behind the other; the first failure ends both. -/
def replayLoop (i : Nat) : PoolConn → List ReplayItem → List AwaitTrip → Option Replayed
  | c, [], [] => some ⟨c, [], true⟩
  | _, [], _ :: _ => none
  | c, item :: items, trips =>
    if item.isHeld c.conn then replayLoop i c items trips
    else
      match trips with
      | [] => none
      | t :: trips =>
        match c.roundTrip t.trip, t.await with
        | some c, some succeeded =>
          let c := { c with wire := c.wire.leave i [item.effect] }
          if succeeded then
            (replayLoop i { c with conn := item.record c.conn } items trips).map fun r =>
              { r with messages := item.message :: r.messages }
          else if trips.isEmpty then some ⟨c, [item.message], false⟩
          else none
        | _, _ => none

def replayItems (state : SessionState) (varOrder stmtOrder : List Bytes) : List ReplayItem :=
  varOrder.map (fun name => .setting name ((state.vars.lookup name).getD [])) ++
    stmtOrder.map (fun name => .statement name ((state.stmts.lookup name).getD []))

structure ServeEnv where
  varOrder : List Bytes
  stmtOrder : List Bytes
  replays : List AwaitTrip
  writeError : Option NetError
  /-- the backend's answer to the request, and what the request leaves behind -/
  reply : List Frame
  forgets : List Effect
  effects : List Effect
  setDeadline : Option NetError
  relay : Option NetError
  passes : List Pass
  lsn : RoundTrip

def ServeEnv.taken (env : ServeEnv) : Bytes := (env.passes.map Pass.data).flatten

def ServeEnv.readFails (env : ServeEnv) : Bool := env.passes.any fun p => p.readError.isSome

def replaySession (i : Nat) (s : Session) (c : PoolConn) (env : ServeEnv) : Option Replayed :=
  if !s.shouldReplay then if env.replays.isEmpty then some ⟨c, [], true⟩ else none
  else if env.varOrder.isPerm s.state.vars.keys && env.stmtOrder.isPerm s.state.stmts.keys then
    (replayLoop i c (replayItems s.state env.varOrder env.stmtOrder) env.replays).map fun r =>
      { r with conn := r.conn.markBrokenIf (!r.succeeded) }
  else none

/-- The buffer the reply is remembered in, if anybody wants it. -/
def captureFor (cfg : Config) (s : Session) (led : Option Led) : Option ResponseCapture :=
  match s.responseCapture with
  | some buf => some (newResponseCapture buf cfg.maxCaptureBytes)
  | none => led.map fun _ => newResponseCapture [] cfg.maxCaptureBytes

def callResult (r : Response) : InflightCall where
  done := false
  data := (r.capture.map ResponseCapture.bytes).getD []
  err :=
    if r.err.isSome then some .failed
    else if (r.capture.map ResponseCapture.overflowed).getD false then some .captureTooLarge
    else none

/-- The request reached the backend and its reply was forwarded as far as it
went; the session, its connection and the response. -/
structure Answered where
  session : Session
  conn : PoolConn
  response : Response

def forwardReply (cfg : Config) (i : Nat) (s : Session) (led : Option Led) (c : PoolConn)
    (env : ServeEnv) : Option Answered :=
  match ((c.wire.forget env.forgets).leave i env.effects).exchange env.reply env.taken,
    proxyResponse env.setDeadline env.relay (captureFor cfg s led) s.queryInfo.readOnly
      (responseEndFor s.data) env.passes with
  | some wire, some r =>
    if r.unread = [] then
      some {
        session := { s with
          state := settleTransaction (trackRequest s.state s.data) r.state
          responseCapture := s.responseCapture.bind fun _ => r.capture.map ResponseCapture.buf
          replyFailed := r.failed.getD s.replyFailed }
        conn :=
          { c with
            wire := wire
            conn := c.conn.addStatement (parseStatementName s.data) }.markBrokenIf
            (env.readFails || r.err == some NetError.deadlineExceeded)
        response := r }
    else none
  | _, _ => none

/-- The write position of the primary, after a write that went well. -/
def recordLSN (a : Answered) (env : ServeEnv) : Option Answered :=
  if !a.session.queryInfo.readOnly && a.response.err.isNone then
    match a.conn.roundTrip env.lsn, getCurrentLSN env.lsn with
    | some conn, some (.ok lsn) =>
      some { a with
        conn := conn
        session := { a.session with state := { a.session.state with lastLSN := lsn } } }
    | some conn, some (.error _) => some { a with conn := conn }
    | _, _ => none
  else some a

/-- The end of `executeRequest`: give the connection back or keep it, and
report the backend's failure. -/
def settle (cfg : Config) (s : System) (i : Nat) (p : Proc) (led : Option Led) (c : Nat)
    (a : Answered) (events : List Event) : Change :=
  let failed := a.response.err.isSome && !a.response.isReadOnlyErr
  let batchOpen := batchOpenAfter p.batchOpen p.session.data
  let call := led.map fun l => (l.call, callResult a.response)
  if cfg.pooling.shouldReleaseAt a.response.state (isPinned a.session.state) then
    let conn := if cfg.credentials then a.conn.markDirty else a.conn
    { proc := ⟨{ a.session with server := none }, .returning led failed, batchOpen⟩
      conn := some (c, conn.release (s.isDraining a.session.backend))
      call := call
      events := .released i c conn :: events }
  else
    { proc := ⟨a.session, .returning led failed, batchOpen⟩
      conn := some (c, a.conn)
      call := call
      events := events }

/-- The rest of `executeRequest`, on the connection the session holds. -/
def serve (cfg : Config) (s : System) (i : Nat) (p : Proc) (env : ServeEnv) : Option Change :=
  match p.phase, p.session.server with
  | .serving led _, some c =>
    match replaySession i p.session (s.conns c) env with
    | none => none
    | some replayed =>
      let replay := Event.replayed i c replayed.messages p.session.state.txState p.batchOpen
      if !replayed.succeeded then
        some { proc := { p with phase := .returning led true }
               conn := some (c, replayed.conn)
               events := [replay] }
      else if env.writeError.isSome then
        let conn := replayed.conn.markBroken
        some { proc := { p with
                session := { p.session with server := none }, phase := .returning led true }
               conn := some (c, conn.release (s.isDraining p.session.backend))
               events := [.released i c conn, replay] }
      else
        ((forwardReply cfg i p.session led replayed.conn env).bind (recordLSN · env)).map
          fun a =>
            let reply :=
              if a.response.err.isNone then [Event.replied i (led.map Led.call) env.taken]
              else []
            settle cfg s i p led c a (reply ++ [.wrote i c p.session.data, replay])
  | _, _ => none

/-- The deferred end of a leader: nobody can join its call any more, and those
who did go on. -/
def finish (s : System) (p : Proc) : Option Change :=
  match p.phase with
  | .returning none failed => some { proc := { p with phase := .concluding failed } }
  | .returning (some led) failed =>
    some { proc := { p with phase := .concluding failed }
           call := some (led.call, { s.calls led.call with done := true })
           inFlight := some (led.key, none) }
  | _ => none

end Pontus.Proxy
