import Pontus.Protocol.Proofs.RoundTrip
import Pontus.Proxy.Proofs.Ownership
import Pontus.Proxy.Proofs.Response

/-!
# Replies that are read to their end

The scanner may report the end of a reply before its last byte has come.  When
the first read that holds a byte at which the reply can end holds all that is
left of it, nothing stays on the connection, and the state reported is the one
the backend reported last.
-/

namespace Pontus.Proxy

open Lib Protocol Pool Protocol.ReplyScanner
open Protocol.TransactionState
open Pontus.Lib.Frame (encodeAll)

variable {c c' : PoolConn}

variable {cfg : Config} {i : Nat} {session : Session} {led : Option Led} {c : PoolConn}
  {env : ServeEnv} {a : Answered}

/-! ## The last status -/

def endStatus (reply : List Frame) : Option TransactionState :=
  reply.getLast?.bind fun m =>
    match m.body with
    | [b] => if isReadyForQuery m then some (transactionStatus b) else none
    | _ => none

theorem endStatus_eq (h : endStatus reply = some st) :
    ∃ before m b, reply = before ++ [m] ∧ isReadyForQuery m ∧ m.body = [b] ∧
      st = transactionStatus b := by
  obtain ⟨m, hlast, hm⟩ := bind_eq_some_iff.1 h
  split at hm
  · rename_i b hbody
    split at hm
    · rename_i hready
      cases hm
      exact ⟨reply.dropLast, m, b, (List.dropLast_append_getLast? m hlast).symm, hready, hbody, rfl⟩
    · cases hm
  · cases hm

theorem lastStatus_of_endStatus (before : TransactionState) (h : endStatus reply = some st) :
    lastStatus before reply = st := by
  obtain ⟨_, m, _, rfl, hready, hbody, rfl⟩ := endStatus_eq h
  have htag : m.tag = 'Z'.toUInt8 := eq_of_beq hready
  unfold lastStatus
  rw [foldl_append, foldl_cons, foldl_nil, hbody]
  dsimp only
  rw [if_pos htag]

theorem streamSignals_endStatus {ending : ResponseEnd} {reply : List Frame}
    {st : TransactionState} (h : endStatus reply = some st) :
    ∃ before, streamSignals ending reply = before ++ [some (.status st)] := by
  obtain ⟨ms, m, _, rfl, hready, hbody, rfl⟩ := endStatus_eq h
  have htag : m.tag = 'Z'.toUInt8 := eq_of_beq hready
  refine ⟨streamSignals ending ms ++ [none, none, none, none, headerSignal ending m], ?_⟩
  unfold streamSignals
  rw [List.flatMap_append, flatMap_cons, List.flatMap_nil, byteSignals, bodySignals, hbody]
  dsimp only
  rw [if_pos htag]
  simp

/-! ## The read that ends a reply -/

def endsWithReply : List (Option Signal) → List Bytes → Bool
  | _, [] => true
  | signals, chunk :: chunks =>
    if (signals.take chunk.length).any Option.isSome then (signals.drop chunk.length).isEmpty
    else endsWithReply (signals.drop chunk.length) chunks

theorem endsWithReply_of_last (h : ∀ j sig, signals[j]? = some (some sig) → j + 1 = signals.length)
    (chunks : List Bytes) : endsWithReply signals chunks := by
  induction chunks generalizing signals with
  | nil => rfl
  | cons chunk _ ih =>
    rw [endsWithReply]
    split
    · rename_i hsignal
      obtain ⟨_, hx, hsome⟩ := any_eq_true.1 hsignal
      obtain ⟨sig, rfl⟩ := isSome_iff_exists.1 hsome
      obtain ⟨j, hj⟩ := List.getElem?_of_mem hx
      have hbound : j < chunk.length := by
        have hlt := (List.getElem?_eq_some_iff.1 hj).1
        rw [length_take] at hlt
        omega
      rw [List.getElem?_take_of_lt hbound] at hj
      have hlast := h j sig hj
      rw [List.isEmpty_iff, List.drop_eq_nil_iff]
      omega
    · apply ih
      intro j sig hj
      rw [List.getElem?_drop] at hj
      have hlast := h (chunk.length + j) sig hj
      rw [length_drop]
      omega

theorem endsWithReply_once {ending : ResponseEnd} {ready : Frame}
    (hending : ending.onReadyForQuery) (hbefore : ∀ m ∈ before, ¬isReadyForQuery m)
    (hready : isReadyForQuery ready) (hbody : ready.body = [status]) (chunks : List Bytes) :
    endsWithReply (streamSignals ending (before ++ [ready])) chunks := by
  apply endsWithReply_of_last
  intro _ _ hj
  obtain ⟨_, m, _, ⟨_, _, hsplit, hstart⟩, hsignal, rfl⟩ := streamSignals_getElem.1 hj
  have hm : isReadyForQuery m := by
    unfold signalOf at hsignal
    rw [hending] at hsignal
    split at hsignal
    · rename_i htag
      exact beq_iff_eq.2 htag
    · cases hsignal
  -- the message that signals is the last one
  obtain ⟨rfl, rfl, rfl⟩ := split_at_last hsplit hbefore hm
  rw [signalOf, if_pos (eq_of_beq hready), hbody] at hsignal
  cases hsignal
  rw [length_streamSignals, Frame.encodeAll_append, length_append, hstart,
    Frame.encodeAll_cons, Frame.encodeAll_nil, append_nil, Frame.length_encode, hbody]
  rfl

section
variable {ending : ResponseEnd} {reply : List Frame} {pre : List Bytes} {chunk rest : Bytes}

theorem any_signal_iff (hsplit : encodeAll reply = pre.flatten ++ chunk ++ rest) :
    (((streamSignals ending reply).drop pre.flatten.length).take chunk.length).any Option.isSome =
      (feed (feedAll (newReplyScanner ending) pre) chunk).2.1 := by
  rw [feed_stream hsplit, Bool.eq_iff_iff, report_done_iff, any_eq_true]
  constructor
  · intro ⟨_, hx, hsome⟩
    obtain ⟨sig, rfl⟩ := isSome_iff_exists.1 hsome
    exact .inr ⟨sig, hx⟩
  · intro h
    rcases h with h | ⟨sig, hsignal⟩
    · cases h
    · exact ⟨some sig, hsignal, rfl⟩

theorem endsWithReply_skip {before : List Bytes}
    (hsplit : encodeAll reply = (before ++ after).flatten ++ tail)
    (hunfinished : Unfinished (newReplyScanner ending) (before ++ after))
    (h : endsWithReply ((streamSignals ending reply).drop before.flatten.length)
      (after ++ chunks)) :
    endsWithReply ((streamSignals ending reply).drop (before ++ after).flatten.length)
      chunks := by
  induction after generalizing before with
  | nil =>
    rw [append_nil]
    exact h
  | cons c after ih =>
    have hcut : encodeAll reply = before.flatten ++ c ++ (after.flatten ++ tail) := by
      rw [hsplit]
      simp
    have hgo := hunfinished before c after rfl
    rw [cons_append, endsWithReply, any_signal_iff hcut, hgo,
      if_neg Bool.false_ne_true, List.drop_drop] at h
    have hmove : before ++ c :: after = (before ++ [c]) ++ after := by simp
    rw [hmove] at hsplit hunfinished ⊢
    apply ih hsplit hunfinished
    have hlen : (before ++ [c]).flatten.length = before.flatten.length + c.length := by simp
    rw [hlen]
    exact h

/-- **The read that ends the reply is its last.**  The state it reports is the
last status of the reply. -/
theorem whole_of_done (hsplit : encodeAll reply = pre.flatten ++ chunk ++ rest)
    (hunfinished : Unfinished (newReplyScanner ending) pre)
    (hdone : (feed (feedAll (newReplyScanner ending) pre) chunk).2.1)
    (hends : endsWithReply (streamSignals ending reply) (pre ++ [chunk])) :
    rest = [] ∧ ∀ st, endStatus reply = some st →
      (feed (feedAll (newReplyScanner ending) pre) chunk).2.2 = st := by
  have hskip : endsWithReply ((streamSignals ending reply).drop pre.flatten.length)
      [chunk] = true := by
    have hwhole : encodeAll reply = ([] ++ pre).flatten ++ (chunk ++ rest) := by
      rw [hsplit, nil_append, append_assoc]
    exact endsWithReply_skip hwhole hunfinished hends
  rw [endsWithReply, any_signal_iff hsplit, hdone, if_pos rfl, List.isEmpty_iff,
    List.drop_drop] at hskip
  have hlen : (encodeAll reply).length ≤ pre.flatten.length + chunk.length := by
    rw [← length_streamSignals ending]
    exact List.drop_eq_nil_iff.1 hskip
  have hparts : (encodeAll reply).length =
      pre.flatten.length + chunk.length + rest.length := by
    rw [hsplit, length_append, length_append]
  refine ⟨List.eq_nil_of_length_eq_zero (by omega), ?_⟩
  intro st hstate
  obtain ⟨before, hsignals⟩ := @streamSignals_endStatus ending reply st hstate
  have htotal : before.length + 1 = (encodeAll reply).length := by
    rw [← length_streamSignals ending, hsignals, length_append, List.length_singleton]
  have hchunk : chunk ≠ [] := by
    intro hnil
    rw [hnil, feed_nil] at hdone
    cases hdone
  have hpos := length_pos_iff.2 hchunk
  have hshort : (before.drop pre.flatten.length ++ [some (Signal.status st)]).length ≤
      chunk.length := by
    rw [length_append, length_drop, List.length_singleton]
    omega
  rw [feed_stream hsplit, hsignals, List.drop_append_of_le_length (by omega),
    List.take_of_length_le hshort, report_last_status]
  nofun

end

/-! ## Connections with nothing unread -/

/-- Whatever the backend has sent has been read, or the connection will not be
used again. -/
def NothingUnread (c : PoolConn) : Prop := c.conn.broken = true ∨ c.wire.unread = []

def RestsAt (status : TransactionState) (c : PoolConn) : Prop :=
  c.conn.broken = true ∨ c.wire.unread = [] ∧ c.wire.status = status

theorem RestsAt.nothingUnread (h : RestsAt status c) : NothingUnread c := by
  rcases h with hbroken | ⟨hunread, -⟩
  · exact .inl hbroken
  · exact .inr hunread

theorem markBrokenIf_broken (c : PoolConn) (failed : Bool) :
    (c.markBrokenIf failed).conn.broken = (failed || c.conn.broken) := by
  cases failed <;> rfl

theorem markBrokenIf_wire (c : PoolConn) (failed : Bool) :
    (c.markBrokenIf failed).wire = c.wire := by
  cases failed <;> rfl

theorem addStatement_broken (c : Conn) (name : Bytes) :
    (c.addStatement name).broken = c.broken := by
  unfold Conn.addStatement
  split <;> rfl

theorem record_broken (c : Conn) (item : ReplayItem) : (item.record c).broken = c.broken := by
  cases item with
  | setting => rfl
  | statement name => exact addStatement_broken c name

theorem roundTrip_broken (h : c.roundTrip t = some c') (hbroken : c.conn.broken) :
    c'.conn.broken := by
  cases roundTripped h with
  | unwritten => rfl
  | exchanged => rw [markBrokenIf_broken, hbroken, Bool.or_true]

structure ReadWhole (c : PoolConn) (reply : List Frame) (c' : PoolConn) : Prop where
  unread : NothingUnread c'
  status : ∀ status, endStatus reply = some status → RestsAt status c'

theorem readWhole_of_broken (h : c'.conn.broken) : ReadWhole c reply c' :=
  ⟨.inl h, fun _ _ => .inl h⟩

theorem readWhole_of_taken (hc : NothingUnread c)
    (hbroken : c.conn.broken → c'.conn.broken) (htaken : taken = encodeAll reply)
    (hunread : c'.wire.unread = (c.wire.unread ++ encodeAll reply).drop taken.length)
    (hstatus : c'.wire.status = lastStatus c.wire.status reply) : ReadWhole c reply c' := by
  rcases hc with hc | hc
  · exact readWhole_of_broken (hbroken hc)
  · rw [hc, htaken, nil_append, List.drop_length] at hunread
    refine ⟨.inr hunread, ?_⟩
    intro _ hend
    rw [lastStatus_of_endStatus _ hend] at hstatus
    exact .inr ⟨hunread, hstatus⟩

/-- **A probe that was answered** has read the reply, or failed and broken the
connection. -/
theorem readWhole_of_probe {α β : Type} {visit : α → Bytes → α ⊕ β} {start : α} {t : RoundTrip}
    (ht : t.orderly) (hready : ∀ m acc rest result, visit acc (m.encode ++ rest) = .inr result →
      isReadyForQuery m) (hprobe : probe visit start t ≠ none) (hc : NothingUnread c)
    (h : c.roundTrip t = some c') : ReadWhole c t.reply c' := by
  obtain ⟨result, hresult⟩ := Option.ne_none_iff_exists'.1 hprobe
  cases roundTripped h with
  | unwritten => exact readWhole_of_broken rfl
  | @exchanged _ hwrite _ hwire =>
    cases result with
    | error =>
      unfold probe at hresult
      rw [hwrite] at hresult
      have hfails : t.readFails := probeLoop_error hresult
      apply readWhole_of_broken
      rw [hfails]
      rfl
    | ok result =>
      have hwhole := (RoundTrip.probe_invariant (I := fun _ _ => True)
        (fun _ _ _ _ _ _ _ => trivial) ht hwrite trivial
        (fun m acc rest => hready m acc rest result) hresult).1
      refine readWhole_of_taken hc ?_ hwhole ?_ ?_
      · intro hbroken
        rw [markBrokenIf_broken, hbroken, Bool.or_true]
      · rw [markBrokenIf_wire, hwire]
      · rw [markBrokenIf_wire, hwire]

theorem readWhole_of_execute (ht : t.orderly) (hexecutes : execute t = some true)
    (hc : NothingUnread c) (h : c.roundTrip t = some c') : ReadWhole c t.reply c' := by
  obtain ⟨hwhole, hnone, -⟩ := RoundTrip.of_execute ht hexecutes
  cases roundTripped h with
  | unwritten hwrite => exact absurd hnone hwrite
  | @exchanged _ _ _ hwire =>
    refine readWhole_of_taken hc ?_ hwhole ?_ ?_
    · intro hbroken
      rw [markBrokenIf_broken, hbroken, Bool.or_true]
    · rw [markBrokenIf_wire, hwire]
    · rw [markBrokenIf_wire, hwire]

def restsIdle (t : RoundTrip) : Bool := t.orderly && endStatus t.reply == some stateIdle

theorem roundTrips_idle {rounds : List RoundTrip} (hrounds : rounds.all restsIdle)
    (hwait : waitLSN rounds ≠ none) (hc : RestsAt stateIdle c) (h : c.roundTrips rounds = some c') :
    RestsAt stateIdle c' := by
  induction rounds generalizing c with
  | nil => exact absurd rfl hwait
  | cons t rounds ih =>
    rw [all_cons, and_eq_true, restsIdle, and_eq_true, beq_iff_eq] at hrounds
    obtain ⟨⟨horderly, hidle⟩, hrest⟩ := hrounds
    obtain ⟨_, hd, hrounds'⟩ := bind_eq_some_iff.1 h
    unfold waitLSN at hwait
    have hprobe : probe visitCaughtUp false t ≠ none := by
      intro hnone
      rw [hnone] at hwait
      exact hwait rfl
    have hwhole := readWhole_of_probe horderly (fun _ _ _ _ => visitCaughtUp_settled) hprobe
      hc.nothingUnread hd
    cases rounds with
    | nil =>
      cases hrounds'
      exact hwhole.status _ hidle
    | cons =>
      refine ih hrest ?_ (hwhole.status _ hidle) hrounds'
      split at hwait
      · exact absurd rfl hwait
      · exact absurd rfl hwait
      · exact absurd rfl hwait
      · exact hwait

/-! ## Awaiting a replay -/

/-- A replay that went well went round over reads that did not end the reply,
and returned after one that did, having met no ErrorResponse. -/
theorem awaitLoop_success (h : awaitLoop scan reads = some true) :
    ∃ pre read, reads = pre ++ [read] ∧ Unfinished scan (pre.map Read.data) ∧
      (feed (feedAll scan (pre.map Read.data)) read.data).2.1 ∧
      (feed (feedAll scan (pre.map Read.data)) read.data).1.sawError = false := by
  induction reads generalizing scan with
  | nil => cases h
  | cons read _ ih =>
    unfold awaitLoop at h
    by_cases hend : read.data ≠ [] ∧ (feed scan read.data).2.1 = true
    · rw [if_pos hend] at h
      split at h
      · rename_i hrest
        rw [List.isEmpty_iff] at hrest
        rw [some_inj, not_eq_true'] at h
        exact ⟨[], read, by rw [hrest]; rfl, unfinished_nil _, hend.2, h⟩
      · cases h
    · rw [if_neg hend] at h
      split at h
      · split at h <;> cases h
      · obtain ⟨pre, last, hsplit, hunfinished, hdone⟩ := ih h
        refine ⟨read :: pre, last, by rw [hsplit]; rfl, ?_, hdone⟩
        refine unfinished_cons.2 ⟨?_, hunfinished⟩
        by_cases hdata : read.data = []
        · rw [hdata, feed_nil]
        · rw [not_and] at hend
          exact eq_false_iff.2 (hend hdata)

def AwaitTrip.readsReply (t : AwaitTrip) : Bool :=
  endsWithReply (streamSignals ⟨true, []⟩ t.trip.reply) (t.trip.reads.map Read.data)

structure Accepted (t : AwaitTrip) (c' : PoolConn) : Prop where
  written : t.trip.writeError = none
  noError : t.trip.reply.any (·.tag == 'E'.toUInt8) = false
  unread : c'.wire.unread = []

theorem accepted_of_await {t : AwaitTrip} (ht : t.readsReply)
    (hawait : t.await = some true) (hunread : c.wire.unread = [])
    (h : c.roundTrip t.trip = some c') :
    Accepted t c' := by
  unfold AwaitTrip.await at hawait
  cases roundTripped h with
  | unwritten hwrite =>
    split at hawait
    · cases hawait
    · rename_i hnone
      exact absurd hnone hwrite
  | @exchanged _ hwrite htaken hwire =>
    rw [hwrite] at hawait
    dsimp only at hawait
    unfold awaitReply at hawait
    split at hawait
    · split at hawait <;> cases hawait
    · obtain ⟨pre, read, hreads, hunfinished, hdone, hsaw⟩ := awaitLoop_success hawait
      rw [hunread, nil_append] at htaken
      obtain ⟨rest, hrest⟩ := htaken
      have hsplit : encodeAll t.trip.reply =
          (pre.map Read.data).flatten ++ read.data ++ rest := by
        rw [← hrest, RoundTrip.taken, hreads]
        simp
      have hends : endsWithReply (streamSignals ⟨true, []⟩ t.trip.reply)
          (pre.map Read.data ++ [read.data]) = true := by
        unfold AwaitTrip.readsReply at ht
        rw [hreads, map_append] at ht
        exact ht
      have hnil := (whole_of_done hsplit hunfinished hdone hends).1
      rw [hnil, append_nil] at hsplit hrest
      refine ⟨hwrite, ?_, ?_⟩
      · rw [← feed_sawError hsplit]
        exact hsaw
      · rw [markBrokenIf_wire, hwire, hunread, hrest]
        exact List.drop_length

theorem nothingUnread_of_await {t : AwaitTrip} (ht : t.readsReply)
    (hawait : t.await = some true) (hc : NothingUnread c) (h : c.roundTrip t.trip = some c') :
    NothingUnread c' := by
  rcases hc with hbroken | hunread
  · exact .inl (roundTrip_broken h hbroken)
  · exact .inr (accepted_of_await ht hawait hunread h).unread

theorem Replays.nothingUnread {trips : List AwaitTrip} {r : Replayed}
    (h : Replays i c items trips r) (htrips : trips.all AwaitTrip.readsReply)
    (hc : NothingUnread c) (hok : r.succeeded) : NothingUnread r.conn := by
  induction h with
  | done => exact hc
  | held _ _ ih => exact ih htrips hc hok
  | @written _ c' item _ _ _ _ _ htrip hawait _ ih =>
    rw [all_cons, and_eq_true] at htrips
    have hnext := nothingUnread_of_await htrips.1 hawait hc htrip
    -- what is left behind and what is recorded concerns neither the reads nor `broken`
    have hrecorded : NothingUnread
        { c' with wire := c'.wire.leave i [item.effect], conn := item.record c'.conn } := by
      unfold NothingUnread
      rw [record_broken]
      exact hnext
    exact ih htrips.2 hrecorded hok
  | refused => cases hok

theorem replaySession_nothingUnread (htrips : env.replays.all AwaitTrip.readsReply)
    (hc : NothingUnread c) (h : replaySession i session c env = some r) : NothingUnread r.conn := by
  rcases replaySession_cases h with ⟨-, -, rfl⟩ | ⟨-, -, -, r', hr', rfl⟩
  · exact hc
  · cases hok : r'.succeeded with
    | false => exact .inl rfl
    | true => exact hr'.nothingUnread htrips hc hok

theorem Replays.unread {trips : List AwaitTrip} {r : Replayed}
    (h : Replays i c items trips r) (htrips : trips.all AwaitTrip.readsReply)
    (hc : c.wire.unread = []) (hok : r.succeeded) : r.conn.wire.unread = [] := by
  induction h with
  | done => exact hc
  | held _ _ ih => exact ih htrips hc hok
  | written _ htrip hawait _ ih =>
    rw [all_cons, and_eq_true] at htrips
    exact ih htrips.2 (accepted_of_await htrips.1 hawait hc htrip).unread hok
  | refused => cases hok

theorem replaySession_unread (htrips : env.replays.all AwaitTrip.readsReply)
    (hc : c.wire.unread = []) (h : replaySession i session c env = some r)
    (hok : r.succeeded) : r.conn.wire.unread = [] := by
  rcases replaySession_cases h with ⟨-, -, rfl⟩ | ⟨-, -, -, _, hr', rfl⟩
  · exact hc
  · rw [markBrokenIf_wire]
    exact hr'.unread htrips hc hok

theorem replaySession_failed (h : replaySession i session c env = some r)
    (hfail : r.succeeded = false) : r.conn.conn.broken := by
  rcases replaySession_cases h with ⟨-, -, rfl⟩ | ⟨-, -, -, _, -, rfl⟩
  · cases hfail
  · rw [markBrokenIf_broken, hfail]
    rfl

/-! ## Forwarding a reply -/

def ServeEnv.clientFails (env : ServeEnv) : Bool :=
  env.passes.any (fun p => p.writeError.isSome) || env.relay.isSome || env.setDeadline.isSome

/-- The reply is read whole: by the time the loop returns, or, if the client
may fail before that, in any case, and then it ends idle. -/
def ServeEnv.readsReply (ending : ResponseEnd) (env : ServeEnv) : Bool :=
  env.taken == Frame.encodeAll env.reply && endStatus env.reply == some stateIdle ||
    !env.clientFails && endsWithReply (streamSignals ending env.reply) (env.passes.map Pass.data) &&
      (!ending.onReadyForQuery || (endStatus env.reply).isSome)

/-- A connection behind a request: read whole and, if the session is idle or
the request failed, idle. -/
structure Settled (r : Response) (c : PoolConn) : Prop where
  unread : NothingUnread c
  failed : r.err ≠ none → RestsAt stateIdle c
  idle : r.state = stateIdle → RestsAt stateIdle c

section
variable (h : Forwarded cfg i session led c env a)
include h

theorem Forwarded.readWhole (hc : NothingUnread c) (htaken : env.taken = encodeAll env.reply) :
    ReadWhole c env.reply a.conn := by
  obtain ⟨_, hwire, hconn⟩ := h.exchange
  refine readWhole_of_taken hc ?_ htaken ?_ ?_
  · intro hbroken
    rw [hconn, markBrokenIf_broken, addStatement_broken, hbroken, Bool.or_true]
  · rw [hconn, markBrokenIf_wire, (exchange_eq hwire).2]
    rfl
  · rw [hconn, markBrokenIf_wire, (exchange_eq hwire).2]
    rfl

theorem Forwarded.status : a.conn.wire.status = lastStatus c.wire.status env.reply := by
  obtain ⟨_, hwire, hconn⟩ := h.exchange
  rw [hconn, markBrokenIf_wire, (exchange_eq hwire).2]
  rfl

theorem Forwarded.wire_unread (hc : c.wire.unread = []) (htaken : env.taken = encodeAll env.reply) :
    a.conn.wire.unread = [] := by
  obtain ⟨_, hwire, hconn⟩ := h.exchange
  rw [hconn, markBrokenIf_wire, (exchange_eq hwire).2]
  dsimp only [Wire.leave, Wire.forget]
  rw [hc, htaken, nil_append, List.drop_length]

theorem Forwarded.broken (hclient : env.clientFails = false) (herr : a.response.err ≠ none) :
    a.conn.conn.broken := by
  unfold ServeEnv.clientFails at hclient
  simp only [or_eq_false_iff, Option.isSome_eq_false_iff, isNone_iff_eq_none,
    any_eq_false] at hclient
  obtain ⟨⟨hwrites, hrelay⟩, hdeadline⟩ := hclient
  have hfails : env.readFails := by
    rcases (proxyResponse_failed h.response herr).2 with ⟨p, hp, hread | hwrite⟩ | hfail | hfail
    · unfold ServeEnv.readFails
      rw [any_eq_true]
      exact ⟨p, hp, Option.isSome_iff_ne_none.2 hread⟩
    · exact absurd (Option.isSome_iff_ne_none.2 hwrite) (hwrites p hp)
    · exact absurd hrelay hfail
    · exact absurd hdeadline hfail
  obtain ⟨_, _, hconn⟩ := h.exchange
  rw [hconn, markBrokenIf_broken, hfails]
  rfl

theorem Forwarded.whole (hunread : c.wire.unread = []) (herr : a.response.err = none)
    (hends : endsWithReply (streamSignals (responseEndFor session.data) env.reply)
      (env.passes.map Pass.data)) :
    env.taken = encodeAll env.reply ∧ ∀ st, endStatus env.reply = some st →
      a.response.state = midSequenceState st (responseEndFor session.data) := by
  obtain ⟨pre, p, hpasses, hread⟩ := proxyResponse_success h.response herr
  rw [h.unread] at hpasses
  obtain ⟨_, hwire, -⟩ := h.exchange
  obtain ⟨rest, hrest⟩ := (exchange_eq hwire).1
  have hempty : ((c.wire.forget env.forgets).leave i env.effects).unread = [] := hunread
  rw [hempty, nil_append] at hrest
  have hsplit : encodeAll env.reply =
      (pre.map Pass.data).flatten ++ p.data ++ rest := by
    rw [← hrest, ServeEnv.taken, hpasses]
    simp
  rw [hpasses, map_append] at hends
  obtain ⟨hnil, hstatus⟩ := whole_of_done hsplit hread.unfinished hread.done hends
  rw [hnil, append_nil] at hrest
  refine ⟨hrest, ?_⟩
  intro st hstate
  rw [hread.state, hstatus st hstate]

theorem Forwarded.failed (herr : a.response.err = none) (htaken : env.taken = encodeAll env.reply) :
    a.response.failed = some (env.reply.any (·.tag == 'E'.toUInt8)) := by
  obtain ⟨pre, p, hpasses, hends⟩ := proxyResponse_success h.response herr
  rw [h.unread] at hpasses
  have hwhole : encodeAll env.reply = (pre.map Pass.data).flatten ++ p.data := by
    rw [← htaken, ServeEnv.taken, hpasses]
    simp
  rw [hends.failed, feed_sawError hwhole]

theorem Forwarded.capture
    (hstart : captureFor cfg session led = some (newResponseCapture [] cfg.maxCaptureBytes))
    (herr : a.response.err = none) :
    ∃ capture, a.response.capture = some capture ∧
      (capture.overflowed ∧ capture.buf = [] ∨
        capture.overflowed = false ∧ capture.buf = env.taken) := by
  obtain ⟨_, _, hpasses, hends⟩ := proxyResponse_success h.response herr
  rw [h.unread] at hpasses
  have hresult := hends.capture
  rw [hstart, foldl_capturePass, ← hpasses] at hresult
  refine ⟨_, hresult, ?_⟩
  rcases foldl_write_cases (Pass.chunks env.passes)
    (c := newResponseCapture [] cfg.maxCaptureBytes) rfl with hover | ⟨hover, hbuffer⟩
  · exact .inl hover
  · rw [Pass.flatten_chunks] at hbuffer
    exact .inr ⟨hover, hbuffer⟩

end

theorem Settled.of_broken (h : c.conn.broken) : Settled r c :=
  ⟨.inl h, fun _ => .inl h, fun _ => .inl h⟩

/-- **Behind a forwarded reply.**  If the connection is still good and the
session idle, the reply said so last. -/
theorem Forwarded.settled
    (h : Forwarded cfg i session led c env a) (hc : NothingUnread c)
    (hreads : env.readsReply (responseEndFor session.data)) :
    a.conn.conn.broken ∨ Settled a.response a.conn ∧
      (a.response.state = stateIdle → endStatus env.reply = some stateIdle) := by
  unfold ServeEnv.readsReply at hreads
  rw [or_eq_true, and_eq_true, and_eq_true, and_eq_true, beq_iff_eq,
    beq_iff_eq, not_eq_true', or_eq_true, not_eq_true'] at hreads
  rcases hreads with ⟨htaken, hidle⟩ | ⟨⟨hclient, hends⟩, hstatus⟩
  · have hwhole := h.readWhole hc htaken
    have hrests := hwhole.status _ hidle
    exact .inr ⟨⟨hwhole.unread, fun _ => hrests, fun _ => hrests⟩, fun _ => hidle⟩
  · by_cases herr : a.response.err = none
    · rcases hc with hbroken | hunread
      · left
        obtain ⟨_, -, hconn⟩ := h.exchange
        rw [hconn, markBrokenIf_broken, addStatement_broken, hbroken, Bool.or_true]
      · obtain ⟨htaken, hstate⟩ := h.whole hunread herr hends
        have hwhole := h.readWhole (.inr hunread) htaken
        have hlast : a.response.state = stateIdle → endStatus env.reply = some stateIdle := by
          intro hidle
          have hready := (ready_of_idle h.response hidle).2
          rw [hready] at hstatus
          obtain ⟨st, hstates⟩ := isSome_iff_exists.1 (hstatus.resolve_left (by decide))
          have hstates' := hstate st hstates
          rw [hidle, midSequenceState, hready] at hstates'
          rw [hstates, hstates']
          rfl
        refine .inr ⟨⟨hwhole.unread, fun hne => absurd herr hne, ?_⟩, hlast⟩
        intro hidle
        exact hwhole.status _ (hlast hidle)
    · exact .inl (h.broken hclient herr)

/-- The reads of the probe hold whole messages, and its reply ends as the reply
before it did. -/
def ServeEnv.readsLSN (ending : ResponseEnd) (env : ServeEnv) : Bool :=
  env.lsn.orderly && (!ending.onReadyForQuery || endStatus env.lsn.reply == endStatus env.reply)

def ServeEnv.readsAll (session : Session) (env : ServeEnv) : Bool :=
  env.replays.all AwaitTrip.readsReply && env.readsReply (responseEndFor session.data) &&
    (session.queryInfo.readOnly || env.readsLSN (responseEndFor session.data))

/-- **Behind a request.** -/
theorem settled_of_served {r : Replayed} {a' : Answered}
    (hreads : env.readsAll session) (hc : NothingUnread c)
    (hreplay : replaySession i session c env = some r)
    (hforwarded : Forwarded cfg i session led r.conn env a) (hrecorded : LSNRecorded a a' env) :
    Settled a'.response a'.conn := by
  unfold ServeEnv.readsAll at hreads
  rw [and_eq_true, and_eq_true, or_eq_true] at hreads
  obtain ⟨⟨hreplays, hreply⟩, hlsn⟩ := hreads
  have hreplayed := replaySession_nothingUnread hreplays hc hreplay
  have hanswered := hforwarded.settled hreplayed hreply
  rw [hrecorded.response]
  rcases hrecorded.conn with hconn | ⟨⟨hwrites, herr⟩, htrip, hprobe⟩
  · rw [hconn]
    rcases hanswered with hbroken | ⟨hsettled, -⟩
    · exact .of_broken hbroken
    · exact hsettled
  · rcases hanswered with hbroken | ⟨hsettled, hlast⟩
    · exact .of_broken (roundTrip_broken htrip hbroken)
    · have hquery : session.queryInfo.readOnly = false := by
        rw [hforwarded.session] at hwrites
        exact hwrites
      rw [hquery, ServeEnv.readsLSN, and_eq_true, or_eq_true, not_eq_true', beq_iff_eq] at hlsn
      obtain ⟨horderly, hsame⟩ := hlsn.resolve_left (by decide)
      have hwhole := readWhole_of_probe horderly (fun _ _ _ _ => visitLSN_settled)
        hprobe hsettled.unread htrip
      refine ⟨hwhole.unread, fun hne => absurd herr hne, ?_⟩
      intro hidle
      have hready := (ready_of_idle hforwarded.response hidle).2
      rw [hready] at hsame
      apply hwhole.status
      rw [hsame.resolve_left (by decide), hlast hidle]

end Pontus.Proxy
