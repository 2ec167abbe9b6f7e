import Pontus.Proxy.CopyIn
import Pontus.Proxy.Proofs.RequestStream

/-!
# Where a copy ends

The pump forwards buffers of whole messages and looks into each for the end of
the copy only after it has forwarded it; what an interrupted read had taken is
dropped.  So the copy ends where the client said just if no read of the pump
goes past the message that ends it, and an interrupted one stops between two
messages.
-/

namespace Pontus.Proxy

open Lib Protocol Frame
open Pontus.Lib.Frame (encodeAll encodeAll_append)

/-! ## The end of a copy among the messages -/

def throughCopyEnd : List Frame → List Frame
  | [] => []
  | m :: ms => if isCopyEnd m.tag then [m] else m :: throughCopyEnd ms

def hasCopyEnd (ms : List Frame) : Bool := ms.any fun m => isCopyEnd m.tag

section
variable {whole more ms : List Frame}

theorem throughCopyEnd_isFront (ms : List Frame) : throughCopyEnd ms <+: ms := by
  induction ms with
  | nil => exact List.prefix_rfl
  | cons m _ ih =>
    rw [throughCopyEnd]
    split
    · exact (List.prefix_cons_inj m).2 List.nil_prefix
    · exact (List.prefix_cons_inj m).2 ih

theorem throughCopyEnd_eq_nil : throughCopyEnd ms = [] ↔ ms = [] := by
  cases ms with
  | nil => simp [throughCopyEnd]
  | cons =>
    rw [throughCopyEnd]
    split <;> simp

theorem throughCopyEnd_append_end (h : hasCopyEnd whole) (more : List Frame) :
    throughCopyEnd (whole ++ more) = throughCopyEnd whole := by
  induction whole with
  | nil => simp [hasCopyEnd] at h
  | cons m _ ih =>
    rw [cons_append, throughCopyEnd, throughCopyEnd]
    by_cases hend : isCopyEnd m.tag = true
    · rw [if_pos hend, if_pos hend]
    · rw [if_neg hend, if_neg hend, ih]
      simpa [hasCopyEnd, hend] using h

theorem throughCopyEnd_append_data (h : hasCopyEnd whole = false) (more : List Frame) :
    throughCopyEnd (whole ++ more) = whole ++ throughCopyEnd more := by
  induction whole with
  | nil => rfl
  | cons _ _ ih =>
    simp only [hasCopyEnd, any_cons, or_eq_false_iff] at h
    rw [cons_append, throughCopyEnd, h.1, ih h.2]
    rfl

theorem endsCopyInLoop_encodeAll (fuel : Nat) (ms : List Frame)
    (hfuel : (encodeAll ms).length < fuel) :
    endsCopyInLoop fuel (encodeAll ms) = hasCopyEnd ms := by
  induction ms generalizing fuel with
  | nil =>
    cases fuel with
    | zero => omega
    | succ => rfl
  | cons m ms ih =>
    cases fuel with
    | zero => omega
    | succ fuel =>
      rw [encodeAll_cons, length_append, length_encode] at hfuel
      have hlen := messageLength_encode m (encodeAll ms)
      have hdrop : (m.encode ++ encodeAll ms).drop m.encode.length = encodeAll ms := drop_left
      rw [encodeAll_cons]
      have hcons : m.encode ++ encodeAll ms =
          m.tag :: (putU32 (4 + m.body.length) ++ m.body ++ encodeAll ms) := rfl
      rw [hcons] at hlen hdrop ⊢
      rw [endsCopyInLoop, hlen]
      dsimp only
      rw [if_neg (by rw [← hcons, length_append]; omega), hdrop, ih fuel (by omega)]
      cases hend : isCopyEnd m.tag <;> simp [hasCopyEnd, hend]

theorem endsCopyIn_encodeAll (ms : List Frame) : endsCopyIn (encodeAll ms) = hasCopyEnd ms :=
  endsCopyInLoop_encodeAll _ ms (Nat.lt_succ_self _)

end

/-! ## What a read takes and leaves -/

section
variable {bufSize maxMessageBytes fuel : Nat} {closes : Bool} {data : Bytes}
  {pieces : List Bytes} {result : Bytes} {err : Option ReadError} {rest : List Bytes}

/-- A call takes the front of the stream and leaves the rest; one that fails
has a message unfinished in its hands. -/
theorem readRequestFrom_append (hbuffer : 0 < bufSize) (hps : Pieces pieces)
    (h : readRequestFrom bufSize maxMessageBytes closes pieces = some ((result, err), rest)) :
    result ++ rest.flatten = pieces.flatten ∧ Pieces rest ∧
      (pieces ≠ [] → err ≠ none → trailingNeed result ≠ 0) := by
  by_cases hmore : pieces = []
  · subst hmore
    cases closes with
    | false => cases h
    | true =>
      cases h
      exact ⟨rfl, hps, by simp⟩
  obtain ⟨data, tail, honce, hdata⟩ := readOnce_some hbuffer hps hmore
  rw [readRequestFrom, honce] at h
  dsimp only at h
  split at h
  · obtain ⟨⟨rfl, rfl⟩, rfl⟩ := h
    exact ⟨hdata.whole, hdata.pieces, by simp⟩
  · obtain ⟨happend, hrest, hdone, -⟩ := readWholeMessageFrom_append hdata.pieces h
    exact ⟨happend.trans hdata.whole, hrest, fun _ => mt hdone.2⟩

theorem interruptedRead_append (hbuffer : 0 < bufSize) (hps : Pieces pieces)
    (maxMessageBytes arrived : Nat) :
    let read := interruptedRead bufSize maxMessageBytes pieces arrived
    read.1 ++ read.2.flatten = pieces.flatten ∧ Pieces read.2 := by
  have harrived : Pieces (pieces.take arrived) := fun p hp => hps p (List.mem_of_mem_take hp)
  unfold interruptedRead
  cases hread : readRequestFrom bufSize maxMessageBytes true (pieces.take arrived) with
  | none => exact ⟨rfl, hps⟩
  | some read =>
    obtain ⟨⟨data, err⟩, rest⟩ := read
    obtain ⟨happend, hrest, -⟩ := readRequestFrom_append hbuffer harrived hread
    constructor
    · rw [List.flatten_append, ← append_assoc, happend, ← List.flatten_append, take_append_drop]
    · intro p hp
      rcases mem_append.1 hp with hp | hp
      · exact hrest p hp
      · exact hps p (List.mem_of_mem_drop hp)

end

/-! ## The property and the condition -/

section
variable (bufSize maxMessageBytes : Nat) (closes : Bool)

structure EndsWhereSaid (ms : List Frame) (r : Relayed) : Prop where
  /-- the backend got the copy, all of it and nothing else, unless `stop`
  interrupted the pump -/
  written : r.ended ≠ .stopped → r.written = Frame.encodeAll (throughCopyEnd ms)
  /-- what the pump took off the socket are messages of the copy, and the next
  calls of the transaction loop return the messages behind them -/
  kept : ∃ taken later, ms = taken ++ later ∧ taken <+: throughCopyEnd ms ∧
    r.written ++ r.discarded = Frame.encodeAll taken ∧
    r.rest.flatten = Frame.encodeAll later ∧
    ReadsStream closes later (sessionRequests bufSize maxMessageBytes closes r.rest)

/-- No read of the pump goes past the `left` bytes of the copy that are still to
come, or fails on the way; an interrupted one stops between two messages; no
write fails; and what is left for the transaction loop can be read by it. -/
def copyFits : Nat → List PumpTurn → Nat → List Bytes → Bool
  | 0, _, _, _ => true
  | fuel + 1, turns, left, pieces =>
    let turn := turns.headD .undisturbed
    match turn.stop with
    | some arrived =>
      let read := interruptedRead bufSize maxMessageBytes pieces arrived
      decide (read.1.length ≤ left) && trailingNeed read.1 == 0 &&
        sessionFits bufSize maxMessageBytes closes read.2
    | none =>
      callFits bufSize maxMessageBytes closes pieces &&
        match readRequestFrom bufSize maxMessageBytes closes pieces with
        | some ((data, none), rest) =>
          turn.write.isNone && decide (data.length ≤ left) &&
            if endsCopyIn data then sessionFits bufSize maxMessageBytes closes rest
            else copyFits fuel turns.tail (left - data.length) rest
        | _ => true

end

section
variable {bufSize maxMessageBytes : Nat} {closes : Bool} {ms whole more : List Frame}
  {pieces rest : List Bytes} {r : Relayed}

theorem delivered_iff (hbuffer : 0 < bufSize) (h : pieces.flatten = encodeAll ms)
    (hps : Pieces pieces) :
    ReadsStream closes ms (sessionRequests bufSize maxMessageBytes closes pieces) ↔
      sessionFits bufSize maxMessageBytes closes pieces :=
  readRequests_readsStream_iff hbuffer _ h hps (Nat.lt_succ_self _)

theorem EndsWhereSaid.length (h : EndsWhereSaid bufSize maxMessageBytes closes ms r) :
    r.written.length + r.discarded.length + r.rest.flatten.length = (encodeAll ms).length := by
  obtain ⟨taken, later, rfl, -, htaken, hlater, -⟩ := h.kept
  rw [encodeAll_append, length_append, ← htaken, ← hlater, length_append]

theorem endsWhereSaid_stopped_iff (hbuffer : 0 < bufSize)
    (h : data ++ rest.flatten = encodeAll ms) (hrest : Pieces rest) :
    EndsWhereSaid bufSize maxMessageBytes closes ms ⟨[], data, rest, .stopped⟩ ↔
      data.length ≤ (encodeAll (throughCopyEnd ms)).length ∧ trailingNeed data = 0 ∧
        sessionFits bufSize maxMessageBytes closes rest := by
  constructor
  · rintro ⟨-, taken, later, -, ⟨more, hmore⟩, htaken, hlater, hreads⟩
    obtain rfl : data = encodeAll taken := htaken
    refine ⟨?_, trailingNeed_whole taken, (delivered_iff hbuffer hlater hrest).1 hreads⟩
    rw [← hmore, encodeAll_append, length_append]
    exact Nat.le_add_right _ _
  · rintro ⟨hlen, hneed, hfits⟩
    obtain ⟨whole, more, rfl, rfl, hmore⟩ := whole_of_trailingNeed h hneed
    refine ⟨fun hne => absurd rfl hne, whole, more, rfl, ?_, rfl, hmore,
      (delivered_iff hbuffer hmore hrest).2 hfits⟩
    exact prefix_of_length_le (prefix_append _ _) (throughCopyEnd_isFront _) hlen

theorem endsWhereSaid_copyEnded_iff (hbuffer : 0 < bufSize) (hend : hasCopyEnd whole)
    (hmore : rest.flatten = encodeAll more) (hrest : Pieces rest) :
    EndsWhereSaid bufSize maxMessageBytes closes (whole ++ more)
        ⟨encodeAll whole, [], rest, .copyEnded⟩ ↔
      (encodeAll whole).length ≤
          (encodeAll (throughCopyEnd (whole ++ more))).length ∧
        sessionFits bufSize maxMessageBytes closes rest := by
  constructor
  · rintro ⟨hwritten, taken, later, -, -, -, hlater, hreads⟩
    have hwritten : encodeAll whole = encodeAll (throughCopyEnd (whole ++ more)) :=
      hwritten (by simp)
    exact ⟨by rw [hwritten], (delivered_iff hbuffer hlater hrest).1 hreads⟩
  · rintro ⟨hlen, hfits⟩
    have hwhole : whole <+: throughCopyEnd (whole ++ more) :=
      prefix_of_length_le (prefix_append _ _) (throughCopyEnd_isFront _) hlen
    rw [throughCopyEnd_append_end hend] at hwhole
    have heq : whole = throughCopyEnd whole :=
      hwhole.eq_of_length_le (throughCopyEnd_isFront whole).length_le
    refine ⟨fun _ => ?_, whole, more, rfl, ?_, append_nil _, hmore,
      (delivered_iff hbuffer hmore hrest).2 hfits⟩
    · rw [throughCopyEnd_append_end hend, ← heq]
    · rw [throughCopyEnd_append_end hend]
      exact hwhole

theorem endsWhereSaid_goesOn_iff (hdata : hasCopyEnd whole = false) :
    EndsWhereSaid bufSize maxMessageBytes closes (whole ++ more)
        { r with written := encodeAll whole ++ r.written } ↔
      EndsWhereSaid bufSize maxMessageBytes closes more r := by
  have hthrough := throughCopyEnd_append_data hdata more
  constructor
  · rintro ⟨hwritten, taken, later, hms, hprefix, htaken, hlater, hreads⟩
    rw [append_assoc] at htaken
    obtain ⟨took, rfl, htook⟩ := encodeAll_append_inj htaken
    rw [append_assoc] at hms
    rw [hthrough] at hprefix hwritten
    refine ⟨fun hne => ?_, took, later, List.append_cancel_left hms,
      (List.prefix_append_right_inj whole).1 hprefix, htook, hlater, hreads⟩
    have hwritten := hwritten hne
    rw [encodeAll_append] at hwritten
    exact List.append_cancel_left hwritten
  · rintro ⟨hwritten, taken, later, rfl, hprefix, htaken, hlater, hreads⟩
    refine ⟨fun hne => ?_, whole ++ taken, later, (append_assoc ..).symm, ?_, ?_, hlater, hreads⟩
    · rw [hthrough, encodeAll_append, ← hwritten hne]
    · rw [hthrough]
      exact (List.prefix_append_right_inj whole).2 hprefix
    · rw [append_assoc, htaken, encodeAll_append]

theorem not_endsWhereSaid_waiting (hms : ms ≠ []) :
    ¬ EndsWhereSaid bufSize maxMessageBytes closes ms ⟨[], [], rest, .waiting⟩ := by
  intro h
  have hwritten : [] = encodeAll (throughCopyEnd ms) := h.written (by simp)
  exact hms (throughCopyEnd_eq_nil.1 (encodeAll_eq_nil.1 hwritten.symm))

theorem not_endsWhereSaid_writeFailed (hdata : data ≠ [])
    (h : data ++ rest.flatten = encodeAll ms) (taken : Nat) (err : NetError) :
    ¬ EndsWhereSaid bufSize maxMessageBytes closes ms
      ⟨data.dropLast.take taken, [], rest, .writeFailed err⟩ := by
  intro hends
  have hlen := hends.length
  have hshort := length_short_write hdata taken
  rw [← h, length_append] at hlen
  dsimp only [length_nil] at hlen
  omega

theorem not_endsWhereSaid_unfinished (hneed : trailingNeed data ≠ 0) :
    ¬ EndsWhereSaid bufSize maxMessageBytes closes ms ⟨data, [], rest, ended⟩ := by
  rintro ⟨-, taken, later, -, -, htaken, -⟩
  rw [append_nil] at htaken
  obtain rfl : data = encodeAll taken := htaken
  exact hneed (trailingNeed_whole taken)

theorem interruptedRead_nil (arrived : Nat) :
    interruptedRead bufSize maxMessageBytes [] arrived = ([], []) := by
  simp [interruptedRead, readRequestFrom, readOnce]

/-- Behind the last message the pump waits, fails or is stopped, with nothing
in its hands. -/
theorem relayLoop_nil (fuel : Nat) (turns : List PumpTurn) :
    EndsWhereSaid bufSize maxMessageBytes closes []
      (relayLoop bufSize maxMessageBytes closes (fuel + 1) turns []) := by
  have hreads : ReadsStream closes [] (sessionRequests bufSize maxMessageBytes closes []) := by
    rw [sessionRequests, readRequests_nil, readsStream_lastResult]
  have hend (ended : PumpEnd) : EndsWhereSaid bufSize maxMessageBytes closes []
      ⟨[], [], [], ended⟩ :=
    ⟨fun _ => rfl, [], [], rfl, List.prefix_rfl, rfl, rfl, hreads⟩
  rw [relayLoop]
  cases (turns.headD .undisturbed).stop with
  | some arrived =>
    dsimp only
    rw [interruptedRead_nil]
    exact hend _
  | none => cases closes <;> exact hend _

theorem copyFits_nil (fuel : Nat) (turns : List PumpTurn) (left : Nat) :
    copyFits bufSize maxMessageBytes closes (fuel + 1) turns left [] := by
  rw [copyFits]
  cases (turns.headD .undisturbed).stop with
  | some arrived =>
    dsimp only
    rw [interruptedRead_nil]
    have hfits : sessionFits bufSize maxMessageBytes closes [] := requestsFit_nil _
    simp [hfits, trailingNeed, trailingNeedLoop]
  | none => cases closes <;> rfl

end

/-! ## The whole copy -/

section
variable {bufSize maxMessageBytes : Nat} {closes : Bool} {ms : List Frame} {pieces : List Bytes}

theorem relayLoop_endsWhereSaid_iff (hbuffer : 0 < bufSize) (fuel : Nat) (turns : List PumpTurn)
    (h : pieces.flatten = encodeAll ms) (hps : Pieces pieces)
    (hfuel : pieces.flatten.length < fuel) :
    EndsWhereSaid bufSize maxMessageBytes closes ms
        (relayLoop bufSize maxMessageBytes closes fuel turns pieces) ↔
      copyFits bufSize maxMessageBytes closes fuel turns
        (encodeAll (throughCopyEnd ms)).length pieces := by
  induction fuel generalizing turns ms pieces with
  | zero => omega
  | succ fuel ih =>
    by_cases hmore : pieces = []
    · subst hmore
      obtain rfl : ms = [] := encodeAll_eq_nil.1 h.symm
      exact iff_of_true (relayLoop_nil fuel turns) (copyFits_nil fuel turns _)
    have hms : ms ≠ [] := by
      rintro rfl
      exact hmore (hps.flatten_eq_nil.1 h)
    have hreturns : (∃ result rest, readRequestFrom bufSize maxMessageBytes closes pieces =
        some ((result, none), rest)) ↔ _ := readRequestFrom_returns_iff hbuffer h hps hmore
    rw [relayLoop, copyFits]
    cases (turns.headD .undisturbed).stop with
    | some arrived =>
      obtain ⟨happend, hrest⟩ := interruptedRead_append hbuffer hps maxMessageBytes arrived
      rw [endsWhereSaid_stopped_iff hbuffer (happend.trans h) hrest]
      simp [and_assoc]
    | none =>
      rw [and_eq_true, ← hreturns]
      rcases hread : readRequestFrom bufSize maxMessageBytes closes pieces with
        _ | ⟨⟨data, _ | err⟩, rest⟩
      · refine iff_of_false (not_endsWhereSaid_waiting hms) ?_
        simp
      · obtain ⟨whole, more, rfl, hwhole, rfl, hrest, hps'⟩ :=
          readRequestFrom_whole hbuffer h hps hmore hread
        have hne : encodeAll whole ≠ [] := mt encodeAll_eq_nil.1 hwhole
        have hsplit : encodeAll whole ++ rest.flatten =
            encodeAll (whole ++ more) := by
          rw [hrest, encodeAll_append]
        have hpos := length_pos_iff.2 hne
        have hshorter : rest.flatten.length < fuel := by
          rw [h, ← hsplit, length_append] at hfuel
          omega
        dsimp only
        rw [if_neg hne, endsCopyIn_encodeAll]
        cases (turns.headD .undisturbed).write with
        | some =>
          refine iff_of_false (not_endsWhereSaid_writeFailed hne hsplit _ _) ?_
          simp
        | none =>
          dsimp only [writeConn]
          cases hend : hasCopyEnd whole with
          | true =>
            rw [if_pos rfl, if_pos rfl, endsWhereSaid_copyEnded_iff hbuffer hend hrest hps']
            simp
          | false =>
            rw [if_neg (by simp), if_neg (by simp), endsWhereSaid_goesOn_iff hend,
              ih turns.tail hrest hps' hshorter, throughCopyEnd_append_data hend,
              encodeAll_append, length_append, Nat.add_sub_cancel_left]
            simp
      · obtain ⟨happend, -, hneed⟩ := readRequestFrom_append hbuffer hps hread
        have hneed := hneed hmore (by simp)
        have hne : data ≠ [] := by
          rintro rfl
          exact hneed rfl
        refine iff_of_false ?_ (by simp)
        dsimp only
        rw [if_neg hne]
        cases (turns.headD .undisturbed).write with
        | some => exact not_endsWhereSaid_writeFailed hne (happend.trans h) _ _
        | none =>
          dsimp only [writeConn]
          split
          · exact not_endsWhereSaid_unfinished hneed
          · rw [append_nil]
            exact not_endsWhereSaid_unfinished hneed

end

def copyReadsFit (bufSize maxMessageBytes : Nat) (closes : Bool) (turns : List PumpTurn)
    (d : Delivery) : Bool :=
  copyFits bufSize maxMessageBytes closes (d.chunks.flatten.length + 1) turns
    (Frame.encodeAll (throughCopyEnd d.frames)).length d.chunks

/-- **A copy ends where the client said**, whatever messages it sends and however
the network cuts them, just if every read of the pump fits. -/
theorem copy_ends_where_said_iff (bufSize maxMessageBytes : Nat) (hbuffer : 0 < bufSize)
    (closes : Bool) (turns : List PumpTurn) (d : Delivery) :
    EndsWhereSaid bufSize maxMessageBytes closes d.frames
        (copyRelay bufSize maxMessageBytes closes turns d.chunks) ↔
      copyReadsFit bufSize maxMessageBytes closes turns d = true :=
  relayLoop_endsWhereSaid_iff hbuffer _ turns d.whole d.nonempty (Nat.lt_succ_self _)

theorem size_row : 4 + (ascii "1").length < 2 ^ 32 := by decide

def copyThenSync : List Frame :=
  [⟨'d'.toUInt8, ascii "1", size_row⟩, ⟨'c'.toUInt8, [], Frame.size_nil⟩,
    ⟨'S'.toUInt8, [], Frame.size_nil⟩]

def statementApart : Delivery where
  frames := copyThenSync
  chunks := [Frame.encodeAll (copyThenSync.take 2), Frame.encodeAll (copyThenSync.drop 2)]
  nonempty := by decide
  whole := by decide

def statementPipelined : Delivery where
  frames := copyThenSync
  chunks := [Frame.encodeAll copyThenSync]
  nonempty := by decide
  whole := by decide

theorem copy_with_statement_apart :
    copyReadsFit 32768 defaultMaxMessageBytes false [] statementApart = true ∧
      EndsWhereSaid 32768 defaultMaxMessageBytes false copyThenSync
        (copyRelay 32768 defaultMaxMessageBytes false [] statementApart.chunks) := by
  have hfits : copyReadsFit 32768 defaultMaxMessageBytes false [] statementApart = true := by decide
  exact ⟨hfits, (copy_ends_where_said_iff 32768 defaultMaxMessageBytes (by decide) false []
    statementApart).2 hfits⟩

theorem pipelined_statement_swallowed :
    (copyRelay 32768 defaultMaxMessageBytes false [] statementPipelined.chunks =
        ⟨Frame.encodeAll copyThenSync, [], [], .copyEnded⟩ ∧
      ¬ EndsWhereSaid 32768 defaultMaxMessageBytes false copyThenSync
        ⟨Frame.encodeAll copyThenSync, [], [], .copyEnded⟩) ∧
    copyRelay 32768 defaultMaxMessageBytes false [⟨some 1, none⟩] statementPipelined.chunks =
        ⟨[], Frame.encodeAll copyThenSync, [], .stopped⟩ ∧
      ¬ EndsWhereSaid 32768 defaultMaxMessageBytes false copyThenSync
        ⟨[], Frame.encodeAll copyThenSync, [], .stopped⟩ := by
  refine ⟨⟨by decide, ?_⟩, by decide, ?_⟩
  · intro h
    exact absurd (h.written (by simp)) (by decide)
  · rintro ⟨-, taken, later, -, ⟨more, hmore⟩, htaken, -⟩
    have hlen := congrArg List.length htaken
    have hbound : (Frame.encodeAll (taken ++ more)).length = 11 := by
      rw [hmore]
      decide
    have htotal : (Frame.encodeAll copyThenSync).length = 16 := by decide
    simp only [nil_append, encodeAll_append, length_append] at hlen hbound
    omega

end Pontus.Proxy
