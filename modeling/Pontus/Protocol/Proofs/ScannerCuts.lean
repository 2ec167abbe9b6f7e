import Pontus.Protocol.Proofs.ScannerFrames

/-!
# The reply scanner does not see where a stream is cut

What a chunk reports besides `statePartial` is the last status in it, and the
reports of the chunks add up to the report of the stream.
-/

namespace Pontus.Protocol.ReplyScanner

open Lib TransactionState

variable {ending : ResponseEnd} {ms : List Frame} {stream rest : Bytes}

/-- A ReadyForQuery carries one status byte. -/
def StatusSaid (m : Frame) : Prop :=
  m.tag = 'Z'.toUInt8 → m.body ∈ [['I'.toUInt8], ['T'.toUInt8], ['E'.toUInt8]]

instance : DecidablePred StatusSaid := fun _ => inferInstanceAs (Decidable (_ → _))

def laterState (state next : TransactionState) : TransactionState :=
  if next = statePartial then state else next

/-- The scanner, whether the end was reported, and the last state that was
reported, `statePartial` apart. -/
def feedOn (r : ReplyScanner × Bool × TransactionState) (chunk : Bytes) :
    ReplyScanner × Bool × TransactionState :=
  ((feed r.1 chunk).1, r.2.1 || (feed r.1 chunk).2.1, laterState r.2.2 (feed r.1 chunk).2.2)

def fed (ending : ResponseEnd) (chunks : List Bytes) : ReplyScanner × Bool × TransactionState :=
  chunks.foldl feedOn (newReplyScanner ending, false, statePartial)

theorem laterState_partial (state : TransactionState) : laterState statePartial state = state := by
  cases state <;> rfl

theorem laterState_laterState (h : st ≠ statePartial) (state next : TransactionState) :
    laterState state (laterState st next) = laterState st next := by
  cases next <;> simp [laterState, h]

theorem report_eq (h : some (.status statePartial) ∉ xs) (done : Bool) (state : TransactionState) :
    report done state xs = (done || (report false statePartial xs).1,
      laterState state (report false statePartial xs).2) := by
  induction xs generalizing done state with
  | nil => simp [report, laterState]
  | cons x xs ih =>
    rw [mem_cons, not_or] at h
    rcases x with _ | (_ | st | _)
    · exact ih h.2 done state
    · simp [report, ih h.2 true, laterState_partial]
    · have hstate : st ≠ statePartial := fun hstate => h.1 (by rw [hstate])
      simp [report, ih h.2 true st, laterState_laterState hstate]
    · simp [report, ih h.2 true, laterState_partial]

theorem foldl_feedOn (chunks : List Bytes) (hs : HeaderOpen s)
    (hframed : some .malformed ∉ (transduce feedByte s chunks.flatten).2)
    (hknown : some (.status statePartial) ∉ (transduce feedByte s chunks.flatten).2)
    (done : Bool) (state : TransactionState) :
    chunks.foldl feedOn (s, done, state) = ((transduce feedByte s chunks.flatten).1,
      report done state (transduce feedByte s chunks.flatten).2) := by
  induction chunks generalizing s done state with
  | nil => rfl
  | cons chunk _ ih =>
    rw [flatten_cons, transduce.append, mem_append, not_or] at hframed hknown
    rw [foldl_cons, feedOn, feed_eq_transduce hs hframed.1, flatten_cons,
      transduce.append, report_append, report_eq hknown.1 done state]
    exact ih (transduce_headerOpen chunk hs) hframed.2 hknown.2 _ _

section
variable (hms : ∀ m ∈ ms, StatusSaid m)
include hms

theorem signalOf_ready (hstart : Frame.StartsAt ms start m) (htag : m.tag = 'Z'.toUInt8) :
    ∃ state, state ≠ statePartial ∧ signalOf ending m = some (5, .status state) := by
  obtain ⟨_, _, rfl, -⟩ := hstart
  have hbody := hms m (by simp) htag
  simp only [mem_cons, not_mem_nil, or_false] at hbody
  rw [signalOf, if_pos htag]
  rcases hbody with hbody | hbody | hbody <;> rw [hbody] <;> exact ⟨_, by decide, rfl⟩

theorem status_known : some (.status statePartial) ∉ streamSignals ending ms := by
  intro hmem
  obtain ⟨_, hi⟩ := List.getElem?_of_mem hmem
  obtain ⟨_, m, _, hstart, hsignal, -⟩ := streamSignals_getElem.1 hi
  by_cases htag : m.tag = 'Z'.toUInt8
  · obtain ⟨_, hstate, hready⟩ := signalOf_ready hms hstart htag
    cases hready.symm.trans hsignal
    exact hstate rfl
  · rw [signalOf, if_neg htag] at hsignal
    split at hsignal <;> simp at hsignal

theorem signal_iff (hready : ending.onReadyForQuery) (n : Nat) :
    (∃ sig, some sig ∈ ((streamSignals ending ms).drop 0).take n) ↔
      ∃ start m, Frame.StartsAt ms start m ∧ m.tag = 'Z'.toUInt8 ∧ start + 5 < n := by
  constructor
  · rintro ⟨_, hmem⟩
    obtain ⟨_, -, _, hget⟩ := mem_slice_iff.1 hmem
    obtain ⟨start, m, _, hstart, hsignal, rfl⟩ := streamSignals_getElem.1 hget
    by_cases htag : m.tag = 'Z'.toUInt8
    · obtain ⟨state, -, hstatus⟩ := signalOf_ready hms hstart htag
      cases hstatus.symm.trans hsignal
      exact ⟨start, m, hstart, htag, by omega⟩
    · simp [signalOf, htag, hready] at hsignal
  · rintro ⟨start, m, hstart, htag, _⟩
    obtain ⟨_, -, hstatus⟩ := signalOf_ready hms hstart htag
    have hget := streamSignals_getElem.2 ⟨start, m, 5, hstart, hstatus, rfl⟩
    exact ⟨_, mem_slice_iff.2 ⟨start + 5, Nat.zero_le _, by omega, hget⟩⟩

end

/-- **The scanner does not see chunk boundaries**, wherever the stream breaks off. -/
theorem scanner_ignores_cuts (ending : ResponseEnd) {ms : List Frame}
    (hms : ∀ m ∈ ms, StatusSaid m) {stream rest : Bytes}
    (hcut : Frame.encodeAll ms = stream ++ rest) {chunks chunks' : List Bytes}
    (hchunks : chunks.flatten = stream) (hchunks' : chunks'.flatten = stream) :
    fed ending chunks = fed ending chunks' ∧
      (ending.onReadyForQuery = true → ((fed ending chunks).2.1 = true ↔
        ∃ start m, Frame.StartsAt ms start m ∧ m.tag = 'Z'.toUInt8 ∧
          start + 5 < stream.length)) := by
  have hsignals := transduce.slice feedByte (newReplyScanner ending) [] stream rest
  rw [nil_append, ← hcut, (transduce_encodeAll (resting_new ending) ms).2,
    transduce.nil] at hsignals
  have hfed : ∀ cs : List Bytes, cs.flatten = stream → fed ending cs =
      ((transduce feedByte (newReplyScanner ending) stream).1,
        report false statePartial (((streamSignals ending ms).drop 0).take stream.length)) := by
    rintro cs rfl
    rw [fed, foldl_feedOn cs (headerOpen_new ending), hsignals]
    · rfl
    · rw [hsignals]
      exact fun h => streamSignals_framed ending ms (List.mem_of_mem_drop (List.mem_of_mem_take h))
    · rw [hsignals]
      exact fun h => status_known hms (List.mem_of_mem_drop (List.mem_of_mem_take h))
  refine ⟨(hfed chunks hchunks).trans (hfed chunks' hchunks').symm, fun hready => ?_⟩
  rw [hfed chunks hchunks, report_done_iff, ← signal_iff hms hready]
  simp

def readyBehindCommand : List Frame := [⟨67, [], by decide⟩, ⟨90, [73], by decide⟩]

theorem cut_before_status : fed ⟨true, []⟩ [[67, 0, 0, 0, 4, 90], [0, 0, 0, 5]] =
    fed ⟨true, []⟩ [[67, 0], [0, 0, 4, 90, 0], [0, 0, 5]] :=
  (scanner_ignores_cuts ⟨true, []⟩ (show ∀ m ∈ readyBehindCommand, StatusSaid m by decide)
    (show Frame.encodeAll readyBehindCommand = [67, 0, 0, 0, 4, 90, 0, 0, 0, 5] ++ [73] from rfl)
    rfl rfl).1

end Pontus.Protocol.ReplyScanner
