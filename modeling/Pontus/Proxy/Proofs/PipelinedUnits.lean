import Pontus.Lib.Lists
import Pontus.Protocol.Proofs.ResponseEnd
import Pontus.Proxy.Proofs.ReplyBoundary
import Pontus.Proxy.ReadRequest

/-!
# Several units in one request

`readRequest` returns pipelined messages together, and a reply to `k` units
carries `k` ReadyForQuery messages.  The response loop returns after the first
read that holds a status byte, so it has waited for the last unit exactly when
all the status bytes arrived in one read.
-/

namespace Pontus.Proxy

open Lib Protocol Protocol.ReplyScanner
open Protocol.TransactionState

variable {start k : Nat} {m : Frame} {sig : Signal} {ending : ResponseEnd} {d : Delivery}
variable {pre post : List Bytes} {chunk : Bytes}

def StatusBodies (frames : List Frame) : Prop :=
  ∀ m ∈ frames, isReadyForQuery m = true → ∃ b, m.body = [b]

theorem startsAt_mem (h : Frame.StartsAt frames start m) : m ∈ frames := by
  obtain ⟨_, _, rfl, -⟩ := h
  simp

theorem signalOf_ready (ending : ResponseEnd) (hready : isReadyForQuery m)
    (hbody : m.body = [b]) : signalOf ending m = some (5, .status (transactionStatus b)) := by
  have htag : m.tag = 'Z'.toUInt8 := by simpa [isReadyForQuery] using hready
  rw [signalOf, if_pos htag, hbody]

theorem ready_of_signal (h : signalOf ⟨true, []⟩ m = some (k, sig)) : isReadyForQuery m := by
  by_cases htag : m.tag = 'Z'.toUInt8
  · simpa [isReadyForQuery] using htag
  · rw [signalOf, if_neg htag] at h
    simp at h

theorem unfinished_or_first (scan : ReplyScanner) (chunks : List Bytes) :
    Unfinished scan chunks ∨ ∃ pre chunk post, chunks = pre ++ chunk :: post ∧
      Unfinished scan pre ∧ (feed (feedAll scan pre) chunk).2.1 := by
  induction chunks generalizing scan with
  | nil => exact .inl (unfinished_nil scan)
  | cons c chunks ih =>
    by_cases hdone : (feed scan c).2.1 = true
    · exact .inr ⟨[], c, chunks, rfl, unfinished_nil scan, hdone⟩
    · have hgo : (feed scan c).2.1 = false := by simpa using hdone
      rcases ih (feed scan c).1 with hall | ⟨pre, chunk, post, hcut, hpre, hend⟩
      · exact .inl (unfinished_cons.2 ⟨hgo, hall⟩)
      · exact .inr ⟨c :: pre, chunk, post, by rw [hcut]; rfl, unfinished_cons.2 ⟨hgo, hpre⟩, hend⟩

theorem exists_read_of_signal (d : Delivery) (hstart : Frame.StartsAt d.frames start m)
    (hsignal : signalOf ending m = some (k, sig)) :
    ∃ pre chunk post, d.chunks = pre ++ chunk :: post ∧
      pre.flatten.length ≤ start + k ∧ start + k < pre.flatten.length + chunk.length := by
  have hget := streamSignals_getElem.2 ⟨start, m, k, hstart, hsignal, rfl⟩
  obtain ⟨hlt, -⟩ := List.getElem?_eq_some_iff.1 hget
  rw [length_streamSignals, ← d.whole] at hlt
  exact exists_chunk_at hlt

theorem Unfinished.signal_after (hcut : d.chunks = pre ++ chunk :: post)
    (hpre : Unfinished (newReplyScanner ending) pre) (hstart : Frame.StartsAt d.frames start m)
    (hsignal : signalOf ending m = some (k, sig)) : pre.flatten.length ≤ start + k := by
  by_contra hbefore
  obtain ⟨xs, c, ys, hsplit, hlo, hhi⟩ := exists_chunk_at (Nat.lt_of_not_le hbefore)
  have hwhole : d.chunks = xs ++ c :: (ys ++ chunk :: post) := by
    rw [hcut, hsplit]
    simp
  have hdone := (feed_done_iff (d.split hwhole)).2 ⟨start, m, k, sig, hstart, hsignal, hlo, hhi⟩
  have hgo := hpre xs c ys hsplit
  rw [hdone] at hgo
  exact absurd hgo (by decide)

def cleanPasses (chunks : List Bytes) : List Pass := chunks.map fun c => ⟨c, none, none⟩

theorem map_data_cleanPasses (chunks : List Bytes) :
    (cleanPasses chunks).map Pass.data = chunks := by
  rw [cleanPasses, map_map]
  exact List.map_id chunks

theorem Pass.chunks_cleanPasses (d : Delivery) : Pass.chunks (cleanPasses d.chunks) = d.chunks := by
  rw [Pass.chunks, map_data_cleanPasses, List.filter_eq_self]
  intro c hc
  simpa using d.nonempty c hc

theorem proxyResponse_clean (hcut : d.chunks = pre ++ chunk :: post)
    (hpre : Unfinished (newReplyScanner ending) pre)
    (hdone : (feed (feedAll (newReplyScanner ending) pre) chunk).2.1) :
    ∃ r, proxyResponse none none none true ending (cleanPasses d.chunks) = some r ∧
      r.err = none ∧ bytesRead (cleanPasses d.chunks) r = pre.flatten.length + chunk.length := by
  have hpasses : cleanPasses d.chunks =
      cleanPasses pre ++ ⟨chunk, none, none⟩ :: cleanPasses post := by
    rw [hcut]
    simp [cleanPasses]
  have hclean : ∀ q ∈ cleanPasses pre, q.readError = none ∧ q.writeError = none := by
    intro q hq
    obtain ⟨_, -, rfl⟩ := mem_map.1 hq
    exact ⟨rfl, rfl⟩
  rw [← map_data_cleanPasses pre] at hpre hdone
  obtain ⟨r, hcall, herr, hunread⟩ := proxyResponse_completes none true
    ⟨chunk, none, none⟩ (cleanPasses post)
    (fun q hq => (hclean q hq).1) (fun q hq => (hclean q hq).2) rfl hpre hdone
  rw [hpasses]
  refine ⟨r, hcall, herr, ?_⟩
  rw [← hunread, bytesRead_split, map_data_cleanPasses]

def WaitsForUnit (k : Nat) (ending : ResponseEnd) (d : Delivery) : Prop :=
  ∀ setDeadline relay capture readOnly passes r, Pass.chunks passes = d.chunks →
    proxyResponse setDeadline relay capture readOnly ending passes = some r → r.err = none →
      ∀ before m after b, d.frames = before ++ m :: after → isReadyForQuery m = true →
        before.countP isReadyForQuery + 1 = k → m.body = [b] →
          (Frame.encodeAll (before ++ [m])).length ≤ bytesRead passes r ∧
            r.state = transactionStatus b

def ReadyInOneRead (d : Delivery) : Prop :=
  ∃ pre chunk post, d.chunks = pre ++ chunk :: post ∧
    ∀ start m, Frame.StartsAt d.frames start m → isReadyForQuery m = true →
      pre.flatten.length ≤ start + 5 ∧ start + 5 < pre.flatten.length + chunk.length

theorem exists_last_ready (h : 1 ≤ frames.countP isReadyForQuery) :
    ∃ before m after, frames = before ++ m :: after ∧ isReadyForQuery m ∧
      before.countP isReadyForQuery + 1 = frames.countP isReadyForQuery ∧
      ∀ x ∈ after, isReadyForQuery x = false := by
  obtain ⟨before, m, after, rfl, hm, hafter⟩ := exists_last (List.countP_pos_iff.1 h)
  refine ⟨before, m, after, rfl, hm, ?_, fun x hx => by simpa using hafter x hx⟩
  rw [List.countP_append, List.countP_cons_of_pos hm, List.countP_eq_zero.2 hafter]

theorem ready_start_le (hafter : ∀ y ∈ after, isReadyForQuery y = false)
    (hstart : Frame.StartsAt (before ++ m :: after) start x) (hx : isReadyForQuery x) :
    start ≤ (Frame.encodeAll before).length := by
  obtain ⟨_, _, hsplit, rfl⟩ := hstart
  rcases split_cases hsplit with ⟨hxs, -, -⟩ | ⟨_, -, hmid⟩ | ⟨_, hmid, -⟩
  · rw [hxs]
  · rw [hafter x (by rw [hmid]; simp)] at hx
    exact absurd hx (by decide)
  · rw [hmid, Frame.encodeAll_append, length_append]
    exact Nat.le_add_right _ _

theorem feed_state_of_last (hcut : d.chunks = pre ++ chunk :: post)
    (hstart : Frame.StartsAt d.frames start m) (hsignal : signalOf ending m = some (5, .status st))
    (hlo : pre.flatten.length ≤ start + 5) (hhi : start + 5 < pre.flatten.length + chunk.length)
    (hlast : ∀ start' m' k' sig', Frame.StartsAt d.frames start' m' →
      signalOf ending m' = some (k', sig') → start' + k' ≤ start + 5) :
    (feed (feedAll (newReplyScanner ending) pre) chunk).2 = (true, st) := by
  rw [feed_stream (d.split hcut)]
  have hhere := streamSignals_getElem.2 ⟨start, m, 5, hstart, hsignal, rfl⟩
  apply report_of_last_status (i := start + 5 - pre.flatten.length)
  · rw [List.getElem?_take, if_pos (by omega), List.getElem?_drop,
      show pre.flatten.length + (start + 5 - pre.flatten.length) = start + 5 by omega]
    exact hhere
  · intro _ sig _ hsome
    rw [List.getElem?_take] at hsome
    split at hsome
    · rw [List.getElem?_drop] at hsome
      obtain ⟨start', m', k', hstart', hsignal', _⟩ := streamSignals_getElem.1 hsome
      have hle := hlast start' m' k' sig hstart' hsignal'
      omega
    · simp at hsome

theorem ready_split_unique (hsplit : before ++ m :: after = before' ++ m' :: after')
    (hm : isReadyForQuery m) (hm' : isReadyForQuery m')
    (hcount : before.countP isReadyForQuery = before'.countP isReadyForQuery) :
    before = before' ∧ m = m' := by
  rcases split_cases hsplit with ⟨hbefore, hmm, -⟩ | ⟨_, hmid, -⟩ | ⟨_, hmid, -⟩
  · exact ⟨hbefore.symm, hmm.symm⟩
  · rw [hmid, List.countP_append, List.countP_cons_of_pos hm] at hcount
    omega
  · rw [hmid, List.countP_append, List.countP_cons_of_pos hm'] at hcount
    omega

/-- **When pipelined units are all answered.** -/
theorem pipelined_units_awaited_iff (request : List Frame) (tail : Bytes) (k : Nat) (d : Delivery)
    (hunits : request.countP closesUnit = k) (hk : 1 ≤ k)
    (hreply : d.frames.countP isReadyForQuery = k) (hstatus : StatusBodies d.frames) :
    WaitsForUnit k (responseEndFor (Frame.encodeAll request ++ tail)) d ↔ ReadyInOneRead d := by
  have hend : responseEndFor (Frame.encodeAll request ++ tail) = ⟨true, []⟩ := by
    apply responseEndFor_of_unit
    exact List.countP_pos_iff.1 (by omega)
  rw [hend]
  obtain ⟨before, m, after, hframes, hm, _, hafter⟩ := exists_last_ready (hreply ▸ hk)
  have hstart : Frame.StartsAt d.frames (Frame.encodeAll before).length m :=
    ⟨before, after, hframes, rfl⟩
  obtain ⟨b, hbody⟩ := hstatus m (startsAt_mem hstart) hm
  have hsignal := signalOf_ready ⟨true, []⟩ hm hbody
  have hlast : ∀ start' m' k' sig', Frame.StartsAt d.frames start' m' →
      signalOf ⟨true, []⟩ m' = some (k', sig') →
        start' + k' ≤ (Frame.encodeAll before).length + 5 := by
    intro start' m' _ _ hstart' hsignal'
    have hready := ready_of_signal hsignal'
    obtain ⟨b', hbody'⟩ := hstatus m' (startsAt_mem hstart') hready
    rw [signalOf_ready _ hready hbody', some_inj, Prod.mk.injEq] at hsignal'
    rw [hframes] at hstart'
    have := ready_start_le hafter hstart' hready
    omega
  have hlen : (Frame.encodeAll (before ++ [m])).length = (Frame.encodeAll before).length + 6 := by
    rw [Frame.encodeAll_append, length_append, Frame.encodeAll_cons, Frame.encodeAll_nil,
      append_nil, Frame.length_encode, hbody]
    rfl
  constructor
  · intro hwaits
    rcases unfinished_or_first (newReplyScanner ⟨true, []⟩) d.chunks with
      hall | ⟨pre, chunk, post, hcut, hpre, hdone⟩
    · -- The status byte of `m` is in some read, which is then reported.
      obtain ⟨pre, chunk, post, hcut, hlo, hhi⟩ := exists_read_of_signal d hstart hsignal
      have hdone := (feed_done_iff (d.split hcut)).2 ⟨_, m, 5, _, hstart, hsignal, hlo, hhi⟩
      rw [hall pre chunk post hcut] at hdone
      exact absurd hdone (by decide)
    · refine ⟨pre, chunk, post, hcut, ?_⟩
      obtain ⟨r, hcall, herr, hread⟩ := proxyResponse_clean hcut hpre hdone
      have hfed := (hwaits none none none true (cleanPasses d.chunks) r (Pass.chunks_cleanPasses d)
        hcall herr before m after b hframes hm (by omega) hbody).1
      intro start' m' hstart' hm'
      obtain ⟨b', hbody'⟩ := hstatus m' (startsAt_mem hstart') hm'
      have hsignal' := signalOf_ready ⟨true, []⟩ hm' hbody'
      refine ⟨Unfinished.signal_after hcut hpre hstart' hsignal', ?_⟩
      have := hlast start' m' 5 _ hstart' hsignal'
      omega
  · intro hone _ _ _ _ _ _ hchunks hcall herr
      before' m' after' b' hframes' hm' hcount' hbody'
    obtain ⟨_, _, _, hcut, hall⟩ := hone
    obtain ⟨_, _, _, hcut', _, hdone', hstate, hread⟩ :=
      proxyResponse_reads hcall herr
    rw [hchunks] at hcut'
    -- The read that ended the reply holds a status byte, so it is the one read.
    obtain ⟨s₁, m₁, _, _, hstart₁, hsignal₁, _, _⟩ :=
      (feed_done_iff (d.split hcut')).1 hdone'
    have hready₁ := ready_of_signal hsignal₁
    obtain ⟨_, hbody₁⟩ := hstatus m₁ (startsAt_mem hstart₁) hready₁
    rw [signalOf_ready _ hready₁ hbody₁, some_inj, Prod.mk.injEq] at hsignal₁
    obtain ⟨hlo, hhi⟩ := hall s₁ m₁ hstart₁ hready₁
    obtain ⟨rfl, rfl⟩ := chunk_at_unique hcut hcut' hlo hhi (by omega) (by omega)
    obtain ⟨rfl, rfl⟩ := ready_split_unique (hframes'.symm.trans hframes) hm' hm (by omega)
    have hb : b' = b := by simpa [hbody] using hbody'.symm
    subst hb
    obtain ⟨hlo', hhi'⟩ := hall _ m' hstart hm
    refine ⟨by omega, ?_⟩
    rw [hstate, feed_state_of_last hcut hstart hsignal hlo' hhi' hlast]
    rfl

def selectThenBegin : List Frame :=
  [⟨feQuery, ascii "SELECT 1" ++ [0], by decide⟩, ⟨feQuery, ascii "BEGIN" ++ [0], by decide⟩]

def selectThenBeginReply : List Frame :=
  [⟨'C'.toUInt8, ascii "SELECT 0" ++ [0], by decide⟩, ⟨'Z'.toUInt8, ascii "I", by decide⟩,
    ⟨'C'.toUInt8, ascii "BEGIN" ++ [0], by decide⟩, ⟨'Z'.toUInt8, ascii "T", by decide⟩]

def repliesTogether : Delivery where
  frames := selectThenBeginReply
  chunks := [Frame.encodeAll selectThenBeginReply]
  nonempty := by decide
  whole := by decide

def repliesApart : Delivery where
  frames := selectThenBeginReply
  chunks := [Frame.encodeAll (selectThenBeginReply.take 2),
    Frame.encodeAll (selectThenBeginReply.drop 2)]
  nonempty := by decide
  whole := by decide

theorem replies_together_awaited :
    ReadyInOneRead repliesTogether ∧
      WaitsForUnit 2 (responseEndFor (Frame.encodeAll selectThenBegin ++ [])) repliesTogether := by
  have hstatus : StatusBodies selectThenBeginReply := by
    intro m hm hready
    simp only [selectThenBeginReply, mem_cons, not_mem_nil, or_false] at hm
    rcases hm with rfl | rfl | rfl | rfl
    · exact absurd hready (by decide)
    · exact ⟨_, rfl⟩
    · exact absurd hready (by decide)
    · exact ⟨_, rfl⟩
  have hone : ReadyInOneRead repliesTogether := by
    refine ⟨[], _, [], rfl, ?_⟩
    intro start m hstart hready
    have hget := streamSignals_getElem.2 ⟨start, m, 5, hstart,
      signalOf_ready ⟨true, []⟩ hready (hstatus m (startsAt_mem hstart) hready).choose_spec, rfl⟩
    obtain ⟨hlt, -⟩ := List.getElem?_eq_some_iff.1 hget
    exact ⟨Nat.zero_le _, hlt⟩
  exact ⟨hone, (pipelined_units_awaited_iff selectThenBegin [] 2 repliesTogether (by decide)
    (by decide) (by decide) hstatus).2 hone⟩

theorem second_unit_not_awaited :
    readRequest defaultMaxMessageBytes [⟨Frame.encodeAll selectThenBegin, none⟩] =
        some (Frame.encodeAll selectThenBegin, none) ∧
      (∃ r, proxyResponse none none none false (responseEndFor (Frame.encodeAll selectThenBegin))
          (cleanPasses repliesApart.chunks) = some r ∧ r.err = none ∧ r.state = stateIdle ∧
          r.unread = cleanPasses [Frame.encodeAll (selectThenBeginReply.drop 2)]) ∧
      ¬WaitsForUnit 2 (responseEndFor (Frame.encodeAll selectThenBegin)) repliesApart := by
  have hcall : ∃ r, proxyResponse none none none false
      (responseEndFor (Frame.encodeAll selectThenBegin)) (cleanPasses repliesApart.chunks) =
        some r ∧ r.err = none ∧ r.state = stateIdle ∧
          r.unread = cleanPasses [Frame.encodeAll (selectThenBeginReply.drop 2)] :=
    ⟨_, rfl, rfl, rfl, rfl⟩
  refine ⟨readRequest_encodeAll _ _ _, hcall, ?_⟩
  intro hwaits
  obtain ⟨r, hr, herr, hidle, -⟩ := hcall
  have hstate := (hwaits none none none false _ r (Pass.chunks_cleanPasses repliesApart) hr herr
    (selectThenBeginReply.take 3) ⟨'Z'.toUInt8, ascii "T", by decide⟩ [] 'T'.toUInt8 rfl rfl
    (by decide) rfl).2
  rw [hidle] at hstate
  exact absurd hstate (by decide)

end Pontus.Proxy
