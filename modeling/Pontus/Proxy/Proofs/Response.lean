import Pontus.Protocol.Proofs.ScannerFrames
import Pontus.Proxy.Response

/-!
# When the response loop returns

The loop returns success exactly after the first read in which the scanner
finds the end of the reply.  Both directions are stated on the passes alone:
`responseLoop_success` takes a successful return apart, `responseLoop_completes`
builds one when the client takes every byte.
-/

namespace Pontus.Proxy

open Lib Protocol Protocol.ReplyScanner
open Protocol.TransactionState

def Unfinished (scan : ReplyScanner) (chunks : List Bytes) : Prop :=
  ∀ pre chunk post, chunks = pre ++ chunk :: post → (feed (feedAll scan pre) chunk).2.1 = false

theorem unfinished_nil (scan : ReplyScanner) : Unfinished scan [] := by
  intro _ _ _ hsplit
  simp at hsplit

theorem unfinished_cons :
    Unfinished scan (chunk :: chunks) ↔
      (feed scan chunk).2.1 = false ∧ Unfinished (feed scan chunk).1 chunks := by
  constructor
  · intro h
    refine ⟨h [] chunk chunks rfl, ?_⟩
    intro pre c post hsplit
    exact h (chunk :: pre) c post (by rw [hsplit]; rfl)
  · intro h pre c post hsplit
    cases pre with
    | nil =>
      simp only [nil_append, List.cons.injEq] at hsplit
      rw [← hsplit.1]
      exact h.1
    | cons _ pre =>
      simp only [cons_append, List.cons.injEq] at hsplit
      obtain ⟨rfl, hrest⟩ := hsplit
      exact h.2 pre c post hrest

def capturePass (c : Option ResponseCapture) (p : Pass) : Option ResponseCapture :=
  if p.data = [] then c else c.map (·.write p.data)

def Pass.chunks (passes : List Pass) : List Bytes := (passes.map Pass.data).filter (· ≠ [])

theorem Pass.flatten_chunks (passes : List Pass) :
    (Pass.chunks passes).flatten = (passes.map Pass.data).flatten := by
  induction passes with
  | nil => rfl
  | cons p _ ih =>
    rw [Pass.chunks, map_cons, List.filter_cons, flatten_cons]
    split
    · rw [flatten_cons, ← ih]
      rfl
    · rename_i hdata
      have hdata : p.data = [] := by simpa using hdata
      rw [hdata, nil_append, ← ih]
      rfl

theorem foldl_capturePass (passes : List Pass) (c : ResponseCapture) :
    passes.foldl capturePass (some c) =
      some ((Pass.chunks passes).foldl ResponseCapture.write c) := by
  induction passes generalizing c with
  | nil => rfl
  | cons p _ ih =>
    rw [foldl_cons, capturePass, Pass.chunks, map_cons, List.filter_cons]
    by_cases hdata : p.data = []
    · rw [if_pos hdata, ih, if_neg (by simpa using hdata)]
      rfl
    · rw [if_neg hdata, map_some, ih, if_pos (by simpa using hdata)]
      rfl

theorem foldl_write_overflowed (h : c.overflowed) (chunks : List Bytes) :
    chunks.foldl ResponseCapture.write c = c := by
  induction chunks with
  | nil => rfl
  | cons _ _ ih => rw [foldl_cons, ResponseCapture.write, if_pos h, ih]

theorem foldl_write_limit (chunks : List Bytes) (c : ResponseCapture) :
    (chunks.foldl ResponseCapture.write c).limit = c.limit := by
  induction chunks generalizing c with
  | nil => rfl
  | cons _ _ ih =>
    rw [foldl_cons, ih]
    unfold ResponseCapture.write
    split
    · rfl
    · split <;> rfl

theorem foldl_write_cases (chunks : List Bytes) (h : c.overflowed = false) :
    (chunks.foldl ResponseCapture.write c).overflowed ∧
        (chunks.foldl ResponseCapture.write c).buf = [] ∨
      (chunks.foldl ResponseCapture.write c).overflowed = false ∧
        (chunks.foldl ResponseCapture.write c).buf = c.buf ++ chunks.flatten := by
  induction chunks generalizing c with
  | nil => exact .inr ⟨h, (append_nil _).symm⟩
  | cons chunk _ ih =>
    rw [foldl_cons, flatten_cons, ResponseCapture.write, h, if_neg Bool.false_ne_true]
    by_cases hfull : c.limit < c.buf.length + chunk.length
    · rw [if_pos hfull, foldl_write_overflowed rfl]
      exact .inl ⟨rfl, rfl⟩
    · rw [if_neg hfull, ← append_assoc]
      exact ih rfl

def Pass.Forwarded (p : Pass) : Prop := p.data = [] ∨ p.writeError = none

section
variable {inspect : Bytes → Bool} {relay : Option NetError} {ending : ResponseEnd}
variable {s s' : ResponseLoop} {p : Pass} {rest passes : List Pass} {r : Response}

theorem feed_nil (scan : ReplyScanner) : feed scan [] = (scan, false, statePartial) := rfl

variable (inspect) in
/-- The loop behind a pass whose bytes the client took. -/
def ResponseLoop.after (s : ResponseLoop) (p : Pass) : ResponseLoop :=
  if p.data = [] then s
  else ⟨(feed s.scan p.data).1, s.capture.map (·.write p.data),
    s.isReadOnlyErr || inspect p.data, s.pump || (feed s.scan p.data).1.sawCopyIn,
    s.sent + p.data.length, s.written ++ p.data⟩

theorem after_scan : (s.after inspect p).scan = (feed s.scan p.data).1 := by
  unfold ResponseLoop.after
  split <;> simp [feed_nil, *]

theorem after_capture : (s.after inspect p).capture = capturePass s.capture p := by
  unfold ResponseLoop.after capturePass
  split <;> rfl

theorem after_sent : (s.after inspect p).sent = s.sent + p.data.length := by
  unfold ResponseLoop.after
  split <;> simp [*]

theorem after_written : (s.after inspect p).written = s.written ++ p.data := by
  unfold ResponseLoop.after
  split <;> simp [*]

theorem after_readOnly (h : (s.after inspect p).isReadOnlyErr) :
    s.isReadOnlyErr ∨ inspect p.data := by
  unfold ResponseLoop.after at h
  split at h
  · exact .inl h
  · exact (or_eq_true _ _).mp h

variable (inspect relay ending s p rest) in
/-- What a pass can do. -/
inductive PassOutcome : Except Response ResponseLoop → Prop
  | unwritten {werr : NetError} (hwrite : p.writeError = some werr) :
      PassOutcome (.error ⟨stateError, false, some werr, none, (s.after inspect p).capture,
        (s.after inspect p).sent, (s.after inspect p).written, rest⟩)
  | stopped {perr : NetError} (hrelay : relay = some perr) :
      PassOutcome (.error ⟨stateError, (s.after inspect p).isReadOnlyErr, some perr, none,
        (s.after inspect p).capture, (s.after inspect p).sent, (s.after inspect p).written, rest⟩)
  | ended (hdata : p.data ≠ []) (hwrite : p.writeError = none)
      (hdone : (feed s.scan p.data).2.1 = true) :
      PassOutcome (.error ⟨midSequenceState (feed s.scan p.data).2.2 ending,
        (s.after inspect p).isReadOnlyErr, none, some (feed s.scan p.data).1.sawError,
        (s.after inspect p).capture, (s.after inspect p).sent, (s.after inspect p).written, rest⟩)
  | broken {err : NetError} (hread : p.readError = some err)
      (hgo : (feed s.scan p.data).2.1 = false) :
      PassOutcome (.error ⟨stateError, (s.after inspect p).isReadOnlyErr, some err, none,
        (s.after inspect p).capture, (s.after inspect p).sent, (s.after inspect p).written, rest⟩)
  | goesOn (hread : p.readError = none) (hforwarded : p.Forwarded)
      (hgo : (feed s.scan p.data).2.1 = false) : PassOutcome (.ok (s.after inspect p))

theorem passOutcome : PassOutcome inspect relay ending s p rest
    (responsePass inspect relay ending s p rest) := by
  have hend (hforwarded : p.Forwarded) (hgo : (feed s.scan p.data).2.1 = false) :
      PassOutcome inspect relay ending s p rest (endPass (s.after inspect p) p rest) := by
    unfold endPass
    cases hread : p.readError with
    | none => exact .goesOn hread hforwarded hgo
    | some => exact .broken hread hgo
  by_cases hdata : p.data = []
  · have hafter : s.after inspect p = s := if_pos hdata
    rw [responsePass, if_pos hdata]
    rw [hafter] at hend
    exact hend (.inl hdata) (by rw [hdata, feed_nil])
  have hafter : s.after inspect p = _ := if_neg hdata
  rw [responsePass, if_neg hdata]
  rw [hafter] at hend
  cases hwrite : p.writeError with
  | some =>
    have hpass : PassOutcome inspect relay ending s p rest _ := .unwritten hwrite
    rw [hafter] at hpass
    exact hpass
  | none =>
    dsimp only
    split
    · rename_i hdone
      split
      · rename_i perr hpump
        have hrelay : relay = some perr := by
          split at hpump
          · exact hpump
          · cases hpump
        have hpass : PassOutcome inspect relay ending s p rest _ := .stopped hrelay
        rw [hafter] at hpass
        exact hpass
      · have hpass : PassOutcome inspect relay ending s p rest _ := .ended hdata hwrite hdone
        rw [hafter] at hpass
        exact hpass
    · rename_i hgo
      exact hend (.inr hwrite) (by simpa using hgo)

structure EndsAt (ending : ResponseEnd) (scan : ReplyScanner) (capture : Option ResponseCapture)
    (pre : List Pass) (p : Pass) (r : Response) : Prop where
  forwarded : ∀ q ∈ pre, q.readError = none ∧ q.Forwarded
  write : p.writeError = none
  unfinished : Unfinished scan (pre.map Pass.data)
  done : (feed (feedAll scan (pre.map Pass.data)) p.data).2.1 = true
  state : r.state = midSequenceState (feed (feedAll scan (pre.map Pass.data)) p.data).2.2 ending
  failed : r.failed = some (feed (feedAll scan (pre.map Pass.data)) p.data).1.sawError
  capture : r.capture = (pre ++ [p]).foldl capturePass capture

theorem EndsAt.cons (hread : q.readError = none) (hforwarded : q.Forwarded)
    (hgo : (feed s.scan q.data).2.1 = false)
    (h : EndsAt ending (feed s.scan q.data).1 (capturePass s.capture q) pre p r) :
    EndsAt ending s.scan s.capture (q :: pre) p r where
  forwarded := forall_mem_cons.2 ⟨⟨hread, hforwarded⟩, h.forwarded⟩
  write := h.write
  unfinished := unfinished_cons.2 ⟨hgo, h.unfinished⟩
  done := h.done
  state := h.state
  failed := h.failed
  capture := h.capture

section
variable (h : (responseLoop inspect relay ending s passes).toOption = some r)
include h

/-- **A successful return.** -/
theorem responseLoop_success (herr : r.err = none) :
    ∃ pre p, passes = pre ++ p :: r.unread ∧ EndsAt ending s.scan s.capture pre p r := by
  induction passes generalizing s with
  | nil => cases h
  | cons q rest ih =>
    have hpass : PassOutcome inspect relay ending s q rest _ := passOutcome
    unfold responseLoop at h
    generalize responsePass inspect relay ending s q rest = result at h hpass
    cases hpass with
    | unwritten | stopped | broken =>
      cases h
      cases herr
    | ended _ hwrite hdone =>
      cases h
      exact ⟨[], q, rfl, by simp, hwrite, unfinished_nil _, hdone, rfl, rfl, after_capture⟩
    | goesOn hread hforwarded hgo =>
      obtain ⟨pre, p, hsplit, hends⟩ := ih h
      rw [after_scan, after_capture] at hends
      exact ⟨q :: pre, p, by rw [hsplit]; rfl, hends.cons hread hforwarded hgo⟩

/-- **A failed return.** -/
theorem responseLoop_failed (herr : r.err ≠ none) :
    r.state = stateError ∧
      ((∃ p ∈ passes, p.readError ≠ none ∨ p.writeError ≠ none) ∨ relay ≠ none) := by
  induction passes generalizing s with
  | nil => cases h
  | cons q rest ih =>
    have hpass : PassOutcome inspect relay ending s q rest _ := passOutcome
    unfold responseLoop at h
    generalize responsePass inspect relay ending s q rest = result at h hpass
    cases hpass with
    | unwritten hwrite =>
      cases h
      exact ⟨rfl, .inl ⟨q, by simp, .inr (by simp [hwrite])⟩⟩
    | stopped hrelay =>
      cases h
      exact ⟨rfl, .inr (by simp [hrelay])⟩
    | ended =>
      cases h
      exact absurd rfl herr
    | broken hread =>
      cases h
      exact ⟨rfl, .inl ⟨q, by simp, .inl (by simp [hread])⟩⟩
    | goesOn =>
      obtain ⟨hstate, ⟨p, hp, hfail⟩ | hrelay⟩ := ih h
      · exact ⟨hstate, .inl ⟨p, mem_cons_of_mem _ hp, hfail⟩⟩
      · exact ⟨hstate, .inr hrelay⟩

/-- A read-only error that is returned with another one: the client took
everything, and a read or the COPY pump failed. -/
theorem responseLoop_readOnly_failed (hreadOnly : r.isReadOnlyErr) (herr : r.err ≠ none) :
    (s.isReadOnlyErr ∨ ∃ p ∈ passes, inspect p.data = true) ∧
      ((∃ p ∈ passes, p.readError ≠ none) ∨ relay ≠ none) := by
  induction passes generalizing s with
  | nil => cases h
  | cons q rest ih =>
    have hpass : PassOutcome inspect relay ending s q rest _ := passOutcome
    have hseen (hreadOnly : (s.after inspect q).isReadOnlyErr = true) :=
      (after_readOnly hreadOnly).imp_right fun hq =>
        (⟨q, mem_cons_self, hq⟩ : ∃ p ∈ q :: rest, inspect p.data = true)
    unfold responseLoop at h
    generalize responsePass inspect relay ending s q rest = result at h hpass
    cases hpass with
    | unwritten =>
      cases h
      cases hreadOnly
    | stopped hrelay =>
      cases h
      exact ⟨hseen hreadOnly, .inr (by simp [hrelay])⟩
    | ended =>
      cases h
      exact absurd rfl herr
    | broken hread =>
      cases h
      exact ⟨hseen hreadOnly, .inl ⟨q, by simp, by simp [hread]⟩⟩
    | goesOn =>
      obtain ⟨hreadOnly', hfail⟩ := ih h
      refine ⟨?_, hfail.imp_left fun ⟨p, hp, hread⟩ => ⟨p, mem_cons_of_mem q hp, hread⟩⟩
      rcases hreadOnly' with hreadOnly' | ⟨p, hp, hinspect⟩
      · exact hseen hreadOnly'
      · exact .inr ⟨p, mem_cons_of_mem q hp, hinspect⟩

end

/-- **Reaching a successful return.**  When the client takes every byte and no
read fails, the loop returns after the first read that ends the reply. -/
theorem responseLoop_completes (hpre : ∀ q ∈ pre, q.readError = none)
    (hwrites : ∀ q ∈ pre, q.writeError = none) (hwrite : p.writeError = none)
    (hunfinished : Unfinished s.scan (pre.map Pass.data))
    (hdone : (feed (feedAll s.scan (pre.map Pass.data)) p.data).2.1) :
    ∃ r, (responseLoop inspect none ending s (pre ++ p :: rest)).toOption = some r ∧ r.err = none ∧
      r.unread = rest := by
  induction pre generalizing s with
  | nil =>
    have hpass : PassOutcome inspect none ending s p rest _ := passOutcome
    rw [nil_append, responseLoop]
    generalize responsePass inspect none ending s p rest = result at hpass
    cases hpass with
    | unwritten hfail => exact nomatch hwrite.symm.trans hfail
    | stopped hrelay => cases hrelay
    | ended => exact ⟨_, rfl, rfl, rfl⟩
    | broken _ hgo | goesOn _ _ hgo => exact nomatch hgo.symm.trans hdone
  | cons q pre ih =>
    have hpass : PassOutcome inspect none ending s q (pre ++ p :: rest) _ := passOutcome
    rw [map_cons] at hunfinished hdone
    obtain ⟨hgo, hrest⟩ := unfinished_cons.1 hunfinished
    rw [cons_append, responseLoop]
    generalize responsePass inspect none ending s q (pre ++ p :: rest) = result at hpass
    cases hpass with
    | unwritten hfail => exact nomatch (hwrites q mem_cons_self).symm.trans hfail
    | stopped hrelay => cases hrelay
    | ended _ _ hend => exact nomatch hgo.symm.trans hend
    | broken hread => exact nomatch (hpre q mem_cons_self).symm.trans hread
    | goesOn =>
      have hscan : (s.after inspect q).scan = _ := after_scan
      rw [← hscan] at hrest
      rw [feedAll_cons, ← hscan] at hdone
      exact ih (fun q' h => hpre q' (mem_cons_of_mem _ h))
        (fun q' h => hwrites q' (mem_cons_of_mem _ h)) hrest hdone

end

/-! ## The whole call -/

section
variable {setDeadline relay : Option NetError} {capture : Option ResponseCapture}
variable {readOnly : Bool} {ending : ResponseEnd} {passes : List Pass} {r : Response}

theorem proxyResponse_eq_loop (relay : Option NetError) (capture : Option ResponseCapture)
    (readOnly : Bool) (ending : ResponseEnd) (passes : List Pass) :
    ∃ inspect, proxyResponse none relay capture readOnly ending passes =
      (responseLoop inspect relay ending ⟨newReplyScanner ending, capture, false, false, 0, []⟩
        passes).toOption := by
  by_cases hfast : (readOnly && capture.isNone) = true
  · refine ⟨fun _ => false, ?_⟩
    have hcapture : capture = none := by
      rw [and_eq_true, isNone_iff_eq_none] at hfast
      exact hfast.2
    rw [proxyResponse, if_pos hfast, proxyResponseFastPath, hcapture]
  · refine ⟨isReadOnlyError, ?_⟩
    rw [proxyResponse, if_neg hfast, proxyResponseWithCapture]

section
variable (h : proxyResponse setDeadline relay capture readOnly ending passes = some r)
include h

theorem proxyResponse_success (herr : r.err = none) :
    ∃ pre p, passes = pre ++ p :: r.unread ∧
      EndsAt ending (newReplyScanner ending) capture pre p r := by
  cases setDeadline with
  | some =>
    simp only [proxyResponse, some_inj] at h
    rw [← h] at herr
    simp at herr
  | none =>
    obtain ⟨_, hloop⟩ := proxyResponse_eq_loop relay capture readOnly ending passes
    rw [hloop] at h
    exact responseLoop_success h herr

theorem proxyResponse_failed (herr : r.err ≠ none) :
    r.state = stateError ∧
      ((∃ p ∈ passes, p.readError ≠ none ∨ p.writeError ≠ none) ∨ relay ≠ none ∨
        setDeadline ≠ none) := by
  cases setDeadline with
  | some =>
    simp only [proxyResponse, some_inj] at h
    rw [← h]
    exact ⟨rfl, .inr (.inr (by simp))⟩
  | none =>
    obtain ⟨_, hloop⟩ := proxyResponse_eq_loop relay capture readOnly ending passes
    rw [hloop] at h
    obtain ⟨hstate, hpass | hrelay⟩ := responseLoop_failed h herr
    · exact ⟨hstate, .inl hpass⟩
    · exact ⟨hstate, .inr (.inl hrelay)⟩

/-- **A failure that is not reported.**  `executeRequest` drops the error of a
response that saw a read-only error. -/
theorem proxyResponse_readOnly_failed (hreadOnly : r.isReadOnlyErr) (herr : r.err ≠ none) :
    (∃ p ∈ passes, isReadOnlyError p.data = true) ∧
      ((∃ p ∈ passes, p.readError ≠ none) ∨ relay ≠ none) := by
  unfold proxyResponse at h
  split at h
  · cases h
    cases hreadOnly
  split at h
  · -- the fast path never looks for one
    obtain ⟨hseen | ⟨_, -, hinspect⟩, -⟩ := responseLoop_readOnly_failed h hreadOnly herr
    · cases hseen
    · cases hinspect
  · obtain ⟨hseen, hfail⟩ := responseLoop_readOnly_failed h hreadOnly herr
    exact ⟨hseen.resolve_left nofun, hfail⟩

theorem ready_of_idle (hidle : r.state = stateIdle) : r.err = none ∧ ending.onReadyForQuery := by
  have herr : r.err = none := by
    by_contra hne
    rw [(proxyResponse_failed h hne).1] at hidle
    cases hidle
  refine ⟨herr, ?_⟩
  obtain ⟨_, _, -, hends⟩ := proxyResponse_success h herr
  have hstate := hends.state
  rw [hidle] at hstate
  unfold midSequenceState at hstate
  cases hready : ending.onReadyForQuery with
  | true => rfl
  | false =>
    rw [hready] at hstate
    cases hstate

end

theorem proxyResponse_completes (capture : Option ResponseCapture) (readOnly : Bool) (p : Pass)
    (rest : List Pass) (hpre : ∀ q ∈ pre, q.readError = none)
    (hwrites : ∀ q ∈ pre, q.writeError = none) (hwrite : p.writeError = none)
    (hunfinished : Unfinished (newReplyScanner ending) (pre.map Pass.data))
    (hdone : (feed (feedAll (newReplyScanner ending) (pre.map Pass.data)) p.data).2.1) :
    ∃ r, proxyResponse none none capture readOnly ending (pre ++ p :: rest) = some r ∧
      r.err = none ∧ r.unread = rest := by
  obtain ⟨_, hloop⟩ := proxyResponse_eq_loop none capture readOnly ending (pre ++ p :: rest)
  rw [hloop]
  exact responseLoop_completes hpre hwrites hwrite hunfinished hdone

end

end Pontus.Proxy
