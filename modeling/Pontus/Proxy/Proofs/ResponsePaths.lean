import Pontus.Proxy.Proofs.Response

/-!
# The two response paths

The fast path and the capturing path forward, count and report the same; the
second also keeps the bytes, and looks for a read-only error in each read.
-/

namespace Pontus.Proxy

open Lib Protocol

/-- What the caller learns of a reply, and what is left on the connection. -/
def Response.report (r : Response) :
    TransactionState × Option Bool × Option NetError × Nat × List Pass :=
  (r.state, r.failed, r.err, r.sent, r.unread)

/-- What was handed to `client.Write` before the loop returned, or before it came
to wait. -/
def bytesWritten : Except ResponseLoop Response → Bytes
  | .ok r => r.written
  | .error s => s.written

section
variable {inspect inspect' : Bytes → Bool} {relay : Option NetError} {ending : ResponseEnd}
variable {s : ResponseLoop} {p : Pass} {passes : List Pass} {r : Response}

/-- Neither the capture nor the search for a read-only error changes the course
of the loop. -/
theorem course_eq (capture : Option ResponseCapture) (readOnlyErr : Bool) :
    let s' := { s with capture := capture, isReadOnlyErr := readOnlyErr }
    (responseLoop inspect relay ending s passes).toOption.map Response.report =
        (responseLoop inspect' relay ending s' passes).toOption.map Response.report ∧
      bytesWritten (responseLoop inspect relay ending s passes) =
        bytesWritten (responseLoop inspect' relay ending s' passes) := by
  induction passes generalizing s capture readOnlyErr with
  | nil => exact ⟨rfl, rfl⟩
  | cons p _ ih =>
    unfold responseLoop responsePass
    by_cases hdata : p.data = []
    · simp only [if_pos hdata, endPass]
      cases p.readError with
      | some => exact ⟨rfl, rfl⟩
      | none => exact ih capture readOnlyErr
    · simp only [if_neg hdata]
      cases p.writeError with
      | some => exact ⟨rfl, rfl⟩
      | none =>
        cases (s.scan.feed p.data).2.1 with
        | true =>
          cases (if (s.pump || (s.scan.feed p.data).1.sawCopyIn) = true then relay else none) <;>
            exact ⟨rfl, rfl⟩
        | false =>
          simp only [false_eq_true, if_false, endPass]
          cases p.readError with
          | some => exact ⟨rfl, rfl⟩
          | none => exact ih _ _

/-- What a loop has done with the reads it used. -/
structure Consumed (s : ResponseLoop) (used : List Pass) (r : Response) : Prop where
  sent : r.sent = s.sent + (used.map Pass.data).flatten.length
  capture : r.capture = used.foldl capturePass s.capture

theorem bytesWritten_eq : ∃ used unread, passes = used ++ unread ∧
    bytesWritten (responseLoop inspect relay ending s passes) =
      s.written ++ (used.map Pass.data).flatten ∧
    ∀ r, responseLoop inspect relay ending s passes = .ok r →
      unread = r.unread ∧ Consumed s used r := by
  induction passes generalizing s with
  | nil => exact ⟨[], [], rfl, (append_nil _).symm, fun r h => nomatch h⟩
  | cons p rest ih =>
    have hpass : PassOutcome inspect relay ending s p rest _ := passOutcome
    unfold responseLoop
    generalize responsePass inspect relay ending s p rest = result at hpass
    cases hpass with
    | unwritten | stopped | ended | broken =>
      refine ⟨[p], rest, rfl, by simp [bytesWritten, after_written], fun r h => ?_⟩
      cases h
      exact ⟨rfl, by simp [after_sent], after_capture⟩
    | goesOn =>
      obtain ⟨used, unread, hsplit, hwritten, hused⟩ := @ih (s.after inspect p)
      refine ⟨p :: used, unread, by rw [hsplit]; rfl, ?_, fun r h => ?_⟩
      · rw [after_written] at hwritten
        simp [hwritten]
      · obtain ⟨hunread, hsent, hcapture⟩ := hused r h
        rw [after_sent] at hsent
        rw [after_capture] at hcapture
        exact ⟨hunread, by simp [hsent, Nat.add_assoc], hcapture⟩

end

/-- A capture keeps all of the chunks or, past its limit, none. -/
theorem foldl_write_eq (chunks : List Bytes) {c : ResponseCapture} (h : c.overflowed = false)
    (hfit : c.buf.length ≤ c.limit) :
    chunks.foldl ResponseCapture.write c =
      if c.limit < c.buf.length + chunks.flatten.length then
        { c with overflowed := true, buf := [] }
      else { c with buf := c.buf ++ chunks.flatten } := by
  induction chunks generalizing c with
  | nil =>
    rw [if_neg (by simpa using hfit)]
    simp
  | cons chunk _ ih =>
    rw [foldl_cons, flatten_cons, length_append, ResponseCapture.write, h,
      if_neg Bool.false_ne_true]
    by_cases hfull : c.limit < c.buf.length + chunk.length
    · rw [if_pos hfull, foldl_write_overflowed rfl, if_pos (by omega)]
    · rw [if_neg hfull, ih rfl (by simpa using hfull)]
      simp only [length_append, append_assoc, Nat.add_assoc]

/-- **Both paths forward the same.** -/
theorem paths_forward_alike (relay : Option NetError) (ending : ResponseEnd) (limit : Int)
    (passes : List Pass) :
    let capture := newResponseCapture [] limit
    let fast := proxyResponseFastPath relay ending passes
    let captured := proxyResponseWithCapture relay (some capture) ending passes
    fast.toOption.map Response.report = captured.toOption.map Response.report ∧
    ∃ used unread : List Pass, passes = used ++ unread ∧
      bytesWritten fast = (used.map Pass.data).flatten ∧
      bytesWritten captured = (used.map Pass.data).flatten ∧
      ∀ r, captured = .ok r →
        r.unread = unread ∧ r.sent = (used.map Pass.data).flatten.length ∧
        ∃ c, r.capture = some c ∧
          c.overflowed = decide (capture.limit < (used.map Pass.data).flatten.length) ∧
          c.bytes = if c.overflowed then [] else (used.map Pass.data).flatten := by
  intro capture fast captured
  obtain ⟨hreport, hsame⟩ := course_eq (some capture) false
  obtain ⟨used, unread, hsplit, hwritten, hused⟩ := bytesWritten_eq
  refine ⟨hreport, used, unread, hsplit, hsame.trans hwritten, hwritten, fun r h => ?_⟩
  obtain ⟨hunread, hsent, hcapture⟩ := hused r h
  have hbuffer : capture.buf = [] := rfl
  rw [foldl_capturePass, foldl_write_eq _ rfl (Nat.zero_le _), Pass.flatten_chunks, hbuffer,
    length_nil, Nat.zero_add] at hcapture
  refine ⟨hunread.symm, by simpa using hsent, ?_⟩
  by_cases hover : capture.limit < (used.map Pass.data).flatten.length
  · rw [if_pos hover] at hcapture
    exact ⟨_, hcapture, (decide_eq_true hover).symm, rfl⟩
  · rw [if_neg hover] at hcapture
    exact ⟨_, hcapture, (decide_eq_false hover).symm, rfl⟩

/-- Where the client takes every byte and no read fails, both return behind the
read in which the reply ends. -/
theorem paths_return_at_end (capture : Option ResponseCapture) (rest : List Pass)
    (hreads : ∀ q ∈ pre, q.readError = none) (hwrites : ∀ q ∈ pre, q.writeError = none)
    (hwrite : p.writeError = none)
    (hunfinished : Unfinished (newReplyScanner ending) (pre.map Pass.data))
    (hdone : (ReplyScanner.feed
      (ReplyScanner.feedAll (newReplyScanner ending) (pre.map Pass.data)) p.data).2.1) :
    (∃ r, (proxyResponseFastPath none ending (pre ++ p :: rest)).toOption = some r ∧
        r.err = none ∧ r.unread = rest) ∧
      ∃ r, (proxyResponseWithCapture none capture ending (pre ++ p :: rest)).toOption = some r ∧
        r.err = none ∧ r.unread = rest :=
  ⟨responseLoop_completes hreads hwrites hwrite hunfinished hdone,
    responseLoop_completes hreads hwrites hwrite hunfinished hdone⟩

end Pontus.Proxy
