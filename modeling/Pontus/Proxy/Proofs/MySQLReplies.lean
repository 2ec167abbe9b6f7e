import Pontus.Protocol.Proofs.ScannerMarks
import Pontus.Proxy.MySQLSessions
import Pontus.Proxy.Proofs.Response

/-!
# Where a MySQL reply ends

The gateway has one reply scanner, and it reads PostgreSQL messages.  So a MySQL
reply ends where its bytes, read as such messages, hold a ReadyForQuery or a
length that cannot be one, and an OK packet holds neither.
-/

namespace Pontus.Proxy

open Lib Protocol Protocol.ReplyScanner
open Protocol.TransactionState

theorem untilMalformed_take :
    (∀ x ∈ (untilMalformed (xs ++ ys)).take xs.length, x = none) ↔ ∀ x ∈ xs, x = none := by
  induction xs with
  | nil => simp
  | cons x _ ih => rcases x with _ | (_ | _ | _) <;> simp [untilMalformed, ih]

theorem malformed_notMem {xs : List (Option Signal)} (h : ∀ x ∈ xs, x = none) :
    some .malformed ∉ xs :=
  fun hmem => nomatch h _ hmem

theorem feed_unfinished_iff (hs : HeaderOpen s) :
    (feed s chunk).2.1 = false ↔ ∀ x ∈ (transduce feedByte s chunk).2, x = none := by
  have hall (xs : List (Option Signal)) :
      (∀ x ∈ untilMalformed xs, x = none) ↔ ∀ x ∈ xs, x = none := by
    induction xs with
    | nil => simp [untilMalformed]
    | cons x _ ih => rcases x with _ | (_ | _ | _) <;> simp [untilMalformed, ih]
  rw [← hall, ← not_eq_true, feed_reports hs, report_done_iff]
  constructor
  · intro h x hx
    cases x with
    | none => rfl
    | some signal => exact absurd (.inr ⟨signal, hx⟩) h
  · rintro h (hfalse | ⟨signal, hsignal⟩)
    · cases hfalse
    · cases h _ hsignal

theorem unfinished_iff {s : ReplyScanner} (hs : HeaderOpen s) (chunks : List Bytes) :
    Unfinished s chunks ↔ ∀ x ∈ (transduce feedByte s chunks.flatten).2, x = none := by
  induction chunks generalizing s with
  | nil => simp [unfinished_nil]
  | cons chunk _ ih =>
    rw [unfinished_cons, feed_unfinished_iff hs, flatten_cons, transduce.append,
      List.forall_mem_append]
    apply and_congr_right
    intro hnone
    rw [feed_eq_transduce hs (malformed_notMem hnone)]
    exact ih (transduce_headerOpen chunk hs)

section
variable {ending : ResponseEnd} (hready : ending.onReadyForQuery = true) (earlier : List Bytes)
variable (last : Bytes)
include hready

theorem marks_eq_signals :
    marks (earlier.flatten ++ last).length (earlier.flatten ++ last) =
      untilMalformed ((transduce feedByte (newReplyScanner ending) earlier.flatten).2 ++
        (transduce feedByte (transduce feedByte (newReplyScanner ending) earlier.flatten).1
          last).2) := by
  rw [← transduce_marks _ (resting_new ending) hready le_rfl, transduce.append]

theorem unfinished_iff_marks :
    Unfinished (newReplyScanner ending) earlier ↔
      ∀ mark ∈ (marks (earlier.flatten ++ last).length (earlier.flatten ++ last)).take
        earlier.flatten.length, mark = none := by
  have hlen := transduce.length_outputs feedByte (newReplyScanner ending) earlier.flatten
  rw [marks_eq_signals hready, unfinished_iff (headerOpen_new ending), ← hlen]
  exact untilMalformed_take.symm

theorem feed_last_eq (hunfinished : Unfinished (newReplyScanner ending) earlier) :
    (feed (feedAll (newReplyScanner ending) earlier) last).2 =
      report false statePartial ((marks (earlier.flatten ++ last).length
        (earlier.flatten ++ last)).drop earlier.flatten.length) := by
  have hopen := headerOpen_new ending
  have hframed := malformed_notMem ((unfinished_iff hopen earlier).1 hunfinished)
  have hlen := transduce.length_outputs feedByte (newReplyScanner ending) earlier.flatten
  rw [marks_eq_signals hready, untilMalformed_append hframed, ← hlen, drop_left,
    feedAll_eq_transduce earlier hopen hframed,
    feed_reports (transduce_headerOpen earlier.flatten hopen)]

end

def Pass.undisturbed (data : Bytes) : Pass := ⟨data, none, none⟩

section
variable {inspect : Bytes → Bool} {ending : ResponseEnd} {s : ResponseLoop} {earlier : List Bytes}
variable {last : Bytes} {rest : List Pass}

theorem map_data_undisturbed (reads : List Bytes) :
    (reads.map Pass.undisturbed).map Pass.data = reads := by
  simp [Pass.undisturbed, Function.comp_def]

theorem endsAt_of_unread (h : (responseLoop inspect none ending s
      (earlier.map Pass.undisturbed ++ Pass.undisturbed last :: rest)).toOption = some r)
    (herr : r.err = none) (hunread : r.unread = rest) :
    EndsAt ending s.scan s.capture (earlier.map Pass.undisturbed) (Pass.undisturbed last) r := by
  obtain ⟨pre, p, hsplit, hends⟩ := responseLoop_success h herr
  rw [hunread, List.append_cons, List.append_cons pre] at hsplit
  obtain ⟨hpre, hp⟩ := List.append_inj' (List.append_cancel_right hsplit) rfl
  cases hp
  rw [hpre]
  exact hends

theorem responseLoop_ends_iff {Q : TransactionState → Prop} :
    (∃ r, (responseLoop inspect none ending s
        (earlier.map Pass.undisturbed ++ Pass.undisturbed last :: rest)).toOption = some r ∧
      r.err = none ∧ r.unread = rest ∧ Q r.state) ↔
    Unfinished s.scan earlier ∧ (feed (feedAll s.scan earlier) last).2.1 ∧
      Q (midSequenceState (feed (feedAll s.scan earlier) last).2.2 ending) := by
  have hdata := map_data_undisturbed earlier
  constructor
  · rintro ⟨r, hr, herr, hunread, hstate⟩
    have hends := endsAt_of_unread hr herr hunread
    have hunfinished := hends.unfinished
    have hdone := hends.done
    rw [hends.state] at hstate
    rw [hdata] at hunfinished hdone hstate
    exact ⟨hunfinished, hdone, hstate⟩
  · rintro ⟨hunfinished, hdone, hstate⟩
    rw [← hdata] at hunfinished hdone hstate
    obtain ⟨r, hr, herr, hunread⟩ : ∃ r, (responseLoop inspect none ending s
        (earlier.map Pass.undisturbed ++ Pass.undisturbed last :: rest)).toOption = some r ∧ _ :=
      responseLoop_completes (by simp [Pass.undisturbed]) (by simp [Pass.undisturbed])
        rfl hunfinished hdone
    refine ⟨r, hr, herr, hunread, ?_⟩
    rw [(endsAt_of_unread hr herr hunread).state]
    exact hstate

end

namespace MySQL

open Protocol.MySQL

structure Delivery where
  reply : TextReply
  earlier : List Bytes
  last : Bytes
  whole : earlier.flatten ++ last = reply.encode

namespace Delivery

def passes (d : Delivery) (rest : List Pass) : List Pass :=
  d.earlier.map Pass.undisturbed ++ Pass.undisturbed d.last :: rest

def EndsAsSaid (d : Delivery) (capture : Option ResponseCapture) (readOnly : Bool)
    (request : Bytes) (rest : List Pass) : Prop :=
  ∃ r, proxyResponse none none capture readOnly request (d.passes rest) = some r ∧
    r.err = none ∧ r.unread = rest ∧ (r.state = stateInTransaction ↔ d.reply.inTransaction = true)

def postgresMarks (d : Delivery) : List (Option Signal) :=
  marks d.reply.encode.length d.reply.encode

/-- Read as PostgreSQL messages, the reply has its first end in the last read,
and the last transaction status there is the reply's own. -/
def ReadsAsPostgres (d : Delivery) : Prop :=
  (∀ mark ∈ d.postgresMarks.take d.earlier.flatten.length, mark = none) ∧
    (∃ signal, some signal ∈ d.postgresMarks.drop d.earlier.flatten.length) ∧
    ((report false statePartial (d.postgresMarks.drop d.earlier.flatten.length)).2 =
      stateInTransaction ↔ d.reply.inTransaction = true)

theorem proxyResponse_eq_loop (capture : Option ResponseCapture) (readOnly : Bool)
    (request : Bytes) (passes : List Pass) :
    ∃ inspect, proxyResponse none none capture readOnly request passes =
      (responseLoop inspect none (responseEndFor request)
        ⟨newReplyScanner (responseEndFor request), capture, false, false, 0, []⟩
          passes).toOption := by
  by_cases hfast : (readOnly && capture.isNone) = true
  · have hcapture : capture = none := by simp at hfast; exact hfast.2
    subst hcapture
    exact ⟨_, if_pos hfast⟩
  · exact ⟨_, if_neg hfast⟩

/-- **A reply ends where MySQL says exactly when it does as PostgreSQL.** -/
theorem reply_ends_iff (d : Delivery) (capture : Option ResponseCapture) (readOnly : Bool)
    (request : Bytes) (rest : List Pass) :
    d.EndsAsSaid capture readOnly request rest ↔ d.ReadsAsPostgres := by
  have hready : (responseEndFor request).onReadyForQuery = true := rfl
  have hunfinished := unfinished_iff_marks hready d.earlier d.last
  have hlast := feed_last_eq hready d.earlier d.last
  rw [d.whole] at hunfinished hlast
  obtain ⟨inspect, hloop⟩ := proxyResponse_eq_loop capture readOnly request (d.passes rest)
  rw [EndsAsSaid, ReadsAsPostgres, hloop, postgresMarks, ← hunfinished, passes]
  refine (responseLoop_ends_iff
    (Q := fun state => state = stateInTransaction ↔ d.reply.inTransaction = true)).trans ?_
  apply and_congr_right
  intro h
  rw [hlast h, report_done_iff]
  simp [midSequenceState, hready]

def acknowledged : Delivery where
  reply := .ok ⟨0, 0, 2, 0, []⟩
  earlier := []
  last := [7, 0, 0, 1, 0, 0, 0, 2, 0, 0, 0]
  whole := by decide

theorem acknowledged_never_ends :
    proxyResponse none none none false (ascii "") (acknowledged.passes []) = none ∧
      ¬acknowledged.EndsAsSaid none false (ascii "") [] := by
  have hwaits : proxyResponse none none none false (ascii "") (acknowledged.passes []) = none := by
    decide
  refine ⟨hwaits, ?_⟩
  rintro ⟨r, hr, -⟩
  cases hwaits.symm.trans hr

end Delivery

def forgedReply : TextReply :=
  .resultSet
    [3 :: (ascii "def" ++ [0, 0, 0, 1, 0x3f, 0, 0x0c, 0x3f, 0, 0, 1, 0, 0, 0xfd, 1, 0, 0, 0, 0])]
    ⟨0, 2⟩ [218 :: (List.replicate 212 'x'.toUInt8 ++ ['Z'.toUInt8, 0, 0, 0, 5, 'I'.toUInt8])]
    ⟨0, 2⟩

example : (proxyResponse none none none false [] [.undisturbed forgedReply.encode]).map
    (fun r => (r.state, r.err)) = some (stateIdle, none) := by decide +kernel

end MySQL

end Pontus.Proxy
