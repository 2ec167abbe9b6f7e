import Pontus.Lib.Transducer
import Pontus.Protocol.ReplyScanner

/-!
# The reply scanner, one byte at a time

`ReplyScanner.feed` consumes a chunk with bulk skips, so its result seems to
depend on where the network cut the stream.  `feedByte` is the same scanner as
a byte-at-a-time transducer, and `feed_eq_transduce` shows that feeding a chunk
is running the transducer over it: the chunk is finished when some byte of it
raised a signal, and the state reported is the last status among the signals.
A length that cannot be followed ends the reading of a chunk.
-/

namespace Pontus.Protocol.ReplyScanner

open Lib TransactionState
open List (replicate)

variable {s : ReplyScanner} {tag b₁ b₂ b₃ : UInt8}

inductive Signal
  | ended
  | status (state : TransactionState)
  | malformed
  deriving DecidableEq

def feedByte (s : ReplyScanner) (b : UInt8) : ReplyScanner × Option Signal :=
  if 0 < s.skip then
    ({ s with skip := s.skip - 1, wantStatus := false },
      if s.wantStatus then some (.status (transactionStatus b)) else none)
  else
    match s.header ++ [b] with
    | tag :: b₁ :: b₂ :: b₃ :: b₄ :: _ =>
      let length := beU32 b₁ b₂ b₃ b₄
      if length < 4 then ({ s with header := [] }, some .malformed)
      else
        let opened := s.openMessage tag length
        (opened.1, if opened.2 then some .ended else none)
    | header => ({ s with header := header }, none)

def report (done : Bool) (state : TransactionState) :
    List (Option Signal) → Bool × TransactionState
  | [] => (done, state)
  | none :: rest => report done state rest
  | some (.status st) :: rest => report true st rest
  | some _ :: rest => report true state rest

def untilMalformed : List (Option Signal) → List (Option Signal)
  | [] => []
  | some .malformed :: _ => [some .malformed]
  | signal :: rest => signal :: untilMalformed rest

theorem untilMalformed_append (hxs : some .malformed ∉ xs) (ys : List (Option Signal)) :
    untilMalformed (xs ++ ys) = xs ++ untilMalformed ys := by
  induction xs with
  | nil => rfl
  | cons x _ ih =>
    rw [mem_cons, not_or] at hxs
    rcases x with _ | (_ | _ | _)
    · simp [untilMalformed, ih hxs.2]
    · simp [untilMalformed, ih hxs.2]
    · simp [untilMalformed, ih hxs.2]
    · exact absurd rfl hxs.1

theorem untilMalformed_eq_self (hxs : some .malformed ∉ xs) : untilMalformed xs = xs := by
  simpa [untilMalformed] using untilMalformed_append hxs []

theorem malformed_notMem_replicate (n : Nat) :
    some .malformed ∉ replicate n (none : Option Signal) := by
  simp

def HeaderOpen (s : ReplyScanner) : Prop := s.header.length < 5

theorem headerOpen_new (ending : ResponseEnd) : HeaderOpen (newReplyScanner ending) := by
  simp [HeaderOpen, newReplyScanner]

theorem openMessage_headerOpen (s : ReplyScanner) (tag : UInt8) (length : Nat) :
    HeaderOpen (s.openMessage tag length).1 := by
  simp [HeaderOpen, openMessage]

theorem feedByte_body (b : UInt8) (hskip : 0 < s.skip) :
    feedByte s b =
      ({ s with skip := s.skip - 1, wantStatus := false },
        if s.wantStatus then some (.status (transactionStatus b)) else none) := by
  rw [feedByte, if_pos hskip]

theorem feedByte_header (b : UInt8) (hskip : s.skip = 0) (hlen : s.header.length < 4) :
    feedByte s b = ({ s with header := s.header ++ [b] }, none) := by
  rw [feedByte, if_neg (by omega)]
  match hheader : s.header, hlen with
  | [], _ => rfl
  | [_], _ => rfl
  | [_, _], _ => rfl
  | [_, _, _], _ => rfl

theorem feedByte_open (b₄ : UInt8) (hskip : s.skip = 0) (hheader : s.header = [tag, b₁, b₂, b₃]) :
    feedByte s b₄ = if beU32 b₁ b₂ b₃ b₄ < 4 then ({ s with header := [] }, some .malformed)
      else ((s.openMessage tag (beU32 b₁ b₂ b₃ b₄)).1,
        if (s.openMessage tag (beU32 b₁ b₂ b₃ b₄)).2 then some .ended else none) := by
  rw [feedByte, if_neg (by omega), hheader]
  rfl

theorem header_eq_four (header : Bytes) (hopen : header.length < 5) (hlen : ¬header.length < 4) :
    ∃ tag b₁ b₂ b₃, header = [tag, b₁, b₂, b₃] := by
  have hfour : header.length = 3 + 1 := by omega
  obtain ⟨tag, rest, rfl⟩ := List.exists_cons_of_length_eq_add_one hfour
  simp only [length_cons] at hopen hlen
  obtain ⟨b₁, b₂, b₃, rfl⟩ := List.length_eq_three.1 (show rest.length = 3 by omega)
  exact ⟨tag, b₁, b₂, b₃, rfl⟩

theorem feedByte_headerOpen (b : UInt8) (hs : HeaderOpen s) : HeaderOpen (feedByte s b).1 := by
  rcases Nat.eq_zero_or_pos s.skip with hskip | hskip
  · by_cases hlen : s.header.length < 4
    · rw [feedByte_header b hskip hlen]
      simp only [HeaderOpen, length_append, List.length_singleton]
      omega
    · obtain ⟨tag, b₁, b₂, b₃, hheader⟩ := header_eq_four s.header hs hlen
      rw [feedByte_open b hskip hheader]
      by_cases hbad : beU32 b₁ b₂ b₃ b < 4
      · rw [if_pos hbad]
        simp [HeaderOpen]
      · rw [if_neg hbad]
        exact openMessage_headerOpen _ _ _
  · rw [feedByte_body b hskip]
    exact hs

theorem transduce_headerOpen (chunk : Bytes) (hs : HeaderOpen s) :
    HeaderOpen (transduce feedByte s chunk).1 := by
  induction chunk generalizing s with
  | nil => exact hs
  | cons b _ ih =>
    exact ih (feedByte_headerOpen b hs)

theorem report_append (done : Bool) (state : TransactionState) (xs ys : List (Option Signal)) :
    report done state (xs ++ ys) = report (report done state xs).1 (report done state xs).2 ys := by
  induction xs generalizing done state with
  | nil => rfl
  | cons x _ ih => rcases x with _ | (_ | _ | _) <;> exact ih _ _

@[simp] theorem report_replicate_none (done : Bool) (state : TransactionState) (n : Nat) :
    report done state (replicate n none) = (done, state) := by
  induction n with
  | zero => rfl
  | succ _ ih => exact ih

theorem transduce_body (xs : Bytes) (hlen : xs.length ≤ s.skip) (hstatus : s.wantStatus = false) :
    transduce feedByte s xs =
      ({ s with skip := s.skip - xs.length }, replicate xs.length none) := by
  induction xs generalizing s with
  | nil => simp
  | cons b xs ih =>
    simp only [length_cons] at hlen
    have hstep : feedByte s b = ({ s with skip := s.skip - 1 }, none) := by
      rw [feedByte_body b (by omega), hstatus]
      simp [← hstatus]
    have hrest := ih (s := { s with skip := s.skip - 1 }) (show xs.length ≤ s.skip - 1 by omega)
      hstatus
    have hskip : s.skip - 1 - xs.length = s.skip - (xs.length + 1) := by omega
    rw [transduce.cons, hstep]
    rw [hrest, length_cons, List.replicate_succ, ← hskip]

theorem transduce_header (xs : Bytes) (hskip : s.skip = 0)
    (hlen : s.header.length + xs.length < 5) :
    transduce feedByte s xs = ({ s with header := s.header ++ xs }, replicate xs.length none) := by
  induction xs generalizing s with
  | nil => simp
  | cons b _ ih =>
    simp only [length_cons] at hlen
    have hrest := ih (s := { s with header := s.header ++ [b] }) hskip
      (by simp only [length_append, List.length_singleton]; omega)
    rw [transduce.cons, feedByte_header b hskip (by omega)]
    rw [hrest, length_cons, List.replicate_succ]
    simp

theorem transduce_open (xs : Bytes) (b₄ : UInt8) (hskip : s.skip = 0)
    (hheader : s.header ++ xs = [tag, b₁, b₂, b₃]) :
    transduce feedByte s (xs ++ [b₄]) =
      if beU32 b₁ b₂ b₃ b₄ < 4 then
        ({ s with header := [] }, replicate xs.length none ++ [some .malformed])
      else
        ((s.openMessage tag (beU32 b₁ b₂ b₃ b₄)).1,
          replicate xs.length none ++
            [if (s.openMessage tag (beU32 b₁ b₂ b₃ b₄)).2 then some .ended else none]) := by
  have hlen := congrArg List.length hheader
  simp only [length_append, length_cons, length_nil] at hlen
  rw [transduce.append, transduce_header xs hskip (by omega)]
  rw [transduce.cons, feedByte_open (s := { s with header := s.header ++ xs }) b₄ hskip hheader]
  split <;> rfl

theorem transduce_skip (first : UInt8) (xs : Bytes) (hlen : xs.length + 1 ≤ s.skip) :
    transduce feedByte s (first :: xs) =
      ({ s with skip := s.skip - (xs.length + 1), wantStatus := false },
        (if s.wantStatus then some (.status (transactionStatus first)) else none) ::
          replicate xs.length none) := by
  have hrest := transduce_body (s := { s with skip := s.skip - 1, wantStatus := false }) xs
    (show xs.length ≤ s.skip - 1 by omega) rfl
  have hskip : s.skip - 1 - xs.length = s.skip - (xs.length + 1) := by omega
  rw [transduce.cons, feedByte_body first (by omega)]
  rw [hrest, ← hskip]

theorem report_status (done wantStatus : Bool) (state st : TransactionState)
    (rest : List (Option Signal)) :
    report done state ((if wantStatus then some (.status st) else none) :: rest) =
      report (done || wantStatus) (if wantStatus then st else state) rest := by
  cases wantStatus <;> simp [report]

theorem report_ended (done ended : Bool) (state : TransactionState) (rest : List (Option Signal)) :
    report done state ((if ended then some .ended else none) :: rest) =
      report (done || ended) state rest := by
  cases ended <;> simp [report]

theorem feedLoop_skip (fuel : Nat) (first : UInt8) (xs rest : Bytes) (done : Bool)
    (state : TransactionState) (hskip : 0 < s.skip)
    (hn : min s.skip (xs.length + 1 + rest.length) = xs.length + 1) :
    feedLoop (fuel + 1) s (first :: (xs ++ rest)) done state =
      feedLoop fuel { s with skip := s.skip - (xs.length + 1), wantStatus := false } rest
        (done || s.wantStatus) (if s.wantStatus then transactionStatus first else state) := by
  have hlen : (first :: (xs ++ rest)).length = xs.length + 1 + rest.length := by
    simp only [length_cons, length_append]
    omega
  rw [feedLoop, if_pos hskip, hlen, hn]
  dsimp only
  rw [drop_succ_cons, drop_left]

theorem feedLoop_short (fuel : Nat) (chunk : Bytes) (done : Bool) (state : TransactionState)
    (hskip : s.skip = 0) (hchunk : chunk ≠ []) (hlen : s.header.length + chunk.length < 5) :
    feedLoop (fuel + 1) s chunk done state =
      ({ s with header := s.header ++ chunk }, done, state) := by
  obtain ⟨first, rest, rfl⟩ := exists_cons_of_ne_nil hchunk
  have hn : min (5 - s.header.length) (first :: rest).length = (first :: rest).length := by omega
  have hlong : ∀ tag b₁ b₂ b₃ b₄ tail,
      s.header ++ (first :: rest) ≠ tag :: b₁ :: b₂ :: b₃ :: b₄ :: tail := by
    intro tag b₁ b₂ b₃ b₄ tail heq
    have := congrArg List.length heq
    simp only [length_append, length_cons] at this hlen
    omega
  rw [feedLoop, if_neg (by omega), hn]
  dsimp only
  rw [List.take_length]
  split
  · exact absurd ‹_› (hlong _ _ _ _ _ _)
  · rfl

theorem feedLoop_open (fuel : Nat) (rest : Bytes) (done : Bool) (state : TransactionState)
    (hskip : s.skip = 0) (hheader : s.header ++ xs = [tag, b₁, b₂, b₃]) :
    feedLoop (fuel + 1) s (xs ++ b₄ :: rest) done state =
      if beU32 b₁ b₂ b₃ b₄ < 4 then ({ s with header := [] }, true, state)
      else
        feedLoop fuel (s.openMessage tag (beU32 b₁ b₂ b₃ b₄)).1 rest
          (done || (s.openMessage tag (beU32 b₁ b₂ b₃ b₄)).2) state := by
  have hlen := congrArg List.length hheader
  simp only [length_append, length_cons, length_nil] at hlen
  obtain ⟨first, tail, hchunk⟩ : ∃ first tail, xs ++ b₄ :: rest = first :: tail :=
    exists_cons_of_ne_nil (by simp)
  have hn : min (5 - s.header.length) (first :: tail).length = (xs ++ [b₄]).length := by
    rw [← hchunk]
    simp only [length_append, length_cons, length_nil]
    omega
  have hsplit : first :: tail = (xs ++ [b₄]) ++ rest := by rw [← hchunk]; simp
  rw [hchunk, feedLoop, if_neg (by omega), hn]
  dsimp only
  rw [hsplit, take_left, drop_left, ← append_assoc, hheader]
  rfl

theorem feedLoop_eq_transduce (fuel : Nat) (done : Bool) (state : TransactionState)
    (hs : HeaderOpen s) (hfuel : chunk.length ≤ fuel) :
    (feedLoop fuel s chunk done state).2 =
        report done state (untilMalformed (transduce feedByte s chunk).2) ∧
      (some .malformed ∉ (transduce feedByte s chunk).2 →
        (feedLoop fuel s chunk done state).1 = (transduce feedByte s chunk).1) := by
  induction fuel generalizing s chunk done state with
  | zero =>
    have hnil : chunk = [] := List.eq_nil_of_length_eq_zero (by omega)
    subst hnil
    exact ⟨rfl, fun _ => rfl⟩
  | succ fuel ih =>
    cases chunk with
    | nil => exact ⟨rfl, fun _ => rfl⟩
    | cons first tail =>
      simp only [length_cons] at hfuel
      by_cases hskip : 0 < s.skip
      · -- The pass swallows a run of body bytes `first :: xs`.
        obtain ⟨n, hn⟩ : ∃ n, min s.skip (tail.length + 1) = n + 1 :=
          ⟨min s.skip (tail.length + 1) - 1, by omega⟩
        obtain ⟨xs, rest, hxs, rfl⟩ : ∃ xs rest, xs.length = n ∧ tail = xs ++ rest :=
          ⟨tail.take n, tail.drop n, by simp; omega, by simp⟩
        simp only [length_append] at hn hfuel
        have hrun := transduce_skip (s := s) first xs (by omega)
        have hall : transduce feedByte s (first :: (xs ++ rest)) =
            transduce feedByte s ((first :: xs) ++ rest) := rfl
        obtain ⟨hreported, hstate⟩ := ih
          (s := { s with skip := s.skip - (xs.length + 1), wantStatus := false })
          (done || s.wantStatus) (if s.wantStatus then transactionStatus first else state) hs
          (show rest.length ≤ fuel by omega)
        rw [hall, transduce.append, hrun,
          feedLoop_skip fuel first xs rest done state hskip (by omega),
          untilMalformed_append (by split <;> simp), report_append, report_status,
          report_replicate_none]
        exact ⟨hreported, fun hframed => hstate fun h => hframed (mem_append_right _ h)⟩
      · have hskip0 : s.skip = 0 := by omega
        by_cases hshort : s.header.length + (tail.length + 1) < 5
        · -- The chunk ends inside the header.
          rw [feedLoop_short fuel (first :: tail) done state hskip0 (by simp) hshort,
            transduce_header (first :: tail) hskip0 hshort,
            untilMalformed_eq_self (malformed_notMem_replicate _), report_replicate_none]
          exact ⟨rfl, fun _ => rfl⟩
        · -- The chunk completes the header with `b₄`.
          have hopen : s.header.length < 5 := hs
          obtain ⟨xs, ys, hxs, hsplit⟩ : ∃ xs ys : Bytes, s.header.length + xs.length = 4 ∧
              first :: tail = xs ++ ys :=
            ⟨(first :: tail).take (4 - s.header.length),
              (first :: tail).drop (4 - s.header.length), by simp; omega, by simp⟩
          have hys : ys ≠ [] := by
            rintro rfl
            have := congrArg List.length hsplit
            simp only [length_cons, append_nil] at this
            omega
          obtain ⟨b₄, rest, rfl⟩ := exists_cons_of_ne_nil hys
          obtain ⟨tag, b₁, b₂, b₃, hheader⟩ := header_eq_four (s.header ++ xs)
            (by simp; omega) (by simp; omega)
          have hcount := congrArg List.length hsplit
          simp only [length_cons, length_append] at hcount
          have hall : xs ++ b₄ :: rest = (xs ++ [b₄]) ++ rest := by simp
          rw [hsplit, feedLoop_open fuel rest done state hskip0 hheader, hall, transduce.append,
            transduce_open xs b₄ hskip0 hheader]
          by_cases hbad : beU32 b₁ b₂ b₃ b₄ < 4
          · rw [if_pos hbad, if_pos hbad]
            refine ⟨?_, fun hframed => absurd (by simp) hframed⟩
            rw [append_assoc, untilMalformed_append (malformed_notMem_replicate _),
              report_append, report_replicate_none]
            rfl
          · obtain ⟨hreported, hstate⟩ :=
              ih (done || (s.openMessage tag (beU32 b₁ b₂ b₃ b₄)).2) state
              (openMessage_headerOpen s tag (beU32 b₁ b₂ b₃ b₄)) (show rest.length ≤ fuel by omega)
            rw [if_neg hbad, if_neg hbad, untilMalformed_append (by split <;> simp), report_append,
              report_append, report_replicate_none, report_ended]
            exact ⟨hreported, fun hframed => hstate fun h => hframed (mem_append_right _ h)⟩

theorem feed_reports (hs : HeaderOpen s) :
    (feed s chunk).2 = report false statePartial (untilMalformed (transduce feedByte s chunk).2) :=
  (feedLoop_eq_transduce _ _ _ hs (Nat.le_succ _)).1

/-- **Feeding a chunk is running the byte transducer over it.** -/
theorem feed_eq_transduce (hs : HeaderOpen s)
    (hframed : some .malformed ∉ (transduce feedByte s chunk).2) :
    feed s chunk =
      ((transduce feedByte s chunk).1,
        report false statePartial (transduce feedByte s chunk).2) := by
  have hreported : (feed s chunk).2 = _ := feed_reports hs
  rw [untilMalformed_eq_self hframed] at hreported
  exact Prod.ext ((feedLoop_eq_transduce _ _ _ hs (Nat.le_succ _)).2 hframed) hreported

end Pontus.Protocol.ReplyScanner
