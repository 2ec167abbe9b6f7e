import Pontus.Protocol.Proofs.ScannerBytes

/-!
# The reply scanner over whole messages

Backend output is a sequence of frames.  Over such a stream every message
raises at most one signal, at a byte that depends on the message and the
awaited end alone (`signalOf`); a chunk is reported as the end of the reply
when it holds one of those bytes (`feed_done_iff`), and the scanner is at rest
exactly at message boundaries (`atRest_iff_boundary`).
-/

namespace Pontus.Protocol.ReplyScanner

open Lib TransactionState Frame
open Pontus.Lib.Frame (encodeAll)

variable {m : Frame} {i : Nat} {sig : Signal} {ending : ResponseEnd} {ms : List Frame}
variable {s : ReplyScanner} {pre : List Bytes} {chunk rest : Bytes}

/-! ## Where a message raises its signal -/

/-- The byte of a message at which the scanner reports the end of the reply,
counted from the type byte, and what it reports there. -/
def signalOf (ending : ResponseEnd) (m : Frame) : Option (Nat × Signal) :=
  if m.tag = 'Z'.toUInt8 then
    match m.body with
    | [] => some (4, .ended)
    | b :: _ => some (5, .status (transactionStatus b))
  else if !ending.onReadyForQuery && ending.awaited m.tag then some (4, .ended)
  else none

def headerSignal (ending : ResponseEnd) (m : Frame) : Option Signal :=
  if m.tag = 'Z'.toUInt8 then if m.body = [] then some .ended else none
  else if !ending.onReadyForQuery && ending.awaited m.tag then some .ended
  else none

def bodySignals (m : Frame) : List (Option Signal) :=
  match m.body with
  | [] => []
  | b :: rest =>
    (if m.tag = 'Z'.toUInt8 then some (.status (transactionStatus b)) else none) ::
      List.replicate rest.length none

def byteSignals (ending : ResponseEnd) (m : Frame) : List (Option Signal) :=
  none :: none :: none :: none :: headerSignal ending m :: bodySignals m

def streamSignals (ending : ResponseEnd) (ms : List Frame) : List (Option Signal) :=
  ms.flatMap (byteSignals ending)

@[simp] theorem length_bodySignals (m : Frame) : (bodySignals m).length = m.body.length := by
  unfold bodySignals
  cases m.body <;> simp

@[simp] theorem length_byteSignals (ending : ResponseEnd) (m : Frame) :
    (byteSignals ending m).length = m.encode.length := by
  simp only [byteSignals, length_cons, length_bodySignals, length_encode]
  omega

@[simp] theorem length_streamSignals (ending : ResponseEnd) (ms : List Frame) :
    (streamSignals ending ms).length = (encodeAll ms).length := by
  induction ms with
  | nil => rfl
  | cons _ _ ih =>
    rw [encodeAll_cons, length_append, ← ih, ← length_byteSignals ending]
    simp [streamSignals]

theorem bodySignals_getElem :
    (bodySignals m)[i]? = some (some sig) ↔
      m.tag = 'Z'.toUInt8 ∧ i = 0 ∧
        ∃ b rest, m.body = b :: rest ∧ sig = .status (transactionStatus b) := by
  unfold bodySignals
  cases hbody : m.body with
  | nil => simp
  | cons =>
    cases i with
    | zero => by_cases htag : m.tag = 'Z'.toUInt8 <;> simp [htag, eq_comm]
    | succ => simp [List.getElem?_replicate]

theorem byteSignals_getElem :
    (byteSignals ending m)[i]? = some (some sig) ↔ signalOf ending m = some (i, sig) := by
  match i with
  | 0 | 1 | 2 | 3 =>
    simp only [byteSignals, signalOf]
    split <;> [split; split] <;> simp
  | 4 =>
    simp only [byteSignals, headerSignal, signalOf]
    split
    · cases m.body <;> simp
    · split <;> simp
  | i + 5 =>
    simp only [byteSignals, signalOf, List.getElem?_cons_succ, bodySignals_getElem]
    by_cases htag : m.tag = 'Z'.toUInt8
    · cases m.body <;> simp [htag, eq_comm]
    · rw [if_neg htag]
      split <;> simp [htag]

theorem byteSignals_framed (ending : ResponseEnd) (m : Frame) :
    some .malformed ∉ byteSignals ending m := by
  intro hmem
  obtain ⟨i, hi⟩ := List.getElem?_of_mem hmem
  rw [byteSignals_getElem, signalOf] at hi
  split at hi <;> [split at hi; split at hi] <;> simp at hi

theorem streamSignals_framed (ending : ResponseEnd) (ms : List Frame) :
    some .malformed ∉ streamSignals ending ms := by
  simp only [streamSignals, List.mem_flatMap, not_exists, not_and]
  exact fun m _ => byteSignals_framed ending m

theorem streamSignals_getElem :
    (streamSignals ending ms)[i]? = some (some sig) ↔
      ∃ start m k, Frame.StartsAt ms start m ∧ signalOf ending m = some (k, sig) ∧
        i = start + k := by
  induction ms generalizing i with
  | nil => simp [streamSignals, Frame.StartsAt]
  | cons g ms ih =>
    have hcons : streamSignals ending (g :: ms) =
        byteSignals ending g ++ streamSignals ending ms :=
      rfl
    constructor
    · intro hi
      rw [hcons, List.getElem?_append] at hi
      split at hi
      · exact ⟨0, g, i, startsAt_cons.2 (.inl ⟨rfl, rfl⟩), byteSignals_getElem.1 hi,
          by omega⟩
      · obtain ⟨start, m, k, hstart, hsignal, hk⟩ := ih.1 hi
        rw [length_byteSignals] at *
        exact ⟨g.encode.length + start, m, k,
          startsAt_cons.2 (.inr ⟨start, rfl, hstart⟩), hsignal, by omega⟩
    · rintro ⟨start, m, k, hstart, hsignal, rfl⟩
      rw [hcons]
      rcases startsAt_cons.1 hstart with ⟨rfl, rfl⟩ | ⟨rest, rfl, hrest⟩
      · have hget := byteSignals_getElem.2 hsignal
        obtain ⟨hlt, -⟩ := List.getElem?_eq_some_iff.1 hget
        rw [Nat.zero_add, List.getElem?_append_left hlt, hget]
      · rw [List.getElem?_append_right (by rw [length_byteSignals]; omega), length_byteSignals,
          show g.encode.length + rest + k - g.encode.length = rest + k by omega]
        exact ih.2 ⟨rest, m, k, hrest, hsignal, rfl⟩

/-! ## The scanner over a stream -/

structure Resting (ending : ResponseEnd) (s : ReplyScanner) : Prop where
  ending_eq : s.ending = ending
  header_eq : s.header = []
  skip_eq : s.skip = 0
  wantStatus_eq : s.wantStatus = false

theorem resting_new (ending : ResponseEnd) : Resting ending (newReplyScanner ending) :=
  ⟨rfl, rfl, rfl, rfl⟩

theorem transduce_frame_header (hs : Resting ending s) (m : Frame) :
    transduce feedByte s
        (m.tag :: UInt8.ofNat ((4 + m.body.length) / 2 ^ 24) ::
          UInt8.ofNat ((4 + m.body.length) / 2 ^ 16) ::
          UInt8.ofNat ((4 + m.body.length) / 2 ^ 8) ::
          [UInt8.ofNat (4 + m.body.length)]) =
      ((s.openMessage m.tag (4 + m.body.length)).1,
        [none, none, none, none, headerSignal ending m]) := by
  have hlen := m.beU32_length
  have hopen := transduce_open
    [m.tag, UInt8.ofNat ((4 + m.body.length) / 2 ^ 24),
      UInt8.ofNat ((4 + m.body.length) / 2 ^ 16), UInt8.ofNat ((4 + m.body.length) / 2 ^ 8)]
    (UInt8.ofNat (4 + m.body.length)) hs.skip_eq (by rw [hs.header_eq]; rfl)
  rw [hlen, if_neg (by omega)] at hopen
  have hsignal :
      (if (s.openMessage m.tag (4 + m.body.length)).2 then some Signal.ended else none) =
        headerSignal ending m := by
    simp only [openMessage, headerSignal, hs.ending_eq, Nat.add_sub_cancel_left]
    by_cases htag : m.tag = 'Z'.toUInt8
    · simp [htag]
    · simp [htag]
  rw [hsignal] at hopen
  exact hopen

theorem transduce_frame_body (hskip : s.skip = m.body.length)
    (hstatus : s.wantStatus = (m.tag == 'Z'.toUInt8 && decide (0 < m.body.length))) :
    transduce feedByte s m.body = ({ s with skip := 0, wantStatus := false }, bodySignals m) := by
  unfold bodySignals
  cases hbody : m.body with
  | nil =>
    rw [hbody] at hskip hstatus
    simp only [length_nil, lt_irrefl, decide_false, Bool.and_false] at hskip hstatus
    simp [← hskip, ← hstatus]
  | cons b rest =>
    rw [hbody] at hskip hstatus
    simp only [length_cons, Nat.zero_lt_succ, decide_true, Bool.and_true] at hskip hstatus
    rw [transduce_skip b rest (by omega), hskip, hstatus]
    simp

section
variable (hs : Resting ending s)
include hs

theorem openMessage_resting (m : Frame) :
    (s.openMessage m.tag (4 + m.body.length)).1.skip = m.body.length ∧
      (s.openMessage m.tag (4 + m.body.length)).1.wantStatus =
        (m.tag == 'Z'.toUInt8 && decide (0 < m.body.length)) ∧
      (s.openMessage m.tag (4 + m.body.length)).1.ending = ending ∧
      (s.openMessage m.tag (4 + m.body.length)).1.header = [] := by
  simp [openMessage, hs.wantStatus_eq, hs.ending_eq]

theorem transduce_frame (m : Frame) :
    transduce feedByte s m.encode =
      ({ (s.openMessage m.tag (4 + m.body.length)).1 with skip := 0, wantStatus := false },
        byteSignals ending m) := by
  obtain ⟨hskip, hstatus, -, -⟩ := openMessage_resting hs m
  have hsplit := transduce.append feedByte s
    (m.tag :: UInt8.ofNat ((4 + m.body.length) / 2 ^ 24) ::
      UInt8.ofNat ((4 + m.body.length) / 2 ^ 16) ::
      UInt8.ofNat ((4 + m.body.length) / 2 ^ 8) :: [UInt8.ofNat (4 + m.body.length)]) m.body
  rw [transduce_frame_header hs, transduce_frame_body hskip hstatus] at hsplit
  exact hsplit

theorem transduce_encode (m : Frame) :
    Resting ending (transduce feedByte s m.encode).1 ∧
      (transduce feedByte s m.encode).2 = byteSignals ending m := by
  obtain ⟨-, -, hending, hheader⟩ := openMessage_resting hs m
  rw [transduce_frame hs]
  exact ⟨⟨hending, hheader, rfl, rfl⟩, rfl⟩

theorem transduce_encodeAll (ms : List Frame) :
    Resting ending (transduce feedByte s (encodeAll ms)).1 ∧
      (transduce feedByte s (encodeAll ms)).2 = streamSignals ending ms := by
  induction ms generalizing s with
  | nil => exact ⟨hs, rfl⟩
  | cons m _ ih =>
    obtain ⟨hrest, hsignals⟩ := transduce_encode hs m
    obtain ⟨hend, htail⟩ := ih hrest
    rw [encodeAll_cons, transduce.append]
    refine ⟨hend, ?_⟩
    rw [hsignals, htail]
    rfl

theorem transduce_encodeAll_sawError (ms : List Frame) :
    (transduce feedByte s (encodeAll ms)).1.sawError =
      (s.sawError || ms.any (·.tag == 'E'.toUInt8)) := by
  induction ms generalizing s with
  | nil => exact (Bool.or_false _).symm
  | cons m _ ih =>
    rw [encodeAll_cons, transduce.append, ih (transduce_encode hs m).1, transduce_frame hs,
      any_cons, ← Bool.or_assoc]
    rfl

end

/-! ## At rest exactly at a message boundary -/

def AtRest (s : ReplyScanner) : Prop := s.skip = 0 ∧ s.header = []

theorem transduce_skip_count (xs : Bytes) (hlen : xs.length ≤ s.skip) :
    (transduce feedByte s xs).1.skip = s.skip - xs.length := by
  cases xs with
  | nil => simp
  | cons b xs =>
    rw [transduce_skip b xs (by simpa using hlen)]
    rfl

theorem not_atRest_inside (hs : Resting ending s) (hsplit : m.encode = p ++ q) (hp : p ≠ [])
    (hq : q ≠ []) : ¬AtRest (transduce feedByte s p).1 := by
  intro hrest
  by_cases hshort : p.length < 5
  · rw [transduce_header p hs.skip_eq (by rw [hs.header_eq]; simpa using hshort)] at hrest
    have hnil := hrest.2
    rw [hs.header_eq] at hnil
    exact hp (by simpa using hnil)
  · -- `p` is the whole header and a part `p'` of the body.
    have hlen := congrArg List.length hsplit
    rw [length_encode, length_append] at hlen
    have hq' := length_pos_iff.2 hq
    obtain ⟨hskip, -⟩ := openMessage_resting hs m
    have hheader := transduce_frame_header hs m
    rw [encode_eq] at hsplit
    have htake := congrArg (List.take p.length) hsplit
    rw [take_left] at htake
    obtain ⟨n, hn⟩ : ∃ n, p.length = n + 5 := ⟨p.length - 5, by omega⟩
    rw [hn] at htake
    simp only [List.take_succ_cons] at htake
    have happend := transduce.append feedByte s
      (m.tag :: UInt8.ofNat ((4 + m.body.length) / 2 ^ 24) ::
        UInt8.ofNat ((4 + m.body.length) / 2 ^ 16) ::
        UInt8.ofNat ((4 + m.body.length) / 2 ^ 8) :: [UInt8.ofNat (4 + m.body.length)])
      (m.body.take n)
    rw [hheader] at happend
    have hbody : (m.body.take n).length = n := by
      rw [length_take]
      omega
    have hcount := transduce_skip_count
      (s := (s.openMessage m.tag (4 + m.body.length)).1) (m.body.take n) (by omega)
    have hzero : (transduce feedByte s p).1.skip = 0 := hrest.1
    rw [← htake] at hzero
    have hstate := congrArg (fun r : ReplyScanner × List (Option Signal) => r.1.skip) happend
    rw [cons_append, cons_append, cons_append, cons_append, cons_append, nil_append,
      hzero] at hstate
    rw [hcount, hskip, hbody] at hstate
    omega

/-- **The scanner is at rest exactly at message boundaries.** -/
theorem atRest_iff_boundary (hs : Resting ending s) (hsplit : encodeAll ms = p ++ q) :
    AtRest (transduce feedByte s p).1 ↔ Frame.Boundary ms p.length := by
  induction ms generalizing s p with
  | nil =>
    obtain ⟨rfl, -⟩ := append_eq_nil_iff.1 hsplit.symm
    exact iff_of_true ⟨hs.skip_eq, hs.header_eq⟩ (boundary_zero [])
  | cons m ms ih =>
    rw [boundary_cons]
    rcases List.append_eq_append_iff.1 hsplit with ⟨a, rfl, ha⟩ | ⟨c, hc, -⟩
    · -- `p` covers the whole of `m`.
      rw [transduce.append]
      rw [ih (transduce_encode hs m).1 ha]
      have hpos := length_pos_iff.2 m.encode_ne_nil
      constructor
      · intro hb
        exact .inr ⟨a.length, length_append, hb⟩
      · intro hb
        rcases hb with hzero | ⟨rest, hlen, hrest⟩
        · rw [length_append] at hzero
          omega
        · rw [length_append] at hlen
          have hrest' : rest = a.length := by omega
          rwa [hrest'] at hrest
    · by_cases hp : p = []
      · subst hp
        exact iff_of_true ⟨hs.skip_eq, hs.header_eq⟩ (.inl rfl)
      have hlen := congrArg List.length hc
      rw [length_append] at hlen
      by_cases hcnil : c = []
      · subst hcnil
        rw [append_nil] at hc
        rw [← hc]
        have hend := (transduce_encode hs m).1
        exact iff_of_true ⟨hend.skip_eq, hend.header_eq⟩ (.inr ⟨0, rfl, boundary_zero ms⟩)
      · refine iff_of_false (not_atRest_inside hs hc hp hcnil) ?_
        have hp' := length_pos_iff.2 hp
        have hc' := length_pos_iff.2 hcnil
        intro hb
        rcases hb with hzero | ⟨rest, hrest, -⟩ <;> omega

/-! ## Feeding a stream in chunks -/

def feedAll (s : ReplyScanner) (chunks : List Bytes) : ReplyScanner :=
  chunks.foldl (fun s chunk => (feed s chunk).1) s

@[simp] theorem feedAll_nil (s : ReplyScanner) : feedAll s [] = s := rfl

@[simp] theorem feedAll_cons (s : ReplyScanner) (chunk : Bytes) (chunks : List Bytes) :
    feedAll s (chunk :: chunks) = feedAll (feed s chunk).1 chunks := rfl

theorem feedAll_eq_transduce (chunks : List Bytes) (hs : HeaderOpen s)
    (hframed : some .malformed ∉ (transduce feedByte s chunks.flatten).2) :
    feedAll s chunks = (transduce feedByte s chunks.flatten).1 := by
  induction chunks generalizing s with
  | nil => rfl
  | cons chunk _ ih =>
    rw [flatten_cons, transduce.append] at hframed ⊢
    rw [feedAll_cons, feed_eq_transduce hs (fun h => hframed (mem_append_left _ h))]
    exact ih (transduce_headerOpen chunk hs) (fun h => hframed (mem_append_right _ h))

theorem feed_stream (hsplit : encodeAll ms = pre.flatten ++ chunk ++ rest) :
    feed (feedAll (newReplyScanner ending) pre) chunk =
      ((transduce feedByte (newReplyScanner ending) (pre.flatten ++ chunk)).1,
        report false statePartial
          (((streamSignals ending ms).drop pre.flatten.length).take chunk.length)) := by
  have hopen := headerOpen_new ending
  have hsignals := (transduce_encodeAll (resting_new ending) ms).2
  have hslice := transduce.slice feedByte (newReplyScanner ending) pre.flatten chunk rest
  rw [← hsplit, hsignals] at hslice
  have hframed := streamSignals_framed ending ms
  have hpre : some .malformed ∉ (transduce feedByte (newReplyScanner ending) pre.flatten).2 := by
    intro hmem
    apply hframed
    rw [← hsignals, hsplit, append_assoc, transduce.append]
    exact mem_append_left _ hmem
  rw [feedAll_eq_transduce pre hopen hpre, feed_eq_transduce (transduce_headerOpen _ hopen),
    hslice, transduce.append]
  rw [hslice]
  intro hmem
  exact hframed (List.mem_of_mem_drop (List.mem_of_mem_take hmem))

theorem feed_sawError (hwhole : encodeAll ms = pre.flatten ++ chunk) :
    (feed (feedAll (newReplyScanner ending) pre) chunk).1.sawError =
      ms.any (·.tag == 'E'.toUInt8) := by
  have hsplit : encodeAll ms = pre.flatten ++ chunk ++ [] := by rw [hwhole, append_nil]
  rw [feed_stream hsplit, ← hwhole, transduce_encodeAll_sawError (resting_new ending)]
  exact Bool.false_or _

/-! ## What a chunk reports -/

theorem report_done_iff (done : Bool) (state : TransactionState) (xs : List (Option Signal)) :
    (report done state xs).1 ↔ done ∨ ∃ sig, some sig ∈ xs := by
  induction xs generalizing done state with
  | nil => simp [report]
  | cons x _ ih => rcases x with _ | (_ | st | _) <;> simp [report, ih]

theorem report_last_status (done : Bool) (state st : TransactionState)
    (xs ys : List (Option Signal)) (hys : ∀ y ∈ ys, y = none) :
    report done state (xs ++ some (.status st) :: ys) = (true, st) := by
  rw [List.eq_replicate_of_mem hys, report_append]
  simp [report]

theorem report_of_last_status (done : Bool) (state : TransactionState)
    (hi : xs[i]? = some (some (.status st))) (hlast : ∀ j sig, i < j → xs[j]? ≠ some (some sig)) :
    report done state xs = (true, st) := by
  obtain ⟨hlt, hvalue⟩ := List.getElem?_eq_some_iff.1 hi
  rw [← take_append_drop i xs, List.drop_eq_getElem_cons hlt, hvalue]
  apply report_last_status
  intro y hy
  obtain ⟨j, hj⟩ := List.mem_iff_getElem?.1 hy
  rw [List.getElem?_drop] at hj
  cases y with
  | none => rfl
  | some sig => exact absurd hj (hlast _ sig (by omega))

theorem mem_slice_iff {xs : List α} :
    a ∈ (xs.drop start).take len ↔ ∃ i, start ≤ i ∧ i < start + len ∧ xs[i]? = some a := by
  rw [List.mem_iff_getElem?]
  constructor
  · intro h
    obtain ⟨i, hi⟩ := h
    rw [List.getElem?_take] at hi
    split at hi
    · rw [List.getElem?_drop] at hi
      exact ⟨start + i, by omega, by omega, hi⟩
    · simp at hi
  · intro h
    obtain ⟨i, hstart, hlen, hi⟩ := h
    refine ⟨i - start, ?_⟩
    rw [List.getElem?_take, if_pos (by omega), List.getElem?_drop,
      show start + (i - start) = i by omega]
    exact hi

/-- **A read is the end of the reply when a message raises its signal in it.** -/
theorem feed_done_iff (hsplit : encodeAll ms = pre.flatten ++ chunk ++ rest) :
    (feed (feedAll (newReplyScanner ending) pre) chunk).2.1 ↔
      ∃ start m k sig, Frame.StartsAt ms start m ∧ signalOf ending m = some (k, sig) ∧
        pre.flatten.length ≤ start + k ∧ start + k < pre.flatten.length + chunk.length := by
  rw [feed_stream hsplit, report_done_iff]
  constructor
  · intro h
    rcases h with h | ⟨sig, hmem⟩
    · exact absurd h (by simp)
    · obtain ⟨i, hlo, hhi, hi⟩ := mem_slice_iff.1 hmem
      obtain ⟨start, m, k, hstart, hsignal, rfl⟩ := streamSignals_getElem.1 hi
      exact ⟨start, m, k, sig, hstart, hsignal, hlo, hhi⟩
  · intro h
    obtain ⟨start, m, k, sig, hstart, hsignal, hlo, hhi⟩ := h
    exact .inr ⟨sig, mem_slice_iff.2
      ⟨start + k, hlo, hhi, streamSignals_getElem.2 ⟨start, m, k, hstart, hsignal, rfl⟩⟩⟩

theorem feed_atRest_iff (hsplit : encodeAll ms = pre.flatten ++ chunk ++ rest) :
    AtRest (feed (feedAll (newReplyScanner ending) pre) chunk).1 ↔
      Frame.Boundary ms (pre.flatten.length + chunk.length) := by
  rw [feed_stream hsplit, ← length_append]
  exact atRest_iff_boundary (resting_new ending) hsplit

end Pontus.Protocol.ReplyScanner
