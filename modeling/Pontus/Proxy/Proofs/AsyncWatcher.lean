import Pontus.Proxy.AsyncWatcher

/-!
# What the async watcher takes and gives

A pass of the watcher's loop takes nothing, relays one whole message, or loses
bytes and ends the watch.  So the watch has written what it has consumed, a
whole number of messages, just if every message it began could be relayed.
-/

namespace Pontus.Proxy

open Lib Protocol Arrival

/-! ## Reads and writes -/

namespace Arrival

variable {a : Arrival} {want : Nat} {stream : Bytes}

theorem readFull_whole (h : want ≤ min stream.length a.inTime) :
    a.readFull want stream = (stream.take want, none) := by
  have hmin : min want a.inTime = want := by omega
  simp only [readFull, hmin, length_take]
  rw [if_neg (by omega)]

theorem readFull_short (h : min stream.length a.inTime < want) :
    a.readFull want stream = (stream.take a.inTime, some a.err) := by
  have htake : stream.take (min want a.inTime) = stream.take a.inTime := by
    rw [← List.take_take]
    exact List.take_of_length_le (by rw [length_take]; omega)
  simp only [readFull, htake, length_take]
  rw [if_pos (by omega)]

end Arrival

/-! ## One pass -/

namespace Poll

variable {p : Poll} {stream : Bytes}

def untouched (p : Poll) (stream : Bytes) : Bool :=
  p.stopping || p.pollDeadline.isSome || p.header.inTime == 0 || stream.isEmpty

def headerArrives (p : Poll) (stream : Bytes) : Bool :=
  decide (5 ≤ stream.length) && (decide (5 ≤ p.header.inTime) ||
    p.commitDeadline.isNone && decide (5 ≤ p.header.inTime + p.headerRest.inTime))

/-- A length a message can have, of a body that arrives in time, and a client
that takes both. -/
def bodyRelayed (p : Poll) (length : Nat) (stream : Bytes) : Bool :=
  decide (4 ≤ length) && p.forwardDeadline.isNone &&
    decide (length - 4 ≤ min stream.length p.body.inTime) && p.headerWrite.isNone &&
    (decide (length = 4) || p.bodyWrite.isNone)

/-- The message at the head of the stream is one a backend sends unprompted,
arrives whole in time, and is taken by the client. -/
def relayable (p : Poll) (stream : Bytes) : Bool :=
  p.headerArrives stream && stream.head?.any isAsyncTag &&
    p.bodyRelayed (headerLength (stream.take 5)) (stream.drop 5)

inductive Forwards (p : Poll) (header stream : Bytes) : Passed → Prop
  | relayed (hrelayed : p.bodyRelayed (headerLength header) stream = true) {body behind : Bytes}
      (hbody : stream = body ++ behind) (hlength : 4 + body.length = headerLength header) :
      Forwards p header stream ⟨body, header ++ body, none⟩
  | lost (hrelayed : p.bodyRelayed (headerLength header) stream = false) {passed : Passed}
      (hconsumed : passed.consumed <+: stream)
      (hlost : passed.written.length < header.length + passed.consumed.length)
      (hended : passed.ended ≠ none) : Forwards p header stream passed

theorem forwards (p : Poll) {header : Bytes} (stream : Bytes) (hheader : header ≠ []) :
    Forwards p header stream (p.forward header stream) := by
  have hpos := length_pos_iff.2 hheader
  unfold forward
  dsimp only
  split
  · exact .lost (by simp [bodyRelayed]; omega) List.nil_prefix (by simpa using hpos) (by simp)
  split
  · rename_i err hdeadline
    exact .lost (by simp [bodyRelayed, hdeadline]) List.nil_prefix (by simpa using hpos) (by simp)
  rename_i hdeadline
  by_cases hbody : headerLength header - 4 ≤ min stream.length p.body.inTime
  swap
  · rw [readFull_short (by omega)]
    exact .lost (by simp [bodyRelayed, hbody]) (List.take_prefix _ _) (by simp; omega) (by simp)
  rw [readFull_whole hbody]
  have htaken : (stream.take (headerLength header - 4)).length = headerLength header - 4 := by
    rw [length_take]
    omega
  have hsplit := (take_append_drop (headerLength header - 4) stream).symm
  cases hwrite : p.headerWrite with
  | some short =>
    have hshort := length_short_write hheader short.taken
    refine .lost (by simp [bodyRelayed, hwrite]) (List.take_prefix _ _) ?_ (by simp [writeConn])
    simp only [writeConn]
    omega
  | none =>
    dsimp only [writeConn]
    split
    · rename_i hempty
      have hfour : headerLength header = 4 := by
        rw [hempty, length_nil] at htaken
        omega
      have hrelayed : Forwards p header stream ⟨_, header ++ _, none⟩ :=
        .relayed (by simp [bodyRelayed, hfour, hdeadline, hwrite]) hsplit (by omega)
      rw [hempty, append_nil] at hrelayed
      rw [hempty]
      exact hrelayed
    · rename_i hnonempty
      cases hwrite' : p.bodyWrite with
      | some short =>
        have hshort := length_short_write hnonempty short.taken
        have hne : headerLength header ≠ 4 := by
          intro hfour
          rw [hfour] at hnonempty
          simp at hnonempty
        refine .lost (by simp [bodyRelayed, hwrite', hne]) (List.take_prefix _ _) ?_ (by simp)
        dsimp only
        rw [length_append]
        omega
      | none =>
        refine .relayed ?_ hsplit (by omega)
        simp only [bodyRelayed, hdeadline, hwrite, hwrite', hbody, Option.isNone_none,
          Bool.or_true, Bool.and_true, decide_true, decide_eq_true_eq]
        omega

theorem encode_header {header body : Bytes} (hfive : header.length = 5)
    (hlen : 4 + body.length = headerLength header) : ∃ m : Frame, m.encode = header ++ body := by
  match header, hfive with
  | [tag, b₁, b₂, b₃, b₄], _ =>
    have hlen : 4 + body.length = beU32 b₁ b₂ b₃ b₄ := hlen
    have hsize : 4 + body.length < 2 ^ 32 := hlen ▸ beU32_lt b₁ b₂ b₃ b₄
    refine ⟨⟨tag, body, hsize⟩, ?_⟩
    simp only [Frame.encode, hlen, putU32_beU32]
    rfl

inductive Passes (p : Poll) (stream : Bytes) : Passed → Prop
  | untouched {ended : Option WatchEnd} (huntouched : p.untouched stream = true)
      (hended : ended = none ↔ p.stopping = false ∧ p.pollDeadline = none ∧
        p.header.err = .deadlineExceeded) :
      Passes p stream ⟨[], [], ended⟩
  | relayed {m : Frame} {behind : Bytes} (huntouched : p.untouched stream = false)
      (hrelayable : p.relayable stream = true) (hstream : stream = m.encode ++ behind)
      (hlength : m.encode.length = 1 + headerLength (stream.take 5)) :
      Passes p stream ⟨m.encode, m.encode, none⟩
  | lost {passed : Passed} (huntouched : p.untouched stream = false)
      (hrelayable : p.relayable stream = false) (hconsumed : passed.consumed <+: stream)
      (hlost : passed.written.length < passed.consumed.length) (hended : passed.ended ≠ none) :
      Passes p stream passed

theorem passes_relay (huntouched : p.untouched stream = false) (hheader : p.headerArrives stream) :
    Passes p stream (p.relay (stream.take 5) (stream.drop 5)) := by
  have hfive : 5 ≤ stream.length := by
    simp only [headerArrives, and_eq_true, decide_eq_true_eq] at hheader
    exact hheader.1
  have hlen : (stream.take 5).length = 5 := by
    rw [length_take]
    omega
  have hhead : (stream.take 5).head? = stream.head? := by rw [List.head?_take, if_neg (by decide)]
  have hcut : stream = stream.take 5 ++ stream.drop 5 := (take_append_drop 5 stream).symm
  unfold relay
  rw [hhead]
  split
  · rename_i htag
    rw [not_eq_true'] at htag
    exact .lost huntouched (by simp [relayable, htag]) (List.take_prefix _ _)
      (by rw [hlen]; simp) (by simp)
  rename_i htag
  rw [not_eq_true, not_eq_false'] at htag
  have hforwards := forwards p (stream.drop 5) (List.ne_nil_of_length_pos (by rw [hlen]; omega) :
    stream.take 5 ≠ [])
  dsimp only
  generalize p.forward (stream.take 5) (stream.drop 5) = passed at hforwards ⊢
  cases hforwards with
  | @relayed hrelayed _ behind hbody hlength =>
    obtain ⟨m, hm⟩ := encode_header hlen hlength
    have hstream : stream = m.encode ++ behind := by
      rw [hm, append_assoc, ← hbody]
      exact hcut
    have hmlen : m.encode.length = 1 + headerLength (stream.take 5) := by
      rw [hm, length_append, hlen]
      omega
    rw [← hm]
    exact .relayed huntouched (by simp [relayable, hheader, htag, hrelayed]) hstream hmlen
  | lost hrelayed hconsumed hlost hended =>
    refine .lost huntouched (by simp [relayable, hrelayed]) ?_ ?_ hended
    · have hwhole := (List.prefix_append_right_inj (stream.take 5)).2 hconsumed
      rw [← hcut] at hwhole
      exact hwhole
    · rw [length_append]
      exact hlost

theorem untouched_eq (hstop : p.stopping = false) (hdeadline : p.pollDeadline = none) :
    p.untouched stream = decide (stream.take p.header.inTime = []) := by
  rw [Bool.eq_iff_iff]
  simp [Poll.untouched, hstop, hdeadline, List.take_eq_nil_iff]

theorem headerArrives_iff : p.headerArrives stream ↔ 5 ≤ stream.length ∧
    (5 ≤ p.header.inTime ∨ p.commitDeadline = none ∧
      5 ≤ p.header.inTime + p.headerRest.inTime) := by
  simp [headerArrives]

theorem relayable_of_header (h : ¬ p.headerArrives stream) : p.relayable stream = false := by
  simp [relayable, h]

theorem passes_commit (huntouched : p.untouched stream = false)
    (hn : n = min p.header.inTime stream.length) (hpos : 0 < n) (hpart : n < 5) :
    Passes p stream (p.commit (stream.take n) (stream.drop n)) := by
  have hlen : (stream.take n).length = n := by
    rw [length_take]
    omega
  have hdrop : (stream.drop n).length = stream.length - n := length_drop
  unfold commit
  rw [hlen]
  split
  · rename_i err hcommit
    apply Passes.lost huntouched (relayable_of_header ?_) (List.take_prefix _ _)
    · simpa [hlen] using hpos
    · simp
    · rw [headerArrives_iff, hcommit]
      rintro ⟨hfive, hin | ⟨hnone, -⟩⟩
      · omega
      · simp at hnone
  rename_i hcommit
  dsimp only
  by_cases hmore : 5 - n ≤ min (stream.drop n).length p.headerRest.inTime
  · rw [readFull_whole hmore]
    have hheader : stream.take n ++ (stream.drop n).take (5 - n) = stream.take 5 := by
      rw [← List.take_add, Nat.add_sub_cancel' hpart.le]
    have hbehind : (stream.drop n).drop (5 - n) = stream.drop 5 := by
      rw [List.drop_drop, Nat.add_sub_cancel' hpart.le]
    rw [hheader, hbehind]
    apply passes_relay huntouched
    rw [headerArrives_iff]
    exact ⟨by omega, .inr ⟨hcommit, by omega⟩⟩
  · rw [readFull_short (by omega)]
    refine .lost huntouched (relayable_of_header ?_) ?_ ?_ (by simp)
    · rw [headerArrives_iff]
      rintro ⟨_, _⟩
      omega
    · have htaken := List.take_prefix p.headerRest.inTime (stream.drop n)
      have hwhole := (List.prefix_append_right_inj (stream.take n)).2 htaken
      rw [take_append_drop] at hwhole
      exact hwhole
    · rw [length_append, length_nil, hlen]
      omega

/-- **One pass** takes nothing, relays a whole message, or loses bytes. -/
theorem passes (p : Poll) (stream : Bytes) : Passes p stream (p.pass stream) := by
  unfold pass
  split
  · rename_i hstop
    exact .untouched (by simp [Poll.untouched, hstop]) (by simp [hstop])
  rename_i hstop
  rw [not_eq_true] at hstop
  split
  · rename_i err hdeadline
    exact .untouched (by simp [Poll.untouched, hdeadline]) (by simp [hdeadline])
  rename_i hdeadline
  have huntouched : p.untouched stream = decide (stream.take p.header.inTime = []) :=
    untouched_eq hstop hdeadline
  -- the header whole, nothing of it, or a part
  by_cases hwhole : 5 ≤ min stream.length p.header.inTime
  · rw [readFull_whole hwhole]
    have hne (n : Nat) (hn : 0 < n) : stream.take n ≠ [] := by
      apply List.ne_nil_of_length_pos
      rw [length_take]
      omega
    dsimp only
    rw [if_neg (hne 5 (by omega))]
    apply passes_relay
    · rw [huntouched]
      exact decide_eq_false (hne _ (by omega))
    · rw [headerArrives_iff]
      omega
  rw [readFull_short (by omega)]
  dsimp only
  split
  · rename_i hnone
    have huntouched : p.untouched stream := huntouched.trans (decide_eq_true hnone)
    split
    · rename_i herr
      exact .untouched huntouched (by simp [hstop, hdeadline, herr])
    · rename_i herr
      exact .untouched huntouched (by simp [herr])
  · rename_i hne
    have hpos := length_pos_iff.2 hne
    rw [length_take] at hpos ⊢
    rw [List.take_eq_take_min]
    exact passes_commit (huntouched.trans (decide_eq_false hne)) rfl hpos (by omega)

end Poll

/-! ## The whole watch -/

/-- Every message the watcher begins, in the passes it makes, is one it can
relay. -/
def wholeMessages : Bytes → List Poll → Bool
  | _, [] => true
  | stream, p :: polls =>
    if p.untouched stream then
      p.stopping || p.pollDeadline.isSome || decide (p.header.err ≠ .deadlineExceeded) ||
        wholeMessages stream polls
    else p.relayable stream && wholeMessages (stream.drop (1 + headerLength (stream.take 5))) polls

def Watched.Lossless (w : Watched) : Prop :=
  w.consumed = w.written ∧ ∃ ms, w.consumed = Frame.encodeAll ms

namespace Watched

theorem lossless_nil (ended : WatchEnd) : Lossless ⟨[], [], ended⟩ := ⟨rfl, [], rfl⟩

theorem lossless_message (m : Frame) (w : Watched) :
    Lossless { w with consumed := m.encode ++ w.consumed, written := m.encode ++ w.written } ↔
      w.Lossless := by
  constructor
  · rintro ⟨hsame, ms, hms⟩
    have hsame : w.consumed = w.written := List.append_cancel_left hsame
    refine ⟨hsame, ?_⟩
    cases ms with
    | nil => exact absurd (append_eq_nil_iff.1 hms).1 m.encode_ne_nil
    | cons m' ms =>
      have hms : m.encode ++ w.consumed = m'.encode ++ Frame.encodeAll ms := hms
      exact ⟨ms, (Frame.encode_append_inj hms).2⟩
  · rintro ⟨hsame, ms, hms⟩
    exact ⟨congrArg (m.encode ++ ·) hsame, m :: ms, congrArg (m.encode ++ ·) hms⟩

end Watched

/-- **The watch.**  Whatever the backend sends, however it arrives and whenever
the session wants its connection back: what the watcher has consumed is the
front of the stream; and it is what the watcher has written, a whole number of
messages, just if it began no message that it could not relay. -/
theorem watcher_loses_nothing_iff (stream : Bytes) (polls : List Poll) (w : Watched)
    (h : watchAsync stream polls = some w) :
    (∃ rest, stream = w.consumed ++ rest) ∧
      ((w.consumed = w.written ∧ ∃ ms, w.consumed = Frame.encodeAll ms) ↔
        wholeMessages stream polls = true) := by
  change _ ∧ (w.Lossless ↔ _)
  induction polls generalizing stream w with
  | nil => simp [watchAsync] at h
  | cons p _ ih =>
    have hpass := p.passes stream
    unfold watchAsync at h
    dsimp only at h
    generalize p.pass stream = passed at hpass h
    cases hpass with
    | @untouched ended huntouched hended =>
      cases ended with
      | some ended =>
        cases h
        refine ⟨⟨stream, rfl⟩, iff_of_true (Watched.lossless_nil ended) ?_⟩
        have hsome : ¬ (p.stopping = false ∧ p.pollDeadline = none ∧
            p.header.err = .deadlineExceeded) := by simpa using hended
        rw [wholeMessages, if_pos huntouched]
        cases hstop : p.stopping <;> cases hpoll : p.pollDeadline <;> simp_all
      | none =>
        obtain ⟨hstop, hpoll, herr⟩ := hended.1 rfl
        simp only [length_nil, List.drop_zero, nil_append, Option.map_id_fun', id_eq] at h
        obtain ⟨hfront, hiff⟩ := ih stream w h
        refine ⟨hfront, hiff.trans ?_⟩
        simp [wholeMessages, huntouched, hstop, hpoll, herr]
    | @relayed m behind huntouched hrelayable hstream hlength =>
      obtain ⟨w', hw', rfl⟩ := map_eq_some_iff.1 h
      have hbehind : stream.drop m.encode.length = behind := by rw [hstream, drop_left]
      obtain ⟨⟨rest, hrest⟩, hiff⟩ := ih _ w' hw'
      constructor
      · refine ⟨rest, ?_⟩
        rw [append_assoc, ← hrest, hbehind]
        exact hstream
      · rw [Watched.lossless_message, hiff, wholeMessages, huntouched, hrelayable, ← hlength]
        simp
    | lost huntouched hrelayable hconsumed _ hended =>
      obtain ⟨_, hended⟩ := Option.ne_none_iff_exists'.1 hended
      rw [hended] at h
      cases h
      obtain ⟨rest, hrest⟩ := hconsumed
      refine ⟨⟨rest, hrest.symm⟩, iff_of_false ?_ ?_⟩
      · rintro ⟨hsame, -⟩
        have hlen := congrArg List.length hsame
        dsimp only at hlen
        omega
      · simp [wholeMessages, huntouched, hrelayable]

/-- Two notifications and a changed parameter. -/
def asyncMessages : List Frame :=
  [⟨'A'.toUInt8, putU32 7 ++ ascii "jobs" ++ [0] ++ ascii "42" ++ [0], by decide⟩,
    ⟨'S'.toUInt8, ascii "TimeZone" ++ [0] ++ ascii "UTC" ++ [0], by decide⟩,
    ⟨'A'.toUInt8, putU32 9 ++ ascii "mail" ++ [0, 0], by decide⟩]

theorem notifications_relayed :
    let stream := Frame.encodeAll asyncMessages
    let polls := List.replicate 3 Poll.undisturbed ++ [{ Poll.undisturbed with stopping := true }]
    let w : Watched := ⟨stream, stream, .stopped⟩
    watchAsync stream polls = some w ∧ (w.consumed = w.written ∧
      ∃ ms, w.consumed = Frame.encodeAll ms) := by
  intro stream polls w
  have hwatched : watchAsync stream polls = some w := by decide +kernel
  exact ⟨hwatched, (watcher_loses_nothing_iff stream polls w hwatched).2.2 (by decide +kernel)⟩

theorem size_noFields : 4 + ([0] : Bytes).length < 2 ^ 32 := by decide

theorem error_response_header_lost :
    let stream := Frame.encode ⟨'E'.toUInt8, [0], size_noFields⟩
    let w : Watched := ⟨stream.take 5, [], .unexpectedAsync⟩
    watchAsync stream [Poll.undisturbed] = some w ∧ ¬ (w.consumed = w.written ∧
      ∃ ms, w.consumed = Frame.encodeAll ms) := by
  refine ⟨by decide, ?_⟩
  rintro ⟨hsame, -⟩
  exact absurd hsame (by decide)

end Pontus.Proxy
