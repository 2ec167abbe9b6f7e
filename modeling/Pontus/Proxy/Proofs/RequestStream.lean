import Pontus.Proxy.ReadRequest

/-!
# Requests are whole messages

Over a stream of well-formed messages the shortfall `trailingNeed` computes is
never more than what is on its way, so a call that returns without an error
returns whole messages and leaves the stream at the start of the next.  What
can stop a call is the size check, which counts every message pipelined into
the buffer, and the eight-byte probe of a client that has fallen silent.
-/

namespace Pontus.Proxy

open Lib Protocol Frame
open Pontus.Lib.Frame (encodeAll)

/-! ## The shortfall of a message cut off -/

theorem messageLength_front {m : Frame} {front : Bytes} (hm : m.encode = front ++ back) :
    messageLength front = if front.length < 5 then none else some (m.encode.length) := by
  match front, hm with
  | [], _ => rfl
  | [_], _ => rfl
  | [_, _], _ => rfl
  | [_, _, _], _ => rfl
  | [_, _, _, _], _ => rfl
  | b₀ :: b₁ :: b₂ :: b₃ :: b₄ :: front, hm =>
    rw [encode_eq] at hm
    simp only [cons_append, List.cons.injEq] at hm
    obtain ⟨-, rfl, rfl, rfl, rfl, -⟩ := hm
    simp only [messageLength]
    rw [m.beU32_length, if_neg (by omega), length_encode]
    congr 1
    omega

theorem trailingNeedLoop_front {m : Frame} {front back : Bytes} (hm : m.encode = front ++ back)
    (hfront : front ≠ []) (hback : back ≠ []) (fuel : Nat) :
    trailingNeedLoop (fuel + 1) front = if front.length < 5 then 1 else back.length := by
  have hlen : m.encode.length = front.length + back.length := by rw [hm, length_append]
  have hpos : 0 < back.length := length_pos_iff.2 hback
  obtain ⟨b, front, rfl⟩ := exists_cons_of_ne_nil hfront
  rw [trailingNeedLoop, messageLength_front hm]
  · by_cases hshort : (b :: front).length < 5
    · rw [if_pos hshort, if_pos hshort]
    · rw [if_neg hshort, if_neg hshort]
      dsimp only
      rw [if_pos (by omega)]
      omega
  · exact cons_ne_nil _ _

theorem trailingNeed_cut {m : Frame} {front back : Bytes} (hm : m.encode = front ++ back)
    (hfront : front ≠ []) (hback : back ≠ []) (whole : List Frame) :
    trailingNeed (encodeAll whole ++ front) = if front.length < 5 then 1 else back.length := by
  suffices hloop : ∀ fuel, (encodeAll whole ++ front).length < fuel →
      trailingNeedLoop fuel (encodeAll whole ++ front) =
        if front.length < 5 then 1 else back.length from hloop _ (Nat.lt_succ_self _)
  induction whole with
  | nil =>
    intro fuel hfuel
    cases fuel with
    | zero => omega
    | succ fuel => exact trailingNeedLoop_front hm hfront hback fuel
  | cons w _ ih =>
    intro fuel hfuel
    cases fuel with
    | zero => omega
    | succ fuel =>
      rw [encodeAll_cons, append_assoc] at hfuel ⊢
      rw [length_append, length_encode] at hfuel
      rw [trailingNeedLoop, messageLength_encode]
      · dsimp only
        rw [if_neg (by rw [length_append]; omega), drop_left]
        exact ih fuel (by omega)
      · exact fun h => encode_ne_nil w (append_eq_nil_iff.1 h).1

theorem trailingNeed_whole (whole : List Frame) : trailingNeed (encodeAll whole) = 0 :=
  trailingNeedLoop_encodeAll _ whole (Nat.lt_succ_self _)

section
variable {ms : List Frame} {data rest : Bytes}

/-- A buffer with no shortfall holds whole messages, and the rest of the stream
starts at the next. -/
theorem whole_of_trailingNeed (h : data ++ rest = encodeAll ms)
    (hneed : trailingNeed data = 0) :
    ∃ whole more, ms = whole ++ more ∧ data = encodeAll whole ∧ rest = encodeAll more := by
  obtain hwhole | ⟨_, _, _, _, back, -, rfl, hm, hf, hb, -⟩ := cut_cases h
  · exact hwhole
  · have hpos : 0 < back.length := length_pos_iff.2 hb
    rw [trailingNeed_cut hm hf hb] at hneed
    split at hneed <;> omega

theorem trailingNeed_le (h : data ++ rest = encodeAll ms) :
    trailingNeed data ≤ rest.length := by
  obtain ⟨_, _, -, rfl, -⟩ | ⟨_, _, _, _, back, -, rfl, hm, hf, hb, rfl⟩ :=
    cut_cases h
  · rw [trailingNeed_whole]
    exact Nat.zero_le _
  · have hpos : 0 < back.length := length_pos_iff.2 hb
    rw [trailingNeed_cut hm hf hb, length_append]
    split <;> omega

end

/-! ## One call -/

/-- A buffer the loop can get past: what it holds and the shortfall stay within
`max_message_bytes`, and the client sends, or closes behind, all it is asked
for. -/
def bufferFits (maxMessageBytes : Nat) (closes : Bool) (buffer : Bytes × List Bytes) : Bool :=
  decide (buffer.1.length + trailingNeed buffer.1 ≤ maxMessageBytes) &&
    (closes || decide (wanted buffer.1 ≤ buffer.2.flatten.length))

theorem bufferFits_eq_true {pieces : List Bytes} :
    bufferFits maxMessageBytes closes (data, pieces) ↔
      data.length + trailingNeed data ≤ maxMessageBytes ∧
        (closes ∨ wanted data ≤ pieces.flatten.length) := by
  simp [bufferFits]

theorem trailingNeed_le_wanted (data : Bytes) : trailingNeed data ≤ wanted data := by
  rw [wanted, postgresHeaderProbe]
  split <;> omega

section
variable {maxMessageBytes fuel : Nat} {closes : Bool} {ms : List Frame} {data : Bytes}
  {pieces : List Bytes}

theorem readWholeMessageFrom_returns_iff (h : data ++ pieces.flatten = encodeAll ms)
    (hfuel : pieces.flatten.length < fuel) :
    (∃ result rest, readWholeMessageFrom maxMessageBytes closes fuel data pieces =
        some ((result, none), rest)) ↔
      ∀ buffer ∈ unfinishedBuffers maxMessageBytes fuel data pieces,
        bufferFits maxMessageBytes closes buffer := by
  induction fuel generalizing data pieces with
  | zero => omega
  | succ _ ih =>
    simp only [readWholeMessageFrom, unfinishedBuffers]
    by_cases hneed : trailingNeed data = 0
    · simp [hneed]
    rw [if_neg hneed, if_neg hneed, forall_mem_cons, bufferFits_eq_true]
    by_cases hlarge : maxMessageBytes < data.length + trailingNeed data
    · rw [if_pos hlarge]
      constructor
      · rintro ⟨result, rest, heq⟩
        simp at heq
      · rintro ⟨⟨_, -⟩, -⟩
        omega
    rw [if_neg hlarge]
    have hle := trailingNeed_le h
    have hwanted := trailingNeed_le_wanted data
    have hgot := length_readFull (wanted data) pieces
    have hsplit := readFull_append (wanted data) pieces
    have hrest := readFull_snd_flatten (wanted data) pieces
    generalize readFull (wanted data) pieces = read at hgot hsplit hrest ⊢
    have hstream : data ++ read.1 ++ read.2.flatten = encodeAll ms := by
      rw [append_assoc, hsplit, h]
    by_cases hshort : pieces.flatten.length < wanted data
    · -- The stream ends inside the probe: a client that closes ends the call, one that is
      -- silent leaves it waiting.
      have hall : read.2.flatten = [] := by
        rw [hrest, List.drop_eq_nil_iff]
        omega
      have hdone : trailingNeed (data ++ read.1) = 0 := by
        rw [hall, append_nil] at hstream
        rw [hstream, trailingNeed_whole]
      rw [if_pos (by omega), if_pos hdone, if_pos (Or.inr hshort)]
      constructor
      · rintro ⟨_, _, heq⟩
        cases closes with
        | true => exact ⟨⟨by omega, Or.inl rfl⟩, forall_mem_nil _⟩
        | false => simp at heq
      · rintro ⟨⟨-, rfl | _⟩, -⟩
        · exact ⟨_, _, if_pos rfl⟩
        · omega
    · rw [if_neg (by omega), if_neg (by omega), ih hstream (by rw [hrest, length_drop]; omega)]
      constructor
      · intro hall
        exact ⟨⟨by omega, Or.inr (by omega)⟩, hall⟩
      · exact fun hall => hall.2

/-- What a call hands over is the front of the stream, and an error comes with
it where a message is unfinished. -/
theorem readWholeMessageFrom_append (hps : Pieces pieces)
    (h : readWholeMessageFrom maxMessageBytes closes fuel data pieces =
      some ((result, err), rest)) :
    result ++ rest.flatten = data ++ pieces.flatten ∧ Pieces rest ∧
      (err = none ↔ trailingNeed result = 0) ∧ data <+: result := by
  induction fuel generalizing data pieces with
  | zero => cases h
  | succ _ ih =>
    have hsplit := readFull_append (wanted data) pieces
    have hrest := hps.readFull (wanted data)
    simp only [readWholeMessageFrom] at h
    generalize readFull (wanted data) pieces = read at hsplit hrest h
    have hstream : data ++ read.1 ++ read.2.flatten = data ++ pieces.flatten := by
      rw [append_assoc, hsplit]
    split at h
    case isTrue hdone =>
      obtain ⟨⟨rfl, rfl⟩, rfl⟩ := h
      exact ⟨rfl, hps, iff_of_true rfl hdone, List.prefix_rfl⟩
    rename_i hneed
    split at h
    · obtain ⟨⟨rfl, rfl⟩, rfl⟩ := h
      exact ⟨rfl, hps, iff_of_false nofun hneed, List.prefix_rfl⟩
    split at h
    · split at h
      · split at h
        case isTrue hdone =>
          obtain ⟨⟨rfl, rfl⟩, rfl⟩ := h
          exact ⟨hstream, hrest, iff_of_true rfl hdone, prefix_append _ _⟩
        case isFalse hunfinished =>
          obtain ⟨⟨rfl, rfl⟩, rfl⟩ := h
          exact ⟨hstream, hrest, iff_of_false nofun hunfinished, prefix_append _ _⟩
      · cases h
    · obtain ⟨happend, hrest', hdone, hprefix⟩ := ih hrest h
      exact ⟨happend.trans hstream, hrest', hdone, (prefix_append data read.1).trans hprefix⟩

theorem readWholeMessageFrom_whole (h : data ++ pieces.flatten = encodeAll ms)
    (hps : Pieces pieces) (hread : readWholeMessageFrom maxMessageBytes closes fuel data pieces =
      some ((result, none), rest)) :
    ∃ whole more, ms = whole ++ more ∧ result = encodeAll whole ∧
      rest.flatten = encodeAll more ∧ Pieces rest ∧ data <+: result := by
  obtain ⟨happend, hrest, hdone, hprefix⟩ := readWholeMessageFrom_append hps hread
  obtain ⟨whole, more, hms, hresult, hmore⟩ := whole_of_trailingNeed (happend.trans h) (hdone.1 rfl)
  exact ⟨whole, more, hms, hresult, hmore, hrest, hprefix⟩

end

def callFits (bufSize maxMessageBytes : Nat) (closes : Bool) (pieces : List Bytes) : Bool :=
  (callBuffers bufSize maxMessageBytes pieces).all (bufferFits maxMessageBytes closes)

section
variable {bufSize maxMessageBytes : Nat} {closes : Bool} {ms : List Frame} {pieces : List Bytes}

theorem unfinishedBuffers_of_whole (hneed : trailingNeed data = 0) (fuel : Nat)
    (rest : List Bytes) :
    unfinishedBuffers maxMessageBytes fuel data rest = [] := by
  cases fuel with
  | zero => rfl
  | succ => rw [unfinishedBuffers, if_pos hneed]

variable (hbuffer : 0 < bufSize) (h : pieces.flatten = encodeAll ms) (hps : Pieces pieces)
  (hmore : pieces ≠ [])
include hbuffer h hps hmore

theorem readRequestFrom_returns_iff :
    (∃ result rest, readRequestFrom bufSize maxMessageBytes closes pieces =
        some ((result, none), rest)) ↔
      callFits bufSize maxMessageBytes closes pieces := by
  obtain ⟨data, rest, hread, hdata⟩ := readOnce_some hbuffer hps hmore
  have hstream : data ++ rest.flatten = encodeAll ms := hdata.whole.trans h
  rw [callFits, callBuffers, readRequestFrom, hread]
  dsimp only
  by_cases hneed : trailingNeed data = 0
  · rw [if_pos (.inr hneed), unfinishedBuffers_of_whole hneed]
    exact ⟨fun _ => rfl, fun _ => ⟨data, rest, rfl⟩⟩
  · rw [if_neg (not_or.2 ⟨hdata.nonempty, hneed⟩),
      readWholeMessageFrom_returns_iff hstream (Nat.lt_succ_self _), all_eq_true]

/-- A call that returns without an error takes at least one message off the
stream, and whole messages only. -/
theorem readRequestFrom_whole
    (hread : readRequestFrom bufSize maxMessageBytes closes pieces = some ((result, none), rest)) :
    ∃ whole more, ms = whole ++ more ∧ whole ≠ [] ∧ result = encodeAll whole ∧
      rest.flatten = encodeAll more ∧ Pieces rest := by
  obtain ⟨data, tail, honce, hdata⟩ := readOnce_some hbuffer hps hmore
  have hstream : data ++ tail.flatten = encodeAll ms := hdata.whole.trans h
  rw [readRequestFrom, honce] at hread
  dsimp only at hread
  have hstarts : ∀ {whole : List Frame}, data <+: encodeAll whole → whole ≠ [] := by
    rintro whole hprefix rfl
    exact hdata.nonempty (List.prefix_nil.1 hprefix)
  split at hread
  case isTrue hdone =>
      obtain ⟨rfl, rfl⟩ := hread
      obtain ⟨whole, more, hms, rfl, hrest⟩ :=
        whole_of_trailingNeed hstream (hdone.resolve_left hdata.nonempty)
      exact ⟨whole, more, hms, hstarts List.prefix_rfl, rfl, hrest, hdata.pieces⟩
  case isFalse =>
      obtain ⟨whole, more, hms, rfl, hrest, hps', hprefix⟩ :=
        readWholeMessageFrom_whole hstream hdata.pieces hread
      exact ⟨whole, more, hms, hstarts hprefix, rfl, hrest, hps'⟩

end

/-! ## A session's calls -/

def requestsFit (bufSize maxMessageBytes : Nat) (closes : Bool) : Nat → List Bytes → Bool
  | 0, _ => true
  | fuel + 1, pieces =>
    callFits bufSize maxMessageBytes closes pieces &&
      match readRequestFrom bufSize maxMessageBytes closes pieces with
      | some ((_, none), rest) => requestsFit bufSize maxMessageBytes closes fuel rest
      | _ => true

def sessionFits (bufSize maxMessageBytes : Nat) (closes : Bool) (pieces : List Bytes) : Bool :=
  requestsFit bufSize maxMessageBytes closes (pieces.flatten.length + 1) pieces

/-- What the calls return behind the last message: the end of a stream that is
closed, nothing while the client is only silent. -/
def lastResult (closes : Bool) : List (Bytes × Option ReadError) :=
  if closes then [([], some (.net .failed))] else []

def ReadsStream (closes : Bool) (ms : List Frame) (results : List (Bytes × Option ReadError)) :
    Prop :=
  ∃ groups : List (List Frame), groups.flatten = ms ∧ (∀ group ∈ groups, group ≠ []) ∧
    results = groups.map (fun group => (Frame.encodeAll group, none)) ++ lastResult closes

section
variable {bufSize maxMessageBytes : Nat} {closes : Bool} {ms : List Frame} {pieces : List Bytes}

theorem readRequests_nil (fuel : Nat) :
    readRequests bufSize maxMessageBytes closes (fuel + 1) [] = lastResult closes := by
  cases closes <;> rfl

theorem requestsFit_nil (fuel : Nat) :
    requestsFit bufSize maxMessageBytes closes fuel [] := by
  cases fuel with
  | zero => rfl
  | succ => cases closes <;> rfl

theorem readsStream_lastResult : ReadsStream closes ms (lastResult closes) ↔ ms = [] := by
  constructor
  · rintro ⟨_, rfl, -, hresults⟩
    rw [List.self_eq_append_left, List.map_eq_nil_iff] at hresults
    rw [hresults]
    rfl
  · rintro rfl
    exact ⟨[], rfl, nofun, rfl⟩

theorem readsStream_cons (hwhole : whole ≠ []) :
    ReadsStream closes (whole ++ more) ((encodeAll whole, none) :: results) ↔
      ReadsStream closes more results := by
  constructor
  · rintro ⟨groups, hflat, hgroups, hresults⟩
    cases groups with
    | nil =>
      rw [List.flatten_nil, eq_comm, append_eq_nil_iff] at hflat
      exact absurd hflat.1 hwhole
    | cons _ groups =>
      rw [map_cons, cons_append, List.cons.injEq, Prod.mk.injEq] at hresults
      obtain ⟨rfl, rfl⟩ := beginning_unique hflat (congrArg List.length hresults.1.1.symm)
      exact ⟨groups, rfl, fun g hg => hgroups g (mem_cons_of_mem _ hg), hresults.2⟩
  · rintro ⟨groups, rfl, hgroups, rfl⟩
    refine ⟨whole :: groups, rfl, ?_, rfl⟩
    intro g hg
    rcases mem_cons.1 hg with rfl | hg
    · exact hwhole
    · exact hgroups g hg

theorem not_readsStream_of_stopped (hms : ms ≠ []) (hstop : ∀ result ∈ results, result.2 ≠ none) :
    ¬ ReadsStream closes ms results := by
  rintro ⟨groups, rfl, -, rfl⟩
  cases groups with
  | nil => exact hms rfl
  | cons group => exact hstop (encodeAll group, none) (by simp) rfl

theorem readRequests_readsStream_iff (hbuffer : 0 < bufSize) (fuel : Nat)
    (h : pieces.flatten = encodeAll ms) (hps : Pieces pieces)
    (hfuel : pieces.flatten.length < fuel) :
    ReadsStream closes ms (readRequests bufSize maxMessageBytes closes fuel pieces) ↔
      requestsFit bufSize maxMessageBytes closes fuel pieces := by
  induction fuel generalizing pieces ms with
  | zero => omega
  | succ fuel ih =>
    by_cases hmore : pieces = []
    · subst hmore
      have hms : ms = [] := by
        cases ms with
        | nil => rfl
        | cons => simp [Frame.encode] at h
      rw [readRequests_nil, requestsFit_nil, readsStream_lastResult]
      exact ⟨fun _ => rfl, fun _ => hms⟩
    have hms : ms ≠ [] := by
      rintro rfl
      exact hmore (hps.flatten_eq_nil.1 h)
    have hreturns : (∃ result rest, readRequestFrom bufSize maxMessageBytes closes pieces =
        some ((result, none), rest)) ↔ _ := readRequestFrom_returns_iff hbuffer h hps hmore
    rw [requestsFit, and_eq_true, ← hreturns, readRequests]
    rcases hread : readRequestFrom bufSize maxMessageBytes closes pieces with
      _ | ⟨⟨data, _ | err⟩, rest⟩
    · constructor
      · intro hreads
        exact absurd hreads (not_readsStream_of_stopped hms (forall_mem_nil _))
      · rintro ⟨⟨result, rest, heq⟩, -⟩
        cases heq
    · obtain ⟨whole, _, rfl, hwhole, rfl, hrest, hps'⟩ :=
        readRequestFrom_whole hbuffer h hps hmore hread
      have hshorter : rest.flatten.length < fuel := by
        rw [h, encodeAll_append, ← hrest, length_append] at hfuel
        have hpos : 0 < (encodeAll whole).length := by
          obtain ⟨_, _, rfl⟩ := exists_cons_of_ne_nil hwhole
          rw [encodeAll_cons, length_append, length_encode]
          omega
        omega
      rw [readsStream_cons hwhole, ih hrest hps' hshorter]
      exact ⟨fun hfit => ⟨⟨_, _, rfl⟩, hfit⟩, fun hfit => hfit.2⟩
    · constructor
      · intro hreads
        exact absurd hreads (not_readsStream_of_stopped hms (by simp))
      · rintro ⟨⟨_, _, heq⟩, -⟩
        simp at heq

end

/-- **The requests of a session are whole messages and make up the stream**
exactly when every buffer its calls go through fits. -/
theorem sessionRequests_readsStream_iff (bufSize maxMessageBytes : Nat) (hbuffer : 0 < bufSize)
    (closes : Bool) (d : Delivery) :
    ReadsStream closes d.frames (sessionRequests bufSize maxMessageBytes closes d.chunks) ↔
      sessionFits bufSize maxMessageBytes closes d.chunks = true :=
  readRequests_readsStream_iff hbuffer _ d.whole d.nonempty (Nat.lt_succ_self _)

theorem size_begin : 4 + (ascii "BEGIN" ++ [0]).length < 2 ^ 32 := by decide

/-- A `Sync` and a query that takes all of a `max_message_bytes` of 11, cut in
its body by the first read. -/
def syncThenBegin : Delivery where
  frames := [⟨0x53, [], Frame.size_nil⟩, ⟨0x51, ascii "BEGIN" ++ [0], size_begin⟩]
  chunks := [[0x53, 0, 0, 0, 4, 0x51, 0, 0, 0, 10, 0x42], ascii "EGIN" ++ [0]]
  nonempty := by decide
  whole := by decide

theorem pipelined_query_refused :
    (∀ m ∈ syncThenBegin.frames, m.encode.length ≤ 11) ∧
      ¬ ReadsStream false syncThenBegin.frames
        (sessionRequests 32768 11 false syncThenBegin.chunks) := by
  refine ⟨by decide, ?_⟩
  apply not_readsStream_of_stopped
  · decide
  · decide

theorem pipelined_query_read :
    sessionFits 32768 16 false syncThenBegin.chunks = true ∧
      ReadsStream false syncThenBegin.frames
        (sessionRequests 32768 16 false syncThenBegin.chunks) :=
  ⟨by decide, (sessionRequests_readsStream_iff 32768 16 (by decide) false syncThenBegin).2
    (by decide)⟩

end Pontus.Proxy
