import Pontus.Proxy.Proofs.RequestStream

/-!
# What a call asks of a silent client

A client that has sent whole messages owes nothing.  A call of `readRequest`
that has all of them returns, except when it last found a shortfall of one
byte: it then asks for eight, and eight bytes may not be coming.  The same
probe is what can take the buffer past `max_message_bytes`.
-/

namespace Pontus.Proxy

open Lib Protocol

def assembledFrom (maxMessageBytes : Nat) : Nat → Bytes → List Bytes → List Bytes
  | 0, _, _ => []
  | fuel + 1, data, pieces =>
    data ::
      if trailingNeed data = 0 ∨ maxMessageBytes < data.length + trailingNeed data ∨
          pieces.flatten.length < wanted data then []
      else
        let read := readFull (wanted data) pieces
        assembledFrom maxMessageBytes fuel (data ++ read.1) read.2

def assembledBuffers (bufSize maxMessageBytes : Nat) (pieces : List Bytes) : List Bytes :=
  match readOnce bufSize pieces with
  | none => []
  | some (data, rest) =>
    if data = [] ∨ trailingNeed data = 0 then []
    else assembledFrom maxMessageBytes (rest.flatten.length + 1) data rest

/-- A buffer one byte short, or cut inside a header, has the eight bytes of the
probe still to come and room for them.  A buffer already at the bound is refused
before the probe. -/
def probeAnswered (maxMessageBytes : Nat) (buffer : Bytes × List Bytes) : Bool :=
  decide (trailingNeed buffer.1 = 1 → buffer.1.length < maxMessageBytes →
    postgresHeaderProbe ≤ buffer.2.flatten.length ∧
      buffer.1.length + postgresHeaderProbe ≤ maxMessageBytes)

theorem probeAnswered_eq_true {pieces : List Bytes} :
    probeAnswered maxMessageBytes (data, pieces) ↔
      (trailingNeed data = 1 → data.length < maxMessageBytes →
        postgresHeaderProbe ≤ pieces.flatten.length ∧
          data.length + postgresHeaderProbe ≤ maxMessageBytes) :=
  decide_eq_true_iff

def probesAnswered (bufSize maxMessageBytes : Nat) (pieces : List Bytes) : Bool :=
  ((callBuffers bufSize maxMessageBytes pieces).head?.all fun first =>
    decide (first.1.length ≤ maxMessageBytes)) &&
    (callBuffers bufSize maxMessageBytes pieces).all (probeAnswered maxMessageBytes)

section
variable {bufSize maxMessageBytes fuel : Nat} {ms : List Frame} {data : Bytes} {pieces : List Bytes}

theorem mem_assembledFrom (hfuel : 0 < fuel) :
    data ∈ assembledFrom maxMessageBytes fuel data pieces := by
  cases fuel with
  | zero => omega
  | succ =>
    exact mem_cons_self ..

/-- The passes of one call: it returns, with its buffer within the bound
throughout, exactly when its probes are answered. -/
theorem assembled_iff_probeAnswered (h : data ++ pieces.flatten = Frame.encodeAll ms)
    (hfuel : pieces.flatten.length < fuel) (hdata : data.length ≤ maxMessageBytes) :
    ((readWholeMessageFrom maxMessageBytes false fuel data pieces).isSome ∧
        ∀ buffer ∈ assembledFrom maxMessageBytes fuel data pieces,
          buffer.length ≤ maxMessageBytes) ↔
      ∀ buffer ∈ unfinishedBuffers maxMessageBytes fuel data pieces,
        probeAnswered maxMessageBytes buffer := by
  induction fuel generalizing data pieces with
  | zero => omega
  | succ fuel ih =>
    simp only [readWholeMessageFrom, assembledFrom, unfinishedBuffers]
    by_cases hneed : trailingNeed data = 0
    · simp [hneed, hdata]
    rw [if_neg hneed, if_neg hneed, forall_mem_cons, forall_mem_cons, probeAnswered_eq_true]
    by_cases hlarge : maxMessageBytes < data.length + trailingNeed data
    · rw [if_pos hlarge, if_pos (Or.inr (Or.inl hlarge)), if_pos (Or.inl hlarge)]
      constructor
      · intro _
        exact ⟨fun hone hroom => by omega, forall_mem_nil _⟩
      · intro _
        exact ⟨rfl, hdata, forall_mem_nil _⟩
    have hle := trailingNeed_le h
    have hwanted : wanted data = if trailingNeed data = 1 then postgresHeaderProbe else
      trailingNeed data := rfl
    have hgot := length_readFull (wanted data) pieces
    have hsplit := readFull_append (wanted data) pieces
    have hrest := readFull_snd_flatten (wanted data) pieces
    generalize readFull (wanted data) pieces = read at hgot hsplit hrest ⊢
    rw [if_neg hlarge]
    by_cases hshort : pieces.flatten.length < wanted data
    · -- More is asked for than is owed: only the probe does that.
      rw [if_pos (by omega), if_pos (Or.inr (Or.inr hshort)), if_pos (Or.inr hshort)]
      constructor
      · rintro ⟨hsome, -⟩
        simp at hsome
      · rintro ⟨hprobe, -⟩
        by_cases hone : trailingNeed data = 1
        · rw [if_pos hone] at hwanted
          have hcome := (hprobe hone (by omega)).1
          omega
        · rw [if_neg hone] at hwanted
          omega
    have hlen : (data ++ read.1).length = data.length + wanted data := by
      rw [length_append]
      omega
    have hstream : data ++ read.1 ++ read.2.flatten = Frame.encodeAll ms := by
      rw [append_assoc, hsplit, h]
    have hpos : 0 < wanted data := by
      rw [hwanted, postgresHeaderProbe]
      split <;> omega
    have hfuel' : read.2.flatten.length < fuel := by
      rw [hrest, length_drop]
      omega
    rw [if_neg (by omega), if_neg (by omega), if_neg (by omega)]
    by_cases hroom : (data ++ read.1).length ≤ maxMessageBytes
    · rw [← ih hstream hfuel' hroom]
      constructor
      · rintro ⟨hsome, -, hall⟩
        refine ⟨fun hone _ => ?_, hsome, hall⟩
        rw [if_pos hone] at hwanted
        omega
      · rintro ⟨-, hsome, hall⟩
        exact ⟨hsome, hdata, hall⟩
    · constructor
      · rintro ⟨-, -, hall⟩
        exact absurd (hall _ (mem_assembledFrom (by omega))) hroom
      · rintro ⟨hprobe, -⟩
        by_cases hone : trailingNeed data = 1
        · rw [if_pos hone] at hwanted
          have hfits := (hprobe hone (by omega)).2
          omega
        · rw [if_neg hone] at hwanted
          omega

end

/-- **A call that has all a client sent returns, its buffer within
`max_message_bytes`,** exactly when its first read is and its probes are
answered. -/
theorem returns_within_bound_iff (bufSize maxMessageBytes : Nat) (hbuffer : 0 < bufSize)
    (d : Delivery) (hsent : d.frames ≠ []) :
    ((readRequestFrom bufSize maxMessageBytes false d.chunks).isSome = true ∧
        ∀ buffer ∈ assembledBuffers bufSize maxMessageBytes d.chunks,
          buffer.length ≤ maxMessageBytes) ↔
      probesAnswered bufSize maxMessageBytes d.chunks = true := by
  have hmore : d.chunks ≠ [] := by
    intro hnil
    have hwhole := d.whole
    obtain ⟨m, _, hms⟩ := exists_cons_of_ne_nil hsent
    rw [hnil, hms, Frame.encodeAll_cons, List.flatten_nil, eq_comm, append_eq_nil_iff] at hwhole
    exact Frame.encode_ne_nil m hwhole.1
  obtain ⟨data, rest, hread, hdata⟩ := readOnce_some hbuffer d.nonempty hmore
  have hstream : data ++ rest.flatten = Frame.encodeAll d.frames := hdata.whole.trans d.whole
  rw [probesAnswered, callBuffers, assembledBuffers, readRequestFrom, hread, and_eq_true]
  dsimp only
  by_cases hneed : trailingNeed data = 0
  · rw [if_pos (.inr hneed), if_pos (.inr hneed), unfinishedBuffers_of_whole hneed]
    simp
  rw [if_neg (not_or.2 ⟨hdata.nonempty, hneed⟩), if_neg (not_or.2 ⟨hdata.nonempty, hneed⟩)]
  have hhead : (unfinishedBuffers maxMessageBytes (rest.flatten.length + 1) data rest).head? =
      some (data, rest) := by
    rw [unfinishedBuffers, if_neg hneed]
    rfl
  rw [hhead, all_some, decide_eq_true_iff, all_eq_true]
  by_cases hfirst : data.length ≤ maxMessageBytes
  · rw [assembled_iff_probeAnswered hstream (Nat.lt_succ_self _) hfirst]
    exact ⟨fun hall => ⟨hfirst, hall⟩, fun hall => hall.2⟩
  · constructor
    · rintro ⟨-, hall⟩
      exact absurd (hall _ (mem_assembledFrom (Nat.succ_pos _))) hfirst
    · rintro ⟨hle, -⟩
      exact absurd hle hfirst

def splitSync : Delivery where
  frames := [⟨0x53, [], Frame.size_nil⟩]
  chunks := [[0x53, 0, 0, 0], [4]]
  nonempty := by decide
  whole := by decide

theorem split_sync_waits :
    readRequestFrom 32768 defaultMaxMessageBytes false splitSync.chunks = none := by
  decide

theorem split_query_returns :
    probesAnswered 32768 16 syncThenBegin.chunks = true ∧
      (readRequestFrom 32768 16 false syncThenBegin.chunks).isSome = true ∧
      ∀ buffer ∈ assembledBuffers 32768 16 syncThenBegin.chunks, buffer.length ≤ 16 :=
  ⟨by decide, (returns_within_bound_iff 32768 16 (by decide) syncThenBegin (by decide)).2
    (by decide)⟩

end Pontus.Proxy
