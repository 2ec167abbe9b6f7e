import Pontus.Lib.Lists
import Pontus.Protocol.Backend
import Pontus.Protocol.RoundTrip

/-!
# When a probe has its answer

The probes walk every read from its own first byte, so they follow the messages
only when each read holds whole messages.  Then a probe that is settled by a
ReadyForQuery has seen every message before it, and if that is the end of the
reply nothing stays unread.
-/

namespace Pontus.Protocol

open Lib Frame RoundTrip
open Pontus.Lib.Frame (encodeAll)

variable {t : RoundTrip} {m : Frame} {ms : List Frame} {reads : List Read}

def RoundTrip.orderly (t : RoundTrip) : Bool :=
  Frame.wholeChunks t.reply (t.reads.map Read.data) &&
    (t.reply.getLast?.any isReadyForQuery && !t.reply.dropLast.any isReadyForQuery)

theorem RoundTrip.reply_of_orderly (h : t.orderly) :
    ∃ before ready, t.reply = before ++ [ready] ∧ isReadyForQuery ready ∧
      ∀ m ∈ before, ¬isReadyForQuery m := by
  unfold RoundTrip.orderly at h
  rw [and_eq_true, and_eq_true] at h
  obtain ⟨-, hlast, hbefore⟩ := h
  rw [Option.any_eq_true] at hlast
  obtain ⟨ready, hsome, hready⟩ := hlast
  refine ⟨t.reply.dropLast, ready, ?_, hready, ?_⟩
  · exact (List.dropLast_append_getLast? ready hsome).symm
  · intro m hm
    rw [not_eq_true', any_eq_false] at hbefore
    exact hbefore m hm

theorem RoundTrip.nil_of_ready (ht : t.orderly) (hsplit : t.reply = before ++ m :: after)
    (hm : isReadyForQuery m) : after = [] := by
  obtain ⟨_, _, hreply, -, hms⟩ := reply_of_orderly ht
  rw [hreply] at hsplit
  exact (split_at_last hsplit hms hm).2.2

section
variable {α β : Type} {visit : α → Bytes → α ⊕ β}

def visitFrames (visit : α → Bytes → α ⊕ β) : α → List Frame → α ⊕ β
  | acc, [] => .inl acc
  | acc, m :: ms =>
    match visit acc (m.encode ++ Frame.encodeAll ms) with
    | .inr result => .inr result
    | .inl acc => visitFrames visit acc ms

theorem walkChunk_encodeAll (hfuel : (encodeAll ms).length ≤ fuel) :
    walkChunk visit fuel acc (encodeAll ms) = visitFrames visit acc ms := by
  induction ms generalizing acc fuel with
  | nil => cases fuel <;> rfl
  | cons m ms ih =>
    rw [encodeAll_cons, length_append, length_encode] at hfuel
    cases fuel with
    | zero => omega
    | succ =>
      have hdrop : (m.encode ++ encodeAll ms).drop
          (1 + beU32 (UInt8.ofNat ((4 + m.body.length) / 2 ^ 24))
            (UInt8.ofNat ((4 + m.body.length) / 2 ^ 16))
            (UInt8.ofNat ((4 + m.body.length) / 2 ^ 8))
            (UInt8.ofNat (4 + m.body.length))) = encodeAll ms := by
        rw [m.beU32_length]
        apply List.drop_left'
        rw [length_encode]
        omega
      rw [encode_eq] at hdrop
      rw [encodeAll_cons, visitFrames, encode_eq]
      simp only [cons_append] at hdrop ⊢
      rw [walkChunk]
      cases hvisit : visit acc _ with
      | inr => rfl
      | inl =>
        simp only [hdrop]
        exact ih (by omega)

section
variable {I : List Frame → α → Prop} {seen : List Frame} {acc : α}
  (hpass : ∀ seen m acc acc' rest, I seen acc → visit acc (m.encode ++ rest) = .inl acc' →
    I (seen ++ [m]) acc')
include hpass

theorem visitFrames_inl (hacc : I seen acc) (h : visitFrames visit acc ms = .inl acc') :
    I (seen ++ ms) acc' := by
  induction ms generalizing seen acc with
  | nil =>
    cases h
    rw [append_nil]
    exact hacc
  | cons m _ ih =>
    rw [visitFrames] at h
    split at h
    · cases h
    · rename_i acc'' hvisit
      rw [← singleton_append, ← append_assoc]
      exact ih (hpass seen m acc acc'' _ hacc hvisit) h

theorem visitFrames_inr (hacc : I seen acc) (h : visitFrames visit acc ms = .inr result) :
    ∃ before m after acc' rest, ms = before ++ m :: after ∧ I (seen ++ before) acc' ∧
      visit acc' (m.encode ++ rest) = .inr result := by
  induction ms generalizing seen acc with
  | nil => cases h
  | cons m ms ih =>
    rw [visitFrames] at h
    split at h
    · rename_i result' hvisit
      cases h
      refine ⟨[], m, ms, acc, _, rfl, ?_, hvisit⟩
      rw [append_nil]
      exact hacc
    · rename_i acc'' hvisit
      obtain ⟨before, f, after, acc', rest, rfl, hinv, hsettled⟩ :=
        ih (hpass seen m acc acc'' _ hacc hvisit) h
      refine ⟨m :: before, f, after, acc', rest, rfl, ?_, hsettled⟩
      rw [← singleton_append, ← append_assoc]
      exact hinv

/-- **The rule for probes.**  What every message that is passed keeps holds of
the messages before the one that settles the probe. -/
theorem probeLoop_invariant {groups : List (List Frame)}
    (hreads : reads.map Read.data = groups.map encodeAll) (hacc : I seen acc)
    (h : probeLoop visit acc reads = some (.ok result)) :
    ∃ before m after acc' rest, groups.flatten = before ++ m :: after ∧
      I (seen ++ before) acc' ∧ visit acc' (m.encode ++ rest) = .inr result := by
  induction reads generalizing groups seen acc with
  | nil => cases h
  | cons _ _ ih =>
    cases groups with
    | nil => cases hreads
    | cons group groups =>
      rw [map_cons, map_cons, List.cons.injEq] at hreads
      unfold probeLoop at h
      split at h
      · split at h <;> cases h
      · rw [hreads.1, walkChunk_encodeAll (Nat.le_refl _)] at h
        split at h
        · rename_i result' hwalk
          split at h
          · cases h
            obtain ⟨before, m, after, acc', rest, rfl, hinv, hsettled⟩ :=
              visitFrames_inr hpass hacc hwalk
            refine ⟨before, m, after ++ groups.flatten, acc', rest, ?_, hinv, hsettled⟩
            simp
          · cases h
        · rename_i acc'' hwalk
          obtain ⟨before, m, after, acc', rest, hflat, hinv, hsettled⟩ :=
            ih hreads.2 (visitFrames_inl hpass hacc hwalk) h
          refine ⟨group ++ before, m, after, acc', rest, ?_, ?_, hsettled⟩
          · rw [flatten_cons, hflat, append_assoc]
          · rw [← append_assoc]
            exact hinv

/-- **A settled probe has seen its reply.**  It was settled by the last message,
and the invariant holds of all the others. -/
theorem RoundTrip.probe_invariant (ht : t.orderly) (hwrite : t.writeError = none)
    (hstart : I [] start) (hready : ∀ m acc rest, visit acc (m.encode ++ rest) = .inr result →
      isReadyForQuery m) (h : probe visit start t = some (.ok result)) :
    t.taken = encodeAll t.reply ∧ ∃ before ready acc rest, t.reply = before ++ [ready] ∧
      isReadyForQuery ready ∧ I before acc ∧
      visit acc (ready.encode ++ rest) = .inr result := by
  have hwhole : Frame.wholeChunks t.reply (t.reads.map Read.data) := by
    unfold RoundTrip.orderly at ht
    rw [and_eq_true] at ht
    exact ht.1
  obtain ⟨_, tail, hgroups, hreads⟩ := exists_groups hwhole
  unfold probe at h
  rw [hwrite] at h
  obtain ⟨before, m, after, acc, rest, hflat, hinv, hsettled⟩ :=
    probeLoop_invariant hpass hreads hstart h
  have hm := hready m acc rest hsettled
  have hsplit : t.reply = before ++ m :: (after ++ tail) := by
    rw [hgroups, hflat]
    simp
  have hnil := nil_of_ready ht hsplit hm
  refine ⟨?_, before, m, acc, rest, ?_, hm, hinv, hsettled⟩
  · unfold RoundTrip.taken
    rw [hreads, flatten_map_encodeAll, hgroups, (append_eq_nil_iff.1 hnil).2, append_nil]
  · rw [hsplit, hnil]

end

theorem probeLoop_error (h : probeLoop visit acc reads = some (.error err)) :
    (reads.any fun r => r.err.isSome) = true := by
  induction reads generalizing acc with
  | nil => cases h
  | cons _ _ ih =>
    rw [any_cons, or_eq_true]
    unfold probeLoop at h
    split at h
    · rename_i err' hread
      rw [hread]
      exact .inl rfl
    · split at h
      · split at h <;> cases h
      · exact .inr (ih h)

theorem probeLoop_reads (h : probeLoop visit acc reads = some (.ok result)) :
    (reads.any fun r => r.err.isSome) = false := by
  induction reads generalizing acc with
  | nil => cases h
  | cons _ _ ih =>
    rw [any_cons, or_eq_false_iff]
    unfold probeLoop at h
    split at h
    · split at h <;> cases h
    · rename_i hread
      refine ⟨by rw [hread]; rfl, ?_⟩
      split at h
      · split at h
        · rename_i hempty
          rw [List.isEmpty_iff.1 hempty]
          rfl
        · cases h
      · exact ih h

end

/-! ## The probes -/

theorem head_encode_append (m : Frame) (rest : Bytes) : (m.encode ++ rest).head? = some m.tag := rfl

theorem visitLSN_settled (h : visitLSN acc (m.encode ++ rest) = .inr lsn) :
    isReadyForQuery m := by
  unfold visitLSN at h
  dsimp only at h
  split at h
  · rename_i htag
    exact beq_iff_eq.2 (Option.some.inj htag)
  · cases h

theorem visitCaughtUp_settled (h : visitCaughtUp acc (m.encode ++ rest) = .inr caughtUp) :
    isReadyForQuery m := by
  unfold visitCaughtUp at h
  split at h
  · rename_i htag
    exact beq_iff_eq.2 (Option.some.inj htag)
  · cases h

theorem visitStatus_other (h : isReadyForQuery m = false) (state : TransactionState) (rest : Bytes)
    : visitStatus state (m.encode ++ rest) = .inl state := by
  have htag : m.tag ≠ 'Z'.toUInt8 := by
    intro hz
    rw [isReadyForQuery, hz] at h
    cases h
  unfold visitStatus
  split
  · rename_i hbytes
    rw [encode_eq, cons_append, List.cons.injEq] at hbytes
    rw [if_pos (by rw [← hbytes.1]; exact htag)]
  · rfl

theorem ready_of_peek (h : peekTransactionState (encodeAll ms) ≠ .statePartial) :
    ∃ m ∈ ms, isReadyForQuery m := by
  by_contra hnone
  simp only [not_exists, not_and, not_eq_true] at hnone
  have hvisit : visitFrames visitStatus TransactionState.statePartial ms = .inl .statePartial := by
    clear h
    induction ms with
    | nil => rfl
    | cons m _ ih =>
      rw [visitFrames, visitStatus_other (hnone m mem_cons_self)]
      exact ih fun m' hm' => hnone m' (mem_cons_of_mem m hm')
  apply h
  rw [peekTransactionState, walkChunk_encodeAll (Nat.le_refl _), hvisit]
  rfl

theorem RoundTrip.of_execute (ht : t.orderly) (h : execute t = some true) :
    t.taken = encodeAll t.reply ∧ t.writeError = none ∧
      t.reply.any (·.tag == 'E'.toUInt8) = false := by
  obtain ⟨result, hprobe, hresult⟩ := map_eq_some_iff.1 h
  cases result with
  | error => cases hresult
  | ok =>
    dsimp only at hresult
    rw [hresult] at hprobe
    have hwrite : t.writeError = none := by
      unfold probe at hprobe
      split at hprobe
      · cases hprobe
      · assumption
    have hready : ∀ m acc rest, visitExecute acc (m.encode ++ rest) = .inr true →
        isReadyForQuery m = true := by
      intro m acc rest hvisit
      unfold visitExecute at hvisit
      split at hvisit
      · cases hvisit
      · split at hvisit
        · rename_i htag
          exact beq_iff_eq.2 (Option.some.inj htag)
        · cases hvisit
    have hpass : ∀ (seen : List Frame) (m : Frame) acc acc' rest,
        (∀ m ∈ seen, m.tag ≠ 'E'.toUInt8) → visitExecute acc (m.encode ++ rest) = .inl acc' →
          ∀ m' ∈ seen ++ [m], m'.tag ≠ 'E'.toUInt8 := by
      intro _ m _ _ _ hseen hvisit m' hm' htag
      rcases mem_append.1 hm' with hm' | hm'
      · exact hseen m' hm' htag
      · rw [mem_singleton.1 hm'] at htag
        unfold visitExecute at hvisit
        rw [head_encode_append, if_pos (by rw [htag])] at hvisit
        cases hvisit
    obtain ⟨htaken, _, _, _, _, hreply, hz, hbefore, -⟩ :=
      probe_invariant hpass ht hwrite (forall_mem_nil _) hready hprobe
    refine ⟨htaken, hwrite, ?_⟩
    rw [any_eq_false, hreply]
    intro m hm herror
    have htag : m.tag = 'E'.toUInt8 := eq_of_beq herror
    rcases mem_append.1 hm with hm | hm
    · exact hbefore m hm htag
    · unfold isReadyForQuery at hz
      rw [← mem_singleton.1 hm, htag] at hz
      exact absurd hz (by decide)

/-! ## The write position -/

def isDataRow (m : Frame) : Bool := m.tag == 'D'.toUInt8

def RoundTrip.reports (t : RoundTrip) (ok : Bytes → Bool) : Bool :=
  t.orderly && t.reply.any isDataRow &&
    t.reply.all fun m => !isDataRow m || (firstColumn m.encode).any ok

theorem firstColumn_append (rest : Bytes) (h : firstColumn row = some value) :
    firstColumn (row ++ rest) = some value ∧ value ≠ [] := by
  unfold firstColumn at h
  split at h
  · rename_i b₀ b₁ b₂ b₃ column
    dsimp only at h
    split at h
    · rename_i hfits
      obtain ⟨hcolumn, hpos, hlen⟩ := hfits
      cases h
      have hgrown : beU32 b₀ b₁ b₂ b₃ ≤ (column ++ rest).length := by
        rw [length_append]
        omega
      constructor
      · rw [firstColumn.eq_def]
        dsimp only [cons_append]
        rw [if_pos ⟨List.append_ne_nil_of_left_ne_nil hcolumn rest, hpos, hgrown⟩,
          List.take_append_of_le_length hlen]
      · rw [ne_eq, List.take_eq_nil_iff]
        rintro (_ | hnil)
        · omega
        · exact hcolumn hnil
    · cases h
  · cases h

theorem visitLSN_passed (hrow : (!isDataRow m || (firstColumn m.encode).any ok))
    (h : visitLSN acc (m.encode ++ rest) = .inl acc') :
    ok acc' ∧ acc' ≠ [] ∨ isDataRow m = false ∧ acc' = acc := by
  unfold visitLSN at h
  dsimp only at h
  rw [head_encode_append] at h
  split at h
  · cases h
  cases h
  by_cases htag : m.tag = 'D'.toUInt8
  · unfold isDataRow at hrow
    rw [htag, beq_self_eq_true, Bool.not_true, Bool.false_or, Option.any_eq_true] at hrow
    obtain ⟨_, hvalue, hok⟩ := hrow
    obtain ⟨hcolumn, hne⟩ := firstColumn_append rest hvalue
    rw [if_pos (by rw [htag]), hcolumn]
    exact .inl ⟨hok, hne⟩
  · rw [if_neg (by rw [some_inj]; exact htag)]
    exact .inr ⟨beq_false_of_ne htag, rfl⟩

/-- **The position that is returned is one of those in the rows.** -/
theorem RoundTrip.of_getCurrentLSN (ht : t.reports ok) (h : getCurrentLSN t = some (.ok lsn)) :
    ok lsn ∧ lsn ≠ [] := by
  unfold RoundTrip.reports at ht
  rw [and_eq_true, and_eq_true, any_eq_true, all_eq_true] at ht
  obtain ⟨⟨horderly, row, hrow, hisRow⟩, hrows⟩ := ht
  have hwrite : t.writeError = none := by
    unfold getCurrentLSN probe at h
    split at h
    · cases h
    · assumption
  have hpass : ∀ (seen : List Frame) (m : Frame) acc acc' rest,
      (seen ⊆ t.reply → seen.any isDataRow = true → ok acc = true ∧ acc ≠ []) →
        visitLSN acc (m.encode ++ rest) = .inl acc' →
        seen ++ [m] ⊆ t.reply → (seen ++ [m]).any isDataRow = true →
          ok acc' = true ∧ acc' ≠ [] := by
    intro _ m acc _ rest hseen hvisit hsubset hany
    rw [List.append_subset] at hsubset
    rcases visitLSN_passed (hrows m (hsubset.2 (List.mem_singleton_self m))) hvisit with
      hset | ⟨hother, rfl⟩
    · exact hset
    · rw [List.any_append, any_cons, List.any_nil, Bool.or_false, hother, Bool.or_false] at hany
      exact hseen hsubset.1 hany
  obtain ⟨-, before, ready, _, _, hreply, hready, hinv, hsettled⟩ :=
    probe_invariant hpass horderly hwrite nofun
      (fun _ _ _ => visitLSN_settled) h
  have htag : ready.tag = 'Z'.toUInt8 := eq_of_beq hready
  have hbefore : before.any isDataRow := by
    rw [hreply] at hrow
    rcases mem_append.1 hrow with hrow | hrow
    · exact any_eq_true.2 ⟨row, hrow, hisRow⟩
    · unfold isDataRow at hisRow
      rw [mem_singleton.1 hrow, htag] at hisRow
      exact absurd hisRow (by decide)
  have hsubset : before ⊆ t.reply := by
    rw [hreply]
    exact List.subset_append_left _ _
  unfold visitLSN at hsettled
  rw [head_encode_append, htag, if_pos rfl, if_neg (by decide)] at hsettled
  cases hsettled
  exact hinv hsubset hbefore

end Pontus.Protocol
