import Pontus.Protocol.Backend

/-!
# The end a request asks for

Over a buffer of whole messages, `responseEndFor` finds ReadyForQuery as soon
as one message closes a unit, and otherwise the terminators of the last message
that produces a reply.
-/

namespace Pontus.Protocol

open Lib Frame
open Pontus.Lib.Frame (encodeAll)

theorem producesReply_iff :
    producesReply m ↔ m.tag ∈ [feParse, feBind, feDescribe, feExecute, feClose, feFunctionCal] := by
  have htable : ∀ tag ∈ [feParse, feBind, feDescribe, feExecute, feClose, feFunctionCal],
      tag ∈ [feParse, feBind, feDescribe, feExecute, feClose, feFunctionCal, feFlush] ∧
        tag ≠ feFlush := by decide +kernel
  have hflush : ∀ tag ∈ [feParse, feBind, feDescribe, feExecute, feClose, feFunctionCal, feFlush],
      tag ≠ feFlush →
        tag ∈ [feParse, feBind, feDescribe, feExecute, feClose, feFunctionCal] := by decide +kernel
  rw [producesReply, isExtended, and_eq_true, contains_iff_mem, bne_iff_ne]
  constructor
  · intro h
    exact hflush m.tag h.1 h.2
  · intro h
    exact htable m.tag h

theorem responseEndLoop_encode (fuel : Nat) (m : Frame) (rest : Bytes) (last target : UInt8)
    (hunit : closesUnit m = false) :
    ∃ target', responseEndLoop (fuel + 1) (m.encode ++ rest) last target =
      responseEndLoop fuel rest (if producesReply m then m.tag else last) target' := by
  have hlen := m.beU32_length
  have hnot : ¬(m.tag = feSync ∨ m.tag = feQuery) := by simpa [closesUnit] using hunit
  have hdrop : (m.encode ++ rest).drop (1 + (4 + m.body.length)) = rest := by
    rw [show 1 + (4 + m.body.length) = m.encode.length by rw [length_encode]; omega,
      drop_left]
  have hiff := producesReply_iff (m := m)
  rw [encode_eq] at hdrop ⊢
  simp only [cons_append] at hdrop ⊢
  rw [responseEndLoop, hlen, if_neg (by omega), if_neg hnot, hdrop]
  by_cases hanswered : m.tag = feParse ∨ m.tag = feBind ∨ m.tag = feExecute ∨ m.tag = feClose ∨
      m.tag = feFunctionCal
  · refine ⟨target, ?_⟩
    rw [if_pos hanswered, if_pos (hiff.2 (by grind))]
  · rw [if_neg hanswered]
    by_cases hdescribe : m.tag = feDescribe
    · refine ⟨(m.body ++ rest).headD target, ?_⟩
      rw [if_pos hdescribe, if_pos (hiff.2 (by simp [hdescribe]))]
    · refine ⟨target, ?_⟩
      rw [if_neg hdescribe, if_neg (by rw [hiff]; grind)]

theorem responseEndLoop_unit (fuel : Nat) (m : Frame) (rest : Bytes) (last target : UInt8)
    (hunit : closesUnit m) :
    responseEndLoop (fuel + 1) (m.encode ++ rest) last target = ⟨true, []⟩ := by
  have hlen := m.beU32_length
  have htag : m.tag = feSync ∨ m.tag = feQuery := by simpa [closesUnit] using hunit
  rw [encode_eq]
  simp only [cons_append]
  rw [responseEndLoop, hlen, if_neg (by omega), if_pos htag]

theorem responseEndLoop_of_unit (fuel : Nat) (tail : Bytes) (last target : UInt8)
    (hfuel : ms.length ≤ fuel) (hunit : ∃ m ∈ ms, closesUnit m) :
    responseEndLoop fuel (encodeAll ms ++ tail) last target = ⟨true, []⟩ := by
  induction ms generalizing fuel last target with
  | nil => simp at hunit
  | cons m ms ih =>
    obtain ⟨fuel, rfl⟩ : ∃ n, fuel = n + 1 := ⟨fuel - 1, by simp at hfuel; omega⟩
    rw [encodeAll_cons, append_assoc]
    by_cases hm : closesUnit m = true
    · exact responseEndLoop_unit fuel m _ last target hm
    · obtain ⟨_, hstep⟩ := responseEndLoop_encode fuel m (encodeAll ms ++ tail)
        last target (by simpa using hm)
      rw [hstep]
      apply ih
      · simpa using hfuel
      · obtain ⟨n, hn, hclose⟩ := hunit
        rcases mem_cons.1 hn with rfl | hn
        · exact absurd hclose hm
        · exact ⟨n, hn, hclose⟩

theorem length_le_length_encodeAll (ms : List Frame) : ms.length ≤ (encodeAll ms).length := by
  induction ms with
  | nil => exact le_rfl
  | cons =>
    rw [encodeAll_cons, length_append, length_encode, length_cons]
    omega

/-- A request that closes a unit is answered up to ReadyForQuery, whatever
follows it in the buffer. -/
theorem responseEndFor_of_unit (tail : Bytes) (hunit : ∃ m ∈ ms, closesUnit m) :
    responseEndFor (encodeAll ms ++ tail) = ⟨true, []⟩ := by
  apply responseEndLoop_of_unit _ tail 0 0 _ hunit
  have hlen := length_le_length_encodeAll ms
  rw [length_append]
  omega

def lastAnswered (last : UInt8) (ms : List Frame) : UInt8 :=
  ms.foldl (fun last m => if producesReply m then m.tag else last) last

theorem terminatorsFor_target (last target target' : UInt8) :
    terminatorsFor last target = terminatorsFor last target' := by
  unfold terminatorsFor
  simp only [ite_self]

theorem responseEndLoop_extended (fuel : Nat) (last target : UInt8) (hfuel : ms.length ≤ fuel)
    (hextended : ∀ m ∈ ms, isExtended m) :
    responseEndLoop fuel (encodeAll ms) last target =
      ⟨false, terminatorsFor (lastAnswered last ms) 0⟩ := by
  induction ms generalizing fuel last target with
  | nil =>
    rw [encodeAll_nil, terminatorsFor_target _ 0 target]
    cases fuel with
    | zero | succ fuel => rfl
  | cons m ms ih =>
    obtain ⟨fuel, rfl⟩ : ∃ n, fuel = n + 1 := ⟨fuel - 1, by simp at hfuel; omega⟩
    have hm := hextended m (by simp)
    have hunit : closesUnit m = false := by
      simp only [isExtended, contains_iff_mem, mem_cons, not_mem_nil, or_false] at hm
      rcases hm with h | h | h | h | h | h | h <;> simp [closesUnit, h] <;> decide
    obtain ⟨target', hstep⟩ := responseEndLoop_encode fuel m (encodeAll ms) last target hunit
    rw [encodeAll_cons, hstep,
      ih fuel _ target' (by simpa using hfuel) (fun n hn => hextended n (by simp [hn]))]
    rfl

theorem responseEndFor_extended (hextended : ∀ m ∈ ms, isExtended m) :
    responseEndFor (encodeAll ms) = ⟨false, terminatorsFor (lastAnswered 0 ms) 0⟩ :=
  responseEndLoop_extended _ 0 0 (length_le_length_encodeAll ms) hextended

theorem lastAnswered_quiet (last : UInt8) (hquiet : ∀ m ∈ ms, producesReply m = false) :
    lastAnswered last ms = last := by
  induction ms generalizing last with
  | nil => rfl
  | cons m _ ih =>
    unfold lastAnswered
    rw [foldl_cons, hquiet m (by simp)]
    exact ih last (fun n hn => hquiet n (by simp [hn]))

theorem lastAnswered_split (last : UInt8) (hq : producesReply q)
    (hquiet : ∀ m ∈ after, producesReply m = false) :
    lastAnswered last (before ++ q :: after) = q.tag := by
  unfold lastAnswered
  rw [foldl_append, foldl_cons, if_pos hq]
  exact lastAnswered_quiet q.tag hquiet

end Pontus.Protocol
