import Pontus.Protocol.Proofs.ScannerFrames

/-!
# Any bytes at all, read as messages

What the scanner makes of bytes that were never meant as messages.  `marks`
reads them as a type byte, a length in four bytes and a body, over and over,
and marks every byte at which such a reader sees the end of a reply:
`transduce_marks` shows that the scanner stops at those bytes and no others,
however the bytes arrive.
-/

namespace Pontus.Protocol.ReplyScanner

open Lib TransactionState

def bodyMarks (isReady : Bool) : Bytes → List (Option Signal)
  | [] => []
  | b :: rest =>
    (if isReady then some (.status (transactionStatus b)) else none) ::
      List.replicate rest.length none

def marks : Nat → Bytes → List (Option Signal)
  | fuel + 1, tag :: b₁ :: b₂ :: b₃ :: b₄ :: rest =>
    let length := beU32 b₁ b₂ b₃ b₄
    let isReady := tag == 'Z'.toUInt8
    none :: none :: none :: none :: if length < 4 then [some .malformed]
      else (if isReady && length == 4 then some .ended else none) ::
        (bodyMarks isReady (rest.take (length - 4)) ++ marks fuel (rest.drop (length - 4)))
  | _, short => List.replicate short.length none

variable {s : ReplyScanner} {ending : ResponseEnd} {tag : UInt8} {length : Nat}

theorem malformed_notMem_bodyMarks (isReady : Bool) (body : Bytes) :
    some .malformed ∉ bodyMarks isReady body := by
  cases body with
  | nil => exact not_mem_nil
  | cons => cases isReady <;> simp [bodyMarks]

theorem transduce_bodyMarks (xs : Bytes) (hlen : xs.length ≤ s.skip) :
    transduce feedByte s xs =
      ({ s with skip := s.skip - xs.length, wantStatus := s.wantStatus && xs.isEmpty },
        bodyMarks s.wantStatus xs) := by
  cases xs with
  | nil => simp [bodyMarks]
  | cons b xs =>
    rw [transduce_skip b xs (by simpa using hlen)]
    simp [bodyMarks]

section
variable (hs : Resting ending s)
include hs

theorem transduce_opened (tag : UInt8) (hlen : body.length ≤ length - 4) :
    (transduce feedByte (s.openMessage tag length).1 body).2 =
        bodyMarks (tag == 'Z'.toUInt8) body ∧
      (body.length = length - 4 →
        Resting ending (transduce feedByte (s.openMessage tag length).1 body).1) := by
  have hwant : (s.openMessage tag length).1.wantStatus =
      (tag == 'Z'.toUInt8 && decide (0 < length - 4)) := by
    simp [openMessage, hs.wantStatus_eq]
  rw [transduce_bodyMarks body hlen, hwant]
  cases body with
  | nil =>
    refine ⟨rfl, fun hwhole => ⟨hs.ending_eq, rfl, ?_, ?_⟩⟩
    · exact Nat.sub_eq_zero_of_le hwhole.ge
    · simp [← hwhole]
  | cons =>
    have hpos : 0 < length - 4 := Nat.lt_of_lt_of_le (Nat.succ_pos _) hlen
    refine ⟨by simp [hpos], fun hwhole => ⟨hs.ending_eq, rfl, ?_, by simp⟩⟩
    exact Nat.sub_eq_zero_of_le hwhole.ge

theorem openMessage_ended (hready : ending.onReadyForQuery) (hlen : 4 ≤ length) :
    (s.openMessage tag length).2 = (tag == 'Z'.toUInt8 && length == 4) := by
  simp only [openMessage, hs.ending_eq, hready]
  by_cases htag : tag = 'Z'.toUInt8
  · simp only [htag, beq_self_eq_true, if_true, Bool.true_and]
    exact decide_eq_decide.2 (by omega)
  · simp [htag]

end

/-- **The scanner raises its signals at the marked bytes.** -/
theorem transduce_marks (fuel : Nat) (hs : Resting ending s)
    (hready : ending.onReadyForQuery) (hfuel : bytes.length ≤ fuel) :
    untilMalformed (transduce feedByte s bytes).2 = marks fuel bytes := by
  induction fuel generalizing s bytes with
  | zero =>
    have hnil : bytes = [] := List.eq_nil_of_length_eq_zero (by omega)
    subst hnil
    rfl
  | succ fuel ih =>
    match bytes, hfuel with
    | tag :: b₁ :: b₂ :: b₃ :: b₄ :: rest, hfuel =>
      simp only [length_cons] at hfuel
      have hall : tag :: b₁ :: b₂ :: b₃ :: b₄ :: rest = ([tag, b₁, b₂, b₃] ++ [b₄]) ++ rest := rfl
      rw [marks, hall, transduce.append,
        transduce_open [tag, b₁, b₂, b₃] b₄ hs.skip_eq (by rw [hs.header_eq]; rfl)]
      by_cases hbad : beU32 b₁ b₂ b₃ b₄ < 4
      · rw [if_pos hbad, if_pos hbad, append_assoc,
          untilMalformed_append (malformed_notMem_replicate _)]
        rfl
      · rw [if_neg hbad, if_neg hbad]
        obtain ⟨body, behind, hlen, hwhole, htake, hdrop⟩ : ∃ body behind,
            body.length ≤ beU32 b₁ b₂ b₃ b₄ - 4 ∧
            (behind ≠ [] → body.length = beU32 b₁ b₂ b₃ b₄ - 4) ∧
            rest.take (beU32 b₁ b₂ b₃ b₄ - 4) = body ∧
            rest.drop (beU32 b₁ b₂ b₃ b₄ - 4) = behind := by
          refine ⟨_, _, List.length_take_le _ _, ?_, rfl, rfl⟩
          intro hne
          rw [length_take, Nat.min_eq_left]
          exact Nat.le_of_lt (List.length_lt_of_drop_ne_nil hne)
        have hrest : rest = body ++ behind := by rw [← htake, ← hdrop, take_append_drop]
        obtain ⟨hbody, hresting⟩ := transduce_opened hs tag hlen
        have hbehind : untilMalformed (transduce feedByte (transduce feedByte
            (s.openMessage tag (beU32 b₁ b₂ b₃ b₄)).1 body).1 behind).2 = marks fuel behind := by
          rcases eq_or_ne behind [] with rfl | hne
          · cases fuel <;> rfl
          · apply ih (hresting (hwhole hne))
            rw [hrest, length_append] at hfuel
            omega
        rw [hrest, transduce.append]
        rw [hbody, openMessage_ended hs hready (Nat.le_of_not_lt hbad), ← hrest, htake, hdrop,
          untilMalformed_append, untilMalformed_append (malformed_notMem_bodyMarks _ _), hbehind]
        · rfl
        · split <;> simp
    | [], _ | [_], _ | [_, _], _ | [_, _, _], _ | [_, _, _, _], _ =>
      rw [transduce_header _ hs.skip_eq (by simp [hs.header_eq])]
      rfl

end Pontus.Protocol.ReplyScanner
