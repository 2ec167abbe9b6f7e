import Pontus.Lib.Frame

/-!
# Reading what a network delivers

A stream comes in the pieces the network makes of it.  One read returns at most
a piece; a full read goes on until it has what it asked for.  Where the pieces
end matters to the first, never to the second: a full read takes the next bytes
of the stream, however they were cut.
-/

namespace Pontus.Lib

def Pieces (pieces : List Bytes) : Prop := ∀ piece ∈ pieces, piece ≠ []

def readOnce (cap : Nat) : List Bytes → Option (Bytes × List Bytes)
  | [] => none
  | piece :: pieces =>
    if piece.length ≤ cap then some (piece, pieces)
    else some (piece.take cap, piece.drop cap :: pieces)

/-- Reads until `want` bytes have come, or none are left. -/
def readFull : Nat → List Bytes → Bytes × List Bytes
  | _, [] => ([], [])
  | want, piece :: pieces =>
    if piece.length ≤ want then
      let more := readFull (want - piece.length) pieces
      (piece ++ more.1, more.2)
    else (piece.take want, piece.drop want :: pieces)

section
variable (want : Nat) (pieces : List Bytes)

theorem readFull_fst : (readFull want pieces).1 = pieces.flatten.take want := by
  induction pieces generalizing want with
  | nil => simp [readFull]
  | cons piece _ ih =>
    rw [readFull, flatten_cons, List.take_append]
    by_cases hfits : piece.length ≤ want
    · rw [if_pos hfits, List.take_of_length_le hfits]
      dsimp only
      rw [ih]
    · have hnone : want - piece.length = 0 := by omega
      rw [if_neg hfits, hnone, List.take_zero, append_nil]

theorem readFull_snd_flatten : (readFull want pieces).2.flatten = pieces.flatten.drop want := by
  induction pieces generalizing want with
  | nil => simp [readFull]
  | cons piece _ ih =>
    rw [readFull, flatten_cons, List.drop_append]
    by_cases hfits : piece.length ≤ want
    · rw [if_pos hfits, List.drop_of_length_le hfits, nil_append]
      exact ih _
    · have hnone : want - piece.length = 0 := by omega
      rw [if_neg hfits, hnone, List.drop_zero, flatten_cons]

theorem length_readFull : (readFull want pieces).1.length = min want pieces.flatten.length := by
  rw [readFull_fst, length_take]

theorem readFull_append :
    (readFull want pieces).1 ++ (readFull want pieces).2.flatten = pieces.flatten := by
  rw [readFull_fst, readFull_snd_flatten, take_append_drop]

end

theorem Pieces.readFull (h : Pieces pieces) (want : Nat) : Pieces (readFull want pieces).2 := by
  induction pieces generalizing want with
  | nil => exact h
  | cons piece pieces ih =>
    have hrest : Pieces pieces := fun p hp => h p (mem_cons_of_mem _ hp)
    rw [Lib.readFull]
    by_cases hfits : piece.length ≤ want
    · rw [if_pos hfits]
      exact ih hrest _
    · rw [if_neg hfits]
      intro p hp
      rcases mem_cons.1 hp with rfl | hp
      · rw [ne_eq, List.drop_eq_nil_iff]
        omega
      · exact hrest p hp

structure ReadOnce (cap : Nat) (pieces : List Bytes) (data : Bytes) (rest : List Bytes) :
    Prop where
  nonempty : data ≠ []
  atMost : data.length ≤ cap
  whole : data ++ rest.flatten = pieces.flatten
  pieces : Pieces rest

theorem readOnce_some (hcap : 0 < cap) (h : Pieces pieces) (hmore : pieces ≠ []) :
    ∃ data rest, readOnce cap pieces = some (data, rest) ∧ ReadOnce cap pieces data rest := by
  cases pieces with
  | nil => exact absurd rfl hmore
  | cons piece pieces =>
    have hpiece : piece ≠ [] := h piece (mem_cons_self ..)
    have hrest : Pieces pieces := fun p hp => h p (mem_cons_of_mem _ hp)
    rw [readOnce]
    by_cases hfits : piece.length ≤ cap
    · rw [if_pos hfits]
      exact ⟨piece, pieces, rfl, hpiece, hfits, by rw [flatten_cons], hrest⟩
    · rw [if_neg hfits]
      refine ⟨piece.take cap, piece.drop cap :: pieces, rfl, ?_, ?_, ?_, ?_⟩
      · rw [ne_eq, List.take_eq_nil_iff]
        rintro (_ | hnil)
        · omega
        · exact hpiece hnil
      · rw [length_take]
        omega
      · rw [flatten_cons, flatten_cons, ← append_assoc, take_append_drop]
      · intro p hp
        rcases mem_cons.1 hp with rfl | hp
        · rw [ne_eq, List.drop_eq_nil_iff]
          omega
        · exact hrest p hp

theorem Pieces.flatten_eq_nil (h : Pieces pieces) : pieces.flatten = [] ↔ pieces = [] := by
  constructor
  · intro hnil
    cases pieces with
    | nil => rfl
    | cons piece =>
      rw [flatten_cons, append_eq_nil_iff] at hnil
      exact absurd hnil.1 (h piece (mem_cons_self ..))
  · rintro rfl
    rfl

namespace Frame

/-- What a reader holds of a stream of frames: whole frames, or whole frames and
a proper beginning of the next. -/
theorem cut_cases (h : data ++ rest = encodeAll ms) :
    (∃ whole more, ms = whole ++ more ∧ data = encodeAll whole ∧ rest = encodeAll more) ∨
      ∃ whole m more front back, ms = whole ++ m :: more ∧ data = encodeAll whole ++ front ∧
        m.encode = front ++ back ∧ front ≠ [] ∧ back ≠ [] ∧ rest = back ++ encodeAll more := by
  induction ms generalizing data with
  | nil =>
    rw [encodeAll_nil, append_eq_nil_iff] at h
    exact .inl ⟨[], [], rfl, h.1, h.2⟩
  | cons m ms ih =>
    rw [encodeAll_cons, List.append_eq_append_iff] at h
    obtain ⟨back, hback, hrest⟩ | ⟨_, rfl, htail⟩ := h
    · -- The reader stopped inside the first frame, or at one of its ends.
      by_cases hfront : data = []
      · subst hfront
        exact .inl ⟨[], m :: ms, rfl, rfl, by rw [hrest, encodeAll_cons, hback]; rfl⟩
      · by_cases hnil : back = []
        · subst hnil
          exact .inl ⟨[m], ms, rfl, by simp [hback], hrest⟩
        · exact .inr ⟨[], m, ms, data, back, rfl, rfl, hback, hfront, hnil, hrest⟩
    · obtain ⟨whole, more, rfl, rfl, rfl⟩ | ⟨whole, m', more, front, back, rfl, rfl, hm, hf, hb,
        rfl⟩ := ih htail.symm
      · exact .inl ⟨m :: whole, more, rfl, rfl, rfl⟩
      · refine .inr ⟨m :: whole, m', more, front, back, rfl, ?_, hm, hf, hb, rfl⟩
        rw [encodeAll_cons, append_assoc]

theorem beginning_unique (h : whole ++ more = whole' ++ more')
    (hlen : (encodeAll whole).length = (encodeAll whole').length) :
    whole = whole' ∧ more = more' := by
  induction whole generalizing whole' with
  | nil =>
    cases whole' with
    | nil => exact ⟨rfl, h⟩
    | cons =>
      rw [encodeAll_cons, length_append, length_encode, encodeAll_nil, length_nil] at hlen
      omega
  | cons _ _ ih =>
    cases whole' with
    | nil =>
      rw [encodeAll_cons, length_append, length_encode, encodeAll_nil, length_nil] at hlen
      omega
    | cons =>
      rw [cons_append, cons_append, List.cons.injEq] at h
      obtain ⟨rfl, h⟩ := h
      rw [encodeAll_cons, encodeAll_cons, length_append, length_append,
        Nat.add_left_cancel_iff] at hlen
      obtain ⟨rfl, rfl⟩ := ih h hlen
      exact ⟨rfl, rfl⟩

end Frame

end Pontus.Lib
