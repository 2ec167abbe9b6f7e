import Mathlib.Data.List.GetD

/-!
# Buffers that grow, and slices of them

A heap of arrays, slices that look at the front of one, and a buffer that is
appended to in place while its array has room and moves to a larger array when
it has not.  A slice taken of a buffer keeps what it saw for as long as the
buffer is not emptied and written again: what is appended goes behind the
slice, or to another array.
-/

namespace Pontus.Lib

universe u

variable {α : Type u}

abbrev Heap (α : Type u) := List (List α)

def Heap.array (h : Heap α) (a : Nat) : List α := h.getD a []

structure Slice where
  array : Nat
  length : Nat
  deriving DecidableEq

def Slice.contents (h : Heap α) (s : Slice) : List α := (h.array s.array).take s.length

structure Buffer where
  array : Option Nat
  length : Nat
  deriving DecidableEq

namespace Buffer

def new : Buffer := ⟨none, 0⟩

def reset (b : Buffer) : Buffer := { b with length := 0 }

def contents (h : Heap α) (b : Buffer) : List α :=
  match b.array with
  | none => []
  | some a => (h.array a).take b.length

variable [Inhabited α]

/-- Move to an array with room for the chunk and `spare` more. -/
def grow (h : Heap α) (b : Buffer) (chunk : List α) (spare : Nat) : Heap α × Buffer :=
  (h ++ [b.contents h ++ chunk ++ List.replicate spare default],
    ⟨some h.length, b.length + chunk.length⟩)

def write (h : Heap α) (b : Buffer) (chunk : List α) (spare : Nat) : Heap α × Buffer :=
  match b.array with
  | none => b.grow h chunk spare
  | some a =>
    let array := h.array a
    if b.length + chunk.length ≤ array.length then
      (h.set a (array.take b.length ++ chunk ++ array.drop (b.length + chunk.length)),
        ⟨some a, b.length + chunk.length⟩)
    else b.grow h chunk spare

def Valid (h : Heap α) (b : Buffer) : Prop :=
  match b.array with
  | none => b.length = 0
  | some a => a < h.length ∧ b.length ≤ (h.array a).length

def Apart (b : Buffer) (s : Slice) : Prop := b.array ≠ some s.array ∨ s.length ≤ b.length

instance (b : Buffer) (s : Slice) : Decidable (b.Apart s) :=
  inferInstanceAs (Decidable (b.array ≠ some s.array ∨ s.length ≤ b.length))

omit [Inhabited α] in
theorem length_contents {b : Buffer} (hb : b.Valid h) : (b.contents h).length = b.length := by
  unfold Valid at hb
  unfold contents
  split
  · rename_i hnone
    rw [hnone] at hb
    exact hb.symm
  · rename_i a hsome
    rw [hsome] at hb
    rw [List.length_take, Nat.min_eq_left hb.2]

omit [Inhabited α] in
theorem valid_reset {b : Buffer} (hb : b.Valid h) : b.reset.Valid h := by
  unfold Valid reset at *
  dsimp only
  split
  · rfl
  · rename_i a hsome
    rw [hsome] at hb
    exact ⟨hb.1, Nat.zero_le _⟩

omit [Inhabited α] in
theorem contents_reset (h : Heap α) (b : Buffer) : b.reset.contents h = [] := by
  unfold contents reset
  dsimp only
  split
  · rfl
  · exact List.take_zero

/-- What a write does: it appends, and leaves every slice alone that lies apart
from the buffer. -/
structure Appends (h : Heap α) (b : Buffer) (chunk : List α) (h' : Heap α) (b' : Buffer) :
    Prop where
  valid : b'.Valid h'
  contents : b'.contents h' = b.contents h ++ chunk
  length : b'.length = b.length + chunk.length
  heap : h.length ≤ h'.length
  frame : ∀ s : Slice, s.array < h.length → b.Apart s → s.contents h' = s.contents h
  apart : ∀ s : Slice, s.array < h.length → b.Apart s → b'.Apart s

omit [Inhabited α] in
theorem array_append {h : Heap α} (ha : a < h.length) (array : List α) :
    Heap.array (h ++ [array]) a = h.array a :=
  List.getD_append _ _ _ _ ha

omit [Inhabited α] in
theorem array_set_ne {h : Heap α} (hne : a ≠ b) (array : List α) :
    Heap.array (h.set a array) b = h.array b := by
  rw [Heap.array, Heap.array, List.getD_eq_getElem?_getD, List.getD_eq_getElem?_getD,
    List.getElem?_set_ne hne]

theorem grow_appends {b : Buffer} (hb : b.Valid h) (chunk : List α) (spare : Nat) :
    Appends h b chunk (b.grow h chunk spare).1 (b.grow h chunk spare).2 := by
  have hlen := length_contents hb
  have harray : Heap.array (b.grow h chunk spare).1 h.length =
      b.contents h ++ chunk ++ List.replicate spare default := by
    rw [grow, Heap.array, List.getD_append_right _ _ _ _ (Nat.le_refl _), Nat.sub_self]
    rfl
  refine ⟨⟨?_, ?_⟩, ?_, rfl, ?_, ?_, ?_⟩
  · simp [grow]
  · rw [harray]
    simp [grow, hlen]
  · change ((Heap.array (b.grow h chunk spare).1 h.length).take (b.length + chunk.length)) = _
    rw [harray, List.take_append_of_le_length (by simp [hlen])]
    exact List.take_of_length_le (by simp [hlen])
  · simp [grow]
  · intro s hs _
    rw [Slice.contents, grow, array_append hs]
    rfl
  · intro s _ _
    refine Or.inl fun heq => ?_
    have hnew : h.length = s.array := Option.some.inj heq
    omega

theorem write_appends {b : Buffer} (hb : b.Valid h) (chunk : List α) (spare : Nat) :
    Appends h b chunk (b.write h chunk spare).1 (b.write h chunk spare).2 := by
  unfold write
  split
  · exact grow_appends hb chunk spare
  · rename_i a hsome
    dsimp only
    split
    case isFalse => exact grow_appends hb chunk spare
    case isTrue hroom =>
      have hvalid := hb
      unfold Valid at hvalid
      rw [hsome] at hvalid
      obtain ⟨ha, hlen⟩ := hvalid
      let array := (h.array a).take b.length ++ chunk ++ (h.array a).drop (b.length + chunk.length)
      have hnew : Heap.array (h.set a array) a = array := by
        rw [Heap.array, List.getD_eq_getElem _ _ (by simpa using ha), List.getElem_set_self]
      have htaken : ((h.array a).take b.length).length = b.length := by
        rw [List.length_take, Nat.min_eq_left hlen]
      refine ⟨⟨by simpa using ha, ?_⟩, ?_, rfl, by simp, ?_, ?_⟩
      · rw [hnew]
        simp [array, htaken]
      · change (Heap.array (h.set a array) a).take (b.length + chunk.length) = _
        rw [hnew, Buffer.contents, hsome]
        simp only [array]
        rw [List.take_append_of_le_length (by simp [htaken])]
        exact List.take_of_length_le (by simp [htaken])
      · intro s _ hapart
        by_cases heq : s.array = a
        · -- the slice ends where the buffer ended
          have hle : s.length ≤ b.length := by
            rcases hapart with hne | hle
            · exact absurd (by rw [hsome, heq]) hne
            · exact hle
          rw [Slice.contents, Slice.contents, heq, hnew]
          simp only [array]
          rw [List.append_assoc, List.take_append_of_le_length (by rw [htaken]; exact hle),
            List.take_take, Nat.min_eq_left hle]
        · rw [Slice.contents, Slice.contents, array_set_ne (Ne.symm heq)]
      · intro _ _ hapart
        rcases hapart with hne | hle
        · exact Or.inl (hsome ▸ hne)
        · exact Or.inr (Nat.le_trans hle (Nat.le_add_right _ _))

end Buffer

end Pontus.Lib
