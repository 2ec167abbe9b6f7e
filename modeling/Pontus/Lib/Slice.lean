import Mathlib.Data.List.InsertIdx

/-!
# Slices of shared arrays

A slice is a length and the array it looks into.  Several slices may look into
one array: what is written through one of them can be seen through another.
Only slices that start at the front of their array are needed here.
-/

namespace Pontus.Lib

variable {α : Type}

/-- An array: the cells that have been written, from the front, and how many
cells there are. -/
structure Backing (α : Type) where
  cells : List α
  cap : Nat

structure ArraySlice where
  array : Nat
  len : Nat
  deriving DecidableEq

abbrev Arrays (α : Type) := List (Backing α)

namespace Arrays

def cells (m : Arrays α) (k : Nat) : List α := (m[k]?.map Backing.cells).getD []

def cap (m : Arrays α) (k : Nat) : Nat := (m[k]?.map Backing.cap).getD 0

def read (m : Arrays α) (s : ArraySlice) : List α := (m.cells s.array).take s.len

def write (m : Arrays α) (k : Nat) (cells : List α) : Arrays α :=
  m.modify k fun b => { b with cells := cells }

def make (m : Arrays α) (xs : List α) (cap : Nat) : Arrays α × ArraySlice :=
  (m ++ [⟨xs, max cap xs.length⟩], ⟨m.length, xs.length⟩)

/-- `append(s, x)`: in place where the array has a cell left, and in a new array
with `grown` cells where it has none. -/
def push (m : Arrays α) (s : ArraySlice) (x : α) (grown : Nat) : Arrays α × ArraySlice :=
  if s.len < m.cap s.array then
    (m.write s.array ((m.cells s.array).take s.len ++ x :: (m.cells s.array).drop (s.len + 1)),
      ⟨s.array, s.len + 1⟩)
  else m.make (m.read s ++ [x]) grown

/-- `append(s[:i], s[i+1:]...)`: the cells behind `i` move up by one, and the
last of them stays where it was as well. -/
def removeAt (m : Arrays α) (s : ArraySlice) (i : Nat) : Arrays α × ArraySlice :=
  (m.write s.array ((m.read s).eraseIdx i ++ (m.cells s.array).drop (s.len - 1)),
    ⟨s.array, s.len - 1⟩)

end Arrays

structure ArraySlice.Valid (s : ArraySlice) (m : Arrays α) : Prop where
  array : s.array < m.length
  len : s.len ≤ (m.cells s.array).length

namespace Arrays

theorem cells_write (m : Arrays α) (k j : Nat) (cells : List α) (hk : k < m.length) :
    (m.write k cells).cells j = if j = k then cells else m.cells j := by
  unfold write Arrays.cells
  by_cases hj : j = k
  · simp [hj, hk]
  · simp [hj, Ne.symm hj]

@[simp] theorem length_write (m : Arrays α) (k : Nat) (cells : List α) :
    (m.write k cells).length = m.length := by
  simp [write]

theorem cells_make (m : Arrays α) (xs : List α) (cap j : Nat) :
    (m.make xs cap).1.cells j = if j = m.length then xs else m.cells j := by
  unfold make Arrays.cells
  by_cases hj : j < m.length
  · simp [List.getElem?_append_left hj, Nat.ne_of_lt hj]
  · by_cases hlast : j = m.length
    · simp [hlast]
    · have hnone : ¬j < m.length + 1 := by omega
      simp [hlast, hnone, hj]

theorem length_read {m : Arrays α} {s : ArraySlice} (h : s.Valid m) :
    (m.read s).length = s.len := by
  have := h.len
  simp [read]
  omega

theorem read_make (m : Arrays α) (xs : List α) (cap : Nat) :
    (m.make xs cap).1.read (m.make xs cap).2 = xs := by
  rw [read, cells_make]
  simp [make]

theorem valid_make (m : Arrays α) (xs : List α) (cap : Nat) :
    (m.make xs cap).2.Valid (m.make xs cap).1 := by
  constructor
  · simp [make]
  · rw [cells_make]
    simp [make]

section
variable {m : Arrays α} {s : ArraySlice} (x : α) (grown : Nat)

theorem read_push (h : s.Valid m) :
    (m.push s x grown).1.read (m.push s x grown).2 = m.read s ++ [x] := by
  have hlen := h.len
  unfold push
  split
  · rw [read, cells_write _ _ _ _ h.array, if_pos rfl, read]
    have htaken : ((m.cells s.array).take s.len).length = s.len := by
      rw [List.length_take]
      omega
    dsimp only
    rw [List.take_append, htaken, List.take_of_length_le (by omega)]
    simp
  · exact read_make _ _ _

theorem valid_push (h : s.Valid m) : (m.push s x grown).2.Valid (m.push s x grown).1 := by
  have hlen := h.len
  unfold push
  split
  · constructor
    · simpa using h.array
    · rw [cells_write _ _ _ _ h.array, if_pos rfl]
      simp
      omega
  · exact valid_make _ _ _

theorem read_push_of_le (h : s.Valid m) (ht : t.Valid m)
    (hshort : t.array = s.array → t.len ≤ s.len) : (m.push s x grown).1.read t = m.read t := by
  have hlen := h.len
  unfold push
  split
  · rw [read, cells_write _ _ _ _ h.array, read]
    split
    · rename_i hsame
      have hle := hshort hsame
      rw [hsame, List.take_append_of_le_length (by rw [List.length_take]; omega),
        List.take_take, Nat.min_eq_left hle]
    · rfl
  · rw [read, cells_make, if_neg (Nat.ne_of_lt ht.array), read]

theorem valid_of_push {t : ArraySlice} (h : s.Valid m) (ht : t.Valid m) :
    t.Valid (m.push s x grown).1 := by
  have hlen := h.len
  have htailLen := ht.len
  have htarray := ht.array
  unfold push
  split
  · constructor
    · simpa using htarray
    · rw [cells_write _ _ _ _ h.array]
      split
      · rename_i hsame
        rw [hsame] at htailLen
        simp
        omega
      · exact htailLen
  · constructor
    · simp [make]
      omega
    · rw [cells_make, if_neg (Nat.ne_of_lt htarray)]
      exact htailLen

end

section
variable {m : Arrays α} {s : ArraySlice} {i : Nat}

theorem read_removeAt (h : s.Valid m) (hi : i < s.len) :
    (m.removeAt s i).1.read (m.removeAt s i).2 = (m.read s).eraseIdx i := by
  have hlen := length_read h
  have herased : ((m.read s).eraseIdx i).length = s.len - 1 := by
    rw [List.length_eraseIdx_of_lt (by omega), hlen]
  unfold removeAt
  rw [read, cells_write _ _ _ _ h.array, if_pos rfl]
  dsimp only
  rw [List.take_append_of_le_length (by omega), List.take_of_length_le (by omega)]

theorem valid_of_removeAt {t : ArraySlice} (h : s.Valid m) (hi : i < s.len) (ht : t.Valid m) :
    t.Valid (m.removeAt s i).1 := by
  have hlen := length_read h
  have hslen := h.len
  have htailLen := ht.len
  unfold removeAt
  constructor
  · simpa using ht.array
  · rw [cells_write _ _ _ _ h.array]
    split
    · rename_i hsame
      rw [hsame] at htailLen
      rw [List.length_append, List.length_eraseIdx_of_lt (by omega), List.length_drop]
      omega
    · exact htailLen

theorem valid_removeAt (h : s.Valid m) (hi : i < s.len) :
    (m.removeAt s i).2.Valid (m.removeAt s i).1 := by
  have hvalid := valid_of_removeAt h hi h
  constructor
  · exact hvalid.array
  · have := hvalid.len
    unfold removeAt at this ⊢
    dsimp only at this ⊢
    omega

theorem read_removeAt_of_le {t : ArraySlice} (h : s.Valid m) (hi : i < s.len)
    (hshort : t.array = s.array → t.len ≤ i) : (m.removeAt s i).1.read t = m.read t := by
  have hlen := length_read h
  unfold removeAt
  rw [read, cells_write _ _ _ _ h.array]
  split
  · rename_i hsame
    have hle := hshort hsame
    have herased : ((m.read s).eraseIdx i).length = s.len - 1 := by
      rw [List.length_eraseIdx_of_lt (by omega), hlen]
    rw [List.take_append_of_le_length (by omega), List.take_eraseIdx_eq_take_of_le _ _ _ hle,
      read, List.take_take, Nat.min_eq_left (by omega), read, hsame]
  · rfl

end

end Arrays

end Pontus.Lib
