import Pontus.Lib.Bytes

/-!
# Messages made of fields

A message is a list of fields with a separator between two, each a key, an
equals sign and a value.  A field is found by its key, and a message is cut
where a mark stands for the last time.
-/

namespace Pontus.Lib

variable {sep key other : UInt8} {value mark text before after : Bytes}

def field (key : UInt8) (value : Bytes) : Bytes := key :: '='.toUInt8 :: value

def findField (sep : UInt8) (message : Bytes) (key : UInt8) : Option Bytes :=
  ((message.splitOn sep).find? fun field => field.take 2 == [key, '='.toUInt8]).map (·.drop 2)

theorem splitOn_of_notMem (h : sep ∉ text) : text.splitOn sep = [text] := by
  have hsplit := List.splitOn_intercalate sep (List.forall_mem_singleton.2 h)
    (cons_ne_nil text [])
  simpa using hsplit

section
variable (hvalue : sep ∉ value) (hkey : sep ≠ key) (heq : sep ≠ '='.toUInt8)
include hvalue hkey heq

theorem splitOn_field (rest : Bytes) :
    (field key value ++ sep :: rest).splitOn sep = field key value :: rest.splitOn sep := by
  have hfield : sep ∉ field key value := by simp [field, hvalue, hkey, heq]
  have happend : (field key value ++ sep :: rest).splitOn sep =
      (field key value).splitOn sep ++ rest.splitOn sep :=
    List.splitOnP_append_cons (field key value) rest (beq_self_eq_true sep)
  rw [happend, splitOn_of_notMem hfield]
  rfl

theorem findField_self (rest : Bytes) :
    findField sep (field key value ++ sep :: rest) key = some value := by
  rw [findField, splitOn_field hvalue hkey heq, List.find?_cons_of_pos]
  · rfl
  · exact beq_self_eq_true _

theorem findField_last : findField sep (field key value) key = some value := by
  rw [findField, splitOn_of_notMem (by simp [field, hvalue, hkey, heq]), List.find?_cons_of_pos]
  · rfl
  · exact beq_self_eq_true _

end

theorem findField_ne (hvalue : sep ∉ value) (hother : sep ≠ other) (heq : sep ≠ '='.toUInt8)
    (hne : other ≠ key) (rest : Bytes) :
    findField sep (field other value ++ sep :: rest) key = findField sep rest key := by
  rw [findField, splitOn_field hvalue hother heq, List.find?_cons_of_neg]
  · rfl
  · simp [field, hne]

def cutLast (mark : Bytes) : Bytes → Option (Bytes × Bytes)
  | [] => none
  | b :: rest =>
    match cutLast mark rest with
    | some (before, after) => some (b :: before, after)
    | none => if mark <+: b :: rest then some ([], (b :: rest).drop mark.length) else none

theorem cutLast_eq_some (h : cutLast mark text = some (before, after)) :
    text = before ++ mark ++ after := by
  induction text generalizing before with
  | nil => cases h
  | cons _ _ ih =>
    rw [cutLast] at h
    split at h
    · rename_i before' after' hcut
      cases h
      rw [ih hcut]
      rfl
    · split at h
      · rename_i hstarts
        cases h
        exact (List.prefix_iff_eq_append.1 hstarts).symm
      · cases h

theorem cutLast_eq_none (hsep : sep ∈ mark) (h : sep ∉ text) : cutLast mark text = none := by
  induction text with
  | nil => rfl
  | cons b rest ih =>
    have hrest : sep ∉ rest := fun hmem => h (mem_cons_of_mem b hmem)
    rw [cutLast, ih hrest]
    exact if_neg fun hstarts => h (hstarts.subset hsep)

theorem cutLast_append (hmark : sep ∉ mark) (hafter : sep ∉ after) (before : Bytes) :
    cutLast (sep :: mark) (before ++ (sep :: mark ++ after)) = some (before, after) := by
  induction before with
  | nil =>
    have hnone : cutLast (sep :: mark) (mark ++ after) = none := by
      apply cutLast_eq_none mem_cons_self
      simp [hmark, hafter]
    have hstarts : sep :: mark <+: sep :: (mark ++ after) := prefix_append (sep :: mark) after
    rw [nil_append, cons_append, cutLast, hnone]
    dsimp only
    rw [if_pos hstarts]
    simp
  | cons _ _ ih => rw [cons_append, cutLast, ih]

end Pontus.Lib
