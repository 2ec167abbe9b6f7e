import Mathlib.Data.List.Basic
import Mathlib.Tactic.Ring

/-!
# Byte strings and big-endian words

A byte string is a list of bytes.  The two operations every length-prefixed
format needs are storing a number in four bytes, most significant first, and
reading it back.  Storing keeps only the low 32 bits, so the round trip holds
exactly below `2 ^ 32`.
-/

namespace Pontus

-- the names of the standard library that proofs here use most
export List (all_cons all_eq_true any_cons any_eq_false any_eq_true append_assoc append_eq_nil_iff
  append_nil cons_append cons_ne_nil contains_iff_mem count_cons drop_left drop_succ_cons
  exists_cons_of_ne_nil filter_append filter_cons_of_neg filter_cons_of_pos flatMap_cons
  flatten_cons foldl_append foldl_cons foldl_nil forall_mem_cons forall_mem_nil length_append
  length_cons length_drop length_nil length_pos_iff length_take map_append map_cons map_map
  mem_append mem_append_left mem_append_right mem_cons mem_cons_of_mem mem_cons_self mem_filter
  mem_map mem_map_of_mem mem_reverse mem_singleton nil_append not_mem_nil prefix_append
  singleton_append take_append_drop take_left)
export Option (all_some any_some bind_eq_some_iff bind_some getD_some isNone_iff_eq_none
  isNone_some isSome_iff_exists ite_none_right_eq_some map_eq_some_iff map_some some_inj
  some_ne_none)
export Bool (and_eq_true and_eq_true_iff eq_false_iff false_eq_true not_eq_false' not_eq_true
  not_eq_true' or_eq_false_iff or_eq_true)
export Function (update_of_ne update_self)

end Pontus

namespace Pontus.Lib

abbrev Bytes := List UInt8

instance : LawfulBEq Bytes := inferInstance

def ascii (text : String) : Bytes := text.toList.map Char.toUInt8

def beU32 (b₀ b₁ b₂ b₃ : UInt8) : Nat :=
  b₀.toNat * 2 ^ 24 + b₁.toNat * 2 ^ 16 + b₂.toNat * 2 ^ 8 + b₃.toNat

def putU32 (n : Nat) : Bytes :=
  [UInt8.ofNat (n / 2 ^ 24), UInt8.ofNat (n / 2 ^ 16), UInt8.ofNat (n / 2 ^ 8), UInt8.ofNat n]

def putU64 (n : Nat) : Bytes := putU32 (n / 2 ^ 32) ++ putU32 n

@[simp] theorem length_putU32 (n : Nat) : (putU32 n).length = 4 := rfl

theorem beU32_putU32 (hn : n < 2 ^ 32) :
    beU32 (UInt8.ofNat (n / 2 ^ 24)) (UInt8.ofNat (n / 2 ^ 16))
      (UInt8.ofNat (n / 2 ^ 8)) (UInt8.ofNat n) = n := by
  simp only [beU32, UInt8.toNat_ofNat']
  omega

theorem beU32_lt (b₀ b₁ b₂ b₃ : UInt8) : beU32 b₀ b₁ b₂ b₃ < 2 ^ 32 := by
  have h₀ := b₀.toNat_lt
  have h₁ := b₁.toNat_lt
  have h₂ := b₂.toNat_lt
  have h₃ := b₃.toNat_lt
  simp only [beU32]
  omega

theorem putU32_beU32 (b₀ b₁ b₂ b₃ : UInt8) : putU32 (beU32 b₀ b₁ b₂ b₃) = [b₀, b₁, b₂, b₃] := by
  have h₀ := b₀.toNat_lt
  have h₁ := b₁.toNat_lt
  have h₂ := b₂.toNat_lt
  have h₃ := b₃.toNat_lt
  simp only [putU32, beU32, List.cons.injEq, ← UInt8.toNat_inj, UInt8.toNat_ofNat', and_true]
  omega

theorem putU32_mod (h : putU32 n = putU32 m) : n % 2 ^ 32 = m % 2 ^ 32 := by
  simp only [putU32, List.cons.injEq, ← UInt8.toNat_inj, UInt8.toNat_ofNat', and_true] at h
  omega

/-- The text before the first occurrence of `sep` and the text behind it;
`none` when `sep` does not occur. -/
def cutAt (sep : UInt8) : Bytes → Option (Bytes × Bytes)
  | [] => none
  | b :: rest =>
    if b = sep then some ([], rest)
    else (cutAt sep rest).map fun (before, after) => (b :: before, after)

theorem cutAt_append (after : Bytes) (hbefore : sep ∉ before) :
    cutAt sep (before ++ sep :: after) = some (before, after) := by
  induction before with
  | nil => simp [cutAt]
  | cons b before ih =>
    have hb : b ≠ sep := fun h => hbefore (by simp [h])
    have hrest : sep ∉ before := fun h => hbefore (by simp [h])
    simp [cutAt, hb, ih hrest]

theorem cutAt_eq_some (h : cutAt sep text = some (before, after)) :
    text = before ++ sep :: after ∧ sep ∉ before := by
  induction text generalizing before with
  | nil => simp [cutAt] at h
  | cons b _ ih =>
    by_cases hb : b = sep
    · simp only [cutAt, hb, if_true, some_inj, Prod.mk.injEq] at h
      obtain ⟨rfl, rfl⟩ := h
      simp [hb]
    · simp only [cutAt, hb, if_false, map_eq_some_iff, Prod.mk.injEq] at h
      obtain ⟨⟨_, _⟩, hcut, rfl, rfl⟩ := h
      obtain ⟨rfl, hmem⟩ := ih hcut
      refine ⟨rfl, ?_⟩
      simp only [mem_cons, not_or]
      exact ⟨fun h => hb h.symm, hmem⟩

theorem cutAt_eq_none (h : cutAt sep text = none) : sep ∉ text := by
  induction text with
  | nil => simp
  | cons b _ ih =>
    by_cases hb : b = sep
    · simp [cutAt, hb] at h
    · rw [cutAt, if_neg hb, Option.map_eq_none_iff] at h
      rw [mem_cons, not_or]
      exact ⟨Ne.symm hb, ih h⟩

end Pontus.Lib
