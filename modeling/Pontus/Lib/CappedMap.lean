import Mathlib.Algebra.Order.BigOperators.Group.List
import Mathlib.Algebra.Order.Ring.Nat
import Mathlib.Data.List.AList

/-!
# Maps with a cap

A map that is stored into only while it has room, or under a key it already
has, never outgrows its cap.  What its values weigh together lies between the
bounds of one of them, times their number.
-/

namespace Pontus.Lib

universe u v

variable {α : Type u} {β : α → Type v} [DecidableEq α]

theorem length_keys_insert_le {m : AList β} (hroom : key ∈ m ∨ m.keys.length < cap)
    (hcap : m.keys.length ≤ cap) : (m.insert key value).keys.length ≤ cap := by
  rw [AList.keys_insert, List.length_cons]
  by_cases hmem : key ∈ m
  · have hpos := List.length_pos_of_mem (AList.mem_keys.1 hmem)
    rw [List.length_erase_of_mem (AList.mem_keys.1 hmem)]
    omega
  · rw [List.erase_of_not_mem (fun h => hmem (AList.mem_keys.2 h))]
    exact hroom.resolve_left hmem

theorem length_keys_erase_le (m : AList β) (key : α) :
    (m.erase key).keys.length ≤ m.keys.length := by
  rw [AList.keys_erase]
  exact List.length_erase_le

theorem length_keys_erase_of_mem {m : AList β} (h : key ∈ m) :
    (m.erase key).keys.length + 1 = m.keys.length := by
  have hpos := List.length_pos_of_mem (AList.mem_keys.1 h)
  rw [AList.keys_erase, List.length_erase_of_mem (AList.mem_keys.1 h)]
  omega

theorem erase_of_notMem {m : AList β} (h : key ∉ m) : m.erase key = m := by
  apply AList.ext
  exact List.kerase_of_notMem_keys fun hkey => h (AList.mem_keys.2 hkey)

theorem keys_erase_sublist (m : AList β) (key : α) : (m.erase key).keys.Sublist m.keys := by
  rw [AList.keys_erase]
  exact List.erase_sublist

section
variable (w : ∀ a, β a → Nat)

def weight (m : AList β) : Nat := (m.entries.map fun e => w e.1 e.2).sum

variable {w} {m : AList β}

theorem weight_le (h : ∀ key value, m.lookup key = some value → w key value ≤ bound) :
    weight w m ≤ m.keys.length * bound := by
  have hsum := List.sum_le_card_nsmul (m.entries.map fun e => w e.1 e.2) bound fun n hn => by
    obtain ⟨e, he, rfl⟩ := List.mem_map.1 hn
    exact h e.1 e.2 (AList.mem_lookup_iff.2 he)
  rwa [List.length_map, ← List.length_map Sigma.fst, Nat.nsmul_eq_mul] at hsum

theorem le_weight (h : ∀ key value, m.lookup key = some value → bound ≤ w key value) :
    m.keys.length * bound ≤ weight w m := by
  have hsum := List.card_nsmul_le_sum (m.entries.map fun e => w e.1 e.2) bound fun n hn => by
    obtain ⟨e, he, rfl⟩ := List.mem_map.1 hn
    exact h e.1 e.2 (AList.mem_lookup_iff.2 he)
  rwa [List.length_map, ← List.length_map Sigma.fst, Nat.nsmul_eq_mul] at hsum

end

end Pontus.Lib
