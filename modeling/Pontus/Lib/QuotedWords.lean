import Mathlib.Data.List.Basic

/-!
# The words of a text outside quotes

A text is cut at its quotes; every other part, from the first on, is outside
them.  A part is cut into maximal runs of the items words are made of, and a
word is what is left of a run behind the items that may stand in a word but not
begin one.  Nothing here says what the items are.
-/

namespace Pontus.Lib

universe u

variable {α : Type u}

def everyOther : List α → List α
  | [] => []
  | [a] => [a]
  | a :: _ :: rest => a :: everyOther rest

theorem everyOther_modifyHead (f : α → α) (xs : List α) :
    everyOther (xs.modifyHead f) = (everyOther xs).modifyHead f := by
  match xs with
  | [] => rfl
  | [_] => rfl
  | _ :: _ :: _ => rfl

theorem everyOther_cons (a : α) (rest : List α) : ∃ more, everyOther (a :: rest) = a :: more := by
  match rest with
  | [] => exact ⟨[], rfl⟩
  | _ :: rest => exact ⟨everyOther rest, rfl⟩

theorem splitOnP_append_of_forall (hfront : ∀ a ∈ front, p a = false) (rest : List α) :
    (front ++ rest).splitOnP p = (rest.splitOnP p).modifyHead (front ++ ·) := by
  induction front with
  | nil =>
    obtain ⟨part, parts, hparts⟩ := List.exists_cons_of_ne_nil (List.splitOnP_ne_nil p rest)
    simp [hparts]
  | cons _ _ ih =>
    rw [List.forall_mem_cons] at hfront
    obtain ⟨_, _, hparts⟩ := List.exists_cons_of_ne_nil (List.splitOnP_ne_nil p rest)
    rw [List.cons_append, List.splitOnP_cons_eq_if_modifyHead, ih hfront.2, hparts]
    simp [hfront.1]

theorem head_of_splitOnP {rest part : List α} (h : rest.splitOnP p = part :: parts)
    (ha : part.head? = some a) : rest.head? = some a := by
  cases rest with
  | nil =>
    rw [List.splitOnP_nil] at h
    cases h
    exact nomatch ha
  | cons _ rest =>
    obtain ⟨_, _, hruns⟩ := List.exists_cons_of_ne_nil (List.splitOnP_ne_nil p rest)
    rw [List.splitOnP_cons_eq_if_modifyHead, hruns] at h
    split at h
    · cases h
      exact nomatch ha
    · cases h
      exact ha

section
variable (isQuote isPart isLead : α → Bool)

def wordsOf (part : List α) : List (List α) :=
  ((part.splitOnP fun a => !isPart a).map (List.dropWhile isLead)).filter fun w => !w.isEmpty

def wordsOutside (xs : List α) : List (List α) :=
  (everyOther (xs.splitOnP isQuote)).flatMap (wordsOf isPart isLead)

end

section
variable {isQuote isPart isLead : α → Bool}

@[simp] theorem wordsOf_nil : wordsOf isPart isLead [] = [] := by simp [wordsOf, List.splitOnP_nil]

theorem wordsOf_cons_skip (h : isPart a = false ∨ isLead a) (part : List α) :
    wordsOf isPart isLead (a :: part) = wordsOf isPart isLead part := by
  obtain ⟨_, _, hruns⟩ := List.exists_cons_of_ne_nil
    (List.splitOnP_ne_nil (fun a => !isPart a) part)
  cases hpart : isPart a with
  | false => simp [wordsOf, List.splitOnP_cons_eq_if_modifyHead, hpart]
  | true =>
    rw [hpart] at h
    have hlead : isLead a := h.resolve_left Bool.true_eq_false.mp
    simp [wordsOf, List.splitOnP_cons_eq_if_modifyHead, hpart, hruns, hlead]

theorem wordsOf_append (hlead : isLead a = false) (hword : ∀ b ∈ a :: word, isPart b)
    (hrest : ∀ b, rest.head? = some b → isPart b = false) :
    wordsOf isPart isLead (a :: word ++ rest) = (a :: word) :: wordsOf isPart isLead rest := by
  have hsplit : (a :: word ++ rest).splitOnP (fun b => !isPart b) = _ :=
    splitOnP_append_of_forall (fun b hb => by rw [hword b hb]; rfl) rest
  unfold wordsOf
  rw [hsplit]
  cases rest with
  | nil => simp [List.splitOnP_nil, hlead]
  | cons b => simp [List.splitOnP_cons_eq_if_modifyHead, hrest b rfl, hlead]

@[simp] theorem wordsOutside_nil : wordsOutside isQuote isPart isLead [] = [] := by
  simp [wordsOutside, List.splitOnP_nil, everyOther]

theorem wordsOutside_cons_skip (hquote : isQuote a = false) (h : isPart a = false ∨ isLead a)
    (rest : List α) :
    wordsOutside isQuote isPart isLead (a :: rest) = wordsOutside isQuote isPart isLead rest := by
  obtain ⟨part, parts, hparts⟩ := List.exists_cons_of_ne_nil (List.splitOnP_ne_nil isQuote rest)
  obtain ⟨_, hmore⟩ := everyOther_cons part parts
  rw [wordsOutside, wordsOutside, List.splitOnP_cons_eq_if_modifyHead, hquote,
    if_neg Bool.false_ne_true, everyOther_modifyHead, hparts, hmore, List.modifyHead_cons,
    List.flatMap_cons, List.flatMap_cons, wordsOf_cons_skip h]

theorem wordsOutside_append (hlead : isLead a = false)
    (hword : ∀ b ∈ a :: word, isQuote b = false ∧ isPart b)
    (hrest : ∀ b, rest.head? = some b → isPart b = false) :
    wordsOutside isQuote isPart isLead (a :: word ++ rest) =
      (a :: word) :: wordsOutside isQuote isPart isLead rest := by
  obtain ⟨part, parts, hparts⟩ := List.exists_cons_of_ne_nil (List.splitOnP_ne_nil isQuote rest)
  obtain ⟨_, hmore⟩ := everyOther_cons part parts
  rw [wordsOutside, wordsOutside, splitOnP_append_of_forall fun b hb => (hword b hb).1,
    everyOther_modifyHead, hparts, hmore, List.modifyHead_cons, List.flatMap_cons,
    List.flatMap_cons, wordsOf_append hlead fun b hb => (hword b hb).2]
  · rfl
  · intro b hb
    exact hrest b (head_of_splitOnP hparts hb)

theorem wordsOutside_quoted (hq : isQuote q) (hbody : ∀ a ∈ body, isQuote a = false)
    (hq' : isQuote q') (rest : List α) :
    wordsOutside isQuote isPart isLead (q :: (body ++ q' :: rest)) =
      wordsOutside isQuote isPart isLead rest := by
  rw [wordsOutside, List.splitOnP_cons_eq_if_modifyHead, hq, if_pos rfl,
    List.splitOnP_append_cons _ _ hq', List.splitOnP_eq_singleton hbody, List.singleton_append,
    everyOther, List.flatMap_cons, wordsOf_nil, List.nil_append]
  rfl

theorem wordsOutside_unclosed (hq : isQuote q) (hbody : ∀ a ∈ body, isQuote a = false) :
    wordsOutside isQuote isPart isLead (q :: body) = [] := by
  rw [wordsOutside, List.splitOnP_cons_eq_if_modifyHead, hq, if_pos rfl,
    List.splitOnP_eq_singleton hbody]
  simp [everyOther]

end

end Pontus.Lib
