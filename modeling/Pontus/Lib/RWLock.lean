import Mathlib.Data.List.Basic

/-!
# Read-write locks

A lock is held by any number of readers or by one writer, and is told here by
who holds it.  Threads that know what they hold agree with it: taking and giving
back the lock keeps that so, and while a thread writes no other one reads.
-/

namespace Pontus.Lib

variable {ι : Type} [DecidableEq ι]

structure RWLock (ι : Type) where
  readers : List ι
  writer : Option ι
  deriving DecidableEq

namespace RWLock

def free : RWLock ι := ⟨[], none⟩

def rlock (l : RWLock ι) (i : ι) : Option (RWLock ι) :=
  if l.writer = none then some { l with readers := i :: l.readers } else none

def runlock (l : RWLock ι) (i : ι) : RWLock ι := { l with readers := l.readers.filter (· ≠ i) }

def lock (l : RWLock ι) (i : ι) : Option (RWLock ι) :=
  if l.readers = [] ∧ l.writer = none then some { l with writer := some i } else none

def unlock (l : RWLock ι) : RWLock ι := { l with writer := none }

structure Agrees (l : RWLock ι) (reads writes : ι → Bool) : Prop where
  reader : ∀ i, i ∈ l.readers ↔ reads i = true
  writer : ∀ i, l.writer = some i ↔ writes i = true
  exclusive : ∀ i, l.writer = some i → l.readers = []

namespace Agrees

variable {l l' : RWLock ι} {reads writes reads' writes' : ι → Bool} {i : ι}

omit [DecidableEq ι] in
theorem free : Agrees (free : RWLock ι) (fun _ => false) fun _ => false where
  reader i := by simp [RWLock.free]
  writer i := by simp [RWLock.free]
  exclusive i h := by cases h

omit [DecidableEq ι] in
theorem not_reads (h : Agrees l reads writes) (hi : writes i) (j : ι) : reads j = false := by
  have hreaders := h.exclusive i ((h.writer i).2 hi)
  cases hj : reads j with
  | false => rfl
  | true =>
    have hmem := (h.reader j).2 hj
    rw [hreaders] at hmem
    cases hmem

omit [DecidableEq ι] in
theorem congr (h : Agrees l reads writes) (hreads : ∀ j, reads' j = reads j)
    (hwrites : ∀ j, writes' j = writes j) : Agrees l reads' writes' := by
  rw [funext hreads, funext hwrites]
  exact h

theorem rlock (h : Agrees l reads writes) (hlock : l.rlock i = some l')
    (hreads : ∀ j, j ≠ i → reads' j = reads j) (hi : reads' i) : Agrees l' reads' writes := by
  rw [RWLock.rlock, Option.ite_none_right_eq_some, Option.some.injEq] at hlock
  obtain ⟨hwriter, rfl⟩ := hlock
  refine ⟨?_, h.writer, ?_⟩
  · intro j
    rw [List.mem_cons]
    by_cases hj : j = i
    · rw [hj]
      exact ⟨fun _ => hi, fun _ => .inl rfl⟩
    · rw [hreads j hj, ← h.reader j]
      exact ⟨fun hmem => hmem.resolve_left hj, .inr⟩
  · intro _ hj
    rw [hwriter] at hj
    cases hj

theorem runlock (h : Agrees l reads writes) (hreads : ∀ j, j ≠ i → reads' j = reads j)
    (hi : reads' i = false) : Agrees (l.runlock i) reads' writes := by
  refine ⟨?_, h.writer, ?_⟩
  · intro j
    rw [RWLock.runlock, List.mem_filter, decide_eq_true_eq]
    by_cases hj : j = i
    · rw [hj, hi]
      simp
    · rw [hreads j hj, ← h.reader j]
      exact ⟨fun hmem => hmem.1, fun hmem => ⟨hmem, hj⟩⟩
  · intro j hj
    rw [RWLock.runlock, h.exclusive j hj, List.filter_nil]

theorem lock (h : Agrees l reads writes) (hlock : l.lock i = some l')
    (hwrites : ∀ j, j ≠ i → writes' j = writes j) (hi : writes' i) :
    Agrees l' reads writes' := by
  rw [RWLock.lock, Option.ite_none_right_eq_some, Option.some.injEq] at hlock
  obtain ⟨⟨hreaders, hwriter⟩, rfl⟩ := hlock
  refine ⟨h.reader, ?_, fun _ _ => hreaders⟩
  intro j
  by_cases hj : j = i
  · rw [hj]
    exact ⟨fun _ => hi, fun _ => rfl⟩
  · rw [hwrites j hj, ← h.writer j, hwriter]
    refine ⟨fun hmem => absurd (Option.some.inj hmem).symm hj, fun hnone => ?_⟩
    cases hnone

theorem unlock (h : Agrees l reads writes) (hwriter : writes i)
    (hwrites : ∀ j, j ≠ i → writes' j = writes j) (hi : writes' i = false) :
    Agrees l.unlock reads writes' := by
  refine ⟨h.reader, ?_, ?_⟩
  · intro j
    constructor
    · intro hnone
      cases hnone
    · intro hj
      -- nobody else can have been the writer
      by_cases hji : j = i
      · rw [hji, hi] at hj
        cases hj
      · rw [hwrites j hji, ← h.writer j, (h.writer i).2 hwriter] at hj
        exact absurd (Option.some.inj hj).symm hji
  · intro _ hnone
    cases hnone

end Agrees

end RWLock

end Pontus.Lib
