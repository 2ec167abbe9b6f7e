import Mathlib.Data.List.Induction
import Pontus.Pool.Reattach

/-!
# The dwell rule

Three stored values stand for the whole history of what was observed: whether
the last observation saw the receiver, whether one ever missed it, and when the
present run of streaming began.
-/

namespace Pontus.Pool

open Lib

structure Observation where
  time : Int
  streaming : Bool
  deriving DecidableEq

def ServerStatus.observe (p : ServerStatus) (obs : List Observation) : ServerStatus :=
  obs.foldl (fun p o => p.setReplicating o.streaming o.time) p

/-- The first observation of the run of streaming ones at the end. -/
def streamingSince (obs : List Observation) : Option Int :=
  (obs.reverse.takeWhile Observation.streaming).getLast?.map Observation.time

theorem streamingSince_concat (obs : List Observation) (o : Observation) :
    streamingSince (obs ++ [o]) =
      if o.streaming then some ((streamingSince obs).getD o.time) else none := by
  rw [streamingSince, List.reverse_append, List.reverse_singleton, singleton_append,
    List.takeWhile_cons]
  split
  · rw [List.getLast?_cons, streamingSince]
    cases (obs.reverse.takeWhile Observation.streaming).getLast? <;> rfl
  · rfl

theorem observe_new (address : Bytes) (admin : Bool) (obs : List Observation) :
    (ServerStatus.new address admin .replica).observe obs =
      { ServerStatus.new address admin .replica with
        replicating := (streamingSince obs).isSome
        replicatingSince := (streamingSince obs).getD 0
        stoppedReplicating := obs.any fun o => !o.streaming } := by
  induction obs using List.reverseRecOn with
  | nil => rfl
  | append_singleton obs o ih =>
    rw [ServerStatus.observe] at ih ⊢
    rw [foldl_append, ih, streamingSince_concat]
    cases hnow : o.streaming with
    | false => simp [ServerStatus.setReplicating, hnow]
    | true =>
      cases streamingSince obs <;> simp [ServerStatus.setReplicating, hnow]

theorem streamingSince_mem (h : streamingSince obs = some since) :
    ∃ o ∈ obs, o.time = since := by
  obtain ⟨o, hlast, hat⟩ := map_eq_some_iff.1 h
  have hmem := (List.takeWhile_sublist _).subset (List.mem_of_getLast? hlast)
  exact ⟨o, mem_reverse.1 hmem, hat⟩

/-- **The dwell rule.** -/
theorem isReplicating_iff_dwelt (address : Bytes) (admin : Bool) (policy : ReattachPolicy)
    (obs : List Observation) (hepoch : ∀ o ∈ obs, 0 < o.time) (t : Int) :
    ((ServerStatus.new address admin .replica).observe obs).isReplicating policy t = true ↔
      policy.enabled = false ∨ ∃ since, streamingSince obs = some since ∧
        ((∀ o ∈ obs, o.streaming = true) ∨ policy.dwell ≤ t - since) := by
  rw [observe_new, ServerStatus.isReplicating]
  cases policy.enabled with
  | false => simp [ServerStatus.new]
  | true =>
    cases hsince : streamingSince obs with
    | none => simp [ServerStatus.new]
    | some since =>
      obtain ⟨o, ho, _⟩ := streamingSince_mem hsince
      have hpos : since ≠ 0 := by
        have := hepoch o ho
        omega
      cases hstop : obs.any fun o => !o.streaming with
      | false =>
        have hall : ∀ o ∈ obs, o.streaming = true := by simpa using hstop
        simpa [ServerStatus.new] using Or.inl hall
      | true =>
        have hmissed : ¬∀ o ∈ obs, o.streaming = true := by simpa using hstop
        simp [ServerStatus.new, hpos, hmissed]

theorem dwelling_after_drop :
    ((ServerStatus.new [] true .replica).observe
      [⟨1, true⟩, ⟨2, false⟩, ⟨3, true⟩, ⟨9, true⟩]).isReplicating ⟨true, 10⟩ 13 = true :=
  (isReplicating_iff_dwelt [] true ⟨true, 10⟩ [⟨1, true⟩, ⟨2, false⟩, ⟨3, true⟩, ⟨9, true⟩]
    (by decide) 13).2 (Or.inr ⟨3, rfl, Or.inr (by decide)⟩)

end Pontus.Pool
