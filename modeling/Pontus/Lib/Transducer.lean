import Mathlib.Data.List.Basic

/-!
# Transducers fed in pieces

A transducer reads one symbol at a time, moves to its next state and emits one
output per symbol.  Running it over a list and over the same list cut into
pieces is the same computation, so the outputs of a piece are a slice of the
outputs of the whole.  A program that consumes a stream in chunks is proved
against such a machine once, and the way the stream was cut drops out.
-/

namespace Pontus.Lib

variable {σ α β : Type}

def transduce (step : σ → α → σ × β) : σ → List α → σ × List β
  | s, [] => (s, [])
  | s, a :: rest =>
    let next := step s a
    let tail := transduce step next.1 rest
    (tail.1, next.2 :: tail.2)

namespace transduce

variable (step : σ → α → σ × β)

@[simp] theorem nil (s : σ) : transduce step s [] = (s, []) := rfl

theorem cons (s : σ) (a : α) (rest : List α) :
    transduce step s (a :: rest) =
      ((transduce step (step s a).1 rest).1,
        (step s a).2 :: (transduce step (step s a).1 rest).2) := rfl

theorem append (s : σ) (xs ys : List α) :
    transduce step s (xs ++ ys) =
      ((transduce step (transduce step s xs).1 ys).1,
        (transduce step s xs).2 ++ (transduce step (transduce step s xs).1 ys).2) := by
  induction xs generalizing s with
  | nil => simp
  | cons _ _ ih => simp [cons, ih]

@[simp] theorem length_outputs (s : σ) (xs : List α) :
    (transduce step s xs).2.length = xs.length := by
  induction xs generalizing s with
  | nil => simp
  | cons _ _ ih => simp [cons, ih]

/-- The outputs emitted on a piece are the corresponding slice of the outputs
emitted on the whole. -/
theorem slice (s : σ) (pre mid post : List α) :
    (transduce step (transduce step s pre).1 mid).2 =
      ((transduce step s (pre ++ mid ++ post)).2.drop pre.length).take mid.length := by
  have hpre : pre.length = (transduce step s pre).2.length := by simp
  have hmid : mid.length = (transduce step (transduce step s pre).1 mid).2.length := by simp
  rw [List.append_assoc, append, append]
  conv_rhs => rw [hpre, hmid]
  rw [List.drop_left, List.take_left]

end transduce

end Pontus.Lib
