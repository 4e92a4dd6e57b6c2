import Mathlib

/-!
# Streaks

How often a value stands in a row at the end of a history.
-/

namespace Roze.Library

variable {Value : Type*} [DecidableEq Value]

/-- How often a value was seen last, without another. -/
def streak (value : Value) (history : List Value) : Nat :=
  (history.reverse.takeWhile (fun seen => decide (seen = value))).length

/-- Another value ends a streak. -/
theorem streak_concat (value : Value) (history : List Value) (last : Value) :
    streak value (history ++ [last]) = if last = value then streak value history + 1 else 0 := by
  rw [streak, List.reverse_concat, List.takeWhile_cons]
  split
  · rename_i same
    rw [if_pos (of_decide_eq_true same), List.length_cons, streak]
  · simp_all

end Roze.Library
