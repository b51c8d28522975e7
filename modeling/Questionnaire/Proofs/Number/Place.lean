import Mathlib.Data.Int.ConditionallyCompleteOrder
import Mathlib.Order.ConditionallyCompleteLattice.Basic
import Questionnaire.Number.Binary64

/-!
# The places of numbers

Numbers are ordered by where they stand, the infinities at the two ends (`Extended64.lt_iff`). What
is no number stands nowhere, and is neither below nor above anything (`Float64.lt_iff`).
-/

namespace Questionnaire

namespace Extended64

/-- Where a number stands among all numbers, counted in units of `2 ^ -1074`. The infinities stand at
the two ends. -/
def place : Extended64 → WithBot (WithTop Int)
  | .finite x => ((x.toUnits : WithTop Int) : WithBot (WithTop Int))
  | .infinite true => ⊥
  | .infinite false => ⊤

theorem lt_iff (x y : Extended64) : x.lt y = true ↔ x.place < y.place := by
  rcases x with x | _ | _ <;> rcases y with y | _ | _ <;> simp [lt, Binary64.lt, place]
  -- That a finite number is below the upper end is left.
  exact WithBot.coe_lt_coe.mpr (WithTop.coe_lt_top x.toUnits)

theorem same_iff (x y : Extended64) : x.same y = true ↔ x.place = y.place := by
  rcases x with x | _ | _ <;> rcases y with y | _ | _ <;> simp [same, Binary64.same, place]

end Extended64

/-- One value is below another just when both are numbers and stand so. -/
theorem Float64.lt_iff (x y : Float64) :
    x.lt y = true ↔ ∃ a b, x = .number a ∧ y = .number b ∧ a.place < b.place := by
  rcases x with a | _ <;> rcases y with b | _ <;> simp [lt, Extended64.lt_iff]

end Questionnaire
