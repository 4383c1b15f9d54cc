import Mathlib.Algebra.Order.Ring.Rat
import Mathlib.Order.Lattice

/-!
# Clocks with a floor

An authority clock takes the largest of what it observes, what a caller supplies and the
largest value it ever gave out, so that it never goes backwards.
-/
namespace ResearchLab.Foundation

/-- Two readings of a clock, before and after the write lock is taken. -/
structure Readings where
  first : ℚ
  second : ℚ

def flooredTime (floor : ℚ) (supplied : Option ℚ) (observed : ℚ) : ℚ :=
  max (max observed (supplied.getD observed)) floor

theorem floor_le_flooredTime (floor : ℚ) (supplied : Option ℚ) (observed : ℚ) :
    floor ≤ flooredTime floor supplied observed := le_max_right _ _

end ResearchLab.Foundation
