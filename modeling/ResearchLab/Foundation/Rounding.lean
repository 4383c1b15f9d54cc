import Mathlib.Algebra.Order.Round
import Mathlib.Data.Rat.Floor
import Mathlib.Tactic.Linarith
import Mathlib.Tactic.Positivity
import Mathlib.Tactic.FieldSimp
import Mathlib.Tactic.Ring

/-!
# Rounding to decimals

`round(x, digits)` in exact arithmetic: to the nearest multiple of the unit, and to the even
one when two are equally near.
-/
namespace ResearchLab.Foundation

def roundHalfEven (q : ℚ) : ℤ :=
  if q - ⌊q⌋ < 1 / 2 then ⌊q⌋
  else if 1 / 2 < q - ⌊q⌋ then ⌊q⌋ + 1
  else if ⌊q⌋ % 2 = 0 then ⌊q⌋ else ⌊q⌋ + 1

theorem abs_roundHalfEven_sub_le (q : ℚ) : |(roundHalfEven q : ℚ) - q| ≤ 1 / 2 := by
  have hlow := Int.floor_le q
  have hhigh := Int.lt_floor_add_one q
  unfold roundHalfEven
  split_ifs <;> push_cast <;> rw [abs_le] <;> constructor <;> linarith

theorem floor_le_roundHalfEven (q : ℚ) : ⌊q⌋ ≤ roundHalfEven q := by
  unfold roundHalfEven
  split_ifs <;> omega

theorem roundHalfEven_le_floor_add_one (q : ℚ) : roundHalfEven q ≤ ⌊q⌋ + 1 := by
  unfold roundHalfEven
  split_ifs <;> omega

theorem roundHalfEven_mono {p q : ℚ} (h : p ≤ q) : roundHalfEven p ≤ roundHalfEven q := by
  rcases (Int.floor_mono h).lt_or_eq with hlt | heq
  · have hlow := roundHalfEven_le_floor_add_one p
    have hhigh := floor_le_roundHalfEven q
    omega
  · -- within one unit the fractional parts decide
    unfold roundHalfEven
    rw [heq]
    split_ifs <;> first | omega | linarith

theorem roundHalfEven_intCast (n : ℤ) : roundHalfEven n = n := by
  simp [roundHalfEven]

def roundTo (digits : ℕ) (q : ℚ) : ℚ := roundHalfEven (q * 10 ^ digits) / 10 ^ digits

theorem abs_roundTo_sub_le (digits : ℕ) (q : ℚ) :
    |roundTo digits q - q| ≤ 1 / 2 / 10 ^ digits := by
  have hpos : (0 : ℚ) < 10 ^ digits := by positivity
  have hsplit : roundTo digits q - q =
      (roundHalfEven (q * 10 ^ digits) - q * 10 ^ digits) / 10 ^ digits := by
    unfold roundTo
    field_simp
  rw [hsplit, abs_div, abs_of_pos hpos]
  gcongr
  exact abs_roundHalfEven_sub_le _

/-- A number next to a multiple of the unit is rounded to it. -/
theorem roundTo_eq_of_abs_sub_lt {digits : ℕ} {q : ℚ} {m : ℤ} (h : |q * 10 ^ digits - m| < 1 / 2) :
    roundTo digits q = m / 10 ^ digits := by
  have hround := abs_roundHalfEven_sub_le (q * 10 ^ digits)
  have hclose : |((roundHalfEven (q * 10 ^ digits) - m : ℤ) : ℚ)| < 1 := by
    push_cast
    calc |(roundHalfEven (q * 10 ^ digits) : ℚ) - m|
        ≤ |(roundHalfEven (q * 10 ^ digits) : ℚ) - q * 10 ^ digits| + |q * 10 ^ digits - m| :=
          abs_sub_le _ _ _
      _ < 1 := by linarith
  have hlt : |roundHalfEven (q * 10 ^ digits) - m| < 1 := by exact_mod_cast hclose
  rw [roundTo, sub_eq_zero.1 (Int.abs_lt_one_iff.1 hlt)]

theorem roundTo_mono (digits : ℕ) : Monotone (roundTo digits) := by
  intro p q h
  unfold roundTo
  have hscaled : p * 10 ^ digits ≤ q * 10 ^ digits := by gcongr
  gcongr
  exact roundHalfEven_mono hscaled

/-- What is rounded already stays. -/
theorem roundTo_roundTo (digits : ℕ) (q : ℚ) : roundTo digits (roundTo digits q) = roundTo digits q := by
  have hne : (10 : ℚ) ^ digits ≠ 0 := by positivity
  rw [roundTo, show roundTo digits q * 10 ^ digits = (roundHalfEven (q * 10 ^ digits) : ℤ) from
    div_mul_cancel₀ _ hne, roundHalfEven_intCast]
  rfl

@[simp] theorem roundTo_zero (digits : ℕ) : roundTo digits 0 = 0 := by
  have h := roundHalfEven_intCast 0
  rw [Int.cast_zero] at h
  rw [roundTo, zero_mul, h, Int.cast_zero, zero_div]

/-- Sums of rounded numbers need no rounding. -/
theorem roundTo_add {digits : ℕ} {p q : ℚ} (hp : roundTo digits p = p) (hq : roundTo digits q = q) :
    roundTo digits (p + q) = p + q := by
  have hne : (10 : ℚ) ^ digits ≠ 0 := by positivity
  have hscaled : ∀ {x : ℚ}, roundTo digits x = x →
      x * 10 ^ digits = (roundHalfEven (x * 10 ^ digits) : ℤ) := by
    intro x hx
    rw [roundTo, div_eq_iff hne] at hx
    exact hx.symm
  have hsum : (p + q) * 10 ^ digits =
      ((roundHalfEven (p * 10 ^ digits) + roundHalfEven (q * 10 ^ digits) : ℤ) : ℚ) := by
    rw [add_mul, Int.cast_add, ← hscaled hp, ← hscaled hq]
  rw [roundTo, hsum, roundHalfEven_intCast, ← hsum, mul_div_cancel_right₀ _ hne]

/-- The maximum with a number that was rounded before rounds to the same. -/
theorem roundTo_max_congr {digits : ℕ} {p q : ℚ} (h : roundTo digits p = roundTo digits q) (x : ℚ) :
    roundTo digits (max p x) = roundTo digits (max q x) := by
  rw [(roundTo_mono digits).map_max, (roundTo_mono digits).map_max, h]

end ResearchLab.Foundation
