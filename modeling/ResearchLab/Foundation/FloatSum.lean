import Mathlib.Algebra.Order.BigOperators.Group.Multiset
import Mathlib.Data.Int.Log
import Mathlib.Tactic.GCongr
import Mathlib.Tactic.Abel
import ResearchLab.Foundation.Rounding

/-!
# Sums of floats

A float is a rational number with 53 significant bits; its exponent is not bounded. A sum is taken
term by term and rounded at each term, so it depends on their order. What the order can change is
small against the sum of the absolute values, and a result that is rounded to decimals seldom
shows it.
-/
namespace ResearchLab.Foundation

/-- The unit in the last place of a float of this size. -/
def ulp (q : ℚ) : ℚ := 2 ^ (Int.log 2 |q| - 52)

/-- The nearest float, and the even one of two that are equally near. -/
def toFloat (q : ℚ) : ℚ := roundHalfEven (q / ulp q) * ulp q

/-- `total = 0.0`, and `total += q` for each term. -/
def floatSum (l : List ℚ) : ℚ := l.foldl (fun total q => toFloat (total + q)) 0

theorem ulp_pos (q : ℚ) : 0 < ulp q := zpow_pos two_pos _

theorem ulp_le {q : ℚ} (h : q ≠ 0) : ulp q ≤ |q| / 2 ^ 52 := by
  have hlog : (2 : ℚ) ^ Int.log 2 |q| ≤ |q| := by
    exact_mod_cast Int.zpow_log_le_self (b := 2) Nat.one_lt_two (abs_pos.2 h)
  rw [ulp, zpow_sub₀ two_ne_zero]
  exact div_le_div_of_nonneg_right hlog (by positivity)

theorem abs_toFloat_sub_le (q : ℚ) : |toFloat q - q| ≤ |q| / 2 ^ 53 := by
  rcases eq_or_ne q 0 with rfl | hq
  · have hzero := roundHalfEven_intCast 0
    rw [Int.cast_zero] at hzero
    simp [toFloat, hzero]
  have hpos := ulp_pos q
  have hsplit : toFloat q - q = (roundHalfEven (q / ulp q) - q / ulp q) * ulp q := by
    rw [toFloat, sub_mul, div_mul_cancel₀ _ hpos.ne']
  calc |toFloat q - q| = |roundHalfEven (q / ulp q) - q / ulp q| * ulp q := by
        rw [hsplit, abs_mul, abs_of_pos hpos]
    _ ≤ 1 / 2 * (|q| / 2 ^ 52) := by
        gcongr
        · exact abs_roundHalfEven_sub_le _
        · exact ulp_le hq
    _ = |q| / 2 ^ 53 := by ring

/-- The largest relative error of one rounding. -/
def unitRoundoff : ℚ := 1 / 2 ^ 53

theorem unitRoundoff_nonneg : 0 ≤ unitRoundoff := by
  unfold unitRoundoff
  positivity

/-- How far a sum of these terms can be from the exact one, whatever their order. -/
def sumError (l : List ℚ) : ℚ := ((1 + unitRoundoff) ^ l.length - 1) * (l.map abs).sum

theorem sumError_concat (l : List ℚ) (q : ℚ) :
    sumError (l ++ [q]) =
      ((1 + unitRoundoff) ^ l.length * (1 + unitRoundoff) - 1) * ((l.map abs).sum + |q|) := by
  simp [sumError, pow_succ]

theorem abs_floatSum_sub_le (l : List ℚ) : |floatSum l - l.sum| ≤ sumError l := by
  induction l using List.reverseRecOn with
  | nil => simp [floatSum, sumError]
  | append_singleton l q ih =>
    have hstep : floatSum (l ++ [q]) = toFloat (floatSum l + q) := by simp [floatSum]
    have hsum : (l ++ [q]).sum = l.sum + q := by simp
    have hround : |toFloat (floatSum l + q) - (floatSum l + q)| ≤
        unitRoundoff * |floatSum l + q| := by
      rw [unitRoundoff, one_div_mul_eq_div]
      exact abs_toFloat_sub_le _
    have hsize : |floatSum l + q| ≤ sumError l + (l.map abs).sum + |q| := by
      have hsplit : floatSum l + q = (floatSum l - l.sum) + l.sum + q := by ring
      rw [hsplit]
      refine (abs_add_le _ _).trans (add_le_add ((abs_add_le _ _).trans ?_) le_rfl)
      refine add_le_add ih ?_
      simpa using Multiset.abs_sum_le_sum_abs (s := (l : Multiset ℚ))
    have hu := unitRoundoff_nonneg
    calc |floatSum (l ++ [q]) - (l ++ [q]).sum|
        = |(toFloat (floatSum l + q) - (floatSum l + q)) + (floatSum l - l.sum)| := by
          rw [hstep, hsum]
          congr 1
          ring
      _ ≤ unitRoundoff * (sumError l + (l.map abs).sum + |q|) + sumError l := by
          refine (abs_add_le _ _).trans (add_le_add (hround.trans ?_) ih)
          gcongr
      _ ≤ sumError (l ++ [q]) := by
          rw [sumError_concat, sumError]
          have hpow : 1 ≤ (1 + unitRoundoff) ^ l.length := one_le_pow₀ (by linarith)
          have hlast : 0 ≤ ((1 + unitRoundoff) ^ l.length - 1) * |q| * (1 + unitRoundoff) :=
            mul_nonneg (mul_nonneg (by linarith) (abs_nonneg q)) (by linarith)
          linarith

/-- No error that the order of the terms can make reaches the decimals. -/
def Settled (digits : ℕ) (l : List ℚ) : Prop :=
  roundTo digits (l.sum - sumError l) = roundTo digits (l.sum + sumError l)

instance decidableSettled (digits : ℕ) (l : List ℚ) : Decidable (Settled digits l) :=
  inferInstanceAs (Decidable (_ = _))

theorem sumError_perm {l l' : List ℚ} (h : l.Perm l') : sumError l = sumError l' := by
  rw [sumError, sumError, h.length_eq, (h.map abs).sum_eq]

theorem Settled.perm {digits : ℕ} {l l' : List ℚ} (h : Settled digits l) (hperm : l.Perm l') :
    Settled digits l' := by
  unfold Settled at *
  rwa [← hperm.sum_eq, ← sumError_perm hperm]

theorem Settled.roundTo_floatSum {digits : ℕ} {l : List ℚ} (h : Settled digits l) :
    roundTo digits (floatSum l) = roundTo digits (l.sum - sumError l) := by
  obtain ⟨hlow, hhigh⟩ := abs_le.1 (abs_floatSum_sub_le l)
  refine le_antisymm ?_ (roundTo_mono digits (by linarith))
  rw [h]
  exact roundTo_mono digits (by linarith)

/-- Settled terms have one rounded sum in every order. -/
theorem Settled.roundTo_floatSum_perm {digits : ℕ} {l l' : List ℚ} (h : Settled digits l)
    (hperm : l.Perm l') : roundTo digits (floatSum l) = roundTo digits (floatSum l') := by
  rw [h.roundTo_floatSum, (h.perm hperm).roundTo_floatSum, hperm.sum_eq, sumError_perm hperm]

/-- The order shows: two small terms vanish one by one and count together. -/
example : floatSum [1, 1 / 2 ^ 53, 1 / 2 ^ 53] ≠ floatSum [1 / 2 ^ 53, 1 / 2 ^ 53, 1] := by
  decide +kernel

end ResearchLab.Foundation
