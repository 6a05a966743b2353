import StellarFeeTracker.Analytics.Trend
import StellarFeeTracker.General.Regression

/-!
# The trend of a series and of its sorted copy

`analyzeTrend` is the least-squares regression of the series on its positions.  Sorting a series
changes neither the length nor the fees, so it keeps the spread of both and raises their product:
the sorted copy has at least the slope, whatever its sign was, and at least the R² of the series.
-/

namespace StellarFeeTracker

open Regression

/-! ## The trend by sums -/

theorem length_ne_zero {fees : List ℚ} (hne : fees ≠ []) : ¬ (fees.length : ℚ) = 0 := by
  rw [Nat.cast_eq_zero, List.length_eq_zero_iff]
  exact hne

theorem analyzeTrend_slope {fees : List ℚ} (hne : fees ≠ []) :
    (analyzeTrend .exact fees).slope = if f64Epsilon < sxx fees then sxy fees / sxx fees else 0 := by
  rw [analyzeTrend_exact, if_neg (length_ne_zero hne)]
  rfl

theorem analyzeTrend_rSquared {fees : List ℚ} (hne : fees ≠ []) :
    (analyzeTrend .exact fees).rSquared =
      clampUnit (if f64Epsilon < syy fees then
        1 - residual fees (analyzeTrend .exact fees).slope / syy fees else 0) := by
  rw [analyzeTrend_exact, if_neg (length_ne_zero hne)]
  rfl

theorem analyzeTrend_direction_of_lt {fees : List ℚ}
    (h : 1 / 1000000 < (analyzeTrend .exact fees).slope) :
    (analyzeTrend .exact fees).direction = .upward := by
  rw [analyzeTrend_exact] at h ⊢
  by_cases hempty : (fees.length : ℚ) = 0
  · rw [if_pos hempty] at h
    norm_num at h
  · rw [if_neg hempty] at h ⊢
    exact if_pos h

theorem f64Epsilon_pos : 0 < f64Epsilon := by norm_num [f64Epsilon]

/-- The share of the spread that the regression explains. -/
theorem explained_eq {fees : List ℚ} (hne : fees ≠ []) (hsyy : f64Epsilon < syy fees) :
    1 - residual fees (analyzeTrend .exact fees).slope / syy fees =
      if f64Epsilon < sxx fees then sxy fees ^ 2 / (sxx fees * syy fees) else 0 := by
  have hsyy' : syy fees ≠ 0 := (f64Epsilon_pos.trans hsyy).ne'
  rw [analyzeTrend_slope hne]
  split_ifs with hsxx
  · have hsxx' : sxx fees ≠ 0 := (f64Epsilon_pos.trans hsxx).ne'
    rw [residual_least fees hsxx']
    field_simp
    ring
  · rw [residual_eq]
    field_simp
    ring

/-! ## Sorting -/

variable {fees : List ℚ}

theorem sxx_insertionSort (fees : List ℚ) : sxx (fees.insertionSort (· ≤ ·)) = sxx fees :=
  sxx_eq_of_length_eq (List.length_insertionSort _ _)

theorem syy_insertionSort (fees : List ℚ) : syy (fees.insertionSort (· ≤ ·)) = syy fees :=
  syy_perm (List.perm_insertionSort _ _)

/-- The sorted copy of a series rises at least as fast as the series rises or falls. -/
theorem abs_slope_le_insertionSort (hne : fees ≠ []) :
    |(analyzeTrend .exact fees).slope| ≤
      (analyzeTrend .exact (fees.insertionSort (· ≤ ·))).slope := by
  rw [analyzeTrend_slope hne, analyzeTrend_slope (OrderStatistic.insertionSort_ne_nil hne),
    sxx_insertionSort]
  split_ifs with hsxx
  · have hpos : 0 < sxx fees := f64Epsilon_pos.trans hsxx
    rw [abs_div, abs_of_pos hpos]
    exact div_le_div_of_nonneg_right (abs_sxy_le_insertionSort fees) hpos.le
  · rw [abs_zero]

/-- A line fits the sorted copy of a series at least as well. -/
theorem rSquared_le_insertionSort (hne : fees ≠ []) :
    (analyzeTrend .exact fees).rSquared ≤
      (analyzeTrend .exact (fees.insertionSort (· ≤ ·))).rSquared := by
  have hne' := OrderStatistic.insertionSort_ne_nil hne
  rw [analyzeTrend_rSquared hne, analyzeTrend_rSquared hne', syy_insertionSort]
  refine clampUnit_mono ?_
  by_cases hsyy : f64Epsilon < syy fees
  · have hsyy' : f64Epsilon < syy (fees.insertionSort (· ≤ ·)) := by rwa [syy_insertionSort]
    have hexplained := explained_eq hne' hsyy'
    rw [syy_insertionSort, sxx_insertionSort] at hexplained
    rw [if_pos hsyy, if_pos hsyy, explained_eq hne hsyy, hexplained]
    split_ifs with hsxx
    · have hpos : 0 < sxx fees * syy fees :=
        mul_pos (f64Epsilon_pos.trans hsxx) (f64Epsilon_pos.trans hsyy)
      refine div_le_div_of_nonneg_right ?_ hpos.le
      rw [← sq_abs]
      exact pow_le_pow_left₀ (abs_nonneg _) (abs_sxy_le_insertionSort fees) 2
    · exact le_rfl
  · rw [if_neg hsyy, if_neg hsyy]

end StellarFeeTracker
