import StellarFeeTracker.Analytics.Regression

/-!
# Laws of the trend

From two fees on, the trend is the least-squares line of the series.  So its R² needs no clamp, a
series on a line has the slope of the line, and a series read backwards has the opposite slope and the
same R² (`analyzeTrend_laws`).
-/

namespace StellarFeeTracker

open Regression

/-! ## The sums behind the trend -/

/-- The `intercept` of the line that `analyzeTrend` fits. -/
def trendIntercept (fees : List ℚ) : ℚ :=
  fees.sum / fees.length - (analyzeTrend .exact fees).slope * ((fees.length - 1) / 2)

/-- The `ss_res` of a line. -/
def squaredResiduals (fees : List ℚ) (slope intercept : ℚ) : ℚ :=
  (fees.zipIdx.map fun (fee, i) => (fee - (slope * i + intercept)) ^ 2).sum

/-- The `ss_res` of `analyzeTrend`. -/
def ssRes (fees : List ℚ) : ℚ :=
  squaredResiduals fees (analyzeTrend .exact fees).slope (trendIntercept fees)

/-- The `ss_tot` of `analyzeTrend`. -/
def ssTot (fees : List ℚ) : ℚ := (fees.map fun fee => (fee - fees.sum / fees.length) ^ 2).sum

/-- The R² before its clamp. -/
def rawRSquared (fees : List ℚ) : ℚ := 1 - ssRes fees / ssTot fees

theorem analyzeTrend_rSquared_eq_raw {fees : List ℚ} (hne : fees ≠ []) :
    (analyzeTrend .exact fees).rSquared =
      clampUnit (if f64Epsilon < ssTot fees then rawRSquared fees else 0) :=
  analyzeTrend_rSquared hne

/-! ## The least-squares line -/

variable {fees : List ℚ}

theorem ne_nil_of_two_le (h : 2 ≤ fees.length) : fees ≠ [] := by
  rintro rfl
  exact absurd h (by decide)

/-- The positions of two fees differ by more than the error of a float. -/
theorem f64Epsilon_lt_sxx (h : 2 ≤ fees.length) : f64Epsilon < sxx fees :=
  lt_of_lt_of_le (by norm_num [f64Epsilon]) (quarter_le_sxx h)

theorem analyzeTrend_slope_eq (h : 2 ≤ fees.length) :
    (analyzeTrend .exact fees).slope = sxy fees / sxx fees := by
  rw [analyzeTrend_slope (ne_nil_of_two_le h), if_pos (f64Epsilon_lt_sxx h)]

theorem ssRes_eq (h : 2 ≤ fees.length) : ssRes fees = residual fees (sxy fees / sxx fees) := by
  rw [← analyzeTrend_slope_eq h]
  rfl

theorem ssRes_le_squaredResiduals (h : 2 ≤ fees.length) (slope intercept : ℚ) :
    ssRes fees ≤ squaredResiduals fees slope intercept := by
  rw [ssRes_eq h]
  exact residual_le_distance (f64Epsilon_pos.trans (f64Epsilon_lt_sxx h)) slope intercept

/-- The share of the spread that the line explains. -/
theorem rawRSquared_eq (h : 2 ≤ fees.length) (htot : f64Epsilon < ssTot fees) :
    rawRSquared fees = sxy fees ^ 2 / (sxx fees * syy fees) := by
  have hexplained := explained_eq (ne_nil_of_two_le h) htot
  rw [if_pos (f64Epsilon_lt_sxx h)] at hexplained
  exact hexplained

/-- The squared distances from the line are between 0 and those from the mean. -/
theorem rawRSquared_mem (h : 2 ≤ fees.length) (htot : f64Epsilon < ssTot fees) :
    0 ≤ rawRSquared fees ∧ rawRSquared fees ≤ 1 := by
  have htot' : 0 < ssTot fees := f64Epsilon_pos.trans htot
  constructor
  · rw [rawRSquared_eq h htot]
    have hsxx := f64Epsilon_pos.trans (f64Epsilon_lt_sxx h)
    exact div_nonneg (sq_nonneg _) (mul_pos hsxx htot').le
  · have hres : 0 ≤ ssRes fees := by
      rw [ssRes_eq h]
      exact residual_nonneg _ _
    exact sub_le_self 1 (div_nonneg hres htot'.le)

theorem analyzeTrend_rSquared_of_two_le (h : 2 ≤ fees.length) (htot : f64Epsilon < ssTot fees) :
    (analyzeTrend .exact fees).rSquared = rawRSquared fees := by
  obtain ⟨hlow, hhigh⟩ := rawRSquared_mem h htot
  rw [analyzeTrend_rSquared_eq_raw (ne_nil_of_two_le h), if_pos htot, clampUnit_of_mem hlow hhigh]

/-! ## Series on a line -/

/-- The first values of `a + b * i`. -/
def affine (a b : ℚ) (n : ℕ) : List ℚ := (List.range n).map fun i : ℕ => a + b * i

theorem squaredResiduals_affine (a b : ℚ) (n : ℕ) : squaredResiduals (affine a b n) b a = 0 := by
  refine List.sum_eq_zero fun q hq => ?_
  obtain ⟨⟨fee, i⟩, hp, rfl⟩ := List.mem_map.1 hq
  obtain ⟨hi, hfee⟩ := List.mem_zipIdx' hp
  have hvalue : fee = a + b * i := by
    rw [hfee]
    simp [affine]
  rw [hvalue]
  ring

theorem trend_affine (h : 2 ≤ fees.length) {a b : ℚ} (hline : fees = affine a b fees.length) :
    (analyzeTrend .exact fees).slope = b ∧
      (f64Epsilon < ssTot fees → (analyzeTrend .exact fees).rSquared = 1) := by
  have hzero : distance fees b a = 0 := by
    rw [hline]
    exact squaredResiduals_affine a b _
  obtain ⟨hslope, hres⟩ := eq_of_distance_eq_zero (f64Epsilon_pos.trans (f64Epsilon_lt_sxx h)) hzero
  refine ⟨(analyzeTrend_slope_eq h).trans hslope, fun htot => ?_⟩
  rw [analyzeTrend_rSquared_of_two_le h htot, rawRSquared, ssRes_eq h, hres, zero_div, sub_zero]

/-! ## Series read backwards -/

theorem ssTot_reverse (fees : List ℚ) : ssTot fees.reverse = ssTot fees :=
  syy_perm (List.reverse_perm fees)

theorem trend_reverse (h : 2 ≤ fees.length) :
    (analyzeTrend .exact fees.reverse).slope = -(analyzeTrend .exact fees).slope ∧
      (analyzeTrend .exact fees.reverse).rSquared = (analyzeTrend .exact fees).rSquared := by
  have h' : 2 ≤ fees.reverse.length := by rwa [List.length_reverse]
  have hsxx : sxx fees.reverse = sxx fees := sxx_eq_of_length_eq List.length_reverse
  constructor
  · rw [analyzeTrend_slope_eq h', analyzeTrend_slope_eq h, sxy_reverse, hsxx, neg_div]
  · by_cases htot : f64Epsilon < ssTot fees
    · have htot' : f64Epsilon < ssTot fees.reverse := by rwa [ssTot_reverse]
      have hsyy : syy fees.reverse = syy fees := ssTot_reverse fees
      rw [analyzeTrend_rSquared_of_two_le h' htot', analyzeTrend_rSquared_of_two_le h htot,
        rawRSquared_eq h' htot', rawRSquared_eq h htot, sxy_reverse, hsxx, hsyy, neg_sq]
    · have htot' : ¬ f64Epsilon < ssTot fees.reverse := by rwa [ssTot_reverse]
      rw [analyzeTrend_rSquared_eq_raw (ne_nil_of_two_le h'),
        analyzeTrend_rSquared_eq_raw (ne_nil_of_two_le h), if_neg htot, if_neg htot']

/-! ## The result -/

/-- The regression of a series of at least two fees. -/
theorem analyzeTrend_laws (h : 2 ≤ fees.length) :
    (f64Epsilon < ssTot fees → (0 ≤ rawRSquared fees ∧ rawRSquared fees ≤ 1) ∧
      (analyzeTrend .exact fees).rSquared = rawRSquared fees) ∧
    (∀ slope intercept, squaredResiduals fees (analyzeTrend .exact fees).slope (trendIntercept fees) ≤
      squaredResiduals fees slope intercept) ∧
    (∀ a b, fees = affine a b fees.length → (analyzeTrend .exact fees).slope = b ∧
      (f64Epsilon < ssTot fees → rawRSquared fees = 1 ∧ (analyzeTrend .exact fees).rSquared = 1)) ∧
    (analyzeTrend .exact fees.reverse).slope = -(analyzeTrend .exact fees).slope ∧
      (analyzeTrend .exact fees.reverse).rSquared = (analyzeTrend .exact fees).rSquared := by
  refine ⟨fun htot => ⟨rawRSquared_mem h htot, analyzeTrend_rSquared_of_two_le h htot⟩,
    ssRes_le_squaredResiduals h, fun a b hline => ?_, trend_reverse h⟩
  obtain ⟨hslope, hrSquared⟩ := trend_affine h hline
  refine ⟨hslope, fun htot => ⟨?_, hrSquared htot⟩⟩
  rw [← analyzeTrend_rSquared_of_two_le h htot, hrSquared htot]

theorem analyzeTrend_laws_two :
    (analyzeTrend .exact [100, 110]).slope = 10 ∧ (analyzeTrend .exact [110, 100]).slope = -10 := by
  obtain ⟨-, -, haffine, hreverse, -⟩ := @analyzeTrend_laws [100, 110] (by decide)
  have hslope := (haffine 100 10 (by norm_num [affine, List.range_succ])).1
  exact ⟨hslope, by rw [← hslope]; exact hreverse⟩

end StellarFeeTracker
