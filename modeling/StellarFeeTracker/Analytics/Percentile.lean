import StellarFeeTracker.Numeric

/-!
# Percentiles of a sorted fee sample

The index of a percentile is taken exactly.  For the percentiles that are asked for, the index that
floats give is the same one (`ceil_toFloat_percentile_eq`).
-/

namespace StellarFeeTracker

open Binary64 (toFloat ceil_toFloat)

/-- Nearest-rank percentile of a sorted sample, 0 for an empty one. -/
def percentileNearest (sorted : List ℕ) (p : ℕ) : ℕ :=
  if sorted.isEmpty then 0
  else
    let idx := ⌈(p : ℚ) / 100 * sorted.length⌉.toNat
    sorted.getD (min (idx - 1) (sorted.length - 1)) 0

/-- The shift in percent from the long to the short percentile, both cast to floats. -/
def shiftOf (rounding : Rounding) (shortP longP : ℕ) : ℚ :=
  let shortP := rounding.round shortP
  let longP := rounding.round longP
  rounding.round (rounding.round (rounding.round (shortP - longP) / longP) * 100)

/-- The shift in percent of a percentile from the long to the short sample. -/
def percentileShift (rounding : Rounding) (shortSorted longSorted : List ℕ) (p : ℕ) : Option ℚ :=
  if shortSorted.isEmpty || longSorted.isEmpty then none
  else
    let shortP := percentileNearest shortSorted p
    let longP := percentileNearest longSorted p
    if rounding.round longP ≤ f64Epsilon then none else some (shiftOf rounding shortP longP)

/-- The rank of a percentile in a sample of a size, from 1. -/
def nearestRank (p n : ℕ) : ℕ := (p * n + 99) / 100

theorem nearestRank_pos {p n : ℕ} (hp : 1 ≤ p) (hn : 0 < n) : 0 < nearestRank p n := by
  have hproduct : 0 < p * n := Nat.mul_pos hp hn
  unfold nearestRank
  omega

theorem nearestRank_le {p : ℕ} (hp : p ≤ 100) (n : ℕ) : nearestRank p n ≤ n := by
  have hproduct : p * n ≤ 100 * n := Nat.mul_le_mul_right n hp
  unfold nearestRank
  omega

theorem nearestRank_mono {p q : ℕ} (h : p ≤ q) (n : ℕ) : nearestRank p n ≤ nearestRank q n :=
  Nat.div_le_div_right (Nat.add_le_add_right (Nat.mul_le_mul_right n h) 99)

theorem le_nearestRank (p n : ℕ) : (p : ℚ) / 100 * n ≤ nearestRank p n := by
  have hlow : p * n ≤ 100 * nearestRank p n := by unfold nearestRank; omega
  have hlow' : (p : ℚ) * n ≤ 100 * nearestRank p n := by exact_mod_cast hlow
  linarith

theorem nearestRank_le_add (p n : ℕ) :
    (nearestRank p n : ℚ) - 1 + 1 / 100 ≤ (p : ℚ) / 100 * n := by
  have hhigh : 100 * nearestRank p n + 1 ≤ p * n + 100 := by unfold nearestRank; omega
  have hhigh' : (100 : ℚ) * nearestRank p n + 1 ≤ p * n + 100 := by exact_mod_cast hhigh
  linarith

theorem ceil_percentile_eq (p n : ℕ) : ⌈(p : ℚ) / 100 * n⌉ = nearestRank p n := by
  have hlow := nearestRank_le_add p n
  rw [Int.ceil_eq_iff, Int.cast_natCast]
  exact ⟨by linarith, le_nearestRank p n⟩

/-- For the percentiles that are asked for, the index in floats is the exact one. -/
theorem ceil_toFloat_percentile_eq {p n : ℕ} (hp : p ∈ [30, 50, 60, 80, 95]) (hn : n ≤ 2 ^ 44) :
    ⌈toFloat (toFloat ((p : ℚ) / 100) * n)⌉ = ⌈(p : ℚ) / 100 * n⌉ := by
  have hquotients : ∀ p ∈ ([30, 50, 60, 80, 95] : List ℕ),
      (p : ℚ) / 100 * (1 - 1 / 2 ^ 53) ≤ toFloat ((p : ℚ) / 100) ∧
        toFloat ((p : ℚ) / 100) ≤ (p : ℚ) / 100 * (1 + 1 / 2 ^ 54) ∧ p ≤ 100 := by
    decide +kernel
  obtain ⟨hlow, hhigh, hp100⟩ := hquotients p hp
  have hrank : nearestRank p n ≤ 2 ^ 44 := (nearestRank_le hp100 n).trans hn
  have hrank' : (nearestRank p n : ℚ) ≤ 2 ^ 44 := by exact_mod_cast hrank
  have hn0 : (0 : ℚ) ≤ n := Nat.cast_nonneg n
  have hle := le_nearestRank p n
  have hge := nearestRank_le_add p n
  rw [ceil_percentile_eq]
  refine ceil_toFloat hrank ?_ ?_
  · calc (nearestRank p n : ℚ) - 1 + 1 / 2 ^ 8
        ≤ (p : ℚ) / 100 * n - 1 / 2 ^ 53 * ((p : ℚ) / 100 * n) := by linarith
      _ = (p : ℚ) / 100 * (1 - 1 / 2 ^ 53) * n := by ring
      _ ≤ toFloat ((p : ℚ) / 100) * n := mul_le_mul_of_nonneg_right hlow hn0
  · calc toFloat ((p : ℚ) / 100) * n
        ≤ (p : ℚ) / 100 * (1 + 1 / 2 ^ 54) * n := mul_le_mul_of_nonneg_right hhigh hn0
      _ = (p : ℚ) / 100 * n * (1 + 1 / 2 ^ 54) := by ring
      _ ≤ nearestRank p n * (1 + 1 / 2 ^ 54) := mul_le_mul_of_nonneg_right hle (by norm_num)

/-- The percentile of a nonempty sample is the fee of the nearest rank. -/
theorem percentileNearest_eq {sorted : List ℕ} (hne : sorted ≠ []) {p : ℕ} (hp : p ≤ 100) :
    percentileNearest sorted p = sorted.getD (nearestRank p sorted.length - 1) 0 := by
  have hempty : ¬ sorted.isEmpty = true := by simpa using hne
  have hrank := nearestRank_le hp sorted.length
  have hmin : min (nearestRank p sorted.length - 1) (sorted.length - 1) =
      nearestRank p sorted.length - 1 := by omega
  unfold percentileNearest
  rw [if_neg hempty]
  simp only [ceil_percentile_eq, Int.toNat_natCast, hmin]

end StellarFeeTracker
