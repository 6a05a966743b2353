import StellarFeeTracker.General.OrderStatistic
import StellarFeeTracker.Recommendation.Engine

/-!
# The nearest rank

A percentile is the least fee that the given share of the sample does not exceed.
-/

namespace StellarFeeTracker

/-- The index that `percentile_value` reads in a sample of `n` fees. -/
def percentileIndex (percentile n : ℕ) : ℕ := max ((percentile * n + 99) / 100) 1 - 1

theorem percentileValue_eq_index {sorted : List ℕ} (hne : sorted ≠ []) (percentile : ℕ) :
    percentileValue sorted percentile =
      sorted.getD (percentileIndex percentile sorted.length) 0 := by
  have hempty : ¬ sorted.isEmpty = true := by simpa using hne
  unfold percentileValue
  rw [if_neg hempty]
  rfl

/-- More elements than the index are as many as the percentage asks for. -/
theorem percentileIndex_lt_iff {p n : ℕ} (hp : 1 ≤ p) (hn : 0 < n) (count : ℕ) :
    percentileIndex p n < count ↔ p * n ≤ 100 * count := by
  have hpositive : 0 < p * n := Nat.mul_pos hp hn
  unfold percentileIndex
  omega

theorem percentileIndex_lt {p n : ℕ} (hp : 1 ≤ p) (hp' : p ≤ 100) (hn : 0 < n) :
    percentileIndex p n < n :=
  (percentileIndex_lt_iff hp hn n).2 (Nat.mul_le_mul_right n hp')

theorem percentileIndex_mono {p q : ℕ} (h : p ≤ q) (n : ℕ) :
    percentileIndex p n ≤ percentileIndex q n := by
  have hproduct : p * n ≤ q * n := Nat.mul_le_mul_right n h
  unfold percentileIndex
  omega

/-- The percentile of a sorted sample is the least fee with a share of the sample up to it, and a
higher percentile is no smaller. -/
theorem percentileValue_nearestRank {sorted : List ℕ} (hne : sorted ≠ [])
    (hsorted : sorted.SortedLE) {p : ℕ} (hlow : 1 ≤ p) (hhigh : p ≤ 100) :
    IsLeast {x | x ∈ sorted ∧ p * sorted.length ≤ 100 * sorted.countP fun y => y ≤ x}
        (percentileValue sorted p) ∧
      (percentileIndex p sorted.length < sorted.length ∧
        sorted[percentileIndex p sorted.length]? = some (percentileValue sorted p)) ∧
      (∀ q, p ≤ q → q ≤ 100 → percentileValue sorted p ≤ percentileValue sorted q) ∧
      percentileValue sorted p = percentileNearest sorted p := by
  have hlength := List.length_pos_iff.2 hne
  have hindex := percentileIndex_lt hlow hhigh hlength
  refine ⟨?_, ⟨hindex, ?_⟩, fun q hpq hq => ?_, ?_⟩
  · rw [percentileValue_eq_index hne]
    simp only [← percentileIndex_lt_iff hlow hlength]
    exact OrderStatistic.isLeast_getD hsorted hindex 0
  · rw [percentileValue_eq_index hne, List.getD_eq_getElem sorted 0 hindex]
    exact List.getElem?_eq_getElem hindex
  · rw [percentileValue_eq_index hne, percentileValue_eq_index hne]
    exact OrderStatistic.getD_le_getD hsorted (percentileIndex_mono hpq _)
      (percentileIndex_lt (hlow.trans hpq) hq hlength) 0
  · rw [percentileValue_eq hne, percentileNearest_eq hne hhigh]

/-- Of three fees with a tie the median is the tied one. -/
theorem percentileValue_nearestRank_tie :
    IsLeast {x | x ∈ [100, 100, 300] ∧ 50 * 3 ≤ 100 * [100, 100, 300].countP fun y => y ≤ x} 100 ∧
      percentileNearest [100, 100, 300] 50 = 100 := by
  obtain ⟨hleast, -, -, hsame⟩ := @percentileValue_nearestRank [100, 100, 300] (by decide)
    (by decide) 50 (by decide) (by decide)
  exact ⟨hleast, hsame.symm⟩

end StellarFeeTracker
