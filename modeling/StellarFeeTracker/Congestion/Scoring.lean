import Mathlib.Algebra.Order.Field.Basic
import Mathlib.Tactic.GCongr
import Mathlib.Tactic.NormNum
import Mathlib.Tactic.Positivity

/-!
# Congestion scoring

The score is computed over any ordered field, with the logarithm as a parameter, so that it can be
run over the rationals and stands for the exact value over the reals.
-/

namespace StellarFeeTracker.Congestion

inductive CongestionLevel where
  | low
  | moderate
  | high
  | critical
  deriving DecidableEq, Repr

/-- Trend direction for congestion scoring input. -/
inductive TrendDirection where
  | rising
  | stable
  | falling
  deriving DecidableEq, Repr

/-- Input data for the weighted congestion scoring function. -/
structure CongestionInput (K : Type*) where
  feeRatioToBaseline : K
  capacityUsage : Option K
  spikeCount : ℕ
  trend : TrendDirection

section Scoring

variable {K : Type*} [Field K] [LinearOrder K] (ln : K → K)

/-- `clamp(0.0, 1.0)`. -/
def clampToUnit (q : K) : K := max 0 (min q 1)

/-- Maps a fee ratio (current/historical baseline) to a score. -/
def feeRatioToScore (ratio : K) : K :=
  if ratio ≤ 1 then 0 else clampToUnit (ln ratio / ln 20)

def trendScore : TrendDirection → K
  | .rising => 60 / 100
  | .falling => -20 / 100
  | .stable => 0

/-- The weighted score; without a capacity usage its weight goes to the other signals. -/
def congestionScore (input : CongestionInput K) : K :=
  let feeScore := feeRatioToScore ln input.feeRatioToBaseline
  let spikeScore := clampToUnit ((input.spikeCount : K) / 10)
  let trendScore := trendScore input.trend
  clampToUnit <|
    match input.capacityUsage with
    | some capacity =>
      45 / 100 * clampToUnit capacity + 25 / 100 * feeScore + 20 / 100 * spikeScore +
        10 / 100 * trendScore
    | none => 45 / 100 * feeScore + 30 / 100 * spikeScore + 25 / 100 * trendScore

/-- Maps a congestion score to a label. -/
def congestionLabel (score : K) : CongestionLevel :=
  if score < 3 / 10 then .low
  else if score < 6 / 10 then .moderate
  else if score ≤ 85 / 100 then .high
  else .critical

end Scoring

/-! ## Monotonicity -/

/-- The place of a level in the order of the congestion. -/
def CongestionLevel.rank : CongestionLevel → ℕ
  | .low => 0
  | .moderate => 1
  | .high => 2
  | .critical => 3

/-- The place of a trend, from falling to rising. -/
def TrendDirection.rank : TrendDirection → ℕ
  | .falling => 0
  | .stable => 1
  | .rising => 2

/-- What the score needs of a logarithm: it increases from 1 on, and is positive at 20. -/
structure IsLogarithm {K : Type*} [Field K] [LinearOrder K] (ln : K → K) : Prop where
  mono : ∀ p q, 1 ≤ p → p ≤ q → ln p ≤ ln q
  twenty_pos : 0 < ln 20

section Monotone

variable {K : Type*} [Field K] [LinearOrder K] {ln : K → K}

theorem clampToUnit_mono {p q : K} (h : p ≤ q) : clampToUnit p ≤ clampToUnit q :=
  max_le_max (le_refl _) (min_le_min h (le_refl _))

theorem clampToUnit_nonneg (q : K) : 0 ≤ clampToUnit q := le_max_left _ _

theorem congestionLabel_mono {s t : K} (h : s ≤ t) :
    (congestionLabel s).rank ≤ (congestionLabel t).rank := by
  have hlow : ¬ s < 3 / 10 → ¬ t < 3 / 10 := fun hs ht => hs (h.trans_lt ht)
  have hmoderate : ¬ s < 6 / 10 → ¬ t < 6 / 10 := fun hs ht => hs (h.trans_lt ht)
  have hhigh : ¬ s ≤ 85 / 100 → ¬ t ≤ 85 / 100 := fun hs ht => hs (h.trans ht)
  unfold congestionLabel
  split_ifs <;> simp_all [CongestionLevel.rank]

variable [IsStrictOrderedRing K]

theorem feeRatioToScore_mono (hln : IsLogarithm ln) {p q : K} (h : p ≤ q) :
    feeRatioToScore ln p ≤ feeRatioToScore ln q := by
  unfold feeRatioToScore
  by_cases hp : p ≤ 1
  · rw [if_pos hp]
    split_ifs
    · exact le_refl _
    · exact clampToUnit_nonneg _
  · have hq : ¬ q ≤ 1 := fun hq => hp (h.trans hq)
    rw [if_neg hp, if_neg hq]
    apply clampToUnit_mono
    exact div_le_div_of_nonneg_right (hln.mono p q (not_le.1 hp).le h) hln.twenty_pos.le

theorem trendScore_mono {s t : TrendDirection} (h : s.rank ≤ t.rank) :
    (trendScore s : K) ≤ trendScore t := by
  cases s <;> cases t <;> simp [TrendDirection.rank] at h <;> norm_num [trendScore]

/-- A higher fee ratio and a trend that is not less rising do not lower the score. -/
theorem congestionScore_mono (hln : IsLogarithm ln) {input input' : CongestionInput K}
    (hratio : input.feeRatioToBaseline ≤ input'.feeRatioToBaseline)
    (hcapacity : input.capacityUsage = input'.capacityUsage)
    (hspikes : input.spikeCount = input'.spikeCount)
    (htrend : input.trend.rank ≤ input'.trend.rank) :
    congestionScore ln input ≤ congestionScore ln input' := by
  have hfee := feeRatioToScore_mono hln hratio
  have hdirection : (trendScore input.trend : K) ≤ trendScore input'.trend := trendScore_mono htrend
  unfold congestionScore
  rw [hcapacity, hspikes]
  apply clampToUnit_mono
  cases input'.capacityUsage with
  | some capacity =>
    dsimp only
    gcongr
  | none =>
    dsimp only
    gcongr

end Monotone

end StellarFeeTracker.Congestion
