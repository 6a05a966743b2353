import StellarFeeTracker.Api.Fees
import StellarFeeTracker.Recommendation.Engine
import StellarFeeTracker.Services.Horizon

/-!
# The recommendation endpoint

`GET /fees/recommend` asks the engine for a recommendation, drops it, and takes a percentile of the
last hundred fees itself.  It reads the fee after the one of the nearest rank, where the engine and
the fee history read that one, so they agree only where the two fees do (`percentiles_agree_iff`).
-/

namespace StellarFeeTracker

structure FeeRecommendResponse where
  recommendedFee : ℕ
  congestion : String
  basis : String
  minFee : ℕ
  avgFee : ℕ
  timestamp : String
  deriving DecidableEq, Repr

/-- The request of the endpoint to the engine. -/
def getRecommendRequest : RecommendRequest where
  targetLedgers := some 2
  urgency := some .medium
  maxFee := none

namespace GetRecommend

/-- The percentile closure of the endpoint. -/
def percentileValue (sorted : List ℕ) (pct : ℕ) : ℕ :=
  let idx := min ((pct * sorted.length + 99) / 100) (sorted.length - 1)
  sorted.getD idx 0

/-- The response from the most recent fees. -/
def respond (recent : List FeeDataPoint) (timestamp : String) :
    Except AppError FeeRecommendResponse :=
  if recent.isEmpty then
    .error (.network "No fee data available yet. Wait for the first poll cycle.")
  else
    let sorted := sortedFees recent
    let minFee := sorted.getD 0 0
    let avgFee := wrappingSumU64 sorted / sorted.length
    let ratio : ℚ := avgFee / (max minFee 1 : ℕ)
    let (congestion, basis, recommendedFee) :=
      if ratio < 3 / 2 then ("LOW", "p20", percentileValue sorted 20)
      else if ratio ≤ 3 then ("MEDIUM", "p50", percentileValue sorted 50)
      else ("HIGH", "p70", percentileValue sorted 70)
    .ok { recommendedFee, congestion, basis, minFee, avgFee, timestamp }

end GetRecommend

/-- The endpoint: the engine's own recommendation is only computed for its errors. -/
def FeeRecommendationEngine.getRecommend (engine : FeeRecommendationEngine) (text : Rfc3339)
    (cache : RecommendationCache) (call : RecommendCall) (repliedAt : DateTime) :
    RecommendationCache × List (Except Panic (Except AppError FeeRecommendResponse)) :=
  let answered := engine.recommend cache { call with request := getRecommendRequest }
  (answered.1, answered.2.map fun outcome => outcome.map fun _ =>
    GetRecommend.respond (call.store.getLastN 100) (text.toRfc3339 repliedAt))

/-! ## The percentiles -/

/-- The fee history and the engine take the same percentile. -/
theorem percentileNearestRank_eq {sorted : List ℕ} (hne : sorted ≠ []) (p : ℕ) :
    percentileNearestRank sorted p = percentileValue sorted p := by
  have hempty : ¬ sorted.isEmpty = true := by simpa using hne
  unfold percentileNearestRank percentileValue
  rw [if_neg hempty, if_neg hempty]

/-- The endpoint reads the fee after the one of the nearest rank, or the last. -/
theorem GetRecommend.percentileValue_eq (sorted : List ℕ) (p : ℕ) :
    GetRecommend.percentileValue sorted p =
      sorted.getD (min (nearestRank p sorted.length) (sorted.length - 1)) 0 := rfl

/-- The fee of a rank, counted from 1, is the last or equal to the next one. -/
def TiedWithNext (sorted : List ℕ) (rank : ℕ) : Prop :=
  rank < sorted.length → sorted.getD (rank - 1) 0 = sorted.getD rank 0

/-- The three percentiles are the same exactly when the fee of the nearest rank is the last one or
equal to the next. -/
theorem percentiles_agree_iff (sorted : List ℕ) (p : ℕ) (hne : sorted ≠ []) (hp : 1 ≤ p)
    (hp' : p ≤ 100) :
    (percentileValue sorted p = percentileNearestRank sorted p ∧
        percentileValue sorted p = GetRecommend.percentileValue sorted p) ↔
      TiedWithNext sorted ((p * sorted.length + 99) / 100) := by
  have hpos := nearestRank_pos hp (List.length_pos_iff.2 hne)
  have hle := nearestRank_le hp' sorted.length
  rw [percentileNearestRank_eq hne, percentileValue_eq hne, GetRecommend.percentileValue_eq,
    eq_self_iff_true, true_and]
  change _ ↔ TiedWithNext sorted (nearestRank p sorted.length)
  unfold TiedWithNext
  rcases hle.lt_or_eq with hlt | heq
  · have hmin : min (nearestRank p sorted.length) (sorted.length - 1) =
        nearestRank p sorted.length := by omega
    rw [hmin]
    exact ⟨fun h _ => h, fun h => h hlt⟩
  · -- at the last rank the endpoint's index is cut back
    have hmin : min (nearestRank p sorted.length) (sorted.length - 1) =
        nearestRank p sorted.length - 1 := by omega
    rw [hmin]
    exact ⟨fun _ hlt => absurd hlt heq.not_lt, fun _ => rfl⟩

/-- The greatest of two fees is the same everywhere. -/
theorem percentiles_agree_at_the_top :
    percentileValue [100, 200] 95 = GetRecommend.percentileValue [100, 200] 95 :=
  ((percentiles_agree_iff [100, 200] 95 (by decide) (by decide) (by decide)).2
    (fun h => absurd h (by decide))).2

/-- The median of two fees is the lower one for the engine, and the higher one for the endpoint. -/
theorem median_of_two_fees :
    ¬ (percentileValue [100, 200] 50 = percentileNearestRank [100, 200] 50 ∧
      percentileValue [100, 200] 50 = GetRecommend.percentileValue [100, 200] 50) := by
  decide

end StellarFeeTracker
