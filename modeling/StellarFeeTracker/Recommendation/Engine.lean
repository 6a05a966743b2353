import StellarFeeTracker.Analytics.Percentile
import StellarFeeTracker.Analytics.Trend
import StellarFeeTracker.Insights.Engine
import StellarFeeTracker.Middleware.Validation
import StellarFeeTracker.Recommendation.Cache
import StellarFeeTracker.Store
import Mathlib.Data.List.Sort

/-!
# Fee recommendation engine

`recommend` answers a request from the cache or computes the answer from the fees in the history
window: too few of them make a cold start, otherwise `warmRecommendation` takes a percentile,
adjusts it by the shift between a short and the long window and caps it.  A request reads the wall
clock once.
-/

namespace StellarFeeTracker

def urgencyToLabel : Urgency → String
  | .low => "low"
  | .medium => "medium"
  | .high => "high"
  | .urgent => "urgent"

def urgencyPercentile : Urgency → ℕ
  | .low => 30
  | .medium => 60
  | .high => 80
  | .urgent => 95

/-- Nearest-rank percentile of a sorted sample, 100 for an empty one. -/
def percentileValue (sorted : List ℕ) (percentile : ℕ) : ℕ :=
  if sorted.isEmpty then 100
  else
    let n := sorted.length
    let rank := max ((percentile * n + 99) / 100) 1
    sorted.getD (rank - 1) 0

theorem percentileValue_eq {sorted : List ℕ} (hne : sorted ≠ []) (p : ℕ) :
    percentileValue sorted p = sorted.getD (nearestRank p sorted.length - 1) 0 := by
  have hempty : ¬ sorted.isEmpty = true := by simpa using hne
  have hrank : max (nearestRank p sorted.length) 1 - 1 = nearestRank p sorted.length - 1 := by omega
  unfold percentileValue
  rw [if_neg hempty, ← hrank]
  rfl

/-! ## Confidence -/

/-- The probability that a fee is included within the target number of ledgers. -/
def estimateInclusionProbability (candidateFee : ℕ) (sortedFees : List ℕ) (targetLedgers : ℕ) : ℚ :=
  if sortedFees.isEmpty then 1 / 2
  else
    let belowOrEqual := sortedFees.countP fun f => f ≤ candidateFee
    let pOne : ℚ := belowOrEqual / sortedFees.length
    if targetLedgers ≤ 1 then clampUnit pOne else clampUnit (1 - (1 - pOne) ^ targetLedgers)

/-- The loop of `find_fee_for_confidence` for at most so many rounds: it ends where `lo` meets
`hi`. -/
def searchConfidence (sortedFees : List ℕ) (targetConfidence : ℚ) (targetLedgers : ℕ) :
    ℕ → ℕ → ℕ → ℕ
  | 0, lo, _ => lo
  | rounds + 1, lo, hi =>
    if lo < hi then
      let mid := lo + (hi - lo) / 2
      let prob := estimateInclusionProbability (sortedFees.getD mid 0) sortedFees targetLedgers
      if targetConfidence ≤ prob then
        searchConfidence sortedFees targetConfidence targetLedgers rounds lo mid
      else searchConfidence sortedFees targetConfidence targetLedgers rounds (mid + 1) hi
    else lo

/-- The smallest sampled fee that reaches the target confidence, with the confidence it has. -/
def findFeeForConfidence (sortedFees : List ℕ) (targetConfidence : ℚ) (targetLedgers : ℕ) : ℕ × ℚ :=
  if sortedFees.isEmpty then (100, 0)
  else
    let lo := searchConfidence sortedFees targetConfidence targetLedgers sortedFees.length 0
      (sortedFees.length - 1)
    let fee := sortedFees.getD lo 0
    let achieved := estimateInclusionProbability fee sortedFees targetLedgers
    if targetConfidence ≤ achieved then (fee, achieved)
    else
      let extrapolated := asU64 (percentileValue sortedFees 99 * (11 / 10))
      (extrapolated, estimateInclusionProbability extrapolated sortedFees targetLedgers)

def generateAlternatives (sortedFees : List ℕ) : List FeeAlternative :=
  [("economy", 70 / 100, 5), ("standard", 90 / 100, 2), ("fast", 99 / 100, 1)].map
    fun (label, confidence, ledgers) =>
      let found := findFeeForConfidence sortedFees confidence ledgers
      { fee := toString found.1
        estimatedWaitLedgers := ledgers
        confidence := found.2
        label }

def estimateWaitLedgers (fee : ℕ) (recentFees : List ℕ) (target : ℕ) : ℕ :=
  let p50 := percentileValue recentFees 50
  let p90 := percentileValue recentFees 90
  if p90 ≤ fee then min 1 target
  else if p50 ≤ fee then min 2 target
  else max (min 5 target) 1

/-! ## The explanation -/

/-- The adjustment for a percentile shift, and the reason for it. -/
def adjustmentForShift (rounding : Rounding) (shift : ℚ) : ℚ × String :=
  if 30 < shift then
    (125 / 100, "Short-term fees " ++ toString (roundHalfAway shift) ++
      "% above long-term baseline — network heating up")
  else if 10 < shift then
    (rounding.round (110 / 100), "Short-term fees " ++ toString (roundHalfAway shift) ++
      "% above long-term baseline — moderate pressure")
  else if shift < -15 then
    (rounding.round (92 / 100), "Short-term fees " ++ toString (roundHalfAway |shift|) ++
      "% below long-term baseline — fees cooling down")
  else
    (1, "Short-term fees within normal range of long-term baseline (" ++ signedWhole shift ++ "%)")

/-- The note on a clear short-term trend that is appended to the reason. -/
def trendNote (trend : TrendAnalysis) (direction : String) : String :=
  "; short-term trend is " ++ direction ++ " (slope=" ++ twoDecimals trend.slope ++ ", R²=" ++
    twoDecimals trend.rSquared ++ ")"

/-- The note of a trend that is clear and goes up or down, nothing otherwise. -/
def trendSuffix (rounding : Rounding) (trend : TrendAnalysis) : String :=
  if rounding.round (6 / 10) < trend.rSquared then
    match trend.direction with
    | .upward => trendNote trend "upward"
    | .downward => trendNote trend "downward"
    | .sideways => ""
  else ""

def computeExplanation (rounding : Rounding) (config : RecommendationConfig)
    (shortSorted longSorted : List ℕ) (percentile shortWindowSecs : ℕ) :
    Option RecommendationExplanation :=
  if shortSorted.isEmpty || longSorted.isEmpty then none
  else
    (percentileShift rounding shortSorted longSorted percentile).map fun shift =>
      let adjustment := adjustmentForShift rounding shift
      let trend := analyzeTrend rounding (asFloats rounding shortSorted)
      { shortWindowPct := percentile
        longWindowPct := percentile
        shortWindowSize := toString shortWindowSecs ++ "s"
        longWindowSize := toString config.historyWindowSecs ++ "s"
        shortWindowMedian := percentileNearest shortSorted 50
        longWindowMedian := percentileNearest longSorted 50
        percentileShift := shift
        adjustmentApplied := adjustment.1
        adjustmentReason := adjustment.2 ++ trendSuffix rounding trend }

def multiWindowAdjustment (rounding : Rounding) (baseFee : ℕ)
    (explanation : RecommendationExplanation) : ℕ :=
  asU64 (rounding.round (rounding.round baseFee * explanation.adjustmentApplied))

/-! ## Recommendations -/

/-- A request as the engine receives it: with the store and the insights engine as they are, the
wall clock, and the monotonic clock at the lookup in the cache and at the write to it. -/
structure RecommendCall where
  request : RecommendRequest
  store : FeeHistoryStore
  insightsEngine : Option FeeInsightsEngine
  now : DateTime
  lookupAt : ℤ
  storeAt : ℤ

/-- The fees of the long and the short window, or why there are none. -/
inductive FeeSample where
  /-- Fewer than `min_sample_count` points. -/
  | tooFew
  /-- No points, and none are needed. -/
  | empty
  | fees (long short : List ℕ)
  deriving DecidableEq, Repr

def detectNetworkCondition (call : RecommendCall) : String :=
  match call.insightsEngine with
  | some engine =>
    match (engine.getCurrentInsights call.now).congestionTrends.currentTrend with
    | .normal => "normal"
    | .rising => "rising"
    | .congested => "congested"
    | .declining => "declining"
  | none => "unknown"

def getDataQuality (call : RecommendCall) : DataQuality :=
  match call.insightsEngine with
  | some engine => (engine.getCurrentInsights call.now).dataQuality
  | none => { completeness := 0, freshness := 0, hasGaps := true, lastGap := none }

/-- The fee of a cold start. -/
def fallbackFee : Urgency → ℕ
  | .low => 100
  | .medium => 500
  | .high => 1000
  | .urgent => 5000

def fallbackRecommendation (targetLedgers : ℕ) (urgency : Urgency) : RecommendResponse :=
  let baseFee := fallbackFee urgency
  { recommendedFee := toString baseFee
    feeInStroops := baseFee
    estimatedWaitLedgers := targetLedgers
    confidence := 85 / 100
    networkCondition := "unknown"
    alternatives := [
      { fee := "100"
        estimatedWaitLedgers := max targetLedgers 5
        confidence := 9 / 10
        label := "economy" },
      { fee := toString baseFee
        estimatedWaitLedgers := targetLedgers
        confidence := 95 / 100
        label := "standard" }]
    coldStart := true
    dataQuality := none
    explanation := none }

namespace RecommendRequest

variable (request : RecommendRequest)

/-- The target of the request, clamped to `1..=MAX_TARGET_LEDGERS`. -/
def target (config : RecommendationConfig) : ℕ :=
  max 1 (min (request.targetLedgers.getD config.defaultLedgers) maxTargetLedgers)

def urgencyOrDefault : Urgency := request.urgency.getD .medium

/-- The cap of the request, if it parses. -/
def cap : Option ℕ := request.maxFee.bind parseU64

end RecommendRequest

/-- The smaller of a fee and the cap, if there is one. -/
def capFee (fee : ℕ) (cap : Option ℕ) : ℕ :=
  match cap with
  | some max => min fee max
  | none => fee

/-- What a recommendation engine is built with.  The explanation and the adjusted fee are computed in
floats; a statement about exact arithmetic takes the engine that rounds nothing. -/
structure FeeRecommendationEngine where
  config : RecommendationConfig
  rounding : Rounding := .binary64

namespace FeeRecommendationEngine

variable (engine : FeeRecommendationEngine)

/-- Normalize key for cache lookup. -/
def cacheKey (call : RecommendCall) : CacheKey :=
  (call.request.target engine.config, urgencyToLabel call.request.urgencyOrDefault,
    detectNetworkCondition call)

def shortWindowSecs : ℕ := max (engine.config.historyWindowSecs / 12) 300

/-- Read the long window, and the short one if the long one has points enough. -/
def readSample (store : FeeHistoryStore) (now : DateTime) : Except Panic FeeSample := do
  let since ← DateTime.trySub now (← trySeconds (asI64 engine.config.historyWindowSecs))
  let recentPoints := store.getSince since
  if recentPoints.length < engine.config.minSampleCount then
    return .tooFew
  else if recentPoints.isEmpty then
    return .empty
  else
    let shortSince ← DateTime.trySub now (← trySeconds (asI64 engine.shortWindowSecs))
    let shortPoints := store.getSince shortSince
    return .fees (recentPoints.map (·.feeAmount)) (shortPoints.map (·.feeAmount))

/-- The adjusted fee before the cap, with its explanation. -/
def uncappedFee (urgency : Urgency) (sorted shortSorted : List ℕ) :
    ℕ × Option RecommendationExplanation :=
  let percentile := urgencyPercentile urgency
  let baseFee := percentileValue sorted percentile
  let explanation := computeExplanation engine.rounding engine.config shortSorted sorted percentile
    engine.shortWindowSecs
  match explanation with
  | some exp => (multiWindowAdjustment engine.rounding baseFee exp, explanation)
  | none => (baseFee, explanation)

def warmRecommendation (call : RecommendCall) (fees shortFees : List ℕ) : RecommendResponse :=
  let targetLedgers := call.request.target engine.config
  let sorted := fees.insertionSort (· ≤ ·)
  let shortSorted := shortFees.insertionSort (· ≤ ·)
  let adjusted := engine.uncappedFee call.request.urgencyOrDefault sorted shortSorted
  let finalFee := capFee adjusted.1 call.request.cap
  { recommendedFee := toString finalFee
    feeInStroops := finalFee
    estimatedWaitLedgers := estimateWaitLedgers finalFee sorted targetLedgers
    confidence := estimateInclusionProbability finalFee sorted targetLedgers
    networkCondition := detectNetworkCondition call
    alternatives := generateAlternatives sorted
    coldStart := false
    dataQuality := some (getDataQuality call)
    explanation := adjusted.2 }

def newCache : RecommendationCache := RecommendationCache.new 10

/-- Answer a request, from the cache if it holds a live response under the key. -/
def recommend (cache : RecommendationCache) (call : RecommendCall) :
    RecommendationCache × List (Except Panic RecommendResponse) :=
  let targetLedgers := call.request.target engine.config
  let urgency := call.request.urgencyOrDefault
  let key := engine.cacheKey call
  match cache.get key call.lookupAt with
  | some cached => (cache, [.ok cached])
  | none =>
    match engine.readSample call.store call.now with
    | .error panic => (cache, [.error panic])
    | .ok .tooFew =>
      let result := fallbackRecommendation targetLedgers urgency
      (cache.set key result call.storeAt, [.ok result])
    | .ok .empty => (cache, [.ok (fallbackRecommendation targetLedgers urgency)])
    | .ok (.fees long short) =>
      let result := engine.warmRecommendation call long short
      (cache.set key result call.storeAt, [.ok result])

end FeeRecommendationEngine

end StellarFeeTracker
