import StellarFeeTracker.Insights.Types

/-!
# Requests and responses of the recommendation engine
-/

namespace StellarFeeTracker

structure RecommendationConfig where
  defaultConfidence : ℚ
  defaultLedgers : ℕ
  historyWindowSecs : ℕ
  cacheTtlSecs : ℕ
  minSampleCount : ℕ
  deriving DecidableEq, Repr

def RecommendationConfig.default : RecommendationConfig where
  defaultConfidence := 95 / 100
  defaultLedgers := 2
  historyWindowSecs := 10800
  cacheTtlSecs := 10
  minSampleCount := 10

inductive Urgency where
  | low
  | medium
  | high
  | urgent
  deriving DecidableEq, Repr

structure RecommendRequest where
  targetLedgers : Option ℕ
  urgency : Option Urgency
  maxFee : Option String
  deriving DecidableEq, Repr

structure FeeAlternative where
  fee : String
  estimatedWaitLedgers : ℕ
  confidence : ℚ
  label : String
  deriving DecidableEq, Repr

structure RecommendationExplanation where
  shortWindowPct : ℕ
  longWindowPct : ℕ
  shortWindowSize : String
  longWindowSize : String
  shortWindowMedian : ℕ
  longWindowMedian : ℕ
  percentileShift : ℚ
  adjustmentApplied : ℚ
  adjustmentReason : String
  deriving DecidableEq, Repr

structure RecommendResponse where
  recommendedFee : String
  feeInStroops : ℕ
  estimatedWaitLedgers : ℕ
  confidence : ℚ
  networkCondition : String
  alternatives : List FeeAlternative
  coldStart : Bool
  dataQuality : Option DataQuality
  explanation : Option RecommendationExplanation
  deriving DecidableEq, Repr

end StellarFeeTracker
