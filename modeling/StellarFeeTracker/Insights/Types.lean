import StellarFeeTracker.Chrono
import Mathlib.Data.Rat.Defs

/-!
# Core data types for fee insights

Floating-point values are modelled by rationals, so every computation on them is exact.
-/

namespace StellarFeeTracker

/-- A single fee data point from the blockchain. -/
structure FeeDataPoint where
  feeAmount : ℕ
  timestamp : DateTime
  transactionHash : String
  ledgerSequence : ℕ
  deriving DecidableEq, Repr

/-- Time window configuration. -/
structure TimeWindow where
  name : String
  duration : Duration
  minSamples : ℕ
  deriving DecidableEq, Repr

/-- Result of a rolling average calculation. -/
structure AverageResult where
  value : ℚ
  sampleCount : ℕ
  isPartial : Bool
  calculatedAt : DateTime
  timeWindow : TimeWindow
  deriving DecidableEq, Repr

/-- Rolling averages across different time windows. -/
structure RollingAverages where
  shortTerm : AverageResult
  mediumTerm : AverageResult
  longTerm : AverageResult
  deriving DecidableEq, Repr

/-- An extreme fee value with metadata. -/
structure ExtremeValue where
  value : ℕ
  timestamp : DateTime
  transactionHash : String
  deriving DecidableEq, Repr

/-- Fee extremes (min/max) tracking. -/
structure FeeExtremes where
  currentMin : ExtremeValue
  currentMax : ExtremeValue
  periodStart : DateTime
  periodEnd : DateTime
  deriving DecidableEq, Repr

/-- Severity classification for fee spikes. -/
inductive SpikeSeverity where
  | minor
  | moderate
  | major
  | critical
  deriving DecidableEq, Repr

/-- A detected fee spike. -/
structure FeeSpike where
  peakFee : ℕ
  baselineFee : ℚ
  spikeRatio : ℚ
  startTime : DateTime
  duration : Duration
  severity : SpikeSeverity
  deriving DecidableEq, Repr

/-- Trend indicator for congestion. -/
inductive TrendIndicator where
  | normal
  | rising
  | congested
  | declining
  deriving DecidableEq, Repr

/-- Unified congestion level. -/
inductive CongestionLevel where
  | low
  | moderate
  | high
  | critical
  deriving DecidableEq, Repr

/-- The congestion level of a trend indicator. -/
def CongestionLevel.fromTrend : TrendIndicator → CongestionLevel
  | .normal => .low
  | .rising => .moderate
  | .congested => .high
  | .declining => .low

/-- Strength of a congestion trend. -/
inductive TrendStrength where
  | weak
  | moderate
  | strong
  deriving DecidableEq, Repr

/-- Congestion trend analysis results. -/
structure CongestionTrends where
  currentTrend : TrendIndicator
  congestionLevel : CongestionLevel
  recentSpikes : List FeeSpike
  trendStrength : TrendStrength
  predictedDuration : Option Duration
  deriving DecidableEq, Repr

/-- Data quality indicators. -/
structure DataQuality where
  completeness : ℚ
  freshness : Duration
  hasGaps : Bool
  lastGap : Option DateTime
  deriving DecidableEq, Repr

/-- Complete insights data structure. -/
structure CurrentInsights where
  rollingAverages : RollingAverages
  extremes : FeeExtremes
  congestionTrends : CongestionTrends
  lastUpdated : DateTime
  dataQuality : DataQuality
  deriving DecidableEq, Repr

/-- Update result from processing fee data. -/
structure InsightsUpdate where
  insights : CurrentInsights
  dataPointsProcessed : ℕ
  deriving DecidableEq, Repr

/-- The recent spikes of an update. -/
abbrev InsightsUpdate.recentSpikes (update : InsightsUpdate) : List FeeSpike :=
  update.insights.congestionTrends.recentSpikes

end StellarFeeTracker
