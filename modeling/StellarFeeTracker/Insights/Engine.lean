import StellarFeeTracker.Insights.Calculator
import StellarFeeTracker.Insights.Detector
import StellarFeeTracker.Insights.Tracker
import Mathlib.Algebra.Order.Field.Rat

/-!
# Fee insights engine

`processFeeData` returns the engine as it is after the call, also when the call fails.  A call reads
the clock once.
-/

namespace StellarFeeTracker

/-- Central fee insights engine that orchestrates all analysis operations. -/
structure FeeInsightsEngine where
  config : InsightsConfig
  calculator : RollingAverageCalculator
  tracker : ExtremesTracker
  detector : CongestionDetector
  lastUpdate : Option DateTime
  lastInsights : Option CurrentInsights

namespace FeeInsightsEngine

def new (config : InsightsConfig) (now : DateTime) : FeeInsightsEngine where
  config := config
  calculator := .new .default config.timeWindows
  tracker := .new .default now
  detector := .new config.spikeDetection
  lastUpdate := none
  lastInsights := none

/-- The first thing wrong with a fee point, if any. -/
def checkFeePoint (now : DateTime) (i : ℕ) (feePoint : FeeDataPoint) : Option InvalidData :=
  if feePoint.feeAmount = 0 then some (.zeroFee i)
  else if 1000000000 < feePoint.feeAmount then some (.largeFee feePoint.feeAmount i)
  else if feePoint.transactionHash.isEmpty then some (.emptyHash i)
  else if now + hours 1 < feePoint.timestamp then some (.futureTimestamp i feePoint.timestamp)
  else none

/-- Validate fee data for basic correctness. -/
def validateFeeData (now : DateTime) (data : List FeeDataPoint) : Except InsightsError Unit :=
  match data.zipIdx.findSome? fun (feePoint, i) => checkFeePoint now i feePoint with
  | some reason => .error (.invalidData reason)
  | none => .ok ()

/-- Create default extremes when no data is available. -/
def createDefaultExtremes (now : DateTime) : FeeExtremes :=
  let defaultExtreme : ExtremeValue := { value := 100, timestamp := now, transactionHash := "unknown" }
  { currentMin := defaultExtreme, currentMax := defaultExtreme, periodStart := now, periodEnd := now }

/-- Create default rolling averages when no data is available. -/
def createDefaultRollingAverages (now : DateTime) : RollingAverages :=
  let defaultResult : AverageResult :=
    { value := 100
      sampleCount := 0
      isPartial := true
      calculatedAt := now
      timeWindow := { name := "default", duration := hours 1, minSamples := 1 } }
  { shortTerm := defaultResult, mediumTerm := defaultResult, longTerm := defaultResult }

variable (engine : FeeInsightsEngine)

/-- Estimate expected number of data points based on polling interval, which is at least a second. -/
def estimateExpectedDataPoints (now : DateTime) : ℕ :=
  match engine.lastUpdate with
  | some last =>
    let intervals := (Duration.numSeconds (now - last)).tdiv
      (Duration.numSeconds engine.config.pollingInterval)
    (max intervals 1).toNat
  | none => 1

/-- Calculate data quality metrics. -/
def calculateDataQuality (data : List FeeDataPoint) (processingTime : DateTime) : DataQuality :=
  let expectedPoints := engine.estimateExpectedDataPoints processingTime
  let hasGaps :=
    data.isEmpty || data.any fun point => hours 1 < processingTime - point.timestamp
  { completeness := if 0 < expectedPoints then min (data.length / expectedPoints) 1 else 1
    freshness :=
      match engine.lastUpdate with
      | some last => processingTime - last
      | none => 0
    hasGaps
    lastGap := if hasGaps then some processingTime else none }

/-- Process new fee data and update insights. -/
def processFeeData (now : DateTime) (data : List FeeDataPoint) :
    FeeInsightsEngine × Except InsightsError InsightsUpdate :=
  if data.isEmpty then (engine, .error (.invalidData .noData))
  else
    match validateFeeData now data with
    | .error err => (engine, .error err)
    | .ok () =>
      let engine :=
        { engine with
          calculator := data.foldl (fun c p => c.addDataPoint now p) engine.calculator
          tracker := engine.tracker.updateWithFees now data }
      match engine.calculator.calculateAverages now with
      | .error err => (engine, .error err)
      | .ok rollingAverages =>
        -- the medium-term average is the baseline for congestion detection
        let analyzed := engine.detector.analyzeCongestion now data rollingAverages.mediumTerm.value
        let engine := { engine with detector := analyzed.1 }
        match analyzed.2 with
        | .error err => (engine, .error err)
        | .ok congestionTrends =>
          let extremes :=
            match engine.tracker.getCurrentExtremes with
            | .ok extremes => extremes
            | .error _ => createDefaultExtremes now
          let insights : CurrentInsights :=
            { rollingAverages
              extremes
              congestionTrends
              lastUpdated := now
              dataQuality := engine.calculateDataQuality data now }
          ({ engine with lastUpdate := some now, lastInsights := some insights },
            .ok { insights, dataPointsProcessed := data.length })

/-- Get rolling averages. -/
def getRollingAverages (now : DateTime) : RollingAverages :=
  match engine.calculator.calculateAverages now with
  | .ok averages => averages
  | .error _ => createDefaultRollingAverages now

/-- Get fee extremes. -/
def getExtremes (now : DateTime) : FeeExtremes :=
  match engine.tracker.getCurrentExtremes with
  | .ok extremes => extremes
  | .error _ => createDefaultExtremes now

/-- Get congestion trends. -/
def getCongestionTrends : CongestionTrends where
  currentTrend := .normal
  congestionLevel := .low
  recentSpikes := engine.detector.getRecentSpikes
  trendStrength := engine.detector.calculateTrendStrength
  predictedDuration := none

/-- Get current insights: those of the last update, or defaults. -/
def getCurrentInsights (now : DateTime) : CurrentInsights :=
  match engine.lastInsights with
  | some insights => insights
  | none =>
    { rollingAverages := engine.getRollingAverages now
      extremes := engine.getExtremes now
      congestionTrends := engine.getCongestionTrends
      lastUpdated := engine.lastUpdate.getD now
      dataQuality := { completeness := 1, freshness := 0, hasGaps := false, lastGap := none } }

end FeeInsightsEngine

end StellarFeeTracker
