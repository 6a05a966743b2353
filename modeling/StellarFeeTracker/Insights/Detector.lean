import StellarFeeTracker.Insights.Config
import StellarFeeTracker.Numeric
import Mathlib.Data.List.Sort

/-!
# Congestion detection
-/

namespace StellarFeeTracker

open Binary64 (toFloat)

/-! ## Trend patterns -/

/-- Analyzer for trend patterns, over the recent spikes in the order in which they were added. -/
structure TrendAnalyzer where
  recentSpikes : List FeeSpike
  congestionWindow : Duration
  deriving DecidableEq, Repr

namespace TrendAnalyzer

def new (congestionWindow : Duration) : TrendAnalyzer where
  recentSpikes := []
  congestionWindow := congestionWindow

variable (analyzer : TrendAnalyzer)

/-- Remove the spikes at the front that started before the congestion window. -/
def cleanOldSpikes (now : DateTime) : TrendAnalyzer :=
  { analyzer with
    recentSpikes := analyzer.recentSpikes.dropWhile fun s =>
      s.startTime < now - analyzer.congestionWindow }

def addSpike (now : DateTime) (spike : FeeSpike) : TrendAnalyzer :=
  cleanOldSpikes { analyzer with recentSpikes := analyzer.recentSpikes ++ [spike] } now

def severityScore : SpikeSeverity → ℚ
  | .minor => 1
  | .moderate => 2
  | .major => 4
  | .critical => 8

def calculateTrendStrength : TrendStrength :=
  let spikeCount := analyzer.recentSpikes.length
  let totalSeverityScore := (analyzer.recentSpikes.map fun s => severityScore s.severity).sum
  let strengthScore := totalSeverityScore + spikeCount * (1 / 2)
  if 10 ≤ strengthScore then .strong
  else if 4 ≤ strengthScore then .moderate
  else .weak

/-- Three or more spikes are judged by the ratios of the last two against the others, fewer by the
severity of the last. -/
def determineTrendIndicator : TrendIndicator :=
  let spikes := analyzer.recentSpikes
  let spikeCount := spikes.length
  if 3 ≤ spikeCount then
    let avgRecentRatio := ((spikes.reverse.take 2).map (·.spikeRatio)).sum / 2
    let avgOlderRatio :=
      ((spikes.take (spikeCount - 2)).map (·.spikeRatio)).sum / ((spikeCount - 2 : ℕ) : ℚ)
    if avgOlderRatio * (12 / 10) < avgRecentRatio then .rising
    else if avgRecentRatio < avgOlderRatio * (8 / 10) then .declining
    else .congested
  else
    match spikes.getLast? with
    | none => .normal
    | some latestSpike =>
      match latestSpike.severity with
      | .critical | .major => .congested
      | .minor | .moderate => .rising

def predictDuration : Option Duration :=
  if analyzer.recentSpikes.isEmpty then none
  else
    let avgDuration := (analyzer.recentSpikes.map fun s => Duration.numMinutes s.duration).sum.tdiv
      analyzer.recentSpikes.length
    let multiplier : ℚ :=
      match analyzer.calculateTrendStrength with
      | .strong => 2
      | .moderate => 3 / 2
      | .weak => 1
    some (minutes (trunc (avgDuration * multiplier)))

end TrendAnalyzer

/-! ## The detector -/

/-- Detector for network congestion through fee spike analysis. -/
structure CongestionDetector where
  config : SpikeConfig
  trendAnalyzer : TrendAnalyzer
  historicalSpikes : List FeeSpike
  deriving DecidableEq, Repr

namespace CongestionDetector

def new (config : SpikeConfig) : CongestionDetector where
  config := config
  trendAnalyzer := .new config.congestionWindow
  historicalSpikes := []

variable (detector : CongestionDetector)

/-- The severity of a spike based on its ratio to the baseline. -/
def classifySpikeSeverity (spikeRatio : ℚ) : SpikeSeverity :=
  if 10 ≤ spikeRatio then .critical
  else if 5 ≤ spikeRatio then .major
  else if 3 ≤ spikeRatio then .moderate
  else .minor

/-- A fee by the baseline, both floats. -/
def feeRatio (baseline : ℚ) (feeAmount : ℕ) : ℚ := toFloat (toFloat feeAmount / baseline)

/-- The fee from which on a point belongs to a spike. -/
def spikeThreshold (baseline : ℚ) : ℚ := toFloat (baseline * detector.config.thresholdMultiplier)

/-- A spike that starts with this point. -/
def startSpike (baseline : ℚ) (feePoint : FeeDataPoint) : FeeSpike where
  peakFee := feePoint.feeAmount
  baselineFee := baseline
  spikeRatio := feeRatio baseline feePoint.feeAmount
  startTime := feePoint.timestamp
  duration := 0
  severity := classifySpikeSeverity (feeRatio baseline feePoint.feeAmount)

/-- The spike continued by a point at or above the threshold. -/
def continueSpike (baseline : ℚ) (spike : FeeSpike) (feePoint : FeeDataPoint) : FeeSpike :=
  let spike :=
    if spike.peakFee < feePoint.feeAmount then
      { spike with
        peakFee := feePoint.feeAmount
        spikeRatio := feeRatio baseline feePoint.feeAmount
        severity := classifySpikeSeverity (feeRatio baseline feePoint.feeAmount) }
    else spike
  { spike with duration := feePoint.timestamp - spike.startTime }

/-- Record a spike that ends at an instant, if it lasted for the minimum duration. -/
def endSpike (spikes : List FeeSpike) (spike : FeeSpike) (stop : DateTime) : List FeeSpike :=
  let spike := { spike with duration := stop - spike.startTime }
  if detector.config.minimumSpikeDuration ≤ spike.duration then spikes ++ [spike] else spikes

/-- One round of the scan: the spikes recorded so far and the spike that is going on. -/
def scanFee (baseline threshold : ℚ) (acc : List FeeSpike × Option FeeSpike)
    (feePoint : FeeDataPoint) : List FeeSpike × Option FeeSpike :=
  if threshold ≤ toFloat feePoint.feeAmount then
    match acc.2 with
    | none => (acc.1, some (startSpike baseline feePoint))
    | some spike => (acc.1, some (continueSpike baseline spike feePoint))
  else
    match acc.2 with
    | none => (acc.1, none)
    | some spike => (detector.endSpike acc.1 spike feePoint.timestamp, none)

/-- Detect fee spikes in the given fee data. -/
def detectSpikes (fees : List FeeDataPoint) (baseline : ℚ) :
    Except InsightsError (List FeeSpike) :=
  if fees.isEmpty then .ok []
  else if baseline ≤ 0 then .error (.invalidData .baselineNotPositive)
  else
    let threshold := detector.spikeThreshold baseline
    let sortedFees := fees.insertionSort fun a b => a.timestamp ≤ b.timestamp
    let scanned := sortedFees.foldl (detector.scanFee baseline threshold) ([], none)
    match scanned.2, sortedFees.getLast? with
    | some spike, some lastFee => .ok (detector.endSpike scanned.1 spike lastFee.timestamp)
    | _, _ => .ok scanned.1

/-- Analyze congestion patterns: the detector afterwards, and the trends unless an error occurred. -/
def analyzeCongestion (now : DateTime) (currentFees : List FeeDataPoint) (baseline : ℚ) :
    CongestionDetector × Except InsightsError CongestionTrends :=
  match detector.detectSpikes currentFees baseline with
  | .error err => (detector, .error err)
  | .ok newSpikes =>
    let historical := detector.historicalSpikes ++ newSpikes
    let analyzer :=
      (newSpikes.foldl (fun a s => a.addSpike now s) detector.trendAnalyzer).cleanOldSpikes now
    let currentTrend := analyzer.determineTrendIndicator
    ({ detector with
        trendAnalyzer := analyzer
        historicalSpikes := historical.drop (historical.length - 1000) },
      .ok {
        currentTrend
        congestionLevel := .fromTrend currentTrend
        recentSpikes := analyzer.recentSpikes
        trendStrength := analyzer.calculateTrendStrength
        predictedDuration := analyzer.predictDuration })

def calculateTrendStrength : TrendStrength := detector.trendAnalyzer.calculateTrendStrength

def getRecentSpikes : List FeeSpike := detector.trendAnalyzer.recentSpikes

end CongestionDetector

end StellarFeeTracker
