import StellarFeeTracker.Insights.Config

/-!
# Extremes tracker for min/max fee values
-/

namespace StellarFeeTracker

/-- A tracking period for extremes. -/
structure ExtremePeriod where
  minValue : Option ExtremeValue
  maxValue : Option ExtremeValue
  periodStart : DateTime
  periodEnd : DateTime
  deriving DecidableEq, Repr

namespace ExtremePeriod

def new (start stop : DateTime) : ExtremePeriod where
  minValue := none
  maxValue := none
  periodStart := start
  periodEnd := stop

variable (period : ExtremePeriod)

def updateWithFee (feePoint : FeeDataPoint) : ExtremePeriod :=
  let extremeValue : ExtremeValue :=
    { value := feePoint.feeAmount
      timestamp := feePoint.timestamp
      transactionHash := feePoint.transactionHash }
  { period with
    minValue :=
      match period.minValue with
      | none => some extremeValue
      | some currentMin =>
        if feePoint.feeAmount < currentMin.value then some extremeValue else some currentMin
    maxValue :=
      match period.maxValue with
      | none => some extremeValue
      | some currentMax =>
        if currentMax.value < feePoint.feeAmount then some extremeValue else some currentMax }

def toFeeExtremes : Option FeeExtremes :=
  match period.minValue, period.maxValue with
  | some min, some max =>
    some {
      currentMin := min
      currentMax := max
      periodStart := period.periodStart
      periodEnd := period.periodEnd }
  | _, _ => none

end ExtremePeriod

/-- Tracker for minimum and maximum fee values. -/
structure ExtremesTracker where
  config : ExtremesConfig
  currentPeriod : ExtremePeriod
  historicalPeriods : List ExtremePeriod
  deriving DecidableEq, Repr

namespace ExtremesTracker

def new (config : ExtremesConfig) (now : DateTime) : ExtremesTracker where
  config := config
  currentPeriod := .new now (now + config.trackingPeriod)
  historicalPeriods := []

variable (tracker : ExtremesTracker)

/-- Rotate to a new tracking period; the configured number of completed periods is kept. -/
def rotatePeriod (currentTime : DateTime) : ExtremesTracker :=
  let periods := tracker.historicalPeriods ++ [tracker.currentPeriod]
  { tracker with
    currentPeriod := .new currentTime (currentTime + tracker.config.trackingPeriod)
    historicalPeriods := periods.drop (periods.length - tracker.config.historicalPeriodsToKeep) }

/-- Update with new fee data, which never fails. -/
def updateWithFees (now : DateTime) (fees : List FeeDataPoint) : ExtremesTracker :=
  let tracker :=
    if tracker.currentPeriod.periodEnd ≤ now then tracker.rotatePeriod now else tracker
  { tracker with
    currentPeriod := fees.foldl (fun period feePoint =>
      if period.periodStart ≤ feePoint.timestamp ∧ feePoint.timestamp ≤ period.periodEnd then
        period.updateWithFee feePoint
      else period) tracker.currentPeriod }

def getCurrentExtremes : Except InsightsError FeeExtremes :=
  match tracker.currentPeriod.toFeeExtremes with
  | some extremes => .ok extremes
  | none => .error (.insufficientData "No fee data available for current period")

end ExtremesTracker

end StellarFeeTracker
