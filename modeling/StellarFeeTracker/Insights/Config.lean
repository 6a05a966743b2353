import StellarFeeTracker.Insights.Types

/-!
# Configuration and errors of the fee insights
-/

namespace StellarFeeTracker

/-- Configuration for spike detection. -/
structure SpikeConfig where
  thresholdMultiplier : ℚ
  minimumSpikeDuration : Duration
  congestionWindow : Duration
  deriving DecidableEq, Repr

/-- Configuration for rolling average calculations. -/
structure AverageConfig where
  maxBufferSize : ℕ
  deriving DecidableEq, Repr

/-- Configuration for extremes tracking. -/
structure ExtremesConfig where
  trackingPeriod : Duration
  historicalPeriodsToKeep : ℕ
  deriving DecidableEq, Repr

/-- Main configuration for the insights engine. -/
structure InsightsConfig where
  pollingInterval : Duration
  timeWindows : List TimeWindow
  spikeDetection : SpikeConfig
  deriving DecidableEq, Repr

def SpikeConfig.default : SpikeConfig where
  thresholdMultiplier := 2
  minimumSpikeDuration := minutes 5
  congestionWindow := hours 1

def AverageConfig.default : AverageConfig where
  maxBufferSize := 10000

def ExtremesConfig.default : ExtremesConfig where
  trackingPeriod := hours 24
  historicalPeriodsToKeep := 30

def InsightsConfig.default : InsightsConfig where
  pollingInterval := minutes 1
  timeWindows := [
    { name := "short_term", duration := minutes 5, minSamples := 5 },
    { name := "medium_term", duration := hours 1, minSamples := 20 },
    { name := "long_term", duration := hours 24, minSamples := 100 }]
  spikeDetection := .default

/-! ## Errors -/

/-- What is wrong with invalid fee data. -/
inductive InvalidData where
  | noData
  | zeroFee (index : ℕ)
  | largeFee (feeAmount index : ℕ)
  | emptyHash (index : ℕ)
  | futureTimestamp (index : ℕ) (timestamp : DateTime)
  | baselineNotPositive
  deriving DecidableEq, Repr

/-- The message of the error; `display` prints an instant. -/
def InvalidData.message (display : DateTime → String) : InvalidData → String
  | noData => "No fee data provided"
  | zeroFee i => "Zero fee amount at index " ++ toString i
  | largeFee fee i => "Unreasonably large fee amount " ++ toString fee ++ " at index " ++ toString i
  | emptyHash i => "Empty transaction hash at index " ++ toString i
  | futureTimestamp i t => "Future timestamp at index " ++ toString i ++ ": " ++ display t
  | baselineNotPositive => "Baseline must be positive"

/-- Errors that can occur during insights processing. -/
inductive InsightsError where
  | invalidData (reason : InvalidData)
  | configError (message : String)
  | insufficientData (operation : String)
  deriving DecidableEq, Repr

/-- Errors from fee data providers. -/
inductive ProviderError where
  | networkError (message : String)
  | formatError (message : String)
  | authError (message : String)
  | rateLimitExceeded
  | serviceUnavailable
  deriving DecidableEq, Repr

end StellarFeeTracker
