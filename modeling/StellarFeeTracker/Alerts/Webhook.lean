import StellarFeeTracker.Insights.Types

/-!
# Webhook payloads
-/

namespace StellarFeeTracker

/-- Webhook payload shape, generalized across all alert types.  The fields that do not apply to a
type are `none`. -/
structure AlertPayload where
  event : String
  severity : Option String
  peakFee : Option ℕ
  baselineFee : Option ℚ
  spikeRatio : Option ℚ
  startTime : Option DateTime
  durationSeconds : Option ℤ
  network : String
  timestamp : DateTime
  correlationId : Option String
  congestionTrend : Option String
  trendStrength : Option String
  freshnessSeconds : Option ℤ
  stalenessThresholdSeconds : Option ℤ
  deriving DecidableEq, Repr

/-- The target of a delivery. -/
structure WebhookDelivery where
  url : String
  deriving DecidableEq, Repr

end StellarFeeTracker
