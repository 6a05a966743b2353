import StellarFeeTracker.Numeric
import StellarFeeTracker.Recommendation.Types

/-!
# Validation of recommend requests
-/

namespace StellarFeeTracker

def maxFeeUpperBound : ℕ := 100000000

def maxTargetLedgers : ℕ := 100

/-- The error text of a bad request, if the request is one. -/
def validateRecommendRequest (req : RecommendRequest) : Except String Unit := do
  if let some ledgers := req.targetLedgers then
    if ledgers = 0 ∨ maxTargetLedgers < ledgers then
      throw ("target_ledgers must be between 1 and " ++ toString maxTargetLedgers ++ ", got " ++
        toString ledgers)
  if let some maxFee := req.maxFee then
    match parseU64 maxFee with
    | some v =>
      if maxFeeUpperBound < v then
        throw ("max_fee must not exceed " ++ toString maxFeeUpperBound ++ " stroops, got " ++
          toString v)
    | none => throw ("max_fee must be a valid integer, got '" ++ maxFee ++ "'")

end StellarFeeTracker
