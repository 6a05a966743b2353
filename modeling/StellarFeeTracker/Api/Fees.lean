import StellarFeeTracker.Numeric
import StellarFeeTracker.Store
import Mathlib.Algebra.GroupWithZero.Nat
import Mathlib.Algebra.Order.Field.Rat
import Mathlib.Data.List.Sort

/-!
# Fee history

The summary of a window of the fee history.
-/

namespace StellarFeeTracker

structure FeeSummary where
  min : ℕ
  max : ℕ
  avg : ℚ
  p50 : ℕ
  p95 : ℕ
  deriving DecidableEq, Repr

/-- Nearest-rank percentile of a sorted sample, 0 for an empty one. -/
def percentileNearestRank (sorted : List ℕ) (percentile : ℕ) : ℕ :=
  if sorted.isEmpty then 0
  else
    let n := sorted.length
    let rank := max ((percentile * n + 99) / 100) 1
    sorted.getD (rank - 1) 0

/-- The fees of points in increasing order. -/
def sortedFees (fees : List FeeDataPoint) : List ℕ :=
  (fees.map (·.feeAmount)).insertionSort (· ≤ ·)

def computeSummary (fees : List FeeDataPoint) : FeeSummary :=
  if fees.isEmpty then { min := 0, max := 0, avg := 0, p50 := 0, p95 := 0 }
  else
    let values := sortedFees fees
    let len := values.length
    { min := values.getD 0 0
      max := values.getD (len - 1) 0
      avg := wrappingSumU64 values / len
      p50 := percentileNearestRank values 50
      p95 := percentileNearestRank values 95 }

end StellarFeeTracker
