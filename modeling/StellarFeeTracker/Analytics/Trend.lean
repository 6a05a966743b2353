import StellarFeeTracker.Numeric

/-!
# Linear-regression trend of a fee series
-/

namespace StellarFeeTracker

/-- The direction of a fee trend. -/
inductive TrendDirection where
  | upward
  | downward
  | sideways
  deriving DecidableEq, Repr

/-- A trend analysis result for a fee series. -/
structure TrendAnalysis where
  direction : TrendDirection
  slope : ℚ
  rSquared : ℚ
  deriving DecidableEq, Repr

/-- Fees as the regression takes them. -/
def asFloats (rounding : Rounding) (fees : List ℕ) : List ℚ :=
  fees.map fun f : ℕ => rounding.round f

/-- Compute a linear-regression trend over a series of fee values. -/
def analyzeTrend (rounding : Rounding) (fees : List ℚ) : TrendAnalysis :=
  let round := rounding.round
  let n := round fees.length
  if n = 0 then { direction := .sideways, slope := 0, rSquared := 0 }
  else
    let mean := round (rounding.sum fees / n)
    let meanX := round (round (n - 1) / 2)
    let sumXY := rounding.sum (fees.zipIdx.map fun (fee, i) =>
      round (round (round i - meanX) * round (fee - mean)))
    let sumX2 := rounding.sum (fees.zipIdx.map fun (_, i) => round (round (round i - meanX) ^ 2))
    let slope := if f64Epsilon < sumX2 then round (sumXY / sumX2) else 0
    let intercept := round (mean - round (slope * meanX))
    let ssRes := rounding.sum (fees.zipIdx.map fun (fee, i) =>
      round (round (fee - round (round (slope * round i) + intercept)) ^ 2))
    let ssTot := rounding.sum (fees.map fun fee => round (round (fee - mean) ^ 2))
    let rSquared := if f64Epsilon < ssTot then round (1 - round (ssRes / ssTot)) else 0
    { direction :=
        if round (1 / 1000000) < slope then .upward
        else if slope < -round (1 / 1000000) then .downward
        else .sideways
      slope
      rSquared := clampUnit rSquared }

/-- The regression in exact arithmetic. -/
theorem analyzeTrend_exact (fees : List ℚ) :
    analyzeTrend .exact fees =
      let n : ℚ := fees.length
      if n = 0 then { direction := .sideways, slope := 0, rSquared := 0 }
      else
        let mean := fees.sum / n
        let meanX := (n - 1) / 2
        let sumXY := (fees.zipIdx.map fun (fee, i) => ((i : ℚ) - meanX) * (fee - mean)).sum
        let sumX2 := (fees.zipIdx.map fun (_, i) => ((i : ℚ) - meanX) ^ 2).sum
        let slope := if f64Epsilon < sumX2 then sumXY / sumX2 else 0
        let intercept := mean - slope * meanX
        let ssRes := (fees.zipIdx.map fun (fee, i) => (fee - (slope * i + intercept)) ^ 2).sum
        let ssTot := (fees.map fun fee => (fee - mean) ^ 2).sum
        let rSquared := if f64Epsilon < ssTot then 1 - ssRes / ssTot else 0
        { direction :=
            if 1 / 1000000 < slope then .upward
            else if slope < -(1 / 1000000) then .downward
            else .sideways
          slope
          rSquared := clampUnit rSquared } := by
  unfold analyzeTrend
  simp only [Rounding.round_exact, Rounding.sum_exact]

end StellarFeeTracker
