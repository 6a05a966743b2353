import StellarFeeTracker.Insights.Config
import StellarFeeTracker.General.BoundedQueue
import Mathlib.Algebra.Order.Field.Rat

/-!
# Rolling average calculator
-/

namespace StellarFeeTracker

/-- Circular buffer for fee data points, oldest first. -/
structure CircularBuffer (α : Type) where
  data : List α
  maxSize : ℕ

namespace CircularBuffer

variable {α : Type}

def new (maxSize : ℕ) : CircularBuffer α where
  data := []
  maxSize := maxSize

def push (buffer : CircularBuffer α) (item : α) : CircularBuffer α :=
  { buffer with data := BoundedQueue.push buffer.maxSize buffer.data item }

end CircularBuffer

/-- Calculator for rolling averages across multiple time windows.  `windows` is the hash map from a
window to its buffer. -/
structure RollingAverageCalculator where
  windows : TimeWindow → Option (CircularBuffer FeeDataPoint)
  timeWindows : List TimeWindow

namespace RollingAverageCalculator

def new (config : AverageConfig) (timeWindows : List TimeWindow) : RollingAverageCalculator where
  windows w := if w ∈ timeWindows then some (CircularBuffer.new config.maxBufferSize) else none
  timeWindows := timeWindows

variable (calculator : RollingAverageCalculator)

/-- Remove the points at the front of each buffer that are older than its window. -/
def cleanOldData (currentTime : DateTime) : RollingAverageCalculator :=
  { calculator with
    windows := fun w => (calculator.windows w).map fun buffer =>
      { buffer with
        data := buffer.data.dropWhile fun p => p.timestamp < currentTime - w.duration } }

/-- Add a point to the buffer of one window, if the point is within the window. -/
def addToWindow (now : DateTime) (point : FeeDataPoint)
    (windows : TimeWindow → Option (CircularBuffer FeeDataPoint)) (window : TimeWindow) :
    TimeWindow → Option (CircularBuffer FeeDataPoint) :=
  match windows window with
  | some buffer =>
    if now - window.duration ≤ point.timestamp then
      fun w => if w = window then some (buffer.push point) else windows w
    else windows
  | none => windows

/-- Add a new data point to all relevant time windows. -/
def addDataPoint (now : DateTime) (point : FeeDataPoint) : RollingAverageCalculator :=
  cleanOldData
    { calculator with
      windows := calculator.timeWindows.foldl (addToWindow now point) calculator.windows } now

/-- The average for a window, found by its name. -/
def calculateAverageForWindow (windowName : String) (calculatedAt : DateTime) :
    Except InsightsError AverageResult :=
  match calculator.timeWindows.find? fun w => w.name == windowName with
  | none => .error (.configError ("Time window '" ++ windowName ++ "' not found"))
  | some timeWindow =>
    match calculator.windows timeWindow with
    | none => .error (.configError ("Buffer for window '" ++ windowName ++ "' not found"))
    | some buffer =>
      if buffer.data.isEmpty then
        .ok { value := 0, sampleCount := 0, isPartial := true, calculatedAt, timeWindow }
      else
        let totalFee := (buffer.data.map (·.feeAmount)).sum
        let sampleCount := buffer.data.length
        .ok {
          value := totalFee / sampleCount
          sampleCount
          isPartial := sampleCount < timeWindow.minSamples
          calculatedAt
          timeWindow }

/-- The averages for all time windows. -/
def calculateAverages (now : DateTime) : Except InsightsError RollingAverages := do
  let shortTerm ← calculator.calculateAverageForWindow "short_term" now
  let mediumTerm ← calculator.calculateAverageForWindow "medium_term" now
  let longTerm ← calculator.calculateAverageForWindow "long_term" now
  return { shortTerm, mediumTerm, longTerm }

end RollingAverageCalculator

end StellarFeeTracker
