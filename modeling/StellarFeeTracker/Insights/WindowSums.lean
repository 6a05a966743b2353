import StellarFeeTracker.Insights.Processing
import StellarFeeTracker.Numeric

/-!
# The sums of the rolling windows

Validation bounds the fee of every point that a call adds, and the cap of the buffers their number.
Neither bound is touched by a call that fails, so in every engine that the program can build the sum
of a window is far from what its 64 bits, and the 53 of a float, can hold (`windowSum_exact`).
-/

namespace StellarFeeTracker

namespace CircularBuffer

/-- A buffer of the default size, with no more points than that and no fee above the largest valid
one. -/
structure Bounded (buffer : CircularBuffer FeeDataPoint) : Prop where
  maxSize_eq : buffer.maxSize = 10000
  length_le : buffer.data.length ≤ 10000
  feeAmount_le : ∀ p ∈ buffer.data, p.feeAmount ≤ 1000000000

deriving instance DecidableEq for CircularBuffer

variable {buffer : CircularBuffer FeeDataPoint}

theorem bounded_new : (new 10000 : CircularBuffer FeeDataPoint).Bounded where
  maxSize_eq := rfl
  length_le := Nat.zero_le _
  feeAmount_le _ hp := absurd hp List.not_mem_nil

theorem Bounded.add (h : buffer.Bounded) {point : FeeDataPoint}
    (hpoint : point.feeAmount ≤ 1000000000) (window : TimeWindow) (n : ℕ) (now : DateTime) :
    (add window n now point buffer).Bounded where
  maxSize_eq := by
    rw [add_eq]
    exact h.maxSize_eq
  length_le := by
    have hcap := h.maxSize_eq
    have hpushed := BoundedQueue.length_pushAll_le buffer.maxSize (hcap ▸ h.length_le)
      (by omega) (admitted window n now point)
    rw [add_eq]
    exact (List.dropWhile_sublist _).length_le.trans (hcap ▸ hpushed)
  feeAmount_le p hp := by
    rcases mem_add hp with hp | rfl
    · exact h.feeAmount_le p hp
    · exact hpoint

theorem Bounded.addBatch (h : buffer.Bounded) {points : List FeeDataPoint}
    (hpoints : ∀ p ∈ points, p.feeAmount ≤ 1000000000) (window : TimeWindow) (n : ℕ)
    (now : DateTime) : (addBatch window n now points buffer).Bounded := by
  induction points generalizing buffer with
  | nil => exact h
  | cons point points ih =>
    rw [List.forall_mem_cons] at hpoints
    exact ih (h.add hpoints.1 window n now) hpoints.2

theorem Bounded.sum_le (h : buffer.Bounded) :
    (buffer.data.map (·.feeAmount)).sum ≤ 10 ^ 4 * 10 ^ 9 :=
  (FeeInsightsEngine.sum_feeAmount_le h.feeAmount_le).trans (Nat.mul_le_mul_right _ h.length_le)

end CircularBuffer

namespace FeeInsightsEngine

/-- The buffers of all windows are bounded. -/
def Bounded (engine : FeeInsightsEngine) : Prop :=
  ∀ window buffer, engine.calculator.windows window = some buffer → buffer.Bounded

variable {engine : FeeInsightsEngine}

theorem bounded_new (config : InsightsConfig) (now : DateTime) : (new config now).Bounded := by
  intro window buffer hbuffer
  have hnew : (if window ∈ config.timeWindows then some (CircularBuffer.new
      AverageConfig.default.maxBufferSize) else none) = some buffer := hbuffer
  split_ifs at hnew
  obtain rfl := Option.some.inj hnew
  exact CircularBuffer.bounded_new

theorem Bounded.ingest (h : engine.Bounded) (now : DateTime) {data : List FeeDataPoint}
    (hpass : ∀ p ∈ data, Passes now p) : (engine.ingest now data).Bounded := by
  intro window buffer hbuffer
  rw [windows_ingest, Option.map_eq_some_iff] at hbuffer
  obtain ⟨before, hbefore, rfl⟩ := hbuffer
  exact (h window before hbefore).addBatch (fun p hp => (hpass p hp).feeAmount_le) _ _ _

/-- A call leaves the bounds, whether it succeeds or fails. -/
theorem Bounded.processFeeData (h : engine.Bounded) (now : DateTime) (data : List FeeDataPoint) :
    (engine.processFeeData now data).1.Bounded :=
  processFeeData_induction (fun _ _ _ _ h => h) (h.ingest now) h

theorem Reachable.bounded {config : InsightsConfig} (h : Reachable config engine) :
    engine.Bounded := by
  induction h with
  | new now => exact bounded_new config now
  | process now data _ ih => exact ih.processFeeData now data

/-- In every engine that the program can build, the fees in the buffer of a window are added without
overflow to a sum that is a float. -/
theorem windowSum_exact {config : InsightsConfig} (h : Reachable config engine)
    {window : TimeWindow} {buffer : CircularBuffer FeeDataPoint}
    (hbuffer : engine.calculator.windows window = some buffer) :
    let fees := buffer.data.map (·.feeAmount)
    (fees.sum ≤ 10 ^ 4 * 10 ^ 9 ∧ fees.sum < 2 ^ 53) ∧
      sumU64 fees = some fees.sum ∧ asF64 fees.sum = fees.sum := by
  intro fees
  have hsum : fees.sum ≤ 10 ^ 4 * 10 ^ 9 := (h.bounded window buffer hbuffer).sum_le
  have hfloat : fees.sum < 2 ^ 53 := hsum.trans_lt (by decide)
  have hfits : fees.sum ≤ u64Max := hsum.trans (by decide)
  exact ⟨⟨hsum, hfloat⟩, sumU64_eq hfits, Binary64.isFloat_natCast hfloat.le⟩

/-- The largest valid fee. -/
def largestFee : FeeDataPoint := { feeAtMinute 5 with feeAmount := 1000000000 }

/-- The shortest window after two batches of valid fees, the largest one among them, with a batch
between them that is rejected. -/
theorem windowSum_exact_largest :
    let fees := [feeAtMinute 4, largestFee, feeAtMinute 7].map (·.feeAmount)
    (fees.sum ≤ 10 ^ 4 * 10 ^ 9 ∧ fees.sum < 2 ^ 53) ∧
      sumU64 fees = some fees.sum ∧ asF64 fees.sum = fees.sum := by
  let first := ((new .default (minutes 5)).processFeeData (minutes 6) [feeAtMinute 4, largestFee]).1
  let second :=
    (first.processFeeData (minutes 7) [{ largestFee with feeAmount := 1000000001 }]).1
  let third := (second.processFeeData (minutes 8) [feeAtMinute 7]).1
  have hreachable : Reachable .default third :=
    (((Reachable.new (minutes 5)).process _ _).process _ _).process _ _
  have hbuffer : third.calculator.windows ⟨"short_term", minutes 5, 5⟩ =
      some ⟨[feeAtMinute 4, largestFee, feeAtMinute 7], 10000⟩ := by
    decide +kernel
  exact windowSum_exact hreachable hbuffer

end FeeInsightsEngine

end StellarFeeTracker
