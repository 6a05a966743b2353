import StellarFeeTracker.General.RunStarts
import StellarFeeTracker.General.StableSort
import StellarFeeTracker.Insights.Batching

/-!
# What spike detection specifies

The spikes of a stream without the pass over it: one for each maximal run of spike points, from the
first point of the run to the first point after it, or to the last point of the stream.
`detect_spikes` finds these in the stably sorted points (`detectSpikes_eq_specified`).  Its spike points
are those at or above the rounded threshold; the ratio to the baseline does not decide
(`detectSpikes_not_by_ratio`).
-/

namespace StellarFeeTracker

open Runs StableSort
open Binary64 (IsFloat toFloat)

namespace CongestionDetector

variable (detector : CongestionDetector) (baseline : ℚ)

/-! ## The specification -/

/-- A point whose fee is at least the baseline times the multiplier, both floats. -/
def reachesThreshold (p : FeeDataPoint) : Bool :=
  toFloat (baseline * detector.config.thresholdMultiplier) ≤ toFloat p.feeAmount

section

variable (isSpikePoint : FeeDataPoint → Bool)

/-- The positions at which the maximal runs of spike points begin. -/
def spikeStarts (stream : List FeeDataPoint) : List ℕ :=
  (List.range stream.length).filter fun i =>
    stream[i]?.any isSpikePoint && (i == 0 || !stream[i - 1]?.any isSpikePoint)

/-- The spike of the run that begins at a position. -/
def specifiedSpike (stream : List FeeDataPoint) (i : ℕ) : FeeSpike :=
  let run := (stream.drop i).takeWhile isSpikePoint
  let after := (stream.drop i).dropWhile isSpikePoint
  let peak : ℕ := ((run.map (·.feeAmount)).max?).getD 0
  let start := (run.head?.map (·.timestamp)).getD 0
  let stop := ((after.head?.or stream.getLast?).map (·.timestamp)).getD 0
  let ratio := toFloat (toFloat peak / baseline)
  { peakFee := peak
    baselineFee := baseline
    spikeRatio := ratio
    startTime := start
    duration := stop - start
    severity := classifySpikeSeverity ratio }

/-- The spikes of a stream that last for the minimum duration. -/
def specifiedSpikes (stream : List FeeDataPoint) : List FeeSpike :=
  ((spikeStarts isSpikePoint stream).map (specifiedSpike baseline isSpikePoint stream)).filter
    fun spike => detector.config.minimumSpikeDuration ≤ spike.duration

end

example :
    let detector := CongestionDetector.new .default
    (detector.specifiedSpikes 100 (detector.reachesThreshold 100)
        [pricedAt 100 0, pricedAt 500 10, pricedAt 700 16, pricedAt 100 18]).map
      (fun spike => (spike.startTime, spike.duration, spike.peakFee, spike.severity)) =
      [(minutes 10, minutes 8, 700, .major)] := by
  decide +kernel

/-! ## The runs of the fee signal -/

theorem reachesThreshold_eq_high :
    detector.reachesThreshold baseline = (detector.feeSignal baseline).high := by
  funext p
  unfold reachesThreshold feeSignal spikeThreshold
  with_reducible rfl

theorem spikeStarts_eq_starts (stream : List FeeDataPoint) :
    spikeStarts (detector.reachesThreshold baseline) stream =
      (detector.feeSignal baseline).starts false stream := by
  unfold spikeStarts Signal.starts
  rw [reachesThreshold_eq_high]
  refine List.filter_congr fun i _ => ?_
  cases i with
  | zero => rfl
  | succ i => rfl

variable {baseline}

/-- The specified spike of a run is the spike of the run. -/
theorem specifiedSpike_eq {stream : List FeeDataPoint} {i : ℕ}
    (hi : i ∈ (detector.feeSignal baseline).starts false stream) :
    specifiedSpike baseline (detector.reachesThreshold baseline) stream i =
      spikeOf baseline ((detector.feeSignal baseline).runAt (stream.drop i)) := by
  obtain ⟨x, rest, hdrop, hx⟩ := Signal.exists_of_mem_starts _ hi
  have hlast : stream.getLast? = (x :: rest).getLast? := by
    rw [← List.take_append_drop i stream, hdrop]
    exact List.getLast?_append_of_ne_nil _ (List.cons_ne_nil x rest)
  unfold specifiedSpike
  simp only [reachesThreshold_eq_high, hlast, hdrop, Signal.runAt_cons _ hx,
    List.takeWhile_cons_of_pos hx, List.head?_cons, Option.map_some, Option.getD_some]
  rfl

/-- The specified spikes are those of the long runs. -/
theorem specifiedSpikes_eq (stream : List FeeDataPoint) :
    detector.specifiedSpikes baseline (detector.reachesThreshold baseline) stream =
      ((detector.feeSignal baseline).longRuns detector.config.minimumSpikeDuration stream).map
        (spikeOf baseline) := by
  have hspikes : (spikeStarts (detector.reachesThreshold baseline) stream).map
        (specifiedSpike baseline (detector.reachesThreshold baseline) stream) =
      ((detector.feeSignal baseline).runs stream).map (spikeOf baseline) := by
    rw [spikeStarts_eq_starts, Signal.runs_eq_starts, List.map_map]
    exact List.map_congr_left fun i hi => detector.specifiedSpike_eq hi
  rw [specifiedSpikes, hspikes, List.filter_map]
  rfl

/-! ## Detection -/

theorem detectSpikes_eq_ok (hbaseline : 0 < baseline) (fees : List FeeDataPoint) :
    detector.detectSpikes fees baseline = .ok (detector.newSpikes baseline fees) := by
  have hok : ∃ spikes, detector.detectSpikes fees baseline = .ok spikes := by
    unfold detectSpikes
    split_ifs with hempty hnonpos
    · exact ⟨[], rfl⟩
    · exact absurd hbaseline (not_lt.2 hnonpos)
    · dsimp only
      split <;> exact ⟨_, rfl⟩
  obtain ⟨spikes, hspikes⟩ := hok
  rw [newSpikes, hspikes]

/-- Detection sorts the points, so it finds the same in them when they are sorted already. -/
theorem detectSpikes_insertionSort (fees : List FeeDataPoint) :
    detector.detectSpikes (fees.insertionSort fun p q => p.timestamp ≤ q.timestamp) baseline =
      detector.detectSpikes fees baseline := by
  have hstable := isStableSort_insertionSort (fun p : FeeDataPoint => p.timestamp) fees
  unfold detectSpikes
  rw [hstable.perm.isEmpty_eq, List.Pairwise.insertionSort_eq hstable.ordered]

/-- For a positive baseline `detect_spikes` finds the specified spikes of the stably sorted points;
they come one after the other, each over before the next one starts. -/
theorem detectSpikes_eq_specified (fees : List FeeDataPoint) (hbaseline : 0 < baseline) :
    ∃ stream, IsStableSort (fun p : FeeDataPoint => p.timestamp) fees stream ∧
      detector.detectSpikes fees baseline =
        .ok (detector.specifiedSpikes baseline (detector.reachesThreshold baseline) stream) ∧
      (∀ spike ∈ detector.specifiedSpikes baseline (detector.reachesThreshold baseline) stream,
        0 ≤ spike.duration) ∧
      (detector.specifiedSpikes baseline (detector.reachesThreshold baseline) stream).Pairwise
        fun spike next => spike.startTime + spike.duration ≤ next.startTime := by
  have hstable := isStableSort_insertionSort (fun p : FeeDataPoint => p.timestamp) fees
  obtain ⟨hruns, hpairs⟩ := (detector.feeSignal baseline).runs_ordered hstable.ordered
  refine ⟨_, hstable, ?_, ?_, ?_⟩
  · rw [← detectSpikes_insertionSort, detector.detectSpikes_eq_ok hbaseline,
      newSpikes_eq detector baseline hbaseline hstable.ordered, detector.specifiedSpikes_eq]
  · intro spike hspike
    rw [detector.specifiedSpikes_eq] at hspike
    obtain ⟨run, hrun, rfl⟩ := List.mem_map.1 hspike
    exact Int.sub_nonneg_of_le (hruns run (List.mem_of_mem_filter hrun))
  · rw [detector.specifiedSpikes_eq, List.pairwise_map]
    refine (hpairs.filter _).imp fun {run next} h => ?_
    have hstop : run.start + (run.stop - run.start) = run.stop := by omega
    exact hstop.trans_le h

/-- A spike of six minutes that goes on to the last point, delivered before the first point. -/
theorem detectSpikes_eq_specified_three :
    let detector : CongestionDetector := .new .default
    let fees := [pricedAt 500 10, pricedAt 700 16, pricedAt 100 0]
    ∃ stream, IsStableSort (fun p : FeeDataPoint => p.timestamp) fees stream ∧
      detector.detectSpikes fees 100 =
        .ok (detector.specifiedSpikes 100 (detector.reachesThreshold 100) stream) := by
  intro detector fees
  obtain ⟨stream, hstable, hdetected, -⟩ :=
    detector.detectSpikes_eq_specified fees (by decide : (0 : ℚ) < 100)
  exact ⟨stream, hstable, hdetected⟩

/-! ## The ratio to the baseline -/

/-- A point whose ratio to the baseline is at least the multiplier. -/
def ratioReaches (baseline : ℚ) (p : FeeDataPoint) : Bool :=
  detector.config.thresholdMultiplier ≤ p.feeAmount / baseline

/-- The same with the ratio rounded to a float. -/
def floatRatioReaches (baseline : ℚ) (p : FeeDataPoint) : Bool :=
  detector.config.thresholdMultiplier ≤ toFloat (toFloat p.feeAmount / baseline)

/-- The default configuration with the multiplier 1.1, which as a float is a little more than 1.1. -/
def elevenTenths : CongestionDetector :=
  .new { SpikeConfig.default with thresholdMultiplier := toFloat (11 / 10) }

/-- The ratio does not decide what a spike point is.  Over a baseline of 10 the fee 11 is a spike point
although 11 / 10 is less than the multiplier; over a baseline of 100 the fee 110 is none although the
rounded ratio is the multiplier, since the threshold is rounded up. -/
theorem detectSpikes_not_by_ratio :
    (¬ ∀ (detector : CongestionDetector) (baseline : ℚ) (fees : List FeeDataPoint),
      IsFloat detector.config.thresholdMultiplier → IsFloat baseline → 0 < baseline →
      ∃ stream, IsStableSort (fun p : FeeDataPoint => p.timestamp) fees stream ∧
        detector.detectSpikes fees baseline =
          .ok (detector.specifiedSpikes baseline (detector.ratioReaches baseline) stream)) ∧
    ¬ ∀ (detector : CongestionDetector) (baseline : ℚ) (fees : List FeeDataPoint),
      IsFloat detector.config.thresholdMultiplier → IsFloat baseline → 0 < baseline →
      ∃ stream, IsStableSort (fun p : FeeDataPoint => p.timestamp) fees stream ∧
        detector.detectSpikes fees baseline =
          .ok (detector.specifiedSpikes baseline (detector.floatRatioReaches baseline) stream) := by
  constructor
  · intro h
    obtain ⟨stream, hstable, hdetected⟩ :=
      h elevenTenths 10 [pricedAt 11 0, pricedAt 11 5] (by decide +kernel) (by decide +kernel)
        (by decide)
    rw [hstable.eq_of_pairwise_lt (by decide)] at hdetected
    revert hdetected
    decide +kernel
  · intro h
    obtain ⟨stream, hstable, hdetected⟩ :=
      h elevenTenths 100 [pricedAt 110 0, pricedAt 110 5] (by decide +kernel) (by decide +kernel)
        (by decide)
    rw [hstable.eq_of_pairwise_lt (by decide)] at hdetected
    revert hdetected
    decide +kernel

end CongestionDetector

end StellarFeeTracker
