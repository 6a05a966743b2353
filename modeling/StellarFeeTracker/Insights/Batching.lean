import StellarFeeTracker.Insights.Detector
import StellarFeeTracker.General.Machine
import StellarFeeTracker.General.Runs

/-!
# Spikes over several calls

On points in order of time `detect_spikes` records the long runs of high fees (`newSpikes_eq`).  Each
call starts with no spike going on and ends the spike that goes on at its last point, so that the
spikes of several calls are those of one call on all points only when no batch boundary shortens or
splits a long run (`recordedSpikes_iff`).
-/

namespace StellarFeeTracker

open Machine Runs

namespace CongestionDetector

variable (detector : CongestionDetector) (baseline : ℚ)

/-! ## The spikes of a call -/

/-- The spikes that a call of `analyze_congestion` records. -/
def newSpikes (fees : List FeeDataPoint) : List FeeSpike :=
  match detector.detectSpikes fees baseline with
  | .ok spikes => spikes
  | .error _ => []

/-- The fees as a signal: a point is high when it is at or above the threshold. -/
def feeSignal : Signal FeeDataPoint where
  high p := decide (detector.spikeThreshold baseline ≤ Binary64.toFloat p.feeAmount)
  time := (·.timestamp)
  level := (·.feeAmount)

/-- The spike of a run of high fees. -/
def spikeOf (run : Run) : FeeSpike where
  peakFee := run.peak
  baselineFee := baseline
  spikeRatio := feeRatio baseline run.peak
  startTime := run.start
  duration := run.stop - run.start
  severity := classifySpikeSeverity (feeRatio baseline run.peak)

theorem startSpike_eq (p : FeeDataPoint) :
    startSpike baseline p = spikeOf baseline ((detector.feeSignal baseline).single p) := by
  simp [startSpike, spikeOf, Signal.single, feeSignal]

theorem continueSpike_eq (run : Run) (p : FeeDataPoint) :
    continueSpike baseline (spikeOf baseline run) p =
      spikeOf baseline ((detector.feeSignal baseline).extend run p) := by
  by_cases h : (spikeOf baseline run).peakFee < p.feeAmount
  · have hmax : max run.peak p.feeAmount = p.feeAmount := max_eq_right h.le
    simp only [continueSpike, if_pos h]
    simp only [Signal.extend, spikeOf, feeSignal, hmax]
  · have hmax : max run.peak p.feeAmount = run.peak := max_eq_left (not_lt.1 h)
    simp only [continueSpike, if_neg h]
    simp only [Signal.extend, spikeOf, feeSignal, hmax]

theorem endSpike_eq (spikes : List FeeSpike) (run : Run) (stop : DateTime) :
    detector.endSpike spikes (spikeOf baseline run) stop =
      spikes ++ (long detector.config.minimumSpikeDuration [{ run with stop }]).map
        (spikeOf baseline) := by
  unfold endSpike
  by_cases h : detector.config.minimumSpikeDuration ≤ stop - run.start
  · rw [long_of_le run.peak h]
    exact if_pos h
  · rw [long_of_lt run.peak (not_le.1 h), List.map_nil, List.append_nil]
    exact if_neg h

/-- One round of the scan, on a run that is going on. -/
theorem scanFee_eq (spikes : List FeeSpike) (going : Option Run) (p : FeeDataPoint) :
    detector.scanFee baseline (detector.spikeThreshold baseline)
        (spikes, going.map (spikeOf baseline)) p =
      if (detector.feeSignal baseline).high p then
        (spikes, some (spikeOf baseline (going.elim ((detector.feeSignal baseline).single p)
          fun run => (detector.feeSignal baseline).extend run p)))
      else
        (spikes ++ (long detector.config.minimumSpikeDuration
          (going.map fun run => { run with stop := p.timestamp }).toList).map (spikeOf baseline),
            none) := by
  have hhigh : (detector.feeSignal baseline).high p = true ↔
      detector.spikeThreshold baseline ≤ Binary64.toFloat p.feeAmount := decide_eq_true_iff
  unfold scanFee
  by_cases h : detector.spikeThreshold baseline ≤ Binary64.toFloat p.feeAmount
  · rw [if_pos h, if_pos (hhigh.2 h)]
    cases going with
    | none => rw [Option.map_none, startSpike_eq detector]; rfl
    | some run =>
      simp only [Option.map_some, continueSpike_eq detector]
      rfl
  · rw [if_neg h, if_neg (hhigh.not.2 h)]
    cases going with
    | none => simp [long]
    | some run =>
      simp only [Option.map_some, endSpike_eq]
      rfl

/-- The scan of points records the long runs that have ended and keeps the one that goes on. -/
theorem foldl_scanFee (fees : List FeeDataPoint) (spikes : List FeeSpike) (going : Option Run) :
    ∃ (ended : List Run) (going' : Option Run),
      fees.foldl (detector.scanFee baseline (detector.spikeThreshold baseline))
          (spikes, going.map (spikeOf baseline)) =
        (spikes ++ (long detector.config.minimumSpikeDuration ended).map (spikeOf baseline),
          going'.map (spikeOf baseline)) ∧
      (detector.feeSignal baseline).runsFrom fees going = ended ++ going'.toList ∧
      (fees = [] → going' = going) ∧ ∀ run ∈ going', ∀ p ∈ fees.getLast?, run.stop = p.timestamp := by
  induction fees generalizing spikes going with
  | nil => exact ⟨[], going, by simp [long], by simp [Signal.runsFrom], fun _ => rfl, by simp⟩
  | cons p fees ih =>
    rw [List.foldl_cons, scanFee_eq]
    by_cases hhigh : (detector.feeSignal baseline).high p = true
    · -- the run starts or goes on
      rw [if_pos hhigh]
      obtain ⟨ended, going', hscan, hruns, hnil, hlast⟩ := ih spikes
        (some (going.elim ((detector.feeSignal baseline).single p)
          fun run => (detector.feeSignal baseline).extend run p))
      refine ⟨ended, going', hscan, ?_, fun h => absurd h (List.cons_ne_nil p fees), ?_⟩
      · rw [← hruns]
        cases going with
        | none => exact if_pos hhigh
        | some run => exact if_pos hhigh
      · intro run hrun q hq
        cases fees with
        | nil =>
          rw [hnil rfl] at hrun
          obtain rfl : p = q := Option.some.inj hq
          obtain rfl := Option.some.inj hrun
          cases going with
          | none => rfl
          | some run => rfl
        | cons r fees => exact hlast run hrun q hq
    · -- the run ends, if there is one
      rw [if_neg hhigh]
      obtain ⟨ended, going', hscan, hruns, hnil, hlast⟩ := ih (spikes ++
        (long detector.config.minimumSpikeDuration
          (going.map fun run => { run with stop := p.timestamp }).toList).map (spikeOf baseline)) none
      refine ⟨(going.map fun run => { run with stop := p.timestamp }).toList ++ ended, going', ?_, ?_,
        fun h => absurd h (List.cons_ne_nil p fees), ?_⟩
      · rw [long_append, List.map_append, ← List.append_assoc]
        exact hscan
      · rw [List.append_assoc, ← hruns]
        cases going with
        | none => exact if_neg hhigh
        | some run => exact if_neg hhigh
      · intro run hrun q hq
        cases fees with
        | nil =>
          rw [hnil rfl] at hrun
          cases hrun
        | cons r fees => exact hlast run hrun q hq

/-- On points in order of time, a call records the long runs of high fees. -/
theorem newSpikes_eq (hbaseline : 0 < baseline) {fees : List FeeDataPoint}
    (hsorted : fees.Pairwise fun p q => p.timestamp ≤ q.timestamp) :
    detector.newSpikes baseline fees =
      ((detector.feeSignal baseline).longRuns detector.config.minimumSpikeDuration fees).map
        (spikeOf baseline) := by
  have hsort : fees.insertionSort (fun p q => p.timestamp ≤ q.timestamp) = fees :=
    List.Pairwise.insertionSort_eq hsorted
  unfold newSpikes detectSpikes
  cases hfees : fees with
  | nil => rfl
  | cons p rest =>
    rw [← hfees, if_neg (by simp [hfees]), if_neg (not_le.2 hbaseline)]
    simp only [hsort]
    obtain ⟨ended, going, hscan, hruns, -, hlast⟩ := foldl_scanFee detector baseline fees [] none
    rw [List.nil_append, Option.map_none] at hscan
    have hlong : (detector.feeSignal baseline).longRuns detector.config.minimumSpikeDuration fees =
        long detector.config.minimumSpikeDuration (ended ++ going.toList) := by
      rw [← hruns]
      rfl
    rw [hscan, hlong]
    cases going with
    | none => rw [Option.toList_none, List.append_nil]; rfl
    | some run =>
      have hne : fees ≠ [] := by
        rw [hfees]
        exact List.cons_ne_nil p rest
      have hlastFee := List.getLast?_eq_some_getLast hne
      have hstop : { run with stop := (fees.getLast hne).timestamp } = run := by
        rw [← hlast run rfl _ hlastFee]
      rw [hlastFee, Option.toList_some, long_append, List.map_append]
      simp only [Option.map_some, endSpike_eq, hstop]

/-! ## The spikes of several calls -/

/-- When and for how long a spike lasted, and its peak. -/
def extent (spike : FeeSpike) : DateTime × ℕ × Duration :=
  (spike.startTime, spike.peakFee, spike.duration)

theorem extent_spikeOf_injective :
    Function.Injective fun run : Run => extent (spikeOf baseline run) := by
  rintro ⟨start, stop, peak⟩ ⟨start', stop', peak'⟩ h
  simp only [extent, spikeOf, Prod.mk.injEq] at h
  obtain ⟨rfl, rfl, hlength⟩ := h
  obtain rfl : stop = stop' := by
    have hsub : stop - start = stop' - start := hlength
    omega
  rfl

theorem map_extent_newSpikes_iff (hbaseline : 0 < baseline) {batches : List (List FeeDataPoint)}
    (hsorted : batches.flatten.Pairwise fun p q => p.timestamp ≤ q.timestamp) :
    (batches.flatMap (detector.newSpikes baseline)).map extent =
        (detector.newSpikes baseline batches.flatten).map extent ↔
      ∀ front here back, batches = front ++ here :: back →
        (detector.feeSignal baseline).HarmlessCut detector.config.minimumSpikeDuration here
          back.flatten := by
  have hbatches : batches.flatMap (detector.newSpikes baseline) = (batches.flatMap
      ((detector.feeSignal baseline).longRuns detector.config.minimumSpikeDuration)).map
        (spikeOf baseline) := by
    rw [List.map_flatMap]
    refine List.flatMap_congr fun batch hbatch => ?_
    exact newSpikes_eq detector baseline hbaseline (hsorted.sublist (List.sublist_flatten_of_mem hbatch))
  rw [hbatches, newSpikes_eq detector baseline hbaseline hsorted, List.map_map, List.map_map,
    ← Signal.flatMap_longRuns_eq_iff hsorted]
  exact (extent_spikeOf_injective baseline).list_map.eq_iff

/-- A call of `analyze_congestion` at an instant: the detector afterwards and the spikes that it
records. -/
def call (detector : CongestionDetector) (input : DateTime × List FeeDataPoint) :
    CongestionDetector × List FeeSpike :=
  ((detector.analyzeCongestion input.1 input.2 baseline).1, detector.newSpikes baseline input.2)

variable {detector}

theorem newSpikes_congr {detector' : CongestionDetector} (h : detector'.config = detector.config)
    (fees : List FeeDataPoint) : detector'.newSpikes baseline fees = detector.newSpikes baseline fees := by
  obtain ⟨config, analyzer, historical⟩ := detector
  obtain ⟨config', analyzer', historical'⟩ := detector'
  obtain rfl : config' = config := h
  rfl

theorem call_config (input : DateTime × List FeeDataPoint) :
    (call baseline detector input).1.config = detector.config := by
  unfold call analyzeCongestion
  cases detector.detectSpikes input.2 baseline with
  | error err => rfl
  | ok spikes => rfl

/-- The calls record the new spikes of each batch, whatever was recorded before. -/
theorem emitted_call (calls : List (DateTime × List FeeDataPoint)) :
    emitted (call baseline) detector calls =
      (calls.map (·.2)).flatMap (detector.newSpikes baseline) := by
  have hfrom : ∀ detector' : CongestionDetector, detector'.config = detector.config →
      emitted (call baseline) detector' calls =
        (calls.map (·.2)).flatMap (detector.newSpikes baseline) := by
    induction calls with
    | nil => exact fun _ _ => rfl
    | cons input calls ih =>
      intro detector' hconfig
      rw [emitted_cons, ih _ ((call_config baseline input).trans hconfig), List.map_cons,
        List.flatMap_cons, ← newSpikes_congr baseline hconfig]
      rfl
  exact hfrom detector rfl

/-- Several calls record the spikes that one call records on all points exactly when no boundary
between the calls shortens, splits or drops a long run of high fees. -/
theorem recordedSpikes_iff (hbaseline : 0 < baseline) (now : DateTime)
    {calls : List (DateTime × List FeeDataPoint)}
    (hsorted : (calls.map (·.2)).flatten.Pairwise fun p q => p.timestamp ≤ q.timestamp) :
    (emitted (call baseline) detector calls).map extent =
        (emitted (call baseline) detector [(now, (calls.map (·.2)).flatten)]).map extent ↔
      ∀ front here back, calls.map (·.2) = front ++ here :: back →
        (detector.feeSignal baseline).HarmlessCut detector.config.minimumSpikeDuration here
          back.flatten := by
  rw [emitted_call, emitted_call, ← map_extent_newSpikes_iff detector baseline hbaseline hsorted,
    List.map_singleton, List.flatMap_singleton]

end CongestionDetector

/-- A point with this fee at this minute. -/
def pricedAt (feeAmount : ℕ) (minute : ℤ) : FeeDataPoint where
  feeAmount := feeAmount
  timestamp := minutes minute
  transactionHash := "tx" ++ toString minute
  ledgerSequence := 1

/-- A boundary after a run has ended. -/
theorem recordedSpikes_after_run :
    (emitted (CongestionDetector.call 100) (.new .default)
        [(minutes 6, [pricedAt 250 0, pricedAt 300 5, pricedAt 100 6]),
          (minutes 7, [pricedAt 100 7])]).map CongestionDetector.extent =
      (emitted (CongestionDetector.call 100) (.new .default)
        [(minutes 7, [pricedAt 250 0, pricedAt 300 5, pricedAt 100 6, pricedAt 100 7])]).map
          CongestionDetector.extent :=
  (CongestionDetector.recordedSpikes_iff 100 (by decide) (minutes 7) (by decide)).2 (by
    refine (Signal.forall_cut_cons_iff _ _).2 ⟨?_, (Signal.forall_cut_cons_iff _ _).2 ⟨?_, ?_⟩⟩
    · exact Signal.harmlessCut_of_getLast? (by decide +kernel) _
    · exact Signal.harmlessCut_of_getLast? (by decide +kernel) _
    · intro front here back heq
      exact absurd heq.symm (List.append_ne_nil_of_right_ne_nil _ (List.cons_ne_nil _ _)))

/-- A run of five minutes, one point in each call: no spike is recorded. -/
theorem spike_over_two_calls_not_recorded :
    (emitted (CongestionDetector.call 100) (.new .default)
        [(minutes 0, [pricedAt 250 0]), (minutes 5, [pricedAt 300 5])]).map
          CongestionDetector.extent = [] ∧
      (emitted (CongestionDetector.call 100) (.new .default)
        [(minutes 5, [pricedAt 250 0, pricedAt 300 5])]).map CongestionDetector.extent =
          [(minutes 0, 300, minutes 5)] := by
  decide +kernel

end StellarFeeTracker
