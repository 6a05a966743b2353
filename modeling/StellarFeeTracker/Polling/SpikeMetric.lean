import StellarFeeTracker.Insights.Recency
import StellarFeeTracker.Polling.Staleness
import Mathlib.Data.Finset.Card

/-!
# The metric of detected spikes

A tick adds to the metric the spikes that the detector shows when it has analyzed the new points:
those it still keeps from earlier ticks and those it has just found (`pollOnce_spikesDetectedTotal`).
So the metric counts each spike once, on the tick that finds it, exactly when all that is kept is past
the congestion window at every tick that analyzes points (`spikesCounted_iff`).
-/

namespace StellarFeeTracker

open Machine FeeInsightsEngine CongestionDetector

namespace Poller

variable (poller : Poller)

/-! ## One tick -/

/-- The spikes that a tick records: those of its new points against the medium-term average, if the
engine accepts the points. -/
def tickSpikes (s : PollState) (tick : PollTick) : List FeeSpike :=
  let points := poller.newPoints s tick
  if poller.Accepts s tick then
    match (s.engine.ingest tick.now points).calculator.calculateAverages tick.now with
    | .ok averages => s.engine.detector.newSpikes averages.mediumTerm.value points
    | .error _ => []
  else []

/-- What the insights engine makes of the new points of a tick. -/
theorem processFeeData_tick {config : InsightsConfig} {s : PollState}
    (hs : Reachable config s.engine) (tick : PollTick) :
    (poller.Accepts s tick ∧ ∃ update,
      (s.engine.processFeeData tick.now (poller.newPoints s tick)).2 = .ok update ∧
      update.recentSpikes = (s.engine.detector.getRecentSpikes ++ poller.tickSpikes s tick).dropWhile
        (isOldSpike config.spikeDetection tick.now)) ∨
    (¬ poller.Accepts s tick ∧ ∃ err,
      (s.engine.processFeeData tick.now (poller.newPoints s tick)).2 = .error err) := by
  have hok := processFeeData_isOk_iff hs.wellFormed tick.now (poller.newPoints s tick)
  by_cases haccepts : poller.Accepts s tick
  · obtain ⟨update, hupdate⟩ := hok.2 haccepts
    obtain ⟨averages, trends, haverages, htrends, -, -, hcongestion, -⟩ :=
      s.engine.processFeeData_eq_ok hupdate
    obtain ⟨-, htrends⟩ := s.engine.detector.analyzeCongestion_eq_ok htrends
    refine Or.inl ⟨haccepts, update, hupdate, ?_⟩
    rw [InsightsUpdate.recentSpikes, hcongestion, htrends, isOld_eq_isOldSpike hs.congestionWindow,
      tickSpikes]
    simp only [if_pos haccepts, haverages]
    rfl
  · refine Or.inr ⟨haccepts, ?_⟩
    rcases hresult : (s.engine.processFeeData tick.now (poller.newPoints s tick)).2 with err | update
    · exact ⟨err, rfl⟩
    · exact absurd (hok.1 ⟨update, hresult⟩) haccepts

variable {poller}

theorem updateMetrics_of_hasMetrics (hmetrics : poller.hasMetrics = true)
    (f : AppMetrics → AppMetrics) (s : PollState) :
    poller.updateMetrics f s = { s with metrics := f s.metrics } := if_pos hmetrics

theorem runInsights_spikesDetectedTotal (hmetrics : poller.hasMetrics = true) (tick : PollTick)
    (points : List FeeDataPoint) (s : PollState) :
    (poller.runInsights tick points s).1.metrics.spikesDetectedTotal =
      s.metrics.spikesDetectedTotal +
        match (s.engine.processFeeData tick.now points).2 with
        | .ok update => update.recentSpikes.length
        | .error _ => 0 := by
  unfold runInsights
  rcases hprocessed : (s.engine.processFeeData tick.now points).2 with err | update
  · simp only [hprocessed, Nat.add_zero]
  · cases hmanager : poller.alertManager with
    | none => simp only [hprocessed, updateMetrics_of_hasMetrics hmetrics]
    | some manager => simp only [hprocessed, updateMetrics_of_hasMetrics hmetrics]

/-- A tick adds to the metric the spikes that the update of the insights shows. -/
theorem pollOnce_spikesDetectedTotal (hmetrics : poller.hasMetrics = true) (text : Rfc3339)
    (s : PollState) (tick : PollTick) :
    (poller.pollOnce text s tick).1.metrics.spikesDetectedTotal =
      s.metrics.spikesDetectedTotal +
        match (s.engine.processFeeData tick.now (poller.newPoints s tick)).2 with
        | .ok update => update.recentSpikes.length
        | .error _ => 0 := by
  unfold newPoints fetched pollOnce
  rcases hfetch : (fetchWithRetry tick.fetchLatestFees tick.random poller.baseRetryDelayMs
    poller.maxRetryAttempts).points with _ | points
  · simp only [hfetch, updateMetrics_of_hasMetrics hmetrics]
    rfl
  · simp only [hfetch, updateMetrics_of_hasMetrics hmetrics, List.isEmpty_iff, Option.getD_some]
    by_cases hpoints : points = []
    · rw [if_pos hpoints, hpoints]
      rfl
    by_cases hnew : s.store.dropKnown points = []
    · rw [if_neg hpoints, if_pos hnew, hnew]
      rfl
    · rw [if_neg hpoints, if_neg hnew, runInsights_spikesDetectedTotal hmetrics, pushPoints,
        updateMetrics_of_hasMetrics hmetrics]

/-- A tick whose points the engine accepts adds the spikes that are kept and those that are found,
without the old ones at the front. -/
theorem spikesDetectedTotal_of_accepts (hmetrics : poller.hasMetrics = true) (text : Rfc3339)
    {config : InsightsConfig} {s : PollState} (hs : Reachable config s.engine) {tick : PollTick}
    (haccepts : poller.Accepts s tick) :
    (poller.pollOnce text s tick).1.metrics.spikesDetectedTotal =
      s.metrics.spikesDetectedTotal +
        ((s.engine.detector.getRecentSpikes ++ poller.tickSpikes s tick).dropWhile
          (isOldSpike config.spikeDetection tick.now)).length := by
  rw [pollOnce_spikesDetectedTotal hmetrics]
  rcases poller.processFeeData_tick hs tick with ⟨-, update, hupdate, hrecent⟩ | ⟨hnot, -⟩
  · rw [hupdate, ← hrecent]
  · exact absurd haccepts hnot

theorem spikesDetectedTotal_of_not_accepts (hmetrics : poller.hasMetrics = true) (text : Rfc3339)
    {config : InsightsConfig} {s : PollState} (hs : Reachable config s.engine) {tick : PollTick}
    (hnot : ¬ poller.Accepts s tick) :
    (poller.pollOnce text s tick).1.metrics.spikesDetectedTotal = s.metrics.spikesDetectedTotal ∧
      poller.tickSpikes s tick = [] := by
  rw [pollOnce_spikesDetectedTotal hmetrics]
  rcases poller.processFeeData_tick hs tick with ⟨haccepts, -⟩ | ⟨-, err, herr⟩
  · exact absurd haccepts hnot
  · rw [herr]
    exact ⟨rfl, if_neg hnot⟩

theorem reachable_pollOnce (text : Rfc3339) {config : InsightsConfig} {s : PollState}
    (hs : Reachable config s.engine) (tick : PollTick) :
    Reachable config (poller.pollOnce text s tick).1.engine := by
  rw [pollOnce_engine]
  split_ifs
  · exact hs
  · exact hs.process _ _

/-! ## A run -/

variable (poller)

/-- A tick with the spikes that it records as output. -/
def recordOnce (text : Rfc3339) (s : PollState) (tick : PollTick) : PollState × List FeeSpike :=
  ((poller.pollOnce text s tick).1, poller.tickSpikes s tick)

/-- The distinct spikes that ticks record and that were not recorded before. -/
def firstSpikes (text : Rfc3339) (before : Finset FeeSpike) (s : PollState)
    (ticks : List PollTick) : Finset FeeSpike :=
  (emitted (poller.recordOnce text) s ticks).toFinset \ before

/-- After every part of the run the metric has grown by the number of distinct spikes newly recorded
in it. -/
def SpikesCounted (text : Rfc3339) (before : Finset FeeSpike) (s : PollState)
    (ticks : List PollTick) : Prop :=
  ∀ k, (final (poller.pollOnce text) s (ticks.take k)).metrics.spikesDetectedTotal =
    s.metrics.spikesDetectedTotal + (poller.firstSpikes text before s (ticks.take k)).card

/-- When the engine accepts the points of the tick, all spikes that are still kept are old, and as many
of the spikes found are old and at the front as have been recorded before. -/
def CountsOnce (config : InsightsConfig) (seen : Finset FeeSpike) (s : PollState)
    (tick : PollTick) : Prop :=
  poller.Accepts s tick →
    (∀ spike ∈ s.engine.detector.getRecentSpikes,
      isOldSpike config.spikeDetection tick.now spike = true) ∧
    ((poller.tickSpikes s tick).takeWhile (isOldSpike config.spikeDetection tick.now)).length +
      ((poller.tickSpikes s tick).toFinset \ seen).card = (poller.tickSpikes s tick).length

instance (config : InsightsConfig) (seen : Finset FeeSpike) (s : PollState) (tick : PollTick) :
    Decidable (poller.CountsOnce config seen s tick) := by
  unfold CountsOnce
  infer_instance

theorem final_recordOnce (text : Rfc3339) (s : PollState) (ticks : List PollTick) :
    final (poller.recordOnce text) s ticks = final (poller.pollOnce text) s ticks := by
  induction ticks generalizing s with
  | nil => rfl
  | cons tick ticks ih => exact ih _

variable {poller}

theorem reachable_run (text : Rfc3339) {config : InsightsConfig} {s : PollState}
    (hs : Reachable config s.engine) (ticks : List PollTick) :
    Reachable config (final (poller.pollOnce text) s ticks).engine :=
  final_induction (poller.pollOnce text) (P := fun s => Reachable config s.engine) hs
    fun _ tick _ h => reachable_pollOnce text h tick

/-- A tick adds to the distinct spikes of a run those that are neither among them nor were recorded
before the run. -/
theorem card_firstSpikes_take_succ (text : Rfc3339) (before : Finset FeeSpike) (s : PollState)
    {ticks : List PollTick} {k : ℕ} {tick : PollTick} (htick : ticks[k]? = some tick) :
    (poller.firstSpikes text before s (ticks.take (k + 1))).card =
      (poller.firstSpikes text before s (ticks.take k)).card +
        ((poller.tickSpikes (final (poller.pollOnce text) s (ticks.take k)) tick).toFinset \
          (before ∪ poller.firstSpikes text before s (ticks.take k))).card := by
  set earlier := poller.firstSpikes text before s (ticks.take k) with hearlier
  set found := (poller.tickSpikes (final (poller.pollOnce text) s (ticks.take k)) tick).toFinset
  have hunion : poller.firstSpikes text before s (ticks.take (k + 1)) =
      earlier ∪ (found \ (before ∪ earlier)) := by
    rw [firstSpikes, emitted_take_succ _ _ _ htick, List.toFinset_append, final_recordOnce,
      Finset.union_sdiff_distrib, ← firstSpikes, ← hearlier]
    show earlier ∪ found \ before = _
    ext spike
    simp only [Finset.mem_union, Finset.mem_sdiff]
    tauto
  rw [hunion, Finset.card_union_of_disjoint]
  refine Finset.disjoint_left.2 fun spike hmem hfound => ?_
  exact (Finset.mem_sdiff.1 hfound).2 (Finset.mem_union_right _ hmem)

/-- Each spike is counted once, on the tick that finds it first, exactly when at every tick that
analyzes points all spikes kept from earlier ticks are past the congestion window, and the spikes found
are counted unless they were recorded before. -/
theorem spikesCounted_iff (hmetrics : poller.hasMetrics = true) (text : Rfc3339)
    {config : InsightsConfig} (before : Finset FeeSpike) {s : PollState}
    (hs : Reachable config s.engine) (ticks : List PollTick) :
    poller.SpikesCounted text before s ticks ↔
      ∀ k tick, ticks[k]? = some tick →
        poller.CountsOnce config (before ∪ poller.firstSpikes text before s (ticks.take k))
          (final (poller.pollOnce text) s (ticks.take k)) tick := by
  have hend : ∀ k, ticks[k]? = none →
      (poller.firstSpikes text before s (ticks.take (k + 1))).card =
        (poller.firstSpikes text before s (ticks.take k)).card := by
    intro k hk
    rw [List.take_add_one, hk, Option.toList_none, List.append_nil]
  refine (forall_count_eq_iff _ (fun s => s.metrics.spikesDetectedTotal)
    (fun k => (poller.firstSpikes text before s (ticks.take k)).card) s ticks ?_ hend).trans ?_
  · rw [List.take_zero, firstSpikes, emitted_nil, List.toFinset_nil, Finset.empty_sdiff,
      Finset.card_empty]
  refine forall₃_congr fun k tick htick => ?_
  set now := final (poller.pollOnce text) s (ticks.take k) with hnow
  have hreach : Reachable config now.engine := reachable_run text hs _
  rw [card_firstSpikes_take_succ text before s htick, ← hnow]
  by_cases haccepts : poller.Accepts now tick
  · have hle : ((poller.tickSpikes now tick).toFinset \
        (before ∪ poller.firstSpikes text before s (ticks.take k))).card ≤
          (poller.tickSpikes now tick).length :=
      (Finset.card_le_card Finset.sdiff_subset).trans (List.toFinset_card_le _)
    have hlength := FrontExpiry.length_dropWhile_append_eq_iff
      (p := isOldSpike config.spikeDetection tick.now) now.engine.detector.getRecentSpikes
      (poller.tickSpikes now tick) hle
    rw [spikesDetectedTotal_of_accepts hmetrics text hreach haccepts, CountsOnce, ← hlength]
    constructor
    · intro h _
      omega
    · intro h
      have hcount := h haccepts
      omega
  · obtain ⟨htotal, hnone⟩ := spikesDetectedTotal_of_not_accepts hmetrics text hreach haccepts
    rw [htotal, hnone, List.toFinset_nil, Finset.empty_sdiff, Finset.card_empty]
    exact iff_of_true rfl fun h => absurd h haccepts

end Poller

/-- A poller with metrics. -/
def meteredPoller : Poller := { barePoller with hasMetrics := true }

/-- A tick at a minute that fetches these points. -/
def tickAtMinute (minute : ℤ) (points : List FeeDataPoint) : PollTick :=
  { tickFetching points with now := minutes minute }

/-- Fees of ten times the others for five minutes. -/
def spikePoints : List FeeDataPoint :=
  [pricedAt 100 1, pricedAt 100 2, pricedAt 100 3, pricedAt 1000 4, pricedAt 1000 9]

/-- A poller that starts at the minute zero with nothing in its store. -/
def startAtZero : PollState := { startWith [] 10 with engine := .new .default (minutes 0) }

/-- The next points come when the spike has left the congestion window. -/
theorem spikesCounted_left_window :
    meteredPoller.SpikesCounted pollText ∅ startAtZero
      [tickAtMinute 10 spikePoints, tickAtMinute 70 [pricedAt 100 70]] := by
  have hstart : Reachable .default startAtZero.engine := .new _
  refine (Poller.spikesCounted_iff rfl pollText ∅ hstart _).2 ?_
  rintro (_ | _ | k) tick htick
  · obtain rfl := Option.some.inj htick
    decide +kernel
  · obtain rfl := Option.some.inj htick
    decide +kernel
  · cases htick

/-- The next points come a minute later: the spike is counted on both ticks. -/
theorem spike_counted_twice :
    ¬ meteredPoller.SpikesCounted pollText ∅ startAtZero
      [tickAtMinute 10 spikePoints, tickAtMinute 11 [pricedAt 100 11]] := by
  intro h
  have htotal := h 2
  revert htotal
  decide +kernel

end StellarFeeTracker
