import StellarFeeTracker.General.FrontExpiry
import StellarFeeTracker.Insights.Batching
import StellarFeeTracker.Insights.Processing

/-!
# The two views on the insights

The insights of the last update are kept, and beside them getters compute the averages, the extremes
and the congestion trends from the state of the components.  The first two are the same computation
on the same state.  The trends are not: the getter always reports a normal trend, so it agrees with
the last update exactly when that found no spike in the congestion window (`viewsAgree_iff`).
-/

namespace StellarFeeTracker

namespace TrendAnalyzer

variable (analyzer : TrendAnalyzer)

/-- The spike started before the congestion window of the instant. -/
def isOld (now : DateTime) (spike : FeeSpike) : Bool :=
  spike.startTime < now - analyzer.congestionWindow

/-- Adding spikes one by one drops the old ones at the front of all of them. -/
theorem cleanOldSpikes_foldl_addSpike (now : DateTime) (spikes : List FeeSpike) :
    (spikes.foldl (fun a s => a.addSpike now s) analyzer).cleanOldSpikes now =
      { analyzer with
        recentSpikes := (analyzer.recentSpikes ++ spikes).dropWhile (analyzer.isOld now) } := by
  induction spikes generalizing analyzer with
  | nil =>
    rw [List.append_nil]
    rfl
  | cons spike spikes ih =>
    rw [List.foldl_cons, ih]
    have hdrop := FrontExpiry.dropWhile_append_dropWhile (p := analyzer.isOld now)
      (q := analyzer.isOld now) (fun _ => id) (analyzer.recentSpikes ++ [spike]) spikes
    rw [List.append_assoc, List.singleton_append] at hdrop
    rw [← hdrop]
    rfl

/-- Without recent spikes the trend is normal, and only then. -/
theorem determineTrendIndicator_eq_normal_iff :
    analyzer.determineTrendIndicator = .normal ↔ analyzer.recentSpikes = [] := by
  constructor
  · intro h
    by_contra hne
    have hlast := List.getLast?_eq_some_getLast hne
    unfold determineTrendIndicator at h
    simp only [hlast] at h
    split_ifs at h
    split at h <;> cases h
  · intro h
    unfold determineTrendIndicator
    simp [h]

theorem predictDuration_eq_none_iff :
    analyzer.predictDuration = none ↔ analyzer.recentSpikes = [] := by
  unfold predictDuration
  split_ifs with hempty
  · exact iff_of_true rfl (List.isEmpty_iff.1 hempty)
  · exact iff_of_false (by simp) (fun h => hempty (List.isEmpty_iff.2 h))

end TrendAnalyzer

namespace CongestionDetector

variable (detector : CongestionDetector) {now : DateTime} {fees : List FeeDataPoint} {baseline : ℚ}
  {trends : CongestionTrends}

/-- The trends that an analysis reports are those of the spikes it leaves in the analyzer: the ones
that were there and the new ones, without the old ones at the front. -/
theorem analyzeCongestion_eq_ok
    (h : (detector.analyzeCongestion now fees baseline).2 = .ok trends) :
    let analyzer : TrendAnalyzer :=
      { detector.trendAnalyzer with
        recentSpikes := (detector.trendAnalyzer.recentSpikes ++
          detector.newSpikes baseline fees).dropWhile (detector.trendAnalyzer.isOld now) }
    (detector.analyzeCongestion now fees baseline).1.trendAnalyzer = analyzer ∧
      trends = {
        currentTrend := analyzer.determineTrendIndicator
        congestionLevel := .fromTrend analyzer.determineTrendIndicator
        recentSpikes := analyzer.recentSpikes
        trendStrength := analyzer.calculateTrendStrength
        predictedDuration := analyzer.predictDuration } := by
  unfold analyzeCongestion at h ⊢
  unfold newSpikes
  rcases hspikes : detector.detectSpikes fees baseline with err | spikes
  · simp only [hspikes] at h
    cases h
  · simp only [hspikes, TrendAnalyzer.cleanOldSpikes_foldl_addSpike] at h ⊢
    exact ⟨trivial, (Except.ok.inj h).symm⟩

end CongestionDetector

namespace FeeInsightsEngine

variable (engine : FeeInsightsEngine) {now : DateTime} {data : List FeeDataPoint}
  {update : InsightsUpdate}

/-- What the insights of a successful call are, and the engine that it leaves. -/
theorem processFeeData_eq_ok (h : (engine.processFeeData now data).2 = .ok update) :
    ∃ averages trends,
      (engine.ingest now data).calculator.calculateAverages now = .ok averages ∧
      (engine.detector.analyzeCongestion now data averages.mediumTerm.value).2 = .ok trends ∧
      update.insights.rollingAverages = averages ∧
      update.insights.extremes = (engine.ingest now data).getExtremes now ∧
      update.insights.congestionTrends = trends ∧
      (engine.processFeeData now data).1 =
        { engine.ingest now data with
          detector := (engine.detector.analyzeCongestion now data averages.mediumTerm.value).1
          lastUpdate := some now
          lastInsights := some update.insights } := by
  unfold processFeeData at h ⊢
  split_ifs at h ⊢ with hempty
  rcases hvalid : validateFeeData now data with err | _
  · rw [hvalid] at h
    cases h
  have hcalculator : (engine.ingest now data).calculator =
      data.foldl (fun c p => c.addDataPoint now p) engine.calculator := rfl
  rw [hcalculator]
  simp only [hvalid] at h ⊢
  rcases haverages : (data.foldl (fun c p => c.addDataPoint now p)
    engine.calculator).calculateAverages now with err | averages
  · simp only [haverages] at h
    cases h
  simp only [haverages] at h ⊢
  rcases htrends : (engine.detector.analyzeCongestion now data averages.mediumTerm.value).2 with
    err | trends
  · simp only [htrends] at h
    cases h
  simp only [htrends] at h ⊢
  obtain rfl := Except.ok.inj h
  exact ⟨averages, trends, rfl, htrends, rfl, rfl, rfl, rfl⟩

/-- The getters return the averages, the extremes and the trends of the current insights. -/
structure ViewsAgree (now : DateTime) : Prop where
  averages : engine.getRollingAverages now = (engine.getCurrentInsights now).rollingAverages
  extremes : engine.getExtremes now = (engine.getCurrentInsights now).extremes
  trends : engine.getCongestionTrends = (engine.getCurrentInsights now).congestionTrends

/-- The spikes that a call looks at: those that are still kept, and those of its batch against the
medium-term average with the batch added. -/
def spikesSeen (now : DateTime) (data : List FeeDataPoint) : List FeeSpike :=
  engine.detector.trendAnalyzer.recentSpikes ++
    match (engine.ingest now data).calculator.calculateAverages now with
    | .ok averages => engine.detector.newSpikes averages.mediumTerm.value data
    | .error _ => []

variable {engine} {config : InsightsConfig}

theorem Reachable.congestionWindow (h : Reachable config engine) :
    engine.detector.trendAnalyzer.congestionWindow = config.spikeDetection.congestionWindow := by
  induction h with
  | new now => rfl
  | @process engine now data _ ih =>
    rw [← ih]
    rcases hresult : (engine.processFeeData now data).2 with err | update
    · rcases engine.processFeeData_cases now data with
        ⟨-, err, hcall⟩ | ⟨-, ⟨-, err, hcall⟩ | ⟨-, detector, insights, hcall, -⟩⟩
      · rw [hcall]
      · rw [hcall]
        rfl
      · rw [hcall] at hresult
        cases hresult
    · obtain ⟨averages, trends, -, htrends, -, -, -, hengine⟩ := engine.processFeeData_eq_ok hresult
      rw [hengine, (engine.detector.analyzeCongestion_eq_ok htrends).1]

/-- After a successful call the views agree exactly when all spikes that it saw started before the
congestion window. -/
theorem viewsAgree_iff (h : Reachable config engine)
    (hok : (engine.processFeeData now data).2 = .ok update) :
    (engine.processFeeData now data).1.ViewsAgree now ↔
      ∀ spike ∈ engine.spikesSeen now data,
        spike.startTime < now - config.spikeDetection.congestionWindow := by
  obtain ⟨averages, trends, haverages, htrends, hrolling, hextremes, hcongestion, hengine⟩ :=
    engine.processFeeData_eq_ok hok
  obtain ⟨hanalyzer, htrends⟩ := engine.detector.analyzeCongestion_eq_ok htrends
  have hseen : engine.spikesSeen now data = engine.detector.trendAnalyzer.recentSpikes ++
      engine.detector.newSpikes averages.mediumTerm.value data := by
    rw [spikesSeen, haverages]
  have hold : (∀ spike ∈ engine.spikesSeen now data,
      spike.startTime < now - config.spikeDetection.congestionWindow) ↔
        (engine.spikesSeen now data).dropWhile (engine.detector.trendAnalyzer.isOld now) = [] := by
    rw [List.dropWhile_eq_nil_iff, ← h.congestionWindow]
    simp [TrendAnalyzer.isOld]
  rw [hold, hseen]
  constructor
  · intro hviews
    have hnormal := congrArg CongestionTrends.currentTrend hviews.trends
    rw [hengine, getCurrentInsights, hcongestion, htrends] at hnormal
    exact (TrendAnalyzer.determineTrendIndicator_eq_normal_iff _).1 hnormal.symm
  · intro hnone
    refine ⟨?_, ?_, ?_⟩
    · rw [hengine]
      show getRollingAverages (engine.ingest now data) now = update.insights.rollingAverages
      rw [getRollingAverages, haverages, hrolling]
    · rw [hengine]
      exact hextremes.symm
    · rw [hengine]
      show getCongestionTrends _ = update.insights.congestionTrends
      rw [hcongestion, htrends, getCongestionTrends, CongestionDetector.getRecentSpikes,
        CongestionDetector.calculateTrendStrength, hanalyzer,
        (TrendAnalyzer.determineTrendIndicator_eq_normal_iff _).2 hnone,
        (TrendAnalyzer.predictDuration_eq_none_iff _).2 hnone]
      rfl

/-- A spike that the detector still keeps started more than an hour before the last of three calls. -/
theorem viewsAgree_old_spike :
    let first := ((new .default (minutes 0)).processFeeData (minutes 10)
      [pricedAt 100 1, pricedAt 100 2, pricedAt 100 3, pricedAt 1000 4, pricedAt 1000 9]).1
    let second := (first.processFeeData (minutes 30) [pricedAt 110 28, pricedAt 0 29]).1
    second.detector.trendAnalyzer.recentSpikes ≠ [] ∧
      (second.processFeeData (minutes 80) [pricedAt 100 78, pricedAt 120 79]).1.ViewsAgree
        (minutes 80) := by
  intro first second
  have hreachable : Reachable .default second := ((Reachable.new (minutes 0)).process _ _).process _ _
  obtain ⟨update, hok⟩ := (processFeeData_isOk_iff hreachable.wellFormed (minutes 80)
    [pricedAt 100 78, pricedAt 120 79]).2 ⟨by simp, by decide, by decide +kernel⟩
  exact ⟨by decide +kernel, (viewsAgree_iff hreachable hok).2 (by decide +kernel)⟩

/-- Fees of ten times the others for five minutes: the update reports a rising trend, the getter a
normal one. -/
theorem views_differ_after_spike :
    let engine := ((new .default (minutes 0)).processFeeData (minutes 10)
      [pricedAt 100 1, pricedAt 100 2, pricedAt 100 3, pricedAt 1000 4, pricedAt 1000 9]).1
    engine.lastUpdate = some (minutes 10) ∧ ¬ engine.ViewsAgree (minutes 10) := by
  refine ⟨by decide +kernel, fun h => ?_⟩
  have htrend := congrArg CongestionTrends.currentTrend h.trends
  revert htrend
  decide +kernel

end FeeInsightsEngine

end StellarFeeTracker
