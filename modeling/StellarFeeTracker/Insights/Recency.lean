import StellarFeeTracker.General.FrontExpiry
import StellarFeeTracker.Insights.Views

/-!
# Recent spikes

The detector pops old spikes from the front of its recent ones when it analyzes a batch, and at no
other time.  What it shows is therefore what one popping at the last analysis leaves of all the
spikes it recorded (`getRecentSpikes_run`): a spike that is old may still be shown because it was not
old at the last analysis, or because it was recorded after one that was not (`recentExact_iff`).
-/

namespace StellarFeeTracker

open Machine

/-- A call of `analyze_congestion`. -/
structure AnalyzeCall where
  now : DateTime
  currentFees : List FeeDataPoint
  baseline : ℚ
  deriving DecidableEq, Repr

/-- The call has no points, or a baseline to compare them with. -/
def AnalyzeCall.isAccepted (call : AnalyzeCall) : Bool :=
  call.currentFees.isEmpty || decide (0 < call.baseline)

namespace CongestionDetector

/-- A call as a step of the detector. -/
def analyze (detector : CongestionDetector) (call : AnalyzeCall) :
    CongestionDetector × List (Except InsightsError CongestionTrends) :=
  let analyzed := detector.analyzeCongestion call.now call.currentFees call.baseline
  (analyzed.1, [analyzed.2])

/-- The spikes that calls record, in the order in which they are recorded. -/
def recordedSpikes (config : SpikeConfig) (calls : List AnalyzeCall) : List FeeSpike :=
  calls.flatMap fun call => (CongestionDetector.new config).newSpikes call.baseline call.currentFees

/-- The spike started before the congestion window of an instant. -/
def isOldSpike (config : SpikeConfig) (t : DateTime) (spike : FeeSpike) : Bool :=
  spike.startTime < t - config.congestionWindow

theorem isOld_eq_isOldSpike {analyzer : TrendAnalyzer} {config : SpikeConfig}
    (hwindow : analyzer.congestionWindow = config.congestionWindow) (t : DateTime) :
    analyzer.isOld t = isOldSpike config t := by
  funext spike
  rw [TrendAnalyzer.isOld, hwindow, isOldSpike]

/-! ## One call -/

variable {detector : CongestionDetector} {config : SpikeConfig}

/-- A detector that was built with this configuration. -/
structure Configured (config : SpikeConfig) (detector : CongestionDetector) : Prop where
  config_eq : detector.config = config
  window_eq : detector.trendAnalyzer.congestionWindow = config.congestionWindow

theorem configured_new (config : SpikeConfig) : Configured config (.new config) := ⟨rfl, rfl⟩

theorem detectSpikes_of_accepted {call : AnalyzeCall} (h : call.isAccepted = true) :
    detector.detectSpikes call.currentFees call.baseline =
      .ok (detector.newSpikes call.baseline call.currentFees) := by
  have hok : ∃ spikes, detector.detectSpikes call.currentFees call.baseline = .ok spikes := by
    by_cases hempty : call.currentFees = []
    · rw [hempty]
      exact ⟨[], rfl⟩
    · unfold AnalyzeCall.isAccepted at h
      rw [Bool.or_eq_true, List.isEmpty_iff, decide_eq_true_iff] at h
      exact (FeeInsightsEngine.detectSpikes_isOk_iff detector hempty _).2 (h.resolve_left hempty)
  obtain ⟨spikes, hspikes⟩ := hok
  rw [newSpikes, hspikes]

theorem detectSpikes_of_not_accepted {call : AnalyzeCall} (h : ¬ call.isAccepted = true) :
    ∃ err, detector.detectSpikes call.currentFees call.baseline = .error err := by
  unfold AnalyzeCall.isAccepted at h
  rw [Bool.or_eq_true, List.isEmpty_iff, decide_eq_true_iff, not_or] at h
  have hno := (FeeInsightsEngine.detectSpikes_isOk_iff detector h.1 _).not.2 h.2
  rcases hspikes : detector.detectSpikes call.currentFees call.baseline with err | spikes
  · exact ⟨err, rfl⟩
  · exact absurd ⟨spikes, hspikes⟩ hno

/-- A call that is not accepted changes nothing and records nothing. -/
theorem analyze_of_not_accepted {call : AnalyzeCall} (h : ¬ call.isAccepted = true) :
    (∃ err, detector.analyze call = (detector, [.error err])) ∧
      detector.newSpikes call.baseline call.currentFees = [] := by
  obtain ⟨err, herr⟩ := @detectSpikes_of_not_accepted detector call h
  constructor
  · exact ⟨err, by simp only [analyze, analyzeCongestion, herr]⟩
  · rw [newSpikes, herr]

/-- An accepted call pops the old spikes at the front of the recent ones and the new ones, and reports
what it leaves. -/
theorem analyze_of_accepted (hconfig : Configured config detector) {call : AnalyzeCall}
    (h : call.isAccepted = true) :
    (detector.analyze call).1.getRecentSpikes =
        (detector.getRecentSpikes ++ (new config).newSpikes call.baseline call.currentFees).dropWhile
          (isOldSpike config call.now) ∧
      ∃ trends, (detector.analyze call).2 = [.ok trends] ∧
        trends.recentSpikes = (detector.analyze call).1.getRecentSpikes := by
  have hspikes := @detectSpikes_of_accepted detector call h
  have hnew : detector.newSpikes call.baseline call.currentFees =
      (new config).newSpikes call.baseline call.currentFees :=
    newSpikes_congr call.baseline (hconfig.config_eq : detector.config = (new config).config) _
  simp only [analyze, analyzeCongestion, hspikes, TrendAnalyzer.cleanOldSpikes_foldl_addSpike,
    getRecentSpikes, hnew, isOld_eq_isOldSpike hconfig.window_eq]
  exact ⟨trivial, _, rfl, rfl⟩

theorem configured_analyze (hconfig : Configured config detector) (call : AnalyzeCall) :
    Configured config (detector.analyze call).1 := by
  by_cases h : call.isAccepted = true
  · have hspikes := @detectSpikes_of_accepted detector call h
    simp only [analyze, analyzeCongestion, hspikes, TrendAnalyzer.cleanOldSpikes_foldl_addSpike]
    exact ⟨hconfig.config_eq, hconfig.window_eq⟩
  · obtain ⟨⟨err, herr⟩, -⟩ := @analyze_of_not_accepted detector call h
    rw [herr]
    exact hconfig

/-! ## A run -/

/-- The spikes of the accepted calls, as they arrive at the recent ones. -/
def arrivals (config : SpikeConfig) (calls : List AnalyzeCall) :
    List (FrontExpiry.Arrival DateTime FeeSpike) :=
  (calls.filter (·.isAccepted)).map fun call =>
    ⟨call.now, (new config).newSpikes call.baseline call.currentFees⟩

/-- The recent spikes are a queue that expires at the front when spikes arrive. -/
theorem getRecentSpikes_final (hconfig : Configured config detector) (calls : List AnalyzeCall) :
    (final analyze detector calls).getRecentSpikes =
      FrontExpiry.contents (isOldSpike config) detector.getRecentSpikes (arrivals config calls) := by
  induction calls generalizing detector with
  | nil => rfl
  | cons call calls ih =>
    rw [final_cons, ih (configured_analyze hconfig call), arrivals, arrivals, List.filter_cons]
    by_cases h : call.isAccepted = true
    · rw [(analyze_of_accepted hconfig h).1, if_pos h]
      rfl
    · obtain ⟨⟨err, herr⟩, -⟩ := @analyze_of_not_accepted detector call h
      rw [herr, if_neg h]

theorem flatMap_arrivals (config : SpikeConfig) (calls : List AnalyzeCall) :
    (arrivals config calls).flatMap (·.elements) = recordedSpikes config calls := by
  induction calls with
  | nil => rfl
  | cons call calls ih =>
    rw [recordedSpikes, List.flatMap_cons, arrivals, List.filter_cons]
    by_cases h : call.isAccepted = true
    · rw [if_pos h, List.map_cons, List.flatMap_cons]
      exact congrArg _ ih
    · rw [if_neg h, (analyze_of_not_accepted h).2, List.nil_append]
      exact ih

theorem isOldSpike_mono {s t : DateTime} (spike : FeeSpike) (hst : s ≤ t)
    (h : isOldSpike config s spike = true) : isOldSpike config t spike = true := by
  unfold isOldSpike at h ⊢
  rw [decide_eq_true_iff] at h ⊢
  exact h.trans_le (Int.sub_le_sub_right hst _)

/-- A spike is old at the last accepted call. -/
def isOldAtLastAnalysis (config : SpikeConfig) (calls : List AnalyzeCall) (spike : FeeSpike) : Bool :=
  (calls.filter (·.isAccepted)).getLast?.any fun call => isOldSpike config call.now spike

/-- In a run the recent spikes are what one popping at the last accepted call leaves of all the spikes
that were recorded. -/
theorem getRecentSpikes_run {calls : List AnalyzeCall}
    (horder : calls.Pairwise fun a b => a.now ≤ b.now) :
    (final analyze (new config) calls).getRecentSpikes =
      (recordedSpikes config calls).dropWhile (isOldAtLastAnalysis config calls) := by
  have horder' : (arrivals config calls).Pairwise fun a b => a.now ≤ b.now :=
    List.pairwise_map.2 (horder.filter _)
  have hleft := FrontExpiry.contents_nil_eq_left (isOldSpike config)
    (fun {s t} spike => isOldSpike_mono spike) horder'
  rw [getRecentSpikes_final (configured_new config), ← flatMap_arrivals]
  refine hleft.trans ?_
  unfold FrontExpiry.left isOldAtLastAnalysis
  congr 1
  funext spike
  rw [arrivals, List.getLast?_map, Option.any_map]

/-- After calls, what is read at an instant is exactly the recorded spikes inside the congestion
window: the recent spikes of the detector, and those of the last analysis. -/
def RecentExact (config : SpikeConfig) (calls : List AnalyzeCall) (t : DateTime) : Prop :=
  (final analyze (new config) calls).getRecentSpikes =
      (recordedSpikes config calls).filter (fun spike => !isOldSpike config t spike) ∧
    ∀ trends, (outputs analyze (new config) calls).getLast? = some [.ok trends] →
      trends.recentSpikes =
        (recordedSpikes config calls).filter fun spike => !isOldSpike config t spike

/-- A call that reports trends reports the recent spikes that it leaves. -/
theorem recentSpikes_of_last {calls : List AnalyzeCall} {trends : CongestionTrends}
    (h : (outputs analyze (new config) calls).getLast? = some [.ok trends]) :
    trends.recentSpikes = (final analyze (new config) calls).getRecentSpikes := by
  rcases List.eq_nil_or_concat' calls with rfl | ⟨front, call, rfl⟩
  · cases h
  · have hconfig : Configured config (final analyze (new config) front) :=
      final_induction analyze (configured_new config) fun d c _ hd => configured_analyze hd c
    rw [outputs_concat, List.getLast?_concat, Option.some.injEq] at h
    rw [final_append]
    by_cases haccepted : call.isAccepted = true
    · obtain ⟨-, trends', htrends', hrecent⟩ := analyze_of_accepted hconfig haccepted
      rw [htrends'] at h
      cases h
      exact hrecent
    · obtain ⟨⟨err, herr⟩, -⟩ := @analyze_of_not_accepted (final analyze (new config) front) call haccepted
      rw [herr] at h
      cases h

/-- After calls in order of time, exactly the recorded spikes inside the congestion window are read
exactly when each recorded spike that is before the window was before it at the last accepted call,
together with all the spikes recorded before it. -/
theorem recentExact_iff (config : SpikeConfig) (calls : List AnalyzeCall) (t : DateTime)
    (horder : calls.Pairwise fun a b => a.now ≤ b.now) (ht : ∀ call ∈ calls, call.now ≤ t) :
    RecentExact config calls t ↔
      ∀ front spike back, recordedSpikes config calls = front ++ spike :: back →
        isOldSpike config t spike = true →
          ∀ s ∈ front ++ [spike], isOldAtLastAnalysis config calls s = true := by
  have hlater : ∀ spike, isOldAtLastAnalysis config calls spike = true →
      isOldSpike config t spike = true := by
    intro spike hold
    obtain ⟨call, hcall, hold⟩ := (Option.any_eq_true _ _).1 hold
    have hmem := List.mem_of_mem_filter (List.mem_of_getLast? hcall)
    exact isOldSpike_mono spike (ht call hmem) hold
  rw [← FrontExpiry.dropWhile_eq_filter_iff hlater, ← getRecentSpikes_run horder]
  constructor
  · exact fun h => h.1
  · intro h
    exact ⟨h, fun trends htrends => (recentSpikes_of_last htrends).trans h⟩

/-- A call at a minute, with the baseline 100. -/
def analyzeAt (minute : ℤ) (fees : List FeeDataPoint) : AnalyzeCall where
  now := minutes minute
  currentFees := fees
  baseline := 100

/-- A spike that is read while it is recent. -/
theorem recent_exact_one_call :
    RecentExact .default [analyzeAt 30 [pricedAt 500 10, pricedAt 500 20]] (minutes 40) := by
  refine (recentExact_iff _ _ _ (List.pairwise_singleton _ _) (by decide)).2 ?_
  intro front spike back heq hold
  have hrecent : ∀ s ∈ recordedSpikes .default [analyzeAt 30 [pricedAt 500 10, pricedAt 500 20]],
      isOldSpike .default (minutes 40) s = false := by
    decide +kernel
  rw [hrecent spike (heq ▸ List.mem_append_right front List.mem_cons_self)] at hold
  cases hold

/-- A batch of older points arrives later: its spike began an hour and fifty minutes ago and is shown
behind one that began twenty minutes ago. -/
theorem late_spike_shown_as_recent :
    ¬ RecentExact .default [analyzeAt 120 [pricedAt 500 100, pricedAt 500 110],
      analyzeAt 120 [pricedAt 500 10, pricedAt 500 20]] (minutes 120) := by
  rintro ⟨h, -⟩
  revert h
  decide +kernel

end CongestionDetector

end StellarFeeTracker
