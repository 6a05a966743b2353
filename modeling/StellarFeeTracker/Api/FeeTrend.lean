import StellarFeeTracker.Polling.Crashes
import StellarFeeTracker.Polling.SpikeMetric
import StellarFeeTracker.Services.Horizon

/-!
# Fee trend

The answer to `/fees/trend` is made of the averages and the congestion trends of the last insights.  An
average is compared with that of the next longer window when that window has its samples, so a window
without a point is compared like one whose fees have vanished.  The spikes shown have lasted for the
minimum duration, and the status, their number and the predicted minutes say the same about them.  Both
hold at any time of any run of ticks and crashes (`Lives.feeTrend_of_run`).
-/

namespace StellarFeeTracker

/-! ## The handler -/

structure TrendChanges where
  fiveMPct : Option ℚ
  oneHPct : Option ℚ
  sixHPct : Option ℚ
  twentyFourHPct : Option ℚ
  deriving DecidableEq, Repr

structure FeeTrendResponse where
  status : String
  trendStrength : String
  changes : TrendChanges
  recentSpikeCount : ℕ
  predictedCongestionMinutes : Option ℤ
  lastUpdated : DateTime
  deriving DecidableEq, Repr

def percentChange (currentAvg : ℚ) (windowAvg : AverageResult) : Option ℚ :=
  if windowAvg.isPartial ∨ windowAvg.value ≤ 0 then none
  else some ((currentAvg - windowAvg.value) / windowAvg.value * 100)

def trendIndicatorToString : TrendIndicator → String
  | .normal => "Normal"
  | .rising => "Rising"
  | .congested => "Congested"
  | .declining => "Declining"

def trendStrengthToString : TrendStrength → String
  | .weak => "Weak"
  | .moderate => "Moderate"
  | .strong => "Strong"

/-- `fee_trend`; the engine is absent when the state has none. -/
def feeTrend (insightsEngine : Option FeeInsightsEngine) (now : DateTime) :
    Except AppError FeeTrendResponse :=
  match insightsEngine with
  | none => .error (.config "Insights engine missing from fees state")
  | some engine =>
    let insights := engine.getCurrentInsights now
    let averages := insights.rollingAverages
    .ok {
      status := trendIndicatorToString insights.congestionTrends.currentTrend
      trendStrength := trendStrengthToString insights.congestionTrends.trendStrength
      changes :=
        { fiveMPct := percentChange averages.shortTerm.value averages.mediumTerm
          oneHPct := percentChange averages.mediumTerm.value averages.longTerm
          sixHPct := percentChange averages.mediumTerm.value averages.longTerm
          twentyFourHPct := none }
      recentSpikeCount := insights.congestionTrends.recentSpikes.length
      predictedCongestionMinutes :=
        insights.congestionTrends.predictedDuration.map Duration.numMinutes
      lastUpdated := insights.lastUpdated }

/-! ## Averages -/

/-- The average is partial when it has too few samples, and is that of positive fees. -/
structure AverageResult.Sound (minSamples : ℕ) (result : AverageResult) : Prop where
  isPartial_iff : result.isPartial = true ↔ result.sampleCount < minSamples
  nonneg : 0 ≤ result.value
  eq_zero_iff : result.value = 0 ↔ result.sampleCount = 0

structure RollingAverages.Sound (averages : RollingAverages) : Prop where
  shortTerm : averages.shortTerm.Sound 5
  mediumTerm : averages.mediumTerm.Sound 20
  longTerm : averages.longTerm.Sound 100

section PercentChange

variable {currentAvg : ℚ} {windowAvg : AverageResult} {minSamples : ℕ}

theorem percentChange_isSome_iff (h : windowAvg.Sound minSamples) (hpos : 0 < minSamples) :
    (percentChange currentAvg windowAvg).isSome = true ↔ minSamples ≤ windowAvg.sampleCount := by
  unfold percentChange
  split_ifs with hnone
  · refine iff_of_false (by simp) fun hmany => ?_
    rcases hnone with hpartial | hvalue
    · exact absurd hmany (not_le.2 (h.isPartial_iff.1 hpartial))
    · have hzero := h.eq_zero_iff.1 (le_antisymm hvalue h.nonneg)
      rw [hzero] at hmany
      exact absurd hpos (not_lt.2 hmany)
  · exact iff_of_true rfl (not_lt.1 fun hfew => hnone (.inl (h.isPartial_iff.2 hfew)))

/-- A change is a fall by everything exactly when there is nothing to compare. -/
theorem percentChange_ge (hcurrent : 0 ≤ currentAvg) {x : ℚ}
    (hx : percentChange currentAvg windowAvg = some x) :
    -100 ≤ x ∧ (x = -100 ↔ currentAvg = 0) := by
  unfold percentChange at hx
  split_ifs at hx with hnone
  have hpos : 0 < windowAvg.value := not_le.1 fun hle => hnone (.inr hle)
  have hratio : x = currentAvg / windowAvg.value * 100 - 100 := by
    rw [← Option.some.inj hx]
    field_simp
  have hquotient : 0 ≤ currentAvg / windowAvg.value := div_nonneg hcurrent hpos.le
  constructor
  · rw [hratio]
    linarith
  · rw [hratio]
    constructor
    · intro hall
      have hzero : currentAvg / windowAvg.value = 0 := by linarith
      exact (div_eq_zero_iff.1 hzero).resolve_right hpos.ne'
    · rintro rfl
      rw [zero_div, zero_mul, zero_sub]

end PercentChange

/-! ## Spikes -/

/-- The spikes have lasted for so long. -/
def Lasting (minimum : Duration) (spikes : List FeeSpike) : Prop :=
  ∀ spike ∈ spikes, minimum ≤ spike.duration

namespace CongestionDetector

variable (detector : CongestionDetector)

theorem lasting_endSpike {spikes : List FeeSpike}
    (h : Lasting detector.config.minimumSpikeDuration spikes) (spike : FeeSpike) (stop : DateTime) :
    Lasting detector.config.minimumSpikeDuration (detector.endSpike spikes spike stop) := by
  unfold endSpike
  dsimp only
  split_ifs with hlong
  · intro other hother
    rcases List.mem_append.1 hother with hother | hother
    · exact h other hother
    · rw [List.mem_singleton.1 hother]
      exact hlong
  · exact h

theorem lasting_scanFee (baseline threshold : ℚ) {acc : List FeeSpike × Option FeeSpike}
    (h : Lasting detector.config.minimumSpikeDuration acc.1) (feePoint : FeeDataPoint) :
    Lasting detector.config.minimumSpikeDuration
      (detector.scanFee baseline threshold acc feePoint).1 := by
  unfold scanFee
  split_ifs
  · split <;> exact h
  · split
    · exact h
    · exact detector.lasting_endSpike h _ _

theorem lasting_newSpikes (baseline : ℚ) (fees : List FeeDataPoint) :
    Lasting detector.config.minimumSpikeDuration (detector.newSpikes baseline fees) := by
  have hnone : Lasting detector.config.minimumSpikeDuration [] := fun _ h => by cases h
  have hscan : ∀ (points : List FeeDataPoint) (acc : List FeeSpike × Option FeeSpike),
      Lasting detector.config.minimumSpikeDuration acc.1 →
      Lasting detector.config.minimumSpikeDuration (points.foldl (detector.scanFee baseline
        (detector.spikeThreshold baseline)) acc).1 := by
    intro points
    induction points with
    | nil => exact fun _ h => h
    | cons p points ih => exact fun acc h => ih _ (detector.lasting_scanFee _ _ h p)
  unfold newSpikes detectSpikes
  split_ifs
  · exact hnone
  · exact hnone
  · dsimp only
    split
    · next heq =>
      split at heq
      · obtain rfl := Except.ok.inj heq
        exact detector.lasting_endSpike (hscan _ _ hnone) _ _
      · obtain rfl := Except.ok.inj heq
        exact hscan _ _ hnone
    · exact hnone

end CongestionDetector

namespace TrendAnalyzer

variable {analyzer : TrendAnalyzer}

theorem numMinutes_minutes (n : ℤ) : Duration.numMinutes (minutes n) = n := by
  unfold Duration.numMinutes Duration.numSeconds minutes seconds
  rw [Int.mul_tdiv_cancel _ (by decide), Int.mul_tdiv_cancel _ (by decide)]

theorem five_le_numMinutes {d : Duration} (h : minutes 5 ≤ d) : 5 ≤ Duration.numMinutes d := by
  have hd : (300000000000 : ℤ) ≤ d := h
  unfold Duration.numMinutes Duration.numSeconds nanosPerSecond
  have hseconds : d.tdiv 1000000000 = d / 1000000000 :=
    Int.tdiv_eq_ediv_of_nonneg (by omega)
  rw [hseconds, Int.tdiv_eq_ediv_of_nonneg (by omega)]
  omega

/-- The spikes shown predict at least the time that each of them has lasted. -/
theorem five_le_predictDuration (h : Lasting (minutes 5) analyzer.recentSpikes) {d : Duration}
    (hd : analyzer.predictDuration = some d) : 5 ≤ Duration.numMinutes d := by
  unfold predictDuration at hd
  split_ifs at hd with hempty
  have hlength : 0 < (analyzer.recentSpikes.length : ℤ) := by
    rw [List.isEmpty_iff] at hempty
    exact_mod_cast List.length_pos_iff.2 hempty
  have hsum : (5 : ℤ) * analyzer.recentSpikes.length ≤
      (analyzer.recentSpikes.map fun s => Duration.numMinutes s.duration).sum := by
    have hnsmul := List.card_nsmul_le_sum
      (analyzer.recentSpikes.map fun s => Duration.numMinutes s.duration) 5 (by
        simpa using fun s hs => five_le_numMinutes (h s hs))
    rw [List.length_map, nsmul_eq_mul, mul_comm] at hnsmul
    exact hnsmul
  generalize (analyzer.recentSpikes.map fun s => Duration.numMinutes s.duration).sum = sum
    at hd hsum
  have havg : 5 ≤ sum.tdiv analyzer.recentSpikes.length := by
    rw [Int.tdiv_eq_ediv_of_nonneg (by omega)]
    exact (Int.le_ediv_iff_mul_le hlength).2 hsum
  obtain rfl := Option.some.inj hd
  rw [numMinutes_minutes]
  -- the multiplier is one at least
  have htrunc : ∀ multiplier : ℚ, 1 ≤ multiplier →
      5 ≤ trunc (sum.tdiv analyzer.recentSpikes.length * multiplier) := by
    intro multiplier hone
    have havg' : (5 : ℚ) ≤ (sum.tdiv analyzer.recentSpikes.length : ℤ) := by
      exact_mod_cast havg
    have hproduct : (5 : ℚ) ≤ (sum.tdiv analyzer.recentSpikes.length : ℤ) * multiplier :=
      havg'.trans (le_mul_of_one_le_right (by linarith) hone)
    unfold trunc
    rw [if_pos (by linarith)]
    exact Int.le_floor.2 (by exact_mod_cast hproduct)
  cases analyzer.calculateTrendStrength with
  | strong => exact htrunc 2 (by norm_num)
  | moderate => exact htrunc (3 / 2) (by norm_num)
  | weak => exact htrunc 1 le_rfl

/-- From three spikes on the trend is not weak. -/
theorem length_le_two_of_weak (h : analyzer.calculateTrendStrength = .weak) :
    analyzer.recentSpikes.length ≤ 2 := by
  have hscores : (analyzer.recentSpikes.length : ℚ) ≤
      (analyzer.recentSpikes.map fun s => severityScore s.severity).sum := by
    have hnsmul := List.card_nsmul_le_sum
      (analyzer.recentSpikes.map fun s => severityScore s.severity) 1 (by
        intro score hscore
        obtain ⟨spike, -, rfl⟩ := List.mem_map.1 hscore
        unfold severityScore
        cases spike.severity <;> norm_num)
    rw [List.length_map, nsmul_eq_mul, mul_one] at hnsmul
    exact hnsmul
  unfold calculateTrendStrength at h
  dsimp only at h
  split_ifs at h with hstrong hmoderate
  by_contra hmany
  have hthree : (3 : ℚ) ≤ analyzer.recentSpikes.length := by
    exact_mod_cast not_le.1 hmany
  exact hmoderate (by linarith)

end TrendAnalyzer

namespace FeeInsightsEngine

variable {engine : FeeInsightsEngine} {now : DateTime}

theorem meanFee_nil : RollingAverageCalculator.meanFee [] = 0 := by
  simp [RollingAverageCalculator.meanFee]

/-- The average of a configured window is that of the positive fees in its buffer. -/
theorem WellFormed.average_sound (h : engine.WellFormed) {name : String} {window : TimeWindow}
    (hfind : (engine.calculator.timeWindows.find? fun w => w.name == name) = some window)
    (hpos : 0 < window.minSamples) {result : AverageResult}
    (hresult : engine.calculator.calculateAverageForWindow name now = .ok result) :
    result.Sound window.minSamples := by
  obtain ⟨buffer, hbuffer⟩ := Option.isSome_iff_exists.1
    ((h.configured window).2 (List.mem_of_find?_eq_some hfind))
  have hfees := h.positive window buffer hbuffer
  obtain ⟨_, hspec, -, hcount, hvalue⟩ :=
    RollingAverageCalculator.calculateAverageForWindow_spec hfind hbuffer now
  obtain rfl := Except.ok.inj (hspec.symm.trans hresult)
  have hmean := meanFee_pos_iff hfees
  have hnonneg : 0 ≤ RollingAverageCalculator.meanFee buffer.data := by
    by_cases hnil : buffer.data = []
    · rw [hnil, meanFee_nil]
    · exact (hmean.2 hnil).le
  refine ⟨?_, hvalue ▸ hnonneg, ?_⟩
  · unfold RollingAverageCalculator.calculateAverageForWindow at hresult
    simp only [hfind, hbuffer] at hresult
    split_ifs at hresult with hempty
    · obtain rfl := Except.ok.inj hresult
      simp [hpos]
    · obtain rfl := Except.ok.inj hresult
      simp
  · rw [hvalue, hcount, List.length_eq_zero_iff]
    constructor
    · intro hzero
      by_contra hne
      exact (hmean.2 hne).ne' hzero
    · intro hnil
      rw [hnil, meanFee_nil]

theorem WellFormed.averages_sound (h : engine.WellFormed)
    (hwindows : engine.calculator.timeWindows = InsightsConfig.default.timeWindows)
    {averages : RollingAverages} (haverages : engine.calculator.calculateAverages now = .ok averages) :
    averages.Sound := by
  obtain ⟨hshort, hmedium, hlong⟩ :=
    (RollingAverageCalculator.calculateAverages_eq_ok_iff now averages).1 haverages
  constructor
  · have hfind : (engine.calculator.timeWindows.find? fun w => w.name == "short_term") =
        some { name := "short_term", duration := minutes 5, minSamples := 5 } := by
      rw [hwindows]
      rfl
    exact h.average_sound hfind (by decide) hshort
  · have hfind : (engine.calculator.timeWindows.find? fun w => w.name == "medium_term") =
        some { name := "medium_term", duration := hours 1, minSamples := 20 } := by
      rw [hwindows]
      rfl
    exact h.average_sound hfind (by decide) hmedium
  · have hfind : (engine.calculator.timeWindows.find? fun w => w.name == "long_term") =
        some { name := "long_term", duration := hours 24, minSamples := 100 } := by
      rw [hwindows]
      rfl
    exact h.average_sound hfind (by decide) hlong

/-! ## What holds of every engine -/

/-- The insights are those of sound averages and of the spikes that an analyzer keeps. -/
structure Shows (insights : CurrentInsights) : Prop where
  averages : insights.rollingAverages.Sound
  trends : ∃ analyzer : TrendAnalyzer, Lasting (minutes 5) analyzer.recentSpikes ∧
    insights.congestionTrends.currentTrend = analyzer.determineTrendIndicator ∧
    insights.congestionTrends.recentSpikes = analyzer.recentSpikes ∧
    insights.congestionTrends.trendStrength = analyzer.calculateTrendStrength ∧
    insights.congestionTrends.predictedDuration = analyzer.predictDuration

/-- The engine has the windows and the spikes of the configuration, and no spikes without insights. -/
structure Presentable (engine : FeeInsightsEngine) : Prop where
  timeWindows : engine.calculator.timeWindows = InsightsConfig.default.timeWindows
  config : engine.detector.config = SpikeConfig.default
  spikes : Lasting (minutes 5) engine.detector.getRecentSpikes
  unanalyzed : engine.lastInsights = none → engine.detector.getRecentSpikes = []
  insights : ∀ insights ∈ engine.lastInsights, Shows insights

theorem presentable_new (now : DateTime) : (new .default now).Presentable where
  timeWindows := rfl
  config := rfl
  spikes := fun _ h => by cases h
  unanalyzed := fun _ => rfl
  insights := fun _ h => by cases h

theorem Presentable.ingest (h : engine.Presentable) (now : DateTime) (data : List FeeDataPoint) :
    (engine.ingest now data).Presentable where
  timeWindows := (engine.timeWindows_ingest now data).trans h.timeWindows
  config := h.config
  spikes := h.spikes
  unanalyzed := h.unanalyzed
  insights := h.insights

theorem Presentable.processFeeData (h : engine.Presentable) (hwell : engine.WellFormed)
    (now : DateTime) (data : List FeeDataPoint) :
    (engine.processFeeData now data).1.Presentable := by
  rcases hresult : (engine.processFeeData now data).2 with err | update
  · rcases engine.processFeeData_cases now data with
      ⟨-, err, hcall⟩ | ⟨-, ⟨-, err, hcall⟩ | ⟨-, detector, insights, hcall, -⟩⟩
    · rw [hcall]
      exact h
    · rw [hcall]
      exact h.ingest now data
    · rw [hcall] at hresult
      cases hresult
  · obtain ⟨averages, trends, haverages, htrends, hrolling, -, hcongestion, hengine⟩ :=
      engine.processFeeData_eq_ok hresult
    obtain ⟨hanalyzer, htrends⟩ := engine.detector.analyzeCongestion_eq_ok htrends
    have hwell' := hwell.processFeeData now data
    rw [hengine] at hwell' ⊢
    have hlasting : Lasting (minutes 5) ((engine.detector.trendAnalyzer.recentSpikes ++
        engine.detector.newSpikes averages.mediumTerm.value data).dropWhile
          (engine.detector.trendAnalyzer.isOld now)) := by
      intro spike hspike
      rcases List.mem_append.1 ((List.dropWhile_sublist _).subset hspike) with hold | hnew
      · exact h.spikes spike hold
      · have hconfig := engine.detector.lasting_newSpikes _ _ spike hnew
        rw [h.config] at hconfig
        exact hconfig
    have hwindows := (h.ingest now data).timeWindows
    refine ⟨hwindows, ?_, ?_, fun hnone => (by cases hnone), fun insights hinsights => ?_⟩
    · exact (CongestionDetector.call_config averages.mediumTerm.value (now, data)).trans h.config
    · show Lasting (minutes 5) (CongestionDetector.getRecentSpikes _)
      rw [CongestionDetector.getRecentSpikes, hanalyzer]
      exact hlasting
    · obtain rfl := Option.some.inj hinsights
      refine ⟨?_, { engine.detector.trendAnalyzer with recentSpikes := _ }, hlasting, ?_⟩
      · rw [hrolling]
        exact hwell'.averages_sound hwindows haverages
      · rw [hcongestion, htrends]
        exact ⟨rfl, rfl, rfl, rfl⟩

theorem Reachable.presentable (h : Reachable .default engine) : engine.Presentable := by
  induction h with
  | new now => exact presentable_new now
  | process now data hreach ih => exact ih.processFeeData hreach.wellFormed now data

/-- What is shown before the first insights is made in the same way. -/
theorem Presentable.shows (h : engine.Presentable) (hwell : engine.WellFormed) (now : DateTime) :
    Shows (engine.getCurrentInsights now) := by
  unfold getCurrentInsights
  cases hinsights : engine.lastInsights with
  | some insights => exact h.insights insights hinsights
  | none =>
    have hnil : engine.detector.trendAnalyzer.recentSpikes = [] := h.unanalyzed hinsights
    refine ⟨?_, engine.detector.trendAnalyzer, h.spikes, ?_, rfl, rfl, ?_⟩
    · obtain ⟨averages, haverages⟩ : ∃ averages,
          engine.calculator.calculateAverages now = .ok averages := by
        have hone : ∀ name ∈ ["short_term", "medium_term", "long_term"],
            ∃ result, engine.calculator.calculateAverageForWindow name now = .ok result := by
          intro name hname
          rw [calculateAverageForWindow_isOk_iff hwell, h.timeWindows]
          revert name
          decide
        obtain ⟨shortTerm, hshort⟩ := hone "short_term" (by simp)
        obtain ⟨mediumTerm, hmedium⟩ := hone "medium_term" (by simp)
        obtain ⟨longTerm, hlong⟩ := hone "long_term" (by simp)
        exact ⟨{ shortTerm, mediumTerm, longTerm },
          (RollingAverageCalculator.calculateAverages_eq_ok_iff _ _).2 ⟨hshort, hmedium, hlong⟩⟩
      dsimp only [getRollingAverages]
      rw [haverages]
      exact hwell.averages_sound h.timeWindows haverages
    · exact ((TrendAnalyzer.determineTrendIndicator_eq_normal_iff _).2 hnil).symm
    · exact ((TrendAnalyzer.predictDuration_eq_none_iff _).2 hnil).symm

end FeeInsightsEngine

/-! ## Runs -/

/-- What an answer says about the averages and the spikes that it is made of: each change is there when
the longer window has its samples, and is a fall by everything exactly when the shorter window is
empty; the status is normal and no duration is predicted exactly when there is no spike. -/
structure FeeTrendResponse.Coherent (averages : RollingAverages) (response : FeeTrendResponse) :
    Prop where
  fiveMPct_isSome_iff :
    response.changes.fiveMPct.isSome = true ↔ 20 ≤ averages.mediumTerm.sampleCount
  oneHPct_isSome_iff :
    response.changes.oneHPct.isSome = true ↔ 100 ≤ averages.longTerm.sampleCount
  fiveMPct : ∀ x ∈ response.changes.fiveMPct,
    -100 ≤ x ∧ (x = -100 ↔ averages.shortTerm.sampleCount = 0)
  oneHPct : ∀ x ∈ response.changes.oneHPct,
    -100 ≤ x ∧ (x = -100 ↔ averages.mediumTerm.sampleCount = 0)
  sixHPct : response.changes.sixHPct = response.changes.oneHPct
  twentyFourHPct : response.changes.twentyFourHPct = none
  status : response.status = "Normal" ↔ response.recentSpikeCount = 0
  predicted : response.predictedCongestionMinutes = none ↔ response.recentSpikeCount = 0
  predicted_ge : ∀ n ∈ response.predictedCongestionMinutes, 5 ≤ n
  strength : response.trendStrength = "Weak" → response.recentSpikeCount ≤ 2

theorem trendIndicatorToString_eq_normal_iff {indicator : TrendIndicator} :
    trendIndicatorToString indicator = "Normal" ↔ indicator = .normal := by
  cases indicator <;> decide

theorem trendStrengthToString_eq_weak_iff {strength : TrendStrength} :
    trendStrengthToString strength = "Weak" ↔ strength = .weak := by
  cases strength <;> decide

/-- The answer of an engine is coherent. -/
theorem FeeInsightsEngine.Shows.feeTrend {engine : FeeInsightsEngine} {now : DateTime}
    (h : FeeInsightsEngine.Shows (engine.getCurrentInsights now)) :
    ∃ response, feeTrend (some engine) now = .ok response ∧
      response.Coherent (engine.getCurrentInsights now).rollingAverages := by
  refine ⟨_, rfl, ?_⟩
  generalize engine.getCurrentInsights now = insights at h ⊢
  obtain ⟨⟨hshort, hmedium, hlong⟩, analyzer, hlasting, htrend, hspikes, hstrength, hpredicted⟩ := h
  have hnone := analyzer.predictDuration_eq_none_iff
  constructor
  · exact percentChange_isSome_iff hmedium (by decide)
  · exact percentChange_isSome_iff hlong (by decide)
  · intro x hx
    rw [← hshort.eq_zero_iff]
    exact percentChange_ge hshort.nonneg hx
  · intro x hx
    rw [← hmedium.eq_zero_iff]
    exact percentChange_ge hmedium.nonneg hx
  · rfl
  · rfl
  · rw [trendIndicatorToString_eq_normal_iff, htrend, hspikes, List.length_eq_zero_iff]
    exact analyzer.determineTrendIndicator_eq_normal_iff
  · rw [Option.map_eq_none_iff, hpredicted, hspikes, List.length_eq_zero_iff]
    exact hnone
  · intro n hn
    obtain ⟨d, hd, rfl⟩ := Option.map_eq_some_iff.1 (Option.mem_def.1 hn)
    rw [hpredicted] at hd
    exact TrendAnalyzer.five_le_predictDuration hlasting hd
  · intro hweak
    rw [trendStrengthToString_eq_weak_iff, hstrength] at hweak
    rw [hspikes]
    exact TrendAnalyzer.length_le_two_of_weak hweak

namespace Lives

variable (lives : Lives) {text : Rfc3339}

/-- A start makes a new engine, and calls it with the points that it reads. -/
theorem reachable_start (text : Rfc3339) (restart : Restart) (database : Database) :
    FeeInsightsEngine.Reachable lives.config (lives.start text restart database).engine := by
  have hnew : FeeInsightsEngine.Reachable lives.config (.new lives.config restart.createdAt) :=
    .new restart.createdAt
  unfold start rehydrate
  rw [restart.since_eq]
  cases restart.fetchError with
  | some err => exact hnew
  | none =>
    by_cases hempty : database.fetchSince text restart.since = []
    · simpa [hempty, bind, Except.bind, pure, Except.pure, Except.toOption] using hnew
    · simpa [hempty, bind, Except.bind, pure, Except.pure, Except.toOption] using
        hnew.process restart.processed (database.fetchSince text restart.since)

theorem reachable_step {s : PollState} (h : FeeInsightsEngine.Reachable lives.config s.engine)
    (event : LifeEvent) :
    FeeInsightsEngine.Reachable lives.config (lives.step text s event).1.engine := by
  cases event with
  | tick tick => exact lives.poller.reachable_pollOnce text h tick
  | crash cut restart => exact lives.reachable_start text restart _

theorem reachable_run (text : Rfc3339) (restart : Restart) (database : Database)
    (events : List LifeEvent) :
    FeeInsightsEngine.Reachable lives.config
      (Machine.final (lives.step text) (lives.start text restart database) events).engine :=
  Machine.final_induction (lives.step text)
    (P := fun s => FeeInsightsEngine.Reachable lives.config s.engine)
    (lives.reachable_start text restart database)
    fun _ event _ h => lives.reachable_step h event

/-- At any time of any run of ticks and crashes, the answer to a request for the trend is coherent. -/
theorem feeTrend_of_run (poller : Poller) (capacity : ℕ) (text : Rfc3339) (restart : Restart)
    (database : Database) (events : List LifeEvent) (now : DateTime) :
    let lives : Lives := { poller, capacity, config := .default }
    let engine := (Machine.final (lives.step text) (lives.start text restart database) events).engine
    ∃ response, feeTrend (some engine) now = .ok response ∧
      response.Coherent (engine.getCurrentInsights now).rollingAverages := by
  intro lives engine
  have hreach : FeeInsightsEngine.Reachable lives.config engine :=
    lives.reachable_run text restart database events
  exact (hreach.presentable.shows hreach.wellFormed now).feeTrend

/-- Twenty points of one fee, the last of them twenty minutes old. -/
example :
    let points := (List.range 20).map fun i : ℕ => pricedAt 100 i
    let engine := ((FeeInsightsEngine.new .default (minutes 0)).processFeeData (minutes 40) points).1
    (feeTrend (some engine) (minutes 40)).toOption.map (·.changes.fiveMPct) = some (some (-100)) := by
  decide +kernel

end Lives

end StellarFeeTracker
