import StellarFeeTracker.Api.FeeTrend
import StellarFeeTracker.Api.TransactionLookup
import StellarFeeTracker.Congestion.WaitAdvisory

/-!
# Wait advisory requests

A request for the advisory reads the store twice and the insights once, and ticks may run in between.
It never has a capacity usage, so the fee, the spikes and the trend share the weights, and a score is
critical only when all of them are high (`Congestion.critical_iff`).

So it takes a rising trend, more than fourteen times the median and nine recent spikes to be told to
wait, and twenty times the median and ten spikes are enough.  Who pays the median or less is told to
submit now, whatever the spikes and the trend (`Lives.waitAdvisory_of_run`).
-/

namespace StellarFeeTracker

open Congestion OrderStatistic

/-! ## The handler -/

/-- Default comparison window for wait advisory (24 hours in seconds). -/
def defaultWaitWindowSecs : ℕ := 86400

/-- Largest accepted comparison window (7 days). -/
def maxWaitWindowSecs : ℕ := 7 * 86400

/-- Recent window for current fee sampling (5 minutes). -/
def recentWindowMins : ℤ := 5

/-- What a request reads: the clock, the store twice, the insights, and the clock for the advisory. -/
structure WaitAdvisoryReads where
  now : DateTime
  recentStore : FeeHistoryStore
  historicalStore : FeeHistoryStore
  insightsEngine : Option FeeInsightsEngine
  insightsReadAt : DateTime
  computedAt : DateTime

namespace WaitAdvisoryReads

variable (reads : WaitAdvisoryReads)

def recentFees : List FeeDataPoint := reads.recentStore.getSince (reads.now - minutes recentWindowMins)

def historicalFees (windowSecs : ℕ) : List FeeDataPoint :=
  reads.historicalStore.getSince (reads.now - seconds windowSecs)

/-- The spikes that the insights show. -/
def recentSpikes : List FeeSpike :=
  match reads.insightsEngine with
  | some engine => (engine.getCurrentInsights reads.insightsReadAt).congestionTrends.recentSpikes
  | none => []

/-- Their number, cast to a `u32`. -/
def spikeCount : ℕ := reads.recentSpikes.length % 2 ^ 32

end WaitAdvisoryReads

/-- `wait_advisory`. -/
def waitAdvisory {K : Type*} [Field K] [LinearOrder K] [FloorRing K] (ln : K → K)
    (windowSecs : Option ℕ) (reads : WaitAdvisoryReads) : Except LookupError (WaitAdvisory K) :=
  let windowSecs := windowSecs.getD defaultWaitWindowSecs
  if 1 ≤ windowSecs ∧ windowSecs ≤ maxWaitWindowSecs then
    .ok (computeWaitAdvisory ln reads.computedAt reads.recentFees (reads.historicalFees windowSecs)
      none reads.spikeCount windowSecs)
  else
    .error (.badRequest ("window_secs must be between 1 and " ++ toString maxWaitWindowSecs ++
      ", got " ++ toString windowSecs))

namespace Congestion

/-! ## Critical scores -/

section Score

variable {K : Type*} [Field K] [LinearOrder K] {ln : K → K}

theorem lt_clampToUnit_iff {p q : K} (hp : 0 ≤ p) (hlt : p < 1) : p < clampToUnit q ↔ p < q := by
  unfold clampToUnit
  rw [lt_max_iff, lt_min_iff]
  constructor
  · rintro (hneg | ⟨h, -⟩)
    · exact absurd hp (not_le.2 hneg)
    · exact h
  · exact fun h => .inr ⟨h, hlt⟩

variable [IsStrictOrderedRing K]

theorem clampToUnit_le_one (q : K) : clampToUnit q ≤ 1 := max_le zero_le_one (min_le_right q 1)

theorem clampToUnit_eq_one {q : K} (h : 1 ≤ q) : clampToUnit q = 1 := by
  rw [clampToUnit, min_eq_right h, max_eq_right zero_le_one]

theorem feeRatioToScore_le_one (ln : K → K) (ratio : K) : feeRatioToScore ln ratio ≤ 1 := by
  unfold feeRatioToScore
  split_ifs
  · exact zero_le_one
  · exact clampToUnit_le_one _

theorem congestionLabel_eq_critical_iff {score : K} :
    congestionLabel score = .critical ↔ 85 / 100 < score := by
  unfold congestionLabel
  split_ifs with hlow hmoderate hhigh
  · exact iff_of_false (by decide) fun h => by linarith
  · exact iff_of_false (by decide) fun h => by linarith
  · exact iff_of_false (by decide) (not_lt.2 hhigh)
  · exact iff_of_true rfl (not_le.1 hhigh)

/-- Without a capacity usage a score is critical only in a rising trend. -/
theorem critical_iff {input : CongestionInput K} (hcapacity : input.capacityUsage = none) :
    congestionLabel (congestionScore ln input) = .critical ↔
      input.trend = .rising ∧
        70 < 45 * feeRatioToScore ln input.feeRatioToBaseline +
          30 * clampToUnit ((input.spikeCount : K) / 10) := by
  have hfee := feeRatioToScore_le_one ln input.feeRatioToBaseline
  have hspikes := clampToUnit_le_one ((input.spikeCount : K) / 10)
  rw [congestionLabel_eq_critical_iff]
  unfold congestionScore
  rw [hcapacity, lt_clampToUnit_iff (by norm_num) (by norm_num)]
  generalize feeRatioToScore ln input.feeRatioToBaseline = fee at hfee ⊢
  generalize clampToUnit ((input.spikeCount : K) / 10) = spikes at hspikes ⊢
  cases input.trend with
  | rising =>
    simp only [trendScore, true_and]
    constructor <;> intro h <;> linarith
  | stable =>
    simp only [trendScore, reduceCtorEq, false_and, iff_false, not_lt]
    linarith
  | falling =>
    simp only [trendScore, reduceCtorEq, false_and, iff_false, not_lt]
    linarith

/-- The fee alone is not enough, and the spikes alone are not: it takes nine of them. -/
theorem of_critical {input : CongestionInput K} (hcapacity : input.capacityUsage = none)
    (h : congestionLabel (congestionScore ln input) = .critical) :
    input.trend = .rising ∧ 8 / 9 < feeRatioToScore ln input.feeRatioToBaseline ∧
      9 ≤ input.spikeCount := by
  obtain ⟨htrend, hsum⟩ := (critical_iff hcapacity).1 h
  have hfee := feeRatioToScore_le_one ln input.feeRatioToBaseline
  have hspikes := clampToUnit_le_one ((input.spikeCount : K) / 10)
  refine ⟨htrend, by linarith, ?_⟩
  have hmost : 5 / 6 < clampToUnit ((input.spikeCount : K) / 10) := by linarith
  rw [lt_clampToUnit_iff (by norm_num) (by norm_num)] at hmost
  have height : (8 : K) < input.spikeCount := by linarith
  exact_mod_cast height

end Score

/-- Eight ninths of the scale is more than fourteen times the baseline. -/
theorem fourteen_lt_of_score {ratio : ℝ} (h : 8 / 9 < feeRatioToScore Real.log ratio) :
    14 < ratio := by
  unfold feeRatioToScore at h
  split_ifs at h with hone
  · linarith
  · rw [lt_clampToUnit_iff (by norm_num) (by norm_num),
      lt_div_iff₀ isLogarithm_log.twenty_pos] at h
    have hpos : 0 < ratio := zero_lt_one.trans (not_le.1 hone)
    have hpowers : Real.log (20 ^ 8) < Real.log (ratio ^ 9) := by
      rw [Real.log_pow, Real.log_pow]
      push_cast
      linarith
    have hlt : (20 : ℝ) ^ 8 < ratio ^ 9 :=
      (Real.log_lt_log_iff (by norm_num) (by positivity)).1 hpowers
    by_contra hle
    have hpow : ratio ^ 9 ≤ 14 ^ 9 := pow_le_pow_left₀ hpos.le (not_lt.1 hle) 9
    have hconst : (14 : ℝ) ^ 9 ≤ 20 ^ 8 := by norm_num
    linarith

/-! ## Fees that are not above the median -/

/-- At most half of the fees are below the median. -/
theorem countP_lt_median {amounts : List ℕ} (hsorted : amounts.SortedLE) (hne : amounts ≠ []) :
    2 * amounts.countP (· < percentileNearest amounts 50) ≤ amounts.length := by
  rw [percentileNearest_eq hne (by decide)]
  set rank := nearestRank 50 amounts.length with hrank
  have hrankLe : 2 * (rank - 1) ≤ amounts.length := by
    rw [hrank, nearestRank]
    omega
  cases hmedian : amounts.getD (rank - 1) 0 with
  | zero => simp
  | succ below =>
    have hcount : amounts.countP (· < below + 1) ≤ rank - 1 := by
      by_contra hmany
      have hless : rank - 1 < amounts.countP fun fee => fee ≤ below := by
        simpa only [Nat.lt_succ_iff, not_le] using hmany
      have hle := ((lt_countP_le_iff hsorted below 0 (rank - 1)).1 hless).2
      omega
    omega

section Verdict

variable {K : Type*} [Field K] [LinearOrder K]

theorem recommendationOf_eq_wait_iff {level : CongestionLevel} {percentile : K} :
    recommendationOf level percentile = .wait ↔ level = .critical := by
  cases level with
  | moderate =>
    unfold recommendationOf
    split_ifs <;> decide
  | low | high | critical => simp [recommendationOf]

theorem trendOf_eq_rising_iff {recentAvg historicalAvg : K} :
    trendOf recentAvg historicalAvg = .rising ↔ historicalAvg * (115 / 100) < recentAvg := by
  unfold trendOf
  push_cast
  split_ifs with hrising
  · exact iff_of_true rfl hrising
  · exact iff_of_false (by decide) hrising
  · exact iff_of_false (by decide) hrising

variable [IsStrictOrderedRing K]

theorem percentileOf_le_fifty {amounts : List ℕ} (hsorted : amounts.SortedLE) {fee : ℕ}
    (h : fee ≤ percentileNearest amounts 50) : (percentileOf amounts fee : K) ≤ 50 := by
  unfold percentileOf
  split_ifs with hempty
  · exact le_rfl
  · have hne : amounts ≠ [] := fun hnil => hempty (List.isEmpty_iff.2 hnil)
    have hlength : (0 : K) < amounts.length := Nat.cast_pos.2 (List.length_pos_iff.2 hne)
    have hbelow : amounts.countP (· < fee) ≤ amounts.countP (· < percentileNearest amounts 50) :=
      List.countP_mono_left fun x _ hx => by
        simp only [decide_eq_true_eq] at hx ⊢
        exact hx.trans_le h
    have hhalf : 2 * amounts.countP (· < fee) ≤ amounts.length :=
      (Nat.mul_le_mul_left 2 hbelow).trans (countP_lt_median hsorted hne)
    have hhalf' : (2 : K) * amounts.countP (· < fee) ≤ amounts.length := by exact_mod_cast hhalf
    dsimp only
    rw [div_mul_eq_mul_div, div_le_iff₀ hlength]
    push_cast
    linarith

theorem feeRatio_le_one {amounts : List ℕ} {fee : ℕ} (h : fee ≤ percentileNearest amounts 50) :
    (feeRatio amounts fee : K) ≤ 1 := by
  unfold feeRatio
  dsimp only
  split_ifs with hpos
  · rw [div_le_one (Nat.cast_pos.2 hpos)]
    exact Nat.cast_le.2 h
  · exact le_rfl

/-- Without a fee above the baseline and a capacity usage, the score is moderate at most. -/
theorem congestionScore_le_of_ratio {ln : K → K} {input : CongestionInput K}
    (hcapacity : input.capacityUsage = none) (hratio : input.feeRatioToBaseline ≤ 1) :
    congestionScore ln input ≤ 45 / 100 := by
  have hspikes := clampToUnit_le_one ((input.spikeCount : K) / 10)
  have htrend : (trendScore input.trend : K) ≤ 60 / 100 := by
    cases input.trend <;> norm_num [trendScore]
  have hfee : feeRatioToScore ln input.feeRatioToBaseline = 0 := if_pos hratio
  unfold congestionScore
  rw [hcapacity, hfee]
  apply max_le (by norm_num)
  apply (min_le_left _ _).trans
  linarith

theorem recommendationOf_eq_submitNow {score percentile : K} (hscore : score ≤ 45 / 100)
    (hpercentile : percentile ≤ 50) :
    recommendationOf (congestionLabel score) percentile = .submitNow := by
  unfold congestionLabel
  split_ifs with hlow hmoderate hhigh
  · rfl
  · exact if_neg (not_lt.2 (hpercentile.trans (by norm_num)))
  · exact absurd (hscore.trans_lt (by norm_num)) hmoderate
  · exact absurd (hscore.trans_lt (by norm_num)) hmoderate

end Verdict

/-! ## Surges -/

/-- The current fee is more than so many times the median, the recent average is more than 15% above
that of the history, and there are so many spikes. -/
structure Surge (times count : ℕ) (recentFees historicalFees : List FeeDataPoint)
    (spikeCount : ℕ) : Prop where
  median_pos : 0 < percentileNearest (sortedAmounts historicalFees) 50
  fee : times * percentileNearest (sortedAmounts historicalFees) 50 <
    currentFee recentFees historicalFees
  trend : (average (sortedAmounts historicalFees) : ℝ) * (115 / 100) <
    recentAverage recentFees (currentFee recentFees historicalFees)
  spikes : count ≤ spikeCount

section Advisory

variable (computedAt : DateTime) (recentFees : List FeeDataPoint) {historicalFees : List FeeDataPoint}
  {spikeCount : ℕ} (windowSecs : ℕ)

/-- The verdict is to wait when the score without a capacity usage is critical. -/
theorem wait_iff (hne : historicalFees ≠ []) :
    (computeWaitAdvisory Real.log computedAt recentFees historicalFees none spikeCount
      windowSecs).recommendation = .wait ↔
    congestionLabel (congestionScore Real.log
      (congestionInput recentFees historicalFees none spikeCount)) = .critical := by
  obtain ⟨hscore, -, hverdict⟩ := computeWaitAdvisory_spec Real.log computedAt recentFees hne none
    spikeCount windowSecs
  rw [hverdict, recommendationOf_eq_wait_iff, hscore]

theorem surge_of_wait
    (h : (computeWaitAdvisory Real.log computedAt recentFees historicalFees none spikeCount
      windowSecs).recommendation = .wait) :
    Surge 14 9 recentFees historicalFees spikeCount := by
  have hne : historicalFees ≠ [] := by
    rintro rfl
    cases h
  rw [wait_iff computedAt recentFees windowSecs hne] at h
  obtain ⟨htrend, hfee, hspikes⟩ := of_critical rfl h
  have hratio : 14 < (feeRatio (sortedAmounts historicalFees)
      (currentFee recentFees historicalFees) : ℝ) := fourteen_lt_of_score hfee
  unfold feeRatio at hratio
  dsimp only at hratio
  split_ifs at hratio with hpos
  · rw [lt_div_iff₀ (Nat.cast_pos.2 hpos)] at hratio
    exact ⟨hpos, by exact_mod_cast hratio, trendOf_eq_rising_iff.1 htrend, hspikes⟩
  · exact absurd hratio (by norm_num)

theorem wait_of_surge (h : Surge 20 10 recentFees historicalFees spikeCount) :
    (computeWaitAdvisory Real.log computedAt recentFees historicalFees none spikeCount
      windowSecs).recommendation = .wait := by
  have hne : historicalFees ≠ [] := by
    rintro rfl
    exact absurd h.median_pos (by decide)
  rw [wait_iff computedAt recentFees windowSecs hne, critical_iff rfl]
  refine ⟨trendOf_eq_rising_iff.2 h.trend, ?_⟩
  have hratio : 20 < (feeRatio (sortedAmounts historicalFees)
      (currentFee recentFees historicalFees) : ℝ) := by
    unfold feeRatio
    dsimp only
    rw [if_pos h.median_pos, lt_div_iff₀ (Nat.cast_pos.2 h.median_pos)]
    exact_mod_cast h.fee
  have hlog : Real.log 20 ≤ Real.log (feeRatio (sortedAmounts historicalFees)
      (currentFee recentFees historicalFees)) := Real.log_le_log (by norm_num) hratio.le
  have hfee : feeRatioToScore Real.log (feeRatio (sortedAmounts historicalFees)
      (currentFee recentFees historicalFees)) = 1 := by
    unfold feeRatioToScore
    rw [if_neg (not_le.2 (by linarith))]
    exact clampToUnit_eq_one ((one_le_div isLogarithm_log.twenty_pos).2 hlog)
  have hspikes : clampToUnit ((spikeCount : ℝ) / 10) = 1 := by
    apply clampToUnit_eq_one
    rw [one_le_div (by norm_num)]
    exact_mod_cast h.spikes
  show (70 : ℝ) < 45 * feeRatioToScore Real.log (feeRatio (sortedAmounts historicalFees)
    (currentFee recentFees historicalFees)) + 30 * clampToUnit ((spikeCount : ℝ) / 10)
  rw [hfee, hspikes]
  norm_num

/-- Neither the spikes nor the trend keep the median from being submitted. -/
theorem submitNow_of_le_median
    (h : currentFee recentFees historicalFees ≤
      percentileNearest (sortedAmounts historicalFees) 50) :
    (computeWaitAdvisory Real.log computedAt recentFees historicalFees none spikeCount
      windowSecs).recommendation = .submitNow := by
  by_cases hne : historicalFees = []
  · rw [hne]
    rfl
  · obtain ⟨hscore, hpercentile, hverdict⟩ := computeWaitAdvisory_spec Real.log computedAt recentFees
      hne none spikeCount windowSecs
    rw [hverdict, hscore, hpercentile]
    apply recommendationOf_eq_submitNow
    · exact congestionScore_le_of_ratio rfl (feeRatio_le_one h)
    · exact percentileOf_le_fifty List.sortedLE_insertionSort h

end Advisory

end Congestion

/-! ## Runs -/

theorem waitAdvisory_eq_ok_iff (windowSecs : Option ℕ) (reads : WaitAdvisoryReads)
    (advisory : WaitAdvisory ℝ) :
    waitAdvisory Real.log windowSecs reads = .ok advisory ↔
      windowSecs.getD defaultWaitWindowSecs ∈ Set.Icc 1 maxWaitWindowSecs ∧
        computeWaitAdvisory Real.log reads.computedAt reads.recentFees
          (reads.historicalFees (windowSecs.getD defaultWaitWindowSecs)) none reads.spikeCount
          (windowSecs.getD defaultWaitWindowSecs) = advisory := by
  unfold waitAdvisory
  dsimp only
  split_ifs with hwindow
  · rw [Except.ok.injEq]
    exact (and_iff_right hwindow).symm
  · exact iff_of_false (by simp) fun h => hwindow h.1

namespace Lives

/-- A request in any run of ticks and crashes, with ticks between what it reads, gets an advisory when
its window is one of 1 to 604800 seconds.  It is told to wait only in a surge to more than fourteen
times the median with nine spikes, and always in one to twenty times the median with ten; the spikes
have lasted for five minutes each.  It is told to submit when the fee is not above the median. -/
theorem waitAdvisory_of_run (poller : Poller) (capacity : ℕ) (text : Rfc3339) (restart : Restart)
    (database : Database) (events : List LifeEvent) (between later : List PollTick)
    (windowSecs : Option ℕ) (now insightsReadAt computedAt : DateTime) :
    let lives : Lives := { poller, capacity, config := .default }
    let s := Machine.final (lives.step text) (lives.start text restart database) events
    let s' := Machine.final (poller.pollOnce text) s between
    let s'' := Machine.final (poller.pollOnce text) s' later
    let reads : WaitAdvisoryReads :=
      { now, recentStore := s.store, historicalStore := s'.store, insightsEngine := some s''.engine
        insightsReadAt, computedAt }
    let historicalFees := reads.historicalFees (windowSecs.getD defaultWaitWindowSecs)
    ((∃ advisory, waitAdvisory Real.log windowSecs reads = .ok advisory) ↔
        ∀ n ∈ windowSecs, 1 ≤ n ∧ n ≤ 604800) ∧
      Lasting (minutes 5) reads.recentSpikes ∧
      ∀ advisory, waitAdvisory Real.log windowSecs reads = .ok advisory →
        (advisory.recommendation = .wait →
          Surge 14 9 reads.recentFees historicalFees reads.spikeCount) ∧
        (Surge 20 10 reads.recentFees historicalFees reads.spikeCount →
          advisory.recommendation = .wait) ∧
        (currentFee reads.recentFees historicalFees ≤
            percentileNearest (sortedAmounts historicalFees) 50 →
          advisory.recommendation = .submitNow) := by
  intro lives s s' s'' reads historicalFees
  have hs : FeeInsightsEngine.Reachable .default s.engine :=
    lives.reachable_run text restart database events
  have hreach : FeeInsightsEngine.Reachable .default s''.engine :=
    poller.reachable_run text (poller.reachable_run text hs between) later
  refine ⟨?_, ?_, fun advisory hadvisory => ?_⟩
  · simp only [waitAdvisory_eq_ok_iff, exists_and_left, exists_eq', and_true, Set.mem_Icc]
    cases windowSecs with
    | none => simp [defaultWaitWindowSecs, maxWaitWindowSecs]
    | some n => simp [maxWaitWindowSecs]
  · obtain ⟨-, analyzer, hlasting, -, hspikes, -⟩ :=
      hreach.presentable.shows hreach.wellFormed insightsReadAt
    show Lasting (minutes 5)
      (s''.engine.getCurrentInsights insightsReadAt).congestionTrends.recentSpikes
    rw [hspikes]
    exact hlasting
  · obtain ⟨-, rfl⟩ := (waitAdvisory_eq_ok_iff _ _ _).1 hadvisory
    exact ⟨surge_of_wait _ _ _, wait_of_surge _ _ _, submitNow_of_le_median _ _ _⟩

example (reads : WaitAdvisoryReads) :
    waitAdvisory (id : ℚ → ℚ) (some 604801) reads =
      .error (.badRequest "window_secs must be between 1 and 604800, got 604801") := by
  rfl

end Lives

end StellarFeeTracker
