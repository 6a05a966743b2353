import StellarFeeTracker.Analytics.Percentile
import StellarFeeTracker.Congestion.Scoring
import StellarFeeTracker.General.OrderStatistic
import StellarFeeTracker.Insights.Types
import Mathlib.Algebra.BigOperators.Ring.Finset
import Mathlib.Algebra.Order.Floor.Defs
import Mathlib.Analysis.SpecialFunctions.Log.Basic
import Mathlib.Tactic.Linarith

/-!
# Wait advisory

The newest fee counts in the current fee and in the history it is compared with.  Raising it moves
the median only while it is the median itself (`OrderStatistic.clamp_step`), and moves the average of
the recent window at least as far as that of the history, so no signal falls and the verdict never
turns towards submitting (`waitAdvisory_mono`).
-/

namespace StellarFeeTracker.Congestion

open OrderStatistic

/-- The wait recommendation verdict. -/
inductive WaitRecommendation where
  | submitNow
  | considerWaiting
  | wait
  deriving DecidableEq, Repr

/-- The place of a verdict in the order from submitting to waiting. -/
def WaitRecommendation.rank : WaitRecommendation → ℕ
  | .submitNow => 0
  | .considerWaiting => 1
  | .wait => 2

/-- Verdict on whether submitting a transaction now is advisable. -/
structure WaitAdvisory (K : Type*) where
  recommendation : WaitRecommendation
  reason : String
  congestionLevel : CongestionLevel
  congestionScore : K
  currentFeePercentile : K
  capacityUsageAvailable : Bool
  historySampleCount : ℕ
  actualWindowSecs : ℕ
  computedAt : DateTime

/-! ## The signals -/

/-- The newest fee of the recent window, or of the history if the window is empty. -/
def currentFee (recentFees historicalFees : List FeeDataPoint) : ℕ :=
  match recentFees.getLast? with
  | some p => p.feeAmount
  | none => (historicalFees.getLast?.map (·.feeAmount)).getD 100

/-- `historical_u64`. -/
def sortedAmounts (fees : List FeeDataPoint) : List ℕ :=
  (fees.map (·.feeAmount)).insertionSort (· ≤ ·)

/-- The comparison window actually used: that of the history if it has less than ten points. -/
def actualWindowSecs (historicalFees : List FeeDataPoint) (requestedWindowSecs : ℕ) : ℕ :=
  if 10 ≤ historicalFees.length then requestedWindowSecs
  else
    match historicalFees.head?, historicalFees.getLast? with
    | some oldest, some newest =>
      (max (Duration.numSeconds (newest.timestamp - oldest.timestamp)) 0).toNat
    | _, _ => 0

section Signals

variable {K : Type*} [Field K] [LinearOrder K]

/-- The percentile position of a fee in a distribution. -/
def percentileOf (historicalAmounts : List ℕ) (currentFee : ℕ) : K :=
  if historicalAmounts.isEmpty then 50
  else
    let countBelow := historicalAmounts.countP (· < currentFee)
    (countBelow : K) / (historicalAmounts.length : K) * (100 : ℕ)

def feeRatio (historicalAmounts : List ℕ) (currentFee : ℕ) : K :=
  let historicalMedian := percentileNearest historicalAmounts 50
  if 0 < historicalMedian then (currentFee : K) / (historicalMedian : K) else 1

def average (amounts : List ℕ) : K := (amounts.map fun v : ℕ => (v : K)).sum / (amounts.length : K)

def recentAverage (recentFees : List FeeDataPoint) (currentFee : ℕ) : K :=
  if recentFees.isEmpty then (currentFee : K) else average (recentFees.map (·.feeAmount))

def trendOf (recentAvg historicalAvg : K) : TrendDirection :=
  if historicalAvg * ((115 : ℕ) / (100 : ℕ)) < recentAvg then .rising
  else if recentAvg < historicalAvg * ((85 : ℕ) / (100 : ℕ)) then .falling
  else .stable

/-- The input of the score. -/
def congestionInput (recentFees historicalFees : List FeeDataPoint) (capacityUsage : Option K)
    (spikeCount : ℕ) : CongestionInput K :=
  let currentFee := currentFee recentFees historicalFees
  let historicalAmounts := sortedAmounts historicalFees
  { feeRatioToBaseline := feeRatio historicalAmounts currentFee
    capacityUsage
    spikeCount
    trend := trendOf (recentAverage recentFees currentFee : K) (average historicalAmounts) }

/-- The verdict on a level and a percentile. -/
def recommendationOf (level : CongestionLevel) (currentFeePercentile : K) : WaitRecommendation :=
  match level with
  | .low => .submitNow
  | .moderate => if 70 < currentFeePercentile then .considerWaiting else .submitNow
  | .high => .considerWaiting
  | .critical => .wait

end Signals

/-! ## The advisory -/

section Advisory

variable {K : Type*} [Field K] [LinearOrder K] [FloorRing K]

/-- The cast `as u64`. -/
def castU64 (q : K) : ℕ := min ⌊q⌋.toNat u64Max

/-- A number that is not negative with so many decimals, halves to the even digit. -/
def decimals (places : ℕ) (q : K) : String :=
  let scaled := q * (10 ^ places : ℕ)
  let below := ⌊scaled⌋.toNat
  let rest := scaled - ⌊scaled⌋
  let units := if 1 < rest + rest ∨ rest + rest = 1 ∧ below % 2 = 1 then below + 1 else below
  let fraction := toString (units % 10 ^ places)
  toString (units / 10 ^ places) ++ "." ++
    String.ofList (List.replicate (places - fraction.length) '0') ++ fraction

/-- The verdict in words. -/
def reasonOf (level : CongestionLevel) (currentFeePercentile feeRatio score : K) : String :=
  let position := "(" ++ toString (castU64 currentFeePercentile) ++ "th percentile, " ++
    decimals 1 feeRatio ++ "× median"
  match level with
  | .low => "Fees are below normal " ++ position ++ "). Submit now."
  | .moderate =>
    if 70 < currentFeePercentile then
      "Fees are moderately elevated " ++ position ++ "). Consider waiting for a better window."
    else "Fees are moderate " ++ position ++ "). Safe to submit."
  | .high =>
    "Fees are significantly elevated " ++ position ++ ", score " ++ decimals 2 score ++
      "). Consider waiting for congestion to ease."
  | .critical =>
    "Fees are critically high " ++ position ++ ", score " ++ decimals 2 score ++
      "). Waiting is strongly advised to avoid excessive costs."

/-- Compute a wait advisory by comparing the current fee level against the history. -/
def computeWaitAdvisory (ln : K → K) (computedAt : DateTime)
    (recentFees historicalFees : List FeeDataPoint) (capacityUsage : Option K)
    (spikeCount requestedWindowSecs : ℕ) : WaitAdvisory K :=
  if historicalFees.isEmpty then
    { recommendation := .submitNow
      reason := "Insufficient historical data for comparison; defaulting to submit"
      congestionLevel := .low
      congestionScore := 0
      currentFeePercentile := 50
      capacityUsageAvailable := capacityUsage.isSome
      historySampleCount := 0
      actualWindowSecs := 0
      computedAt }
  else
    let currentFeePercentile : K :=
      percentileOf (sortedAmounts historicalFees) (currentFee recentFees historicalFees)
    let input := congestionInput recentFees historicalFees capacityUsage spikeCount
    let score := congestionScore ln input
    let level := congestionLabel score
    { recommendation := recommendationOf level currentFeePercentile
      reason := reasonOf level currentFeePercentile input.feeRatioToBaseline score
      congestionLevel := level
      congestionScore := score
      currentFeePercentile
      capacityUsageAvailable := capacityUsage.isSome
      historySampleCount := historicalFees.length
      actualWindowSecs := actualWindowSecs historicalFees requestedWindowSecs
      computedAt }

/-- What the advisory says about a history that is not empty. -/
theorem computeWaitAdvisory_spec (ln : K → K) (computedAt : DateTime)
    (recentFees : List FeeDataPoint) {historicalFees : List FeeDataPoint}
    (hne : historicalFees ≠ []) (capacityUsage : Option K) (spikeCount requestedWindowSecs : ℕ) :
    let advisory := computeWaitAdvisory ln computedAt recentFees historicalFees capacityUsage
      spikeCount requestedWindowSecs
    advisory.congestionScore =
        congestionScore ln (congestionInput recentFees historicalFees capacityUsage spikeCount) ∧
      advisory.currentFeePercentile =
        percentileOf (sortedAmounts historicalFees) (currentFee recentFees historicalFees) ∧
      advisory.recommendation = recommendationOf (congestionLabel advisory.congestionScore)
        advisory.currentFeePercentile := by
  have hnonempty : ¬ historicalFees.isEmpty = true := by
    rw [List.isEmpty_iff]
    exact hne
  unfold computeWaitAdvisory
  rw [if_neg hnonempty]
  exact ⟨rfl, rfl, rfl⟩

end Advisory

/-! ## Raising the newest fee -/

/-- The fees with another newest one. -/
def raiseNewest (fee : ℕ) (points : List FeeDataPoint) : List FeeDataPoint :=
  points.dropLast ++ (points.getLast?.map fun p => { p with feeAmount := fee }).toList

theorem raiseNewest_concat (fee : ℕ) (points : List FeeDataPoint) (p : FeeDataPoint) :
    raiseNewest fee (points ++ [p]) = points ++ [{ p with feeAmount := fee }] := by
  rw [raiseNewest, List.dropLast_concat, List.getLast?_concat]
  rfl

/-- A window at the end of the history has its newest fee. -/
theorem raiseNewest_newest {others recent : List FeeDataPoint} {p : FeeDataPoint}
    (hsuffix : recent <:+ others ++ [p]) : raiseNewest p.feeAmount recent = recent := by
  obtain rfl | ⟨front, q, rfl⟩ := List.eq_nil_or_concat' recent
  · rfl
  · obtain ⟨before, hbefore⟩ := hsuffix
    rw [← List.append_assoc] at hbefore
    obtain ⟨-, hlast⟩ := List.append_inj' hbefore rfl
    obtain rfl : q = p := List.singleton_injective hlast
    rw [raiseNewest_concat]

theorem sortedAmounts_concat (points : List FeeDataPoint) (p : FeeDataPoint) :
    sortedAmounts (points ++ [p]) = (sortedAmounts points).orderedInsert (· ≤ ·) p.feeAmount := by
  unfold sortedAmounts
  rw [List.map_append, List.map_singleton]
  exact insertionSort_perm (List.perm_append_singleton _ _)

theorem length_sortedAmounts (points : List FeeDataPoint) :
    (sortedAmounts points).length = points.length := by
  rw [sortedAmounts, List.length_insertionSort, List.length_map]

/-- The verdict turns towards waiting when the level and the percentile rise. -/
theorem recommendationOf_mono {K : Type*} [Field K] [LinearOrder K] {level level' : CongestionLevel}
    {p q : K} (hlevel : level.rank ≤ level'.rank) (hpq : p ≤ q) :
    (recommendationOf level p).rank ≤ (recommendationOf level' q).rank := by
  have hhigh : 70 < p → 70 < q := fun h => h.trans_le hpq
  cases level with
  | low => exact Nat.zero_le _
  | moderate =>
    cases level' with
    | low => cases hlevel
    | moderate =>
      unfold recommendationOf
      split_ifs with hp hq
      · exact le_refl _
      · exact absurd (hhigh hp) hq
      · exact Nat.zero_le _
      · exact le_refl _
    | high =>
      unfold recommendationOf
      split_ifs <;> decide
    | critical =>
      unfold recommendationOf
      split_ifs <;> decide
  | high =>
    cases level' with
    | low => cases hlevel
    | moderate => exact absurd hlevel (by decide)
    | high => exact le_refl _
    | critical => exact Nat.le_succ 1
  | critical =>
    cases level' with
    | critical => exact le_refl _
    | low => cases hlevel
    | moderate => exact absurd hlevel (by decide)
    | high => exact absurd hlevel (by decide)

section Averages

variable {K : Type*} [Field K]

theorem average_eq (amounts : List ℕ) :
    (average amounts : K) = ((amounts.sum : ℕ) : K) / amounts.length := by
  rw [average, Nat.cast_list_sum]

/-- The average of a history, as a function of its newest fee. -/
theorem average_sortedAmounts (others : List FeeDataPoint) (p : FeeDataPoint) :
    (average (sortedAmounts (others ++ [p])) : K) =
      ((((others.map (·.feeAmount)).sum : ℕ) : K) + p.feeAmount) / (others.length + 1 : ℕ) := by
  have hperm : (sortedAmounts (others ++ [p])).Perm ((others ++ [p]).map (·.feeAmount)) :=
    List.perm_insertionSort _ _
  rw [average_eq, hperm.sum_eq, length_sortedAmounts, List.length_append, List.map_append,
    List.sum_append, List.map_singleton, List.sum_singleton, Nat.cast_add]
  rfl

/-- The average of a recent window, as a function of the newest fee. -/
theorem exists_recentAverage {others recent : List FeeDataPoint} {p : FeeDataPoint}
    (hsuffix : recent <:+ others ++ [p]) :
    ∃ sum count : ℕ, sum ≤ (others.map (·.feeAmount)).sum ∧ count ≤ others.length ∧
      ∀ fee : ℕ,
        currentFee (raiseNewest fee recent) (others ++ [{ p with feeAmount := fee }]) = fee ∧
        (recentAverage (raiseNewest fee recent) fee : K) = ((sum : K) + fee) / (count + 1 : ℕ) := by
  rcases List.eq_nil_or_concat' recent with rfl | ⟨front, q, rfl⟩
  · refine ⟨0, 0, Nat.zero_le _, Nat.zero_le _, fun fee => ⟨?_, ?_⟩⟩
    · simp [raiseNewest, currentFee]
    · simp [raiseNewest, recentAverage]
  · obtain ⟨before, hbefore⟩ := hsuffix
    rw [← List.append_assoc] at hbefore
    obtain ⟨rfl, -⟩ := List.append_inj' hbefore rfl
    refine ⟨(front.map (·.feeAmount)).sum, front.length, ?_, ?_, fun fee => ⟨?_, ?_⟩⟩
    · rw [List.map_append, List.sum_append]
      exact Nat.le_add_left _ _
    · rw [List.length_append]
      exact Nat.le_add_left _ _
    · rw [raiseNewest_concat, currentFee, List.getLast?_concat]
    · have hnonempty : (front ++ [{ q with feeAmount := fee }]).isEmpty = false := by simp
      rw [raiseNewest_concat, recentAverage, hnonempty, if_neg Bool.false_ne_true, average_eq,
        List.map_append, List.sum_append, List.length_append, List.length_map, Nat.cast_add]
      rfl

end Averages

/-- The signals, as a function of the newest fee. -/
theorem congestionInput_raised {K : Type*} [Field K] [LinearOrder K]
    {others recent : List FeeDataPoint} {p : FeeDataPoint} (capacityUsage : Option K)
    (spikeCount : ℕ) {avg : K} {fee : ℕ}
    (hrecent : currentFee recent (others ++ [{ p with feeAmount := fee }]) = fee ∧
      (recentAverage recent fee : K) = avg) :
    congestionInput recent (others ++ [{ p with feeAmount := fee }]) capacityUsage spikeCount =
      { feeRatioToBaseline := feeRatio ((sortedAmounts others).orderedInsert (· ≤ ·) fee) fee
        capacityUsage
        spikeCount
        trend := trendOf avg
          (((((others.map (·.feeAmount)).sum : ℕ) : K) + fee) / (others.length + 1 : ℕ)) } := by
  obtain ⟨hcurrent, havg⟩ := hrecent
  rw [congestionInput, hcurrent, havg, average_sortedAmounts, sortedAmounts_concat]

section Monotone

variable {K : Type*} [Field K] [LinearOrder K] [IsStrictOrderedRing K]

/-- More of the other fees are below a higher fee. -/
theorem percentileOf_mono (amounts : List ℕ) {x y : ℕ} (hxy : x ≤ y) :
    (percentileOf (amounts.orderedInsert (· ≤ ·) x) x : K) ≤
      percentileOf (amounts.orderedInsert (· ≤ ·) y) y := by
  have hcount : ∀ z : ℕ,
      (amounts.orderedInsert (· ≤ ·) z).countP (· < z) = amounts.countP (· < z) := by
    intro z
    rw [(List.perm_orderedInsert (· ≤ ·) z amounts).countP_eq, List.countP_cons_of_neg (by simp)]
  have hempty : ∀ z : ℕ, (amounts.orderedInsert (· ≤ ·) z).isEmpty = false := by
    intro z
    rw [← Bool.not_eq_true, List.isEmpty_iff_length_eq_zero, List.orderedInsert_length]
    omega
  have hbelow : amounts.countP (· < x) ≤ amounts.countP (· < y) :=
    List.countP_mono_left fun v _ hv => by
      rw [decide_eq_true_eq] at hv ⊢
      exact hv.trans_le hxy
  unfold percentileOf
  rw [hempty, hempty, hcount, hcount, List.orderedInsert_length, List.orderedInsert_length]
  dsimp only
  rw [if_neg Bool.false_ne_true, if_neg Bool.false_ne_true]
  gcongr

/-- A ratio to a median that moves only between the two fees. -/
theorem ratio_mono {m n x y : ℕ} (hxy : x ≤ y) (h : m = n ∨ x ≤ m ∧ n ≤ y) :
    (if 0 < m then (x : K) / (m : K) else 1) ≤ if 0 < n then (y : K) / (n : K) else 1 := by
  rcases h with rfl | ⟨hx, hy⟩
  · split_ifs
    · gcongr
    · exact le_refl _
  · have hlow : (if 0 < m then (x : K) / (m : K) else 1) ≤ 1 := by
      split_ifs with hm
      · rw [div_le_one (Nat.cast_pos.2 hm)]
        exact Nat.cast_le.2 hx
      · exact le_refl _
    have hhigh : 1 ≤ if 0 < n then (y : K) / (n : K) else 1 := by
      split_ifs with hn
      · rw [one_le_div (Nat.cast_pos.2 hn)]
        exact Nat.cast_le.2 hy
      · exact le_refl _
    exact hlow.trans hhigh

/-- The median of a history, as a function of its newest fee. -/
theorem median_step {amounts : List ℕ} (hsorted : amounts.SortedLE) {x y : ℕ} (hxy : x ≤ y) :
    let median := fun z => percentileNearest (amounts.orderedInsert (· ≤ ·) z) 50
    median x = median y ∨ x ≤ median x ∧ median y ≤ y := by
  have hmedian : ∀ z : ℕ, percentileNearest (amounts.orderedInsert (· ≤ ·) z) 50 =
      (amounts.orderedInsert (· ≤ ·) z).getD (nearestRank 50 (amounts.length + 1) - 1) 0 := by
    intro z
    have hne : amounts.orderedInsert (· ≤ ·) z ≠ [] := by
      apply List.ne_nil_of_length_pos
      rw [List.orderedInsert_length]
      exact Nat.succ_pos _
    rw [percentileNearest_eq hne (by decide), List.orderedInsert_length]
  simp only [hmedian]
  rcases Nat.eq_zero_or_pos amounts.length with hnone | hpos
  · -- the newest fee is the only one
    rw [List.eq_nil_of_length_eq_zero hnone]
    exact .inr ⟨le_refl x, le_refl y⟩
  · have hrank : nearestRank 50 (amounts.length + 1) - 1 < amounts.length := by
      unfold nearestRank
      omega
    obtain ⟨low, high, hclamp⟩ := exists_clamp_orderedInsert hsorted hrank 0
    rw [hclamp, hclamp]
    exact clamp_step hxy

theorem feeRatio_mono {amounts : List ℕ} (hsorted : amounts.SortedLE) {x y : ℕ} (hxy : x ≤ y) :
    (feeRatio (amounts.orderedInsert (· ≤ ·) x) x : K) ≤
      feeRatio (amounts.orderedInsert (· ≤ ·) y) y :=
  ratio_mono hxy (median_step hsorted hxy)

/-- Raising a number in two averages, one over some of the numbers of the other: the average over
fewer numbers moves further. -/
theorem trendOf_mono {recentSum historicalSum r n x y : K} (hr : 0 < r) (hrn : r ≤ n)
    (hsum : recentSum ≤ historicalSum) (hnonneg : 0 ≤ historicalSum + x) (hxy : x ≤ y) :
    (trendOf ((recentSum + x) / r) ((historicalSum + x) / n)).rank ≤
      (trendOf ((recentSum + y) / r) ((historicalSum + y) / n)).rank := by
  have hn : 0 < n := hr.trans_le hrn
  have hrising : ∀ z, (historicalSum + z) / n * ((115 : ℕ) / (100 : ℕ)) < (recentSum + z) / r ↔
      115 * r * (historicalSum + z) < 100 * n * (recentSum + z) := by
    intro z
    rw [Nat.cast_ofNat, Nat.cast_ofNat, div_mul_div_comm, div_lt_div_iff₀ (by positivity) hr]
    constructor <;> intro h <;> linarith
  have hfalling : ∀ z, (recentSum + z) / r < (historicalSum + z) / n * ((85 : ℕ) / (100 : ℕ)) ↔
      100 * n * (recentSum + z) < 85 * r * (historicalSum + z) := by
    intro z
    rw [Nat.cast_ofNat, Nat.cast_ofNat, div_mul_div_comm, div_lt_div_iff₀ hr (by positivity)]
    constructor <;> intro h <;> linarith
  have hstep : 0 ≤ y - x := sub_nonneg.2 hxy
  -- the recent window is short enough to move faster than the threshold
  have hup : 115 * r * (historicalSum + x) < 100 * n * (recentSum + x) →
      115 * r * (historicalSum + y) < 100 * n * (recentSum + y) := by
    intro h
    have hshort : 115 * r < 100 * n := by
      by_contra hlong
      have hle : 100 * n * (recentSum + x) ≤ 115 * r * (historicalSum + x) :=
        (mul_le_mul_of_nonneg_left (by linarith) (by positivity)).trans
          (mul_le_mul_of_nonneg_right (not_lt.1 hlong) hnonneg)
      linarith
    have hmoved : 115 * r * (y - x) ≤ 100 * n * (y - x) :=
      mul_le_mul_of_nonneg_right hshort.le hstep
    linarith
  have hdown : 100 * n * (recentSum + y) < 85 * r * (historicalSum + y) →
      100 * n * (recentSum + x) < 85 * r * (historicalSum + x) := by
    intro h
    have hmoved : 85 * r * (y - x) ≤ 100 * n * (y - x) :=
      mul_le_mul_of_nonneg_right (by linarith) hstep
    linarith
  unfold trendOf
  rw [if_congr (hrising x) rfl (if_congr (hfalling x) rfl rfl),
    if_congr (hrising y) rfl (if_congr (hfalling y) rfl rfl)]
  by_cases hx : 115 * r * (historicalSum + x) < 100 * n * (recentSum + x)
  · rw [if_pos hx, if_pos (hup hx)]
  · rw [if_neg hx]
    by_cases hfall : 100 * n * (recentSum + x) < 85 * r * (historicalSum + x)
    · rw [if_pos hfall]
      exact Nat.zero_le _
    · rw [if_neg hfall, if_neg fun h => hfall (hdown h)]
      split_ifs <;> decide

end Monotone

/-- Raising the newest fee of the history, and of the recent window at its end, lowers neither the
score nor the percentile and does not turn the verdict towards submitting. -/
theorem waitAdvisory_mono {K : Type*} [Field K] [LinearOrder K] [IsStrictOrderedRing K]
    [FloorRing K] {ln : K → K} (hln : IsLogarithm ln) (computedAt computedAt' : DateTime)
    {recentFees historicalFees : List FeeDataPoint} (hne : historicalFees ≠ [])
    (hsuffix : recentFees <:+ historicalFees) (capacityUsage : Option K)
    (spikeCount requestedWindowSecs : ℕ) {fee : ℕ}
    (hfee : (historicalFees.getLast hne).feeAmount ≤ fee) :
    let before := computeWaitAdvisory ln computedAt recentFees historicalFees capacityUsage
      spikeCount requestedWindowSecs
    let after := computeWaitAdvisory ln computedAt' (raiseNewest fee recentFees)
      (raiseNewest fee historicalFees) capacityUsage spikeCount requestedWindowSecs
    before.congestionScore ≤ after.congestionScore ∧
      before.currentFeePercentile ≤ after.currentFeePercentile ∧
      before.recommendation.rank ≤ after.recommendation.rank := by
  obtain rfl | ⟨others, p, rfl⟩ := List.eq_nil_or_concat' historicalFees
  · exact absurd rfl hne
  rw [List.getLast_concat] at hfee
  have hsorted : (sortedAmounts others).SortedLE := List.sortedLE_insertionSort
  obtain ⟨sum, count, hsum, hcount, hrecent⟩ := exists_recentAverage (K := K) hsuffix
  have hinput := fun z => congestionInput_raised capacityUsage spikeCount (hrecent z)
  have hscore : congestionScore ln (congestionInput (raiseNewest p.feeAmount recentFees)
        (others ++ [p]) capacityUsage spikeCount) ≤
      congestionScore ln (congestionInput (raiseNewest fee recentFees)
        (others ++ [{ p with feeAmount := fee }]) capacityUsage spikeCount) := by
    apply congestionScore_mono hln
    · rw [hinput p.feeAmount, hinput fee]
      exact feeRatio_mono hsorted hfee
    · rfl
    · rfl
    · rw [hinput p.feeAmount, hinput fee]
      exact trendOf_mono (Nat.cast_pos.2 count.succ_pos) (Nat.cast_le.2 (Nat.succ_le_succ hcount))
        (Nat.cast_le.2 hsum) (by positivity) (Nat.cast_le.2 hfee)
  have hpercentile : (percentileOf (sortedAmounts (others ++ [p]))
        (currentFee (raiseNewest p.feeAmount recentFees) (others ++ [p])) : K) ≤
      percentileOf (sortedAmounts (others ++ [{ p with feeAmount := fee }]))
        (currentFee (raiseNewest fee recentFees) (others ++ [{ p with feeAmount := fee }])) := by
    rw [(hrecent p.feeAmount).1, (hrecent fee).1, sortedAmounts_concat, sortedAmounts_concat]
    exact percentileOf_mono (sortedAmounts others) hfee
  rw [raiseNewest_newest hsuffix] at hscore hpercentile
  rw [raiseNewest_concat]
  intro before after
  obtain ⟨hscoreBefore, hpercentileBefore, hverdictBefore⟩ := computeWaitAdvisory_spec ln computedAt
    recentFees hne capacityUsage spikeCount requestedWindowSecs
  obtain ⟨hscoreAfter, hpercentileAfter, hverdictAfter⟩ := computeWaitAdvisory_spec ln computedAt'
    (raiseNewest fee recentFees) (List.append_ne_nil_of_right_ne_nil others (List.cons_ne_nil _ []))
    capacityUsage spikeCount requestedWindowSecs
  rw [← hscoreBefore, ← hscoreAfter] at hscore
  rw [← hpercentileBefore, ← hpercentileAfter] at hpercentile
  refine ⟨hscore, hpercentile, ?_⟩
  rw [hverdictBefore, hverdictAfter]
  exact recommendationOf_mono (congestionLabel_mono hscore) hpercentile

theorem isLogarithm_log : IsLogarithm Real.log where
  mono _ _ hp hpq := Real.log_le_log (zero_lt_one.trans_le hp) hpq
  twenty_pos := Real.log_pos (by norm_num)

/-- A history whose newest fee is twice the median. -/
def doubledHistory : List FeeDataPoint :=
  [⟨100, 0, "first", 1⟩, ⟨100, 1000, "second", 2⟩, ⟨200, 2000, "third", 3⟩]

theorem waitAdvisory_mono_doubled :
    let before := computeWaitAdvisory Real.log 3000 (doubledHistory.drop 2) doubledHistory none 0
      3600
    let after := computeWaitAdvisory Real.log 3000 (raiseNewest 2500 (doubledHistory.drop 2))
      (raiseNewest 2500 doubledHistory) none 0 3600
    before.congestionScore ≤ after.congestionScore ∧
      before.currentFeePercentile ≤ after.currentFeePercentile ∧
      before.recommendation.rank ≤ after.recommendation.rank :=
  waitAdvisory_mono isLogarithm_log 3000 3000 (by decide) (List.drop_suffix 2 doubledHistory) none 0
    3600 (by decide)

/-- Not every increasing function will do for the logarithm: where it is negative at 20, a higher
ratio has a lower score. -/
theorem score_falls_of_neg_at_twenty :
    StrictMono (fun q : ℚ => q - 30) ∧
      (computeWaitAdvisory (fun q : ℚ => q - 30) 3000 (raiseNewest 2500 (doubledHistory.drop 2))
          (raiseNewest 2500 doubledHistory) none 0 3600).congestionScore <
        (computeWaitAdvisory (fun q : ℚ => q - 30) 3000 (doubledHistory.drop 2) doubledHistory none
          0 3600).congestionScore :=
  ⟨fun _ _ h => sub_lt_sub_right h 30, by decide +kernel⟩

end StellarFeeTracker.Congestion
