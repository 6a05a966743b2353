import StellarFeeTracker.General.Bisect
import StellarFeeTracker.General.OrderStatistic
import StellarFeeTracker.Recommendation.Engine

/-!
# The confidence search

The probability of inclusion grows with the fee and with the number of ledgers, and the last fee of
a sorted sample is included for certain.  So the bisection of `findFeeForConfidence` ends at the
first sampled fee that reaches the target (`findFeeForConfidence_spec`), a laxer target is reached
by a smaller fee, and the alternatives of a recommendation are ordered.
-/

namespace StellarFeeTracker

/-! ## The probability of inclusion -/

/-- The share of the sample that a fee pays for. -/
def coverage (candidateFee : ℕ) (sortedFees : List ℕ) : ℚ :=
  (sortedFees.countP fun f => f ≤ candidateFee) / sortedFees.length

theorem coverage_nonneg (candidateFee : ℕ) (sortedFees : List ℕ) :
    0 ≤ coverage candidateFee sortedFees :=
  div_nonneg (Nat.cast_nonneg _) (Nat.cast_nonneg _)

theorem coverage_le_one (candidateFee : ℕ) (sortedFees : List ℕ) :
    coverage candidateFee sortedFees ≤ 1 :=
  div_le_one_of_le₀ (Nat.cast_le.2 List.countP_le_length) (Nat.cast_nonneg _)

theorem coverage_mono {fee fee' : ℕ} (h : fee ≤ fee') (sortedFees : List ℕ) :
    coverage fee sortedFees ≤ coverage fee' sortedFees := by
  refine div_le_div_of_nonneg_right ?_ (Nat.cast_nonneg _)
  rw [Nat.cast_le]
  refine List.countP_mono_left fun f _ hf => ?_
  simp only [decide_eq_true_eq] at hf ⊢
  exact hf.trans h

theorem coverage_eq_one {fee : ℕ} {sortedFees : List ℕ} (hne : sortedFees ≠ [])
    (h : ∀ f ∈ sortedFees, f ≤ fee) : coverage fee sortedFees = 1 := by
  have hall : sortedFees.countP (fun f => f ≤ fee) = sortedFees.length :=
    List.countP_eq_length.2 fun f hf => decide_eq_true (h f hf)
  have hlength : (sortedFees.length : ℚ) ≠ 0 := by
    rw [Nat.cast_ne_zero]
    exact fun hzero => hne (List.eq_nil_of_length_eq_zero hzero)
  rw [coverage, hall, div_self hlength]

/-- Failing once is a probability. -/
theorem failure_mem (fee : ℕ) (sortedFees : List ℕ) :
    0 ≤ 1 - coverage fee sortedFees ∧ 1 - coverage fee sortedFees ≤ 1 :=
  ⟨sub_nonneg.2 (coverage_le_one ..), sub_le_self 1 (coverage_nonneg ..)⟩

/-- So is not failing `n` times. -/
theorem success_mem (fee : ℕ) (sortedFees : List ℕ) (n : ℕ) :
    0 ≤ 1 - (1 - coverage fee sortedFees) ^ n ∧ 1 - (1 - coverage fee sortedFees) ^ n ≤ 1 := by
  obtain ⟨hfail0, hfail1⟩ := failure_mem fee sortedFees
  exact ⟨sub_nonneg.2 (pow_le_one₀ hfail0 hfail1), sub_le_self 1 (pow_nonneg hfail0 n)⟩

/-- Within `n` ledgers a fee is included unless it fails `n` times. -/
theorem estimateInclusionProbability_eq {sortedFees : List ℕ} (hne : sortedFees ≠ []) (fee : ℕ)
    {n : ℕ} (hn : 1 ≤ n) :
    estimateInclusionProbability fee sortedFees n = 1 - (1 - coverage fee sortedFees) ^ n := by
  have hempty : ¬ sortedFees.isEmpty = true := by simpa using hne
  unfold estimateInclusionProbability
  rw [if_neg hempty]
  change (if n ≤ 1 then clampUnit (coverage fee sortedFees)
    else clampUnit (1 - (1 - coverage fee sortedFees) ^ n)) = _
  by_cases hone : n ≤ 1
  · obtain rfl : n = 1 := by omega
    rw [if_pos hone, clampUnit_of_mem (coverage_nonneg ..) (coverage_le_one ..), pow_one,
      sub_sub_cancel]
  · obtain ⟨h0, h1⟩ := success_mem fee sortedFees n
    rw [if_neg hone, clampUnit_of_mem h0 h1]

/-- More money and more ledgers make inclusion more likely. -/
theorem estimateInclusionProbability_mono {sortedFees : List ℕ} (hne : sortedFees ≠ [])
    {fee fee' n n' : ℕ} (hfee : fee ≤ fee') (hn : 1 ≤ n) (hnn' : n ≤ n') :
    estimateInclusionProbability fee sortedFees n ≤
      estimateInclusionProbability fee' sortedFees n' := by
  rw [estimateInclusionProbability_eq hne fee hn,
    estimateInclusionProbability_eq hne fee' (hn.trans hnn')]
  obtain ⟨hfail0, hfail1⟩ := failure_mem fee' sortedFees
  have hless : 1 - coverage fee' sortedFees ≤ 1 - coverage fee sortedFees :=
    sub_le_sub_left (coverage_mono hfee sortedFees) 1
  refine sub_le_sub_left ?_ 1
  calc (1 - coverage fee' sortedFees) ^ n' ≤ (1 - coverage fee' sortedFees) ^ n :=
        pow_le_pow_of_le_one hfail0 hfail1 hnn'
    _ ≤ (1 - coverage fee sortedFees) ^ n := pow_le_pow_left₀ hfail0 hless n

theorem estimateInclusionProbability_eq_one {sortedFees : List ℕ} (hne : sortedFees ≠ [])
    {fee n : ℕ} (h : ∀ f ∈ sortedFees, f ≤ fee) (hn : 1 ≤ n) :
    estimateInclusionProbability fee sortedFees n = 1 := by
  have hpositive : n ≠ 0 := Nat.one_le_iff_ne_zero.1 hn
  rw [estimateInclusionProbability_eq hne fee hn, coverage_eq_one hne h, sub_self,
    zero_pow hpositive, sub_zero]

/-! ## The search -/

/-- The loop bisects the indices by whether the fee there reaches the target. -/
theorem searchConfidence_eq_bisect (sortedFees : List ℕ) (c : ℚ) (n rounds lo hi : ℕ) :
    searchConfidence sortedFees c n rounds lo hi =
      Bisect.bisect (fun i => c ≤ estimateInclusionProbability (sortedFees.getD i 0) sortedFees n)
        rounds lo hi := by
  induction rounds generalizing lo hi with
  | zero => rfl
  | succ rounds ih => simp only [searchConfidence, Bisect.bisect, ih]

/-- The index where the search in a sorted sample ends. -/
def confidenceIndex (sortedFees : List ℕ) (c : ℚ) (n : ℕ) : ℕ :=
  searchConfidence sortedFees c n sortedFees.length 0 (sortedFees.length - 1)

/-- The search ends at the first index whose fee reaches the target. -/
theorem isLeast_confidenceIndex {sortedFees : List ℕ} (hne : sortedFees ≠ [])
    (hsorted : sortedFees.SortedLE) {c : ℚ} (hc : c ≤ 1) {n : ℕ} (hn : 1 ≤ n) :
    IsLeast {i | i < sortedFees.length ∧
        c ≤ estimateInclusionProbability (sortedFees.getD i 0) sortedFees n}
      (confidenceIndex sortedFees c n) := by
  have hlength := List.length_pos_iff.2 hne
  have hrounds : sortedFees.length - 1 - 0 ≤ sortedFees.length := by omega
  have hlast : c ≤
      estimateInclusionProbability (sortedFees.getD (sortedFees.length - 1) 0) sortedFees n := by
    rw [estimateInclusionProbability_eq_one hne
      (fun f hf => OrderStatistic.le_getD_last hsorted hf 0) hn]
    exact hc
  have hleast := Bisect.isLeast_bisect
    (fun i => c ≤ estimateInclusionProbability (sortedFees.getD i 0) sortedFees n)
    (Nat.zero_le (sortedFees.length - 1)) hrounds hlast
    fun i j hij hj hi => hi.trans (estimateInclusionProbability_mono hne
      (OrderStatistic.getD_le_getD hsorted hij (by omega) 0) hn le_rfl)
  rw [← searchConfidence_eq_bisect, ← confidenceIndex] at hleast
  obtain ⟨⟨-, hlt, hreached⟩, hfirst⟩ := hleast
  exact ⟨⟨by omega, hreached⟩,
    fun i hi => hfirst ⟨Nat.zero_le i, Nat.le_sub_one_of_lt hi.1, hi.2⟩⟩

/-- In a nonempty sorted sample the search finds a sampled fee that reaches the target, no smaller
one does, and the extrapolation above the sample is never used. -/
theorem findFeeForConfidence_spec {sortedFees : List ℕ} (hne : sortedFees ≠ [])
    (hsorted : sortedFees.SortedLE) {c : ℚ} (hc : c ≤ 1) {n : ℕ} (hn : 1 ≤ n) :
    let fee := sortedFees.getD (confidenceIndex sortedFees c n) 0
    findFeeForConfidence sortedFees c n = (fee, estimateInclusionProbability fee sortedFees n) ∧
      fee ∈ sortedFees ∧ c ≤ estimateInclusionProbability fee sortedFees n ∧
      ∀ f ∈ sortedFees, f < fee → estimateInclusionProbability f sortedFees n < c := by
  intro fee
  obtain ⟨⟨hlt, hreached⟩, hfirst⟩ := isLeast_confidenceIndex hne hsorted hc hn
  have hempty : ¬ sortedFees.isEmpty = true := by simpa using hne
  refine ⟨?_, OrderStatistic.getD_mem hlt 0, hreached, fun f hf hless => ?_⟩
  · unfold findFeeForConfidence
    rw [if_neg hempty]
    exact if_pos hreached
  · -- a smaller fee that reached the target would stand earlier in the sample
    by_contra hreaches
    obtain ⟨i, hi, rfl⟩ := OrderStatistic.exists_getD_of_mem hf 0
    have hle := hfirst ⟨hi, not_lt.1 hreaches⟩
    exact absurd (OrderStatistic.getD_le_getD hsorted hle hi 0) (not_le.2 hless)

/-- A laxer target, at more ledgers, is reached by a fee that is no larger. -/
theorem findFeeForConfidence_mono {sortedFees : List ℕ} (hne : sortedFees ≠ [])
    (hsorted : sortedFees.SortedLE) {c c' : ℚ} (hcc' : c ≤ c') (hc' : c' ≤ 1) {n n' : ℕ}
    (hn' : 1 ≤ n') (hnn' : n' ≤ n) :
    (findFeeForConfidence sortedFees c n).1 ≤ (findFeeForConfidence sortedFees c' n').1 := by
  obtain ⟨hfind, -, -, hfirst⟩ :=
    findFeeForConfidence_spec hne hsorted (hcc'.trans hc') (hn'.trans hnn')
  obtain ⟨hfind', hmem', hreached', -⟩ := findFeeForConfidence_spec hne hsorted hc' hn'
  rw [hfind, hfind']
  by_contra hless
  have hbelow := hfirst _ hmem' (not_le.1 hless)
  have hreaches := hreached'.trans (estimateInclusionProbability_mono hne le_rfl hn' hnn')
  exact absurd hbelow (not_lt.2 (hcc'.trans hreaches))

/-! ## The results -/

/-- The search is minimal: it returns the smallest sampled fee that reaches the target, with its
probability, and does not extrapolate. -/
theorem confidence_search_minimal (sortedFees : List ℕ) (c : ℚ) (n : ℕ) (hne : sortedFees ≠ [])
    (hsorted : sortedFees.SortedLE) (hc : c ≤ 1) (hn : 1 ≤ n) :
    IsLeast {f | f ∈ sortedFees ∧ c ≤ estimateInclusionProbability f sortedFees n}
        (findFeeForConfidence sortedFees c n).1 ∧
      (findFeeForConfidence sortedFees c n).2 =
        estimateInclusionProbability (findFeeForConfidence sortedFees c n).1 sortedFees n ∧
      c ≤ (findFeeForConfidence sortedFees c n).2 ∧
      c ≤ estimateInclusionProbability (sortedFees.getD (confidenceIndex sortedFees c n) 0)
        sortedFees n := by
  obtain ⟨hfind, hmem, hreached, hfirst⟩ := findFeeForConfidence_spec hne hsorted hc hn
  rw [hfind]
  refine ⟨⟨⟨hmem, hreached⟩, fun f hf => ?_⟩, rfl, hreached, hreached⟩
  by_contra hless
  exact absurd (hfirst f hf.1 (not_le.1 hless)) (not_lt.2 hf.2)

/-- In the sample 100, 200, 300 half a chance in one ledger takes the fee 200. -/
theorem confidence_search_minimal_three :
    IsLeast {f | f ∈ [100, 200, 300] ∧ 1 / 2 ≤ estimateInclusionProbability f [100, 200, 300] 1}
      200 := by
  have hmin := (confidence_search_minimal [100, 200, 300] (1 / 2) 1 (by decide) (by decide)
    (by norm_num) (by decide)).1
  have hfee : (findFeeForConfidence [100, 200, 300] (1 / 2) 1).1 = 200 := by decide +kernel
  rwa [hfee] at hmin

/-- The alternatives are ordered by fee, and each reaches the target of its tier with the confidence
it reports. -/
theorem alternatives_ordered (sortedFees : List ℕ) (hne : sortedFees ≠ [])
    (hsorted : sortedFees.SortedLE) :
    ∃ economy standard fast : ℕ,
      generateAlternatives sortedFees = [
        { fee := toString economy
          estimatedWaitLedgers := 5
          confidence := estimateInclusionProbability economy sortedFees 5
          label := "economy" },
        { fee := toString standard
          estimatedWaitLedgers := 2
          confidence := estimateInclusionProbability standard sortedFees 2
          label := "standard" },
        { fee := toString fast
          estimatedWaitLedgers := 1
          confidence := estimateInclusionProbability fast sortedFees 1
          label := "fast" }] ∧
      economy ≤ standard ∧ standard ≤ fast ∧
      70 / 100 ≤ estimateInclusionProbability economy sortedFees 5 ∧
      90 / 100 ≤ estimateInclusionProbability standard sortedFees 2 ∧
      99 / 100 ≤ estimateInclusionProbability fast sortedFees 1 := by
  have hspec : ∀ {c : ℚ} {n : ℕ}, c ≤ 1 → 1 ≤ n →
      (findFeeForConfidence sortedFees c n).2 =
        estimateInclusionProbability (findFeeForConfidence sortedFees c n).1 sortedFees n ∧
      c ≤ (findFeeForConfidence sortedFees c n).2 := by
    intro c n hc hn
    obtain ⟨hfind, -, hreached, -⟩ := findFeeForConfidence_spec hne hsorted hc hn
    rw [hfind]
    exact ⟨rfl, hreached⟩
  have heconomy := hspec (c := 70 / 100) (n := 5) (by norm_num) (by decide)
  have hstandard := hspec (c := 90 / 100) (n := 2) (by norm_num) (by decide)
  have hfast := hspec (c := 99 / 100) (n := 1) (by norm_num) (by decide)
  refine ⟨(findFeeForConfidence sortedFees (70 / 100) 5).1,
    (findFeeForConfidence sortedFees (90 / 100) 2).1,
    (findFeeForConfidence sortedFees (99 / 100) 1).1, ?_,
    findFeeForConfidence_mono hne hsorted (by norm_num) (by norm_num) (by decide) (by decide),
    findFeeForConfidence_mono hne hsorted (by norm_num) (by norm_num) (by decide) (by decide),
    ?_, ?_, ?_⟩
  · rw [← heconomy.1, ← hstandard.1, ← hfast.1]
    rfl
  · exact heconomy.1 ▸ heconomy.2
  · exact hstandard.1 ▸ hstandard.2
  · exact hfast.1 ▸ hfast.2

/-- A sample of two fees. -/
theorem alternatives_ordered_two :
    ∃ economy standard fast : ℕ,
      (generateAlternatives [100, 200]).map (·.fee) =
        [toString economy, toString standard, toString fast] ∧
      economy ≤ standard ∧ standard ≤ fast := by
  obtain ⟨economy, standard, fast, heq, hle, hle', -⟩ :=
    alternatives_ordered [100, 200] (by decide) (by decide)
  exact ⟨economy, standard, fast, by rw [heq]; rfl, hle, hle'⟩

/-- The probability of inclusion is one, and grows with the fee and with the number of ledgers. -/
theorem inclusion_probability_laws (sortedFees : List ℕ) (hne : sortedFees ≠ [])
    (fee fee' n n' : ℕ) (hfee : fee ≤ fee') (hn : 1 ≤ n) (hnn' : n ≤ n') :
    (0 ≤ estimateInclusionProbability fee sortedFees n ∧
        estimateInclusionProbability fee sortedFees n ≤ 1) ∧
      estimateInclusionProbability fee sortedFees n ≤
        estimateInclusionProbability fee' sortedFees n ∧
      estimateInclusionProbability fee sortedFees n ≤
        estimateInclusionProbability fee sortedFees n' := by
  refine ⟨?_, estimateInclusionProbability_mono hne hfee hn le_rfl,
    estimateInclusionProbability_mono hne le_rfl hn hnn'⟩
  rw [estimateInclusionProbability_eq hne fee hn]
  exact success_mem fee sortedFees n

theorem inclusion_probability_laws_two :
    estimateInclusionProbability 100 [100, 200] 1 ≤ estimateInclusionProbability 200 [100, 200] 1 ∧
      estimateInclusionProbability 100 [100, 200] 1 ≤ estimateInclusionProbability 100 [100, 200] 5 :=
  (inclusion_probability_laws [100, 200] (by decide) 100 200 1 5 (by decide) (by decide)
    (by decide)).2

end StellarFeeTracker
