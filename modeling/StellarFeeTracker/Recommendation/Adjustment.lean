import StellarFeeTracker.General.OrderStatistic
import StellarFeeTracker.Recommendation.Serving

/-!
# The fee of a warm recommendation

The fee before the cap is the percentile of the long window times a factor that depends on how the
same percentile of the short window compares to it (`adjustedFee_eq`).  A discount is taken only where
the short percentile is lower still, so in exact arithmetic the fee is not below both windows
(`warm_fee_at_least_minimum`).
-/

namespace StellarFeeTracker

/-! ## Percentiles of a sample -/

/-- The fee of the nearest rank in a sample. -/
def sampleFee (fees : List ℕ) (p : ℕ) : ℕ :=
  (fees.insertionSort (· ≤ ·)).getD (nearestRank p fees.length - 1) 0

theorem percentileValue_insertionSort {fees : List ℕ} (hne : fees ≠ []) (p : ℕ) :
    percentileValue (fees.insertionSort (· ≤ ·)) p = sampleFee fees p := by
  rw [percentileValue_eq (OrderStatistic.insertionSort_ne_nil hne), List.length_insertionSort,
    sampleFee]

theorem percentileNearest_insertionSort {fees : List ℕ} (hne : fees ≠ []) {p : ℕ} (hp : p ≤ 100) :
    percentileNearest (fees.insertionSort (· ≤ ·)) p = sampleFee fees p := by
  rw [percentileNearest_eq (OrderStatistic.insertionSort_ne_nil hne) hp, List.length_insertionSort,
    sampleFee]

theorem sampleFee_mem {fees : List ℕ} (hne : fees ≠ []) {p : ℕ} (hp : p ≤ 100) :
    sampleFee fees p ∈ fees := by
  have hpos := List.length_pos_iff.2 hne
  have hrank := nearestRank_le hp fees.length
  rw [← List.mem_insertionSort (· ≤ ·)]
  refine OrderStatistic.getD_mem ?_ 0
  rw [List.length_insertionSort]
  omega

theorem sampleFee_mono (fees : List ℕ) {p q : ℕ} (hpq : p ≤ q) (hq : q ≤ 100) :
    sampleFee fees p ≤ sampleFee fees q := by
  rcases eq_or_ne fees [] with rfl | hne
  · rfl
  · have hpos := List.length_pos_iff.2 hne
    have hrank := nearestRank_le hq fees.length
    refine OrderStatistic.getD_le_getD List.sortedLE_insertionSort
      (Nat.sub_le_sub_right (nearestRank_mono hpq fees.length) 1) ?_ 0
    rw [List.length_insertionSort]
    omega

/-! ## The adjustment -/

/-- How the short window stands to the long one. -/
inductive Pressure where
  | heating
  | moderate
  | normal
  | cooling
  deriving DecidableEq, Repr

namespace Pressure

/-- The thresholds +30 %, +10 % and -15 % for a shift. -/
def ofShift (shift : ℚ) : Pressure :=
  if 30 < shift then .heating
  else if 10 < shift then .moderate
  else if shift < -15 then .cooling
  else .normal

/-- The factors 1.25, 1.10, 1 and 0.92, as they are rounded. -/
def factor (rounding : Rounding) : Pressure → ℚ
  | heating => 125 / 100
  | moderate => rounding.round (110 / 100)
  | normal => 1
  | cooling => rounding.round (92 / 100)

end Pressure

/-- The factor that the code takes for a shift. -/
theorem adjustmentForShift_fst (rounding : Rounding) (shift : ℚ) :
    (adjustmentForShift rounding shift).1 = (Pressure.ofShift shift).factor rounding := by
  unfold adjustmentForShift Pressure.ofShift
  split_ifs <;> rfl

/-- The long percentile times the factor of the shift to it. -/
def scaledPercentile (rounding : Rounding) (short long : ℕ) : ℚ :=
  rounding.round (rounding.round long * (Pressure.ofShift (shiftOf rounding short long)).factor rounding)

theorem round_natCast_le_f64Epsilon_iff (rounding : Rounding) (l : ℕ) :
    rounding.round l ≤ f64Epsilon ↔ l = 0 := by
  have heps : f64Epsilon < 1 := by norm_num [f64Epsilon]
  have hpos : 0 ≤ f64Epsilon := by norm_num [f64Epsilon]
  have hsmall : ∀ n : ℕ, n ≤ 1 → rounding.round n = n := fun n hn =>
    rounding.round_natCast_of_le (hn.trans (by decide))
  constructor
  · intro h
    by_contra hl
    have hone : (1 : ℕ) ≤ l := Nat.one_le_iff_ne_zero.2 hl
    have hmono := rounding.round_mono (Nat.cast_le (α := ℚ).2 hone)
    rw [hsmall 1 le_rfl, Nat.cast_one] at hmono
    exact absurd (hmono.trans h) (not_le.2 heps)
  · rintro rfl
    rw [hsmall 0 zero_le_one, Nat.cast_zero]
    exact hpos

theorem urgencyPercentile_le (urgency : Urgency) : urgencyPercentile urgency ≤ 100 := by
  cases urgency <;> decide

/-- Two samples have a percentile shift unless the long percentile is zero. -/
theorem percentileShift_insertionSort (rounding : Rounding) {long short : List ℕ} (hlong : long ≠ [])
    (hshort : short ≠ []) {p : ℕ} (hp : p ≤ 100) :
    percentileShift rounding (short.insertionSort (· ≤ ·)) (long.insertionSort (· ≤ ·)) p =
      if sampleFee long p = 0 then none
      else some (shiftOf rounding (sampleFee short p) (sampleFee long p)) := by
  have hempty : ¬ ((short.insertionSort (· ≤ ·)).isEmpty ||
      (long.insertionSort (· ≤ ·)).isEmpty) = true := by
    simp only [Bool.or_eq_true, List.isEmpty_iff, OrderStatistic.insertionSort_ne_nil hshort,
      OrderStatistic.insertionSort_ne_nil hlong, or_false, not_false_eq_true]
  unfold percentileShift
  rw [if_neg hempty, percentileNearest_insertionSort hshort hp,
    percentileNearest_insertionSort hlong hp]
  exact if_congr (round_natCast_le_f64Epsilon_iff _ _) rfl rfl

namespace FeeRecommendationEngine

variable (engine : FeeRecommendationEngine)

/-- An explanation carries the factor of the percentile shift, and there is one for each shift. -/
theorem map_computeExplanation (rounding : Rounding) (config : RecommendationConfig)
    (short long : List ℕ) (p secs : ℕ) :
    (computeExplanation rounding config short long p secs).map (·.adjustmentApplied) =
      (percentileShift rounding short long p).map fun shift =>
        (Pressure.ofShift shift).factor rounding := by
  unfold computeExplanation
  split_ifs with hempty
  · rw [percentileShift, if_pos hempty]
    rfl
  · rw [Option.map_map]
    exact Option.map_congr fun shift _ => adjustmentForShift_fst rounding shift

/-- The fee before the cap is the long percentile times the factor of the shift. -/
theorem uncappedFee_fst (urgency : Urgency) (long short : List ℕ) :
    (engine.uncappedFee urgency long short).1 =
      match percentileShift engine.rounding short long (urgencyPercentile urgency) with
      | some shift =>
        asU64 (engine.rounding.round (engine.rounding.round
          (percentileValue long (urgencyPercentile urgency)) *
            (Pressure.ofShift shift).factor engine.rounding))
      | none => percentileValue long (urgencyPercentile urgency) := by
  have hfactor := map_computeExplanation engine.rounding engine.config short long
    (urgencyPercentile urgency) engine.shortWindowSecs
  unfold uncappedFee
  rcases hshift : percentileShift engine.rounding short long (urgencyPercentile urgency) with _ | shift
  · rw [hshift, Option.map_none, Option.map_eq_none_iff] at hfactor
    simp only [hfactor]
  · rw [hshift, Option.map_some, Option.map_eq_some_iff] at hfactor
    obtain ⟨explanation, hexplanation, hfactor⟩ := hfactor
    simp only [hexplanation, multiWindowAdjustment, hfactor]

/-- The adjusted fee by the percentiles of the two windows. -/
theorem adjustedFee_eq (urgency : Urgency) {long : List ℕ} (hlong : long ≠ []) (short : List ℕ) :
    engine.adjustedFee urgency long short =
      if short = [] then sampleFee long (urgencyPercentile urgency)
      else asU64 (scaledPercentile engine.rounding (sampleFee short (urgencyPercentile urgency))
        (sampleFee long (urgencyPercentile urgency))) := by
  have hp := urgencyPercentile_le urgency
  rw [adjustedFee, uncappedFee_fst, percentileValue_insertionSort hlong]
  rcases eq_or_ne short [] with rfl | hshort
  · rfl
  · rw [if_neg hshort, percentileShift_insertionSort engine.rounding hlong hshort hp]
    rcases Nat.eq_zero_or_pos (sampleFee long (urgencyPercentile urgency)) with hzero | hpos
    · -- no shift from a zero percentile, and nothing to multiply
      have hround : engine.rounding.round 0 = 0 := by
        exact_mod_cast engine.rounding.round_natCast_of_le (Nat.zero_le (2 ^ 53))
      rw [if_pos hzero, hzero, scaledPercentile, Nat.cast_zero, hround, zero_mul, hround]
      rfl
    · rw [if_neg hpos.ne']
      rfl

/-! ## Requests that the cache does not answer -/

/-- A warm sample is read from the two windows, and the long one is not empty. -/
theorem readSample_fees {store : FeeHistoryStore} {now : DateTime} {long short : List ℕ}
    (h : engine.readSample store now = .ok (.fees long short)) :
    ∃ window shortWindow,
      trySeconds (asI64 engine.config.historyWindowSecs) = .ok window ∧
      trySeconds (asI64 engine.shortWindowSecs) = .ok shortWindow ∧
      long = (store.getSince (now - window)).map (·.feeAmount) ∧
      short = (store.getSince (now - shortWindow)).map (·.feeAmount) ∧ long ≠ [] := by
  obtain ⟨window, hwindow, h⟩ := exists_ok_of_bind h
  obtain ⟨since, hsince, h⟩ := exists_ok_of_bind h
  obtain rfl := DateTime.eq_of_trySub hsince
  dsimp only at h
  split_ifs at h with hfew hempty
  · cases h
  · cases h
  · obtain ⟨shortWindow, hshortWindow, h⟩ := exists_ok_of_bind h
    obtain ⟨shortSince, hshortSince, h⟩ := exists_ok_of_bind h
    obtain rfl := DateTime.eq_of_trySub hshortSince
    cases h
    refine ⟨window, shortWindow, hwindow, hshortWindow, rfl, rfl, ?_⟩
    simpa using hempty

theorem long_ne_nil_of_readSample {store : FeeHistoryStore} {now : DateTime}
    {long short : List ℕ} (h : engine.readSample store now = .ok (.fees long short)) :
    long ≠ [] := by
  obtain ⟨-, -, -, -, -, -, hlong⟩ := engine.readSample_fees h
  exact hlong

/-- The fees of a warm sample are fees of the store. -/
theorem exists_point_of_readSample {store : FeeHistoryStore} {now : DateTime} {long short : List ℕ}
    (h : engine.readSample store now = .ok (.fees long short)) {fee : ℕ}
    (hfee : fee ∈ long ++ short) : ∃ p ∈ store.data, p.feeAmount = fee := by
  have hwindow : ∀ since, fee ∈ (store.getSince since).map (·.feeAmount) →
      ∃ p ∈ store.data, p.feeAmount = fee := by
    intro since hmem
    obtain ⟨p, hp, rfl⟩ := List.mem_map.1 hmem
    exact ⟨p, List.mem_of_mem_filter hp, rfl⟩
  obtain ⟨window, shortWindow, -, -, rfl, rfl, -⟩ := engine.readSample_fees h
  rcases List.mem_append.1 hfee with hlong | hshort
  · exact hwindow _ hlong
  · exact hwindow _ hshort

/-- On a warm sample a request that the cache does not answer is answered from the sample. -/
theorem recommend_of_miss {cache : RecommendationCache} {call : RecommendCall}
    (hmiss : cache.get (engine.cacheKey call) call.lookupAt = none) {long short : List ℕ}
    (hwarm : engine.readSample call.store call.now = .ok (.fees long short)) :
    (engine.recommend cache call).2 = [.ok (engine.warmRecommendation call long short)] := by
  simp only [recommend, hmiss, hwarm]

/-- Without a cap the fee is the adjusted one. -/
theorem warmRecommendation_fee {call : RecommendCall} (hcap : call.request.maxFee = none)
    (long short : List ℕ) :
    (engine.warmRecommendation call long short).feeInStroops =
      engine.adjustedFee call.request.urgencyOrDefault long short := by
  have hnone : call.request.cap = none := by rw [RecommendRequest.cap, hcap, Option.bind_none]
  simp only [warmRecommendation, hnone, capFee]
  rfl

end FeeRecommendationEngine

/-! ## The market minimum -/

/-- The discount is taken only where the short percentile is lower still. -/
theorem min_le_scaledPercentile (short : ℕ) {long : ℕ} (hlong : long ≤ u64Max) :
    min short long ≤ asU64 (scaledPercentile .exact short long) := by
  have hl : (0 : ℚ) ≤ long := Nat.cast_nonneg long
  have hshift : shiftOf .exact short long = ((short : ℚ) - long) / long * 100 := rfl
  have hscaled : scaledPercentile .exact short long =
      long * (Pressure.ofShift (((short : ℚ) - long) / long * 100)).factor .exact := by
    rw [← hshift]
    rfl
  have hle : ((min short long : ℕ) : ℚ) ≤ scaledPercentile .exact short long := by
    rw [hscaled, Nat.cast_min, min_le_iff]
    unfold Pressure.ofShift
    split_ifs with hheating hmoderate hcooling <;>
      simp only [Pressure.factor, Rounding.round_exact]
    · exact .inr (by linarith)
    · exact .inr (by linarith)
    · -- the short percentile is below 0.85 of the long one
      left
      have hpos : (0 : ℚ) < long := by
        refine lt_of_le_of_ne hl fun hzero => ?_
        rw [← hzero, div_zero, zero_mul] at hcooling
        exact absurd hcooling (by norm_num)
      have hless : ((short : ℚ) - long) / long < -15 / 100 := by linarith
      rw [div_lt_iff₀ hpos] at hless
      linarith
    · exact .inr (by linarith)
  exact (le_asU64_iff ((min_le_right _ _).trans hlong) ((Nat.cast_nonneg _).trans hle)).2 hle

namespace FeeRecommendationEngine

variable (engine : FeeRecommendationEngine)

theorem le_u64Max_of_readSample {store : FeeHistoryStore} {now : DateTime} {long short : List ℕ}
    (h : engine.readSample store now = .ok (.fees long short))
    (hu64 : ∀ p ∈ store.data, p.feeAmount ≤ u64Max) : ∀ fee ∈ long ++ short, fee ≤ u64Max := by
  intro fee hfee
  obtain ⟨p, hp, rfl⟩ := engine.exists_point_of_readSample h hfee
  exact hu64 p hp

/-- In exact arithmetic a warm recommendation without a cap is at least the lowest fee of the two
windows. -/
theorem warm_fee_at_least_minimum (hexact : engine.rounding = .exact)
    (cache : RecommendationCache) (call : RecommendCall)
    (long short : List ℕ) (hcap : call.request.maxFee = none)
    (hmiss : cache.get (engine.cacheKey call) call.lookupAt = none)
    (hwarm : engine.readSample call.store call.now = .ok (.fees long short))
    (hu64 : ∀ p ∈ call.store.data, p.feeAmount ≤ u64Max) :
    ∃ response, (engine.recommend cache call).2 = [.ok response] ∧
      (∀ lowest ∈ (long ++ short).min?, lowest ≤ response.feeInStroops) ∧
      ((∀ fee ∈ long ++ short, 100 ≤ fee) → 100 ≤ response.feeInStroops) := by
  have hlong := engine.long_ne_nil_of_readSample hwarm
  have hmax := engine.le_u64Max_of_readSample hwarm hu64
  have hfloor : ∀ floor, (∀ fee ∈ long ++ short, floor ≤ fee) →
      floor ≤ (engine.warmRecommendation call long short).feeInStroops := by
    intro floor hfloor
    have hp := urgencyPercentile_le call.request.urgencyOrDefault
    have hl := hfloor _ (List.mem_append_left short (sampleFee_mem hlong hp))
    rw [engine.warmRecommendation_fee hcap, engine.adjustedFee_eq _ hlong, hexact]
    split_ifs with hshort
    · exact hl
    · have hs := hfloor _ (List.mem_append_right long (sampleFee_mem hshort hp))
      refine (le_min hs hl).trans (min_le_scaledPercentile _ ?_)
      exact hmax _ (List.mem_append_left short (sampleFee_mem hlong hp))
  refine ⟨_, engine.recommend_of_miss hmiss hwarm, fun lowest hlowest => ?_, hfloor 100⟩
  exact hfloor lowest (List.min?_eq_some_iff.1 hlowest).2

/-- Ten fees of 300 are recommended at no less. -/
theorem warm_fee_at_least_minimum_ten :
    let engine : FeeRecommendationEngine := { config := .default, rounding := .exact }
    ∃ response, (engine.recommend newCache (callAt tenFees none 0)).2 = [.ok response] ∧
      (∀ lowest ∈ (tenFees ++ tenFees).min?, lowest ≤ response.feeInStroops) ∧
      ((∀ fee ∈ tenFees ++ tenFees, 100 ≤ fee) → 100 ≤ response.feeInStroops) := by
  intro engine
  exact engine.warm_fee_at_least_minimum rfl newCache (callAt tenFees none 0) tenFees tenFees rfl rfl
    (by decide) (by decide)

end FeeRecommendationEngine

end StellarFeeTracker
