import StellarFeeTracker.Recommendation.Adjustment

/-!
# The order of the urgencies

A higher urgency takes higher percentiles of both windows, but the factor of the short window may fall
from one percentile to the next.  It pays less exactly where the higher percentile, times its factor,
stays below the adjusted lower one (`urgencyMonotone_iff`).  All is said of the floats that the engine
computes with.
-/

namespace StellarFeeTracker

open Binary64 (toFloat toFloat_le toFloat_mono toFloat_neg toFloat_nonneg isFloat_one)

/-! ## Pressure in floats -/

/-- How a percentile of the short window stands to the one of the long window. -/
def pressure (short long : ℕ) : Pressure := .ofShift (shiftOf .binary64 short long)

theorem scaledPercentile_eq (short long : ℕ) :
    scaledPercentile .binary64 short long =
      toFloat (toFloat long * (pressure short long).factor .binary64) := rfl

theorem one_le_toFloat {n : ℕ} (hn : 0 < n) : 1 ≤ toFloat n := by
  rw [← isFloat_one.eq]
  exact toFloat_mono (by exact_mod_cast hn)

theorem toFloat_natCast_nonneg (n : ℕ) : 0 ≤ toFloat n := toFloat_nonneg (Nat.cast_nonneg n)

theorem toFloat_natCast_mono {m n : ℕ} (h : m ≤ n) : toFloat m ≤ toFloat n :=
  toFloat_mono (Nat.cast_le.2 h)

/-- A share of a percentile that is not zero is not tiny. -/
theorem toFloat_share_le {share : ℚ} (hshare : 2 ^ (-1022 : ℤ) ≤ share) {l : ℕ} (hl : 0 < l) :
    toFloat (share * toFloat l) ≤ share * (1 + 1 / 2 ^ 53) * toFloat l := by
  have hpos : 0 < share := (Binary64.two_zpow_pos _).trans_le hshare
  have hnormal := hshare.trans (le_mul_of_one_le_right hpos.le (one_le_toFloat hl))
  calc toFloat (share * toFloat l) ≤ share * toFloat l * (1 + 1 / 2 ^ 53) := toFloat_le hnormal
    _ = share * (1 + 1 / 2 ^ 53) * toFloat l := by ring

/-- The shift of a small rise is small: the roundings add little to it. -/
theorem shiftOf_le (rise : ℚ) (hrise : 2 ^ (-1022 : ℤ) ≤ rise) {s l : ℕ} (hl : 0 < l)
    (h : toFloat s - toFloat l ≤ rise * toFloat l) :
    shiftOf .binary64 s l ≤ toFloat (toFloat (rise * (1 + 1 / 2 ^ 53)) * 100) := by
  have hpos : 0 < toFloat l := zero_lt_one.trans_le (one_le_toFloat hl)
  have hquotient : toFloat (toFloat s - toFloat l) / toFloat l ≤ rise * (1 + 1 / 2 ^ 53) := by
    rw [div_le_iff₀ hpos]
    exact (toFloat_mono h).trans (toFloat_share_le hrise hl)
  exact toFloat_mono (mul_le_mul_of_nonneg_right (toFloat_mono hquotient) (by norm_num))

/-- The shift of a small fall is small. -/
theorem le_shiftOf (fall : ℚ) (hfall : 2 ^ (-1022 : ℤ) ≤ fall) {s l : ℕ} (hl : 0 < l)
    (h : -(fall * toFloat l) ≤ toFloat s - toFloat l) :
    -toFloat (toFloat (fall * (1 + 1 / 2 ^ 53)) * 100) ≤ shiftOf .binary64 s l := by
  have hpos : 0 < toFloat l := zero_lt_one.trans_le (one_le_toFloat hl)
  have hquotient : -(fall * (1 + 1 / 2 ^ 53)) ≤ toFloat (toFloat s - toFloat l) / toFloat l := by
    have hdifference := toFloat_mono h
    rw [toFloat_neg] at hdifference
    rw [le_div_iff₀ hpos, neg_mul]
    exact (neg_le_neg (toFloat_share_le hfall hl)).trans hdifference
  have hround := toFloat_mono hquotient
  rw [toFloat_neg] at hround
  rw [← toFloat_neg, ← neg_mul]
  exact toFloat_mono (mul_le_mul_of_nonneg_right hround (by norm_num))

theorem pressure_zero (s : ℕ) : pressure s 0 = .normal := by
  have hzero : toFloat ((0 : ℕ) : ℚ) = 0 := by decide +kernel
  have hzero' : toFloat 0 = 0 := by decide +kernel
  have hshift : shiftOf .binary64 s 0 = 0 := by
    unfold shiftOf
    simp only [Rounding.round_binary64, hzero, hzero', div_zero, zero_mul]
  rw [pressure, hshift]
  decide

/-- What a pressure says of the two percentiles.  The bounds leave room for the roundings. -/
theorem pressure_bounds (short long : ℕ) :
    match pressure short long with
    | .heating => 1299 / 1000 * toFloat long < toFloat short
    | .moderate => 1099 / 1000 * toFloat long < toFloat short
    | .normal => True
    | .cooling => toFloat short < 851 / 1000 * toFloat long := by
  rcases Nat.eq_zero_or_pos long with rfl | hl
  · rw [pressure_zero]
    trivial
  have hheating : 30 < shiftOf .binary64 short long →
      1299 / 1000 * toFloat long < toFloat short := by
    intro h
    by_contra hnot
    have hsmall : shiftOf .binary64 short long ≤ _ :=
      shiftOf_le (299 / 1000) (by decide +kernel) hl (by linarith)
    exact absurd (hsmall.trans (by decide +kernel)) (not_le.2 h)
  have hmoderate : 10 < shiftOf .binary64 short long →
      1099 / 1000 * toFloat long < toFloat short := by
    intro h
    by_contra hnot
    have hsmall : shiftOf .binary64 short long ≤ _ :=
      shiftOf_le (99 / 1000) (by decide +kernel) hl (by linarith)
    exact absurd (hsmall.trans (by decide +kernel)) (not_le.2 h)
  have hcooling : shiftOf .binary64 short long < -15 →
      toFloat short < 851 / 1000 * toFloat long := by
    intro h
    by_contra hnot
    have hsmall : _ ≤ shiftOf .binary64 short long :=
      le_shiftOf (149 / 1000) (by decide +kernel) hl (by linarith)
    exact absurd (le_trans (by decide +kernel) hsmall) (not_le.2 h)
  unfold pressure Pressure.ofShift
  split_ifs with h30 h10 h15
  · exact hheating h30
  · exact hmoderate h10
  · exact hcooling h15
  · trivial

/-! ## Undercuts -/

/-- The pairs of pressures between which the factor falls and may fall too far. -/
def fallingPressures : List (Pressure × Pressure) :=
  [(.heating, .moderate), (.heating, .normal), (.moderate, .normal), (.normal, .cooling)]

/-- The factor falls between two pairs of a short and a long percentile, and the higher long
percentile does not make up for it. -/
def Undercut (short long short' long' : ℕ) : Prop :=
  (pressure short long, pressure short' long') ∈ fallingPressures ∧
    scaledPercentile .binary64 short' long' < asU64 (scaledPercentile .binary64 short long)

instance (short long short' long' : ℕ) : Decidable (Undercut short long short' long') :=
  inferInstanceAs (Decidable (_ ∧ _))

theorem factor_nonneg (p : Pressure) : 0 ≤ p.factor .binary64 := by
  cases p <;> decide +kernel

theorem scaledPercentile_nonneg (short long : ℕ) : 0 ≤ scaledPercentile .binary64 short long :=
  toFloat_nonneg (mul_nonneg (toFloat_natCast_nonneg long) (factor_nonneg _))

/-- Unless the factor falls the scaled percentile does not. -/
theorem scaledPercentile_mono {short long short' long' : ℕ} (hlong : long ≤ long')
    (hfactor : (pressure short long).factor .binary64 ≤ (pressure short' long').factor .binary64) :
    scaledPercentile .binary64 short long ≤ scaledPercentile .binary64 short' long' :=
  toFloat_mono (mul_le_mul (toFloat_natCast_mono hlong) hfactor (factor_nonneg _)
    (toFloat_natCast_nonneg long'))

/-- A fall of the factor to 0.92 from above 1 is always made up for. -/
theorem scaledPercentile_le_of_cooling {short long short' long' : ℕ} (hshort : short ≤ short')
    (h : pressure short long = .heating ∨ pressure short long = .moderate)
    (h' : pressure short' long' = .cooling) :
    scaledPercentile .binary64 short long ≤ scaledPercentile .binary64 short' long' := by
  have hlow := pressure_bounds short long
  have hhigh := pressure_bounds short' long'
  have hrise := toFloat_natCast_mono hshort
  have hdiscount : 91 / 100 ≤ Pressure.cooling.factor .binary64 := by decide +kernel
  have hproduct : toFloat long' * (91 / 100) ≤ toFloat long' * Pressure.cooling.factor .binary64 :=
    mul_le_mul_of_nonneg_left hdiscount (toFloat_natCast_nonneg long')
  rw [scaledPercentile_eq, scaledPercentile_eq, h']
  refine toFloat_mono (le_trans ?_ hproduct)
  rw [h'] at hhigh
  rcases h with h | h <;> rw [h] at hlow ⊢
  · have hfactor : Pressure.heating.factor .binary64 = 125 / 100 := rfl
    rw [hfactor]
    dsimp only at hlow hhigh
    linarith [toFloat_natCast_nonneg long]
  · have hfactor : Pressure.moderate.factor .binary64 ≤ 111 / 100 := by decide +kernel
    refine (mul_le_mul_of_nonneg_left hfactor (toFloat_natCast_nonneg long)).trans ?_
    dsimp only at hlow hhigh
    linarith [toFloat_natCast_nonneg long]

/-- Where both percentiles rise, the adjusted one falls exactly at an undercut. -/
theorem asU64_le_asU64_iff {short long short' long' : ℕ} (hshort : short ≤ short')
    (hlong : long ≤ long') :
    asU64 (scaledPercentile .binary64 short long) ≤ asU64 (scaledPercentile .binary64 short' long') ↔
      ¬ Undercut short long short' long' := by
  have hfits : asU64 (scaledPercentile .binary64 short long) ≤ u64Max := min_le_right _ _
  rw [le_asU64_iff hfits (scaledPercentile_nonneg short' long'), ← not_lt]
  unfold Undercut
  by_cases hfalls : (pressure short long, pressure short' long') ∈ fallingPressures
  · rw [and_iff_right hfalls]
  · -- the other pairs: the factor does not fall, or the percentile makes up for it
    have hle : scaledPercentile .binary64 short long ≤ scaledPercentile .binary64 short' long' := by
      have hpair : ((pressure short long = .heating ∨ pressure short long = .moderate) ∧
            pressure short' long' = .cooling) ∨
          (pressure short long).factor .binary64 ≤ (pressure short' long').factor .binary64 := by
        revert hfalls
        cases pressure short long <;> cases pressure short' long' <;> decide +kernel
      rcases hpair with ⟨hp, hp'⟩ | hfactor
      · exact scaledPercentile_le_of_cooling hshort hp hp'
      · exact scaledPercentile_mono hlong hfactor
    have hkept := (asU64_le (scaledPercentile_nonneg short long)).trans hle
    exact ⟨fun _ h => hfalls h.1, fun _ => not_lt.2 hkept⟩

namespace RecommendCall

/-- The same request with another urgency. -/
def withUrgency (call : RecommendCall) (urgency : Urgency) : RecommendCall :=
  { call with request := { call.request with urgency := some urgency } }

end RecommendCall

/-- Two neighbouring levels of urgency. -/
def urgencySteps : List (Urgency × Urgency) := [(.low, .medium), (.medium, .high), (.high, .urgent)]

/-- No urgency undercuts the next one, by the percentiles of the two windows. -/
def NoUndercut (long short : List ℕ) : Prop :=
  short = [] ∨ ∀ step ∈ urgencySteps,
    ¬ Undercut (sampleFee short (urgencyPercentile step.1)) (sampleFee long (urgencyPercentile step.1))
      (sampleFee short (urgencyPercentile step.2)) (sampleFee long (urgencyPercentile step.2))

theorem urgencyPercentile_step {step : Urgency × Urgency} (h : step ∈ urgencySteps) :
    urgencyPercentile step.1 ≤ urgencyPercentile step.2 := by
  simp only [urgencySteps, List.mem_cons, List.not_mem_nil, or_false] at h
  rcases h with rfl | rfl | rfl <;> decide

namespace FeeRecommendationEngine

variable (engine : FeeRecommendationEngine)

/-- The requests that differ in urgency only are answered with fees that grow with it. -/
def UrgencyMonotone (cache : RecommendationCache) (call : RecommendCall) : Prop :=
  ∃ response : Urgency → RecommendResponse,
    (∀ urgency, (engine.recommend cache (call.withUrgency urgency)).2 = [.ok (response urgency)]) ∧
      (response .low).feeInStroops ≤ (response .medium).feeInStroops ∧
      (response .medium).feeInStroops ≤ (response .high).feeInStroops ∧
      (response .high).feeInStroops ≤ (response .urgent).feeInStroops

/-- The fees of two neighbouring urgencies are in order exactly when neither undercuts. -/
theorem adjustedFee_step_iff (hfloats : engine.rounding = .binary64) {long : List ℕ}
    (hlong : long ≠ []) (short : List ℕ) {step : Urgency × Urgency} (hstep : step ∈ urgencySteps) :
    engine.adjustedFee step.1 long short ≤ engine.adjustedFee step.2 long short ↔
      short = [] ∨ ¬ Undercut (sampleFee short (urgencyPercentile step.1))
        (sampleFee long (urgencyPercentile step.1)) (sampleFee short (urgencyPercentile step.2))
        (sampleFee long (urgencyPercentile step.2)) := by
  have hle := urgencyPercentile_step hstep
  have hp := urgencyPercentile_le step.2
  rw [engine.adjustedFee_eq _ hlong, engine.adjustedFee_eq _ hlong, hfloats]
  by_cases hshort : short = []
  · rw [if_pos hshort, if_pos hshort]
    exact ⟨fun _ => Or.inl hshort, fun _ => sampleFee_mono long hle hp⟩
  · rw [if_neg hshort, if_neg hshort,
      asU64_le_asU64_iff (sampleFee_mono short hle hp) (sampleFee_mono long hle hp)]
    exact ⟨Or.inr, fun h => h.resolve_left hshort⟩

/-- On a warm sample the fees grow with the urgency exactly when no urgency undercuts the next. -/
theorem urgencyMonotone_iff (hfloats : engine.rounding = .binary64) (cache : RecommendationCache)
    (call : RecommendCall) (long short : List ℕ) (hcap : call.request.maxFee = none)
    (hmiss : ∀ urgency,
      cache.get (engine.cacheKey (call.withUrgency urgency)) call.lookupAt = none)
    (hwarm : engine.readSample call.store call.now = .ok (.fees long short)) :
    engine.UrgencyMonotone cache call ↔ NoUndercut long short := by
  have hlong := engine.long_ne_nil_of_readSample hwarm
  have hanswer : ∀ urgency, (engine.recommend cache (call.withUrgency urgency)).2 =
      [.ok (engine.warmRecommendation (call.withUrgency urgency) long short)] :=
    fun urgency => engine.recommend_of_miss (hmiss urgency) hwarm
  have hfee : ∀ urgency,
      (engine.warmRecommendation (call.withUrgency urgency) long short).feeInStroops =
        engine.adjustedFee urgency long short := by
    intro urgency
    have hcap' : (call.withUrgency urgency).request.maxFee = none := hcap
    exact engine.warmRecommendation_fee hcap' long short
  have hsteps : engine.UrgencyMonotone cache call ↔ ∀ step ∈ urgencySteps,
      engine.adjustedFee step.1 long short ≤ engine.adjustedFee step.2 long short := by
    simp only [UrgencyMonotone, hanswer, List.cons.injEq, Except.ok.injEq, and_true, urgencySteps,
      List.forall_mem_cons, List.not_mem_nil, false_imp_iff, implies_true, ← hfee]
    constructor
    · rintro ⟨response, hresponse, hlow, hmedium, hhigh⟩
      simp only [← hresponse] at hlow hmedium hhigh
      exact ⟨hlow, hmedium, hhigh⟩
    · intro h
      exact ⟨_, fun _ => rfl, h⟩
  refine (hsteps.trans (forall₂_congr fun step hstep =>
    engine.adjustedFee_step_iff hfloats hlong short hstep)).trans ?_
  unfold NoUndercut
  by_cases hshort : short = []
  · simp only [hshort, true_or, implies_true]
  · simp only [hshort, false_or]

/-- A call with the fees of half an hour ago and those of two minutes ago. -/
def heatingCall (old recent : List ℕ) : RecommendCall where
  request := requestWithCap none
  store := {
    data := (old.map fun fee =>
        { feeAmount := fee
          timestamp := seconds 1736849820
          transactionHash := "old"
          ledgerSequence := 100 }) ++
      recent.map fun fee =>
        { feeAmount := fee
          timestamp := seconds 1736851500
          transactionHash := "new"
          ledgerSequence := 200 }
    capacity := 100 }
  insightsEngine := none
  now := seconds 1736851620
  lookupAt := 0
  storeAt := 0

/-- The short window stands at 131: a third above the 30th percentile of the long one, which pays 125,
at the 60th, which pays 131, and a third below the others, which pay 184. -/
theorem urgency_monotone_steep_fees :
    let engine : FeeRecommendationEngine := { config := .default }
    engine.UrgencyMonotone newCache
      (heatingCall [100, 100, 100, 100, 200, 200, 200] [131, 131, 131]) := by
  intro engine
  refine (engine.urgencyMonotone_iff rfl newCache
    (heatingCall [100, 100, 100, 100, 200, 200, 200] [131, 131, 131])
    [100, 100, 100, 100, 200, 200, 200, 131, 131, 131] [131, 131, 131] rfl (fun _ => rfl)
    (by decide)).2 (Or.inr ?_)
  decide +kernel

/-- The short window stands at 131, a third above the 30th percentile of the long one and a fifth
above the 60th, so the low urgency pays 125 and the medium one 121. -/
theorem low_urgency_pays_more :
    let engine : FeeRecommendationEngine := { config := .default }
    ¬ engine.UrgencyMonotone newCache
      (heatingCall [100, 100, 100, 100, 110, 110, 110] [131, 131, 131]) := by
  rintro engine ⟨response, hresponse, hlow, -⟩
  have hfees : ∀ step ∈ [(Urgency.low, 125), (.medium, 121)],
      (engine.recommend newCache ((heatingCall [100, 100, 100, 100, 110, 110, 110]
        [131, 131, 131]).withUrgency step.1)).2.map (Except.map (·.feeInStroops)) =
          [.ok step.2] := by
    decide +kernel
  simp only [hresponse, List.map_cons, List.map_nil, Except.map, List.cons.injEq, Except.ok.injEq,
    and_true, List.forall_mem_cons, List.not_mem_nil, false_imp_iff, implies_true] at hfees
  omega

end FeeRecommendationEngine

end StellarFeeTracker
