import StellarFeeTracker.Analytics.Regression
import StellarFeeTracker.General.Separated
import StellarFeeTracker.Recommendation.Adjustment

/-!
# The trend note

The engine sorts the fees of the short window for the percentiles, and takes the trend of the sorted
fees too; and a cached answer carries the note of the request that it was computed for.  So what a note
says of a request's own series is a matter of the request that serves it (`trendNotesTrue_iff`).
Sorted fees never fall: without rounding a clear trend of either sign is called upward
(`notesTrend_upward_of_exact`).
-/

namespace StellarFeeTracker

open Machine Separated
open Binary64 (roundHalfEven)

/-! ## The texts of a reason -/

/-- A text with no semicolon. -/
def Plain (s : String) : Prop := ';' ∉ s.toList

instance (s : String) : Decidable (Plain s) := inferInstanceAs (Decidable (';' ∉ s.toList))

theorem Plain.append {s t : String} (hs : Plain s) (ht : Plain t) : Plain (s ++ t) := by
  unfold Plain at hs ht ⊢
  rw [String.toList_append, List.mem_append]
  exact not_or.2 ⟨hs, ht⟩

theorem plain_natRepr (n : ℕ) : Plain n.repr :=
  List.count_eq_zero.1 (count_toList_repr_eq_zero n (by decide))

theorem plain_intRepr (z : ℤ) : Plain z.repr :=
  List.count_eq_zero.1 (count_toList_intRepr_eq_zero z (by decide) (by decide))

theorem plain_ite {p : Prop} [Decidable p] {s t : String} (hs : Plain s) (ht : Plain t) :
    Plain (if p then s else t) := by
  split_ifs
  · exact hs
  · exact ht

theorem plain_twoDecimals (q : ℚ) : Plain (twoDecimals q) := by
  unfold twoDecimals
  have hsign : Plain (if q < 0 then "-" else "") := plain_ite (by decide) (by decide)
  have hzero : Plain (if (roundHalfEven (|q| * 100)).toNat % 100 < 10 then "0" else "") :=
    plain_ite (by decide) (by decide)
  exact (((hsign.append (plain_natRepr _)).append (by decide)).append hzero).append
    (plain_natRepr _)

theorem plain_signedWhole (q : ℚ) : Plain (signedWhole q) := by
  unfold signedWhole
  have hsign : Plain (if q < 0 then "-" else "+") := plain_ite (by decide) (by decide)
  exact hsign.append (plain_natRepr _)

/-- The reason of an adjustment has no semicolon, so the one in a reason begins the trend note. -/
theorem plain_adjustmentForShift (rounding : Rounding) (shift : ℚ) :
    Plain (adjustmentForShift rounding shift).2 := by
  unfold adjustmentForShift
  split_ifs
  · exact (Plain.append (by decide) (plain_intRepr _)).append (by decide)
  · exact (Plain.append (by decide) (plain_intRepr _)).append (by decide)
  · exact (Plain.append (by decide) (plain_intRepr _)).append (by decide)
  · exact (Plain.append (by decide) (plain_signedWhole _)).append (by decide)

/-- How a trend note says a direction. -/
def trendPhrase (direction : String) : String := "; short-term trend is " ++ direction ++ " (slope="

theorem toList_trendPhrase (direction : String) :
    (trendPhrase direction).toList =
      ';' :: (" short-term trend is ".toList ++ (direction.toList ++ " (slope=".toList)) := by
  have hsemicolon : "; short-term trend is ".toList = ';' :: " short-term trend is ".toList := by
    decide
  unfold trendPhrase
  rw [String.toList_append, String.toList_append, hsemicolon, List.cons_append, List.cons_append,
    List.append_assoc]

/-- The part of a trend note after the direction. -/
def trendStats (trend : TrendAnalysis) : String :=
  twoDecimals trend.slope ++ ", R²=" ++ twoDecimals trend.rSquared ++ ")"

theorem plain_trendStats (trend : TrendAnalysis) : Plain (trendStats trend) :=
  (((plain_twoDecimals _).append (by decide)).append (plain_twoDecimals _)).append (by decide)

theorem trendNote_eq (trend : TrendAnalysis) (direction : String) :
    trendNote trend direction = trendPhrase direction ++ trendStats trend := by
  unfold trendNote trendPhrase trendStats
  rw [← String.append_assoc, ← String.append_assoc, ← String.append_assoc]

/-- The reason of an explanation says that the short-term trend has a direction. -/
def RecommendationExplanation.SaysTrend (explanation : RecommendationExplanation)
    (direction : String) : Prop :=
  (trendPhrase direction).toList <:+: explanation.adjustmentReason.toList

instance (explanation : RecommendationExplanation) (direction : String) :
    Decidable (explanation.SaysTrend direction) :=
  inferInstanceAs (Decidable (_ <:+: _))

/-- A plain reason says no trend. -/
theorem not_saysTrend_of_plain {explanation : RecommendationExplanation}
    (hreason : Plain explanation.adjustmentReason) (direction : String) :
    ¬ explanation.SaysTrend direction := by
  intro h
  refine hreason (h.subset ?_)
  rw [toList_trendPhrase]
  exact List.mem_cons_self

/-- The directions that a note can say. -/
def notedDirections : List String := ["upward", "downward"]

/-- A reason with the note of a trend says the direction of the note, and no other one. -/
theorem saysTrend_note_iff {explanation : RecommendationExplanation} {front : String}
    (hfront : Plain front) (trend : TrendAnalysis) {direction : String}
    (hdirection : direction ∈ notedDirections)
    (hreason : explanation.adjustmentReason = front ++ trendNote trend direction)
    {direction' : String} (hdirection' : direction' ∈ notedDirections) :
    explanation.SaysTrend direction' ↔ direction' = direction := by
  have hplain : ';' ∉ direction.toList := by
    simp only [notedDirections, List.mem_cons, List.not_mem_nil, or_false] at hdirection
    rcases hdirection with rfl | rfl <;> decide
  have hback : ';' ∉ " short-term trend is ".toList ++ (direction.toList ++ " (slope=".toList) ++
      (trendStats trend).toList := by
    simp only [List.mem_append, not_or]
    exact ⟨⟨by decide, hplain, by decide⟩, plain_trendStats trend⟩
  unfold RecommendationExplanation.SaysTrend
  rw [hreason, trendNote_eq, String.toList_append, String.toList_append, toList_trendPhrase,
    toList_trendPhrase, List.cons_append, cons_infix_append_cons_iff hfront hback]
  constructor
  · rw [List.append_assoc, List.prefix_append_right_inj]
    simp only [notedDirections, List.mem_cons, List.not_mem_nil, or_false] at hdirection hdirection'
    have hdown : "downward".toList = 'd' :: "ownward".toList := by decide
    have hup : "upward".toList = 'u' :: "pward".toList := by decide
    rcases hdirection with rfl | rfl <;> rcases hdirection' with rfl | rfl <;>
      simp [hdown, hup]
  · rintro rfl
    exact List.prefix_append _ _

/-! ## The explanation of a warm sample -/

/-- The engine calls the trend of sorted fees clear, and finds it in this direction. -/
def NotesTrend (rounding : Rounding) (short : List ℕ) (direction : TrendDirection) : Prop :=
  let trend := analyzeTrend rounding (asFloats rounding (short.insertionSort (· ≤ ·)))
  rounding.round (6 / 10) < trend.rSquared ∧ trend.direction = direction

instance (rounding : Rounding) (short : List ℕ) (direction : TrendDirection) :
    Decidable (NotesTrend rounding short direction) := inferInstanceAs (Decidable (_ ∧ _))

/-- A reason with the note of an analysis says the direction of a clear trend. -/
theorem saysTrend_suffix_iff {explanation : RecommendationExplanation} {front : String}
    (hfront : Plain front) (rounding : Rounding) (trend : TrendAnalysis)
    (hreason : explanation.adjustmentReason = front ++ trendSuffix rounding trend) :
    (explanation.SaysTrend "upward" ↔
        rounding.round (6 / 10) < trend.rSquared ∧ trend.direction = .upward) ∧
      (explanation.SaysTrend "downward" ↔
        rounding.round (6 / 10) < trend.rSquared ∧ trend.direction = .downward) := by
  have hup : "upward" ∈ notedDirections := List.mem_cons_self
  have hdown : "downward" ∈ notedDirections := List.mem_cons_of_mem _ List.mem_cons_self
  unfold trendSuffix at hreason
  by_cases hclear : rounding.round (6 / 10) < trend.rSquared
  · rw [if_pos hclear] at hreason
    cases htrend : trend.direction with
    | upward =>
      rw [htrend] at hreason
      rw [saysTrend_note_iff hfront trend hup hreason hup,
        saysTrend_note_iff hfront trend hup hreason hdown]
      simp [hclear]
    | downward =>
      rw [htrend] at hreason
      rw [saysTrend_note_iff hfront trend hdown hreason hup,
        saysTrend_note_iff hfront trend hdown hreason hdown]
      simp [hclear]
    | sideways =>
      rw [htrend] at hreason
      have hplain : Plain explanation.adjustmentReason := by
        rw [hreason, String.append_empty]
        exact hfront
      simp [not_saysTrend_of_plain hplain]
  · have hplain : Plain explanation.adjustmentReason := by
      rw [hreason, if_neg hclear, String.append_empty]
      exact hfront
    simp [not_saysTrend_of_plain hplain, hclear]

/-- Where there is a shift there is an explanation, and it says the trend of the sorted short window. -/
theorem exists_explanation_of_shift (rounding : Rounding) (config : RecommendationConfig) (secs : ℕ)
    {short long : List ℕ} {p : ℕ} {shift : ℚ}
    (hshift : percentileShift rounding (short.insertionSort (· ≤ ·)) long p = some shift) :
    ∃ explanation,
      computeExplanation rounding config (short.insertionSort (· ≤ ·)) long p secs = some explanation ∧
        (explanation.SaysTrend "upward" ↔ NotesTrend rounding short .upward) ∧
        (explanation.SaysTrend "downward" ↔ NotesTrend rounding short .downward) := by
  have hempty : ¬ ((short.insertionSort (· ≤ ·)).isEmpty || long.isEmpty) = true := by
    intro hempty
    rw [percentileShift, if_pos hempty] at hshift
    cases hshift
  unfold computeExplanation
  rw [if_neg hempty, hshift]
  exact ⟨_, rfl, saysTrend_suffix_iff (plain_adjustmentForShift rounding shift) rounding _ rfl⟩

namespace FeeRecommendationEngine

variable (engine : FeeRecommendationEngine)

/-! ## What a response says of a series -/

/-- The fees of the short window in the order of time, as far as the window can be read. -/
def shortSeries (call : RecommendCall) : List ℕ :=
  match trySeconds (asI64 engine.shortWindowSecs) >>= DateTime.trySub call.now with
  | .ok since => ((call.store.getSince since).insertionSort
      fun p q => p.timestamp ≤ q.timestamp).map (·.feeAmount)
  | .error _ => []

/-- The slope of the least-squares regression of a series. -/
def seriesSlope (series : List ℕ) : ℚ := (analyzeTrend .exact (asFloats .exact series)).slope

/-- The regression of a series is clear and not flat. -/
def ClearTrend (series : List ℕ) : Prop :=
  6 / 10 < (analyzeTrend .exact (asFloats .exact series)).rSquared ∧
    1 / 1000000 < |seriesSlope series|

instance (series : List ℕ) : Decidable (ClearTrend series) := inferInstanceAs (Decidable (_ ∧ _))

/-- The explanation of a response, if it has one, says the direction of the trend of a series. -/
def TrendNoteTrue (series : List ℕ) (response : RecommendResponse) : Prop :=
  ∀ explanation ∈ response.explanation,
    (0 < seriesSlope series → explanation.SaysTrend "upward") ∧
      (seriesSlope series < 0 → explanation.SaysTrend "downward")

/-- The answer to a request has no explanation, or the engine found the trend of a slope in the sorted
short window of the request. -/
def NoteFits (slope : ℚ) (call : RecommendCall) : Prop :=
  ∀ long short, engine.readSample call.store call.now = .ok (.fees long short) →
    short = [] ∨ sampleFee long (urgencyPercentile call.request.urgencyOrDefault) = 0 ∨
      0 < slope ∧ NotesTrend engine.rounding short .upward ∨
      slope < 0 ∧ NotesTrend engine.rounding short .downward

theorem noteFits_iff_of_warm (slope : ℚ) {call : RecommendCall} {long short : List ℕ}
    (hwarm : engine.readSample call.store call.now = .ok (.fees long short)) :
    engine.NoteFits slope call ↔
      short = [] ∨ sampleFee long (urgencyPercentile call.request.urgencyOrDefault) = 0 ∨
        0 < slope ∧ NotesTrend engine.rounding short .upward ∨
        slope < 0 ∧ NotesTrend engine.rounding short .downward := by
  refine ⟨fun h => h long short hwarm, fun h long' short' hwarm' => ?_⟩
  obtain ⟨rfl, rfl⟩ := FeeSample.fees.inj (Except.ok.inj (hwarm.symm.trans hwarm'))
  exact h

theorem warmRecommendation_explanation (call : RecommendCall) (long short : List ℕ) :
    (engine.warmRecommendation call long short).explanation =
      computeExplanation engine.rounding engine.config (short.insertionSort (· ≤ ·))
        (long.insertionSort (· ≤ ·)) (urgencyPercentile call.request.urgencyOrDefault)
        engine.shortWindowSecs := by
  simp only [warmRecommendation, uncappedFee]
  split <;> rfl

/-- There is no explanation without a short window or without a long percentile. -/
theorem warmRecommendation_explanation_eq_none (call : RecommendCall) {long short : List ℕ}
    (hlong : long ≠ [])
    (h : short = [] ∨ sampleFee long (urgencyPercentile call.request.urgencyOrDefault) = 0) :
    (engine.warmRecommendation call long short).explanation = none := by
  have hshift : percentileShift engine.rounding (short.insertionSort (· ≤ ·))
      (long.insertionSort (· ≤ ·)) (urgencyPercentile call.request.urgencyOrDefault) = none := by
    by_cases hshort : short = []
    · rw [hshort]
      rfl
    · rw [percentileShift_insertionSort engine.rounding hlong hshort (urgencyPercentile_le _),
        if_pos (h.resolve_left hshort)]
  have hnone := map_computeExplanation engine.rounding engine.config (short.insertionSort (· ≤ ·))
    (long.insertionSort (· ≤ ·)) (urgencyPercentile call.request.urgencyOrDefault)
    engine.shortWindowSecs
  rw [hshift, Option.map_none, Option.map_eq_none_iff] at hnone
  rw [warmRecommendation_explanation, hnone]

/-- The answer that is computed for a request says the direction of a slope exactly when its note
fits. -/
theorem uncached_trendNoteTrue_iff (call : RecommendCall) {series : List ℕ}
    (hslope : seriesSlope series ≠ 0) :
    (∀ response, engine.uncached call = .ok response → TrendNoteTrue series response) ↔
      engine.NoteFits (seriesSlope series) call := by
  have hsilent : ∀ response : RecommendResponse, response.explanation = none →
      TrendNoteTrue series response := by
    intro response hnone explanation h
    rw [hnone] at h
    exact absurd h (Option.not_mem_none _)
  unfold uncached
  rcases hsample : engine.readSample call.store call.now with panic | _ | _ | ⟨long, short⟩
  · simp [NoteFits, hsample]
  · simpa [NoteFits, hsample] using hsilent _ rfl
  · simpa [NoteFits, hsample] using hsilent _ rfl
  · rw [engine.noteFits_iff_of_warm _ hsample]
    simp only [Except.ok.injEq, forall_eq']
    have hlong := engine.long_ne_nil_of_readSample hsample
    by_cases hnone : short = [] ∨
        sampleFee long (urgencyPercentile call.request.urgencyOrDefault) = 0
    · have hexplanation := engine.warmRecommendation_explanation_eq_none call hlong hnone
      exact ⟨fun _ => or_assoc.1 (.inl hnone), fun _ => hsilent _ hexplanation⟩
    · obtain ⟨hshort, hpercentile⟩ := not_or.1 hnone
      have hshift := percentileShift_insertionSort engine.rounding hlong hshort
        (urgencyPercentile_le call.request.urgencyOrDefault)
      rw [if_neg hpercentile] at hshift
      obtain ⟨explanation, hsome, hup, hdown⟩ :=
        exists_explanation_of_shift engine.rounding engine.config engine.shortWindowSecs hshift
      unfold TrendNoteTrue
      rw [warmRecommendation_explanation, hsome]
      simp only [Option.mem_def, Option.some.injEq, forall_eq', hup, hdown, hshort, hpercentile,
        false_or]
      rcases lt_or_gt_of_ne hslope with hneg | hpos
      · simp [hneg, hneg.not_gt]
      · simp [hpos, hpos.not_gt]

/-! ## Runs -/

/-- Every response of a run to a warm request with a clear trend says the direction of the trend, if it
explains itself. -/
def TrendNotesTrue (calls : List RecommendCall)
    (outcomes : List (Except Panic RecommendResponse)) : Prop :=
  List.Forall₂ (fun call outcome => ∀ response, outcome = .ok response →
    (∃ long short, engine.readSample call.store call.now = .ok (.fees long short)) →
      ClearTrend (engine.shortSeries call) →
        TrendNoteTrue (engine.shortSeries call) response) calls outcomes

/-- In a run the notes are true exactly when each fits the trend of the request that it is given to:
the note is that of the request that serves it. -/
theorem trendNotesTrue_iff (calls : List RecommendCall) :
    engine.TrendNotesTrue calls (emitted engine.recommend newCache calls) ↔
      List.Forall₂ (fun call source =>
        (∃ long short, engine.readSample call.store call.now = .ok (.fees long short)) →
          ClearTrend (engine.shortSeries call) →
            engine.NoteFits (seriesSlope (engine.shortSeries call)) source)
        calls (engine.served calls) := by
  have hpair : ∀ call source : RecommendCall,
      (∀ response, engine.uncached source = .ok response →
        (∃ long short, engine.readSample call.store call.now = .ok (.fees long short)) →
          ClearTrend (engine.shortSeries call) →
            TrendNoteTrue (engine.shortSeries call) response) ↔
      ((∃ long short, engine.readSample call.store call.now = .ok (.fees long short)) →
        ClearTrend (engine.shortSeries call) →
          engine.NoteFits (seriesSlope (engine.shortSeries call)) source) := by
    intro call source
    have hfits : ClearTrend (engine.shortSeries call) →
        ((∀ response, engine.uncached source = .ok response →
          TrendNoteTrue (engine.shortSeries call) response) ↔
            engine.NoteFits (seriesSlope (engine.shortSeries call)) source) := by
      intro hclear
      refine engine.uncached_trendNoteTrue_iff source fun hzero => ?_
      have hflat := hclear.2
      rw [hzero, abs_zero] at hflat
      exact absurd hflat (by norm_num)
    constructor
    · intro h hwarm hclear
      exact (hfits hclear).1 fun response hok => h response hok hwarm hclear
    · intro h response hok hwarm hclear
      exact (hfits hclear).2 (h hwarm hclear) response hok
  rw [TrendNotesTrue, emitted_recommend, List.forall₂_map_right_iff]
  simp only [hpair]

/-- A call with fees ten seconds apart, the last of them two minutes ago. -/
def seriesCall (fees : List ℕ) : RecommendCall where
  request := requestWithCap none
  store := {
    data := fees.zipIdx.map fun (fee, i) =>
      { feeAmount := fee
        timestamp := seconds (1736851400 + 10 * i)
        transactionHash := "tx"
        ledgerSequence := 100 }
    capacity := 100 }
  insightsEngine := none
  now := seconds 1736851620
  lookupAt := 0
  storeAt := 0

def risingFees : List ℕ := [100, 200, 300, 400, 500, 600, 700, 800, 900, 1000]

/-- Rising fees are called upward, the second time from the cache. -/
theorem trend_note_rising_fees :
    let engine : FeeRecommendationEngine := { config := .default }
    let calls := [seriesCall risingFees, seriesCall risingFees]
    (∀ call ∈ calls, ClearTrend (engine.shortSeries call)) ∧
      engine.TrendNotesTrue calls (emitted engine.recommend newCache calls) := by
  intro engine calls
  have hall : ∀ call ∈ calls, call = seriesCall risingFees := by
    simp [calls]
  have hclear : ClearTrend (engine.shortSeries (seriesCall risingFees)) := by decide +kernel
  have hfits : engine.NoteFits (seriesSlope (engine.shortSeries (seriesCall risingFees)))
      (seriesCall risingFees) := by
    have hwarm : engine.readSample (seriesCall risingFees).store (seriesCall risingFees).now =
        .ok (.fees risingFees risingFees) := by
      decide
    rw [engine.noteFits_iff_of_warm _ hwarm]
    exact .inr (.inr (.inl (by decide +kernel)))
  refine ⟨fun call hcall => hall call hcall ▸ hclear, (engine.trendNotesTrue_iff calls).2 ?_⟩
  rw [List.forall₂_iff_zip]
  have hserved := Memo.forall₂_served (P := fun call => call = seriesCall risingFees) engine.policy
    hall
  refine ⟨hserved.length_eq, fun {call source} hpair _ _ => ?_⟩
  obtain rfl : call = seriesCall risingFees := hall call (List.of_mem_zip hpair).1
  obtain ⟨-, rfl⟩ := (List.forall₂_iff_zip.1 hserved).2 hpair
  exact hfits

/-- Falling fees are called upward too. -/
theorem trend_note_falling_fees :
    let engine : FeeRecommendationEngine := { config := .default }
    let calls := [seriesCall risingFees.reverse]
    ¬ engine.TrendNotesTrue calls (emitted engine.recommend newCache calls) := by
  intro engine calls h
  have hwarm : engine.readSample (seriesCall risingFees.reverse).store
      (seriesCall risingFees.reverse).now = .ok (.fees risingFees.reverse risingFees.reverse) := by
    decide
  have houtcome : emitted engine.recommend newCache calls =
      [.ok (engine.warmRecommendation (seriesCall risingFees.reverse) risingFees.reverse
        risingFees.reverse)] := by
    rw [emitted_cons, engine.recommend_of_miss rfl hwarm]
    rfl
  rw [houtcome] at h
  have htrue := (List.forall₂_cons.1 h).1 _ rfl ⟨_, _, hwarm⟩ (by decide +kernel)
  have hnoted : (engine.warmRecommendation (seriesCall risingFees.reverse) risingFees.reverse
      risingFees.reverse).explanation.map
        (fun explanation => decide (explanation.SaysTrend "downward")) = some false := by
    decide +kernel
  obtain ⟨explanation, hsome, hnot⟩ := Option.map_eq_some_iff.1 hnoted
  exact of_decide_eq_false hnot ((htrue explanation hsome).2 (by decide +kernel))

/-! ## Without rounding -/

theorem ne_nil_of_clearTrend {series : List ℕ} (h : ClearTrend series) : series ≠ [] := by
  rintro rfl
  exact absurd h.2 (by decide +kernel)

theorem asFloats_insertionSort (fees : List ℕ) :
    asFloats .exact (fees.insertionSort (· ≤ ·)) =
      (asFloats .exact fees).insertionSort (· ≤ ·) :=
  List.map_insertionSort _ _ _ _ fun _ _ _ _ => Nat.cast_le.symm

/-- Without rounding, the note on a window with a clear trend of either sign is that it is upward. -/
theorem notesTrend_upward_of_exact {series short : List ℕ} (hseries : series.Perm short)
    (h : ClearTrend series) : NotesTrend .exact short .upward := by
  have hne : asFloats .exact series ≠ [] := by
    simpa [asFloats] using ne_nil_of_clearTrend h
  unfold NotesTrend
  rw [← OrderStatistic.insertionSort_perm hseries, asFloats_insertionSort]
  exact ⟨h.1.trans_le (rSquared_le_insertionSort hne),
    analyzeTrend_direction_of_lt (h.2.trans_le (abs_slope_le_insertionSort hne))⟩

theorem shortSeries_perm {call : RecommendCall} {long short : List ℕ}
    (hwarm : engine.readSample call.store call.now = .ok (.fees long short)) :
    (engine.shortSeries call).Perm short := by
  obtain ⟨window, hwindow, h⟩ := exists_ok_of_bind hwarm
  obtain ⟨since, hsince, h⟩ := exists_ok_of_bind h
  dsimp only at h
  split_ifs at h with hfew hempty
  · cases h
  · cases h
  · obtain ⟨shortWindow, hshortWindow, h⟩ := exists_ok_of_bind h
    obtain ⟨shortSince, hshortSince, h⟩ := exists_ok_of_bind h
    cases h
    have hread : (trySeconds (asI64 engine.shortWindowSecs) >>= DateTime.trySub call.now) =
        .ok shortSince := by
      rw [hshortWindow]
      exact hshortSince
    rw [shortSeries, hread]
    exact (List.perm_insertionSort _ _).map _

/-- Without rounding the note of a request that serves itself fits exactly when its own trend is
upward, or when there is no explanation because the percentile of the long window is zero. -/
theorem noteFits_self_iff_of_exact (hexact : engine.rounding = .exact) {call : RecommendCall}
    {long short : List ℕ}
    (hwarm : engine.readSample call.store call.now = .ok (.fees long short))
    (hclear : ClearTrend (engine.shortSeries call)) :
    engine.NoteFits (seriesSlope (engine.shortSeries call)) call ↔
      0 < seriesSlope (engine.shortSeries call) ∨
        sampleFee long (urgencyPercentile call.request.urgencyOrDefault) = 0 := by
  have hperm := engine.shortSeries_perm hwarm
  have hshort : short ≠ [] := by
    rintro rfl
    exact ne_nil_of_clearTrend hclear (List.perm_nil.1 hperm)
  obtain ⟨hup, hdirection⟩ := notesTrend_upward_of_exact hperm hclear
  have hnot : ¬ NotesTrend .exact short .downward := by
    rintro ⟨-, hdown⟩
    rw [hdirection] at hdown
    cases hdown
  rw [engine.noteFits_iff_of_warm _ hwarm]
  simp only [hexact, hshort, hnot, false_or, and_false, or_false]
  rw [and_iff_left (show NotesTrend .exact short .upward from ⟨hup, hdirection⟩), or_comm]

end FeeRecommendationEngine

end StellarFeeTracker
