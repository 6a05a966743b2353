import StellarFeeTracker.Insights.Engine
import StellarFeeTracker.Insights.Windows
import Mathlib.Algebra.Order.BigOperators.Group.List

/-!
# What a call of `process_fee_data` does

A call validates its batch, adds it to the rolling windows and the extremes, and only then finds out
whether there is a baseline for the congestion detector (`processFeeData_cases`).  In an engine that
the program can build there is one exactly when the three windows are configured and the medium one
has a point, of its buffer or of the batch, that is still within it (`baselinePositive_ingest_iff`),
so whether a call succeeds can be told from the batch and the engine before it
(`processFeeData_isOk_iff`).
-/

namespace StellarFeeTracker

namespace FeeInsightsEngine

/-! ## Validation -/

/-- The point passes validation. -/
def Passes (now : DateTime) (point : FeeDataPoint) : Prop := checkFeePoint now 0 point = none

instance (now : DateTime) : DecidablePred (Passes now) := fun point =>
  inferInstanceAs (Decidable (checkFeePoint now 0 point = none))

/-- Whether a point passes does not depend on its place in the batch. -/
theorem checkFeePoint_eq_none_iff (now : DateTime) (i : ℕ) (point : FeeDataPoint) :
    checkFeePoint now i point = none ↔ Passes now point := by
  unfold Passes checkFeePoint
  split_ifs <;> simp

theorem Passes.feeAmount_pos {now : DateTime} {point : FeeDataPoint} (h : Passes now point) :
    0 < point.feeAmount := by
  unfold Passes checkFeePoint at h
  by_contra hzero
  rw [if_pos (by omega)] at h
  cases h

theorem Passes.feeAmount_le {now : DateTime} {point : FeeDataPoint} (h : Passes now point) :
    point.feeAmount ≤ 1000000000 := by
  unfold Passes checkFeePoint at h
  by_contra hlarge
  rw [if_neg (by omega), if_pos (by omega)] at h
  cases h

theorem sum_feeAmount_le {points : List FeeDataPoint} {bound : ℕ}
    (h : ∀ p ∈ points, p.feeAmount ≤ bound) :
    (points.map (·.feeAmount)).sum ≤ points.length * bound := by
  have hsum := List.sum_le_card_nsmul (points.map (·.feeAmount)) bound (List.forall_mem_map.2 h)
  rwa [List.length_map] at hsum

/-- A batch is valid exactly when each of its points passes. -/
theorem validateFeeData_eq_ok_iff (now : DateTime) (data : List FeeDataPoint) :
    validateFeeData now data = .ok () ↔ ∀ p ∈ data, Passes now p := by
  have hnone : data.zipIdx.findSome? (fun pair => checkFeePoint now pair.2 pair.1) = none ↔
      ∀ p ∈ data, Passes now p := by
    rw [List.findSome?_eq_none_iff]
    simp only [checkFeePoint_eq_none_iff]
    constructor
    · intro h p hp
      obtain ⟨i, hi⟩ := List.mem_iff_getElem?.1 hp
      exact h (p, i) (List.mk_mem_zipIdx_iff_getElem?.2 hi)
    · intro h pair hpair
      exact h _ (List.fst_mem_of_mem_zipIdx hpair)
  rw [← hnone]
  unfold validateFeeData
  split <;> simp_all

/-! ## The course of a call -/

variable (engine : FeeInsightsEngine)

/-- The engine with a batch added to the windows and the extremes. -/
def ingest (now : DateTime) (data : List FeeDataPoint) : FeeInsightsEngine :=
  { engine with
    calculator := data.foldl (fun c p => c.addDataPoint now p) engine.calculator
    tracker := engine.tracker.updateWithFees now data }

/-- The averages of the engine have a positive baseline for the congestion detector. -/
def BaselinePositive (now : DateTime) : Prop :=
  ∃ averages, engine.calculator.calculateAverages now = .ok averages ∧ 0 < averages.mediumTerm.value

theorem detectSpikes_isOk_iff (detector : CongestionDetector) {data : List FeeDataPoint}
    (hne : data ≠ []) (baseline : ℚ) :
    (∃ spikes, detector.detectSpikes data baseline = .ok spikes) ↔ 0 < baseline := by
  have hempty : ¬ data.isEmpty = true := by simpa using hne
  unfold CongestionDetector.detectSpikes
  rw [if_neg hempty]
  by_cases hbaseline : baseline ≤ 0
  · simp [hbaseline]
  · rw [if_neg hbaseline]
    refine iff_of_true ?_ (not_le.1 hbaseline)
    simp only
    split
    · exact ⟨_, rfl⟩
    · exact ⟨_, rfl⟩

/-- A call rejects its batch and changes nothing, or adds the batch and then fails without a
baseline, or succeeds. -/
theorem processFeeData_cases (now : DateTime) (data : List FeeDataPoint) :
    ((data = [] ∨ ¬ ∀ p ∈ data, Passes now p) ∧
      ∃ err, engine.processFeeData now data = (engine, .error err)) ∨
    ((data ≠ [] ∧ ∀ p ∈ data, Passes now p) ∧
      ((¬ (engine.ingest now data).BaselinePositive now ∧
        ∃ err, engine.processFeeData now data = (engine.ingest now data, .error err)) ∨
      ((engine.ingest now data).BaselinePositive now ∧ ∃ detector insights,
        engine.processFeeData now data =
          ({ engine.ingest now data with
              detector, lastUpdate := some now, lastInsights := some insights },
            .ok { insights, dataPointsProcessed := data.length }) ∧
          insights.dataQuality = engine.calculateDataQuality data now))) := by
  by_cases hne : data = []
  · exact Or.inl ⟨Or.inl hne, _, by rw [processFeeData, hne]; rfl⟩
  by_cases hpass : ∀ p ∈ data, Passes now p
  · refine Or.inr ⟨⟨hne, hpass⟩, ?_⟩
    have hvalid := (validateFeeData_eq_ok_iff now data).2 hpass
    have hempty : data.isEmpty = false := by simpa using hne
    unfold processFeeData
    simp only [hempty, Bool.false_eq_true, if_false, hvalid]
    unfold BaselinePositive
    have hcalculator : (engine.ingest now data).calculator =
        data.foldl (fun c p => c.addDataPoint now p) engine.calculator := rfl
    rw [hcalculator]
    rcases haverages : (data.foldl (fun c p => c.addDataPoint now p)
      engine.calculator).calculateAverages now with err | averages
    · refine Or.inl ⟨?_, err, by simp only [haverages]; rfl⟩
      rintro ⟨_, hfound, -⟩
      rw [haverages] at hfound
      cases hfound
    · have hok := detectSpikes_isOk_iff engine.detector hne averages.mediumTerm.value
      simp only [haverages, CongestionDetector.analyzeCongestion]
      rcases hspikes : engine.detector.detectSpikes data averages.mediumTerm.value with err | spikes
      · refine Or.inl ⟨?_, err, rfl⟩
        rintro ⟨_, hfound, hpos⟩
        obtain rfl := Except.ok.inj hfound
        obtain ⟨spikes, hdetected⟩ := hok.2 hpos
        rw [hspikes] at hdetected
        cases hdetected
      · refine Or.inr ⟨⟨averages, rfl, hok.1 ⟨spikes, hspikes⟩⟩, ?_⟩
        exact ⟨_, _, rfl, rfl⟩
  · refine Or.inl ⟨Or.inr hpass, ?_⟩
    have hempty : data.isEmpty = false := by simpa using hne
    rcases hvalid : validateFeeData now data with err | _
    · exact ⟨err, by rw [processFeeData, hempty, hvalid]; rfl⟩
    · exact absurd ((validateFeeData_eq_ok_iff now data).1 hvalid) hpass

/-! ## Engines that the program can build -/

/-- What a new engine is and a call leaves it: each configured window has a buffer, fees in the
buffers are positive, and a tracking period ends after it starts. -/
structure WellFormed : Prop where
  configured : ∀ window, (engine.calculator.windows window).isSome ↔
    window ∈ engine.calculator.timeWindows
  positive : ∀ window buffer, engine.calculator.windows window = some buffer →
    ∀ p ∈ buffer.data, 0 < p.feeAmount
  tracking : 0 < engine.tracker.config.trackingPeriod

/-- The engines of the runs of the program: a new one and what each call leaves. -/
inductive Reachable (config : InsightsConfig) : FeeInsightsEngine → Prop
  | new (now : DateTime) : Reachable config (.new config now)
  | process {engine : FeeInsightsEngine} (now : DateTime) (data : List FeeDataPoint)
      (h : Reachable config engine) : Reachable config (engine.processFeeData now data).1

theorem wellFormed_new (config : InsightsConfig) (now : DateTime) : (new config now).WellFormed where
  configured window := by
    show (if window ∈ config.timeWindows then some _ else none).isSome ↔ window ∈ config.timeWindows
    by_cases h : window ∈ config.timeWindows
    · simp [h]
    · simp [h]
  positive window buffer hbuffer p hp := by
    have hempty : buffer.data = [] := by
      have h : (if window ∈ config.timeWindows then some (CircularBuffer.new
          AverageConfig.default.maxBufferSize) else none) = some buffer := hbuffer
      split_ifs at h
      · obtain rfl := Option.some.inj h
        rfl
    rw [hempty] at hp
    cases hp
  tracking := by
    show 0 < hours 24
    decide

/-- The buffer of a window after a batch. -/
theorem windows_ingest (now : DateTime) (data : List FeeDataPoint) (window : TimeWindow) :
    (engine.ingest now data).calculator.windows window =
      (engine.calculator.windows window).map
        (CircularBuffer.addBatch window (engine.calculator.timeWindows.count window) now data) := by
  show (data.foldl _ engine.calculator).windows window = _
  generalize engine.calculator = calculator
  induction data generalizing calculator with
  | nil => exact Option.map_id'.symm
  | cons p data ih =>
    rw [List.foldl_cons, ih, RollingAverageCalculator.windows_addDataPoint, Option.map_map]
    rfl

@[simp] theorem timeWindows_ingest (now : DateTime) (data : List FeeDataPoint) :
    (engine.ingest now data).calculator.timeWindows = engine.calculator.timeWindows := by
  show (data.foldl _ engine.calculator).timeWindows = _
  generalize engine.calculator = calculator
  induction data generalizing calculator with
  | nil => rfl
  | cons p data ih => exact ih _

theorem config_updateWithFees (tracker : ExtremesTracker) (now : DateTime)
    (data : List FeeDataPoint) : (tracker.updateWithFees now data).config = tracker.config := by
  unfold ExtremesTracker.updateWithFees ExtremesTracker.rotatePeriod
  split_ifs
  · rfl
  · rfl

variable {engine}

theorem WellFormed.ingest (h : engine.WellFormed) (now : DateTime) {data : List FeeDataPoint}
    (hpass : ∀ p ∈ data, Passes now p) : (engine.ingest now data).WellFormed where
  configured window := by
    rw [windows_ingest, Option.isSome_map, timeWindows_ingest]
    exact h.configured window
  positive window buffer hbuffer p hp := by
    rw [windows_ingest, Option.map_eq_some_iff] at hbuffer
    obtain ⟨before, hbefore, rfl⟩ := hbuffer
    rcases List.mem_append.1 (CircularBuffer.mem_addBatch hp) with hp | hp
    · exact h.positive window before hbefore p hp
    · exact (hpass p hp).feeAmount_pos
  tracking := by
    show 0 < (engine.tracker.updateWithFees now data).config.trackingPeriod
    rw [config_updateWithFees]
    exact h.tracking

/-- A call keeps what a valid batch keeps, if it does not depend on the detector and the last update. -/
theorem processFeeData_induction {P : FeeInsightsEngine → Prop} {now : DateTime}
    {data : List FeeDataPoint}
    (hframe : ∀ engine detector lastUpdate lastInsights, P engine →
      P { engine with detector, lastUpdate, lastInsights })
    (hingest : (∀ p ∈ data, Passes now p) → P (engine.ingest now data)) (h : P engine) :
    P (engine.processFeeData now data).1 := by
  rcases engine.processFeeData_cases now data with
    ⟨-, err, hcall⟩ | ⟨⟨-, hpass⟩, ⟨-, err, hcall⟩ | ⟨-, detector, insights, hcall, -⟩⟩
  · rw [hcall]
    exact h
  · rw [hcall]
    exact hingest hpass
  · rw [hcall]
    exact hframe _ _ _ _ (hingest hpass)

theorem WellFormed.processFeeData (h : engine.WellFormed) (now : DateTime)
    (data : List FeeDataPoint) : (engine.processFeeData now data).1.WellFormed :=
  processFeeData_induction (fun _ _ _ _ h => ⟨h.configured, h.positive, h.tracking⟩) (h.ingest now) h

theorem Reachable.wellFormed {config : InsightsConfig} (h : Reachable config engine) :
    engine.WellFormed := by
  induction h with
  | new now => exact wellFormed_new config now
  | process now data _ ih => exact ih.processFeeData now data

/-! ## The baseline -/

variable (engine)

/-- The points in the buffer of a window. -/
def buffered (window : TimeWindow) : List FeeDataPoint :=
  (engine.calculator.windows window).elim [] (·.data)

/-- The three windows are configured, and the medium one has a point, of its buffer or of the batch,
that is within it now. -/
def HasBaseline (now : DateTime) (data : List FeeDataPoint) : Prop :=
  (∀ name ∈ ["short_term", "medium_term", "long_term"],
    (engine.calculator.timeWindows.find? fun w => w.name == name).isSome) ∧
  ∀ window ∈ engine.calculator.timeWindows.find? fun w => w.name == "medium_term",
    ∃ p ∈ engine.buffered window ++ data, window.Contains now p = true

instance (now : DateTime) (data : List FeeDataPoint) : Decidable (engine.HasBaseline now data) := by
  unfold HasBaseline
  infer_instance

theorem meanFee_pos_iff {points : List FeeDataPoint} (h : ∀ p ∈ points, 0 < p.feeAmount) :
    0 < RollingAverageCalculator.meanFee points ↔ points ≠ [] := by
  unfold RollingAverageCalculator.meanFee
  constructor
  · rintro hpos rfl
    simp at hpos
  · intro hne
    refine div_pos (List.sum_pos _ ?_ (by simpa using hne)) ?_
    · intro fee hfee
      obtain ⟨p, hp, rfl⟩ := List.mem_map.1 hfee
      exact Nat.cast_pos.2 (h p hp)
    · exact Nat.cast_pos.2 (List.length_pos_iff.2 hne)

variable {engine}

theorem calculateAverageForWindow_isOk_iff (h : engine.WellFormed) (name : String) (now : DateTime) :
    (∃ result, engine.calculator.calculateAverageForWindow name now = .ok result) ↔
      (engine.calculator.timeWindows.find? fun w => w.name == name).isSome := by
  cases hfind : engine.calculator.timeWindows.find? fun w => w.name == name with
  | none =>
    simp [RollingAverageCalculator.calculateAverageForWindow_of_not_found hfind now]
  | some window =>
    have hbuffer := (h.configured window).2 (List.mem_of_find?_eq_some hfind)
    obtain ⟨buffer, hbuffer⟩ := Option.isSome_iff_exists.1 hbuffer
    obtain ⟨result, hresult, -⟩ :=
      RollingAverageCalculator.calculateAverageForWindow_spec hfind hbuffer now
    simp [hresult]

/-- The medium-term average is positive exactly when its buffer has a point. -/
theorem mediumTerm_pos_iff (h : engine.WellFormed) {now : DateTime} {averages : RollingAverages}
    (haverages : engine.calculator.calculateAverages now = .ok averages) :
    0 < averages.mediumTerm.value ↔
      ∀ window ∈ engine.calculator.timeWindows.find? fun w => w.name == "medium_term",
        engine.buffered window ≠ [] := by
  obtain ⟨-, hmedium, -⟩ := (RollingAverageCalculator.calculateAverages_eq_ok_iff _ _).1 haverages
  obtain ⟨window, hfind⟩ := Option.isSome_iff_exists.1
    ((calculateAverageForWindow_isOk_iff h _ _).1 ⟨_, hmedium⟩)
  have hbuffer := (h.configured window).2 (List.mem_of_find?_eq_some hfind)
  obtain ⟨buffer, hbuffer⟩ := Option.isSome_iff_exists.1 hbuffer
  obtain ⟨result, hresult, -, -, hvalue⟩ :=
    RollingAverageCalculator.calculateAverageForWindow_spec hfind hbuffer now
  rw [hmedium] at hresult
  obtain rfl := Except.ok.inj hresult
  rw [hvalue, meanFee_pos_iff (h.positive window buffer hbuffer), hfind]
  simp [buffered, hbuffer]

/-- With the batch added there is a positive baseline exactly when there is one to be had. -/
theorem baselinePositive_ingest_iff (h : engine.WellFormed) (now : DateTime)
    {data : List FeeDataPoint} (hne : data ≠ []) (hpass : ∀ p ∈ data, Passes now p) :
    (engine.ingest now data).BaselinePositive now ↔ engine.HasBaseline now data := by
  have hingest := h.ingest now hpass
  have hconfigured : (∃ averages,
      (engine.ingest now data).calculator.calculateAverages now = .ok averages) ↔
      ∀ name ∈ ["short_term", "medium_term", "long_term"],
        (engine.calculator.timeWindows.find? fun w => w.name == name).isSome := by
    have hone := fun name => calculateAverageForWindow_isOk_iff hingest name now
    rw [timeWindows_ingest] at hone
    simp only [List.forall_mem_cons, List.not_mem_nil, false_implies, implies_true, and_true, ← hone,
      RollingAverageCalculator.calculateAverages_eq_ok_iff]
    constructor
    · rintro ⟨averages, hshort, hmedium, hlong⟩
      exact ⟨⟨_, hshort⟩, ⟨_, hmedium⟩, ⟨_, hlong⟩⟩
    · rintro ⟨⟨shortTerm, hshort⟩, ⟨mediumTerm, hmedium⟩, ⟨longTerm, hlong⟩⟩
      exact ⟨⟨shortTerm, mediumTerm, longTerm⟩, hshort, hmedium, hlong⟩
  have hmedium : ∀ window ∈ engine.calculator.timeWindows.find? fun w => w.name == "medium_term",
      ((engine.ingest now data).buffered window ≠ [] ↔
        ∃ p ∈ engine.buffered window ++ data, window.Contains now p = true) := by
    intro window hfind
    have hmem := List.mem_of_find?_eq_some hfind
    obtain ⟨buffer, hbuffer⟩ := Option.isSome_iff_exists.1 ((h.configured window).2 hmem)
    rw [buffered, windows_ingest, buffered, hbuffer]
    exact CircularBuffer.addBatch_ne_nil_iff (List.count_pos_iff.2 hmem) hne buffer
  unfold HasBaseline
  rw [← forall₂_congr hmedium, ← hconfigured]
  constructor
  · rintro ⟨averages, haverages, hpos⟩
    have hbuffered := (mediumTerm_pos_iff hingest haverages).1 hpos
    rw [timeWindows_ingest] at hbuffered
    exact ⟨⟨averages, haverages⟩, hbuffered⟩
  · rintro ⟨⟨averages, haverages⟩, hbuffered⟩
    refine ⟨averages, haverages, (mediumTerm_pos_iff hingest haverages).2 ?_⟩
    rw [timeWindows_ingest]
    exact hbuffered

/-- A call succeeds exactly when its batch has points, all of them pass and there is a baseline. -/
theorem processFeeData_isOk_iff (h : engine.WellFormed) (now : DateTime)
    (data : List FeeDataPoint) :
    (∃ update, (engine.processFeeData now data).2 = .ok update) ↔
      data ≠ [] ∧ (∀ p ∈ data, Passes now p) ∧ engine.HasBaseline now data := by
  rcases engine.processFeeData_cases now data with
    ⟨hrejected, err, hcall⟩ |
    ⟨⟨hne, hpass⟩, ⟨hnot, err, hcall⟩ | ⟨hbaseline, detector, insights, hcall, -⟩⟩
  · rw [hcall]
    refine iff_of_false (by simp) ?_
    rintro ⟨hne, hpass, -⟩
    exact hrejected.elim hne fun hnot => hnot hpass
  · rw [hcall]
    refine iff_of_false (by simp) ?_
    rintro ⟨-, -, hbaseline⟩
    exact hnot ((baselinePositive_ingest_iff h now hne hpass).2 hbaseline)
  · rw [hcall]
    exact iff_of_true ⟨_, rfl⟩
      ⟨hne, hpass, (baselinePositive_ingest_iff h now hne hpass).1 hbaseline⟩

end FeeInsightsEngine

end StellarFeeTracker
