import StellarFeeTracker.Insights.Processing

/-!
# Calls of `process_fee_data` that fail

A call that rejects its batch changes nothing.  A call that accepts it and then finds no baseline has
already added the batch, so it leaves the engine as it was only if the batch settles into it: nothing
in the buffers has expired, nothing of the batch moves a buffer or an extreme (`atomicOnError_iff`).
-/

namespace StellarFeeTracker

/-! ## Buffers that a batch leaves as they are -/

namespace CircularBuffer

variable (window : TimeWindow) (n : ℕ) (now : DateTime)

/-- The points of the batch that are within the window, each as often as it is configured. -/
def admittedAll (points : List FeeDataPoint) : List FeeDataPoint :=
  points.flatMap (admitted window n now)

/-- No point of the batch is within the window and the buffer does not start with a point that is out
of it, or the buffer is full and shifted along itself by what the batch brings. -/
def Settled (points : List FeeDataPoint) (buffer : CircularBuffer FeeDataPoint) : Prop :=
  (admittedAll window n now points = [] ∧
    ∀ p ∈ buffer.data.head?, window.Contains now p = true) ∨
  (admittedAll window n now points ≠ [] ∧ buffer.data ≠ [] ∧ buffer.maxSize ≤ buffer.data.length ∧
    buffer.data <:+ buffer.data ++ admittedAll window n now points)

variable {window n now}

theorem contains_of_mem_admitted {p point : FeeDataPoint} (h : p ∈ admitted window n now point) :
    window.Contains now p = true := by
  unfold admitted at h
  split_ifs at h with hin
  · rw [List.eq_of_mem_replicate h]
    exact hin
  · cases h

theorem contains_of_mem_admittedAll {p : FeeDataPoint} {points : List FeeDataPoint}
    (h : p ∈ admittedAll window n now points) : window.Contains now p = true := by
  obtain ⟨point, -, hp⟩ := List.mem_flatMap.1 h
  exact contains_of_mem_admitted hp

/-- Nothing is dropped from a list that starts with a point that is within the window. -/
theorem dropWhile_expired_eq_self {xs : List FeeDataPoint}
    (h : ∀ p ∈ xs.head?, window.Contains now p = true) :
    xs.dropWhile (window.expired now) = xs := by
  cases xs with
  | nil => rfl
  | cons x xs =>
    have hx : window.Contains now x = true := h x rfl
    rw [← window.not_expired, Bool.not_eq_true'] at hx
    rw [List.dropWhile_cons_of_neg (by rw [hx]; exact Bool.false_ne_true)]

theorem addBatch_suffix (points : List FeeDataPoint) (buffer : CircularBuffer FeeDataPoint) :
    (addBatch window n now points buffer).data <:+
      buffer.data ++ admittedAll window n now points := by
  induction points generalizing buffer with
  | nil =>
    rw [admittedAll, List.flatMap_nil, List.append_nil]
    exact List.suffix_refl _
  | cons point points ih =>
    have hfirst : (add window n now point buffer).data <:+
        buffer.data ++ admitted window n now point := by
      rw [add_eq]
      exact (List.dropWhile_suffix _).trans (BoundedQueue.pushAll_suffix _ _ _)
    obtain ⟨dropped, hdropped⟩ := hfirst
    refine (ih _).trans ⟨dropped, ?_⟩
    rw [← List.append_assoc, hdropped, List.append_assoc]
    rfl

/-- While every point of the buffer is within the window, a batch is only pushed. -/
theorem addBatch_eq_of_forall_contains (points : List FeeDataPoint)
    {buffer : CircularBuffer FeeDataPoint}
    (h : ∀ p ∈ buffer.data, window.Contains now p = true) :
    addBatch window n now points buffer =
      { buffer with
        data := BoundedQueue.pushAll buffer.maxSize buffer.data
          (admittedAll window n now points) } := by
  induction points generalizing buffer with
  | nil => rfl
  | cons point points ih =>
    have hall : ∀ p ∈ BoundedQueue.pushAll buffer.maxSize buffer.data (admitted window n now point),
        window.Contains now p = true := by
      intro p hp
      rcases List.mem_append.1 ((BoundedQueue.pushAll_suffix _ _ _).subset hp) with hp | hp
      · exact h p hp
      · exact contains_of_mem_admitted hp
    have hfirst : add window n now point buffer =
        { buffer with
          data := BoundedQueue.pushAll buffer.maxSize buffer.data
            (admitted window n now point) } := by
      rw [add_eq, dropWhile_expired_eq_self fun p hp => hall p (List.mem_of_mem_head? hp)]
    have hbrought : admittedAll window n now (point :: points) =
        admitted window n now point ++ admittedAll window n now points := List.flatMap_cons
    rw [addBatch, List.foldl_cons, ← addBatch, hfirst, ih hall, hbrought, BoundedQueue.pushAll,
      BoundedQueue.pushAll, BoundedQueue.pushAll, List.foldl_append]

/-- A batch leaves the buffer as it is exactly when it settles into it. -/
theorem addBatch_eq_self_iff {points : List FeeDataPoint} (hne : points ≠ [])
    (buffer : CircularBuffer FeeDataPoint) :
    addBatch window n now points buffer = buffer ↔ Settled window n now points buffer := by
  by_cases hnone : admittedAll window n now points = []
  · simp only [Settled, hnone, true_and, ne_eq, not_true_eq_false, false_and, or_false]
    constructor
    · intro hself p hp
      rw [← hself] at hp
      exact contains_of_mem_head?_addBatch hne hp
    · intro hhead
      have hadd : ∀ point ∈ points, add window n now point buffer = buffer := by
        intro point hpoint
        have hadmitted := List.flatMap_eq_nil_iff.1 hnone point hpoint
        rw [add_eq, hadmitted, BoundedQueue.pushAll_nil, dropWhile_expired_eq_self hhead]
      clear hne hnone
      induction points with
      | nil => rfl
      | cons point points ih =>
        rw [List.forall_mem_cons] at hadd
        rw [addBatch, List.foldl_cons, hadd.1]
        exact ih hadd.2
  · simp only [Settled, hnone, false_and, false_or, ne_eq, not_false_eq_true, true_and]
    have hpush : buffer.data <:+ buffer.data ++ admittedAll window n now points →
        (addBatch window n now points buffer = buffer ↔
          BoundedQueue.pushAll buffer.maxSize buffer.data (admittedAll window n now points) =
            buffer.data) := by
      intro hsuffix
      have hall : ∀ p ∈ buffer.data, window.Contains now p = true := fun p hp =>
        contains_of_mem_admittedAll (BoundedQueue.subset_of_suffix_append hnone hsuffix hp)
      rw [addBatch_eq_of_forall_contains points hall]
      constructor
      · exact fun h => congrArg CircularBuffer.data h
      · intro h
        rw [h]
    constructor
    · intro hself
      have hsuffix : (addBatch window n now points buffer).data <:+ _ := addBatch_suffix points buffer
      rw [hself] at hsuffix
      exact (BoundedQueue.pushAll_eq_self_iff _ hnone).1 ((hpush hsuffix).1 hself)
    · intro hsettled
      exact (hpush hsettled.2.2).2 ((BoundedQueue.pushAll_eq_self_iff _ hnone).2 hsettled)

end CircularBuffer

/-! ## Extremes that a batch leaves as they are -/

namespace ExtremePeriod

/-- The period has a minimum at or below the fee of the point and a maximum at or above it. -/
def Covers (period : ExtremePeriod) (point : FeeDataPoint) : Prop :=
  (∃ m ∈ period.minValue, m.value ≤ point.feeAmount) ∧
    ∃ m ∈ period.maxValue, point.feeAmount ≤ m.value

/-- The point falls into the period. -/
def Includes (period : ExtremePeriod) (point : FeeDataPoint) : Prop :=
  period.periodStart ≤ point.timestamp ∧ point.timestamp ≤ period.periodEnd

instance (period : ExtremePeriod) : DecidablePred period.Includes := fun point =>
  inferInstanceAs (Decidable (period.periodStart ≤ point.timestamp ∧
    point.timestamp ≤ period.periodEnd))

/-- What a batch does to the period. -/
def updateWithFees (data : List FeeDataPoint) (period : ExtremePeriod) : ExtremePeriod :=
  data.foldl (fun period point =>
    if period.Includes point then period.updateWithFee point else period) period

variable {period : ExtremePeriod}

theorem updateWithFee_eq_self {point : FeeDataPoint} (h : period.Covers point) :
    period.updateWithFee point = period := by
  obtain ⟨⟨low, hlow, hle⟩, high, hhigh, hge⟩ := h
  unfold updateWithFee
  rw [Option.mem_def] at hlow hhigh
  simp only [hlow, hhigh, if_neg (not_lt.2 hle), if_neg (not_lt.2 hge)]
  rw [← hlow, ← hhigh]

/-- The extremes move apart, as far as the new point. -/
theorem covers_updateWithFee_iff (next point : FeeDataPoint) :
    (period.updateWithFee next).Covers point ↔
      ((∃ m ∈ period.minValue, m.value ≤ point.feeAmount) ∨ next.feeAmount ≤ point.feeAmount) ∧
      ((∃ m ∈ period.maxValue, point.feeAmount ≤ m.value) ∨ point.feeAmount ≤ next.feeAmount) := by
  unfold Covers updateWithFee
  refine and_congr ?_ ?_
  · cases period.minValue with
    | none => simp
    | some low =>
      by_cases hlt : next.feeAmount < low.value
      · simp only [if_pos hlt, Option.mem_some_iff, exists_eq_left']
        omega
      · simp only [if_neg hlt, Option.mem_some_iff, exists_eq_left']
        omega
  · cases period.maxValue with
    | none => simp
    | some high =>
      by_cases hlt : high.value < next.feeAmount
      · simp only [if_pos hlt, Option.mem_some_iff, exists_eq_left']
        omega
      · simp only [if_neg hlt, Option.mem_some_iff, exists_eq_left']
        omega

theorem Covers.updateWithFee {point : FeeDataPoint} (h : period.Covers point)
    (next : FeeDataPoint) : (period.updateWithFee next).Covers point :=
  (covers_updateWithFee_iff next point).2 ⟨Or.inl h.1, Or.inl h.2⟩

theorem Covers.updateWithFees {point : FeeDataPoint} (h : period.Covers point)
    (data : List FeeDataPoint) : (period.updateWithFees data).Covers point := by
  induction data generalizing period with
  | nil => exact h
  | cons next data ih =>
    rw [ExtremePeriod.updateWithFees, List.foldl_cons]
    by_cases hin : period.Includes next
    · rw [if_pos hin]
      exact ih (h.updateWithFee next)
    · rw [if_neg hin]
      exact ih h

theorem periodEnd_updateWithFees (data : List FeeDataPoint) (period : ExtremePeriod) :
    (period.updateWithFees data).periodEnd = period.periodEnd := by
  induction data generalizing period with
  | nil => rfl
  | cons next data ih =>
    rw [updateWithFees, List.foldl_cons, ← updateWithFees, ih]
    split_ifs
    · rfl
    · rfl

/-- A period holds the extremes of the points of a batch that fall into it. -/
theorem covers_updateWithFees {data : List FeeDataPoint} (period : ExtremePeriod) :
    ∀ p ∈ data, period.Includes p → (period.updateWithFees data).Covers p := by
  induction data generalizing period with
  | nil => simp
  | cons next data ih =>
    rw [updateWithFees, List.foldl_cons, ← updateWithFees]
    intro p hp hin
    rcases List.mem_cons.1 hp with rfl | hp
    · rw [if_pos hin]
      have hnew : (period.updateWithFee p).Covers p :=
        (covers_updateWithFee_iff p p).2 ⟨Or.inr (le_refl _), Or.inr (le_refl _)⟩
      exact hnew.updateWithFees data
    · refine ih _ p hp ?_
      split_ifs
      · exact hin
      · exact hin

theorem updateWithFees_eq_self_iff (data : List FeeDataPoint) (period : ExtremePeriod) :
    period.updateWithFees data = period ↔ ∀ p ∈ data, period.Includes p → period.Covers p := by
  constructor
  · intro hself p hp hin
    have hcovers := covers_updateWithFees period p hp hin
    rwa [hself] at hcovers
  · intro hcovers
    induction data with
    | nil => rfl
    | cons next data ih =>
      rw [List.forall_mem_cons] at hcovers
      have hnext : (if period.Includes next then period.updateWithFee next else period) = period := by
        by_cases hin : period.Includes next
        · rw [if_pos hin, updateWithFee_eq_self (hcovers.1 hin)]
        · rw [if_neg hin]
      rw [updateWithFees, List.foldl_cons, ← updateWithFees, hnext]
      exact ih hcovers.2

end ExtremePeriod

namespace ExtremesTracker

/-- The period has not ended, and covers the points of the batch that fall into it. -/
def Settled (tracker : ExtremesTracker) (now : DateTime) (data : List FeeDataPoint) : Prop :=
  now < tracker.currentPeriod.periodEnd ∧
    ∀ p ∈ data, tracker.currentPeriod.Includes p → tracker.currentPeriod.Covers p

theorem updateWithFees_eq_self_iff {tracker : ExtremesTracker}
    (htracking : 0 < tracker.config.trackingPeriod) (now : DateTime) (data : List FeeDataPoint) :
    tracker.updateWithFees now data = tracker ↔ tracker.Settled now data := by
  have hperiod : (tracker.updateWithFees now data).currentPeriod =
      ExtremePeriod.updateWithFees data (if tracker.currentPeriod.periodEnd ≤ now then
        tracker.rotatePeriod now else tracker).currentPeriod := rfl
  by_cases hended : tracker.currentPeriod.periodEnd ≤ now
  · refine iff_of_false ?_ fun h => absurd hended (not_le.2 h.1)
    intro hself
    -- a new period ends after now
    rw [if_pos hended, hself] at hperiod
    have hlater := congrArg ExtremePeriod.periodEnd hperiod
    rw [ExtremePeriod.periodEnd_updateWithFees] at hlater
    have hend : tracker.currentPeriod.periodEnd = now + tracker.config.trackingPeriod := hlater
    rw [hend] at hended
    exact absurd hended (not_le.2 (lt_add_of_pos_right now htracking))
  · rw [if_neg hended] at hperiod
    have hself : tracker.updateWithFees now data = tracker ↔
        tracker.currentPeriod.updateWithFees data = tracker.currentPeriod := by
      constructor
      · intro h
        rw [← hperiod, h]
      · intro h
        rw [updateWithFees, if_neg hended]
        show { tracker with currentPeriod := tracker.currentPeriod.updateWithFees data } = tracker
        rw [h]
    rw [hself, ExtremePeriod.updateWithFees_eq_self_iff]
    exact (and_iff_right (not_le.1 hended)).symm

end ExtremesTracker

/-! ## The engine -/

namespace FeeInsightsEngine

variable {engine : FeeInsightsEngine}

/-- The batch settles into every buffer and into the extremes of the engine. -/
def Settled (engine : FeeInsightsEngine) (now : DateTime) (data : List FeeDataPoint) : Prop :=
  (∀ window buffer, engine.calculator.windows window = some buffer →
    buffer.Settled window (engine.calculator.timeWindows.count window) now data) ∧
  engine.tracker.Settled now data

/-- A batch leaves the engine as it is exactly when it settles into it. -/
theorem ingest_eq_self_iff (h : engine.WellFormed) (now : DateTime) {data : List FeeDataPoint}
    (hne : data ≠ []) : engine.ingest now data = engine ↔ engine.Settled now data := by
  have hparts : engine.ingest now data = engine ↔
      (∀ window, (engine.ingest now data).calculator.windows window =
        engine.calculator.windows window) ∧
      engine.tracker.updateWithFees now data = engine.tracker := by
    constructor
    · intro hself
      exact ⟨fun window => by rw [hself], congrArg FeeInsightsEngine.tracker hself⟩
    · rintro ⟨hwindows, htracker⟩
      have hcalculator : (engine.ingest now data).calculator = engine.calculator := by
        have htimeWindows := engine.timeWindows_ingest now data
        have hwindows := funext hwindows
        generalize (engine.ingest now data).calculator = calculator at htimeWindows hwindows
        obtain ⟨windows, timeWindows⟩ := calculator
        simp only at htimeWindows hwindows
        rw [hwindows, htimeWindows]
      have hfields : engine.ingest now data =
          { engine with
            calculator := (engine.ingest now data).calculator
            tracker := engine.tracker.updateWithFees now data } := rfl
      rw [hfields, hcalculator, htracker]
  rw [hparts, Settled, ExtremesTracker.updateWithFees_eq_self_iff h.tracking]
  refine and_congr_left' (forall_congr' fun window => ?_)
  rw [windows_ingest]
  cases hbuffer : engine.calculator.windows window with
  | none => simp
  | some buffer =>
    simp only [Option.map_some, Option.some.injEq, forall_eq']
    exact CircularBuffer.addBatch_eq_self_iff hne buffer

/-- A call that fails leaves the engine as it was. -/
def AtomicOnError (engine : FeeInsightsEngine) (now : DateTime) (data : List FeeDataPoint) : Prop :=
  ∀ err, (engine.processFeeData now data).2 = .error err →
    (engine.processFeeData now data).1 = engine

/-- A call that fails leaves the engine as it was exactly when its batch is rejected before it is
added, there is a baseline, or the batch settles into the engine. -/
theorem atomicOnError_iff {config : InsightsConfig} (h : Reachable config engine) (now : DateTime)
    (data : List FeeDataPoint) :
    engine.AtomicOnError now data ↔
      data = [] ∨ (¬ ∀ p ∈ data, Passes now p) ∨ engine.HasBaseline now data ∨
        engine.Settled now data := by
  have hwf := h.wellFormed
  unfold AtomicOnError
  rcases engine.processFeeData_cases now data with
    ⟨hrejected, err, hcall⟩ |
    ⟨⟨hne, hpass⟩, ⟨hnot, err, hcall⟩ | ⟨hbaseline, detector, insights, hcall, -⟩⟩
  · rw [hcall]
    refine iff_of_true (fun _ _ => rfl) ?_
    rcases hrejected with hnil | hinvalid
    · exact Or.inl hnil
    · exact Or.inr (Or.inl hinvalid)
  · rw [baselinePositive_ingest_iff hwf now hne hpass] at hnot
    rw [← ingest_eq_self_iff hwf now hne, hcall]
    constructor
    · intro hatomic
      exact Or.inr (Or.inr (Or.inr (hatomic err rfl)))
    · rintro (hnil | hinvalid | hbaseline | hself)
      · exact absurd hnil hne
      · exact absurd hpass hinvalid
      · exact absurd hbaseline hnot
      · exact fun _ _ => hself
  · rw [hcall]
    refine iff_of_true (fun _ herr => by cases herr) ?_
    exact Or.inr (Or.inr (Or.inl ((baselinePositive_ingest_iff hwf now hne hpass).1 hbaseline)))

/-- A batch of a new engine is rejected for a fee of zero. -/
theorem atomicOnError_zero_fee :
    (new .default (minutes 0)).AtomicOnError (minutes 5)
      [feeAtMinute 5, { feeAtMinute 5 with feeAmount := 0 }] :=
  (atomicOnError_iff (.new (minutes 0)) _ _).2 (Or.inr (Or.inl (by decide)))

/-- A point two hours old gives a new engine no baseline, and stays in the long window. -/
theorem failed_call_keeps_point :
    ¬ (new .default (minutes 0)).AtomicOnError (minutes 125) [feeAtMinute 5] := by
  intro h
  have hfailed : ((new .default (minutes 0)).processFeeData (minutes 125) [feeAtMinute 5]).2 =
      .error (.invalidData .baselineNotPositive) := by
    decide
  have hself := congrArg (fun e => e.buffered ⟨"long_term", hours 24, 100⟩) (h _ hfailed)
  revert hself
  decide

end FeeInsightsEngine

end StellarFeeTracker
