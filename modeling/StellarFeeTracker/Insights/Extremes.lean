import Mathlib.Data.List.Flatten
import StellarFeeTracker.General.BoundedQueue
import StellarFeeTracker.General.FirstExtreme
import StellarFeeTracker.Insights.Atomicity

/-!
# Runs of the extremes tracker

A run is a list of batches with the times they are delivered at.  The batches fall into spans: a
batch that is delivered at or after the end of a span begins the next one.  `timeline` keeps the spans
of a run, and a period of the tracker is the first least and the first greatest of the points of its
span (`represents_deliverAll`).  A point is shared out to one period at most (`contributions_exact`).
-/

namespace StellarFeeTracker

open FirstExtreme

/-- The extreme that a point is recorded as. -/
def FeeDataPoint.extremeValue (point : FeeDataPoint) : ExtremeValue where
  value := point.feeAmount
  timestamp := point.timestamp
  transactionHash := point.transactionHash

/-- A batch of fee points and the time it is delivered at. -/
structure FeeBatch where
  now : DateTime
  fees : List FeeDataPoint
  deriving DecidableEq, Repr

/-- The tracker after the deliveries of a run. -/
def ExtremesTracker.deliverAll (tracker : ExtremesTracker) (run : List FeeBatch) :
    ExtremesTracker :=
  run.foldl (fun tracker delivery => tracker.updateWithFees delivery.now delivery.fees) tracker

theorem ExtremesTracker.deliverAll_concat (tracker : ExtremesTracker) (run : List FeeBatch)
    (delivery : FeeBatch) :
    tracker.deliverAll (run ++ [delivery]) =
      (tracker.deliverAll run).updateWithFees delivery.now delivery.fees := by
  rw [deliverAll, List.foldl_append]
  rfl

/-! ## The extremes of a list of points -/

namespace ExtremePeriod

/-- The period that holds the first least and the first greatest of the points. -/
def ofPoints (start stop : DateTime) (points : List FeeDataPoint) : ExtremePeriod where
  minValue := (points.argmin FeeDataPoint.feeAmount).map FeeDataPoint.extremeValue
  maxValue := (points.argmax FeeDataPoint.feeAmount).map FeeDataPoint.extremeValue
  periodStart := start
  periodEnd := stop

variable (start stop : DateTime)

/-- A further point is compared with the first least and the first greatest one so far. -/
theorem updateWithFee_ofPoints (points : List FeeDataPoint) (point : FeeDataPoint) :
    (ofPoints start stop points).updateWithFee point = ofPoints start stop (points ++ [point]) := by
  unfold updateWithFee ofPoints
  rw [List.argmin_concat, List.argmax_concat, ExtremePeriod.mk.injEq]
  refine ⟨?_, ?_, rfl, rfl⟩
  · cases points.argmin FeeDataPoint.feeAmount with
    | none => rfl
    | some low =>
      show (if point.feeAmount < low.feeAmount then some point.extremeValue
          else some low.extremeValue) =
        (if point.feeAmount < low.feeAmount then some point else some low).map _
      rw [apply_ite (Option.map _)]
      rfl
  · cases points.argmax FeeDataPoint.feeAmount with
    | none => rfl
    | some high =>
      show (if high.feeAmount < point.feeAmount then some point.extremeValue
          else some high.extremeValue) =
        (if high.feeAmount < point.feeAmount then some point else some high).map _
      rw [apply_ite (Option.map _)]
      rfl

/-- Of a batch, the points that fall into the period are compared. -/
theorem updateWithFees_ofPoints (points fees : List FeeDataPoint) :
    (ofPoints start stop points).updateWithFees fees =
      ofPoints start stop (points ++ fees.filter fun p => start ≤ p.timestamp ∧ p.timestamp ≤ stop) := by
  induction fees generalizing points with
  | nil => rw [List.filter_nil, List.append_nil]; rfl
  | cons point fees ih =>
    rw [updateWithFees, List.foldl_cons, ← updateWithFees]
    by_cases hin : (ofPoints start stop points).Includes point
    · have hcovers : start ≤ point.timestamp ∧ point.timestamp ≤ stop := hin
      rw [if_pos hin, updateWithFee_ofPoints, ih, List.filter_cons_of_pos (by simpa using hcovers),
        List.append_assoc, List.singleton_append]
    · have hcovers : ¬ (start ≤ point.timestamp ∧ point.timestamp ≤ stop) := hin
      rw [if_neg hin, ih, List.filter_cons_of_neg (by simpa using hcovers)]

end ExtremePeriod

/-! ## Spans -/

/-- A period of the tracker and the batches delivered during it, each with its place in the run. -/
structure Span where
  start : DateTime
  stop : DateTime
  batches : List (FeeBatch × ℕ)
  deriving DecidableEq, Repr

namespace Span

/-- The instant lies within the span. -/
def Covers (span : Span) (t : DateTime) : Prop := span.start ≤ t ∧ t ≤ span.stop

instance (span : Span) : DecidablePred span.Covers := fun t =>
  inferInstanceAs (Decidable (span.start ≤ t ∧ t ≤ span.stop))

/-- The points delivered during the span whose timestamps lie within it, in delivery order. -/
def points (span : Span) : List FeeDataPoint :=
  (span.batches.flatMap fun batch => batch.1.fees).filter fun p => span.Covers p.timestamp

/-- The extremes of the points of the span. -/
def period (span : Span) : ExtremePeriod := .ofPoints span.start span.stop span.points

/-- One more batch is delivered during the span. -/
def receive (span : Span) (batch : FeeBatch × ℕ) : Span :=
  { span with batches := span.batches ++ [batch] }

theorem period_receive (span : Span) (batch : FeeBatch × ℕ) :
    (span.receive batch).period = span.period.updateWithFees batch.1.fees := by
  rw [period, period, ExtremePeriod.updateWithFees_ofPoints]
  show ExtremePeriod.ofPoints span.start span.stop (points (span.receive batch)) = _
  rw [points, receive, List.flatMap_append, List.filter_append, List.flatMap_singleton]
  rfl

end Span

/-- The spans of a run. -/
structure Timeline where
  closed : List Span
  current : Span
  deriving DecidableEq, Repr

namespace Timeline

/-- All spans, oldest first. -/
def spans (line : Timeline) : List Span := line.closed ++ [line.current]

/-- The current span with nothing delivered yet. -/
def start (trackingPeriod : Duration) (t : DateTime) : Span where
  start := t
  stop := t + trackingPeriod
  batches := []

/-- A batch is received by the current span, or by a new one if that has ended. -/
def deliver (trackingPeriod : Duration) (line : Timeline) (batch : FeeBatch × ℕ) : Timeline :=
  if line.current.stop ≤ batch.1.now then
    { closed := line.spans
      current := (start trackingPeriod batch.1.now).receive batch }
  else { line with current := line.current.receive batch }

end Timeline

/-- The spans of a run of a tracker created at the given time. -/
def timeline (trackingPeriod : Duration) (created : DateTime) (run : List FeeBatch) : Timeline :=
  run.zipIdx.foldl (Timeline.deliver trackingPeriod)
    { closed := [], current := Timeline.start trackingPeriod created }

theorem timeline_concat (trackingPeriod : Duration) (created : DateTime) (run : List FeeBatch)
    (delivery : FeeBatch) :
    timeline trackingPeriod created (run ++ [delivery]) =
      (timeline trackingPeriod created run).deliver trackingPeriod (delivery, run.length) := by
  rw [timeline, List.zipIdx_append, List.foldl_append, Nat.zero_add]
  rfl

/-- The tracker holds the period of the current span, and those of the last closed ones. -/
structure Represents (tracker : ExtremesTracker) (line : Timeline) : Prop where
  currentPeriod : tracker.currentPeriod = line.current.period
  historicalPeriods : tracker.historicalPeriods =
    (line.closed.map Span.period).drop
      (line.closed.length - tracker.config.historicalPeriodsToKeep)

/-- A new period joins the last ones of the history. -/
theorem drop_concat_drop {α : Type*} (xs : List α) (x : α) (n : ℕ) :
    (xs.drop (xs.length - n) ++ [x]).drop ((xs.drop (xs.length - n)).length + 1 - n) =
      (xs ++ [x]).drop (xs.length + 1 - n) := by
  rw [← List.drop_append_of_le_length (Nat.sub_le _ _), List.drop_drop, List.length_drop]
  congr 1
  omega

/-- One delivery keeps the tracker and the spans together. -/
theorem Represents.deliver {tracker : ExtremesTracker} {line : Timeline}
    (h : Represents tracker line) (batch : FeeBatch × ℕ) :
    Represents (tracker.updateWithFees batch.1.now batch.1.fees)
      (line.deliver tracker.config.trackingPeriod batch) := by
  have hstop : tracker.currentPeriod.periodEnd = line.current.stop := by rw [h.currentPeriod]; rfl
  unfold Timeline.deliver ExtremesTracker.updateWithFees
  rw [hstop]
  split_ifs with hended
  · constructor
    · show ExtremePeriod.updateWithFees batch.1.fees _ = _
      rw [Span.period_receive]
      rfl
    · show (tracker.rotatePeriod batch.1.now).historicalPeriods = _
      unfold ExtremesTracker.rotatePeriod Timeline.spans
      simp only [h.historicalPeriods, h.currentPeriod, List.map_append, List.map_singleton,
        List.length_append, List.length_singleton]
      have hdrop := drop_concat_drop (line.closed.map Span.period) line.current.period
        tracker.config.historicalPeriodsToKeep
      rwa [List.length_map] at hdrop
  · constructor
    · show ExtremePeriod.updateWithFees batch.1.fees _ = _
      rw [Span.period_receive, h.currentPeriod]
    · exact h.historicalPeriods

theorem config_deliverAll (tracker : ExtremesTracker) (run : List FeeBatch) :
    (tracker.deliverAll run).config = tracker.config := by
  induction run using List.reverseRecOn with
  | nil => rfl
  | append_singleton run delivery ih =>
    rw [ExtremesTracker.deliverAll_concat, ← ih]
    unfold ExtremesTracker.updateWithFees
    split_ifs
    · rfl
    · rfl

/-- Over a whole run, the tracker holds the extremes of its spans. -/
theorem represents_deliverAll (config : ExtremesConfig) (created : DateTime)
    (run : List FeeBatch) :
    Represents ((ExtremesTracker.new config created).deliverAll run)
      (timeline config.trackingPeriod created run) := by
  induction run using List.reverseRecOn with
  | nil => exact ⟨rfl, List.drop_nil.symm⟩
  | append_singleton run delivery ih =>
    rw [ExtremesTracker.deliverAll_concat, timeline_concat]
    have hstep := ih.deliver (delivery, run.length)
    rwa [config_deliverAll] at hstep

/-! ## What the tracker holds -/

namespace ExtremePeriod

variable {start stop : DateTime} {points : List FeeDataPoint}

theorem minValue_ofPoints_eq_some_iff {extreme : ExtremeValue} :
    (ofPoints start stop points).minValue = some extreme ↔
      ∃ p, IsFirstMin FeeDataPoint.feeAmount points p ∧ p.extremeValue = extreme := by
  simp only [ofPoints, Option.map_eq_some_iff, argmin_eq_some_iff]

theorem maxValue_ofPoints_eq_some_iff {extreme : ExtremeValue} :
    (ofPoints start stop points).maxValue = some extreme ↔
      ∃ p, IsFirstMax FeeDataPoint.feeAmount points p ∧ p.extremeValue = extreme := by
  simp only [ofPoints, Option.map_eq_some_iff, argmax_eq_some_iff]

theorem toFeeExtremes_eq_some_iff {period : ExtremePeriod} {extremes : FeeExtremes} :
    period.toFeeExtremes = some extremes ↔
      period.minValue = some extremes.currentMin ∧ period.maxValue = some extremes.currentMax ∧
        period.periodStart = extremes.periodStart ∧ period.periodEnd = extremes.periodEnd := by
  obtain ⟨low, high, start, stop⟩ := period
  obtain ⟨low', high', start', stop'⟩ := extremes
  unfold toFeeExtremes
  cases low <;> cases high <;> simp

/-- There is nothing to read when no point fell into the period. -/
theorem toFeeExtremes_ofPoints_eq_none_iff :
    (ofPoints start stop points).toFeeExtremes = none ↔ points = [] := by
  constructor
  · intro hnone
    by_contra hne
    obtain ⟨low, hlow⟩ := Option.ne_none_iff_exists'.1 fun h =>
      hne (List.argmin_eq_none (f := FeeDataPoint.feeAmount) |>.1 h)
    obtain ⟨high, hhigh⟩ := Option.ne_none_iff_exists'.1 fun h =>
      hne (List.argmax_eq_none (f := FeeDataPoint.feeAmount) |>.1 h)
    simp [toFeeExtremes, ofPoints, hlow, hhigh] at hnone
  · rintro rfl
    rfl

end ExtremePeriod

/-- Reading the extremes is reading the current period, and fails when there is nothing to read. -/
theorem ExtremesTracker.getCurrentExtremes_spec (tracker : ExtremesTracker) :
    (∀ extremes, tracker.getCurrentExtremes = .ok extremes ↔
      tracker.currentPeriod.toFeeExtremes = some extremes) ∧
    ((∃ err, tracker.getCurrentExtremes = .error err) ↔
      tracker.currentPeriod.toFeeExtremes = none) := by
  unfold ExtremesTracker.getCurrentExtremes
  cases tracker.currentPeriod.toFeeExtremes with
  | none => simp
  | some read => simp

/-- The tracker's extremes are the first least and the first greatest of the points delivered during
the current span that lie within it, and reading them fails when there are none. -/
theorem extremes_exact (config : ExtremesConfig) (created : DateTime) (run : List FeeBatch) :
    let tracker := (ExtremesTracker.new config created).deliverAll run
    let span := (timeline config.trackingPeriod created run).current
    tracker.currentPeriod.periodStart = span.start ∧ tracker.currentPeriod.periodEnd = span.stop ∧
    (∀ extreme, tracker.currentPeriod.minValue = some extreme ↔
      ∃ p, IsFirstMin FeeDataPoint.feeAmount span.points p ∧ p.extremeValue = extreme) ∧
    (∀ extreme, tracker.currentPeriod.maxValue = some extreme ↔
      ∃ p, IsFirstMax FeeDataPoint.feeAmount span.points p ∧ p.extremeValue = extreme) ∧
    (∀ extremes, tracker.getCurrentExtremes = .ok extremes ↔
      tracker.currentPeriod.minValue = some extremes.currentMin ∧
      tracker.currentPeriod.maxValue = some extremes.currentMax ∧
      span.start = extremes.periodStart ∧ span.stop = extremes.periodEnd) ∧
    ((∃ err, tracker.getCurrentExtremes = .error err) ↔ span.points = []) ∧
    tracker.historicalPeriods.length ≤ config.historicalPeriodsToKeep := by
  intro tracker span
  have hrep := represents_deliverAll config created run
  have hperiod : tracker.currentPeriod = .ofPoints span.start span.stop span.points :=
    hrep.currentPeriod
  refine ⟨by rw [hperiod]; rfl, by rw [hperiod]; rfl, ?_, ?_, ?_, ?_, ?_⟩
  · intro extreme
    rw [hperiod]
    exact ExtremePeriod.minValue_ofPoints_eq_some_iff
  · intro extreme
    rw [hperiod]
    exact ExtremePeriod.maxValue_ofPoints_eq_some_iff
  · intro extremes
    rw [tracker.getCurrentExtremes_spec.1, ExtremePeriod.toFeeExtremes_eq_some_iff, hperiod]
    rfl
  · rw [tracker.getCurrentExtremes_spec.2, hperiod]
    exact ExtremePeriod.toFeeExtremes_ofPoints_eq_none_iff
  · have hkept := hrep.historicalPeriods
    rw [config_deliverAll] at hkept
    rw [hkept, List.length_drop, List.length_map]
    show _ - (_ - config.historicalPeriodsToKeep) ≤ config.historicalPeriodsToKeep
    omega

/-! ## The periods of a run -/

namespace ExtremesTracker

/-- The periods that the tracker completes in a run, as it leaves them. -/
def completed (tracker : ExtremesTracker) : List FeeBatch → List ExtremePeriod
  | [] => []
  | delivery :: run =>
    (if tracker.currentPeriod.periodEnd ≤ delivery.now then [tracker.currentPeriod] else []) ++
      completed (tracker.updateWithFees delivery.now delivery.fees) run

/-- All periods of a run: those that are completed, and the one it ends in. -/
def periods (tracker : ExtremesTracker) (run : List FeeBatch) : List ExtremePeriod :=
  tracker.completed run ++ [(tracker.deliverAll run).currentPeriod]

theorem completed_concat (tracker : ExtremesTracker) (run : List FeeBatch) (delivery : FeeBatch) :
    tracker.completed (run ++ [delivery]) = tracker.completed run ++
      if (tracker.deliverAll run).currentPeriod.periodEnd ≤ delivery.now then
        [(tracker.deliverAll run).currentPeriod]
      else [] := by
  induction run generalizing tracker with
  | nil => exact (List.append_nil _)
  | cons earlier run ih =>
    rw [List.cons_append, completed, completed, ih, List.append_assoc]
    rfl

end ExtremesTracker

/-- The completed periods are those of the closed spans. -/
theorem completed_eq (config : ExtremesConfig) (created : DateTime) (run : List FeeBatch) :
    (ExtremesTracker.new config created).completed run =
      (timeline config.trackingPeriod created run).closed.map Span.period := by
  induction run using List.reverseRecOn with
  | nil => rfl
  | append_singleton run delivery ih =>
    have hcurrent := (represents_deliverAll config created run).currentPeriod
    have hstop : (timeline config.trackingPeriod created run).current.stop =
        ((ExtremesTracker.new config created).deliverAll run).currentPeriod.periodEnd := by
      rw [hcurrent]
      rfl
    rw [ExtremesTracker.completed_concat, ih, timeline_concat, Timeline.deliver, hstop]
    split_ifs
    · rw [hcurrent, Timeline.spans, List.map_append, List.map_singleton]
    · exact List.append_nil _

theorem periods_eq (config : ExtremesConfig) (created : DateTime) (run : List FeeBatch) :
    (ExtremesTracker.new config created).periods run =
      (timeline config.trackingPeriod created run).spans.map Span.period := by
  rw [ExtremesTracker.periods, completed_eq,
    (represents_deliverAll config created run).currentPeriod, Timeline.spans, List.map_append,
    List.map_singleton]

/-- At the end of a run the tracker holds the last of its periods. -/
theorem held_suffix_periods (config : ExtremesConfig) (created : DateTime) (run : List FeeBatch) :
    let tracker := (ExtremesTracker.new config created).deliverAll run
    tracker.historicalPeriods ++ [tracker.currentPeriod] <:+
      (ExtremesTracker.new config created).periods run := by
  intro tracker
  have hrep := represents_deliverAll config created run
  rw [periods_eq, Timeline.spans, List.map_append, List.map_singleton, hrep.historicalPeriods,
    hrep.currentPeriod]
  obtain ⟨dropped, hdropped⟩ := List.drop_suffix ((timeline config.trackingPeriod created
    run).closed.length - tracker.config.historicalPeriodsToKeep) ((timeline config.trackingPeriod
      created run).closed.map Span.period)
  exact ⟨dropped, by rw [← List.append_assoc, hdropped]⟩

/-! ## Which periods a point contributes to -/

/-- A point and the batch it is delivered in, with its place in the run. -/
structure Arrival where
  batch : FeeBatch × ℕ
  point : FeeDataPoint
  deriving DecidableEq, Repr

/-- The points of some batches, in delivery order. -/
def arrivalsOf (batches : List (FeeBatch × ℕ)) : List Arrival :=
  batches.flatMap fun batch => batch.1.fees.map (Arrival.mk batch)

theorem mem_arrivalsOf_iff {batches : List (FeeBatch × ℕ)} {arrival : Arrival} :
    arrival ∈ arrivalsOf batches ↔
      arrival.batch ∈ batches ∧ arrival.point ∈ arrival.batch.1.fees := by
  rw [arrivalsOf, List.mem_flatMap]
  constructor
  · rintro ⟨batch, hbatch, harrival⟩
    obtain ⟨point, hpoint, rfl⟩ := List.mem_map.1 harrival
    exact ⟨hbatch, hpoint⟩
  · rintro ⟨hbatch, hpoint⟩
    exact ⟨arrival.batch, hbatch, List.mem_map_of_mem hpoint⟩

/-- The arrivals of a run are shared out between its periods: each period holds the first least and the
first greatest of the points of its share. -/
structure SharesOut (config : ExtremesConfig) (created : DateTime) (run : List FeeBatch)
    (shares : List (List Arrival)) : Prop where
  delivered : ∀ share ∈ shares, share.Sublist (arrivalsOf run.zipIdx)
  extremes : List.Forall₂ (fun period share =>
    period = .ofPoints period.periodStart period.periodEnd (share.map Arrival.point))
      ((ExtremesTracker.new config created).periods run) shares

/-- Every delivered point from after the creation of the tracker contributes to the extremes of one
period. -/
def TilesTime (config : ExtremesConfig) (created : DateTime) (run : List FeeBatch) : Prop :=
  ∃ shares, SharesOut config created run shares ∧
    ∀ arrival ∈ arrivalsOf run.zipIdx, created ≤ arrival.point.timestamp →
      arrival.point.timestamp ≤ arrival.batch.1.now → shares.countP (arrival ∈ ·) = 1

/-- The points that the extremes of the span are taken over, with their batches. -/
def Span.arrivals (span : Span) : List Arrival :=
  (arrivalsOf span.batches).filter fun arrival => span.Covers arrival.point.timestamp

/-- What arrives for each span. -/
def Timeline.shares (line : Timeline) : List (List Arrival) := line.spans.map Span.arrivals

/-- The points of the span are those that arrive for it. -/
theorem Span.map_point_arrivals (span : Span) : span.arrivals.map Arrival.point = span.points := by
  have hpoints : (arrivalsOf span.batches).map Arrival.point =
      span.batches.flatMap fun batch => batch.1.fees := by
    rw [arrivalsOf, List.map_flatMap]
    refine List.flatMap_congr fun batch _ => ?_
    rw [List.map_map]
    exact List.map_id _
  rw [arrivals, points, ← hpoints, List.filter_map]
  rfl

/-- The spans divide the batches of the run between them. -/
theorem flatMap_batches_spans (trackingPeriod : Duration) (created : DateTime)
    (run : List FeeBatch) :
    (timeline trackingPeriod created run).spans.flatMap Span.batches = run.zipIdx := by
  induction run using List.reverseRecOn with
  | nil => rfl
  | append_singleton run delivery ih =>
    rw [timeline_concat, List.zipIdx_append, Nat.zero_add, ← ih]
    unfold Timeline.deliver
    split_ifs
    · rw [Timeline.spans, List.flatMap_append]
      rfl
    · rw [Timeline.spans, Timeline.spans, List.flatMap_append, List.flatMap_append,
        List.append_assoc, List.flatMap_singleton, List.flatMap_singleton]
      rfl

theorem sublist_of_mem_spans {trackingPeriod : Duration} {created : DateTime}
    {run : List FeeBatch} {span : Span} (h : span ∈ (timeline trackingPeriod created run).spans) :
    span.batches.Sublist run.zipIdx := by
  rw [← flatMap_batches_spans trackingPeriod created run]
  exact List.sublist_flatten_of_mem (List.mem_map_of_mem h)

/-- Each period holds the extremes of what arrives for its span. -/
theorem sharesOut_timeline (config : ExtremesConfig) (created : DateTime) (run : List FeeBatch) :
    SharesOut config created run (timeline config.trackingPeriod created run).shares where
  delivered share hshare := by
    obtain ⟨span, hspan, rfl⟩ := List.mem_map.1 hshare
    exact List.filter_sublist.trans ((sublist_of_mem_spans hspan).flatMap _)
  extremes := by
    rw [periods_eq, Timeline.shares, List.forall₂_map_left_iff, List.forall₂_map_right_iff,
      List.forall₂_same]
    intro span _
    rw [Span.map_point_arrivals]
    rfl

namespace Span

/-- The point of the batch is one of those the extremes of the span are taken over. -/
def Contributes (span : Span) (batch : FeeBatch × ℕ) (point : FeeDataPoint) : Prop :=
  batch ∈ span.batches ∧ point ∈ batch.1.fees ∧ span.Covers point.timestamp

instance (span : Span) (batch : FeeBatch × ℕ) (point : FeeDataPoint) :
    Decidable (span.Contributes batch point) :=
  inferInstanceAs (Decidable (batch ∈ span.batches ∧ point ∈ batch.1.fees ∧
    span.Covers point.timestamp))

theorem mem_arrivals_iff (span : Span) (arrival : Arrival) :
    arrival ∈ span.arrivals ↔ span.Contributes arrival.batch arrival.point := by
  rw [arrivals, List.mem_filter, mem_arrivalsOf_iff, decide_eq_true_iff, and_assoc]
  rfl

end Span

/-- The number of periods of a run whose extremes are taken over the point of the batch. -/
def Timeline.contributions (line : Timeline) (batch : FeeBatch × ℕ) (point : FeeDataPoint) : ℕ :=
  line.spans.countP fun span => span.Contributes batch point

theorem Timeline.countP_shares (line : Timeline) (arrival : Arrival) :
    line.shares.countP (arrival ∈ ·) = line.contributions arrival.batch arrival.point := by
  rw [shares, contributions, List.countP_map]
  refine List.countP_congr fun span _ => ?_
  simp [Span.mem_arrivals_iff]

/-- The point, delivered to the tracker at the given time, lies within the period that is current once
the tracker has rotated: if it does, the point is as old as the delivery, and if it does not, the point
is not from before the period. -/
def ExtremesTracker.Timely (tracker : ExtremesTracker) (now : DateTime) (point : FeeDataPoint) :
    Prop :=
  if tracker.currentPeriod.periodEnd ≤ now then
    point.timestamp = now ∧ 0 ≤ tracker.config.trackingPeriod
  else tracker.currentPeriod.periodStart ≤ point.timestamp

instance (tracker : ExtremesTracker) (now : DateTime) (point : FeeDataPoint) :
    Decidable (tracker.Timely now point) := by
  unfold ExtremesTracker.Timely
  infer_instance

/-- Nothing is said yet about a batch that is not delivered. -/
theorem contributions_eq_zero (trackingPeriod : Duration) (created : DateTime)
    (run : List FeeBatch) (batch : FeeBatch × ℕ) (hbatch : run.length ≤ batch.2)
    (point : FeeDataPoint) :
    (timeline trackingPeriod created run).contributions batch point = 0 := by
  rw [Timeline.contributions, List.countP_eq_zero]
  intro span hspan hcontributes
  have hdelivered := (sublist_of_mem_spans hspan).subset (of_decide_eq_true hcontributes).1
  have hlt := (List.mem_zipIdx hdelivered).2.1
  omega

/-- A batch leaves the contributions of the others as they are. -/
theorem contributions_deliver_of_ne (trackingPeriod : Duration) (line : Timeline)
    {batch other : FeeBatch × ℕ} (hne : batch ≠ other) (point : FeeDataPoint) :
    (line.deliver trackingPeriod other).contributions batch point =
      line.contributions batch point := by
  have hreceive : ∀ span : Span,
      (span.receive other).Contributes batch point ↔ span.Contributes batch point := by
    intro span
    refine and_congr_left fun _ => ?_
    rw [Span.receive, List.mem_append, List.mem_singleton]
    exact or_iff_left hne
  unfold Timeline.deliver Timeline.contributions Timeline.spans
  split_ifs
  · have hnew : ¬ (Timeline.start trackingPeriod other.1.now).Contributes batch point :=
      fun h => absurd h.1 List.not_mem_nil
    rw [List.countP_append, List.countP_singleton, if_neg (by simpa [hreceive] using hnew)]
    rfl
  · rw [List.countP_append, List.countP_append, List.countP_singleton, List.countP_singleton]
    simp only [hreceive]

/-- Of the spans, only the one that receives a batch counts for its points. -/
theorem contributions_receive (batch : FeeBatch × ℕ) {point : FeeDataPoint}
    (hmem : point ∈ batch.1.fees) {closed : List Span}
    (hclosed : closed.countP (fun span => span.Contributes batch point) = 0) (span : Span) :
    Timeline.contributions { closed := closed, current := span.receive batch } batch point =
      if span.Covers point.timestamp then 1 else 0 := by
  have hreceived : (span.receive batch).Contributes batch point ↔ span.Covers point.timestamp := by
    refine ⟨fun h => h.2.2, fun h => ⟨?_, hmem, h⟩⟩
    exact List.mem_append_right _ (List.mem_singleton_self _)
  unfold Timeline.contributions Timeline.spans
  rw [List.countP_append, hclosed, List.countP_singleton, zero_add]
  simp only [hreceived, decide_eq_true_eq]

/-- Whether a point is timely is whether it lies within the span that receives it. -/
theorem Represents.timely_iff {tracker : ExtremesTracker} {line : Timeline}
    (hrep : Represents tracker line) {now : DateTime} {point : FeeDataPoint}
    (hpast : point.timestamp ≤ now) :
    tracker.Timely now point ↔
      if line.current.stop ≤ now then
        (Timeline.start tracker.config.trackingPeriod now).Covers point.timestamp
      else line.current.Covers point.timestamp := by
  have hstart : tracker.currentPeriod.periodStart = line.current.start := by
    rw [hrep.currentPeriod]; rfl
  have hstop : tracker.currentPeriod.periodEnd = line.current.stop := by
    rw [hrep.currentPeriod]; rfl
  unfold ExtremesTracker.Timely
  rw [hstop, hstart]
  split_ifs with hended
  · show _ ↔ now ≤ point.timestamp ∧ point.timestamp ≤ now + tracker.config.trackingPeriod
    constructor
    · intro h
      rw [h.1]
      exact ⟨le_refl _, (le_add_iff_nonneg_right _).2 h.2⟩
    · intro h
      have heq : point.timestamp = now := le_antisymm hpast h.1
      rw [heq] at h
      exact ⟨heq, (le_add_iff_nonneg_right _).1 h.2⟩
  · exact (and_iff_left (hpast.trans (not_le.1 hended).le)).symm

/-- The point of a batch that is being delivered contributes to the current period or to none. -/
theorem contributions_deliver (config : ExtremesConfig) (created : DateTime) (run : List FeeBatch)
    (delivery : FeeBatch) {point : FeeDataPoint} (hmem : point ∈ delivery.fees)
    (hpast : point.timestamp ≤ delivery.now) :
    (timeline config.trackingPeriod created (run ++ [delivery])).contributions
        (delivery, run.length) point =
      if ((ExtremesTracker.new config created).deliverAll run).Timely delivery.now point then 1
      else 0 := by
  have htimely := (represents_deliverAll config created run).timely_iff hpast
  have hnone := contributions_eq_zero config.trackingPeriod created run (delivery, run.length)
    (le_refl _) point
  have hclosed := hnone
  rw [Timeline.contributions, Timeline.spans, List.countP_append] at hclosed
  rw [timeline_concat]
  unfold Timeline.deliver
  rw [config_deliverAll] at htimely
  by_cases hended : (timeline config.trackingPeriod created run).current.stop ≤ delivery.now
  · rw [if_pos hended] at htimely ⊢
    exact (contributions_receive (delivery, run.length) hmem hnone _).trans
      (if_congr htimely.symm rfl rfl)
  · rw [if_neg hended] at htimely ⊢
    exact (contributions_receive (delivery, run.length) hmem (Nat.add_eq_zero_iff.1 hclosed).1 _).trans
      (if_congr htimely.symm rfl rfl)

/-- A point contributes to the span that is current once its delivery has rotated the tracker, if it
lies within it, and to no other. -/
theorem contributions_eq (config : ExtremesConfig) (created : DateTime) (run : List FeeBatch)
    {batch : FeeBatch × ℕ} (hbatch : batch ∈ run.zipIdx) {point : FeeDataPoint}
    (hmem : point ∈ batch.1.fees) (hpast : point.timestamp ≤ batch.1.now) :
    (timeline config.trackingPeriod created run).contributions batch point =
      if ((ExtremesTracker.new config created).deliverAll (run.take batch.2)).Timely
        batch.1.now point then 1 else 0 := by
  induction run using List.reverseRecOn with
  | nil => cases hbatch
  | append_singleton run delivery ih =>
    rw [List.zipIdx_append, Nat.zero_add] at hbatch
    rcases List.mem_append.1 hbatch with hearlier | hlast
    · obtain ⟨-, hlt, -⟩ := List.mem_zipIdx hearlier
      rw [Nat.zero_add] at hlt
      have hne : batch ≠ (delivery, run.length) := by
        rintro rfl
        exact absurd hlt (lt_irrefl _)
      rw [timeline_concat, contributions_deliver_of_ne _ _ hne, ih hearlier,
        List.take_append_of_le_length hlt.le]
    · obtain rfl : batch = (delivery, run.length) := List.mem_singleton.1 hlast
      rw [contributions_deliver config created run delivery hmem hpast, List.take_left]

/-- What the tracker holds at the end of a run are the last of its periods, each of them the extremes of
what arrives for its span; and a point arrives for the period that is current once its delivery has
rotated the tracker, if it lies within that period, and for no other. -/
theorem contributions_exact (config : ExtremesConfig) (created : DateTime) (run : List FeeBatch) :
    let tracker := ExtremesTracker.new config created
    let shares := (timeline config.trackingPeriod created run).shares
    (tracker.deliverAll run).historicalPeriods ++ [(tracker.deliverAll run).currentPeriod] <:+
        tracker.periods run ∧
      SharesOut config created run shares ∧
      ∀ arrival ∈ arrivalsOf run.zipIdx, arrival.point.timestamp ≤ arrival.batch.1.now →
        shares.countP (arrival ∈ ·) =
          if (tracker.deliverAll (run.take arrival.batch.2)).Timely arrival.batch.1.now
            arrival.point then 1 else 0 := by
  intro tracker shares
  refine ⟨held_suffix_periods config created run, sharesOut_timeline config created run, ?_⟩
  intro arrival harrival hpast
  obtain ⟨hbatch, hpoint⟩ := mem_arrivalsOf_iff.1 harrival
  rw [Timeline.countP_shares, contributions_eq config created run hbatch hpoint hpast]

/-- A point of five seconds ago, delivered a minute after the first day of the tracker has ended. -/
def lateRun : List FeeBatch :=
  [{ now := hours 24 + minutes 1
     fees := [{ feeAmount := 100, timestamp := hours 24 + seconds 55, transactionHash := "a",
                ledgerSequence := 1 }] }]

theorem contributions_exact_lateRun :
    (timeline ExtremesConfig.default.trackingPeriod 0 lateRun).shares.countP
      ((arrivalsOf lateRun.zipIdx).head (by decide) ∈ ·) = 0 :=
  ((contributions_exact .default 0 lateRun).2.2 _ (List.head_mem _) (by decide)).trans (by decide)

/-- The point lies after the end of the old period and before the start of the new one, and neither
has a least fee. -/
theorem not_tilesTime : ¬ ∀ (config : ExtremesConfig) (created : DateTime) (run : List FeeBatch),
    run.Pairwise (fun d e => d.now ≤ e.now) → TilesTime config created run := by
  intro h
  obtain ⟨shares, hshares, htiles⟩ := h .default 0 lateRun (by decide)
  have hnone : ∀ period ∈ (ExtremesTracker.new .default 0).periods lateRun,
      period.minValue = none := by decide
  have hempty : ∀ share ∈ shares, share = [] := by
    have hboth := ((List.forall₂_and_left _ _).2 ⟨hnone, hshares.extremes⟩).flip
    refine ((List.forall₂_and_left _ _).1 (hboth.imp fun share period h => ⟨?_, h.2⟩)).1
    obtain ⟨hmin, hextremes⟩ := h
    rwa [hextremes, ExtremePeriod.ofPoints, Option.map_eq_none_iff, List.argmin_eq_none,
      List.map_eq_nil_iff] at hmin
  have hone := htiles ((arrivalsOf lateRun.zipIdx).head (by decide)) (List.head_mem _) (by decide)
    (by decide)
  have hzero : shares.countP (((arrivalsOf lateRun.zipIdx).head (by decide)) ∈ ·) = 0 := by
    rw [List.countP_eq_zero]
    intro share hshare
    rw [hempty share hshare]
    simp
  rw [hzero] at hone
  cases hone

end StellarFeeTracker
