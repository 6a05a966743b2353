import StellarFeeTracker.General.FrontExpiry
import StellarFeeTracker.Insights.Calculator

/-!
# The contents of the rolling windows

A call of `add_data_point` pushes the point onto the buffers of the windows it is within and drops,
from the front of each buffer, the points that are out of its window by then.  So a buffer that never
fills up holds the points that were within the window when they were added, without the leading ones
that are out of it at the last call (`windows_addAll_new`).  Nothing is dropped when the averages are
read, and nothing behind a point that is still within the window: the averages are exact exactly when
no point that is left is out of its window (`averagesExact_iff`).
-/

namespace StellarFeeTracker

namespace TimeWindow

variable (window : TimeWindow)

/-- A timestamp is within the window that ends now. -/
def Contains (now : DateTime) (point : FeeDataPoint) : Bool :=
  now - window.duration ≤ point.timestamp

/-- The timestamp is before the window. -/
def expired (now : DateTime) (point : FeeDataPoint) : Bool :=
  point.timestamp < now - window.duration

theorem not_expired (now : DateTime) (point : FeeDataPoint) :
    (!window.expired now point) = window.Contains now point := by
  rw [Bool.eq_iff_iff]
  simp [expired, Contains]

theorem expired_mono {s t : DateTime} (point : FeeDataPoint) (h : s ≤ t)
    (hexpired : window.expired s point = true) : window.expired t point = true := by
  simp only [expired, decide_eq_true_eq] at hexpired ⊢
  exact hexpired.trans_le (Int.sub_le_sub_right h window.duration)

end TimeWindow

namespace CircularBuffer

variable (window : TimeWindow)

/-- What a call of `add_data_point` does to the buffer of a window that is configured `n` times. -/
def add (n : ℕ) (now : DateTime) (point : FeeDataPoint) (buffer : CircularBuffer FeeDataPoint) :
    CircularBuffer FeeDataPoint :=
  let pushed := if window.Contains now point then (fun b => push b point)^[n] buffer else buffer
  { pushed with data := pushed.data.dropWhile (window.expired now) }

end CircularBuffer

namespace RollingAverageCalculator

variable (calculator : RollingAverageCalculator)

theorem foldl_addToWindow (now : DateTime) (point : FeeDataPoint) (ws : List TimeWindow)
    (windows : TimeWindow → Option (CircularBuffer FeeDataPoint)) (window : TimeWindow) :
    ws.foldl (addToWindow now point) windows window =
      (windows window).map fun buffer =>
        if window.Contains now point then (fun b => b.push point)^[ws.count window] buffer
        else buffer := by
  induction ws generalizing windows with
  | nil => simp
  | cons v ws ih =>
    rw [List.foldl_cons, ih, addToWindow]
    cases hv : windows v with
    | none =>
      by_cases hvw : v = window
      · subst hvw
        simp [hv]
      · rw [List.count_cons_of_ne hvw]
    | some buffer =>
      by_cases hvw : v = window
      · subst hvw
        by_cases hin : now - v.duration ≤ point.timestamp
        · simp [hv, hin, TimeWindow.Contains]
        · simp [hv, hin, TimeWindow.Contains]
      · have hwv : window ≠ v := fun h => hvw h.symm
        rw [List.count_cons_of_ne hvw]
        simp only
        split_ifs <;> simp [hwv]

/-- A call of `add_data_point` works on each buffer on its own. -/
theorem windows_addDataPoint (now : DateTime) (point : FeeDataPoint) (window : TimeWindow) :
    (calculator.addDataPoint now point).windows window =
      (calculator.windows window).map
        (CircularBuffer.add window (calculator.timeWindows.count window) now point) := by
  simp only [addDataPoint, cleanOldData, foldl_addToWindow, Option.map_map]
  rfl

/-- Add points, each at an instant, one after the other. -/
def addAll (calls : List (DateTime × FeeDataPoint)) : RollingAverageCalculator :=
  calls.foldl (fun c call => c.addDataPoint call.1 call.2) calculator

@[simp] theorem timeWindows_addAll (calls : List (DateTime × FeeDataPoint)) :
    (calculator.addAll calls).timeWindows = calculator.timeWindows := by
  induction calls generalizing calculator with
  | nil => rfl
  | cons call calls ih => exact ih _

end RollingAverageCalculator

/-! ## Batches added at one instant -/

open FrontExpiry

namespace CircularBuffer

variable (window : TimeWindow) (n : ℕ) (now : DateTime)

/-- What is pushed for a point. -/
def admitted (point : FeeDataPoint) : List FeeDataPoint :=
  if window.Contains now point then List.replicate n point else []

theorem iterate_push (point : FeeDataPoint) (buffer : CircularBuffer FeeDataPoint) :
    (fun b => b.push point)^[n] buffer =
      { buffer with
        data := BoundedQueue.pushAll buffer.maxSize buffer.data (List.replicate n point) } := by
  induction n generalizing buffer with
  | zero => rfl
  | succ n ih =>
    rw [Function.iterate_succ_apply, ih, List.replicate_succ, BoundedQueue.pushAll_cons]
    rfl

theorem add_eq (point : FeeDataPoint) (buffer : CircularBuffer FeeDataPoint) :
    add window n now point buffer =
      { buffer with
        data := (BoundedQueue.pushAll buffer.maxSize buffer.data
          (admitted window n now point)).dropWhile (window.expired now) } := by
  unfold add admitted
  by_cases hin : window.Contains now point = true
  · rw [if_pos hin, if_pos hin, iterate_push]
  · rw [if_neg hin, if_neg hin, BoundedQueue.pushAll_nil]

/-- What the points of a batch do to the buffer, one after the other. -/
def addBatch (points : List FeeDataPoint) (buffer : CircularBuffer FeeDataPoint) :
    CircularBuffer FeeDataPoint :=
  points.foldl (fun b p => add window n now p b) buffer

variable {window n now}

theorem mem_add {p point : FeeDataPoint} {buffer : CircularBuffer FeeDataPoint}
    (h : p ∈ (add window n now point buffer).data) : p ∈ buffer.data ∨ p = point := by
  rw [add_eq] at h
  have hpushed := (BoundedQueue.pushAll_suffix _ _ _).subset ((List.dropWhile_sublist _).subset h)
  rw [List.mem_append] at hpushed
  refine hpushed.imp_right fun hadmitted => ?_
  unfold admitted at hadmitted
  split_ifs at hadmitted
  · exact List.eq_of_mem_replicate hadmitted
  · cases hadmitted

theorem mem_addBatch {p : FeeDataPoint} {points : List FeeDataPoint}
    {buffer : CircularBuffer FeeDataPoint} (h : p ∈ (addBatch window n now points buffer).data) :
    p ∈ buffer.data ++ points := by
  induction points generalizing buffer with
  | nil => rwa [List.append_nil]
  | cons point points ih =>
    have hrest := ih h
    rw [List.mem_append] at hrest ⊢
    rcases hrest with hfirst | hrest
    · exact (mem_add hfirst).imp_right fun heq => by rw [heq]; exact List.mem_cons_self
    · exact Or.inr (List.mem_cons_of_mem point hrest)

/-- A buffer that a point has been added to starts with a point that is within the window. -/
theorem contains_of_mem_head?_add {p point : FeeDataPoint} {buffer : CircularBuffer FeeDataPoint}
    (h : p ∈ (add window n now point buffer).data.head?) : window.Contains now p = true := by
  rw [add_eq] at h
  have hhead := List.head?_dropWhile_not (window.expired now)
    (BoundedQueue.pushAll buffer.maxSize buffer.data (admitted window n now point))
  rw [Option.mem_def] at h
  simp only [h] at hhead
  rw [← window.not_expired, hhead]
  rfl

theorem contains_of_mem_head?_addBatch {p : FeeDataPoint} {points : List FeeDataPoint}
    {buffer : CircularBuffer FeeDataPoint} (hne : points ≠ [])
    (h : p ∈ (addBatch window n now points buffer).data.head?) : window.Contains now p = true := by
  obtain ⟨init, last, rfl⟩ := List.eq_nil_or_concat' points |>.resolve_left hne
  rw [addBatch, List.foldl_append] at h
  exact contains_of_mem_head?_add h

/-- Adding a point keeps a point that is within the window, unless it brings one. -/
theorem exists_contains_add_iff (hn : 0 < n) (point : FeeDataPoint)
    (buffer : CircularBuffer FeeDataPoint) :
    (∃ q ∈ (add window n now point buffer).data, window.Contains now q = true) ↔
      (∃ q ∈ buffer.data, window.Contains now q = true) ∨ window.Contains now point = true := by
  have hclean : ∀ xs : List FeeDataPoint,
      (∃ q ∈ xs.dropWhile (window.expired now), window.Contains now q = true) ↔
        ∃ q ∈ xs, window.Contains now q = true := by
    intro xs
    have hfilter : (xs.dropWhile (window.expired now)).filter (window.Contains now) =
        xs.filter (window.Contains now) := by
      refine filter_dropWhile (fun q hq => ?_) xs
      rw [← window.not_expired, hq]
      rfl
    simp only [← List.mem_filter, hfilter]
  rw [add_eq, hclean]
  unfold admitted
  by_cases hin : window.Contains now point = true
  · rw [if_pos hin]
    obtain ⟨m, rfl⟩ : ∃ m, n = m + 1 := ⟨n - 1, by omega⟩
    rw [List.replicate_succ']
    exact iff_of_true ⟨point, BoundedQueue.mem_pushAll_concat _ _ _ _, hin⟩ (Or.inr hin)
  · rw [if_neg hin, BoundedQueue.pushAll_nil]
    exact (or_iff_left hin).symm

theorem exists_contains_addBatch_iff (hn : 0 < n) (points : List FeeDataPoint)
    (buffer : CircularBuffer FeeDataPoint) :
    (∃ q ∈ (addBatch window n now points buffer).data, window.Contains now q = true) ↔
      ∃ q ∈ buffer.data ++ points, window.Contains now q = true := by
  induction points generalizing buffer with
  | nil => rw [List.append_nil, addBatch, List.foldl_nil]
  | cons point points ih =>
    have hfirst : (∃ q ∈ (add window n now point buffer).data, window.Contains now q = true) ↔ _ :=
      exists_contains_add_iff hn point buffer
    have hrest := ih (add window n now point buffer)
    simp only [List.mem_append, List.mem_cons, or_and_right, exists_or, exists_eq_left] at hrest ⊢
    rw [hfirst, or_assoc] at hrest
    exact hrest

/-- After a batch the buffer has a point exactly when one of the buffer or the batch is within the
window. -/
theorem addBatch_ne_nil_iff (hn : 0 < n) {points : List FeeDataPoint} (hne : points ≠ [])
    (buffer : CircularBuffer FeeDataPoint) :
    (addBatch window n now points buffer).data ≠ [] ↔
      ∃ q ∈ buffer.data ++ points, window.Contains now q = true := by
  rw [← exists_contains_addBatch_iff hn]
  constructor
  · intro hdata
    obtain ⟨q, hq⟩ := Option.isSome_iff_exists.1 (List.isSome_head?.2 hdata)
    exact ⟨q, List.mem_of_head? hq, contains_of_mem_head?_addBatch hne hq⟩
  · rintro ⟨q, hq, -⟩
    exact List.ne_nil_of_mem hq

end CircularBuffer

/-! ## Buffers that never fill up -/

/-- What the calls bring to the buffer of a window. -/
def TimeWindow.arrivals (window : TimeWindow) (calls : List (DateTime × FeeDataPoint)) :
    List (Arrival DateTime FeeDataPoint) :=
  calls.map fun call =>
    { now := call.1, elements := if window.Contains call.1 call.2 then [call.2] else [] }

namespace CircularBuffer

theorem add_of_room {window : TimeWindow} {buffer : CircularBuffer FeeDataPoint} (now : DateTime)
    (point : FeeDataPoint) (hroom : buffer.data.length < buffer.maxSize) :
    (add window 1 now point buffer) =
      { buffer with
        data := (buffer.data ++ if window.Contains now point then [point] else []).dropWhile
          (window.expired now) } := by
  have hpush : buffer.push point = { buffer with data := buffer.data ++ [point] } := by
    rw [push, BoundedQueue.push, if_neg (by omega)]
  unfold add
  split_ifs
  · simp [hpush]
  · simp

end CircularBuffer

namespace RollingAverageCalculator

variable {calculator : RollingAverageCalculator}

theorem windows_addAll_of_room {window : TimeWindow}
    (hcount : calculator.timeWindows.count window = 1) {buffer : CircularBuffer FeeDataPoint}
    (hbuffer : calculator.windows window = some buffer) (calls : List (DateTime × FeeDataPoint))
    (hroom : buffer.data.length + calls.length ≤ buffer.maxSize) :
    (calculator.addAll calls).windows window =
      some { buffer with data := contents window.expired buffer.data (window.arrivals calls) } := by
  induction calls generalizing calculator buffer with
  | nil => exact hbuffer
  | cons call calls ih =>
    rw [List.length_cons] at hroom
    have hfirst : (calculator.addDataPoint call.1 call.2).windows window = some
        { buffer with
          data := (buffer.data ++ if window.Contains call.1 call.2 then [call.2] else []).dropWhile
            (window.expired call.1) } := by
      rw [windows_addDataPoint, hcount, hbuffer, Option.map_some,
        CircularBuffer.add_of_room _ _ (by omega)]
    have hcount' : (calculator.addDataPoint call.1 call.2).timeWindows.count window = 1 := hcount
    refine ih hcount' hfirst ?_
    have hdropped := (List.dropWhile_sublist (window.expired call.1)
      (l := buffer.data ++ if window.Contains call.1 call.2 then [call.2] else [])).length_le
    have hone : (if window.Contains call.1 call.2 then [call.2] else []).length ≤ 1 := by
      split_ifs <;> simp
    rw [List.length_append] at hdropped
    show (List.dropWhile _ _).length + calls.length ≤ buffer.maxSize
    omega

/-! ## The averages -/

/-- The mean fee of the points, 0 if there are none. -/
def meanFee (points : List FeeDataPoint) : ℚ :=
  (points.map fun p => (p.feeAmount : ℚ)).sum / points.length

/-- The average of a window is that of the points in its buffer. -/
theorem calculateAverageForWindow_spec {name : String} {window : TimeWindow}
    (hwindow : calculator.timeWindows.find? (fun w => w.name == name) = some window)
    {buffer : CircularBuffer FeeDataPoint} (hbuffer : calculator.windows window = some buffer)
    (now : DateTime) :
    ∃ result, calculator.calculateAverageForWindow name now = .ok result ∧
      result.timeWindow = window ∧ result.sampleCount = buffer.data.length ∧
      result.value = meanFee buffer.data := by
  unfold calculateAverageForWindow
  simp only [hwindow, hbuffer]
  split_ifs with hempty
  · rw [List.isEmpty_iff] at hempty
    exact ⟨_, rfl, rfl, by simp [hempty], by simp [hempty, meanFee]⟩
  · exact ⟨_, rfl, rfl, rfl, rfl⟩

theorem calculateAverageForWindow_of_not_found {name : String}
    (hwindow : calculator.timeWindows.find? (fun w => w.name == name) = none) (now : DateTime)
    (result : AverageResult) : calculator.calculateAverageForWindow name now ≠ .ok result := by
  unfold calculateAverageForWindow
  simp [hwindow]

theorem calculateAverages_eq_ok_iff (now : DateTime) (averages : RollingAverages) :
    calculator.calculateAverages now = .ok averages ↔
      calculator.calculateAverageForWindow "short_term" now = .ok averages.shortTerm ∧
      calculator.calculateAverageForWindow "medium_term" now = .ok averages.mediumTerm ∧
      calculator.calculateAverageForWindow "long_term" now = .ok averages.longTerm := by
  obtain ⟨shortTerm, mediumTerm, longTerm⟩ := averages
  unfold calculateAverages
  cases calculator.calculateAverageForWindow "short_term" now <;>
    cases calculator.calculateAverageForWindow "medium_term" now <;>
    cases calculator.calculateAverageForWindow "long_term" now <;>
    simp [bind, Except.bind, pure, Except.pure]

/-! ## Exactness -/

/-- The result reports the number and the mean fee of the added points that are within its window. -/
def ReportsExactly (calls : List (DateTime × FeeDataPoint)) (now : DateTime)
    (result : AverageResult) : Prop :=
  let within := (calls.map (·.2)).filter (result.timeWindow.Contains now)
  result.sampleCount = within.length ∧ result.value = meanFee within

/-- The averages read after the calls report exactly the added points within each window. -/
def AveragesExact (calculator : RollingAverageCalculator) (calls : List (DateTime × FeeDataPoint))
    (now : DateTime) : Prop :=
  ∃ averages, (calculator.addAll calls).calculateAverages now = .ok averages ∧
    ReportsExactly calls now averages.shortTerm ∧ ReportsExactly calls now averages.mediumTerm ∧
      ReportsExactly calls now averages.longTerm

end RollingAverageCalculator

/-- The points that were within the window when they were added, without the leading ones that are
out of it at the last call. -/
def TimeWindow.leftOf (window : TimeWindow) (calls : List (DateTime × FeeDataPoint)) :
    List FeeDataPoint :=
  left window.expired (window.arrivals calls)

section Calls

variable {calls : List (DateTime × FeeDataPoint)} {now : DateTime}

/-- Of the points that are left, those within the window are all that were added. -/
theorem TimeWindow.filter_leftOf (window : TimeWindow) (hread : ∀ call ∈ calls, call.1 ≤ now) :
    (window.leftOf calls).filter (window.Contains now) =
      (calls.map (·.2)).filter (window.Contains now) := by
  have harrivals : ((window.arrivals calls).flatMap (·.elements)).filter (window.Contains now) =
      (calls.map (·.2)).filter (window.Contains now) := by
    induction calls with
    | nil => rfl
    | cons call calls ih =>
      rw [List.forall_mem_cons] at hread
      have hrest := ih hread.2
      rw [arrivals] at hrest
      rw [arrivals, List.map_cons, List.flatMap_cons, List.filter_append, hrest, List.map_cons]
      by_cases hadded : window.Contains call.1 call.2 = true
      · simp [hadded, List.filter_cons]
        split_ifs <;> rfl
      · have hexpired : window.expired call.1 call.2 = true := by
          rw [← window.not_expired, Bool.not_eq_true, Bool.not_eq_false'] at hadded
          exact hadded
        have hout : window.Contains now call.2 = false := by
          rw [← window.not_expired, window.expired_mono _ hread.1 hexpired]
          rfl
        simp [hadded, hout]
  have hbefore : ∀ a ∈ window.arrivals calls, a.now ≤ now := by
    intro a ha
    obtain ⟨call, hcall, rfl⟩ := List.mem_map.1 ha
    exact hread call hcall
  have hleft := filter_left window.expired window.expired_mono hbefore
  simp only [TimeWindow.not_expired] at hleft
  rw [TimeWindow.leftOf, hleft, harrivals]

namespace RollingAverageCalculator

variable {config : AverageConfig} {timeWindows : List TimeWindow} (hnodup : timeWindows.Nodup)
  (hclock : calls.Pairwise fun c d => c.1 ≤ d.1) (hlength : calls.length < config.maxBufferSize)
  (hread : ∀ call ∈ calls, call.1 ≤ now)
include hnodup hclock hlength

theorem windows_addAll_new {window : TimeWindow} (hwindow : window ∈ timeWindows) :
    ((new config timeWindows).addAll calls).windows window =
      some { data := window.leftOf calls, maxSize := config.maxBufferSize } := by
  have hbuffer : (new config timeWindows).windows window =
      some (CircularBuffer.new config.maxBufferSize) := if_pos hwindow
  have hcount : (new config timeWindows).timeWindows.count window = 1 := by
    show timeWindows.count window = 1
    rw [hnodup.count, if_pos hwindow]
  have horder : (window.arrivals calls).Pairwise fun a b => a.now ≤ b.now :=
    List.pairwise_map.2 hclock
  rw [windows_addAll_of_room hcount hbuffer calls (by
    rw [CircularBuffer.new, List.length_nil, Nat.zero_add]
    exact hlength.le)]
  rw [CircularBuffer.new, TimeWindow.leftOf,
    contents_nil_eq_left window.expired window.expired_mono horder]

include hread

/-- The average of one window is exact exactly when no point that is left of it is out of it. -/
theorem reportsExactly_iff {name : String} {window : TimeWindow}
    (hwindow : timeWindows.find? (fun w => w.name == name) = some window) :
    ∃ result, ((new config timeWindows).addAll calls).calculateAverageForWindow name now =
        .ok result ∧
      (ReportsExactly calls now result ↔
        ∀ p ∈ window.leftOf calls, window.Contains now p = true) := by
  have hbuffer := windows_addAll_new hnodup hclock hlength (List.mem_of_find?_eq_some hwindow)
  have hfind : ((new config timeWindows).addAll calls).timeWindows.find?
      (fun w => w.name == name) = some window := by
    rw [timeWindows_addAll]
    exact hwindow
  obtain ⟨result, hresult, hwin, hsample, hvalue⟩ :=
    calculateAverageForWindow_spec hfind hbuffer now
  refine ⟨result, hresult, ?_⟩
  unfold ReportsExactly
  rw [hwin, hsample, hvalue, ← window.filter_leftOf hread]
  constructor
  · rintro ⟨hlen, -⟩
    exact List.length_filter_eq_length_iff.1 hlen.symm
  · intro hall
    rw [List.filter_eq_self.2 hall]
    exact ⟨rfl, rfl⟩

/-- The averages read at an instant are exact exactly when the three windows are configured and no
point that is left of one of them is out of it. -/
theorem averagesExact_iff :
    (new config timeWindows).AveragesExact calls now ↔
      ∀ name ∈ ["short_term", "medium_term", "long_term"],
        ∃ window, timeWindows.find? (fun w => w.name == name) = some window ∧
          ∀ p ∈ window.leftOf calls, window.Contains now p = true := by
  have hone : ∀ name, (∃ result, ((new config timeWindows).addAll calls).calculateAverageForWindow
        name now = .ok result ∧ ReportsExactly calls now result) ↔
      ∃ window, timeWindows.find? (fun w => w.name == name) = some window ∧
        ∀ p ∈ window.leftOf calls, window.Contains now p = true := by
    intro name
    cases hfind : timeWindows.find? (fun w => w.name == name) with
    | none =>
      have hnot : ((new config timeWindows).addAll calls).timeWindows.find?
          (fun w => w.name == name) = none := by
        rw [timeWindows_addAll]
        exact hfind
      simp [calculateAverageForWindow_of_not_found hnot now]
    | some window =>
      obtain ⟨result, hresult, hiff⟩ := reportsExactly_iff hnodup hclock hlength hread hfind
      simp [hresult, hiff]
  simp only [List.forall_mem_cons, List.not_mem_nil, false_implies, implies_true, and_true, ← hone]
  unfold AveragesExact
  simp only [calculateAverages_eq_ok_iff]
  constructor
  · rintro ⟨averages, ⟨hshort, hmedium, hlong⟩, hexact⟩
    exact ⟨⟨_, hshort, hexact.1⟩, ⟨_, hmedium, hexact.2.1⟩, ⟨_, hlong, hexact.2.2⟩⟩
  · rintro ⟨⟨shortTerm, hshort, hshort'⟩, ⟨mediumTerm, hmedium, hmedium'⟩, ⟨longTerm, hlong, hlong'⟩⟩
    exact ⟨⟨shortTerm, mediumTerm, longTerm⟩, ⟨hshort, hmedium, hlong⟩, hshort', hmedium', hlong'⟩

end RollingAverageCalculator

end Calls

/-- A point of the tests of the calculator. -/
def feeAtMinute (minute : ℤ) : FeeDataPoint where
  feeAmount := 100 + minute.toNat
  timestamp := minutes minute
  transactionHash := "tx" ++ toString minute
  ledgerSequence := 1

/-- Three points in order, read when the first has just left the shortest window and was dropped. -/
theorem averagesExact_in_order :
    (RollingAverageCalculator.new .default InsightsConfig.default.timeWindows).AveragesExact
      [(minutes 1, feeAtMinute 0), (minutes 3, feeAtMinute 2), (minutes 6, feeAtMinute 5)]
      (minutes 6) :=
  (RollingAverageCalculator.averagesExact_iff (by decide) (by decide) (by decide) (by decide)).2
    (by decide)

/-- A batch newest first: its older point leaves the shortest window behind a point that is still
within it, and is counted at the next point. -/
theorem averages_newest_first_inexact :
    ¬ (RollingAverageCalculator.new .default InsightsConfig.default.timeWindows).AveragesExact
      [(minutes 10, feeAtMinute 9), (minutes 10, feeAtMinute 6), (minutes 12, feeAtMinute 11)]
      (minutes 12) := by
  rintro ⟨averages, haverages, hshort, -⟩
  have hwrong : ∀ averages ∈ (((RollingAverageCalculator.new .default
      InsightsConfig.default.timeWindows).addAll [(minutes 10, feeAtMinute 9),
        (minutes 10, feeAtMinute 6), (minutes 12, feeAtMinute 11)]).calculateAverages
          (minutes 12)).toOption, averages.shortTerm.sampleCount = 3 ∧
            averages.shortTerm.timeWindow = ⟨"short_term", minutes 5, 5⟩ := by
    decide
  obtain ⟨hcount, hwindow⟩ := hwrong averages (by rw [haverages]; rfl)
  have hwithin := hshort.1
  rw [hcount, hwindow] at hwithin
  revert hwithin
  decide

end StellarFeeTracker
