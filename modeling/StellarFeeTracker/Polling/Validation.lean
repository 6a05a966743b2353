import StellarFeeTracker.Insights.Processing
import StellarFeeTracker.Polling.Persistence

/-!
# Validation of what a run stores

A tick pushes its new points into the history store before the insights engine validates them, and
hands them to the database whatever the engine says.  So only validated points are stored in exactly
the runs whose invalid new points are pushed out of the store by the rest of their batch and not
written to the table (`onlyValidated_iff`).
-/

namespace StellarFeeTracker

open Machine FeeInsightsEngine

namespace Poller

variable (poller : Poller)

/-! ## What a tick stores -/

/-- The points that a tick writes to the table. -/
def insertedPoints (s : PollState) (tick : PollTick) : List FeeDataPoint :=
  if poller.hasRepository && tick.insertError.isNone then
    s.database.insertedPoints (poller.newPoints s tick)
  else []

/-- The rows after a tick are those before and one for each point it writes, without the deleted
ones. -/
theorem feeDataPoints_pollOnce (text : Rfc3339) {s : PollState} {tick : PollTick}
    (hne : poller.newPoints s tick ≠ []) :
    (poller.pollOnce text s tick).1.database.feeDataPoints =
      (s.database.feeDataPoints ++
        (poller.insertedPoints s tick).map (FeeRow.ofPoint text)).filter fun row =>
          !poller.prunes text tick row.timestamp := by
  rw [pollOnce_database, if_neg hne, persist_feeDataPoints, inserted, insertedPoints]
  by_cases hwrites : (poller.hasRepository && tick.insertError.isNone) = true
  · rw [if_pos hwrites, if_pos hwrites, Database.insertFeePoints_feeDataPoints]
  · rw [if_neg hwrites, if_neg hwrites, List.map_nil, List.append_nil]

theorem mem_insertedPoints_iff {s : PollState} {tick : PollTick} {p : FeeDataPoint} :
    p ∈ poller.insertedPoints s tick ↔
      p ∈ poller.newPoints s tick ∧ poller.hasRepository = true ∧ tick.insertError = none ∧
        ¬ s.database.HasPoint p.transactionHash := by
  have hnodup : ((poller.newPoints s tick).map (·.transactionHash)).Nodup := s.store.nodup_dropKnown _
  have hmem := s.database.mem_insertedPoints_iff hnodup (p := p)
  unfold insertedPoints
  by_cases hwrites : (poller.hasRepository && tick.insertError.isNone) = true
  · rw [if_pos hwrites, hmem]
    rw [Bool.and_eq_true, Option.isNone_iff_eq_none] at hwrites
    simp [hwrites.1, hwrites.2]
  · rw [if_neg hwrites]
    rw [Bool.and_eq_true, Option.isNone_iff_eq_none, not_and] at hwrites
    refine iff_of_false List.not_mem_nil ?_
    rintro ⟨-, hrepo, hinsert, -⟩
    exact hwrites hrepo hinsert

/-- A row that a tick adds to the table is that of a point that it writes. -/
theorem mem_feeDataPoints_pollOnce (text : Rfc3339) {s : PollState} {tick : PollTick} {row : FeeRow}
    (h : row ∈ (poller.pollOnce text s tick).1.database.feeDataPoints) :
    row ∈ s.database.feeDataPoints ∨
      ∃ p ∈ poller.insertedPoints s tick, row = FeeRow.ofPoint text p := by
  by_cases hne : poller.newPoints s tick = []
  · rw [pollOnce_database, if_pos hne] at h
    exact .inl h
  · rw [poller.feeDataPoints_pollOnce text hne] at h
    rcases List.mem_append.1 (List.mem_of_mem_filter h) with hold | hnew
    · exact .inl hold
    · obtain ⟨p, hp, rfl⟩ := List.mem_map.1 hnew
      exact .inr ⟨p, hp, rfl⟩

/-- The new points that are in the store when the whole batch has been pushed. -/
def keptPoints (s : PollState) (tick : PollTick) : List FeeDataPoint :=
  let points := poller.newPoints s tick
  points.drop (points.length - BoundedQueue.room s.store.capacity s.store.data.length)

theorem mem_store_pollOnce_iff (text : Rfc3339) {s : PollState} {tick : PollTick}
    {p : FeeDataPoint} :
    p ∈ (poller.pollOnce text s tick).1.store.data ∧ p ∉ s.store.data ↔
      p ∈ poller.keptPoints s tick := by
  rw [pollOnce_store, FeeHistoryStore.foldl_push_data]
  constructor
  · rintro ⟨hafter, hnew⟩
    exact (BoundedQueue.mem_pushAll_iff _ hnew).1 hafter
  · intro hkept
    have hnew : p ∉ s.store.data :=
      s.store.notMem_data_of_mem_dropKnown (List.mem_of_mem_drop hkept)
    exact ⟨(BoundedQueue.mem_pushAll_iff _ hnew).2 hkept, hnew⟩

/-! ## Runs -/

/-- Every point that a tick of the run leaves in the store or writes to the table passes validation
at the time of the tick, and so every row that the tick adds to the table is that of a point that
does. -/
def OnlyValidated (text : Rfc3339) (s : PollState) (ticks : List PollTick) : Prop :=
  ∀ k tick, ticks[k]? = some tick →
    let before := final (poller.pollOnce text) s (ticks.take k)
    let after := (poller.pollOnce text before tick).1
    (∀ p ∈ after.store.data, p ∉ before.store.data → Passes tick.now p) ∧
    (∀ p ∈ poller.insertedPoints before tick, Passes tick.now p) ∧
    ∀ row ∈ after.database.feeDataPoints, row ∉ before.database.feeDataPoints →
      ∃ p, row = FeeRow.ofPoint text p ∧ Passes tick.now p

/-- Only validated points are stored exactly when each new point that fails validation is pushed out
of the store by the rest of its batch, and is not written: there is no repository, the insert fails,
or the table has its hash. -/
theorem onlyValidated_iff (text : Rfc3339) (s : PollState) (ticks : List PollTick) :
    poller.OnlyValidated text s ticks ↔
      ∀ k tick, ticks[k]? = some tick →
        let before := final (poller.pollOnce text) s (ticks.take k)
        ∀ p ∈ poller.newPoints before tick, ¬ Passes tick.now p →
          p ∉ poller.keptPoints before tick ∧
            (poller.hasRepository = true → tick.insertError = none →
              before.database.HasPoint p.transactionHash) := by
  unfold OnlyValidated
  refine forall_congr' fun k => forall_congr' fun tick => forall_congr' fun _ => ?_
  constructor
  · rintro ⟨hkept, hwritten, -⟩ before p hp hfails
    refine ⟨fun h => ?_, fun hrepo hinsert => ?_⟩
    · obtain ⟨hafter, hnew⟩ := (poller.mem_store_pollOnce_iff text).2 h
      exact hfails (hkept p hafter hnew)
    · by_contra hrow
      exact hfails (hwritten p (poller.mem_insertedPoints_iff.2 ⟨hp, hrepo, hinsert, hrow⟩))
  · intro h
    have hwritten : ∀ p ∈ poller.insertedPoints (final (poller.pollOnce text) s (ticks.take k)) tick,
        Passes tick.now p := by
      intro p hp
      obtain ⟨hnew, hrepo, hinsert, hrow⟩ := poller.mem_insertedPoints_iff.1 hp
      by_contra hfails
      exact hrow ((h p hnew hfails).2 hrepo hinsert)
    refine ⟨fun p hafter hnew => ?_, hwritten, fun row hafter hnew => ?_⟩
    · have hkept := (poller.mem_store_pollOnce_iff text).1 ⟨hafter, hnew⟩
      by_contra hfails
      exact (h p (List.mem_of_mem_drop hkept) hfails).1 hkept
    · rcases poller.mem_feeDataPoints_pollOnce text hafter with hold | ⟨p, hp, hrow⟩
      · exact absurd hold hnew
      · exact ⟨p, hrow, hwritten p hp⟩

end Poller

/-- A batch with a fee of zero goes into the store, and into the table where there is one. -/
theorem zero_fee_stored :
    let ticks := [tickFetching [pointWithHash "a", { pointWithHash "b" with feeAmount := 0 }]]
    ¬ barePoller.OnlyValidated pollText (startWith [] 10) ticks ∧
      ¬ storingPoller.OnlyValidated pollText (startWith [] 10) ticks ∧
      (final (storingPoller.pollOnce pollText) (startWith [] 10) ticks).database.feeDataPoints.map
        (·.feeAmount) = [100, 0] := by
  intro ticks
  refine ⟨fun h => ?_, fun h => ?_, by decide⟩
  · have hstored := (h 0 _ rfl).1 { pointWithHash "b" with feeAmount := 0 } (by decide) (by decide)
    revert hstored
    decide
  · have hwritten := (h 0 _ rfl).2.1 { pointWithHash "b" with feeAmount := 0 } (by decide)
    revert hwritten
    decide

end StellarFeeTracker
