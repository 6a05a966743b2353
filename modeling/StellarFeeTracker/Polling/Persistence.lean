import StellarFeeTracker.Polling.Tick

/-!
# The table of fee points over a run

A tick hands its new points to the database, and which points are new is decided by the history
store alone.  So a point is in the table, while it is within the retention window, when it was there
at the start or the insert of some tick succeeded for which it was new (`hasPoint_run_iff`), and a
point that the provider returns again is lost when no such tick came before and the store still
holds it (`nothingLost_iff`).
-/

namespace StellarFeeTracker

open Machine

/-- The rows have the time of their transaction. -/
def Database.Timed (text : Rfc3339) (timeOf : String → DateTime) (db : Database) : Prop :=
  ∀ row ∈ db.feeDataPoints, row.timestamp = text.toRfc3339 (timeOf row.transactionHash)

namespace Poller

variable (poller : Poller)

/-- The instant is not before the cutoff of the tick, as the database compares them. -/
def WithinRetention (text : Rfc3339) (tick : PollTick) (time : DateTime) : Prop :=
  ∀ cutoff, poller.retentionCutoff tick.now = .ok cutoff →
    ¬ text.toRfc3339 time < text.toRfc3339 cutoff

/-! ## One tick -/

/-- The tables after the insert of a tick. -/
def inserted (text : Rfc3339) (tick : PollTick) (points : List FeeDataPoint) (db : Database) :
    Database :=
  if poller.hasRepository && tick.insertError.isNone then db.insertFeePoints text points else db

/-- The tick deletes the rows with this timestamp. -/
def prunes (text : Rfc3339) (tick : PollTick) (timestamp : String) : Bool :=
  poller.hasRepository && tick.pruneError.isNone &&
    match poller.retentionCutoff tick.now with
    | .ok cutoff => timestamp < text.toRfc3339 cutoff
    | .error _ => false

/-- The rows after a tick are those after its insert without the deleted ones. -/
theorem persist_feeDataPoints (text : Rfc3339) (tick : PollTick) (points : List FeeDataPoint)
    (db : Database) :
    (poller.persist text tick points db).1.feeDataPoints =
      (poller.inserted text tick points db).feeDataPoints.filter fun row =>
        !poller.prunes text tick row.timestamp := by
  unfold persist inserted prunes
  cases hrepo : poller.hasRepository with
  | false => simp
  | true =>
    cases hcutoff : poller.retentionCutoff tick.now with
    | error panic => simp
    | ok cutoff =>
      cases tick.pruneError <;> cases tick.pruneRecommendationsError <;>
        cases tick.pruneAlertEventsError <;>
        simp [Database.pruneOlderThan, Database.pruneRecommendationsOlderThan,
          Database.pruneAlertEventsOlderThan]

theorem not_prunes_of_withinRetention {text : Rfc3339} {tick : PollTick} {time : DateTime}
    (h : poller.WithinRetention text tick time) :
    poller.prunes text tick (text.toRfc3339 time) = false := by
  unfold prunes
  cases hcutoff : poller.retentionCutoff tick.now with
  | error panic => simp
  | ok cutoff => simp [h cutoff hcutoff]

section Timed

variable {poller} {text : Rfc3339} {timeOf : String → DateTime} {tick : PollTick}
  {points : List FeeDataPoint} {db : Database} (hdb : db.Timed text timeOf)
  (hpoints : ∀ p ∈ points, p.timestamp = timeOf p.transactionHash)
include hdb hpoints

theorem timed_inserted : (poller.inserted text tick points db).Timed text timeOf := by
  unfold inserted
  split_ifs
  · intro row hrow
    rw [Database.insertFeePoints_feeDataPoints, List.mem_append, List.mem_map] at hrow
    rcases hrow with hrow | ⟨p, hp, rfl⟩
    · exact hdb row hrow
    · have hmem : p ∈ points := (FirstByKey.firstByKey_sublist _ _ _).subset hp
      show text.toRfc3339 p.timestamp = text.toRfc3339 (timeOf p.transactionHash)
      rw [hpoints p hmem]
  · exact hdb

theorem timed_persist : (poller.persist text tick points db).1.Timed text timeOf := by
  intro row hrow
  rw [persist_feeDataPoints] at hrow
  exact timed_inserted hdb hpoints row (List.mem_filter.1 hrow).1

/-- While a hash is within the retention window, a tick leaves it in the table if it was there or
the insert of the tick succeeds for a point with it. -/
theorem hasPoint_persist_iff (hrepo : poller.hasRepository = true) {hash : String}
    (hretained : poller.WithinRetention text tick (timeOf hash)) :
    (poller.persist text tick points db).1.HasPoint hash ↔
      db.HasPoint hash ∨ (tick.insertError = none ∧ hash ∈ points.map (·.transactionHash)) := by
  have hkept : (poller.persist text tick points db).1.HasPoint hash ↔
      (poller.inserted text tick points db).HasPoint hash := by
    have hrow : ∀ row ∈ (poller.inserted text tick points db).feeDataPoints,
        row.transactionHash = hash → poller.prunes text tick row.timestamp = false := by
      rintro row hrow rfl
      rw [timed_inserted hdb hpoints row hrow]
      exact poller.not_prunes_of_withinRetention hretained
    unfold Database.HasPoint
    rw [persist_feeDataPoints]
    constructor
    · rintro ⟨row, hmem, hhash⟩
      exact ⟨row, (List.mem_filter.1 hmem).1, hhash⟩
    · rintro ⟨row, hmem, hhash⟩
      exact ⟨row, List.mem_filter.2 ⟨hmem, by rw [hrow row hmem hhash]; rfl⟩, hhash⟩
  rw [hkept, inserted, hrepo, Bool.true_and]
  cases tick.insertError with
  | none => simp [Database.hasPoint_insertFeePoints_iff]
  | some err => simp

end Timed

section Tick

variable {poller} {text : Rfc3339} {timeOf : String → DateTime} {s : PollState} {tick : PollTick}
  (hs : s.database.Timed text timeOf)
  (hfetched : ∀ p ∈ poller.fetched tick, p.timestamp = timeOf p.transactionHash)
include hfetched

theorem timestamp_of_mem_newPoints :
    ∀ p ∈ poller.newPoints s tick, p.timestamp = timeOf p.transactionHash :=
  fun p hp => hfetched p (s.store.mem_dropKnown hp).1

include hs

theorem timed_pollOnce : (poller.pollOnce text s tick).1.database.Timed text timeOf := by
  rw [pollOnce_database]
  split_ifs
  · exact hs
  · exact timed_persist hs (timestamp_of_mem_newPoints hfetched)

theorem hasPoint_pollOnce_iff (hrepo : poller.hasRepository = true) {hash : String}
    (hretained : poller.WithinRetention text tick (timeOf hash)) :
    (poller.pollOnce text s tick).1.database.HasPoint hash ↔
      s.database.HasPoint hash ∨
        (tick.insertError = none ∧ hash ∈ (poller.newPoints s tick).map (·.transactionHash)) := by
  rw [pollOnce_database]
  split_ifs with hnil
  · simp [hnil]
  · exact hasPoint_persist_iff hs (timestamp_of_mem_newPoints hfetched) hrepo hretained

end Tick

/-! ## Runs -/

section Runs

variable (text : Rfc3339) (s : PollState) (ticks : List PollTick)

/-- A point with the hash was new to a tick whose insert succeeded. -/
def InsertedAt (k : ℕ) (hash : String) : Prop :=
  ∃ tick, ticks[k]? = some tick ∧ tick.insertError = none ∧
    hash ∈ (poller.newPoints (final (poller.pollOnce text) s (ticks.take k)) tick).map
      (·.transactionHash)

/-- A tick `i` pushed the point, and on a later tick `j` the provider returns it again, the database
accepts writes and the point has been within the retention window of every tick so far. -/
structure Owed (i j : ℕ) (p : FeeDataPoint) : Prop where
  later : i < j
  pushed : ∃ tick, ticks[i]? = some tick ∧
    p ∈ poller.newPoints (final (poller.pollOnce text) s (ticks.take i)) tick
  returned : ∃ tick, ticks[j]? = some tick ∧ p ∈ poller.fetched tick ∧ tick.insertError = none
  retained : ∀ k ≤ j, ∀ tick, ticks[k]? = some tick →
    poller.WithinRetention text tick p.timestamp

/-- Every point that was pushed, is returned again and can be written is then in the table. -/
def NothingLost : Prop :=
  ∀ i j p, poller.Owed text s ticks i j p →
    (final (poller.pollOnce text) s (ticks.take (j + 1))).database.HasPoint p.transactionHash

variable {poller text s ticks} {timeOf : String → DateTime} (hs : s.database.Timed text timeOf)
  (hfetched : ∀ tick ∈ ticks, ∀ p ∈ poller.fetched tick, p.timestamp = timeOf p.transactionHash)
include hs hfetched

theorem timed_run (j : ℕ) :
    (final (poller.pollOnce text) s (ticks.take j)).database.Timed text timeOf := by
  refine final_induction (poller.pollOnce text)
    (P := fun s : PollState => s.database.Timed text timeOf) hs ?_
  intro s tick htick h
  exact timed_pollOnce h (hfetched tick (List.mem_of_mem_take htick))

variable (hrepo : poller.hasRepository = true)
include hrepo

/-- While it is within the retention window, a hash is in the table if it was there at the start or
some tick has inserted it. -/
theorem hasPoint_run_iff {hash : String} (j : ℕ)
    (hretained : ∀ k < j, ∀ tick, ticks[k]? = some tick →
      poller.WithinRetention text tick (timeOf hash)) :
    (final (poller.pollOnce text) s (ticks.take j)).database.HasPoint hash ↔
      s.database.HasPoint hash ∨ ∃ k < j, poller.InsertedAt text s ticks k hash := by
  induction j with
  | zero => simp
  | succ j ih =>
    have hbefore := ih fun k hk => hretained k (hk.trans (Nat.lt_succ_self j))
    simp only [Nat.lt_succ_iff_lt_or_eq, or_and_right, exists_or, exists_eq_left]
    rw [← or_assoc, ← hbefore]
    cases htick : ticks[j]? with
    | none =>
      have hnot : ¬ poller.InsertedAt text s ticks j hash := by
        rintro ⟨tick, htick', -⟩
        rw [htick] at htick'
        cases htick'
      rw [final_take_succ_of_none _ _ _ htick]
      simp [hnot]
    | some tick =>
      have hinserted : poller.InsertedAt text s ticks j hash ↔ tick.insertError = none ∧
          hash ∈ (poller.newPoints (final (poller.pollOnce text) s (ticks.take j)) tick).map
            (·.transactionHash) := by
        simp [InsertedAt, htick]
      rw [final_take_succ _ _ _ htick, hinserted]
      exact hasPoint_pollOnce_iff (timed_run hs hfetched j)
        (hfetched tick (List.mem_of_getElem? htick)) hrepo
        (hretained j (Nat.lt_succ_self j) tick htick)

/-- Nothing is lost exactly when every point that is owed to the table, and is still held by the
store, was in the table at the start or was inserted by an earlier tick. -/
theorem nothingLost_iff :
    poller.NothingLost text s ticks ↔
      ∀ i j p, poller.Owed text s ticks i j p →
        ((final (poller.pollOnce text) s (ticks.take j)).store.getByHash p.transactionHash).isSome →
        s.database.HasPoint p.transactionHash ∨
          ∃ k < j, poller.InsertedAt text s ticks k p.transactionHash := by
  unfold NothingLost
  refine forall_congr' fun i => forall_congr' fun j => forall_congr' fun p =>
    forall_congr' fun howed => ?_
  obtain ⟨tick, htick, hp, hinsert⟩ := howed.returned
  have htime := hfetched tick (List.mem_of_getElem? htick) p hp
  have hretained : ∀ k < j + 1, ∀ tick, ticks[k]? = some tick →
      poller.WithinRetention text tick (timeOf p.transactionHash) := by
    intro k hk tick htick
    rw [← htime]
    exact howed.retained k (Nat.lt_succ_iff.1 hk) tick htick
  have hnow : poller.InsertedAt text s ticks j p.transactionHash ↔
      ((final (poller.pollOnce text) s (ticks.take j)).store.getByHash p.transactionHash).isNone := by
    have hmem : p.transactionHash ∈ (poller.fetched tick).map (·.transactionHash) :=
      List.mem_map_of_mem hp
    simp only [InsertedAt, htick, Option.some.injEq, exists_eq_left', hinsert, true_and, newPoints,
      FeeHistoryStore.mem_map_dropKnown_iff, hmem]
  rw [hasPoint_run_iff hs hfetched hrepo (j + 1) hretained]
  simp only [Nat.lt_succ_iff_lt_or_eq, or_and_right, exists_or, exists_eq_left, hnow]
  rw [← or_assoc]
  cases (final (poller.pollOnce text) s (ticks.take j)).store.getByHash p.transactionHash <;> simp

end Runs

end Poller

/-- A point that the database stored stays in the table when it is fetched again. -/
theorem nothingLost_fetched_twice :
    storingPoller.NothingLost pollText (startWith [] 10)
      [tickFetching [pointWithHash "a"], tickFetching [pointWithHash "a"]] := by
  have hticks : ∀ tick ∈ [tickFetching [pointWithHash "a"], tickFetching [pointWithHash "a"]],
      tick = tickFetching [pointWithHash "a"] := by simp
  have hempty : (startWith [] 10).database.Timed pollText fun _ => seconds 1736851500 := by
    intro row hrow
    cases hrow
  refine (Poller.nothingLost_iff hempty ?_ rfl).2 ?_
  · intro tick htick
    rw [hticks tick htick]
    decide
  · intro i j p howed _
    obtain ⟨tick, htick, hp⟩ := howed.pushed
    have hinsert : tick.insertError = none := by
      rw [hticks tick (List.mem_of_getElem? htick)]
      rfl
    exact Or.inr ⟨i, howed.later, tick, htick, hinsert, List.mem_map_of_mem hp⟩

/-- A point whose first insert failed is never inserted while the store holds it. -/
theorem failed_insert_not_repeated :
    ¬ storingPoller.NothingLost pollText (startWith [] 10)
      [{ tickFetching [pointWithHash "a"] with insertError := some (.failed "database is locked") },
        tickFetching [pointWithHash "a"]] := by
  intro h
  have howed : storingPoller.Owed pollText (startWith [] 10)
      [{ tickFetching [pointWithHash "a"] with insertError := some (.failed "database is locked") },
        tickFetching [pointWithHash "a"]] 0 1 (pointWithHash "a") := by
    refine ⟨Nat.zero_lt_one, ⟨_, rfl, by decide⟩, ⟨_, rfl, by decide, rfl⟩, ?_⟩
    rintro k - tick htick cutoff hcutoff
    have hnow : tick.now = seconds 1736851620 := by
      have hmem := List.mem_of_getElem? htick
      simp only [List.mem_cons, List.not_mem_nil, or_false] at hmem
      rcases hmem with rfl | rfl <;> rfl
    have hvalue : storingPoller.retentionCutoff (seconds 1736851620) = .ok (seconds 1736246820) := by
      decide
    rw [hnow, hvalue] at hcutoff
    obtain rfl := Except.ok.inj hcutoff
    decide
  have hlost := h 0 1 _ howed
  revert hlost
  decide +kernel

end StellarFeeTracker
