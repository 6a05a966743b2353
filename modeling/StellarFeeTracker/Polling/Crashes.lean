import StellarFeeTracker.Polling.Rehydration

/-!
# Crashes

The process may end at any moment, in the middle of a tick too, and is started again later.  What is in
memory is lost then, and the tables are as the writes that were made have left them: a tick makes its
writes one after the other, and a crash leaves a prefix of them (`persistUpTo`).

At every time the store holds the last points of what the last start has read and of what has come
since (`Lives.store_eq`), and the hashes differ in the store and in the table.
-/

namespace StellarFeeTracker

open Machine

namespace Poller

variable (poller : Poller)

/-! ## The writes of a tick -/

/-- The writes that `persist` makes, in their order.  None comes after a panic. -/
def writes (text : Rfc3339) (tick : PollTick) (points : List FeeDataPoint) :
    List (Database → Database) :=
  if poller.hasRepository then
    (fun db => if tick.insertError.isNone then db.insertFeePoints text points else db) ::
      match poller.retentionCutoff tick.now with
      | .error _ => []
      | .ok cutoff =>
        [fun db => if tick.pruneError.isNone then db.pruneOlderThan text cutoff else db,
          fun db =>
            if tick.pruneRecommendationsError.isNone then db.pruneRecommendationsOlderThan text cutoff
            else db,
          fun db =>
            if tick.pruneAlertEventsError.isNone then db.pruneAlertEventsOlderThan text cutoff else db]
  else []

/-- The tables when so many writes of a tick have been made. -/
def persistUpTo (text : Rfc3339) (tick : PollTick) (points : List FeeDataPoint) (done : ℕ)
    (db : Database) : Database :=
  ((poller.writes text tick points).take done).foldl (fun db write => write db) db

/-- A tick that is not interrupted makes all of them. -/
theorem persist_eq_persistUpTo (text : Rfc3339) (tick : PollTick) (points : List FeeDataPoint)
    (db : Database) :
    (poller.persist text tick points db).1 = poller.persistUpTo text tick points 4 db := by
  unfold persist persistUpTo writes
  cases poller.hasRepository with
  | false => rfl
  | true =>
    cases poller.retentionCutoff tick.now with
    | error panic => rfl
    | ok cutoff => rfl

/-- The first write inserts the points, and the second deletes the rows that are too old. -/
theorem persistUpTo_feeDataPoints (text : Rfc3339) (tick : PollTick) (points : List FeeDataPoint)
    (done : ℕ) (db : Database) :
    (poller.persistUpTo text tick points done db).feeDataPoints =
      (if done = 0 then db else poller.inserted text tick points db).feeDataPoints.filter fun row =>
        !(2 ≤ done && poller.prunes text tick row.timestamp) := by
  unfold persistUpTo writes inserted prunes
  cases hrepo : poller.hasRepository with
  | false => simp
  | true =>
    cases hcutoff : poller.retentionCutoff tick.now with
    | error panic =>
      match done with
      | 0 => simp
      | done + 1 => simp
    | ok cutoff =>
      match done with
      | 0 => simp
      | 1 => simp
      | 2 | 3 | done + 4 =>
        -- the other prunes leave the table of the points alone
        cases tick.pruneError <;> cases tick.pruneRecommendationsError <;>
          cases tick.pruneAlertEventsError <;>
          simp [Database.pruneOlderThan, Database.pruneRecommendationsOlderThan,
            Database.pruneAlertEventsOlderThan]

end Poller

/-! ## What a start reads -/

/-- The points of the rows that can be read and do not come before the instant. -/
theorem Database.mem_fetchSince_iff {text : Rfc3339} {db : Database} {since : DateTime}
    {p : FeeDataPoint} :
    p ∈ db.fetchSince text since ↔
      ∃ row ∈ db.feeDataPoints, ¬ row.timestamp < text.toRfc3339 since ∧ row.toPoint text = some p := by
  unfold Database.fetchSince
  simp [List.mem_filterMap, List.mem_insertionSort, and_assoc]

theorem FeeRow.transactionHash_of_toPoint {text : Rfc3339} {row : FeeRow} {p : FeeDataPoint}
    (h : row.toPoint text = some p) : p.transactionHash = row.transactionHash := by
  unfold FeeRow.toPoint at h
  obtain ⟨timestamp, -, hp⟩ := Option.bind_eq_some_iff.1 h
  obtain rfl := Option.some.inj hp
  rfl

/-- No two rows have the same transaction hash. -/
def Database.DistinctHashes (db : Database) : Prop :=
  (db.feeDataPoints.map (·.transactionHash)).Nodup

theorem Database.DistinctHashes.fetchSince {db : Database} (h : db.DistinctHashes) (text : Rfc3339)
    (since : DateTime) : ((db.fetchSince text since).map (·.transactionHash)).Nodup := by
  unfold Database.fetchSince
  have hrows : (((db.feeDataPoints.filter fun row =>
      !(row.timestamp < text.toRfc3339 since)).insertionSort fun row row' =>
        row.timestamp ≤ row'.timestamp).map (·.transactionHash)).Nodup := by
    rw [((List.perm_insertionSort _ _).map _).nodup_iff]
    exact List.Nodup.sublist (List.filter_sublist.map _) h
  have hkeys : ∀ rows : List FeeRow, ((rows.filterMap (FeeRow.toPoint text)).map
      (·.transactionHash)).Sublist (rows.map (·.transactionHash)) := by
    intro rows
    induction rows with
    | nil => exact List.Sublist.slnil
    | cons row rows ih =>
      cases hpoint : row.toPoint text with
      | none =>
        rw [List.filterMap_cons_none hpoint, List.map_cons]
        exact ih.cons _
      | some p =>
        rw [List.filterMap_cons_some hpoint, List.map_cons, List.map_cons,
          FeeRow.transactionHash_of_toPoint hpoint]
        exact ih.cons_cons _
  exact hrows.sublist (hkeys _)

/-! ## Lives of the process -/

/-- A start: when the process comes up, the readings of its clock and the answers of the database.  The
instant a day before is in range. -/
structure Restart where
  createdAt : DateTime
  now : DateTime
  since : DateTime
  since_eq : DateTime.trySub now (hours 24) = .ok since
  processed : DateTime
  fetchError : Option SqlError
  alertEvents : Except SqlError (List AlertEvent)

/-- A tick, or the end of the process and its next start.  The process may end in a tick of which so
many writes have been made. -/
inductive LifeEvent where
  | tick (tick : PollTick)
  | crash (cut : Option (PollTick × ℕ)) (restart : Restart)

/-- The polling loop, and what the process makes anew at each start. -/
structure Lives where
  poller : Poller
  capacity : ℕ
  config : InsightsConfig

namespace Lives

variable (lives : Lives)

/-- The process starts on the tables that it finds. -/
def start (text : Rfc3339) (restart : Restart) (database : Database) : PollState :=
  let store := FeeHistoryStore.new lives.capacity
  let engine := FeeInsightsEngine.new lives.config restart.createdAt
  let rehydrated :=
    rehydrate text restart.now restart.processed restart.fetchError database store engine
  let memory := rehydrated.toOption.getD (store, engine)
  { store := memory.1
    engine := memory.2
    alerts :=
      match lives.poller.alertManager with
      | some manager => manager.rehydrateSeenSpikes text restart.alertEvents .new
      | none => .new
    metrics := { pollsTotal := 0, pollErrorsTotal := 0, feePointsStored := 0, currentAvgFee := 0,
                 spikesDetectedTotal := 0 }
    database }

/-- The tables that a crash leaves. -/
def crashed (text : Rfc3339) (s : PollState) : Option (PollTick × ℕ) → Database
  | none => s.database
  | some (tick, done) =>
    let points := lives.poller.newPoints s tick
    if points = [] then s.database else lives.poller.persistUpTo text tick points done s.database

def step (text : Rfc3339) (s : PollState) : LifeEvent → PollState × List PollEvent
  | .tick tick => lives.poller.pollOnce text s tick
  | .crash cut restart => (lives.start text restart (lives.crashed text s cut), [])

/-! ### The store -/

/-- What a start reads of the tables. -/
def readAtStart (text : Rfc3339) (restart : Restart) (database : Database) : List FeeDataPoint :=
  if restart.fetchError.isNone then database.fetchSince text restart.since else []

theorem start_store (text : Rfc3339) (restart : Restart) (database : Database) :
    (lives.start text restart database).store =
      (readAtStart text restart database).foldl FeeHistoryStore.push (.new lives.capacity) := by
  unfold start rehydrate readAtStart
  rw [restart.since_eq]
  cases restart.fetchError with
  | some err => rfl
  | none =>
    by_cases hempty : database.fetchSince text restart.since = []
    · simp [hempty, bind, Except.bind, pure, Except.pure, Except.toOption]
    · simp [hempty, bind, Except.bind, pure, Except.pure, Except.toOption]

@[simp] theorem start_database (text : Rfc3339) (restart : Restart) (database : Database) :
    (lives.start text restart database).database = database := rfl

/-- What the process has been given since it came up: what the start has read and the new points of
each tick, in the order of the pushes. -/
def given (text : Rfc3339) (s : PollState) (before : List FeeDataPoint) :
    List LifeEvent → List FeeDataPoint
  | [] => before
  | .tick tick :: events =>
    given text (lives.step text s (.tick tick)).1 (before ++ lives.poller.newPoints s tick) events
  | .crash cut restart :: events =>
    given text (lives.step text s (.crash cut restart)).1
      (readAtStart text restart (lives.crashed text s cut)) events

/-- The store holds the last points that the process has been given, as many as there is room for. -/
def Holds (s : PollState) (points : List FeeDataPoint) : Prop :=
  s.store.capacity = lives.capacity ∧ s.store.data = BoundedQueue.pushAll lives.capacity [] points

theorem holds_start (text : Rfc3339) (restart : Restart) (database : Database) :
    lives.Holds (lives.start text restart database) (readAtStart text restart database) := by
  unfold Holds
  rw [start_store, FeeHistoryStore.foldl_push_capacity, FeeHistoryStore.foldl_push_data]
  exact ⟨rfl, rfl⟩

theorem Holds.pollOnce {text : Rfc3339} {s : PollState} {points : List FeeDataPoint}
    (h : lives.Holds s points) (tick : PollTick) :
    lives.Holds (lives.poller.pollOnce text s tick).1
      (points ++ lives.poller.newPoints s tick) := by
  obtain ⟨hcapacity, hdata⟩ := h
  unfold Holds
  rw [lives.poller.pollOnce_store, FeeHistoryStore.foldl_push_capacity,
    FeeHistoryStore.foldl_push_data, hcapacity, hdata]
  refine ⟨rfl, ?_⟩
  unfold BoundedQueue.pushAll
  rw [List.foldl_append]

theorem store_eq (text : Rfc3339) {s : PollState} {before : List FeeDataPoint}
    (h : lives.Holds s before) (events : List LifeEvent) :
    lives.Holds (final (lives.step text) s events) (lives.given text s before events) := by
  induction events generalizing s before with
  | nil => exact h
  | cons event events ih =>
    cases event with
    | tick tick => exact ih (h.pollOnce lives tick)
    | crash cut restart => exact ih (lives.holds_start text restart _)

/-! ### Hashes -/

/-- The hashes differ in the store and in the table, and the store has not more points than there is
room for. -/
structure Sound (s : PollState) : Prop where
  capacity_eq : s.store.capacity = lives.capacity
  distinctHashes : s.store.DistinctHashes
  len_le : s.store.len ≤ lives.capacity
  rows : s.database.DistinctHashes

variable {lives} {text : Rfc3339}

theorem Sound.start (hpos : 0 < lives.capacity) {database : Database}
    (h : database.DistinctHashes) (restart : Restart) :
    lives.Sound (lives.start text restart database) := by
  obtain ⟨hcapacity, hdata⟩ := lives.holds_start text restart database
  have hread : ((readAtStart text restart database).map (·.transactionHash)).Nodup := by
    unfold readAtStart
    split_ifs
    · exact h.fetchSince text restart.since
    · exact List.nodup_nil
  refine ⟨hcapacity, ?_, ?_, h⟩
  · have hsuffix := BoundedQueue.pushAll_suffix lives.capacity [] (readAtStart text restart database)
    rw [List.nil_append] at hsuffix
    unfold FeeHistoryStore.DistinctHashes
    rw [hdata]
    exact hread.sublist (hsuffix.sublist.map _)
  · unfold FeeHistoryStore.len
    rw [hdata]
    exact BoundedQueue.length_pushAll_le _ (Nat.zero_le _) hpos _

theorem distinctHashes_filter {db db' : Database} (h : db.DistinctHashes) (keep : FeeRow → Bool)
    (hrows : db'.feeDataPoints = db.feeDataPoints.filter keep) : db'.DistinctHashes := by
  unfold Database.DistinctHashes
  rw [hrows]
  exact List.Nodup.sublist (List.filter_sublist.map _) h

theorem Database.DistinctHashes.inserted {db : Database} (h : db.DistinctHashes) (poller : Poller)
    (tick : PollTick) (points : List FeeDataPoint) :
    (poller.inserted text tick points db).DistinctHashes := by
  unfold Poller.inserted
  split_ifs
  · unfold Database.DistinctHashes
    rw [Database.insertFeePoints_feeDataPoints, List.map_append, List.map_map]
    exact FirstByKey.nodup_append_firstByKey _ h points
  · exact h

theorem Database.DistinctHashes.persistUpTo {db : Database} (h : db.DistinctHashes) (poller : Poller)
    (tick : PollTick) (points : List FeeDataPoint) (done : ℕ) :
    (poller.persistUpTo text tick points done db).DistinctHashes := by
  refine distinctHashes_filter ?_ _ (poller.persistUpTo_feeDataPoints text tick points done db)
  split_ifs
  · exact h
  · exact Database.DistinctHashes.inserted h poller tick points

theorem Sound.crashed {s : PollState} (h : lives.Sound s) (cut : Option (PollTick × ℕ)) :
    (lives.crashed text s cut).DistinctHashes := by
  cases cut with
  | none => exact h.rows
  | some writes =>
    unfold Lives.crashed
    dsimp only
    split_ifs
    · exact h.rows
    · exact Database.DistinctHashes.persistUpTo h.rows _ _ _ _

theorem Sound.pollOnce (hpos : 0 < lives.capacity) {s : PollState} (h : lives.Sound s)
    (tick : PollTick) : lives.Sound (lives.poller.pollOnce text s tick).1 := by
  have hstore := lives.poller.pollOnce_store text s tick
  refine ⟨?_, ?_, ?_, ?_⟩
  · rw [Poller.pollOnce_store_capacity]
    exact h.capacity_eq
  · rw [hstore]
    exact h.distinctHashes.pushNew _
  · unfold FeeHistoryStore.len
    rw [hstore, FeeHistoryStore.foldl_push_data, h.capacity_eq]
    exact BoundedQueue.length_pushAll_le _ h.len_le hpos _
  · rw [Poller.pollOnce_database]
    split_ifs
    · exact h.rows
    · rw [Poller.persist_eq_persistUpTo]
      exact Database.DistinctHashes.persistUpTo h.rows _ _ _ _

theorem Sound.step (hpos : 0 < lives.capacity) {s : PollState} (h : lives.Sound s)
    (event : LifeEvent) : lives.Sound (lives.step text s event).1 := by
  cases event with
  | tick tick => exact h.pollOnce hpos tick
  | crash cut restart => exact Sound.start hpos (h.crashed cut) restart

end Lives

/-! ## The fixtures of the lives -/

/-- A start that reads the table. -/
def restartReading : Restart where
  createdAt := seconds 1736851620
  now := seconds 1736851620
  since := seconds 1736765220
  since_eq := by decide
  processed := seconds 1736851620
  fetchError := none
  alertEvents := .ok []

/-- A process with a repository and room for ten points. -/
def storingLives : Lives where
  poller := storingPoller
  capacity := 10
  config := .default

def noTables : Database where
  feeDataPoints := []
  recommendations := []
  alertEvents := []

end StellarFeeTracker
