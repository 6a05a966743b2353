import StellarFeeTracker.Scheduler

/-!
# What one tick of the poller does

A tick is decided by its new points: those it fetches whose hash is neither in the store nor that of
an earlier point of the batch.  Without new points a tick changes nothing but the metrics; with new
points it pushes them, runs the insights engine on them and hands them to the database, and each
part of the state is touched by one of these steps only (`pollOnce_cases`).
-/

namespace StellarFeeTracker

open FirstByKey

/-! ## New points -/

namespace FeeHistoryStore

variable (store : FeeHistoryStore)

theorem dropKnown_eq (points : List FeeDataPoint) :
    store.dropKnown points = firstByKey (·.transactionHash) ∅
      (points.filter fun p => (store.getByHash p.transactionHash).isNone) := by
  rw [dropKnown, ← List.foldl_filter, foldl_insertNew, List.nil_append, List.map_id]

theorem mem_dropKnown {points : List FeeDataPoint} {p : FeeDataPoint}
    (h : p ∈ store.dropKnown points) : p ∈ points ∧ (store.getByHash p.transactionHash).isNone := by
  rw [dropKnown_eq] at h
  exact List.mem_filter.1 ((firstByKey_sublist _ _ _).subset h)

theorem nodup_dropKnown (points : List FeeDataPoint) :
    ((store.dropKnown points).map (·.transactionHash)).Nodup := by
  rw [dropKnown_eq]
  exact nodup_map_firstByKey _ _ _

/-- A hash is new when a point of the batch has it and none of the store. -/
theorem mem_map_dropKnown_iff {points : List FeeDataPoint} {hash : String} :
    hash ∈ (store.dropKnown points).map (·.transactionHash) ↔
      hash ∈ points.map (·.transactionHash) ∧ (store.getByHash hash).isNone := by
  rw [dropKnown_eq, mem_map_firstByKey_iff]
  simp only [Finset.notMem_empty, not_false_eq_true, true_and, List.mem_map, List.mem_filter]
  constructor
  · rintro ⟨p, ⟨hp, hnone⟩, rfl⟩
    exact ⟨⟨p, hp, rfl⟩, hnone⟩
  · rintro ⟨⟨p, hp, rfl⟩, hnone⟩
    exact ⟨p, ⟨hp, hnone⟩, rfl⟩

theorem notMem_data_of_mem_dropKnown {points : List FeeDataPoint} {p : FeeDataPoint}
    (h : p ∈ store.dropKnown points) : p ∉ store.data := by
  intro hp
  have hnone := (store.getByHash_isNone_iff _).1 (store.mem_dropKnown h).2
  exact hnone (List.mem_map_of_mem hp)

end FeeHistoryStore

/-! ## The steps of a tick -/

namespace Poller

variable (poller : Poller)

/-- The points that a tick fetches, none when the fetch fails. -/
def fetched (tick : PollTick) : List FeeDataPoint :=
  (fetchWithRetry tick.fetchLatestFees tick.random poller.baseRetryDelayMs
    poller.maxRetryAttempts).points.getD []

/-- The fetched points that are new to the store. -/
def newPoints (s : PollState) (tick : PollTick) : List FeeDataPoint :=
  s.store.dropKnown (poller.fetched tick)

theorem updateMetrics_eq (f : AppMetrics → AppMetrics) (s : PollState) :
    ∃ metrics, poller.updateMetrics f s = { s with metrics } := by
  unfold updateMetrics
  split_ifs
  · exact ⟨_, rfl⟩
  · exact ⟨s.metrics, rfl⟩

theorem pushPoints_eq (points : List FeeDataPoint) (s : PollState) :
    ∃ metrics, poller.pushPoints points s =
      { s with store := points.foldl FeeHistoryStore.push s.store, metrics } := by
  obtain ⟨metrics, h⟩ := poller.updateMetrics_eq
    (fun m => { m with feePointsStored := (points.foldl FeeHistoryStore.push s.store).len })
    { s with store := points.foldl FeeHistoryStore.push s.store }
  exact ⟨metrics, h⟩

/-- What the alert manager does with the outcome of the insights engine. -/
def checkProcessed (s : PollState) (tick : PollTick) (points : List FeeDataPoint) :
    AlertState × List Delivery :=
  match (s.engine.processFeeData tick.now points).2, poller.alertManager with
  | .ok update, some manager =>
    manager.checkAndDispatch s.alerts
      { update, listAlertConfigs := tick.listAlertConfigs, now := tick.now }
  | _, _ => (s.alerts, [])

theorem runInsights_eq (tick : PollTick) (points : List FeeDataPoint) (s : PollState) :
    ∃ metrics, poller.runInsights tick points s =
      ({ s with
          engine := (s.engine.processFeeData tick.now points).1
          alerts := (poller.checkProcessed s tick points).1
          metrics },
        (poller.checkProcessed s tick points).2) := by
  unfold runInsights checkProcessed
  rcases hprocessed : (s.engine.processFeeData tick.now points).2 with err | update
  · exact ⟨s.metrics, by simp [hprocessed]⟩
  · obtain ⟨metrics, hmetrics⟩ := poller.updateMetrics_eq (fun m =>
      { m with
        currentAvgFee := update.insights.rollingAverages.shortTerm.value
        spikesDetectedTotal := m.spikesDetectedTotal + update.recentSpikes.length })
      { s with engine := (s.engine.processFeeData tick.now points).1 }
    refine ⟨metrics, ?_⟩
    cases hmanager : poller.alertManager with
    | none => simp [hprocessed, hmetrics]
    | some manager => simp [hprocessed, hmetrics]

/-- A tick without new points changes the metrics only; a tick with new points ingests them. -/
theorem pollOnce_cases (text : Rfc3339) (s : PollState) (tick : PollTick) :
    (poller.newPoints s tick = [] ∧
      ∃ metrics, poller.pollOnce text s tick = ({ s with metrics }, [])) ∨
    (poller.newPoints s tick ≠ [] ∧ ∃ metrics,
      let points := poller.newPoints s tick
      let checked := poller.checkProcessed s tick points
      let persisted := poller.persist text tick points s.database
      poller.pollOnce text s tick =
        ({ store := points.foldl FeeHistoryStore.push s.store
           engine := (s.engine.processFeeData tick.now points).1
           alerts := checked.1
           metrics
           database := persisted.1 },
          checked.2.map .sent ++ persisted.2.toList.map .panicked)) := by
  obtain ⟨metrics, hmetrics⟩ := poller.updateMetrics_eq
    (fun m => { m with pollsTotal := m.pollsTotal + 1 }) s
  unfold newPoints fetched pollOnce
  rcases hfetch : (fetchWithRetry tick.fetchLatestFees tick.random poller.baseRetryDelayMs
    poller.maxRetryAttempts).points with _ | points
  · refine Or.inl ⟨rfl, ?_⟩
    obtain ⟨metrics', h⟩ := poller.updateMetrics_eq
      (fun m => { m with pollErrorsTotal := m.pollErrorsTotal + 1 }) { s with metrics }
    exact ⟨metrics', by simp only [hfetch, hmetrics, h]⟩
  · by_cases hpoints : points = []
    · refine Or.inl ⟨?_, metrics, by simp [hfetch, hpoints, hmetrics]⟩
      rw [hpoints]
      rfl
    by_cases hnew : s.store.dropKnown points = []
    · exact Or.inl ⟨hnew, metrics, by simp [hfetch, hnew, hmetrics]⟩
    · refine Or.inr ⟨hnew, ?_⟩
      obtain ⟨metrics₁, hpush⟩ := poller.pushPoints_eq (s.store.dropKnown points) { s with metrics }
      obtain ⟨metrics₂, hinsights⟩ := poller.runInsights_eq tick (s.store.dropKnown points)
        { s with
          store := (s.store.dropKnown points).foldl FeeHistoryStore.push s.store
          metrics := metrics₁ }
      refine ⟨metrics₂, ?_⟩
      simp only [hfetch, Option.getD_some, List.isEmpty_iff, hpoints, hnew, if_false, hmetrics, hpush,
        hinsights]
      rfl

/-! ## The parts of the state -/

/-- A tick pushes its new points. -/
theorem pollOnce_store (text : Rfc3339) (s : PollState) (tick : PollTick) :
    (poller.pollOnce text s tick).1.store =
      (poller.newPoints s tick).foldl FeeHistoryStore.push s.store := by
  rcases poller.pollOnce_cases text s tick with ⟨hnil, metrics, h⟩ | ⟨-, metrics, h⟩
  · rw [h, hnil]
    rfl
  · rw [h]

theorem pollOnce_engine (text : Rfc3339) (s : PollState) (tick : PollTick) :
    (poller.pollOnce text s tick).1.engine =
      if poller.newPoints s tick = [] then s.engine
      else (s.engine.processFeeData tick.now (poller.newPoints s tick)).1 := by
  rcases poller.pollOnce_cases text s tick with ⟨hnil, metrics, h⟩ | ⟨hne, metrics, h⟩
  · rw [h, if_pos hnil]
  · rw [h, if_neg hne]

theorem pollOnce_database (text : Rfc3339) (s : PollState) (tick : PollTick) :
    (poller.pollOnce text s tick).1.database =
      if poller.newPoints s tick = [] then s.database
      else (poller.persist text tick (poller.newPoints s tick) s.database).1 := by
  rcases poller.pollOnce_cases text s tick with ⟨hnil, metrics, h⟩ | ⟨hne, metrics, h⟩
  · rw [h, if_pos hnil]
  · rw [h, if_neg hne]

end Poller

/-! ## The fixtures of the polling tests -/

/-- A point with this hash. -/
def pointWithHash (hash : String) : FeeDataPoint where
  feeAmount := 100
  timestamp := seconds 1736851500
  transactionHash := hash
  ledgerSequence := 1

/-- A point so many seconds later. -/
def pointAt (hash : String) (second : ℤ) : FeeDataPoint :=
  { pointWithHash hash with timestamp := seconds (1736851500 + second) }

/-- A tick whose first fetch succeeds, with a database that accepts everything. -/
def tickFetching (points : List FeeDataPoint) : PollTick where
  fetchLatestFees _ := .ok points
  random _ := 0
  now := seconds 1736851620
  listAlertConfigs := .ok []
  insertError := none
  pruneError := none
  pruneRecommendationsError := none
  pruneAlertEventsError := none

/-- A poller without repository, metrics and alerts. -/
def barePoller : Poller where
  maxRetryAttempts := 3
  baseRetryDelayMs := 1000
  hasRepository := false
  storageRetentionDays := 7
  hasMetrics := false
  alertManager := none

/-- A poller with a repository. -/
def storingPoller : Poller := { barePoller with hasRepository := true }

/-- The text conversions at the instants that the database sees: the times of the points, that of the
ticks and the cutoff seven days before it. -/
def pollText : Rfc3339 where
  toRfc3339 t :=
    if t = seconds 1736851500 then "2025-01-14T10:45:00+00:00"
    else if t = seconds 1736851620 then "2025-01-14T10:47:00+00:00"
    else "2025-01-07T10:47:00+00:00"
  parseFromRfc3339 text :=
    if text = "2025-01-14T10:45:00+00:00" then some (seconds 1736851500)
    else if text = "2025-01-14T10:47:00+00:00" then some (seconds 1736851620)
    else if text = "2025-01-07T10:47:00+00:00" then some (seconds 1736246820)
    else none

/-- The state of a poller that starts with these points in its store. -/
def startWith (points : List FeeDataPoint) (capacity : ℕ) : PollState where
  store := { data := points, capacity }
  engine := .new .default (seconds 1736851500)
  alerts := .new
  metrics := { pollsTotal := 0, pollErrorsTotal := 0, feePointsStored := 0, currentAvgFee := 0,
               spikesDetectedTotal := 0 }
  database := { feeDataPoints := [], recommendations := [], alertEvents := [] }

end StellarFeeTracker
