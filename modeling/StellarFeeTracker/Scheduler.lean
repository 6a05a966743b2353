import StellarFeeTracker.Alerts.Manager
import StellarFeeTracker.General.FirstByKey
import StellarFeeTracker.Insights.Engine
import StellarFeeTracker.Store

/-!
# Fee polling scheduler

`pollOnce` is one tick of the polling loop: it fetches fee data from the provider, pushes what is
new into the history store, runs the insights engine, lets the alert manager check the update and
persists the new points.  A tick reads the clock once.
-/

namespace StellarFeeTracker

open FirstByKey

/-! ## Fetching with retries -/

/-- The longest backoff of `fetch_with_retry`. -/
def maxDelayMs : ℕ := 30000

/-- The backoff after a failed attempt, from the random number drawn for the jitter. -/
def backoffMs (baseDelayMs attempt random : ℕ) : ℕ :=
  let factor := if attempt < 64 then 2 ^ attempt else u64Max
  let exponential := min (baseDelayMs * factor) u64Max
  let jitter := random % max baseDelayMs 1
  min (min (exponential + jitter) u64Max) maxDelayMs

/-- A run of `fetch_with_retry`: its result, the number of calls and the backoffs slept. -/
structure FetchRun where
  points : Option (List FeeDataPoint)
  calls : ℕ
  backoffs : List ℕ
  deriving DecidableEq, Repr

section Fetch

variable (fetchLatestFees : ℕ → Except ProviderError (List FeeDataPoint)) (random : ℕ → ℕ)
  (baseDelayMs : ℕ)

/-- The rest of `fetch_with_retry` from an attempt on, with so many attempts left. -/
def fetchFrom (attempt : ℕ) : ℕ → FetchRun
  | 0 => { points := none, calls := 0, backoffs := [] }
  | left + 1 =>
    match fetchLatestFees attempt with
    | .ok points => { points := some points, calls := 1, backoffs := [] }
    | .error (.formatError _) => { points := none, calls := 1, backoffs := [] }
    | .error _ =>
      let rest := fetchFrom (attempt + 1) left
      { points := rest.points
        calls := rest.calls + 1
        backoffs := backoffMs baseDelayMs attempt (random attempt) :: rest.backoffs }

/-- Attempt to fetch fee data, retrying on all errors but format errors. -/
def fetchWithRetry (maxAttempts : ℕ) : FetchRun :=
  fetchFrom fetchLatestFees random baseDelayMs 0 maxAttempts

end Fetch

/-! ## The state of the poller -/

/-- The metrics that the poller writes. -/
structure AppMetrics where
  pollsTotal : ℕ
  pollErrorsTotal : ℕ
  feePointsStored : ℕ
  currentAvgFee : ℚ
  spikesDetectedTotal : ℕ
  deriving DecidableEq, Repr

/-- What the polling loop is started with. -/
structure Poller where
  maxRetryAttempts : ℕ
  baseRetryDelayMs : ℕ
  hasRepository : Bool
  storageRetentionDays : ℕ
  hasMetrics : Bool
  alertManager : Option AlertManager

/-- What the ticks of the polling loop share. -/
structure PollState where
  store : FeeHistoryStore
  engine : FeeInsightsEngine
  alerts : AlertState
  metrics : AppMetrics
  database : Database

/-- What a tick reads: the outcome of each fetch, the random numbers, the clock and the answers of
the database. -/
structure PollTick where
  fetchLatestFees : ℕ → Except ProviderError (List FeeDataPoint)
  random : ℕ → ℕ
  now : DateTime
  listAlertConfigs : Except SqlError (List AlertConfig)
  insertError : Option SqlError
  pruneError : Option SqlError
  pruneRecommendationsError : Option SqlError
  pruneAlertEventsError : Option SqlError

/-- What a tick does outside its own state. -/
inductive PollEvent where
  | sent (delivery : Delivery)
  | panicked (panic : Panic)

namespace FeeHistoryStore

/-- Drop the points whose hash is in the store or occurred earlier in the batch. -/
def dropKnown (store : FeeHistoryStore) (points : List FeeDataPoint) : List FeeDataPoint :=
  (points.foldl (fun acc p =>
    if (store.getByHash p.transactionHash).isNone then insertNew (·.transactionHash) id acc p
    else acc) (∅, [])).2

end FeeHistoryStore

namespace Poller

variable (poller : Poller)

/-- Change the metrics, if there are any. -/
def updateMetrics (f : AppMetrics → AppMetrics) (s : PollState) : PollState :=
  if poller.hasMetrics then { s with metrics := f s.metrics } else s

/-- Push the points into the in-memory store. -/
def pushPoints (points : List FeeDataPoint) (s : PollState) : PollState :=
  let store := points.foldl FeeHistoryStore.push s.store
  poller.updateMetrics (fun m => { m with feePointsStored := store.len }) { s with store }

/-- Run the insights engine and let the alert manager check its update. -/
def runInsights (tick : PollTick) (points : List FeeDataPoint) (s : PollState) :
    PollState × List Delivery :=
  let processed := s.engine.processFeeData tick.now points
  let s := { s with engine := processed.1 }
  match processed.2 with
  | .error _ => (s, [])
  | .ok update =>
    let s := poller.updateMetrics (fun m =>
      { m with
        currentAvgFee := update.insights.rollingAverages.shortTerm.value
        spikesDetectedTotal := m.spikesDetectedTotal + update.recentSpikes.length }) s
    match poller.alertManager with
    | none => (s, [])
    | some manager =>
      let checked := manager.checkAndDispatch s.alerts
        { update, listAlertConfigs := tick.listAlertConfigs, now := tick.now }
      ({ s with alerts := checked.1 }, checked.2)

/-- The cutoff of the retention window. -/
def retentionCutoff (now : DateTime) : Except Panic DateTime := do
  DateTime.trySub now (← tryDays (asI64 poller.storageRetentionDays))

/-- Persist the points and prune what is older than the retention window.  A database error leaves
the tables as they are. -/
def persist (text : Rfc3339) (tick : PollTick) (points : List FeeDataPoint) (db : Database) :
    Database × Option Panic :=
  if poller.hasRepository then
    let db := if tick.insertError.isNone then db.insertFeePoints text points else db
    match poller.retentionCutoff tick.now with
    | .error panic => (db, some panic)
    | .ok cutoff =>
      let db := if tick.pruneError.isNone then db.pruneOlderThan text cutoff else db
      let db :=
        if tick.pruneRecommendationsError.isNone then db.pruneRecommendationsOlderThan text cutoff
        else db
      let db :=
        if tick.pruneAlertEventsError.isNone then db.pruneAlertEventsOlderThan text cutoff else db
      (db, none)
  else (db, none)

/-- Execute a single poll cycle with retry and optional persistence. -/
def pollOnce (text : Rfc3339) (s : PollState) (tick : PollTick) : PollState × List PollEvent :=
  let s := poller.updateMetrics (fun m => { m with pollsTotal := m.pollsTotal + 1 }) s
  let fetched := fetchWithRetry tick.fetchLatestFees tick.random poller.baseRetryDelayMs
    poller.maxRetryAttempts
  match fetched.points with
  | none =>
    (poller.updateMetrics (fun m => { m with pollErrorsTotal := m.pollErrorsTotal + 1 }) s, [])
  | some points =>
    if points.isEmpty then (s, [])
    else
      let points := s.store.dropKnown points
      if points.isEmpty then (s, [])
      else
        let insights := poller.runInsights tick points (poller.pushPoints points s)
        let persisted := poller.persist text tick points insights.1.database
        ({ insights.1 with database := persisted.1 },
          insights.2.map .sent ++ persisted.2.toList.map .panicked)

end Poller

end StellarFeeTracker
