import StellarFeeTracker.Scheduler
import StellarFeeTracker.Services.FeeStats

/-!
# Polling of the fee statistics

`pollFeeStatsOnce` is one tick of the second polling loop: it fetches the fee statistics of Horizon,
keeps one row for each ledger and prunes what is older than the retention window.
-/

namespace StellarFeeTracker

/-! ## Fetching with retries -/

/-- A run of `fetch_fee_stats_with_retry`: its result, the number of calls and the backoffs slept. -/
structure FeeStatsFetch where
  snapshot : Option FeeStatsSnapshot
  calls : ℕ
  backoffs : List ℕ
  deriving DecidableEq, Repr

section Fetch

variable (fetchFeeStatsFull : ℕ → Except AppError FeeStatsResponse) (now : ℕ → DateTime)
  (random : ℕ → ℕ) (baseDelayMs : ℕ)

/-- The rest of `fetch_fee_stats_with_retry` from an attempt on, with so many attempts left. -/
def fetchFeeStatsFrom (attempt : ℕ) : ℕ → FeeStatsFetch
  | 0 => { snapshot := none, calls := 0, backoffs := [] }
  | left + 1 =>
    match fetchFeeStatsFull attempt with
    | .ok response =>
      match FeeStatsSnapshot.tryFrom (now attempt) response with
      | .ok snapshot => { snapshot := some snapshot, calls := 1, backoffs := [] }
      | .error _ => { snapshot := none, calls := 1, backoffs := [] }
    | .error (.parse _) => { snapshot := none, calls := 1, backoffs := [] }
    | .error _ =>
      let rest := fetchFeeStatsFrom (attempt + 1) left
      { snapshot := rest.snapshot
        calls := rest.calls + 1
        backoffs := backoffMs baseDelayMs attempt (random attempt) :: rest.backoffs }

/-- Attempt to fetch and convert a snapshot, retrying on all errors but parse errors. -/
def fetchFeeStatsWithRetry (maxAttempts : ℕ) : FeeStatsFetch :=
  fetchFeeStatsFrom fetchFeeStatsFull now random baseDelayMs 0 maxAttempts

end Fetch

/-! ## The table of snapshots -/

/-- A stored snapshot; the ledger is unique in its table. -/
structure FeeSnapshotRow where
  ledger : ℤ
  baseFee : ℤ
  minFeeCharged : ℤ
  maxFeeCharged : ℤ
  modeFeeCharged : ℤ
  meanFeeCharged : FloatLiteral
  medianFeeCharged : ℤ
  p10FeeCharged : ℤ
  p95FeeCharged : ℤ
  p99FeeCharged : ℤ
  maxFee : ℤ
  ledgerCapacityUsage : Option FloatLiteral
  capturedAt : String
  deriving DecidableEq, Repr

/-- The row that stores a snapshot. -/
def FeeSnapshotRow.ofSnapshot (text : Rfc3339) (snapshot : FeeStatsSnapshot) : FeeSnapshotRow where
  ledger := asI64 snapshot.ledger
  baseFee := asI64 snapshot.baseFee
  minFeeCharged := asI64 snapshot.minFeeCharged
  maxFeeCharged := asI64 snapshot.maxFeeCharged
  modeFeeCharged := asI64 snapshot.modeFeeCharged
  meanFeeCharged := snapshot.meanFeeCharged
  medianFeeCharged := asI64 snapshot.medianFeeCharged
  p10FeeCharged := asI64 snapshot.p10FeeCharged
  p95FeeCharged := asI64 snapshot.p95FeeCharged
  p99FeeCharged := asI64 snapshot.p99FeeCharged
  maxFee := asI64 snapshot.maxFee
  ledgerCapacityUsage := snapshot.ledgerCapacityUsage
  capturedAt := text.toRfc3339 snapshot.timestamp

/-- `upsert_fee_snapshot`: the row of the ledger is replaced, or a new one is inserted. -/
def upsertFeeSnapshot (text : Rfc3339) (snapshot : FeeStatsSnapshot)
    (rows : List FeeSnapshotRow) : List FeeSnapshotRow :=
  let row := FeeSnapshotRow.ofSnapshot text snapshot
  if rows.any fun old => old.ledger == row.ledger then
    rows.map fun old => if old.ledger == row.ledger then row else old
  else rows ++ [row]

/-- `prune_fee_snapshots_older_than`. -/
def pruneFeeSnapshotsOlderThan (text : Rfc3339) (cutoff : DateTime) (rows : List FeeSnapshotRow) :
    List FeeSnapshotRow :=
  rows.filter fun row => !(row.capturedAt < text.toRfc3339 cutoff)

/-! ## One tick -/

/-- What the second polling loop changes: two metrics and the table of snapshots. -/
structure FeeStatsState where
  pollsTotal : ℕ
  pollErrorsTotal : ℕ
  feeStatsSnapshots : List FeeSnapshotRow
  deriving DecidableEq, Repr

/-- What a tick reads: the outcome of each fetch, the clock at each fetch and at the pruning, the
random numbers and the answers of the database. -/
structure FeeStatsTick where
  fetchFeeStatsFull : ℕ → Except AppError FeeStatsResponse
  fetchedAt : ℕ → DateTime
  random : ℕ → ℕ
  now : DateTime
  upsertError : Option SqlError
  pruneError : Option SqlError

namespace Poller

variable (poller : Poller)

/-- Persist the snapshot and prune what is older than the retention window. -/
def persistSnapshot (text : Rfc3339) (tick : FeeStatsTick) (snapshot : FeeStatsSnapshot)
    (rows : List FeeSnapshotRow) : List FeeSnapshotRow × Option Panic :=
  if poller.hasRepository then
    let rows := if tick.upsertError.isNone then upsertFeeSnapshot text snapshot rows else rows
    match poller.retentionCutoff tick.now with
    | .error panic => (rows, some panic)
    | .ok cutoff =>
      (if tick.pruneError.isNone then pruneFeeSnapshotsOlderThan text cutoff rows else rows, none)
  else (rows, none)

/-- Execute a single poll cycle of the fee statistics. -/
def pollFeeStatsOnce (text : Rfc3339) (s : FeeStatsState) (tick : FeeStatsTick) :
    FeeStatsState × Option Panic :=
  let s := if poller.hasMetrics then { s with pollsTotal := s.pollsTotal + 1 } else s
  let fetched := fetchFeeStatsWithRetry tick.fetchFeeStatsFull tick.fetchedAt tick.random
    poller.baseRetryDelayMs poller.maxRetryAttempts
  match fetched.snapshot with
  | none =>
    (if poller.hasMetrics then { s with pollErrorsTotal := s.pollErrorsTotal + 1 } else s, none)
  | some snapshot =>
    let persisted := poller.persistSnapshot text tick snapshot s.feeStatsSnapshots
    ({ s with feeStatsSnapshots := persisted.1 }, persisted.2)

end Poller

end StellarFeeTracker
