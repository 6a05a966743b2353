import StellarFeeTracker.General.FirstByKey
import StellarFeeTracker.Insights.Types
import Mathlib.Data.List.Sort

/-!
# Rows of the database

The tables the modelled code reads and writes, with the columns it uses, and the queries it makes
on them.
-/

namespace StellarFeeTracker

open FirstByKey

/-- An error of the database layer. -/
inductive SqlError where
  | failed (message : String)
  deriving DecidableEq, Repr

/-- A single alert webhook configuration row. -/
structure AlertConfig where
  id : ℤ
  webhookUrl : String
  threshold : String
  alertType : String
  enabled : Bool
  createdAt : String
  deriving DecidableEq, Repr

/-- A single fired-alert log entry. -/
structure AlertEvent where
  id : Option ℤ
  configId : Option ℤ
  alertType : String
  severity : String
  peakFee : ℤ
  baselineFee : ℚ
  spikeRatio : ℚ
  webhookUrl : String
  delivered : Bool
  triggeredAt : String
  correlationId : Option String
  deriving DecidableEq, Repr

/-- A stored fee data point; the hash is unique in its table. -/
structure FeeRow where
  feeAmount : ℤ
  timestamp : String
  transactionHash : String
  ledgerSequence : ℤ
  deriving DecidableEq, Repr

/-- The row that stores a point. -/
def FeeRow.ofPoint (text : Rfc3339) (point : FeeDataPoint) : FeeRow where
  feeAmount := asI64 point.feeAmount
  timestamp := text.toRfc3339 point.timestamp
  transactionHash := point.transactionHash
  ledgerSequence := asI64 point.ledgerSequence

/-- The point that a row stores, when its timestamp can be read. -/
def FeeRow.toPoint (text : Rfc3339) (row : FeeRow) : Option FeeDataPoint := do
  let timestamp ← text.parseFromRfc3339 row.timestamp
  return {
    feeAmount := u64OfI64 row.feeAmount
    timestamp
    transactionHash := row.transactionHash
    ledgerSequence := u64OfI64 row.ledgerSequence }

/-- A persisted fee recommendation. -/
structure Recommendation where
  id : Option ℤ
  recommendedFee : ℤ
  confidence : ℚ
  targetLedgers : ℤ
  networkCondition : String
  percentileBasis : String
  inputConfidence : ℚ
  inputLedgers : ℤ
  sampleCount : ℤ
  computedAt : String
  deriving DecidableEq, Repr

/-- The tables of the database. -/
structure Database where
  feeDataPoints : List FeeRow
  recommendations : List Recommendation
  alertEvents : List AlertEvent
  deriving DecidableEq, Repr

namespace Database

variable (db : Database)

/-- `INSERT OR IGNORE` of one fee data point. -/
def insertFeePoint (text : Rfc3339) (point : FeeDataPoint) : Database :=
  if db.feeDataPoints.any fun row => row.transactionHash == point.transactionHash then db
  else
    { db with
      feeDataPoints := db.feeDataPoints ++ [{
        feeAmount := asI64 point.feeAmount
        timestamp := text.toRfc3339 point.timestamp
        transactionHash := point.transactionHash
        ledgerSequence := asI64 point.ledgerSequence }] }

/-- `insert_fee_points`, when its transaction commits. -/
def insertFeePoints (text : Rfc3339) (points : List FeeDataPoint) : Database :=
  points.foldl (fun db point => db.insertFeePoint text point) db

/-- `fetch_since`: the points whose timestamp is not before an instant, in the order of the texts. -/
def fetchSince (text : Rfc3339) (since : DateTime) : List FeeDataPoint :=
  let rows := db.feeDataPoints.filter fun row => !(row.timestamp < text.toRfc3339 since)
  (rows.insertionSort fun row row' => row.timestamp ≤ row'.timestamp).filterMap
    (FeeRow.toPoint text)

/-- `prune_older_than`. -/
def pruneOlderThan (text : Rfc3339) (cutoff : DateTime) : Database :=
  { db with
    feeDataPoints := db.feeDataPoints.filter fun row => !(row.timestamp < text.toRfc3339 cutoff) }

/-- `prune_recommendations_older_than`. -/
def pruneRecommendationsOlderThan (text : Rfc3339) (cutoff : DateTime) : Database :=
  { db with
    recommendations := db.recommendations.filter fun r => !(r.computedAt < text.toRfc3339 cutoff) }

/-- `prune_alert_events_older_than`. -/
def pruneAlertEventsOlderThan (text : Rfc3339) (cutoff : DateTime) : Database :=
  { db with
    alertEvents := db.alertEvents.filter fun e => !(e.triggeredAt < text.toRfc3339 cutoff) }

/-! ### Rows of fee data points -/

/-- The table has a row with this hash. -/
def HasPoint (hash : String) : Prop := ∃ row ∈ db.feeDataPoints, row.transactionHash = hash

instance (hash : String) : Decidable (db.HasPoint hash) :=
  inferInstanceAs (Decidable (∃ row ∈ db.feeDataPoints, row.transactionHash = hash))

/-- The points of a batch that get a row: those whose hash is new. -/
def insertedPoints (points : List FeeDataPoint) : List FeeDataPoint :=
  firstByKey (·.transactionHash) (db.feeDataPoints.map (·.transactionHash)).toFinset points

theorem insertFeePoint_feeDataPoints (text : Rfc3339) (point : FeeDataPoint) :
    (db.insertFeePoint text point).feeDataPoints =
      if db.HasPoint point.transactionHash then db.feeDataPoints
      else db.feeDataPoints ++ [FeeRow.ofPoint text point] := by
  have hany : (db.feeDataPoints.any fun row => row.transactionHash == point.transactionHash) = true ↔
      db.HasPoint point.transactionHash := by
    simp [HasPoint]
  unfold insertFeePoint
  by_cases h : db.HasPoint point.transactionHash
  · rw [if_pos (hany.2 h), if_pos h]
  · rw [if_neg (hany.not.2 h), if_neg h]
    rfl

/-- The rows after an insert are those before and one for each point whose hash was new. -/
theorem insertFeePoints_feeDataPoints (text : Rfc3339) (points : List FeeDataPoint) :
    (db.insertFeePoints text points).feeDataPoints =
      db.feeDataPoints ++ (db.insertedPoints points).map (FeeRow.ofPoint text) := by
  unfold insertFeePoints insertedPoints
  induction points generalizing db with
  | nil => simp
  | cons p points ih =>
    have hrow := db.insertFeePoint_feeDataPoints text p
    rw [List.foldl_cons, ih, hrow]
    by_cases h : db.HasPoint p.transactionHash
    · have hmem : p.transactionHash ∈ (db.feeDataPoints.map (·.transactionHash)).toFinset := by
        simpa [HasPoint] using h
      rw [if_pos h, firstByKey_cons_of_mem _ hmem]
    · have hmem : p.transactionHash ∉ (db.feeDataPoints.map (·.transactionHash)).toFinset := by
        simpa [HasPoint] using h
      have hseen : ((db.feeDataPoints ++ [FeeRow.ofPoint text p]).map (·.transactionHash)).toFinset =
          insert p.transactionHash (db.feeDataPoints.map (·.transactionHash)).toFinset := by
        ext hash
        rw [List.mem_toFinset, Finset.mem_insert, List.mem_toFinset, List.map_append,
          List.mem_append, or_comm, List.map_singleton, List.mem_singleton]
        rfl
      rw [if_neg h, firstByKey_cons_of_notMem _ hmem, hseen, List.map_cons, List.append_assoc,
        List.singleton_append]

theorem mem_insertedPoints_iff {points : List FeeDataPoint}
    (hnodup : (points.map (·.transactionHash)).Nodup) {p : FeeDataPoint} :
    p ∈ db.insertedPoints points ↔ p ∈ points ∧ ¬ db.HasPoint p.transactionHash := by
  rw [insertedPoints, firstByKey_eq_filter _ hnodup, List.mem_filter]
  simp [HasPoint]

/-- After an insert a hash is in the table when it was there or one of the points has it. -/
theorem hasPoint_insertFeePoints_iff (text : Rfc3339) (points : List FeeDataPoint) (hash : String) :
    (db.insertFeePoints text points).HasPoint hash ↔
      db.HasPoint hash ∨ hash ∈ points.map (·.transactionHash) := by
  have hinserted := mem_map_firstByKey_iff (·.transactionHash)
    (db.feeDataPoints.map (·.transactionHash)).toFinset points hash
  have hrows : (db.insertFeePoints text points).HasPoint hash ↔
      db.HasPoint hash ∨ hash ∈ (db.insertedPoints points).map (·.transactionHash) := by
    unfold HasPoint
    rw [insertFeePoints_feeDataPoints]
    simp only [List.mem_append, List.mem_map, or_and_right, exists_or, exists_exists_and_eq_and]
    rfl
  rw [hrows, insertedPoints, hinserted]
  by_cases h : db.HasPoint hash
  · simp [h]
  · have hnot : hash ∉ (db.feeDataPoints.map (·.transactionHash)).toFinset := by
      simpa [HasPoint] using h
    simp [h, hnot]

end Database

/-! ## Alert configs -/

/-- Accepted values of the threshold of an alert config. -/
def validThresholds : List String := ["Minor", "Moderate", "Major", "Critical"]

/-- Accepted values of the alert type of an alert config. -/
def validAlertTypes : List String := ["spike", "recovery", "good_window", "stale_data"]

/-- `insert_alert_config_typed`, with the id and the time that the database gives the row. -/
def insertAlertConfigTyped (id : ℤ) (createdAt webhookUrl threshold alertType : String)
    (configs : List AlertConfig) : List AlertConfig :=
  configs ++ [{ id, webhookUrl, threshold, alertType, enabled := true, createdAt }]

/-- `update_alert_config_full`: the table and whether a row was updated. -/
def updateAlertConfigFull (id : ℤ) (threshold : String) (enabled : Bool) (alertType : String)
    (configs : List AlertConfig) : List AlertConfig × Bool :=
  (configs.map fun c => if c.id == id then { c with threshold, enabled, alertType } else c,
    configs.any fun c => c.id == id)

/-- `delete_alert_config`: the table and whether a row was found. -/
def deleteAlertConfig (id : ℤ) (configs : List AlertConfig) : List AlertConfig × Bool :=
  (configs.map fun c => if c.id == id then { c with enabled := false } else c,
    configs.any fun c => c.id == id)

/-- `query_alert_history`: the latest events that pass the filters, newest first.  The limit is
clamped to `1..=100`. -/
def queryAlertHistory (alertEvents : List AlertEvent) (limit : ℤ) (severityFilter : Option String)
    (deliveredFilter : Option Bool) : List AlertEvent :=
  let limit := max 1 (min limit 100)
  let rows := alertEvents.filter fun e =>
    severityFilter.all (e.severity == ·) && deliveredFilter.all (e.delivered == ·)
  (rows.insertionSort fun e e' => e'.triggeredAt ≤ e.triggeredAt).take limit.toNat

end StellarFeeTracker
