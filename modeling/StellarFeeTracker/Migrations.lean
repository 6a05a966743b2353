import StellarFeeTracker.Repository

/-!
# Making the transaction hash unique

The first migrations give `fee_data_points` no unique hash, and there `INSERT OR IGNORE` ignores
nothing.  Migration 008 deletes what has been inserted repeatedly, so that of each hash the row with
the least id stays, and makes the index, behind which repeated hashes are ignored.

It does not matter when the migration runs: the rows are those that the same statements leave when the
index is there from the start (`PointTable.migrate_late`), if a transaction is always inserted with
the same timestamp.  They are the rows of the model without ids, `Database`.
-/

namespace StellarFeeTracker

open FirstByKey

/-- The table `fee_data_points` with its ids, which are given in order and never again. -/
structure PointTable where
  hasUniqueIndex : Bool
  rows : List (ℕ × FeeRow)
  nextId : ℕ
  increasing : (rows.map Prod.fst).Pairwise (· < ·)
  id_lt : ∀ row ∈ rows, row.1 < nextId
  unique : hasUniqueIndex = true → (rows.map (·.2.transactionHash)).Nodup

/-- A statement of the repository that has been committed: the insert of one point, or a prune. -/
inductive PointStatement where
  | insert (point : FeeDataPoint)
  | prune (cutoff : DateTime)
  deriving DecidableEq, Repr

/-- The points of the inserts among statements. -/
def insertedBy (statements : List PointStatement) : List FeeDataPoint :=
  statements.filterMap fun
    | .insert point => some point
    | .prune _ => none

/-- What a statement does to the tables of the model without ids. -/
def Database.execute (text : Rfc3339) (db : Database) : PointStatement → Database
  | .insert point => db.insertFeePoint text point
  | .prune cutoff => db.pruneOlderThan text cutoff

/-- The tables when they have been created. -/
def Database.created : Database where
  feeDataPoints := []
  recommendations := []
  alertEvents := []

namespace PointTable

/-- The table when it has been created, by migration 001. -/
def created : PointTable where
  hasUniqueIndex := false
  rows := []
  nextId := 1
  increasing := List.Pairwise.nil
  id_lt := by simp
  unique := by simp

/-- The rows without their ids. -/
def points (table : PointTable) : List FeeRow := table.rows.map Prod.snd

theorem map_transactionHash_points (table : PointTable) :
    table.points.map (·.transactionHash) = table.rows.map (·.2.transactionHash) := by
  unfold points
  rw [List.map_map]
  rfl

/-- The unique index has an entry for the hash. -/
def Conflicts (table : PointTable) (hash : String) : Prop :=
  table.hasUniqueIndex = true ∧ hash ∈ table.rows.map (·.2.transactionHash)

instance (table : PointTable) (hash : String) : Decidable (table.Conflicts hash) :=
  inferInstanceAs (Decidable (_ ∧ _))

/-- `INSERT OR IGNORE` of one fee data point. -/
def insertOrIgnore (text : Rfc3339) (table : PointTable) (point : FeeDataPoint) : PointTable :=
  if h : table.Conflicts point.transactionHash then table
  else
    { hasUniqueIndex := table.hasUniqueIndex
      rows := table.rows ++ [(table.nextId, FeeRow.ofPoint text point)]
      nextId := table.nextId + 1
      increasing := by
        rw [List.map_append, List.pairwise_append]
        refine ⟨table.increasing, List.pairwise_singleton _ _, fun id hid new hnew => ?_⟩
        obtain ⟨row, hrow, rfl⟩ := List.mem_map.1 hid
        rw [List.map_singleton, List.mem_singleton] at hnew
        rw [hnew]
        exact table.id_lt row hrow
      id_lt := by
        intro row hrow
        rcases List.mem_append.1 hrow with hrow | hrow
        · exact (table.id_lt row hrow).trans (Nat.lt_succ_self _)
        · rw [List.mem_singleton.1 hrow]
          exact Nat.lt_succ_self _
      unique := by
        intro hindex
        rw [List.map_append, List.map_singleton, List.nodup_append]
        refine ⟨table.unique hindex, List.nodup_singleton _, fun hash hhash new hnew => ?_⟩
        rintro rfl
        rw [List.mem_singleton] at hnew
        rw [hnew] at hhash
        exact h ⟨hindex, hhash⟩ }

/-- A delete of rows. -/
def delete (table : PointTable) (keeps : ℕ × FeeRow → Bool) : PointTable where
  hasUniqueIndex := table.hasUniqueIndex
  rows := table.rows.filter keeps
  nextId := table.nextId
  increasing := table.increasing.sublist (List.filter_sublist.map _)
  id_lt row hrow := table.id_lt row (List.mem_filter.1 hrow).1
  unique hindex := (table.unique hindex).sublist (List.filter_sublist.map _)

/-- `prune_older_than`. -/
def pruneOlderThan (text : Rfc3339) (table : PointTable) (cutoff : DateTime) : PointTable :=
  table.delete fun row => !(row.2.timestamp < text.toRfc3339 cutoff)

def execute (text : Rfc3339) (table : PointTable) : PointStatement → PointTable
  | .insert point => table.insertOrIgnore text point
  | .prune cutoff => table.pruneOlderThan text cutoff

/-- `SELECT MIN(id) FROM fee_data_points GROUP BY transaction_hash`. -/
def minIds (table : PointTable) : List ℕ :=
  (table.rows.map (·.2.transactionHash)).dedup.filterMap fun hash =>
    ((table.rows.filter fun row => row.2.transactionHash = hash).map Prod.fst).min?

/-- The delete of migration 008. -/
def keepEarliest (table : PointTable) : PointTable :=
  table.delete fun row => table.minIds.contains row.1

/-- `CREATE UNIQUE INDEX IF NOT EXISTS`, which fails when a hash is there twice. -/
def createUniqueIndex (table : PointTable) : Option PointTable :=
  if h : (table.rows.map (·.2.transactionHash)).Nodup then
    some { table with hasUniqueIndex := true, unique := fun _ => h }
  else none

/-- Migration 008. -/
def migrate (table : PointTable) : Option PointTable := table.keepEarliest.createUniqueIndex

/-! ## What the migration keeps -/

/-- The ids of rows differ. -/
theorem eq_of_id_eq {table : PointTable} {row row' : ℕ × FeeRow} (h : row ∈ table.rows)
    (h' : row' ∈ table.rows) (hid : row.1 = row'.1) : row = row' :=
  List.inj_on_of_nodup_map (table.increasing.imp ne_of_lt) h h' hid

/-- The query gives the ids that are the least ones for their hash. -/
theorem mem_minIds_iff {table : PointTable} {row : ℕ × FeeRow} (hrow : row ∈ table.rows) :
    row.1 ∈ table.minIds ↔
      ∀ other ∈ table.rows, other.2.transactionHash = row.2.transactionHash → row.1 ≤ other.1 := by
  unfold minIds
  rw [List.mem_filterMap]
  constructor
  · rintro ⟨hash, -, hmin⟩
    obtain ⟨hid, hleast⟩ := List.min?_eq_some_iff.1 hmin
    obtain ⟨found, hfound, hidFound⟩ := List.mem_map.1 hid
    obtain ⟨hmem, hhash⟩ := List.mem_filter.1 hfound
    obtain rfl := eq_of_id_eq hmem hrow hidFound
    intro other hother hsame
    apply hleast
    refine List.mem_map_of_mem (List.mem_filter.2 ⟨hother, decide_eq_true ?_⟩)
    rw [hsame]
    exact of_decide_eq_true hhash
  · intro hleast
    refine ⟨row.2.transactionHash, List.mem_dedup.2 (List.mem_map_of_mem hrow), ?_⟩
    apply List.min?_eq_some_iff.2
    refine ⟨List.mem_map_of_mem (List.mem_filter.2 ⟨hrow, decide_eq_true rfl⟩), fun id hid => ?_⟩
    obtain ⟨other, hother, rfl⟩ := List.mem_map.1 hid
    obtain ⟨hmem, hhash⟩ := List.mem_filter.1 hother
    exact hleast other hmem (of_decide_eq_true hhash)

/-- The rows that stay are the first of each hash. -/
theorem points_keepEarliest (table : PointTable) :
    table.keepEarliest.points = firstByKey (·.transactionHash) ∅ table.points := by
  have hkeep : table.keepEarliest.rows =
      firstByKey (fun row : ℕ × FeeRow => row.2.transactionHash) ∅ table.rows := by
    rw [← filter_least_eq_firstByKey (fun row : ℕ × FeeRow => row.2.transactionHash) Prod.fst
      table.increasing ∅]
    refine List.filter_congr fun row hrow => ?_
    rw [List.contains_eq_mem]
    refine decide_eq_decide.2 ((mem_minIds_iff hrow).trans ?_)
    simp
  unfold points
  rw [hkeep]
  exact map_firstByKey (fun row : FeeRow => row.transactionHash) Prod.snd ∅ table.rows

/-- The migration always succeeds. -/
theorem exists_migrate (table : PointTable) :
    ∃ migrated, table.migrate = some migrated ∧ migrated.hasUniqueIndex = true ∧
      migrated.points = firstByKey (·.transactionHash) ∅ table.points := by
  have hkept := points_keepEarliest table
  have hnodup : (table.keepEarliest.rows.map (·.2.transactionHash)).Nodup := by
    rw [← map_transactionHash_points, hkept]
    exact nodup_map_firstByKey _ _ _
  refine ⟨{ table.keepEarliest with hasUniqueIndex := true, unique := fun _ => hnodup }, ?_, rfl,
    hkept⟩
  exact dif_pos hnodup

/-! ## Statements on either table -/

section Statements

variable {text : Rfc3339} {table : PointTable} {db : Database}

theorem points_insertOrIgnore (table : PointTable) (point : FeeDataPoint) :
    (table.insertOrIgnore text point).points =
      if table.Conflicts point.transactionHash then table.points
      else table.points ++ [FeeRow.ofPoint text point] := by
  unfold insertOrIgnore
  split
  · rfl
  · show (table.rows ++ [(table.nextId, FeeRow.ofPoint text point)]).map Prod.snd = _
    rw [List.map_append]
    rfl

theorem points_pruneOlderThan (table : PointTable) (cutoff : DateTime) :
    (table.pruneOlderThan text cutoff).points =
      table.points.filter fun row => !(row.timestamp < text.toRfc3339 cutoff) := by
  show (table.rows.filter _).map Prod.snd = (table.rows.map Prod.snd).filter _
  rw [List.filter_map]
  rfl

theorem hasUniqueIndex_execute (table : PointTable) (statement : PointStatement) :
    (table.execute text statement).hasUniqueIndex = table.hasUniqueIndex := by
  cases statement with
  | insert point =>
    show (table.insertOrIgnore text point).hasUniqueIndex = table.hasUniqueIndex
    unfold insertOrIgnore
    split <;> rfl
  | prune cutoff => rfl

/-- With the index a statement does what it does to the tables without ids. -/
theorem points_execute_of_unique (hindex : table.hasUniqueIndex = true)
    (hpoints : table.points = db.feeDataPoints) (statement : PointStatement) :
    (table.execute text statement).points = (db.execute text statement).feeDataPoints := by
  cases statement with
  | insert point =>
    show (table.insertOrIgnore text point).points = (db.insertFeePoint text point).feeDataPoints
    rw [points_insertOrIgnore, Database.insertFeePoint_feeDataPoints, hpoints]
    have hiff : table.Conflicts point.transactionHash ↔ db.HasPoint point.transactionHash := by
      unfold Conflicts Database.HasPoint
      rw [and_iff_right hindex, ← map_transactionHash_points, hpoints, List.mem_map]
    by_cases h : db.HasPoint point.transactionHash
    · rw [if_pos (hiff.2 h), if_pos h]
    · rw [if_neg (hiff.not.2 h), if_neg h]
  | prune cutoff =>
    show (table.pruneOlderThan text cutoff).points = (db.pruneOlderThan text cutoff).feeDataPoints
    rw [points_pruneOlderThan, hpoints]
    rfl

theorem points_run_of_unique (hindex : table.hasUniqueIndex = true)
    (hpoints : table.points = db.feeDataPoints) (statements : List PointStatement) :
    (statements.foldl (execute text) table).points =
      (statements.foldl (Database.execute text) db).feeDataPoints := by
  induction statements generalizing table db with
  | nil => exact hpoints
  | cons statement statements ih =>
    exact ih ((hasUniqueIndex_execute table statement).trans hindex)
      (points_execute_of_unique hindex hpoints statement)

/-- Without the index the table has one row for each insert, and the tables without ids have the first
row of each hash. -/
structure Repeats (text : Rfc3339) (inserted : List FeeDataPoint) (table : PointTable)
    (db : Database) : Prop where
  hasUniqueIndex : table.hasUniqueIndex = false
  first : db.feeDataPoints = firstByKey (·.transactionHash) ∅ table.points
  inserted : ∀ row ∈ table.points, ∃ point ∈ inserted, row = FeeRow.ofPoint text point

/-- Every insert of a transaction has the same timestamp. -/
def OneTime (inserted : List FeeDataPoint) : Prop :=
  ∀ p ∈ inserted, ∀ q ∈ inserted, p.transactionHash = q.transactionHash → p.timestamp = q.timestamp

variable {inserted : List FeeDataPoint}

theorem Repeats.insert (h : Repeats text inserted table db) {point : FeeDataPoint}
    (hpoint : point ∈ inserted) :
    Repeats text inserted (table.insertOrIgnore text point) (db.insertFeePoint text point) := by
  have hpoints : (table.insertOrIgnore text point).points =
      table.points ++ [FeeRow.ofPoint text point] := by
    rw [points_insertOrIgnore, if_neg]
    rintro ⟨hindex, -⟩
    rw [h.hasUniqueIndex] at hindex
    cases hindex
  have hseen : db.HasPoint point.transactionHash ↔
      (FeeRow.ofPoint text point).transactionHash ∈
        seenAfter (fun row : FeeRow => row.transactionHash) ∅ table.points := by
    show (∃ row ∈ db.feeDataPoints, row.transactionHash = point.transactionHash) ↔ _
    rw [h.first, ← List.mem_map, mem_map_firstByKey_iff]
    simp [seenAfter, FeeRow.ofPoint]
  exact
    { hasUniqueIndex := (hasUniqueIndex_execute table (.insert point)).trans h.hasUniqueIndex
      first := by
        rw [Database.insertFeePoint_feeDataPoints, hpoints, firstByKey_append, ← h.first]
        by_cases hhas : db.HasPoint point.transactionHash
        · rw [if_pos hhas, firstByKey_cons_of_mem _ (hseen.1 hhas), firstByKey_nil, List.append_nil]
        · rw [if_neg hhas, firstByKey_cons_of_notMem _ (hseen.not.1 hhas), firstByKey_nil]
      inserted := by
        rw [hpoints, List.forall_mem_append, List.forall_mem_singleton]
        exact ⟨h.inserted, point, hpoint, rfl⟩ }

theorem Repeats.prune (h : Repeats text inserted table db) (htime : OneTime inserted)
    (cutoff : DateTime) :
    Repeats text inserted (table.pruneOlderThan text cutoff) (db.pruneOlderThan text cutoff) where
  hasUniqueIndex := h.hasUniqueIndex
  first := by
    -- rows with one hash have one timestamp, and are pruned together
    have htogether : ∀ row ∈ table.points, ∀ row' ∈ table.points,
        row.transactionHash = row'.transactionHash →
          (!(row.timestamp < text.toRfc3339 cutoff : Bool)) =
            !(row'.timestamp < text.toRfc3339 cutoff : Bool) := by
      intro row hrow row' hrow' hhash
      obtain ⟨p, hp, rfl⟩ := h.inserted row hrow
      obtain ⟨q, hq, rfl⟩ := h.inserted row' hrow'
      have htimestamp : (FeeRow.ofPoint text p).timestamp = (FeeRow.ofPoint text q).timestamp :=
        congrArg text.toRfc3339 (htime p hp q hq hhash)
      rw [htimestamp]
    rw [points_pruneOlderThan, firstByKey_filter _ htogether, ← h.first]
    rfl
  inserted row hrow := by
    rw [points_pruneOlderThan] at hrow
    exact h.inserted row (List.mem_filter.1 hrow).1

theorem Repeats.run (h : Repeats text inserted table db) (htime : OneTime inserted)
    {statements : List PointStatement} (hinserted : ∀ p ∈ insertedBy statements, p ∈ inserted) :
    Repeats text inserted (statements.foldl (execute text) table)
      (statements.foldl (Database.execute text) db) := by
  induction statements generalizing table db with
  | nil => exact h
  | cons statement statements ih =>
    cases statement with
    | insert point =>
      have hboth : ∀ p ∈ point :: insertedBy statements, p ∈ inserted := hinserted
      rw [List.forall_mem_cons] at hboth
      exact ih (h.insert hboth.1) hboth.2
    | prune cutoff => exact ih (h.prune htime cutoff) hinserted

theorem repeats_created (text : Rfc3339) (inserted : List FeeDataPoint) :
    Repeats text inserted created Database.created where
  hasUniqueIndex := rfl
  first := rfl
  inserted row hrow := by cases hrow

/-- Statements, the migration and more statements leave the rows that all the statements leave when
the index is there from the start. -/
theorem migrate_late (text : Rfc3339) (before after : List PointStatement)
    (htime : OneTime (insertedBy before)) :
    ∃ migrated, (before.foldl (execute text) created).migrate = some migrated ∧
      (after.foldl (execute text) migrated).points =
        ((before ++ after).foldl (Database.execute text) Database.created).feeDataPoints := by
  have hrepeats := (repeats_created text (insertedBy before)).run htime fun p hp => hp
  obtain ⟨migrated, hmigrate, hindex, hpoints⟩ :=
    exists_migrate (before.foldl (execute text) created)
  refine ⟨migrated, hmigrate, ?_⟩
  rw [List.foldl_append]
  exact points_run_of_unique hindex (hpoints.trans hrepeats.first.symm) after

end Statements

/-- A payment that one poll inserts, and the next one again. -/
def payment : PointStatement :=
  .insert ⟨100, seconds 1736851620, "payment", 5⟩

/-- The payment is inserted twice before the migration, and once more after it. -/
theorem migrate_late_payment :
    ∃ migrated, ([payment, payment, .prune (seconds 1736851620)].foldl (execute exampleText)
        created).migrate = some migrated ∧
      ([payment].foldl (execute exampleText) migrated).points =
        (([payment, payment, .prune (seconds 1736851620)] ++ [payment]).foldl
          (Database.execute exampleText) Database.created).feeDataPoints :=
  migrate_late exampleText _ [payment] (by unfold OneTime; decide)

end PointTable

end StellarFeeTracker
