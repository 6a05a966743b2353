import StellarFeeTracker.Repository
import StellarFeeTracker.Rfc3339

/-!
# The time window of the stored points

The table compares timestamps as texts.  Where the texts order like the instants and are read back,
`fetch_since` gives the points at or after an instant in the order of time, and `prune_older_than`
leaves the rows of those points.  The texts of the years 0000 to 9999 are such texts.
-/

namespace StellarFeeTracker

/-! ## Texts that stand for instants -/

/-- The texts of some instants order like the instants. -/
def Rfc3339.OrdersLike (text : Rfc3339) (instants : DateTime → Prop) : Prop :=
  ∀ t t', instants t → instants t' → (text.toRfc3339 t < text.toRfc3339 t' ↔ t < t')

/-- A point that the columns of a row can hold, and whose timestamp is read back. -/
structure FeeDataPoint.Storable (text : Rfc3339) (point : FeeDataPoint) : Prop where
  feeAmount_lt : point.feeAmount < 2 ^ 64
  ledgerSequence_lt : point.ledgerSequence < 2 ^ 64
  parse : text.parseFromRfc3339 (text.toRfc3339 point.timestamp) = some point.timestamp

theorem FeeDataPoint.Storable.toPoint_ofPoint {text : Rfc3339} {point : FeeDataPoint}
    (h : point.Storable text) : (FeeRow.ofPoint text point).toPoint text = some point := by
  simp only [FeeRow.toPoint, FeeRow.ofPoint, h.parse, u64OfI64_asI64 h.feeAmount_lt,
    u64OfI64_asI64 h.ledgerSequence_lt]
  rfl

/-! ## Queries on the rows of points -/

namespace Database

variable {db : Database} {text : Rfc3339} {points : List FeeDataPoint} {instants : DateTime → Prop}
  {since cutoff : DateTime}

/-- The points at or after an instant. -/
def pointsSince (points : List FeeDataPoint) (since : DateTime) : List FeeDataPoint :=
  points.filter fun p => since ≤ p.timestamp

theorem filter_rows (horder : text.OrdersLike instants)
    (hpoints : ∀ p ∈ points, instants p.timestamp) (hsince : instants since) :
    ((points.map (FeeRow.ofPoint text)).filter fun row =>
      !(row.timestamp < text.toRfc3339 since)) =
      (pointsSince points since).map (FeeRow.ofPoint text) := by
  rw [List.filter_map, pointsSince]
  congr 1
  refine List.filter_congr fun p hp => ?_
  have hlt : (FeeRow.ofPoint text p).timestamp < text.toRfc3339 since ↔ p.timestamp < since :=
    horder _ _ (hpoints p hp) hsince
  rw [Bool.eq_iff_iff]
  simp only [Function.comp, Bool.not_eq_true', decide_eq_false_iff_not, decide_eq_true_eq, hlt, not_lt]

/-- What a fetch gives of a table that holds the rows of some points. -/
theorem fetchSince_eq (hrows : db.feeDataPoints = points.map (FeeRow.ofPoint text))
    (horder : text.OrdersLike instants) (hpoints : ∀ p ∈ points, instants p.timestamp)
    (hstorable : ∀ p ∈ points, p.Storable text) (hsince : instants since) :
    db.fetchSince text since =
      (pointsSince points since).insertionSort fun p q => p.timestamp ≤ q.timestamp := by
  have hmem : ∀ p ∈ pointsSince points since, p ∈ points := fun p hp => List.mem_of_mem_filter hp
  have hsort : ((pointsSince points since).map (FeeRow.ofPoint text)).insertionSort
        (fun row row' => row.timestamp ≤ row'.timestamp) =
      ((pointsSince points since).insertionSort fun p q => p.timestamp ≤ q.timestamp).map
        (FeeRow.ofPoint text) := by
    refine (List.map_insertionSort _ _ _ _ fun p hp q hq => ?_).symm
    rw [← not_lt, ← not_lt]
    exact not_congr (horder _ _ (hpoints q (hmem q hq)) (hpoints p (hmem p hp))).symm
  unfold fetchSince
  dsimp only
  rw [hrows, filter_rows horder hpoints hsince, hsort, List.filterMap_map]
  have hread : ∀ p ∈ (pointsSince points since).insertionSort fun p q => p.timestamp ≤ q.timestamp,
      (FeeRow.toPoint text ∘ FeeRow.ofPoint text) p = some p := fun p hp =>
    (hstorable p (hmem p ((List.mem_insertionSort _).1 hp))).toPoint_ofPoint
  rw [List.filterMap_congr hread, List.filterMap_some]

theorem pruneOlderThan_feeDataPoints
    (hrows : db.feeDataPoints = points.map (FeeRow.ofPoint text))
    (horder : text.OrdersLike instants) (hpoints : ∀ p ∈ points, instants p.timestamp)
    (hcutoff : instants cutoff) :
    (db.pruneOlderThan text cutoff).feeDataPoints =
      (pointsSince points cutoff).map (FeeRow.ofPoint text) := by
  unfold pruneOlderThan
  rw [hrows]
  exact filter_rows horder hpoints hcutoff

/-- An empty table gets a row for each point of a list without repeated hashes. -/
theorem insertFeePoints_of_nodup (hempty : db.feeDataPoints = [])
    (hnodup : (points.map (·.transactionHash)).Nodup) :
    (db.insertFeePoints text points).feeDataPoints = points.map (FeeRow.ofPoint text) := by
  rw [insertFeePoints_feeDataPoints, insertedPoints, FirstByKey.firstByKey_eq_filter _ hnodup, hempty]
  simp

/-! ## The years 0000 to 9999 -/

/-- Where `to_rfc3339` prints the instants of the years 0000 to 9999 as `rfc3339Text` does, the stored
texts order like the instants.  Of the points of a list without repeated hashes, put into an empty
table, a fetch then gives those at or after an instant, in the order of time, and a prune leaves the
rows of those at or after the cutoff. -/
theorem window_exact {text : Rfc3339}
    (hprint : ∀ t, InFourDigitYears t → text.toRfc3339 t = rfc3339Text t) :
    (∀ t t', InFourDigitYears t → InFourDigitYears t' →
      (text.toRfc3339 t < text.toRfc3339 t' ↔ t < t')) ∧
    ∀ (db : Database) (points : List FeeDataPoint), db.feeDataPoints = [] →
      (points.map (·.transactionHash)).Nodup →
      (∀ p ∈ points, InFourDigitYears p.timestamp ∧ p.Storable text) →
      (∀ since, InFourDigitYears since →
        ((db.insertFeePoints text points).fetchSince text since).Perm
            (points.filter fun p => since ≤ p.timestamp) ∧
          ((db.insertFeePoints text points).fetchSince text since).Pairwise
            fun p q => p.timestamp ≤ q.timestamp) ∧
      ∀ cutoff, InFourDigitYears cutoff →
        ((db.insertFeePoints text points).pruneOlderThan text cutoff).feeDataPoints =
          (points.filter fun p => cutoff ≤ p.timestamp).map (FeeRow.ofPoint text) := by
  have horder : text.OrdersLike InFourDigitYears := by
    intro t t' ht ht'
    rw [hprint t ht, hprint t' ht']
    exact rfc3339Text_lt_iff ht ht'
  refine ⟨horder, fun db points hempty hnodup hpoints => ?_⟩
  have hrows : (db.insertFeePoints text points).feeDataPoints =
      points.map (FeeRow.ofPoint text) := insertFeePoints_of_nodup hempty hnodup
  have hyears : ∀ p ∈ points, InFourDigitYears p.timestamp := fun p hp => (hpoints p hp).1
  refine ⟨fun since hsince => ?_, fun cutoff hcutoff => ?_⟩
  · rw [fetchSince_eq hrows horder hyears (fun p hp => (hpoints p hp).2) hsince]
    exact ⟨List.perm_insertionSort _ _, List.pairwise_insertionSort _ _⟩
  · exact pruneOlderThan_feeDataPoints hrows horder hyears hcutoff

/-- The printed texts, one of which can be read. -/
def printedText : Rfc3339 where
  toRfc3339 := rfc3339Text
  parseFromRfc3339 text :=
    if text = "2025-01-14T10:47:00+00:00" then some (seconds 1736851620) else none

/-- A point with the largest fee is fetched since its own instant, and pruned a nanosecond later. -/
theorem window_exact_one_point :
    let point : FeeDataPoint :=
      { feeAmount := 2 ^ 64 - 1
        timestamp := seconds 1736851620
        transactionHash := "a"
        ledgerSequence := 7 }
    let db : Database := { feeDataPoints := [], recommendations := [], alertEvents := [] }
    ((db.insertFeePoints printedText [point]).fetchSince printedText (seconds 1736851620)).Perm
        [point] ∧
      ((db.insertFeePoints printedText [point]).pruneOlderThan printedText
        (seconds 1736851620 + 1)).feeDataPoints = [] := by
  intro point db
  have hpoints : ∀ p ∈ [point], InFourDigitYears p.timestamp ∧ p.Storable printedText := by
    rw [List.forall_mem_singleton]
    exact ⟨by decide, by decide, by decide, by decide⟩
  obtain ⟨hfetch, hprune⟩ :=
    (@window_exact printedText fun _ _ => rfl).2 db [point] rfl (by decide) hpoints
  exact ⟨(hfetch (seconds 1736851620) (by decide)).1.trans (by decide),
    (hprune (seconds 1736851620 + 1) (by decide)).trans (by decide)⟩

end Database

end StellarFeeTracker
