import StellarFeeTracker.Polling.History
import StellarFeeTracker.Polling.Validation
import StellarFeeTracker.Repository.TimeWindow
import Mathlib.Data.Finset.Card

/-!
# The store after a restart

At startup the points of the last 24 hours are read from the table and pushed into the new store.  As
long as the store has room for every hash and the table takes what it is handed, the rows are those
of points of the store, and a tick deletes only rows older than a day: the two have the same points
of the last 24 hours (`Mirrored`), which are then those of the store after a restart
(`restart_loses_nothing`).
-/

namespace StellarFeeTracker

open Machine

/-- The startup rehydration: the points of the last 24 hours go from the table into the store and
through the insights engine, whose errors are logged.  The engine reads the clock again. -/
def rehydrate (text : Rfc3339) (now processed : DateTime) (fetchError : Option SqlError)
    (db : Database) (store : FeeHistoryStore) (engine : FeeInsightsEngine) :
    Except Panic (FeeHistoryStore × FeeInsightsEngine) := do
  let rehydrationWindow ← DateTime.trySub now (hours 24)
  match fetchError with
  | some _ => return (store, engine)
  | none =>
    let points := db.fetchSince text rehydrationWindow
    if points.isEmpty then return (store, engine)
    else return (points.foldl FeeHistoryStore.push store, (engine.processFeeData processed points).1)

/-- A new store that has room for the points read holds just these. -/
theorem rehydrate_new (text : Rfc3339) {now since : DateTime} (processed : DateTime) (db : Database)
    {capacity : ℕ} (engine : FeeInsightsEngine) (hsince : DateTime.trySub now (hours 24) = .ok since)
    (hroom : (db.fetchSince text since).length ≤ capacity) :
    ∃ engine', rehydrate text now processed none db (.new capacity) engine =
      .ok ({ data := db.fetchSince text since, capacity }, engine') := by
  have hresult : rehydrate text now processed none db (.new capacity) engine =
      if (db.fetchSince text since).isEmpty then .ok (.new capacity, engine)
      else .ok ((db.fetchSince text since).foldl FeeHistoryStore.push (.new capacity),
        (engine.processFeeData processed (db.fetchSince text since)).1) := by
    unfold rehydrate
    rw [hsince]
    rfl
  rw [hresult]
  by_cases hempty : db.fetchSince text since = []
  · rw [hempty]
    exact ⟨engine, rfl⟩
  · have hstore : (db.fetchSince text since).foldl FeeHistoryStore.push (.new capacity) =
        { data := db.fetchSince text since, capacity } := by
      refine FeeHistoryStore.foldl_push_of_room _ ?_
      rwa [FeeHistoryStore.new, List.length_nil, Nat.zero_add]
    rw [if_neg (by rwa [List.isEmpty_iff]), hstore]
    exact ⟨_, rfl⟩

/-! ## What the table has of the store -/

/-- Points from a later instant on are not affected by leaving out those before an earlier one. -/
theorem Database.pointsSince_pointsSince {points : List FeeDataPoint} {cutoff since : DateTime}
    (h : cutoff ≤ since) :
    Database.pointsSince (Database.pointsSince points cutoff) since =
      Database.pointsSince points since := by
  unfold Database.pointsSince
  rw [List.filter_filter]
  refine List.filter_congr fun p _ => ?_
  rw [Bool.eq_iff_iff]
  simp only [Bool.and_eq_true, decide_eq_true_eq, and_iff_left_iff_imp]
  exact h.trans

/-- The rows are those of some points of the store, among them all that are at or after an instant. -/
def Database.Mirrors (text : Rfc3339) (since : DateTime) (db : Database) (store : FeeHistoryStore) :
    Prop :=
  ∃ points : List FeeDataPoint, points.Sublist store.data ∧
    db.feeDataPoints = points.map (FeeRow.ofPoint text) ∧
    Database.pointsSince points since = store.getSince since

/-- A fetch then gives the points of the store that are at or after the instant. -/
theorem Database.Mirrors.fetchSince_perm {text : Rfc3339} {since : DateTime} {db : Database}
    {store : FeeHistoryStore} {instants : DateTime → Prop} (h : db.Mirrors text since store)
    (horder : text.OrdersLike instants) (hsince : instants since)
    (hpoints : ∀ p ∈ store.data, instants p.timestamp ∧ p.Storable text) :
    (db.fetchSince text since).Perm (store.getSince since) := by
  obtain ⟨points, hsub, hrows, hkept⟩ := h
  have hmem : ∀ p ∈ points, instants p.timestamp ∧ p.Storable text :=
    fun p hp => hpoints p (hsub.subset hp)
  rw [Database.fetchSince_eq hrows horder (fun p hp => (hmem p hp).1) (fun p hp => (hmem p hp).2)
    hsince, ← hkept]
  exact List.perm_insertionSort _ _

/-- None of the new points of a batch has a row yet. -/
theorem Database.Mirrors.insertedPoints_dropKnown {text : Rfc3339} {since : DateTime} {db : Database}
    {store : FeeHistoryStore} (h : db.Mirrors text since store) (points : List FeeDataPoint) :
    db.insertedPoints (store.dropKnown points) = store.dropKnown points := by
  obtain ⟨stored, hsub, hrows, -⟩ := h
  rw [Database.insertedPoints, FirstByKey.firstByKey_eq_filter _ (store.nodup_dropKnown points),
    List.filter_eq_self]
  intro p hp
  have hnew : p.transactionHash ∉ store.data.map (·.transactionHash) :=
    (store.getByHash_isNone_iff _).1 (store.mem_dropKnown hp).2
  rw [decide_eq_true_eq, List.mem_toFinset, hrows, List.map_map]
  exact fun hrow => hnew ((hsub.map (·.transactionHash)).subset hrow)

namespace Poller

variable {poller : Poller}

/-- The cutoff of a tick is at least a day before it. -/
theorem retentionCutoff_le {now cutoff : DateTime} (hdays : 1 ≤ poller.storageRetentionDays)
    (hsmall : (poller.storageRetentionDays : ℤ) ≤ i64Max)
    (hcutoff : poller.retentionCutoff now = .ok cutoff) : cutoff ≤ now - hours 24 := by
  have hasI64 : asI64 poller.storageRetentionDays = poller.storageRetentionDays := asI64_of_le hsmall
  have hday : hours 24 ≤ seconds (poller.storageRetentionDays * 86400) := by
    refine seconds_le_seconds ?_
    omega
  unfold retentionCutoff at hcutoff
  rw [hasI64] at hcutoff
  unfold tryDays trySeconds at hcutoff
  split at hcutoff
  · rw [DateTime.eq_of_trySub hcutoff]
    exact Int.sub_le_sub_left hday now
  · cases hcutoff

/-- What holds throughout a run of ticks that fetch some points. -/
structure Mirrored (text : Rfc3339) (since : DateTime) (points : List FeeDataPoint) (capacity : ℕ)
    (s : PollState) : Prop where
  capacity_eq : s.store.capacity = capacity
  distinctHashes : s.store.DistinctHashes
  subset : s.store.data ⊆ points
  mirrors : s.database.Mirrors text since s.store

/-- The database takes what a tick hands it, and the cutoff of the tick is in range. -/
structure Persists (poller : Poller) (instants : DateTime → Prop) (tick : PollTick)
    (cutoff : DateTime) : Prop where
  hasRepository : poller.hasRepository = true
  inserts : tick.insertError = none
  prunes : tick.pruneError = none
  cutoff_eq : poller.retentionCutoff tick.now = .ok cutoff
  instant : instants cutoff

section Tick

variable {text : Rfc3339} {since cutoff : DateTime} {points : List FeeDataPoint} {capacity : ℕ}
  {instants : DateTime → Prop} {s : PollState} {tick : PollTick}

/-- Points with distinct hashes are no more than there are hashes. -/
theorem length_le_card_hashes {data : List FeeDataPoint} (hsub : data ⊆ points)
    (hnodup : (data.map (·.transactionHash)).Nodup) :
    data.length ≤ (points.map (·.transactionHash)).toFinset.card := by
  have hhashes : (data.map (·.transactionHash)).toFinset ⊆
      (points.map (·.transactionHash)).toFinset := by
    intro hash hmem
    rw [List.mem_toFinset] at hmem ⊢
    exact List.map_subset _ hsub hmem
  calc data.length = (data.map (·.transactionHash)).toFinset.card := by
        rw [List.toFinset_card_of_nodup hnodup, List.length_map]
    _ ≤ _ := Finset.card_le_card hhashes

/-- Without evictions a tick appends its new points to the store. -/
theorem Mirrored.store_pollOnce (h : Mirrored text since points capacity s)
    (hfetched : poller.fetched tick ⊆ points)
    (hcapacity : (points.map (·.transactionHash)).toFinset.card ≤ capacity) :
    (poller.pollOnce text s tick).1.store =
      { s.store with data := s.store.data ++ poller.newPoints s tick } := by
  have hsub : s.store.data ++ poller.newPoints s tick ⊆ points := by
    refine List.append_subset.2 ⟨h.subset, ?_⟩
    exact fun p hp => hfetched (s.store.mem_dropKnown hp).1
  have hlength := length_le_card_hashes hsub
    (s.store.nodup_append_dropKnown h.distinctHashes (poller.fetched tick))
  rw [List.length_append] at hlength
  rw [pollOnce_store]
  refine s.store.foldl_push_of_room ?_
  rw [h.capacity_eq]
  exact hlength.trans hcapacity

/-- After a tick with new points the rows are those of the mirrored points and of the new ones, from
the cutoff on. -/
theorem rows_pollOnce {stored : List FeeDataPoint} (hmirrors : s.database.Mirrors text since s.store)
    (hrows : s.database.feeDataPoints = stored.map (FeeRow.ofPoint text))
    (htick : poller.Persists instants tick cutoff) (horder : text.OrdersLike instants)
    (hpoints : ∀ p ∈ stored ++ poller.newPoints s tick, instants p.timestamp)
    (hne : poller.newPoints s tick ≠ []) :
    (poller.pollOnce text s tick).1.database.feeDataPoints =
      (Database.pointsSince (stored ++ poller.newPoints s tick) cutoff).map (FeeRow.ofPoint text) := by
  have hinserted : poller.insertedPoints s tick = poller.newPoints s tick := by
    rw [insertedPoints, htick.hasRepository, htick.inserts]
    exact hmirrors.insertedPoints_dropKnown _
  have hprunes : ∀ row : FeeRow, poller.prunes text tick row.timestamp =
      decide (row.timestamp < text.toRfc3339 cutoff) := by
    intro row
    rw [prunes, htick.hasRepository, htick.prunes, htick.cutoff_eq]
    rfl
  rw [poller.feeDataPoints_pollOnce text hne, hinserted, hrows, ← List.map_append]
  simp only [hprunes]
  exact Database.filter_rows horder hpoints htick.instant

/-- One tick whose cutoff is not after the instant keeps the table in step with the store. -/
theorem Mirrored.pollOnce (h : Mirrored text since points capacity s)
    (htick : poller.Persists instants tick cutoff) (hle : cutoff ≤ since)
    (horder : text.OrdersLike instants) (hpoints : ∀ p ∈ points, instants p.timestamp)
    (hfetched : poller.fetched tick ⊆ points)
    (hcapacity : (points.map (·.transactionHash)).toFinset.card ≤ capacity) :
    Mirrored text since points capacity (poller.pollOnce text s tick).1 := by
  have hstore := h.store_pollOnce hfetched hcapacity
  have hnew : poller.newPoints s tick ⊆ points := fun p hp =>
    hfetched (s.store.mem_dropKnown hp).1
  constructor
  case capacity_eq => rw [pollOnce_store_capacity, h.capacity_eq]
  case distinctHashes =>
    rw [pollOnce_store]
    exact h.distinctHashes.pushNew _
  case subset =>
    rw [hstore]
    exact List.append_subset.2 ⟨h.subset, hnew⟩
  case mirrors =>
    by_cases hnil : poller.newPoints s tick = []
    · rw [hstore, pollOnce_database, if_pos hnil, hnil, List.append_nil]
      exact h.mirrors
    · obtain ⟨stored, hsub, hrows, hkept⟩ := h.mirrors
      have hmem : ∀ p ∈ stored ++ poller.newPoints s tick, instants p.timestamp := by
        intro p hp
        rcases List.mem_append.1 hp with hp | hp
        · exact hpoints p (h.subset (hsub.subset hp))
        · exact hpoints p (hnew hp)
      refine ⟨Database.pointsSince (stored ++ poller.newPoints s tick) cutoff, ?_,
        rows_pollOnce h.mirrors hrows htick horder hmem hnil, ?_⟩
      · rw [hstore]
        exact List.filter_sublist.trans (hsub.append_right _)
      · have hsplit : FeeHistoryStore.getSince
            { s.store with data := s.store.data ++ poller.newPoints s tick } since =
              s.store.getSince since ++ Database.pointsSince (poller.newPoints s tick) since :=
          List.filter_append _ _
        rw [hstore, Database.pointsSince_pointsSince hle, hsplit, ← hkept]
        exact List.filter_append _ _

end Tick

/-- A restart at some instant loses nothing that is served.  A run starts from an empty store and an
empty table, its ticks come in the order of time, the database takes every insert and prune, the
retention is at least a day with every cutoff in range, the store has room for every hash that is
fetched, and the texts order like the instants and are read back.  Then the points of the last 24
hours are the same in the store and in the table, and they are what the startup puts into its new
store. -/
theorem restart_loses_nothing {text : Rfc3339} {instants : DateTime → Prop} {s : PollState}
    {ticks : List PollTick} {capacity : ℕ} {now since : DateTime}
    (hstore : s.store = .new capacity) (htable : s.database.feeDataPoints = [])
    (hrepo : poller.hasRepository = true) (hdays : 1 ≤ poller.storageRetentionDays)
    (hsmall : (poller.storageRetentionDays : ℤ) ≤ i64Max)
    (htimes : (ticks.map (·.now) ++ [now]).Pairwise (· ≤ ·))
    (hsince : DateTime.trySub now (hours 24) = .ok since) (hinstant : instants since)
    (horder : text.OrdersLike instants)
    (hpoints : ∀ p ∈ ticks.flatMap poller.fetched, instants p.timestamp ∧ p.Storable text)
    (hcapacity :
      ((ticks.flatMap poller.fetched).map (·.transactionHash)).toFinset.card ≤ capacity)
    (hticks : ∀ tick ∈ ticks, tick.insertError = none ∧ tick.pruneError = none ∧
      ∃ cutoff, poller.retentionCutoff tick.now = .ok cutoff ∧ instants cutoff)
    (processed : DateTime) (engine : FeeInsightsEngine) :
    let stop := final (poller.pollOnce text) s ticks
    (stop.database.fetchSince text since).Perm (stop.store.getSince since) ∧
      ∃ store' engine', rehydrate text now processed none stop.database (.new capacity) engine =
          .ok (store', engine') ∧
        store'.data.Perm (stop.store.getSince since) := by
  intro stop
  have hrun : Mirrored text since (ticks.flatMap poller.fetched) capacity stop := by
    refine final_induction (poller.pollOnce text)
      (P := Mirrored text since (ticks.flatMap poller.fetched) capacity) ?_ ?_
    · refine ⟨by rw [hstore]; rfl, ?_, ?_, [], List.nil_sublist _, htable, ?_⟩
      · rw [hstore]
        exact List.nodup_nil
      · rw [hstore]
        exact List.nil_subset _
      · rw [hstore]
        rfl
    · intro s tick htick h
      obtain ⟨hinsert, hprune, cutoff, hcutoff, hcut⟩ := hticks tick htick
      have hnow : tick.now ≤ now :=
        (List.pairwise_append.1 htimes).2.2 _ (List.mem_map_of_mem htick) _ (List.mem_singleton_self _)
      have hle : cutoff ≤ since := by
        rw [DateTime.eq_of_trySub hsince]
        exact (retentionCutoff_le hdays hsmall hcutoff).trans (Int.sub_le_sub_right hnow _)
      exact h.pollOnce ⟨hrepo, hinsert, hprune, hcutoff, hcut⟩ hle horder
        (fun p hp => (hpoints p hp).1) (fun p hp => List.mem_flatMap.2 ⟨tick, htick, hp⟩) hcapacity
  have hperm : (stop.database.fetchSince text since).Perm (stop.store.getSince since) :=
    hrun.mirrors.fetchSince_perm horder hinstant fun p hp => hpoints p (hrun.subset hp)
  have hroom : (stop.database.fetchSince text since).length ≤ capacity := by
    calc (stop.database.fetchSince text since).length
        = (stop.store.getSince since).length := hperm.length_eq
      _ ≤ stop.store.data.length := List.length_filter_le _ _
      _ ≤ _ := length_le_card_hashes hrun.subset hrun.distinctHashes
      _ ≤ capacity := hcapacity
  obtain ⟨engine', hrestart⟩ := rehydrate_new text processed stop.database engine hsince hroom
  exact ⟨hperm, _, engine', hrestart, hperm⟩

end Poller

/-- A point that two ticks fetch is served after a restart at the second tick. -/
theorem restart_loses_nothing_one_point :
    let point : FeeDataPoint := { pointWithHash "a" with timestamp := seconds 1736851620 }
    let stop := final (storingPoller.pollOnce Database.printedText) (startWith [] 10)
      [tickFetching [point], tickFetching [point]]
    (stop.database.fetchSince Database.printedText (seconds 1736765220)).Perm [point] ∧
      ∃ store' engine', rehydrate Database.printedText (seconds 1736851620) (seconds 1736851620) none
          stop.database (.new 10) (.new .default (seconds 1736851620)) = .ok (store', engine') ∧
        store'.data.Perm [point] := by
  intro point stop
  have hserved : stop.store.getSince (seconds 1736765220) = [point] := by decide +kernel
  have hticks : ∀ tick ∈ [tickFetching [point], tickFetching [point]],
      tick = tickFetching [point] := by simp
  rw [← hserved]
  refine @Poller.restart_loses_nothing storingPoller Database.printedText InFourDigitYears
    (startWith [] 10) _ 10 (seconds 1736851620) (seconds 1736765220) rfl rfl rfl (by decide)
    (by decide) (by decide) (by decide) (by decide) ?_ ?_ (by decide) ?_ _ _
  · exact fun t t' ht ht' => rfc3339Text_lt_iff ht ht'
  · intro p hp
    obtain ⟨tick, htick, hp⟩ := List.mem_flatMap.1 hp
    rw [hticks tick htick] at hp
    obtain rfl : p = point := by
      rwa [show storingPoller.fetched (tickFetching [point]) = [point] from rfl,
        List.mem_singleton] at hp
    exact ⟨by decide, by decide, by decide, by decide⟩
  · intro tick htick
    rw [hticks tick htick]
    exact ⟨rfl, rfl, seconds 1736246820, by decide, by decide⟩

end StellarFeeTracker
