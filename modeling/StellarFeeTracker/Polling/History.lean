import StellarFeeTracker.Polling.Tick

/-!
# The history store over a run

A batch is filtered against the store as it was before the batch and against itself, and pushing
only drops points, so the hashes in the store stay distinct (`distinctHashes_run`).

The points of a batch are pushed in the order in which the provider delivers them.  When it delivers
the newest first, the lists served stay oldest first in exactly the runs whose ticks each push points
of one timestamp, none earlier than a point of the store (`servedOldestFirst_iff`).
-/

namespace StellarFeeTracker

open Machine FirstByKey

/-! ## Distinct hashes -/

namespace FeeHistoryStore

variable (store : FeeHistoryStore)

/-- The new points have distinct hashes, none of them in the store. -/
theorem nodup_append_dropKnown (h : store.DistinctHashes) (points : List FeeDataPoint) :
    ((store.data ++ store.dropKnown points).map (·.transactionHash)).Nodup := by
  rw [List.map_append, List.nodup_append']
  refine ⟨h, store.nodup_dropKnown points, ?_⟩
  intro hash hstored hnew
  obtain ⟨-, hnone⟩ := store.mem_map_dropKnown_iff.1 hnew
  exact (store.getByHash_isNone_iff _).1 hnone hstored

/-- Pushing the new points of a batch keeps the hashes distinct, whatever is evicted meanwhile. -/
theorem DistinctHashes.pushNew {store : FeeHistoryStore} (h : store.DistinctHashes)
    (points : List FeeDataPoint) : ((store.dropKnown points).foldl push store).DistinctHashes := by
  have hsuffix := BoundedQueue.pushAll_suffix store.capacity store.data (store.dropKnown points)
  rw [DistinctHashes, foldl_push_data]
  exact (store.nodup_append_dropKnown h points).sublist (hsuffix.sublist.map _)

end FeeHistoryStore

namespace Poller

variable (poller : Poller)

/-- No run of ticks puts a transaction hash into the store twice. -/
theorem distinctHashes_run (text : Rfc3339) (s : PollState) (hs : s.store.DistinctHashes)
    (ticks : List PollTick) : (final (poller.pollOnce text) s ticks).store.DistinctHashes := by
  refine final_induction (poller.pollOnce text) (P := fun s : PollState => s.store.DistinctHashes) hs ?_
  intro s tick _ h
  rw [poller.pollOnce_store]
  exact h.pushNew _

end Poller

/-- A batch that repeats a stored hash and one of its own, pushed into a store that is full. -/
theorem distinctHashes_overlapping_batch :
    (final (barePoller.pollOnce exampleText) (startWith [pointWithHash "a", pointWithHash "b"] 2)
      [tickFetching [pointWithHash "b", pointWithHash "c", pointWithHash "c"],
        tickFetching [pointWithHash "b"]]).store.DistinctHashes :=
  barePoller.distinctHashes_run exampleText (startWith [pointWithHash "a", pointWithHash "b"] 2)
    (by unfold FeeHistoryStore.DistinctHashes; decide) _

namespace Poller

variable (poller : Poller)

@[simp] theorem pollOnce_store_capacity (text : Rfc3339) (s : PollState) (tick : PollTick) :
    (poller.pollOnce text s tick).1.store.capacity = s.store.capacity := by
  rw [pollOnce_store, FeeHistoryStore.foldl_push_capacity]

end Poller

/-! ## The order of the store -/

/-- The first point is not newer than the second. -/
def FeeDataPoint.NotNewer (p q : FeeDataPoint) : Prop := p.timestamp ≤ q.timestamp

instance : DecidableRel FeeDataPoint.NotNewer := fun p q =>
  inferInstanceAs (Decidable (p.timestamp ≤ q.timestamp))

instance : IsTrans FeeDataPoint FeeDataPoint.NotNewer where
  trans _ _ _ := le_trans

namespace FeeHistoryStore

variable (store : FeeHistoryStore)

/-- Every list that `get_since` and `get_last_n` return is in nondecreasing order of time. -/
def OldestFirst : Prop :=
  (∀ since, (store.getSince since).Pairwise FeeDataPoint.NotNewer) ∧
    ∀ n, (store.getLastN n).Pairwise FeeDataPoint.NotNewer

/-- While the points are pushed, each point that is evicted is the oldest one. -/
def EvictsOldest (points : List FeeDataPoint) : Prop :=
  BoundedQueue.EvictsLeast store.capacity FeeDataPoint.NotNewer store.data points

theorem oldestFirst_iff : store.OldestFirst ↔ store.data.Pairwise FeeDataPoint.NotNewer := by
  constructor
  · intro h
    have hall := h.2 store.data.length
    rwa [getLastN, Nat.sub_self, List.drop_zero] at hall
  · intro h
    exact ⟨fun since => h.filter _, fun n => h.sublist (List.drop_sublist _ _)⟩

/-- A batch leaves the store in order and evicts the oldest point each time exactly when the store
followed by the batch is in order. -/
theorem oldestFirst_foldl_push_iff (points : List FeeDataPoint) :
    store.EvictsOldest points ∧ (points.foldl push store).OldestFirst ↔
      (store.data ++ points).Pairwise FeeDataPoint.NotNewer := by
  rw [oldestFirst_iff, foldl_push_data, EvictsOldest, ← BoundedQueue.pairwise_append_iff]

end FeeHistoryStore

/-- Newest first. -/
def NewestFirst (points : List FeeDataPoint) : Prop :=
  points.Pairwise fun p q => q.NotNewer p

/-- A list that comes newest first is in order exactly when all its points have one timestamp. -/
theorem NewestFirst.pairwise_notNewer_iff {points : List FeeDataPoint} (h : NewestFirst points) :
    points.Pairwise FeeDataPoint.NotNewer ↔
      ∀ p ∈ points, ∀ q ∈ points, p.timestamp = q.timestamp := by
  constructor
  · intro hpairs p hp q hq
    have hall := hpairs.forall_of_forall_of_flip (fun p _ => le_refl p.timestamp) h
    exact le_antisymm (hall hp hq) (hall hq hp)
  · intro heq
    exact List.pairwise_of_forall_mem_list fun p hp q hq => (heq p hp q hq).le

theorem FeeHistoryStore.newestFirst_dropKnown (store : FeeHistoryStore) {points : List FeeDataPoint}
    (h : NewestFirst points) : NewestFirst (store.dropKnown points) := by
  rw [store.dropKnown_eq]
  exact (h.filter _).sublist (firstByKey_sublist _ _ _)

namespace Poller

variable (poller : Poller)

/-- In every state of the run the lists served are oldest first, and every point that a tick evicts
is the oldest. -/
def ServedOldestFirst (text : Rfc3339) (s : PollState) (ticks : List PollTick) : Prop :=
  (∀ k, (final (poller.pollOnce text) s (ticks.take k)).store.OldestFirst) ∧
    ∀ k tick, ticks[k]? = some tick →
      let before := final (poller.pollOnce text) s (ticks.take k)
      before.store.EvictsOldest (poller.newPoints before tick)

/-- The new points of the tick have one timestamp, which is not before that of any stored point. -/
def AdvancesAtOnce (s : PollState) (tick : PollTick) : Prop :=
  (∀ p ∈ poller.newPoints s tick, ∀ q ∈ poller.newPoints s tick, p.timestamp = q.timestamp) ∧
    ∀ p ∈ s.store.data, ∀ q ∈ poller.newPoints s tick, p.timestamp ≤ q.timestamp

/-- One tick: from a store in order the next one is in order, with the oldest points evicted, exactly
when the new points advance at once. -/
theorem oldestFirst_pollOnce_iff (text : Rfc3339) {s : PollState} {tick : PollTick}
    (hdesc : NewestFirst (poller.fetched tick)) (hs : s.store.OldestFirst) :
    s.store.EvictsOldest (poller.newPoints s tick) ∧ (poller.pollOnce text s tick).1.store.OldestFirst ↔
      poller.AdvancesAtOnce s tick := by
  have hnew : NewestFirst (poller.newPoints s tick) := s.store.newestFirst_dropKnown hdesc
  rw [pollOnce_store, FeeHistoryStore.oldestFirst_foldl_push_iff, List.pairwise_append,
    hnew.pairwise_notNewer_iff]
  exact and_iff_right (s.store.oldestFirst_iff.1 hs)

/-- When the provider delivers the newest points first, the lists served stay oldest first exactly
when the run starts from a store in order and the new points of each tick advance at once. -/
theorem servedOldestFirst_iff (text : Rfc3339) (s : PollState) (ticks : List PollTick)
    (hdesc : ∀ tick ∈ ticks, NewestFirst (poller.fetched tick)) :
    poller.ServedOldestFirst text s ticks ↔
      s.store.data.Pairwise FeeDataPoint.NotNewer ∧
        ∀ k tick, ticks[k]? = some tick →
          poller.AdvancesAtOnce (final (poller.pollOnce text) s (ticks.take k)) tick := by
  constructor
  · rintro ⟨hserved, hevicts⟩
    refine ⟨s.store.oldestFirst_iff.1 (hserved 0), ?_⟩
    intro k tick htick
    have hafter := hserved (k + 1)
    rw [final_take_succ _ _ _ htick] at hafter
    have hmem := List.mem_of_getElem? htick
    exact (poller.oldestFirst_pollOnce_iff text (hdesc tick hmem) (hserved k)).1
      ⟨hevicts k tick htick, hafter⟩
  · rintro ⟨hstart, hticks⟩
    have hserved : ∀ k, (final (poller.pollOnce text) s (ticks.take k)).store.OldestFirst := by
      refine final_take_induction (poller.pollOnce text)
        (P := fun s' : PollState => s'.store.OldestFirst) (s.store.oldestFirst_iff.2 hstart) ?_
      intro k tick htick hbefore
      have hmem := List.mem_of_getElem? htick
      exact ((poller.oldestFirst_pollOnce_iff text (hdesc tick hmem) hbefore).2
        (hticks k tick htick)).2
    refine ⟨hserved, ?_⟩
    intro k tick htick
    have hmem := List.mem_of_getElem? htick
    exact ((poller.oldestFirst_pollOnce_iff text (hdesc tick hmem) (hserved k)).2
      (hticks k tick htick)).1

end Poller

/-- Two overlapping batches, each with one new point. -/
theorem servedOldestFirst_one_new_point :
    barePoller.ServedOldestFirst exampleText (startWith [] 10)
      [tickFetching [pointAt "a" 0], tickFetching [pointAt "b" 1, pointAt "a" 0]] := by
  refine (barePoller.servedOldestFirst_iff _ _ _ ?_).2 ⟨List.Pairwise.nil, ?_⟩
  · intro tick htick
    simp only [List.mem_cons, List.not_mem_nil, or_false] at htick
    rcases htick with rfl | rfl
    · unfold NewestFirst
      decide
    · unfold NewestFirst
      decide
  · rintro (_ | _ | k) tick htick
    · obtain rfl := Option.some.inj htick
      unfold Poller.AdvancesAtOnce
      decide
    · obtain rfl := Option.some.inj htick
      unfold Poller.AdvancesAtOnce
      decide +kernel
    · cases htick

/-- A batch of two new points, newest first, is served newest first. -/
theorem batch_served_newest_first :
    ¬ barePoller.ServedOldestFirst exampleText (startWith [] 10)
      [tickFetching [pointAt "b" 1, pointAt "a" 0]] := by
  intro h
  have hserved := (FeeHistoryStore.oldestFirst_iff _).1 (h.1 1)
  revert hserved
  decide +kernel

end StellarFeeTracker
