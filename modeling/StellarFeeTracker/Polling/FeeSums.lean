import StellarFeeTracker.Api.FeeHistory
import StellarFeeTracker.Insights.HorizonAdapter
import StellarFeeTracker.Insights.Processing
import StellarFeeTracker.Polling.Tick
import Mathlib.Algebra.Order.BigOperators.Group.List
import Mathlib.Data.List.DropRight

/-!
# Sums of stored fees

The fee history and the recommendation add the fees of stored points as unsigned integers of 64
bits.  A tick stores what the adapter converts without a look at the fee, so after every tick of a run
the sums fit exactly when the fees of the last day and the last hundred fees do that the tick leaves in
the store (`sumsFit_run_iff`).
-/

namespace StellarFeeTracker

open Machine

/-! ## The sums over a store -/

def feeSum (fees : List FeeDataPoint) : ℕ := (fees.map (·.feeAmount)).sum

/-- The sum over the sorted fees, as both endpoints compute it, fits when the sum of the fees does. -/
theorem isSome_sumU64_sortedFees_iff (fees : List FeeDataPoint) :
    (sumU64 (sortedFees fees)).isSome ↔ feeSum fees ≤ u64Max := by
  rw [isSome_sumU64_iff, sortedFees, (List.perm_insertionSort _ _).sum_eq, feeSum]

/-- The summary of fees whose sum fits has their mean. -/
theorem computeSummary_avg {fees : List FeeDataPoint} (h : (sumU64 (sortedFees fees)).isSome) :
    (computeSummary fees).avg = feeSum fees / fees.length := by
  obtain ⟨sum, hsum⟩ := Option.isSome_iff_exists.1 h
  have htotal : sum = feeSum fees := by
    have hexact := sumU64_eq ((isSome_sumU64_iff _).1 h)
    rw [hsum] at hexact
    rw [Option.some.inj hexact, sortedFees, (List.perm_insertionSort _ _).sum_eq, feeSum]
  rcases eq_or_ne fees [] with rfl | hne
  · simp [computeSummary, feeSum]
  · unfold computeSummary
    rw [if_neg (by simpa using hne)]
    simp only [wrappingSumU64_of_sumU64 hsum, htotal]
    rw [sortedFees, List.length_insertionSort, List.length_map]

theorem feeSum_le_of_sublist {fees fees' : List FeeDataPoint} (h : fees.Sublist fees') :
    feeSum fees ≤ feeSum fees' :=
  (h.map _).sum_le_sum fun _ _ => Nat.zero_le _

theorem parseWindow_le {window : String} {duration : Duration}
    (h : parseWindow window = some duration) : duration ≤ hours 24 := by
  unfold parseWindow at h
  split_ifs at h <;> obtain rfl := Option.some.inj h <;> decide

namespace FeeHistoryStore

variable (store : FeeHistoryStore)

/-- For requests from an instant on, no sum of the fee history, whatever the window, and no sum of the
recommendation overflows. -/
structure SumsFit (asOf : DateTime) : Prop where
  history : ∀ window duration now, asOf ≤ now → parseWindow window = some duration →
    (sumU64 (sortedFees (store.getSince (now - duration)))).isSome
  recommend : (sumU64 (sortedFees (store.getLastN 100))).isSome

theorem sumsFit_iff (asOf : DateTime) :
    store.SumsFit asOf ↔
      feeSum (store.getSince (asOf - hours 24)) ≤ u64Max ∧
        feeSum (store.getLastN 100) ≤ u64Max := by
  constructor
  · rintro ⟨hhistory, hrecommend⟩
    have hday := hhistory "24h" (hours 24) asOf le_rfl (by decide)
    exact ⟨(isSome_sumU64_sortedFees_iff _).1 hday, (isSome_sumU64_sortedFees_iff _).1 hrecommend⟩
  · rintro ⟨hday, hlast⟩
    refine ⟨fun window duration now hnow hwindow => ?_, (isSome_sumU64_sortedFees_iff _).2 hlast⟩
    have hshort := parseWindow_le hwindow
    have hsublist : (store.getSince (now - duration)).Sublist (store.getSince (asOf - hours 24)) := by
      refine List.monotone_filter_right _ fun p hp => ?_
      rw [decide_eq_true_eq] at hp ⊢
      exact (sub_le_sub hnow hshort).trans hp
    exact (isSome_sumU64_sortedFees_iff _).2 ((feeSum_le_of_sublist hsublist).trans hday)

theorem sumsFit_of_feeSum_le (h : feeSum store.data ≤ u64Max) (asOf : DateTime) :
    store.SumsFit asOf :=
  (store.sumsFit_iff asOf).2 ⟨(feeSum_le_of_sublist List.filter_sublist).trans h,
    (feeSum_le_of_sublist (List.drop_sublist _ _)).trans h⟩

end FeeHistoryStore

/-! ## Runs -/

namespace Poller

variable (poller : Poller)

/-- The points that are in the store after a tick: the last ones of those before it and the new ones,
as many as there is room for. -/
def leftPoints (s : PollState) (tick : PollTick) : List FeeDataPoint :=
  (s.store.data ++ poller.newPoints s tick).rtake (max s.store.capacity 1)

/-- The fees of the last day at the time of the tick fit, and so do the last hundred fees, of the points
that it leaves in the store. -/
def LeavesFit (s : PollState) (tick : PollTick) : Prop :=
  feeSum ((poller.leftPoints s tick).filter fun p => tick.now - hours 24 ≤ p.timestamp) ≤ u64Max ∧
    feeSum ((poller.leftPoints s tick).rtake 100) ≤ u64Max

instance (s : PollState) (tick : PollTick) : Decidable (poller.LeavesFit s tick) :=
  inferInstanceAs (Decidable (_ ∧ _))

theorem data_pollOnce (text : Rfc3339) {s : PollState} (hs : s.store.len ≤ max s.store.capacity 1)
    (tick : PollTick) :
    (poller.pollOnce text s tick).1.store.data = poller.leftPoints s tick := by
  unfold FeeHistoryStore.len at hs
  have hroom : BoundedQueue.room s.store.capacity s.store.data.length = max s.store.capacity 1 := by
    unfold BoundedQueue.room
    omega
  rw [pollOnce_store, FeeHistoryStore.foldl_push_data, BoundedQueue.pushAll_eq_drop, hroom,
    leftPoints, List.rtake, List.length_append]

/-- A store that starts empty never holds more points than there is room for. -/
theorem len_run (text : Rfc3339) {s : PollState} (hs : s.store.data = []) (ticks : List PollTick) :
    (final (poller.pollOnce text) s ticks).store.len ≤
      max (final (poller.pollOnce text) s ticks).store.capacity 1 := by
  refine final_induction (poller.pollOnce text)
    (P := fun s : PollState => s.store.len ≤ max s.store.capacity 1) ?_ ?_
  · rw [FeeHistoryStore.len, hs]
    exact Nat.zero_le _
  · intro s' tick _ hlen
    rw [FeeHistoryStore.len, poller.data_pollOnce text hlen, pollOnce_store,
      FeeHistoryStore.foldl_push_capacity, leftPoints, List.rtake, List.length_drop]
    omega

/-- From an empty store, the sums fit for the requests from each tick of a run on exactly when every
tick leaves fees that do. -/
theorem sumsFit_run_iff (text : Rfc3339) {s : PollState} (hs : s.store.data = [])
    (ticks : List PollTick) :
    ((∀ asOf, s.store.SumsFit asOf) ∧ ∀ k tick, ticks[k]? = some tick →
        (final (poller.pollOnce text) s (ticks.take (k + 1))).store.SumsFit tick.now) ↔
      ∀ k tick, ticks[k]? = some tick →
        poller.LeavesFit (final (poller.pollOnce text) s (ticks.take k)) tick := by
  have hstart : ∀ asOf, s.store.SumsFit asOf :=
    s.store.sumsFit_of_feeSum_le (by rw [hs]; exact Nat.zero_le _)
  rw [and_iff_right hstart]
  refine forall_congr' fun k => forall_congr' fun tick => imp_congr_right fun htick => ?_
  rw [final_take_succ _ _ _ htick, FeeHistoryStore.sumsFit_iff, FeeHistoryStore.getSince,
    FeeHistoryStore.getLastN, poller.data_pollOnce text (poller.len_run text hs _)]
  rfl

/-- The sums fit in every run in which the provider delivers only what the insights engine accepts. -/
theorem sumsFit_of_passes (text : Rfc3339) {s : PollState} (hs : s.store.data = [])
    (hcapacity : s.store.capacity ≤ defaultCapacity) {ticks : List PollTick}
    (hpass : ∀ tick ∈ ticks, ∀ p ∈ poller.fetched tick, FeeInsightsEngine.Passes tick.now p)
    (asOf : DateTime) : (final (poller.pollOnce text) s ticks).store.SumsFit asOf := by
  have hstored : (final (poller.pollOnce text) s ticks).store.capacity = s.store.capacity ∧
      ∀ p ∈ (final (poller.pollOnce text) s ticks).store.data, p.feeAmount ≤ 1000000000 := by
    refine final_induction (poller.pollOnce text) (P := fun s' : PollState =>
      s'.store.capacity = s.store.capacity ∧ ∀ p ∈ s'.store.data, p.feeAmount ≤ 1000000000) ?_ ?_
    · rw [hs]
      exact ⟨rfl, fun _ hp => absurd hp List.not_mem_nil⟩
    · intro s' tick htick ⟨hsame, hfees⟩
      rw [pollOnce_store, FeeHistoryStore.foldl_push_capacity, FeeHistoryStore.foldl_push_data]
      refine ⟨hsame, fun p hp => ?_⟩
      rcases List.mem_append.1 ((BoundedQueue.pushAll_suffix _ _ _).subset hp) with hp | hp
      · exact hfees p hp
      · exact (hpass tick htick p (s'.store.mem_dropKnown hp).1).feeAmount_le
  have hlen := poller.len_run text hs ticks
  rw [hstored.1] at hlen
  have hroom : (final (poller.pollOnce text) s ticks).store.len ≤ 10000 :=
    hlen.trans (max_le hcapacity (by decide))
  refine FeeHistoryStore.sumsFit_of_feeSum_le _ ?_ asOf
  calc feeSum (final (poller.pollOnce text) s ticks).store.data
      ≤ (final (poller.pollOnce text) s ticks).store.len * 1000000000 :=
        FeeInsightsEngine.sum_feeAmount_le hstored.2
    _ ≤ 10000 * 1000000000 := Nat.mul_le_mul_right _ hroom
    _ ≤ u64Max := by decide

end Poller

/-- A successful transaction that was charged this fee. -/
def chargedRecord (hash feeCharged : String) : HorizonTransactionRecord where
  hash := hash
  ledger := 50000001
  createdAt := "2025-01-14T10:47:00+00:00"
  feeCharged := feeCharged
  successful := true

/-- A tick that fetches what the adapter makes of these transactions. -/
def tickOfRecords (records : List HorizonTransactionRecord) : PollTick :=
  tickFetching (records.filterMap (HorizonTransactionRecord.convertToFeeDataPoint exampleText))

/-- Three transactions over two ticks whose fees are `u64::MAX` together. -/
theorem sumsFit_run_iff_usual :
    let ticks := [tickOfRecords [chargedRecord "a" "100", chargedRecord "b" "200"],
      tickOfRecords [chargedRecord "b" "200", chargedRecord "c" "18446744073709551315"]]
    ∀ k tick, ticks[k]? = some tick →
      (final (barePoller.pollOnce exampleText) (startWith [] defaultCapacity)
        (ticks.take (k + 1))).store.SumsFit tick.now := by
  intro ticks
  refine ((barePoller.sumsFit_run_iff exampleText rfl ticks).2 fun k tick htick => ?_).2
  match k, htick with
  | 0, htick =>
    obtain rfl := Option.some.inj htick
    decide
  | 1, htick =>
    obtain rfl := Option.some.inj htick
    decide +kernel
  | k + 2, htick => cases htick

/-- Two transactions whose fees exceed `u64::MAX` together. -/
theorem not_sumsFit_dear :
    let tick := tickOfRecords [chargedRecord "a" "18446744073709551615", chargedRecord "b" "1"]
    ¬ (final (barePoller.pollOnce exampleText) (startWith [] defaultCapacity) [tick]).store.SumsFit
      tick.now := by
  intro tick
  rw [FeeHistoryStore.sumsFit_iff]
  decide

end StellarFeeTracker
