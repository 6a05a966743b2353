import StellarFeeTracker.Insights.Types
import StellarFeeTracker.General.BoundedQueue

/-!
# In-memory fee history store

`FeeHistoryStore` holds a bounded window of `FeeDataPoint` values collected across polling cycles.
-/

namespace StellarFeeTracker

/-- Default maximum number of data points retained in memory. -/
def defaultCapacity : ℕ := 10000

/-- Capacity-bounded in-memory store, oldest point first. -/
structure FeeHistoryStore where
  data : List FeeDataPoint
  capacity : ℕ
  deriving DecidableEq, Repr

namespace FeeHistoryStore

def new (capacity : ℕ) : FeeHistoryStore where
  data := []
  capacity := capacity

variable (store : FeeHistoryStore)

/-- Append a new data point, evicting the oldest if the store is full. -/
def push (point : FeeDataPoint) : FeeHistoryStore :=
  { store with data := BoundedQueue.push store.capacity store.data point }

/-- All data points with a timestamp at or after `since`, oldest first. -/
def getSince (since : DateTime) : List FeeDataPoint :=
  store.data.filter fun p => since ≤ p.timestamp

/-- The `n` most recent data points, oldest first. -/
def getLastN (n : ℕ) : List FeeDataPoint :=
  store.data.drop (store.data.length - n)

/-- The first data point with the given transaction hash, if any. -/
def getByHash (hash : String) : Option FeeDataPoint :=
  store.data.find? fun p => p.transactionHash == hash

def len : ℕ := store.data.length

/-- No two points have the same transaction hash. -/
def DistinctHashes : Prop := (store.data.map (·.transactionHash)).Nodup

theorem getByHash_isNone_iff (hash : String) :
    (store.getByHash hash).isNone = true ↔ hash ∉ store.data.map (·.transactionHash) := by
  simp [getByHash]

@[simp] theorem foldl_push_capacity (points : List FeeDataPoint) :
    (points.foldl push store).capacity = store.capacity := by
  induction points generalizing store with
  | nil => rfl
  | cons p points ih => exact ih _

/-- Pushing a batch is pushing it on the queue. -/
theorem foldl_push_data (points : List FeeDataPoint) :
    (points.foldl push store).data = BoundedQueue.pushAll store.capacity store.data points := by
  induction points generalizing store with
  | nil => rfl
  | cons p points ih => exact ih _

/-- A batch for which there is room is appended. -/
theorem foldl_push_of_room {points : List FeeDataPoint}
    (h : store.data.length + points.length ≤ store.capacity) :
    points.foldl push store = { store with data := store.data ++ points } := by
  have hdata := store.foldl_push_data points
  rw [BoundedQueue.pushAll_eq_append _ h] at hdata
  have hcapacity := store.foldl_push_capacity points
  generalize points.foldl push store = store' at hdata hcapacity ⊢
  cases store'
  rw [hdata.symm, hcapacity.symm]

end FeeHistoryStore

end StellarFeeTracker
