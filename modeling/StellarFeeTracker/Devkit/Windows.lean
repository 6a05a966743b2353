import Mathlib.Data.List.DropRight
import Mathlib.Data.List.Sort
import StellarFeeTracker.General.BoundedQueue
import StellarFeeTracker.Numeric

/-!
# Fixed-size windows

A full window drops its oldest value before it takes another one, which makes it a bounded queue
(`slideAll_eq_pushAll`).  It is full when it holds exactly as many values as its capacity, so a window
of capacity 0 is full only while it is empty, and keeps every value (`slideAll_zero`).  The
percentiles are defined over any arithmetic with the operations of floats, and are `none` where the
code panics.
-/

namespace StellarFeeTracker.Devkit

/-- The operations on floats that percentiles use.  What cannot be ordered has no comparison. -/
class FloatOps (F : Type) extends Add F, Sub F, Mul F, Div F, NatCast F where
  partialCmp : F → F → Option Ordering
  floorAsUsize : F → ℕ
  ceilAsUsize : F → ℕ

instance : FloatOps ℚ where
  partialCmp p q := some (compare p q)
  floorAsUsize q := asU64 ⌊q⌋
  ceilAsUsize q := asU64 ⌈q⌉

variable {F : Type}

/-! ## Percentiles -/

section Percentiles

variable [FloatOps F]

/-- `sort_by(|a, b| a.partial_cmp(b).unwrap())`. -/
def sortByPartialCmp (values : List F) : Option (List F) :=
  if values.Pairwise fun a b => (FloatOps.partialCmp a b).isSome then
    some (values.insertionSort fun a b => FloatOps.partialCmp a b ≠ some .gt)
  else none

/-- A percentile of a sorted sample, between its two nearest values, and 0 for an empty one. -/
def interpolate (sorted : List F) (pct : F) : Option F :=
  if sorted.isEmpty then some (0 : ℕ)
  else do
    let rank := pct / (100 : ℕ) * (sorted.length - (1 : ℕ))
    let lower := FloatOps.floorAsUsize rank
    let upper := FloatOps.ceilAsUsize rank
    if lower = upper then sorted[lower]?
    else
      let frac := rank - lower
      let low ← sorted[lower]?
      let high ← sorted[upper]?
      some (low + (high - low) * frac)

end Percentiles

structure PercentileTable (F : Type) where
  p10 : F
  p50 : F
  p90 : F
  p99 : F
  deriving DecidableEq, Repr

namespace PercentileTable

variable [FloatOps F]

def percentile (sorted : List F) (pct : F) : Option F := interpolate sorted pct

def compute (values : List F) : Option (PercentileTable F) := do
  let sorted ← sortByPartialCmp values
  let p10 ← percentile sorted (10 : ℕ)
  let p50 ← percentile sorted (50 : ℕ)
  let p90 ← percentile sorted (90 : ℕ)
  let p99 ← percentile sorted (99 : ℕ)
  some { p10, p50, p90, p99 }

end PercentileTable

/-! ## The windows -/

/-- Append a value, after dropping the oldest one when there are as many as the capacity. -/
def slide (capacity : ℕ) (values : List F) (value : F) : List F :=
  (if values.length = capacity then values.tail else values) ++ [value]

structure RollingWindow (F : Type) where
  capacity : ℕ
  values : List F
  deriving DecidableEq, Repr

namespace RollingWindow

def new (capacity : ℕ) : RollingWindow F := { capacity, values := [] }

variable (window : RollingWindow F)

def push (value : F) : RollingWindow F :=
  { window with values := slide window.capacity window.values value }

def len : ℕ := window.values.length

def isEmpty : Bool := window.values.isEmpty

def snapshot : List F := window.values

end RollingWindow

structure Percentiles (F : Type) where
  p10 : F
  p50 : F
  p90 : F
  p99 : F
  deriving DecidableEq, Repr

structure WindowedPercentile (F : Type) where
  capacity : ℕ
  values : List F
  deriving DecidableEq, Repr

namespace WindowedPercentile

def new (capacity : ℕ) : WindowedPercentile F := { capacity, values := [] }

variable (window : WindowedPercentile F)

def push (value : F) : WindowedPercentile F :=
  { window with values := slide window.capacity window.values value }

variable [FloatOps F]

def percentile (sorted : List F) (pct : F) : Option F := interpolate sorted pct

def percentiles : Option (Percentiles F) := do
  let sorted ← sortByPartialCmp window.values
  let p10 ← percentile sorted (10 : ℕ)
  let p50 ← percentile sorted (50 : ℕ)
  let p90 ← percentile sorted (90 : ℕ)
  let p99 ← percentile sorted (99 : ℕ)
  some { p10, p50, p90, p99 }

end WindowedPercentile

/-! ## What a window holds -/

/-- The last values pushed, as many as the capacity or all of them. -/
def latest (capacity : ℕ) (pushes : List F) : List F := pushes.rtake (min capacity pushes.length)

def slideAll (capacity : ℕ) (values pushes : List F) : List F := pushes.foldl (slide capacity) values

section Slide

variable {capacity : ℕ} {values : List F}

/-- A window that is not over its capacity slides as a bounded queue does. -/
theorem slide_eq_push (h : values.length ≤ capacity) (value : F) :
    slide capacity values value = BoundedQueue.push capacity values value := by
  have hfull : values.length = capacity ↔ capacity ≤ values.length := by omega
  unfold slide BoundedQueue.push
  simp only [hfull]

theorem slideAll_eq_pushAll (hpos : 0 < capacity) (h : values.length ≤ capacity)
    (pushes : List F) :
    slideAll capacity values pushes = BoundedQueue.pushAll capacity values pushes := by
  induction pushes generalizing values with
  | nil => rfl
  | cons value pushes ih =>
    have hnext := BoundedQueue.length_pushAll_le capacity h hpos [value]
    rw [BoundedQueue.pushAll_cons, BoundedQueue.pushAll_nil] at hnext
    rw [BoundedQueue.pushAll_cons, ← ih hnext, ← slide_eq_push h]
    rfl

theorem slideAll_eq_latest (hpos : 0 < capacity) (pushes : List F) :
    slideAll capacity [] pushes = latest capacity pushes := by
  rw [slideAll_eq_pushAll hpos (Nat.zero_le _), BoundedQueue.pushAll_eq_drop, List.nil_append,
    BoundedQueue.room, List.length_nil, latest, List.rtake]
  congr 1
  omega

/-- With no capacity, nothing is dropped. -/
theorem slideAll_zero (values pushes : List F) : slideAll 0 values pushes = values ++ pushes := by
  induction pushes generalizing values with
  | nil => exact (List.append_nil values).symm
  | cons value pushes ih =>
    have hslide : slide 0 values value = values ++ [value] := by
      cases values <;> rfl
    have hrest : slideAll 0 values (value :: pushes) = slideAll 0 (slide 0 values value) pushes := rfl
    rw [hrest, hslide, ih, List.append_assoc, List.singleton_append]

theorem latest_zero (pushes : List F) : latest 0 pushes = [] := by
  rw [latest, Nat.zero_min, List.rtake_zero]

/-- A window holds the latest values unless it has no capacity and something was pushed. -/
theorem slideAll_eq_latest_iff (capacity : ℕ) (pushes : List F) :
    slideAll capacity [] pushes = latest capacity pushes ↔ 0 < capacity ∨ pushes = [] := by
  rcases Nat.eq_zero_or_pos capacity with rfl | hpos
  · rw [slideAll_zero, latest_zero, List.nil_append, or_iff_right (lt_irrefl 0)]
  · exact iff_of_true (slideAll_eq_latest hpos pushes) (Or.inl hpos)

end Slide

/-- What a run leaves in a window whose pushes slide. -/
theorem values_foldl {S : Type} (size : S → ℕ) (values : S → List F) (push : S → F → S)
    (hsize : ∀ s value, size (push s value) = size s)
    (hvalues : ∀ s value, values (push s value) = slide (size s) (values s) value)
    (s : S) (pushes : List F) :
    values (pushes.foldl push s) = slideAll (size s) (values s) pushes := by
  induction pushes generalizing s with
  | nil => rfl
  | cons value pushes ih =>
    rw [List.foldl_cons, ih, hsize, hvalues]
    rfl

namespace RollingWindow

def run (capacity : ℕ) (pushes : List F) : RollingWindow F := pushes.foldl push (new capacity)

theorem snapshot_run (n : ℕ) (pushes : List F) :
    (run n pushes).snapshot = slideAll n [] pushes :=
  values_foldl capacity values push (fun _ _ => rfl) (fun _ _ => rfl) (new n) pushes

end RollingWindow

namespace WindowedPercentile

def run (capacity : ℕ) (pushes : List F) : WindowedPercentile F := pushes.foldl push (new capacity)

theorem values_run (n : ℕ) (pushes : List F) :
    (run n pushes).values = slideAll n [] pushes :=
  values_foldl capacity values push (fun _ _ => rfl) (fun _ _ => rfl) (new n) pushes

end WindowedPercentile

/-- The same four numbers as a table. -/
def Percentiles.toTable (percentiles : Percentiles F) : PercentileTable F where
  p10 := percentiles.p10
  p50 := percentiles.p50
  p90 := percentiles.p90
  p99 := percentiles.p99

variable [FloatOps F]

/-- The percentiles of a window are the table of the values in it, or both panic. -/
theorem WindowedPercentile.percentiles_toTable (window : WindowedPercentile F) :
    window.percentiles.map Percentiles.toTable = PercentileTable.compute window.values := by
  unfold percentiles PercentileTable.compute percentile PercentileTable.percentile
  simp only [Option.bind_eq_bind, Option.map_bind, Function.comp_def, Option.map_some,
    Percentiles.toTable]

/-- Both windows hold the latest values, and the percentiles are the table of these. -/
structure HoldsLatest (capacity : ℕ) (pushes : List F) : Prop where
  rolling : (RollingWindow.run capacity pushes).snapshot = latest capacity pushes
  windowed : (WindowedPercentile.run capacity pushes).values = latest capacity pushes
  percentiles : (WindowedPercentile.run capacity pushes).percentiles.map Percentiles.toTable =
    PercentileTable.compute (latest capacity pushes)

/-- The windows hold the latest values unless they have no capacity and something was pushed. -/
theorem holdsLatest_iff (capacity : ℕ) (pushes : List F) :
    HoldsLatest capacity pushes ↔ 0 < capacity ∨ pushes = [] := by
  rw [← slideAll_eq_latest_iff]
  constructor
  · intro h
    rw [← RollingWindow.snapshot_run]
    exact h.rolling
  · intro h
    constructor
    · rw [RollingWindow.snapshot_run, h]
    · rw [WindowedPercentile.values_run, h]
    · rw [WindowedPercentile.percentiles_toTable, WindowedPercentile.values_run, h]

/-- One value pushed into windows of capacity 0. -/
theorem not_holdsLatest : ¬ ∀ (capacity : ℕ) (pushes : List ℚ), HoldsLatest capacity pushes :=
  fun h => absurd (h 0 [1]).rolling (by decide)

/-! ## Percentiles of numbers -/

/-- A percentile whose two ranks are in the sample has a value. -/
theorem interpolate_isSome_of_lt {sorted : List F} {pct rank : F}
    (hrank : rank = pct / (100 : ℕ) * (sorted.length - (1 : ℕ)))
    (hlower : FloatOps.floorAsUsize rank < sorted.length)
    (hupper : FloatOps.ceilAsUsize rank < sorted.length) : (interpolate sorted pct).isSome := by
  unfold interpolate
  simp only [← hrank, List.getElem?_eq_getElem hlower, List.getElem?_eq_getElem hupper]
  split_ifs <;> rfl

theorem PercentileTable.compute_isSome_of_percentile {values sorted : List F}
    (hsorted : sortByPartialCmp values = some sorted)
    (h : ∀ n : ℕ, n ≤ 100 → (percentile sorted (n : F)).isSome) : (compute values).isSome := by
  obtain ⟨p10, h10⟩ := Option.isSome_iff_exists.1 (h 10 (by decide))
  obtain ⟨p50, h50⟩ := Option.isSome_iff_exists.1 (h 50 (by decide))
  obtain ⟨p90, h90⟩ := Option.isSome_iff_exists.1 (h 90 (by decide))
  obtain ⟨p99, h99⟩ := Option.isSome_iff_exists.1 (h 99 (by decide))
  unfold compute
  simp only [hsorted, h10, h50, h90, h99, Option.bind_eq_bind, Option.bind_some,
    Option.isSome_some]

theorem asU64_intCast_lt {k : ℤ} {n : ℕ} (hn : 0 < n) (hk : k ≤ (n - 1 : ℕ)) : asU64 k < n := by
  rw [asU64, Int.floor_intCast]
  omega

theorem interpolate_isSome (sorted : List ℚ) {pct : ℚ} (hpct : pct ≤ 100) :
    (interpolate sorted pct).isSome := by
  rcases Nat.eq_zero_or_pos sorted.length with hempty | hpos
  · rw [List.eq_nil_of_length_eq_zero hempty]
    rfl
  · have hlast : pct / 100 * ((sorted.length : ℚ) - 1) ≤ (sorted.length - 1 : ℕ) := by
      rw [← Nat.cast_pred hpos]
      exact mul_le_of_le_one_left (Nat.cast_nonneg _) (div_le_one_of_le₀ hpct (by norm_num))
    have hceil : ⌈pct / 100 * ((sorted.length : ℚ) - 1)⌉ ≤ (sorted.length - 1 : ℕ) :=
      Int.ceil_le.2 hlast
    exact interpolate_isSome_of_lt rfl
      (asU64_intCast_lt hpos ((Int.floor_le_ceil _).trans hceil)) (asU64_intCast_lt hpos hceil)

/-- Numbers never make a table panic. -/
theorem PercentileTable.compute_isSome (values : List ℚ) :
    (PercentileTable.compute values).isSome := by
  have hcomparable : values.Pairwise fun a b => (FloatOps.partialCmp a b).isSome :=
    List.pairwise_of_forall fun _ _ => rfl
  exact compute_isSome_of_percentile (if_pos hcomparable) fun n hn =>
    interpolate_isSome _ (by exact_mod_cast hn)

example : PercentileTable.compute [30, 10, (20 : ℚ)] =
    some { p10 := 12, p50 := 20, p90 := 28, p99 := 149 / 5 } := by decide +kernel

end StellarFeeTracker.Devkit
