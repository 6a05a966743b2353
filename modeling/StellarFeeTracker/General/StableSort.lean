import Mathlib.Data.List.Sort
import Mathlib.Tactic.Common

/-!
# Stable sorting by a key
-/

namespace StableSort

variable {α κ : Type*} [LinearOrder κ] (key : α → κ)

/-- One list is the other in the order of the keys, with the elements of each key in the order in
which they were. -/
structure IsStableSort (l sorted : List α) : Prop where
  perm : sorted.Perm l
  ordered : sorted.Pairwise fun a b => key a ≤ key b
  stable : ∀ k, sorted.filter (fun a => key a = k) = l.filter fun a => key a = k

/-- An element is inserted behind smaller keys only. -/
theorem filter_orderedInsert (a : α) (l : List α) (k : κ) :
    (l.orderedInsert (fun a b => key a ≤ key b) a).filter (fun a => key a = k) =
      (a :: l).filter fun a => key a = k := by
  induction l with
  | nil => rfl
  | cons b l ih =>
    rw [List.orderedInsert_cons]
    split_ifs with hle
    · rfl
    · rw [List.filter_cons, ih]
      by_cases ha : key a = k
      · have hb : ¬ key b = k := fun hb => hle (ha.trans hb.symm).le
        simp only [List.filter_cons, decide_eq_true ha, decide_eq_false hb, if_true,
          Bool.false_eq_true, if_false]
      · simp only [List.filter_cons, decide_eq_false ha, Bool.false_eq_true, if_false]

theorem filter_insertionSort (l : List α) (k : κ) :
    (l.insertionSort fun a b => key a ≤ key b).filter (fun a => key a = k) =
      l.filter fun a => key a = k := by
  induction l with
  | nil => rfl
  | cons a l ih =>
    rw [List.insertionSort_cons, filter_orderedInsert, List.filter_cons, ih, List.filter_cons]

theorem isStableSort_insertionSort (l : List α) :
    IsStableSort key l (l.insertionSort fun a b => key a ≤ key b) where
  perm := List.perm_insertionSort _ l
  ordered := by
    have : Std.Total fun a b : α => key a ≤ key b := ⟨fun a b => le_total (key a) (key b)⟩
    have : IsTrans α fun a b => key a ≤ key b := ⟨fun a b c => le_trans⟩
    exact List.pairwise_insertionSort _ l
  stable := filter_insertionSort key l

variable {key} in
/-- Elements that are in strict order already are not moved. -/
theorem IsStableSort.eq_of_pairwise_lt {l sorted : List α} (h : IsStableSort key l sorted)
    (hlt : l.Pairwise fun a b => key a < key b) : sorted = l := by
  have hnodup : (l.map key).Nodup := List.pairwise_map.2 (hlt.imp fun h => h.ne)
  refine h.perm.eq_of_pairwise (fun a b ha hb hab hba => ?_) h.ordered (hlt.imp fun h => h.le)
  exact List.inj_on_of_nodup_map hnodup (h.perm.mem_iff.1 ha) hb (le_antisymm hab hba)

end StableSort
