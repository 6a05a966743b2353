import Mathlib.Data.List.GetD
import Mathlib.Data.List.Sort
import Mathlib.Order.Bounds.Basic

/-!
# Order statistics

The element of a rank in a sorted list, as `getD` reads it: the least element with more elements up to
it than the rank (`isLeast_getD`).  As a function of one of the elements of the list, it is this
element between two bounds (`exists_clamp_orderedInsert`).
-/

namespace OrderStatistic

variable {α : Type*}

theorem getD_mem {l : List α} {i : ℕ} (h : i < l.length) (d : α) : l.getD i d ∈ l := by
  rw [List.getD_eq_getElem l d h]
  exact List.getElem_mem h

theorem exists_getD_of_mem {l : List α} {a : α} (h : a ∈ l) (d : α) :
    ∃ i < l.length, l.getD i d = a := by
  obtain ⟨i, hi, rfl⟩ := List.mem_iff_getElem.1 h
  exact ⟨i, hi, List.getD_eq_getElem l d hi⟩

variable [Preorder α] {l : List α}

/-- A higher rank has a larger element. -/
theorem getD_le_getD (hsorted : l.SortedLE) {i j : ℕ} (hij : i ≤ j) (hj : j < l.length) (d : α) :
    l.getD i d ≤ l.getD j d := by
  rw [List.getD_eq_getElem l d (hij.trans_lt hj), List.getD_eq_getElem l d hj]
  exact hsorted.getElem_le_getElem_of_le hij

/-- No element is above the last. -/
theorem le_getD_last (hsorted : l.SortedLE) {a : α} (h : a ∈ l) (d : α) :
    a ≤ l.getD (l.length - 1) d := by
  obtain ⟨i, hi, rfl⟩ := exists_getD_of_mem h d
  exact getD_le_getD hsorted (Nat.le_sub_one_of_lt hi) (Nat.sub_one_lt_of_lt hi) d

theorem insertionSort_ne_nil {α : Type*} [LinearOrder α] {l : List α} (hne : l ≠ []) :
    l.insertionSort (· ≤ ·) ≠ [] := by
  intro hnil
  have hlength := List.length_insertionSort (· ≤ ·) l
  rw [hnil] at hlength
  exact hne (List.eq_nil_of_length_eq_zero hlength.symm)

/-- Any two arrangements of a list have the same sorted one. -/
theorem insertionSort_perm {α : Type*} [LinearOrder α] {l l' : List α} (h : l.Perm l') :
    l.insertionSort (· ≤ ·) = l'.insertionSort (· ≤ ·) :=
  List.Perm.eq_of_sortedLE List.sortedLE_insertionSort List.sortedLE_insertionSort
    ((List.perm_insertionSort _ l).trans (h.trans (List.perm_insertionSort _ l').symm))

/-! ## Counting -/

section Count

variable {α : Type*} [LinearOrder α] {l : List α}

/-- The elements up to a value are as many as the ranks whose elements are. -/
theorem lt_countP_le_iff (hsorted : l.SortedLE) (x d : α) (r : ℕ) :
    r < l.countP (fun y => y ≤ x) ↔ r < l.length ∧ l.getD r d ≤ x := by
  induction l generalizing r with
  | nil => simp
  | cons b l ih =>
    obtain ⟨hfirst, hrest⟩ := List.pairwise_cons.1 hsorted.pairwise
    by_cases hle : b ≤ x
    · have hcount : (b :: l).countP (fun y => y ≤ x) = l.countP (fun y => y ≤ x) + 1 :=
        List.countP_cons_of_pos (by simpa using hle)
      rw [hcount]
      cases r with
      | zero => simp [hle]
      | succ r =>
        rw [Nat.succ_lt_succ_iff, ih hrest.sortedLE, List.length_cons, Nat.succ_lt_succ_iff]
        rfl
    · have hnone : (b :: l).countP (fun y => y ≤ x) = 0 := by
        refine List.countP_eq_zero.2 fun y hy => ?_
        have hby : b ≤ y := by
          rcases List.mem_cons.1 hy with rfl | hy
          · exact le_rfl
          · exact hfirst y hy
        simpa using (not_le.1 hle).trans_le hby
      rw [hnone]
      refine iff_of_false (Nat.not_lt_zero r) ?_
      rintro ⟨hlt, hvalue⟩
      exact hle ((getD_le_getD hsorted (Nat.zero_le r) hlt d).trans hvalue)

/-- The element of a rank is the least one with more elements up to it than the rank. -/
theorem isLeast_getD (hsorted : l.SortedLE) {r : ℕ} (hr : r < l.length) (d : α) :
    IsLeast {x | x ∈ l ∧ r < l.countP fun y => y ≤ x} (l.getD r d) := by
  constructor
  · exact ⟨getD_mem hr d, (lt_countP_le_iff hsorted _ d r).2 ⟨hr, le_rfl⟩⟩
  · rintro x ⟨-, hcount⟩
    exact ((lt_countP_le_iff hsorted x d r).1 hcount).2

end Count

/-! ## A list with one more element -/

section Insert

variable {α : Type*} [LinearOrder α] {l : List α}

theorem getD_zero_orderedInsert (hne : 0 < l.length) (x d : α) :
    (l.orderedInsert (· ≤ ·) x).getD 0 d = min x (l.getD 0 d) := by
  cases l with
  | nil => cases hne
  | cons b l =>
    rw [List.orderedInsert_cons]
    split_ifs with hle
    · exact (min_eq_left hle).symm
    · exact (min_eq_right (not_le.1 hle).le).symm

/-- A further element takes a rank if it lies between the elements of that rank and the rank before. -/
theorem getD_succ_orderedInsert (hsorted : l.SortedLE) {j : ℕ} (hj : j + 1 < l.length) (x d : α) :
    (l.orderedInsert (· ≤ ·) x).getD (j + 1) d = max (l.getD j d) (min x (l.getD (j + 1) d)) := by
  induction l generalizing j with
  | nil => cases hj
  | cons b l ih =>
    have htail : l.SortedLE := (List.pairwise_cons.1 hsorted.pairwise).2.sortedLE
    rw [List.orderedInsert_cons]
    split_ifs with hle
    · have hlow : b ≤ (b :: l).getD j d := getD_le_getD hsorted (Nat.zero_le j) (by omega) d
      exact (max_eq_left ((min_le_left _ _).trans (hle.trans hlow))).symm
    · cases j with
      | zero =>
        have hnext : b ≤ l.getD 0 d := getD_le_getD hsorted (Nat.zero_le 1) hj d
        show (l.orderedInsert (· ≤ ·) x).getD 0 d = max b (min x (l.getD 0 d))
        rw [getD_zero_orderedInsert (Nat.lt_of_succ_lt_succ hj)]
        exact (max_eq_right (le_min (not_le.1 hle).le hnext)).symm
      | succ j => exact ih htail (Nat.lt_of_succ_lt_succ hj)

/-- The element of a rank, as a function of one element of the list: it is that element between two
bounds, unless the list has no other element. -/
theorem exists_clamp_orderedInsert [OrderBot α] (hsorted : l.SortedLE) {j : ℕ} (hj : j < l.length)
    (d : α) :
    ∃ low high, ∀ x, (l.orderedInsert (· ≤ ·) x).getD j d = max low (min x high) := by
  cases j with
  | zero => exact ⟨⊥, l.getD 0 d, fun x => by rw [getD_zero_orderedInsert hj, bot_sup_eq]⟩
  | succ j => exact ⟨l.getD j d, l.getD (j + 1) d, fun x => getD_succ_orderedInsert hsorted hj x d⟩

end Insert

/-! ## An element between two bounds -/

/-- If raising an element moves what lies between two bounds, this was not below the element and is
not above the raised one. -/
theorem clamp_step {α : Type*} [LinearOrder α] {low high x y : α} (hxy : x ≤ y) :
    max low (min x high) = max low (min y high) ∨
      x ≤ max low (min x high) ∧ max low (min y high) ≤ y := by
  rcases le_total high x with hhigh | hhigh
  · left
    rw [min_eq_right hhigh, min_eq_right (hhigh.trans hxy)]
  · rcases le_total y low with hlow | hlow
    · left
      rw [max_eq_left ((min_le_left _ _).trans (hxy.trans hlow)),
        max_eq_left ((min_le_left _ _).trans hlow)]
    · right
      refine ⟨?_, max_le hlow (min_le_left _ _)⟩
      rw [min_eq_left hhigh]
      exact le_max_right _ _

end OrderStatistic
