import Mathlib.Data.List.Infix
import Mathlib.Tactic.Common

/-!
# Bounded queues

`push capacity data x` appends `x` and drops the oldest element when the queue was full.  Pushing a
list of elements leaves the last elements of the queue followed by the list (`pushAll_eq_drop`).  A
queue of capacity 0 still holds the last element, and one that is too long stays as long as it is.
Whether a queue stays ordered is a matter of the queue followed by the list (`pairwise_append_iff`).
-/

namespace BoundedQueue

variable {α : Type*} (capacity : ℕ)

/-- Append an element, dropping the oldest one if the queue is full. -/
def push (data : List α) (x : α) : List α :=
  (if capacity ≤ data.length then data.tail else data) ++ [x]

/-- Append the elements of a list, one after the other. -/
def pushAll (data xs : List α) : List α := xs.foldl (push capacity) data

@[simp] theorem pushAll_nil (data : List α) : pushAll capacity data [] = data := rfl

@[simp] theorem pushAll_cons (data : List α) (x : α) (xs : List α) :
    pushAll capacity data (x :: xs) = pushAll capacity (push capacity data x) xs := rfl

theorem push_suffix (data : List α) (x : α) : push capacity data x <:+ data ++ [x] := by
  unfold push
  split_ifs
  · cases data with
    | nil => exact List.suffix_refl _
    | cons a data => exact List.suffix_cons a (data ++ [x])
  · exact List.suffix_refl _

/-- What is left is a suffix of everything that ever was in the queue. -/
theorem pushAll_suffix (data xs : List α) : pushAll capacity data xs <:+ data ++ xs := by
  induction xs generalizing data with
  | nil => rw [pushAll_nil, List.append_nil]
  | cons x xs ih =>
    have hrest : push capacity data x ++ xs <:+ data ++ [x] ++ xs := by
      obtain ⟨dropped, hdropped⟩ := push_suffix capacity data x
      exact ⟨dropped, by rw [← List.append_assoc, hdropped]⟩
    rw [pushAll_cons]
    refine (ih _).trans ?_
    rwa [List.append_assoc, List.singleton_append] at hrest

/-- How many elements there is room for in a queue that holds `n` elements. -/
def room (n : ℕ) : ℕ := max capacity (max n 1)

theorem length_push (data : List α) (x : α) :
    (push capacity data x).length = min (data.length + 1) (room capacity data.length) := by
  unfold push room
  split_ifs
  · rw [List.length_append, List.length_tail, List.length_singleton]
    omega
  · rw [List.length_append, List.length_singleton]
    omega

theorem length_pushAll (data xs : List α) :
    (pushAll capacity data xs).length =
      min (data.length + xs.length) (room capacity data.length) := by
  induction xs generalizing data with
  | nil =>
    rw [pushAll_nil, List.length_nil, room]
    omega
  | cons x xs ih =>
    rw [pushAll_cons, ih, length_push, List.length_cons]
    unfold room
    omega

theorem length_pushAll_le {data : List α} (h : data.length ≤ capacity) (hpos : 0 < capacity)
    (xs : List α) : (pushAll capacity data xs).length ≤ capacity := by
  rw [length_pushAll, room]
  omega

/-- What is left are the last elements of the queue followed by the list, as many as there is room
for. -/
theorem pushAll_eq_drop (data xs : List α) :
    pushAll capacity data xs =
      (data ++ xs).drop (data.length + xs.length - room capacity data.length) := by
  have h := List.suffix_iff_eq_drop.1 (pushAll_suffix capacity data xs)
  rw [length_pushAll, List.length_append] at h
  rw [h]
  congr 1
  omega

/-- A list that fits is appended. -/
theorem pushAll_eq_append {data xs : List α} (h : data.length + xs.length ≤ capacity) :
    pushAll capacity data xs = data ++ xs := by
  have hdropped : data.length + xs.length - room capacity data.length = 0 := by
    unfold room
    omega
  rw [pushAll_eq_drop, hdropped, List.drop_zero]

/-- The new elements that are left after pushing a list are its last ones. -/
theorem mem_pushAll_iff {data xs : List α} {x : α} (hx : x ∉ data) :
    x ∈ pushAll capacity data xs ↔ x ∈ xs.drop (xs.length - room capacity data.length) := by
  have hroom : data.length ≤ room capacity data.length := by
    unfold room
    omega
  rw [pushAll_eq_drop, List.drop_append, List.mem_append]
  have hcount : data.length + xs.length - room capacity data.length - data.length =
      xs.length - room capacity data.length := by omega
  rw [hcount]
  exact or_iff_right fun h => hx (List.mem_of_mem_drop h)

/-- The element pushed last is in the queue. -/
theorem mem_pushAll_concat (data xs : List α) (x : α) : x ∈ pushAll capacity data (xs ++ [x]) := by
  rw [pushAll, List.foldl_append]
  show x ∈ push capacity (pushAll capacity data xs) x
  rw [push, List.mem_append]
  exact Or.inr (List.mem_singleton_self x)

/-- If a list can be shifted along itself by what follows it, it is made of what follows it. -/
theorem subset_of_suffix_append {data xs : List α} (hne : xs ≠ []) (h : data <:+ data ++ xs) :
    data ⊆ xs := by
  obtain ⟨before, hbefore⟩ := h
  have hlength : before.length = xs.length := by
    have h := congrArg List.length hbefore
    rw [List.length_append, List.length_append] at h
    omega
  have hpos := List.length_pos_iff.2 hne
  have hshift : ∀ i, data[i]? = (data ++ xs)[xs.length + i]? := by
    intro i
    rw [← hbefore, ← hlength, List.getElem?_append_right (Nat.le_add_right _ _),
      Nat.add_sub_cancel_left]
  -- from the back, each element is one further on or one of `xs`
  have hback : ∀ k i x, data.length ≤ k + i → data[i]? = some x → x ∈ xs := by
    intro k
    induction k with
    | zero =>
      intro i x hi hx
      rw [List.getElem?_eq_none (by omega)] at hx
      cases hx
    | succ k ih =>
      intro i x hi hx
      rw [hshift] at hx
      by_cases hinside : xs.length + i < data.length
      · rw [List.getElem?_append_left hinside] at hx
        exact ih _ x (by omega) hx
      · rw [List.getElem?_append_right (by omega)] at hx
        exact List.mem_of_getElem? hx
  intro x hx
  obtain ⟨i, hi⟩ := List.mem_iff_getElem?.1 hx
  exact hback data.length i x (by omega) hi

/-- Pushing leaves the queue as it is exactly when it is full, and shifted along itself by what is
pushed. -/
theorem pushAll_eq_self_iff {data xs : List α} (hne : xs ≠ []) :
    pushAll capacity data xs = data ↔
      data ≠ [] ∧ capacity ≤ data.length ∧ data <:+ data ++ xs := by
  have hpos := List.length_pos_iff.2 hne
  constructor
  · intro hself
    have hlength := length_pushAll capacity data xs
    rw [hself, room] at hlength
    refine ⟨List.length_pos_iff.1 (by omega), by omega, ?_⟩
    have hsuffix := pushAll_suffix capacity data xs
    rwa [hself] at hsuffix
  · rintro ⟨hdata, hfull, hsuffix⟩
    have hdata := List.length_pos_iff.2 hdata
    have hdrop := List.suffix_iff_eq_drop.1 hsuffix
    rw [List.length_append] at hdrop
    rw [pushAll_eq_drop, room]
    refine Eq.trans ?_ hdrop.symm
    congr 1
    omega

/-! ## Order of a queue -/

/-- The element that pushing onto the queue drops. -/
def evicted (data : List α) : Option α := if capacity ≤ data.length then data.head? else none

variable (r : α → α → Prop)

/-- Each element dropped while a list is pushed is related to all that are in the queue after it. -/
def EvictsLeast : List α → List α → Prop
  | _, [] => True
  | data, x :: xs =>
    (∀ e ∈ evicted capacity data, ∀ y ∈ push capacity data x, r e y) ∧
      EvictsLeast (push capacity data x) xs

theorem pairwise_append_cons_iff [IsTrans α r] (data : List α) (x : α) (xs : List α) :
    (data ++ x :: xs).Pairwise r ↔
      (∀ e ∈ evicted capacity data, ∀ y ∈ push capacity data x, r e y) ∧
        (push capacity data x ++ xs).Pairwise r := by
  by_cases hfull : capacity ≤ data.length
  · cases data with
    | nil => simp [evicted, push]
    | cons e data =>
      have hevicted : evicted capacity (e :: data) = some e := if_pos hfull
      have hpush : push capacity (e :: data) x = data ++ [x] := by
        rw [push, if_pos hfull, List.tail_cons]
      rw [hevicted, hpush, List.cons_append, List.pairwise_cons, List.append_assoc,
        List.singleton_append]
      simp only [Option.mem_some_iff, forall_eq']
      constructor
      · rintro ⟨hfirst, hrest⟩
        refine ⟨fun y hy => hfirst y ?_, hrest⟩
        simp only [List.mem_append, List.mem_cons] at hy ⊢
        tauto
      · rintro ⟨hfirst, hrest⟩
        refine ⟨fun y hy => ?_, hrest⟩
        have hx : r e x := hfirst x (by simp)
        simp only [List.mem_append, List.mem_cons] at hy
        rcases hy with hy | rfl | hy
        · exact hfirst y (by simp [hy])
        · exact hx
        · have hxy : r x y := by
            have h := (List.pairwise_append.1 hrest).2.1
            exact (List.pairwise_cons.1 h).1 y hy
          exact IsTrans.trans e x y hx hxy
  · have hevicted : evicted capacity data = none := if_neg hfull
    rw [hevicted, push, if_neg hfull, List.append_assoc, List.singleton_append]
    simp

/-- Pushing a list leaves an ordered queue and drops the least element each time exactly when the
queue followed by the list is ordered. -/
theorem pairwise_append_iff [IsTrans α r] (data xs : List α) :
    (data ++ xs).Pairwise r ↔
      EvictsLeast capacity r data xs ∧ (pushAll capacity data xs).Pairwise r := by
  induction xs generalizing data with
  | nil => simp [EvictsLeast]
  | cons x xs ih =>
    rw [pairwise_append_cons_iff capacity r, ih, pushAll_cons, EvictsLeast, and_assoc]

end BoundedQueue
