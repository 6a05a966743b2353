import Mathlib.Data.List.Basic

/-!
# Interleavings of two lists

`interleavings xs ys` lists the ways to merge two lists that keep the order of each.  A list is among
the interleavings of the elements it has of one kind with those of the other
(`mem_interleavings_filter`).
-/

namespace Interleaving

variable {α : Type*}

/-- The merges of two lists that keep the order of each. -/
def interleavings : List α → List α → List (List α)
  | [], ys => [ys]
  | xs, [] => [xs]
  | x :: xs, y :: ys =>
    (interleavings xs (y :: ys)).map (x :: ·) ++ (interleavings (x :: xs) ys).map (y :: ·)

@[simp] theorem interleavings_nil_left (ys : List α) : interleavings [] ys = [ys] := by
  rw [interleavings]

@[simp] theorem interleavings_nil_right (xs : List α) : interleavings xs [] = [xs] := by
  cases xs with
  | nil => rw [interleavings]
  | cons x xs => rw [interleavings]; simp

theorem cons_mem_interleavings_left {x : α} {xs ys zs : List α} (h : zs ∈ interleavings xs ys) :
    x :: zs ∈ interleavings (x :: xs) ys := by
  cases ys with
  | nil =>
    rw [interleavings_nil_right, List.mem_singleton] at h ⊢
    rw [h]
  | cons y ys =>
    rw [interleavings, List.mem_append]
    exact Or.inl (List.mem_map_of_mem h)

theorem cons_mem_interleavings_right {y : α} {xs ys zs : List α} (h : zs ∈ interleavings xs ys) :
    y :: zs ∈ interleavings xs (y :: ys) := by
  cases xs with
  | nil =>
    rw [interleavings_nil_left, List.mem_singleton] at h ⊢
    rw [h]
  | cons x xs =>
    rw [interleavings, List.mem_append]
    exact Or.inr (List.mem_map_of_mem h)

/-- A list interleaves its elements of one kind with the others. -/
theorem mem_interleavings_filter (p : α → Bool) (zs : List α) :
    zs ∈ interleavings (zs.filter p) (zs.filter fun z => !p z) := by
  induction zs with
  | nil => simp
  | cons z zs ih =>
    by_cases hz : p z = true
    · rw [List.filter_cons_of_pos hz, List.filter_cons_of_neg (by simp [hz])]
      exact cons_mem_interleavings_left ih
    · rw [List.filter_cons_of_neg hz, List.filter_cons_of_pos (by simpa using hz)]
      exact cons_mem_interleavings_right ih

end Interleaving
