import Mathlib.Data.List.Basic
import Mathlib.Order.Nat
import Mathlib.Tactic.Common

/-!
# The last element of maximal key

`maxByKey f xs` is what Rust's `Iterator::max_by_key` returns: an element whose key no other
exceeds, and among these the last.
-/

namespace MaxByKey

variable {α : Type*} (f : α → ℕ)

/-- Keep the later of two elements unless the earlier has the larger key. -/
def later (best : Option α) (x : α) : Option α :=
  match best with
  | none => some x
  | some b => if f b ≤ f x then some x else some b

/-- The last element of maximal key. -/
def maxByKey (xs : List α) : Option α := xs.foldl (later f) none

theorem foldl_later_some (xs : List α) (b : α) :
    ∃ m, xs.foldl (later f) (some b) = some m ∧ (m = b ∨ m ∈ xs) := by
  induction xs generalizing b with
  | nil => exact ⟨b, rfl, Or.inl rfl⟩
  | cons x xs ih =>
    simp only [List.foldl_cons, later]
    split_ifs
    · obtain ⟨m, hm, hmem⟩ := ih x
      exact ⟨m, hm, Or.inr (List.mem_cons.2 hmem)⟩
    · obtain ⟨m, hm, hmem⟩ := ih b
      exact ⟨m, hm, hmem.imp_right (List.mem_cons_of_mem x)⟩

theorem maxByKey_cons (x : α) (xs : List α) :
    ∃ m, maxByKey f (x :: xs) = some m ∧ m ∈ x :: xs := by
  obtain ⟨m, hm, hmem⟩ := foldl_later_some f xs x
  exact ⟨m, hm, List.mem_cons.2 hmem⟩

theorem maxByKey_eq_none_iff (xs : List α) : maxByKey f xs = none ↔ xs = [] := by
  cases xs with
  | nil => exact iff_of_true rfl rfl
  | cons x xs =>
    obtain ⟨m, hm, -⟩ := maxByKey_cons f x xs
    simp [hm]

theorem mem_of_maxByKey {xs : List α} {m : α} (h : maxByKey f xs = some m) : m ∈ xs := by
  cases xs with
  | nil => cases h
  | cons x xs =>
    obtain ⟨m', hm', hmem⟩ := maxByKey_cons f x xs
    obtain rfl : m' = m := Option.some.inj (hm'.symm.trans h)
    exact hmem

end MaxByKey
