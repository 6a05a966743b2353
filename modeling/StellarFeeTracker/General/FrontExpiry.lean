import Mathlib.Data.List.Infix
import Mathlib.Data.List.TakeWhile
import Mathlib.Order.Defs.PartialOrder
import Mathlib.Tactic.Common

/-!
# Queues that expire at the front

Elements arrive at the back of a queue, and after each arrival the expired elements at the front are
dropped.  An element that is expired stays expired, so the queue holds what one dropping at the last
arrival leaves of all the arrivals (`contents_eq_dropWhile`); an element that is expired but stands
behind one that is not stays.
-/

namespace FrontExpiry

variable {α τ : Type*} [Preorder τ] (expired : τ → α → Bool)

/-- What arrives at an instant. -/
structure Arrival (τ α : Type*) where
  now : τ
  elements : List α

/-- The queue after the arrivals. -/
def contents (data : List α) : List (Arrival τ α) → List α
  | [] => data
  | arrival :: arrivals =>
    contents ((data ++ arrival.elements).dropWhile (expired arrival.now)) arrivals

/-- Dropping twice is dropping once, when everything dropped first would be dropped last. -/
theorem dropWhile_append_dropWhile {p q : α → Bool} (h : ∀ x, p x = true → q x = true)
    (xs ys : List α) : (xs.dropWhile p ++ ys).dropWhile q = (xs ++ ys).dropWhile q := by
  induction xs with
  | nil => rfl
  | cons x xs ih =>
    by_cases hp : p x = true
    · rw [List.dropWhile_cons_of_pos hp, ih, List.cons_append, List.dropWhile_cons_of_pos (h x hp)]
    · rw [List.dropWhile_cons_of_neg hp]

/-- Dropping from the front loses nothing that a later filter keeps. -/
theorem filter_dropWhile {p q : α → Bool} (h : ∀ x, p x = true → q x = false) (xs : List α) :
    (xs.dropWhile p).filter q = xs.filter q := by
  induction xs with
  | nil => rfl
  | cons x xs ih =>
    by_cases hp : p x = true
    · rw [List.dropWhile_cons_of_pos hp, ih, List.filter_cons_of_neg (by simp [h x hp])]
    · rw [List.dropWhile_cons_of_neg hp]

/-- Dropping from the front is filtering exactly when whatever the filter removes is dropped, together
with all that stands before it. -/
theorem dropWhile_eq_filter_iff {p q : α → Bool} (h : ∀ x, p x = true → q x = true) (xs : List α) :
    xs.dropWhile p = xs.filter (fun x => !q x) ↔
      ∀ front x back, xs = front ++ x :: back → q x = true → ∀ y ∈ front ++ [x], p y = true := by
  induction xs with
  | nil => exact ⟨fun _ front x back heq => absurd heq.symm (by simp), fun _ => rfl⟩
  | cons x xs ih =>
    by_cases hp : p x = true
    · -- the first element goes on both sides
      have hfilter : (x :: xs).filter (fun x => !q x) = xs.filter fun x => !q x :=
        List.filter_cons_of_neg (by simp [h x hp])
      rw [List.dropWhile_cons_of_pos hp, hfilter, ih]
      constructor
      · intro hrest front y back heq hy
        cases front with
        | nil =>
          obtain ⟨rfl, -⟩ := List.cons.inj heq
          exact List.forall_mem_singleton.2 hp
        | cons z front =>
          obtain ⟨rfl, htail⟩ := List.cons.inj heq
          exact List.forall_mem_cons.2 ⟨hp, hrest front y back htail hy⟩
      · intro hall front y back heq hy z hz
        exact hall (x :: front) y back (by rw [heq, List.cons_append]) hy z
          (List.mem_cons_of_mem x hz)
    · -- nothing goes from the front, so nothing may be removed
      rw [List.dropWhile_cons_of_neg hp, eq_comm, List.filter_eq_self]
      constructor
      · intro hnone front y back heq hy
        have hkept := hnone y (heq ▸ List.mem_append_right front List.mem_cons_self)
        rw [hy] at hkept
        cases hkept
      · intro hall y hy
        by_contra hremoved
        rw [Bool.not_eq_true', Bool.not_eq_false] at hremoved
        obtain ⟨front, back, heq⟩ := List.append_of_mem hy
        refine hp (hall front y back heq hremoved x ?_)
        cases front with
        | nil =>
          obtain ⟨rfl, -⟩ := List.cons.inj heq
          exact List.mem_singleton_self x
        | cons z front =>
          obtain ⟨rfl, -⟩ := List.cons.inj heq
          exact List.mem_cons_self

/-- As many elements as have just arrived, less some, are left exactly when nothing is left of those
that were there and so many of the new ones go. -/
theorem length_dropWhile_append_eq_iff {p : α → Bool} (xs ys : List α) {n : ℕ} (hn : n ≤ ys.length) :
    ((xs ++ ys).dropWhile p).length = n ↔
      (∀ x ∈ xs, p x = true) ∧ (ys.takeWhile p).length + n = ys.length := by
  have hsplit : (ys.takeWhile p).length + (ys.dropWhile p).length = ys.length := by
    rw [← List.length_append, List.takeWhile_append_dropWhile]
  rw [List.dropWhile_append, ← List.dropWhile_eq_nil_iff]
  by_cases hnil : xs.dropWhile p = []
  · rw [hnil, List.isEmpty_nil, if_pos rfl]
    constructor
    · intro h
      exact ⟨rfl, by omega⟩
    · rintro ⟨-, h⟩
      omega
  · have hpos := List.length_pos_iff.2 hnil
    rw [if_neg (by rwa [List.isEmpty_iff]), List.length_append]
    constructor
    · intro h
      omega
    · exact fun h => absurd h.1 hnil

/-- What is left of the arrivals when the expired elements at the front of all of them are dropped at
the last arrival. -/
def left (arrivals : List (Arrival τ α)) : List α :=
  (arrivals.flatMap (·.elements)).dropWhile fun x => arrivals.getLast?.any fun a => expired a.now x

section Monotone

variable (hmono : ∀ {s t : τ} (x : α), s ≤ t → expired s x = true → expired t x = true)
include hmono

theorem contents_dropWhile {t : τ} {arrivals : List (Arrival τ α)}
    (ht : ∀ a ∈ arrivals, t ≤ a.now) (hne : arrivals ≠ []) (data : List α) :
    contents expired (data.dropWhile (expired t)) arrivals = contents expired data arrivals := by
  cases arrivals with
  | nil => exact absurd rfl hne
  | cons a arrivals =>
    have hlater : ∀ x, expired t x = true → expired a.now x = true := fun x =>
      hmono x (ht a List.mem_cons_self)
    rw [contents, contents, dropWhile_append_dropWhile hlater]

/-- The queue holds what is left of all the arrivals at the last one. -/
theorem contents_eq_dropWhile {arrivals : List (Arrival τ α)} {last : Arrival τ α}
    (horder : (arrivals ++ [last]).Pairwise fun a b => a.now ≤ b.now) (data : List α) :
    contents expired data (arrivals ++ [last]) =
      (data ++ (arrivals ++ [last]).flatMap (·.elements)).dropWhile (expired last.now) := by
  induction arrivals generalizing data with
  | nil => simp [contents]
  | cons a arrivals ih =>
    rw [List.cons_append, List.pairwise_cons] at horder
    obtain ⟨hfirst, hrest⟩ := horder
    have hne : arrivals ++ [last] ≠ [] := by simp
    rw [List.cons_append, contents, contents_dropWhile expired hmono hfirst hne, ih hrest,
      List.flatMap_cons, List.append_assoc]

theorem contents_nil_eq_left {arrivals : List (Arrival τ α)}
    (horder : arrivals.Pairwise fun a b => a.now ≤ b.now) :
    contents expired [] arrivals = left expired arrivals := by
  rcases List.eq_nil_or_concat' arrivals with rfl | ⟨init, last, rfl⟩
  · rfl
  · rw [contents_eq_dropWhile expired hmono horder, left, List.getLast?_concat, List.nil_append]
    rfl

/-- Everything that is not expired is left. -/
theorem filter_left {arrivals : List (Arrival τ α)} {t : τ} (ht : ∀ a ∈ arrivals, a.now ≤ t) :
    (left expired arrivals).filter (fun x => !expired t x) =
      (arrivals.flatMap (·.elements)).filter fun x => !expired t x := by
  refine filter_dropWhile (fun x hx => ?_) _
  rw [Option.any_eq_true] at hx
  obtain ⟨a, ha, hexpired⟩ := hx
  rw [hmono x (ht a (List.mem_of_getLast? ha)) hexpired]
  rfl

end Monotone

end FrontExpiry
