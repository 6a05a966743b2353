import Mathlib.Data.List.MinMax

/-!
# The first element of extreme key

`IsFirstMin f xs x` says that `x` stands in the list where nothing before it has as small a key and
nothing after it a smaller one.  `List.argmin` finds this element, and `List.argmax` the one of
greatest key.
-/

namespace FirstExtreme

variable {α β : Type*} [LinearOrder β] (f : α → β)

/-- `x` is the first of the elements of least key. -/
def IsFirstMin (xs : List α) (x : α) : Prop :=
  ∃ front back, xs = front ++ x :: back ∧ (∀ y ∈ front, f x < f y) ∧ ∀ y ∈ back, f x ≤ f y

/-- `x` is the first of the elements of greatest key. -/
def IsFirstMax (xs : List α) (x : α) : Prop :=
  ∃ front back, xs = front ++ x :: back ∧ (∀ y ∈ front, f y < f x) ∧ ∀ y ∈ back, f y ≤ f x

variable {f}

theorem IsFirstMin.mem {xs : List α} {x : α} (h : IsFirstMin f xs x) : x ∈ xs := by
  obtain ⟨front, back, rfl, -, -⟩ := h
  exact List.mem_append_right front List.mem_cons_self

theorem IsFirstMin.le {xs : List α} {x : α} (h : IsFirstMin f xs x) : ∀ y ∈ xs, f x ≤ f y := by
  obtain ⟨front, back, rfl, hfront, hback⟩ := h
  intro y hy
  rcases List.mem_append.1 hy with hy | hy
  · exact (hfront y hy).le
  · rcases List.mem_cons.1 hy with rfl | hy
    · exact le_refl _
    · exact hback y hy

/-- An element takes the place of the first least one only if its key is smaller. -/
theorem IsFirstMin.concat {xs : List α} {x : α} (h : IsFirstMin f xs x) (a : α) :
    IsFirstMin f (xs ++ [a]) (if f a < f x then a else x) := by
  split_ifs with hlt
  · exact ⟨xs, [], rfl, fun y hy => lt_of_lt_of_le hlt (h.le y hy), by simp⟩
  · obtain ⟨front, back, rfl, hfront, hback⟩ := h
    refine ⟨front, back ++ [a], by simp, hfront, fun y hy => ?_⟩
    rcases List.mem_append.1 hy with hy | hy
    · exact hback y hy
    · rw [List.mem_singleton.1 hy]
      exact not_lt.1 hlt

theorem isFirstMin_of_argmin {xs : List α} {x : α} (h : xs.argmin f = some x) :
    IsFirstMin f xs x := by
  induction xs using List.reverseRecOn generalizing x with
  | nil => cases h
  | append_singleton xs a ih =>
    rw [List.argmin_concat] at h
    cases hbest : xs.argmin f with
    | none =>
      rw [hbest] at h
      obtain rfl : a = x := Option.some.inj h
      rw [List.argmin_eq_none.1 hbest]
      exact ⟨[], [], rfl, by simp, by simp⟩
    | some best =>
      rw [hbest] at h
      have hx : (if f a < f best then a else best) = x := by
        apply Option.some.inj
        rw [← h, apply_ite some]
      rw [← hx]
      exact (ih hbest).concat a

/-- The first least element is the only one. -/
theorem IsFirstMin.argmin_eq {xs : List α} {x : α} (h : IsFirstMin f xs x) :
    xs.argmin f = some x := by
  obtain ⟨m, hm⟩ : ∃ m, xs.argmin f = some m := by
    apply Option.ne_none_iff_exists'.1
    intro hnone
    rw [List.argmin_eq_none.1 hnone] at h
    exact absurd h.mem List.not_mem_nil
  obtain ⟨front, back, hsplit, hfront, hback⟩ := h
  obtain ⟨front', back', hsplit', hfront', hback'⟩ := isFirstMin_of_argmin hm
  rw [hm]
  -- neither of the two stands before the other
  rcases List.append_eq_append_iff.1 (hsplit.symm.trans hsplit') with ⟨as, hf, hb⟩ | ⟨as, hf, hb⟩
  · cases as with
    | nil => rw [(List.cons.inj hb).1]
    | cons a as =>
      obtain ⟨rfl, hback_eq⟩ := List.cons.inj hb
      have hm : m ∈ back := by rw [hback_eq]; simp
      have hx : x ∈ front' := by rw [hf]; simp
      exact absurd (hfront' x hx) (not_lt.2 (hback m hm))
  · cases as with
    | nil => rw [(List.cons.inj hb).1]
    | cons a as =>
      obtain ⟨rfl, hback_eq⟩ := List.cons.inj hb
      have hx : x ∈ back' := by rw [hback_eq]; simp
      have hm : m ∈ front := by rw [hf]; simp
      exact absurd (hfront m hm) (not_lt.2 (hback' x hx))

theorem argmin_eq_some_iff {xs : List α} {x : α} : xs.argmin f = some x ↔ IsFirstMin f xs x :=
  ⟨isFirstMin_of_argmin, IsFirstMin.argmin_eq⟩

/-- The greatest key is the least one of the dual order. -/
theorem argmax_eq_some_iff {xs : List α} {x : α} : xs.argmax f = some x ↔ IsFirstMax f xs x :=
  argmin_eq_some_iff (f := fun a => OrderDual.toDual (f a))

end FirstExtreme
