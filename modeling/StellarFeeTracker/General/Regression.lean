import StellarFeeTracker.General.OrderStatistic
import Mathlib.Algebra.BigOperators.Ring.List
import Mathlib.Algebra.Order.BigOperators.Group.List
import Mathlib.Algebra.Order.Field.Basic
import Mathlib.Tactic.FieldSimp
import Mathlib.Tactic.Linarith
import Mathlib.Tactic.Ring

/-!
# Least-squares regression of a series on its positions

The sums of squares and products of a series against its positions, and what a permutation does to
them: only the products with the positions change, and they are largest, in absolute value too, when
the series is sorted (`abs_sxy_le_insertionSort`).  The line through the centre with the slope
`sxy / sxx` is the closest of all lines (`residual_le_distance`).
-/

namespace Regression

variable {K : Type*} [Field K]

/-! ## Weighted sums -/

/-- The sum of the elements times their positions, counted from `k`. -/
def moment (k : ℕ) (ys : List K) : K := ((ys.zipIdx k).map fun p => (p.2 : K) * p.1).sum

@[simp] theorem moment_nil (k : ℕ) : moment k ([] : List K) = 0 := rfl

theorem moment_cons (k : ℕ) (y : K) (ys : List K) :
    moment k (y :: ys) = k * y + moment (k + 1) ys := by
  simp only [moment, List.zipIdx_cons, List.map_cons, List.sum_cons]

theorem moment_succ (k : ℕ) (ys : List K) : moment (k + 1) ys = moment k ys + ys.sum := by
  induction ys generalizing k with
  | nil => simp
  | cons y ys ih =>
    rw [moment_cons, moment_cons, ih, List.sum_cons]
    push_cast
    ring

theorem moment_concat (k : ℕ) (ys : List K) (y : K) :
    moment k (ys ++ [y]) = moment k ys + (k + ys.length) * y := by
  induction ys generalizing k with
  | nil => simp [moment_cons]
  | cons z ys ih =>
    rw [List.cons_append, moment_cons, moment_cons, ih, List.length_cons]
    push_cast
    ring

/-- Backwards the positions count from the other end. -/
theorem moment_reverse (ys : List K) :
    moment 0 ys.reverse = (ys.length - 1) * ys.sum - moment 0 ys := by
  induction ys with
  | nil => simp
  | cons y ys ih =>
    rw [List.reverse_cons, moment_concat, ih, moment_cons, moment_succ, List.length_reverse,
      List.length_cons, List.sum_cons]
    push_cast
    ring

theorem sum_positions (k : ℕ) (ys : List K) :
    2 * ((ys.zipIdx k).map fun p => (p.2 : K)).sum = ys.length * (2 * k + ys.length - 1) := by
  induction ys generalizing k with
  | nil => simp
  | cons y ys ih =>
    rw [List.zipIdx_cons, List.map_cons, List.sum_cons, mul_add, ih, List.length_cons]
    push_cast
    ring

/-! ## Sums of squares and products -/

/-- The mean of a series. -/
def mean (ys : List K) : K := ys.sum / ys.length

/-- The mean of its positions. -/
def centre (ys : List K) : K := (ys.length - 1) / 2

def sxy (ys : List K) : K :=
  (ys.zipIdx.map fun p => ((p.2 : K) - centre ys) * (p.1 - mean ys)).sum

def sxx (ys : List K) : K := (ys.zipIdx.map fun p => ((p.2 : K) - centre ys) ^ 2).sum

def syy (ys : List K) : K := (ys.map fun y => (y - mean ys) ^ 2).sum

/-- The squared distances of a series from the line with this slope through its centre. -/
def residual (ys : List K) (slope : K) : K :=
  (ys.zipIdx.map fun p => (p.1 - (slope * p.2 + (mean ys - slope * centre ys))) ^ 2).sum

theorem sum_map_sq_sub {α : Type*} (l : List α) (f g : α → K) (s : K) :
    (l.map fun a => (f a - s * g a) ^ 2).sum =
      (l.map fun a => f a ^ 2).sum - 2 * s * (l.map fun a => g a * f a).sum +
        s ^ 2 * (l.map fun a => g a ^ 2).sum := by
  induction l with
  | nil => simp
  | cons a l ih =>
    simp only [List.map_cons, List.sum_cons, ih]
    ring

theorem syy_eq_zipIdx (ys : List K) :
    syy ys = (ys.zipIdx.map fun p => (p.1 - mean ys) ^ 2).sum := by
  have hvalues := congrArg (List.map fun y => (y - mean ys) ^ 2) (List.zipIdx_map_fst 0 ys)
  rw [List.map_map] at hvalues
  exact (congrArg List.sum hvalues).symm

/-- The distances from a line are a quadratic function of its slope. -/
theorem residual_eq (ys : List K) (slope : K) :
    residual ys slope = syy ys - 2 * slope * sxy ys + slope ^ 2 * sxx ys := by
  have hline : residual ys slope =
      (ys.zipIdx.map fun p => (p.1 - mean ys - slope * ((p.2 : K) - centre ys)) ^ 2).sum := by
    refine congrArg List.sum (List.map_congr_left fun p _ => ?_)
    ring
  rw [hline, sum_map_sq_sub, ← syy_eq_zipIdx]
  rfl

/-- The least distance, at the slope `sxy / sxx`. -/
theorem residual_least (ys : List K) (h : sxx ys ≠ 0) :
    residual ys (sxy ys / sxx ys) = syy ys - sxy ys ^ 2 / sxx ys := by
  rw [residual_eq]
  field_simp
  ring

/-- Of the slopes `sxy / sxx` is closest. -/
theorem residual_eq_least_add {ys : List K} (h : sxx ys ≠ 0) (slope : K) :
    residual ys slope = residual ys (sxy ys / sxx ys) + sxx ys * (slope - sxy ys / sxx ys) ^ 2 := by
  rw [residual_least ys h, residual_eq]
  field_simp
  ring

theorem sum_map_mul_sub {α : Type*} (l : List α) (f g : α → K) (c m : K) :
    (l.map fun a => (f a - c) * (g a - m)).sum =
      (l.map fun a => f a * g a).sum - c * (l.map g).sum - m * (l.map fun a => f a - c).sum := by
  induction l with
  | nil => simp
  | cons a l ih =>
    simp only [List.map_cons, List.sum_cons, ih]
    ring

theorem sxx_eq_of_length_eq {ys zs : List K} (h : ys.length = zs.length) : sxx ys = sxx zs := by
  have hpositions : ∀ (xs : List K) (c : K),
      (xs.zipIdx.map fun p => ((p.2 : K) - c) ^ 2) =
        (List.range' 0 xs.length).map fun i : ℕ => ((i : K) - c) ^ 2 := by
    intro xs c
    rw [← List.zipIdx_map_snd, List.map_map]
    rfl
  rw [sxx, sxx, hpositions, hpositions, centre, centre, h]

theorem mean_perm {ys zs : List K} (h : ys.Perm zs) : mean ys = mean zs := by
  rw [mean, mean, h.sum_eq, h.length_eq]

theorem syy_perm {ys zs : List K} (h : ys.Perm zs) : syy ys = syy zs := by
  rw [syy, syy, mean_perm h]
  exact (h.map _).sum_eq

section Ordered

variable [LinearOrder K] [IsStrictOrderedRing K]

theorem sum_positions_sub_centre (ys : List K) :
    (ys.zipIdx.map fun p => (p.2 : K) - centre ys).sum = 0 := by
  have hpositions := sum_positions 0 ys
  have hconst : (ys.zipIdx.map fun p => (p.2 : K) - centre ys).sum =
      (ys.zipIdx.map fun p => (p.2 : K)).sum - ys.length * centre ys := by
    have hsum : ∀ l : List (K × ℕ), (l.map fun p => (p.2 : K) - centre ys).sum =
        (l.map fun p => (p.2 : K)).sum - l.length * centre ys := by
      intro l
      induction l with
      | nil => simp
      | cons a l ih =>
        simp only [List.map_cons, List.sum_cons, ih, List.length_cons]
        push_cast
        ring
    rw [hsum, List.length_zipIdx]
  rw [hconst, centre]
  push_cast at hpositions
  linarith

/-- Only the weighted sum depends on the order. -/
theorem sxy_eq (ys : List K) : sxy ys = moment 0 ys - centre ys * ys.sum := by
  have hvalues := congrArg List.sum (List.zipIdx_map_fst 0 ys)
  rw [sxy, sum_map_mul_sub, sum_positions_sub_centre, mul_zero, sub_zero]
  rw [← hvalues]
  rfl

theorem sxy_reverse (ys : List K) : sxy ys.reverse = -sxy ys := by
  rw [sxy_eq, sxy_eq, moment_reverse, List.sum_reverse, centre, List.length_reverse, centre]
  ring

/-! ## Lines -/

theorem sum_sq_nonneg {α : Type*} (l : List α) (f : α → K) : 0 ≤ (l.map fun a => f a ^ 2).sum := by
  refine List.sum_nonneg fun q hq => ?_
  obtain ⟨a, -, rfl⟩ := List.mem_map.1 hq
  exact sq_nonneg _

theorem residual_nonneg (ys : List K) (slope : K) : 0 ≤ residual ys slope :=
  sum_sq_nonneg _ _

/-- The positions of two elements are half a position away from their mean. -/
theorem quarter_le_sxx {ys : List K} (h : 2 ≤ ys.length) : 1 / 4 ≤ sxx ys := by
  obtain ⟨y, rest, rfl⟩ := List.exists_cons_of_length_pos (by omega : 0 < ys.length)
  have hlength : (2 : K) ≤ (y :: rest).length := by exact_mod_cast h
  have hfirst : 1 / 4 ≤ (((0 : ℕ) : K) - centre (y :: rest)) ^ 2 := by
    have hcentre : 1 / 2 ≤ centre (y :: rest) := by
      unfold centre
      linarith
    have hsquare := mul_self_le_mul_self (by norm_num) hcentre
    calc (1 : K) / 4 = 1 / 2 * (1 / 2) := by norm_num
      _ ≤ centre (y :: rest) * centre (y :: rest) := hsquare
      _ = (((0 : ℕ) : K) - centre (y :: rest)) ^ 2 := by
        push_cast
        ring
  unfold sxx
  rw [List.zipIdx_cons, List.map_cons, List.sum_cons]
  exact le_add_of_le_of_nonneg hfirst (sum_sq_nonneg _ _)

theorem sum_sub_mean (ys : List K) : (ys.map fun y => y - mean ys).sum = 0 := by
  have hconst : ∀ (l : List K) (m : K), (l.map fun y => y - m).sum = l.sum - l.length * m := by
    intro l m
    induction l with
    | nil => simp
    | cons a l ih =>
      simp only [List.map_cons, List.sum_cons, ih, List.length_cons]
      push_cast
      ring
  rw [hconst, mean]
  rcases eq_or_ne ys [] with rfl | hne
  · simp
  · have hlength : (ys.length : K) ≠ 0 := by
      rw [Nat.cast_ne_zero, ne_eq, List.length_eq_zero_iff]
      exact hne
    rw [mul_div_cancel₀ _ hlength, sub_self]

/-- The distances from a line through the centre add up to nothing. -/
theorem sum_residuals (ys : List K) (slope : K) :
    (ys.zipIdx.map fun p => p.1 - (slope * p.2 + (mean ys - slope * centre ys))).sum = 0 := by
  have hsplit : ∀ l : List (K × ℕ),
      (l.map fun p => p.1 - (slope * p.2 + (mean ys - slope * centre ys))).sum =
        (l.map fun p => p.1 - mean ys).sum - slope * (l.map fun p => (p.2 : K) - centre ys).sum := by
    intro l
    induction l with
    | nil => simp
    | cons a l ih =>
      simp only [List.map_cons, List.sum_cons, ih]
      ring
  have hvalues := congrArg (List.map fun y => y - mean ys) (List.zipIdx_map_fst 0 ys)
  rw [List.map_map] at hvalues
  have hmean : (ys.zipIdx.map fun p => p.1 - mean ys).sum = 0 :=
    (congrArg List.sum hvalues).trans (sum_sub_mean ys)
  rw [hsplit, hmean, sum_positions_sub_centre, mul_zero, sub_zero]

/-- The squared distances of a series from a line. -/
def distance (ys : List K) (slope intercept : K) : K :=
  (ys.zipIdx.map fun p => (p.1 - (slope * p.2 + intercept)) ^ 2).sum

/-- Of the lines with one slope the one through the centre is closest. -/
theorem distance_eq (ys : List K) (slope intercept : K) :
    distance ys slope intercept =
      residual ys slope + ys.length * (intercept - (mean ys - slope * centre ys)) ^ 2 := by
  have hshift : distance ys slope intercept =
      (ys.zipIdx.map fun p => (p.1 - (slope * p.2 + (mean ys - slope * centre ys)) -
        (intercept - (mean ys - slope * centre ys)) * 1) ^ 2).sum := by
    refine congrArg List.sum (List.map_congr_left fun p _ => ?_)
    ring
  have hcross := sum_residuals ys slope
  rw [hshift, sum_map_sq_sub]
  simp only [one_mul, hcross, mul_zero, sub_zero, one_pow, List.map_const', List.sum_replicate,
    nsmul_eq_mul, mul_one, List.length_zipIdx]
  rw [residual]
  ring

/-- The least-squares line: no line is closer. -/
theorem residual_le_distance {ys : List K} (h : 0 < sxx ys) (slope intercept : K) :
    residual ys (sxy ys / sxx ys) ≤ distance ys slope intercept := by
  rw [distance_eq, residual_eq_least_add h.ne' slope, add_assoc]
  exact le_add_of_nonneg_right (add_nonneg (mul_nonneg h.le (sq_nonneg _))
    (mul_nonneg (Nat.cast_nonneg _) (sq_nonneg _)))

/-- A series on a line has this line as its least-squares line. -/
theorem eq_of_distance_eq_zero {ys : List K} (h : 0 < sxx ys) {slope intercept : K}
    (hline : distance ys slope intercept = 0) :
    sxy ys / sxx ys = slope ∧ residual ys (sxy ys / sxx ys) = 0 := by
  have hleast := residual_nonneg ys (sxy ys / sxx ys)
  have hslope := mul_nonneg h.le (sq_nonneg (slope - sxy ys / sxx ys))
  have hintercept := mul_nonneg (Nat.cast_nonneg (α := K) ys.length)
    (sq_nonneg (intercept - (mean ys - slope * centre ys)))
  rw [distance_eq, residual_eq_least_add h.ne'] at hline
  have hzero : sxx ys * (slope - sxy ys / sxx ys) ^ 2 = 0 := by linarith
  have hsame : slope - sxy ys / sxx ys = 0 :=
    pow_eq_zero_iff two_ne_zero |>.1 ((mul_eq_zero.1 hzero).resolve_left h.ne')
  exact ⟨(sub_eq_zero.1 hsame).symm, by linarith⟩

/-! ## Sorting -/

/-- An element moves to a later position past smaller ones only. -/
theorem moment_le_orderedInsert (k : ℕ) (y : K) (ys : List K) :
    moment k (y :: ys) ≤ moment k (ys.orderedInsert (· ≤ ·) y) := by
  induction ys generalizing k with
  | nil => rfl
  | cons z ys ih =>
    rw [List.orderedInsert_cons]
    split_ifs with hle
    · exact le_rfl
    · have hlater := ih (k + 1)
      rw [moment_cons] at hlater
      rw [moment_cons, moment_cons, moment_cons]
      push_cast at hlater ⊢
      linarith

theorem moment_le_insertionSort (k : ℕ) (ys : List K) :
    moment k ys ≤ moment k (ys.insertionSort (· ≤ ·)) := by
  induction ys generalizing k with
  | nil => rfl
  | cons y ys ih =>
    calc moment k (y :: ys) ≤ moment k (y :: ys.insertionSort (· ≤ ·)) := by
          rw [moment_cons, moment_cons]
          exact add_le_add_right (ih (k + 1)) _
      _ ≤ moment k ((y :: ys).insertionSort (· ≤ ·)) := moment_le_orderedInsert k y _

theorem sxy_le_insertionSort (ys : List K) : sxy ys ≤ sxy (ys.insertionSort (· ≤ ·)) := by
  have hperm := List.perm_insertionSort (· ≤ ·) ys
  rw [sxy_eq, sxy_eq, centre, centre, hperm.length_eq, hperm.sum_eq]
  exact sub_le_sub_right (moment_le_insertionSort 0 ys) _

/-- Sorted, a series rises as much as it rises or falls in any order. -/
theorem abs_sxy_le_insertionSort (ys : List K) : |sxy ys| ≤ sxy (ys.insertionSort (· ≤ ·)) := by
  refine abs_le.2 ⟨?_, sxy_le_insertionSort ys⟩
  have hreverse := sxy_le_insertionSort ys.reverse
  rw [sxy_reverse, OrderStatistic.insertionSort_perm ys.reverse_perm] at hreverse
  linarith

end Ordered

end Regression
