import Mathlib.Algebra.GroupWithZero.Nat
import Mathlib.Data.Nat.Find
import Mathlib.Order.Monotone.Basic
import Mathlib.Tactic.Common

/-!
# Civil dates

Dates of the proleptic Gregorian calendar from the year 0 on, counted in days.  The place of a number
among growing offsets is the greatest index whose offset it reaches; the year of a day is its place
among the first days of the years, and so for the months of a year.  Days order as the place and what
is left after its offset do.
-/

namespace CivilDate

/-! ## Places among offsets -/

/-- The greatest index up to a bound whose offset the number reaches. -/
def place (offset : ℕ → ℕ) (bound n : ℕ) : ℕ := Nat.findGreatest (fun i => offset i ≤ n) bound

section Place

variable {offset : ℕ → ℕ} {bound bound' m n : ℕ}

theorem place_le : place offset bound n ≤ bound := Nat.findGreatest_le _

theorem offset_place_le (hzero : offset 0 = 0) : offset (place offset bound n) ≤ n :=
  Nat.findGreatest_spec (P := fun i => offset i ≤ n) (Nat.zero_le bound) (by simp [hzero])

theorem lt_offset_place_succ (h : n < offset (bound + 1)) :
    n < offset (place offset bound n + 1) := by
  have hle : place offset bound n ≤ bound := place_le
  rcases hle.lt_or_eq with hlt | heq
  · exact not_le.1 (Nat.findGreatest_is_greatest (P := fun i => offset i ≤ n)
      (Nat.lt_succ_self _) hlt)
  · rwa [heq]

/-- Numbers order as their places and what is left after the offsets. -/
theorem place_lex (hzero : offset 0 = 0) (hbound : bound ≤ bound') (h : m < n) :
    place offset bound m < place offset bound' n ∨
      place offset bound m = place offset bound' n ∧
        m - offset (place offset bound m) < n - offset (place offset bound' n) := by
  have hle : place offset bound m ≤ place offset bound' n :=
    Nat.findGreatest_mono (fun i hi => hi.trans h.le) hbound
  rcases hle.lt_or_eq with hlt | heq
  · exact .inl hlt
  · refine .inr ⟨heq, ?_⟩
    have hreach : offset (place offset bound m) ≤ m := offset_place_le hzero
    rw [← heq]
    omega

end Place

/-! ## Years and months -/

def isLeap (year : ℕ) : Bool := year % 4 = 0 ∧ (year % 100 ≠ 0 ∨ year % 400 = 0)

def yearLength (year : ℕ) : ℕ := if isLeap year then 366 else 365

/-- The days before a year, with the leap days of the years before it. -/
def daysBeforeYear (year : ℕ) : ℕ :=
  365 * year + (year + 3) / 4 - (year + 99) / 100 + (year + 399) / 400

theorem daysBeforeYear_succ (year : ℕ) :
    daysBeforeYear (year + 1) = daysBeforeYear year + yearLength year := by
  have h4 : (year + 1 + 3) / 4 = (year + 3) / 4 + if year % 4 = 0 then 1 else 0 := by
    split <;> omega
  have h100 : (year + 1 + 99) / 100 = (year + 99) / 100 + if year % 100 = 0 then 1 else 0 := by
    split <;> omega
  have h400 : (year + 1 + 399) / 400 = (year + 399) / 400 + if year % 400 = 0 then 1 else 0 := by
    split <;> omega
  have hle : (year + 99) / 100 ≤ (year + 3) / 4 := by omega
  have hmod4 : year % 100 = 0 → year % 4 = 0 := by omega
  have hmod100 : year % 400 = 0 → year % 100 = 0 := by omega
  simp only [daysBeforeYear, yearLength, isLeap, h4, h100, h400, decide_eq_true_eq]
  generalize (year + 3) / 4 = a at *
  generalize (year + 99) / 100 = b at *
  generalize (year + 399) / 400 = c at *
  by_cases hyear4 : year % 4 = 0 <;> by_cases hyear100 : year % 100 = 0 <;>
    by_cases hyear400 : year % 400 = 0 <;> simp_all <;> omega

theorem le_daysBeforeYear (year : ℕ) : 365 * year ≤ daysBeforeYear year := by
  unfold daysBeforeYear
  omega

theorem daysBeforeYear_mono : Monotone daysBeforeYear :=
  monotone_nat_of_le_succ fun year => by
    rw [daysBeforeYear_succ]
    exact Nat.le_add_right _ _

def monthLengths (leap : Bool) : List ℕ :=
  [31, if leap then 29 else 28, 31, 30, 31, 30, 31, 31, 30, 31, 30, 31]

/-- The days of a year before a month, counted from 0. -/
def daysBeforeMonth (leap : Bool) (month : ℕ) : ℕ := ((monthLengths leap).take month).sum

theorem daysBeforeMonth_succ_le (leap : Bool) :
    ∀ month < 12, daysBeforeMonth leap (month + 1) ≤ daysBeforeMonth leap month + 31 := by
  cases leap <;> decide

/-! ## The date of a day -/

/-- The year of a day. -/
def yearOf (day : ℕ) : ℕ := place daysBeforeYear (day / 365) day

def dayOfYear (day : ℕ) : ℕ := day - daysBeforeYear (yearOf day)

/-- The month of a day of a year, counted from 0. -/
def monthOf (leap : Bool) (day : ℕ) : ℕ := place (daysBeforeMonth leap) 11 day

/-- The day of the month, counted from 0, of a day of a year. -/
def dayOfMonth (leap : Bool) (day : ℕ) : ℕ := day - daysBeforeMonth leap (monthOf leap day)

theorem daysBeforeYear_yearOf_le (day : ℕ) : daysBeforeYear (yearOf day) ≤ day :=
  offset_place_le rfl

theorem yearOf_lt {day year : ℕ} (h : day < daysBeforeYear year) : yearOf day < year := by
  by_contra hle
  have := daysBeforeYear_mono (not_lt.1 hle)
  have := daysBeforeYear_yearOf_le day
  omega

theorem dayOfYear_lt (day : ℕ) : dayOfYear day < yearLength (yearOf day) := by
  have hbound : day < daysBeforeYear (day / 365 + 1) := by
    have := le_daysBeforeYear (day / 365 + 1)
    omega
  have hlt := lt_offset_place_succ hbound
  rw [daysBeforeYear_succ] at hlt
  have := daysBeforeYear_yearOf_le day
  unfold dayOfYear
  unfold yearOf at this ⊢
  omega

theorem yearOf_lex {m n : ℕ} (h : m < n) :
    yearOf m < yearOf n ∨ yearOf m = yearOf n ∧ dayOfYear m < dayOfYear n :=
  place_lex rfl (Nat.div_le_div_right h.le) h

theorem monthOf_lt (leap : Bool) (day : ℕ) : monthOf leap day < 12 :=
  Nat.lt_succ_of_le place_le

theorem dayOfMonth_lt {leap : Bool} {day : ℕ} (h : day < if leap then 366 else 365) :
    dayOfMonth leap day < 31 := by
  have hbound : day < daysBeforeMonth leap (11 + 1) := by
    cases leap <;> exact h
  have hlt := lt_offset_place_succ hbound
  have hle := daysBeforeMonth_succ_le leap _ (monthOf_lt leap day)
  unfold dayOfMonth
  unfold monthOf at hle ⊢
  omega

theorem monthOf_lex (leap : Bool) {m n : ℕ} (h : m < n) :
    monthOf leap m < monthOf leap n ∨
      monthOf leap m = monthOf leap n ∧ dayOfMonth leap m < dayOfMonth leap n :=
  place_lex (by cases leap <;> rfl) le_rfl h

/-- The first day of 1970, and the leap day of 2000. -/
example : (yearOf 719528, dayOfYear 719528) = (1970, 0) ∧
    (yearOf 730544, monthOf true (dayOfYear 730544), dayOfMonth true (dayOfYear 730544)) =
      (2000, 1, 28) := by
  decide

end CivilDate
