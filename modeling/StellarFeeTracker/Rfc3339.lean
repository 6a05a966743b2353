import StellarFeeTracker.Chrono
import StellarFeeTracker.General.CivilDate
import StellarFeeTracker.General.TextOrder

/-!
# RFC 3339 texts

The text that the `chrono` crate prints of an instant of the years 0000 to 9999: date and time with
fields of a fixed width, the fraction of the second with 0, 3, 6 or 9 digits, and the zone.  The texts
order like the instants (`rfc3339Text_lt`): the fields do, and where one fraction is shorter, the sign
of the zone comes before the point and before every digit.
-/

namespace StellarFeeTracker

open CivilDate TextOrder

/-! ## The text of an instant -/

/-- Month and day of a day of a year. -/
def monthDayText (leap : Bool) (day : ℕ) : List Char :=
  digits 2 (monthOf leap day + 1) ++ '-' :: digits 2 (dayOfMonth leap day + 1)

/-- The date of a day, counted from the first of the year 0. -/
def dateText (day : ℕ) : List Char :=
  digits 4 (yearOf day) ++ '-' :: monthDayText (isLeap (yearOf day)) (dayOfYear day)

/-- Minute and second of a second of an hour. -/
def minuteText (second : ℕ) : List Char := digits 2 (second / 60) ++ ':' :: digits 2 (second % 60)

/-- The time of a second of a day. -/
def timeText (second : ℕ) : List Char :=
  digits 2 (second / 3600) ++ ':' :: minuteText (second % 3600)

def dateTimeText (second : ℕ) : List Char :=
  dateText (second / 86400) ++ 'T' :: timeText (second % 86400)

/-- As many digits as the nanoseconds need, in groups of three. -/
def fractionText (nanos : ℕ) : List Char :=
  if nanos = 0 then []
  else if nanos % 1000000 = 0 then '.' :: digits 3 (nanos / 1000000)
  else if nanos % 1000 = 0 then '.' :: digits 6 (nanos / 1000)
  else '.' :: digits 9 nanos

/-- The text of an instant, in nanoseconds from the first of the year 0. -/
def instantText (nanos : ℕ) : List Char :=
  dateTimeText (nanos / 1000000000) ++
    (fractionText (nanos % 1000000000) ++ ['+', '0', '0', ':', '0', '0'])

/-- The first instant of the year 0. -/
def yearZero : DateTime := seconds (-62167219200)

/-- The first instant of the year 10000. -/
def yearTenThousand : DateTime := seconds 253402300800

/-- `to_rfc3339` of an instant of the years 0000 to 9999. -/
def rfc3339Text (t : DateTime) : String := String.ofList (instantText (t - yearZero).toNat)

/-- An instant of the years 0000 to 9999. -/
def InFourDigitYears (t : DateTime) : Prop := yearZero ≤ t ∧ t < yearTenThousand

instance (t : DateTime) : Decidable (InFourDigitYears t) :=
  inferInstanceAs (Decidable (_ ∧ _))

example : rfc3339Text (seconds 1736851620) = "2025-01-14T10:47:00+00:00" ∧
    rfc3339Text (seconds 951782399 + 120000000) = "2000-02-28T23:59:59.120+00:00" := by
  decide

/-! ## The order of the texts -/

theorem fixedWidth_monthDayText (leap : Bool) :
    FixedWidth (monthDayText leap) (if leap then 366 else 365) 5 := by
  have hmonth : FixedWidth (fun month => digits 2 (month + 1)) 12 2 :=
    (fixedWidth_digits 2).shift 1 (by decide)
  have hday : FixedWidth (fun day => '-' :: digits 2 (day + 1)) 31 3 :=
    ((fixedWidth_digits 2).shift 1 (by decide)).cons '-'
  exact hmonth.append (fun _ _ => hday) (fun day _ => monthOf_lt leap day)
    (fun day hday => dayOfMonth_lt hday) fun m n hmn _ => monthOf_lex leap hmn

theorem fixedWidth_dateText : FixedWidth dateText (daysBeforeYear 10000) 10 := by
  have hyear : FixedWidth (digits 4) 10000 4 := fixedWidth_digits 4
  exact hyear.append (fun year _ => (fixedWidth_monthDayText (isLeap year)).cons '-')
    (fun day hday => yearOf_lt hday) (fun day _ => dayOfYear_lt day) fun m n hmn _ => yearOf_lex hmn

theorem fixedWidth_minuteText : FixedWidth minuteText 3600 5 := by
  have hfield : FixedWidth (digits 2) 60 2 := (fixedWidth_digits 2).shift 0 (by decide)
  exact hfield.append (fun _ _ => hfield.cons ':') (fun n hn => Nat.div_lt_of_lt_mul hn)
    (fun n _ => Nat.mod_lt n (by decide)) fun m n hmn _ => div_mod_lex hmn

theorem fixedWidth_timeText : FixedWidth timeText 86400 8 := by
  have hhour : FixedWidth (digits 2) 24 2 := (fixedWidth_digits 2).shift 0 (by decide)
  exact hhour.append (fun _ _ => fixedWidth_minuteText.cons ':')
    (fun n hn => Nat.div_lt_of_lt_mul hn) (fun n _ => Nat.mod_lt n (by decide))
    fun m n hmn _ => div_mod_lex hmn

theorem fixedWidth_dateTimeText :
    FixedWidth dateTimeText (86400 * daysBeforeYear 10000) 19 :=
  fixedWidth_dateText.append (fun _ _ => fixedWidth_timeText.cons 'T')
    (fun n hn => Nat.div_lt_of_lt_mul hn) (fun n _ => Nat.mod_lt n (by decide))
    fun m n hmn _ => div_mod_lex hmn

/-- The digits of a fraction are the first of its nine digits, and the others are zeros. -/
theorem fractionText_eq {nanos : ℕ} (hne : nanos ≠ 0) (hlt : nanos < 10 ^ 9) :
    ∃ k, fractionText nanos = '.' :: (digits 9 nanos).take k ∧
      ∀ d ∈ (digits 9 nanos).drop k, d = '0' := by
  have hlength : (digits 9 nanos).length = 9 := (fixedWidth_digits 9).length_eq nanos hlt
  unfold fractionText
  rw [if_neg hne]
  split_ifs with hmillis hmicros
  · obtain ⟨htake, hzero⟩ := @take_digits 3 6 nanos hlt hmillis
    exact ⟨3, congrArg _ htake.symm, hzero⟩
  · obtain ⟨htake, hzero⟩ := @take_digits 6 3 nanos hlt hmicros
    exact ⟨6, congrArg _ htake.symm, hzero⟩
  · refine ⟨9, by rw [List.take_of_length_le hlength.le], ?_⟩
    rw [List.drop_of_length_le hlength.le]
    simp

/-- Fractions order like the nanoseconds, before the same zone. -/
theorem fractionText_lt {m n : ℕ} (hmn : m < n) (hn : n < 10 ^ 9) (zone : List Char) :
    fractionText m ++ '+' :: zone < fractionText n ++ '+' :: zone := by
  have hm := hmn.trans hn
  obtain ⟨k', hn', hzero⟩ := fractionText_eq (Nat.ne_zero_of_lt hmn) hn
  rw [hn']
  by_cases hm0 : m = 0
  · rw [hm0]
    exact List.cons_lt_cons_iff.2 (.inl (by decide))
  · obtain ⟨k, hm', -⟩ := fractionText_eq hm0 hm
    have hwidth := fixedWidth_digits 9
    have hlength : (digits 9 m).length = (digits 9 n).length := by
      rw [hwidth.length_eq m hm, hwidth.length_eq n hn]
    rw [hm', List.cons_append, List.cons_append]
    refine List.cons_lt_cons_iff.2 (.inr ⟨rfl, truncated_lt hlength (hwidth.lt m n hmn hn)
      (zero_le_of_mem_digits hm) (fun d hd => ?_) hzero⟩)
    exact lt_of_lt_of_le (by decide) (zero_le_of_mem_digits hn d hd)

theorem instantText_lt {m n : ℕ} (hmn : m < n)
    (hn : n < 1000000000 * (86400 * daysBeforeYear 10000)) : instantText m < instantText n := by
  have hwidth := fixedWidth_dateTimeText
  have hsecond : ∀ k ≤ n, k / 1000000000 < 86400 * daysBeforeYear 10000 := fun k hk =>
    Nat.div_lt_of_lt_mul (hk.trans_lt hn)
  refine append_lt_append ?_ ?_
  · rw [hwidth.length_eq _ (hsecond m hmn.le), hwidth.length_eq _ (hsecond n le_rfl)]
  · rcases div_mod_lex hmn with hlt | ⟨heq, hlt⟩
    · exact .inl (hwidth.lt _ _ hlt (hsecond n le_rfl))
    · exact .inr ⟨congrArg _ heq, fractionText_lt hlt (Nat.mod_lt n (by decide)) _⟩

/-- The texts of instants of the years 0000 to 9999 order like the instants. -/
theorem rfc3339Text_lt {t t' : DateTime} (ht : InFourDigitYears t) (ht' : InFourDigitYears t')
    (h : t < t') : rfc3339Text t < rfc3339Text t' := by
  have hlength : yearTenThousand - yearZero =
      (1000000000 * (86400 * daysBeforeYear 10000) : ℕ) := by decide
  have hrange : t' - yearZero < (1000000000 * (86400 * daysBeforeYear 10000) : ℕ) :=
    hlength ▸ Int.sub_lt_sub_right ht'.2 _
  have hpos : 0 < t' - yearZero := Int.sub_pos_of_lt (lt_of_le_of_lt ht.1 h)
  rw [rfc3339Text, rfc3339Text, String.lt_iff_toList_lt, String.toList_ofList, String.toList_ofList]
  refine instantText_lt ?_ ?_
  · exact (Int.toNat_lt_toNat hpos).2 (Int.sub_lt_sub_right h _)
  · exact (Int.toNat_lt hpos.le).2 hrange

theorem rfc3339Text_lt_iff {t t' : DateTime} (ht : InFourDigitYears t)
    (ht' : InFourDigitYears t') : rfc3339Text t < rfc3339Text t' ↔ t < t' := by
  refine ⟨fun h => ?_, rfc3339Text_lt ht ht'⟩
  rcases lt_trichotomy t t' with hlt | rfl | hgt
  · exact hlt
  · exact absurd h (lt_irrefl _)
  · exact absurd h (lt_asymm (rfc3339Text_lt ht' ht hgt))

end StellarFeeTracker
