import Mathlib.Algebra.Order.Field.Rat
import Mathlib.Data.Int.Log
import Mathlib.Data.Rat.Floor
import Mathlib.Tactic.FieldSimp
import Mathlib.Tactic.Linarith
import Mathlib.Tactic.NormNum
import Mathlib.Tactic.Positivity
import Mathlib.Tactic.Ring

/-!
# Binary floats of 64 bits

A float is the rational that it stands for, and `± 2 ^ 1024` stand for the infinities.  The result of
an operation is the exact one, rounded to the nearest float: to a multiple of its last place, halves to
the even one (`toFloat`).  Rounding keeps the order and the sign, it changes no float, and it adds at most
one part in `2 ^ 53` to a number that is not tiny.

There is no NaN, and zero has no sign.
-/

namespace Binary64

/-! ## To the nearest integer -/

/-- To the nearest integer, halves to the even one. -/
def roundHalfEven (q : ℚ) : ℤ :=
  if q - ⌊q⌋ < 1 / 2 then ⌊q⌋
  else if 1 / 2 < q - ⌊q⌋ then ⌊q⌋ + 1
  else if ⌊q⌋ % 2 = 0 then ⌊q⌋ else ⌊q⌋ + 1

theorem roundHalfEven_intCast (n : ℤ) : roundHalfEven n = n := by
  simp [roundHalfEven]

theorem floor_le_roundHalfEven (q : ℚ) : ⌊q⌋ ≤ roundHalfEven q := by
  unfold roundHalfEven
  split_ifs <;> omega

theorem roundHalfEven_le_floor_add_one (q : ℚ) : roundHalfEven q ≤ ⌊q⌋ + 1 := by
  unfold roundHalfEven
  split_ifs <;> omega

theorem roundHalfEven_mono {p q : ℚ} (h : p ≤ q) : roundHalfEven p ≤ roundHalfEven q := by
  rcases (Int.floor_mono h).lt_or_eq with hlt | heq
  · calc roundHalfEven p ≤ ⌊p⌋ + 1 := roundHalfEven_le_floor_add_one p
      _ ≤ ⌊q⌋ := hlt
      _ ≤ roundHalfEven q := floor_le_roundHalfEven q
  · have hle : p - ⌊q⌋ ≤ q - ⌊q⌋ := sub_le_sub_right h _
    unfold roundHalfEven
    rw [heq]
    split_ifs <;> first | omega | (exfalso; linarith)

/-- The nearest integer is at most a half away. -/
theorem abs_roundHalfEven_sub_le (q : ℚ) : |(roundHalfEven q : ℚ) - q| ≤ 1 / 2 := by
  have hlow := Int.floor_le q
  have hhigh := Int.lt_floor_add_one q
  unfold roundHalfEven
  rw [abs_le]
  split_ifs <;> push_cast <;> constructor <;> linarith

theorem roundHalfEven_neg (q : ℚ) : roundHalfEven (-q) = -roundHalfEven q := by
  rcases eq_or_ne q ⌊q⌋ with hq | hq
  · rw [hq, ← Int.cast_neg, roundHalfEven_intCast, roundHalfEven_intCast]
  · have hlow : (⌊q⌋ : ℚ) < q := lt_of_le_of_ne (Int.floor_le q) hq.symm
    have hfloor : ⌊-q⌋ = -⌊q⌋ - 1 := by
      rw [Int.floor_eq_iff]
      have hhigh := Int.lt_floor_add_one q
      push_cast
      constructor <;> linarith
    unfold roundHalfEven
    rw [hfloor]
    push_cast
    split_ifs <;> first | omega | (exfalso; linarith)

/-! ## The last place -/

/-- The exponent of the last place of the floats next to a number. -/
def lastPlace (q : ℚ) : ℤ := max (Int.log 2 |q| - 52) (-1074)

theorem lastPlace_neg (q : ℚ) : lastPlace (-q) = lastPlace q := by
  rw [lastPlace, lastPlace, abs_neg]

theorem lastPlace_le_lastPlace {p q : ℚ} (hp : 0 < p) (h : p ≤ q) : lastPlace p ≤ lastPlace q := by
  unfold lastPlace
  rw [abs_of_pos hp, abs_of_pos (hp.trans_le h)]
  exact max_le_max_right _ (sub_le_sub_right (Int.log_mono_right hp h) _)

theorem two_zpow_pos (e : ℤ) : (0 : ℚ) < 2 ^ e := zpow_pos two_pos e

theorem two_zpow_add (e : ℤ) (k : ℕ) : (2 : ℚ) ^ (e + k) = 2 ^ k * 2 ^ e := by
  rw [zpow_add₀ two_ne_zero, zpow_natCast, mul_comm]

/-- A number has at most 53 places before the end of its last one. -/
theorem abs_lt_lastPlace (q : ℚ) : |q| < 2 ^ 53 * 2 ^ lastPlace q := by
  have hlog : |q| < 2 ^ (Int.log 2 |q| + 1) := by
    exact_mod_cast Int.lt_zpow_succ_log_self (b := 2) one_lt_two |q|
  rw [← two_zpow_add (lastPlace q) 53]
  refine hlog.trans_le (zpow_le_zpow_right₀ one_le_two ?_)
  unfold lastPlace
  push_cast
  omega

/-- It has 53 of them, unless it is tiny. -/
theorem lastPlace_le_abs {q : ℚ} (hq : q ≠ 0) (h : -1074 < lastPlace q) :
    2 ^ 52 * 2 ^ lastPlace q ≤ |q| := by
  have hlog : (2 : ℚ) ^ Int.log 2 |q| ≤ |q| := by
    exact_mod_cast Int.zpow_log_le_self (b := 2) one_lt_two (abs_pos.2 hq)
  rw [← two_zpow_add (lastPlace q) 52]
  refine le_trans (zpow_le_zpow_right₀ one_le_two ?_) hlog
  unfold lastPlace at h ⊢
  push_cast
  omega

/-! ## To the nearest float -/

/-- To the nearest float, if there were no largest one. -/
def nearest (q : ℚ) : ℚ := roundHalfEven (q / 2 ^ lastPlace q) * 2 ^ lastPlace q

theorem nearest_neg (q : ℚ) : nearest (-q) = -nearest q := by
  rw [nearest, nearest, lastPlace_neg, neg_div, roundHalfEven_neg, Int.cast_neg, neg_mul]

theorem nearest_zero : nearest 0 = 0 := by
  rw [nearest, zero_div, ← Int.cast_zero (R := ℚ), roundHalfEven_intCast]
  simp

theorem nearest_nonneg {q : ℚ} (h : 0 ≤ q) : 0 ≤ nearest q := by
  have hpos := two_zpow_pos (lastPlace q)
  have hround := roundHalfEven_mono (div_nonneg h hpos.le)
  rw [← Int.cast_zero (R := ℚ), roundHalfEven_intCast] at hround
  exact mul_nonneg (by exact_mod_cast hround) hpos.le

/-- A multiple of the last place is its own nearest float. -/
theorem nearest_of_eq_mul {q : ℚ} {n : ℤ} (h : q = n * 2 ^ lastPlace q) : nearest q = q := by
  have hdiv : q / 2 ^ lastPlace q = n := by
    rw [div_eq_iff (two_zpow_pos _).ne']
    exact h
  rw [nearest, hdiv, roundHalfEven_intCast, ← h]

/-- A number with 53 places is its own nearest float. -/
theorem nearest_intCast_mul {n e : ℤ} (hn : |n| ≤ 2 ^ 53) (he : -1074 ≤ e) :
    nearest (n * 2 ^ e) = n * 2 ^ e := by
  rcases eq_or_ne n 0 with rfl | hne
  · rw [Int.cast_zero, zero_mul, nearest_zero]
  have hpos : (0 : ℚ) < |(n : ℚ)| := abs_pos.2 (Int.cast_ne_zero.2 hne)
  have habs : |(n : ℚ) * 2 ^ e| = |(n : ℚ)| * 2 ^ e := by rw [abs_mul, abs_of_pos (two_zpow_pos e)]
  rcases hn.lt_or_eq with hlt | heq
  · -- the last place is not beyond the exponent
    have hlog : Int.log 2 |(n : ℚ) * 2 ^ e| < e + 53 := by
      rw [habs, ← Int.lt_zpow_iff_log_lt one_lt_two (mul_pos hpos (two_zpow_pos e))]
      have hcast : |(n : ℚ)| < 2 ^ 53 := by exact_mod_cast hlt
      have hsplit := two_zpow_add e 53
      push_cast at hsplit ⊢
      rw [hsplit]
      exact mul_lt_mul_of_pos_right hcast (two_zpow_pos e)
    have hplace : lastPlace ((n : ℚ) * 2 ^ e) ≤ e := by
      unfold lastPlace
      omega
    obtain ⟨k, hk⟩ := Int.le.dest hplace
    refine nearest_of_eq_mul (n := n * 2 ^ k) ?_
    conv_lhs => rw [← hk, two_zpow_add]
    push_cast
    ring
  · -- the one number of 54 places is a power of two
    have hcast : |(n : ℚ)| = 2 ^ 53 := by exact_mod_cast heq
    have hlog : Int.log 2 |(n : ℚ) * 2 ^ e| = e + 53 := by
      rw [habs, hcast, ← two_zpow_add e 53]
      exact_mod_cast Int.log_zpow (R := ℚ) (b := 2) one_lt_two (e + 53)
    have hplace : lastPlace ((n : ℚ) * 2 ^ e) = e + 1 := by
      unfold lastPlace
      omega
    have hhalf : (2 : ℚ) ^ (e + 1) = 2 * 2 ^ e := by
      rw [zpow_add_one₀ two_ne_zero, mul_comm]
    rcases abs_choice (n : ℚ) with hsign | hsign
    · refine nearest_of_eq_mul (n := 2 ^ 52) ?_
      rw [hplace, hhalf, ← hsign, hcast]
      push_cast
      ring
    · refine nearest_of_eq_mul (n := -2 ^ 52) ?_
      rw [hplace, hhalf, ← neg_neg (n : ℚ), ← hsign, hcast]
      push_cast
      ring

/-- The nearest float has 53 places. -/
theorem exists_nearest_eq (q : ℚ) :
    ∃ n : ℤ, nearest q = n * 2 ^ lastPlace q ∧ |n| ≤ 2 ^ 53 := by
  refine ⟨_, rfl, ?_⟩
  have hpos := two_zpow_pos (lastPlace q)
  have hsmall : |q / 2 ^ lastPlace q| ≤ ((2 ^ 53 : ℤ) : ℚ) := by
    rw [abs_div, abs_of_pos hpos, div_le_iff₀ hpos]
    push_cast
    exact (abs_lt_lastPlace q).le
  obtain ⟨hlow, hhigh⟩ := abs_le.1 hsmall
  rw [abs_le]
  constructor
  · have hround := roundHalfEven_mono hlow
    rwa [← Int.cast_neg, roundHalfEven_intCast] at hround
  · have hround := roundHalfEven_mono hhigh
    rwa [roundHalfEven_intCast] at hround

theorem nearest_nearest (q : ℚ) : nearest (nearest q) = nearest q := by
  obtain ⟨n, heq, hn⟩ := exists_nearest_eq q
  rw [heq]
  exact nearest_intCast_mul hn (le_max_right _ _)

/-- At a larger last place the floats are beyond all of those at a smaller one. -/
theorem nearest_mono_of_pos {p q : ℚ} (hp : 0 < p) (h : p ≤ q) : nearest p ≤ nearest q := by
  have hq : 0 < q := hp.trans_le h
  rcases (lastPlace_le_lastPlace hp h).lt_or_eq with hlt | heq
  · have hbig : 2 ^ 52 * 2 ^ lastPlace q ≤ q := by
      have hbound := lastPlace_le_abs hq.ne' (lt_of_le_of_lt (le_max_right _ _) hlt)
      rwa [abs_of_pos hq] at hbound
    have hfar : (2 : ℚ) ^ 52 * 2 ^ lastPlace q ≤ nearest q := by
      have hdiv : ((2 ^ 52 : ℤ) : ℚ) ≤ q / 2 ^ lastPlace q := by
        rw [le_div_iff₀ (two_zpow_pos _)]
        push_cast
        exact hbig
      have hround := roundHalfEven_mono hdiv
      rw [roundHalfEven_intCast] at hround
      refine mul_le_mul_of_nonneg_right ?_ (two_zpow_pos _).le
      exact_mod_cast hround
    obtain ⟨n, hn, hplaces⟩ := exists_nearest_eq p
    have hnear : nearest p ≤ 2 ^ 53 * 2 ^ lastPlace p := by
      rw [hn]
      refine mul_le_mul_of_nonneg_right ?_ (two_zpow_pos _).le
      exact_mod_cast (le_abs_self n).trans hplaces
    have hstep : (2 : ℚ) * 2 ^ lastPlace p ≤ 2 ^ lastPlace q := by
      have hpow : (2 : ℚ) ^ (lastPlace p + 1) ≤ 2 ^ lastPlace q :=
        zpow_le_zpow_right₀ one_le_two hlt
      rwa [zpow_add_one₀ two_ne_zero, mul_comm] at hpow
    linarith
  · rw [nearest, nearest, heq]
    refine mul_le_mul_of_nonneg_right ?_ (two_zpow_pos _).le
    exact_mod_cast roundHalfEven_mono (div_le_div_of_nonneg_right h (two_zpow_pos _).le)

theorem nearest_mono {p q : ℚ} (h : p ≤ q) : nearest p ≤ nearest q := by
  rcases lt_or_ge 0 p with hp | hp
  · exact nearest_mono_of_pos hp h
  · have hlow : nearest p ≤ 0 := by
      have hneg := nearest_nonneg (neg_nonneg.2 hp)
      rw [nearest_neg] at hneg
      linarith
    rcases lt_or_ge q 0 with hq | hq
    · have hneg := nearest_mono_of_pos (neg_pos.2 hq) (neg_le_neg h)
      rw [nearest_neg, nearest_neg] at hneg
      linarith
    · exact hlow.trans (nearest_nonneg hq)

/-- The nearest float is at most half of the last place away. -/
theorem abs_nearest_sub_le (q : ℚ) : |nearest q - q| ≤ 2 ^ lastPlace q / 2 := by
  have hpos := two_zpow_pos (lastPlace q)
  have herror := abs_roundHalfEven_sub_le (q / 2 ^ lastPlace q)
  have hsplit : nearest q - q =
      (roundHalfEven (q / 2 ^ lastPlace q) - q / 2 ^ lastPlace q) * 2 ^ lastPlace q := by
    rw [nearest, sub_mul, div_mul_cancel₀ _ hpos.ne']
  rw [hsplit, abs_mul, abs_of_pos hpos]
  calc _ ≤ 1 / 2 * (2 : ℚ) ^ lastPlace q := mul_le_mul_of_nonneg_right herror hpos.le
    _ = 2 ^ lastPlace q / 2 := by ring

/-- Of a number that is not tiny it is one part in `2 ^ 53` away at most. -/
theorem nearest_le {q : ℚ} (hq : 2 ^ (-1022 : ℤ) ≤ q) : nearest q ≤ q * (1 + 1 / 2 ^ 53) := by
  have hpos : 0 < q := (two_zpow_pos _).trans_le hq
  have hlog : (2 : ℚ) ^ Int.log 2 q ≤ q := by
    exact_mod_cast Int.zpow_log_le_self (b := 2) one_lt_two hpos
  have hnormal : -1022 ≤ Int.log 2 q := by
    rw [← Int.zpow_le_iff_le_log one_lt_two hpos]
    exact_mod_cast hq
  have hplace : lastPlace q = Int.log 2 q - 52 := by
    unfold lastPlace
    rw [abs_of_pos hpos]
    omega
  have hsmall : 2 ^ 52 * (2 : ℚ) ^ lastPlace q ≤ q := by
    have hsum : Int.log 2 q = lastPlace q + 52 := by omega
    rw [hsum] at hlog
    have hsplit := two_zpow_add (lastPlace q) 52
    push_cast at hsplit
    rwa [← hsplit]
  have herror := (abs_le.1 (abs_nearest_sub_le q)).2
  linarith

/-! ## Rounding -/

/-- The least number that no float reaches; it stands for infinity. -/
@[irreducible] def infinity : ℚ := 2 ^ 1024

theorem infinity_pos : 0 < infinity := by
  unfold infinity
  positivity

/-- The result of an operation: the nearest float, or an infinity. -/
def toFloat (q : ℚ) : ℚ := max (-infinity) (min (nearest q) infinity)

/-- The number is a float. -/
def IsFloat (q : ℚ) : Prop := toFloat q = q

instance : DecidablePred IsFloat := fun q => inferInstanceAs (Decidable (toFloat q = q))

theorem IsFloat.eq {q : ℚ} (h : IsFloat q) : toFloat q = q := h

theorem toFloat_mono {p q : ℚ} (h : p ≤ q) : toFloat p ≤ toFloat q :=
  max_le_max_left _ (min_le_min_right _ (nearest_mono h))

theorem toFloat_neg (q : ℚ) : toFloat (-q) = -toFloat q := by
  have hpos := infinity_pos
  unfold toFloat
  rw [nearest_neg]
  rcases le_total (nearest q) infinity with hhigh | hhigh
  · rcases le_total (-infinity) (nearest q) with hlow | hlow
    · rw [min_eq_left hhigh, max_eq_right hlow, min_eq_left (neg_le.1 hlow),
        max_eq_right (neg_le_neg hhigh)]
    · rw [min_eq_left hhigh, max_eq_left hlow, neg_neg, min_eq_right (le_neg.1 hlow),
        max_eq_right (by linarith)]
  · have hneg : -nearest q ≤ -infinity := neg_le_neg hhigh
    have horder : -infinity ≤ infinity := by linarith
    rw [min_eq_right hhigh, max_eq_right horder, min_eq_left (hneg.trans horder), max_eq_left hneg]

theorem toFloat_of_nearest {q : ℚ} (h : |nearest q| ≤ infinity) : toFloat q = nearest q := by
  obtain ⟨hlow, hhigh⟩ := abs_le.1 h
  rw [toFloat, min_eq_left hhigh, max_eq_right hlow]

theorem toFloat_nonneg {q : ℚ} (h : 0 ≤ q) : 0 ≤ toFloat q :=
  le_max_of_le_right (le_min (nearest_nonneg h) infinity_pos.le)

/-- Rounding up adds at most one part in `2 ^ 53`. -/
theorem toFloat_le {q : ℚ} (hq : 2 ^ (-1022 : ℤ) ≤ q) : toFloat q ≤ q * (1 + 1 / 2 ^ 53) := by
  have hpos : 0 < q := (two_zpow_pos _).trans_le hq
  have hnonneg : 0 ≤ q * (1 + 1 / 2 ^ 53) := mul_nonneg hpos.le (by norm_num)
  exact max_le ((neg_neg_of_pos infinity_pos).le.trans hnonneg)
    ((min_le_left _ _).trans (nearest_le hq))

/-! ## Floats -/

theorem isFloat_intCast_mul {n e : ℤ} (hn : |n| ≤ 2 ^ 53) (he : -1074 ≤ e)
    (hle : |(n : ℚ) * 2 ^ e| ≤ infinity) : IsFloat (n * 2 ^ e) := by
  have hnearest := nearest_intCast_mul hn he
  rw [← hnearest] at hle
  exact (toFloat_of_nearest hle).trans hnearest

theorem isFloat_natCast {n : ℕ} (h : n ≤ 2 ^ 53) : IsFloat n := by
  have hcast : (n : ℚ) ≤ 2 ^ 53 := by exact_mod_cast h
  have hfloat := isFloat_intCast_mul (n := n) (e := 0)
    (by rw [Nat.abs_cast]; exact_mod_cast h) (by decide)
    (by
      rw [zpow_zero, mul_one, Int.cast_natCast, Nat.abs_cast, infinity]
      exact hcast.trans (pow_le_pow_right₀ one_le_two (by decide)))
  simpa using hfloat

/-- A number that exceeds a natural one by at most half of its last place is rounded to it or below. -/
theorem toFloat_le_natCast {m : ℕ} (hm : m < 2 ^ 53) {q : ℚ} (hq : q ≤ m * (1 + 1 / 2 ^ 54)) :
    toFloat q ≤ m := by
  have hfloat : IsFloat (m : ℚ) := isFloat_natCast hm.le
  rcases le_or_gt q m with hle | hlt
  · rw [← hfloat.eq]
    exact toFloat_mono hle
  have hm0 : (0 : ℚ) ≤ m := Nat.cast_nonneg m
  have hq0 : 0 < q := hm0.trans_lt hlt
  have hm53 : (m : ℚ) ≤ 2 ^ 53 - 1 := by
    rw [le_sub_iff_add_le]
    exact_mod_cast hm
  have hplace : lastPlace q ≤ 0 := by
    have hlog : Int.log 2 q < 53 := by
      rw [← Int.lt_zpow_iff_log_lt one_lt_two hq0]
      norm_num
      linarith
    rw [lastPlace, abs_of_pos hq0]
    omega
  obtain ⟨j, hj⟩ : ∃ j : ℕ, lastPlace q = -j := ⟨(lastPlace q).natAbs, by omega⟩
  have hunit : (0 : ℚ) < 2 ^ lastPlace q := two_zpow_pos _
  have hmul : ((m * 2 ^ j : ℤ) : ℚ) * 2 ^ lastPlace q = m := by
    push_cast
    rw [hj, zpow_neg, zpow_natCast, mul_assoc, mul_inv_cancel₀ (by positivity), mul_one]
  obtain ⟨k, hk, -⟩ := exists_nearest_eq q
  have herror := (abs_le.1 (abs_nearest_sub_le q)).2
  have hexcess : (m : ℚ) * (1 / 2 ^ 54) < 2 ^ lastPlace q / 2 := by
    have hsmall := abs_lt_lastPlace q
    rw [abs_of_pos hq0] at hsmall
    linarith
  have hless : (k : ℚ) < (m * 2 ^ j : ℤ) + 1 := by
    refine lt_of_mul_lt_mul_right ?_ hunit.le
    rw [← hk, add_mul, hmul]
    linarith
  have hless' : k ≤ (m * 2 ^ j : ℤ) := Int.lt_add_one_iff.1 (by exact_mod_cast hless)
  have hnearest : nearest q ≤ m := by
    rw [hk, ← hmul]
    exact mul_le_mul_of_nonneg_right (by exact_mod_cast hless') hunit.le
  refine max_le (by linarith [infinity_pos]) ((min_le_left _ _).trans hnearest)

/-- Rounding keeps the ceiling of a number that is not close above an integer. -/
theorem ceil_toFloat {m : ℕ} (hm : m ≤ 2 ^ 44) {q : ℚ} (hlow : (m : ℚ) - 1 + 1 / 2 ^ 8 ≤ q)
    (hhigh : q ≤ m * (1 + 1 / 2 ^ 54)) : ⌈toFloat q⌉ = m := by
  have hbound : ((256 * m - 255 : ℤ) : ℚ) * 2 ^ (-8 : ℤ) = (m : ℚ) - 1 + 1 / 2 ^ 8 := by
    push_cast
    norm_num
    ring
  have hm44 : (m : ℚ) ≤ 2 ^ 44 := by exact_mod_cast hm
  have hfloat : IsFloat ((m : ℚ) - 1 + 1 / 2 ^ 8) := by
    rw [← hbound]
    refine isFloat_intCast_mul (abs_le.2 ⟨by omega, by omega⟩) (by decide) ?_
    rw [hbound]
    have hinfinity : (2 : ℚ) ^ 44 ≤ infinity := by
      rw [infinity]
      exact pow_le_pow_right₀ one_le_two (by decide)
    have hm0 : (0 : ℚ) ≤ m := Nat.cast_nonneg m
    rw [abs_le]
    constructor <;> linarith
  rw [Int.ceil_eq_iff]
  constructor
  · rw [Int.cast_natCast]
    have hmono := toFloat_mono hlow
    rw [hfloat.eq] at hmono
    linarith
  · rw [Int.cast_natCast]
    exact toFloat_le_natCast (by omega) hhigh

theorem isFloat_infinity : IsFloat infinity := by decide +kernel

theorem isFloat_one : IsFloat 1 := by decide +kernel

/-- The result of an operation is a float. -/
theorem isFloat_toFloat (q : ℚ) : IsFloat (toFloat q) := by
  have hpos := infinity_pos
  have hnearest : nearest infinity = infinity := by decide +kernel
  unfold IsFloat
  rcases le_total |nearest q| infinity with hfits | hover
  · rw [toFloat_of_nearest hfits, toFloat_of_nearest (by rwa [nearest_nearest]), nearest_nearest]
  · rcases le_abs'.1 hover with hlow | hhigh
    · have hround : toFloat q = -infinity :=
        max_eq_left ((min_le_left _ _).trans hlow)
      rw [hround, toFloat_neg, isFloat_infinity]
    · have hround : toFloat q = infinity := by
        rw [toFloat, min_eq_right hhigh, max_eq_right (by linarith)]
      rw [hround, isFloat_infinity]

/-- A whole number is rounded to a whole number. -/
theorem exists_natCast_eq_toFloat (n : ℕ) : ∃ m : ℕ, toFloat n = m := by
  rcases le_total n (2 ^ 53) with hsmall | hbig
  · exact ⟨n, isFloat_natCast hsmall⟩
  have hbig' : (2 : ℚ) ^ 53 ≤ n := by exact_mod_cast hbig
  have hpos : (0 : ℚ) < n := lt_of_lt_of_le (by positivity) hbig'
  -- the last place is a whole one
  have hlog : (53 : ℤ) ≤ Int.log 2 (n : ℚ) := by
    rw [← Int.zpow_le_iff_le_log one_lt_two hpos]
    exact_mod_cast hbig'
  have hplace : 0 ≤ lastPlace n := by
    unfold lastPlace
    rw [abs_of_pos hpos]
    omega
  obtain ⟨k, hk⟩ := Int.eq_ofNat_of_zero_le hplace
  obtain ⟨m, hm, -⟩ := exists_nearest_eq n
  have hwhole : nearest n = ((m * 2 ^ k : ℤ) : ℚ) := by
    rw [hm, hk]
    push_cast
    rw [zpow_natCast]
  have hnonneg : 0 ≤ m * 2 ^ k := by
    have hround := nearest_nonneg hpos.le
    rw [hwhole] at hround
    exact_mod_cast hround
  obtain ⟨w, hw⟩ := Int.eq_ofNat_of_zero_le hnonneg
  obtain ⟨largest, hinfinity⟩ : ∃ largest : ℕ, infinity = largest := 
    ⟨2 ^ 1024, by rw [infinity, Nat.cast_pow, Nat.cast_ofNat]⟩
  refine ⟨min w largest, ?_⟩
  have hcast : nearest n = (w : ℚ) := by
    rw [hwhole, hw]
    exact Int.cast_natCast w
  rw [toFloat, hcast, hinfinity, ← Nat.cast_min]
  exact max_eq_right (le_trans (by simp) (Nat.cast_nonneg _))

/-- A finite float is a multiple of its last place. -/
theorem IsFloat.exists_eq_mul {q : ℚ} (h : IsFloat q) (hfinite : |q| < infinity) :
    ∃ n : ℤ, q = n * 2 ^ lastPlace q := by
  obtain ⟨hlow, hhigh⟩ := abs_lt.1 hfinite
  have hnearest : nearest q = q := by
    unfold IsFloat toFloat at h
    rcases max_choice (-infinity) (min (nearest q) infinity) with hmax | hmax
    · exact absurd (h.symm.trans hmax) hlow.ne'
    · rcases min_choice (nearest q) infinity with hmin | hmin
      · rw [← hmin, ← hmax, h]
      · exact absurd (h.symm.trans (hmax.trans hmin)) hhigh.ne
  obtain ⟨n, hn, -⟩ := exists_nearest_eq q
  exact ⟨n, by rwa [hnearest] at hn⟩

theorem two_lt_infinity : 2 < infinity := by
  rw [infinity]
  exact lt_self_pow₀ one_lt_two (by decide)

/-- A float above one is at least one part in `2 ^ 52` above it. -/
theorem IsFloat.le_of_one_lt {q : ℚ} (h : IsFloat q) (hlt : 1 < q) : 1 + 1 / 2 ^ 52 ≤ q := by
  by_contra hnot
  rw [not_le] at hnot
  have hpos : 0 < q := zero_lt_one.trans hlt
  have htwo : q < 2 := hnot.trans (by norm_num)
  have hplace : lastPlace q = -52 := by
    have hlow : 0 ≤ Int.log 2 q := by
      rw [← Int.zpow_le_iff_le_log one_lt_two hpos]
      simpa using hlt.le
    have hhigh : Int.log 2 q < 1 := by
      rw [← Int.lt_zpow_iff_log_lt one_lt_two hpos]
      simpa using htwo
    unfold lastPlace
    rw [abs_of_pos hpos]
    omega
  have hfinite : |q| < infinity := by
    rw [abs_of_pos hpos]
    exact htwo.trans two_lt_infinity
  obtain ⟨n, hn⟩ := h.exists_eq_mul hfinite
  have hscale : q * 2 ^ 52 = n := by
    rw [hn, hplace, mul_assoc]
    norm_num
  have hless : (n : ℚ) < 2 ^ 52 + 1 := by
    rw [← hscale]
    linarith
  have hmore : (2 : ℚ) ^ 52 < n := by
    rw [← hscale]
    linarith
  have hless' : n < 2 ^ 52 + 1 := by exact_mod_cast hless
  have hmore' : (2 : ℤ) ^ 52 < n := by exact_mod_cast hmore
  omega

theorem IsFloat.le_infinity {q : ℚ} (h : IsFloat q) : q ≤ infinity := by
  rw [← h.eq]
  exact max_le (by linarith [infinity_pos]) (min_le_right _ _)

/-- A product with a factor below one is smaller, even when it is rounded up. -/
theorem toFloat_mul_lt {p q : ℚ} (hp : 1 ≤ p) (hq : q ≤ 1 - 1 / 2 ^ 53) : toFloat (p * q) < p := by
  have hpos : 0 < p := zero_lt_one.trans_le hp
  have hnormal : 2 ^ (-1022 : ℤ) ≤ p * (1 - 1 / 2 ^ 53) := by
    have hpow : (2 : ℚ) ^ (-1022 : ℤ) ≤ 2 ^ (-1 : ℤ) := zpow_le_zpow_right₀ one_le_two (by decide)
    have hhalf : (2 : ℚ) ^ (-1 : ℤ) ≤ 1 - 1 / 2 ^ 53 := by norm_num
    exact (hpow.trans hhalf).trans (le_mul_of_one_le_left (by norm_num) hp)
  calc toFloat (p * q) ≤ toFloat (p * (1 - 1 / 2 ^ 53)) :=
        toFloat_mono (mul_le_mul_of_nonneg_left hq hpos.le)
    _ ≤ p * (1 - 1 / 2 ^ 53) * (1 + 1 / 2 ^ 53) := toFloat_le hnormal
    _ = p * (1 - 1 / 2 ^ 106) := by ring
    _ < p := mul_lt_of_lt_one_right hpos (by norm_num)

/-! ## Powers -/

/-- Multiply by the powers of `a` that the bits of the exponent say, each the square of the one
before. -/
def powiLoop : ℕ → ℚ → ℕ → ℚ → ℚ
  | 0, _, _, product => product
  | bits + 1, a, n, product =>
    let product := if n % 2 = 1 then toFloat (product * a) else product
    if n / 2 = 0 then product else powiLoop bits (toFloat (a * a)) (n / 2) product

/-- One by a float.  No part of an infinity is left. -/
def recip (q : ℚ) : ℚ :=
  if q = 0 then infinity else if |q| = infinity then 0 else toFloat (1 / q)

/-- A power with an exponent of 32 bits. -/
def powi (a : ℚ) (n : ℤ) : ℚ :=
  let product := powiLoop 32 a n.natAbs 1
  if n < 0 then recip product else product

example : powi 3 4 = 81 ∧ powi 2 (-3) = 1 / 8 ∧ powi 2 2000 = infinity := by decide +kernel

theorem powi_of_nonneg {a : ℚ} {n : ℤ} (hn : 0 ≤ n) : powi a n = powiLoop 32 a n.natAbs 1 := by
  simp [powi, hn]

theorem powi_of_neg {a : ℚ} {n : ℤ} (hn : n < 0) :
    powi a n = recip (powiLoop 32 a n.natAbs 1) := by
  simp [powi, hn]

theorem powiLoop_zero (bits : ℕ) (a product : ℚ) : powiLoop bits a 0 product = product := by
  cases bits with
  | zero => rfl
  | succ bits => rfl

/-- There is nothing left to multiply by when no bit is left. -/
theorem powiLoop_succ (bits : ℕ) (a : ℚ) (n : ℕ) (product : ℚ) :
    powiLoop (bits + 1) a n product = powiLoop bits (toFloat (a * a)) (n / 2)
      (if n % 2 = 1 then toFloat (product * a) else product) := by
  rw [powiLoop]
  by_cases hlast : n / 2 = 0
  · simp only [hlast, if_true, powiLoop_zero]
  · simp only [hlast, if_false]

theorem powiLoop_mono (bits : ℕ) {a : ℚ} (ha : 0 ≤ a) (n : ℕ) {product product' : ℚ}
    (h : product ≤ product') : powiLoop bits a n product ≤ powiLoop bits a n product' := by
  induction bits generalizing a n product product' with
  | zero => exact h
  | succ bits ih =>
    rw [powiLoop_succ, powiLoop_succ]
    refine ih (toFloat_nonneg (mul_self_nonneg a)) _ ?_
    split_ifs
    · exact toFloat_mono (mul_le_mul_of_nonneg_right h ha)
    · exact h

theorem isFloat_powiLoop (bits : ℕ) (a : ℚ) (n : ℕ) {product : ℚ} (h : IsFloat product) :
    IsFloat (powiLoop bits a n product) := by
  induction bits generalizing a n product with
  | zero => exact h
  | succ bits ih =>
    rw [powiLoop_succ]
    refine ih _ _ ?_
    split_ifs
    · exact isFloat_toFloat _
    · exact h

/-- One more factor does not make a power smaller: the lowest bits that it clears stand for less than
the bit that it sets. -/
theorem powiLoop_le_succ {bits n : ℕ} (hn : n + 1 < 2 ^ bits) {a : ℚ} (ha : 1 ≤ a)
    (hfloat : IsFloat a) {product : ℚ} (hproduct : product ≤ a) :
    powiLoop bits a n product ≤ powiLoop bits a (n + 1) 1 := by
  induction bits generalizing n a product with
  | zero => exact absurd hn (by omega)
  | succ bits ih =>
    have ha0 : 0 ≤ a := zero_le_one.trans ha
    have hsquare : 1 ≤ toFloat (a * a) := by
      have hmono := toFloat_mono (one_le_mul_of_one_le_of_one_le ha ha)
      rwa [isFloat_one.eq] at hmono
    rw [powiLoop_succ, powiLoop_succ]
    rcases Nat.mod_two_eq_zero_or_one n with heven | hodd
    · have hhalf : (n + 1) / 2 = n / 2 := by omega
      have hset : (n + 1) % 2 = 1 := by omega
      rw [if_neg (by omega), if_pos hset, hhalf, one_mul, hfloat.eq]
      exact powiLoop_mono bits (zero_le_one.trans hsquare) _ hproduct
    · have hhalf : (n + 1) / 2 = n / 2 + 1 := by omega
      have hclear : ¬ (n + 1) % 2 = 1 := by omega
      rw [if_pos hodd, if_neg hclear, hhalf]
      rw [pow_succ] at hn
      exact ih (by omega) hsquare (isFloat_toFloat _)
        (toFloat_mono (mul_le_mul_of_nonneg_right hproduct ha0))

/-- The powers of a float that is not below one grow with the exponent. -/
theorem powiLoop_mono_exponent {a : ℚ} (ha : 1 ≤ a) (hfloat : IsFloat a) {m n : ℕ} (hmn : m ≤ n)
    (hn : n < 2 ^ 32) : powiLoop 32 a m 1 ≤ powiLoop 32 a n 1 := by
  induction n, hmn using Nat.le_induction with
  | base => exact le_refl _
  | succ n _ ih => exact (ih (by omega)).trans (powiLoop_le_succ hn ha hfloat ha)

theorem one_le_powiLoop {a : ℚ} (ha : 1 ≤ a) (hfloat : IsFloat a) {n : ℕ} (hn : n < 2 ^ 32) :
    1 ≤ powiLoop 32 a n 1 := by
  have hmono := powiLoop_mono_exponent ha hfloat (Nat.zero_le n) hn
  rwa [powiLoop_zero] at hmono

theorem le_powiLoop {a : ℚ} (ha : 1 ≤ a) (hfloat : IsFloat a) {n : ℕ} (hpos : 0 < n)
    (hn : n < 2 ^ 32) : a ≤ powiLoop 32 a n 1 := by
  have hone : powiLoop 32 a 1 1 = a := by
    have hstep := powiLoop_succ 31 a 1 1
    rw [if_pos (by decide), one_mul, hfloat.eq] at hstep
    exact hstep.trans (powiLoop_zero 31 (toFloat (a * a)) a)
  exact hone.ge.trans (powiLoop_mono_exponent ha hfloat hpos hn)

theorem powiLoop_one (bits n : ℕ) : powiLoop bits 1 n 1 = 1 := by
  induction bits generalizing n with
  | zero => rfl
  | succ bits ih =>
    rw [powiLoop_succ, mul_one, isFloat_one.eq, ite_self]
    exact ih _

theorem recip_nonneg {q : ℚ} (h : 0 ≤ q) : 0 ≤ recip q := by
  unfold recip
  split_ifs
  · exact infinity_pos.le
  · exact le_refl _
  · exact toFloat_nonneg (one_div_nonneg.2 h)

theorem powi_one (n : ℤ) : powi 1 n = 1 := by
  rcases lt_or_ge n 0 with hn | hn
  · rw [powi_of_neg hn, powiLoop_one]
    decide +kernel
  · rw [powi_of_nonneg hn, powiLoop_one]

/-- What is left of one falls as the float grows. -/
theorem recip_anti {p q : ℚ} (hp : 1 ≤ p) (hq : IsFloat q) (h : p ≤ q) : recip q ≤ recip p := by
  have hp0 : 0 < p := zero_lt_one.trans_le hp
  have hq0 : 0 < q := hp0.trans_le h
  by_cases hinf : q = infinity
  · have hzero : recip q = 0 := by
      rw [recip, if_neg hq0.ne', if_pos (by rw [abs_of_pos hq0, hinf])]
    rw [hzero]
    exact recip_nonneg hp0.le
  · have hinf' : p ≠ infinity := fun heq => hinf (le_antisymm hq.le_infinity (heq ▸ h))
    rw [recip, recip, if_neg hq0.ne', if_neg hp0.ne', if_neg (by rwa [abs_of_pos hq0]),
      if_neg (by rwa [abs_of_pos hp0])]
    exact toFloat_mono (one_div_le_one_div_of_le hp0 h)

/-- What is left of one is less if the float is above one. -/
theorem recip_le_of_one_lt {q : ℚ} (h : IsFloat q) (hlt : 1 < q) : recip q ≤ 1 - 1 / 2 ^ 53 := by
  have hpos : 0 < q := zero_lt_one.trans hlt
  unfold recip
  rw [if_neg hpos.ne']
  split_ifs
  · norm_num
  · have hfloat : IsFloat (1 - 1 / 2 ^ 53) := by decide +kernel
    rw [← hfloat.eq]
    refine toFloat_mono ((one_div_le_one_div_of_le (by norm_num) (h.le_of_one_lt hlt)).trans ?_)
    norm_num

end Binary64

/-- How the results of operations are rounded: not at all, or to binary floats. -/
inductive Rounding where
  | exact
  | binary64
  deriving DecidableEq, Repr

/-- The result of an operation. -/
def Rounding.round : Rounding → ℚ → ℚ
  | .exact => id
  | .binary64 => Binary64.toFloat

/-- Add the terms one after the other. -/
def Rounding.sum (rounding : Rounding) (terms : List ℚ) : ℚ :=
  terms.foldl (fun sum term => rounding.round (sum + term)) 0

@[simp] theorem Rounding.round_exact (q : ℚ) : Rounding.exact.round q = q := rfl

@[simp] theorem Rounding.round_binary64 (q : ℚ) : Rounding.binary64.round q = Binary64.toFloat q := rfl

@[simp] theorem Rounding.sum_exact (terms : List ℚ) : Rounding.exact.sum terms = terms.sum :=
  List.sum_eq_foldl.symm

theorem Rounding.round_mono (rounding : Rounding) {p q : ℚ} (h : p ≤ q) :
    rounding.round p ≤ rounding.round q := by
  cases rounding with
  | exact => exact h
  | binary64 => exact Binary64.toFloat_mono h

theorem Rounding.round_natCast_of_le (rounding : Rounding) {n : ℕ} (h : n ≤ 2 ^ 53) :
    rounding.round n = n := by
  cases rounding with
  | exact => rfl
  | binary64 => exact Binary64.isFloat_natCast h
