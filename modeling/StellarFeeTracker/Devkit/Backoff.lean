import StellarFeeTracker.Numeric

/-!
# Exponential backoff

The attempt is cast to a signed exponent, which is negative from attempt `2 ^ 31` on.  Before and from
that attempt the delays grow with the attempts, however the products are rounded, and at it they start
again from almost nothing (`growsCapped_iff`).
-/

namespace StellarFeeTracker.Devkit

open Binary64

structure BackoffConfig where
  baseDelayMs : BitVec 64
  multiplier : ℚ
  maxDelayMs : BitVec 64
  isFloat : Binary64.IsFloat multiplier
  deriving DecidableEq

def BackoffConfig.default : BackoffConfig where
  baseDelayMs := 100#64
  multiplier := 2
  maxDelayMs := 30000#64
  isFloat := by decide +kernel

structure BackoffCalculator where
  config : BackoffConfig
  deriving DecidableEq

namespace BackoffCalculator

def new (config : BackoffConfig) : BackoffCalculator := { config }

variable (calculator : BackoffCalculator)

/-- A product of zero and infinity, which is no number, is cast to zero as zero is. -/
def delayFor (attempt : BitVec 32) : ℕ :=
  let scaled := toFloat (toFloat calculator.config.baseDelayMs.toNat *
    powi calculator.config.multiplier attempt.toInt)
  min (asU64 scaled) calculator.config.maxDelayMs.toNat

variable {calculator}

theorem delayFor_le_max (attempt : BitVec 32) :
    calculator.delayFor attempt ≤ calculator.config.maxDelayMs.toNat :=
  min_le_right _ _

theorem natAbs_toInt_lt (attempt : BitVec 32) : attempt.toInt.natAbs < 2 ^ 32 := by
  have hlow := BitVec.le_toInt attempt
  have hhigh := BitVec.toInt_lt (x := attempt)
  omega

section Multiplier

variable (hmultiplier : 1 ≤ calculator.config.multiplier)
include hmultiplier

/-- The delays grow with the exponents of one sign. -/
theorem delayFor_mono {a b : BitVec 32} (hexponent : a.toInt ≤ b.toInt)
    (hsign : 0 ≤ a.toInt ∨ b.toInt < 0) : calculator.delayFor a ≤ calculator.delayFor b := by
  have hfloat := calculator.config.isFloat
  have hpower : powi calculator.config.multiplier a.toInt ≤
      powi calculator.config.multiplier b.toInt := by
    rcases hsign with ha | hb
    · rw [powi_of_nonneg ha, powi_of_nonneg (ha.trans hexponent)]
      exact powiLoop_mono_exponent hmultiplier hfloat (by omega) (natAbs_toInt_lt b)
    · rw [powi_of_neg (hexponent.trans_lt hb), powi_of_neg hb]
      exact recip_anti (one_le_powiLoop hmultiplier hfloat (natAbs_toInt_lt b))
        (isFloat_powiLoop _ _ _ isFloat_one)
        (powiLoop_mono_exponent hmultiplier hfloat (by omega) (natAbs_toInt_lt a))
  have hbase : (0 : ℚ) ≤ toFloat calculator.config.baseDelayMs.toNat :=
    toFloat_nonneg (Nat.cast_nonneg _)
  exact min_le_min_right _ (asU64_mono (toFloat_mono (mul_le_mul_of_nonneg_left hpower hbase)))

/-- The base is not made smaller by a power with an exponent that is not negative. -/
theorem base_le_scaled {a : BitVec 32} (ha : 0 ≤ a.toInt) :
    toFloat calculator.config.baseDelayMs.toNat ≤ toFloat (toFloat calculator.config.baseDelayMs.toNat *
      powi calculator.config.multiplier a.toInt) := by
  have hone : 1 ≤ powi calculator.config.multiplier a.toInt := by
    rw [powi_of_nonneg ha]
    exact one_le_powiLoop hmultiplier calculator.config.isFloat (natAbs_toInt_lt a)
  have hscaled := toFloat_mono (le_mul_of_one_le_right
    (toFloat_nonneg (Nat.cast_nonneg (α := ℚ) calculator.config.baseDelayMs.toNat)) hone)
  rwa [(isFloat_toFloat _).eq] at hscaled

/-- A power with a negative exponent leaves less than the base. -/
theorem asU64_scaled_lt (hone : calculator.config.multiplier ≠ 1)
    (hzero : calculator.config.baseDelayMs ≠ 0#64) {b : BitVec 32} (hb : b.toInt < 0) :
    asU64 (toFloat (toFloat calculator.config.baseDelayMs.toNat *
        powi calculator.config.multiplier b.toInt)) <
      asU64 (toFloat calculator.config.baseDelayMs.toNat) := by
  have hfloat := calculator.config.isFloat
  have hgrows : 1 < powiLoop 32 calculator.config.multiplier b.toInt.natAbs 1 :=
    (lt_of_le_of_ne hmultiplier hone.symm).trans_le
      (le_powiLoop hmultiplier hfloat (by omega) (natAbs_toInt_lt b))
  have hleft : powi calculator.config.multiplier b.toInt ≤ 1 - 1 / 2 ^ 53 := by
    rw [powi_of_neg hb]
    exact recip_le_of_one_lt (isFloat_powiLoop _ _ _ isFloat_one) hgrows
  generalize powi calculator.config.multiplier b.toInt = power at hleft ⊢
  have hfits : calculator.config.baseDelayMs.toNat ≤ u64Max :=
    Nat.le_of_lt_succ calculator.config.baseDelayMs.isLt
  have hpos : 1 ≤ calculator.config.baseDelayMs.toNat := by
    have hne : calculator.config.baseDelayMs.toNat ≠ 0 :=
      fun h => hzero (BitVec.eq_of_toNat_eq h)
    omega
  generalize calculator.config.baseDelayMs.toNat = base at hfits hpos ⊢
  obtain ⟨rounded, hrounded⟩ := exists_natCast_eq_toFloat base
  have hbase : (1 : ℚ) ≤ toFloat base := by
    have hmono := toFloat_mono (Nat.one_le_cast (α := ℚ).2 hpos)
    rwa [isFloat_one.eq] at hmono
  have hless := toFloat_mul_lt hbase hleft
  rcases Nat.lt_or_ge u64Max rounded with hlarge | hsmall
  · -- the base is rounded up to `2 ^ 64`, and the float below it still fits
    have hmax : toFloat base ≤ 2 ^ 64 := by
      have hbound : (base : ℚ) ≤ 2 ^ 64 := by exact_mod_cast hfits.trans (by decide)
      have hself : toFloat (2 ^ 64) = 2 ^ 64 := by decide +kernel
      rw [← hself]
      exact toFloat_mono hbound
    have hleast : toFloat (toFloat base * power) ≤ (u64Max - 1 : ℕ) := by
      have hself : toFloat (2 ^ 64 * (1 - 1 / 2 ^ 53)) ≤ (u64Max - 1 : ℕ) := by decide +kernel
      refine le_trans (toFloat_mono ?_) hself
      exact (mul_le_mul_of_nonneg_left hleft (zero_le_one.trans hbase)).trans
        (mul_le_mul_of_nonneg_right hmax (by norm_num))
    have hbelow : asU64 (toFloat (toFloat base * power)) ≤ asU64 ((u64Max - 1 : ℕ) : ℚ) :=
      asU64_mono hleast
    have hall : asU64 (toFloat base) = u64Max := by
      rw [hrounded, asU64_natCast]
      exact min_eq_right hlarge.le
    rw [hall]
    exact hbelow.trans_lt (by decide +kernel)
  · rw [hrounded, asU64_natCast, min_eq_left hsmall]
    rw [hrounded] at hless
    rw [hrounded] at hbase
    have hrest : 0 < rounded := by exact_mod_cast zero_lt_one.trans_le hbase
    refine (min_le_left _ _).trans_lt ?_
    rw [Int.toNat_lt' hrest, Int.floor_lt]
    exact_mod_cast hless

/-- From a nonnegative exponent to a negative one the delay does not fall only if there is no base, the
multiplier is one, or what is left of the base reaches the maximum. -/
theorem delayFor_le_iff_of_wraps {a b : BitVec 32} (ha : 0 ≤ a.toInt) (hb : b.toInt < 0) :
    calculator.delayFor a ≤ calculator.delayFor b ↔
      calculator.config.multiplier = 1 ∨ calculator.config.baseDelayMs = 0#64 ∨
        calculator.config.maxDelayMs.toNat ≤
          toFloat (toFloat calculator.config.baseDelayMs.toNat *
            powi calculator.config.multiplier b.toInt) := by
  have hmaxFits : calculator.config.maxDelayMs.toNat ≤ u64Max :=
    Nat.le_of_lt_succ calculator.config.maxDelayMs.isLt
  have hleft : 0 ≤ toFloat (toFloat calculator.config.baseDelayMs.toNat *
      powi calculator.config.multiplier b.toInt) := by
    rw [powi_of_neg hb]
    refine toFloat_nonneg (mul_nonneg (toFloat_nonneg (Nat.cast_nonneg _)) (recip_nonneg ?_))
    exact zero_le_one.trans
      (one_le_powiLoop hmultiplier calculator.config.isFloat (natAbs_toInt_lt b))
  rw [← le_asU64_iff hmaxFits hleft]
  constructor
  · intro hle
    by_contra hnot
    obtain ⟨hone, hzero, hcut⟩ : calculator.config.multiplier ≠ 1 ∧
        calculator.config.baseDelayMs ≠ 0#64 ∧ asU64 (toFloat
          (toFloat calculator.config.baseDelayMs.toNat *
            powi calculator.config.multiplier b.toInt)) < calculator.config.maxDelayMs.toNat := by
      simpa only [not_or, not_le] using hnot
    have hless := (asU64_scaled_lt hmultiplier hone hzero hb).trans_le
      (asU64_mono (base_le_scaled hmultiplier ha))
    unfold delayFor at hle
    dsimp only at hle
    omega
  · rintro (hone | hzero | hcut)
    · have hpower : ∀ n : ℤ, powi 1 n = 1 := powi_one
      unfold delayFor
      rw [hone, hpower, hpower]
    · have hnone : toFloat (0 : ℕ) = 0 := by decide +kernel
      unfold delayFor
      rw [hzero, BitVec.toNat_zero, hnone, zero_mul, zero_mul]
    · exact (delayFor_le_max a).trans (le_min hcut le_rfl)

end Multiplier

end BackoffCalculator

/-! ## Attempts as exponents -/

theorem toInt_of_lt {attempt : BitVec 32} (h : attempt.toNat < 2 ^ 31) :
    attempt.toInt = attempt.toNat := by
  rw [BitVec.toInt_eq_toNat_cond, if_pos (by omega)]

theorem toInt_of_le {attempt : BitVec 32} (h : 2 ^ 31 ≤ attempt.toNat) :
    attempt.toInt = -(2 ^ 32 - attempt.toNat : ℕ) := by
  have hlt := attempt.isLt
  rw [BitVec.toInt_eq_toNat_cond, if_neg (by omega)]
  push_cast [hlt.le]
  omega

namespace BackoffCalculator

/-- The delay does not fall between two attempts, and neither delay is over the maximum. -/
structure GrowsCapped (calculator : BackoffCalculator) (a b : BitVec 32) : Prop where
  grows : calculator.delayFor a ≤ calculator.delayFor b
  first_le : calculator.delayFor a ≤ calculator.config.maxDelayMs.toNat
  second_le : calculator.delayFor b ≤ calculator.config.maxDelayMs.toNat

/-- The delays grow between two attempts whose exponents have one sign.  Between a nonnegative and a
negative one they do so only if the base is nothing, the multiplier one, or what is left of the base at
the later attempt reaches the maximum. -/
theorem growsCapped_iff (calculator : BackoffCalculator)
    (hmultiplier : 1 ≤ calculator.config.multiplier) {a b : BitVec 32} (hab : a ≤ b) :
    calculator.GrowsCapped a b ↔
      2 ^ 31 ≤ a.toNat ∨ b.toNat < 2 ^ 31 ∨ calculator.config.multiplier = 1 ∨
        calculator.config.baseDelayMs = 0#64 ∨
        calculator.config.maxDelayMs.toNat ≤
          toFloat (toFloat calculator.config.baseDelayMs.toNat *
            powi calculator.config.multiplier (-(2 ^ 32 - b.toNat : ℕ))) := by
  have hcapped : calculator.GrowsCapped a b ↔ calculator.delayFor a ≤ calculator.delayFor b :=
    ⟨fun h => h.grows, fun h => ⟨h, delayFor_le_max a, delayFor_le_max b⟩⟩
  have hab : a.toNat ≤ b.toNat := hab
  have hlt := b.isLt
  rw [hcapped]
  rcases Nat.lt_or_ge b.toNat (2 ^ 31) with hb | hb
  · have ha := toInt_of_lt (hab.trans_lt hb)
    have hexponent : a.toInt ≤ b.toInt := by
      rw [ha, toInt_of_lt hb]
      exact_mod_cast hab
    exact iff_of_true (delayFor_mono hmultiplier hexponent (Or.inl (by omega)))
      (Or.inr (Or.inl hb))
  · have hbInt := toInt_of_le hb
    rcases Nat.lt_or_ge a.toNat (2 ^ 31) with ha | ha
    · have haInt := toInt_of_lt ha
      rw [delayFor_le_iff_of_wraps hmultiplier (by omega) (by omega), hbInt, or_iff_right ha.not_ge,
        or_iff_right hb.not_gt]
    · have haInt := toInt_of_le ha
      have hexponent : a.toInt ≤ b.toInt := by omega
      exact iff_of_true (delayFor_mono hmultiplier hexponent (Or.inr (by omega))) (Or.inl ha)

/-- The first two attempts of the default. -/
theorem growsCapped_iff_default : (new .default).GrowsCapped 0#32 1#32 :=
  ((new .default).growsCapped_iff (by decide) (by decide)).2 (Or.inr (Or.inl (by decide)))

/-- From attempt 0 to attempt `2 ^ 31`, the default falls from 100 to nothing. -/
theorem not_growsCapped :
    ¬ ∀ calculator : BackoffCalculator, 1 ≤ calculator.config.multiplier →
      ∀ a b : BitVec 32, a ≤ b → calculator.GrowsCapped a b := by
  intro h
  have hfalls := (h (new .default) (by decide) 0#32 2147483648#32 (by decide)).grows
  revert hfalls
  decide +kernel

/-- A base and a multiplier of 49: what is left of the base at the last attempt is not quite one. -/
example :
    let config : BackoffConfig :=
      { baseDelayMs := 49#64
        multiplier := 49
        maxDelayMs := 1#64
        isFloat := by decide +kernel }
    (new config).delayFor 0#32 = 1 ∧ (new config).delayFor 4294967295#32 = 0 := by
  decide +kernel

end BackoffCalculator

end StellarFeeTracker.Devkit
