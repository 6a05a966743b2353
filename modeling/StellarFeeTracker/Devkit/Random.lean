import StellarFeeTracker.General.Xorshift
import Mathlib.Algebra.Order.Field.Basic
import Mathlib.Algebra.Order.Field.Rat
import Mathlib.Tactic.Linarith
import Mathlib.Tactic.NormNum
import Mathlib.Tactic.Ring

/-!
# Random units

The simulators and the fixtures draw from the same xorshift generator: the shifted state, scrambled
by a multiplication, is read as a fraction of 53 bits.
-/

namespace StellarFeeTracker.Devkit

/-- The next unit of a generator, with its next state. -/
def nextUnit (rng : BitVec 64) : ℚ × BitVec 64 :=
  let x := Xorshift.step 12 25 27 rng
  let value := x * 0x2545F4914F6CDD1D#64
  ((value >>> 11).toNat / 2 ^ 53, x)

theorem nextUnit_mem (rng : BitVec 64) : 0 ≤ (nextUnit rng).1 ∧ (nextUnit rng).1 < 1 := by
  have hbits : ∀ value : BitVec 64, (value >>> 11).toNat < 2 ^ 53 := by
    intro value
    have hlt := value.isLt
    rw [BitVec.toNat_ushiftRight, Nat.shiftRight_eq_div_pow]
    omega
  have hfraction : ∀ n : ℕ, n < 2 ^ 53 → 0 ≤ (n : ℚ) / 2 ^ 53 ∧ (n : ℚ) / 2 ^ 53 < 1 := by
    intro n hn
    have hn' : (n : ℚ) < 2 ^ 53 := by exact_mod_cast hn
    exact ⟨by positivity, (div_lt_one (by positivity)).2 hn'⟩
  exact hfraction _ (hbits _)

theorem nextUnit_ne_zero {rng : BitVec 64} (h : rng ≠ 0#64) : (nextUnit rng).2 ≠ 0#64 :=
  Xorshift.step_ne_zero (by decide) (by decide) (by decide) h

/-- A unit makes noise of both signs up to the amplitude. -/
theorem abs_noise_le (rng : BitVec 64) (amplitude : ℚ) :
    |((nextUnit rng).1 * 2 - 1) * amplitude| ≤ |amplitude| := by
  obtain ⟨hlow, hhigh⟩ := nextUnit_mem rng
  have hsigned : |(nextUnit rng).1 * 2 - 1| ≤ 1 := abs_le.2 ⟨by linarith, by linarith⟩
  rw [abs_mul]
  exact mul_le_of_le_one_left (abs_nonneg _) hsigned

end StellarFeeTracker.Devkit
