import Mathlib.Logic.Function.Basic
import Mathlib.Tactic.Common

/-!
# Xorshift generators

A step adds to a word its own shifts, bit by bit.  A word that equals a shift of itself is zero, so
each of the three additions loses nothing, and a generator never gets from a nonzero state to zero.
-/

namespace Xorshift

variable {w : ℕ}

theorem eq_zero_of_eq_ushiftRight {k : ℕ} (hk : 0 < k) {x : BitVec w} (h : x = x >>> k) :
    x = 0#w := by
  have hvalue : x.toNat = x.toNat / 2 ^ k := by
    have hnat := congrArg BitVec.toNat h
    rwa [BitVec.toNat_ushiftRight, Nat.shiftRight_eq_div_pow] at hnat
  rcases Nat.eq_zero_or_pos x.toNat with hzero | hpos
  · exact BitVec.eq_of_toNat_eq hzero
  · have hless : x.toNat / 2 ^ k < x.toNat := Nat.div_lt_self hpos (Nat.one_lt_two_pow (by omega))
    omega

theorem eq_zero_of_eq_shiftLeft {k : ℕ} (hk : 0 < k) {x : BitVec w} (h : x = x <<< k) :
    x = 0#w := by
  -- shifted again and again, it is pushed out of the word
  have hagain : ∀ n, x = x <<< (k * n) := by
    intro n
    induction n with
    | zero => simp
    | succ n ih => rw [Nat.mul_succ, BitVec.shiftLeft_add, ← ih, ← h]
  rw [hagain w]
  exact BitVec.shiftLeft_eq_zero (Nat.le_mul_of_pos_left w hk)

theorem xor_eq_of_xor_eq {x y z u : BitVec w} (h : x ^^^ z = y ^^^ u) : x ^^^ y = z ^^^ u := by
  refine BitVec.eq_of_getLsbD_eq fun i _ => ?_
  have hbit := congrArg (fun v => v.getLsbD i) h
  simp only [BitVec.getLsbD_xor] at hbit ⊢
  revert hbit
  cases x.getLsbD i <;> cases y.getLsbD i <;> cases z.getLsbD i <;> cases u.getLsbD i <;> decide

theorem xor_ushiftRight_injective {k : ℕ} (hk : 0 < k) :
    Function.Injective fun x : BitVec w => x ^^^ (x >>> k) := by
  intro x y h
  have hshift : x ^^^ y = (x ^^^ y) >>> k := by
    rw [BitVec.ushiftRight_xor_distrib]
    exact xor_eq_of_xor_eq h
  exact BitVec.xor_eq_zero_iff.1 (eq_zero_of_eq_ushiftRight hk hshift)

theorem xor_shiftLeft_injective {k : ℕ} (hk : 0 < k) :
    Function.Injective fun x : BitVec w => x ^^^ (x <<< k) := by
  intro x y h
  have hshift : x ^^^ y = (x ^^^ y) <<< k := by
    rw [BitVec.shiftLeft_xor_distrib]
    exact xor_eq_of_xor_eq h
  exact BitVec.xor_eq_zero_iff.1 (eq_zero_of_eq_shiftLeft hk hshift)

/-- A step with its three shifts. -/
def step (a b c : ℕ) (x : BitVec w) : BitVec w :=
  let x := x ^^^ (x >>> a)
  let x := x ^^^ (x <<< b)
  x ^^^ (x >>> c)

theorem step_injective {a b c : ℕ} (ha : 0 < a) (hb : 0 < b) (hc : 0 < c) :
    Function.Injective (step a b c : BitVec w → BitVec w) :=
  (xor_ushiftRight_injective hc).comp
    ((xor_shiftLeft_injective hb).comp (xor_ushiftRight_injective ha))

theorem step_zero (a b c : ℕ) : step a b c (0#w) = 0#w := by simp [step]

/-- A nonzero state stays nonzero. -/
theorem step_ne_zero {a b c : ℕ} (ha : 0 < a) (hb : 0 < b) (hc : 0 < c) {x : BitVec w}
    (hx : x ≠ 0#w) : step a b c x ≠ 0#w := by
  intro h
  rw [← step_zero a b c] at h
  exact hx (step_injective ha hb hc h)

end Xorshift
