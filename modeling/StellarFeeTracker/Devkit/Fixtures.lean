import StellarFeeTracker.Chrono
import StellarFeeTracker.Devkit.Random
import StellarFeeTracker.Numeric

/-!
# Fixture generators

A ramp rounds the points of a line, which keeps their order in both directions and both ends of the
line; a random walk is clamped to its spread after each step.  Sums of signed 64-bit values wrap, which
the callers rule out: the results are about ramps and walks whose values fit
(`fixtures_keep_shape`).
-/

namespace StellarFeeTracker.Devkit

/-! ## Machine integers -/

/-- `i64::MIN`. -/
def i64Min : ℤ := -9223372036854775808

/-- The result of a sum or a difference of signed 64-bit values. -/
def wrapI64 (n : ℤ) : ℤ := n.bmod (2 ^ 64)

/-- The `as i64` cast of a whole float. -/
def wholeAsI64 (n : ℤ) : ℤ := clamp n i64Min i64Max

/-- The `as u32` cast of a `usize`. -/
def truncU32 (n : ℕ) : ℕ := n % 2 ^ 32

def FitsI64 (n : ℤ) : Prop := i64Min ≤ n ∧ n ≤ i64Max

instance (n : ℤ) : Decidable (FitsI64 n) := by
  unfold FitsI64
  infer_instance

theorem wrapI64_of_fits {n : ℤ} (h : FitsI64 n) : wrapI64 n = n := by
  obtain ⟨hlow, hhigh⟩ := h
  unfold i64Min at hlow
  unfold i64Max at hhigh
  exact Int.bmod_eq_of_le (by omega) (by omega)

theorem wholeAsI64_of_fits {n : ℤ} (h : FitsI64 n) : wholeAsI64 n = n := clamp_of_mem h.1 h.2

/-- What lies between two values that fit, fits. -/
theorem FitsI64.between {a b n : ℤ} (ha : FitsI64 a) (hb : FitsI64 b) (hlow : min a b ≤ n)
    (hhigh : n ≤ max a b) : FitsI64 n :=
  ⟨(le_min ha.1 hb.1).trans hlow, hhigh.trans (max_le ha.2 hb.2)⟩

/-! ## The generators -/

structure FeeRecord where
  ledger : ℕ
  feeCharged : ℤ
  maxFee : ℤ
  deriving DecidableEq, Repr

def fees (records : List FeeRecord) : List ℤ := records.map (·.feeCharged)

def flat (ledgers start : ℕ) (feeCharged maxFee : ℤ) : List FeeRecord :=
  (List.range (truncU32 ledgers)).map fun offset : ℕ =>
    { ledger := truncU32 (start + offset), feeCharged, maxFee }

def ramp (ledgers start : ℕ) (fromFee toFee maxFee : ℤ) : List FeeRecord :=
  if ledgers = 0 then []
  else
    let steps := asI64 (ledgers - 1)
    (List.range (truncU32 ledgers)).map fun offset : ℕ =>
      let progress := min (offset : ℤ) steps
      let step : ℚ := wrapI64 (toFee - fromFee) / steps
      { ledger := truncU32 (start + offset)
        feeCharged := wrapI64 (fromFee + wholeAsI64 (roundHalfAway (step * progress)))
        maxFee }

/-- The records of a random walk for the offsets, from a state of its generator and a fee. -/
def walkFrom (start : ℕ) (baseFee spread : ℤ) : List ℕ → BitVec 64 → ℤ → List FeeRecord
  | [], _, _ => []
  | offset :: offsets, rng, state =>
    let (unit, rng) := nextUnit rng
    let noise := (unit * 2 - 1) * spread
    let state := wholeAsI64 (roundHalfAway (state + noise))
    let state := clamp state (wrapI64 (baseFee - wrapI64 |spread|))
      (wrapI64 (baseFee + wrapI64 |spread|))
    { ledger := truncU32 (start + offset), feeCharged := state, maxFee := state } ::
      walkFrom start baseFee spread offsets rng state

def randomWalk (ledgers start : ℕ) (baseFee spread : ℤ) (seed : BitVec 64) : List FeeRecord :=
  if seed = 0#64 then flat ledgers start baseFee baseFee
  else walkFrom start baseFee spread (List.range (truncU32 ledgers)) seed baseFee

/-! ## Ramps -/

/-- A point of the line between two fees, rounded. -/
def rampFee (fromFee toFee steps : ℤ) (i : ℕ) : ℤ :=
  fromFee + roundHalfAway (((toFee - fromFee : ℤ) : ℚ) / steps * i)

section Ramp

variable {fromFee toFee steps : ℤ} (hsteps : 0 < steps)

theorem rampFee_zero : rampFee fromFee toFee steps 0 = fromFee := by
  have hzero := roundHalfAway_intCast 0
  unfold rampFee
  rw [Nat.cast_zero, mul_zero, ← Int.cast_zero, hzero, add_zero]

include hsteps

theorem rampFee_last {i : ℕ} (hi : (i : ℤ) = steps) : rampFee fromFee toFee steps i = toFee := by
  have hne : (steps : ℚ) ≠ 0 := Int.cast_ne_zero.2 hsteps.ne'
  have hcast : (i : ℚ) = steps := by exact_mod_cast hi
  unfold rampFee
  rw [hcast, div_mul_cancel₀ _ hne, roundHalfAway_intCast, add_sub_cancel]

theorem rampFee_mono (h : fromFee ≤ toFee) {i j : ℕ} (hij : i ≤ j) :
    rampFee fromFee toFee steps i ≤ rampFee fromFee toFee steps j := by
  have hrise : 0 ≤ ((toFee - fromFee : ℤ) : ℚ) / steps :=
    div_nonneg (Int.cast_nonneg (sub_nonneg.2 h)) (Int.cast_nonneg hsteps.le)
  exact add_le_add_right (roundHalfAway_mono
    (mul_le_mul_of_nonneg_left (Nat.cast_le.2 hij) hrise)) fromFee

theorem rampFee_anti (h : toFee ≤ fromFee) {i j : ℕ} (hij : i ≤ j) :
    rampFee fromFee toFee steps j ≤ rampFee fromFee toFee steps i := by
  have hfall : ((toFee - fromFee : ℤ) : ℚ) / steps ≤ 0 :=
    div_nonpos_of_nonpos_of_nonneg (Int.cast_nonpos.2 (sub_nonpos.2 h)) (Int.cast_nonneg hsteps.le)
  exact add_le_add_right (roundHalfAway_mono
    (mul_le_mul_of_nonpos_left (Nat.cast_le.2 hij) hfall)) fromFee

/-- All points are between the ends. -/
theorem rampFee_between {i : ℕ} (hi : (i : ℤ) ≤ steps) :
    min fromFee toFee ≤ rampFee fromFee toFee steps i ∧
      rampFee fromFee toFee steps i ≤ max fromFee toFee := by
  have hlast : rampFee fromFee toFee steps steps.toNat = toFee :=
    rampFee_last hsteps (Int.toNat_of_nonneg hsteps.le)
  have hbefore : i ≤ steps.toNat := by omega
  rcases le_total fromFee toFee with h | h
  · rw [min_eq_left h, max_eq_right h]
    have hfirst := rampFee_mono hsteps h (Nat.zero_le i)
    have hend := rampFee_mono hsteps h hbefore
    rw [rampFee_zero] at hfirst
    rw [hlast] at hend
    exact ⟨hfirst, hend⟩
  · rw [min_eq_right h, max_eq_left h]
    have hfirst := rampFee_anti hsteps h (Nat.zero_le i)
    have hend := rampFee_anti hsteps h hbefore
    rw [rampFee_zero] at hfirst
    rw [hlast] at hend
    exact ⟨hend, hfirst⟩

end Ramp

/-- The number of ledgers and their numbers fit in 32 bits. -/
def LedgersFit (ledgers start : ℕ) : Prop := ledgers ≤ u32Max ∧ start + (ledgers - 1) ≤ u32Max

instance (ledgers start : ℕ) : Decidable (LedgersFit ledgers start) := by
  unfold LedgersFit
  infer_instance

/-- The fees of a ramp are the rounded points of its line. -/
theorem ramp_eq {ledgers start : ℕ} {fromFee toFee : ℤ} (hledgers : 2 ≤ ledgers)
    (hfit : LedgersFit ledgers start) (hfrom : FitsI64 fromFee) (hto : FitsI64 toFee)
    (hdiff : FitsI64 (toFee - fromFee)) (maxFee : ℤ) :
    ramp ledgers start fromFee toFee maxFee =
      (List.range ledgers).map fun i =>
        { ledger := start + i, feeCharged := rampFee fromFee toFee (ledgers - 1 : ℕ) i, maxFee } := by
  obtain ⟨hcount, hlast⟩ := hfit
  unfold u32Max at hcount hlast
  have hrange : truncU32 ledgers = ledgers := Nat.mod_eq_of_lt (by omega)
  have hsteps : asI64 (ledgers - 1) = (ledgers - 1 : ℕ) := by
    refine asI64_of_le ?_
    unfold i64Max
    omega
  have hne : ledgers ≠ 0 := by omega
  unfold ramp
  rw [if_neg hne, hrange, hsteps, wrapI64_of_fits hdiff]
  refine List.map_congr_left fun i hi => ?_
  have hi := List.mem_range.1 hi
  have hbefore : (i : ℤ) ≤ (ledgers - 1 : ℕ) := by omega
  have hledger : truncU32 (start + i) = start + i := Nat.mod_eq_of_lt (by omega)
  have hpositive : (0 : ℤ) < (ledgers - 1 : ℕ) := by omega
  obtain ⟨hlow, hhigh⟩ := @rampFee_between fromFee toFee _ hpositive i hbefore
  have hfits := hfrom.between hto hlow hhigh
  have hrounded : FitsI64 (roundHalfAway
      (((toFee - fromFee : ℤ) : ℚ) / ((ledgers - 1 : ℕ) : ℤ) * i)) := by
    refine FitsI64.between (a := 0) (by decide) hdiff ?_ ?_
    · unfold rampFee at hlow
      omega
    · unfold rampFee at hhigh
      omega
  have hprogress : min (i : ℤ) (ledgers - 1 : ℕ) = i := min_eq_left hbefore
  simp only [hledger, hprogress, Int.cast_natCast] at hrounded ⊢
  rw [wholeAsI64_of_fits hrounded]
  congr 1
  exact wrapI64_of_fits hfits

/-- The shape of a ramp: both ends, the direction between them, and nothing beyond them. -/
structure IsRamp (fromFee toFee : ℤ) (fees : List ℤ) : Prop where
  first : fees.head? = some fromFee
  last : fees.getLast? = some toFee
  rising : fromFee ≤ toFee → fees.Pairwise (· ≤ ·)
  falling : toFee ≤ fromFee → fees.Pairwise (· ≥ ·)
  between : ∀ fee ∈ fees, min fromFee toFee ≤ fee ∧ fee ≤ max fromFee toFee

theorem isRamp_ramp {ledgers start : ℕ} {fromFee toFee : ℤ} (hledgers : 2 ≤ ledgers)
    (hfit : LedgersFit ledgers start) (hfrom : FitsI64 fromFee) (hto : FitsI64 toFee)
    (hdiff : FitsI64 (toFee - fromFee)) (maxFee : ℤ) :
    IsRamp fromFee toFee (fees (ramp ledgers start fromFee toFee maxFee)) := by
  have hfees : fees (ramp ledgers start fromFee toFee maxFee) =
      (List.range ledgers).map (rampFee fromFee toFee (ledgers - 1 : ℕ)) := by
    rw [ramp_eq hledgers hfit hfrom hto hdiff, fees, List.map_map]
    rfl
  have hsteps : (0 : ℤ) < (ledgers - 1 : ℕ) := by omega
  obtain ⟨n, rfl⟩ : ∃ n, ledgers = n + 1 := ⟨ledgers - 1, by omega⟩
  rw [hfees]
  constructor
  · rw [List.range_succ_eq_map, List.map_cons, List.head?_cons, rampFee_zero]
  · have hlast : (n : ℤ) = (n + 1 - 1 : ℕ) := by omega
    rw [List.range_succ, List.map_append, List.map_singleton, List.getLast?_concat,
      rampFee_last hsteps hlast]
  · intro hrise
    rw [List.pairwise_map]
    exact List.pairwise_lt_range.imp fun hij => rampFee_mono hsteps hrise hij.le
  · intro hfall
    rw [List.pairwise_map]
    exact List.pairwise_lt_range.imp fun hij => rampFee_anti hsteps hfall hij.le
  · intro fee hfee
    obtain ⟨i, hi, rfl⟩ := List.mem_map.1 hfee
    have hi := List.mem_range.1 hi
    exact rampFee_between hsteps (by omega)

/-! ## Random walks -/

/-- After each step of a walk the fee is within the spread. -/
theorem walkFrom_within (start : ℕ) {baseFee spread : ℤ} (hlow : FitsI64 (baseFee - |spread|))
    (hhigh : FitsI64 (baseFee + |spread|)) (offsets : List ℕ) (rng : BitVec 64) (state : ℤ) :
    ∀ fee ∈ fees (walkFrom start baseFee spread offsets rng state), |fee - baseFee| ≤ |spread| := by
  have habs : FitsI64 |spread| := by
    obtain ⟨hlow, -⟩ := hlow
    obtain ⟨-, hhigh⟩ := hhigh
    have hnonneg := abs_nonneg spread
    unfold FitsI64 i64Min i64Max at *
    omega
  have hbounds : baseFee - |spread| ≤ baseFee + |spread| := by
    have hnonneg := abs_nonneg spread
    omega
  induction offsets generalizing rng state with
  | nil => simp [fees, walkFrom]
  | cons offset offsets ih =>
    simp only [walkFrom, fees, List.map_cons, List.forall_mem_cons, wrapI64_of_fits habs,
      wrapI64_of_fits hlow, wrapI64_of_fits hhigh]
    refine ⟨?_, ih _ _⟩
    rw [abs_le]
    obtain ⟨hbelow, habove⟩ := clamp_mem (wholeAsI64 (roundHalfAway
      (state + ((nextUnit rng).1 * 2 - 1) * spread))) hbounds
    constructor <;> omega

theorem randomWalk_within (ledgers start : ℕ) {baseFee spread : ℤ}
    (hlow : FitsI64 (baseFee - |spread|)) (hhigh : FitsI64 (baseFee + |spread|))
    (seed : BitVec 64) :
    ∀ fee ∈ fees (randomWalk ledgers start baseFee spread seed), |fee - baseFee| ≤ |spread| := by
  unfold randomWalk
  split_ifs
  · intro fee hfee
    have hbase : fee = baseFee := by
      simp only [fees, flat, List.map_map, List.mem_map] at hfee
      obtain ⟨offset, -, rfl⟩ := hfee
      rfl
    rw [hbase, sub_self, abs_zero]
    exact abs_nonneg spread
  · exact walkFrom_within start hlow hhigh _ _ _

/-- Ramps of at least two ledgers are ramps, and random walks stay within their spread. -/
theorem fixtures_keep_shape :
    (∀ (ledgers start : ℕ) (fromFee toFee maxFee : ℤ), 2 ≤ ledgers → LedgersFit ledgers start →
      FitsI64 fromFee → FitsI64 toFee → FitsI64 (toFee - fromFee) →
        IsRamp fromFee toFee (fees (ramp ledgers start fromFee toFee maxFee))) ∧
    ∀ (ledgers start : ℕ) (baseFee spread : ℤ) (seed : BitVec 64), FitsI64 (baseFee - |spread|) →
      FitsI64 (baseFee + |spread|) →
        ∀ fee ∈ fees (randomWalk ledgers start baseFee spread seed), |fee - baseFee| ≤ |spread| :=
  ⟨fun _ _ _ _ maxFee hledgers hfit hfrom hto hdiff =>
      isRamp_ramp hledgers hfit hfrom hto hdiff maxFee,
    fun ledgers start _ _ seed hlow hhigh => randomWalk_within ledgers start hlow hhigh seed⟩

/-- A ramp down from 500 to 100, and a walk around 100. -/
theorem fixtures_keep_shape_five :
    IsRamp 500 100 (fees (ramp 5 0 500 100 1000)) ∧
      ∀ fee ∈ fees (randomWalk 200 0 100 25 9#64), |fee - 100| ≤ |25| :=
  ⟨fixtures_keep_shape.1 5 0 500 100 1000 (by decide) (by decide) (by decide) (by decide) (by decide),
    fixtures_keep_shape.2 200 0 100 25 9#64 (by decide) (by decide)⟩

example : fees (ramp 4 0 10 0 10) = [10, 7, 3, 0] := by decide +kernel

end StellarFeeTracker.Devkit
