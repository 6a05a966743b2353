import StellarFeeTracker.General.Retry
import StellarFeeTracker.Polling.FeeStats

/-!
# The two fetches with retries

Both fetches are the same retry loop over what becomes of their attempts: a result, an error that
another attempt would meet again, or one that is worth another attempt.  The backoff is computed in
saturating arithmetic, which the cap makes exact (`backoffMs_eq`).
-/

namespace StellarFeeTracker

open Retry

/-! ## The backoff -/

/-- Where the arithmetic saturates, the backoff is capped, too. -/
theorem backoffMs_eq (baseDelayMs attempt random : ℕ) :
    backoffMs baseDelayMs attempt random =
      min 30000 (baseDelayMs * 2 ^ attempt + random % max baseDelayMs 1) := by
  unfold backoffMs maxDelayMs
  have hmax : 30000 ≤ u64Max := by decide
  have hcapped : ∀ product : ℕ, product ≤ u64Max ∨ 30000 ≤ product →
      ∀ jitter, min (min (min product u64Max + jitter) u64Max) 30000 = min 30000 (product + jitter) := by
    intro product hproduct jitter
    omega
  dsimp only
  split_ifs with hshift
  · exact hcapped _ (le_total _ _ |>.imp_right hmax.trans) _
  · rcases Nat.eq_zero_or_pos baseDelayMs with rfl | hpos
    · rw [Nat.zero_mul, Nat.zero_mul]
      exact hcapped 0 (Or.inl (Nat.zero_le _)) _
    · have hfactor : u64Max ≤ baseDelayMs * u64Max := Nat.le_mul_of_pos_left _ hpos
      have hpower : u64Max ≤ baseDelayMs * 2 ^ attempt := by
        have hlarge : 2 ^ 64 ≤ 2 ^ attempt := Nat.pow_le_pow_right (by decide) (not_lt.1 hshift)
        have hmodulus : u64Max ≤ 2 ^ 64 := by decide
        exact (hmodulus.trans hlarge).trans (Nat.le_mul_of_pos_left _ hpos)
      omega

/-! ## What becomes of an attempt -/

/-- A format error is final, and every other error is worth another attempt. -/
def fetchOutcome : Except ProviderError (List FeeDataPoint) → Outcome (List FeeDataPoint)
  | .ok points => .done points
  | .error (.formatError _) => .fatal
  | .error _ => .again

/-- An answer that cannot be parsed or converted is final. -/
def feeStatsOutcome (now : DateTime) : Except AppError FeeStatsResponse → Outcome FeeStatsSnapshot
  | .ok response =>
    match FeeStatsSnapshot.tryFrom now response with
    | .ok snapshot => .done snapshot
    | .error _ => .fatal
  | .error (.parse _) => .fatal
  | .error _ => .again

section Loops

variable (random : ℕ → ℕ) (baseDelayMs : ℕ)

theorem fetchFrom_eq (fetchLatestFees : ℕ → Except ProviderError (List FeeDataPoint))
    (attempt left : ℕ) :
    let run := runFrom (fun k => fetchOutcome (fetchLatestFees k))
      (fun k => backoffMs baseDelayMs k (random k)) attempt left
    fetchFrom fetchLatestFees random baseDelayMs attempt left =
      { points := run.result, calls := run.calls, backoffs := run.delays } := by
  induction left generalizing attempt with
  | zero => rfl
  | succ left ih =>
    unfold fetchFrom runFrom
    cases hfetch : fetchLatestFees attempt with
    | ok points => simp [fetchOutcome]
    | error err => cases err <;> simp [fetchOutcome, ih]

theorem fetchFeeStatsFrom_eq (fetchFeeStatsFull : ℕ → Except AppError FeeStatsResponse)
    (now : ℕ → DateTime) (attempt left : ℕ) :
    let run := runFrom (fun k => feeStatsOutcome (now k) (fetchFeeStatsFull k))
      (fun k => backoffMs baseDelayMs k (random k)) attempt left
    fetchFeeStatsFrom fetchFeeStatsFull now random baseDelayMs attempt left =
      { snapshot := run.result, calls := run.calls, backoffs := run.delays } := by
  induction left generalizing attempt with
  | zero => rfl
  | succ left ih =>
    unfold fetchFeeStatsFrom runFrom
    cases hfetch : fetchFeeStatsFull attempt with
    | ok response =>
      cases hsnapshot : FeeStatsSnapshot.tryFrom (now attempt) response with
      | ok snapshot => simp [feeStatsOutcome, hsnapshot]
      | error err => simp [feeStatsOutcome, hsnapshot]
    | error err => cases err <;> simp [feeStatsOutcome, ih]

end Loops

/-- Both fetches return the first result that no final error precedes, after as many calls as its
place, and wait after every other attempt for the backoff. -/
theorem fetches_follow (random : ℕ → ℕ) (baseDelayMs maxAttempts : ℕ) :
    (∀ fetchLatestFees : ℕ → Except ProviderError (List FeeDataPoint),
      let run := fetchWithRetry fetchLatestFees random baseDelayMs maxAttempts
      Follows (fun k => fetchOutcome (fetchLatestFees k))
        (fun k => min 30000 (baseDelayMs * 2 ^ k + random k % max baseDelayMs 1)) maxAttempts
        { result := run.points, calls := run.calls, delays := run.backoffs }) ∧
    ∀ (fetchFeeStatsFull : ℕ → Except AppError FeeStatsResponse) (now : ℕ → DateTime),
      let run := fetchFeeStatsWithRetry fetchFeeStatsFull now random baseDelayMs maxAttempts
      Follows (fun k => feeStatsOutcome (now k) (fetchFeeStatsFull k))
        (fun k => min 30000 (baseDelayMs * 2 ^ k + random k % max baseDelayMs 1)) maxAttempts
        { result := run.snapshot, calls := run.calls, delays := run.backoffs } := by
  simp only [← backoffMs_eq]
  constructor
  · intro fetchLatestFees
    rw [fetchWithRetry, fetchFrom_eq]
    simpa using follows_runFrom (fun k => fetchOutcome (fetchLatestFees k))
      (fun k => backoffMs baseDelayMs k (random k)) 0 maxAttempts
  · intro fetchFeeStatsFull now
    rw [fetchFeeStatsWithRetry, fetchFeeStatsFrom_eq]
    simpa using follows_runFrom (fun k => feeStatsOutcome (now k) (fetchFeeStatsFull k))
      (fun k => backoffMs baseDelayMs k (random k)) 0 maxAttempts

end StellarFeeTracker
