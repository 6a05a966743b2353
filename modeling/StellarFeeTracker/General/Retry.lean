import Mathlib.Data.List.Range
import Mathlib.Tactic.Common

/-!
# Retry loops

A loop makes an attempt after the other until one is done, one fails for good or it has made them all,
and waits after each attempt that is to be repeated.  What it returns and how often it calls is decided
by the first attempt that is not to be repeated (`follows_runFrom`).
-/

namespace Retry

variable {α δ : Type*}

/-- What becomes of one attempt. -/
inductive Outcome (α : Type*) where
  | done (a : α)
  /-- The attempt failed and would fail again. -/
  | fatal
  /-- The attempt failed and may be repeated. -/
  | again

/-- A run of the loop: its result, the number of attempts and the delays after them. -/
structure Run (α δ : Type*) where
  result : Option α
  calls : ℕ
  delays : List δ

/-- The loop from an attempt on, with so many attempts left. -/
def runFrom (outcome : ℕ → Outcome α) (delay : ℕ → δ) (attempt : ℕ) : ℕ → Run α δ
  | 0 => { result := none, calls := 0, delays := [] }
  | left + 1 =>
    match outcome attempt with
    | .done a => { result := some a, calls := 1, delays := [] }
    | .fatal => { result := none, calls := 1, delays := [] }
    | .again =>
      let rest := runFrom outcome delay (attempt + 1) left
      { rest with
        calls := rest.calls + 1
        delays := delay attempt :: rest.delays }

/-- The attempt is not to be repeated, and all before it are. -/
def EndsAt (outcome : ℕ → Outcome α) (k : ℕ) : Prop :=
  outcome k ≠ .again ∧ ∀ j < k, outcome j = .again

/-- What a loop over at most `n` attempts returns. -/
structure Follows (outcome : ℕ → Outcome α) (delay : ℕ → δ) (n : ℕ) (run : Run α δ) : Prop where
  result_eq_some_iff : ∀ a, run.result = some a ↔
    ∃ k < n, outcome k = .done a ∧ ∀ j < k, outcome j = .again
  of_endsAt : ∀ k < n, EndsAt outcome k →
    run.calls = k + 1 ∧ run.delays = (List.range k).map delay
  of_again : (∀ k < n, outcome k = .again) →
    run.calls = n ∧ run.delays = (List.range n).map delay

variable {outcome : ℕ → Outcome α} {delay : ℕ → δ}

/-- A loop that ends with its first attempt. -/
theorem follows_of_ends {n : ℕ} {run : Run α δ} (hends : outcome 0 ≠ .again)
    (hresult : ∀ a, run.result = some a ↔ outcome 0 = .done a) (hcalls : run.calls = 1)
    (hdelays : run.delays = []) : Follows outcome delay (n + 1) run := by
  refine ⟨fun a => ?_, fun k hk hend => ?_, fun h => absurd (h 0 (Nat.succ_pos n)) hends⟩
  · rw [hresult]
    constructor
    · intro h
      exact ⟨0, Nat.succ_pos n, h, by simp⟩
    · rintro ⟨k, -, hdone, hbefore⟩
      rcases Nat.eq_zero_or_pos k with rfl | hpos
      · exact hdone
      · exact absurd (hbefore 0 hpos) hends
  · rcases Nat.eq_zero_or_pos k with rfl | hpos
    · exact ⟨hcalls, hdelays⟩
    · exact absurd (hend.2 0 hpos) hends

theorem forall_lt_succ_again {k : ℕ} (hagain : outcome 0 = .again) :
    (∀ j < k + 1, outcome j = .again) ↔ ∀ j < k, outcome (j + 1) = .again := by
  constructor
  · intro h j hj
    exact h (j + 1) (Nat.succ_lt_succ hj)
  · intro h j hj
    cases j with
    | zero => exact hagain
    | succ j => exact h j (Nat.lt_of_succ_lt_succ hj)

/-- A loop whose first attempt is to be repeated goes on as one over the rest. -/
theorem Follows.again {n : ℕ} {run : Run α δ} (hagain : outcome 0 = .again)
    (h : Follows (fun j => outcome (j + 1)) (fun j => delay (j + 1)) n run) :
    Follows outcome delay (n + 1)
      { run with calls := run.calls + 1, delays := delay 0 :: run.delays } := by
  have hdelays : ∀ k, delay 0 :: (List.range k).map (fun j => delay (j + 1)) =
      (List.range (k + 1)).map delay := by
    intro k
    rw [List.range_succ_eq_map, List.map_cons, List.map_map]
    rfl
  refine ⟨fun a => (h.result_eq_some_iff a).trans ?_, fun k hk hend => ?_, fun hall => ?_⟩
  · constructor
    · rintro ⟨k, hk, hdone, hbefore⟩
      exact ⟨k + 1, Nat.succ_lt_succ hk, hdone, (forall_lt_succ_again hagain).2 hbefore⟩
    · rintro ⟨k, hk, hdone, hbefore⟩
      cases k with
      | zero =>
        rw [hagain] at hdone
        cases hdone
      | succ k =>
        exact ⟨k, Nat.lt_of_succ_lt_succ hk, hdone, (forall_lt_succ_again hagain).1 hbefore⟩
  · cases k with
    | zero => exact absurd hagain hend.1
    | succ k =>
      obtain ⟨hcalls, hwaited⟩ := h.of_endsAt k (Nat.lt_of_succ_lt_succ hk)
        ⟨hend.1, (forall_lt_succ_again hagain).1 hend.2⟩
      exact ⟨congrArg (· + 1) hcalls, (congrArg (delay 0 :: ·) hwaited).trans (hdelays k)⟩
  · obtain ⟨hcalls, hwaited⟩ := h.of_again ((forall_lt_succ_again hagain).1 hall)
    exact ⟨congrArg (· + 1) hcalls, (congrArg (delay 0 :: ·) hwaited).trans (hdelays n)⟩

theorem follows_runFrom (outcome : ℕ → Outcome α) (delay : ℕ → δ) (attempt n : ℕ) :
    Follows (fun j => outcome (attempt + j)) (fun j => delay (attempt + j)) n
      (runFrom outcome delay attempt n) := by
  induction n generalizing attempt with
  | zero => exact ⟨by simp [runFrom], by simp, by simp [runFrom]⟩
  | succ n ih =>
    unfold runFrom
    cases hfirst : outcome attempt with
    | done a =>
      exact follows_of_ends (by simp [hfirst]) (by simp [hfirst]) rfl rfl
    | fatal =>
      exact follows_of_ends (by simp [hfirst]) (by simp [hfirst]) rfl rfl
    | again =>
      refine Follows.again (by simpa using hfirst) ?_
      have hrest := ih (attempt + 1)
      simp only [Nat.add_right_comm attempt 1] at hrest
      exact hrest

end Retry
