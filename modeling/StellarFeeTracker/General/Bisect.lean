import Mathlib.Order.Bounds.Basic
import Mathlib.Tactic.Common

/-!
# Bisection

`bisect` halves a range of indices at most so many times, going down where a predicate holds and up
where it does not.  A predicate that holds at the upper end and never fails again is first met where
the search ends (`isLeast_bisect`).
-/

namespace Bisect

variable (p : ℕ → Prop) [DecidablePred p]

/-- Bisection of `lo..=hi` for at most so many rounds. -/
def bisect : ℕ → ℕ → ℕ → ℕ
  | 0, lo, _ => lo
  | rounds + 1, lo, hi =>
    if lo < hi then
      if p (lo + (hi - lo) / 2) then bisect rounds lo (lo + (hi - lo) / 2)
      else bisect rounds (lo + (hi - lo) / 2 + 1) hi
    else lo

/-- The search ends at the first index of the range that satisfies a predicate which holds at its
upper end and, once met, up to there. -/
theorem isLeast_bisect {rounds lo hi : ℕ} (hle : lo ≤ hi) (hrounds : hi - lo ≤ rounds) (hhi : p hi)
    (hmono : ∀ i j, i ≤ j → j ≤ hi → p i → p j) :
    IsLeast {i | lo ≤ i ∧ i ≤ hi ∧ p i} (bisect p rounds lo hi) := by
  induction rounds generalizing lo hi with
  | zero =>
    obtain rfl : lo = hi := by omega
    exact ⟨⟨hle, hle, hhi⟩, fun i hi => hi.1⟩
  | succ rounds ih =>
    rw [bisect]
    by_cases hlt : lo < hi
    · rw [if_pos hlt]
      have hmid : lo ≤ lo + (hi - lo) / 2 ∧ lo + (hi - lo) / 2 < hi := by omega
      have hlower : lo + (hi - lo) / 2 - lo ≤ rounds := by omega
      have hupper : hi - (lo + (hi - lo) / 2 + 1) ≤ rounds := by omega
      generalize lo + (hi - lo) / 2 = mid at hmid hlower hupper ⊢
      by_cases hp : p mid
      · -- the first index is at most the middle
        rw [if_pos hp]
        obtain ⟨⟨hlo, hup, hfirst⟩, hleast⟩ := ih hmid.1 hlower hp
          fun i j hij hj => hmono i j hij (hj.trans hmid.2.le)
        refine ⟨⟨hlo, hup.trans hmid.2.le, hfirst⟩, fun i hi' => ?_⟩
        rcases le_total i mid with him | him
        · exact hleast ⟨hi'.1, him, hi'.2.2⟩
        · exact hup.trans him
      · -- no index up to the middle satisfies the predicate
        rw [if_neg hp]
        have hnext : mid + 1 ≤ hi := hmid.2
        obtain ⟨⟨hlo, hup, hfirst⟩, hleast⟩ := ih hnext hupper hhi hmono
        refine ⟨⟨by omega, hup, hfirst⟩, fun i hi' => hleast ⟨?_, hi'.2.1, hi'.2.2⟩⟩
        by_contra hlow
        exact hp (hmono i mid (by omega) hmid.2.le hi'.2.2)
    · rw [if_neg hlt]
      obtain rfl : lo = hi := by omega
      exact ⟨⟨hle, hle, hhi⟩, fun i hi' => hi'.1⟩

end Bisect
