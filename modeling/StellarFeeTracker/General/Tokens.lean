import Mathlib.Algebra.Order.Field.Basic
import Mathlib.Tactic.GCongr
import Mathlib.Tactic.Linarith
import Mathlib.Tactic.Positivity
import Mathlib.Tactic.Ring
import StellarFeeTracker.General.Machine

/-!
# Token buckets

A bucket holds tokens up to a capacity and is refilled at a rate.  `refilled` is what it holds after
some time; refilling in two steps is refilling once, and a bucket left alone for long enough is full.

`Budget` is what a machine needs for a bound on what it spends: a level for every instant, which grows
no faster than the rate, is not negative, and pays for all that a step spends.  Then a run spends in
no interval more than the level at its start and what the rate adds in its length.
-/

namespace Tokens

variable {K : Type*} [Field K] [LinearOrder K]

/-! ## Refilling -/

section Refill

variable {capacity rate tokens elapsed elapsed' : K}

/-- The tokens of a bucket after some time. -/
def refilled (capacity rate tokens elapsed : K) : K := min (tokens + elapsed * rate) capacity

theorem refilled_le_capacity : refilled capacity rate tokens elapsed ≤ capacity := min_le_right _ _

theorem refilled_zero (htokens : tokens ≤ capacity) : refilled capacity rate tokens 0 = tokens := by
  rw [refilled, zero_mul, add_zero, min_eq_left htokens]

theorem refilled_zero_le : refilled capacity rate tokens 0 ≤ tokens := by
  rw [refilled, zero_mul, add_zero]
  exact min_le_left _ _

variable [IsStrictOrderedRing K]

theorem refilled_nonneg (hcapacity : 0 ≤ capacity) (hrate : 0 ≤ rate) (htokens : 0 ≤ tokens)
    (helapsed : 0 ≤ elapsed) : 0 ≤ refilled capacity rate tokens elapsed :=
  le_min (by positivity) hcapacity

theorem refilled_le_refilled {tokens' : K} (h : tokens ≤ tokens') :
    refilled capacity rate tokens elapsed ≤ refilled capacity rate tokens' elapsed :=
  min_le_min_right _ (by gcongr)

/-- Refilling in two steps is refilling once. -/
theorem refilled_refilled (hrate : 0 ≤ rate) (helapsed : 0 ≤ elapsed') :
    refilled capacity rate (refilled capacity rate tokens elapsed) elapsed' =
      refilled capacity rate tokens (elapsed + elapsed') := by
  have hadd : 0 ≤ elapsed' * rate := mul_nonneg helapsed hrate
  rw [refilled, refilled, refilled, ← min_add_add_right, min_assoc,
    min_eq_right (le_add_of_nonneg_right hadd), add_mul, add_assoc]

theorem refilled_of_full (hrate : 0 ≤ rate) (helapsed : 0 ≤ elapsed) :
    refilled capacity rate capacity elapsed = capacity :=
  min_eq_right (le_add_of_nonneg_right (mul_nonneg helapsed hrate))

/-- A bucket that was left alone for long enough is full. -/
theorem refilled_eq_capacity (htokens : 0 ≤ tokens) (hfull : capacity ≤ elapsed * rate) :
    refilled capacity rate tokens elapsed = capacity :=
  min_eq_right (hfull.trans (le_add_of_nonneg_left htokens))

end Refill

/-! ## Spending within a budget -/

section Budget

variable {σ ι ω : Type*}

open Machine

/-- A level that pays for the outputs that are counted.  `valid s c` says that `s` is a state at
instant `c`. -/
structure Budget (step : σ → ι → σ × List ω) (time : ι → K) (stamp : ω → K) (counted : ω → Bool)
    (rate : K) (valid : σ → K → Prop) (level : σ → K → K) : Prop where
  valid_step : ∀ s c i, valid s c → c ≤ time i → valid (step s i).1 (time i)
  stamp_eq : ∀ s i, ∀ x ∈ (step s i).2, stamp x = time i
  nonneg : ∀ s c u, valid s c → c ≤ u → 0 ≤ level s u
  grows : ∀ s c u v, valid s c → c ≤ u → u ≤ v → level s v ≤ level s u + (v - u) * rate
  pays : ∀ s c i, valid s c → c ≤ time i →
    level (step s i).1 (time i) + (step s i).2.countP counted ≤ level s (time i)
  falls : ∀ s c i v, valid s c → c ≤ time i → time i ≤ v → level (step s i).1 v ≤ level s v

variable {step : σ → ι → σ × List ω} {time : ι → K} {stamp : ω → K} {counted : ω → Bool} {rate : K}
  {valid : σ → K → Prop} {level : σ → K → K}

theorem Budget.valid_final (h : Budget step time stamp counted rate valid level) {s : σ} {c : K}
    {is : List ι} (hs : valid s c) (hc : ∀ i ∈ is, c ≤ time i)
    (hsorted : (is.map time).Pairwise (· ≤ ·)) :
    ∃ c', valid (final step s is) c' := by
  induction is generalizing s c with
  | nil => exact ⟨c, hs⟩
  | cons i is ih =>
    obtain ⟨hi, hrest⟩ := List.pairwise_cons.1 hsorted
    refine ih (h.valid_step s c i hs (hc i List.mem_cons_self)) (fun j hj => ?_) hrest
    exact hi _ (List.mem_map_of_mem hj)

/-- What is counted in an interval. -/
def countedIn (stamp : ω → K) (counted : ω → Bool) (u v : K) (x : ω) : Bool :=
  counted x && decide (u ≤ stamp x ∧ stamp x ≤ v)

omit [Field K] in
theorem countP_countedIn_eq_zero {stamp : ω → K} {counted : ω → Bool} {u v : K} {xs : List ω}
    (h : ∀ x ∈ xs, ¬ (u ≤ stamp x ∧ stamp x ≤ v)) :
    xs.countP (countedIn stamp counted u v) = 0 := by
  rw [List.countP_eq_zero]
  intro x hx
  simp [countedIn, h x hx]

theorem Budget.stamp_of_mem_emitted (h : Budget step time stamp counted rate valid level) {s : σ}
    {is : List ι} {x : ω} (hx : x ∈ emitted step s is) : ∃ i ∈ is, stamp x = time i := by
  obtain ⟨k, i, hi, hx⟩ := (mem_emitted_iff step s is).1 hx
  exact ⟨i, List.mem_of_getElem? hi, h.stamp_eq _ i x hx⟩

variable [IsStrictOrderedRing K]

/-- The level of a part of a machine pays for its outputs, if a step leaves the part as it is and puts
out nothing that counts, or makes a step of the part and puts out no more that counts. -/
theorem Budget.comap (h : Budget step time stamp counted rate valid level) {τ κ υ : Type*}
    {step' : τ → κ → τ × List υ} {time' : κ → K} {stamp' : υ → K} {counted' : υ → Bool}
    (part : τ → σ) (hmono : ∀ s c u, valid s c → c ≤ u → valid s u)
    (hstamp : ∀ t k, ∀ x ∈ (step' t k).2, stamp' x = time' k)
    (hstep : ∀ t k, part (step' t k).1 = part t ∧ (step' t k).2.countP counted' = 0 ∨
      ∃ i, time i = time' k ∧ part (step' t k).1 = (step (part t) i).1 ∧
        (step' t k).2.countP counted' ≤ (step (part t) i).2.countP counted) :
    Budget step' time' stamp' counted' rate (fun t => valid (part t)) fun t => level (part t) where
  valid_step t c k hvalid hc := by
    rcases hstep t k with ⟨hpart, -⟩ | ⟨i, htime, hpart, -⟩
    · rw [hpart]
      exact hmono _ c _ hvalid hc
    · rw [hpart, ← htime]
      exact h.valid_step _ c i hvalid (htime ▸ hc)
  stamp_eq := hstamp
  nonneg t c u hvalid hcu := h.nonneg _ c u hvalid hcu
  grows t c u v hvalid hcu huv := h.grows _ c u v hvalid hcu huv
  pays t c k hvalid hc := by
    rcases hstep t k with ⟨hpart, hnone⟩ | ⟨i, htime, hpart, hcount⟩
    · rw [hpart, hnone, Nat.cast_zero, add_zero]
    · have hpays := h.pays _ c i hvalid (htime ▸ hc)
      rw [hpart, ← htime]
      exact (add_le_add_right (Nat.cast_le.2 hcount) _).trans hpays
  falls t c k v hvalid hc hv := by
    rcases hstep t k with ⟨hpart, -⟩ | ⟨i, htime, hpart, -⟩
    · rw [hpart]
    · rw [hpart]
      exact h.falls _ c i v hvalid (htime ▸ hc) (htime ▸ hv)

/-- A run spends in no interval more than the level at its start and what the rate adds. -/
theorem Budget.countP_emitted_le (h : Budget step time stamp counted rate valid level)
    (hrate : 0 ≤ rate) {u v : K} {s : σ} {c : K} {is : List ι} (hs : valid s c)
    (hc : ∀ i ∈ is, c ≤ time i) (hsorted : (is.map time).Pairwise (· ≤ ·)) (hu : max c u ≤ v) :
    ((emitted step s is).countP (countedIn stamp counted u v) : K) ≤
      level s (max c u) + (v - max c u) * rate := by
  induction is generalizing s c with
  | nil =>
    have hlevel := h.nonneg s c _ hs (le_max_left c u)
    have hadd : 0 ≤ (v - max c u) * rate := mul_nonneg (sub_nonneg.2 hu) hrate
    simpa using add_nonneg hlevel hadd
  | cons i is ih =>
    obtain ⟨hi, hrest⟩ := List.pairwise_cons.1 hsorted
    have hci : c ≤ time i := hc i List.mem_cons_self
    have hvalid := h.valid_step s c i hs hci
    have hlater : ∀ j ∈ is, time i ≤ time j := fun j hj => hi _ (List.mem_map_of_mem hj)
    rcases lt_or_ge v (time i) with hv | hv
    · -- the interval is over before this step
      have hzero : (emitted step s (i :: is)).countP (countedIn stamp counted u v) = 0 := by
        refine countP_countedIn_eq_zero fun x hx => ?_
        obtain ⟨j, hj, hstamp⟩ := h.stamp_of_mem_emitted hx
        have hij : time i ≤ time j := by
          rcases List.mem_cons.1 hj with rfl | hj
          · exact le_rfl
          · exact hlater j hj
        rintro ⟨-, hle⟩
        exact absurd (hij.trans (hstamp.symm.le.trans hle)) (not_le.2 hv)
      have hlevel := h.nonneg s c _ hs (le_max_left c u)
      have hadd : 0 ≤ (v - max c u) * rate := mul_nonneg (sub_nonneg.2 hu) hrate
      rw [hzero, Nat.cast_zero]
      exact add_nonneg hlevel hadd
    · rw [emitted_cons, List.countP_append, Nat.cast_add]
      rcases lt_or_ge (time i) u with hlt | hge
      · -- the interval has not begun
        have hzero : (step s i).2.countP (countedIn stamp counted u v) = 0 := by
          refine countP_countedIn_eq_zero fun x hx => ?_
          rw [h.stamp_eq s i x hx]
          exact fun hle => absurd hle.1 (not_le.2 hlt)
        have hmax : max (time i) u = u := max_eq_right hlt.le
        have hmax' : max c u = u := max_eq_right (hci.trans hlt.le)
        have hih := ih hvalid hlater hrest (hmax.trans_le (hmax'.symm.le.trans hu))
        have hfalls := h.falls s c i u hs hci hlt.le
        rw [hmax] at hih
        rw [hzero, Nat.cast_zero, zero_add, hmax']
        exact hih.trans (by gcongr)
      · have hmax : max (time i) u = time i := max_eq_left hge
        have hih := ih hvalid hlater hrest (hmax.trans_le hv)
        have hpays := h.pays s c i hs hci
        have hgrows := h.grows s c _ _ hs (le_max_left c u) (max_le hci hge)
        have hcount : ((step s i).2.countP (countedIn stamp counted u v) : K) ≤
            (step s i).2.countP counted := by
          refine Nat.cast_le.2 (List.countP_mono_left fun x _ hx => ?_)
          exact (Bool.and_eq_true _ _ ▸ hx).1
        rw [hmax] at hih
        have hsum : (v - max c u) * rate = (time i - max c u) * rate + (v - time i) * rate := by ring
        rw [hsum]
        linarith

end Budget

end Tokens
