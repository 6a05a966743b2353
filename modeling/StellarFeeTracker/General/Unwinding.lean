import Mathlib.Order.Basic
import StellarFeeTracker.General.Machine

/-!
# What an observer sees of a run

Some inputs of a machine are of no concern to an observer, who sees of the outputs what `view` lets
through.  If such an input changes nothing that the observer can tell by later, the observer sees of a
run what it sees of the run without these inputs (`Unwinding.run`).

What the observer can tell states apart by is a relation of states at an instant, and the inputs of a
run come with instants in order.
-/

namespace Machine

variable {σ ι ω υ K : Type*} [Preorder K]

/-- States that are related at an instant stay related, a harmless input that does not concern the
observer is not seen and leaves them related, and an input that concerns it looks the same from
both. -/
structure Unwinding (step : σ → ι → σ × List ω) (time : ι → K) (mine : ι → Bool)
    (harmless : ι → Prop) (view : ω → Option υ) (R : K → σ → σ → Prop) : Prop where
  later : ∀ t u s s', R t s s' → t ≤ u → R u s s'
  other : ∀ s s' i, mine i = false → harmless i → R (time i) s s' →
    R (time i) (step s i).1 s' ∧ (step s i).2.filterMap view = []
  own : ∀ s s' i, mine i = true → R (time i) s s' →
    R (time i) (step s i).1 (step s' i).1 ∧
      (step s i).2.filterMap view = (step s' i).2.filterMap view

variable {step : σ → ι → σ × List ω} {time : ι → K} {mine : ι → Bool} {harmless : ι → Prop}
  {view : ω → Option υ} {R : K → σ → σ → Prop}

/-- The observer sees what it would see if the inputs that do not concern it were left out, and the
states at the end are related. -/
theorem Unwinding.run (h : Unwinding step time mine harmless view R) {t : K} {s s' : σ}
    (hs : R t s s') {is : List ι} (ht : ∀ i ∈ is, t ≤ time i)
    (hsorted : (is.map time).Pairwise (· ≤ ·))
    (hharmless : ∀ i ∈ is, mine i = false → harmless i) :
    (emitted step s is).filterMap view = (emitted step s' (is.filter mine)).filterMap view ∧
      ∃ u, R u (final step s is) (final step s' (is.filter mine)) := by
  induction is generalizing t s s' with
  | nil => exact ⟨rfl, t, hs⟩
  | cons i is ih =>
    obtain ⟨hi, hrest⟩ := List.pairwise_cons.1 hsorted
    have hnow := h.later t (time i) s s' hs (ht i List.mem_cons_self)
    have hlater : ∀ j ∈ is, time i ≤ time j := fun j hj => hi _ (List.mem_map_of_mem hj)
    have hothers := fun j hj => hharmless j (List.mem_cons_of_mem i hj)
    rw [emitted_cons, final_cons, List.filterMap_append]
    cases hmine : mine i with
    | false =>
      obtain ⟨hnext, hunseen⟩ := h.other s s' i hmine (hharmless i List.mem_cons_self hmine) hnow
      rw [hunseen, List.nil_append, List.filter_cons_of_neg (by simp [hmine])]
      exact ih hnext hlater hrest hothers
    | true =>
      obtain ⟨hnext, hseen⟩ := h.own s s' i hmine hnow
      obtain ⟨hrun, hend⟩ := ih hnext hlater hrest hothers
      rw [List.filter_cons_of_pos hmine, emitted_cons, final_cons, List.filterMap_append, hseen, hrun]
      exact ⟨rfl, hend⟩

end Machine
