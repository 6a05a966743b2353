import Mathlib.Data.List.Sort
import StellarFeeTracker.General.Machine

/-!
# Logs that are pruned, and their newest rows

A machine keeps a log: each step drops the rows that its input does not keep, and appends what the
step puts out.  After a run the log holds what no later step has dropped, in the order in which it was
put out (`log_final`).

A page is a part of a table of which no row left out is newer (`IsNewest`).
-/

namespace PrunedLog

/-! ## The rows that are left -/

section Survivors

open Machine

variable {σ ι ω : Type*} (step : σ → ι → σ × List ω) (keeps : ι → ω → Bool)

/-- What a run puts out and keeps to its end. -/
def survivors (s : σ) : List ι → List ω
  | [] => []
  | i :: is =>
    (step s i).2.filter (fun x => is.all fun j => keeps j x) ++ survivors (step s i).1 is

variable {step keeps}

theorem log_final {log : σ → List ω}
    (hlog : ∀ s i, log (step s i).1 = (log s).filter (keeps i) ++ (step s i).2) (s : σ)
    (is : List ι) :
    log (final step s is) =
      (log s).filter (fun x => is.all fun i => keeps i x) ++ survivors step keeps s is := by
  induction is generalizing s with
  | nil => simp [survivors]
  | cons i is ih =>
    have hboth : (fun x => ((i :: is).all fun j => keeps j x)) =
        fun x => (is.all fun j => keeps j x) && keeps i x := by
      funext x
      rw [List.all_cons, Bool.and_comm]
    rw [final_cons, ih, hlog, List.filter_append, List.filter_filter, List.append_assoc, hboth]
    rfl

theorem survivors_sublist_emitted (s : σ) (is : List ι) :
    (survivors step keeps s is).Sublist (emitted step s is) := by
  induction is generalizing s with
  | nil => exact .slnil
  | cons i is ih =>
    rw [survivors, emitted_cons]
    exact List.filter_sublist.append (ih _)

end Survivors

/-! ## The newest rows -/

section Newest

variable {ρ κ : Type*} [LinearOrder κ] (key : ρ → κ)

/-- A page has as many rows as fit, the newest first, and no row that is left out is newer. -/
structure IsNewest (limit : ℕ) (rows page : List ρ) : Prop where
  length : page.length = min limit rows.length
  ordered : page.Pairwise fun a b => key b ≤ key a
  newest : ∃ rest, (page ++ rest).Perm rows ∧ ∀ a ∈ page, ∀ b ∈ rest, key b ≤ key a

theorem isNewest_take (limit : ℕ) (rows : List ρ) :
    IsNewest key limit rows
      ((rows.insertionSort fun a b => key b ≤ key a).take limit) := by
  have htotal : Std.Total fun a b : ρ => key b ≤ key a := ⟨fun a b => le_total (key b) (key a)⟩
  have htrans : IsTrans ρ fun a b => key b ≤ key a := ⟨fun a b c hab hbc => hbc.trans hab⟩
  have hordered := List.pairwise_insertionSort (fun a b => key b ≤ key a) rows
  have hperm := List.perm_insertionSort (fun a b => key b ≤ key a) rows
  refine ⟨by rw [List.length_take, hperm.length_eq], hordered.sublist (List.take_sublist _ _),
    (rows.insertionSort fun a b => key b ≤ key a).drop limit, ?_, ?_⟩
  · rwa [List.take_append_drop]
  · rw [← List.take_append_drop limit (rows.insertionSort fun a b => key b ≤ key a),
      List.pairwise_append] at hordered
    exact hordered.2.2

variable {key} {limit : ℕ} {rows page : List ρ}

theorem IsNewest.subset (h : IsNewest key limit rows page) {a : ρ} (ha : a ∈ page) : a ∈ rows := by
  obtain ⟨rest, hperm, -⟩ := h.newest
  exact hperm.mem_iff.1 (List.mem_append_left _ ha)

/-- When all rows can be read, each is read into the entry at its place. -/
theorem forall₂_filterMap {ε : Type*} {f : ρ → Option ε} {page : List ρ}
    (h : ∀ a ∈ page, ∃ e, f a = some e) :
    List.Forall₂ (fun a e => f a = some e) page (page.filterMap f) := by
  induction page with
  | nil => exact .nil
  | cons a page ih =>
    rw [List.forall_mem_cons] at h
    obtain ⟨e, he⟩ := h.1
    rw [List.filterMap_cons_some he]
    exact .cons he (ih h.2)

end Newest

end PrunedLog
