import StellarFeeTracker.General.Runs
import Mathlib.Data.List.Basic

/-!
# Runs by where they start

The runs of a signal again, without the pass over the list: a run starts at each high point that does
not follow a high one, takes the high points from there on, and ends at the first low point after
them (`runs_eq_starts`).
-/

namespace Runs

namespace Signal

variable {α : Type*} (s : Signal α)

/-- The positions of the high points that do not follow a high point; `before` tells whether the
point before the list was high. -/
def starts (before : Bool) (xs : List α) : List ℕ :=
  (List.range xs.length).filter fun i =>
    xs[i]?.any s.high && !(if i = 0 then before else xs[i - 1]?.any s.high)

/-- A run that goes on before the points `xs`, with its high points and its end there. -/
def close (run : Run) (xs : List α) : Run :=
  let going := (xs.takeWhile s.high).foldl s.extend run
  { going with stop := s.stopAt going.stop (xs.dropWhile s.high) }

/-- The run that starts with the first point. -/
def runAt : List α → Run
  | [] => ⟨0, 0, 0⟩
  | x :: xs => s.close (s.single x) xs

@[simp] theorem starts_nil (before : Bool) : s.starts before [] = [] := rfl

theorem starts_cons (before : Bool) (x : α) (xs : List α) :
    s.starts before (x :: xs) =
      (if s.high x && !before then [0] else []) ++ (s.starts (s.high x) xs).map Nat.succ := by
  unfold starts
  rw [List.length_cons, List.range_succ_eq_map, List.filter_cons, List.filter_map]
  have hlater : ((fun i => (x :: xs)[i]?.any s.high &&
        !(if i = 0 then before else (x :: xs)[i - 1]?.any s.high)) ∘ Nat.succ) =
      fun i => xs[i]?.any s.high && !(if i = 0 then s.high x else xs[i - 1]?.any s.high) := by
    funext i
    cases i with
    | zero => rfl
    | succ i => rfl
  have hfirst : ((x :: xs)[0]?.any s.high &&
      !(if 0 = 0 then before else (x :: xs)[0 - 1]?.any s.high)) = (s.high x && !before) := rfl
  rw [hlater, hfirst]
  cases s.high x && !before <;> rfl

theorem close_high {x : α} (hx : s.high x = true) (run : Run) (xs : List α) :
    s.close run (x :: xs) = s.close (s.extend run x) xs := by
  unfold close
  rw [List.takeWhile_cons_of_pos hx, List.dropWhile_cons_of_pos hx, List.foldl_cons]

theorem close_low {x : α} (hx : ¬ s.high x = true) (run : Run) (xs : List α) :
    s.close run (x :: xs) = { run with stop := s.time x } := by
  unfold close
  rw [List.takeWhile_cons_of_neg hx, List.dropWhile_cons_of_neg hx]
  rfl

/-- The runs of a list, behind a run that goes on before it. -/
theorem runsFrom_eq_starts (xs : List α) (going : Option Run) :
    s.runsFrom xs going =
      (going.map fun run => s.close run xs).toList ++
        (s.starts going.isSome xs).map fun i => s.runAt (xs.drop i) := by
  induction xs generalizing going with
  | nil => cases going <;> rfl
  | cons x xs ih =>
    have hshift : ((fun i => s.runAt ((x :: xs).drop i)) ∘ Nat.succ) =
        fun i => s.runAt (xs.drop i) := rfl
    rw [starts_cons, List.map_append, List.map_map, hshift]
    cases going with
    | none =>
      by_cases hx : s.high x = true
      · rw [runsFrom, if_pos hx, ih, hx]
        rfl
      · rw [runsFrom, if_neg hx, ih, Bool.eq_false_iff.2 hx]
        rfl
    | some run =>
      by_cases hx : s.high x = true
      · rw [runsFrom, if_pos hx, ih, hx]
        simp only [Option.map_some, close_high s hx]
        rfl
      · rw [runsFrom, if_neg hx, ih, Bool.eq_false_iff.2 hx]
        simp only [Option.map_some, close_low s hx]
        rfl

/-- The runs of a list are those that start at the high points after none or a low one. -/
theorem runs_eq_starts (xs : List α) :
    s.runs xs = (s.starts false xs).map fun i => s.runAt (xs.drop i) :=
  s.runsFrom_eq_starts xs none

/-- A run starts at a position of the list, at a high point. -/
theorem exists_of_mem_starts {before : Bool} {xs : List α} {i : ℕ} (h : i ∈ s.starts before xs) :
    ∃ x rest, xs.drop i = x :: rest ∧ s.high x = true := by
  obtain ⟨hi, hhigh⟩ := List.mem_filter.1 h
  rw [List.mem_range] at hi
  refine ⟨xs[i], xs.drop (i + 1), (List.getElem_cons_drop hi).symm, ?_⟩
  rw [Bool.and_eq_true, List.getElem?_eq_getElem hi] at hhigh
  exact hhigh.1

/-! ## Runs in order of time -/

/-- In order of time the runs come one after the other: each ends before the next one starts. -/
theorem runsFrom_ordered {xs : List α} (hsorted : xs.Pairwise fun y z => s.time y ≤ s.time z)
    {going : Option Run} {first : ℤ} (hfirst : ∀ x ∈ xs, first ≤ s.time x)
    (hgoing : ∀ run ∈ going, first ≤ run.start ∧ run.start ≤ run.stop ∧
      ∀ x ∈ xs, run.stop ≤ s.time x) :
    (∀ run ∈ s.runsFrom xs going, first ≤ run.start ∧ run.start ≤ run.stop) ∧
      (s.runsFrom xs going).Pairwise fun run next => run.stop ≤ next.start := by
  induction xs generalizing going first with
  | nil =>
    cases going with
    | none => exact ⟨fun run h => absurd h List.not_mem_nil, List.Pairwise.nil⟩
    | some run =>
      obtain ⟨hstart, hstop, -⟩ := hgoing run rfl
      refine ⟨fun run' h => ?_, List.pairwise_singleton _ _⟩
      obtain rfl := List.mem_singleton.1 h
      exact ⟨hstart, hstop⟩
  | cons x xs ih =>
    obtain ⟨hx, hxs⟩ := List.pairwise_cons.1 hsorted
    obtain ⟨hfirstx, hfirstxs⟩ := List.forall_mem_cons.1 hfirst
    cases going with
    | none =>
      rw [runsFrom]
      split_ifs
      · refine ih hxs hfirstxs fun run hrun => ?_
        obtain rfl := Option.mem_some.1 hrun
        exact ⟨hfirstx, le_rfl, hx⟩
      · exact ih hxs hfirstxs fun run hrun => absurd hrun (Option.not_mem_none run)
    | some run =>
      obtain ⟨hstart, hstop, hbefore⟩ := hgoing run rfl
      have hlast := hbefore x List.mem_cons_self
      rw [runsFrom]
      split_ifs
      · refine ih hxs hfirstxs fun run' hrun => ?_
        obtain rfl := Option.mem_some.1 hrun
        exact ⟨hstart, hstop.trans hlast, hx⟩
      · -- the run ends here, and the others start no earlier
        obtain ⟨hlater, hpairs⟩ := ih hxs hx fun run' hrun => absurd hrun (Option.not_mem_none run')
        refine ⟨List.forall_mem_cons.2 ⟨⟨hstart, hstop.trans hlast⟩, fun run' hrun => ?_⟩,
          List.pairwise_cons.2 ⟨fun run' hrun => (hlater run' hrun).1, hpairs⟩⟩
        obtain ⟨hlow, hhigh⟩ := hlater run' hrun
        exact ⟨hfirstx.trans hlow, hhigh⟩

theorem runs_ordered {xs : List α} (hsorted : xs.Pairwise fun y z => s.time y ≤ s.time z) :
    (∀ run ∈ s.runs xs, run.start ≤ run.stop) ∧
      (s.runs xs).Pairwise fun run next => run.stop ≤ next.start := by
  cases xs with
  | nil => exact ⟨fun run h => absurd h List.not_mem_nil, List.Pairwise.nil⟩
  | cons x xs =>
    have hfirst : ∀ y ∈ x :: xs, s.time x ≤ s.time y :=
      List.forall_mem_cons.2 ⟨le_rfl, (List.pairwise_cons.1 hsorted).1⟩
    have hnone : ∀ run ∈ (none : Option Run), s.time x ≤ run.start ∧ run.start ≤ run.stop ∧
        ∀ y ∈ x :: xs, run.stop ≤ s.time y := fun run hrun => absurd hrun (Option.not_mem_none run)
    obtain ⟨hruns, hpairs⟩ := s.runsFrom_ordered hsorted hfirst hnone
    exact ⟨fun run hrun => (hruns run hrun).2, hpairs⟩

/-- A run of high points has the greatest of their levels as its peak. -/
theorem max?_level_cons (x : α) (xs : List α) :
    ((x :: xs).map s.level).max? = some (s.runOf x xs).peak := by
  have hpeak : ∀ run : Run,
      (xs.foldl s.extend run).peak = (xs.map s.level).foldl max run.peak := by
    induction xs with
    | nil => exact fun run => rfl
    | cons y ys ih => exact fun run => ih (s.extend run y)
  rw [List.map_cons, List.max?_cons', runOf, hpeak]
  rfl

/-- It stops at the last of them. -/
theorem runOf_stop_eq_getLast (x : α) (xs : List α) :
    ∀ y ∈ (x :: xs).getLast?, (s.runOf x xs).stop = s.time y := by
  intro y hy
  induction xs using List.reverseRecOn with
  | nil =>
    obtain rfl := Option.some.inj hy
    rfl
  | append_singleton xs z _ =>
    rw [← List.cons_append, List.getLast?_concat] at hy
    obtain rfl := Option.some.inj hy
    rw [runOf_concat]
    rfl

/-- The run that starts with a high point, by the points alone: it has the greatest level of the high
points from there on, and stops at the first point after them, or else at the last point. -/
theorem runAt_cons {x : α} (hx : s.high x = true) (xs : List α) :
    s.runAt (x :: xs) =
      { start := s.time x
        stop := ((((x :: xs).dropWhile s.high).head?.or (x :: xs).getLast?).map s.time).getD 0
        peak := ((((x :: xs).takeWhile s.high).map s.level).max?).getD 0 } := by
  rw [List.takeWhile_cons_of_pos hx, List.dropWhile_cons_of_pos hx, max?_level_cons]
  have hrun : s.runAt (x :: xs) = ⟨(s.runOf x (xs.takeWhile s.high)).start,
      s.stopAt (s.runOf x (xs.takeWhile s.high)).stop (xs.dropWhile s.high),
      (s.runOf x (xs.takeWhile s.high)).peak⟩ := rfl
  rw [hrun, runOf_start]
  congr 1
  cases hafter : xs.dropWhile s.high with
  | nil =>
    have hall : xs.takeWhile s.high = xs := by
      have hsplit := List.takeWhile_append_dropWhile (p := s.high) (l := xs)
      rwa [hafter, List.append_nil] at hsplit
    have hlast := List.getLast?_eq_some_getLast (List.cons_ne_nil x xs)
    rw [hall, hlast]
    exact s.runOf_stop_eq_getLast x xs _ hlast
  | cons y ys => rfl

end Signal

end Runs
