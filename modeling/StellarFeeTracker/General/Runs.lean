import Mathlib.Data.Int.Order.Basic
import Mathlib.Data.List.DropRight
import Mathlib.Data.List.TakeWhile
import Mathlib.Order.MinMax
import Mathlib.Tactic.Common

/-!
# Runs of a signal

The maximal stretches of high points in a list, with the times at which they start and end and their
peak.  A list that is cut into pieces has other long runs than the whole list, unless every cut is
harmless (`flatMap_longRuns_eq_iff`): a cut never makes the runs longer, and where it leaves their
total length it makes them more or lower.
-/

namespace Runs

/-- A stretch of high points. -/
structure Run where
  start : ℤ
  stop : ℤ
  peak : ℕ
  deriving DecidableEq, Repr

/-- What is measured at a point. -/
structure Signal (α : Type*) where
  high : α → Bool
  time : α → ℤ
  level : α → ℕ

namespace Signal

variable {α : Type*} (s : Signal α)

/-! ## The runs of a list -/

def single (x : α) : Run := ⟨s.time x, s.time x, s.level x⟩

def extend (run : Run) (x : α) : Run := ⟨run.start, s.time x, max run.peak (s.level x)⟩

/-- The runs of a list of points; a run may be going on before them. -/
def runsFrom : List α → Option Run → List Run
  | [], going => going.toList
  | x :: xs, none => if s.high x then runsFrom xs (some (s.single x)) else runsFrom xs none
  | x :: xs, some run =>
    if s.high x then runsFrom xs (some (s.extend run x))
    else { run with stop := s.time x } :: runsFrom xs none

def runs (xs : List α) : List Run := s.runsFrom xs none

/-- The run of high points `x :: xs`. -/
def runOf (x : α) (xs : List α) : Run := xs.foldl s.extend (s.single x)

/-- The end of a run before the points `xs`: at the first of them, if there is one. -/
def stopAt (last : ℤ) : List α → ℤ
  | [] => last
  | x :: _ => s.time x

theorem runOf_concat (x : α) (xs : List α) (y : α) :
    s.runOf x (xs ++ [y]) = s.extend (s.runOf x xs) y := by
  rw [runOf, List.foldl_append]
  rfl

@[simp] theorem runOf_start (x : α) (xs : List α) : (s.runOf x xs).start = s.time x := by
  induction xs using List.reverseRecOn with
  | nil => rfl
  | append_singleton xs y ih => rwa [runOf_concat]

/-- A run ends at one of its points. -/
theorem exists_runOf_stop (x : α) (xs : List α) : ∃ y ∈ x :: xs, (s.runOf x xs).stop = s.time y := by
  induction xs using List.reverseRecOn with
  | nil => exact ⟨x, List.mem_cons_self, rfl⟩
  | append_singleton xs y ih =>
    rw [runOf_concat]
    exact ⟨y, List.mem_cons_of_mem x (List.mem_append_right xs List.mem_cons_self), rfl⟩

theorem foldl_extend_cons (run : Run) (y : α) (ys : List α) : (y :: ys).foldl s.extend run =
    ⟨run.start, (s.runOf y ys).stop, max run.peak (s.runOf y ys).peak⟩ := by
  induction ys using List.reverseRecOn with
  | nil => rfl
  | append_singleton ys z ih =>
    rw [← List.cons_append, List.foldl_append, ih, runOf_concat]
    simp only [List.foldl_cons, List.foldl_nil, extend, max_assoc]

/-- The run of two stretches one after the other. -/
theorem runOf_append (x : α) (xs : List α) (y : α) (ys : List α) :
    s.runOf x (xs ++ y :: ys) =
      ⟨s.time x, (s.runOf y ys).stop, max (s.runOf x xs).peak (s.runOf y ys).peak⟩ := by
  have hfold := s.foldl_extend_cons (s.runOf x xs) y ys
  rw [runOf_start] at hfold
  rw [← hfold, runOf, List.foldl_append]
  rfl

/-! ## Cutting a list -/

/-- After a low point the runs start afresh. -/
theorem runsFrom_append {front : List α} (hne : front ≠ [])
    (hlast : ∀ x ∈ front.getLast?, s.high x = false) (xs : List α) (going : Option Run) :
    s.runsFrom (front ++ xs) going = s.runsFrom front going ++ s.runs xs := by
  induction front generalizing going with
  | nil => exact absurd rfl hne
  | cons x front ih =>
    cases front with
    | nil =>
      have hx : s.high x = false := hlast x rfl
      cases going with
      | none => simp [runsFrom, runs, hx]
      | some run => simp [runsFrom, runs, hx]
    | cons y front =>
      have hrest := ih (List.cons_ne_nil y front) hlast
      cases going with
      | none =>
        rw [List.cons_append, runsFrom, runsFrom, hrest, hrest]
        split_ifs
        · rfl
        · rfl
      | some run =>
        rw [List.cons_append, runsFrom, runsFrom, hrest, hrest]
        split_ifs
        · rfl
        · rfl

theorem runs_append {front : List α} (hlast : ∀ x ∈ front.getLast?, s.high x = false) (xs : List α) :
    s.runs (front ++ xs) = s.runs front ++ s.runs xs := by
  by_cases hne : front = []
  · rw [hne]
    rfl
  · exact s.runsFrom_append hne hlast xs none

theorem runsFrom_high {xs : List α} (hhigh : ∀ x ∈ xs, s.high x = true) (back : List α) (run : Run) :
    s.runsFrom (xs ++ back) (some run) = s.runsFrom back (some (xs.foldl s.extend run)) := by
  induction xs generalizing run with
  | nil => rfl
  | cons x xs ih =>
    rw [List.cons_append, runsFrom, if_pos (hhigh x List.mem_cons_self)]
    exact ih (fun y hy => hhigh y (List.mem_cons_of_mem x hy)) (s.extend run x)

theorem runsFrom_low {back : List α} (hlow : ∀ x ∈ back.head?, s.high x = false) (run : Run) :
    s.runsFrom back (some run) = { run with stop := s.stopAt run.stop back } :: s.runs back := by
  cases back with
  | nil => rfl
  | cons x back =>
    have hx : s.high x = false := hlow x rfl
    simp [runsFrom, runs, hx, stopAt]

/-- High points in front are one run. -/
theorem runs_high_append {x : α} {xs back : List α} (hhigh : ∀ y ∈ x :: xs, s.high y = true)
    (hlow : ∀ y ∈ back.head?, s.high y = false) :
    s.runs (x :: xs ++ back) =
      { s.runOf x xs with stop := s.stopAt (s.runOf x xs).stop back } :: s.runs back := by
  have hfirst : s.runs (x :: xs ++ back) = s.runsFrom (xs ++ back) (some (s.single x)) := by
    rw [runs, List.cons_append, runsFrom, if_pos (hhigh x List.mem_cons_self)]
  have hrest := s.runsFrom_high (fun y hy => hhigh y (List.mem_cons_of_mem x hy)) back (s.single x)
  rw [hfirst, hrest]
  exact s.runsFrom_low hlow _

end Signal

/-! ## Shorter, more and lower runs -/

/-- The length of the runs together. -/
def total : List Run → ℤ
  | [] => 0
  | run :: runs => run.stop - run.start + total runs

def peaks : List Run → ℕ
  | [] => 0
  | run :: runs => run.peak + peaks runs

/-- The runs are shorter together, or they are more, or they are lower. -/
def Worse (xs ys : List Run) : Prop :=
  total xs < total ys ∨ total xs = total ys ∧
    (ys.length < xs.length ∨ ys.length = xs.length ∧ peaks xs < peaks ys)

@[simp] theorem total_append (xs ys : List Run) : total (xs ++ ys) = total xs + total ys := by
  induction xs with
  | nil => exact (Int.zero_add _).symm
  | cons run xs ih => rw [List.cons_append, total, total, ih, Int.add_assoc]

@[simp] theorem peaks_append (xs ys : List Run) : peaks (xs ++ ys) = peaks xs + peaks ys := by
  induction xs with
  | nil => exact (Nat.zero_add _).symm
  | cons run xs ih => rw [List.cons_append, peaks, peaks, ih, Nat.add_assoc]

@[simp] theorem total_singleton (run : Run) : total [run] = run.stop - run.start := Int.add_zero _

@[simp] theorem peaks_singleton (run : Run) : peaks [run] = run.peak := rfl

theorem Worse.ne {xs ys : List Run} (h : Worse xs ys) : xs ≠ ys := by
  rintro rfl
  unfold Worse at h
  omega

theorem Worse.trans {xs ys zs : List Run} (h : Worse xs ys) (h' : Worse ys zs) : Worse xs zs := by
  unfold Worse at *
  omega

theorem Worse.append_left {xs ys : List Run} (h : Worse xs ys) (front : List Run) :
    Worse (front ++ xs) (front ++ ys) := by
  unfold Worse at *
  simp only [total_append, peaks_append, List.length_append]
  omega

theorem Worse.append_right {xs ys : List Run} (h : Worse xs ys) (back : List Run) :
    Worse (xs ++ back) (ys ++ back) := by
  unfold Worse at *
  simp only [total_append, peaks_append, List.length_append]
  omega

theorem worse_of_total_lt {xs ys : List Run} (h : total xs < total ys) : Worse xs ys := Or.inl h

theorem worse_singleton_of_peak_lt {run run' : Run}
    (hlength : run.stop - run.start = run'.stop - run'.start) (hpeak : run.peak < run'.peak) :
    Worse [run] [run'] := by
  refine Or.inr ⟨?_, Or.inr ⟨rfl, ?_⟩⟩
  · rwa [total_singleton, total_singleton]
  · rwa [peaks_singleton, peaks_singleton]

/-- The runs are the same and the condition holds, or they are worse and it does not. -/
def SameOrWorse (condition : Prop) (xs ys : List Run) : Prop :=
  xs = ys ∧ condition ∨ Worse xs ys ∧ ¬ condition

namespace SameOrWorse

variable {condition condition' : Prop} {xs ys zs : List Run}

theorem eq_iff (h : SameOrWorse condition xs ys) : xs = ys ↔ condition := by
  rcases h with ⟨heq, hcondition⟩ | ⟨hworse, hcondition⟩
  · exact iff_of_true heq hcondition
  · exact iff_of_false hworse.ne hcondition

theorem trans (h : SameOrWorse condition xs ys) (h' : SameOrWorse condition' ys zs) :
    SameOrWorse (condition ∧ condition') xs zs := by
  rcases h with ⟨rfl, hcondition⟩ | ⟨hworse, hcondition⟩
  · rcases h' with ⟨rfl, hcondition'⟩ | ⟨hworse', hcondition'⟩
    · exact Or.inl ⟨rfl, hcondition, hcondition'⟩
    · exact Or.inr ⟨hworse', fun h => hcondition' h.2⟩
  · rcases h' with ⟨rfl, -⟩ | ⟨hworse', -⟩
    · exact Or.inr ⟨hworse, fun h => hcondition h.1⟩
    · exact Or.inr ⟨hworse.trans hworse', fun h => hcondition h.1⟩

theorem append (h : SameOrWorse condition xs ys) (front back : List Run) :
    SameOrWorse condition (front ++ xs ++ back) (front ++ ys ++ back) := by
  rcases h with ⟨rfl, hcondition⟩ | ⟨hworse, hcondition⟩
  · exact Or.inl ⟨rfl, hcondition⟩
  · exact Or.inr ⟨(hworse.append_left front).append_right back, hcondition⟩

end SameOrWorse

/-! ## Cutting a run -/

/-- The runs among these that last for the minimum. -/
def long (minimum : ℤ) (runs : List Run) : List Run :=
  runs.filter fun run => minimum ≤ run.stop - run.start

theorem long_append (minimum : ℤ) (xs ys : List Run) :
    long minimum (xs ++ ys) = long minimum xs ++ long minimum ys := List.filter_append ..

theorem long_cons (minimum : ℤ) (run : Run) (runs : List Run) :
    long minimum (run :: runs) = long minimum [run] ++ long minimum runs :=
  long_append minimum [run] runs

section Cut

variable {minimum start cut restart stop : ℤ} (p q : ℕ)

theorem long_of_le (h : minimum ≤ stop - start) :
    long minimum [⟨start, stop, p⟩] = [⟨start, stop, p⟩] := by
  simp [long, h]

theorem long_of_lt (h : stop - start < minimum) : long minimum [⟨start, stop, p⟩] = [] := by
  simp [long, h]

variable (minimum)

/-- The run loses its end. -/
theorem long_cut_end (hstart : start ≤ cut) (hcut : cut ≤ stop) :
    SameOrWorse (stop - start < minimum ∨ stop = cut) (long minimum [⟨start, cut, p⟩])
      (long minimum [⟨start, stop, p⟩]) := by
  by_cases hshort : stop - start < minimum
  · rw [long_of_lt p hshort, long_of_lt p (by omega)]
    exact Or.inl ⟨rfl, Or.inl hshort⟩
  · by_cases hsame : stop = cut
    · rw [hsame]
      exact Or.inl ⟨rfl, Or.inr rfl⟩
    · refine Or.inr ⟨worse_of_total_lt ?_, by omega⟩
      rw [long_of_le p (not_lt.1 hshort), total_singleton]
      by_cases hlong : minimum ≤ cut - start
      · rw [long_of_le p hlong, total_singleton]
        show cut - start < stop - start
        omega
      · rw [long_of_lt p (not_le.1 hlong)]
        show 0 < stop - start
        omega

/-- The run becomes two. -/
theorem long_cut_middle (hstart : start ≤ cut) (hcut : cut ≤ restart) (hstop : restart ≤ stop) :
    SameOrWorse
      (stop - start < minimum ∨ 0 < minimum ∧ (stop = cut ∧ q ≤ p ∨ restart = start ∧ p ≤ q))
      (long minimum [⟨start, cut, p⟩] ++ long minimum [⟨restart, stop, q⟩])
      (long minimum [⟨start, stop, max p q⟩]) := by
  by_cases hshort : stop - start < minimum
  · rw [long_of_lt _ hshort, long_of_lt p (by omega), long_of_lt q (by omega)]
    exact Or.inl ⟨rfl, Or.inl hshort⟩
  rw [long_of_le (max p q) (not_lt.1 hshort)]
  by_cases hfirst : minimum ≤ cut - start
  · rw [long_of_le p hfirst]
    by_cases hsecond : minimum ≤ stop - restart
    · -- both pieces are long, so the whole run is not one of them
      rw [long_of_le q hsecond]
      refine Or.inr ⟨?_, by omega⟩
      have htotal : (cut - start) + (stop - restart) ≤ stop - start := by omega
      rcases htotal.lt_or_eq with hlt | heq
      · refine worse_of_total_lt ?_
        rwa [total_append, total_singleton, total_singleton, total_singleton]
      · refine Or.inr ⟨?_, Or.inl Nat.one_lt_two⟩
        rwa [total_append, total_singleton, total_singleton, total_singleton]
    · rw [long_of_lt q (not_le.1 hsecond), List.append_nil]
      by_cases hend : stop = cut
      · by_cases hpeak : q ≤ p
        · rw [hend, max_eq_left hpeak]
          exact Or.inl ⟨rfl, Or.inr ⟨by omega, Or.inl ⟨rfl, hpeak⟩⟩⟩
        · refine Or.inr ⟨worse_singleton_of_peak_lt ?_ ?_, by omega⟩
          · rw [hend]
          · exact lt_max_iff.2 (Or.inr (not_le.1 hpeak))
      · refine Or.inr ⟨worse_of_total_lt ?_, by omega⟩
        rw [total_singleton, total_singleton]
        show cut - start < stop - start
        omega
  · rw [long_of_lt p (not_le.1 hfirst), List.nil_append]
    by_cases hsecond : minimum ≤ stop - restart
    · rw [long_of_le q hsecond]
      by_cases hbegin : restart = start
      · by_cases hpeak : p ≤ q
        · rw [hbegin, max_eq_right hpeak]
          exact Or.inl ⟨rfl, Or.inr ⟨by omega, Or.inr ⟨rfl, hpeak⟩⟩⟩
        · refine Or.inr ⟨worse_singleton_of_peak_lt ?_ ?_, by omega⟩
          · rw [hbegin]
          · exact lt_max_iff.2 (Or.inl (not_le.1 hpeak))
      · refine Or.inr ⟨worse_of_total_lt ?_, by omega⟩
        rw [total_singleton, total_singleton]
        show stop - restart < stop - start
        omega
    · rw [long_of_lt q (not_le.1 hsecond)]
      refine Or.inr ⟨worse_of_total_lt ?_, by omega⟩
      rw [total_singleton]
      show 0 < stop - start
      omega

end Cut

/-! ## Cutting a list into pieces -/

namespace Signal

variable {α : Type*} (s : Signal α) (minimum : ℤ)

/-- The runs of a list that last for a minimum. -/
def longRuns (xs : List α) : List Run := long minimum (s.runs xs)

/-- Cutting a list here leaves its long runs as they are: no run is cut, or the run is not a long one,
or one of its pieces is as long and as high as the run and the other piece is not a long one. -/
def HarmlessCut (front back : List α) : Prop :=
  match front.rtakeWhile s.high with
  | [] => True
  | x :: xs =>
    let cut := s.runOf x xs
    match back.takeWhile s.high with
    | [] =>
      let stop := s.stopAt cut.stop back
      stop - cut.start < minimum ∨ stop = cut.stop
    | y :: ys =>
      let rest := s.runOf y ys
      let stop := s.stopAt rest.stop (back.dropWhile s.high)
      stop - cut.start < minimum ∨
        0 < minimum ∧ (stop = cut.stop ∧ rest.peak ≤ cut.peak ∨
          rest.start = cut.start ∧ cut.peak ≤ rest.peak)

variable {s minimum}

theorem runs_high {x : α} {xs : List α} (hhigh : ∀ y ∈ x :: xs, s.high y = true) :
    s.runs (x :: xs) = [s.runOf x xs] := by
  have hlow : ∀ y ∈ ([] : List α).head?, s.high y = false := by simp
  have hruns := s.runs_high_append hhigh hlow
  rwa [List.append_nil] at hruns

theorem stop_le_stopAt {run : Run} (back : List α) (h : ∀ z ∈ back, run.stop ≤ s.time z) :
    run.stop ≤ s.stopAt run.stop back := by
  cases back with
  | nil => exact le_rfl
  | cons z back => exact h z List.mem_cons_self

theorem runOf_stop_le {x : α} {xs : List α} {time : ℤ} (h : ∀ y ∈ x :: xs, s.time y ≤ time) :
    (s.runOf x xs).stop ≤ time := by
  obtain ⟨y, hy, hstop⟩ := s.exists_runOf_stop x xs
  rw [hstop]
  exact h y hy

theorem runOf_start_le_stop {x : α} {xs : List α}
    (hsorted : (x :: xs).Pairwise fun y z => s.time y ≤ s.time z) :
    (s.runOf x xs).start ≤ (s.runOf x xs).stop := by
  obtain ⟨y, hy, hstop⟩ := s.exists_runOf_stop x xs
  rw [runOf_start, hstop]
  rcases List.mem_cons.1 hy with rfl | hy
  · exact le_rfl
  · exact (List.pairwise_cons.1 hsorted).1 y hy

theorem getLast?_rdropWhile_high (front : List α) :
    ∀ x ∈ (front.rdropWhile s.high).getLast?, s.high x = false := by
  intro x hx
  have hne : front.rdropWhile s.high ≠ [] := by
    intro hnil
    rw [hnil] at hx
    cases hx
  have hnot := List.rdropWhile_last_not _ _ hne
  rw [List.getLast?_eq_some_getLast hne] at hx
  rw [Option.some.inj hx] at hnot
  exact (Bool.not_eq_true _).mp hnot

theorem head?_dropWhile_high (back : List α) :
    ∀ x ∈ (back.dropWhile s.high).head?, s.high x = false := by
  intro x hx
  have hhead := List.head?_dropWhile_not s.high back
  rwa [Option.mem_def.1 hx] at hhead

section CutRun

variable {start rest : List α} (hlast : ∀ z ∈ start.getLast?, s.high z = false)
  (hlow : ∀ z ∈ rest.head?, s.high z = false) {x : α} {xs : List α}
  (hhigh : ∀ z ∈ x :: xs, s.high z = true)
include hlast hlow hhigh

/-- A run is cut at its end. -/
theorem longRuns_cut_end (hsorted : (x :: xs ++ rest).Pairwise fun y z => s.time y ≤ s.time z) :
    SameOrWorse
      (s.stopAt (s.runOf x xs).stop rest - (s.runOf x xs).start < minimum ∨
        s.stopAt (s.runOf x xs).stop rest = (s.runOf x xs).stop)
      (s.longRuns minimum (start ++ x :: xs) ++ s.longRuns minimum rest)
      (s.longRuns minimum (start ++ (x :: xs ++ rest))) := by
  obtain ⟨hrun, -, hcross⟩ := List.pairwise_append.1 hsorted
  have hcut := long_cut_end minimum (s.runOf x xs).peak (runOf_start_le_stop hrun)
    (stop_le_stopAt rest fun z hz => runOf_stop_le fun y hy => hcross y hy z hz)
  have hall := hcut.append (long minimum (s.runs start)) (long minimum (s.runs rest))
  unfold longRuns
  rw [s.runs_append hlast, s.runs_append hlast, runs_high hhigh, s.runs_high_append hhigh hlow,
    long_append, long_append, long_cons minimum _ (s.runs rest), ← List.append_assoc]
  exact hall

variable {y : α} {ys : List α} (hnext : ∀ z ∈ y :: ys, s.high z = true)
include hnext

omit hlast in
/-- Two stretches of high points one after the other are one run. -/
theorem runs_high_append_append : s.runs (x :: xs ++ (y :: ys ++ rest)) =
    ⟨(s.runOf x xs).start, s.stopAt (s.runOf y ys).stop rest,
      max (s.runOf x xs).peak (s.runOf y ys).peak⟩ :: s.runs rest := by
  have hboth : ∀ z ∈ x :: (xs ++ y :: ys), s.high z = true := by
    intro z hz
    rw [← List.cons_append] at hz
    rcases List.mem_append.1 hz with hz | hz
    · exact hhigh z hz
    · exact hnext z hz
  have hruns := s.runs_high_append hboth hlow
  rw [s.runOf_append] at hruns
  rw [← List.append_assoc, List.cons_append, hruns, runOf_start]

/-- A run is cut in the middle. -/
theorem longRuns_cut_middle
    (hsorted : (x :: xs ++ (y :: ys ++ rest)).Pairwise fun y z => s.time y ≤ s.time z) :
    SameOrWorse
      (s.stopAt (s.runOf y ys).stop rest - (s.runOf x xs).start < minimum ∨
        0 < minimum ∧
          (s.stopAt (s.runOf y ys).stop rest = (s.runOf x xs).stop ∧
              (s.runOf y ys).peak ≤ (s.runOf x xs).peak ∨
            (s.runOf y ys).start = (s.runOf x xs).start ∧
              (s.runOf x xs).peak ≤ (s.runOf y ys).peak))
      (s.longRuns minimum (start ++ x :: xs) ++ s.longRuns minimum (y :: ys ++ rest))
      (s.longRuns minimum (start ++ (x :: xs ++ (y :: ys ++ rest)))) := by
  obtain ⟨hrun, hback, hcross⟩ := List.pairwise_append.1 hsorted
  obtain ⟨hnextRun, -, hnextCross⟩ := List.pairwise_append.1 hback
  have hrestart : (s.runOf x xs).stop ≤ (s.runOf y ys).start := by
    rw [runOf_start]
    exact runOf_stop_le fun z hz => hcross z hz y (List.mem_append_left _ List.mem_cons_self)
  have hstop := stop_le_stopAt rest fun z hz => runOf_stop_le fun w hw => hnextCross w hw z hz
  have hcut := long_cut_middle minimum (s.runOf x xs).peak (s.runOf y ys).peak
    (runOf_start_le_stop hrun) hrestart ((runOf_start_le_stop hnextRun).trans hstop)
  have hall := hcut.append (long minimum (s.runs start)) (long minimum (s.runs rest))
  unfold longRuns
  rw [s.runs_append hlast, s.runs_append hlast, runs_high hhigh,
    runs_high_append_append hlow hhigh hnext, s.runs_high_append hnext hlow, long_append, long_append,
    long_cons minimum _ (s.runs rest), long_cons minimum _ (s.runs rest)]
  simp only [List.append_assoc] at hall ⊢
  exact hall

end CutRun

/-- A cut leaves the long runs as they are or makes them worse. -/
theorem longRuns_cut {front back : List α}
    (hsorted : (front ++ back).Pairwise fun y z => s.time y ≤ s.time z) :
    SameOrWorse (s.HarmlessCut minimum front back)
      (s.longRuns minimum front ++ s.longRuns minimum back) (s.longRuns minimum (front ++ back)) := by
  have hfront := List.rdropWhile_append_rtakeWhile (p := s.high) (l := front)
  have hback := List.takeWhile_append_dropWhile (p := s.high) (l := back)
  have hlast := s.getLast?_rdropWhile_high front
  have hlow := s.head?_dropWhile_high back
  have hhigh : ∀ x ∈ front.rtakeWhile s.high, s.high x = true := fun x hx => List.mem_rtakeWhile_imp hx
  have hnext : ∀ y ∈ back.takeWhile s.high, s.high y = true := fun y hy => List.mem_takeWhile_imp hy
  unfold HarmlessCut
  generalize front.rdropWhile s.high = start at *
  generalize front.rtakeWhile s.high = run at *
  generalize back.dropWhile s.high = rest at *
  generalize back.takeWhile s.high = next at *
  subst hfront hback
  rw [List.append_assoc] at hsorted ⊢
  have hcut := (List.pairwise_append.1 hsorted).2.1
  cases run with
  | nil =>
    refine Or.inl ⟨?_, trivial⟩
    unfold longRuns
    rw [List.append_nil, List.nil_append, s.runs_append hlast, long_append]
  | cons x xs =>
    cases next with
    | nil => exact longRuns_cut_end hlast hlow hhigh hcut
    | cons y ys => exact longRuns_cut_middle hlast hlow hhigh hnext hcut

/-! ## Cutting a list into many pieces -/

theorem forall_cut_cons_iff {P : List α → List α → Prop} (piece : List α) (pieces : List (List α)) :
    (∀ front here back, piece :: pieces = front ++ here :: back → P here back.flatten) ↔
      P piece pieces.flatten ∧
        ∀ front here back, pieces = front ++ here :: back → P here back.flatten := by
  constructor
  · intro h
    refine ⟨h [] piece pieces rfl, fun front here back heq => ?_⟩
    exact h (piece :: front) here back (by rw [heq, List.cons_append])
  · rintro ⟨hfirst, hrest⟩ front here back heq
    cases front with
    | nil =>
      obtain ⟨rfl, rfl⟩ := List.cons.inj heq
      exact hfirst
    | cons first front =>
      obtain ⟨-, htail⟩ := List.cons.inj heq
      exact hrest front here back htail

theorem longRuns_pieces {pieces : List (List α)}
    (hsorted : pieces.flatten.Pairwise fun y z => s.time y ≤ s.time z) :
    SameOrWorse
      (∀ front here back, pieces = front ++ here :: back → s.HarmlessCut minimum here back.flatten)
      (pieces.flatMap (s.longRuns minimum)) (s.longRuns minimum pieces.flatten) := by
  induction pieces with
  | nil =>
    refine Or.inl ⟨rfl, fun front here back heq => ?_⟩
    exact absurd heq.symm (List.append_ne_nil_of_right_ne_nil _ (List.cons_ne_nil _ _))
  | cons piece pieces ih =>
    rw [List.flatten_cons] at hsorted
    have hrest := ih (List.pairwise_append.1 hsorted).2.1
    have hfront := hrest.append (s.longRuns minimum piece) []
    rw [List.append_nil, List.append_nil] at hfront
    have hboth := hfront.trans (longRuns_cut hsorted)
    rw [forall_cut_cons_iff, and_comm]
    exact hboth

/-- A cut after a low point is harmless. -/
theorem harmlessCut_of_getLast? {front : List α} (h : ∀ x ∈ front.getLast?, s.high x = false)
    (back : List α) : s.HarmlessCut minimum front back := by
  have hnone : front.rtakeWhile s.high = [] := by
    rw [List.rtakeWhile_eq_nil_iff]
    intro hne
    rw [h _ (List.getLast?_eq_some_getLast hne)]
    exact Bool.false_ne_true
  unfold HarmlessCut
  rw [hnone]
  trivial

/-- The pieces of a list have the long runs of the whole list exactly when every cut is harmless. -/
theorem flatMap_longRuns_eq_iff {pieces : List (List α)}
    (hsorted : pieces.flatten.Pairwise fun y z => s.time y ≤ s.time z) :
    pieces.flatMap (s.longRuns minimum) = s.longRuns minimum pieces.flatten ↔
      ∀ front here back, pieces = front ++ here :: back →
        s.HarmlessCut minimum here back.flatten :=
  (longRuns_pieces hsorted).eq_iff

end Signal

end Runs
