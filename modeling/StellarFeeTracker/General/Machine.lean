import Mathlib.Data.List.Infix
import Mathlib.Tactic.Common

/-!
# Runs of a machine with outputs

A machine is a step function `step : σ → ι → σ × List ω`: it reads an input, moves to a new state
and puts out a list of outputs.  `final` is the state a run ends in, `outputs` what each step of the
run puts out and `emitted` everything the run puts out, in order.

* `final_induction`: what every step preserves, every run preserves.
* `observe_final`: an observation that each step sets from its input alone shows, after a run, the
  last input of the run.
* `final_of_seen`: what is seen of a machine runs as a machine of its own.
* `outputs_of_simulation`: two machines whose states stay related put out related lists.
-/

namespace Machine

variable {σ τ ι ω υ : Type*}

section Runs

variable (step : σ → ι → σ × List ω)

/-- The state a run ends in. -/
def final (s : σ) : List ι → σ
  | [] => s
  | i :: is => final (step s i).1 is

/-- What each step of a run puts out. -/
def outputs (s : σ) : List ι → List (List ω)
  | [] => []
  | i :: is => (step s i).2 :: outputs (step s i).1 is

/-- Everything a run puts out, in order. -/
def emitted (s : σ) (is : List ι) : List ω := (outputs step s is).flatten

@[simp] theorem final_nil (s : σ) : final step s [] = s := rfl

@[simp] theorem final_cons (s : σ) (i : ι) (is : List ι) :
    final step s (i :: is) = final step (step s i).1 is := rfl

@[simp] theorem outputs_nil (s : σ) : outputs step s [] = [] := rfl

@[simp] theorem outputs_cons (s : σ) (i : ι) (is : List ι) :
    outputs step s (i :: is) = (step s i).2 :: outputs step (step s i).1 is := rfl

@[simp] theorem emitted_nil (s : σ) : emitted step s [] = [] := rfl

@[simp] theorem emitted_cons (s : σ) (i : ι) (is : List ι) :
    emitted step s (i :: is) = (step s i).2 ++ emitted step (step s i).1 is := rfl

theorem final_append (s : σ) (is js : List ι) :
    final step s (is ++ js) = final step (final step s is) js := by
  induction is generalizing s with
  | nil => rfl
  | cons i is ih => exact ih _

theorem final_take_succ (s : σ) (is : List ι) {k : ℕ} {i : ι} (hi : is[k]? = some i) :
    final step s (is.take (k + 1)) = (step (final step s (is.take k)) i).1 := by
  rw [List.take_add_one, hi, final_append]
  rfl

theorem final_take_succ_of_none (s : σ) (is : List ι) {k : ℕ} (hi : is[k]? = none) :
    final step s (is.take (k + 1)) = final step s (is.take k) := by
  rw [List.take_add_one, hi, Option.toList_none, List.append_nil]

theorem outputs_concat (s : σ) (is : List ι) (i : ι) :
    outputs step s (is ++ [i]) = outputs step s is ++ [(step (final step s is) i).2] := by
  induction is generalizing s with
  | nil => rfl
  | cons j is ih => rw [List.cons_append, outputs_cons, outputs_cons, ih, List.cons_append, final_cons]

/-- The `k`-th step of a run starts in the state the first `k` inputs lead to. -/
theorem outputs_getElem? (s : σ) (is : List ι) (k : ℕ) :
    (outputs step s is)[k]? = is[k]?.map fun i => (step (final step s (is.take k)) i).2 := by
  induction is generalizing s k with
  | nil => simp
  | cons i is ih =>
    cases k with
    | zero => simp
    | succ k => simpa using ih (step s i).1 k

theorem mem_emitted_iff (s : σ) (is : List ι) {x : ω} :
    x ∈ emitted step s is ↔ ∃ k i, is[k]? = some i ∧ x ∈ (step (final step s (is.take k)) i).2 := by
  rw [emitted, List.mem_flatten]
  constructor
  · rintro ⟨out, hout, hx⟩
    obtain ⟨k, hk⟩ := List.mem_iff_getElem?.1 hout
    rw [outputs_getElem?, Option.map_eq_some_iff] at hk
    obtain ⟨i, hi, rfl⟩ := hk
    exact ⟨k, i, hi, hx⟩
  · rintro ⟨k, i, hi, hx⟩
    refine ⟨_, List.mem_iff_getElem?.2 ⟨k, ?_⟩, hx⟩
    rw [outputs_getElem?, hi, Option.map_some]

/-- A property of all that a run puts out is one of what each of its steps puts out. -/
theorem forall_mem_emitted_iff (s : σ) (is : List ι) {Q : ω → Prop} :
    (∀ x ∈ emitted step s is, Q x) ↔
      ∀ k i, is[k]? = some i → ∀ x ∈ (step (final step s (is.take k)) i).2, Q x := by
  simp only [mem_emitted_iff]
  constructor
  · intro h k i hi x hx
    exact h x ⟨k, i, hi, hx⟩
  · rintro h x ⟨k, i, hi, hx⟩
    exact h k i hi x hx

/-- A property that every step on an input of the run preserves holds where the run ends. -/
theorem final_induction {P : σ → Prop} {s : σ} {is : List ι} (h0 : P s)
    (hstep : ∀ s, ∀ i ∈ is, P s → P (step s i).1) : P (final step s is) := by
  induction is generalizing s with
  | nil => exact h0
  | cons i is ih =>
    refine ih (hstep s i List.mem_cons_self h0) fun s j hj => ?_
    exact hstep s j (List.mem_cons_of_mem i hj)

/-- A property that each step of this run preserves holds after every part of it. -/
theorem final_take_induction {P : σ → Prop} {s : σ} {is : List ι} (h0 : P s)
    (hstep : ∀ k i, is[k]? = some i → P (final step s (is.take k)) →
      P (step (final step s (is.take k)) i).1) (k : ℕ) : P (final step s (is.take k)) := by
  induction k with
  | zero => exact h0
  | succ k ih =>
    cases hi : is[k]? with
    | none => rwa [final_take_succ_of_none _ _ _ hi]
    | some i =>
      rw [final_take_succ _ _ _ hi]
      exact hstep k i hi ih

/-- What every step of a run puts out satisfies `Q`, if steps from states with `P` preserve `P` and
put out lists with `Q`. -/
theorem outputs_induction {P : σ → Prop} {Q : List ω → Prop} {s : σ} {is : List ι} (h0 : P s)
    (hstep : ∀ s, ∀ i ∈ is, P s → P (step s i).1 ∧ Q (step s i).2) :
    ∀ out ∈ outputs step s is, Q out := by
  induction is generalizing s with
  | nil => simp
  | cons i is ih =>
    have hi := hstep s i List.mem_cons_self h0
    intro out hout
    rcases List.mem_cons.1 hout with rfl | hout
    · exact hi.2
    · exact ih hi.1 (fun s j hj => hstep s j (List.mem_cons_of_mem i hj)) out hout

/-- An observation of the state that every step sets from its input alone shows the last input. -/
theorem observe_final {α : Type*} (obs : σ → α) (f : ι → α)
    (hstep : ∀ s i, obs (step s i).1 = f i) (s : σ) (is : List ι) :
    obs (final step s is) = is.getLast?.elim (obs s) f := by
  rcases List.eq_nil_or_concat is with rfl | ⟨js, j, rfl⟩
  · rfl
  · rw [List.concat_eq_append, final_append]
    simp [hstep]

/-- A flag that every step sets from its input and that is down at the start is up before each input
that would raise it exactly when no input would. -/
theorem forall_raised_iff (flag : σ → Bool) (p : ι → Bool) (hstep : ∀ s i, flag (step s i).1 = p i)
    {s : σ} (hs : flag s = false) (is : List ι) :
    (∀ k i, is[k]? = some i → p i = true → flag (final step s (is.take k)) = true) ↔
      ∀ i ∈ is, p i = false := by
  constructor
  · intro h
    induction is generalizing s with
    | nil => simp
    | cons i is ih =>
      have hi : p i = false := by
        by_contra hraised
        have hup := h 0 i rfl (by simpa using hraised)
        rw [List.take_zero, final_nil, hs] at hup
        cases hup
      rw [List.forall_mem_cons]
      exact ⟨hi, ih ((hstep s i).trans hi) fun k j hj => h (k + 1) j hj⟩
  · intro h k i hi hraised
    rw [h i (List.mem_of_getElem? hi)] at hraised
    cases hraised

/-- It is down before each input that would lower it exactly when no input that raises it comes right
before one that would lower it. -/
theorem forall_lowered_iff (flag : σ → Bool) (p : ι → Bool) (hstep : ∀ s i, flag (step s i).1 = p i)
    {s : σ} (hs : flag s = false) (is : List ι) :
    (∀ k i, is[k]? = some i → p i = false → flag (final step s (is.take k)) = false) ↔
      ∀ k i j, is[k]? = some i → is[k + 1]? = some j → p i = true → p j = true := by
  have hflag : ∀ k i, is[k]? = some i → flag (final step s (is.take (k + 1))) = p i := by
    intro k i hi
    rw [final_take_succ _ _ _ hi, hstep]
  constructor
  · intro h k i j hi hj hraised
    by_contra hlowered
    have hdown := h (k + 1) j hj (by simpa using hlowered)
    rw [hflag k i hi, hraised] at hdown
    cases hdown
  · intro h k j hj hlowered
    cases k with
    | zero => exact hs
    | succ k =>
      obtain ⟨i, hi⟩ : ∃ i, is[k]? = some i := by
        have hlt := (List.getElem?_eq_some_iff.1 hj).1
        exact ⟨_, List.getElem?_eq_getElem (by omega)⟩
      rw [hflag k i hi]
      by_contra hraised
      rw [h k i j hi hj (by simpa using hraised)] at hlowered
      cases hlowered

/-- After every part of a run a counter has grown by a measure of that part exactly when each step adds
to the counter what it adds to the measure. -/
theorem forall_count_eq_iff (counter : σ → ℕ) (measure : ℕ → ℕ) (s : σ) (is : List ι)
    (hzero : measure 0 = 0) (hend : ∀ k, is[k]? = none → measure (k + 1) = measure k) :
    (∀ k, counter (final step s (is.take k)) = counter s + measure k) ↔
      ∀ k i, is[k]? = some i →
        counter (step (final step s (is.take k)) i).1 + measure k =
          counter (final step s (is.take k)) + measure (k + 1) := by
  constructor
  · intro h k i hi
    have hafter := h (k + 1)
    rw [final_take_succ _ _ _ hi] at hafter
    rw [hafter, h k, Nat.add_right_comm]
  · intro h k
    induction k with
    | zero => rw [List.take_zero, final_nil, hzero, Nat.add_zero]
    | succ k ih =>
      cases hi : is[k]? with
      | none => rw [final_take_succ_of_none _ _ _ hi, ih, hend k hi]
      | some i =>
        have hstep := h k i hi
        rw [final_take_succ _ _ _ hi]
        omega

/-- A machine with the values that its steps set as outputs. -/
def setting {α : Type*} (step : σ → ι → σ × List ω) (sets : σ → ι → Option α) :
    σ → ι → σ × List α :=
  fun s i => ((step s i).1, (sets s i).toList)

/-- A register that each step sets or leaves, from states with an invariant, holds the last value that
is set. -/
theorem register_final {α : Type*} {P : σ → Prop} (hkeep : ∀ s i, P s → P (step s i).1)
    (reg : σ → Option α) (sets : σ → ι → Option α)
    (hstep : ∀ s i, P s → reg (step s i).1 = (sets s i).or (reg s)) {s : σ} (hs : P s)
    (is : List ι) :
    reg (final step s is) = (emitted (setting step sets) s is).getLast?.or (reg s) := by
  induction is generalizing s with
  | nil => rfl
  | cons i is ih =>
    have hlast : (sets s i).toList.getLast? = sets s i := by cases sets s i <;> rfl
    rw [final_cons, ih (hkeep s i hs), hstep s i hs, emitted_cons, List.getLast?_append,
      Option.or_assoc]
    show _ = (emitted (setting step sets) (step s i).1 is).getLast?.or
      ((sets s i).toList.getLast?.or (reg s))
    rw [hlast]

/-- What a run puts out that counts is paid for by the inputs that pay and by the potential of the
state, if every step pays for itself. -/
theorem countP_emitted_le (potential : σ → ℕ) (pays : ι → Bool) (counts : ω → Bool)
    (hstep : ∀ s i, (step s i).2.countP counts + potential (step s i).1 ≤
      potential s + [i].countP pays) (s : σ) (is : List ι) :
    (emitted step s is).countP counts + potential (final step s is) ≤
      potential s + is.countP pays := by
  induction is generalizing s with
  | nil => simp
  | cons i is ih =>
    have hhead := hstep s i
    have hrest := ih (step s i).1
    rw [emitted_cons, List.countP_append, final_cons, ← List.singleton_append, List.countP_append]
    omega

theorem emitted_take_succ (s : σ) (is : List ι) {k : ℕ} {i : ι} (hi : is[k]? = some i) :
    emitted step s (is.take (k + 1)) =
      emitted step s (is.take k) ++ (step (final step s (is.take k)) i).2 := by
  rw [List.take_add_one, hi, Option.toList_some, emitted, outputs_concat, List.flatten_append,
    List.flatten_singleton, emitted]

/-- Reading the inputs through a function first is running on the translated inputs. -/
theorem emitted_map {κ : Type*} (f : κ → ι) (s : σ) (is : List κ) :
    emitted step s (is.map f) = emitted (fun s i => step s (f i)) s is := by
  induction is generalizing s with
  | nil => rfl
  | cons i is ih => simp [ih]

/-- What is seen of a machine is a machine of its own, if it is one in every step. -/
theorem final_of_seen {κ : Type*} {step' : τ → κ → τ × List υ} (seen : σ → τ) (f : ι → κ)
    (hstep : ∀ s i, seen (step s i).1 = (step' (seen s) (f i)).1) (s : σ) (is : List ι) :
    seen (final step s is) = final step' (seen s) (is.map f) := by
  induction is generalizing s with
  | nil => rfl
  | cons i is ih =>
    rw [final_cons, ih, hstep, List.map_cons, final_cons]

end Runs

/-- Two machines run on the same inputs, with related states at the start and at every step, put
out lists related by `f` at every step, and end in related states. -/
theorem outputs_of_simulation {step : σ → ι → σ × List ω} {step' : τ → ι → τ × List υ}
    (R : σ → τ → Prop) (f : List ω → List υ) (is : List ι)
    (hstep : ∀ s t, ∀ i ∈ is, R s t → R (step s i).1 (step' t i).1 ∧ (step' t i).2 = f (step s i).2)
    {s : σ} {t : τ} (h0 : R s t) :
    outputs step' t is = (outputs step s is).map f ∧ R (final step s is) (final step' t is) := by
  induction is generalizing s t with
  | nil => exact ⟨rfl, h0⟩
  | cons i is ih =>
    have hi := hstep s t i List.mem_cons_self h0
    have hrest := ih (fun s t j hj => hstep s t j (List.mem_cons_of_mem i hj)) hi.1
    refine ⟨?_, hrest.2⟩
    rw [outputs_cons, outputs_cons, List.map_cons, hi.2, hrest.1]

/-- If each step of the second machine puts out what `g` selects of the first machine's outputs, so
does the whole run. -/
theorem emitted_of_simulation {step : σ → ι → σ × List ω} {step' : τ → ι → τ × List υ}
    (R : σ → τ → Prop) (g : ω → Option υ)
    (hstep : ∀ s t i, R s t →
      R (step s i).1 (step' t i).1 ∧ (step' t i).2 = (step s i).2.filterMap g)
    {s : σ} {t : τ} (h0 : R s t) (is : List ι) :
    emitted step' t is = (emitted step s is).filterMap g := by
  have h := (outputs_of_simulation R (List.filterMap g) is (fun s t i _ => hstep s t i) h0).1
  rw [emitted, h, emitted, List.filterMap_flatten]

end Machine
