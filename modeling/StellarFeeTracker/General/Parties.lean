import Mathlib.Algebra.BigOperators.Group.List.Basic
import Mathlib.Algebra.GroupWithZero.Nat
import StellarFeeTracker.General.Machine

/-!
# Parties acting on a shared state

Any number of parties enter one after the other and then act in any order, each act reading and
writing the shared state and the state of the party that acts.  A schedule is a list of events.

* `final_induction`: what entering and every act preserve, every schedule preserves.
* `countP_set_add`, `sum_map_set_add`: what an act changes of a count over the parties, and of a sum.
* `filterMap_set_perm`: what an act adds to the reports of the parties.
-/

namespace Parties

variable {σ α κ δ ω : Type*}

structure System (σ α : Type*) where
  shared : σ
  parties : List α
  deriving DecidableEq, Repr

/-- A party of a kind enters, or party `k` acts on an input. -/
inductive Event (κ δ : Type*) where
  | enter (kind : κ)
  | act (k : ℕ) (input : δ)
  deriving DecidableEq, Repr

section Step

variable (start : κ → α) (act : σ → α → δ → (σ × α) × List ω)

/-- An event of the schedule.  The act of a party that has not entered changes nothing. -/
def step (s : System σ α) : Event κ δ → System σ α × List ω
  | .enter kind => ({ s with parties := s.parties ++ [start kind] }, [])
  | .act k input =>
    match s.parties[k]? with
    | none => (s, [])
    | some party =>
      ({ shared := (act s.shared party input).1.1
         parties := s.parties.set k (act s.shared party input).1.2 },
        (act s.shared party input).2)

variable {start act}

theorem step_act {s : System σ α} {k : ℕ} {party : α} (hk : s.parties[k]? = some party)
    (input : δ) :
    step start act s (.act k input) =
      ({ shared := (act s.shared party input).1.1
         parties := s.parties.set k (act s.shared party input).1.2 },
        (act s.shared party input).2) := by
  simp [step, hk]

/-- An event preserves what entering and the acts of parties that have entered preserve. -/
theorem step_induction {P : System σ α → Prop} {s : System σ α} (event : Event κ δ) (h : P s)
    (henter : ∀ kind, P { s with parties := s.parties ++ [start kind] })
    (hact : ∀ k party input, s.parties[k]? = some party →
      P { shared := (act s.shared party input).1.1
          parties := s.parties.set k (act s.shared party input).1.2 }) :
    P (step start act s event).1 := by
  cases event with
  | enter kind => exact henter kind
  | act k input =>
    cases hk : s.parties[k]? with
    | none => simpa [step, hk] using h
    | some party =>
      rw [step_act hk]
      exact hact k party input hk

/-- Where the state of a party after an event comes from: it was the same before, the party acted, or
the party entered. -/
theorem getElem?_step {s : System σ α} {event : Event κ δ} {k : ℕ} {b : α}
    (h : (step start act s event).1.parties[k]? = some b) :
    s.parties[k]? = some b ∨
      (∃ input a, event = .act k input ∧ s.parties[k]? = some a ∧
        b = (act s.shared a input).1.2) ∨
      ∃ kind, event = .enter kind ∧ b = start kind := by
  cases event with
  | enter kind =>
    dsimp only [step] at h
    rw [List.getElem?_append] at h
    split at h
    · exact .inl h
    · rw [List.getElem?_singleton] at h
      split at h
      · exact .inr (.inr ⟨kind, rfl, (Option.some.inj h).symm⟩)
      · cases h
  | act k' input =>
    cases hk : s.parties[k']? with
    | none =>
      rw [step, hk] at h
      exact .inl h
    | some a =>
      rw [step_act hk] at h
      by_cases hkk : k' = k
      · subst hkk
        rw [List.getElem?_set_self (List.getElem?_eq_some_iff.1 hk).1] at h
        exact .inr (.inl ⟨input, a, rfl, hk, (Option.some.inj h).symm⟩)
      · rw [List.getElem?_set_ne hkk] at h
        exact .inl h

/-- What entering and every act preserve holds after every schedule. -/
theorem final_induction {P : System σ α → Prop} {s : System σ α} (events : List (Event κ δ))
    (h0 : P s)
    (henter : ∀ s kind, P s → P { s with parties := s.parties ++ [start kind] })
    (hact : ∀ s k party input, P s → s.parties[k]? = some party →
      P { shared := (act s.shared party input).1.1
          parties := s.parties.set k (act s.shared party input).1.2 }) :
    P (Machine.final (step start act) s events) :=
  Machine.final_induction _ h0 fun s event _ h =>
    step_induction event h (fun kind => henter s kind h) fun k party input => hact s k party input h

end Step

/-! ## Counts and sums over the parties -/

variable {parties : List α} {k : ℕ} {a : α}

theorem sum_map_set_add (w : α → ℕ) (hk : parties[k]? = some a) (b : α) :
    ((parties.set k b).map w).sum + w a = (parties.map w).sum + w b := by
  induction parties generalizing k with
  | nil => simp at hk
  | cons c parties ih =>
    cases k with
    | zero =>
      obtain rfl : c = a := by simpa using hk
      simp only [List.set_cons_zero, List.map_cons, List.sum_cons]
      omega
    | succ k =>
      have := ih (k := k) (by simpa using hk)
      simp only [List.set_cons_succ, List.map_cons, List.sum_cons]
      omega

theorem countP_set_add (p : α → Bool) (hk : parties[k]? = some a) (b : α) :
    (parties.set k b).countP p + (if p a then 1 else 0) =
      parties.countP p + if p b then 1 else 0 := by
  obtain ⟨hlt, rfl⟩ := List.getElem?_eq_some_iff.1 hk
  have hpos : p parties[k] = true → 0 < parties.countP p := fun h =>
    List.countP_pos_iff.2 ⟨_, List.getElem_mem hlt, h⟩
  rw [List.countP_set hlt]
  by_cases h : p parties[k] = true
  · have := hpos h
    simp only [h, if_true]
    omega
  · simp [h]

theorem set_of_getElem? (hk : parties[k]? = some a) : parties.set k a = parties := by
  obtain ⟨hlt, rfl⟩ := List.getElem?_eq_some_iff.1 hk
  exact List.set_getElem_self hlt

/-- The others are where they were after an act. -/
theorem mem_set_or_eq (hk : parties[k]? = some a) (b : α) {c : α} (hc : c ∈ parties) :
    c ∈ parties.set k b ∨ c = a := by
  obtain ⟨i, hi⟩ := List.mem_iff_getElem?.1 hc
  by_cases hik : k = i
  · subst hik
    exact .inr (Option.some.inj (hi.symm.trans hk))
  · exact .inl (List.mem_of_getElem? ((List.getElem?_set_ne hik).trans hi))

theorem mem_set_self (hk : parties[k]? = some a) (b : α) : b ∈ parties.set k b :=
  List.mem_set (List.getElem?_eq_some_iff.1 hk).1 b

/-- An act that reports what was reported before leaves the reports as they are. -/
theorem filterMap_set {f : α → Option ω} (hk : parties[k]? = some a) {b : α} (hab : f b = f a) :
    (parties.set k b).filterMap f = parties.filterMap f := by
  induction parties generalizing k with
  | nil => rfl
  | cons c parties ih =>
    cases k with
    | zero =>
      obtain rfl : c = a := by simpa using hk
      rw [List.set_cons_zero, List.filterMap_cons, List.filterMap_cons, hab]
    | succ k =>
      rw [List.set_cons_succ, List.filterMap_cons, List.filterMap_cons, ih (by simpa using hk)]

/-- An act with which a party makes its report adds the report. -/
theorem filterMap_set_perm {f : α → Option ω} (hk : parties[k]? = some a) {b : α} {x : ω}
    (ha : f a = none) (hb : f b = some x) :
    ((parties.set k b).filterMap f).Perm (x :: parties.filterMap f) := by
  induction parties generalizing k with
  | nil => simp at hk
  | cons c parties ih =>
    cases k with
    | zero =>
      obtain rfl : c = a := by simpa using hk
      rw [List.set_cons_zero, List.filterMap_cons, List.filterMap_cons, ha, hb]
    | succ k =>
      have hrest := ih (k := k) (by simpa using hk)
      rw [List.set_cons_succ, List.filterMap_cons, List.filterMap_cons]
      cases f c with
      | none => exact hrest
      | some y => exact (hrest.cons y).trans (List.Perm.swap x y _)

/-- A party that is counted keeps the count positive. -/
theorem countP_pos_of_getElem? {p : α → Bool} (hk : parties[k]? = some a) (ha : p a = true) :
    0 < parties.countP p :=
  List.countP_pos_iff.2 ⟨a, List.mem_of_getElem? hk, ha⟩

/-- A count of at most one is that of one party. -/
theorem eq_of_countP_le_one {p : α → Bool} {i j : ℕ} {b : α} (h : parties.countP p ≤ 1)
    (hi : parties[i]? = some a) (hj : parties[j]? = some b) (ha : p a = true) (hb : p b = true) :
    i = j := by
  induction parties generalizing i j with
  | nil => simp at hi
  | cons c parties ih =>
    rw [List.countP_cons] at h
    cases i with
    | zero =>
      cases j with
      | zero => rfl
      | succ j =>
        have hpos : 0 < parties.countP p := countP_pos_of_getElem? hj hb
        obtain rfl : c = a := Option.some.inj hi
        rw [if_pos ha] at h
        omega
    | succ i =>
      cases j with
      | zero =>
        have hpos : 0 < parties.countP p := countP_pos_of_getElem? hi ha
        obtain rfl : c = b := Option.some.inj hj
        rw [if_pos hb] at h
        omega
      | succ j => exact congrArg _ (ih (by omega) hi hj)

end Parties
