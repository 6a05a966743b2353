import StellarFeeTracker.General.Machine

/-!
# Episodes of a condition

A monitor reads, tick after tick, a label while a condition holds and `none` while it does not.  It
announces the label with which the condition begins to hold (`opened`) and, when the condition
ceases, the last label it read (`closed`).

* `alternates_emitted`: the announcements alternate, starting with `opened`.
* `closedMatchesOpened_emitted_iff`: every `closed` carries the label of the `opened` before it if
  and only if every episode that ends, ends with the label it began with.
-/

namespace Episode

variable {α β : Type*}

/-- What the monitor announces. -/
inductive Edge (α : Type*) where
  | opened (a : α)
  | closed (a : α)
  deriving DecidableEq

/-- One tick of the monitor; the state is the label of the running episode. -/
def step : Option α → Option α → Option α × List (Edge α)
  | none, some a => (some a, [.opened a])
  | some _, some b => (some b, [])
  | some a, none => (none, [.closed a])
  | none, none => (none, [])

theorem step_fst (active input : Option α) : (step active input).1 = input := by
  cases active <;> cases input <;> rfl

/-! ## The announcements alternate -/

/-- A list that alternates between `a` and `b`, starting with `a`. -/
def Alternates (a b : β) : List β → Prop
  | [] => True
  | x :: xs => x = a ∧ Alternates b a xs

/-- The name of an announcement. -/
def Edge.name (o c : β) : Edge α → β
  | .opened _ => o
  | .closed _ => c

/-- While an episode runs the next announcement is `closed`, otherwise it is `opened`. -/
theorem alternates_emitted_from (o c : β) (active : Option α) (is : List (Option α)) :
    if active.isSome then Alternates c o ((Machine.emitted step active is).map (Edge.name o c))
    else Alternates o c ((Machine.emitted step active is).map (Edge.name o c)) := by
  induction is generalizing active with
  | nil => cases active <;> trivial
  | cons i is ih =>
    have hrest := ih i
    rw [Machine.emitted_cons, step_fst]
    cases active <;> cases i
    case none.none => exact hrest
    case none.some => exact ⟨rfl, hrest⟩
    case some.none => exact ⟨rfl, hrest⟩
    case some.some => exact hrest

theorem alternates_emitted (o c : β) (is : List (Option α)) :
    Alternates o c ((Machine.emitted step none is).map (Edge.name o c)) :=
  alternates_emitted_from o c none is

/-! ## Which label an episode is closed with -/

/-- The label of the latest `opened`. -/
def lastOpened (l : List (Edge α)) : Option α :=
  (l.filterMap fun
    | .opened a => some a
    | .closed _ => none).getLast?

/-- Every `closed` carries the label of the latest `opened` before it. -/
def ClosedMatchesOpened (l : List (Edge α)) : Prop :=
  ∀ pre b post, l = pre ++ .closed b :: post → lastOpened pre = some b

/-- Every episode that ends, ends with the label it began with.  The inputs are cut at the ticks
without the condition; the last piece has not ended. -/
def EpisodesReturn (is : List (Option α)) : Prop :=
  ∀ episode ∈ (is.splitOnP Option.isNone).dropLast, episode.head? = episode.getLast?

instance [DecidableEq α] (is : List (Option α)) : Decidable (EpisodesReturn is) :=
  inferInstanceAs (Decidable (∀ episode ∈ (is.splitOnP Option.isNone).dropLast,
    episode.head? = episode.getLast?))

/-- `ClosedMatchesOpened` read from the left, `announced` being the latest label announced. -/
def MatchesFrom (announced : Option α) : List (Edge α) → Prop
  | [] => True
  | .opened a :: l => MatchesFrom (some a) l
  | .closed b :: l => announced = some b ∧ MatchesFrom announced l

theorem lastOpened_opened_cons (a : α) (l : List (Edge α)) :
    lastOpened (.opened a :: l) = (lastOpened l).or (some a) := by
  simp only [lastOpened, List.filterMap_cons, List.getLast?_cons]
  cases (l.filterMap _).getLast? <;> rfl

theorem lastOpened_closed_cons (a : α) (l : List (Edge α)) :
    lastOpened (.closed a :: l) = lastOpened l := rfl

theorem matchesFrom_iff (announced : Option α) (l : List (Edge α)) :
    MatchesFrom announced l ↔
      ∀ pre b post, l = pre ++ .closed b :: post → (lastOpened pre).or announced = some b := by
  induction l generalizing announced with
  | nil =>
    refine iff_of_true trivial fun pre b post h => ?_
    simp at h
  | cons e l ih =>
    constructor
    · intro h pre b post hl
      rcases pre with _ | ⟨e', pre⟩
      · obtain ⟨rfl, -⟩ := List.cons.inj hl
        exact h.1
      · obtain ⟨rfl, hpost⟩ := List.cons.inj hl
        cases e with
        | opened a =>
          rw [lastOpened_opened_cons, Option.or_assoc]
          exact (ih (some a)).1 h pre b post hpost
        | closed a =>
          rw [lastOpened_closed_cons]
          exact (ih announced).1 h.2 pre b post hpost
    · intro h
      cases e with
      | opened a =>
        refine (ih (some a)).2 fun pre b post hl => ?_
        have := h (.opened a :: pre) b post (by rw [hl]; rfl)
        rwa [lastOpened_opened_cons, Option.or_assoc] at this
      | closed a =>
        refine ⟨h [] a l rfl, (ih announced).2 fun pre b post hl => ?_⟩
        have := h (.closed a :: pre) b post (by rw [hl]; rfl)
        rwa [lastOpened_closed_cons] at this

theorem closedMatchesOpened_iff (l : List (Edge α)) :
    ClosedMatchesOpened l ↔ MatchesFrom none l := by
  simp only [matchesFrom_iff, ClosedMatchesOpened, Option.or_none]

theorem episodesReturn_map_some (episode : List α) : EpisodesReturn (episode.map some) := by
  have h : (episode.map some).splitOnP Option.isNone = [episode.map some] := by
    rw [List.splitOnP_eq_singleton]
    simp
  intro e he
  rw [h] at he
  simp at he

theorem episodesReturn_append_none (episode : List α) (is : List (Option α)) :
    EpisodesReturn (episode.map some ++ none :: is) ↔
      episode.head? = episode.getLast? ∧ EpisodesReturn is := by
  have h : (episode.map some ++ none :: is).splitOnP Option.isNone =
      episode.map some :: is.splitOnP Option.isNone :=
    List.splitOnP_append_cons_of_forall_mem (by simp) _ rfl _
  unfold EpisodesReturn
  rw [h, List.dropLast_cons_of_ne_nil (List.splitOnP_ne_nil _ _)]
  simp only [List.mem_cons, forall_eq_or_imp, List.head?_map, List.getLast?_map]
  refine and_congr ?_ Iff.rfl
  cases episode.head? <;> cases episode.getLast? <;> simp

/-- The invariant of the monitor: the running episode is the list of labels read since it was
announced. -/
theorem matchesFrom_emitted_iff (announced : Option α) (episode : List α)
    (h : episode ≠ [] → announced = episode.head?) (is : List (Option α)) :
    MatchesFrom announced (Machine.emitted step episode.getLast? is) ↔
      EpisodesReturn (episode.map some ++ is) := by
  induction is generalizing announced episode with
  | nil =>
    rw [List.append_nil]
    exact iff_of_true trivial (episodesReturn_map_some episode)
  | cons i is ih =>
    rw [Machine.emitted_cons, step_fst]
    rcases List.eq_nil_or_concat' episode with rfl | ⟨init, last, rfl⟩
    · cases i with
      | none =>
        have hrest := ih announced [] (by simp)
        rw [episodesReturn_append_none]
        simpa [step] using hrest
      | some a => exact ih (some a) [a] fun _ => rfl
    · have hannounced := h (by simp)
      cases i with
      | none =>
        rw [episodesReturn_append_none, List.getLast?_concat]
        refine and_congr ?_ (ih announced [] (by simp))
        rw [hannounced]
      | some a =>
        have hfirst : announced = ((init ++ [last]) ++ [a]).head? := by
          rw [hannounced]
          cases init <;> rfl
        have := ih announced ((init ++ [last]) ++ [a]) fun _ => hfirst
        rw [List.getLast?_concat, List.map_append, List.append_assoc] at this
        rw [List.getLast?_concat]
        exact this

/-- An episode is closed with the label it was announced with if and only if it returns to it. -/
theorem closedMatchesOpened_emitted_iff (is : List (Option α)) :
    ClosedMatchesOpened (Machine.emitted step none is) ↔ EpisodesReturn is := by
  rw [closedMatchesOpened_iff]
  exact matchesFrom_emitted_iff none [] (by simp) is

/-! ## Labels read through a function -/

/-- The same in a list of events of any kind, some of which `f` reads as announcements. -/
theorem closedMatchesOpened_filterMap_iff {γ : Type*} (f : γ → Option (Edge α)) (l : List γ) :
    ClosedMatchesOpened (l.filterMap f) ↔
      ∀ pre r post b, l = pre ++ r :: post → f r = some (.closed b) →
        lastOpened (pre.filterMap f) = some b := by
  constructor
  · rintro h pre r post b rfl hr
    refine h (pre.filterMap f) b (post.filterMap f) ?_
    rw [List.filterMap_append, List.filterMap_cons_some hr]
  · intro h pre b post hl
    obtain ⟨l₁, l₂, rfl, hpre, hrest⟩ := List.filterMap_eq_append_iff.1 hl
    obtain ⟨l₃, r, l₄, rfl, hnone, hr, -⟩ := List.filterMap_eq_cons_iff.1 hrest
    have := h (l₁ ++ l₃) r l₄ b (List.append_assoc ..).symm hr
    rwa [List.filterMap_append, List.filterMap_eq_nil_iff.2 hnone, List.append_nil, hpre] at this

theorem splitOnP_isNone_map (f : α → β) (is : List (Option α)) :
    (is.map (Option.map f)).splitOnP Option.isNone =
      (is.splitOnP Option.isNone).map (List.map (Option.map f)) := by
  induction is with
  | nil => rfl
  | cons i is ih =>
    rw [List.map_cons, List.splitOnP_cons_eq_if_modifyHead, List.splitOnP_cons_eq_if_modifyHead,
      ih, Option.isNone_map]
    split_ifs
    · rfl
    · cases is.splitOnP Option.isNone <;> rfl

/-- An injective renaming of the labels does not change which episodes return. -/
theorem episodesReturn_map_iff {f : α → β} (hf : Function.Injective f) (is : List (Option α)) :
    EpisodesReturn (is.map (Option.map f)) ↔ EpisodesReturn is := by
  unfold EpisodesReturn
  rw [splitOnP_isNone_map, ← List.map_dropLast]
  simp only [List.forall_mem_map, List.head?_map, List.getLast?_map]
  refine forall₂_congr fun episode _ => ?_
  exact (Option.map_injective (Option.map_injective hf)).eq_iff

/-! ## Reports within an episode -/

/-- A position at which the condition begins to hold. -/
def Begins (condition : ℕ → Prop) (j : ℕ) : Prop := condition j ∧ ∀ i, j = i + 1 → ¬ condition i

/-- Up to each position at which the condition holds it has been reported in its current episode
exactly when it is reported wherever it begins. -/
theorem forall_reported_iff (condition reported : ℕ → Prop) :
    (∀ j, condition j → ∃ i ≤ j, (∀ k, i ≤ k → k ≤ j → condition k) ∧ reported i) ↔
      ∀ j, Begins condition j → reported j := by
  constructor
  · rintro h j ⟨hj, hfirst⟩
    obtain ⟨i, hij, hepisode, hreported⟩ := h j hj
    rcases hij.eq_or_lt with rfl | hlt
    · exact hreported
    · have hbefore : condition (j - 1) := hepisode (j - 1) (by omega) (by omega)
      exact absurd hbefore (hfirst (j - 1) (by omega))
  · intro h j
    induction j with
    | zero =>
      intro hj
      refine ⟨0, le_refl 0, fun k _ hk => ?_, h 0 ⟨hj, fun i hi => by omega⟩⟩
      rwa [Nat.le_zero.1 hk]
    | succ j ih =>
      intro hj
      by_cases hbefore : condition j
      · obtain ⟨i, hij, hepisode, hreported⟩ := ih hbefore
        refine ⟨i, by omega, fun k hik hkj => ?_, hreported⟩
        rcases hkj.eq_or_lt with rfl | hlt
        · exact hj
        · exact hepisode k hik (by omega)
      · have hbegins : Begins condition (j + 1) := by
          refine ⟨hj, fun i hi => ?_⟩
          rwa [← Nat.succ.inj hi]
        refine ⟨j + 1, le_refl _, fun k hk hkj => ?_, h _ hbegins⟩
        rwa [le_antisymm hkj hk]

end Episode
