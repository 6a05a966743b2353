import StellarFeeTracker.General.Parties

/-!
# Bulkhead

A bulkhead admits calls while fewer than a number of them are in flight.  Calls are parties that act
on its atomic counters: a call loads `in_flight`, exchanges it for the next number, tries again when
another call was faster, and then counts itself.

`accounting` is about the permits: what `in_flight`, the peak and the counters are in every state of
every schedule.  `concurrencyBounded_iff` is about `execute`, which drops its permit before it runs
the operation: the operations running at once stay within the bound, however the admitted calls go
on, exactly when no call is admitted while as many others have not run to their end.
-/

namespace StellarFeeTracker

open Parties

/-! ## The bulkhead and its calls -/

inductive BulkheadError where
  | zeroCapacity
  | saturated (capacity : ℕ)
  deriving DecidableEq, Repr

structure Bulkhead where
  maxConcurrent : ℕ
  inFlight : ℕ
  peakInFlight : ℕ
  admitted : ℕ
  rejected : ℕ
  deriving DecidableEq, Repr

namespace Bulkhead

def new (maxConcurrent : ℕ) : Except BulkheadError Bulkhead :=
  if maxConcurrent = 0 then .error .zeroCapacity
  else .ok { maxConcurrent, inFlight := 0, peakInFlight := 0, admitted := 0, rejected := 0 }

/-- `fetch_add(1)` on a counter of 64 bits, which wraps around. -/
def fetchAdd (counter : ℕ) : ℕ := (counter + 1) % 2 ^ 64

/-- `fetch_sub(1)`, which wraps around at zero. -/
def fetchSub (counter : ℕ) : ℕ := if counter = 0 then 2 ^ 64 - 1 else counter - 1

/-- What is called: `try_acquire`, whose caller holds the permit until it drops it, or `execute`. -/
inductive CallKind where
  | tryAcquire
  | execute
  deriving DecidableEq, Repr

/-- How far a call is; `current` is its variable of the compare-exchange loop. -/
inductive Progress where
  | called
  | comparing (current : ℕ)
  | refused
  | exchanged (current : ℕ)
  | counted (current : ℕ)
  | holding
  | dropped
  | running
  | returned
  deriving DecidableEq, Repr

structure Call where
  kind : CallKind
  progress : Progress
  deriving DecidableEq, Repr

def Call.start (kind : CallKind) : Call := { kind, progress := .called }

def Call.goTo (call : Call) (progress : Progress) : Call := { call with progress }

/-- The next atomic step of a call.  The weak exchange may fail although the counter is `current`.
Where `try_acquire` returns, the step puts out its result. -/
def act (bulkhead : Bulkhead) (call : Call) (spurious : Bool) :
    (Bulkhead × Call) × List (Except BulkheadError Unit) :=
  match call.progress with
  | .called => ((bulkhead, call.goTo (.comparing bulkhead.inFlight)), [])
  | .comparing current =>
    if bulkhead.maxConcurrent ≤ current then
      (({ bulkhead with rejected := fetchAdd bulkhead.rejected }, call.goTo .refused),
        [.error (.saturated bulkhead.maxConcurrent)])
    else if bulkhead.inFlight = current ∧ spurious = false then
      (({ bulkhead with inFlight := current + 1 }, call.goTo (.exchanged current)), [])
    else ((bulkhead, call.goTo (.comparing bulkhead.inFlight)), [])
  | .exchanged current =>
    (({ bulkhead with admitted := fetchAdd bulkhead.admitted }, call.goTo (.counted current)), [])
  | .counted current =>
    (({ bulkhead with peakInFlight := max bulkhead.peakInFlight (current + 1) }, call.goTo .holding),
      [.ok ()])
  -- the drop of the permit; `execute` does it before it runs the operation
  | .holding =>
    (({ bulkhead with inFlight := fetchSub bulkhead.inFlight }, call.goTo .dropped), [])
  | .dropped =>
    match call.kind with
    | .tryAcquire => ((bulkhead, call), [])
    | .execute => ((bulkhead, call.goTo .running), [])
  | .running => ((bulkhead, call.goTo .returned), [])
  | .refused | .returned => ((bulkhead, call), [])

/-- A bulkhead and the calls made to it. -/
abbrev Session := System Bulkhead Call

/-- A call is made, or a call takes its next atomic step. -/
abbrev Schedule := List (Parties.Event CallKind Bool)

def step (s : Session) (event : Parties.Event CallKind Bool) :
    Session × List (Except BulkheadError Unit) :=
  Parties.step Call.start act s event

/-- The state a schedule leads a bulkhead to. -/
def final (bulkhead : Bulkhead) (schedule : Schedule) : Session :=
  Machine.final step { shared := bulkhead, parties := [] } schedule

/-! ## Permits -/

namespace Call

variable (call : Call)

/-- The call exchanged `in_flight` and has not subtracted itself again. -/
def inSlot : Bool :=
  match call.progress with
  | .exchanged _ | .counted _ | .holding => true
  | _ => false

/-- `try_acquire` returned a permit, which is not dropped. -/
def holdsPermit : Bool := call.progress = .holding

/-- The call is counted in `admitted`. -/
def isAdmitted : Bool :=
  match call.progress with
  | .counted _ | .holding | .dropped | .running | .returned => true
  | _ => false

/-- `try_acquire` returned an error. -/
def isRefused : Bool := call.progress = .refused

/-- `try_acquire` returned a permit, dropped or not. -/
def isGranted : Bool :=
  match call.progress with
  | .holding | .dropped | .running | .returned => true
  | _ => false

/-- `try_acquire` has not returned. -/
def isMidway : Bool :=
  match call.progress with
  | .called | .comparing _ | .exchanged _ | .counted _ => true
  | _ => false

/-- The number the call exchanged, if it still has to record it as a peak, is below a bound. -/
def CurrentLt (bound : ℕ) : Prop :=
  match call.progress with
  | .exchanged current | .counted current => current < bound
  | _ => True

end Call

/-- What the counters of a bulkhead say about the calls made to it. -/
structure Valid (maxConcurrent : ℕ) (s : Session) : Prop where
  max_eq : s.shared.maxConcurrent = maxConcurrent
  inFlight_eq : s.shared.inFlight = s.parties.countP Call.inSlot
  inFlight_le : s.shared.inFlight ≤ maxConcurrent
  peak_le : s.shared.peakInFlight ≤ maxConcurrent
  current_lt : ∀ call ∈ s.parties, call.CurrentLt maxConcurrent
  admitted_eq : s.shared.admitted = s.parties.countP Call.isAdmitted % 2 ^ 64
  rejected_eq : s.shared.rejected = s.parties.countP Call.isRefused % 2 ^ 64

section Valid

variable {maxConcurrent : ℕ} {bulkhead : Bulkhead} {s : Session} {k : ℕ} {call : Call}

theorem fetchSub_of_pos {counter : ℕ} (hpos : 0 < counter) : fetchSub counter = counter - 1 :=
  if_neg hpos.ne'

theorem valid_new (h : new maxConcurrent = .ok bulkhead) :
    Valid maxConcurrent { shared := bulkhead, parties := [] } := by
  unfold new at h
  split at h
  · cases h
  · cases h
    constructor <;> simp

theorem Valid.enter (h : Valid maxConcurrent s) (kind : CallKind) :
    Valid maxConcurrent { s with parties := s.parties ++ [Call.start kind] } where
  max_eq := h.max_eq
  inFlight_eq := by simpa [Call.start, Call.inSlot] using h.inFlight_eq
  inFlight_le := h.inFlight_le
  peak_le := h.peak_le
  current_lt call hcall := by
    rcases List.mem_append.1 hcall with hcall | hcall
    · exact h.current_lt call hcall
    · rw [List.mem_singleton.1 hcall]
      trivial
  admitted_eq := by simpa [Call.start, Call.isAdmitted] using h.admitted_eq
  rejected_eq := by simpa [Call.start, Call.isRefused] using h.rejected_eq

/-- A call that subtracts itself is one of those in flight. -/
theorem Valid.inFlight_pos (h : Valid maxConcurrent s) (hk : s.parties[k]? = some call)
    (hslot : call.inSlot = true) : 0 < s.shared.inFlight := by
  rw [h.inFlight_eq]
  exact countP_pos_of_getElem? hk hslot

/-- How a counter changes when one call does: not at all, or by one when the call becomes one of the
calls it counts. -/
def Counts (p : Call → Bool) (counter counter' : ℕ) (call call' : Call) : Prop :=
  counter' = counter ∧ p call' = p call ∨
    counter' = fetchAdd counter ∧ p call = false ∧ p call' = true

theorem Counts.eq_countP_set {p : Call → Bool} {parties : List Call} {counter counter' : ℕ}
    {call' : Call} (h : Counts p counter counter' call call') (hk : parties[k]? = some call)
    (heq : counter = parties.countP p % 2 ^ 64) :
    counter' = (parties.set k call').countP p % 2 ^ 64 := by
  have hset := countP_set_add p hk call'
  rcases h with ⟨rfl, hp⟩ | ⟨rfl, hp, hp'⟩
  · rw [hp] at hset
    rw [heq, Nat.add_right_cancel hset]
  · rw [hp, hp'] at hset
    have hsucc : (parties.set k call').countP p = parties.countP p + 1 := hset
    rw [hsucc, heq, fetchAdd, Nat.mod_add_mod]

/-- What one call changes of the bulkhead and of itself. -/
theorem Valid.set (h : Valid maxConcurrent s) (hk : s.parties[k]? = some call)
    {bulkhead' : Bulkhead} {call' : Call} (hmax : bulkhead'.maxConcurrent = s.shared.maxConcurrent)
    (hinFlight : bulkhead'.inFlight + (if call.inSlot then 1 else 0) =
      s.shared.inFlight + if call'.inSlot then 1 else 0)
    (hle : bulkhead'.inFlight ≤ maxConcurrent) (hpeak : bulkhead'.peakInFlight ≤ maxConcurrent)
    (hcurrent : call'.CurrentLt maxConcurrent)
    (hadmitted : Counts Call.isAdmitted s.shared.admitted bulkhead'.admitted call call')
    (hrejected : Counts Call.isRefused s.shared.rejected bulkhead'.rejected call call') :
    Valid maxConcurrent { shared := bulkhead', parties := s.parties.set k call' } where
  max_eq := hmax.trans h.max_eq
  inFlight_eq := by
    have hset := countP_set_add Call.inSlot hk call'
    have := h.inFlight_eq
    dsimp only
    omega
  inFlight_le := hle
  peak_le := hpeak
  current_lt c hc := by
    rcases List.mem_or_eq_of_mem_set hc with hc | rfl
    · exact h.current_lt c hc
    · exact hcurrent
  admitted_eq := hadmitted.eq_countP_set hk h.admitted_eq
  rejected_eq := hrejected.eq_countP_set hk h.rejected_eq

theorem Valid.act (h : Valid maxConcurrent s)
    (hk : s.parties[k]? = some call) (spurious : Bool) :
    Valid maxConcurrent
      { shared := (Bulkhead.act s.shared call spurious).1.1
        parties := s.parties.set k (Bulkhead.act s.shared call spurious).1.2 } := by
  have hcurrent := h.current_lt call (List.mem_of_getElem? hk)
  have hpos := h.inFlight_pos hk
  have hle := h.inFlight_le
  have hpeak := h.peak_le
  obtain ⟨kind, progress⟩ := call
  cases progress with
  | called => exact h.set hk rfl rfl hle hpeak trivial (.inl ⟨rfl, rfl⟩) (.inl ⟨rfl, rfl⟩)
  | comparing current =>
    simp only [Bulkhead.act]
    split
    · exact h.set hk rfl rfl hle hpeak trivial (.inl ⟨rfl, rfl⟩) (.inr ⟨rfl, rfl, rfl⟩)
    · next hlt =>
      rw [h.max_eq, not_le] at hlt
      split
      · next hexchange =>
        have hin : current + 1 = s.shared.inFlight + 1 := by rw [hexchange.1]
        exact h.set hk rfl hin hlt hpeak hlt (.inl ⟨rfl, rfl⟩) (.inl ⟨rfl, rfl⟩)
      · exact h.set hk rfl rfl hle hpeak trivial (.inl ⟨rfl, rfl⟩) (.inl ⟨rfl, rfl⟩)
  | exchanged current =>
    exact h.set hk rfl rfl hle hpeak hcurrent (.inr ⟨rfl, rfl, rfl⟩) (.inl ⟨rfl, rfl⟩)
  | counted current =>
    exact h.set hk rfl rfl hle (max_le hpeak hcurrent) trivial (.inl ⟨rfl, rfl⟩)
      (.inl ⟨rfl, rfl⟩)
  | holding =>
    -- the only subtraction, and it does not wrap around
    have hsub : fetchSub s.shared.inFlight = s.shared.inFlight - 1 :=
      fetchSub_of_pos (hpos rfl)
    have hin : s.shared.inFlight - 1 + 1 = s.shared.inFlight := Nat.sub_add_cancel (hpos rfl)
    simp only [Bulkhead.act, hsub]
    exact h.set hk rfl hin (by dsimp only; omega) hpeak trivial (.inl ⟨rfl, rfl⟩)
      (.inl ⟨rfl, rfl⟩)
  | dropped =>
    cases kind with
    | tryAcquire =>
      exact h.set hk rfl rfl hle hpeak trivial (.inl ⟨rfl, rfl⟩) (.inl ⟨rfl, rfl⟩)
    | execute => exact h.set hk rfl rfl hle hpeak trivial (.inl ⟨rfl, rfl⟩) (.inl ⟨rfl, rfl⟩)
  | running => exact h.set hk rfl rfl hle hpeak trivial (.inl ⟨rfl, rfl⟩) (.inl ⟨rfl, rfl⟩)
  | refused => exact h.set hk rfl rfl hle hpeak trivial (.inl ⟨rfl, rfl⟩) (.inl ⟨rfl, rfl⟩)
  | returned => exact h.set hk rfl rfl hle hpeak trivial (.inl ⟨rfl, rfl⟩) (.inl ⟨rfl, rfl⟩)

theorem valid_final (h : new maxConcurrent = .ok bulkhead) (schedule : Schedule) :
    Valid maxConcurrent (final bulkhead schedule) :=
  Parties.final_induction schedule (valid_new h) (fun _ kind hs => hs.enter kind)
    fun _ _ _ spurious hs hk => hs.act hk spurious

/-- No more permits are held than calls are in flight. -/
theorem Valid.held_le (h : Valid maxConcurrent s) :
    s.parties.countP Call.holdsPermit ≤ s.shared.inFlight := by
  rw [h.inFlight_eq]
  refine List.countP_mono_left fun call _ hholds => ?_
  obtain ⟨kind, progress⟩ := call
  obtain rfl : progress = .holding := by simpa [Call.holdsPermit] using hholds
  rfl

/-- When no `try_acquire` is under way, the calls in flight are those that hold a permit, and each
call is counted as admitted or as rejected, as it ended. -/
theorem Valid.quiescent (h : Valid maxConcurrent s)
    (hquiet : ∀ call ∈ s.parties, call.isMidway = false) :
    s.shared.inFlight = s.parties.countP Call.holdsPermit ∧
      s.shared.admitted = s.parties.countP Call.isGranted % 2 ^ 64 ∧
      s.shared.rejected = s.parties.countP Call.isRefused % 2 ^ 64 ∧
      s.parties.countP Call.isGranted + s.parties.countP Call.isRefused = s.parties.length := by
  have hprogress : ∀ call ∈ s.parties, call.inSlot = call.holdsPermit ∧
      call.isAdmitted = call.isGranted ∧ (call.isRefused = true ↔ ¬ call.isGranted = true) := by
    rintro ⟨kind, progress⟩ hcall
    have := hquiet _ hcall
    cases progress <;>
      simp_all [Call.isMidway, Call.inSlot, Call.holdsPermit, Call.isAdmitted, Call.isGranted,
        Call.isRefused]
  refine ⟨h.inFlight_eq.trans ?_, h.admitted_eq.trans ?_, h.rejected_eq, ?_⟩
  · exact List.countP_congr fun call hcall => by rw [(hprogress call hcall).1]
  · congr 1
    exact List.countP_congr fun call hcall => by rw [(hprogress call hcall).2.1]
  · rw [List.length_eq_countP_add_countP Call.isGranted]
    congr 1
    exact List.countP_congr fun call hcall => by simpa using (hprogress call hcall).2.2

end Valid

/-- Permits are accounted for.  After every schedule of the steps of any calls: no more permits are
held than calls are in flight, and no more calls than the bound, nor was the peak ever above it; a
permit that is dropped is subtracted from a positive number; and when no `try_acquire` is under way,
the calls in flight are the permits held, and every call was counted once, as admitted or as
rejected. -/
theorem accounting {maxConcurrent : ℕ} {bulkhead : Bulkhead}
    (h : new maxConcurrent = .ok bulkhead) (schedule : Schedule) :
    let s := final bulkhead schedule
    s.parties.countP Call.holdsPermit ≤ s.shared.inFlight ∧
      s.shared.inFlight ≤ maxConcurrent ∧
      s.shared.peakInFlight ≤ maxConcurrent ∧
      (∀ call ∈ s.parties, call.progress = .holding → 0 < s.shared.inFlight) ∧
      ((∀ call ∈ s.parties, call.isMidway = false) →
        s.shared.inFlight = s.parties.countP Call.holdsPermit ∧
          s.shared.admitted = s.parties.countP Call.isGranted % 2 ^ 64 ∧
          s.shared.rejected = s.parties.countP Call.isRefused % 2 ^ 64 ∧
          s.parties.countP Call.isGranted + s.parties.countP Call.isRefused =
            s.parties.length) := by
  intro s
  have hvalid : Valid maxConcurrent s := valid_final h schedule
  refine ⟨hvalid.held_le, hvalid.inFlight_le, hvalid.peak_le, ?_, hvalid.quiescent⟩
  intro call hcall hholding
  have hheld : 0 < s.parties.countP Call.holdsPermit :=
    List.countP_pos_iff.2 ⟨call, hcall, by simp [Call.holdsPermit, hholding]⟩
  exact hheld.trans_le hvalid.held_le

/-- With a bound of one, a call that finds another in flight is refused. -/
theorem accounting_two_calls :
    let s := final
      { maxConcurrent := 1, inFlight := 0, peakInFlight := 0, admitted := 0, rejected := 0 }
      [.enter .tryAcquire, .enter .tryAcquire, .act 0 false, .act 0 false, .act 1 false,
        .act 1 false, .act 0 false, .act 0 false]
    s.shared.inFlight = 1 ∧ s.shared.admitted = 1 ∧ s.shared.rejected = 1 := by
  obtain ⟨hinFlight, hadmitted, hrejected, -⟩ :=
    (accounting (show new 1 = .ok _ from rfl)
      [.enter .tryAcquire, .enter .tryAcquire, .act 0 false, .act 0 false, .act 1 false,
        .act 1 false, .act 0 false, .act 0 false]).2.2.2.2 (by decide)
  exact ⟨hinFlight.trans (by decide), hadmitted.trans (by decide), hrejected.trans (by decide)⟩

/-! ## Operations that run at once -/

/-- The call runs its operation. -/
def Call.isRunning (call : Call) : Bool := call.progress = .running

/-- The call is an `execute` that was admitted and whose operation has not come to its end. -/
def Call.isUnfinished (call : Call) : Bool :=
  match call.progress with
  | .exchanged _ | .counted _ | .holding | .dropped => call.kind = .execute
  | .running => true
  | _ => false

/-- The steps an admitted `execute` is away from running its operation. -/
def Call.stepsToRun (call : Call) : ℕ :=
  match call.kind, call.progress with
  | .execute, .exchanged _ => 4
  | .execute, .counted _ => 3
  | .execute, .holding => 2
  | .execute, .dropped => 1
  | _, _ => 0

/-- The step is the exchange that admits an `execute`. -/
def admits (s : Session) : Parties.Event CallKind Bool → Bool
  | .enter _ => false
  | .act k spurious =>
    match s.parties[k]? with
    | some { kind := .execute, progress := .comparing current } =>
      current < s.shared.maxConcurrent && s.shared.inFlight = current && !spurious
    | _ => false

/-- The schedule admits no `execute`. -/
def AdmitsNone (s : Session) : Schedule → Prop
  | [] => True
  | event :: schedule => admits s event = false ∧ AdmitsNone (step s event).1 schedule

/-- No `execute` is admitted while as many as the bound are unfinished. -/
def AdmitsWithinBound (s : Session) : Schedule → Prop
  | [] => True
  | event :: schedule =>
    (admits s event = true → s.parties.countP Call.isUnfinished < s.shared.maxConcurrent) ∧
      AdmitsWithinBound (step s event).1 schedule

instance decidableAdmitsWithinBound (s : Session) :
    (schedule : Schedule) → Decidable (AdmitsWithinBound s schedule)
  | [] => inferInstanceAs (Decidable True)
  | event :: schedule =>
    have := decidableAdmitsWithinBound (step s event).1 schedule
    inferInstanceAs (Decidable (_ ∧ _))

section Unfinished

variable {s : Session} {k : ℕ} {call : Call} {event : Parties.Event CallKind Bool}

theorem step_act (hk : s.parties[k]? = some call) (spurious : Bool) :
    step s (.act k spurious) =
      ({ shared := (act s.shared call spurious).1.1
         parties := s.parties.set k (act s.shared call spurious).1.2 },
        (act s.shared call spurious).2) :=
  Parties.step_act hk spurious

theorem maxConcurrent_act (bulkhead : Bulkhead) (call : Call) (spurious : Bool) :
    (act bulkhead call spurious).1.1.maxConcurrent = bulkhead.maxConcurrent := by
  obtain ⟨kind, progress⟩ := call
  cases progress with
  | comparing current =>
    simp only [act]
    split_ifs <;> rfl
  | dropped => cases kind <;> rfl
  | _ => simp only [act]

theorem maxConcurrent_step (s : Session) (event : Parties.Event CallKind Bool) :
    (step s event).1.shared.maxConcurrent = s.shared.maxConcurrent :=
  Parties.step_induction
    (P := fun s' : Session => s'.shared.maxConcurrent = s.shared.maxConcurrent) event rfl
    (fun _ => rfl) fun _ call spurious _ => maxConcurrent_act s.shared call spurious

/-- A call becomes unfinished only where it is admitted. -/
theorem isUnfinished_of_act {bulkhead : Bulkhead} {spurious : Bool}
    (h : (act bulkhead call spurious).1.2.isUnfinished = true) (hnot : call.isUnfinished = false) :
    ∃ current, call = { kind := .execute, progress := .comparing current } ∧
      current < bulkhead.maxConcurrent ∧ bulkhead.inFlight = current ∧ spurious = false := by
  obtain ⟨kind, progress⟩ := call
  cases progress with
  | comparing current =>
    simp only [act] at h
    split_ifs at h with hfull hexchange
    · cases h
    · obtain rfl : kind = .execute := of_decide_eq_true h
      exact ⟨current, rfl, not_le.1 hfull, hexchange.1, hexchange.2⟩
    · cases h
  | called | refused | running | returned => cases h
  | exchanged current | counted current => exact absurd (h.symm.trans hnot) (by decide)
  | holding => exact absurd (h.symm.trans hnot) (by decide)
  | dropped =>
    cases kind with
    | tryAcquire => cases h
    | execute => cases hnot

theorem admits_eq_true_iff (spurious : Bool) :
    admits s (.act k spurious) = true ↔
      ∃ current, s.parties[k]? = some { kind := .execute, progress := .comparing current } ∧
        current < s.shared.maxConcurrent ∧ s.shared.inFlight = current ∧ spurious = false := by
  simp only [admits]
  split
  · next current hk => grind
  · next hnot =>
    simp only [Bool.false_eq_true, false_iff]
    rintro ⟨current, hk, -⟩
    exact hnot current hk

/-- A step makes at most the call unfinished that it admits. -/
theorem countP_isUnfinished_step (s : Session) (event : Parties.Event CallKind Bool) :
    (step s event).1.parties.countP Call.isUnfinished ≤
      s.parties.countP Call.isUnfinished + if admits s event then 1 else 0 := by
  cases event with
  | enter kind => simp [step, Parties.step, admits, Call.start, Call.isUnfinished]
  | act k spurious =>
    cases hk : s.parties[k]? with
    | none => simp [step, Parties.step, hk]
    | some call =>
      rw [step_act hk]
      have hset := countP_set_add Call.isUnfinished hk (act s.shared call spurious).1.2
      by_cases hafter : (act s.shared call spurious).1.2.isUnfinished = true
      · cases hbefore : call.isUnfinished with
        | true =>
          rw [hafter, hbefore] at hset
          exact (Nat.add_right_cancel hset).le.trans (Nat.le_add_right _ _)
        | false =>
          obtain ⟨current, rfl, hadmits⟩ := isUnfinished_of_act hafter hbefore
          rw [if_pos ((admits_eq_true_iff spurious).2 ⟨current, hk, hadmits⟩)]
          rw [hafter, hbefore] at hset
          exact hset.le
      · rw [Bool.not_eq_true] at hafter
        rw [hafter] at hset
        simp only [Bool.false_eq_true, if_false] at hset
        dsimp only
        omega

/-- An admission makes one call more unfinished. -/
theorem countP_isUnfinished_of_admits (h : admits s event = true) :
    (step s event).1.parties.countP Call.isUnfinished =
      s.parties.countP Call.isUnfinished + 1 := by
  cases event with
  | enter kind => cases h
  | act k spurious =>
    obtain ⟨current, hk, hlt, heq, rfl⟩ := (admits_eq_true_iff spurious).1 h
    have hset := countP_set_add Call.isUnfinished hk
      (Call.goTo { kind := .execute, progress := .comparing current } (.exchanged current))
    have hact : (act s.shared { kind := .execute, progress := .comparing current } false).1.2 =
        Call.goTo { kind := .execute, progress := .comparing current } (.exchanged current) := by
      simp [act, not_le.2 hlt, heq]
    rw [step_act hk, hact]
    exact hset

theorem countP_isRunning_le (s : Session) :
    s.parties.countP Call.isRunning ≤ s.parties.countP Call.isUnfinished := by
  refine List.countP_mono_left fun call _ hrunning => ?_
  obtain ⟨kind, progress⟩ := call
  obtain rfl : progress = .running := by simpa [Call.isRunning] using hrunning
  rfl

/-- An `execute` on the way to its operation comes a step nearer to it, which admits no call and
leaves the unfinished calls as they are. -/
theorem step_towards_run (hk : s.parties[k]? = some call) (hpos : 0 < call.stepsToRun) :
    admits s (.act k false) = false ∧
      (step s (.act k false)).1.parties.countP Call.isUnfinished =
        s.parties.countP Call.isUnfinished ∧
      ((step s (.act k false)).1.parties.map Call.stepsToRun).sum <
        (s.parties.map Call.stepsToRun).sum := by
  have hcall : admits s (.act k false) = false ∧
      (act s.shared call false).1.2.isUnfinished = true ∧ call.isUnfinished = true ∧
      (act s.shared call false).1.2.stepsToRun < call.stepsToRun := by
    obtain ⟨kind, progress⟩ := call
    cases kind with
    | tryAcquire => simp [Call.stepsToRun] at hpos
    | execute =>
      cases progress with
      | exchanged current | counted current | holding | dropped =>
        simp [admits, hk, act, Call.goTo, Call.isUnfinished, Call.stepsToRun]
      | _ => simp [Call.stepsToRun] at hpos
  obtain ⟨hadmits, hafter, hbefore, hlt⟩ := hcall
  have hcount := countP_set_add Call.isUnfinished hk (act s.shared call false).1.2
  have hsum := sum_map_set_add Call.stepsToRun hk (act s.shared call false).1.2
  rw [hafter, hbefore] at hcount
  rw [step_act hk]
  refine ⟨hadmits, Nat.add_right_cancel hcount, ?_⟩
  dsimp only
  omega

/-- The unfinished calls can all come to run their operations, with no call admitted. -/
theorem exists_all_running (s : Session) :
    ∃ more, AdmitsNone s more ∧
      (Machine.final step s more).parties.countP Call.isRunning =
        s.parties.countP Call.isUnfinished := by
  induction hn : (s.parties.map Call.stepsToRun).sum using Nat.strong_induction_on generalizing s with
  | _ n ih =>
    by_cases hall : ∀ call ∈ s.parties, call.stepsToRun = 0
    · refine ⟨[], trivial, List.countP_congr fun call hcall => ?_⟩
      have hzero := hall call hcall
      obtain ⟨kind, progress⟩ := call
      cases kind <;> cases progress <;>
        simp_all [Call.isRunning, Call.isUnfinished, Call.stepsToRun]
    · push Not at hall
      obtain ⟨call, hcall, hne⟩ := hall
      obtain ⟨k, hk⟩ := List.mem_iff_getElem?.1 hcall
      obtain ⟨hadmits, hcount, hlt⟩ := step_towards_run hk (Nat.pos_of_ne_zero hne)
      obtain ⟨more, hnone, hmore⟩ := ih _ (hn ▸ hlt) _ rfl
      exact ⟨.act k false :: more, ⟨hadmits, hnone⟩, hmore.trans hcount⟩

theorem countP_isUnfinished_final {more : Schedule} (h : AdmitsNone s more) :
    (Machine.final step s more).parties.countP Call.isUnfinished ≤
      s.parties.countP Call.isUnfinished := by
  induction more generalizing s with
  | nil => exact le_rfl
  | cons event more ih =>
    have hstep := countP_isUnfinished_step s event
    rw [h.1] at hstep
    exact (ih h.2).trans hstep

/-- The bound on unfinished calls is kept where no call is admitted at the bound. -/
theorem AdmitsWithinBound.countP_le {schedule : Schedule} (h : AdmitsWithinBound s schedule)
    (hs : s.parties.countP Call.isUnfinished ≤ s.shared.maxConcurrent) {first : Schedule}
    (hfirst : first <+: schedule) :
    (Machine.final step s first).parties.countP Call.isUnfinished ≤ s.shared.maxConcurrent := by
  induction first generalizing s schedule with
  | nil => exact hs
  | cons event first ih =>
    cases schedule with
    | nil => cases List.prefix_nil.1 hfirst
    | cons event' schedule =>
      obtain ⟨rfl, hrest⟩ := List.cons_prefix_cons.1 hfirst
      have hmax := maxConcurrent_step s event
      have hstep := countP_isUnfinished_step s event
      rw [← hmax]
      refine ih h.2 ?_ hrest
      rw [hmax]
      by_cases hadmits : admits s event = true
      · have hlt := h.1 hadmits
        rw [if_pos hadmits] at hstep
        omega
      · rw [if_neg hadmits] at hstep
        exact hstep.trans hs

/-- The operations running at once stay within the bound of the bulkhead, at every moment of a
schedule and however the calls admitted until then go on, when no further call is admitted. -/
def RunsWithinBound (s : Session) (schedule : Schedule) : Prop :=
  ∀ first more, first <+: schedule → AdmitsNone (Machine.final step s first) more →
    (Machine.final step s (first ++ more)).parties.countP Call.isRunning ≤ s.shared.maxConcurrent

theorem RunsWithinBound.tail {event : Parties.Event CallKind Bool} {schedule : Schedule}
    (h : RunsWithinBound s (event :: schedule)) : RunsWithinBound (step s event).1 schedule := by
  intro first more hfirst hnone
  rw [maxConcurrent_step]
  exact h (event :: first) more (List.cons_prefix_cons.2 ⟨rfl, hfirst⟩) hnone

theorem runsWithinBound_iff {schedule : Schedule}
    (hs : s.parties.countP Call.isUnfinished ≤ s.shared.maxConcurrent) :
    RunsWithinBound s schedule ↔ AdmitsWithinBound s schedule := by
  constructor
  · intro h
    induction schedule generalizing s with
    | nil => trivial
    | cons event schedule ih =>
      -- after the step, all unfinished calls can come to run at once
      obtain ⟨more, hnone, hmore⟩ := exists_all_running (step s event).1
      have hle := h [event] more (List.cons_prefix_cons.2 ⟨rfl, List.nil_prefix⟩) hnone
      have hunfinished :
          (step s event).1.parties.countP Call.isUnfinished ≤ s.shared.maxConcurrent :=
        hmore.symm.le.trans hle
      refine ⟨fun hadmits => ?_, ih (by rwa [maxConcurrent_step]) h.tail⟩
      rw [countP_isUnfinished_of_admits hadmits] at hunfinished
      exact hunfinished
  · intro h first more hfirst hnone
    have hle := h.countP_le hs hfirst
    rw [Machine.final_append]
    exact (countP_isRunning_le _).trans ((countP_isUnfinished_final hnone).trans hle)

end Unfinished

/-- The operations that run inside `execute` stay within the bound, at every moment of a schedule and
however the calls admitted until then go on, exactly when no `execute` is admitted while as many as
the bound are unfinished: the permit, dropped before the operation runs, does not see to it. -/
theorem concurrencyBounded_iff {maxConcurrent : ℕ} {bulkhead : Bulkhead}
    (h : new maxConcurrent = .ok bulkhead) (schedule : Schedule) :
    (∀ first more, first <+: schedule → AdmitsNone (final bulkhead first) more →
      (final bulkhead (first ++ more)).parties.countP Call.isRunning ≤ maxConcurrent) ↔
      AdmitsWithinBound { shared := bulkhead, parties := [] } schedule := by
  obtain rfl : bulkhead.maxConcurrent = maxConcurrent := (valid_new h).max_eq
  exact runsWithinBound_iff (Nat.zero_le _)

/-- Two overlapping calls stay within a bound of two. -/
theorem concurrencyBounded_two_calls :
    let bulkhead : Bulkhead :=
      { maxConcurrent := 2, inFlight := 0, peakInFlight := 0, admitted := 0, rejected := 0 }
    ∀ first more, first <+: .enter .execute :: .enter .execute ::
        (List.replicate 8 [.act 0 false, .act 1 false]).flatten →
      AdmitsNone (final bulkhead first) more →
      (final bulkhead (first ++ more)).parties.countP Call.isRunning ≤ 2 :=
  (concurrencyBounded_iff (show new 2 = .ok _ from rfl) _).2 (by decide)

/-- So the operations stay within the bound in every state of a schedule that admits no `execute` too
early. -/
theorem countP_isRunning_le_of_admitsWithinBound {maxConcurrent : ℕ} {bulkhead : Bulkhead}
    (h : new maxConcurrent = .ok bulkhead) {schedule : Schedule}
    (hadmits : AdmitsWithinBound { shared := bulkhead, parties := [] } schedule) {first : Schedule}
    (hfirst : first <+: schedule) :
    (final bulkhead first).parties.countP Call.isRunning ≤ maxConcurrent := by
  obtain rfl : bulkhead.maxConcurrent = maxConcurrent := (valid_new h).max_eq
  have hruns := (runsWithinBound_iff (Nat.zero_le _)).2 hadmits first [] hfirst trivial
  rwa [List.append_nil] at hruns

/-- Two operations run at once inside a bulkhead of one: the second call is made while the first
runs its operation. -/
theorem two_operations_in_a_bulkhead_of_one :
    ¬ ∀ maxConcurrent bulkhead schedule, new maxConcurrent = .ok bulkhead →
      (final bulkhead schedule).parties.countP Call.isRunning ≤ maxConcurrent := by
  intro h
  exact absurd
    (h 1 _ (.enter .execute :: List.replicate 6 (.act 0 false) ++
      .enter .execute :: List.replicate 6 (.act 1 false)) rfl) (by decide)

end Bulkhead

end StellarFeeTracker
