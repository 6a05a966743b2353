import StellarFeeTracker.Polling.Crashes
import StellarFeeTracker.Polling.Loops
import StellarFeeTracker.Polling.Staleness
import StellarFeeTracker.Insights.Views

/-!
# What the operator sees

`GET /metrics` shows what the ticks have written since the process came up, and `GET /insights/health`
what the insights engine has accepted.  Over any run of ticks of the two loops after any start both tell
the truth (`Lives.monitoring_of_run`): the counters count the ticks and the ticks that got no answer, of
both loops, the gauges show the size of the store and the average of the insights that are served, from
the first tick on that sets them, and the pipeline is healthy when the last batch that the engine
accepted is not too old.
-/

namespace StellarFeeTracker

open Machine

/-! ## The health of the insights -/

/-- Insights older than this are reported as `stale`. -/
def insightsStaleAfterSecs : ℤ := 300

structure InsightsHealth where
  status : String
  ageSeconds : Option ℤ
  lastUpdate : Option DateTime
  pollingIntervalSeconds : ℤ
  timeWindows : ℕ
  spikeThreshold : ℚ
  deriving DecidableEq, Repr

def getInsightsHealth (engine : FeeInsightsEngine) (now : DateTime) : InsightsHealth :=
  let status : String × Option ℤ :=
    match engine.lastUpdate with
    | none => ("starting", none)
    | some ts =>
      let age := max (Duration.numSeconds (now - ts)) 0
      if insightsStaleAfterSecs < age then ("stale", some age) else ("healthy", some age)
  { status := status.1
    ageSeconds := status.2
    lastUpdate := engine.lastUpdate
    pollingIntervalSeconds := Duration.numSeconds engine.config.pollingInterval
    timeWindows := engine.config.timeWindows.length
    spikeThreshold := engine.config.spikeDetection.thresholdMultiplier }

/-! ## The metrics after a tick -/

namespace Poller

variable (poller : Poller)

/-- The update of the insights that a tick makes. -/
def updateOf (s : PollState) (tick : PollTick) : Option InsightsUpdate :=
  (s.engine.processFeeData tick.now (poller.newPoints s tick)).2.toOption

variable {poller}

theorem updateOf_of_nil {s : PollState} {tick : PollTick} (h : poller.newPoints s tick = []) :
    poller.updateOf s tick = none := by
  unfold updateOf
  rw [h]
  rfl

theorem runInsights_metrics (hmetrics : poller.hasMetrics = true) (tick : PollTick)
    (points : List FeeDataPoint) (s : PollState) :
    (poller.runInsights tick points s).1.metrics =
      match (s.engine.processFeeData tick.now points).2.toOption with
      | some update =>
        { s.metrics with
          currentAvgFee := update.insights.rollingAverages.shortTerm.value
          spikesDetectedTotal := s.metrics.spikesDetectedTotal + update.recentSpikes.length }
      | none => s.metrics := by
  unfold runInsights
  rcases hprocessed : (s.engine.processFeeData tick.now points).2 with err | update
  · simp only [hprocessed]
    rfl
  · cases hmanager : poller.alertManager with
    | none =>
      simp only [hprocessed, updateMetrics, hmetrics, if_true]
      rfl
    | some manager =>
      simp only [hprocessed, updateMetrics, hmetrics, if_true]
      rfl

/-- What a tick writes to the metrics. -/
theorem pollOnce_metrics (hmetrics : poller.hasMetrics = true) (text : Rfc3339) (s : PollState)
    (tick : PollTick) :
    (poller.pollOnce text s tick).1.metrics =
      { pollsTotal := s.metrics.pollsTotal + 1
        pollErrorsTotal := s.metrics.pollErrorsTotal + [LoopTick.fees tick].countP poller.gaveUp
        feePointsStored :=
          if poller.newPoints s tick = [] then s.metrics.feePointsStored
          else (poller.pollOnce text s tick).1.store.len
        currentAvgFee :=
          ((poller.updateOf s tick).map fun update =>
            update.insights.rollingAverages.shortTerm.value).getD s.metrics.currentAvgFee
        spikesDetectedTotal := s.metrics.spikesDetectedTotal +
          ((poller.updateOf s tick).map fun update => update.recentSpikes.length).getD 0 } := by
  rw [poller.pollOnce_store, List.countP_singleton]
  unfold gaveUp
  by_cases hnew : poller.newPoints s tick = []
  · rw [updateOf_of_nil hnew, if_pos hnew]
    unfold newPoints fetched at hnew
    unfold pollOnce
    rcases hfetch : (fetchWithRetry tick.fetchLatestFees tick.random poller.baseRetryDelayMs
      poller.maxRetryAttempts).points with _ | points
    · simp only [hfetch, updateMetrics, hmetrics, if_true]
      rfl
    · rw [hfetch, Option.getD_some] at hnew
      simp only [hfetch, updateMetrics, hmetrics, if_true, hnew, List.isEmpty_nil, Option.isNone_some,
        Bool.false_eq_true, if_false]
      split_ifs <;> rfl
  · rw [if_neg hnew]
    unfold updateOf
    unfold newPoints fetched at hnew ⊢
    unfold pollOnce
    rcases hfetch : (fetchWithRetry tick.fetchLatestFees tick.random poller.baseRetryDelayMs
      poller.maxRetryAttempts).points with _ | points
    · rw [hfetch] at hnew
      exact absurd rfl hnew
    · rw [hfetch, Option.getD_some] at hnew
      have hpoints : points ≠ [] := by
        rintro rfl
        exact hnew rfl
      simp only [hfetch, updateMetrics, hmetrics, if_true, List.isEmpty_iff, hpoints, hnew, if_false,
        Option.getD_some, pushPoints, runInsights_metrics hmetrics]
      cases (s.engine.processFeeData tick.now (s.store.dropKnown points)).2.toOption <;> rfl

/-! ## The engine after a tick -/

theorem updateOf_isSome_iff {s : PollState} (hs : s.engine.WellFormed) (tick : PollTick) :
    (poller.updateOf s tick).isSome = true ↔ poller.Accepts s tick := by
  unfold updateOf Accepts
  rw [← FeeInsightsEngine.processFeeData_isOk_iff hs]
  cases (s.engine.processFeeData tick.now (poller.newPoints s tick)).2 with
  | error err => simp [Except.toOption]
  | ok update => simp [Except.toOption]

/-- A tick whose points are accepted sets the served insights and their time, and any other leaves
both. -/
theorem engine_pollOnce (text : Rfc3339) (s : PollState) (tick : PollTick) :
    (poller.pollOnce text s tick).1.engine.lastInsights =
        ((poller.updateOf s tick).map fun update => update.insights).or s.engine.lastInsights ∧
      (poller.pollOnce text s tick).1.engine.lastUpdate =
        ((poller.updateOf s tick).map fun _ => tick.now).or s.engine.lastUpdate := by
  rw [pollOnce_engine]
  split_ifs with hnil
  · rw [updateOf_of_nil hnil]
    exact ⟨rfl, rfl⟩
  · unfold updateOf
    rcases s.engine.processFeeData_cases tick.now (poller.newPoints s tick) with
      ⟨-, err, hcall⟩ | ⟨-, ⟨-, err, hcall⟩ | ⟨-, detector, insights, hcall, -⟩⟩
    · rw [hcall]
      exact ⟨rfl, rfl⟩
    · rw [hcall]
      exact ⟨rfl, rfl⟩
    · rw [hcall]
      exact ⟨rfl, rfl⟩

/-! ## Runs -/

/-- The new points of a tick of either loop. -/
def newPointsOf (poller : Poller) (s : LoopsState) : LoopTick → List FeeDataPoint
  | .fees tick => poller.newPoints s.poll tick
  | .feeStats _ => []

/-- The time of a tick whose points the engine accepts. -/
def acceptedAt (poller : Poller) (s : LoopsState) : LoopTick → Option DateTime
  | .fees tick => if poller.Accepts s.poll tick then some tick.now else none
  | .feeStats _ => none

/-- The new points of a run of ticks. -/
def arrivals (poller : Poller) (text : Rfc3339) (s : LoopsState) (ticks : List LoopTick) :
    List FeeDataPoint :=
  emitted (fun s tick => ((poller.pollEither text s tick).1, poller.newPointsOf s tick)) s ticks

/-- The times at which the engine has accepted the points of a tick. -/
def acceptedTimes (poller : Poller) (text : Rfc3339) (s : LoopsState) (ticks : List LoopTick) :
    List DateTime :=
  emitted (setting (poller.pollEither text) poller.acceptedAt) s ticks

theorem wellFormed_pollEither (hmetrics : poller.hasMetrics = true) (text : Rfc3339) (s : LoopsState)
    (tick : LoopTick) (h : s.poll.engine.WellFormed) :
    (poller.pollEither text s tick).1.poll.engine.WellFormed := by
  cases tick with
  | fees tick => exact poller.wellFormed_run text h [tick]
  | feeStats tick =>
    rw [pollEither_feeStats hmetrics]
    exact h

section Runs

variable (hmetrics : poller.hasMetrics = true) (text : Rfc3339)
include hmetrics

theorem counters_run (s : LoopsState) (ticks : List LoopTick) :
    (final (poller.pollEither text) s ticks).poll.metrics.pollsTotal =
        s.poll.metrics.pollsTotal + ticks.length ∧
      (final (poller.pollEither text) s ticks).poll.metrics.pollErrorsTotal =
        s.poll.metrics.pollErrorsTotal + ticks.countP poller.gaveUp := by
  have hstep : ∀ (s : LoopsState) (tick : LoopTick),
      (poller.pollEither text s tick).1.poll.metrics.pollsTotal = s.poll.metrics.pollsTotal + 1 ∧
        (poller.pollEither text s tick).1.poll.metrics.pollErrorsTotal =
          s.poll.metrics.pollErrorsTotal + [tick].countP poller.gaveUp := by
    intro s tick
    cases tick with
    | fees tick =>
      show (poller.pollOnce text s.poll tick).1.metrics.pollsTotal = _ ∧
        (poller.pollOnce text s.poll tick).1.metrics.pollErrorsTotal = _
      rw [pollOnce_metrics hmetrics]
      exact ⟨rfl, rfl⟩
    | feeStats tick =>
      rw [pollEither_feeStats hmetrics]
      exact ⟨rfl, rfl⟩
  induction ticks generalizing s with
  | nil => exact ⟨rfl, rfl⟩
  | cons tick ticks ih =>
    obtain ⟨hpolls, herrors⟩ := ih (poller.pollEither text s tick).1
    obtain ⟨hpoll, herror⟩ := hstep s tick
    have hcount : (tick :: ticks).countP poller.gaveUp =
        [tick].countP poller.gaveUp + ticks.countP poller.gaveUp := by
      rw [← List.countP_append, List.singleton_append]
    rw [final_cons, hpolls, herrors, hpoll, herror, List.length_cons, hcount]
    constructor
    · omega
    · omega

/-- The gauge shows the size of the store. -/
def ShowsStored (s : LoopsState) : Prop := s.poll.metrics.feePointsStored = s.poll.store.len

/-- A tick that has new points sets the gauge of the size of the store, and no other changes it. -/
theorem feePointsStored_pollEither (s : LoopsState) (tick : LoopTick) :
    if poller.newPointsOf s tick = [] then
      (poller.pollEither text s tick).1.poll.metrics.feePointsStored =
          s.poll.metrics.feePointsStored ∧
        (poller.pollEither text s tick).1.poll.store = s.poll.store
    else ShowsStored (poller.pollEither text s tick).1 := by
  cases tick with
  | fees tick =>
    show if poller.newPoints s.poll tick = [] then
        (poller.pollOnce text s.poll tick).1.metrics.feePointsStored = _ ∧
          (poller.pollOnce text s.poll tick).1.store = _
      else (poller.pollOnce text s.poll tick).1.metrics.feePointsStored =
        (poller.pollOnce text s.poll tick).1.store.len
    rw [pollOnce_metrics hmetrics]
    dsimp only
    split_ifs with hnil
    · refine ⟨rfl, ?_⟩
      rw [poller.pollOnce_store, hnil]
      rfl
    · rfl
  | feeStats tick =>
    rw [if_pos (show poller.newPointsOf s (.feeStats tick) = [] from rfl),
      pollEither_feeStats hmetrics]
    exact ⟨rfl, rfl⟩

/-- The gauge of the size of the store is right once a tick has had new points, and stays right. -/
theorem feePointsStored_run (s : LoopsState) (ticks : List LoopTick) :
    (final (poller.pollEither text) s ticks).poll.metrics.feePointsStored =
      if poller.arrivals text s ticks = [] then s.poll.metrics.feePointsStored
      else (final (poller.pollEither text) s ticks).poll.store.len := by
  have hright : ∀ (ticks : List LoopTick) (s : LoopsState), ShowsStored s →
      ShowsStored (final (poller.pollEither text) s ticks) := by
    intro ticks s h
    refine final_induction (poller.pollEither text) (P := ShowsStored) h fun s tick _ h => ?_
    have hstep := feePointsStored_pollEither hmetrics text s tick
    split_ifs at hstep
    · unfold ShowsStored at h ⊢
      rw [hstep.1, hstep.2]
      exact h
    · exact hstep
  induction ticks generalizing s with
  | nil => rfl
  | cons tick ticks ih =>
    have hcons : poller.arrivals text s (tick :: ticks) = poller.newPointsOf s tick ++
        poller.arrivals text (poller.pollEither text s tick).1 ticks := rfl
    have hstep := feePointsStored_pollEither hmetrics text s tick
    rw [final_cons]
    by_cases hnil : poller.newPointsOf s tick = []
    · rw [if_pos hnil] at hstep
      rw [hnil, List.nil_append] at hcons
      rw [ih, hstep.1, hcons]
    · rw [if_neg hnil] at hstep
      have hne : poller.arrivals text s (tick :: ticks) ≠ [] := by
        rw [hcons]
        exact List.append_ne_nil_of_left_ne_nil hnil _
      rw [if_neg hne]
      exact hright ticks _ hstep

/-- The gauge shows the short-term average of the served insights. -/
def ShowsAverage (s : LoopsState) : Prop :=
  ∃ insights, s.poll.engine.lastInsights = some insights ∧
    s.poll.metrics.currentAvgFee = insights.rollingAverages.shortTerm.value

/-- A tick whose points are accepted sets the gauge of the average, and no other changes it or the
insights. -/
theorem currentAvgFee_pollEither {s : LoopsState} (hs : s.poll.engine.WellFormed) (tick : LoopTick) :
    if poller.acceptedAt s tick = none then
      (poller.pollEither text s tick).1.poll.metrics.currentAvgFee = s.poll.metrics.currentAvgFee ∧
        (poller.pollEither text s tick).1.poll.engine.lastInsights = s.poll.engine.lastInsights
    else ShowsAverage (poller.pollEither text s tick).1 := by
  cases tick with
  | fees tick =>
    have hiff : (poller.updateOf s.poll tick).isSome = true ↔ poller.Accepts s.poll tick :=
      updateOf_isSome_iff hs tick
    have hmetric := pollOnce_metrics hmetrics text s.poll tick
    have hinsights : (poller.pollOnce text s.poll tick).1.engine.lastInsights =
        ((poller.updateOf s.poll tick).map fun update => update.insights).or
          s.poll.engine.lastInsights := (engine_pollOnce text s.poll tick).1
    by_cases haccepts : poller.Accepts s.poll tick
    · obtain ⟨update, hupdate⟩ := Option.isSome_iff_exists.1 (hiff.2 haccepts)
      rw [if_neg (by simp [acceptedAt, haccepts])]
      refine ⟨update.insights, ?_, ?_⟩
      · show (poller.pollOnce text s.poll tick).1.engine.lastInsights = some update.insights
        rw [hinsights, hupdate]
        rfl
      · show (poller.pollOnce text s.poll tick).1.metrics.currentAvgFee = _
        rw [hmetric, hupdate]
        rfl
    · have hnone : poller.updateOf s.poll tick = none := by
        rw [← Option.not_isSome_iff_eq_none, hiff]
        exact haccepts
      rw [if_pos (by simp [acceptedAt, haccepts])]
      constructor
      · show (poller.pollOnce text s.poll tick).1.metrics.currentAvgFee = _
        rw [hmetric, hnone]
        rfl
      · show (poller.pollOnce text s.poll tick).1.engine.lastInsights = _
        rw [hinsights, hnone]
        rfl
  | feeStats tick =>
    rw [if_pos (show poller.acceptedAt s (.feeStats tick) = none from rfl),
      pollEither_feeStats hmetrics]
    exact ⟨rfl, rfl⟩

/-- It does once a tick has been accepted, and has its first value until then. -/
theorem currentAvgFee_run {s : LoopsState} (hs : s.poll.engine.WellFormed) (ticks : List LoopTick) :
    if poller.acceptedTimes text s ticks = [] then
      (final (poller.pollEither text) s ticks).poll.metrics.currentAvgFee =
        s.poll.metrics.currentAvgFee
    else ShowsAverage (final (poller.pollEither text) s ticks) := by
  have hright : ∀ (ticks : List LoopTick) (s : LoopsState), s.poll.engine.WellFormed →
      ShowsAverage s → ShowsAverage (final (poller.pollEither text) s ticks) := by
    intro ticks s hs h
    refine (final_induction (poller.pollEither text)
      (P := fun s => s.poll.engine.WellFormed ∧ ShowsAverage s) ⟨hs, h⟩ fun s tick _ h => ?_).2
    refine ⟨wellFormed_pollEither hmetrics text s tick h.1, ?_⟩
    have hstep := currentAvgFee_pollEither hmetrics text h.1 tick
    split_ifs at hstep
    · obtain ⟨insights, hinsights, havg⟩ := h.2
      exact ⟨insights, hstep.2.trans hinsights, hstep.1.trans havg⟩
    · exact hstep
  induction ticks generalizing s with
  | nil => rfl
  | cons tick ticks ih =>
    have hcons : poller.acceptedTimes text s (tick :: ticks) = (poller.acceptedAt s tick).toList ++
        poller.acceptedTimes text (poller.pollEither text s tick).1 ticks := rfl
    have hwell := wellFormed_pollEither hmetrics text s tick hs
    have hstep := currentAvgFee_pollEither hmetrics text hs tick
    rw [final_cons]
    cases haccepted : poller.acceptedAt s tick with
    | none =>
      rw [if_pos haccepted] at hstep
      have hrest := ih hwell
      rw [hcons, haccepted, Option.toList_none, List.nil_append, ← hstep.1]
      exact hrest
    | some t =>
      rw [if_neg (by simp [haccepted])] at hstep
      rw [if_neg (by simp [hcons, haccepted])]
      exact hright ticks _ hwell hstep

/-- The time of the last update is that of the last tick that was accepted. -/
theorem lastUpdate_run {s : LoopsState} (hs : s.poll.engine.WellFormed) (ticks : List LoopTick) :
    (final (poller.pollEither text) s ticks).poll.engine.lastUpdate =
      (poller.acceptedTimes text s ticks).getLast?.or s.poll.engine.lastUpdate := by
  refine register_final (poller.pollEither text) (P := fun s => s.poll.engine.WellFormed)
    (wellFormed_pollEither hmetrics text) (fun s => s.poll.engine.lastUpdate) _
    (fun s tick h => ?_) hs ticks
  cases tick with
  | feeStats tick =>
    rw [pollEither_feeStats hmetrics]
    rfl
  | fees tick =>
    show (poller.pollOnce text s.poll tick).1.engine.lastUpdate =
      (if poller.Accepts s.poll tick then some tick.now else none).or s.poll.engine.lastUpdate
    rw [(engine_pollOnce text s.poll tick).2]
    have hiff : (poller.updateOf s.poll tick).isSome = true ↔ poller.Accepts s.poll tick :=
      updateOf_isSome_iff h tick
    cases hupdate : poller.updateOf s.poll tick with
    | some update =>
      rw [hupdate] at hiff
      rw [if_pos (hiff.1 rfl)]
      rfl
    | none =>
      rw [hupdate] at hiff
      rw [if_neg fun haccepts => absurd (hiff.2 haccepts) (by simp)]
      rfl

end Runs

end Poller

namespace Lives

variable {lives : Lives}

theorem wellFormed_start (text : Rfc3339) (restart : Restart) (database : Database) :
    (lives.start text restart database).engine.WellFormed := by
  unfold start rehydrate
  rw [restart.since_eq]
  have hnew := FeeInsightsEngine.wellFormed_new lives.config restart.createdAt
  cases restart.fetchError with
  | some err => exact hnew
  | none =>
    by_cases hempty : database.fetchSince text restart.since = []
    · simp [hempty, bind, Except.bind, pure, Except.pure, Except.toOption, hnew]
    · simp only [hempty, bind, Except.bind, pure, Except.pure, Except.toOption, Option.getD_some,
        List.isEmpty_iff, if_false]
      exact hnew.processFeeData restart.processed _

/-- After any start and any ticks of the two loops since, at any time: the counters are the numbers of
the ticks and of those that gave up; the gauge of the store shows its size, or zero before the first
tick with new points; the gauge of the average shows that of the insights that are served, or zero
before the first tick that was accepted; and the health is that of the last batch that was accepted, at
the start or by a tick. -/
theorem monitoring_of_run (lives : Lives) (text : Rfc3339)
    (hmetrics : lives.poller.hasMetrics = true) (restart : Restart) (database : Database)
    (feeStatsSnapshots : List FeeSnapshotRow) (ticks : List LoopTick) (now : DateTime) :
    let first : LoopsState := { poll := lives.start text restart database, feeStatsSnapshots }
    let s := (final (lives.poller.pollEither text) first ticks).poll
    let accepted := lives.poller.acceptedTimes text first ticks
    let last := accepted.getLast?.or first.poll.engine.lastUpdate
    s.metrics.pollsTotal = ticks.length ∧
      s.metrics.pollErrorsTotal = ticks.countP lives.poller.gaveUp ∧
      s.metrics.feePointsStored =
        (if lives.poller.arrivals text first ticks = [] then 0 else s.store.len) ∧
      s.metrics.currentAvgFee =
        (if accepted = [] then 0
          else (s.engine.getCurrentInsights now).rollingAverages.shortTerm.value) ∧
      ((getInsightsHealth s.engine now).status = "starting" ↔ last = none) ∧
      ((getInsightsHealth s.engine now).status = "stale" ↔
        ∃ t ∈ last, 300 < Duration.numSeconds (now - t)) ∧
      ((getInsightsHealth s.engine now).status = "healthy" ↔
        ∃ t ∈ last, Duration.numSeconds (now - t) ≤ 300) := by
  intro first s accepted last
  have hfirst : first.poll.engine.WellFormed := wellFormed_start text restart database
  obtain ⟨hpolls, herrors⟩ := Poller.counters_run hmetrics text first ticks
  have hstored := Poller.feePointsStored_run hmetrics text first ticks
  have havg := Poller.currentAvgFee_run hmetrics text hfirst ticks
  have hlast : s.engine.lastUpdate = last := Poller.lastUpdate_run hmetrics text hfirst ticks
  refine ⟨?_, ?_, hstored, ?_, ?_⟩
  · show (final (lives.poller.pollEither text) first ticks).poll.metrics.pollsTotal = _
    rw [hpolls]
    exact Nat.zero_add _
  · show (final (lives.poller.pollEither text) first ticks).poll.metrics.pollErrorsTotal = _
    rw [herrors]
    exact Nat.zero_add _
  · by_cases haccepted : accepted = []
    · rw [if_pos haccepted] at havg ⊢
      exact havg
    · rw [if_neg haccepted] at havg ⊢
      obtain ⟨insights, hinsights, hvalue⟩ := havg
      have hserved : s.engine.lastInsights = some insights := hinsights
      unfold FeeInsightsEngine.getCurrentInsights
      rw [hserved]
      exact hvalue
  · unfold getInsightsHealth insightsStaleAfterSecs
    rw [hlast]
    cases last with
    | none => simp
    | some t =>
      by_cases hold : 300 < Duration.numSeconds (now - t)
      · simp [hold, not_le.2 hold]
      · simp [hold, not_lt.1 hold]

/-- A tick of each loop, of which the first has one point, too few for an average. -/
theorem monitoring_of_run_two_ticks :
    let lives : Lives := { storingLives with poller := { storingPoller with hasMetrics := true } }
    let silent : FeeStatsTick :=
      { fetchFeeStatsFull := fun _ => .error (.network "timeout")
        fetchedAt := fun _ => seconds 1736851620
        random := fun _ => 0
        now := seconds 1736851620
        upsertError := none
        pruneError := none }
    let ticks := [.fees (tickFetching [pointWithHash "a"]), .feeStats silent]
    let now := seconds 1736851680
    let first : LoopsState :=
      { poll := lives.start exampleText restartReading noTables, feeStatsSnapshots := [] }
    let s := (final (lives.poller.pollEither exampleText) first ticks).poll
    let accepted := lives.poller.acceptedTimes exampleText first ticks
    let last := accepted.getLast?.or first.poll.engine.lastUpdate
    s.metrics.pollsTotal = ticks.length ∧
      s.metrics.pollErrorsTotal = ticks.countP lives.poller.gaveUp ∧
      s.metrics.feePointsStored =
        (if lives.poller.arrivals exampleText first ticks = [] then 0 else s.store.len) ∧
      s.metrics.currentAvgFee =
        (if accepted = [] then 0
          else (s.engine.getCurrentInsights now).rollingAverages.shortTerm.value) ∧
      ((getInsightsHealth s.engine now).status = "starting" ↔ last = none) ∧
      ((getInsightsHealth s.engine now).status = "stale" ↔
        ∃ t ∈ last, 300 < Duration.numSeconds (now - t)) ∧
      ((getInsightsHealth s.engine now).status = "healthy" ↔
        ∃ t ∈ last, Duration.numSeconds (now - t) ≤ 300) := by
  intro lives silent ticks now
  exact monitoring_of_run lives exampleText rfl restartReading noTables [] ticks now

end Lives

end StellarFeeTracker
