import StellarFeeTracker.Polling.FeeStats

/-!
# The two polling loops

The loop of the fees and that of the fee statistics run side by side with one configuration.  They
share the counters of the metrics: a tick of either loop is a poll, and may be an error.
-/

namespace StellarFeeTracker

/-- What the two loops change. -/
structure LoopsState where
  poll : PollState
  feeStatsSnapshots : List FeeSnapshotRow

/-- A tick of one of the two loops. -/
inductive LoopTick where
  | fees (tick : PollTick)
  | feeStats (tick : FeeStatsTick)

/-- What a tick of the second loop sees. -/
def LoopsState.feeStats (s : LoopsState) : FeeStatsState where
  pollsTotal := s.poll.metrics.pollsTotal
  pollErrorsTotal := s.poll.metrics.pollErrorsTotal
  feeStatsSnapshots := s.feeStatsSnapshots

/-- What a tick of the second loop leaves. -/
def LoopsState.withFeeStats (s : LoopsState) (polled : FeeStatsState) : LoopsState where
  poll :=
    { s.poll with
      metrics :=
        { s.poll.metrics with
          pollsTotal := polled.pollsTotal
          pollErrorsTotal := polled.pollErrorsTotal } }
  feeStatsSnapshots := polled.feeStatsSnapshots

namespace Poller

variable (poller : Poller)

/-- A tick of either loop. -/
def pollEither (text : Rfc3339) (s : LoopsState) : LoopTick → LoopsState × List PollEvent
  | .fees tick =>
    let polled := poller.pollOnce text s.poll tick
    ({ s with poll := polled.1 }, polled.2)
  | .feeStats tick =>
    let polled := poller.pollFeeStatsOnce text s.feeStats tick
    (s.withFeeStats polled.1, polled.2.toList.map .panicked)

/-- No attempt of the tick got an answer that can be used. -/
def gaveUp : LoopTick → Bool
  | .fees tick =>
    (fetchWithRetry tick.fetchLatestFees tick.random poller.baseRetryDelayMs
      poller.maxRetryAttempts).points.isNone
  | .feeStats tick =>
    (fetchFeeStatsWithRetry tick.fetchFeeStatsFull tick.fetchedAt tick.random
      poller.baseRetryDelayMs poller.maxRetryAttempts).snapshot.isNone

variable {poller}

/-- A tick of the second loop leaves the first one's state but for the counters. -/
theorem pollEither_feeStats (hmetrics : poller.hasMetrics = true) (text : Rfc3339) (s : LoopsState)
    (tick : FeeStatsTick) :
    (poller.pollEither text s (.feeStats tick)).1.poll =
      { s.poll with
        metrics :=
          { s.poll.metrics with
            pollsTotal := s.poll.metrics.pollsTotal + 1
            pollErrorsTotal := s.poll.metrics.pollErrorsTotal +
              [LoopTick.feeStats tick].countP poller.gaveUp } } := by
  show (s.withFeeStats (poller.pollFeeStatsOnce text s.feeStats tick).1).poll = _
  rw [List.countP_singleton]
  unfold gaveUp pollFeeStatsOnce LoopsState.withFeeStats
  rcases hfetch : (fetchFeeStatsWithRetry tick.fetchFeeStatsFull tick.fetchedAt tick.random
      poller.baseRetryDelayMs poller.maxRetryAttempts).snapshot with _ | snapshot
  · simp only [hfetch, hmetrics, if_true]
    rfl
  · simp only [hfetch, hmetrics, if_true]
    rfl

end Poller

end StellarFeeTracker
