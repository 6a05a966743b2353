import StellarFeeTracker.Alerts.Webhook
import StellarFeeTracker.General.Machine
import StellarFeeTracker.General.MaxByKey
import StellarFeeTracker.Repository
import Mathlib.Data.Finset.Basic

/-!
# The alert manager

`AlertManager` holds what a manager is built with and `AlertState` the contents of its mutexes.
`checkAndDispatch` is one tick: it reads an insights update, the alert configs of the database and
the clock, and returns the new state with the webhook deliveries it spawned, in the order in which
it spawned them.
-/

namespace StellarFeeTracker

/-! ## Alert types, severities and identities -/

def alertTypeSpike : String := "spike"
def alertTypeRecovery : String := "recovery"
def alertTypeGoodWindow : String := "good_window"
def alertTypeStaleData : String := "stale_data"

def severityRank : SpikeSeverity → ℕ
  | .minor => 0
  | .moderate => 1
  | .major => 2
  | .critical => 3

def meetsThreshold (severity threshold : SpikeSeverity) : Bool :=
  severityRank threshold ≤ severityRank severity

def severityToStr : SpikeSeverity → String
  | .minor => "Minor"
  | .moderate => "Moderate"
  | .major => "Major"
  | .critical => "Critical"

def trendToStr : TrendIndicator → String
  | .normal => "Normal"
  | .rising => "Rising"
  | .congested => "Congested"
  | .declining => "Declining"

def strengthToStr : TrendStrength → String
  | .weak => "Weak"
  | .moderate => "Moderate"
  | .strong => "Strong"

/-- `severity:start:peak`, the start in whole seconds. -/
def spikeIdentity (spike : FeeSpike) : String :=
  severityToStr spike.severity ++ ":" ++ toString spike.startTime.timestamp ++ ":" ++
    toString spike.peakFee

/-! ## The manager and its state -/

/-- The spike condition the manager is currently alerting on. -/
structure ActiveSpike where
  identity : String
  severity : SpikeSeverity
  deriving DecidableEq, Repr

/-- What a manager is built with. -/
structure AlertManager where
  webhookDelivery : Option WebhookDelivery
  alertThreshold : SpikeSeverity
  network : String
  hasRepository : Bool
  enabledAlertTypes : Finset String
  staleDataThresholdSeconds : ℤ

/-- The mutable state of a manager. -/
structure AlertState where
  seenSpikes : Finset String
  activeSpike : Option ActiveSpike
  goodWindowActive : Bool
  staleDataActive : Bool
  deriving DecidableEq

/-- The state a manager is built with. -/
def AlertState.new : AlertState where
  seenSpikes := ∅
  activeSpike := none
  goodWindowActive := false
  staleDataActive := false

/-- The alert types that `AlertManager::new` enables. -/
def defaultTypes : Finset String :=
  {alertTypeSpike, alertTypeRecovery, alertTypeGoodWindow, alertTypeStaleData}

namespace AlertManager

def newWithConfig (webhookUrl : Option String) (alertThreshold : SpikeSeverity) (network : String)
    (hasRepository : Bool) (enabledAlertTypes : Finset String) (staleDataThresholdSeconds : ℤ) :
    AlertManager where
  webhookDelivery := webhookUrl.map WebhookDelivery.mk
  alertThreshold := alertThreshold
  network := network
  hasRepository := hasRepository
  enabledAlertTypes := enabledAlertTypes
  staleDataThresholdSeconds := staleDataThresholdSeconds

def new (webhookUrl : Option String) (alertThreshold : SpikeSeverity) (network : String)
    (hasRepository : Bool) : AlertManager :=
  newWithConfig webhookUrl alertThreshold network hasRepository defaultTypes 300

variable (mgr : AlertManager)

def typeEnabled (alertType : String) : Bool := alertType ∈ mgr.enabledAlertTypes

/-- Insert into the dedup set the identities rebuilt from the latest rows of `alert_events`; a
failed query leaves the set as it is. -/
def rehydrateSeenSpikes (text : Rfc3339) (alertEvents : Except SqlError (List AlertEvent))
    (s : AlertState) : AlertState :=
  if mgr.hasRepository then
    match alertEvents with
    | .error _ => s
    | .ok rows =>
      { s with
        seenSpikes := (queryAlertHistory rows 200 none none).foldl (fun seen event =>
          let ts := ((text.parseFromRfc3339 event.triggeredAt).map DateTime.timestamp).getD 0
          insert (event.severity ++ ":" ++ toString ts ++ ":" ++ toString event.peakFee) seen)
          s.seenSpikes }
  else s

end AlertManager

/-! ## Deliveries -/

/-- The function that spawned a delivery: `dispatch_spike` also logs the alert, `dispatch` only
sends it. -/
inductive DeliveryTask where
  | dispatchSpike
  | dispatch
  deriving DecidableEq, Repr

/-- A webhook delivery that a tick spawned. -/
structure Delivery where
  task : DeliveryTask
  url : String
  payload : AlertPayload
  deriving DecidableEq, Repr

/-- What a tick reads. -/
structure AlertTick where
  update : InsightsUpdate
  /-- The answer of `list_alert_configs`. -/
  listAlertConfigs : Except SqlError (List AlertConfig)
  now : DateTime

namespace AlertManager

variable (mgr : AlertManager)

/-- The payload that announces a spike. -/
def spikePayload (now : DateTime) (spike : FeeSpike) : AlertPayload where
  event := "fee_spike_detected"
  severity := some (severityToStr spike.severity)
  peakFee := some spike.peakFee
  baselineFee := some spike.baselineFee
  spikeRatio := some spike.spikeRatio
  startTime := some spike.startTime
  durationSeconds := some (max spike.duration.numSeconds 0)
  network := mgr.network
  timestamp := now
  correlationId := some (spikeIdentity spike)
  congestionTrend := none
  trendStrength := none
  freshnessSeconds := none
  stalenessThresholdSeconds := none

/-- The payload that announces that the active spike condition cleared. -/
def recoveryPayload (now : DateTime) (current : ActiveSpike) : AlertPayload where
  event := "fee_spike_recovered"
  severity := some (severityToStr current.severity)
  peakFee := none
  baselineFee := none
  spikeRatio := none
  startTime := none
  durationSeconds := none
  network := mgr.network
  timestamp := now
  correlationId := some current.identity
  congestionTrend := none
  trendStrength := none
  freshnessSeconds := none
  stalenessThresholdSeconds := none

/-- The payload that announces a good submission window. -/
def goodWindowPayload (now : DateTime) (trends : CongestionTrends) : AlertPayload where
  event := "good_submission_window"
  severity := none
  peakFee := none
  baselineFee := none
  spikeRatio := none
  startTime := none
  durationSeconds := none
  network := mgr.network
  timestamp := now
  correlationId := none
  congestionTrend := some (trendToStr trends.currentTrend)
  trendStrength := some (strengthToStr trends.trendStrength)
  freshnessSeconds := none
  stalenessThresholdSeconds := none

/-- The payload that announces a stale data pipeline. -/
def staleDataPayload (now : DateTime) (freshnessSeconds : ℤ) : AlertPayload where
  event := "data_pipeline_stale"
  severity := none
  peakFee := none
  baselineFee := none
  spikeRatio := none
  startTime := none
  durationSeconds := none
  network := mgr.network
  timestamp := now
  correlationId := none
  congestionTrend := none
  trendStrength := none
  freshnessSeconds := some freshnessSeconds
  stalenessThresholdSeconds := some mgr.staleDataThresholdSeconds

def dispatchSpike (now : DateTime) (delivery : WebhookDelivery) (spike : FeeSpike) : Delivery where
  task := .dispatchSpike
  url := delivery.url
  payload := mgr.spikePayload now spike

def dispatch (delivery : WebhookDelivery) (payload : AlertPayload) : Delivery where
  task := .dispatch
  url := delivery.url
  payload := payload

/-- The row that the task of `dispatch_spike` logs once it knows whether the payload was delivered,
if the manager has a repository. -/
def loggedEvent (now : DateTime) (delivery : WebhookDelivery) (spike : FeeSpike) (delivered : Bool)
    (triggeredAt : String) : Option AlertEvent :=
  if mgr.hasRepository then
    let payload := mgr.spikePayload now spike
    some {
      id := none
      configId := none
      alertType := alertTypeSpike
      severity := severityToStr spike.severity
      peakFee := (payload.peakFee.map asI64).getD 0
      baselineFee := payload.baselineFee.getD 0
      spikeRatio := payload.spikeRatio.getD 0
      webhookUrl := delivery.url
      delivered := delivered
      triggeredAt := triggeredAt
      correlationId := payload.correlationId }
  else none

/-! ## One tick -/

/-- The severity named by the threshold of an alert config. -/
def parseThreshold (threshold : String) : Option SpikeSeverity :=
  if threshold = "Minor" then some .minor
  else if threshold = "Moderate" then some .moderate
  else if threshold = "Major" then some .major
  else if threshold = "Critical" then some .critical
  else none

/-- The enabled alert configs of the database, without those whose threshold is no severity. -/
def dbConfigs (tick : AlertTick) : List (String × SpikeSeverity) :=
  if mgr.hasRepository then
    match tick.listAlertConfigs with
    | .ok configs =>
      (configs.filter (·.enabled)).filterMap fun c =>
        (parseThreshold c.threshold).map fun sev => (c.webhookUrl, sev)
    | .error _ => []
  else []

/-- One round of the DB-config loop: a spike and an alert config. -/
def dispatchToConfig (now : DateTime) (spike : FeeSpike) (acc : Finset String × List Delivery)
    (config : String × SpikeSeverity) : Finset String × List Delivery :=
  if !meetsThreshold spike.severity config.2 then acc
  else
    let dedupKey := spikeIdentity spike ++ ":" ++ config.1
    if dedupKey ∈ acc.1 then acc
    else (insert dedupKey acc.1, acc.2 ++ [mgr.dispatchSpike now ⟨config.1⟩ spike])

/-- The DB-config loop, from the dedup set to the new dedup set and the deliveries. -/
def dbConfigLoop (now : DateTime) (spikes : List FeeSpike) (configs : List (String × SpikeSeverity))
    (seen : Finset String) : Finset String × List Delivery :=
  spikes.foldl (fun acc spike => configs.foldl (mgr.dispatchToConfig now spike) acc) (seen, [])

/-- The highest-severity spike meeting the threshold, if any. -/
def qualifying (update : InsightsUpdate) : Option FeeSpike :=
  MaxByKey.maxByKey (fun s => severityRank s.severity)
    (update.recentSpikes.filter fun s => meetsThreshold s.severity mgr.alertThreshold)

/-- The transition into, within or out of an active spike condition. -/
def hysteresis (now : DateTime) (delivery : WebhookDelivery) (update : InsightsUpdate)
    (s : AlertState) : AlertState × List Delivery :=
  match mgr.qualifying update, s.activeSpike with
  | some spike, none =>
    let spikeId := spikeIdentity spike
    ({ s with
        seenSpikes := insert spikeId s.seenSpikes
        activeSpike := some { identity := spikeId, severity := spike.severity } },
      if mgr.typeEnabled alertTypeSpike then [dispatch delivery (mgr.spikePayload now spike)]
      else [])
  | some spike, some _ =>
    let spikeId := spikeIdentity spike
    ({ s with
        seenSpikes := insert spikeId s.seenSpikes
        activeSpike := some { identity := spikeId, severity := spike.severity } },
      [])
  | none, some current =>
    ({ s with activeSpike := none },
      if mgr.typeEnabled alertTypeRecovery then [dispatch delivery (mgr.recoveryPayload now current)]
      else [])
  | none, none => (s, [])

def checkSpikeAndRecovery (now : DateTime) (update : InsightsUpdate) (delivery : WebhookDelivery)
    (configs : List (String × SpikeSeverity)) (useLegacy : Bool) (s : AlertState) :
    AlertState × List Delivery :=
  let activeIds := (update.recentSpikes.map spikeIdentity).toFinset
  let seen := s.seenSpikes.filter (· ∈ activeIds)
  let looped := if useLegacy then (seen, []) else mgr.dbConfigLoop now update.recentSpikes configs seen
  let moved := mgr.hysteresis now delivery update { s with seenSpikes := looped.1 }
  (moved.1, looped.2 ++ moved.2)

/-- Congestion visibly easing: declining, and not weakly. -/
def isGoodWindow (update : InsightsUpdate) : Bool :=
  update.insights.congestionTrends.currentTrend == .declining &&
    update.insights.congestionTrends.trendStrength != .weak

def checkGoodWindow (now : DateTime) (update : InsightsUpdate) (delivery : WebhookDelivery)
    (s : AlertState) : AlertState × List Delivery :=
  let justActivated := isGoodWindow update && !s.goodWindowActive
  ({ s with goodWindowActive := isGoodWindow update },
    if justActivated && mgr.typeEnabled alertTypeGoodWindow then
      [dispatch delivery (mgr.goodWindowPayload now update.insights.congestionTrends)]
    else [])

/-- Data older than the configured threshold. -/
def isStale (update : InsightsUpdate) : Bool :=
  mgr.staleDataThresholdSeconds < update.insights.dataQuality.freshness.numSeconds

def checkStaleData (now : DateTime) (update : InsightsUpdate) (delivery : WebhookDelivery)
    (s : AlertState) : AlertState × List Delivery :=
  let justActivated := mgr.isStale update && !s.staleDataActive
  ({ s with staleDataActive := mgr.isStale update },
    if justActivated && mgr.typeEnabled alertTypeStaleData then
      [dispatch delivery
        (mgr.staleDataPayload now update.insights.dataQuality.freshness.numSeconds)]
    else [])

def checkAndDispatch (s : AlertState) (tick : AlertTick) : AlertState × List Delivery :=
  match mgr.webhookDelivery with
  | none => (s, [])
  | some delivery =>
    let configs := mgr.dbConfigs tick
    let useLegacy := configs.isEmpty
    let spike := mgr.checkSpikeAndRecovery tick.now tick.update delivery configs useLegacy s
    let good := mgr.checkGoodWindow tick.now tick.update delivery spike.1
    let stale := mgr.checkStaleData tick.now tick.update delivery good.1
    (stale.1, spike.2 ++ good.2 ++ stale.2)

end AlertManager

end StellarFeeTracker
