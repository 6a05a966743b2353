import StellarFeeTracker.Alerts.Identity
import StellarFeeTracker.General.FirstByKey

/-!
# What one tick of the alert manager does

`checkAndDispatch_eq` splits a tick of a manager with a webhook into the DB-config loop, the
hysteresis and the two flags.  The dedup set that the loop starts from holds identities only, so no
dedup key survives the pruning (`dedupKey_notMem_pruned`), and the loop announces each spike to each
URL it is routed to exactly once (`countP_dbConfigLoop`).
-/

namespace StellarFeeTracker

open FirstByKey

/-! ## Routing a spike through the alert configs -/

/-- Some alert config sends spikes of this severity to the URL. -/
def Routed (configs : List (String × SpikeSeverity)) (severity : SpikeSeverity) (url : String) :
    Prop :=
  ∃ c ∈ configs, c.1 = url ∧ meetsThreshold severity c.2 = true

instance (configs : List (String × SpikeSeverity)) (severity : SpikeSeverity) (url : String) :
    Decidable (Routed configs severity url) :=
  inferInstanceAs (Decidable (∃ c ∈ configs, c.1 = url ∧ meetsThreshold severity c.2 = true))

/-- The spikes with the URLs of the configs whose threshold they meet, in the order of the loop. -/
def routedPairs (spikes : List FeeSpike) (configs : List (String × SpikeSeverity)) :
    List (FeeSpike × String) :=
  spikes.flatMap fun s => (configs.filter fun c => meetsThreshold s.severity c.2).map fun c => (s, c.1)

/-- The dedup key of a spike and a URL. -/
def pairKey (p : FeeSpike × String) : String := dedupKey (spikeIdentity p.1) p.2

theorem mem_routedPairs {spikes : List FeeSpike} {configs : List (String × SpikeSeverity)}
    {p : FeeSpike × String} :
    p ∈ routedPairs spikes configs ↔ p.1 ∈ spikes ∧ Routed configs p.1.severity p.2 := by
  obtain ⟨s, u⟩ := p
  simp only [routedPairs, List.mem_flatMap, List.mem_map, List.mem_filter, Prod.mk.injEq]
  constructor
  · rintro ⟨s, hs, c, ⟨hc, hmeets⟩, rfl, rfl⟩
    exact ⟨hs, c, hc, rfl, hmeets⟩
  · rintro ⟨hs, c, hc, rfl, hmeets⟩
    exact ⟨s, hs, c, ⟨hc, hmeets⟩, rfl, rfl⟩

/-- A dedup key comes up in the loop when a spike of its identity is recent and routed to its URL. -/
theorem dedupKey_mem_routedPairs {spikes : List FeeSpike} {configs : List (String × SpikeSeverity)}
    {t : FeeSpike} {url : String} :
    dedupKey (spikeIdentity t) url ∈ (routedPairs spikes configs).map pairKey ↔
      spikeIdentity t ∈ spikes.map spikeIdentity ∧ Routed configs t.severity url := by
  simp only [List.mem_map, mem_routedPairs, pairKey]
  constructor
  · rintro ⟨⟨s, u⟩, ⟨hs, hrouted⟩, hkey⟩
    obtain ⟨hid, rfl⟩ := dedupKey_inj.1 hkey
    rw [severity_eq_of_spikeIdentity_eq hid] at hrouted
    exact ⟨⟨s, hs, hid⟩, hrouted⟩
  · rintro ⟨⟨s, hs, hid⟩, hrouted⟩
    rw [← severity_eq_of_spikeIdentity_eq hid] at hrouted
    exact ⟨(s, url), ⟨hs, hrouted⟩, dedupKey_inj.2 ⟨hid, rfl⟩⟩

/-- The active spike that a qualifying spike becomes. -/
def ActiveSpike.ofSpike (s : FeeSpike) : ActiveSpike where
  identity := spikeIdentity s
  severity := s.severity

/-! ## The DB-config loop -/

/-- A delivery announces the spike to the URL. -/
def Delivery.Announces (identity url : String) (d : Delivery) : Bool :=
  d.payload.event == "fee_spike_detected" && d.payload.correlationId == some identity && d.url == url

namespace AlertManager

variable (mgr : AlertManager)

theorem dbConfigLoop_eq (now : DateTime) (spikes : List FeeSpike)
    (configs : List (String × SpikeSeverity)) (seen : Finset String) :
    mgr.dbConfigLoop now spikes configs seen =
      (seenAfter pairKey seen (routedPairs spikes configs),
        (firstByKey pairKey seen (routedPairs spikes configs)).map fun p =>
          mgr.dispatchSpike now ⟨p.2⟩ p.1) := by
  let act : FeeSpike × String → Delivery := fun p => mgr.dispatchSpike now ⟨p.2⟩ p.1
  have hround : ∀ (s : FeeSpike) (acc : Finset String × List Delivery),
      configs.foldl (mgr.dispatchToConfig now s) acc =
        ((configs.filter fun c => meetsThreshold s.severity c.2).map fun c => (s, c.1)).foldl
          (insertNew pairKey act) acc := by
    intro s acc
    rw [List.foldl_map, List.foldl_filter]
    congr 1
    funext acc c
    unfold dispatchToConfig
    cases meetsThreshold s.severity c.2 <;> rfl
  have hloop : mgr.dbConfigLoop now spikes configs seen =
      (routedPairs spikes configs).foldl (insertNew pairKey act) (seen, []) := by
    unfold dbConfigLoop routedPairs
    rw [List.foldl_flatMap]
    congr 1
    funext acc s
    exact hround s acc
  rw [hloop, foldl_insertNew, List.nil_append]

theorem announces_dispatchSpike_iff (now : DateTime) (s t : FeeSpike) (u url : String) :
    (mgr.dispatchSpike now ⟨u⟩ s).Announces (spikeIdentity t) url = true ↔
      pairKey (s, u) = dedupKey (spikeIdentity t) url := by
  simp [Delivery.Announces, dispatchSpike, spikePayload, pairKey, dedupKey_inj]

/-- The loop announces a spike to a URL once, if the key is new and the spike is recent and routed
there, and never otherwise. -/
theorem countP_dbConfigLoop (now : DateTime) (spikes : List FeeSpike)
    (configs : List (String × SpikeSeverity)) (seen : Finset String) (t : FeeSpike) (url : String) :
    (mgr.dbConfigLoop now spikes configs seen).2.countP (Delivery.Announces (spikeIdentity t) url) =
      if dedupKey (spikeIdentity t) url ∉ seen ∧
          spikeIdentity t ∈ spikes.map spikeIdentity ∧ Routed configs t.severity url
        then 1 else 0 := by
  rw [dbConfigLoop_eq, List.countP_map]
  have hcount := count_map_firstByKey pairKey seen (routedPairs spikes configs)
    (dedupKey (spikeIdentity t) url)
  rw [List.count_eq_countP, List.countP_map] at hcount
  simp only [dedupKey_mem_routedPairs] at hcount
  refine (List.countP_congr fun p _ => ?_).trans hcount
  simp only [Function.comp_apply, announces_dispatchSpike_iff, beq_iff_eq]

/-! ## The parts of a tick -/

/-- The dedup set after pruning to the identities of the update. -/
def pruned (update : InsightsUpdate) (s : AlertState) : Finset String :=
  s.seenSpikes.filter (· ∈ (update.recentSpikes.map spikeIdentity).toFinset)

theorem dedupKey_notMem_pruned (update : InsightsUpdate) (s : AlertState) (t : FeeSpike)
    (url : String) : dedupKey (spikeIdentity t) url ∉ pruned update s := by
  intro h
  have hmem := (Finset.mem_filter.1 h).2
  rw [List.mem_toFinset, List.mem_map] at hmem
  obtain ⟨r, -, hr⟩ := hmem
  exact dedupKey_ne_spikeIdentity t r url hr.symm

/-- The deliveries of the DB-config loop in a tick. -/
def loopDeliveries (s : AlertState) (tick : AlertTick) : List Delivery :=
  (mgr.dbConfigLoop tick.now tick.update.recentSpikes (mgr.dbConfigs tick)
    (pruned tick.update s)).2

/-- The deliveries of the hysteresis, `active` being the active spike before the tick. -/
def hysteresisDeliveries (delivery : WebhookDelivery) (active : Option ActiveSpike)
    (tick : AlertTick) : List Delivery :=
  match mgr.qualifying tick.update, active with
  | some spike, none =>
    if mgr.typeEnabled alertTypeSpike then [dispatch delivery (mgr.spikePayload tick.now spike)]
    else []
  | none, some current =>
    if mgr.typeEnabled alertTypeRecovery then
      [dispatch delivery (mgr.recoveryPayload tick.now current)]
    else []
  | _, _ => []

/-- The delivery of the good-window check, `active` being the flag before the tick. -/
def goodWindowDeliveries (delivery : WebhookDelivery) (active : Bool) (tick : AlertTick) :
    List Delivery :=
  if (isGoodWindow tick.update && !active) && mgr.typeEnabled alertTypeGoodWindow then
    [dispatch delivery (mgr.goodWindowPayload tick.now tick.update.insights.congestionTrends)]
  else []

/-- The delivery of the staleness check, `active` being the flag before the tick. -/
def staleDataDeliveries (delivery : WebhookDelivery) (active : Bool) (tick : AlertTick) :
    List Delivery :=
  if (mgr.isStale tick.update && !active) && mgr.typeEnabled alertTypeStaleData then
    [dispatch delivery
      (mgr.staleDataPayload tick.now tick.update.insights.dataQuality.freshness.numSeconds)]
  else []

/-- Every delivery of the loop is the one of a routed pair. -/
theorem exists_routed_of_mem_loopDeliveries {s : AlertState} {tick : AlertTick} {d : Delivery}
    (h : d ∈ mgr.loopDeliveries s tick) :
    ∃ p ∈ routedPairs tick.update.recentSpikes (mgr.dbConfigs tick),
      d = mgr.dispatchSpike tick.now ⟨p.2⟩ p.1 := by
  rw [loopDeliveries, dbConfigLoop_eq] at h
  obtain ⟨p, hp, rfl⟩ := List.mem_map.1 h
  exact ⟨p, (firstByKey_sublist _ _ _).subset hp, rfl⟩

theorem task_of_mem_loopDeliveries {s : AlertState} {tick : AlertTick} {d : Delivery}
    (h : d ∈ mgr.loopDeliveries s tick) : d.task = .dispatchSpike := by
  obtain ⟨p, -, rfl⟩ := mgr.exists_routed_of_mem_loopDeliveries h
  rfl

/-- Only the DB-config loop spawns `dispatch_spike`. -/
theorem task_of_mem_transitions {delivery : WebhookDelivery} {active : Option ActiveSpike}
    {goodWindow staleData : Bool} {tick : AlertTick} {d : Delivery}
    (h : d ∈ mgr.hysteresisDeliveries delivery active tick ++
      mgr.goodWindowDeliveries delivery goodWindow tick ++
        mgr.staleDataDeliveries delivery staleData tick) : d.task = .dispatch := by
  rw [List.mem_append, List.mem_append] at h
  rcases h with (h | h) | h
  · unfold hysteresisDeliveries at h
    cases hq : mgr.qualifying tick.update <;> cases active <;> rw [hq] at h <;> grind [dispatch]
  · unfold goodWindowDeliveries at h
    grind [dispatch]
  · unfold staleDataDeliveries at h
    grind [dispatch]

theorem hysteresis_snd (delivery : WebhookDelivery) (tick : AlertTick)
    (s : AlertState) :
    (mgr.hysteresis tick.now delivery tick.update s).2 =
      mgr.hysteresisDeliveries delivery s.activeSpike tick := by
  unfold hysteresis hysteresisDeliveries
  cases mgr.qualifying tick.update <;> cases s.activeSpike <;> rfl

theorem hysteresis_activeSpike (now : DateTime) (delivery : WebhookDelivery)
    (update : InsightsUpdate) (s : AlertState) :
    (mgr.hysteresis now delivery update s).1.activeSpike =
      (mgr.qualifying update).map ActiveSpike.ofSpike := by
  unfold hysteresis
  cases hq : mgr.qualifying update <;> cases ha : s.activeSpike <;> simp [ActiveSpike.ofSpike, ha]

theorem hysteresis_flags (now : DateTime) (delivery : WebhookDelivery) (update : InsightsUpdate)
    (s : AlertState) :
    (mgr.hysteresis now delivery update s).1.goodWindowActive = s.goodWindowActive ∧
      (mgr.hysteresis now delivery update s).1.staleDataActive = s.staleDataActive := by
  unfold hysteresis
  cases mgr.qualifying update <;> cases s.activeSpike <;> exact ⟨rfl, rfl⟩

/-- With no configs the loop does nothing, so the legacy flag changes nothing. -/
theorem looped_eq (now : DateTime) (spikes : List FeeSpike)
    (configs : List (String × SpikeSeverity)) (seen : Finset String) :
    (if configs.isEmpty then (seen, []) else mgr.dbConfigLoop now spikes configs seen) =
      mgr.dbConfigLoop now spikes configs seen := by
  cases configs with
  | nil =>
    have hpairs : routedPairs spikes [] = [] := by simp [routedPairs]
    rw [dbConfigLoop_eq, hpairs]
    simp
  | cons c cs => rfl

section Webhook

variable {mgr} {delivery : WebhookDelivery} (hw : mgr.webhookDelivery = some delivery)
include hw

/-- The deliveries of a tick: the loop, the hysteresis and the two flags, each from the state before
the tick. -/
theorem checkAndDispatch_snd (s : AlertState) (tick : AlertTick) :
    (mgr.checkAndDispatch s tick).2 =
      mgr.loopDeliveries s tick ++ mgr.hysteresisDeliveries delivery s.activeSpike tick ++
        mgr.goodWindowDeliveries delivery s.goodWindowActive tick ++
          mgr.staleDataDeliveries delivery s.staleDataActive tick := by
  unfold checkAndDispatch
  rw [hw]
  simp only [checkSpikeAndRecovery, looped_eq, checkGoodWindow, checkStaleData, hysteresis_snd,
    hysteresis_flags]
  rfl

theorem checkAndDispatch_activeSpike (s : AlertState) (tick : AlertTick) :
    (mgr.checkAndDispatch s tick).1.activeSpike =
      (mgr.qualifying tick.update).map ActiveSpike.ofSpike := by
  unfold checkAndDispatch
  rw [hw]
  exact hysteresis_activeSpike ..

theorem checkAndDispatch_goodWindowActive (s : AlertState) (tick : AlertTick) :
    (mgr.checkAndDispatch s tick).1.goodWindowActive = isGoodWindow tick.update := by
  unfold checkAndDispatch
  rw [hw]
  rfl

theorem checkAndDispatch_staleDataActive (s : AlertState) (tick : AlertTick) :
    (mgr.checkAndDispatch s tick).1.staleDataActive = mgr.isStale tick.update := by
  unfold checkAndDispatch
  rw [hw]
  rfl

end Webhook

theorem checkAndDispatch_of_no_webhook (h : mgr.webhookDelivery = none) (s : AlertState)
    (tick : AlertTick) : mgr.checkAndDispatch s tick = (s, []) := by
  unfold checkAndDispatch
  rw [h]

end AlertManager

/-! ## The fixtures of the alert tests -/

/-- `build_update_custom` of the alert tests. -/
def buildUpdateCustom (spikes : List FeeSpike) (trend : TrendIndicator) (strength : TrendStrength)
    (freshnessSeconds : ℤ) : InsightsUpdate :=
  let now := seconds 1736851620
  let avg : AverageResult :=
    { value := 261 / 2, sampleCount := 10, isPartial := false, calculatedAt := now,
      timeWindow := { name := "1h", duration := hours 1, minSamples := 1 } }
  { insights := {
      rollingAverages := { shortTerm := avg, mediumTerm := avg, longTerm := avg }
      extremes := {
        currentMin := { value := 100, timestamp := now, transactionHash := "min" }
        currentMax := { value := 5000, timestamp := now, transactionHash := "max" }
        periodStart := now - hours 1
        periodEnd := now }
      congestionTrends := {
        currentTrend := trend
        congestionLevel := .fromTrend trend
        recentSpikes := spikes
        trendStrength := strength
        predictedDuration := none }
      lastUpdated := now
      dataQuality := {
        completeness := 1, freshness := seconds freshnessSeconds, hasGaps := false
        lastGap := none } }
    dataPointsProcessed := 1 }

/-- `make_spike` of the alert tests. -/
def makeSpike (severity : SpikeSeverity) (startTime : DateTime) (peakFee : ℕ) : FeeSpike where
  peakFee := peakFee
  baselineFee := 261 / 2
  spikeRatio := peakFee / (261 / 2)
  startTime := startTime
  duration := seconds 120
  severity := severity

/-- A tick with these recent spikes and alert configs, fresh data and no good window. -/
def tickWith (spikes : List FeeSpike) (configs : List AlertConfig) : AlertTick where
  update := buildUpdateCustom spikes .rising .strong 5
  listAlertConfigs := .ok configs
  now := seconds 1736851620

/-- An enabled alert config row. -/
def enabledRow (id : ℤ) (url threshold alertType : String) : AlertConfig where
  id := id
  webhookUrl := url
  threshold := threshold
  alertType := alertType
  enabled := true
  createdAt := "2025-01-14 10:00:00"

/-- A major spike. -/
def majorSpike : FeeSpike := makeSpike .major (seconds 1736851500) 5000

/-- A critical spike one minute later. -/
def criticalSpike : FeeSpike := makeSpike .critical (seconds 1736851560) 6000

end StellarFeeTracker
