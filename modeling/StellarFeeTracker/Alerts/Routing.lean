import StellarFeeTracker.Alerts.Tick

/-!
# Who hears of a spike

A spike is announced by two paths: the DB-config loop, to each URL an alert config routes it to, and
the hysteresis, to the webhook of the manager, when the spike opens a spike condition (`opening`).
`countP_announces` counts the announcements of a tick; the rest follows from it.

* `announcedAtMostOnce_iff`: a tick repeats an announcement exactly when the webhook of the manager
  is also the URL of an alert config for the opening spike.
* `routingExact_iff`: the loop reads neither the `alert_type` of a row nor, without a webhook, any
  row at all.
* `filtersOutput_iff`: the enabled alert types filter what a run sends as long as the loop sends
  nothing or spikes are enabled.
-/

namespace StellarFeeTracker

open Machine

namespace AlertManager

variable (mgr : AlertManager)

/-! ## The announcements of a tick -/

/-- The spike that the hysteresis announces: the strongest qualifying spike when no spike condition
is active and spikes are enabled. -/
def opening (s : AlertState) (tick : AlertTick) : Option FeeSpike :=
  if s.activeSpike.isNone && mgr.typeEnabled alertTypeSpike then mgr.qualifying tick.update else none

theorem countP_hysteresisDeliveries (delivery : WebhookDelivery) (s : AlertState) (tick : AlertTick)
    (t : FeeSpike) (url : String) :
    (mgr.hysteresisDeliveries delivery s.activeSpike tick).countP
        (Delivery.Announces (spikeIdentity t) url) =
      if (mgr.opening s tick).map spikeIdentity = some (spikeIdentity t) ∧ delivery.url = url
        then 1 else 0 := by
  unfold hysteresisDeliveries opening
  rcases mgr.qualifying tick.update with _ | q <;> rcases s.activeSpike with _ | current <;>
    rcases mgr.typeEnabled alertTypeSpike with _ | _ <;>
    rcases mgr.typeEnabled alertTypeRecovery with _ | _ <;>
    simp [Delivery.Announces, dispatch, spikePayload, recoveryPayload]

theorem countP_goodWindowDeliveries (delivery : WebhookDelivery) (active : Bool) (tick : AlertTick)
    (identity url : String) :
    (mgr.goodWindowDeliveries delivery active tick).countP (Delivery.Announces identity url) = 0 := by
  unfold goodWindowDeliveries
  split_ifs <;> rfl

theorem countP_staleDataDeliveries (delivery : WebhookDelivery) (active : Bool) (tick : AlertTick)
    (identity url : String) :
    (mgr.staleDataDeliveries delivery active tick).countP (Delivery.Announces identity url) = 0 := by
  unfold staleDataDeliveries
  split_ifs <;> rfl

/-- The dedup set has no say in what the loop of a tick announces. -/
theorem countP_loopDeliveries (s : AlertState) (tick : AlertTick) (t : FeeSpike) (url : String) :
    (mgr.loopDeliveries s tick).countP (Delivery.Announces (spikeIdentity t) url) =
      if spikeIdentity t ∈ tick.update.recentSpikes.map spikeIdentity ∧
          Routed (mgr.dbConfigs tick) t.severity url
        then 1 else 0 := by
  rw [loopDeliveries, countP_dbConfigLoop]
  simp only [dedupKey_notMem_pruned, not_false_eq_true, true_and]

/-- A tick announces a spike to a URL once for the loop and once for the hysteresis. -/
theorem countP_announces {mgr : AlertManager} {delivery : WebhookDelivery}
    (hw : mgr.webhookDelivery = some delivery) (s : AlertState) (tick : AlertTick) (t : FeeSpike)
    (url : String) :
    (mgr.checkAndDispatch s tick).2.countP (Delivery.Announces (spikeIdentity t) url) =
      (if spikeIdentity t ∈ tick.update.recentSpikes.map spikeIdentity ∧
          Routed (mgr.dbConfigs tick) t.severity url then 1 else 0) +
      (if (mgr.opening s tick).map spikeIdentity = some (spikeIdentity t) ∧ delivery.url = url
          then 1 else 0) := by
  rw [checkAndDispatch_snd hw, List.countP_append, List.countP_append, List.countP_append,
    countP_loopDeliveries, countP_hysteresisDeliveries, countP_goodWindowDeliveries,
    countP_staleDataDeliveries]
  rfl

theorem exists_announces_iff {mgr : AlertManager} {delivery : WebhookDelivery}
    (hw : mgr.webhookDelivery = some delivery) (s : AlertState) (tick : AlertTick) (t : FeeSpike)
    (url : String) :
    (∃ d ∈ (mgr.checkAndDispatch s tick).2, d.Announces (spikeIdentity t) url = true) ↔
      (spikeIdentity t ∈ tick.update.recentSpikes.map spikeIdentity ∧
          Routed (mgr.dbConfigs tick) t.severity url) ∨
        ((mgr.opening s tick).map spikeIdentity = some (spikeIdentity t) ∧ delivery.url = url) := by
  have hpos : ∀ (p : Prop) [Decidable p], 0 < (if p then 1 else 0 : ℕ) ↔ p := fun p _ => by
    split_ifs with hp <;> simp [hp]
  rw [← List.countP_pos_iff, countP_announces hw, Nat.add_pos_iff_pos_or_pos, hpos, hpos]

theorem mem_of_opening {s : AlertState} {tick : AlertTick} {q : FeeSpike}
    (h : mgr.opening s tick = some q) : q ∈ tick.update.recentSpikes := by
  unfold opening at h
  split_ifs at h
  exact List.mem_of_mem_filter (MaxByKey.mem_of_maxByKey _ h)

/-! ## One announcement to a URL -/

end AlertManager

/-- No spike is announced twice to one URL. -/
def AnnouncedAtMostOnce (sent : List Delivery) : Prop :=
  ∀ (t : FeeSpike) (url : String), sent.countP (Delivery.Announces (spikeIdentity t) url) ≤ 1

namespace AlertManager

variable (mgr : AlertManager)

/-- A tick announces a spike twice to one URL exactly when an alert config routes the opening spike
to the webhook of the manager. -/
theorem announcedAtMostOnce_iff (s : AlertState) (tick : AlertTick) :
    AnnouncedAtMostOnce (mgr.checkAndDispatch s tick).2 ↔
      ∀ delivery ∈ mgr.webhookDelivery, ∀ q ∈ mgr.opening s tick,
        ¬ Routed (mgr.dbConfigs tick) q.severity delivery.url := by
  rcases hw : mgr.webhookDelivery with _ | delivery
  · rw [checkAndDispatch_of_no_webhook mgr hw]
    simp [AnnouncedAtMostOnce]
  simp only [AnnouncedAtMostOnce, countP_announces hw, Option.mem_def, Option.some.injEq,
    forall_eq']
  constructor
  · intro h q hq hrouted
    have hmem : spikeIdentity q ∈ tick.update.recentSpikes.map spikeIdentity :=
      List.mem_map_of_mem (mgr.mem_of_opening hq)
    have htwice := h q delivery.url
    rw [if_pos ⟨hmem, hrouted⟩, if_pos ⟨by rw [hq]; rfl, rfl⟩] at htwice
    omega
  · intro h t url
    by_cases hopen : (mgr.opening s tick).map spikeIdentity = some (spikeIdentity t) ∧
        delivery.url = url
    · obtain ⟨hid, rfl⟩ := hopen
      obtain ⟨q, hq, hid⟩ := Option.map_eq_some_iff.1 hid
      have hnot : ¬ Routed (mgr.dbConfigs tick) t.severity delivery.url := by
        rw [← severity_eq_of_spikeIdentity_eq hid]
        exact h q hq
      rw [if_neg fun hloop => hnot hloop.2]
      split_ifs <;> omega
    · rw [if_neg hopen]
      split_ifs <;> omega

/-- With one alert config for the webhook of the manager, a new major spike is announced to it
twice. -/
theorem config_with_webhook_url_announced_twice :
    ¬ AnnouncedAtMostOnce ((AlertManager.new (some "https://hooks.example.com/a") .major "mainnet"
      true).checkAndDispatch .new
        (tickWith [majorSpike] [enabledRow 1 "https://hooks.example.com/a" "Major" "spike"])).2 := by
  intro h
  exact absurd (h majorSpike "https://hooks.example.com/a") (by decide)

/-! ## The rows of `alert_configs` -/

end AlertManager

/-- An enabled row whose threshold is at or below the severity. -/
def AlertConfig.Fires (row : AlertConfig) (severity : SpikeSeverity) : Bool :=
  row.enabled && (AlertManager.parseThreshold row.threshold).any (meetsThreshold severity)

/-- The URLs that should hear of a spike: those of the rows of the spike type that fire. -/
def spikeUrls (rows : List AlertConfig) (severity : SpikeSeverity) : Set String :=
  {url | ∃ row ∈ rows, row.webhookUrl = url ∧ row.Fires severity = true ∧
    row.alertType = alertTypeSpike}

/-- The URLs of the rows that hear of a spike. -/
def announcedUrls (rows : List AlertConfig) (identity : String) (sent : List Delivery) :
    Set String :=
  {url | url ∈ rows.map (·.webhookUrl) ∧ ∃ d ∈ sent, d.Announces identity url = true}

namespace AlertManager

variable (mgr : AlertManager)

theorem routed_dbConfigs_iff {mgr : AlertManager} (hrepo : mgr.hasRepository = true)
    {tick : AlertTick} {rows : List AlertConfig} (hrows : tick.listAlertConfigs = .ok rows)
    {severity : SpikeSeverity} {url : String} :
    Routed (mgr.dbConfigs tick) severity url ↔
      ∃ row ∈ rows, row.webhookUrl = url ∧ row.Fires severity = true := by
  simp only [Routed, dbConfigs, hrepo, hrows, if_true, List.mem_filterMap, List.mem_filter,
    Option.map_eq_some_iff, AlertConfig.Fires, Bool.and_eq_true, Option.any_eq_true]
  constructor
  · rintro ⟨c, ⟨row, ⟨hrow, henabled⟩, threshold, hthreshold, rfl⟩, hurl, hmeets⟩
    exact ⟨row, hrow, hurl, henabled, threshold, hthreshold, hmeets⟩
  · rintro ⟨row, hrow, hurl, henabled, threshold, hthreshold, hmeets⟩
    exact ⟨_, ⟨row, ⟨hrow, henabled⟩, threshold, hthreshold, rfl⟩, hurl, hmeets⟩

theorem announcedUrls_of_no_webhook (hw : mgr.webhookDelivery = none) (s : AlertState)
    (tick : AlertTick) (rows : List AlertConfig) (identity : String) :
    announcedUrls rows identity (mgr.checkAndDispatch s tick).2 = ∅ := by
  rw [checkAndDispatch_of_no_webhook mgr hw, Set.eq_empty_iff_forall_notMem]
  rintro url ⟨-, d, hd, -⟩
  cases hd

/-- A row URL hears of a recent spike when a row with it fires, or when it is that of the webhook
and the spike opens a spike condition. -/
theorem mem_announcedUrls_iff {mgr : AlertManager} {delivery : WebhookDelivery}
    (hw : mgr.webhookDelivery = some delivery) (hrepo : mgr.hasRepository = true) (s : AlertState)
    {tick : AlertTick} {rows : List AlertConfig} (hrows : tick.listAlertConfigs = .ok rows)
    {t : FeeSpike} (ht : t ∈ tick.update.recentSpikes) (url : String) :
    url ∈ announcedUrls rows (spikeIdentity t) (mgr.checkAndDispatch s tick).2 ↔
      url ∈ rows.map (·.webhookUrl) ∧
        ((∃ row ∈ rows, row.webhookUrl = url ∧ row.Fires t.severity = true) ∨
          ((mgr.opening s tick).map spikeIdentity = some (spikeIdentity t) ∧ delivery.url = url)) := by
  have hrecent : spikeIdentity t ∈ tick.update.recentSpikes.map spikeIdentity :=
    List.mem_map_of_mem ht
  rw [announcedUrls, Set.mem_ofPred_eq, exists_announces_iff hw, routed_dbConfigs_iff hrepo hrows]
  simp only [hrecent, true_and]

/-- The URLs of the rows that hear of a spike are those of the rows of the spike type that fire,
exactly when, with a webhook, each row that fires shares its URL with one of the spike type, and so
does the webhook if it is the URL of a row and the spike opens a spike condition, and, without a
webhook, no row of the spike type fires. -/
theorem routingExact_iff (hrepo : mgr.hasRepository = true) (s : AlertState) (tick : AlertTick)
    (rows : List AlertConfig) (hrows : tick.listAlertConfigs = .ok rows) (t : FeeSpike)
    (ht : t ∈ tick.update.recentSpikes) :
    announcedUrls rows (spikeIdentity t) (mgr.checkAndDispatch s tick).2 =
        spikeUrls rows t.severity ↔
      match mgr.webhookDelivery with
      | some delivery =>
        (∀ row ∈ rows, row.Fires t.severity → row.webhookUrl ∈ spikeUrls rows t.severity) ∧
        ((mgr.opening s tick).map spikeIdentity = some (spikeIdentity t) →
          delivery.url ∈ rows.map (·.webhookUrl) → delivery.url ∈ spikeUrls rows t.severity)
      | none => ∀ row ∈ rows, row.alertType = alertTypeSpike → ¬ row.Fires t.severity := by
  rcases hw : mgr.webhookDelivery with _ | delivery
  · rw [announcedUrls_of_no_webhook mgr hw, eq_comm, Set.eq_empty_iff_forall_notMem]
    constructor
    · intro h row hrow htype hfires
      exact h row.webhookUrl ⟨row, hrow, rfl, hfires, htype⟩
    · rintro h url ⟨row, hrow, -, hfires, htype⟩
      exact h row hrow htype hfires
  · simp only [Set.ext_iff, mem_announcedUrls_iff hw hrepo s hrows ht]
    constructor
    · intro h
      constructor
      · intro row hrow hfires
        exact (h row.webhookUrl).1 ⟨List.mem_map_of_mem hrow, Or.inl ⟨row, hrow, rfl, hfires⟩⟩
      · intro hopen hurl
        exact (h delivery.url).1 ⟨hurl, Or.inr ⟨hopen, rfl⟩⟩
    · rintro ⟨hrow, hopen⟩ url
      constructor
      · rintro ⟨hurl, ⟨row, hmemRow, rfl, hfires⟩ | ⟨hid, rfl⟩⟩
        · exact hrow row hmemRow hfires
        · exact hopen hid hurl
      · rintro ⟨row, hmemRow, rfl, hfires, -⟩
        exact ⟨List.mem_map_of_mem hmemRow, Or.inl ⟨row, hmemRow, rfl, hfires⟩⟩

/-- A row of the spike type hears of a spike that meets its threshold. -/
theorem routingExact_spike_row :
    announcedUrls [enabledRow 1 "https://hooks.example.com/b" "Major" "spike"]
        (spikeIdentity majorSpike)
        ((AlertManager.new (some "https://hooks.example.com/a") .major "mainnet"
          true).checkAndDispatch .new (tickWith [majorSpike]
            [enabledRow 1 "https://hooks.example.com/b" "Major" "spike"])).2 =
      spikeUrls [enabledRow 1 "https://hooks.example.com/b" "Major" "spike"] .major := by
  refine (routingExact_iff _ rfl .new _ _ rfl majorSpike List.mem_cons_self).2 ⟨?_, ?_⟩
  · intro row hrow hfires
    exact ⟨row, hrow, rfl, hfires, by rw [List.mem_singleton.1 hrow]; rfl⟩
  · intro _ hurl
    exact absurd hurl (by decide)

/-- A row of the recovery type hears of a spike. -/
theorem recovery_row_hears_spike :
    announcedUrls [enabledRow 1 "https://hooks.example.com/b" "Major" "recovery"]
        (spikeIdentity majorSpike)
        ((AlertManager.new (some "https://hooks.example.com/a") .major "mainnet"
          true).checkAndDispatch .new (tickWith [majorSpike]
            [enabledRow 1 "https://hooks.example.com/b" "Major" "recovery"])).2 ≠
      spikeUrls [enabledRow 1 "https://hooks.example.com/b" "Major" "recovery"] .major := by
  intro h
  have hheard : "https://hooks.example.com/b" ∈ spikeUrls
      [enabledRow 1 "https://hooks.example.com/b" "Major" "recovery"] .major := by
    rw [← h]
    exact ⟨by decide, by decide⟩
  obtain ⟨row, hrow, -, -, htype⟩ := hheard
  rw [List.mem_singleton.1 hrow] at htype
  exact absurd htype (by decide)

/-! ## The enabled alert types -/

/-- The alert type of an event. -/
def alertTypeOf (event : String) : Option String :=
  if event = "fee_spike_detected" then some alertTypeSpike
  else if event = "fee_spike_recovered" then some alertTypeRecovery
  else if event = "good_submission_window" then some alertTypeGoodWindow
  else if event = "data_pipeline_stale" then some alertTypeStaleData
  else none

/-- The event of a delivery is of an enabled type. -/
def eventEnabled (d : Delivery) : Bool := (alertTypeOf d.payload.event).any mgr.typeEnabled

/-- The manager with all alert types enabled. -/
def withAllTypes : AlertManager := { mgr with enabledAlertTypes := defaultTypes }

/-- The enabled types select what the manager with all types sends at each tick, and both managers
are in the same state after every tick. -/
def FiltersOutput (s : AlertState) (ticks : List AlertTick) : Prop :=
  (∀ k, final mgr.checkAndDispatch s (ticks.take k) =
    final mgr.withAllTypes.checkAndDispatch s (ticks.take k)) ∧
  outputs mgr.checkAndDispatch s ticks =
    (outputs mgr.withAllTypes.checkAndDispatch s ticks).map (List.filter mgr.eventEnabled)

theorem withAllTypes_hysteresis_fst (now : DateTime) (delivery : WebhookDelivery)
    (update : InsightsUpdate) (s : AlertState) :
    (mgr.withAllTypes.hysteresis now delivery update s).1 =
      (mgr.hysteresis now delivery update s).1 := by
  have hq : mgr.withAllTypes.qualifying update = mgr.qualifying update := rfl
  unfold hysteresis
  rw [hq]
  cases mgr.qualifying update <;> cases s.activeSpike <;> rfl

/-- The enabled types do not guard any change of the state. -/
theorem withAllTypes_checkAndDispatch_fst (s : AlertState) (tick : AlertTick) :
    (mgr.withAllTypes.checkAndDispatch s tick).1 = (mgr.checkAndDispatch s tick).1 := by
  have hw : mgr.withAllTypes.webhookDelivery = mgr.webhookDelivery := rfl
  unfold checkAndDispatch
  rw [hw]
  cases mgr.webhookDelivery with
  | none => rfl
  | some delivery =>
    have hspike := mgr.withAllTypes_hysteresis_fst tick.now delivery tick.update
    simp only [checkStaleData, checkGoodWindow, checkSpikeAndRecovery, hspike]
    rfl

theorem withAllTypes_typeEnabled {t : String} (ht : t ∈ defaultTypes) :
    mgr.withAllTypes.typeEnabled t = true :=
  decide_eq_true ht

theorem filter_eventEnabled_singleton {d : Delivery} {t : String}
    (h : alertTypeOf d.payload.event = some t) :
    [d].filter mgr.eventEnabled = if mgr.typeEnabled t then [d] else [] := by
  rw [List.filter_cons, eventEnabled, h]
  rfl

theorem filter_hysteresisDeliveries (delivery : WebhookDelivery) (active : Option ActiveSpike)
    (tick : AlertTick) :
    (mgr.withAllTypes.hysteresisDeliveries delivery active tick).filter mgr.eventEnabled =
      mgr.hysteresisDeliveries delivery active tick := by
  have hq : mgr.withAllTypes.qualifying tick.update = mgr.qualifying tick.update := rfl
  unfold hysteresisDeliveries
  rw [hq, withAllTypes_typeEnabled mgr (t := alertTypeSpike) (by decide),
    withAllTypes_typeEnabled mgr (t := alertTypeRecovery) (by decide)]
  rcases mgr.qualifying tick.update with _ | q <;> rcases active with _ | current
  · rfl
  · exact mgr.filter_eventEnabled_singleton rfl
  · exact mgr.filter_eventEnabled_singleton rfl
  · rfl

theorem filter_goodWindowDeliveries (delivery : WebhookDelivery) (active : Bool) (tick : AlertTick) :
    (mgr.withAllTypes.goodWindowDeliveries delivery active tick).filter mgr.eventEnabled =
      mgr.goodWindowDeliveries delivery active tick := by
  unfold goodWindowDeliveries
  rw [withAllTypes_typeEnabled mgr (t := alertTypeGoodWindow) (by decide)]
  cases isGoodWindow tick.update && !active
  · rfl
  · exact mgr.filter_eventEnabled_singleton rfl

theorem filter_staleDataDeliveries (delivery : WebhookDelivery) (active : Bool) (tick : AlertTick) :
    (mgr.withAllTypes.staleDataDeliveries delivery active tick).filter mgr.eventEnabled =
      mgr.staleDataDeliveries delivery active tick := by
  have hstale : mgr.withAllTypes.isStale tick.update = mgr.isStale tick.update := rfl
  unfold staleDataDeliveries
  rw [withAllTypes_typeEnabled mgr (t := alertTypeStaleData) (by decide), hstale]
  cases mgr.isStale tick.update && !active
  · rfl
  · exact mgr.filter_eventEnabled_singleton rfl

/-- Some alert config routes a recent spike somewhere. -/
def LoopFires (tick : AlertTick) : Prop :=
  ∃ spike ∈ tick.update.recentSpikes, ∃ url, Routed (mgr.dbConfigs tick) spike.severity url

theorem loopDeliveries_eq_nil_iff (s : AlertState) (tick : AlertTick) :
    mgr.loopDeliveries s tick = [] ↔ ¬ mgr.LoopFires tick := by
  constructor
  · rintro h ⟨spike, hspike, url, hrouted⟩
    have hcount := mgr.countP_loopDeliveries s tick spike url
    rw [h, if_pos ⟨List.mem_map_of_mem hspike, hrouted⟩] at hcount
    exact absurd hcount Nat.zero_ne_one
  · intro h
    rw [List.eq_nil_iff_forall_not_mem]
    intro d hd
    obtain ⟨p, hp, -⟩ := mgr.exists_routed_of_mem_loopDeliveries hd
    have hpair := mem_routedPairs.1 hp
    exact h ⟨p.1, hpair.1, p.2, hpair.2⟩

/-- The deliveries of the loop pass the filter when spikes are enabled, and none does otherwise. -/
theorem filter_loopDeliveries (s : AlertState) (tick : AlertTick) :
    (mgr.loopDeliveries s tick).filter mgr.eventEnabled =
      if mgr.typeEnabled alertTypeSpike then mgr.loopDeliveries s tick else [] := by
  have hevent : ∀ d ∈ mgr.loopDeliveries s tick,
      mgr.eventEnabled d = mgr.typeEnabled alertTypeSpike := by
    intro d hd
    obtain ⟨p, -, rfl⟩ := mgr.exists_routed_of_mem_loopDeliveries hd
    rfl
  split_ifs with h
  · exact List.filter_eq_self.2 fun d hd => (hevent d hd).trans h
  · exact List.filter_eq_nil_iff.2 fun d hd => by rwa [hevent d hd]

/-- The deliveries of one tick are filtered, unless the loop sends some and spikes are disabled. -/
theorem filter_checkAndDispatch_iff (s : AlertState) (tick : AlertTick) :
    (mgr.checkAndDispatch s tick).2 =
        (mgr.withAllTypes.checkAndDispatch s tick).2.filter mgr.eventEnabled ↔
      mgr.webhookDelivery = none ∨ mgr.typeEnabled alertTypeSpike = true ∨ ¬ mgr.LoopFires tick := by
  rcases hw : mgr.webhookDelivery with _ | delivery
  · rw [checkAndDispatch_of_no_webhook mgr hw, checkAndDispatch_of_no_webhook mgr.withAllTypes hw]
    simp
  have hall : mgr.withAllTypes.webhookDelivery = some delivery := hw
  have hloop : mgr.withAllTypes.loopDeliveries s tick = mgr.loopDeliveries s tick := rfl
  rw [checkAndDispatch_snd hw, checkAndDispatch_snd hall, List.filter_append, List.filter_append,
    List.filter_append, filter_hysteresisDeliveries, filter_goodWindowDeliveries,
    filter_staleDataDeliveries, hloop, filter_loopDeliveries, List.append_left_inj,
    List.append_left_inj, List.append_left_inj, ← loopDeliveries_eq_nil_iff mgr s]
  split_ifs with h <;> simp [h]

theorem final_withAllTypes (s : AlertState) (ticks : List AlertTick) :
    final mgr.checkAndDispatch s ticks = final mgr.withAllTypes.checkAndDispatch s ticks := by
  induction ticks generalizing s with
  | nil => rfl
  | cons tick ticks ih =>
    rw [final_cons, final_cons, withAllTypes_checkAndDispatch_fst]
    exact ih _

theorem outputs_eq_filter_iff (s : AlertState) (ticks : List AlertTick) :
    outputs mgr.checkAndDispatch s ticks =
        (outputs mgr.withAllTypes.checkAndDispatch s ticks).map (List.filter mgr.eventEnabled) ↔
      ∀ tick ∈ ticks, mgr.webhookDelivery = none ∨ mgr.typeEnabled alertTypeSpike = true ∨
        ¬ mgr.LoopFires tick := by
  induction ticks generalizing s with
  | nil => simp
  | cons tick ticks ih =>
    rw [outputs_cons, outputs_cons, List.map_cons, List.cons.injEq, filter_checkAndDispatch_iff,
      withAllTypes_checkAndDispatch_fst, ih, List.forall_mem_cons]

/-- A run is filtered exactly when it has no webhook, spikes are enabled or the loop never fires. -/
theorem filtersOutput_iff (s : AlertState) (ticks : List AlertTick) :
    mgr.FiltersOutput s ticks ↔
      mgr.webhookDelivery = none ∨ mgr.typeEnabled alertTypeSpike = true ∨
        ∀ tick ∈ ticks, ¬ mgr.LoopFires tick := by
  rw [FiltersOutput, outputs_eq_filter_iff]
  constructor
  · rintro ⟨-, h⟩
    by_cases hw : mgr.webhookDelivery = none
    · exact Or.inl hw
    by_cases hspike : mgr.typeEnabled alertTypeSpike = true
    · exact Or.inr (Or.inl hspike)
    · exact Or.inr (Or.inr fun tick ht => ((h tick ht).resolve_left hw).resolve_left hspike)
  · intro h
    refine ⟨fun k => mgr.final_withAllTypes s _, fun tick ht => ?_⟩
    exact h.imp_right fun h => h.imp_right fun h => h tick ht

/-- A manager with only recoveries enabled still announces a spike to an alert config. -/
theorem loop_ignores_enabled_types :
    ¬ (AlertManager.newWithConfig (some "https://hooks.example.com/a") .major "mainnet" true
      {alertTypeRecovery} 300).FiltersOutput .new
        [tickWith [majorSpike] [enabledRow 1 "https://hooks.example.com/b" "Major" "spike"]] := by
  intro h
  exact absurd (congrArg (List.map List.length) h.2) (by decide)

end AlertManager

end StellarFeeTracker
