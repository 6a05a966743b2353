import StellarFeeTracker.Alerts.Hysteresis
import StellarFeeTracker.Alerts.Routing

/-!
# The audit log of a run

The task of `dispatch_spike` logs a row once its webhook has answered, that of `dispatch` logs none.
So the rows of a run match what it sent exactly when every delivery is of the first kind and no write
of a row fails (`auditComplete_iff_tasks`): the DB-config loop may send, and the hysteresis and the
two flags have nothing to announce (`auditComplete_iff`).
-/

namespace StellarFeeTracker

open Machine

/-- The state of a manager before its first tick: new, apart from a rehydrated dedup set. -/
def AlertState.rehydrated (seen : Finset String) : AlertState :=
  { AlertState.new with seenSpikes := seen }

/-! ## The rows of a run -/

/-- How the task of a delivery ends: whether the webhook took the payload, when, and the answer of
the database to the row. -/
structure Finish where
  delivered : Bool
  triggeredAt : String
  logError : Option SqlError
  deriving DecidableEq, Repr

namespace AlertManager

variable (mgr : AlertManager)

/-- The row that a delivery leaves in `alert_events`. -/
def auditRow (d : Delivery) (finish : Finish) : Option AlertEvent :=
  match d.task with
  | .dispatch => none
  | .dispatchSpike =>
    if mgr.hasRepository && finish.logError.isNone then
      some {
        id := none
        configId := none
        alertType := alertTypeSpike
        severity := d.payload.severity.getD ""
        peakFee := (d.payload.peakFee.map asI64).getD 0
        baselineFee := d.payload.baselineFee.getD 0
        spikeRatio := d.payload.spikeRatio.getD 0
        webhookUrl := d.url
        delivered := finish.delivered
        triggeredAt := finish.triggeredAt
        correlationId := d.payload.correlationId }
    else none

/-- The rows that the deliveries of a run leave, once all of them have finished. -/
def auditRows (sent : List Delivery) (finishes : List Finish) : List AlertEvent :=
  (sent.zip finishes).filterMap fun done => mgr.auditRow done.1 done.2

/-- For each type of event there are as many rows as payloads. -/
def AuditComplete (sent : List Delivery) (finishes : List Finish) : Prop :=
  ∀ event alertType, alertTypeOf event = some alertType →
    (mgr.auditRows sent finishes).countP (·.alertType == alertType) =
      sent.countP (·.payload.event == event)

theorem alertType_of_mem_auditRows {sent : List Delivery} {finishes : List Finish}
    {row : AlertEvent} (h : row ∈ mgr.auditRows sent finishes) : row.alertType = alertTypeSpike := by
  obtain ⟨done, -, hrow⟩ := List.mem_filterMap.1 h
  unfold auditRow at hrow
  split at hrow
  · cases hrow
  · split_ifs at hrow
    obtain rfl := Option.some.inj hrow
    rfl

theorem countP_auditRows_spike (sent : List Delivery) (finishes : List Finish) :
    (mgr.auditRows sent finishes).countP (·.alertType == alertTypeSpike) =
      (mgr.auditRows sent finishes).length := by
  rw [List.countP_eq_length]
  intro row hrow
  rw [mgr.alertType_of_mem_auditRows hrow]
  exact beq_self_eq_true _

/-- No row is of another type than that of detected spikes. -/
theorem countP_auditRows_of_ne {event alertType : String} (htype : alertTypeOf event = some alertType)
    (hother : event ≠ "fee_spike_detected") (sent : List Delivery) (finishes : List Finish) :
    (mgr.auditRows sent finishes).countP (·.alertType == alertType) = 0 := by
  have hne : alertTypeSpike ≠ alertType := by
    rintro rfl
    unfold alertTypeOf at htype
    rw [if_neg hother] at htype
    split_ifs at htype <;> revert htype <;> decide
  rw [List.countP_eq_zero]
  intro row hrow heq
  rw [mgr.alertType_of_mem_auditRows hrow, beq_iff_eq] at heq
  exact hne heq

theorem auditRow_isSome_iff (hrepo : mgr.hasRepository = true) (d : Delivery) (finish : Finish) :
    (mgr.auditRow d finish).isSome ↔ d.task = .dispatchSpike ∧ finish.logError = none := by
  unfold auditRow
  rw [hrepo]
  cases d.task with
  | dispatch => simp
  | dispatchSpike => cases finish.logError <;> simp

/-- Every delivery leaves a row exactly when all are `dispatch_spike`'s and no row fails. -/
theorem length_auditRows_eq_iff (hrepo : mgr.hasRepository = true) {sent : List Delivery}
    {finishes : List Finish} (hfinished : finishes.length = sent.length) :
    (mgr.auditRows sent finishes).length = sent.length ↔
      (∀ d ∈ sent, d.task = .dispatchSpike) ∧ ∀ finish ∈ finishes, finish.logError = none := by
  have hzip : (sent.zip finishes).length = sent.length := by
    rw [List.length_zip]
    omega
  rw [← hzip, auditRows, List.filterMap_length_eq_length]
  simp only [auditRow_isSome_iff mgr hrepo]
  constructor
  · intro h
    refine ⟨fun d hd => ?_, fun finish hfinish => ?_⟩
    · rw [← List.map_fst_zip hfinished.ge] at hd
      obtain ⟨done, hdone, rfl⟩ := List.mem_map.1 hd
      exact (h done hdone).1
    · rw [← List.map_snd_zip hfinished.le] at hfinish
      obtain ⟨done, hdone, rfl⟩ := List.mem_map.1 hfinish
      exact (h done hdone).2
  · rintro ⟨htasks, hwrites⟩ done hdone
    exact ⟨htasks _ (List.of_mem_zip hdone).1, hwrites _ (List.of_mem_zip hdone).2⟩

/-! ## What a tick sends -/

/-- Every delivery announces an event of the four types, and `dispatch_spike` a detected spike. -/
def KnownEvent (d : Delivery) : Prop :=
  (alertTypeOf d.payload.event).isSome ∧
    (d.task = .dispatchSpike → d.payload.event = "fee_spike_detected")

theorem knownEvent_of_mem_checkAndDispatch {s : AlertState} {tick : AlertTick} {d : Delivery}
    (h : d ∈ (mgr.checkAndDispatch s tick).2) : KnownEvent d := by
  rcases hw : mgr.webhookDelivery with _ | delivery
  · rw [checkAndDispatch_of_no_webhook mgr hw] at h
    cases h
  rw [checkAndDispatch_snd hw, List.append_assoc, List.append_assoc, List.mem_append,
    ← List.append_assoc] at h
  rcases h with hloop | htransition
  · obtain ⟨p, -, rfl⟩ := mgr.exists_routed_of_mem_loopDeliveries hloop
    exact ⟨rfl, fun _ => rfl⟩
  · refine ⟨?_, fun htask => ?_⟩
    · rw [List.mem_append, List.mem_append] at htransition
      rcases htransition with (h | h) | h
      · unfold hysteresisDeliveries at h
        split at h
        · split_ifs at h <;> simp_all [dispatch, spikePayload, alertTypeOf]
        · split_ifs at h <;> simp_all [dispatch, recoveryPayload, alertTypeOf]
        · cases h
      · unfold goodWindowDeliveries at h
        split_ifs at h <;> simp_all [dispatch, goodWindowPayload, alertTypeOf]
      · unfold staleDataDeliveries at h
        split_ifs at h <;> simp_all [dispatch, staleDataPayload, alertTypeOf]
    · rw [mgr.task_of_mem_transitions htransition] at htask
      cases htask

/-- The log is complete exactly when every delivery is one of `dispatch_spike` and every row is
written. -/
theorem auditComplete_iff_tasks (hrepo : mgr.hasRepository = true) {sent : List Delivery}
    (hsent : ∀ d ∈ sent, KnownEvent d) {finishes : List Finish}
    (hfinished : finishes.length = sent.length) :
    mgr.AuditComplete sent finishes ↔
      (∀ d ∈ sent, d.task = .dispatchSpike) ∧ ∀ finish ∈ finishes, finish.logError = none := by
  rw [← mgr.length_auditRows_eq_iff hrepo hfinished]
  constructor
  · intro hcomplete
    -- no row is of another type, so nothing else was sent
    have hevents : ∀ d ∈ sent, d.payload.event = "fee_spike_detected" := by
      intro d hd
      by_contra hother
      obtain ⟨alertType, htype⟩ := Option.isSome_iff_exists.1 (hsent d hd).1
      have hcount := hcomplete _ _ htype
      rw [mgr.countP_auditRows_of_ne htype hother, eq_comm, List.countP_eq_zero] at hcount
      exact hcount d hd (beq_self_eq_true _)
    have hcount := hcomplete "fee_spike_detected" alertTypeSpike rfl
    rw [mgr.countP_auditRows_spike] at hcount
    rw [hcount, List.countP_eq_length]
    intro d hd
    rw [hevents d hd]
    rfl
  · intro hlength event alertType htype
    have htasks := ((mgr.length_auditRows_eq_iff hrepo hfinished).1 hlength).1
    by_cases hevent : event = "fee_spike_detected"
    · subst hevent
      obtain rfl : alertTypeSpike = alertType := Option.some.inj htype
      rw [mgr.countP_auditRows_spike, hlength, eq_comm, List.countP_eq_length]
      intro d hd
      rw [(hsent d hd).2 (htasks d hd)]
      rfl
    · rw [mgr.countP_auditRows_of_ne htype hevent, eq_comm, List.countP_eq_zero]
      intro d hd heq
      rw [(hsent d hd).2 (htasks d hd), beq_iff_eq] at heq
      exact hevent heq.symm

/-! ## Runs -/

section Webhook

variable {mgr} {delivery : WebhookDelivery}

theorem hysteresisDeliveries_eq_nil_iff (active : Option ActiveSpike) (tick : AlertTick) :
    mgr.hysteresisDeliveries delivery active tick = [] ↔
      (mgr.typeEnabled alertTypeSpike = true → mgr.hasQualifying tick = true →
        active.isSome = true) ∧
      (mgr.typeEnabled alertTypeRecovery = true → mgr.hasQualifying tick = false →
        active.isSome = false) := by
  unfold hysteresisDeliveries
  rw [← qualifying_isSome]
  cases mgr.qualifying tick.update <;> cases active <;> simp

theorem goodWindowDeliveries_eq_nil_iff (active : Bool) (tick : AlertTick) :
    mgr.goodWindowDeliveries delivery active tick = [] ↔
      (mgr.typeEnabled alertTypeGoodWindow = true → isGoodWindow tick.update = true →
        active = true) := by
  unfold goodWindowDeliveries
  cases isGoodWindow tick.update <;> cases active <;> simp

theorem staleDataDeliveries_eq_nil_iff (active : Bool) (tick : AlertTick) :
    mgr.staleDataDeliveries delivery active tick = [] ↔
      (mgr.typeEnabled alertTypeStaleData = true → mgr.isStale tick.update = true →
        active = true) := by
  unfold staleDataDeliveries
  cases mgr.isStale tick.update <;> cases active <;> simp

variable (hw : mgr.webhookDelivery = some delivery)
include hw

/-- A tick spawns only `dispatch_spike` exactly when the hysteresis and the flags send nothing. -/
theorem forall_dispatchSpike_iff (s : AlertState) (tick : AlertTick) :
    (∀ d ∈ (mgr.checkAndDispatch s tick).2, d.task = .dispatchSpike) ↔
      mgr.hysteresisDeliveries delivery s.activeSpike tick = [] ∧
        mgr.goodWindowDeliveries delivery s.goodWindowActive tick = [] ∧
          mgr.staleDataDeliveries delivery s.staleDataActive tick = [] := by
  rw [checkAndDispatch_snd hw]
  constructor
  · intro h
    have hnil : mgr.hysteresisDeliveries delivery s.activeSpike tick ++
        mgr.goodWindowDeliveries delivery s.goodWindowActive tick ++
          mgr.staleDataDeliveries delivery s.staleDataActive tick = [] := by
      rw [List.eq_nil_iff_forall_not_mem]
      intro d hd
      have hdispatch := mgr.task_of_mem_transitions hd
      rw [h d (by rw [List.append_assoc, List.append_assoc, ← List.append_assoc
        (mgr.hysteresisDeliveries _ _ _)]; exact List.mem_append_right _ hd)] at hdispatch
      cases hdispatch
    rwa [List.append_eq_nil_iff, List.append_eq_nil_iff, and_assoc] at hnil
  · rintro ⟨hhysteresis, hgood, hstale⟩ d hd
    rw [hhysteresis, hgood, hstale, List.append_nil, List.append_nil, List.append_nil] at hd
    exact mgr.task_of_mem_loopDeliveries hd

/-- A run from the start spawns only `dispatch_spike` exactly when no tick has a condition to
announce. -/
theorem forall_dispatchSpike_run_iff (seen : Finset String) (ticks : List AlertTick) :
    (∀ d ∈ emitted mgr.checkAndDispatch (.rehydrated seen) ticks,
        d.task = .dispatchSpike) ↔
      (mgr.typeEnabled alertTypeSpike = true → ∀ tick ∈ ticks, mgr.hasQualifying tick = false) ∧
      (mgr.typeEnabled alertTypeRecovery = true → ∀ k tick next, ticks[k]? = some tick →
        ticks[k + 1]? = some next → mgr.hasQualifying tick = true → mgr.hasQualifying next = true) ∧
      (mgr.typeEnabled alertTypeGoodWindow = true →
        ∀ tick ∈ ticks, isGoodWindow tick.update = false) ∧
      (mgr.typeEnabled alertTypeStaleData = true →
        ∀ tick ∈ ticks, mgr.isStale tick.update = false) := by
  have hactive : ∀ s t, (mgr.checkAndDispatch s t).1.activeSpike.isSome = mgr.hasQualifying t := by
    intro s t
    rw [checkAndDispatch_activeSpike hw, Option.isSome_map, qualifying_isSome]
  have hgood : ∀ s t, (mgr.checkAndDispatch s t).1.goodWindowActive = isGoodWindow t.update :=
    checkAndDispatch_goodWindowActive hw
  have hstale : ∀ s t, (mgr.checkAndDispatch s t).1.staleDataActive = mgr.isStale t.update :=
    checkAndDispatch_staleDataActive hw
  have hquiet : (AlertState.rehydrated seen).activeSpike.isSome = false ∧
      (AlertState.rehydrated seen).goodWindowActive = false ∧
      (AlertState.rehydrated seen).staleDataActive = false := ⟨rfl, rfl, rfl⟩
  rw [forall_mem_emitted_iff,
    ← forall_raised_iff _ (fun s : AlertState => s.activeSpike.isSome) _ hactive hquiet.1,
    ← forall_lowered_iff _ (fun s : AlertState => s.activeSpike.isSome) _ hactive hquiet.1,
    ← forall_raised_iff _ AlertState.goodWindowActive _ hgood hquiet.2.1,
    ← forall_raised_iff _ AlertState.staleDataActive _ hstale hquiet.2.2]
  simp only [forall_dispatchSpike_iff hw, hysteresisDeliveries_eq_nil_iff,
    goodWindowDeliveries_eq_nil_iff, staleDataDeliveries_eq_nil_iff]
  constructor
  · intro h
    exact ⟨fun henabled k tick htick => (h k tick htick).1.1 henabled,
      fun henabled k tick htick => (h k tick htick).1.2 henabled,
      fun henabled k tick htick => (h k tick htick).2.1 henabled,
      fun henabled k tick htick => (h k tick htick).2.2 henabled⟩
  · rintro ⟨hspike, hrecovery, hwindow, hold⟩ k tick htick
    exact ⟨⟨fun henabled => hspike henabled k tick htick,
      fun henabled => hrecovery henabled k tick htick⟩,
      fun henabled => hwindow henabled k tick htick,
      fun henabled => hold henabled k tick htick⟩

end Webhook

theorem emitted_of_no_webhook (hw : mgr.webhookDelivery = none) (s : AlertState)
    (ticks : List AlertTick) : emitted mgr.checkAndDispatch s ticks = [] := by
  rw [List.eq_nil_iff_forall_not_mem]
  intro d hd
  obtain ⟨k, tick, -, hd⟩ := (mem_emitted_iff _ _ _).1 hd
  rw [checkAndDispatch_of_no_webhook mgr hw] at hd
  cases hd

/-- The log of a run is complete exactly when nothing is sent, or every row is written and the
hysteresis and the flags have nothing to announce: of each enabled type no tick has the condition,
and for recoveries no tick that qualifies is followed by one that does not. -/
theorem auditComplete_iff (hrepo : mgr.hasRepository = true) (seen : Finset String)
    (ticks : List AlertTick) {finishes : List Finish}
    (hfinished : finishes.length = (emitted mgr.checkAndDispatch
      (.rehydrated seen) ticks).length) :
    mgr.AuditComplete (emitted mgr.checkAndDispatch (.rehydrated seen) ticks)
        finishes ↔
      mgr.webhookDelivery = none ∨
        (∀ finish ∈ finishes, finish.logError = none) ∧
        (mgr.typeEnabled alertTypeSpike = true → ∀ tick ∈ ticks, mgr.hasQualifying tick = false) ∧
        (mgr.typeEnabled alertTypeRecovery = true → ∀ k tick next, ticks[k]? = some tick →
          ticks[k + 1]? = some next → mgr.hasQualifying tick = true →
            mgr.hasQualifying next = true) ∧
        (mgr.typeEnabled alertTypeGoodWindow = true →
          ∀ tick ∈ ticks, isGoodWindow tick.update = false) ∧
        (mgr.typeEnabled alertTypeStaleData = true →
          ∀ tick ∈ ticks, mgr.isStale tick.update = false) := by
  have hsent : ∀ d ∈ emitted mgr.checkAndDispatch (.rehydrated seen) ticks,
      KnownEvent d := by
    intro d hd
    obtain ⟨k, tick, -, hd⟩ := (mem_emitted_iff _ _ _).1 hd
    exact mgr.knownEvent_of_mem_checkAndDispatch hd
  rw [mgr.auditComplete_iff_tasks hrepo hsent hfinished]
  rcases hw : mgr.webhookDelivery with _ | delivery
  · have hnil := mgr.emitted_of_no_webhook hw (.rehydrated seen) ticks
    rw [hnil, List.length_nil, List.length_eq_zero_iff] at hfinished
    rw [hnil, hfinished]
    simp
  · rw [forall_dispatchSpike_run_iff hw, and_comm]
    simp

/-- With only good windows enabled, a spike announced to an alert config leaves its row. -/
theorem auditComplete_loop_only :
    (AlertManager.newWithConfig (some "https://hooks.example.com/a") .major "mainnet" true
      {alertTypeGoodWindow} 300).AuditComplete
      (emitted (AlertManager.newWithConfig (some "https://hooks.example.com/a") .major "mainnet" true
        {alertTypeGoodWindow} 300).checkAndDispatch (.rehydrated ∅)
        [tickWith [majorSpike] [enabledRow 1 "https://hooks.example.com/b" "Major" "spike"]])
      [{ delivered := true, triggeredAt := "2025-01-14T10:47:00+00:00", logError := none }] :=
  (auditComplete_iff _ rfl ∅ _ (by decide)).2 (Or.inr ⟨by decide, by decide,
    fun henabled => absurd henabled (by decide), by decide, by decide⟩)

/-- A spike that clears: its detection and its recovery are sent by the hysteresis, and no row is
written. -/
theorem cleared_spike_not_logged :
    ¬ (AlertManager.new (some "https://hooks.example.com/a") .major "mainnet" true).AuditComplete
      (emitted (AlertManager.new (some "https://hooks.example.com/a") .major "mainnet"
        true).checkAndDispatch .new [tickWith [majorSpike] [], tickWith [] []])
      (List.replicate 2
        { delivered := true, triggeredAt := "2025-01-14T10:47:00+00:00", logError := none }) := by
  intro h
  have hrecovered := h "fee_spike_recovered" alertTypeRecovery rfl
  revert hrecovered
  decide

end AlertManager

end StellarFeeTracker
