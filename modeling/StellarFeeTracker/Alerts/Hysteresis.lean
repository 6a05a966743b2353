import StellarFeeTracker.Alerts.Tick
import StellarFeeTracker.General.Episode

/-!
# Runs of the hysteresis

After a tick the active spike and the two flags show the conditions of that tick, whatever the state
before it.  So a run of the manager announces the changes of three conditions between a tick and the
one before (`legacy_events`), and the hysteresis is the monitor of `Episode` on the identities of
the qualifying spikes (`emitted_filterMap_spikeEdge`).

A recovery carries the identity of the last spike of the episode, a detection that of the first, so
the two agree exactly in the runs whose episodes end on the identity they began with
(`recoveriesCorrelated_iff`).
-/

namespace StellarFeeTracker

open Machine Episode

namespace AlertManager

variable (mgr : AlertManager)

/-! ## The three conditions of a tick -/

/-- The update has a spike with severity at or above the threshold. -/
def hasQualifying (tick : AlertTick) : Bool :=
  tick.update.recentSpikes.any fun s => meetsThreshold s.severity mgr.alertThreshold

theorem qualifying_isSome (tick : AlertTick) :
    (mgr.qualifying tick.update).isSome = mgr.hasQualifying tick := by
  rw [Bool.eq_iff_iff, Option.isSome_iff_ne_none, qualifying, Ne, MaxByKey.maxByKey_eq_none_iff,
    hasQualifying, List.any_eq_true]
  simp [List.filter_eq_nil_iff]

/-- Whether a condition holds at tick `i`, the ticks being numbered from 1; it is false at 0. -/
def holdsAt (p : AlertTick → Bool) (ticks : List AlertTick) : ℕ → Bool
  | 0 => false
  | i + 1 => ticks[i]?.any p

/-- A part of the state that every tick sets to a condition of its update shows that condition at
the latest tick. -/
theorem observe_eq_holdsAt {delivery : WebhookDelivery} (hw : mgr.webhookDelivery = some delivery)
    (obs : AlertState → Bool) (p : AlertTick → Bool) (h0 : obs .new = false)
    (hobs : ∀ s t, mgr.webhookDelivery = some delivery → obs (mgr.checkAndDispatch s t).1 = p t)
    (ticks : List AlertTick) {i : ℕ} (hi : i ≤ ticks.length) :
    obs (final mgr.checkAndDispatch .new (ticks.take i)) = holdsAt p ticks i := by
  rw [observe_final _ obs p fun s t => hobs s t hw]
  cases i with
  | zero => exact h0
  | succ i =>
    have hlast : (ticks.take (i + 1)).getLast? = ticks[i]? := by
      rw [List.getLast?_take, if_neg (Nat.succ_ne_zero i), Nat.add_sub_cancel]
      rw [List.getElem?_eq_getElem hi]
      rfl
    rw [hlast, holdsAt, List.getElem?_eq_getElem hi]
    rfl

/-! ## Legacy mode -/

/-- A manager with a webhook, without a repository and with all alert types enabled. -/
structure Legacy : Prop where
  webhook : mgr.webhookDelivery.isSome
  noRepository : mgr.hasRepository = false
  allTypes : defaultTypes ⊆ mgr.enabledAlertTypes

/-- The events that tick `i` of a run from a fresh manager sends. -/
def eventsAt (ticks : List AlertTick) (i : ℕ) : List String :=
  ((outputs mgr.checkAndDispatch .new ticks)[i - 1]?.getD []).map (·.payload.event)

theorem loopDeliveries_eq_nil_of_noRepository (h : mgr.hasRepository = false) (s : AlertState)
    (tick : AlertTick) : mgr.loopDeliveries s tick = [] := by
  have hconfigs : mgr.dbConfigs tick = [] := by simp [dbConfigs, h]
  have hpairs : routedPairs tick.update.recentSpikes [] = [] := by simp [routedPairs]
  rw [loopDeliveries, hconfigs, dbConfigLoop_eq, hpairs]
  rfl

theorem typeEnabled_of_legacy {mgr : AlertManager} (h : mgr.Legacy) {t : String}
    (ht : t ∈ defaultTypes) : mgr.typeEnabled t = true :=
  decide_eq_true (h.allTypes ht)

/-- The events of a tick in legacy mode, from what the state shows of the tick before. -/
theorem events_tick_of_legacy {mgr : AlertManager} (h : mgr.Legacy) (s : AlertState)
    (tick : AlertTick) :
    (mgr.checkAndDispatch s tick).2.map (·.payload.event) =
      (if mgr.hasQualifying tick && !s.activeSpike.isSome then ["fee_spike_detected"] else []) ++
      (if !mgr.hasQualifying tick && s.activeSpike.isSome then ["fee_spike_recovered"] else []) ++
      (if isGoodWindow tick.update && !s.goodWindowActive then ["good_submission_window"] else []) ++
      (if mgr.isStale tick.update && !s.staleDataActive then ["data_pipeline_stale"] else []) := by
  obtain ⟨delivery, hw⟩ := Option.isSome_iff_exists.1 h.webhook
  have hspike := typeEnabled_of_legacy h (t := alertTypeSpike) (by decide)
  have hrecovery := typeEnabled_of_legacy h (t := alertTypeRecovery) (by decide)
  have hgood := typeEnabled_of_legacy h (t := alertTypeGoodWindow) (by decide)
  have hstale := typeEnabled_of_legacy h (t := alertTypeStaleData) (by decide)
  have hhyst : (mgr.hysteresisDeliveries delivery s.activeSpike tick).map (·.payload.event) =
      (if mgr.hasQualifying tick && !s.activeSpike.isSome then ["fee_spike_detected"] else []) ++
      (if !mgr.hasQualifying tick && s.activeSpike.isSome then ["fee_spike_recovered"] else []) := by
    unfold hysteresisDeliveries
    rw [← qualifying_isSome, hspike, hrecovery]
    cases mgr.qualifying tick.update <;> cases s.activeSpike <;> rfl
  rw [checkAndDispatch_snd hw, loopDeliveries_eq_nil_of_noRepository mgr h.noRepository,
    List.nil_append, List.map_append, List.map_append, hhyst]
  congr 1
  · congr 1
    rw [goodWindowDeliveries, hgood, Bool.and_true]
    split_ifs <;> rfl
  · rw [staleDataDeliveries, hstale, Bool.and_true]
    split_ifs <;> rfl

/-! ## Announcements of the hysteresis -/

end AlertManager

/-- A detection sent by the hysteresis, not by the DB-config loop. -/
def Delivery.IsHysteresisDetection (d : Delivery) : Bool :=
  d.task == .dispatch && d.payload.event == "fee_spike_detected"

/-- What the hysteresis announces with a delivery. -/
def Delivery.spikeEdge (d : Delivery) : Option (Edge (Option String)) :=
  if d.IsHysteresisDetection then some (.opened d.payload.correlationId)
  else if d.payload.event = "fee_spike_recovered" then some (.closed d.payload.correlationId)
  else none

/-- Every recovery carries the correlation id of the latest detection that the hysteresis sent
before it. -/
def RecoveriesCorrelated (sent : List Delivery) : Prop :=
  ∀ pre r post, sent = pre ++ r :: post → r.payload.event = "fee_spike_recovered" →
    ∃ d, (pre.filter Delivery.IsHysteresisDetection).getLast? = some d ∧
      r.payload.correlationId = d.payload.correlationId

theorem lastOpened_filterMap_spikeEdge (pre : List Delivery) :
    lastOpened (pre.filterMap Delivery.spikeEdge) =
      ((pre.filter Delivery.IsHysteresisDetection).getLast?).map (·.payload.correlationId) := by
  rw [lastOpened, List.filterMap_filterMap, ← List.getLast?_map, ← List.filterMap_eq_map,
    List.filterMap_filter]
  congr 1
  refine List.filterMap_congr fun d _ => ?_
  unfold Delivery.spikeEdge
  split_ifs <;> rfl

theorem spikeEdge_eq_closed_iff (d : Delivery) (b : Option String) :
    d.spikeEdge = some (.closed b) ↔
      d.payload.event = "fee_spike_recovered" ∧ d.payload.correlationId = b := by
  unfold Delivery.spikeEdge
  split_ifs with h1 h2
  · have hevent : d.payload.event = "fee_spike_detected" := by
      simpa using (Bool.and_eq_true_iff.1 h1).2
    simp [hevent]
  · simp [h2]
  · simp [h2]

/-- Recoveries are correlated when the announcements of the hysteresis match. -/
theorem recoveriesCorrelated_iff_closedMatchesOpened (sent : List Delivery) :
    RecoveriesCorrelated sent ↔ ClosedMatchesOpened (sent.filterMap Delivery.spikeEdge) := by
  rw [closedMatchesOpened_filterMap_iff]
  simp only [lastOpened_filterMap_spikeEdge, spikeEdge_eq_closed_iff, Option.map_eq_some_iff]
  constructor
  · rintro h pre r post b hl ⟨hr, rfl⟩
    obtain ⟨d, hd, hid⟩ := h pre r post hl hr
    exact ⟨d, hd, hid.symm⟩
  · intro h pre r post hl hr
    obtain ⟨d, hd, hid⟩ := h pre r post _ hl ⟨hr, rfl⟩
    exact ⟨d, hd, hid.symm⟩

namespace AlertManager

variable (mgr : AlertManager)

/-- The identity of the qualifying spike of a tick, if there is one. -/
def qualifyingIdentity (tick : AlertTick) : Option String :=
  (mgr.qualifying tick.update).map spikeIdentity

section Webhook

variable {mgr} {delivery : WebhookDelivery} (hw : mgr.webhookDelivery = some delivery)
include hw

theorem filterMap_spikeEdge_tick (hspike : mgr.typeEnabled alertTypeSpike = true)
    (hrecovery : mgr.typeEnabled alertTypeRecovery = true) (s : AlertState) (tick : AlertTick) :
    (mgr.checkAndDispatch s tick).2.filterMap Delivery.spikeEdge =
      (Episode.step (s.activeSpike.map fun a => some a.identity)
        ((mgr.qualifyingIdentity tick).map some)).2 := by
  have hloop : (mgr.loopDeliveries s tick).filterMap Delivery.spikeEdge = [] := by
    rw [List.filterMap_eq_nil_iff]
    intro d hd
    obtain ⟨p, -, rfl⟩ := mgr.exists_routed_of_mem_loopDeliveries hd
    rfl
  have hgood : (mgr.goodWindowDeliveries delivery s.goodWindowActive tick).filterMap
      Delivery.spikeEdge = [] := by
    unfold goodWindowDeliveries
    split_ifs <;> rfl
  have hstale : (mgr.staleDataDeliveries delivery s.staleDataActive tick).filterMap
      Delivery.spikeEdge = [] := by
    unfold staleDataDeliveries
    split_ifs <;> rfl
  rw [checkAndDispatch_snd hw, List.filterMap_append, List.filterMap_append, List.filterMap_append,
    hloop, hgood, hstale, List.nil_append, List.append_nil, List.append_nil]
  unfold hysteresisDeliveries qualifyingIdentity
  rw [hspike, hrecovery]
  cases mgr.qualifying tick.update <;> cases s.activeSpike <;> rfl

/-- The hysteresis announces what the monitor of episodes announces on the identities of the
qualifying spikes. -/
theorem emitted_filterMap_spikeEdge (hspike : mgr.typeEnabled alertTypeSpike = true)
    (hrecovery : mgr.typeEnabled alertTypeRecovery = true) (s : AlertState)
    (hs : s.activeSpike = none) (ticks : List AlertTick) :
    (emitted mgr.checkAndDispatch s ticks).filterMap Delivery.spikeEdge =
      emitted Episode.step none ((ticks.map mgr.qualifyingIdentity).map (Option.map some)) := by
  rw [List.map_map, emitted_map]
  symm
  refine emitted_of_simulation
    (fun s episode => s.activeSpike.map (fun a => some a.identity) = episode) _ ?_ (by rw [hs]; rfl)
    ticks
  rintro s _ tick rfl
  refine ⟨?_, (filterMap_spikeEdge_tick hw hspike hrecovery s tick).symm⟩
  rw [checkAndDispatch_activeSpike hw, Episode.step_fst]
  simp [qualifyingIdentity, Option.map_map, Function.comp_def, ActiveSpike.ofSpike]

end Webhook

/-- Without a repository every delivery is a plain `dispatch`. -/
theorem task_eq_dispatch_of_noRepository (h : mgr.hasRepository = false) (ticks : List AlertTick) :
    ∀ d ∈ emitted mgr.checkAndDispatch .new ticks, d.task = .dispatch := by
  have htick : ∀ s tick, ∀ d ∈ (mgr.checkAndDispatch s tick).2, d.task = .dispatch := by
    intro s tick d hd
    rcases hw : mgr.webhookDelivery with _ | delivery
    · rw [checkAndDispatch_of_no_webhook mgr hw] at hd
      cases hd
    · rw [checkAndDispatch_snd hw, loopDeliveries_eq_nil_of_noRepository mgr h] at hd
      exact mgr.task_of_mem_transitions hd
  intro d hd
  obtain ⟨out, hout, hd⟩ := List.mem_flatten.1 hd
  exact outputs_induction mgr.checkAndDispatch (P := fun _ => True)
    (Q := fun out => ∀ d ∈ out, d.task = .dispatch) trivial
    (fun s tick _ _ => ⟨trivial, htick s tick⟩) out hout d hd

/-- The detections and recoveries among plain dispatches are the announcements of the hysteresis. -/
theorem filter_event_eq_map_name {l : List Delivery} (h : ∀ d ∈ l, d.task = .dispatch) :
    ((l.map (·.payload.event)).filter
        fun e => e == "fee_spike_detected" || e == "fee_spike_recovered") =
      (l.filterMap Delivery.spikeEdge).map (Edge.name "fee_spike_detected" "fee_spike_recovered") := by
  rw [List.map_filterMap, List.filter_map, ← List.filterMap_eq_map, List.filterMap_filter]
  refine List.filterMap_congr fun d hd => ?_
  unfold Delivery.spikeEdge Delivery.IsHysteresisDetection
  rw [h d hd]
  by_cases h1 : d.payload.event = "fee_spike_detected"
  · simp [h1, Edge.name]
  · by_cases h2 : d.payload.event = "fee_spike_recovered" <;> simp [h1, h2, Edge.name]

/-- The events at tick `i + 1` of a run in legacy mode are the changes of the three conditions
against tick `i`, and detections and recoveries alternate. -/
theorem legacy_events {mgr : AlertManager} (h : mgr.Legacy) (ticks : List AlertTick) :
    (∀ i < ticks.length,
      let q := holdsAt mgr.hasQualifying ticks
      let g := holdsAt (fun t => isGoodWindow t.update) ticks
      let s := holdsAt (fun t => mgr.isStale t.update) ticks
      mgr.eventsAt ticks (i + 1) =
        (if q (i + 1) && !q i then ["fee_spike_detected"] else []) ++
        (if !q (i + 1) && q i then ["fee_spike_recovered"] else []) ++
        (if g (i + 1) && !g i then ["good_submission_window"] else []) ++
        (if s (i + 1) && !s i then ["data_pipeline_stale"] else [])) ∧
    Alternates "fee_spike_detected" "fee_spike_recovered"
      (((emitted mgr.checkAndDispatch .new ticks).map (·.payload.event)).filter
        fun e => e == "fee_spike_detected" || e == "fee_spike_recovered") := by
  obtain ⟨delivery, hw⟩ := Option.isSome_iff_exists.1 h.webhook
  constructor
  · intro i hi q g s
    have hq : (final mgr.checkAndDispatch .new (ticks.take i)).activeSpike.isSome = q i :=
      mgr.observe_eq_holdsAt hw (·.activeSpike.isSome) mgr.hasQualifying rfl
        (fun s t hw => by
          rw [checkAndDispatch_activeSpike hw, Option.isSome_map, qualifying_isSome]) ticks hi.le
    have hg : (final mgr.checkAndDispatch .new (ticks.take i)).goodWindowActive = g i :=
      mgr.observe_eq_holdsAt hw (·.goodWindowActive) _ rfl
        (fun s t hw => checkAndDispatch_goodWindowActive hw s t) ticks hi.le
    have hs : (final mgr.checkAndDispatch .new (ticks.take i)).staleDataActive = s i :=
      mgr.observe_eq_holdsAt hw (·.staleDataActive) _ rfl
        (fun s t hw => checkAndDispatch_staleDataActive hw s t) ticks hi.le
    have htick : ∀ p : AlertTick → Bool, holdsAt p ticks (i + 1) = p ticks[i] := fun p => by
      rw [holdsAt, List.getElem?_eq_getElem hi]
      rfl
    rw [eventsAt, Nat.add_sub_cancel, outputs_getElem?, List.getElem?_eq_getElem hi,
      Option.map_some, Option.getD_some, events_tick_of_legacy h, hq, hg, hs]
    simp only [q, g, s, htick]
  · rw [filter_event_eq_map_name (mgr.task_eq_dispatch_of_noRepository h.noRepository ticks),
      emitted_filterMap_spikeEdge hw (typeEnabled_of_legacy h (by decide))
        (typeEnabled_of_legacy h (by decide)) _ rfl]
    exact alternates_emitted _ _ _

/-- A spike that comes and goes is detected and recovered. -/
theorem legacy_events_spike_clears :
    let mgr := AlertManager.new (some "https://hooks.example.com/a") .major "mainnet" false
    mgr.eventsAt [tickWith [majorSpike] [], tickWith [] []] 2 = ["fee_spike_recovered"] := by
  intro mgr
  have hlegacy : mgr.Legacy := ⟨rfl, rfl, Finset.Subset.refl _⟩
  exact ((legacy_events hlegacy [tickWith [majorSpike] [], tickWith [] []]).1 1 (by decide)).trans
    (by decide)

/-- Recoveries carry the correlation id of the latest detection in exactly the runs whose episodes
end on the identity they began with. -/
theorem recoveriesCorrelated_iff (hw : mgr.webhookDelivery.isSome)
    (hspike : mgr.typeEnabled alertTypeSpike = true)
    (hrecovery : mgr.typeEnabled alertTypeRecovery = true) (seen : Finset String)
    (ticks : List AlertTick) :
    RecoveriesCorrelated
        (emitted mgr.checkAndDispatch { AlertState.new with seenSpikes := seen } ticks) ↔
      EpisodesReturn (ticks.map mgr.qualifyingIdentity) := by
  obtain ⟨delivery, hw⟩ := Option.isSome_iff_exists.1 hw
  rw [recoveriesCorrelated_iff_closedMatchesOpened,
    emitted_filterMap_spikeEdge hw hspike hrecovery _ rfl, closedMatchesOpened_emitted_iff,
    episodesReturn_map_iff (Option.some_injective _)]

/-- A spike that stays until it clears is recovered under its own identity. -/
theorem recoveriesCorrelated_same_spike :
    RecoveriesCorrelated (emitted
      (AlertManager.new (some "https://hooks.example.com/a") .major "mainnet" false).checkAndDispatch
      .new [tickWith [majorSpike] [], tickWith [majorSpike] [], tickWith [] []]) :=
  (recoveriesCorrelated_iff _ rfl (by decide) (by decide) ∅ _).2 (by decide)

/-- A major spike is detected, a critical one replaces it, and the recovery carries the identity of
the critical spike, which was never announced. -/
theorem replaced_spike_recovery_not_correlated :
    ¬ RecoveriesCorrelated (emitted
      (AlertManager.new (some "https://hooks.example.com/a") .major "mainnet" false).checkAndDispatch
      .new [tickWith [majorSpike] [], tickWith [majorSpike, criticalSpike] [], tickWith [] []]) := by
  intro h
  let mgr := AlertManager.new (some "https://hooks.example.com/a") .major "mainnet" false
  let now := seconds 1736851620
  obtain ⟨d, hd, hid⟩ := h [dispatch ⟨"https://hooks.example.com/a"⟩ (mgr.spikePayload now majorSpike)]
    (dispatch ⟨"https://hooks.example.com/a"⟩
      (mgr.recoveryPayload now (ActiveSpike.ofSpike criticalSpike))) [] (by decide +kernel) rfl
  obtain rfl := Option.some.inj hd
  exact absurd hid (by decide)

end AlertManager

end StellarFeeTracker
