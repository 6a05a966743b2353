import StellarFeeTracker.Alerts.Tick
import StellarFeeTracker.General.Episode
import StellarFeeTracker.Insights.Processing
import StellarFeeTracker.Polling.Tick

/-!
# Reports of a stale pipeline

The manager checks for stale data when the insights engine has accepted a batch, so a tick announces
a stale pipeline only if it ends the outage (`sendsStale_iff`), and not if the check before found the
data stale, too.  A run reports each stretch of stale ticks exactly when the first tick of each
brings a batch that the engine accepts, with the flag down (`outagesReported_iff`).
-/

namespace StellarFeeTracker

open Machine Episode FeeInsightsEngine

/-! ## The staleness check of the manager -/

/-- The delivery announces a stale pipeline. -/
def Delivery.AnnouncesStale (d : Delivery) : Bool := d.payload.event == "data_pipeline_stale"

namespace AlertManager

variable {mgr : AlertManager} {delivery : WebhookDelivery} (hw : mgr.webhookDelivery = some delivery)
include hw

/-- Only the staleness check announces a stale pipeline. -/
theorem exists_announcesStale_iff (s : AlertState) (tick : AlertTick) :
    (∃ d ∈ (mgr.checkAndDispatch s tick).2, d.AnnouncesStale = true) ↔
      mgr.isStale tick.update = true ∧ s.staleDataActive = false ∧
        mgr.typeEnabled alertTypeStaleData = true := by
  have hloop : ∀ d ∈ mgr.loopDeliveries s tick, d.AnnouncesStale = false := by
    intro d hd
    obtain ⟨p, -, rfl⟩ := mgr.exists_routed_of_mem_loopDeliveries hd
    rfl
  have hhysteresis : ∀ d ∈ mgr.hysteresisDeliveries delivery s.activeSpike tick,
      d.AnnouncesStale = false := by
    unfold hysteresisDeliveries
    split
    · split_ifs <;> simp [Delivery.AnnouncesStale, dispatch, spikePayload]
    · split_ifs <;> simp [Delivery.AnnouncesStale, dispatch, recoveryPayload]
    · simp
  have hgood : ∀ d ∈ mgr.goodWindowDeliveries delivery s.goodWindowActive tick,
      d.AnnouncesStale = false := by
    unfold goodWindowDeliveries
    split_ifs <;> simp [Delivery.AnnouncesStale, dispatch, goodWindowPayload]
  have hstale : (∃ d ∈ mgr.staleDataDeliveries delivery s.staleDataActive tick,
      d.AnnouncesStale = true) ↔ mgr.isStale tick.update = true ∧ s.staleDataActive = false ∧
        mgr.typeEnabled alertTypeStaleData = true := by
    unfold staleDataDeliveries
    split_ifs with h
    · simp only [Bool.and_eq_true, Bool.not_eq_true'] at h
      simp [h, Delivery.AnnouncesStale, dispatch, staleDataPayload]
    · simp only [Bool.and_eq_true, Bool.not_eq_true', and_assoc] at h
      simp [h]
  rw [← hstale, checkAndDispatch_snd hw]
  constructor
  · rintro ⟨d, hd, hannounces⟩
    rw [List.mem_append, List.mem_append, List.mem_append] at hd
    rcases hd with ((hd | hd) | hd) | hd
    · rw [hloop d hd] at hannounces
      cases hannounces
    · rw [hhysteresis d hd] at hannounces
      cases hannounces
    · rw [hgood d hd] at hannounces
      cases hannounces
    · exact ⟨d, hd, hannounces⟩
  · rintro ⟨d, hd, hannounces⟩
    exact ⟨d, List.mem_append_right _ hd, hannounces⟩

end AlertManager

namespace Poller

variable (poller : Poller)

/-! ## One tick -/

/-- The tick sends an announcement of a stale pipeline. -/
def SendsStale (text : Rfc3339) (s : PollState) (tick : PollTick) : Prop :=
  ∃ d, PollEvent.sent d ∈ (poller.pollOnce text s tick).2 ∧ d.AnnouncesStale = true

/-- The engine accepts the new points of the tick: there are some, all pass and there is a
baseline. -/
def Accepts (s : PollState) (tick : PollTick) : Prop :=
  poller.newPoints s tick ≠ [] ∧ (∀ p ∈ poller.newPoints s tick, Passes tick.now p) ∧
    s.engine.HasBaseline tick.now (poller.newPoints s tick)

instance (s : PollState) (tick : PollTick) : Decidable (poller.Accepts s tick) := by
  unfold Accepts
  infer_instance

section Tick

variable {poller} {mgr : AlertManager} (hmanager : poller.alertManager = some mgr)
  {delivery : WebhookDelivery} (hw : mgr.webhookDelivery = some delivery)
  (henabled : mgr.typeEnabled alertTypeStaleData = true)
include hmanager hw henabled

/-- A tick announces a stale pipeline when the engine accepts its points, the update before was too
long ago, and the check before did not find the data stale. -/
theorem sendsStale_iff (text : Rfc3339) {s : PollState} (hs : s.engine.WellFormed) (tick : PollTick)
    {last : DateTime} (hlast : s.engine.lastUpdate = some last) :
    poller.SendsStale text s tick ↔
      poller.Accepts s tick ∧ mgr.staleDataThresholdSeconds < Duration.numSeconds (tick.now - last) ∧
        s.alerts.staleDataActive = false := by
  have hok := processFeeData_isOk_iff hs tick.now (poller.newPoints s tick)
  have hsent : poller.SendsStale text s tick ↔ poller.newPoints s tick ≠ [] ∧
      ∃ d ∈ (poller.checkProcessed s tick (poller.newPoints s tick)).2, d.AnnouncesStale = true := by
    unfold SendsStale
    rcases poller.pollOnce_cases text s tick with ⟨hnil, metrics, h⟩ | ⟨hne, metrics, h⟩
    · rw [h]
      simp [hnil]
    · rw [h]
      simp [hne]
  rw [hsent, Accepts, ← hok]
  rcases s.engine.processFeeData_cases tick.now (poller.newPoints s tick) with
    ⟨-, err, hcall⟩ | ⟨⟨hne, -⟩, ⟨-, err, hcall⟩ | ⟨-, detector, insights, hcall, hquality⟩⟩
  · simp [checkProcessed, hcall]
  · simp [checkProcessed, hcall]
  · have hstale : mgr.isStale ⟨insights, (poller.newPoints s tick).length⟩ = true ↔
        mgr.staleDataThresholdSeconds < Duration.numSeconds (tick.now - last) := by
      simp [AlertManager.isStale, hquality, calculateDataQuality, hlast]
    simp only [checkProcessed, hcall, hmanager, AlertManager.exists_announcesStale_iff hw, hstale]
    simp [hne, henabled]

end Tick

/-! ## Runs -/

/-- Tick `k` of the run comes more than the threshold after the last update of the insights. -/
def StaleAt (text : Rfc3339) (s : PollState) (ticks : List PollTick) (threshold : Duration) (k : ℕ) :
    Prop :=
  ∃ tick last, ticks[k]? = some tick ∧
    (final (poller.pollOnce text) s (ticks.take k)).engine.lastUpdate = some last ∧
      threshold < tick.now - last

/-- Tick `k` of the run sends an announcement of a stale pipeline. -/
def SendsStaleAt (text : Rfc3339) (s : PollState) (ticks : List PollTick) (k : ℕ) : Prop :=
  ∃ tick, ticks[k]? = some tick ∧
    poller.SendsStale text (final (poller.pollOnce text) s (ticks.take k)) tick

/-- By the end of every stale tick, the stretch of stale ticks that it is in has been announced. -/
def OutagesReported (text : Rfc3339) (s : PollState) (ticks : List PollTick) (threshold : Duration) :
    Prop :=
  ∀ j, poller.StaleAt text s ticks threshold j →
    ∃ i ≤ j, (∀ k, i ≤ k → k ≤ j → poller.StaleAt text s ticks threshold k) ∧
      poller.SendsStaleAt text s ticks i

theorem wellFormed_run (text : Rfc3339) {s : PollState} (hs : s.engine.WellFormed)
    (ticks : List PollTick) : (final (poller.pollOnce text) s ticks).engine.WellFormed := by
  refine final_induction (poller.pollOnce text) (P := fun s : PollState => s.engine.WellFormed) hs ?_
  intro s tick _ h
  rw [pollOnce_engine]
  split_ifs
  · exact h
  · exact h.processFeeData _ _

section Manager

variable {poller} {mgr : AlertManager} (hmanager : poller.alertManager = some mgr)
  {delivery : WebhookDelivery} (hw : mgr.webhookDelivery = some delivery)
  (henabled : mgr.typeEnabled alertTypeStaleData = true)
include hmanager hw henabled

/-- Outages are reported exactly when the first tick of each brings points that the engine accepts,
by whole seconds too late, and the check before did not find the data stale. -/
theorem outagesReported_iff (text : Rfc3339) {config : InsightsConfig} {s : PollState}
    (hs : Reachable config s.engine) (ticks : List PollTick) :
    poller.OutagesReported text s ticks (seconds mgr.staleDataThresholdSeconds) ↔
      ∀ j, Begins (poller.StaleAt text s ticks (seconds mgr.staleDataThresholdSeconds)) j →
        ∀ tick, ticks[j]? = some tick →
          let before := final (poller.pollOnce text) s (ticks.take j)
          poller.Accepts before tick ∧
          (∀ last, before.engine.lastUpdate = some last →
            mgr.staleDataThresholdSeconds < Duration.numSeconds (tick.now - last)) ∧
          before.alerts.staleDataActive = false := by
  unfold OutagesReported
  rw [forall_reported_iff]
  refine forall_congr' fun j => forall_congr' fun hbegins => ?_
  obtain ⟨tick, last, htick, hlast, -⟩ := hbegins.1
  have hwf := poller.wellFormed_run text hs.wellFormed (ticks.take j)
  simp only [SendsStaleAt, htick, Option.some.injEq, exists_eq_left', forall_eq', hlast]
  exact sendsStale_iff hmanager hw henabled text hwf tick hlast

end Manager

end Poller

/-- A manager with a webhook and all alert types enabled, without a repository. -/
def webhookManager : AlertManager := .new (some "https://hooks.example.com/a") .major "mainnet" false

/-- A poller with this manager. -/
def alertingPoller : Poller := { barePoller with alertManager := some webhookManager }

/-- A tick at so many seconds that fetches a point of that time. -/
def tickAt (hash : String) (second : ℤ) : PollTick :=
  { tickFetching [pointAt hash second] with now := seconds (1736851500 + second) }

/-- A tick at so many seconds whose fetch fails. -/
def failingTickAt (second : ℤ) : PollTick :=
  { tickAt "" second with fetchLatestFees := fun _ => .error (.formatError "unexpected response") }

/-- An outage of ten minutes that ends with the tick after it. -/
theorem outagesReported_ended :
    alertingPoller.OutagesReported exampleText (startWith [] 10) [tickAt "a" 0, tickAt "b" 600]
      (seconds 300) := by
  have hstart : Reachable .default (startWith [] 10).engine := .new _
  have hmanager : alertingPoller.alertManager = some webhookManager := rfl
  have hwebhook : webhookManager.webhookDelivery = some ⟨"https://hooks.example.com/a"⟩ := rfl
  refine (Poller.outagesReported_iff hmanager hwebhook (by decide) exampleText hstart _).2 ?_
  rintro (_ | _ | j) hbegins tick htick
  · obtain ⟨_, last, -, hlast, -⟩ := hbegins.1
    cases hlast
  · obtain rfl := Option.some.inj htick
    refine ⟨by decide +kernel, fun last hlast => ?_, by decide +kernel⟩
    have hupdated : (final (alertingPoller.pollOnce exampleText) (startWith [] 10)
        [tickAt "a" 0]).engine.lastUpdate = some (seconds 1736851500) := by
      decide +kernel
    obtain rfl := Option.some.inj (hupdated.symm.trans hlast)
    decide
  · cases htick

/-- While the fetches fail nothing is reported. -/
theorem failing_fetches_not_reported :
    ¬ alertingPoller.OutagesReported exampleText (startWith [] 10) [tickAt "a" 0, failingTickAt 600]
      (seconds 300) := by
  intro h
  obtain ⟨i, hi, -, tick, htick, d, hd, -⟩ := h 1 ⟨_, seconds 1736851500, rfl, by decide +kernel,
    by decide⟩
  have hsilent : (emitted (alertingPoller.pollOnce exampleText) (startWith [] 10)
      [tickAt "a" 0, failingTickAt 600]).length = 0 := by
    decide +kernel
  have hmem : PollEvent.sent d ∈ emitted (alertingPoller.pollOnce exampleText) (startWith [] 10)
      [tickAt "a" 0, failingTickAt 600] := (mem_emitted_iff _ _ _).2 ⟨i, tick, htick, hd⟩
  rw [List.eq_nil_of_length_eq_zero hsilent] at hmem
  cases hmem

end StellarFeeTracker
