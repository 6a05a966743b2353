import StellarFeeTracker.Alerts.Routing
import Mathlib.Data.List.Chain

/-!
# How long the dedup set remembers

The dedup set is pruned to the identities of the update at the start of every tick, and no dedup key
is an identity, so the DB-config loop starts each tick from a set without any of its keys.  It
announces a spike to each of its URLs again in every tick (`dispatchedOnce_iff`), and what was
rehydrated from the log keeps no announcement back (`quietAfterRestart_iff`).
-/

namespace StellarFeeTracker

open Machine

/-! ## Runs with unchanged alert configs -/

/-- A delivery of the DB-config loop that announces the spike to the URL. -/
def Delivery.LoopAnnounces (identity url : String) (d : Delivery) : Bool :=
  d.task == .dispatchSpike && d.Announces identity url

/-- The updates of two consecutive ticks share a spike that the configs route somewhere. -/
def StaysRouted (configs : List (String × SpikeSeverity)) (tick next : AlertTick) : Prop :=
  ∃ t ∈ tick.update.recentSpikes, spikeIdentity t ∈ next.update.recentSpikes.map spikeIdentity ∧
    ∃ url, Routed configs t.severity url

namespace AlertManager

variable (mgr : AlertManager)

/-- Over any stretch of consecutive ticks that all have the spike, the loop announces it at most
once to each URL. -/
def DispatchedOnce (s : AlertState) (ticks : List AlertTick) : Prop :=
  ∀ pre stretch post, ticks = pre ++ stretch ++ post → ∀ t : FeeSpike,
    (∀ tick ∈ stretch, spikeIdentity t ∈ tick.update.recentSpikes.map spikeIdentity) → ∀ url,
      (emitted mgr.checkAndDispatch (final mgr.checkAndDispatch s pre) stretch).countP
        (Delivery.LoopAnnounces (spikeIdentity t) url) ≤ 1

section Webhook

variable {mgr} {delivery : WebhookDelivery} (hw : mgr.webhookDelivery = some delivery)
include hw

/-- The loop is the only part of a tick that spawns `dispatch_spike`. -/
theorem countP_loopAnnounces (s : AlertState) (tick : AlertTick) (t : FeeSpike) (url : String) :
    (mgr.checkAndDispatch s tick).2.countP (Delivery.LoopAnnounces (spikeIdentity t) url) =
      if spikeIdentity t ∈ tick.update.recentSpikes.map spikeIdentity ∧
          Routed (mgr.dbConfigs tick) t.severity url
        then 1 else 0 := by
  have hloop : (mgr.loopDeliveries s tick).countP (Delivery.LoopAnnounces (spikeIdentity t) url) =
      (mgr.loopDeliveries s tick).countP (Delivery.Announces (spikeIdentity t) url) := by
    refine List.countP_congr fun d hd => ?_
    rw [Delivery.LoopAnnounces, mgr.task_of_mem_loopDeliveries hd]
    rfl
  have hrest : ∀ l : List Delivery, (∀ d ∈ l, d.task = .dispatch) →
      l.countP (Delivery.LoopAnnounces (spikeIdentity t) url) = 0 := by
    intro l hl
    refine List.countP_eq_zero.2 fun d hd => ?_
    rw [Delivery.LoopAnnounces, hl d hd]
    exact Bool.false_ne_true
  rw [checkAndDispatch_snd hw, List.append_assoc, List.append_assoc, ← List.append_assoc
    (mgr.hysteresisDeliveries ..), List.countP_append, hloop, countP_loopDeliveries,
    hrest _ fun d hd => mgr.task_of_mem_transitions hd, Nat.add_zero]

/-- Over a stretch that all has the spike, the loop announces it in every tick to every URL that the
configs route it to. -/
theorem countP_emitted_loopAnnounces {configs : List (String × SpikeSeverity)} (s : AlertState)
    (stretch : List AlertTick) (hconfigs : ∀ tick ∈ stretch, mgr.dbConfigs tick = configs)
    (t : FeeSpike)
    (ht : ∀ tick ∈ stretch, spikeIdentity t ∈ tick.update.recentSpikes.map spikeIdentity)
    (url : String) :
    (emitted mgr.checkAndDispatch s stretch).countP (Delivery.LoopAnnounces (spikeIdentity t) url) =
      if Routed configs t.severity url then stretch.length else 0 := by
  induction stretch generalizing s with
  | nil => simp
  | cons tick ticks ih =>
    rw [List.forall_mem_cons] at hconfigs ht
    rw [emitted_cons, List.countP_append, countP_loopAnnounces hw, hconfigs.1, ih _ hconfigs.2 ht.2]
    simp only [ht.1, true_and]
    split_ifs
    · rw [List.length_cons, Nat.add_comm]
    · rfl

end Webhook

/-- A run over unchanged alert configs announces no spike twice in a stretch exactly when no two
consecutive updates share a spike that the configs route somewhere. -/
theorem dispatchedOnce_iff (hw : mgr.webhookDelivery.isSome) (configs : List (String × SpikeSeverity))
    (s : AlertState) (ticks : List AlertTick)
    (hconfigs : ∀ tick ∈ ticks, mgr.dbConfigs tick = configs) :
    mgr.DispatchedOnce s ticks ↔ ticks.IsChain fun tick next => ¬ StaysRouted configs tick next := by
  obtain ⟨delivery, hw⟩ := Option.isSome_iff_exists.1 hw
  rw [List.isChain_iff_forall_rel_of_append_cons_cons]
  have hcount : ∀ {pre stretch post}, ticks = pre ++ stretch ++ post → ∀ (s : AlertState) (t : FeeSpike),
      (∀ tick ∈ stretch, spikeIdentity t ∈ tick.update.recentSpikes.map spikeIdentity) → ∀ url,
      (emitted mgr.checkAndDispatch s stretch).countP
          (Delivery.LoopAnnounces (spikeIdentity t) url) =
        if Routed configs t.severity url then stretch.length else 0 := by
    intro pre stretch post hsplit s t ht url
    refine countP_emitted_loopAnnounces hw s stretch (fun tick htick => hconfigs tick ?_) t ht url
    rw [hsplit]
    exact List.mem_append_left _ (List.mem_append_right _ htick)
  constructor
  · rintro h tick next pre post hticks ⟨t, ht, hnext, url, hrouted⟩
    have hsplit : ticks = pre ++ [tick, next] ++ post := by rw [hticks]; simp
    have hstretch : ∀ u ∈ [tick, next], spikeIdentity t ∈ u.update.recentSpikes.map spikeIdentity := by
      simpa using ⟨⟨t, ht, rfl⟩, by simpa using hnext⟩
    have htwice := h _ _ _ hsplit t hstretch url
    rw [hcount hsplit _ t hstretch, if_pos hrouted] at htwice
    exact absurd htwice (Nat.not_succ_le_self 1)
  · intro h pre stretch post hsplit t ht url
    rw [hcount hsplit _ t ht]
    split_ifs with hrouted
    · match stretch with
      | [] => exact Nat.zero_le 1
      | [_] => exact Nat.le_refl 1
      | tick :: next :: rest =>
        exfalso
        obtain ⟨r, hr, hid⟩ := List.mem_map.1 (ht tick List.mem_cons_self)
        have hadjacent : ticks = pre ++ tick :: next :: (rest ++ post) := by rw [hsplit]; simp
        refine h hadjacent ⟨r, hr, ?_, url, ?_⟩
        · rw [hid]
          exact ht next (List.mem_cons_of_mem _ List.mem_cons_self)
        · rwa [severity_eq_of_spikeIdentity_eq hid]
    · exact Nat.zero_le 1

/-- A spike that is gone in the next update is dispatched once. -/
theorem dispatchedOnce_spike_gone :
    (AlertManager.new (some "https://hooks.example.com/a") .major "mainnet" true).DispatchedOnce .new
      [tickWith [majorSpike] [enabledRow 1 "https://hooks.example.com/b" "Major" "spike"],
        tickWith [] [enabledRow 1 "https://hooks.example.com/b" "Major" "spike"]] := by
  refine (dispatchedOnce_iff _ rfl [("https://hooks.example.com/b", .major)] .new _ ?_).2 ?_
  · intro tick htick
    simp only [List.mem_cons, List.not_mem_nil, or_false] at htick
    rcases htick with rfl | rfl <;> rfl
  · refine List.isChain_cons_cons.2 ⟨?_, List.isChain_singleton _⟩
    rintro ⟨t, -, hnext, -⟩
    cases hnext

/-- A spike that stays for a second tick is dispatched to the same URL again. -/
theorem same_spike_dispatched_in_each_tick :
    ¬ (AlertManager.new (some "https://hooks.example.com/a") .major "mainnet" true).DispatchedOnce
      .new
      [tickWith [majorSpike] [enabledRow 1 "https://hooks.example.com/b" "Major" "spike"],
        tickWith [majorSpike] [enabledRow 1 "https://hooks.example.com/b" "Major" "spike"]] := by
  intro h
  have htwice := h [] _ [] (List.append_nil _).symm majorSpike (by decide)
    "https://hooks.example.com/b"
  exact absurd htwice (by decide)

/-! ## Restarts -/

/-- A row that `dispatch_spike` wrote when it sent the spike to the URL. -/
def WrittenFor (row : AlertEvent) (t : FeeSpike) (url : String) : Prop :=
  ∃ now delivered triggeredAt,
    mgr.loggedEvent now ⟨url⟩ t delivered triggeredAt = some { row with id := none }

/-- Nothing that the log records as dispatched to a URL is announced to it again. -/
def QuietAfterRestart (log : List AlertEvent) (sent : List Delivery) : Prop :=
  ∀ row ∈ log, ∀ t url, mgr.WrittenFor row t url →
    ∀ d ∈ sent, ¬ d.Announces (spikeIdentity t) url = true

theorem rehydrateSeenSpikes_activeSpike (text : Rfc3339)
    (alertEvents : Except SqlError (List AlertEvent)) (s : AlertState) :
    (mgr.rehydrateSeenSpikes text alertEvents s).activeSpike = s.activeSpike := by
  unfold rehydrateSeenSpikes
  cases alertEvents <;> split_ifs <;> rfl

/-- A rehydrated manager is quiet about the log exactly when the first update does not route a
logged spike to its URL, be it by an alert config or as the opening spike of the webhook. -/
theorem quietAfterRestart_iff (text : Rfc3339) (log : List AlertEvent) (tick : AlertTick) :
    mgr.QuietAfterRestart log
        (mgr.checkAndDispatch (mgr.rehydrateSeenSpikes text (.ok log) .new) tick).2 ↔
      ∀ row ∈ log, ∀ t url, mgr.WrittenFor row t url → ∀ delivery ∈ mgr.webhookDelivery,
        ¬ (spikeIdentity t ∈ tick.update.recentSpikes.map spikeIdentity ∧
            Routed (mgr.dbConfigs tick) t.severity url) ∧
        ¬ ((mgr.opening .new tick).map spikeIdentity = some (spikeIdentity t) ∧
            delivery.url = url) := by
  have hopening : mgr.opening (mgr.rehydrateSeenSpikes text (.ok log) .new) tick =
      mgr.opening .new tick := by
    rw [opening, rehydrateSeenSpikes_activeSpike]
    rfl
  unfold QuietAfterRestart
  refine forall₅_congr fun row hrow t url hwritten => ?_
  rcases hw : mgr.webhookDelivery with _ | delivery
  · rw [checkAndDispatch_of_no_webhook mgr hw]
    simp
  · have hannounced := exists_announces_iff hw (mgr.rehydrateSeenSpikes text (.ok log) .new) tick t url
    rw [hopening] at hannounced
    simp only [Option.mem_def, Option.some.injEq, forall_eq']
    rw [← not_or, ← hannounced]
    simp only [not_exists, not_and]

/-- The row that the dispatch of `majorSpike` left in the log. -/
def loggedMajorSpike : AlertEvent where
  id := some 1
  configId := none
  alertType := "spike"
  severity := "Major"
  peakFee := 5000
  baselineFee := 261 / 2
  spikeRatio := 5000 / (261 / 2)
  webhookUrl := "https://hooks.example.com/b"
  delivered := true
  triggeredAt := exampleText.toRfc3339 (seconds 1736851620)
  correlationId := some "Major:1736851500:5000"

/-- A spike dispatched before the restart is dispatched to the same URL after it. -/
theorem logged_spike_dispatched_after_restart :
    let mgr := AlertManager.new (some "https://hooks.example.com/a") .major "mainnet" true
    ¬ mgr.QuietAfterRestart [loggedMajorSpike] (mgr.checkAndDispatch
      (mgr.rehydrateSeenSpikes exampleText (.ok [loggedMajorSpike]) .new)
      (tickWith [majorSpike] [enabledRow 1 "https://hooks.example.com/b" "Major" "spike"])).2 := by
  intro mgr h
  have hwritten : mgr.WrittenFor loggedMajorSpike majorSpike "https://hooks.example.com/b" :=
    ⟨seconds 1736851619, true, exampleText.toRfc3339 (seconds 1736851620), by decide +kernel⟩
  have hannounced : ∃ d ∈ (mgr.checkAndDispatch
      (mgr.rehydrateSeenSpikes exampleText (.ok [loggedMajorSpike]) .new)
      (tickWith [majorSpike] [enabledRow 1 "https://hooks.example.com/b" "Major" "spike"])).2,
      d.Announces (spikeIdentity majorSpike) "https://hooks.example.com/b" = true := by
    decide
  obtain ⟨d, hd, hannounces⟩ := hannounced
  exact h _ List.mem_cons_self majorSpike _ hwritten d hd hannounces

end AlertManager

end StellarFeeTracker
