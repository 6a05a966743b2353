import StellarFeeTracker.Alerts.Routing
import StellarFeeTracker.Api.AlertConfigs

/-!
# The alert configs of a running service

The alert manager ticks between the statements of the requests on the table of alert configs.

* `alertConfigs_of_schedule`: the rows after a schedule.
* `deliveries_of_schedule`: whom the manager has told of spikes.
* `deleted_row_stays_quiet`: a disabled row that no PATCH is open for.
-/

namespace StellarFeeTracker

open Machine Parties

/-! ## The service -/

/-- A request enters or makes a statement, or the alert manager ticks. -/
inductive AlertsEvent where
  | request (event : Event AlertConfigRequest SqlAnswer)
  | tick (update : InsightsUpdate) (answer : SqlAnswer) (now : DateTime)

structure AlertsService where
  requests : System AlertConfigTable AlertConfigParty
  alerts : AlertState

namespace AlertsService

/-- A service with an empty table. -/
def start (alerts : AlertState) : AlertsService where
  requests := { shared := { configs := [], sequence := 0 }, parties := [] }
  alerts := alerts

/-- A statement of a request, which sends nothing. -/
def statement (table : AlertConfigTable) (party : AlertConfigParty) (answer : SqlAnswer) :
    (AlertConfigTable × AlertConfigParty) × List Delivery :=
  (party.act table answer, [])

def step (mgr : AlertManager) (s : AlertsService) : AlertsEvent → AlertsService × List Delivery
  | .request event =>
    ({ s with requests := (Parties.step AlertConfigParty.enter statement s.requests event).1 }, [])
  | .tick update answer now =>
    let ticked := mgr.checkAndDispatch s.alerts
      { update, listAlertConfigs := answer.listed s.requests.shared.configs, now }
    ({ s with alerts := ticked.1 }, ticked.2)

variable {mgr : AlertManager}

/-- What entering and the acts of requests preserve, an event preserves. -/
theorem step_requests_induction {P : System AlertConfigTable AlertConfigParty → Prop}
    {s : AlertsService} (event : AlertsEvent) (h : P s.requests)
    (henter : ∀ request, event = .request (.enter request) →
      P { s.requests with parties := s.requests.parties ++ [.enter request] })
    (hacted : ∀ k party table' party', s.requests.parties[k]? = some party →
      Acted s.requests.shared party table' party' →
        P ⟨table', s.requests.parties.set k party'⟩) :
    P (step mgr s event).1.requests := by
  cases event with
  | tick update answer now => exact h
  | request event =>
    cases event with
    | enter request => exact henter request rfl
    | act k answer =>
      cases hk : s.requests.parties[k]? with
      | none => simpa [step, Parties.step, hk] using h
      | some party =>
        simp only [step, step_act hk]
        exact hacted k party _ _ hk (party.act_acted s.requests.shared answer)

theorem configsInv_final {s : AlertsService} (h : ConfigsInv s.requests)
    (events : List AlertsEvent) : ConfigsInv (final (step mgr) s events).requests :=
  final_induction (step mgr) (P := fun s => ConfigsInv s.requests) h fun _ event _ h =>
    step_requests_induction event h (fun request _ => h.enter request)
      fun _ _ _ _ hk hacted => h.acted hk hacted

theorem configsInv_start (alerts : AlertState) : ConfigsInv (start alerts).requests where
  ids := rfl
  sequence := rfl
  valid := by simp [start]
  created := .refl _
  written := by simp [start]
  merged := by simp [start]

/-- A row is never moved or dropped, and keeps its id, its URL and its time. -/
theorem keys_prefix_final (s : AlertsService) (events : List AlertsEvent) :
    s.requests.shared.configs.map AlertConfig.key <+:
      (final (step mgr) s events).requests.shared.configs.map AlertConfig.key := by
  refine final_induction (step mgr) (P := fun t => s.requests.shared.configs.map AlertConfig.key <+:
    t.requests.shared.configs.map AlertConfig.key) List.prefix_rfl fun t event _ h => ?_
  refine step_requests_induction (P := fun r => s.requests.shared.configs.map AlertConfig.key <+:
    r.shared.configs.map AlertConfig.key) event h (fun _ _ => h) fun _ _ _ _ _ hacted => ?_
  have hsame : ∀ {f : AlertConfig → AlertConfig}, (∀ row, (f row).key = row.key) →
      (t.requests.shared.configs.map f).map AlertConfig.key =
        t.requests.shared.configs.map AlertConfig.key := by
    intro f hf
    rw [List.map_map]
    exact List.map_congr_left fun row _ => hf row
  cases hacted with
  | idle => exact h
  | rejected => exact h
  | merged => exact h
  | created =>
    rw [insertAlertConfigTyped, List.map_append]
    exact h.trans (List.prefix_append _ _)
  | updated =>
    rw [hsame (updatedRow_key _ _)]
    exact h
  | deleted =>
    rw [hsame (deletedRow_key _)]
    exact h

/-- After every schedule each row has valid values, each given by a request that succeeded, and an
accepted URL; the ids count the rows; the create requests that succeeded are in bijection with the
rows; and no row will be moved or dropped, or change its id, its URL or its time. -/
theorem alertConfigs_of_schedule (mgr : AlertManager) (alerts : AlertState)
    (events later : List AlertsEvent) :
    let s := (final (step mgr) (start alerts) events).requests
    (∀ row ∈ s.shared.configs, row.Valid ∧ Written s.parties row.id row.values) ∧
      s.shared.configs.map (·.id) =
        (List.range s.shared.configs.length).map (fun n : ℕ => (n : ℤ) + 1) ∧
      (s.parties.filterMap AlertConfigParty.createdKey).Perm
        (s.shared.configs.map fun row => (row.id, row.webhookUrl)) ∧
      s.shared.configs.map AlertConfig.key <+:
        (final (step mgr) (start alerts) (events ++ later)).requests.shared.configs.map
          AlertConfig.key := by
  intro s
  have h : ConfigsInv s := configsInv_final (configsInv_start alerts) events
  refine ⟨fun row hrow => ⟨h.valid row hrow, h.written row hrow⟩, h.ids, h.created, ?_⟩
  rw [final_append]
  exact keys_prefix_final _ later

end AlertsService

/-! ## Whom the manager tells of spikes -/

namespace AlertManager

variable {mgr : AlertManager}

theorem url_of_mem_transitions {delivery : WebhookDelivery} {active : Option ActiveSpike}
    {goodWindow staleData : Bool} {tick : AlertTick} {d : Delivery}
    (h : d ∈ mgr.hysteresisDeliveries delivery active tick ++
      mgr.goodWindowDeliveries delivery goodWindow tick ++
        mgr.staleDataDeliveries delivery staleData tick) : d.url = delivery.url := by
  rw [List.mem_append, List.mem_append] at h
  rcases h with (h | h) | h
  · unfold hysteresisDeliveries at h
    cases hq : mgr.qualifying tick.update <;> cases active <;> rw [hq] at h <;> grind [dispatch]
  · unfold goodWindowDeliveries at h
    grind [dispatch]
  · unfold staleDataDeliveries at h
    grind [dispatch]

/-- Only a listed row routes a spike. -/
theorem exists_row_of_routed {tick : AlertTick} {severity : SpikeSeverity} {url : String}
    (h : Routed (mgr.dbConfigs tick) severity url) :
    ∃ rows, tick.listAlertConfigs = .ok rows ∧
      ∃ row ∈ rows, row.webhookUrl = url ∧ row.Fires severity = true := by
  cases hrepo : mgr.hasRepository with
  | false =>
    obtain ⟨c, hc, -⟩ := h
    simp [dbConfigs, hrepo] at hc
  | true =>
    cases hrows : tick.listAlertConfigs with
    | error err =>
      obtain ⟨c, hc, -⟩ := h
      simp [dbConfigs, hrepo, hrows] at hc
    | ok rows => exact ⟨rows, rfl, (routed_dbConfigs_iff hrepo hrows).1 h⟩

/-- A tick sends to the webhook of the manager, or announces a recent spike to a row that fires. -/
theorem delivery_cases {s : AlertState} {tick : AlertTick} {d : Delivery}
    (h : d ∈ (mgr.checkAndDispatch s tick).2) :
    (d.task = .dispatch ∧ ∃ delivery ∈ mgr.webhookDelivery, d.url = delivery.url) ∨
      d.task = .dispatchSpike ∧ ∃ rows, tick.listAlertConfigs = .ok rows ∧
        ∃ spike ∈ tick.update.recentSpikes, d = mgr.dispatchSpike tick.now ⟨d.url⟩ spike ∧
          ∃ row ∈ rows, row.webhookUrl = d.url ∧ row.Fires spike.severity = true := by
  cases hw : mgr.webhookDelivery with
  | none =>
    rw [checkAndDispatch_of_no_webhook mgr hw] at h
    cases h
  | some delivery =>
    rw [checkAndDispatch_snd hw, List.append_assoc, List.append_assoc, List.mem_append,
      ← List.append_assoc] at h
    rcases h with hloop | htransition
    · obtain ⟨pair, hpair, rfl⟩ := mgr.exists_routed_of_mem_loopDeliveries hloop
      obtain ⟨hspike, hrouted⟩ := mem_routedPairs.1 hpair
      obtain ⟨rows, hrows, row, hrow, hurl, hfires⟩ := exists_row_of_routed hrouted
      exact .inr ⟨rfl, rows, hrows, pair.1, hspike, rfl, row, hrow, hurl, hfires⟩
    · exact .inl ⟨mgr.task_of_mem_transitions htransition, delivery, rfl,
        url_of_mem_transitions htransition⟩

end AlertManager

namespace AlertsService

variable {mgr : AlertManager}

/-- A delivery of a run was sent by a tick, to the webhook of the manager or to a row that was there
and fired at the tick. -/
theorem delivery_of_run {s : AlertsService} {events : List AlertsEvent} {d : Delivery}
    (h : d ∈ emitted (step mgr) s events) :
    (d.task = .dispatch ∧ ∃ delivery ∈ mgr.webhookDelivery, d.url = delivery.url) ∨
      d.task = .dispatchSpike ∧ ∃ k update answer now, events[k]? = some (.tick update answer now) ∧
        ∃ spike ∈ update.recentSpikes, d = mgr.dispatchSpike now ⟨d.url⟩ spike ∧
          ∃ row ∈ (final (step mgr) s (events.take k)).requests.shared.configs,
            row.webhookUrl = d.url ∧ row.Fires spike.severity = true := by
  obtain ⟨k, event, hevent, hd⟩ := (mem_emitted_iff _ _ _).1 h
  cases event with
  | request event => cases hd
  | tick update answer now =>
    refine (AlertManager.delivery_cases hd).imp_right ?_
    rintro ⟨htask, rows, hrows, spike, hspike, heq, row, hrow, hurl, hfires⟩
    obtain rfl := SqlAnswer.listed_eq_ok hrows
    exact ⟨htask, k, update, answer, now, hevent, spike, hspike, heq, row, hrow, hurl, hfires⟩

/-- In every schedule the manager sends to its own webhook and, of spikes, to rows whose URL was
accepted from a create request that succeeded, which are enabled at the tick with a threshold at or
below the severity, both given by requests that succeeded. -/
theorem deliveries_of_schedule (mgr : AlertManager) (alerts : AlertState)
    (events : List AlertsEvent) (d : Delivery) (hd : d ∈ emitted (step mgr) (start alerts) events) :
    (d.task = .dispatch ∧ ∃ delivery ∈ mgr.webhookDelivery, d.url = delivery.url) ∨
      d.task = .dispatchSpike ∧ isSafeWebhookUrl d.url = true ∧
        ∃ k update answer now, events[k]? = some (.tick update answer now) ∧
          ∃ spike ∈ update.recentSpikes, d = mgr.dispatchSpike now ⟨d.url⟩ spike ∧
            let s := (final (step mgr) (start alerts) (events.take k)).requests
            ∃ row ∈ s.shared.configs, row.webhookUrl = d.url ∧ row.Fires spike.severity = true ∧
              (row.id, d.url) ∈ s.parties.filterMap AlertConfigParty.createdKey ∧
                Written s.parties row.id row.values := by
  refine (delivery_of_run hd).imp_right ?_
  rintro ⟨htask, k, update, answer, now, hevent, spike, hspike, heq, row, hrow, hurl, hfires⟩
  have h : ConfigsInv (final (step mgr) (start alerts) (events.take k)).requests :=
    configsInv_final (configsInv_start alerts) _
  have hsafe : isSafeWebhookUrl d.url = true := by
    rw [← hurl]
    exact (h.valid row hrow).webhookUrl
  refine ⟨htask, hsafe, k, update, answer, now, hevent, spike, hspike, heq, row, hrow, hurl, hfires,
    ?_, h.written row hrow⟩
  rw [← hurl, h.created.mem_iff]
  exact List.mem_map_of_mem hrow

/-- A manager with its own webhook. -/
def hookedManager : AlertManager :=
  .new (some "https://hooks.example.com/a") .major "mainnet" true

/-- A create request that succeeds. -/
def createEvents : List AlertsEvent :=
  [.request (.enter (.createAlert
      { webhookUrl := "https://hooks.example.com/b", threshold := none, alertType := none })),
    .request (.act 0 { error := none, now := "2025-01-14 10:00:00" })]

/-- A tick with a major spike. -/
def spikeTick : AlertsEvent :=
  .tick (tickWith [majorSpike] []).update { error := none, now := "2025-01-14 10:47:00" }
    (seconds 1736851620)

/-- The spike is announced to the row of the request, which was accepted. -/
theorem created_row_hears_spike :
    let d := hookedManager.dispatchSpike (seconds 1736851620) ⟨"https://hooks.example.com/b"⟩
      majorSpike
    d ∈ emitted (step hookedManager) (start .new) (createEvents ++ [spikeTick]) ∧
      isSafeWebhookUrl d.url = true := by
  intro d
  have hd : d ∈ emitted (step hookedManager) (start .new) (createEvents ++ [spikeTick]) := by
    decide +kernel
  rcases deliveries_of_schedule hookedManager .new (createEvents ++ [spikeTick]) d hd with
    ⟨htask, -⟩ | ⟨-, hsafe, -⟩
  · cases htask
  · exact ⟨hd, hsafe⟩

/-! ## A row that has been deleted -/

/-- A PATCH of the row that has not been answered. -/
def PatchOpen (id : ℤ) (party : AlertConfigParty) : Prop :=
  ∃ body, party.request = .updateAlert id body ∧
    (party.progress = .waiting ∨ ∃ values, party.progress = .merged values)

/-- The row is disabled, and no open request can enable it. -/
structure Quiet (id : ℤ) (s : System AlertConfigTable AlertConfigParty) : Prop where
  given : id ≤ s.shared.sequence
  disabled : ∀ row ∈ s.shared.configs, row.id = id → row.enabled = false
  noPatch : ∀ party ∈ s.parties, ¬ PatchOpen id party

theorem Quiet.acted {id : ℤ} {s : System AlertConfigTable AlertConfigParty} (h : Quiet id s)
    {k : ℕ} {party party' : AlertConfigParty} {table' : AlertConfigTable}
    (hk : s.parties[k]? = some party)
    (hacted : Acted s.shared party table' party') : Quiet id ⟨table', s.parties.set k party'⟩ := by
  have hparty := h.noPatch party (List.mem_of_getElem? hk)
  have hothers : ¬ PatchOpen id party' →
      ∀ other ∈ s.parties.set k party', ¬ PatchOpen id other := by
    intro hclosed other hother
    rcases List.mem_or_eq_of_mem_set hother with hold | rfl
    · exact h.noPatch other hold
    · exact hclosed
  have hnext : id < s.shared.sequence + 1 := Int.lt_add_one_iff.2 h.given
  cases hacted with
  | idle => exact ⟨h.given, h.disabled, hothers hparty⟩
  | rejected _ progress _ _ hrejected =>
    refine ⟨h.given, h.disabled, hothers ?_⟩
    rintro ⟨body, -, hprogress⟩
    rcases hrejected with ⟨response, rfl⟩ | ⟨response, rfl⟩ <;> simp at hprogress
  | created body createdAt =>
    refine ⟨hnext.le, fun row hrow hid => ?_, hothers ?_⟩
    · rcases List.mem_append.1 hrow with hold | hnew
      · exact h.disabled row hold hid
      · obtain rfl := List.mem_singleton.1 hnew
        exact absurd hid.symm hnext.ne
    · rintro ⟨_, hrequest, -⟩
      cases hrequest
  | merged id' body current =>
    refine ⟨h.given, h.disabled, hothers ?_⟩
    rintro ⟨_, hrequest, -⟩
    exact hparty ⟨_, hrequest, .inl rfl⟩
  | updated id' body values status =>
    have hne : id' ≠ id := by
      rintro rfl
      exact hparty ⟨body, rfl, .inr ⟨values, rfl⟩⟩
    refine ⟨h.given, ?_, hothers ?_⟩
    · rw [List.forall_mem_map]
      intro row hrow hid
      have hother : row.id ≠ id' := by
        rintro rfl
        exact hne ((congrArg Prod.fst (updatedRow_key _ _ row)).symm.trans hid)
      have hvalues := updatedRow_values id' values row
      rw [if_neg hother] at hvalues
      exact (congrArg AlertValues.enabled hvalues).trans
        (h.disabled row hrow ((congrArg Prod.fst (updatedRow_key _ _ row)).symm.trans hid))
    · rintro ⟨_, -, hprogress⟩
      simp at hprogress
  | deleted id' status =>
    refine ⟨h.given, ?_, hothers ?_⟩
    · rw [List.forall_mem_map]
      intro row hrow hid
      have hvalues := congrArg AlertValues.enabled (deletedRow_values id' row)
      have hold := h.disabled row hrow ((congrArg Prod.fst (deletedRow_key _ row)).symm.trans hid)
      split_ifs at hvalues
      · exact hvalues
      · exact hvalues.trans hold
    · rintro ⟨_, hrequest, -⟩
      cases hrequest

/-- As long as no PATCH of the row enters, it stays disabled. -/
theorem Quiet.final {id : ℤ} {s : AlertsService} (h : Quiet id s.requests)
    {events : List AlertsEvent}
    (hevents : ∀ body, .request (.enter (.updateAlert id body)) ∉ events) :
    Quiet id (final (step mgr) s events).requests := by
  refine final_induction (step mgr) (P := fun s => Quiet id s.requests) h fun s event hevent h => ?_
  refine step_requests_induction event h (fun request heq => ⟨h.given, h.disabled, ?_⟩)
    fun _ _ _ _ hk hacted => h.acted hk hacted
  intro party hparty
  rcases List.mem_append.1 hparty with hold | hnew
  · exact h.noPatch party hold
  · rintro ⟨body, hrequest, -⟩
    obtain rfl := List.mem_singleton.1 hnew
    obtain rfl : request = .updateAlert id body := hrequest
    exact hevents body (heq ▸ hevent)

/-- In every schedule that goes on with no PATCH of a disabled row, open or to come, the row stays
disabled whatever other requests do, and no spike is announced to its URL but for another row that
has it. -/
theorem deleted_row_stays_quiet (mgr : AlertManager) (alerts : AlertState)
    (events later : List AlertsEvent) (row : AlertConfig)
    (hrow : row ∈ (final (step mgr) (start alerts) events).requests.shared.configs)
    (hdisabled : row.enabled = false)
    (hopen : ∀ party ∈ (final (step mgr) (start alerts) events).requests.parties,
      ¬ PatchOpen row.id party)
    (hlater : ∀ body, .request (.enter (.updateAlert row.id body)) ∉ later) :
    let s := final (step mgr) (start alerts) events
    let s' := final (step mgr) (start alerts) (events ++ later)
    (∀ row' ∈ s'.requests.shared.configs, row'.id = row.id → row'.enabled = false) ∧
      ∀ d ∈ emitted (step mgr) s later, d.task = .dispatchSpike → d.url = row.webhookUrl →
        ∃ other ∈ s'.requests.shared.configs, other.id ≠ row.id ∧
          other.webhookUrl = row.webhookUrl := by
  intro s s'
  have hs' : s' = final (step mgr) s later := final_append ..
  have h : ConfigsInv s.requests := configsInv_final (configsInv_start alerts) _
  have hquiet : Quiet row.id s.requests := ⟨h.le_sequence hrow, fun row' hrow' hid => by
    rwa [h.eq_of_id hrow' hrow hid], hopen⟩
  refine ⟨by rw [hs']; exact (hquiet.final hlater).disabled, fun d hd htask hurl => ?_⟩
  rcases delivery_of_run hd with ⟨hdispatch, -⟩ | ⟨-, k, update, answer, now, -, spike, -, -, other,
    hother, hotherUrl, hfires⟩
  · cases hdispatch.symm.trans htask
  · have hquiet' : Quiet row.id (final (step mgr) s (later.take k)).requests :=
      hquiet.final fun body hmem => hlater body (List.mem_of_mem_take hmem)
    have hid : other.id ≠ row.id := by
      intro hid
      rw [AlertConfig.Fires, hquiet'.disabled other hother hid] at hfires
      cases hfires
    -- the row that fired is still there at the end, with its id and its URL
    have hkeys :
        (final (step mgr) s (later.take k)).requests.shared.configs.map AlertConfig.key <+:
          s'.requests.shared.configs.map AlertConfig.key := by
      rw [hs', ← List.take_append_drop k later, final_append, List.take_append_drop]
      exact keys_prefix_final _ _
    obtain ⟨last, hlast, hkey⟩ := List.mem_map.1 (hkeys.subset (List.mem_map_of_mem hother))
    have hkey' := Prod.mk.inj hkey
    exact ⟨last, hlast, by rw [hkey'.1]; exact hid, by
      rw [(Prod.mk.inj hkey'.2).1, hotherUrl, hurl]⟩

/-- The row of the request after a DELETE. -/
def disabledRow : AlertConfig :=
  { enabledRow 1 "https://hooks.example.com/b" "Major" "spike" with enabled := false }

/-- A row that is deleted hears of no spike. -/
theorem deleted_row_hears_nothing :
    let events := createEvents ++ [.request (.enter (.deleteAlert 1)),
      .request (.act 1 { error := none, now := "2025-01-14 10:30:00" })]
    ∀ d ∈ emitted (step hookedManager) (final (step hookedManager) (start .new) events) [spikeTick],
      d.task = .dispatchSpike → d.url = "https://hooks.example.com/b" → False := by
  intro events d hd htask hurl
  have hrows : (final (step hookedManager) (start .new)
      (events ++ [spikeTick])).requests.shared.configs = [disabledRow] := by
    decide
  have hclosed : ∀ party ∈ (final (step hookedManager) (start .new) events).requests.parties,
      ¬ PatchOpen 1 party := by
    rintro party hparty ⟨body, hrequest, -⟩
    have hrequests : (final (step hookedManager) (start .new) events).requests.parties.map
        AlertConfigParty.request = [AlertConfigRequest.createAlert {
          webhookUrl := "https://hooks.example.com/b", threshold := none, alertType := none },
            .deleteAlert 1] := rfl
    have hmem := List.mem_map_of_mem (f := AlertConfigParty.request) hparty
    rw [hrequests, hrequest] at hmem
    simp at hmem
  obtain ⟨-, hquiet⟩ := deleted_row_stays_quiet hookedManager .new events [spikeTick]
    disabledRow (by decide) rfl hclosed (by simp [spikeTick])
  obtain ⟨other, hother, hne, -⟩ := hquiet d hd htask hurl
  rw [hrows, List.mem_singleton] at hother
  exact hne (congrArg AlertConfig.id hother)

end AlertsService

end StellarFeeTracker
