import StellarFeeTracker.Alerts.Delivery
import StellarFeeTracker.Api.Alerts
import StellarFeeTracker.Polling.Retention

/-!
# The alert history

`GET /alerts/history` makes two statements on the log, one for a page of the newest rows and one for
the number of all that pass the filters.  They run at once, so either may come first.  What it returns
after a schedule of delivery tasks and prunes, with others between the two statements, is told by the
rows that were logged and not pruned (`alertHistory_of_schedule`).
-/

namespace StellarFeeTracker

open Machine PrunedLog

/-! ## Queries -/

/-- The filters of `alert_event_conditions`. -/
def alertEventConditions (severity : Option String) (delivered : Option Bool)
    (alertType : Option String) (e : AlertEvent) : Bool :=
  severity.all (e.severity == ·) && delivered.all (e.delivered == ·) &&
    alertType.all (e.alertType == ·)

/-- `query_alert_history_by_type`: the latest events that pass the filters, newest first.  The limit
is clamped to `1..=100`. -/
def queryAlertHistoryByType (alertEvents : List AlertEvent) (limit : ℤ)
    (severityFilter : Option String) (deliveredFilter : Option Bool)
    (alertTypeFilter : Option String) : List AlertEvent :=
  let limit := max 1 (min limit 100)
  let rows := alertEvents.filter
    (alertEventConditions severityFilter deliveredFilter alertTypeFilter)
  (rows.insertionSort fun e e' => e'.triggeredAt ≤ e.triggeredAt).take limit.toNat

/-- `count_alert_events_by_type`. -/
def countAlertEventsByType (alertEvents : List AlertEvent) (severityFilter : Option String)
    (deliveredFilter : Option Bool) (alertTypeFilter : Option String) : ℤ :=
  (alertEvents.filter
    (alertEventConditions severityFilter deliveredFilter alertTypeFilter)).length

/-! ## The handler -/

structure AlertHistoryQuery where
  limit : Option ℤ
  severity : Option String
  delivered : Option Bool
  alertType : Option String
  deriving DecidableEq, Repr

structure AlertHistoryResponse where
  total : ℤ
  items : List AlertEvent
  deriving DecidableEq, Repr

def invalidSeverity (severity : String) : ErrorResponse where
  status := 400
  error := "Invalid severity '" ++ severity ++ "'. Must be one of: " ++
    ", ".intercalate validThresholds

namespace AlertHistoryQuery

variable (params : AlertHistoryQuery)

/-- The limit, 20 if the request names none. -/
def limitOrDefault : ℤ := max 1 (min (params.limit.getD 20) 100)

/-- An event passes the filters of the request. -/
def matching (e : AlertEvent) : Bool :=
  alertEventConditions params.severity params.delivered params.alertType e

/-- The checks of the handler on the filters. -/
structure Valid : Prop where
  severity : ∀ severity ∈ params.severity, isValidThreshold severity = true
  alertType : ∀ alertType ∈ params.alertType, isValidAlertType alertType = true

end AlertHistoryQuery

/-- `GET /alerts/history`, from the table as its two statements find it.  `tokio::try_join!` runs them
at once and returns the first error, so that it tells which of them came first. -/
def getAlertHistory (params : AlertHistoryQuery) (countFirst : Bool)
    (queried counted : Except SqlError (List AlertEvent)) :
    Except ErrorResponse AlertHistoryResponse :=
  match params.severity.filter fun severity => !isValidThreshold severity with
  | some severity => .error (invalidSeverity severity)
  | none =>
    match params.alertType.filter fun alertType => !isValidAlertType alertType with
    | some alertType => .error (invalidAlertType alertType)
    | none =>
      match queried, counted with
      | .error err, .ok _ => .error err.response
      | .ok _, .error err => .error err.response
      | .error err, .error err' => .error (if countFirst then err' else err).response
      | .ok alertEvents, .ok alertEvents' =>
        .ok {
          total := countAlertEventsByType alertEvents' params.severity params.delivered
            params.alertType
          items := queryAlertHistoryByType alertEvents params.limitOrDefault params.severity
            params.delivered params.alertType }

/-! ## The answers of a run -/

namespace AlertHistoryQuery

variable {params : AlertHistoryQuery}

theorem filter_eq_none_iff {α : Type} {o : Option α} {p : α → Bool} :
    (o.filter fun a => !p a) = none ↔ ∀ a ∈ o, p a = true := by
  cases o with
  | none => simp
  | some a => simp

theorem getAlertHistory_of_valid (h : params.Valid) (countFirst : Bool)
    (alertEvents alertEvents' : List AlertEvent) :
    getAlertHistory params countFirst (.ok alertEvents) (.ok alertEvents') =
      .ok {
        total := (alertEvents'.filter params.matching).length
        items := ((alertEvents.filter params.matching).insertionSort
          fun e e' => e'.triggeredAt ≤ e.triggeredAt).take params.limitOrDefault.toNat } := by
  have hlimit : max 1 (min params.limitOrDefault 100) = params.limitOrDefault := by
    unfold limitOrDefault
    omega
  unfold getAlertHistory
  rw [filter_eq_none_iff.2 h.severity, filter_eq_none_iff.2 h.alertType]
  simp only [queryAlertHistoryByType, countAlertEventsByType, hlimit]
  rfl

/-- A filter that is not valid is answered with an error, whatever the database does. -/
theorem getAlertHistory_of_not_valid (h : ¬ params.Valid) (countFirst : Bool)
    (queried counted : Except SqlError (List AlertEvent)) :
    ∃ error, getAlertHistory params countFirst queried counted =
      .error { status := 400, error } := by
  unfold getAlertHistory
  split
  · exact ⟨_, rfl⟩
  · next hseverity =>
    split
    · exact ⟨_, rfl⟩
    · next halertType =>
      exact absurd ⟨filter_eq_none_iff.1 hseverity, filter_eq_none_iff.1 halertType⟩ h

end AlertHistoryQuery

/-! ## The order of the rows -/

/-- The row was logged at an instant of the years 0000 to 9999. -/
structure AlertEvent.LoggedAt (text : Rfc3339) (row : AlertEvent) (t : DateTime) : Prop where
  triggeredAt : row.triggeredAt = text.toRfc3339 t
  year : InFourDigitYears t

theorem AlertEvent.LoggedAt.le {text : Rfc3339} (htext : text.PrintsYears) {row row' : AlertEvent}
    {t t' : DateTime} (h : row.LoggedAt text t) (h' : row'.LoggedAt text t')
    (hle : row'.triggeredAt ≤ row.triggeredAt) : t' ≤ t := by
  rw [h.triggeredAt, h'.triggeredAt, ← not_lt, htext.lt_iff h.year] at hle
  exact not_lt.1 fun hlt => hle ⟨h'.year, hlt⟩

/-- A response on the rows that match: how many they are, and the newest of them, newest first. -/
structure AlertHistoryResponse.Shows (text : Rfc3339) (limit : ℕ) (rows rows' : List AlertEvent)
    (response : AlertHistoryResponse) : Prop where
  total : response.total = rows'.length
  length : response.items.length = min limit rows.length
  subset : ∀ row ∈ response.items, row ∈ rows
  ordered : response.items.Pairwise fun row row' =>
    ∀ t t', row.LoggedAt text t → row'.LoggedAt text t' → t' ≤ t
  newest : ∀ row ∈ response.items, ∀ row' ∈ rows, row' ∉ response.items →
    ∀ t t', row.LoggedAt text t → row'.LoggedAt text t' → t' ≤ t

theorem AlertHistoryResponse.shows_of_isNewest {text : Rfc3339} (htext : text.PrintsYears)
    {limit : ℕ} {rows rows' : List AlertEvent} {response : AlertHistoryResponse}
    (htotal : response.total = rows'.length)
    (h : IsNewest AlertEvent.triggeredAt limit rows response.items) :
    response.Shows text limit rows rows' where
  total := htotal
  length := h.length
  subset _ hrow := h.subset hrow
  ordered := h.ordered.imp fun hle _ _ ht ht' => ht.le htext ht' hle
  newest row hrow row' hrow' hleft t t' ht ht' := by
    obtain ⟨rest, hperm, holder⟩ := h.newest
    rcases List.mem_append.1 (hperm.mem_iff.2 hrow') with hpage | hrest
    · exact absurd hpage hleft
    · exact ht.le htext ht' (holder row hrow row' hrest)

namespace AlertLog

/-- Without a prune the table only grows. -/
theorem alertEvents_prefix (mgr : AlertManager) (text : Rfc3339) {events : List AlertLogEvent}
    (s : AlertLog) (hevents : ∀ cutoff, .prune cutoff ∉ events) :
    s.alertEvents <+: (final (step mgr text) s events).alertEvents := by
  refine final_induction (step mgr text) (P := fun t => s.alertEvents <+: t.alertEvents)
    List.prefix_rfl fun t event hevent h => ?_
  cases event with
  | prune cutoff => exact absurd hevent (hevents cutoff)
  | task event =>
    refine h.trans ?_
    simp only [step, foldl_logAlertEvent]
    exact List.prefix_append _ _

/-- While nothing is logged the table only shrinks. -/
theorem alertEvents_sublist (mgr : AlertManager) (text : Rfc3339) {events : List AlertLogEvent}
    (s : AlertLog) (hevents : emitted (step mgr text) s events = []) :
    (final (step mgr text) s events).alertEvents.Sublist s.alertEvents := by
  have hnone : survivors (step mgr text) (keeps text) s events = [] := by
    have hkept : (survivors (step mgr text) (keeps text) s events).Sublist
        (emitted (step mgr text) s events) := survivors_sublist_emitted s events
    rwa [hevents, List.sublist_nil] at hkept
  rw [log_final (step_alertEvents mgr text), hnone, List.append_nil]
  exact List.filter_sublist

/-- After every schedule of delivery tasks and prunes, with its two statements in either order and with
every other schedule between them, a request with valid filters gets the newest of the rows that were
logged, not pruned and match at the one statement, newest first, and the number of those at the other.
The page has no more rows than the total if nothing is pruned between the page and the count, or
nothing logged between the count and the page.  A request with another filter is rejected, whatever the
database does. -/
theorem alertHistory_of_schedule (mgr : AlertManager) (text : Rfc3339) (htext : text.PrintsYears)
    (params : AlertHistoryQuery) (events between : List AlertLogEvent) (countFirst : Bool) :
    let paged := if countFirst then events ++ between else events
    let counted := if countFirst then events else events ++ between
    let s := final (step mgr text) start paged
    let s' := final (step mgr text) start counted
    let rows := (survivors (step mgr text) (keeps text) start paged).filter params.matching
    let rows' := (survivors (step mgr text) (keeps text) start counted).filter params.matching
    (params.Valid → ∃ response,
      getAlertHistory params countFirst (.ok s.alertEvents) (.ok s'.alertEvents) = .ok response ∧
        response.Shows text params.limitOrDefault.toNat rows rows' ∧
        ((if countFirst then emitted (step mgr text) s' between = []
            else ∀ cutoff, .prune cutoff ∉ between) → response.items.length ≤ response.total)) ∧
      (¬ params.Valid → ∀ queried counted, ∃ error,
        getAlertHistory params countFirst queried counted = .error { status := 400, error }) := by
  intro paged counted s s' rows rows'
  refine ⟨fun hvalid => ?_, fun hvalid queried counted =>
    AlertHistoryQuery.getAlertHistory_of_not_valid hvalid countFirst queried counted⟩
  have hrows : s.alertEvents.filter params.matching = rows :=
    congrArg _ (log_final (step_alertEvents mgr text) start paged)
  have hrows' : s'.alertEvents.filter params.matching = rows' :=
    congrArg _ (log_final (step_alertEvents mgr text) start counted)
  have hanswer := AlertHistoryQuery.getAlertHistory_of_valid hvalid countFirst s.alertEvents
    s'.alertEvents
  rw [hrows, hrows'] at hanswer
  have hnewest := isNewest_take AlertEvent.triggeredAt params.limitOrDefault.toNat rows
  refine ⟨_, hanswer, AlertHistoryResponse.shows_of_isNewest htext rfl hnewest, fun hbetween => ?_⟩
  have hgrown : s.alertEvents.Sublist s'.alertEvents := by
    cases countFirst with
    | true =>
      have hshrinks := alertEvents_sublist mgr text s' hbetween
      rwa [← final_append] at hshrinks
    | false =>
      have hgrows := alertEvents_prefix mgr text s hbetween
      rw [← final_append] at hgrows
      exact hgrows.sublist
  have hlength : rows.length ≤ rows'.length := by
    rw [← hrows, ← hrows']
    exact (hgrown.filter params.matching).length_le
  have hpage := hnewest.length
  simp only [hpage]
  omega

/-- A spike is announced, taken at the second post and logged. -/
def announcedSpike : List AlertLogEvent :=
  let mgr := AlertManager.new (some "https://hooks.example.com/a") .major "mainnet" true
  [.task (.enter
      (mgr.dispatchSpike (seconds 1736851620) ⟨"https://hooks.example.com/b"⟩ majorSpike)),
    .task (.act 0 { answer := .ok 503, now := seconds 1736851621, logError := none }),
    .task (.act 0 { answer := .ok 200, now := seconds 1736851623, logError := none }),
    .task (.act 0 { answer := .ok 200, now := seconds 1736851623, logError := none })]

/-- The history has its row, unless the rows are counted before it is logged: then the page has more rows
than the total says. -/
theorem alertHistory_announced_spike :
    let mgr := AlertManager.new (some "https://hooks.example.com/a") .major "mainnet" true
    let params : AlertHistoryQuery :=
      { limit := none, severity := some "Major", delivered := some true, alertType := none }
    let s := final (step mgr signedText) start announcedSpike
    (∃ response, getAlertHistory params true (.ok s.alertEvents) (.ok s.alertEvents) = .ok response ∧
        response.total = 1) ∧
      ∃ response, getAlertHistory params true (.ok s.alertEvents) (.ok start.alertEvents) =
        .ok response ∧ response.items.length = 1 ∧ response.total = 0 := by
  intro mgr params s
  have hvalid : params.Valid := by
    constructor
    · intro severity hseverity
      obtain rfl : "Major" = severity := Option.some.inj hseverity
      decide
    · intro alertType halertType
      cases halertType
  have hrows : ((survivors (step mgr signedText) (keeps signedText) start
      announcedSpike).filter params.matching).length = 1 := by decide +kernel
  have hshown := fun events between => (alertHistory_of_schedule mgr signedText
    printsYears_signedText params events between true).1 hvalid
  constructor
  · obtain ⟨response, hresponse, hshows, -⟩ := hshown announcedSpike []
    simp only [if_true, List.append_nil] at hresponse hshows
    exact ⟨response, hresponse, by rw [hshows.total, hrows]; rfl⟩
  · obtain ⟨response, hresponse, hshows, -⟩ := hshown [] announcedSpike
    simp only [if_true, List.nil_append] at hresponse hshows
    exact ⟨response, hresponse, by rw [hshows.length, hrows]; rfl, hshows.total⟩

end AlertLog

end StellarFeeTracker
