import StellarFeeTracker.Api.Fees
import StellarFeeTracker.Api.Headers
import StellarFeeTracker.General.JsonText
import StellarFeeTracker.Rfc3339

/-!
# Fee history requests

The body of a response starts with the window and the two instants that bound it, and depends on
nothing else but the points in the window.  Its tag is the digest of all of it, so a tag that is sent
back while these points are the same matches only if the instants have the same digest
(`revalidates_iff`).
-/

namespace StellarFeeTracker

open JsonText

/-- How a body shows instants and floats. -/
structure BodyText where
  dateTime : DateTime → String
  float : ℚ → String

/-- What a request for the history reads: the points, and when the insights were last updated. -/
structure FeeHistoryState where
  feeStore : FeeHistoryStore
  lastUpdate : Option DateTime
  deriving DecidableEq, Repr

structure FeeHistoryRequest where
  window : Option String
  ifNoneMatch : List (List UInt8)
  deriving DecidableEq, Repr

/-- A response with caching headers. -/
structure CachedResponse where
  status : ℕ
  contentType : Option String
  cacheControl : String
  etag : String
  lastModified : DateTime
  body : List UInt8
  deriving DecidableEq, Repr

/-! ## Bodies -/

structure FeeHistoryResponse where
  window : String
  fromTime : DateTime
  toTime : DateTime
  dataPoints : ℕ
  fees : List FeeDataPoint
  summary : FeeSummary
  deriving DecidableEq, Repr

section Bodies

variable (text : BodyText)

def dateTimeJson (t : DateTime) : List Char := string (text.dateTime t).toList

def feeDataPointJson (p : FeeDataPoint) : List Char :=
  object
    [("fee_amount", unsigned p.feeAmount),
      ("timestamp", dateTimeJson text p.timestamp),
      ("transaction_hash", string p.transactionHash.toList),
      ("ledger_sequence", unsigned p.ledgerSequence)]

def feeSummaryJson (summary : FeeSummary) : List Char :=
  object
    [("min", unsigned summary.min),
      ("max", unsigned summary.max),
      ("avg", (text.float summary.avg).toList),
      ("p50", unsigned summary.p50),
      ("p95", unsigned summary.p95)]

/-- The window and the instants that bound it. -/
def boundsFields (window : String) (fromTime toTime : DateTime) : List (String × List Char) :=
  [("window", string window.toList),
    ("from", dateTimeJson text fromTime),
    ("to", dateTimeJson text toTime)]

/-- The points and their summary. -/
def pointsFields (dataPoints : ℕ) (fees : List FeeDataPoint) (summary : FeeSummary) :
    List (String × List Char) :=
  [("data_points", unsigned dataPoints),
    ("fees", array (fees.map (feeDataPointJson text))),
    ("summary", feeSummaryJson text summary)]

def feeHistoryJson (payload : FeeHistoryResponse) : List Char :=
  object (boundsFields text payload.window payload.fromTime payload.toTime ++
    pointsFields text payload.dataPoints payload.fees payload.summary)

end Bodies

/-! ## Requests -/

def feesHistoryMaxAge : ℕ := 30

def feesHistorySwr : ℕ := 60

def parseWindow (value : String) : Option Duration :=
  if value = "1h" then some (hours 1)
  else if value = "6h" then some (hours 6)
  else if value = "24h" then some (hours 24)
  else none

def resolveLastModified (state : FeeHistoryState) (now : DateTime) : DateTime :=
  state.lastUpdate.getD now

def notModifiedResponse (maxAge swr : ℕ) (etag : String) (lastModified : DateTime) :
    CachedResponse where
  status := 304
  contentType := none
  cacheControl := cacheControl maxAge swr
  etag := etag
  lastModified := lastModified
  body := []

def jsonCacheResponse (maxAge swr : ℕ) (etag : String) (lastModified : DateTime)
    (body : List UInt8) : CachedResponse where
  status := 200
  contentType := some "application/json"
  cacheControl := cacheControl maxAge swr
  etag := etag
  lastModified := lastModified
  body := body

/-- The payload for a window that ends at `now`. -/
def historyPayload (window : String) (duration : Duration) (store : FeeHistoryStore)
    (now : DateTime) : FeeHistoryResponse :=
  let fees := store.getSince (now - duration)
  { window
    fromTime := now - duration
    toTime := now
    dataPoints := fees.length
    fees
    summary := computeSummary fees }

/-- The answer to a request for the history, or the status and the text of an error. -/
def feeHistory (text : BodyText) (state : FeeHistoryState) (request : FeeHistoryRequest)
    (now : DateTime) : Except (ℕ × String) CachedResponse :=
  let window := request.window.getD "1h"
  match parseWindow window with
  | none => .error (400, "Unsupported window value: " ++ window)
  | some duration =>
    let body := utf8 (feeHistoryJson text (historyPayload window duration state.feeStore now))
    let etag := computeEtag body
    let lastModified := resolveLastModified state now
    if ifNoneMatchMatches request.ifNoneMatch etag then
      .ok (notModifiedResponse feesHistoryMaxAge feesHistorySwr etag lastModified)
    else .ok (jsonCacheResponse feesHistoryMaxAge feesHistorySwr etag lastModified body)

/-! ## Revalidation -/

/-- The tag of any answer to a first request, sent back with a second one, is answered 304. -/
def Revalidates (text : BodyText) (window : Option String) (state state' : FeeHistoryState)
    (now now' : DateTime) : Prop :=
  ∀ ifNoneMatch response, feeHistory text state { window, ifNoneMatch } now = .ok response →
    ∃ response', feeHistory text state' { window, ifNoneMatch := [bytes response.etag] } now' =
      .ok response' ∧ response'.status = 304

/-- The start of the body of an answer: the window and the instants that bound it. -/
def bodyStart (text : BodyText) (window : String) (duration : Duration) (now : DateTime) :
    List UInt8 :=
  utf8 ('\x7b' :: joined ((boundsFields text window (now - duration) now).map member))

section Revalidation

variable {text : BodyText} {window : Option String} {duration : Duration}

/-- What a supported window is answered with. -/
theorem feeHistory_spec (hwindow : parseWindow (window.getD "1h") = some duration)
    (state : FeeHistoryState) (ifNoneMatch : List (List UInt8)) (now : DateTime) :
    let body := utf8 (feeHistoryJson text
      (historyPayload (window.getD "1h") duration state.feeStore now))
    ∃ response, feeHistory text state { window, ifNoneMatch } now = .ok response ∧
      response.etag = computeEtag body ∧
      (response.status = 304 ↔ ifNoneMatchMatches ifNoneMatch (computeEtag body) = true) := by
  intro body
  unfold feeHistory
  dsimp only
  rw [hwindow]
  dsimp only
  split_ifs with hmatch
  · exact ⟨_, rfl, rfl, fun _ => hmatch, fun _ => rfl⟩
  · have hstatus : ¬ 200 = 304 := by decide
    exact ⟨_, rfl, rfl, fun h => absurd h hstatus, fun h => absurd h hmatch⟩

/-- A tag that is sent back matches exactly when the two bodies have the same digest. -/
theorem revalidates_iff_sameDigest (hwindow : parseWindow (window.getD "1h") = some duration)
    {state state' : FeeHistoryState} {now now' : DateTime} :
    Revalidates text window state state' now now' ↔
      bodyDigest (utf8 (feeHistoryJson text
          (historyPayload (window.getD "1h") duration state.feeStore now))) =
        bodyDigest (utf8 (feeHistoryJson text
          (historyPayload (window.getD "1h") duration state'.feeStore now'))) := by
  constructor
  · intro h
    obtain ⟨first, hfirst, hetag, -⟩ := feeHistory_spec hwindow state [] now
    obtain ⟨second, hsecond, hstatus⟩ := h [] first hfirst
    obtain ⟨answer, hanswer, -, hmatch⟩ :=
      feeHistory_spec hwindow state' [bytes first.etag] now'
    obtain rfl : second = answer := Except.ok.inj (hsecond.symm.trans hanswer)
    rw [hstatus, hetag, ifNoneMatchMatches_etag] at hmatch
    exact hmatch.1 rfl
  · intro hsameDigest ifNoneMatch first hfirst
    obtain ⟨answer, hanswer, hetag, -⟩ := feeHistory_spec hwindow state ifNoneMatch now
    obtain rfl : first = answer := Except.ok.inj (hfirst.symm.trans hanswer)
    obtain ⟨second, hsecond, -, hmatch⟩ :=
      feeHistory_spec hwindow state' [bytes first.etag] now'
    refine ⟨second, hsecond, hmatch.2 ?_⟩
    rw [hetag, ifNoneMatchMatches_etag]
    exact hsameDigest

/-- What follows the instants depends only on the points in the window. -/
theorem body_eq (window : String) {fees : List FeeDataPoint} {store : FeeHistoryStore}
    {now : DateTime} (hfees : store.getSince (now - duration) = fees) :
    utf8 (feeHistoryJson text (historyPayload window duration store now)) =
      bodyStart text window duration now ++
        utf8 (',' ::
          joined ((pointsFields text fees.length fees (computeSummary fees)).map member) ++
            ['\x7d']) := by
  have hbounds : boundsFields text window (now - duration) now ≠ [] := List.cons_ne_nil _ _
  have hpoints : pointsFields text fees.length fees (computeSummary fees) ≠ [] :=
    List.cons_ne_nil _ _
  subst hfees
  exact (congrArg utf8 (object_append hbounds hpoints)).trans List.flatMap_append

/-- A tag that is sent back while the points in the window are the same matches exactly when the
starts of the two bodies have the same digest. -/
theorem revalidates_iff (hwindow : parseWindow (window.getD "1h") = some duration)
    {state state' : FeeHistoryState} {now now' : DateTime}
    (hsame :
      state.feeStore.getSince (now - duration) = state'.feeStore.getSince (now' - duration)) :
    Revalidates text window state state' now now' ↔
      bodyDigest (bodyStart text (window.getD "1h") duration now) =
        bodyDigest (bodyStart text (window.getD "1h") duration now') := by
  rw [revalidates_iff_sameDigest hwindow, body_eq _ hsame, body_eq _ rfl]
  exact bodyDigest_append_inj _ _ _

end Revalidation

/-- Instants of the years 0000 to 9999, and floats that are whole. -/
def zuluText : BodyText where
  dateTime t :=
    let nanos := (t - yearZero).toNat
    String.ofList (dateTimeText (nanos / 1000000000) ++ fractionText (nanos % 1000000000) ++ ['Z'])
  float q := toString q.num ++ ".0"

/-- One payment, and no other in the window of either request. -/
def quietHistory : FeeHistoryState where
  feeStore := { data := [⟨100, seconds 1736850600, "payment", 5⟩], capacity := defaultCapacity }
  lastUpdate := none

theorem revalidates_iff_quiet :
    Revalidates zuluText none quietHistory quietHistory (seconds 1736851620) (seconds 1736851680) ↔
      bodyDigest (bodyStart zuluText "1h" (hours 1) (seconds 1736851620)) =
        bodyDigest (bodyStart zuluText "1h" (hours 1) (seconds 1736851680)) :=
  revalidates_iff (by decide) (by decide)

/-- A minute later the same payment has another tag. -/
theorem not_revalidates_quiet :
    quietHistory.feeStore.getSince (seconds 1736851620 - hours 1) =
        quietHistory.feeStore.getSince (seconds 1736851680 - hours 1) ∧
      ¬ Revalidates zuluText none quietHistory quietHistory (seconds 1736851620)
        (seconds 1736851680) := by
  refine ⟨by decide, ?_⟩
  have hwindow : parseWindow ((none : Option String).getD "1h") = some (hours 1) := by decide
  rw [revalidates_iff_sameDigest hwindow]
  decide +kernel

end StellarFeeTracker
