import StellarFeeTracker.Api.CurrentFees
import StellarFeeTracker.Api.FeeHistory
import StellarFeeTracker.Services.FeeStats

/-!
# Revalidation of the current fees

A client keeps the body that an earlier request was answered with, and sends its tag with the next
request.  The requests run as in `CurrentFees`; what is added is the rest of the handler, which compares
the tag with that of the payload, and the client, which shows the body it keeps when it is answered 304.
So every body shown was made of a payload that was fetched, and has the digest of the payload that its
own request came to (`Valid`).  If the digests tell the payloads of a run apart, then clients that send
no tags would have been shown the very same (`revalidation_of_run`).
-/

namespace StellarFeeTracker

open JsonText Parties

/-! ## Bodies -/

@[ext]
structure PercentileFees where
  p10 : String
  p20 : String
  p30 : String
  p40 : String
  p50 : String
  p60 : String
  p70 : String
  p80 : String
  p90 : String
  p95 : String
  p99 : String
  deriving DecidableEq, Repr

@[ext]
structure CurrentFeeResponse where
  baseFee : String
  minFee : String
  maxFee : String
  avgFee : String
  percentiles : PercentileFees
  deriving DecidableEq, Repr

/-- What `fetch_current_fees` makes of Horizon's answer. -/
def HorizonFeeStats.currentFees (stats : HorizonFeeStats) : CurrentFeeResponse where
  baseFee := stats.lastLedgerBaseFee
  minFee := stats.feeCharged.min
  maxFee := stats.feeCharged.max
  avgFee := stats.feeCharged.avg
  percentiles :=
    { p10 := stats.feeCharged.p10
      p20 := stats.feeCharged.p20
      p30 := stats.feeCharged.p30
      p40 := stats.feeCharged.p40
      p50 := stats.feeCharged.p50
      p60 := stats.feeCharged.p60
      p70 := stats.feeCharged.p70
      p80 := stats.feeCharged.p80
      p90 := stats.feeCharged.p90
      p95 := stats.feeCharged.p95
      p99 := stats.feeCharged.p99 }

def PercentileFees.fields (percentiles : PercentileFees) : List (String × List Char) :=
  [("p10", string percentiles.p10.toList),
    ("p20", string percentiles.p20.toList),
    ("p30", string percentiles.p30.toList),
    ("p40", string percentiles.p40.toList),
    ("p50", string percentiles.p50.toList),
    ("p60", string percentiles.p60.toList),
    ("p70", string percentiles.p70.toList),
    ("p80", string percentiles.p80.toList),
    ("p90", string percentiles.p90.toList),
    ("p95", string percentiles.p95.toList),
    ("p99", string percentiles.p99.toList)]

def CurrentFeeResponse.fields (payload : CurrentFeeResponse) : List (String × List Char) :=
  [("base_fee", string payload.baseFee.toList),
    ("min_fee", string payload.minFee.toList),
    ("max_fee", string payload.maxFee.toList),
    ("avg_fee", string payload.avgFee.toList),
    ("percentiles", object payload.percentiles.fields)]

/-- The derived `Serialize`. -/
def CurrentFeeResponse.body (payload : CurrentFeeResponse) : List UInt8 := utf8 (object payload.fields)

theorem utf8_injective : Function.Injective utf8 := by
  intro chars chars' h
  have hbytes : chars.utf8Encode = chars'.utf8Encode := congrArg List.toByteArray h
  have hdecoded := congrArg ByteArray.utf8Decode? hbytes
  rw [List.utf8Decode?_utf8Encode, List.utf8Decode?_utf8Encode] at hdecoded
  exact congrArg Array.toList (Option.some.inj hdecoded)

section Fields

variable (percentiles percentiles' : PercentileFees) (payload payload' : CurrentFeeResponse)

theorem PercentileFees.delimited_fields :
    List.Forall₂ (fun field field' => field.1 = field'.1 ∧ Delimited field.2 field'.2)
      percentiles.fields percentiles'.fields := by
  simp [PercentileFees.fields, delimited_string]

theorem CurrentFeeResponse.delimited_fields :
    List.Forall₂ (fun field field' => field.1 = field'.1 ∧ Delimited field.2 field'.2)
      payload.fields payload'.fields := by
  have hpercentiles : Delimited (object payload.percentiles.fields)
      (object payload'.percentiles.fields) := by
    intro rest rest' h
    obtain ⟨hsame, hrest⟩ := object_append_inj (PercentileFees.delimited_fields _ _) h
    exact ⟨congrArg object hsame, hrest⟩
  simp [CurrentFeeResponse.fields, delimited_string, hpercentiles]

end Fields

theorem PercentileFees.fields_injective : Function.Injective fields := by
  intro percentiles percentiles' h
  simp only [fields, List.cons.injEq, Prod.mk.injEq, string_inj, String.toList_inj, true_and] at h
  obtain ⟨h10, h20, h30, h40, h50, h60, h70, h80, h90, h95, h99, -⟩ := h
  exact PercentileFees.ext h10 h20 h30 h40 h50 h60 h70 h80 h90 h95 h99

/-- A body is that of one payload. -/
theorem CurrentFeeResponse.body_injective : Function.Injective body := by
  intro payload payload' h
  have hobject := congrArg (· ++ []) (utf8_injective h)
  have hfields := (object_append_inj (delimited_fields payload payload') hobject).1
  simp only [fields, List.cons.injEq, Prod.mk.injEq, string_inj, String.toList_inj,
    true_and] at hfields
  obtain ⟨hbase, hmin, hmax, havg, hpercentiles, -⟩ := hfields
  have hpercentiles := object_append_inj (PercentileFees.delimited_fields _ _)
    (congrArg (· ++ []) hpercentiles)
  exact CurrentFeeResponse.ext hbase hmin hmax havg
    (PercentileFees.fields_injective hpercentiles.1)

/-! ## Answers -/

def feesCurrentMaxAge : ℕ := 5

def feesCurrentSwr : ℕ := 10

/-- The rest of the handler, when it has the payload. -/
def currentFeesResponse (state : FeeHistoryState) (ifNoneMatch : List (List UInt8))
    (payload : CurrentFeeResponse) (now : DateTime) : CachedResponse :=
  let body := payload.body
  let etag := computeEtag body
  let lastModified := resolveLastModified state now
  if ifNoneMatchMatches ifNoneMatch etag then
    notModifiedResponse feesCurrentMaxAge feesCurrentSwr etag lastModified
  else jsonCacheResponse feesCurrentMaxAge feesCurrentSwr etag lastModified body

/-- A body and the tag that came with it. -/
@[ext]
structure Kept where
  body : List UInt8
  etag : String
  deriving DecidableEq, Repr

/-- A request of a client, which sends the tag of what it keeps. -/
structure Visit where
  kept : Option Kept
  request : CurrentFees CurrentFeeResponse
  answer : Option (Except AppError CachedResponse)
  deriving Repr

/-- What a step of a request meets: the time since the last step of any, Horizon's answer if it waits
for it, and what `resolve_last_modified` reads. -/
structure VisitInput where
  elapsed : ℕ
  poll : Poll HorizonFeeStats
  state : FeeHistoryState
  now : DateTime
  deriving Repr

def Poll.map {α β : Type*} (f : α → β) : Poll α → Poll β
  | .pending => .pending
  | .ready result => .ready (result.map f)
  | .cancel => .cancel

def VisitInput.pollAfter (input : VisitInput) : PollAfter CurrentFeeResponse where
  elapsed := input.elapsed
  poll := input.poll.map HorizonFeeStats.currentFees

namespace CurrentFees

variable {α : Type*} {ttl j : ℕ} {hasProvider : Bool} {now : ℤ}
  {events : List (Parties.Event Unit (PollAfter α))} {payload : α}

/-- The entry holds what some request fetched. -/
theorem exists_fetchedBefore_of_cache
    (h : (stateAt ttl hasProvider now events j).shared.cache.value = some payload) :
    ∃ k, FetchedBefore ttl hasProvider now events j k payload := by
  induction j using Nat.strong_induction_on with
  | _ j ih =>
    have hearlier : ∀ i < j, (stateAt ttl hasProvider now events i).shared.cache.value =
        some payload → ∃ k, FetchedBefore ttl hasProvider now events j k payload := by
      intro i hij hi
      obtain ⟨k, l, hl, hfetched⟩ := ih i hij hi
      exact ⟨k, l, hl.trans hij, hfetched⟩
    cases j with
    | zero => cases h
    | succ j =>
      cases hevent : events[j]? with
      | none =>
        rw [stateAt_succ_of_none hevent] at h
        exact hearlier j (Nat.lt_succ_self j) h
      | some event =>
        rw [stateAt_succ hevent] at h
        cases event with
        | enter kind => exact hearlier j (Nat.lt_succ_self j) h
        | act k input =>
          cases hk : (stateAt ttl hasProvider now events j).parties[k]? with
          | none =>
            rw [step, Parties.step, hk] at h
            exact hearlier j (Nat.lt_succ_self j) h
          | some request =>
            rw [step_act hk] at h
            rcases advance_cases
                { (stateAt ttl hasProvider now events j).shared with
                  now := (stateAt ttl hasProvider now events j).shared.now + input.elapsed }
                request input.poll with ⟨fresh, rfl⟩ | ⟨hsame, -⟩
            · -- the request writes what it fetched, or what it read from an entry before
              obtain rfl : fresh = payload := Option.some.inj h
              rcases payload_stateAt hk rfl with ⟨i, hi, hfetched⟩ | ⟨i, hi, _, _, _, _, hvalue, -⟩
              · exact ⟨k, i, hi.trans (Nat.lt_succ_self j), hfetched⟩
              · exact hearlier i (hi.trans (Nat.lt_succ_self j)) hvalue
            · exact hearlier j (Nat.lt_succ_self j) (hsame ▸ h)

end CurrentFees

namespace Visit

/-- The header `If-None-Match` of the request. -/
def ifNoneMatch (visit : Visit) : List (List UInt8) :=
  (visit.kept.map fun kept => bytes kept.etag).toList

/-- The answer to a request whose result is known. -/
def respond (visit : Visit) (input : VisitInput) : Option (Except AppError CachedResponse) :=
  match visit.request with
  | .done result =>
    some (result.map fun payload =>
      currentFeesResponse input.state visit.ifNoneMatch payload input.now)
  | _ => none

/-- What the client shows: the body of the answer, or the one it keeps when that is not modified. -/
def shown (visit : Visit) : Option Kept :=
  match visit.answer with
  | some (.ok response) =>
    if response.status = 304 then visit.kept.map fun kept => { kept with etag := response.etag }
    else some { body := response.body, etag := response.etag }
  | _ => none

def act (fees : FeesState CurrentFeeResponse) (visit : Visit) (input : VisitInput) :
    (FeesState CurrentFeeResponse × Visit) × List ℤ :=
  let ((fees, request), writes) := CurrentFees.act fees visit.request input.pollAfter
  ((fees, { visit with request, answer := visit.answer.or (visit.respond input) }), writes)

/-- A client asks, with what an earlier request showed, or a request takes a step. -/
inductive Event where
  | ask (shownBy : Option ℕ)
  | act (k : ℕ) (input : VisitInput)
  deriving Repr

/-- What request `k` shows. -/
def shownTo (s : System (FeesState CurrentFeeResponse) Visit) (k : ℕ) : Option Kept :=
  s.parties[k]?.bind shown

def step (s : System (FeesState CurrentFeeResponse) Visit) :
    Event → System (FeesState CurrentFeeResponse) Visit × List ℤ
  | .ask shownBy =>
    let visit : Visit :=
      { kept := shownBy.bind (shownTo s)
        request := .waiting
        answer := none }
    ({ s with parties := s.parties ++ [visit] }, [])
  | .act k input =>
    match s.parties[k]? with
    | none => (s, [])
    | some visit =>
      ({ shared := (visit.act s.shared input).1.1
         parties := s.parties.set k (visit.act s.shared input).1.2 },
        (visit.act s.shared input).2)

/-- After a run from an empty cache with a time to live. -/
def run (ttl : ℕ) (hasProvider : Bool) (now : ℤ) (events : List Event) :
    System (FeesState CurrentFeeResponse) Visit :=
  Machine.final step { shared := (CurrentFees.initial ttl hasProvider now).shared, parties := [] }
    events

/-- The same client, which keeps nothing. -/
def Event.forget : Event → Event
  | .ask _ => .ask none
  | .act k input => .act k input

/-! ## The requests of a run -/

/-- What the cache and its lock see of an event. -/
def Event.request : Event → Parties.Event Unit (PollAfter CurrentFeeResponse)
  | .ask _ => .enter ()
  | .act k input => .act k input.pollAfter

/-- What the cache and its lock see of the requests. -/
def requests (s : System (FeesState CurrentFeeResponse) Visit) :
    System (FeesState CurrentFeeResponse) (CurrentFees CurrentFeeResponse) where
  shared := s.shared
  parties := s.parties.map (·.request)

theorem requests_step (s : System (FeesState CurrentFeeResponse) Visit) (event : Event) :
    requests (step s event).1 = (CurrentFees.step (requests s) event.request).1 := by
  cases event with
  | ask shownBy => simp [requests, step, CurrentFees.step, Parties.step, Event.request]
  | act k input =>
    cases hk : s.parties[k]? with
    | none => simp [requests, step, CurrentFees.step, Parties.step, Event.request, hk]
    | some visit =>
      simp [requests, step, CurrentFees.step, Parties.step, Event.request, hk, List.map_set,
        Visit.act]

variable {ttl : ℕ} {hasProvider : Bool} {now : ℤ} {events : List Event} {j k : ℕ}

theorem requests_run (events : List Event) :
    requests (run ttl hasProvider now events) =
      Machine.final CurrentFees.step (CurrentFees.initial ttl hasProvider now)
        (events.map Event.request) :=
  Machine.final_of_seen step requests Event.request requests_step _ _

/-- In a run, a fetch that request `k` made returned a payload. -/
def Fetched (ttl : ℕ) (hasProvider : Bool) (now : ℤ) (events : List Event) (k : ℕ)
    (payload : CurrentFeeResponse) : Prop :=
  CurrentFees.FetchedBefore ttl hasProvider now (events.map Event.request) events.length k payload

/-- In a run, request `k` read a payload from an entry of at most the age allowed. -/
def ReadFresh (ttl : ℕ) (hasProvider : Bool) (now : ℤ) (events : List Event) (k : ℕ)
    (payload : CurrentFeeResponse) : Prop :=
  CurrentFees.ReadFreshBefore ttl hasProvider now (events.map Event.request) events.length k payload

section Origin

variable {visit : Visit} {payload : CurrentFeeResponse}

theorem requests_getElem? (hk : (run ttl hasProvider now (events.take j)).parties[k]? = some visit) :
    (CurrentFees.stateAt ttl hasProvider now (events.map Event.request) j).parties[k]? =
      some visit.request := by
  rw [CurrentFees.stateAt, ← List.map_take, ← requests_run, requests, List.getElem?_map, hk,
    Option.map_some]

/-- A request that came to a payload fetched it, or read it from a fresh entry. -/
theorem fetched_or_readFresh
    (hk : (run ttl hasProvider now (events.take j)).parties[k]? = some visit)
    (hpayload : visit.request.payload = some payload) :
    Fetched ttl hasProvider now events k payload ∨
      ReadFresh ttl hasProvider now events k payload := by
  have hlength : ∀ {i : ℕ} {event}, (events.map Event.request)[i]? = some event → i < events.length :=
    fun h => by simpa using (List.getElem?_eq_some_iff.1 h).1
  rcases CurrentFees.payload_stateAt (requests_getElem? hk) hpayload with
    ⟨i, -, elapsed, hevent, hfetching⟩ | ⟨i, -, input, cachedAt, hevent, hreading⟩
  · exact .inl ⟨i, hlength hevent, elapsed, hevent, hfetching⟩
  · exact .inr ⟨i, hlength hevent, input, cachedAt, hevent, hreading⟩

/-- What is read from the entry was fetched by some request. -/
theorem exists_fetched
    (hk : (run ttl hasProvider now (events.take j)).parties[k]? = some visit)
    (hpayload : visit.request.payload = some payload) :
    ∃ k', Fetched ttl hasProvider now events k' payload := by
  rcases fetched_or_readFresh hk hpayload with hfetched | ⟨i, hi, _, _, _, _, hvalue, -⟩
  · exact ⟨k, hfetched⟩
  · obtain ⟨k', l, hl, hfetched⟩ := CurrentFees.exists_fetchedBefore_of_cache hvalue
    exact ⟨k', l, hl.trans hi, hfetched⟩

end Origin

/-! ## What holds of every request -/

/-- The client keeps the body of a payload of a kind, with its tag, and the answer is what the handler
made of the result. -/
structure Valid (P : CurrentFeeResponse → Prop) (visit : Visit) : Prop where
  kept : ∀ kept ∈ visit.kept, kept.etag = computeEtag kept.body ∧
    ∃ payload, P payload ∧ kept.body = payload.body
  answer : ∀ answer ∈ visit.answer, ∃ result, ∃ input : VisitInput, visit.request = .done result ∧
    answer = result.map fun payload =>
      currentFeesResponse input.state visit.ifNoneMatch payload input.now

section Valid

variable {P : CurrentFeeResponse → Prop} {visit : Visit} {payload : CurrentFeeResponse}

theorem Valid.matches_iff (h : visit.Valid P) (body : List UInt8) :
    ifNoneMatchMatches visit.ifNoneMatch (computeEtag body) = true ↔
      ∃ kept ∈ visit.kept, bodyDigest kept.body = bodyDigest body := by
  cases hkept : visit.kept with
  | none => simp [ifNoneMatch, hkept, ifNoneMatchMatches]
  | some kept =>
    have hheader : visit.ifNoneMatch = [bytes (computeEtag kept.body)] := by
      simp [ifNoneMatch, hkept, (h.kept kept hkept).1]
    simp [hheader, ifNoneMatchMatches_etag]

/-- The client shows the body of the answer, or what it keeps if that has the digest of the payload. -/
theorem Valid.shown_spec (h : visit.Valid P) {response : CachedResponse}
    (hanswer : visit.answer = some (.ok response)) :
    ∃ payload, visit.request = .done (.ok payload) ∧
      (response.status = 304 ↔ ∃ kept ∈ visit.kept, bodyDigest kept.body = bodyDigest payload.body) ∧
      ∃ shown, visit.shown = some shown ∧ shown.etag = computeEtag payload.body ∧
        (shown.body = payload.body ∨
          ∃ kept ∈ visit.kept, bodyDigest kept.body = bodyDigest payload.body ∧
            shown.body = kept.body) := by
  obtain ⟨result, input, hdone, hresponse⟩ := h.answer _ hanswer
  cases result with
  | error e => cases hresponse
  | ok payload =>
    obtain rfl := Except.ok.inj hresponse
    have hmatches := h.matches_iff payload.body
    refine ⟨payload, hdone, ?_⟩
    unfold shown
    rw [hanswer]
    dsimp only [currentFeesResponse]
    by_cases hmatch : ifNoneMatchMatches visit.ifNoneMatch (computeEtag payload.body) = true
    · rw [if_pos hmatch]
      obtain ⟨kept, hkept, hdigest⟩ := hmatches.1 hmatch
      refine ⟨⟨fun _ => ⟨kept, hkept, hdigest⟩, fun _ => rfl⟩,
        { kept with etag := computeEtag payload.body }, ?_, rfl, .inr ⟨kept, hkept, hdigest, rfl⟩⟩
      rw [Option.mem_def.1 hkept]
      rfl
    · rw [if_neg hmatch]
      have hstatus : ¬ 200 = 304 := by decide
      exact ⟨⟨fun h => absurd h hstatus, fun h => absurd (hmatches.2 h) hmatch⟩, _, rfl, rfl, .inl rfl⟩

/-- What is shown is as it may be kept. -/
theorem Valid.shown_kept (h : visit.Valid P) {kept : Kept} (hkept : visit.shown = some kept)
    (hserved : ∀ payload, visit.request.payload = some payload → P payload) :
    kept.etag = computeEtag kept.body ∧ ∃ payload, P payload ∧ kept.body = payload.body := by
  cases hanswer : visit.answer with
  | none => simp [shown, hanswer] at hkept
  | some answer =>
    cases answer with
    | error e => simp [shown, hanswer] at hkept
    | ok response =>
      obtain ⟨payload, hdone, -, shown, hshown, hetag, hbody⟩ := h.shown_spec hanswer
      obtain rfl : kept = shown := Option.some.inj (hkept.symm.trans hshown)
      have hpayload := hserved payload (by rw [hdone]; rfl)
      rcases hbody with hbody | ⟨before, hbefore, hdigest, hbody⟩
      · exact ⟨by rw [hetag, hbody], payload, hpayload, hbody⟩
      · refine ⟨?_, ?_⟩
        · rw [hetag, hbody, computeEtag_inj]
          exact hdigest.symm
        · rw [hbody]
          exact (h.kept before hbefore).2

/-- A step leaves what the client keeps, and an answer that is there. -/
theorem Valid.act (h : visit.Valid P) (fees : FeesState CurrentFeeResponse) (input : VisitInput) :
    (visit.act fees input).1.2.Valid P where
  kept := h.kept
  answer answer hanswer := by
    have hdone : ∀ {result}, visit.request = .done result →
        (visit.act fees input).1.2.request = .done result := by
      intro result hrequest
      simp [Visit.act, hrequest, CurrentFees.act, CurrentFees.advance]
    rcases Option.or_eq_some_iff.1 (Option.mem_def.1 hanswer) with hbefore | ⟨-, hnow⟩
    · obtain ⟨result, input', hrequest, rfl⟩ := h.answer answer hbefore
      exact ⟨result, input', hdone hrequest, rfl⟩
    · unfold respond at hnow
      split at hnow
      · next result hrequest => exact ⟨result, input, hdone hrequest, (Option.some.inj hnow).symm⟩
      · cases hnow

end Valid

/-- Every client keeps what some request of the run fetched. -/
theorem valid_run (ttl : ℕ) (hasProvider : Bool) (now : ℤ) (events : List Event) (j : ℕ) :
    ∀ visit ∈ (run ttl hasProvider now (events.take j)).parties,
      visit.Valid fun payload => ∃ k, Fetched ttl hasProvider now events k payload := by
  refine Machine.final_take_induction step
    (P := fun s : System (FeesState CurrentFeeResponse) Visit => ∀ visit ∈ s.parties,
      visit.Valid fun payload => ∃ k, Fetched ttl hasProvider now events k payload)
    ?_ (fun j event _ ih => ?_) j
  · intro visit h
    cases h
  · cases event with
    | ask shownBy =>
      intro visit hvisit
      rcases List.mem_append.1 hvisit with hbefore | hnew
      · exact ih visit hbefore
      · obtain rfl := List.mem_singleton.1 hnew
        refine ⟨fun kept hkept => ?_, fun _ h => by cases h⟩
        obtain ⟨i, rfl, hshown⟩ := Option.bind_eq_some_iff.1 (Option.mem_def.1 hkept)
        obtain ⟨other, hi, hshown⟩ := Option.bind_eq_some_iff.1 hshown
        exact (ih other (List.mem_of_getElem? hi)).shown_kept hshown
          fun payload hpayload => exists_fetched hi hpayload
    | act k input =>
      dsimp only [step]
      split
      · exact ih
      · next acting hk =>
        intro visit hvisit
        rcases List.mem_or_eq_of_mem_set hvisit with hbefore | rfl
        · exact ih visit hbefore
        · exact (ih acting (List.mem_of_getElem? hk)).act _ input

/-! ## Clients that send no tags -/

/-- The result of the request is known. -/
def isDone : CurrentFees CurrentFeeResponse → Bool
  | .done _ => true
  | _ => false

/-- A request and whether it has been answered, whatever its client keeps. -/
def seenAct (fees : FeesState CurrentFeeResponse) (request : CurrentFees CurrentFeeResponse × Bool)
    (input : PollAfter CurrentFeeResponse) :
    (FeesState CurrentFeeResponse × CurrentFees CurrentFeeResponse × Bool) × List ℤ :=
  let ((fees, next), writes) := CurrentFees.act fees request.1 input
  ((fees, next, request.2 || isDone request.1), writes)

def seen (s : System (FeesState CurrentFeeResponse) Visit) :
    System (FeesState CurrentFeeResponse) (CurrentFees CurrentFeeResponse × Bool) where
  shared := s.shared
  parties := s.parties.map fun visit => (visit.request, visit.answer.isSome)

/-- What a client would show that keeps nothing. -/
def plain : CurrentFees CurrentFeeResponse × Bool → Option Kept
  | (request, answered) =>
    match request with
    | .done (.ok payload) =>
      if answered then some { body := payload.body, etag := computeEtag payload.body } else none
    | _ => none

theorem isSome_respond (visit : Visit) (input : VisitInput) :
    (visit.respond input).isSome = isDone visit.request := by
  unfold respond isDone
  split <;> simp_all

theorem seen_step (s : System (FeesState CurrentFeeResponse) Visit) (event : Event) :
    seen (step s event).1 =
      (Parties.step (fun _ => (.waiting, false)) seenAct (seen s) event.request).1 := by
  cases event with
  | ask shownBy => simp [seen, step, Parties.step, Event.request]
  | act k input =>
    cases hk : s.parties[k]? with
    | none => simp [seen, step, Parties.step, Event.request, hk]
    | some visit =>
      simp [seen, step, Parties.step, Event.request, hk, List.map_set, Visit.act, seenAct,
        isSome_respond, Option.isSome_or]

theorem map_request_forget (events : List Event) :
    (events.map Event.forget).map Event.request = events.map Event.request := by
  rw [List.map_map]
  refine List.map_congr_left fun event _ => ?_
  cases event <;> rfl

/-- Of a run one sees the same if the clients keep nothing. -/
theorem seen_run_forget (ttl : ℕ) (hasProvider : Bool) (now : ℤ) (events : List Event) :
    seen (run ttl hasProvider now (events.map Event.forget)) =
      seen (run ttl hasProvider now events) := by
  unfold run
  rw [Machine.final_of_seen step seen Event.request seen_step,
    Machine.final_of_seen step seen Event.request seen_step, map_request_forget]

/-- No two payloads that the run fetches have bodies with one digest. -/
def DigestsDiffer (ttl : ℕ) (hasProvider : Bool) (now : ℤ) (events : List Event) : Prop :=
  ∀ k k' payload payload', Fetched ttl hasProvider now events k payload →
    Fetched ttl hasProvider now events k' payload' →
    bodyDigest payload.body = bodyDigest payload'.body → payload = payload'

section Differ

variable {visit : Visit} {payload : CurrentFeeResponse}
  (hdiffer : DigestsDiffer ttl hasProvider now events)

include hdiffer

/-- What a client keeps has the digest of a payload only if it is the body of that payload. -/
theorem body_eq_of_digest
    (hvalid : visit.Valid fun payload => ∃ k, Fetched ttl hasProvider now events k payload)
    (hpayload : ∃ k, Fetched ttl hasProvider now events k payload) {kept : Kept}
    (hkept : kept ∈ visit.kept) (hdigest : bodyDigest kept.body = bodyDigest payload.body) :
    kept.body = payload.body := by
  obtain ⟨k, hpayload⟩ := hpayload
  obtain ⟨-, payload', ⟨k', hpayload'⟩, hbody⟩ := hvalid.kept kept hkept
  rw [hbody] at hdigest ⊢
  rw [hdiffer k' k payload' payload hpayload' hpayload hdigest]

/-- What a client shows is what it would show if it kept nothing. -/
theorem shown_eq_plain (hk : (run ttl hasProvider now events).parties[k]? = some visit) :
    visit.shown = plain (visit.request, visit.answer.isSome) := by
  rw [← List.take_length (l := events)] at hk
  have hvalid := valid_run ttl hasProvider now events _ visit (List.mem_of_getElem? hk)
  cases hanswer : visit.answer with
  | none =>
    unfold shown plain
    rw [hanswer]
    dsimp only
    split <;> rfl
  | some answer =>
    cases answer with
    | error e =>
      obtain ⟨result, input, hdone, hresult⟩ := hvalid.answer _ hanswer
      cases result with
      | ok payload => cases hresult
      | error e' =>
        unfold shown
        rw [hanswer, hdone]
        rfl
    | ok response =>
      obtain ⟨payload, hdone, -, shown, hshown, hetag, hbody⟩ := hvalid.shown_spec hanswer
      have hfetched := exists_fetched hk (by rw [hdone]; rfl : visit.request.payload = some payload)
      have hbody : shown.body = payload.body := by
        rcases hbody with hbody | ⟨kept, hkept, hdigest, hbody⟩
        · exact hbody
        · exact hbody.trans (body_eq_of_digest hdiffer hvalid hfetched hkept hdigest)
      rw [hshown, hdone]
      exact congrArg some (Kept.ext hbody hetag)

theorem shownTo_eq_plain (k : ℕ) :
    shownTo (run ttl hasProvider now events) k =
      (seen (run ttl hasProvider now events)).parties[k]?.bind plain := by
  unfold shownTo seen
  rw [List.getElem?_map]
  cases hk : (run ttl hasProvider now events).parties[k]? with
  | none => rfl
  | some visit => exact shown_eq_plain hdiffer hk

theorem DigestsDiffer.forget : DigestsDiffer ttl hasProvider now (events.map Event.forget) := by
  unfold DigestsDiffer Fetched at hdiffer ⊢
  rwa [map_request_forget, List.length_map]

end Differ

/-- In every run of any number of requests of any clients, if the digests of the payloads fetched are
different: each client shows what it would if no client kept anything, namely the body of the payload
that its request fetched or read from a fresh entry, and is sent this body exactly if it does not keep
it. -/
theorem revalidation_of_run (ttl : ℕ) (hasProvider : Bool) (now : ℤ) (events : List Event)
    (hdiffer : DigestsDiffer ttl hasProvider now events) (k : ℕ) :
    shownTo (run ttl hasProvider now events) k =
        shownTo (run ttl hasProvider now (events.map Event.forget)) k ∧
      ∀ visit response, (run ttl hasProvider now events).parties[k]? = some visit →
        visit.answer = some (.ok response) →
        ∃ payload shown, visit.shown = some shown ∧
          (response.status = 304 ↔ ∃ kept ∈ visit.kept, kept.body = payload.body) ∧
          (∀ payload' : CurrentFeeResponse, payload'.body = shown.body ↔ payload' = payload) ∧
          (Fetched ttl hasProvider now events k payload ∨
            ReadFresh ttl hasProvider now events k payload) := by
  constructor
  · rw [shownTo_eq_plain hdiffer, shownTo_eq_plain hdiffer.forget, seen_run_forget]
  · intro visit response hk hanswer
    have hplain := shown_eq_plain hdiffer hk
    rw [← List.take_length (l := events)] at hk
    have hvalid := valid_run ttl hasProvider now events _ visit (List.mem_of_getElem? hk)
    obtain ⟨payload, hdone, hstatus, shown, hshown, -, -⟩ := hvalid.shown_spec hanswer
    have hpayload : visit.request.payload = some payload := by
      rw [hdone]
      rfl
    have hbody : shown.body = payload.body := by
      rw [hshown, hdone, hanswer] at hplain
      rw [Option.some.inj hplain]
    refine ⟨payload, shown, hshown, hstatus.trans ⟨?_, ?_⟩, fun payload' => ?_,
      fetched_or_readFresh hk hpayload⟩
    · rintro ⟨kept, hkept, hdigest⟩
      exact ⟨kept, hkept,
        body_eq_of_digest hdiffer hvalid (exists_fetched hk hpayload) hkept hdigest⟩
    · rintro ⟨kept, hkept, hsame⟩
      exact ⟨kept, hkept, by rw [hsame]⟩
    · rw [hbody]
      exact CurrentFeeResponse.body_injective.eq_iff

/-- Nothing has come for the request, and it takes a step. -/
def idle : VisitInput where
  elapsed := 0
  poll := .pending
  state := quietHistory
  now := seconds 1736851620

/-- One fee for everything. -/
def flatFeeStats (fee : String) : HorizonFeeStats where
  lastLedgerBaseFee := fee
  feeCharged :=
    { min := fee, max := fee, avg := fee, p10 := fee, p20 := fee, p30 := fee, p40 := fee, p50 := fee,
      p60 := fee, p70 := fee, p80 := fee, p90 := fee, p95 := fee, p99 := fee }

/-- Horizon's answer comes. -/
def answered (stats : HorizonFeeStats) : VisitInput :=
  { idle with
    elapsed := 1000000
    poll := .ready (.ok stats) }

/-- A request that fetches the fees, and another one with what the first was answered. -/
def twoVisits : List Event :=
  [.ask none, .act 0 idle, .act 0 idle, .act 0 idle, .act 0 (answered (flatFeeStats "100")),
    .act 0 idle, .act 0 idle, .act 0 idle, .ask (some 0), .act 1 idle, .act 1 idle, .act 1 idle,
    .act 1 idle, .act 1 idle]

theorem revalidation_of_run_twoVisits :
    let s := run 5000000000 true 0 twoVisits
    shownTo s 1 = shownTo (run 5000000000 true 0 (twoVisits.map Event.forget)) 1 ∧
      ∀ visit response, s.parties[1]? = some visit → visit.answer = some (.ok response) →
        ∃ payload shown, visit.shown = some shown ∧
          (response.status = 304 ↔ ∃ kept ∈ visit.kept, kept.body = payload.body) ∧
          (∀ payload' : CurrentFeeResponse, payload'.body = shown.body ↔ payload' = payload) ∧
          (Fetched 5000000000 true 0 twoVisits 1 payload ∨
            ReadFresh 5000000000 true 0 twoVisits 1 payload) := by
  intro s
  have hfetched : ∀ k payload, Fetched 5000000000 true 0 twoVisits k payload →
      payload = (flatFeeStats "100").currentFees := by
    rintro k payload ⟨i, -, elapsed, hevent, -⟩
    have hmem := List.mem_of_getElem? hevent
    have hevents : k = 0 ∧ elapsed = 1000000 ∧ payload = (flatFeeStats "100").currentFees := by
      simpa [twoVisits, Event.request, idle, VisitInput.pollAfter, Poll.map, answered,
        Except.map] using hmem
    exact hevents.2.2
  refine revalidation_of_run 5000000000 true 0 twoVisits (fun k k' payload payload' h h' _ => ?_) 1
  rw [hfetched k payload h, hfetched k' payload' h']

/-- The second request is answered 304, and its client shows what the first one was sent. -/
example :
    ((run 5000000000 true 0 twoVisits).parties[1]?.bind (·.answer)).map
        (fun answer => answer.toOption.map (·.status)) = some (some 304) ∧
      shownTo (run 5000000000 true 0 twoVisits) 1 = shownTo (run 5000000000 true 0 twoVisits) 0 := by
  decide +kernel

end Visit

end StellarFeeTracker
