import StellarFeeTracker.General.PrunedLog
import StellarFeeTracker.Polling.Retention
import StellarFeeTracker.Recommendation.Serving
import Mathlib.Data.List.Perm.Subperm

/-!
# The history of recommendations

A recommendation that the engine computes from fees is also written to the database, by a task that
it does not wait for; answers from the cache and cold starts are not.  The tasks finish in any
order, may fail, and the poller prunes the table.  Whatever happens, the history shows answers that
were given (`recommendHistory_of_schedule`).
-/

namespace StellarFeeTracker

open Machine PrunedLog

/-! ## Rows -/

namespace FeeRecommendationEngine

variable (engine : FeeRecommendationEngine)

/-- The row of a recommendation that was computed from fees. -/
def logged (text : Rfc3339) (call : RecommendCall) (computedAt : DateTime) (long short : List ℕ) :
    Recommendation :=
  let response := engine.warmRecommendation call long short
  { id := none
    recommendedFee := asI64 response.feeInStroops
    confidence := response.confidence
    targetLedgers := call.request.target engine.config
    networkCondition := response.networkCondition
    percentileBasis := urgencyToLabel call.request.urgencyOrDefault
    inputConfidence := engine.config.defaultConfidence
    inputLedgers := engine.config.defaultLedgers
    sampleCount := long.length
    computedAt := text.toRfc3339 computedAt }

/-- The row that `recommend` spawns a task for, if it computes its answer from fees. -/
def spawned (text : Rfc3339) (cache : RecommendationCache) (call : RecommendCall)
    (computedAt : DateTime) : Option Recommendation :=
  match cache.get (engine.cacheKey call) call.lookupAt with
  | some _ => none
  | none =>
    match engine.readSample call.store call.now with
    | .ok (.fees long short) => some (engine.logged text call computedAt long short)
    | _ => none

end FeeRecommendationEngine

/-- `insert_recommendation`, with the id that the database gives the row. -/
def insertRecommendation (id : ℤ) (rec : Recommendation) (recommendations : List Recommendation) :
    List Recommendation :=
  recommendations ++ [{ rec with id := some id }]

/-- `query_recent_recommendations`: the latest rows, newest first.  The limit is clamped to
`1..=100`. -/
def queryRecentRecommendations (limit : ℤ) (recommendations : List Recommendation) :
    List Recommendation :=
  let limit := max 1 (min limit 100)
  (recommendations.insertionSort fun r r' => r'.computedAt ≤ r.computedAt).take limit.toNat

/-! ## The endpoint -/

structure RecommendHistoryEntry where
  id : ℤ
  requestedAt : DateTime
  targetLedgers : ℕ
  percentileBasis : String
  recommendedFee : ℕ
  deriving DecidableEq, Repr

/-- `as u32`. -/
def u32OfI64 (n : ℤ) : ℕ := (n % 2 ^ 32).toNat

/-- The entry of a row whose time can be read. -/
def RecommendHistoryEntry.ofRow (text : Rfc3339) (rec : Recommendation) :
    Option RecommendHistoryEntry := do
  let requestedAt ← text.parseFromRfc3339 rec.computedAt
  return {
    id := rec.id.getD 0
    requestedAt
    targetLedgers := u32OfI64 rec.targetLedgers
    percentileBasis := rec.percentileBasis
    recommendedFee := u64OfI64 rec.recommendedFee }

/-- `GET /fees/recommend/history`: its entries, or the text of its error. -/
def recommendHistory (text : Rfc3339) (hasRepository : Bool)
    (queried : Except SqlError (List Recommendation)) :
    Except String (List RecommendHistoryEntry) :=
  if hasRepository then
    match queried with
    | .error (.failed message) => .error ("Failed to query recommendations: " ++ message)
    | .ok recommendations =>
      .ok ((queryRecentRecommendations 50 recommendations).filterMap
        (RecommendHistoryEntry.ofRow text))
  else .ok []

/-! ## The service -/

/-- The cache, the rows whose tasks have not finished, and the table. -/
structure RecommendService where
  cache : RecommendationCache
  pending : List Recommendation
  recommendations : List Recommendation

/-- A request, the end of one of the tasks, or a prune. -/
inductive RecommendEvent where
  | request (call : RecommendCall) (computedAt : DateTime)
  | persist (k : ℕ) (insert : Except SqlError ℤ)
  | prune (cutoff : DateTime)

namespace RecommendService

variable (engine : FeeRecommendationEngine) (text : Rfc3339)

def start : RecommendService where
  cache := FeeRecommendationEngine.newCache
  pending := []
  recommendations := []

/-- An event, which puts out the row that it inserts. -/
def step (s : RecommendService) : RecommendEvent → RecommendService × List Recommendation
  | .request call computedAt =>
    ({ s with
        cache := (engine.recommend s.cache call).1
        pending := s.pending ++ (engine.spawned text s.cache call computedAt).toList }, [])
  | .persist k insert =>
    match s.pending[k]?, insert with
    | some rec, .ok id =>
      ({ s with
          pending := s.pending.eraseIdx k
          recommendations := insertRecommendation id rec s.recommendations },
        [{ rec with id := some id }])
    | some _, .error _ => ({ s with pending := s.pending.eraseIdx k }, [])
    | none, _ => (s, [])
  | .prune cutoff =>
    ({ s with
        recommendations :=
          s.recommendations.filter fun r => !(r.computedAt < text.toRfc3339 cutoff) }, [])

/-- An event keeps a row of the table. -/
def keeps : RecommendEvent → Recommendation → Bool
  | .prune cutoff, rec => !(rec.computedAt < text.toRfc3339 cutoff)
  | _, _ => true

/-- The rows that an event spawns tasks for. -/
def spawnedBy (s : RecommendService) : RecommendEvent → List Recommendation
  | .request call computedAt => (engine.spawned text s.cache call computedAt).toList
  | _ => []

/-- The rows that the requests of a run spawn tasks for. -/
def spawnedRows (s : RecommendService) : List RecommendEvent → List Recommendation
  | [] => []
  | event :: events =>
    spawnedBy engine text s event ++ spawnedRows (step engine text s event).1 events

/-- A row before it gets its id. -/
def unsaved (rec : Recommendation) : Recommendation := { rec with id := none }

theorem step_recommendations (s : RecommendService) (event : RecommendEvent) :
    (step engine text s event).1.recommendations =
      s.recommendations.filter (keeps text event) ++ (step engine text s event).2 := by
  have hall : ∀ event, (∀ r, keeps text event r = true) →
      s.recommendations.filter (keeps text event) = s.recommendations :=
    fun event hkeeps => List.filter_eq_self.2 fun r _ => hkeeps r
  cases event with
  | request call computedAt =>
    rw [hall (.request call computedAt) fun _ => rfl]
    exact (List.append_nil _).symm
  | persist k insert =>
    rw [hall (.persist k insert) fun _ => rfl]
    simp only [step]
    cases s.pending[k]? with
    | none => simp
    | some rec =>
      cases insert with
      | error err => simp
      | ok id => rfl
  | prune cutoff => exact (List.append_nil _).symm

/-- The rows that a run inserts and those that are left pending are among those that it spawns. -/
theorem inserted_subperm_spawned (s : RecommendService) (events : List RecommendEvent) :
    ((emitted (step engine text) s events).map unsaved ++
        (final (step engine text) s events).pending.map unsaved).Subperm
      (s.pending.map unsaved ++ (spawnedRows engine text s events).map unsaved) := by
  induction events generalizing s with
  | nil =>
    rw [emitted_nil, final_nil, spawnedRows, List.map_nil, List.append_nil, List.nil_append]
  | cons event events ih =>
    have hrest := ih (step engine text s event).1
    rw [emitted_cons, final_cons, spawnedRows, List.map_append, List.map_append]
    cases event with
    | request call computedAt =>
      have hpending : (step engine text s (.request call computedAt)).1.pending =
        s.pending ++ spawnedBy engine text s (.request call computedAt) := rfl
      rw [hpending, List.map_append, List.append_assoc] at hrest
      exact hrest
    | prune cutoff => exact hrest
    | persist k insert =>
      have hnone : spawnedBy engine text s (.persist k insert) = [] := rfl
      rw [hnone, List.map_nil, List.nil_append]
      cases hk : s.pending[k]? with
      | none => simpa [step, hk] using hrest
      | some rec =>
        obtain ⟨hlt, hget⟩ := List.getElem?_eq_some_iff.1 hk
        cases insert with
        | error err =>
          simp only [step, hk] at hrest ⊢
          refine hrest.trans (List.Sublist.subperm ?_)
          exact ((List.eraseIdx_sublist _ _).map unsaved).append_right _
        | ok id =>
          simp only [step, hk] at hrest ⊢
          have hperm : (rec :: s.pending.eraseIdx k).Perm s.pending := by
            rw [← hget]
            exact List.getElem_cons_eraseIdx_perm hlt
          have hmoved := (List.subperm_cons (unsaved rec)).2 hrest
          exact hmoved.trans ((hperm.map unsaved).append_right _).subperm

/-! ## Where the rows come from -/

theorem mem_spawnedRows {s : RecommendService} {events : List RecommendEvent}
    {rec : Recommendation} (h : rec ∈ spawnedRows engine text s events) :
    ∃ n call computedAt, events[n]? = some (.request call computedAt) ∧
      engine.spawned text (final (step engine text) s (events.take n)).cache call computedAt =
        some rec := by
  induction events generalizing s with
  | nil => simp [spawnedRows] at h
  | cons event events ih =>
    rw [spawnedRows, List.mem_append] at h
    rcases h with hfirst | hrest
    · cases event with
      | request call computedAt =>
        exact ⟨0, call, computedAt, rfl, by simpa [spawnedBy] using hfirst⟩
      | persist k insert => cases hfirst
      | prune cutoff => cases hfirst
    · obtain ⟨n, call, computedAt, hevent, hspawned⟩ := ih hrest
      exact ⟨n + 1, call, computedAt, hevent, hspawned⟩

end RecommendService

namespace FeeRecommendationEngine

variable {engine : FeeRecommendationEngine} {text : Rfc3339}

/-- A request spawns a task when it is answered with a warm recommendation of its own. -/
theorem spawned_eq_some {cache : RecommendationCache} {call : RecommendCall}
    {computedAt : DateTime} {rec : Recommendation}
    (h : engine.spawned text cache call computedAt = some rec) :
    cache.get (engine.cacheKey call) call.lookupAt = none ∧ ∃ long short,
      engine.readSample call.store call.now = .ok (.fees long short) ∧
        (engine.recommend cache call).2 = [.ok (engine.warmRecommendation call long short)] ∧
        rec = engine.logged text call computedAt long short := by
  unfold spawned at h
  split at h
  · cases h
  · next hmiss =>
    split at h
    · next long short hsample =>
      refine ⟨hmiss, long, short, hsample, ?_, (Option.some.inj h).symm⟩
      simp [recommend, hmiss, hsample]
    · cases h

/-! ## The fee of a row -/

/-- The fees of a sample are fees of the store. -/
theorem fees_of_readSample {store : FeeHistoryStore} {now : DateTime} {long short : List ℕ}
    (h : engine.readSample store now = .ok (.fees long short)) :
    ∀ fee ∈ long, ∃ p ∈ store.data, p.feeAmount = fee := by
  unfold readSample at h
  obtain ⟨window, -, h⟩ := exists_ok_of_bind h
  obtain ⟨since, -, h⟩ := exists_ok_of_bind h
  dsimp only at h
  split_ifs at h
  · cases h
  · cases h
  · obtain ⟨shortWindow, -, h⟩ := exists_ok_of_bind h
    obtain ⟨shortSince, -, h⟩ := exists_ok_of_bind h
    obtain ⟨rfl, -⟩ := FeeSample.fees.inj (Except.ok.inj h)
    intro fee hfee
    obtain ⟨p, hp, rfl⟩ := List.mem_map.1 hfee
    exact ⟨p, List.mem_of_mem_filter hp, rfl⟩

theorem percentileValue_le {sorted : List ℕ} {bound : ℕ} (hbound : 100 ≤ bound)
    (hsorted : ∀ fee ∈ sorted, fee ≤ bound) (p : ℕ) : percentileValue sorted p ≤ bound := by
  unfold percentileValue
  split_ifs
  · exact hbound
  · rw [List.getD_eq_getElem?_getD]
    cases hfee : sorted[max ((p * sorted.length + 99) / 100) 1 - 1]? with
    | none => exact Nat.zero_le _
    | some fee => exact hsorted fee (List.mem_of_getElem? hfee)

/-- The fee of a recommendation from fees that fit in 64 bits fits in 64 bits. -/
theorem warmRecommendation_fee_le (call : RecommendCall) {long : List ℕ}
    (hlong : ∀ fee ∈ long, fee ≤ u64Max) (short : List ℕ) :
    (engine.warmRecommendation call long short).feeInStroops ≤ u64Max := by
  have hbase : percentileValue (long.insertionSort (· ≤ ·))
      (urgencyPercentile call.request.urgencyOrDefault) ≤ u64Max := by
    refine percentileValue_le (by decide) (fun fee hfee => hlong fee ?_) _
    exact (List.mem_insertionSort _).1 hfee
  have hadjusted : (engine.uncappedFee call.request.urgencyOrDefault
      (long.insertionSort (· ≤ ·)) (short.insertionSort (· ≤ ·))).1 ≤ u64Max := by
    unfold uncappedFee
    dsimp only
    split
    · exact min_le_right _ _
    · exact hbase
  refine le_trans ?_ hadjusted
  change capFee _ _ ≤ _
  unfold capFee
  split
  · exact min_le_left _ _
  · exact le_rfl

end FeeRecommendationEngine

/-! ## What the history shows -/

/-- A request over fees that fit in 64 bits, at an instant whose text is read back. -/
structure SoundRequest (text : Rfc3339) (call : RecommendCall) (computedAt : DateTime) : Prop where
  fees : ∀ p ∈ call.store.data, p.feeAmount ≤ u64Max
  year : InFourDigitYears computedAt
  parse : text.parseFromRfc3339 (text.toRfc3339 computedAt) = some computedAt

namespace RecommendService

variable {engine : FeeRecommendationEngine} {text : Rfc3339}

/-- The entry shows the answer to a request of the run that the engine computed from fees. -/
def ShowsAnswer (engine : FeeRecommendationEngine) (text : Rfc3339) (events : List RecommendEvent)
    (entry : RecommendHistoryEntry) : Prop :=
  ∃ n call response, events[n]? = some (.request call entry.requestedAt) ∧
    let cache := (final (step engine text) start (events.take n)).cache
    cache.get (engine.cacheKey call) call.lookupAt = none ∧
      (engine.recommend cache call).2 = [.ok response] ∧ response.coldStart = false ∧
      entry.recommendedFee = response.feeInStroops ∧
      entry.targetLedgers = call.request.target engine.config ∧
      entry.percentileBasis = urgencyToLabel call.request.urgencyOrDefault

theorem u32OfI64_target (config : RecommendationConfig) (request : RecommendRequest) :
    u32OfI64 (request.target config) = request.target config := by
  have hle : request.target config ≤ 100 := by
    unfold RecommendRequest.target maxTargetLedgers
    omega
  unfold u32OfI64
  omega

/-- A row that a run inserted was spawned by a request, and its entry shows the answer to it. -/
theorem entry_of_inserted {events : List RecommendEvent}
    (hsound : ∀ call computedAt, .request call computedAt ∈ events →
      SoundRequest text call computedAt) {row : Recommendation}
    (hrow : row ∈ emitted (step engine text) start events) :
    ∃ entry, RecommendHistoryEntry.ofRow text row = some entry ∧
      ShowsAnswer engine text events entry ∧ InFourDigitYears entry.requestedAt ∧
        row.computedAt = text.toRfc3339 entry.requestedAt := by
  have hspawned := (inserted_subperm_spawned engine text start events).subset
    (List.mem_append_left _ (List.mem_map_of_mem hrow))
  rw [start, List.map_nil, List.nil_append] at hspawned
  obtain ⟨rec, hrec, hunsaved⟩ := List.mem_map.1 hspawned
  obtain ⟨n, call, computedAt, hevent, hfrom⟩ := mem_spawnedRows engine text hrec
  obtain ⟨hmiss, long, short, hsample, hanswer, rfl⟩ :=
    FeeRecommendationEngine.spawned_eq_some hfrom
  have h := hsound call computedAt (List.mem_of_getElem? hevent)
  -- the row has the columns that were spawned, and an id
  have hcolumns : row = { engine.logged text call computedAt long short with id := row.id } := by
    unfold unsaved at hunsaved
    cases row
    simp only [Recommendation.mk.injEq] at hunsaved ⊢
    simp [hunsaved]
  have hfee : (engine.warmRecommendation call long short).feeInStroops ≤ u64Max := by
    refine FeeRecommendationEngine.warmRecommendation_fee_le call (fun fee hfee => ?_) short
    obtain ⟨p, hp, rfl⟩ := FeeRecommendationEngine.fees_of_readSample hsample fee hfee
    exact h.fees p hp
  have hback := u64OfI64_asI64 (Nat.lt_of_le_of_lt hfee (by decide))
  refine ⟨{ id := row.id.getD 0
            requestedAt := computedAt
            targetLedgers := call.request.target engine.config
            percentileBasis := urgencyToLabel call.request.urgencyOrDefault
            recommendedFee := (engine.warmRecommendation call long short).feeInStroops },
    ?_, ⟨n, call, _, hevent, hmiss, hanswer, rfl, rfl, rfl, rfl⟩, h.year, ?_⟩
  · rw [hcolumns]
    simp only [RecommendHistoryEntry.ofRow, FeeRecommendationEngine.logged, h.parse, hback,
      u32OfI64_target]
    rfl
  · rw [hcolumns]
    rfl

/-- After every schedule of requests, inserts that may fail, and prunes, the history shows the
newest rows, at most 50, that were inserted and not pruned, newest first; each shows the answer to a
request that the engine computed from fees, with its fee; and no answer has two rows. -/
theorem recommendHistory_of_schedule (engine : FeeRecommendationEngine) (text : Rfc3339)
    (htext : text.PrintsYears) (events : List RecommendEvent)
    (hsound : ∀ call computedAt, .request call computedAt ∈ events →
      SoundRequest text call computedAt) :
    let s := final (step engine text) start events
    ((emitted (step engine text) start events).map unsaved).Subperm
        ((spawnedRows engine text start events).map unsaved) ∧
      ∃ page entries, IsNewest Recommendation.computedAt 50
          (survivors (step engine text) (keeps text) start events) page ∧
        recommendHistory text true (.ok s.recommendations) = .ok entries ∧
        List.Forall₂ (fun row entry => RecommendHistoryEntry.ofRow text row = some entry) page
          entries ∧
        (entries.Pairwise fun entry entry' => entry'.requestedAt ≤ entry.requestedAt) ∧
        ∀ entry ∈ entries, ShowsAnswer engine text events entry := by
  intro s
  have hinserted := inserted_subperm_spawned engine text start events
  rw [start, List.map_nil, List.nil_append] at hinserted
  refine ⟨(List.sublist_append_left _ _).subperm.trans hinserted, ?_⟩
  have htable : s.recommendations = survivors (step engine text) (keeps text) start events :=
    log_final (step_recommendations engine text) start events
  have hnewest := isNewest_take Recommendation.computedAt 50
    (survivors (step engine text) (keeps text) start events)
  rw [← htable] at hnewest ⊢
  have hpage : queryRecentRecommendations 50 s.recommendations =
      (s.recommendations.insertionSort fun r r' => r'.computedAt ≤ r.computedAt).take 50 := rfl
  rw [← hpage] at hnewest
  have hentry : ∀ row ∈ queryRecentRecommendations 50 s.recommendations, ∃ entry,
      RecommendHistoryEntry.ofRow text row = some entry ∧ ShowsAnswer engine text events entry ∧
        InFourDigitYears entry.requestedAt ∧ row.computedAt = text.toRfc3339 entry.requestedAt := by
    intro row hrow
    have hleft := hnewest.subset hrow
    rw [htable] at hleft
    exact entry_of_inserted hsound ((survivors_sublist_emitted _ _).subset hleft)
  refine ⟨_, (queryRecentRecommendations 50 s.recommendations).filterMap
    (RecommendHistoryEntry.ofRow text), hnewest, rfl, ?_, ?_, ?_⟩
  · apply forall₂_filterMap
    intro row hrow
    obtain ⟨entry, hrow, -⟩ := hentry row hrow
    exact ⟨entry, hrow⟩
  · refine List.pairwise_filterMap.2 (hnewest.ordered.imp_of_mem ?_)
    intro row row' hrow hrow' hle entry hread entry' hread'
    obtain ⟨old, hold, -, hyear, hcomputed⟩ := hentry row hrow
    obtain ⟨old', hold', -, hyear', hcomputed'⟩ := hentry row' hrow'
    obtain rfl := Option.some.inj (hold.symm.trans hread)
    obtain rfl := Option.some.inj (hold'.symm.trans hread')
    rw [hcomputed, hcomputed', ← not_lt, htext.lt_iff hyear] at hle
    exact not_lt.1 fun hlt => hle ⟨hyear', hlt⟩
  · intro entry hmem
    obtain ⟨row, hrow, hread⟩ := List.mem_filterMap.1 hmem
    obtain ⟨old, hold, hshows, -⟩ := hentry row hrow
    obtain rfl := Option.some.inj (hold.symm.trans hread)
    exact hshows

/-- A request over ten fees of 300, and the end of its insert. -/
def oneRequest : List RecommendEvent :=
  [.request (FeeRecommendationEngine.callAt FeeRecommendationEngine.tenFees none 0)
      (seconds 1736851620),
    .persist 0 (.ok 1)]

/-- The history shows its answer. -/
theorem recommendHistory_one_request :
    let engine : FeeRecommendationEngine := { config := .default }
    ∃ entries, recommendHistory stampText true
        (.ok (final (step engine stampText) start oneRequest).recommendations) = .ok entries ∧
      ∀ entry ∈ entries, ShowsAnswer engine stampText oneRequest entry := by
  intro engine
  have hsound : ∀ call computedAt, .request call computedAt ∈ oneRequest →
      SoundRequest stampText call computedAt := by
    intro call computedAt hmem
    rcases List.mem_cons.1 hmem with heq | hmem
    · obtain ⟨rfl, rfl⟩ := RecommendEvent.request.inj heq
      exact ⟨by decide, by decide, by decide⟩
    · cases List.mem_singleton.1 hmem
  obtain ⟨-, page, entries, -, hentries, -, -, hshows⟩ :=
    recommendHistory_of_schedule engine stampText printsYears_stampText oneRequest hsound
  exact ⟨entries, hentries, hshows⟩

end RecommendService

end StellarFeeTracker
