import StellarFeeTracker.Recommendation.Serving
import StellarFeeTracker.Chrono

/-!
# How old a cached recommendation is when it is served

The engine is built with a cache of ten seconds, whatever its configuration says.  So the configured
lifetime is kept exactly when it is ten seconds or more, or when nothing is ever cached
(`ttlHonoured_iff`).
-/

namespace StellarFeeTracker

open Machine

/-- The wall clock and the timestamps of the store are instants that chrono has. -/
def RecommendCall.Representable (call : RecommendCall) : Prop :=
  (minUtc ≤ call.now ∧ call.now ≤ maxUtc) ∧
    ∀ p ∈ call.store.data, minUtc ≤ p.timestamp ∧ p.timestamp ≤ maxUtc

instance (call : RecommendCall) : Decidable call.Representable := by
  unfold RecommendCall.Representable
  infer_instance

namespace FeeRecommendationEngine

variable (engine : FeeRecommendationEngine)

/-- The request is answered with this response, which the cache holds, and leaves the cache as it is. -/
def ServedFromCache (cache : RecommendationCache) (call : RecommendCall)
    (response : RecommendResponse) : Prop :=
  cache.get (engine.cacheKey call) call.lookupAt = some response ∧
    engine.recommend cache call = (cache, [.ok response])

/-- After the requests `earlier`, the request `source` is answered with this response and puts it under
the key, and it stays there while the requests `between` are answered. -/
def StoredBy (earlier : List RecommendCall) (source : RecommendCall) (between : List RecommendCall)
    (key : CacheKey) (response : RecommendResponse) : Prop :=
  let before := final engine.recommend newCache earlier
  let stored := before.set key response source.storeAt
  engine.recommend before source = (stored, [.ok response]) ∧
    ∀ middle, middle <+: between →
      (final engine.recommend stored middle).entries key = stored.entries key

/-- Each response of the run that is served from the cache was stored by a request of the run, no longer
ago than the configured lifetime. -/
def TtlHonoured (calls : List RecommendCall) : Prop :=
  ∀ before call after response, calls = before ++ call :: after →
    engine.ServedFromCache (final engine.recommend newCache before) call response →
      ∃ earlier source between, before = earlier ++ source :: between ∧
        engine.StoredBy earlier source between (engine.cacheKey call) response ∧
        call.lookupAt - source.storeAt ≤ seconds engine.config.cacheTtlSecs

theorem servedFromCache_of_get {cache : RecommendationCache} {call : RecommendCall}
    {response : RecommendResponse}
    (h : cache.get (engine.cacheKey call) call.lookupAt = some response) :
    engine.ServedFromCache cache call response :=
  ⟨h, by simp only [recommend, h]⟩

/-! ## Runs of the engine as runs of its cache -/

/-- A run keeps the lifetime of the cache, and its entries as the policy says. -/
theorem final_recommend (cache : RecommendationCache) (httl : cache.ttl = newCache.ttl)
    (calls : List RecommendCall) :
    final engine.recommend cache calls =
      { entries := final (Memo.step engine.policy engine.uncached) cache.entries calls
        ttl := newCache.ttl } := by
  induction calls generalizing cache with
  | nil =>
    rw [final_nil, final_nil, ← httl]
  | cons call calls ih =>
    rw [final_cons, ih _ ((engine.recommend_ttl cache call).trans httl), final_cons,
      engine.recommend_eq_step cache httl]

theorem final_newCache (calls : List RecommendCall) :
    final engine.recommend newCache calls =
      { entries := final (Memo.step engine.policy engine.uncached) Memo.Cache.empty calls
        ttl := newCache.ttl } :=
  engine.final_recommend newCache rfl calls

/-- The request that stores an entry puts its response into the cache. -/
theorem storedBy_of_stores {earlier between : List RecommendCall} {source : RecommendCall}
    {key : CacheKey} {e : Memo.Entry RecommendResponse}
    (h : Memo.Stores engine.policy engine.uncached
      (final (Memo.step engine.policy engine.uncached) Memo.Cache.empty earlier) source key e)
    (hkept : ∀ middle, middle <+: between →
      final (Memo.step engine.policy engine.uncached)
        (Memo.step engine.policy engine.uncached
          (final (Memo.step engine.policy engine.uncached) Memo.Cache.empty earlier) source).1
        middle key = some e) :
    engine.StoredBy earlier source between key e.value := by
  have hexpires : e.expiresAt = source.storeAt + newCache.ttl := h.expiresAt
  unfold StoredBy
  rw [final_newCache]
  dsimp only [RecommendationCache.set]
  rw [← hexpires]
  constructor
  · refine (engine.recommend_eq_step _ ?_ source).trans ?_
    · rfl
    · rw [h.step_eq]
  · intro middle hmiddle
    have hentry := hkept middle hmiddle
    rw [h.step_eq] at hentry
    rw [engine.final_recommend { entries := Memo.insert _ key _ _, ttl := newCache.ttl } rfl]
    exact hentry.trans (if_pos rfl).symm

/-- A response served from the cache was stored by a request of the run, less than ten seconds ago. -/
theorem exists_storedBy_of_servedFromCache {before : List RecommendCall} {call : RecommendCall}
    {response : RecommendResponse}
    (h : engine.ServedFromCache (final engine.recommend newCache before) call response) :
    ∃ earlier source between, before = earlier ++ source :: between ∧
      engine.StoredBy earlier source between (engine.cacheKey call) response ∧
      engine.policy.keep source = true ∧ call.lookupAt - source.storeAt < seconds 10 := by
  obtain ⟨hfound, -⟩ := h
  rw [final_newCache] at hfound
  obtain ⟨e, hentry, hvalue⟩ := Option.bind_eq_some_iff.1 hfound
  split_ifs at hvalue with hlive
  obtain rfl := Option.some.inj hvalue
  obtain ⟨earlier, source, between, rfl, hstores, hkept⟩ := Memo.exists_stores_of_entry hentry
  rw [hstores.expiresAt] at hlive
  exact ⟨earlier, source, between, rfl, engine.storedBy_of_stores hstores hkept, hstores.keep,
    sub_lt_iff_lt_add'.2 hlive⟩

/-! ## Which lifetimes are honoured -/

/-- The second of two requests with one key is served the response to the first until that expires. -/
theorem servedFromCache_second {first second : RecommendCall}
    (hkeep : engine.policy.keep first = true)
    (hkey : engine.cacheKey second = engine.cacheKey first)
    (hlive : second.lookupAt < first.storeAt + seconds 10) :
    ∃ response,
      engine.ServedFromCache (final engine.recommend newCache [first]) second response := by
  obtain ⟨response, hanswer⟩ := engine.exists_uncached_of_keep hkeep
  have hstores : Memo.Stores engine.policy engine.uncached Memo.Cache.empty first
      (engine.cacheKey first) ⟨response, first.storeAt + seconds 10⟩ :=
    ⟨rfl, rfl, hanswer, hkeep, rfl⟩
  have hfound : (final engine.recommend newCache [first]).get (engine.cacheKey second)
      second.lookupAt = some response := by
    rw [final_newCache, final_cons, final_nil, hstores.step_eq, hkey]
    simp [RecommendationCache.get, Memo.lookup, Memo.insert, hlive]
  exact ⟨response, engine.servedFromCache_of_get hfound⟩

/-- What a run of two such requests shows of the lifetime. -/
theorem TtlHonoured.age_le {first second : RecommendCall} (h : engine.TtlHonoured [first, second])
    (hkeep : engine.policy.keep first = true)
    (hkey : engine.cacheKey second = engine.cacheKey first)
    (hlive : second.lookupAt < first.storeAt + seconds 10) :
    second.lookupAt - first.storeAt ≤ seconds engine.config.cacheTtlSecs := by
  obtain ⟨response, hserved⟩ := engine.servedFromCache_second hkeep hkey hlive
  obtain ⟨earlier, source, between, hsplit, -, hage⟩ := h [first] second [] response rfl hserved
  obtain ⟨rfl, rfl, -⟩ : earlier = [] ∧ source = first ∧ between = [] := by
    simpa [List.singleton_eq_append_iff] using hsplit
  exact hage

/-- The configured lifetime is honoured in all runs exactly when it is at least the ten seconds of
the cache, or no response is one to keep. -/
theorem ttlHonoured_iff :
    (∀ calls, (∀ call ∈ calls, call.Representable) → engine.TtlHonoured calls) ↔
      10 ≤ engine.config.cacheTtlSecs ∨
        ∀ call : RecommendCall, call.Representable → engine.policy.keep call = false := by
  constructor
  · intro h
    by_contra hnot
    rw [not_or, not_le, not_forall] at hnot
    obtain ⟨hshort, call, hkeeps⟩ := hnot
    obtain ⟨hcall, hkeep⟩ := Classical.not_imp.1 hkeeps
    -- the same request, the last nanosecond before its response expires
    let first := { call with lookupAt := 0, storeAt := 0 }
    let second := { call with lookupAt := seconds 10 - 1, storeAt := seconds 10 - 1 }
    have hboth : ∀ c ∈ [first, second], c.Representable := by
      simp only [List.forall_mem_cons]
      exact ⟨hcall, hcall, List.forall_mem_nil _⟩
    have hkept : engine.policy.keep first = true := by
      rw [← Bool.not_eq_false]
      exact hkeep
    have hkey : engine.cacheKey second = engine.cacheKey first := rfl
    have hlive : second.lookupAt < first.storeAt + seconds 10 := by
      show seconds 10 - 1 < 0 + seconds 10
      decide
    have hage : seconds 10 - 1 - 0 ≤ seconds engine.config.cacheTtlSecs :=
      TtlHonoured.age_le engine (h [first, second] hboth) hkept hkey hlive
    have hnine : seconds engine.config.cacheTtlSecs ≤ seconds 9 :=
      seconds_le_seconds (by exact_mod_cast Nat.le_of_lt_succ hshort)
    have hnot : ¬ seconds 10 - 1 - 0 ≤ seconds 9 := by decide
    exact hnot (hage.trans hnine)
  · rintro hcondition calls hcalls before call after response rfl hserved
    obtain ⟨earlier, source, between, rfl, hstored, hkeep, hage⟩ :=
      engine.exists_storedBy_of_servedFromCache hserved
    refine ⟨earlier, source, between, rfl, hstored, ?_⟩
    rcases hcondition with hlong | hnever
    · exact hage.le.trans (seconds_le_seconds (by exact_mod_cast hlong))
    · rw [hnever source (hcalls source (by simp))] at hkeep
      cases hkeep

/-- With a lifetime of five seconds, a response is served again after eight. -/
theorem five_second_ttl_ignored :
    let engine : FeeRecommendationEngine :=
      { config := { RecommendationConfig.default with cacheTtlSecs := 5 } }
    let calls := [callAt tenFees none 0, callAt tenFees none (seconds 8)]
    (∀ call ∈ calls, call.Representable) ∧ ¬ engine.TtlHonoured calls := by
  intro engine calls
  refine ⟨by decide, fun h => ?_⟩
  have hage : seconds 8 - 0 ≤ seconds 5 :=
    TtlHonoured.age_le engine h (by decide) (by decide) (by decide)
  revert hage
  decide

end FeeRecommendationEngine

end StellarFeeTracker
