import StellarFeeTracker.Recommendation.Engine

/-!
# Whose answer a request gets

The engine is a cache over the computation `uncached`, so in a run every request gets the answer to
one of the requests so far, itself or one with the same key: `served` lists these
(`emitted_recommend`).  What a response owes to its own request is then a matter of two requests.

* `capsRespected_iff`: a response respects the cap of its request when the computation it came from
  stayed within it.  A cold start ignores caps, and the key does not hold them.
* `transparent_iff`: in a steady market the cache is transparent for a request when its cap and that
  of the request that serves it cut the fee to the same amount.
-/

namespace StellarFeeTracker

open Machine

namespace FeeRecommendationEngine

variable (engine : FeeRecommendationEngine)

/-! ## The engine as a cache -/

/-- The answer to a request when the cache has none. -/
def uncached (call : RecommendCall) : Except Panic RecommendResponse :=
  match engine.readSample call.store call.now with
  | .error panic => .error panic
  | .ok (.fees long short) => .ok (engine.warmRecommendation call long short)
  | .ok _ =>
    .ok (fallbackRecommendation (call.request.target engine.config) call.request.urgencyOrDefault)

/-- How the engine uses its cache: a recommendation from an empty history is not kept. -/
def policy : Memo.Policy CacheKey RecommendCall where
  key := engine.cacheKey
  lookupAt := (·.lookupAt)
  expiresAt call := call.storeAt + newCache.ttl
  keep call :=
    match engine.readSample call.store call.now with
    | .ok .empty | .error _ => false
    | .ok _ => true

theorem recommend_eq_step (cache : RecommendationCache) (httl : cache.ttl = newCache.ttl)
    (call : RecommendCall) :
    engine.recommend cache call =
      ({ cache with entries := (Memo.step engine.policy engine.uncached cache.entries call).1 },
        (Memo.step engine.policy engine.uncached cache.entries call).2) := by
  rcases hfound : Memo.lookup cache.entries (engine.cacheKey call) call.lookupAt with _ | v
  · rcases hsample : engine.readSample call.store call.now with panic | _ | _ | ⟨long, short⟩ <;>
      simp [recommend, RecommendationCache.get, RecommendationCache.set, Memo.step, policy, uncached,
        hfound, hsample, ← httl]
  · simp [recommend, RecommendationCache.get, Memo.step, policy, hfound]

theorem recommend_ttl (cache : RecommendationCache) (call : RecommendCall) :
    (engine.recommend cache call).1.ttl = cache.ttl := by
  simp only [recommend]
  repeat' split
  all_goals rfl

/-- For each request of a run, the request whose answer it gets: itself, or the one that left the
live entry under its key. -/
def served (calls : List RecommendCall) : List RecommendCall := Memo.served engine.policy calls

/-- What is kept is a response. -/
theorem exists_uncached_of_keep {call : RecommendCall} (hkeep : engine.policy.keep call = true) :
    ∃ response, engine.uncached call = .ok response := by
  unfold uncached
  rcases hsample : engine.readSample call.store call.now with panic | sample
  · simp [policy, hsample] at hkeep
  · cases sample <;> exact ⟨_, rfl⟩

/-- A run from an empty cache answers each request with the answer to the one that serves it. -/
theorem emitted_recommend (calls : List RecommendCall) :
    emitted engine.recommend newCache calls = (engine.served calls).map engine.uncached := by
  rw [served, ← Memo.emitted_step engine.policy engine.uncached
    fun call => engine.exists_uncached_of_keep]
  have hsim : emitted engine.recommend newCache calls =
      (emitted (Memo.step engine.policy engine.uncached) Memo.Cache.empty calls).filterMap some := by
    refine emitted_of_simulation
      (fun entries cache => cache.ttl = newCache.ttl ∧ cache.entries = entries) some ?_ ⟨rfl, rfl⟩
      calls
    rintro _ cache call ⟨httl, rfl⟩
    refine ⟨⟨(engine.recommend_ttl cache call).trans httl, ?_⟩, ?_⟩
    · rw [recommend_eq_step engine cache httl]
    · rw [recommend_eq_step engine cache httl, List.filterMap_some]
  rw [hsim, List.filterMap_some]

theorem recommend_newCache_snd (call : RecommendCall) :
    (engine.recommend newCache call).2 = [engine.uncached call] := by
  have h := engine.emitted_recommend [call]
  simpa [emitted, outputs, served, Memo.served, Memo.servedStep, Memo.lookup, Memo.Cache.empty] using h

/-! ## Caps -/

/-- The fee of a warm recommendation before the cap. -/
def adjustedFee (urgency : Urgency) (long short : List ℕ) : ℕ :=
  (engine.uncappedFee urgency (long.insertionSort (· ≤ ·)) (short.insertionSort (· ≤ ·))).1

/-- Every successful response to a validated request is within the cap of the request. -/
def CapsRespected (calls : List RecommendCall)
    (outcomes : List (Except Panic RecommendResponse)) : Prop :=
  List.Forall₂ (fun call outcome => ∀ response, outcome = .ok response →
    validateRecommendRequest call.request = .ok () →
      ∀ m ∈ call.request.cap, response.feeInStroops ≤ m) calls outcomes

/-- The fee computed for a request is within a bound: the fallback fee on a cold start, otherwise
the cap of the request or the fee before the cap. -/
def WithinBound (call : RecommendCall) (m : ℕ) : Prop :=
  match engine.readSample call.store call.now with
  | .error _ => True
  | .ok (.fees long short) =>
    (∃ c ∈ call.request.cap, c ≤ m) ∨
      engine.adjustedFee call.request.urgencyOrDefault long short ≤ m
  | .ok _ => fallbackFee call.request.urgencyOrDefault ≤ m

theorem capFee_le_iff (fee : ℕ) (cap : Option ℕ) (m : ℕ) :
    capFee fee cap ≤ m ↔ (∃ c ∈ cap, c ≤ m) ∨ fee ≤ m := by
  unfold capFee
  cases cap with
  | none => simp
  | some c =>
    simp only [Option.mem_def, Option.some.injEq, exists_eq_left']
    omega

/-- The fee of an uncached answer is within a bound exactly when the computation is. -/
theorem uncached_fee_le_iff (call : RecommendCall) (m : ℕ) :
    (∀ response, engine.uncached call = .ok response → response.feeInStroops ≤ m) ↔
      engine.WithinBound call m := by
  unfold uncached WithinBound
  rcases engine.readSample call.store call.now with panic | _ | _ | ⟨long, short⟩
  · simp
  · simp [fallbackRecommendation]
  · simp [fallbackRecommendation]
  · simp only [Except.ok.injEq, forall_eq']
    exact capFee_le_iff ..

/-- A run respects the caps exactly when every validated request is served by a request whose
computation stayed within its cap. -/
theorem capsRespected_iff (calls : List RecommendCall) :
    CapsRespected calls (emitted engine.recommend newCache calls) ↔
      List.Forall₂ (fun call source => validateRecommendRequest call.request = .ok () →
        ∀ m ∈ call.request.cap, engine.WithinBound source m) calls (engine.served calls) := by
  have hpair : ∀ call source : RecommendCall,
      (∀ response, engine.uncached source = .ok response →
        validateRecommendRequest call.request = .ok () →
          ∀ m ∈ call.request.cap, response.feeInStroops ≤ m) ↔
      (validateRecommendRequest call.request = .ok () →
        ∀ m ∈ call.request.cap, engine.WithinBound source m) := by
    intro call source
    simp only [← uncached_fee_le_iff]
    exact ⟨fun h hvalid m hm response hok => h response hok hvalid m hm,
      fun h response hok hvalid m hm => h hvalid m hm response hok⟩
  rw [CapsRespected, emitted_recommend, List.forall₂_map_right_iff]
  simp only [hpair]

/-- A request for the defaults, with a cap. -/
def requestWithCap (maxFee : Option String) : RecommendRequest where
  targetLedgers := none
  urgency := none
  maxFee := maxFee

/-- A call without an insights engine, at a time of the monotonic clock. -/
def callAt (fees : List ℕ) (maxFee : Option String) (at' : ℤ) : RecommendCall where
  request := requestWithCap maxFee
  store := {
    data := fees.map fun fee =>
      { feeAmount := fee, timestamp := seconds 1736851500, transactionHash := "tx", ledgerSequence := 100 }
    capacity := 100 }
  insightsEngine := none
  now := seconds 1736851620
  lookupAt := at'
  storeAt := at'

/-- On a cold start a request with the cap 50 is answered with the fee 500. -/
theorem cold_start_ignores_cap :
    let engine : FeeRecommendationEngine := { config := .default }
    ¬ CapsRespected [callAt [] (some "50") 0]
      (emitted engine.recommend newCache [callAt [] (some "50") 0]) := by
  intro engine h
  have houtcome : emitted engine.recommend newCache [callAt [] (some "50") 0] =
      [.ok (fallbackRecommendation 2 .medium)] := by decide +kernel
  rw [houtcome] at h
  have hfee := (List.forall₂_cons.1 h).1 _ rfl (by decide) 50 (by decide)
  exact absurd hfee (by decide)

/-! ## Transparency -/

/-- All requests of a run see the same store, insights and points in the time windows. -/
def Steady (store : FeeHistoryStore) (insightsEngine : Option FeeInsightsEngine)
    (sample : Except Panic FeeSample) (calls : List RecommendCall) : Prop :=
  ∀ call ∈ calls, call.store = store ∧ call.insightsEngine = insightsEngine ∧
    engine.readSample store call.now = sample

end FeeRecommendationEngine

/-- What a response recommends. -/
def RecommendResponse.view (response : RecommendResponse) :
    ℕ × ℚ × ℕ × List FeeAlternative :=
  (response.feeInStroops, response.confidence, response.estimatedWaitLedgers, response.alternatives)

/-- Two caps cut a fee to the same amount: they are equal, or neither is below the fee. -/
def SameCut (fee : ℕ) (cap cap' : Option ℕ) : Prop :=
  cap = cap' ∨ (∀ m ∈ cap, fee ≤ m) ∧ (∀ m ∈ cap', fee ≤ m)

theorem capFee_eq_iff (fee : ℕ) (cap cap' : Option ℕ) :
    capFee fee cap = capFee fee cap' ↔ SameCut fee cap cap' := by
  unfold capFee SameCut
  cases cap <;> cases cap' <;> simp
  omega

namespace FeeRecommendationEngine

variable (engine : FeeRecommendationEngine)

/-- The responses of a run recommend what the engine recommends to each request alone. -/
def Transparent (calls : List RecommendCall) : Prop :=
  (emitted engine.recommend newCache calls).map (Except.map RecommendResponse.view) =
    calls.flatMap fun call =>
      (engine.recommend newCache call).2.map (Except.map RecommendResponse.view)

theorem urgencyToLabel_injective : Function.Injective urgencyToLabel := by
  intro u v h
  cases u <;> cases v <;> first | rfl | exact absurd h (by decide)

/-- The response on a warm sample, as a function of the capped fee. -/
theorem view_warmRecommendation (call : RecommendCall) (long short : List ℕ) :
    (engine.warmRecommendation call long short).view =
      let fee := capFee (engine.adjustedFee call.request.urgencyOrDefault long short)
        call.request.cap
      let sorted := long.insertionSort (· ≤ ·)
      let target := call.request.target engine.config
      (fee, estimateInclusionProbability fee sorted target, estimateWaitLedgers fee sorted target,
        generateAlternatives sorted) := rfl

/-- Two requests with the same key and sample are recommended the same exactly when their caps cut
the fee to the same amount. -/
theorem view_uncached_eq_iff {call source : RecommendCall}
    (hkey : engine.cacheKey source = engine.cacheKey call)
    (hsample : engine.readSample source.store source.now = engine.readSample call.store call.now) :
    (engine.uncached source).map RecommendResponse.view =
        (engine.uncached call).map RecommendResponse.view ↔
      ∀ long short, engine.readSample call.store call.now = .ok (.fees long short) →
        SameCut (engine.adjustedFee call.request.urgencyOrDefault long short) call.request.cap
          source.request.cap := by
  have htarget : source.request.target engine.config = call.request.target engine.config :=
    congrArg Prod.fst hkey
  have hurgency : source.request.urgencyOrDefault = call.request.urgencyOrDefault :=
    urgencyToLabel_injective (congrArg (fun k => k.2.1) hkey)
  unfold uncached
  rw [hsample]
  rcases engine.readSample call.store call.now with panic | _ | _ | ⟨long, short⟩
  · simp
  · simp [htarget, hurgency]
  · simp [htarget, hurgency]
  · simp only [Except.map, Except.ok.injEq, view_warmRecommendation, htarget, hurgency,
      FeeSample.fees.injEq, and_imp, ← capFee_eq_iff]
    constructor
    · rintro h _ _ rfl rfl
      exact (congrArg Prod.fst h).symm
    · intro h
      rw [h long short rfl rfl]

/-- In a steady market a run is transparent exactly when the cap of each request and that of the
request that serves it cut the warm fee to the same amount. -/
theorem transparent_iff (store : FeeHistoryStore) (insightsEngine : Option FeeInsightsEngine)
    (sample : Except Panic FeeSample) (calls : List RecommendCall)
    (hsteady : engine.Steady store insightsEngine sample calls) :
    engine.Transparent calls ↔
      List.Forall₂ (fun call source => ∀ long short,
        engine.readSample call.store call.now = .ok (.fees long short) →
          SameCut (engine.adjustedFee call.request.urgencyOrDefault long short) call.request.cap
            source.request.cap) calls (engine.served calls) := by
  have hsample : ∀ call ∈ calls, engine.readSample call.store call.now = sample := by
    intro call hcall
    obtain ⟨hstore, -, hread⟩ := hsteady call hcall
    rw [hstore, hread]
  have hserved := Memo.forall₂_served engine.policy hsample
  have halone : (calls.flatMap fun call =>
      (engine.recommend newCache call).2.map (Except.map RecommendResponse.view)) =
        calls.map fun call => (engine.uncached call).map RecommendResponse.view := by
    simp only [recommend_newCache_snd, List.map_cons, List.map_nil]
    exact List.map_eq_flatMap.symm
  rw [Transparent, halone, emitted_recommend, List.map_map, eq_comm, ← List.forall₂_eq_eq_eq,
    List.forall₂_map_left_iff, List.forall₂_map_right_iff, List.forall₂_iff_zip,
    List.forall₂_iff_zip]
  refine and_congr_right fun _ => forall₂_congr fun call source => imp_congr_right fun hpair => ?_
  obtain ⟨hkey, hsource⟩ := (List.forall₂_iff_zip.1 hserved).2 hpair
  rw [eq_comm]
  refine engine.view_uncached_eq_iff hkey ?_
  rw [hsource, hsample call (List.of_mem_zip hpair).1]

/-- Ten fees of 300 in the history. -/
def tenFees : List ℕ := List.replicate 10 300

/-- Two requests without a cap are recommended the same as each alone. -/
theorem transparent_without_caps :
    let engine : FeeRecommendationEngine := { config := .default }
    engine.Transparent [callAt tenFees none 0, callAt tenFees none 1] := by
  intro engine
  let calls := [callAt tenFees none 0, callAt tenFees none 1]
  have hnocap : ∀ call ∈ calls, call.request.cap = none := by
    intro call hcall
    simp only [calls, List.mem_cons, List.not_mem_nil, or_false] at hcall
    rcases hcall with rfl | rfl <;> rfl
  refine (engine.transparent_iff (callAt tenFees none 0).store none
    (engine.readSample (callAt tenFees none 0).store (seconds 1736851620)) calls ?_).2 ?_
  · intro call hcall
    simp only [calls, List.mem_cons, List.not_mem_nil, or_false] at hcall
    rcases hcall with rfl | rfl <;> exact ⟨rfl, rfl, rfl⟩
  · rw [List.forall₂_iff_zip]
    have hserved := Memo.forall₂_served engine.policy hnocap
    refine ⟨hserved.length_eq, fun {call source} hpair _ _ _ => Or.inl ?_⟩
    rw [hnocap call (List.of_mem_zip hpair).1, ((List.forall₂_iff_zip.1 hserved).2 hpair).2]

/-- After a request with the cap 150, a request without one is answered with the fee 150. -/
theorem cap_of_another_request :
    let engine : FeeRecommendationEngine := { config := .default }
    ¬ engine.Transparent [callAt tenFees (some "150") 0, callAt tenFees none 1] := by
  unfold Transparent
  decide +kernel

end FeeRecommendationEngine

end StellarFeeTracker
