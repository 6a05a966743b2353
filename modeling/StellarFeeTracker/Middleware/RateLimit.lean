import Mathlib.Data.List.AList
import StellarFeeTracker.Chrono
import StellarFeeTracker.General.Net
import StellarFeeTracker.General.Tokens
import StellarFeeTracker.Numeric

/-!
# Rate limiting

Each client address has a token bucket, made full at its first request.  A request takes a token or is
turned away.  When there are many buckets, those that no request has refilled for two minutes are
removed.

`levelAt` is what the bucket of an address holds at an instant, a missing bucket being full.  The
limiter answers by it alone, and two minutes fill every bucket, so removing stale buckets changes no
level and no answer.
-/

namespace StellarFeeTracker

open Machine Net

/-! ## Token buckets -/

/-- An instant of the monotonic clock, in nanoseconds. -/
abbrev Instant := ℤ

/-- Seconds of an instant or of a length of time. -/
def secs (t : ℤ) : ℚ := t / 1000000000

/-- `duration_since`, which saturates at zero, in seconds. -/
def elapsedSecs (now earlier : Instant) : ℚ := secs (max (now - earlier) 0)

structure TokenBucket where
  tokens : ℚ
  lastRefill : Instant
  capacity : ℚ
  refillRate : ℚ
  deriving DecidableEq, Repr

namespace TokenBucket

def new (capacity refillRate : ℚ) (now : Instant) : TokenBucket where
  tokens := capacity
  lastRefill := now
  capacity := capacity
  refillRate := refillRate

variable (bucket : TokenBucket)

def refill (now : Instant) : TokenBucket :=
  if elapsedSecs now bucket.lastRefill ≤ 0 then bucket
  else
    { bucket with
      tokens := min (bucket.tokens + elapsedSecs now bucket.lastRefill * bucket.refillRate)
        bucket.capacity
      lastRefill := now }

def secondsUntilNextToken : ℕ :=
  if 1 ≤ bucket.tokens then 0
  else max (asU64 ⌈(1 - bucket.tokens) / bucket.refillRate⌉) 1

/-- The remaining tokens when there was one to take, the seconds until the next one otherwise. -/
def tryConsume (now : Instant) : TokenBucket × Except ℕ ℕ :=
  let bucket := bucket.refill now
  if 1 ≤ bucket.tokens then
    let bucket := { bucket with tokens := bucket.tokens - 1 }
    (bucket, .ok (asU32 ⌊bucket.tokens⌋))
  else (bucket, .error bucket.secondsUntilNextToken)

end TokenBucket

/-! ## The limiter -/

/-- The buckets are a map whose keys differ. -/
structure RateLimitState where
  buckets : AList fun _ : IpAddr => TokenBucket
  capacity : ℕ
  refillRate : ℚ

/-- The headers of every response. -/
structure RateLimitHeaders where
  limit : ℕ
  remaining : ℕ
  reset : ℕ
  deriving DecidableEq, Repr

/-- What a request gets: the response of the handler, or status 429 with an error text. -/
inductive RateLimitResponse where
  | forwarded (headers : RateLimitHeaders)
  | tooManyRequests (error : String) (headers : RateLimitHeaders) (retryAfter : ℕ)
  deriving DecidableEq, Repr

namespace RateLimitState

def new (rateLimitPerMinute : ℕ) : RateLimitState where
  buckets := ∅
  capacity := max rateLimitPerMinute 1
  refillRate := (max rateLimitPerMinute 1 : ℕ) / 60

variable (state : RateLimitState)

/-- The buckets that satisfy a test. -/
def retain (keep : IpAddr → TokenBucket → Bool) : RateLimitState :=
  { state with
    buckets :=
      { entries := state.buckets.entries.filter fun entry => keep entry.1 entry.2
        nodupKeys := state.buckets.nodupKeys.sublist List.filter_sublist } }

/-- The bucket was refilled before the cutoff, two minutes ago. -/
def isStale (now : Instant) (bucket : TokenBucket) : Bool :=
  bucket.lastRefill < now - seconds 120

def evictStaleBuckets (now : Instant) : RateLimitState :=
  state.retain fun _ bucket => !isStale now bucket

/-- Take a token of the bucket of an address, which is made at `createdAt` if there is none. -/
def consume (ip : IpAddr) (createdAt now : Instant) : RateLimitState × RateLimitResponse :=
  let bucket := (state.buckets.lookup ip).getD (.new state.capacity state.refillRate createdAt)
  match bucket.tryConsume now with
  | (bucket, .ok remaining) =>
    ({ state with buckets := state.buckets.insert ip bucket },
      .forwarded
        { limit := state.capacity, remaining, reset := bucket.secondsUntilNextToken })
  | (bucket, .error retryAfter) =>
    ({ state with buckets := state.buckets.insert ip bucket },
      .tooManyRequests
        ("Rate limit exceeded. Try again in " ++ toString retryAfter ++ " seconds.")
        { limit := state.capacity, remaining := 0, reset := retryAfter } retryAfter)

/-- A request of an address, with the readings of the clock that it makes: for the removal of stale
buckets, for a new bucket and for the refill. -/
def enforceRateLimit (ip : IpAddr) (evictedAt createdAt now : Instant) :
    RateLimitState × RateLimitResponse :=
  let state := if 10000 < state.buckets.keys.length then state.evictStaleBuckets evictedAt else state
  state.consume ip createdAt now

end RateLimitState

/-! ## Runs -/

/-- A request with its readings of the clock, which does not go backwards. -/
structure LimitedRequest where
  ip : IpAddr
  evictedAt : Instant
  createdAt : Instant
  now : Instant
  evictedAt_le : evictedAt ≤ createdAt
  createdAt_le : createdAt ≤ now

/-- A request, or the removal of those buckets of some addresses that are stale. -/
inductive RateLimitEvent where
  | request (request : LimitedRequest)
  | evict (now : Instant) (ips : List IpAddr)

def RateLimitEvent.now : RateLimitEvent → Instant
  | .request arrival => arrival.now
  | .evict now _ => now

/-- The answer to a request of an address at an instant. -/
structure RateLimitAnswer where
  ip : IpAddr
  now : Instant
  response : RateLimitResponse
  deriving DecidableEq, Repr

def RateLimitResponse.isForwarded : RateLimitResponse → Bool
  | .forwarded _ => true
  | .tooManyRequests _ _ _ => false

namespace RateLimitState

variable (state : RateLimitState)

def step (state : RateLimitState) : RateLimitEvent → RateLimitState × List RateLimitAnswer
  | .request { ip, evictedAt, createdAt, now, .. } =>
    ((state.enforceRateLimit ip evictedAt createdAt now).1,
      [{ ip, now, response := (state.enforceRateLimit ip evictedAt createdAt now).2 }])
  | .evict now ips => (state.retain fun ip bucket => !(ips.contains ip && isStale now bucket), [])

/-- A limiter that never removes a bucket. -/
def stepKeeping (state : RateLimitState) : RateLimitEvent → RateLimitState × List RateLimitAnswer
  | .request { ip, createdAt, now, .. } =>
    ((state.consume ip createdAt now).1,
      [{ ip, now, response := (state.consume ip createdAt now).2 }])
  | .evict _ _ => (state, [])

/-! ## Levels -/

/-- What the bucket of an address holds at an instant, in seconds.  A missing bucket is full. -/
def levelAt (ip : IpAddr) (t : ℚ) : ℚ :=
  match state.buckets.lookup ip with
  | some bucket =>
    Tokens.refilled bucket.capacity bucket.refillRate bucket.tokens (t - secs bucket.lastRefill)
  | none => state.capacity

end RateLimitState

/-- A bucket of a limiter at an instant, in seconds. -/
structure TokenBucket.Valid (capacity : ℕ) (bucket : TokenBucket) (t : ℚ) : Prop where
  capacity_eq : bucket.capacity = capacity
  refillRate_eq : bucket.refillRate = capacity / 60
  nonneg : 0 ≤ bucket.tokens
  le_capacity : bucket.tokens ≤ capacity
  lastRefill_le : secs bucket.lastRefill ≤ t

/-- A limiter at an instant, in seconds. -/
structure RateLimitState.Valid (capacity : ℕ) (state : RateLimitState) (t : ℚ) : Prop where
  capacity_eq : state.capacity = capacity
  refillRate_eq : state.refillRate = capacity / 60
  buckets : ∀ ip bucket, state.buckets.lookup ip = some bucket → bucket.Valid capacity t

theorem secs_le_secs {s t : ℤ} : secs s ≤ secs t ↔ s ≤ t := by
  unfold secs
  rw [div_le_div_iff_of_pos_right (by norm_num), Int.cast_le]

theorem secs_sub (s t : ℤ) : secs (s - t) = secs s - secs t := by
  unfold secs
  rw [Int.cast_sub, sub_div]

theorem elapsedSecs_eq {now earlier : Instant} (h : earlier ≤ now) :
    elapsedSecs now earlier = secs now - secs earlier := by
  rw [elapsedSecs, max_eq_left (sub_nonneg.2 h), secs_sub]

namespace TokenBucket

variable {capacity : ℕ} {bucket : TokenBucket} {now : Instant} {t : ℚ}

theorem Valid.mono (h : bucket.Valid capacity t) {t' : ℚ} (hle : t ≤ t') :
    bucket.Valid capacity t' :=
  ⟨h.capacity_eq, h.refillRate_eq, h.nonneg, h.le_capacity, h.lastRefill_le.trans hle⟩

theorem valid_new {createdAt : Instant} (h : secs createdAt ≤ t) :
    (new capacity (capacity / 60) createdAt).Valid capacity t :=
  ⟨rfl, rfl, Nat.cast_nonneg _, le_rfl, h⟩

/-- A refill brings a bucket to its level, and to the instant. -/
theorem Valid.refill_eq (h : bucket.Valid capacity (secs now)) :
    bucket.refill now =
      { tokens := Tokens.refilled capacity (capacity / 60) bucket.tokens
          (secs now - secs bucket.lastRefill)
        lastRefill := now
        capacity := capacity
        refillRate := capacity / 60 } := by
  obtain ⟨hcapacity, hrate, -, hle, hlast⟩ := h
  have helapsed := elapsedSecs_eq (secs_le_secs.1 hlast)
  obtain ⟨tokens, lastRefill, _, _⟩ := bucket
  dsimp only at hcapacity hrate hle hlast helapsed
  subst hcapacity hrate
  unfold refill
  split
  · next hnone =>
    -- no time has passed, and the bucket stays as it is
    have heq : now = lastRefill := by
      refine le_antisymm (secs_le_secs.1 ?_) (secs_le_secs.1 hlast)
      rw [helapsed] at hnone
      exact sub_nonpos.1 hnone
    rw [heq, sub_self, Tokens.refilled_zero hle]
  · rw [helapsed]
    rfl

theorem Valid.refill (h : bucket.Valid capacity (secs now)) :
    (bucket.refill now).Valid capacity (secs now) := by
  rw [h.refill_eq]
  refine ⟨rfl, rfl, ?_, Tokens.refilled_le_capacity, le_rfl⟩
  exact Tokens.refilled_nonneg (Nat.cast_nonneg _) (by positivity) h.nonneg
    (sub_nonneg.2 h.lastRefill_le)

/-- What is left after a request: a token less if there was one. -/
theorem tokens_tryConsume :
    (bucket.tryConsume now).1 =
      { bucket.refill now with
        tokens := (bucket.refill now).tokens -
          if 1 ≤ (bucket.refill now).tokens then 1 else 0 } := by
  unfold tryConsume
  dsimp only
  split
  · rfl
  · rw [sub_zero]

theorem Valid.tryConsume (h : bucket.Valid capacity (secs now)) :
    (bucket.tryConsume now).1.Valid capacity (secs now) := by
  have hrefill := h.refill
  rw [tokens_tryConsume]
  refine ⟨hrefill.capacity_eq, hrefill.refillRate_eq, ?_, ?_, hrefill.lastRefill_le⟩
  · dsimp only
    split
    · linarith
    · simpa using hrefill.nonneg
  · refine le_trans (sub_le_self _ ?_) hrefill.le_capacity
    split <;> norm_num

end TokenBucket

namespace RateLimitState

variable {capacity : ℕ} {state : RateLimitState} {t u : ℚ} {ip : IpAddr}
  {createdAt now : Instant}

theorem valid_new (rateLimitPerMinute : ℕ) (t : ℚ) :
    (new rateLimitPerMinute).Valid (max rateLimitPerMinute 1) t :=
  ⟨rfl, rfl, fun ip bucket h => by simp [new] at h⟩

/-- The level at an instant comes from the level at an earlier one by a refill. -/
theorem Valid.levelAt_eq (h : state.Valid capacity t) (ip : IpAddr) {v : ℚ} (huv : u ≤ v) :
    state.levelAt ip v =
      Tokens.refilled (capacity : ℚ) (capacity / 60) (state.levelAt ip u) (v - u) := by
  have hrate : (0 : ℚ) ≤ capacity / 60 := by positivity
  unfold levelAt
  cases hlookup : state.buckets.lookup ip with
  | none =>
    rw [h.capacity_eq]
    exact (Tokens.refilled_of_full hrate (sub_nonneg.2 huv)).symm
  | some bucket =>
    have hbucket := h.buckets ip bucket hlookup
    dsimp only
    rw [hbucket.capacity_eq, hbucket.refillRate_eq,
      Tokens.refilled_refilled hrate (sub_nonneg.2 huv)]
    congr 1
    ring

theorem Valid.levelAt_nonneg (h : state.Valid capacity t) (ip : IpAddr) (htu : t ≤ u) :
    0 ≤ state.levelAt ip u := by
  unfold levelAt
  cases hlookup : state.buckets.lookup ip with
  | none => exact Nat.cast_nonneg _
  | some bucket =>
    have hbucket := h.buckets ip bucket hlookup
    dsimp only
    rw [hbucket.capacity_eq, hbucket.refillRate_eq]
    exact Tokens.refilled_nonneg (Nat.cast_nonneg _) (by positivity) hbucket.nonneg
      (sub_nonneg.2 (hbucket.lastRefill_le.trans htu))

/-! ### Removing buckets -/

theorem lookup_retain (state : RateLimitState) (keep : IpAddr → TokenBucket → Bool) (ip : IpAddr) :
    (state.retain keep).buckets.lookup ip = (state.buckets.lookup ip).filter (keep ip) := by
  refine Option.ext fun bucket => ?_
  rw [← Option.mem_def, ← Option.mem_def, AList.mem_lookup_iff, Option.mem_filter_iff,
    AList.mem_lookup_iff]
  exact List.mem_filter

theorem Valid.retain (h : state.Valid capacity t) (keep : IpAddr → TokenBucket → Bool) :
    (state.retain keep).Valid capacity t := by
  refine ⟨h.capacity_eq, h.refillRate_eq, fun ip bucket hlookup => h.buckets ip bucket ?_⟩
  rw [lookup_retain] at hlookup
  exact (Option.mem_filter_iff.1 hlookup).1

theorem Valid.mono (h : state.Valid capacity t) (htu : t ≤ u) : state.Valid capacity u :=
  ⟨h.capacity_eq, h.refillRate_eq, fun ip bucket hlookup =>
    (h.buckets ip bucket hlookup).mono htu⟩

/-- Removing stale buckets changes no level: two minutes fill every bucket. -/
theorem Valid.levelAt_retain (h : state.Valid capacity t) {keep : IpAddr → TokenBucket → Bool}
    (hkeep : ∀ ip bucket, keep ip bucket = false → isStale now bucket = true)
    (ip : IpAddr) (hu : secs now ≤ u) : (state.retain keep).levelAt ip u = state.levelAt ip u := by
  unfold levelAt
  rw [lookup_retain]
  cases hlookup : state.buckets.lookup ip with
  | none => rfl
  | some bucket =>
    rw [Option.filter_some]
    cases hkept : keep ip bucket with
    | true => rfl
    | false =>
      have hbucket := h.buckets ip bucket hlookup
      have hstale : bucket.lastRefill < now - seconds 120 := by
        simpa [isStale] using hkeep ip bucket hkept
      have hsecs : secs bucket.lastRefill ≤ secs now - 120 := by
        have := secs_le_secs.2 hstale.le
        rw [secs_sub] at this
        exact this.trans_eq (by norm_num [secs, seconds, nanosPerSecond])
      have hfull : (capacity : ℚ) ≤ (u - secs bucket.lastRefill) * (capacity / 60) := by
        have h120 : (120 : ℚ) ≤ u - secs bucket.lastRefill := by linarith
        have hmul := mul_le_mul_of_nonneg_right h120 (show (0 : ℚ) ≤ capacity / 60 by positivity)
        have hpos : (0 : ℚ) ≤ capacity := Nat.cast_nonneg _
        linarith
      simp only [Bool.false_eq_true, if_false]
      rw [hbucket.capacity_eq, hbucket.refillRate_eq,
        Tokens.refilled_eq_capacity hbucket.nonneg hfull]
      exact congrArg _ h.capacity_eq

/-! ### Taking a token -/

/-- The bucket that a request of an address takes a token of. -/
def bucketOf (state : RateLimitState) (ip : IpAddr) (createdAt : Instant) : TokenBucket :=
  (state.buckets.lookup ip).getD (.new state.capacity state.refillRate createdAt)

theorem consume_fst (state : RateLimitState) (ip : IpAddr) (createdAt now : Instant) :
    (state.consume ip createdAt now).1 =
      { state with
        buckets := state.buckets.insert ip ((state.bucketOf ip createdAt).tryConsume now).1 } := by
  unfold consume bucketOf
  dsimp only
  split <;> next heq => rw [heq]

/-- The response is a matter of the bucket once it is refilled. -/
theorem consume_snd_congr {state' : RateLimitState} {createdAt' : Instant}
    (hcapacity : state.capacity = state'.capacity)
    (hrefill : (state.bucketOf ip createdAt).refill now = (state'.bucketOf ip createdAt').refill now) :
    (state.consume ip createdAt now).2 = (state'.consume ip createdAt' now).2 := by
  have htake : (state.bucketOf ip createdAt).tryConsume now =
      (state'.bucketOf ip createdAt').tryConsume now := by
    unfold TokenBucket.tryConsume
    rw [hrefill]
  unfold bucketOf at htake
  unfold consume
  dsimp only
  rw [htake, hcapacity]
  split <;> rfl

theorem isForwarded_consume (state : RateLimitState) (ip : IpAddr) (createdAt now : Instant) :
    (state.consume ip createdAt now).2.isForwarded =
      decide (1 ≤ ((state.bucketOf ip createdAt).refill now).tokens) := by
  unfold consume bucketOf TokenBucket.tryConsume
  dsimp only
  split_ifs with h
  · simp [RateLimitResponse.isForwarded, h]
  · simp [RateLimitResponse.isForwarded, h]

theorem Valid.bucketOf (h : state.Valid capacity (secs now)) (ip : IpAddr)
    (hle : createdAt ≤ now) : (state.bucketOf ip createdAt).Valid capacity (secs now) := by
  unfold RateLimitState.bucketOf
  cases hlookup : state.buckets.lookup ip with
  | none =>
    rw [Option.getD_none, h.capacity_eq, h.refillRate_eq]
    exact TokenBucket.valid_new (secs_le_secs.2 hle)
  | some bucket => exact h.buckets ip bucket hlookup

/-- Refilled, it holds what the level of the address is. -/
theorem Valid.refill_bucketOf (h : state.Valid capacity (secs now)) (ip : IpAddr)
    (hle : createdAt ≤ now) :
    (state.bucketOf ip createdAt).refill now =
      { tokens := state.levelAt ip (secs now)
        lastRefill := now
        capacity := capacity
        refillRate := capacity / 60 } := by
  have hbucket := h.bucketOf ip hle
  rw [hbucket.refill_eq]
  congr 1
  unfold levelAt RateLimitState.bucketOf
  cases hlookup : state.buckets.lookup ip with
  | none =>
    rw [Option.getD_none, h.capacity_eq]
    exact Tokens.refilled_of_full (by positivity) (sub_nonneg.2 (secs_le_secs.2 hle))
  | some bucket =>
    have := h.buckets ip bucket hlookup
    simp only [Option.getD_some]
    rw [this.capacity_eq, this.refillRate_eq]

theorem Valid.consume (h : state.Valid capacity (secs now)) (ip : IpAddr)
    (hle : createdAt ≤ now) : (state.consume ip createdAt now).1.Valid capacity (secs now) := by
  rw [consume_fst]
  refine ⟨h.capacity_eq, h.refillRate_eq, fun ip' bucket hlookup => ?_⟩
  by_cases hip : ip' = ip
  · subst hip
    rw [AList.lookup_insert] at hlookup
    cases hlookup
    exact (h.bucketOf ip' hle).tryConsume
  · rw [AList.lookup_insert_ne hip] at hlookup
    exact h.buckets ip' bucket hlookup

/-- After a request, the level of its address comes from what is left of the token bucket, and that of
the others is as it was. -/
theorem Valid.levelAt_consume (h : state.Valid capacity (secs now)) (ip : IpAddr)
    (hle : createdAt ≤ now) (ip' : IpAddr) (u : ℚ) :
    (state.consume ip createdAt now).1.levelAt ip' u =
      if ip' = ip then
        Tokens.refilled (capacity : ℚ) (capacity / 60)
          (state.levelAt ip (secs now) - if 1 ≤ state.levelAt ip (secs now) then 1 else 0)
          (u - secs now)
      else state.levelAt ip' u := by
  rw [consume_fst, levelAt]
  by_cases hip : ip' = ip
  · subst hip
    rw [AList.lookup_insert, if_pos rfl, TokenBucket.tokens_tryConsume, h.refill_bucketOf ip' hle]
  · rw [AList.lookup_insert_ne hip, if_neg hip, levelAt]

/-! ### A step -/

theorem isStale_mono {earlier : Instant} {bucket : TokenBucket} (h : earlier ≤ now)
    (hstale : isStale earlier bucket = true) : isStale now bucket = true := by
  simp only [isStale, decide_eq_true_eq] at hstale ⊢
  exact hstale.trans_le (Int.sub_le_sub_right h _)

/-- A request finds the buckets of the limiter but for some stale ones, and takes a token. -/
theorem step_request (state : RateLimitState) (arrival : LimitedRequest) :
    ∃ keep, (∀ ip bucket, keep ip bucket = false → isStale arrival.now bucket = true) ∧
      state.step (.request arrival) =
        (((state.retain keep).consume arrival.ip arrival.createdAt arrival.now).1,
          [{ ip := arrival.ip
             now := arrival.now
             response :=
              ((state.retain keep).consume arrival.ip arrival.createdAt arrival.now).2 }]) := by
  have hle : arrival.evictedAt ≤ arrival.now := arrival.evictedAt_le.trans arrival.createdAt_le
  dsimp only [step, enforceRateLimit]
  split
  · refine ⟨fun _ bucket => !isStale arrival.evictedAt bucket, fun _ bucket h => ?_, rfl⟩
    exact isStale_mono hle (by simpa using h)
  · refine ⟨fun _ _ => true, fun _ _ h => by simp at h, ?_⟩
    have hall : state.retain (fun _ _ => true) = state := by simp [retain]
    rw [hall]

/-- The removal of buckets of some addresses removes stale ones only. -/
theorem step_evict (state : RateLimitState) (now : Instant) (ips : List IpAddr) :
    ∃ keep, (∀ ip bucket, keep ip bucket = false → isStale now bucket = true) ∧
      state.step (.evict now ips) = (state.retain keep, []) := by
  refine ⟨_, fun ip bucket h => ?_, rfl⟩
  rw [Bool.not_eq_false', Bool.and_eq_true] at h
  exact h.2

/-- Two limiters that are valid at an instant and show the same levels from then on. -/
structure Same (capacity : ℕ) (state state' : RateLimitState) (t : ℚ) : Prop where
  valid : state.Valid capacity t
  valid' : state'.Valid capacity t
  levelAt_eq : ∀ ip u, t ≤ u → state.levelAt ip u = state'.levelAt ip u

section Same

variable {state' : RateLimitState}

theorem Same.mono (h : Same capacity state state' t) (htu : t ≤ u) : Same capacity state state' u :=
  ⟨h.valid.mono htu, h.valid'.mono htu, fun ip v huv => h.levelAt_eq ip v (htu.trans huv)⟩

theorem Same.retain (h : Same capacity state state' t) {keep : IpAddr → TokenBucket → Bool}
    (hkeep : ∀ ip bucket, keep ip bucket = false → isStale now bucket = true)
    (hnow : secs now ≤ t) : Same capacity (state.retain keep) state' t :=
  ⟨h.valid.retain keep, h.valid', fun ip u htu =>
    (h.valid.levelAt_retain hkeep ip (hnow.trans htu)).trans (h.levelAt_eq ip u htu)⟩

theorem Same.consume (h : Same capacity state state' (secs now)) (ip : IpAddr)
    (hle : createdAt ≤ now) :
    (state.consume ip createdAt now).2 = (state'.consume ip createdAt now).2 ∧
      Same capacity (state.consume ip createdAt now).1 (state'.consume ip createdAt now).1
        (secs now) := by
  have hlevel := h.levelAt_eq ip (secs now) le_rfl
  refine ⟨consume_snd_congr ?_ ?_, h.valid.consume ip hle, h.valid'.consume ip hle, ?_⟩
  · rw [h.valid.capacity_eq, h.valid'.capacity_eq]
  · rw [h.valid.refill_bucketOf ip hle, h.valid'.refill_bucketOf ip hle, hlevel]
  · intro ip' u hu
    rw [h.valid.levelAt_consume ip hle, h.valid'.levelAt_consume ip hle, hlevel,
      h.levelAt_eq ip' u hu]

theorem Same.step (h : Same capacity state state' t) (event : RateLimitEvent)
    (ht : t ≤ secs event.now) :
    (state.step event).2 = (state'.stepKeeping event).2 ∧
      Same capacity (state.step event).1 (state'.stepKeeping event).1 (secs event.now) := by
  cases event with
  | evict now ips =>
    obtain ⟨keep, hkeep, hstep⟩ := state.step_evict now ips
    rw [hstep]
    exact ⟨rfl, (h.mono ht).retain hkeep le_rfl⟩
  | request arrival =>
    obtain ⟨keep, hkeep, hstep⟩ := state.step_request arrival
    have hretain : Same capacity (state.retain keep) state' (secs arrival.now) :=
      (h.mono ht).retain hkeep le_rfl
    obtain ⟨hresponse, hsame⟩ := hretain.consume arrival.ip arrival.createdAt_le
    rw [hstep, hresponse]
    exact ⟨rfl, hsame⟩

/-- From states with the same levels, the limiter and one that never removes a bucket answer alike. -/
theorem Same.outputs_eq (h : Same capacity state state' t) {events : List RateLimitEvent}
    (ht : ∀ event ∈ events, t ≤ secs event.now)
    (hsorted : (events.map RateLimitEvent.now).Pairwise (· ≤ ·)) :
    outputs RateLimitState.step state events = outputs stepKeeping state' events := by
  induction events generalizing state state' t with
  | nil => rfl
  | cons event events ih =>
    obtain ⟨hevent, hrest⟩ := List.pairwise_cons.1 hsorted
    obtain ⟨hanswer, hsame⟩ := h.step event (ht event List.mem_cons_self)
    rw [outputs_cons, outputs_cons, hanswer, ih hsame (fun later hlater => ?_) hrest]
    exact secs_le_secs.2 (hevent _ (List.mem_map_of_mem hlater))

end Same

/-- The answer lets a request of an address pass. -/
def admits (ip : IpAddr) (answer : RateLimitAnswer) : Bool :=
  answer.ip = ip && answer.response.isForwarded

/-- A request that passes takes one from the level of its address. -/
theorem Valid.pays_consume (h : state.Valid capacity (secs now)) (ip ip' : IpAddr)
    (hle : createdAt ≤ now) :
    (state.consume ip' createdAt now).1.levelAt ip (secs now) +
        ([{ ip := ip', now, response := (state.consume ip' createdAt now).2 }].countP
          (admits ip) : ℕ) ≤
      state.levelAt ip (secs now) := by
  have hforwarded := isForwarded_consume state ip' createdAt now
  rw [h.refill_bucketOf ip' hle] at hforwarded
  rw [h.levelAt_consume ip' hle, List.countP_singleton, admits, hforwarded]
  by_cases hip : ip = ip'
  · subst hip
    rw [if_pos rfl, sub_self]
    refine le_trans (add_le_add_left Tokens.refilled_zero_le _) ?_
    by_cases hlevel : 1 ≤ state.levelAt ip (secs now) <;> simp [hlevel]
  · rw [if_neg hip]
    simp [Ne.symm hip]

theorem Valid.levelAt_consume_le (h : state.Valid capacity (secs now)) (ip : IpAddr)
    (hle : createdAt ≤ now) (ip' : IpAddr) (hu : secs now ≤ u) :
    (state.consume ip createdAt now).1.levelAt ip' u ≤ state.levelAt ip' u := by
  rw [h.levelAt_consume ip hle]
  by_cases hip : ip' = ip
  · subst hip
    rw [if_pos rfl, h.levelAt_eq ip' hu]
    refine Tokens.refilled_le_refilled (sub_le_self _ ?_)
    split <;> norm_num
  · rw [if_neg hip]

/-- The level of an address pays for the requests of that address that pass. -/
theorem budget (capacity : ℕ) (ip : IpAddr) :
    Tokens.Budget step (fun event => secs event.now) (fun answer => secs answer.now) (admits ip)
      (capacity / 60 : ℚ) (fun state t => state.Valid capacity t) (fun state => state.levelAt ip)
    where
  valid_step state t event h ht := by
    cases event with
    | evict now ips =>
      obtain ⟨keep, -, hstep⟩ := state.step_evict now ips
      rw [hstep]
      exact (h.mono ht).retain keep
    | request arrival =>
      obtain ⟨keep, -, hstep⟩ := state.step_request arrival
      rw [hstep]
      exact ((h.mono ht).retain keep).consume arrival.ip arrival.createdAt_le
  stamp_eq state event answer hanswer := by
    cases event with
    | evict now ips => cases hanswer
    | request arrival => rw [List.mem_singleton.1 hanswer]; rfl
  nonneg state t u h htu := h.levelAt_nonneg ip htu
  grows state t u v h _ huv := by
    rw [h.levelAt_eq ip huv]
    exact min_le_left _ _
  pays state t event h ht := by
    cases event with
    | evict now ips =>
      obtain ⟨keep, hkeep, hstep⟩ := state.step_evict now ips
      rw [hstep, List.countP_nil, Nat.cast_zero, add_zero]
      exact (h.levelAt_retain hkeep ip le_rfl).le
    | request arrival =>
      obtain ⟨keep, hkeep, hstep⟩ := state.step_request arrival
      have hpays := ((h.mono ht).retain keep).pays_consume ip arrival.ip arrival.createdAt_le
      rw [hstep]
      exact hpays.trans_eq (h.levelAt_retain hkeep ip le_rfl)
  falls state t event v h ht hv := by
    cases event with
    | evict now ips =>
      obtain ⟨keep, hkeep, hstep⟩ := state.step_evict now ips
      rw [hstep]
      exact (h.levelAt_retain hkeep ip hv).le
    | request arrival =>
      obtain ⟨keep, hkeep, hstep⟩ := state.step_request arrival
      rw [hstep, ← h.levelAt_retain hkeep ip hv]
      exact ((h.mono ht).retain keep).levelAt_consume_le arrival.ip arrival.createdAt_le ip hv

theorem exists_le_now (events : List RateLimitEvent) (s : Instant) :
    ∃ c ≤ s, ∀ event ∈ events, c ≤ event.now := by
  induction events with
  | nil => exact ⟨s, le_rfl, by simp⟩
  | cons event events ih =>
    obtain ⟨c, hcs, hc⟩ := ih
    refine ⟨min c event.now, (min_le_left _ _).trans hcs, fun event' hevent' => ?_⟩
    rcases List.mem_cons.1 hevent' with rfl | hevent'
    · exact min_le_right _ _
    · exact (min_le_left _ _).trans (hc event' hevent')

theorem levelAt_new (rateLimitPerMinute : ℕ) (ip : IpAddr) (t : ℚ) :
    (new rateLimitPerMinute).levelAt ip t = (max rateLimitPerMinute 1 : ℕ) := by
  simp [levelAt, new]

/-- The limiter answers as one that never removes a bucket, whatever stale buckets are removed and
when; the requests of an address that pass in an interval are no more than the capacity and what the
rate adds in its length; and the tokens of a bucket stay between zero and the capacity. -/
theorem eviction_unobservable_and_bounded (rateLimitPerMinute : ℕ) (events : List RateLimitEvent)
    (hsorted : (events.map RateLimitEvent.now).Pairwise (· ≤ ·)) :
    outputs step (new rateLimitPerMinute) events =
      outputs stepKeeping (new rateLimitPerMinute) events ∧
    (∀ ip (s t : Instant), s ≤ t →
      ((emitted step (new rateLimitPerMinute) events).countP fun answer =>
        admits ip answer && decide (s ≤ answer.now ∧ answer.now ≤ t) : ℚ) ≤
        (max rateLimitPerMinute 1 : ℕ) +
          secs (t - s) * ((max rateLimitPerMinute 1 : ℕ) / 60)) ∧
    (∀ k ip bucket,
      (final step (new rateLimitPerMinute) (events.take k)).buckets.lookup ip = some bucket →
      0 ≤ bucket.tokens ∧ bucket.tokens ≤ (max rateLimitPerMinute 1 : ℕ)) := by
  have hvalid := valid_new rateLimitPerMinute
  have hsecs : (events.map fun event => secs event.now).Pairwise (· ≤ ·) := by
    rw [List.pairwise_map] at hsorted ⊢
    exact hsorted.imp secs_le_secs.2
  refine ⟨?_, fun ip s t hst => ?_, fun k ip bucket hlookup => ?_⟩
  · obtain ⟨c, -, hc⟩ := exists_le_now events 0
    have hsame : Same (max rateLimitPerMinute 1) (new rateLimitPerMinute) (new rateLimitPerMinute)
        (secs c) := ⟨hvalid _, hvalid _, fun _ _ _ => rfl⟩
    exact hsame.outputs_eq (fun event hevent => secs_le_secs.2 (hc event hevent)) hsorted
  · obtain ⟨c, hcs, hc⟩ := exists_le_now events s
    have hmax : max (secs c) (secs s) = secs s := max_eq_right (secs_le_secs.2 hcs)
    have hspent := (budget (max rateLimitPerMinute 1) ip).countP_emitted_le (by positivity)
      (u := secs s) (v := secs t) (hvalid (secs c))
      (fun event hevent => secs_le_secs.2 (hc event hevent)) hsecs
      (hmax.trans_le (secs_le_secs.2 hst))
    rw [hmax, levelAt_new, ← secs_sub] at hspent
    refine le_trans (Nat.cast_le.2 (List.countP_mono_left fun answer _ h => ?_)) hspent
    simpa [Tokens.countedIn, secs_le_secs] using h
  · obtain ⟨c, -, hc⟩ := exists_le_now events 0
    have hsublist := List.take_sublist k events
    have htake : ((events.take k).map fun event => secs event.now).Pairwise (· ≤ ·) :=
      hsecs.sublist (hsublist.map _)
    obtain ⟨c', hfinal⟩ := (budget (max rateLimitPerMinute 1) ip).valid_final (hvalid (secs c))
      (fun event hevent => secs_le_secs.2 (hc event (hsublist.subset hevent))) htake
    have hbucket := hfinal.buckets ip bucket hlookup
    exact ⟨hbucket.nonneg, hbucket.le_capacity⟩

/-- With one request a minute: the second request is turned away, and the bucket is removed before the
third. -/
theorem eviction_unobservable_one_client :
    let ip : IpAddr := .v4 ⟨203, 0, 113, 7⟩
    let events : List RateLimitEvent :=
      [.request ⟨ip, 0, 0, 0, Int.le_refl _, Int.le_refl _⟩,
        .request ⟨ip, seconds 1, seconds 1, seconds 1, Int.le_refl _, Int.le_refl _⟩,
        .evict (seconds 130) [ip],
        .request ⟨ip, seconds 130, seconds 130, seconds 131, Int.le_refl _, by decide⟩]
    outputs step (new 1) events = outputs stepKeeping (new 1) events :=
  (eviction_unobservable_and_bounded 1 _ (by decide)).1

end RateLimitState

end StellarFeeTracker
