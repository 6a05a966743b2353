import StellarFeeTracker.Middleware.RateLimit

/-!
# One client's requests do not use up another's

Two limiters look the same to some addresses when the levels of these addresses are the same in both
(`RateLimitState.SameFor`).  A request of one of the addresses gets the same answer from both, and a
request of any other address leaves them looking the same, whatever stale buckets it removes.
-/

namespace StellarFeeTracker

open Machine Net

namespace RateLimitState

variable {capacity : ℕ} {mine : IpAddr → Bool} {state state' : RateLimitState} {t u : ℚ}

/-- Two limiters that are valid at an instant and show the same levels of some addresses from then
on. -/
structure SameFor (capacity : ℕ) (mine : IpAddr → Bool) (state state' : RateLimitState) (t : ℚ) :
    Prop where
  valid : state.Valid capacity t
  valid' : state'.Valid capacity t
  levelAt_eq : ∀ ip u, mine ip = true → t ≤ u → state.levelAt ip u = state'.levelAt ip u

theorem sameFor_new (rateLimitPerMinute : ℕ) (mine : IpAddr → Bool) (t : ℚ) :
    SameFor (max rateLimitPerMinute 1) mine (new rateLimitPerMinute) (new rateLimitPerMinute) t :=
  ⟨valid_new rateLimitPerMinute t, valid_new rateLimitPerMinute t, fun _ _ _ _ => rfl⟩

theorem SameFor.symm (h : SameFor capacity mine state state' t) :
    SameFor capacity mine state' state t :=
  ⟨h.valid', h.valid, fun ip u hmine htu => (h.levelAt_eq ip u hmine htu).symm⟩

theorem SameFor.mono (h : SameFor capacity mine state state' t) (htu : t ≤ u) :
    SameFor capacity mine state state' u :=
  ⟨h.valid.mono htu, h.valid'.mono htu, fun ip v hmine huv =>
    h.levelAt_eq ip v hmine (htu.trans huv)⟩

/-- Stale buckets are removed from one of them only. -/
theorem SameFor.retain (h : SameFor capacity mine state state' t) {now : Instant}
    {keep : IpAddr → TokenBucket → Bool}
    (hkeep : ∀ ip bucket, keep ip bucket = false → isStale now bucket = true)
    (hnow : secs now ≤ t) : SameFor capacity mine (state.retain keep) state' t := by
  refine ⟨h.valid.retain keep, h.valid', fun ip u hmine htu => ?_⟩
  rw [h.valid.levelAt_retain hkeep ip (hnow.trans htu)]
  exact h.levelAt_eq ip u hmine htu

variable {ip : IpAddr} {createdAt now : Instant}

/-- A request of one of the addresses. -/
theorem SameFor.consume (h : SameFor capacity mine state state' (secs now)) (hmine : mine ip = true)
    (hle : createdAt ≤ now) :
    SameFor capacity mine (state.consume ip createdAt now).1 (state'.consume ip createdAt now).1
        (secs now) ∧
      (state.consume ip createdAt now).2 = (state'.consume ip createdAt now).2 := by
  have hlevel := h.levelAt_eq ip (secs now) hmine le_rfl
  constructor
  · refine ⟨h.valid.consume ip hle, h.valid'.consume ip hle, fun ip' u hmine' hu => ?_⟩
    rw [h.valid.levelAt_consume ip hle, h.valid'.levelAt_consume ip hle, hlevel,
      h.levelAt_eq ip' u hmine' hu]
  · apply consume_snd_congr
    · rw [h.valid.capacity_eq, h.valid'.capacity_eq]
    · rw [h.valid.refill_bucketOf ip hle, h.valid'.refill_bucketOf ip hle, hlevel]

/-- A request of another address, to one of them only. -/
theorem SameFor.consume_other (h : SameFor capacity mine state state' (secs now))
    (hmine : mine ip = false) (hle : createdAt ≤ now) :
    SameFor capacity mine (state.consume ip createdAt now).1 state' (secs now) := by
  refine ⟨h.valid.consume ip hle, h.valid', fun ip' u hmine' hu => ?_⟩
  have hne : ip' ≠ ip := by
    rintro rfl
    rw [hmine] at hmine'
    cases hmine'
  rw [h.valid.levelAt_consume ip hle, if_neg hne]
  exact h.levelAt_eq ip' u hmine' hu

/-! ## Requests -/

/-- A request as the limiter meets it. -/
def enforce (state : RateLimitState) (arrival : LimitedRequest) :
    RateLimitState × RateLimitResponse :=
  state.enforceRateLimit arrival.ip arrival.evictedAt arrival.createdAt arrival.now

theorem step_eq_enforce (state : RateLimitState) (arrival : LimitedRequest) :
    state.step (.request arrival) =
      ((state.enforce arrival).1,
        [{ ip := arrival.ip, now := arrival.now, response := (state.enforce arrival).2 }]) := rfl

/-- It takes a token after some stale buckets are gone. -/
theorem enforce_eq (state : RateLimitState) (arrival : LimitedRequest) :
    ∃ keep, (∀ ip bucket, keep ip bucket = false → isStale arrival.now bucket = true) ∧
      state.enforce arrival =
        (state.retain keep).consume arrival.ip arrival.createdAt arrival.now := by
  obtain ⟨keep, hkeep, hstep⟩ := state.step_request arrival
  rw [step_eq_enforce, Prod.mk.injEq, List.cons.injEq, RateLimitAnswer.mk.injEq] at hstep
  exact ⟨keep, hkeep, Prod.ext hstep.1 hstep.2.1.2.2⟩

variable {arrival : LimitedRequest}

theorem SameFor.enforce (h : SameFor capacity mine state state' (secs arrival.now))
    (hmine : mine arrival.ip = true) :
    SameFor capacity mine (state.enforce arrival).1 (state'.enforce arrival).1
        (secs arrival.now) ∧
      (state.enforce arrival).2 = (state'.enforce arrival).2 := by
  obtain ⟨keep, hkeep, heq⟩ := state.enforce_eq arrival
  obtain ⟨keep', hkeep', heq'⟩ := state'.enforce_eq arrival
  have hretained := ((h.retain hkeep le_rfl).symm.retain hkeep' le_rfl).symm
  rw [heq, heq']
  exact hretained.consume hmine arrival.createdAt_le

theorem SameFor.enforce_other (h : SameFor capacity mine state state' (secs arrival.now))
    (hmine : mine arrival.ip = false) :
    SameFor capacity mine (state.enforce arrival).1 state' (secs arrival.now) := by
  obtain ⟨keep, hkeep, heq⟩ := state.enforce_eq arrival
  rw [heq]
  exact (h.retain hkeep le_rfl).consume_other hmine arrival.createdAt_le

theorem SameFor.evict (h : SameFor capacity mine state state' (secs now)) (ips : List IpAddr) :
    SameFor capacity mine (state.step (.evict now ips)).1 (state'.step (.evict now ips)).1
      (secs now) := by
  obtain ⟨keep, hkeep, hstep⟩ := state.step_evict now ips
  obtain ⟨keep', hkeep', hstep'⟩ := state'.step_evict now ips
  rw [hstep, hstep']
  exact ((h.retain hkeep le_rfl).symm.retain hkeep' le_rfl).symm

end RateLimitState

end StellarFeeTracker
