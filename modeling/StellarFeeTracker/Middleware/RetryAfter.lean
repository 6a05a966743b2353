import StellarFeeTracker.Middleware.RateLimit

/-!
# The wait that a rejected request is told

A rejected call of `try_consume` returns the whole seconds until the bucket holds a token again.  As
long as nothing is consumed, the level of the bucket at an instant does not depend on the calls that
are rejected before it (`Waits.level_eq`), so the wait is exact (`retryAfter_exact`).
-/

namespace StellarFeeTracker

/-- An instant that the monotonic clock can show: its seconds are an `i64`, and count up from zero. -/
def IsInstant (t : Instant) : Prop := 0 ≤ t ∧ t ≤ seconds i64Max + 999999999

instance (t : Instant) : Decidable (IsInstant t) := inferInstanceAs (Decidable (_ ∧ _))

namespace TokenBucket

/-- A bucket after some calls at nondecreasing times, the last of which is given. -/
inductive Reachable (capacity refillRate : ℚ) : TokenBucket → Instant → Prop
  | new (createdAt : Instant) : Reachable capacity refillRate (.new capacity refillRate createdAt)
      createdAt
  | call {bucket : TokenBucket} {last now : Instant} (h : Reachable capacity refillRate bucket last)
      (hle : last ≤ now) : Reachable capacity refillRate (bucket.tryConsume now).1 now

/-- A bucket after some rejected calls from a time on. -/
inductive Waits (bucket : TokenBucket) (t : Instant) : TokenBucket → Instant → Prop
  | refl : Waits bucket t bucket t
  | rejected {bucket' : TokenBucket} {last now : Instant} {r : ℕ} (h : Waits bucket t bucket' last)
      (hle : last ≤ now) (hrejected : (bucket'.tryConsume now).2 = .error r) :
      Waits bucket t (bucket'.tryConsume now).1 now

/-- What holds of a bucket that was last called at the given time. -/
structure Kept (capacity refillRate : ℚ) (bucket : TokenBucket) (last : Instant) : Prop where
  capacity_eq : bucket.capacity = capacity
  refillRate_eq : bucket.refillRate = refillRate
  le_capacity : bucket.tokens ≤ capacity
  lastRefill_le : bucket.lastRefill ≤ last

/-- The tokens of the bucket once it is refilled at the given time. -/
def level (bucket : TokenBucket) (t : Instant) : ℚ :=
  Tokens.refilled bucket.capacity bucket.refillRate bucket.tokens (secs t - secs bucket.lastRefill)

variable {capacity refillRate : ℚ} {bucket : TokenBucket} {last now : Instant}

theorem Kept.refill_eq (h : bucket.Kept capacity refillRate last) (hle : last ≤ now) :
    bucket.refill now =
      { tokens := bucket.level now
        lastRefill := now
        capacity := capacity
        refillRate := refillRate } := by
  obtain ⟨hcapacity, hrate, htokens, hlast⟩ := h
  have helapsed := elapsedSecs_eq (hlast.trans hle)
  obtain ⟨tokens, lastRefill, _, _⟩ := bucket
  dsimp only at hcapacity hrate htokens hlast helapsed
  subst hcapacity hrate
  unfold refill level
  split
  · next hnone =>
    -- no time has passed, and the bucket stays as it is
    have heq : now = lastRefill := by
      refine le_antisymm (secs_le_secs.1 ?_) (hlast.trans hle)
      rw [helapsed] at hnone
      exact sub_nonpos.1 hnone
    rw [heq, sub_self, Tokens.refilled_zero htokens]
  · rw [helapsed]
    rfl

/-- A call succeeds when the level is a token or more. -/
theorem Kept.tryConsume_isOk_iff (h : bucket.Kept capacity refillRate last) (hle : last ≤ now) :
    (∃ remaining, (bucket.tryConsume now).2 = .ok remaining) ↔ 1 ≤ bucket.level now := by
  unfold tryConsume
  rw [h.refill_eq hle]
  dsimp only
  split_ifs with htoken
  · exact iff_of_true ⟨_, rfl⟩ htoken
  · exact iff_of_false (fun ⟨_, hok⟩ => by cases hok) htoken

theorem Kept.tryConsume (h : bucket.Kept capacity refillRate last) (hle : last ≤ now) :
    (bucket.tryConsume now).1.Kept capacity refillRate now := by
  have hcapacity : bucket.level now ≤ capacity := h.capacity_eq ▸ Tokens.refilled_le_capacity
  rw [tokens_tryConsume, h.refill_eq hle]
  refine ⟨rfl, rfl, (sub_le_self _ ?_).trans hcapacity, le_refl _⟩
  split_ifs <;> norm_num

theorem Reachable.kept (h : Reachable capacity refillRate bucket last) :
    bucket.Kept capacity refillRate last := by
  induction h with
  | new createdAt => exact ⟨rfl, rfl, le_refl _, le_refl _⟩
  | call _ hle ih => exact ih.tryConsume hle

/-- A rejected call leaves the bucket refilled. -/
theorem Kept.tryConsume_of_error (h : bucket.Kept capacity refillRate last) (hle : last ≤ now)
    {r : ℕ} (hrejected : (bucket.tryConsume now).2 = .error r) :
    (bucket.tryConsume now).1 =
        { tokens := bucket.level now
          lastRefill := now
          capacity := capacity
          refillRate := refillRate } ∧
      bucket.level now < 1 ∧ r = max (asU64 ⌈(1 - bucket.level now) / refillRate⌉) 1 := by
  unfold TokenBucket.tryConsume at hrejected ⊢
  rw [h.refill_eq hle] at hrejected ⊢
  dsimp only at hrejected ⊢
  split_ifs at hrejected ⊢ with htoken
  have hr := Except.error.inj hrejected
  unfold secondsUntilNextToken at hr
  rw [if_neg htoken] at hr
  exact ⟨rfl, not_le.1 htoken, hr.symm⟩

/-- A rejected call changes no later level. -/
theorem Kept.level_of_error (h : bucket.Kept capacity refillRate last) (hle : last ≤ now)
    (hrate : 0 ≤ refillRate) {r : ℕ} (hrejected : (bucket.tryConsume now).2 = .error r)
    {later : Instant} (hlater : now ≤ later) :
    (bucket.tryConsume now).1.level later = bucket.level later := by
  have helapsed : 0 ≤ secs later - secs now := sub_nonneg.2 (secs_le_secs.2 hlater)
  rw [(h.tryConsume_of_error hle hrejected).1]
  unfold level
  rw [h.capacity_eq, h.refillRate_eq, Tokens.refilled_refilled hrate helapsed]
  congr 1
  ring

theorem Waits.kept {bucket' : TokenBucket} {t : Instant} (h : Waits bucket t bucket' last)
    (hkept : bucket.Kept capacity refillRate t) :
    t ≤ last ∧ bucket'.Kept capacity refillRate last := by
  induction h with
  | refl => exact ⟨le_refl _, hkept⟩
  | rejected _ hle _ ih => exact ⟨ih.1.trans hle, ih.2.tryConsume hle⟩

/-- While calls are rejected, the level of the bucket is that of the first. -/
theorem Waits.level_eq {bucket' : TokenBucket} {t : Instant} (h : Waits bucket t bucket' last)
    (hkept : bucket.Kept capacity refillRate t) (hrate : 0 ≤ refillRate) {later : Instant}
    (hlater : last ≤ later) : bucket'.level later = bucket.level later := by
  induction h with
  | refl => rfl
  | rejected hwaits hle hrejected ih =>
    rw [(hwaits.kept hkept).2.level_of_error hle hrate hrejected hlater, ih (hle.trans hlater)]

theorem secs_add_seconds (t : Instant) (n : ℤ) : secs (t + seconds n) = secs t + n := by
  unfold secs seconds nanosPerSecond
  push_cast
  ring

/-- What a rejected bucket holds some seconds later. -/
theorem level_add_seconds {tokens : ℚ} {t : Instant} (n : ℤ) :
    level { tokens, lastRefill := t, capacity, refillRate } (t + seconds n) =
      min (tokens + n * refillRate) capacity := by
  unfold level Tokens.refilled
  rw [secs_add_seconds, add_sub_cancel_left]

/-- The cast of the wait is exact, unless the wait has more seconds than a `u64`. -/
theorem asU64_intCast {z : ℤ} (hz : 0 ≤ z) : (asU64 z : ℤ) = min z u64Max := by
  unfold asU64
  rw [Int.floor_intCast]
  omega

/-- After a rejected call, no call succeeds before the announced wait but one at its end does. -/
theorem retryAfter_exact {capacity refillRate : ℚ} (hcapacity : 1 ≤ capacity)
    (hrate : 0 < refillRate) {bucket : TokenBucket} {last t : Instant}
    (hreachable : Reachable capacity refillRate bucket last) (hlast : last ≤ t)
    {r : ℕ} (hrejected : (bucket.tryConsume t).2 = .error r) (ht : IsInstant t)
    {bucket' : TokenBucket} {last' : Instant}
    (hwaits : Waits (bucket.tryConsume t).1 t bucket' last') :
    (IsInstant (t + seconds r) → last' ≤ t + seconds r →
      ∃ remaining, (bucket'.tryConsume (t + seconds r)).2 = .ok remaining) ∧
    (2 ≤ r → last' ≤ t + seconds (r - 1) →
      ∃ r', (bucket'.tryConsume (t + seconds (r - 1))).2 = .error r') := by
  have hkept := hreachable.kept
  obtain ⟨hafter, hlow, hr⟩ := hkept.tryConsume_of_error hlast hrejected
  have hkept' := hkept.tryConsume hlast
  have hlevel : ∀ n : ℤ, last' ≤ t + seconds n →
      bucket'.level (t + seconds n) = min (bucket.level t + n * refillRate) capacity := by
    intro n hn
    rw [hwaits.level_eq hkept' hrate.le hn, hafter, level_add_seconds]
  -- the seconds until the next token, rounded up
  let wait : ℤ := ⌈(1 - bucket.level t) / refillRate⌉
  have hpos : 0 < wait := Int.ceil_pos.2 (div_pos (sub_pos.2 hlow) hrate)
  have hround : (r : ℤ) = max (min wait u64Max) 1 := by
    rw [hr, Nat.cast_max, asU64_intCast hpos.le]
    rfl
  obtain ⟨-, hkept''⟩ := hwaits.kept hkept'
  constructor
  · intro hend hle
    rw [hkept''.tryConsume_isOk_iff hle, hlevel r hle]
    have hrange : (r : ℤ) < u64Max := by
      have hlength : seconds r ≤ seconds i64Max + 999999999 :=
        (Int.le_add_of_nonneg_left ht.1).trans hend.2
      have hlt : (r : ℤ) * 1000000000 < (i64Max + 1) * 1000000000 := by
        refine lt_of_le_of_lt hlength ?_
        decide
      have hmax : i64Max + 1 ≤ u64Max := by decide
      omega
    have hceil : wait = r := by omega
    have hneeded : (1 - bucket.level t) / refillRate ≤ (r : ℤ) := hceil ▸ Int.le_ceil _
    rw [div_le_iff₀ hrate] at hneeded
    exact le_min (by linarith) hcapacity
  · intro htwo hle
    have hless : (((r - 1 : ℤ) : ℤ) : ℚ) < (1 - bucket.level t) / refillRate :=
      Int.lt_ceil.1 (by omega)
    rw [lt_div_iff₀ hrate] at hless
    have hrejects : ¬ ∃ remaining, (bucket'.tryConsume (t + seconds (r - 1))).2 = .ok remaining := by
      rw [hkept''.tryConsume_isOk_iff hle, hlevel (r - 1) hle, not_le]
      exact (min_le_left _ _).trans_lt (by linarith)
    cases hanswer : (bucket'.tryConsume (t + seconds (r - 1))).2 with
    | ok remaining => exact absurd ⟨remaining, hanswer⟩ hrejects
    | error r' => exact ⟨r', rfl⟩

/-- A bucket of one token, refilled at half a token in a second, after its token was taken. -/
def emptied : TokenBucket := ((new 1 (1 / 2) 0).tryConsume 0).1

theorem retryAfter_exact_emptied :
    (∃ remaining, ((emptied.tryConsume 0).1.tryConsume (0 + seconds (2 : ℕ))).2 = .ok remaining) ∧
      ∃ r', ((emptied.tryConsume 0).1.tryConsume (0 + seconds ((2 : ℕ) - 1))).2 = .error r' := by
  have hemptied : Reachable 1 (1 / 2) emptied 0 := (Reachable.new 0).call (le_refl _)
  have hrejected : (emptied.tryConsume 0).2 = .error 2 := by decide +kernel
  have hexact := retryAfter_exact (le_refl _) (by norm_num) hemptied (le_refl _) hrejected (by decide)
    Waits.refl
  exact ⟨hexact.1 (by decide) (by decide), hexact.2 (le_refl _) (by decide)⟩

end TokenBucket

end StellarFeeTracker
