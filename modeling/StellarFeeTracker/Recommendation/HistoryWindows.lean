import StellarFeeTracker.Recommendation.Engine
import Mathlib.Tactic.Linarith

/-!
# The history windows

A recommendation reads the fees of two windows that end now.  The length of the long one is a setting
in unsigned seconds, which are cast to signed ones; the short one is a twelfth of it, but at least
five minutes.  The long window is the one that the setting says while it starts at an instant, and the
short one lies inside it unless it is the longer one (`windowsFollowConfig_iff`).  A length that wraps
makes the long window start in the future.
-/

namespace StellarFeeTracker

/-! ## The setting -/

/-- The history window of the configuration that is read from the environment. -/
def loadHistoryWindowSecs (get : String → Option String) : ℕ :=
  ((get "REC_HISTORY_WINDOW_SECS").bind parseU64).getD RecommendationConfig.default.historyWindowSecs

theorem loadHistoryWindowSecs_le (get : String → Option String) :
    loadHistoryWindowSecs get ≤ u64Max := by
  unfold loadHistoryWindowSecs
  cases hparsed : (get "REC_HISTORY_WINDOW_SECS").bind parseU64 with
  | none => decide
  | some secs =>
    obtain ⟨raw, -, hraw⟩ := Option.bind_eq_some_iff.1 hparsed
    exact parseU64_le hraw

/-- Every unsigned 64-bit value is accepted. -/
theorem loadHistoryWindowSecs_toString {secs : ℕ} (h : secs ≤ u64Max) :
    loadHistoryWindowSecs (fun _ => some (toString secs)) = secs := by
  unfold loadHistoryWindowSecs
  rw [Option.bind_some, parseU64_toString h, Option.getD_some]

/-! ## The start of a window -/

/-- The start of the window of so many seconds before `now`. -/
def windowStart (now : DateTime) (secs : ℕ) : Except Panic DateTime := do
  DateTime.trySub now (← trySeconds (asI64 secs))

/-- The points that are at most so many seconds old. -/
def FeeHistoryStore.within (store : FeeHistoryStore) (now : DateTime) (secs : ℕ) :
    List FeeDataPoint :=
  store.data.filter fun p => now - p.timestamp ≤ seconds secs

theorem FeeHistoryStore.getSince_sub (store : FeeHistoryStore) (now : DateTime) (secs : ℕ) :
    store.getSince (now - seconds secs) = store.within now secs := by
  unfold getSince within
  refine List.filter_congr fun p _ => ?_
  rw [decide_eq_decide]
  exact sub_le_comm

section Start

variable {now : DateTime} (hmin : minUtc ≤ now) (hmax : now ≤ maxUtc)
include hmin hmax

/-- A window starts where its length says, or, when the length wraps, in the future. -/
theorem windowStart_eq_ok_iff {secs : ℕ} (hsecs : secs ≤ u64Max) (t : DateTime) :
    windowStart now secs = .ok t ↔
      minUtc ≤ t ∧ t = now - seconds secs ∨
        i64Max < secs ∧ t ≤ maxUtc ∧ t = now + seconds (u64Modulus - secs) := by
  have hstart := trySub_trySeconds_eq_ok_iff hmin hmax (t := t) (asI64 secs)
  have hlength : 0 ≤ seconds secs := Int.mul_nonneg (Int.natCast_nonneg _) (by decide)
  rw [windowStart, hstart]
  rcases le_or_gt (secs : ℤ) i64Max with hle | hwraps
  · rw [asI64_of_le hle]
    constructor
    · rintro ⟨hrange, rfl⟩
      exact .inl ⟨hrange.1, rfl⟩
    · rintro (⟨hlow, rfl⟩ | ⟨hwraps, -⟩)
      · exact ⟨⟨hlow, (Int.sub_le_self now hlength).trans hmax⟩, rfl⟩
      · exact absurd hwraps (not_lt.2 hle)
  · have hmissing : 0 ≤ seconds (u64Modulus - secs) := by
      unfold u64Max at hsecs
      unfold u64Modulus
      exact Int.mul_nonneg (by omega) (by decide)
    have hsub : now - seconds (secs - u64Modulus) = now + seconds (u64Modulus - secs) := by
      unfold seconds
      ring
    rw [asI64_of_gt (Nat.lt_succ_of_le hsecs) hwraps, hsub]
    constructor
    · rintro ⟨hrange, rfl⟩
      exact .inr ⟨hwraps, hrange.2, rfl⟩
    · rintro (⟨hlow, rfl⟩ | ⟨-, hhigh, rfl⟩)
      · -- the range of time is shorter than 2 ^ 63 seconds
        unfold minUtc at hlow
        unfold maxUtc at hmax
        unfold seconds nanosPerSecond at hlow hmax
        unfold i64Max at hwraps
        linarith
      · exact ⟨⟨hmin.trans (Int.le_add_of_nonneg_right hmissing), hhigh⟩, rfl⟩

/-- A shorter window starts later. -/
theorem windowStart_of_minUtc_le {secs longer : ℕ} (hsecs : secs ≤ longer)
    (hlonger : longer ≤ u64Max) (h : minUtc ≤ now - seconds longer) :
    windowStart now secs = .ok (now - seconds secs) := by
  have hle : seconds secs ≤ seconds longer := seconds_le_seconds (Int.ofNat_le.2 hsecs)
  rw [windowStart_eq_ok_iff hmin hmax (hsecs.trans hlonger)]
  exact .inl ⟨h.trans (Int.sub_le_sub_left hle now), rfl⟩

end Start

namespace FeeRecommendationEngine

variable (engine : FeeRecommendationEngine)

/-! ## The points of the two windows -/

/-- There are points, and as many as a sample needs. -/
def IsWarm (points : List FeeDataPoint) : Prop :=
  engine.config.minSampleCount ≤ points.length ∧ points ≠ []

instance (points : List FeeDataPoint) : Decidable (engine.IsWarm points) := by
  unfold IsWarm
  infer_instance

/-- The points of the long window and, if they make a sample, those of the short one. -/
def windowPoints (store : FeeHistoryStore) (now : DateTime) :
    Except Panic (List FeeDataPoint × Option (List FeeDataPoint)) := do
  let since ← windowStart now engine.config.historyWindowSecs
  let recentPoints := store.getSince since
  if engine.IsWarm recentPoints then
    let shortSince ← windowStart now engine.shortWindowSecs
    return (recentPoints, some (store.getSince shortSince))
  else return (recentPoints, none)

/-- The sample of the points of the two windows. -/
def sampleOf : List FeeDataPoint × Option (List FeeDataPoint) → FeeSample
  | (long, none) => if long.length < engine.config.minSampleCount then .tooFew else .empty
  | (long, some short) => .fees (long.map (·.feeAmount)) (short.map (·.feeAmount))

/-- The engine reads its sample from these points. -/
theorem readSample_eq_map (store : FeeHistoryStore) (now : DateTime) :
    engine.readSample store now = (engine.windowPoints store now).map engine.sampleOf := by
  unfold readSample windowPoints windowStart
  rcases trySeconds (asI64 engine.config.historyWindowSecs) with panic | window
  · rfl
  rcases hsince : DateTime.trySub now window with panic | since
  · simp [bind, Except.bind, Except.map, hsince]
  simp only [bind, Except.bind, hsince]
  generalize store.getSince since = recent
  by_cases hfew : recent.length < engine.config.minSampleCount
  · have hcold : ¬ engine.IsWarm recent := fun h => not_le.2 hfew h.1
    simp [Except.map, pure, Except.pure, hfew, hcold, sampleOf]
  rcases eq_or_ne recent [] with rfl | hne
  · have hcold : ¬ engine.IsWarm [] := fun h => h.2 rfl
    simp only [if_neg hfew, if_neg hcold, Except.map, pure, Except.pure, sampleOf]
    rfl
  have hwarm : engine.IsWarm recent := ⟨not_lt.1 hfew, hne⟩
  rcases trySeconds (asI64 engine.shortWindowSecs) with panic | shortWindow
  · simp [Except.map, hfew, hne, hwarm]
  rcases hshort : DateTime.trySub now shortWindow with panic | shortSince
  · simp [Except.map, hfew, hne, hwarm, hshort]
  · simp [Except.map, pure, Except.pure, hfew, hne, hwarm, hshort, sampleOf]

/-- A request does not panic while its sample can be read. -/
theorem error_notMem_recommend {call : RecommendCall} {sample : FeeSample}
    (h : engine.readSample call.store call.now = .ok sample) (cache : RecommendationCache)
    (panic : Panic) : .error panic ∉ (engine.recommend cache call).2 := by
  rcases hget : cache.get (engine.cacheKey call) call.lookupAt with _ | cached
  · cases sample <;> simp [recommend, hget, h]
  · simp [recommend, hget]

/-! ## Windows that follow the setting -/

/-- A request at the given time does not panic, and the sample that the engine reads is that of a long
window as the setting says and of a short one that has no other points. -/
structure WindowsFollowConfig (store : FeeHistoryStore) (now : DateTime) : Prop where
  noPanic : ∀ (cache : RecommendationCache) (call : RecommendCall), call.store = store →
    call.now = now → ∀ panic, .error panic ∉ (engine.recommend cache call).2
  windows : ∃ long short, engine.windowPoints store now = .ok (long, short) ∧
    engine.readSample store now = .ok (engine.sampleOf (long, short)) ∧
      long = store.within now engine.config.historyWindowSecs ∧ ∀ points ∈ short, points ⊆ long

/-- The long window starts at an instant, and if it is shorter than five minutes and its points make a
sample, the last five minutes start at an instant, too, and hold no point that is too old for it.  Or
the length wraps, all points are as far in the future as this start, and they make no sample. -/
def WindowsFit (store : FeeHistoryStore) (now : DateTime) : Prop :=
  let secs := engine.config.historyWindowSecs
  minUtc ≤ now - seconds secs ∧
      (secs < 300 → engine.IsWarm (store.within now secs) →
        minUtc ≤ now - seconds 300 ∧
          ∀ p ∈ store.data, now - p.timestamp ≤ seconds 300 → now - p.timestamp ≤ seconds secs) ∨
    i64Max < secs ∧ now + seconds (u64Modulus - secs) ≤ maxUtc ∧
      (∀ p ∈ store.data, now + seconds (u64Modulus - secs) ≤ p.timestamp) ∧
        ¬ engine.IsWarm store.data

instance (store : FeeHistoryStore) (now : DateTime) : Decidable (engine.WindowsFit store now) := by
  unfold WindowsFit
  infer_instance

/-- The windows are all there is to say: a request panics only while they are read. -/
theorem windowsFollowConfig_of {store : FeeHistoryStore} {now : DateTime}
    {long : List FeeDataPoint} {short : Option (List FeeDataPoint)}
    (hpoints : engine.windowPoints store now = .ok (long, short))
    (hlong : long = store.within now engine.config.historyWindowSecs)
    (hshort : ∀ points ∈ short, points ⊆ long) : engine.WindowsFollowConfig store now := by
  have hsample : engine.readSample store now = .ok (engine.sampleOf (long, short)) := by
    rw [readSample_eq_map, hpoints, Except.map]
  refine ⟨fun cache call hstore hnow => ?_, long, short, hpoints, hsample, hlong, hshort⟩
  subst hstore hnow
  exact engine.error_notMem_recommend hsample cache

/-- What is read when the long window has a start. -/
theorem windowPoints_of_start (store : FeeHistoryStore) {now since : DateTime}
    (hsince : windowStart now engine.config.historyWindowSecs = .ok since) :
    engine.windowPoints store now =
      if engine.IsWarm (store.getSince since) then
        (windowStart now engine.shortWindowSecs).map fun shortSince =>
          (store.getSince since, some (store.getSince shortSince))
      else .ok (store.getSince since, none) := by
  unfold windowPoints
  rw [hsince]
  split_ifs with hwarm
  · simp only [bind, Except.bind, if_pos hwarm]
    cases windowStart now engine.shortWindowSecs <;> rfl
  · simp only [bind, Except.bind, if_neg hwarm]
    rfl

/-- The starts of the windows whose points were read. -/
theorem exists_start_of_windowPoints {store : FeeHistoryStore} {now : DateTime}
    {long : List FeeDataPoint} {short : Option (List FeeDataPoint)}
    (h : engine.windowPoints store now = .ok (long, short)) :
    ∃ since, windowStart now engine.config.historyWindowSecs = .ok since ∧
      long = store.getSince since ∧
        (engine.IsWarm long → ∃ shortSince, windowStart now engine.shortWindowSecs = .ok shortSince ∧
          short = some (store.getSince shortSince)) := by
  obtain ⟨since, hsince, -⟩ := exists_ok_of_bind h
  rw [engine.windowPoints_of_start _ hsince] at h
  refine ⟨since, hsince, ?_⟩
  split_ifs at h with hwarm
  · cases hshort : windowStart now engine.shortWindowSecs with
    | error panic =>
      rw [hshort] at h
      cases h
    | ok shortSince =>
      rw [hshort] at h
      obtain ⟨rfl, rfl⟩ := Prod.mk.inj (Except.ok.inj h)
      exact ⟨rfl, fun _ => ⟨shortSince, rfl, rfl⟩⟩
  · obtain ⟨rfl, -⟩ := Prod.mk.inj (Except.ok.inj h)
    exact ⟨rfl, fun h => absurd h hwarm⟩

/-- All points are younger than a window whose length wraps. -/
theorem within_of_gt {store : FeeHistoryStore} {now : DateTime} (hmax : now ≤ maxUtc)
    (hstore : ∀ p ∈ store.data, minUtc ≤ p.timestamp) {secs : ℕ} (hwraps : i64Max < secs) :
    store.within now secs = store.data := by
  refine List.filter_eq_self.2 fun p hp => ?_
  have hage : now - p.timestamp ≤ maxUtc - minUtc := Int.sub_le_sub hmax (hstore p hp)
  have hspan : maxUtc - minUtc ≤ seconds i64Max := by decide
  exact decide_eq_true (hage.trans (hspan.trans (seconds_le_seconds hwraps.le)))

section Representable

variable {store : FeeHistoryStore} {now : DateTime} (hmin : minUtc ≤ now) (hmax : now ≤ maxUtc)
  (hsecs : engine.config.historyWindowSecs ≤ u64Max)
include hmin hmax hsecs

omit hmin hmax hsecs in
/-- What is young enough for the one window is in the other, if it is young enough for that too. -/
theorem within_subset {secs secs' : ℕ} (h : ∀ p ∈ store.data,
    now - p.timestamp ≤ seconds secs → now - p.timestamp ≤ seconds secs') :
    store.within now secs ⊆ store.within now secs' := by
  intro p hp
  obtain ⟨hstored, hyoung⟩ := List.mem_filter.1 hp
  exact List.mem_filter.2 ⟨hstored, decide_eq_true (h p hstored (of_decide_eq_true hyoung))⟩

/-- A long window that starts at an instant. -/
theorem windowsFollowConfig_of_minUtc_le
    (hstart : minUtc ≤ now - seconds engine.config.historyWindowSecs)
    (hshort : engine.config.historyWindowSecs < 300 →
      engine.IsWarm (store.within now engine.config.historyWindowSecs) →
        minUtc ≤ now - seconds 300 ∧ ∀ p ∈ store.data, now - p.timestamp ≤ seconds 300 →
          now - p.timestamp ≤ seconds engine.config.historyWindowSecs) :
    engine.WindowsFollowConfig store now := by
  have hlong := windowStart_of_minUtc_le hmin hmax le_rfl hsecs hstart
  have hpoints := engine.windowPoints_of_start store hlong
  rw [FeeHistoryStore.getSince_sub] at hpoints
  by_cases hwarm : engine.IsWarm (store.within now engine.config.historyWindowSecs)
  · rw [if_pos hwarm] at hpoints
    rcases lt_or_ge engine.config.historyWindowSecs 300 with hless | hmore
    · have hfive : engine.shortWindowSecs = 300 := by
        unfold shortWindowSecs
        omega
      obtain ⟨hstart', hnone⟩ := hshort hless hwarm
      rw [hfive, windowStart_of_minUtc_le hmin hmax le_rfl (by decide) hstart', Except.map,
        FeeHistoryStore.getSince_sub] at hpoints
      refine engine.windowsFollowConfig_of hpoints rfl fun points hmem => ?_
      obtain rfl := Option.mem_some_iff.1 hmem
      exact within_subset hnone
    · have hinside : engine.shortWindowSecs ≤ engine.config.historyWindowSecs := by
        unfold shortWindowSecs
        omega
      rw [windowStart_of_minUtc_le hmin hmax hinside hsecs hstart, Except.map,
        FeeHistoryStore.getSince_sub] at hpoints
      refine engine.windowsFollowConfig_of hpoints rfl fun points hmem => ?_
      obtain rfl := Option.mem_some_iff.1 hmem
      exact within_subset fun p _ hage =>
        hage.trans (seconds_le_seconds (Int.ofNat_le.2 hinside))
  · rw [if_neg hwarm] at hpoints
    exact engine.windowsFollowConfig_of hpoints rfl (by simp)

/-- A long window that starts in the future. -/
theorem windowsFollowConfig_of_wraps (hstore : ∀ p ∈ store.data, minUtc ≤ p.timestamp)
    (hwraps : i64Max < engine.config.historyWindowSecs)
    (hstart : now + seconds (u64Modulus - engine.config.historyWindowSecs) ≤ maxUtc)
    (hfuture : ∀ p ∈ store.data,
      now + seconds (u64Modulus - engine.config.historyWindowSecs) ≤ p.timestamp)
    (hcold : ¬ engine.IsWarm store.data) : engine.WindowsFollowConfig store now := by
  have hlong := (windowStart_eq_ok_iff hmin hmax hsecs _).2 (.inr ⟨hwraps, hstart, rfl⟩)
  have hall : store.getSince (now + seconds (u64Modulus - engine.config.historyWindowSecs)) =
      store.data := List.filter_eq_self.2 fun p hp => decide_eq_true (hfuture p hp)
  have hpoints := engine.windowPoints_of_start store hlong
  rw [hall, if_neg hcold] at hpoints
  exact engine.windowsFollowConfig_of hpoints (within_of_gt hmax hstore hwraps).symm (by simp)

/-- The short window of a long one that wraps has no start. -/
theorem windowStart_short_ne_ok (hwraps : i64Max < engine.config.historyWindowSecs)
    (t : DateTime) : windowStart now engine.shortWindowSecs ≠ .ok t := by
  have hlow : (i64Max / 12 : ℤ) ≤ engine.shortWindowSecs := by
    unfold shortWindowSecs
    unfold i64Max at hwraps ⊢
    omega
  have hhigh : (engine.shortWindowSecs : ℤ) ≤ i64Max := by
    unfold shortWindowSecs
    unfold u64Max at hsecs
    unfold i64Max
    omega
  have hshort : engine.shortWindowSecs ≤ u64Max := by
    unfold u64Max
    unfold i64Max at hhigh
    omega
  intro hstart
  rcases (windowStart_eq_ok_iff hmin hmax hshort t).1 hstart with ⟨hrange, rfl⟩ | ⟨hwraps', -⟩
  · unfold minUtc at hrange
    unfold maxUtc at hmax
    unfold seconds nanosPerSecond at hrange hmax
    have hmany : (700000000000000000 : ℤ) ≤ i64Max / 12 := by decide
    linarith
  · exact absurd hwraps' (not_lt.2 hhigh)

/-- What the windows of a time owe to their starts. -/
theorem WindowsFollowConfig.windowsFit (hstore : ∀ p ∈ store.data, minUtc ≤ p.timestamp)
    (h : engine.WindowsFollowConfig store now) : engine.WindowsFit store now := by
  obtain ⟨long, short, hpoints, -, hlong, hshort⟩ := h.windows
  obtain ⟨since, hsince, hread, hreadShort⟩ := engine.exists_start_of_windowPoints hpoints
  rcases (windowStart_eq_ok_iff hmin hmax hsecs since).1 hsince with
    ⟨hlow, rfl⟩ | ⟨hwraps, hhigh, rfl⟩
  · refine .inl ⟨hlow, fun hless hwarm => ?_⟩
    have hfive : engine.shortWindowSecs = 300 := by
      unfold shortWindowSecs
      omega
    obtain ⟨shortSince, hshortStart, rfl⟩ := hreadShort (hlong ▸ hwarm)
    rw [hfive] at hshortStart
    rcases (windowStart_eq_ok_iff hmin hmax (by decide) shortSince).1 hshortStart with
      ⟨hlow', rfl⟩ | ⟨hwraps', -⟩
    · refine ⟨hlow', fun p hp hage => ?_⟩
      have hmem := hshort _ rfl (List.mem_filter.2 ⟨hp, decide_eq_true (sub_le_comm.1 hage)⟩)
      rw [hlong] at hmem
      exact of_decide_eq_true (List.mem_filter.1 hmem).2
    · exact absurd hwraps' (by decide)
  · have hall := hlong.trans (within_of_gt hmax hstore hwraps)
    refine .inr ⟨hwraps, hhigh, fun p hp => ?_, fun hwarm => ?_⟩
    · rw [← hall, hread] at hp
      exact of_decide_eq_true (List.mem_filter.1 hp).2
    · obtain ⟨shortSince, hshortStart, -⟩ := hreadShort (hall ▸ hwarm)
      exact engine.windowStart_short_ne_ok hmin hmax hsecs hwraps _ hshortStart

end Representable

/-- The windows follow the setting exactly when they fit. -/
theorem windowsFollowConfig_iff {get : String → Option String}
    (hconfig : engine.config.historyWindowSecs = loadHistoryWindowSecs get)
    {store : FeeHistoryStore}
    (hstore : ∀ p ∈ store.data, minUtc ≤ p.timestamp ∧ p.timestamp ≤ maxUtc) {now : DateTime}
    (hmin : minUtc ≤ now) (hmax : now ≤ maxUtc) :
    engine.WindowsFollowConfig store now ↔ engine.WindowsFit store now := by
  have hsecs : engine.config.historyWindowSecs ≤ u64Max := by
    rw [hconfig]
    exact loadHistoryWindowSecs_le get
  have hpast : ∀ p ∈ store.data, minUtc ≤ p.timestamp := fun p hp => (hstore p hp).1
  constructor
  · exact fun h => h.windowsFit engine hmin hmax hsecs hpast
  · rintro (⟨hstart, hshort⟩ | ⟨hwraps, hstart, hfuture, hcold⟩)
    · exact engine.windowsFollowConfig_of_minUtc_le hmin hmax hsecs hstart hshort
    · exact engine.windowsFollowConfig_of_wraps hmin hmax hsecs hpast hwraps hstart hfuture hcold

/-- The engine with a history window and the sample size 1. -/
def withWindow (secs : ℕ) : FeeRecommendationEngine where
  config := { RecommendationConfig.default with historyWindowSecs := secs, minSampleCount := 1 }

/-- A store with a point of 10:45:00 and one of 10:46:30. -/
def twoPoints : FeeHistoryStore where
  data := [
    { feeAmount := 100, timestamp := seconds 1736851500, transactionHash := "a", ledgerSequence := 1 },
    { feeAmount := 300, timestamp := seconds 1736851590, transactionHash := "b", ledgerSequence := 2 }]
  capacity := 100

/-- At 10:47:00 both points are in the last three hours. -/
theorem windowsFollowConfig_three_hours :
    (withWindow 10800).WindowsFollowConfig twoPoints (seconds 1736851620) :=
  ((withWindow 10800).windowsFollowConfig_iff
    (@loadHistoryWindowSecs_toString 10800 (by decide)).symm (by decide) (by decide)
    (by decide)).2 (by decide)

/-- With a window of one minute the short window has a point that the long one has not, a window of
10000000000000 seconds panics, and one of 2 ^ 64 - 1 seconds has no points. -/
theorem not_windowsFollowConfig :
    ¬ (withWindow 60).WindowsFollowConfig twoPoints (seconds 1736851620) ∧
      ¬ (withWindow 10000000000000).WindowsFollowConfig twoPoints (seconds 1736851620) ∧
      ¬ (withWindow u64Max).WindowsFollowConfig twoPoints (seconds 1736851620) := by
  have hunfit : ∀ secs, secs ≤ u64Max →
      ¬ (withWindow secs).WindowsFit twoPoints (seconds 1736851620) →
        ¬ (withWindow secs).WindowsFollowConfig twoPoints (seconds 1736851620) :=
    fun secs hle hunfit h =>
      hunfit (h.windowsFit _ (by decide) (by decide) hle (by decide))
  exact ⟨hunfit _ (by decide) (by decide), hunfit _ (by decide) (by decide),
    hunfit _ (by decide) (by decide)⟩

end FeeRecommendationEngine

end StellarFeeTracker
