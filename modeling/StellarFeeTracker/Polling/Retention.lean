import StellarFeeTracker.Polling.FeeStats
import StellarFeeTracker.Polling.Persistence
import StellarFeeTracker.Rfc3339
import Mathlib.Tactic.Linarith

/-!
# Pruning and the retention setting

The number of days to retain is unsigned, and the cutoff of a prune is computed from the signed number
of the same bits.  Rows that are younger are kept, and nothing panics, when the cutoff is the start of
the retention window (`respectsRetention_iff`); a number of days that wraps moves the cutoff into the
future.
-/

namespace StellarFeeTracker

/-! ## Texts of all years -/

/-- The texts of the years 0000 to 9999 have a fixed form, and those of the other years a sign. -/
structure Rfc3339.PrintsYears (text : Rfc3339) : Prop where
  fourDigit : ∀ t, InFourDigitYears t → text.toRfc3339 t = rfc3339Text t
  signed : ∀ t, ¬ InFourDigitYears t →
    ∃ sign ∈ ['+', '-'], ∃ rest, (text.toRfc3339 t).toList = sign :: rest

/-- A text with a sign comes before all texts of the years 0000 to 9999. -/
theorem Rfc3339.PrintsYears.lt_iff {text : Rfc3339} (h : text.PrintsYears) {t cutoff : DateTime}
    (ht : InFourDigitYears t) :
    text.toRfc3339 t < text.toRfc3339 cutoff ↔ InFourDigitYears cutoff ∧ t < cutoff := by
  rw [h.fourDigit t ht]
  by_cases hcutoff : InFourDigitYears cutoff
  · rw [h.fourDigit cutoff hcutoff, rfc3339Text_lt_iff ht hcutoff]
    exact (and_iff_right hcutoff).symm
  · refine iff_of_false (not_lt.2 ?_) fun hlt => hcutoff hlt.1
    obtain ⟨sign, hsign, rest, hrest⟩ := h.signed cutoff hcutoff
    have hfirst : text.toRfc3339 cutoff < rfc3339Text yearZero := by
      have hzero : (rfc3339Text yearZero).toList = '0' :: "000-01-01T00:00:00+00:00".toList := by
        decide
      rw [String.lt_iff_toList_lt, hrest, hzero]
      have hbefore : sign < '0' := by
        simp only [List.mem_cons, List.not_mem_nil, or_false] at hsign
        rcases hsign with rfl | rfl
        · decide
        · decide
      exact List.cons_lt_cons_iff.2 (.inl hbefore)
    have hleast : rfc3339Text yearZero ≤ rfc3339Text t := by
      rw [← not_lt, rfc3339Text_lt_iff ht ⟨le_refl _, by decide⟩]
      exact not_lt.2 ht.1
    exact hfirst.le.trans hleast

/-! ## The cutoff -/

namespace Poller

variable {poller : Poller}

theorem retentionCutoff_eq_ok_iff {now cutoff : DateTime} (hmin : minUtc ≤ now)
    (hmax : now ≤ maxUtc) :
    poller.retentionCutoff now = .ok cutoff ↔
      (minUtc ≤ cutoff ∧ cutoff ≤ maxUtc) ∧
        cutoff = now - seconds (asI64 poller.storageRetentionDays * 86400) :=
  trySub_trySeconds_eq_ok_iff hmin hmax _

/-! ## Rows that are younger than the retention window -/

/-- The text of an instant of the years 0000 to 9999 that is less than the days to retain ago. -/
def IsYoung (poller : Poller) (text : Rfc3339) (now : DateTime) (timestamp : String) : Prop :=
  ∃ t, InFourDigitYears t ∧ now - t < seconds (poller.storageRetentionDays * 86400) ∧
    timestamp = text.toRfc3339 t

/-- The snapshots after the upsert of a tick. -/
def upserted (text : Rfc3339) (tick : FeeStatsTick) (snapshot : FeeStatsSnapshot)
    (rows : List FeeSnapshotRow) : List FeeSnapshotRow :=
  if tick.upsertError.isNone then upsertFeeSnapshot text snapshot rows else rows

/-- At the given time, the two ticks prune without a panic, and keep the rows that are younger than
the days to retain. -/
structure RespectsRetention (poller : Poller) (text : Rfc3339) (now : DateTime) : Prop where
  noPanic : ∀ (tick : PollTick) points db, tick.now = now →
    (poller.persist text tick points db).2 = none
  feeDataPoints : ∀ (tick : PollTick) points db, tick.now = now →
    ∀ row ∈ (poller.inserted text tick points db).feeDataPoints,
      poller.IsYoung text now row.timestamp →
        row ∈ (poller.persist text tick points db).1.feeDataPoints
  recommendations : ∀ (tick : PollTick) points db, tick.now = now →
    ∀ r ∈ (poller.inserted text tick points db).recommendations,
      poller.IsYoung text now r.computedAt →
        r ∈ (poller.persist text tick points db).1.recommendations
  alertEvents : ∀ (tick : PollTick) points db, tick.now = now →
    ∀ e ∈ (poller.inserted text tick points db).alertEvents,
      poller.IsYoung text now e.triggeredAt →
        e ∈ (poller.persist text tick points db).1.alertEvents
  noPanicSnapshot : ∀ (tick : FeeStatsTick) snapshot rows, tick.now = now →
    (poller.persistSnapshot text tick snapshot rows).2 = none
  feeStatsSnapshots : ∀ (tick : FeeStatsTick) snapshot rows, tick.now = now →
    ∀ row ∈ upserted text tick snapshot rows, poller.IsYoung text now row.capturedAt →
      row ∈ (poller.persistSnapshot text tick snapshot rows).1

/-- A prune keeps what does not come before the cutoff. -/
theorem mem_pruned {α : Type} {key : α → String} {pruned : Bool} {cutoff : String} {rows : List α}
    {row : α} (hrow : row ∈ rows) (hkeep : ¬ key row < cutoff) :
    row ∈ if pruned then rows.filter fun r => !(key r < cutoff) else rows := by
  split_ifs
  · rw [List.mem_filter]
    exact ⟨hrow, by simpa using hkeep⟩
  · exact hrow

section Cutoff

variable {text : Rfc3339} {now : DateTime} (hrepo : poller.hasRepository = true)
include hrepo

/-- The tables after a tick whose cutoff is an instant. -/
theorem persist_of_cutoff {tick : PollTick} {cutoff : DateTime}
    (hcutoff : poller.retentionCutoff tick.now = .ok cutoff) (points : List FeeDataPoint)
    (db : Database) :
    let before := poller.inserted text tick points db
    poller.persist text tick points db =
      ({ feeDataPoints :=
          if tick.pruneError.isNone then
            before.feeDataPoints.filter fun row => !(row.timestamp < text.toRfc3339 cutoff)
          else before.feeDataPoints
         recommendations :=
          if tick.pruneRecommendationsError.isNone then
            before.recommendations.filter fun r => !(r.computedAt < text.toRfc3339 cutoff)
          else before.recommendations
         alertEvents :=
          if tick.pruneAlertEventsError.isNone then
            before.alertEvents.filter fun e => !(e.triggeredAt < text.toRfc3339 cutoff)
          else before.alertEvents }, none) := by
  unfold persist inserted
  simp only [hrepo, hcutoff, Bool.true_and, if_true]
  cases tick.pruneError <;> cases tick.pruneRecommendationsError <;>
    cases tick.pruneAlertEventsError <;> rfl

theorem persistSnapshot_of_cutoff {tick : FeeStatsTick} {cutoff : DateTime}
    (hcutoff : poller.retentionCutoff tick.now = .ok cutoff) (snapshot : FeeStatsSnapshot)
    (rows : List FeeSnapshotRow) :
    poller.persistSnapshot text tick snapshot rows =
      (if tick.pruneError.isNone then
        (upserted text tick snapshot rows).filter fun row =>
          !(row.capturedAt < text.toRfc3339 cutoff)
      else upserted text tick snapshot rows, none) := by
  unfold persistSnapshot upserted
  simp only [hrepo, hcutoff, if_true]
  rfl

/-- The setting is respected when there is a cutoff and no younger row comes before it. -/
theorem respectsRetention_of_cutoff {cutoff : DateTime}
    (hcutoff : poller.retentionCutoff now = .ok cutoff)
    (hkeep : ∀ timestamp, poller.IsYoung text now timestamp →
      ¬ timestamp < text.toRfc3339 cutoff) : poller.RespectsRetention text now where
  noPanic tick points db hnow := by
    subst hnow
    rw [persist_of_cutoff hrepo hcutoff]
  feeDataPoints tick points db hnow row hrow hyoung := by
    subst hnow
    rw [persist_of_cutoff hrepo hcutoff]
    exact mem_pruned hrow (hkeep _ hyoung)
  recommendations tick points db hnow r hr hyoung := by
    subst hnow
    rw [persist_of_cutoff hrepo hcutoff]
    exact mem_pruned hr (hkeep _ hyoung)
  alertEvents tick points db hnow e he hyoung := by
    subst hnow
    rw [persist_of_cutoff hrepo hcutoff]
    exact mem_pruned he (hkeep _ hyoung)
  noPanicSnapshot tick snapshot rows hnow := by
    subst hnow
    rw [persistSnapshot_of_cutoff hrepo hcutoff]
  feeStatsSnapshots tick snapshot rows hnow row hrow hyoung := by
    subst hnow
    rw [persistSnapshot_of_cutoff hrepo hcutoff]
    exact mem_pruned hrow (hkeep _ hyoung)

/-- If the setting is respected, there is a cutoff and no younger row comes before it. -/
theorem RespectsRetention.exists_cutoff (h : poller.RespectsRetention text now) :
    ∃ cutoff, poller.retentionCutoff now = .ok cutoff ∧
      ∀ timestamp, poller.IsYoung text now timestamp → ¬ timestamp < text.toRfc3339 cutoff := by
  let tick : PollTick :=
    { fetchLatestFees := fun _ => .ok []
      random := fun _ => 0
      now
      listAlertConfigs := .ok []
      insertError := none
      pruneError := none
      pruneRecommendationsError := none
      pruneAlertEventsError := none }
  cases hcutoff : poller.retentionCutoff now with
  | error panic =>
    have hnone := h.noPanic tick [] { feeDataPoints := [], recommendations := [], alertEvents := [] }
      rfl
    unfold persist at hnone
    simp only [hrepo, tick, hcutoff, if_true] at hnone
    cases hnone
  | ok cutoff =>
    refine ⟨cutoff, rfl, fun timestamp hyoung hlt => ?_⟩
    let row : FeeRow := { feeAmount := 0, timestamp, transactionHash := "", ledgerSequence := 0 }
    have hkept := h.feeDataPoints tick []
      { feeDataPoints := [row], recommendations := [], alertEvents := [] } rfl row ?_ hyoung
    · rw [persist_of_cutoff hrepo hcutoff] at hkept
      obtain ⟨-, hnot⟩ := List.mem_filter.1 hkept
      simp [row, hlt] at hnot
    · simp [inserted, hrepo, tick, Database.insertFeePoints]

end Cutoff

/-- The start of the retention window is an instant; or the number of days wraps, and the cutoff is an
instant of a year that has more than four digits. -/
def RetentionFits (days : ℕ) (now : DateTime) : Prop :=
  minUtc ≤ now - seconds (days * 86400) ∨
    i64Max < days ∧ yearTenThousand ≤ now + seconds ((u64Modulus - days) * 86400) ∧
      now + seconds ((u64Modulus - days) * 86400) ≤ maxUtc

instance (days : ℕ) (now : DateTime) : Decidable (RetentionFits days now) := by
  unfold RetentionFits
  infer_instance

section Representable

variable {now cutoff : DateTime} (hmin : minUtc ≤ now) (hmax : now ≤ maxUtc)
include hmin hmax

/-- A window that starts at an instant starts at the cutoff. -/
theorem retentionCutoff_of_minUtc_le
    (hfits : minUtc ≤ now - seconds (poller.storageRetentionDays * 86400)) :
    poller.retentionCutoff now = .ok (now - seconds (poller.storageRetentionDays * 86400)) := by
  have hdays : (poller.storageRetentionDays : ℤ) ≤ 200000000 := by
    unfold minUtc maxUtc seconds nanosPerSecond at *
    linarith
  have hasI64 : asI64 poller.storageRetentionDays = poller.storageRetentionDays :=
    asI64_of_le (hdays.trans (by decide))
  have hlength : 0 ≤ seconds (poller.storageRetentionDays * 86400) :=
    Int.mul_nonneg (by omega) (by decide)
  rw [retentionCutoff_eq_ok_iff hmin hmax, hasI64]
  exact ⟨⟨hfits, (Int.sub_le_self now hlength).trans hmax⟩, rfl⟩

/-- The cutoff of a number of days that wraps is the time of the prune and the days that are missing
to the modulus. -/
theorem retentionCutoff_of_wraps (hdays : poller.storageRetentionDays ≤ u64Max)
    (hwraps : i64Max < poller.storageRetentionDays) :
    poller.retentionCutoff now = .ok cutoff ↔
      cutoff = now + seconds ((u64Modulus - poller.storageRetentionDays) * 86400) ∧
        cutoff ≤ maxUtc := by
  have hsub : now - seconds ((poller.storageRetentionDays - u64Modulus) * 86400) =
      now + seconds ((u64Modulus - poller.storageRetentionDays) * 86400) := by
    unfold seconds
    ring
  have hmissing : 0 ≤ seconds ((u64Modulus - poller.storageRetentionDays) * 86400) := by
    unfold u64Max at hdays
    unfold u64Modulus
    exact Int.mul_nonneg (by omega) (by decide)
  rw [retentionCutoff_eq_ok_iff hmin hmax, asI64_of_gt (Nat.lt_succ_of_le hdays) hwraps, hsub]
  constructor
  · rintro ⟨hrange, hcutoff⟩
    exact ⟨hcutoff, hrange.2⟩
  · rintro ⟨rfl, hlast⟩
    exact ⟨⟨hmin.trans (Int.le_add_of_nonneg_right hmissing), hlast⟩, rfl⟩

end Representable

/-- The days to retain are respected at a time exactly when they fit. -/
theorem respectsRetention_iff {text : Rfc3339} (htext : text.PrintsYears) {poller : Poller}
    (hrepo : poller.hasRepository = true) (hdays : poller.storageRetentionDays ≤ u64Max)
    {now : DateTime} (hepoch : 0 ≤ now) (hmax : now ≤ maxUtc) :
    poller.RespectsRetention text now ↔ RetentionFits poller.storageRetentionDays now := by
  have hmin : minUtc ≤ now := le_trans (by decide) hepoch
  constructor
  · intro h
    obtain ⟨cutoff, hcutoff, hkept⟩ := h.exists_cutoff hrepo
    rcases le_or_gt (poller.storageRetentionDays : ℤ) i64Max with hle | hwraps
    · obtain ⟨hrange, hstart⟩ := (retentionCutoff_eq_ok_iff hmin hmax).1 hcutoff
      rw [asI64_of_le hle] at hstart
      exact .inl (hstart ▸ hrange.1)
    · obtain ⟨hlater, hlast⟩ := (retentionCutoff_of_wraps hmin hmax hdays hwraps).1 hcutoff
      refine .inr ⟨hwraps, hlater ▸ ?_, hlater ▸ hlast⟩
      -- otherwise the prune deletes a row from now
      by_contra hyear
      have hfuture : now < cutoff := by
        unfold u64Max at hdays
        unfold u64Modulus at hlater
        rw [hlater]
        exact Int.lt_add_of_pos_right _ (Int.mul_pos (by omega) (by decide))
      have hstart : yearZero ≤ now := le_trans (by decide) hepoch
      have hnow : InFourDigitYears now := ⟨hstart, hfuture.trans (not_le.1 hyear)⟩
      have hcut : InFourDigitYears cutoff := ⟨hstart.trans hfuture.le, not_le.1 hyear⟩
      have hpositive : now - now < seconds (poller.storageRetentionDays * 86400) := by
        rw [sub_self]
        unfold i64Max at hwraps
        exact Int.mul_pos (by omega) (by decide)
      exact hkept _ ⟨now, hnow, hpositive, rfl⟩ ((htext.lt_iff hnow).2 ⟨hcut, hfuture⟩)
  · rintro (hfits | ⟨hwraps, hyear, hlast⟩)
    · refine respectsRetention_of_cutoff hrepo (retentionCutoff_of_minUtc_le hmin hmax hfits) ?_
      rintro timestamp ⟨t, ht, hyoung, rfl⟩ hpruned
      have hlt := ((htext.lt_iff ht).1 hpruned).2
      linarith
    · refine respectsRetention_of_cutoff hrepo
        ((retentionCutoff_of_wraps hmin hmax hdays hwraps).2 ⟨rfl, hlast⟩) ?_
      rintro timestamp ⟨t, ht, -, rfl⟩ hpruned
      exact absurd ((htext.lt_iff ht).1 hpruned).1.2 (not_lt.2 hyear)

end Poller

/-- The texts of all years, with the nanoseconds behind the sign. -/
def signedText : Rfc3339 where
  toRfc3339 t :=
    if InFourDigitYears t then rfc3339Text t
    else String.ofList ((if t < yearZero then '-' else '+') :: (toString t.natAbs).toList)
  parseFromRfc3339 _ := none

theorem printsYears_signedText : signedText.PrintsYears where
  fourDigit t ht := if_pos ht
  signed t ht := by
    refine ⟨if t < yearZero then '-' else '+', ?_, (toString t.natAbs).toList, ?_⟩
    · split_ifs <;> decide
    · simp only [signedText, if_neg ht, String.toList_ofList]

/-- The texts of all years, one of which can be read. -/
def stampText : Rfc3339 :=
  { signedText with parseFromRfc3339 := exampleText.parseFromRfc3339 }

theorem printsYears_stampText : stampText.PrintsYears where
  fourDigit := printsYears_signedText.fourDigit
  signed := printsYears_signedText.signed

namespace Poller

theorem respectsRetention_seven_days :
    storingPoller.RespectsRetention signedText (seconds 1736851620) :=
  (respectsRetention_iff printsYears_signedText rfl (by decide) (by decide) (by decide)).2 (by decide)

/-- A poller that retains as many days as the setting can say. -/
def hoardingPoller : Poller := { storingPoller with storageRetentionDays := u64Max }

/-- It deletes a row from the time of the tick; with fewer days to retain, its tick panics. -/
theorem hoarding_deletes_new_row :
    ¬ hoardingPoller.RespectsRetention signedText (seconds 1736851620) ∧
      ({ hoardingPoller with storageRetentionDays := 100000000 }.persist signedText
        (tickFetching []) [] { feeDataPoints := [], recommendations := [], alertEvents := [] }).2 =
        some .dateTimeOverflow := by
  let row : FeeRow :=
    { feeAmount := 100, timestamp := "2025-01-14T10:47:00+00:00", transactionHash := "a",
      ledgerSequence := 1 }
  let db : Database := { feeDataPoints := [row], recommendations := [], alertEvents := [] }
  refine ⟨fun h => ?_, by decide⟩
  have hyoung : hoardingPoller.IsYoung signedText (seconds 1736851620) row.timestamp :=
    ⟨seconds 1736851620, by decide, by decide, by decide⟩
  have hkept := h.feeDataPoints (tickFetching []) [] db rfl row (by decide) hyoung
  exact absurd hkept (by decide)

end Poller

end StellarFeeTracker
