import StellarFeeTracker.General.KeyedTable
import StellarFeeTracker.General.Machine
import StellarFeeTracker.Polling.Retention

/-!
# The stored snapshots of the fee statistics

A tick of the second polling loop writes the snapshot that it fetched under the ledger of the
snapshot, and then drops the rows before the retention window.  So the table has one row for each
ledger, with the last snapshot that was stored for it, and a fetch gives these snapshots back as they
were read from the responses (`fetchFeeSnapshotsSince_run`).
-/

namespace StellarFeeTracker

open KeyedTable Machine

/-! ## Reading the table -/

/-- The snapshot that a row stores, when its timestamp can be read. -/
def FeeSnapshotRow.toSnapshot (text : Rfc3339) (row : FeeSnapshotRow) : Option FeeStatsSnapshot := do
  let timestamp ← text.parseFromRfc3339 row.capturedAt
  return {
    ledger := u64OfI64 row.ledger
    baseFee := u64OfI64 row.baseFee
    minFeeCharged := u64OfI64 row.minFeeCharged
    maxFeeCharged := u64OfI64 row.maxFeeCharged
    modeFeeCharged := u64OfI64 row.modeFeeCharged
    meanFeeCharged := row.meanFeeCharged
    medianFeeCharged := u64OfI64 row.medianFeeCharged
    p10FeeCharged := u64OfI64 row.p10FeeCharged
    p95FeeCharged := u64OfI64 row.p95FeeCharged
    p99FeeCharged := u64OfI64 row.p99FeeCharged
    maxFee := u64OfI64 row.maxFee
    ledgerCapacityUsage := row.ledgerCapacityUsage
    timestamp }

/-- `fetch_fee_snapshots_since`: the snapshots captured at or after an instant, in the order of their
ledgers. -/
def fetchFeeSnapshotsSince (text : Rfc3339) (since : DateTime) (rows : List FeeSnapshotRow) :
    List FeeStatsSnapshot :=
  let rows := rows.filter fun row => !(row.capturedAt < text.toRfc3339 since)
  (rows.insertionSort fun row row' => row.ledger ≤ row'.ledger).filterMap
    (FeeSnapshotRow.toSnapshot text)

/-- A snapshot whose timestamp is read back.  Its floats are no NaN, which SQLite takes for NULL. -/
structure FeeStatsSnapshot.Recordable (text : Rfc3339) (snapshot : FeeStatsSnapshot) : Prop where
  mean : snapshot.meanFeeCharged ≠ .nan
  ledgerCapacityUsage : snapshot.ledgerCapacityUsage ≠ some .nan
  captured : InFourDigitYears snapshot.timestamp
  parse : text.parseFromRfc3339 (text.toRfc3339 snapshot.timestamp) = some snapshot.timestamp

/-- A snapshot that the columns of a row can hold. -/
structure FeeStatsSnapshot.Storable (text : Rfc3339) (snapshot : FeeStatsSnapshot) : Prop
    extends snapshot.Recordable text where
  whole : ∀ n ∈ [snapshot.ledger, snapshot.baseFee, snapshot.minFeeCharged, snapshot.maxFeeCharged,
    snapshot.modeFeeCharged, snapshot.medianFeeCharged, snapshot.p10FeeCharged,
    snapshot.p95FeeCharged, snapshot.p99FeeCharged, snapshot.maxFee], n < 2 ^ 64

section Rows

variable {text : Rfc3339} {snapshot newer : FeeStatsSnapshot}

theorem FeeStatsSnapshot.Storable.toSnapshot_ofSnapshot (h : snapshot.Storable text) :
    (FeeSnapshotRow.ofSnapshot text snapshot).toSnapshot text = some snapshot := by
  have hwhole := h.whole
  simp only [List.forall_mem_cons] at hwhole
  obtain ⟨hledger, hbase, hmin, hmax, hmode, hmedian, hp10, hp95, hp99, hmaxFee, -⟩ := hwhole
  simp only [FeeSnapshotRow.toSnapshot, FeeSnapshotRow.ofSnapshot, h.parse, u64OfI64_asI64 hledger,
    u64OfI64_asI64 hbase, u64OfI64_asI64 hmin, u64OfI64_asI64 hmax, u64OfI64_asI64 hmode,
    u64OfI64_asI64 hmedian, u64OfI64_asI64 hp10, u64OfI64_asI64 hp95, u64OfI64_asI64 hp99,
    u64OfI64_asI64 hmaxFee]
  rfl

/-- Two snapshots have one row when they are of one ledger. -/
theorem FeeStatsSnapshot.Storable.asI64_ledger_inj (h : snapshot.Storable text)
    (h' : newer.Storable text) : asI64 newer.ledger = asI64 snapshot.ledger ↔
      newer.ledger = snapshot.ledger := by
  constructor
  · intro heq
    have hback := congrArg u64OfI64 heq
    rwa [u64OfI64_asI64 (h'.whole _ List.mem_cons_self),
      u64OfI64_asI64 (h.whole _ List.mem_cons_self)] at hback
  · intro heq
    rw [heq]

end Rows

/-! ## The change that a tick makes -/

namespace Poller

variable (poller : Poller)

/-- The snapshot that a tick fetches. -/
def fetchedSnapshot (tick : FeeStatsTick) : Option FeeStatsSnapshot :=
  (fetchFeeStatsWithRetry tick.fetchFeeStatsFull tick.fetchedAt tick.random poller.baseRetryDelayMs
    poller.maxRetryAttempts).snapshot

/-- A tick stores the snapshot that it fetched. -/
structure Stores (tick : FeeStatsTick) (snapshot : FeeStatsSnapshot) : Prop where
  hasRepository : poller.hasRepository = true
  fetched : poller.fetchedSnapshot tick = some snapshot
  upsertError : tick.upsertError = none

/-- A tick that fetched a snapshot drops the rows before a cutoff. -/
structure PrunesAt (tick : FeeStatsTick) (cutoff : DateTime) : Prop where
  hasRepository : poller.hasRepository = true
  fetched : (poller.fetchedSnapshot tick).isSome = true
  cutoff_eq : poller.retentionCutoff tick.now = .ok cutoff
  pruneError : tick.pruneError = none

/-- A snapshot that a tick fetches is made of one of the responses. -/
theorem exists_tryFrom_of_fetchFeeStatsFrom {fetch : ℕ → Except AppError FeeStatsResponse}
    {now : ℕ → DateTime} {random : ℕ → ℕ} {baseDelayMs attempt left : ℕ}
    {snapshot : FeeStatsSnapshot}
    (h : (fetchFeeStatsFrom fetch now random baseDelayMs attempt left).snapshot = some snapshot) :
    ∃ k response, fetch k = .ok response ∧
      FeeStatsSnapshot.tryFrom (now k) response = .ok snapshot := by
  induction left generalizing attempt with
  | zero => cases h
  | succ left ih =>
    unfold fetchFeeStatsFrom at h
    split at h
    · next response hresponse =>
      split at h
      · next read hread =>
        obtain rfl := Option.some.inj h
        exact ⟨attempt, response, hresponse, hread⟩
      · cases h
    · cases h
    · exact ih h

/-- The whole numbers of a stored snapshot fit in 64 bits, as those of every response do. -/
theorem Stores.storable {poller : Poller} {text : Rfc3339} {tick : FeeStatsTick}
    {snapshot : FeeStatsSnapshot} (h : poller.Stores tick snapshot)
    (hrecordable : snapshot.Recordable text) : snapshot.Storable text where
  toRecordable := hrecordable
  whole := by
    obtain ⟨k, response, -, hread⟩ := exists_tryFrom_of_fetchFeeStatsFrom h.fetched
    obtain ⟨hread, -⟩ := FeeStatsSnapshot.tryFrom_eq_ok_iff.1 hread
    have hfits : ∀ {text n}, parseU64 text = some n → n < 2 ^ 64 := fun hparse =>
      Nat.lt_of_le_of_lt (parseU64_le hparse) (by decide)
    simp only [List.forall_mem_cons, hfits hread.ledger, hfits hread.baseFee,
      hfits hread.minFeeCharged, hfits hread.maxFeeCharged, hfits hread.modeFeeCharged,
      hfits hread.medianFeeCharged, hfits hread.p10FeeCharged, hfits hread.p95FeeCharged,
      hfits hread.p99FeeCharged, hfits hread.maxFee, true_and]
    exact List.forall_mem_nil _

/-- What a tick does to the table. -/
def snapshotChange (text : Rfc3339) (tick : FeeStatsTick) : Change FeeSnapshotRow :=
  match poller.fetchedSnapshot tick with
  | none => .none
  | some snapshot =>
    if poller.hasRepository then
      { write :=
          if tick.upsertError.isNone then some (FeeSnapshotRow.ofSnapshot text snapshot) else none
        keep := fun row =>
          match poller.retentionCutoff tick.now with
          | .error _ => true
          | .ok cutoff =>
            if tick.pruneError.isNone then !(row.capturedAt < text.toRfc3339 cutoff) else true }
    else .none

variable {poller} {text : Rfc3339} {tick : FeeStatsTick}

theorem upsertFeeSnapshot_eq (snapshot : FeeStatsSnapshot) (rows : List FeeSnapshotRow) :
    upsertFeeSnapshot text snapshot rows =
      upsert (·.ledger) rows (FeeSnapshotRow.ofSnapshot text snapshot) := by
  unfold upsertFeeSnapshot upsert
  simp only [Bool.beq_eq_decide_eq, decide_eq_true_eq]

theorem apply_none (rows : List FeeSnapshotRow) :
    Change.none.apply (·.ledger) rows = rows := by
  simp [Change.none, Change.apply]

/-- A tick makes its change. -/
theorem pollFeeStatsOnce_feeStatsSnapshots (s : FeeStatsState) :
    (poller.pollFeeStatsOnce text s tick).1.feeStatsSnapshots =
      (poller.snapshotChange text tick).apply (·.ledger) s.feeStatsSnapshots := by
  unfold pollFeeStatsOnce snapshotChange fetchedSnapshot
  dsimp only
  cases hfetched : (fetchFeeStatsWithRetry tick.fetchFeeStatsFull tick.fetchedAt tick.random
      poller.baseRetryDelayMs poller.maxRetryAttempts).snapshot with
  | none =>
    rw [apply_none]
    dsimp only
    cases poller.hasMetrics <;> rfl
  | some snapshot =>
    have hrows : (if poller.hasMetrics then { s with pollsTotal := s.pollsTotal + 1 } else
        s).feeStatsSnapshots = s.feeStatsSnapshots := by
      cases poller.hasMetrics <;> rfl
    dsimp only
    rw [hrows]
    unfold persistSnapshot
    cases hrepo : poller.hasRepository with
    | false => rw [if_neg Bool.false_ne_true, if_neg Bool.false_ne_true, apply_none]
    | true =>
      rw [if_pos rfl, if_pos rfl, upsertFeeSnapshot_eq]
      unfold Change.apply pruneFeeSnapshotsOlderThan
      cases tick.upsertError <;> cases poller.retentionCutoff tick.now <;>
        cases tick.pruneError <;> simp

theorem snapshotChange_write_iff {row : FeeSnapshotRow} :
    (poller.snapshotChange text tick).write = some row ↔
      ∃ snapshot, poller.Stores tick snapshot ∧ row = FeeSnapshotRow.ofSnapshot text snapshot := by
  unfold snapshotChange
  constructor
  · intro h
    cases hfetched : poller.fetchedSnapshot tick with
    | none => simp [hfetched, Change.none] at h
    | some snapshot =>
      cases hrepo : poller.hasRepository with
      | false => simp [hfetched, hrepo, Change.none] at h
      | true =>
        simp only [hfetched, hrepo, if_true, Option.ite_none_right_eq_some, Option.isNone_iff_eq_none,
          Option.some.injEq] at h
        exact ⟨snapshot, ⟨hrepo, hfetched, h.1⟩, h.2.symm⟩
  · rintro ⟨snapshot, h, rfl⟩
    simp only [h.fetched, h.hasRepository, h.upsertError, Option.isNone_none, if_true]

theorem snapshotChange_keep_iff {row : FeeSnapshotRow} :
    (poller.snapshotChange text tick).keep row = true ↔
      ∀ cutoff, poller.PrunesAt tick cutoff → ¬ row.capturedAt < text.toRfc3339 cutoff := by
  unfold snapshotChange
  cases hfetched : poller.fetchedSnapshot tick with
  | none =>
    refine iff_of_true rfl fun cutoff h => ?_
    have hsome := h.fetched
    rw [hfetched] at hsome
    cases hsome
  | some snapshot =>
    cases hrepo : poller.hasRepository with
    | false =>
      refine iff_of_true rfl fun cutoff h => ?_
      cases hrepo.symm.trans h.hasRepository
    | true =>
      simp only [if_true]
      cases hcutoff : poller.retentionCutoff tick.now with
      | error panic =>
        refine iff_of_true rfl fun cutoff h => ?_
        cases hcutoff.symm.trans h.cutoff_eq
      | ok cutoff =>
        cases herror : tick.pruneError with
        | some error =>
          refine iff_of_true rfl fun cutoff h => ?_
          cases herror.symm.trans h.pruneError
        | none =>
          constructor
          · intro h cutoff' h'
            rw [Except.ok.inj (hcutoff.symm.trans h'.cutoff_eq)] at h
            simpa using h
          · intro h
            simpa using h cutoff ⟨hrepo, by rw [hfetched]; rfl, hcutoff, herror⟩

/-! ## Runs -/

/-- A tick, which puts out a panic if it ends with one. -/
def feeStatsStep (poller : Poller) (text : Rfc3339) (s : FeeStatsState) (tick : FeeStatsTick) :
    FeeStatsState × List Panic :=
  ((poller.pollFeeStatsOnce text s tick).1, (poller.pollFeeStatsOnce text s tick).2.toList)

/-- The table after a run is the table after the changes of its ticks. -/
theorem feeStatsSnapshots_final (s : FeeStatsState) (ticks : List FeeStatsTick) :
    (final (poller.feeStatsStep text) s ticks).feeStatsSnapshots =
      run (·.ledger) s.feeStatsSnapshots (ticks.map (poller.snapshotChange text)) := by
  induction ticks generalizing s with
  | nil => rfl
  | cons tick ticks ih =>
    rw [final_cons, ih, feeStatsStep, pollFeeStatsOnce_feeStatsSnapshots]
    rfl

/-- The snapshot was stored by a tick of a run; since then no tick stored another snapshot of its
ledger, and none pruned it. -/
def LastStored (poller : Poller) (ticks : List FeeStatsTick) (snapshot : FeeStatsSnapshot) : Prop :=
  ∃ before tick after, ticks = before ++ tick :: after ∧ poller.Stores tick snapshot ∧
    (∀ later ∈ after, ∀ newer, poller.Stores later newer → newer.ledger ≠ snapshot.ledger) ∧
    ∀ later ∈ tick :: after, ∀ cutoff, poller.PrunesAt later cutoff → InFourDigitYears cutoff →
      cutoff ≤ snapshot.timestamp

section Runs

variable (htext : text.PrintsYears) {snapshot : FeeStatsSnapshot}
include htext

/-- A change keeps the row of a snapshot that was captured at or after the cutoff. -/
theorem snapshotChange_keep_ofSnapshot_iff (h : snapshot.Storable text) :
    (poller.snapshotChange text tick).keep (FeeSnapshotRow.ofSnapshot text snapshot) = true ↔
      ∀ cutoff, poller.PrunesAt tick cutoff → InFourDigitYears cutoff →
        cutoff ≤ snapshot.timestamp := by
  rw [snapshotChange_keep_iff]
  refine forall₂_congr fun cutoff _ => ?_
  change ¬ text.toRfc3339 snapshot.timestamp < text.toRfc3339 cutoff ↔ _
  rw [htext.lt_iff h.captured, not_and, not_lt]

/-- A change spares the row of a snapshot when its tick stores no other one of the ledger and prunes
up to the snapshot at most. -/
theorem snapshotChange_spares_iff (h : snapshot.Storable text)
    (htick : ∀ newer, poller.Stores tick newer → newer.Storable text) :
    (poller.snapshotChange text tick).Spares (·.ledger) (FeeSnapshotRow.ofSnapshot text snapshot) ↔
      (∀ newer, poller.Stores tick newer → newer.ledger ≠ snapshot.ledger) ∧
        ∀ cutoff, poller.PrunesAt tick cutoff → InFourDigitYears cutoff →
          cutoff ≤ snapshot.timestamp := by
  unfold Change.Spares
  rw [snapshotChange_keep_ofSnapshot_iff htext h, and_comm]
  refine and_congr_left fun _ => ?_
  simp only [Option.mem_def, snapshotChange_write_iff]
  constructor
  · intro hspares newer hnewer hledger
    exact hspares _ ⟨newer, hnewer, rfl⟩ (congrArg asI64 hledger)
  · rintro hnewest row ⟨newer, hnewer, rfl⟩ hledger
    exact hnewest newer hnewer ((h.asI64_ledger_inj (htick newer hnewer)).1 hledger)

/-- The rows after a run from an empty table are those of the snapshots that were stored last. -/
theorem mem_feeStatsSnapshots_final_iff {s : FeeStatsState} (hempty : s.feeStatsSnapshots = [])
    {ticks : List FeeStatsTick}
    (hstorable : ∀ tick ∈ ticks, ∀ snapshot, poller.Stores tick snapshot → snapshot.Storable text)
    {row : FeeSnapshotRow} :
    row ∈ (final (poller.feeStatsStep text) s ticks).feeStatsSnapshots ↔
      ∃ snapshot, poller.LastStored ticks snapshot ∧
        row = FeeSnapshotRow.ofSnapshot text snapshot := by
  rw [feeStatsSnapshots_final, hempty, mem_run_iff]
  constructor
  · rintro (⟨hrow, -⟩ | ⟨changes, change, laterChanges, hchanges, hwrite, hkeep, hspares⟩)
    · cases hrow
    · obtain ⟨before, rest, rfl, -, hrest⟩ := List.map_eq_append_iff.1 hchanges
      obtain ⟨tick, after, rfl, rfl, rfl⟩ := List.map_eq_cons_iff.1 hrest
      obtain ⟨snapshot, hstores, rfl⟩ := snapshotChange_write_iff.1 hwrite
      have h := hstorable tick (by simp) snapshot hstores
      have hlater : ∀ later ∈ after, _ := fun later hlater =>
        (snapshotChange_spares_iff htext h (hstorable later (by simp [hlater]))).1
          (hspares _ (List.mem_map_of_mem hlater))
      refine ⟨snapshot, ⟨before, tick, after, rfl, hstores, fun later hmem => (hlater later hmem).1,
        ?_⟩, rfl⟩
      rw [List.forall_mem_cons]
      exact ⟨(snapshotChange_keep_ofSnapshot_iff htext h).1 hkeep, fun later hmem =>
        (hlater later hmem).2⟩
  · rintro ⟨snapshot, ⟨before, tick, after, rfl, hstores, hnewest, hprunes⟩, rfl⟩
    have h := hstorable tick (by simp) snapshot hstores
    rw [List.forall_mem_cons] at hprunes
    refine .inr ⟨before.map (poller.snapshotChange text), poller.snapshotChange text tick,
      after.map (poller.snapshotChange text), by simp, snapshotChange_write_iff.2
        ⟨snapshot, hstores, rfl⟩, (snapshotChange_keep_ofSnapshot_iff htext h).2 hprunes.1, ?_⟩
    rw [List.forall_mem_map]
    exact fun later hlater => (snapshotChange_spares_iff htext h
      (hstorable later (by simp [hlater]))).2 ⟨hnewest later hlater, hprunes.2 later hlater⟩

end Runs

theorem uniqueKeys_final {s : FeeStatsState} (h : UniqueKeys (·.ledger) s.feeStatsSnapshots)
    (ticks : List FeeStatsTick) :
    UniqueKeys (·.ledger) (final (poller.feeStatsStep text) s ticks).feeStatsSnapshots := by
  rw [feeStatsSnapshots_final]
  exact h.run _

/-- After every run from an empty table, a fetch gives the snapshots that were stored last for their
ledger, not pruned since and captured at or after the instant, whole and as they were read from the
responses, each once and in the order of the stored ledgers. -/
theorem fetchFeeSnapshotsSince_run (htext : text.PrintsYears) (s : FeeStatsState)
    (hempty : s.feeStatsSnapshots = []) (ticks : List FeeStatsTick)
    (hrecordable : ∀ tick ∈ ticks, ∀ snapshot, poller.Stores tick snapshot →
      snapshot.Recordable text) (since : DateTime) (hsince : InFourDigitYears since) :
    let fetched := fetchFeeSnapshotsSince text since
      (final (poller.feeStatsStep text) s ticks).feeStatsSnapshots
    (fetched.Pairwise fun a b => asI64 a.ledger < asI64 b.ledger) ∧
      ∀ snapshot, snapshot ∈ fetched ↔ poller.LastStored ticks snapshot ∧
        since ≤ snapshot.timestamp := by
  intro fetched
  have hstorable : ∀ tick ∈ ticks, ∀ snapshot, poller.Stores tick snapshot →
      snapshot.Storable text := fun tick htick snapshot hstores =>
    hstores.storable (hrecordable tick htick snapshot hstores)
  have hrows : ∀ row, row ∈ (final (poller.feeStatsStep text) s ticks).feeStatsSnapshots ↔
      ∃ snapshot, poller.LastStored ticks snapshot ∧ row = FeeSnapshotRow.ofSnapshot text snapshot :=
    fun _ => mem_feeStatsSnapshots_final_iff htext hempty hstorable
  have hstored : ∀ snapshot, poller.LastStored ticks snapshot → snapshot.Storable text := by
    rintro snapshot ⟨before, tick, after, rfl, hstores, -⟩
    exact hstorable tick (by simp) snapshot hstores
  have hunique : UniqueKeys (·.ledger)
      (final (poller.feeStatsStep text) s ticks).feeStatsSnapshots :=
    uniqueKeys_final (by rw [hempty]; exact List.nodup_nil) ticks
  constructor
  · refine List.pairwise_filterMap.2 ((hunique.filter _).pairwise_insertionSort.imp_of_mem ?_)
    intro row row' hrow hrow' hlt snapshot hsnapshot snapshot' hsnapshot'
    obtain ⟨old, hold, rfl⟩ := (hrows row).1 (List.mem_of_mem_filter
      ((List.mem_insertionSort _).1 hrow))
    obtain ⟨old', hold', rfl⟩ := (hrows row').1 (List.mem_of_mem_filter
      ((List.mem_insertionSort _).1 hrow'))
    rw [(hstored old hold).toSnapshot_ofSnapshot] at hsnapshot
    rw [(hstored old' hold').toSnapshot_ofSnapshot] at hsnapshot'
    obtain rfl := Option.some.inj hsnapshot
    obtain rfl := Option.some.inj hsnapshot'
    exact hlt
  · intro snapshot
    have hmem : snapshot ∈ fetched ↔ ∃ row ∈ (final (poller.feeStatsStep text) s
        ticks).feeStatsSnapshots, ¬ row.capturedAt < text.toRfc3339 since ∧
          row.toSnapshot text = some snapshot := by
      simp only [fetched, fetchFeeSnapshotsSince, List.mem_filterMap, List.mem_insertionSort,
        List.mem_filter, Bool.not_eq_true', decide_eq_false_iff_not, and_assoc]
    have hcaptured : ∀ old : FeeStatsSnapshot, old.Storable text →
        (¬ (FeeSnapshotRow.ofSnapshot text old).capturedAt < text.toRfc3339 since ↔
          since ≤ old.timestamp) := by
      intro old h
      change ¬ text.toRfc3339 old.timestamp < text.toRfc3339 since ↔ _
      rw [htext.lt_iff h.captured, and_iff_right hsince, not_lt]
    rw [hmem]
    constructor
    · rintro ⟨row, hrow, hkept, hread⟩
      obtain ⟨old, hold, rfl⟩ := (hrows row).1 hrow
      rw [(hstored old hold).toSnapshot_ofSnapshot] at hread
      obtain rfl := Option.some.inj hread
      exact ⟨hold, (hcaptured old (hstored old hold)).1 hkept⟩
    · rintro ⟨hlast, hle⟩
      exact ⟨_, (hrows _).2 ⟨snapshot, hlast, rfl⟩,
        (hcaptured snapshot (hstored snapshot hlast)).2 hle,
        (hstored snapshot hlast).toSnapshot_ofSnapshot⟩

/-! ## A ledger that is polled twice -/

/-- The answer of the tests, with this base fee. -/
def statsWithBaseFee (baseFee : String) : FeeStatsResponse where
  lastLedger := "50000001"
  lastLedgerBaseFee := baseFee
  ledgerCapacityUsage := some "0.97"
  feeCharged := testFeeCharged.toStats "250.75" "200"
  maxFee := { min := "100", max := "10000", mode := "10000", mean := "9876.5", median := "10000" }

/-- A tick that fetches this answer. -/
def feeStatsTick (baseFee : String) : FeeStatsTick where
  fetchFeeStatsFull _ := .ok (statsWithBaseFee baseFee)
  fetchedAt _ := seconds 1736851620
  random _ := 0
  now := seconds 1736851620
  upsertError := none
  pruneError := none

def snapshotWithBaseFee (baseFee : ℕ) : FeeStatsSnapshot where
  ledger := 50000001
  baseFee := baseFee
  minFeeCharged := 100
  maxFeeCharged := 5000
  modeFeeCharged := 213
  meanFeeCharged := .finite false 25075 (-2)
  medianFeeCharged := 200
  p10FeeCharged := 100
  p95FeeCharged := 800
  p99FeeCharged := 1200
  maxFee := 10000
  ledgerCapacityUsage := some (.finite false 97 (-2))
  timestamp := seconds 1736851620

/-- The second answer for the ledger takes the place of the first. -/
theorem fetchFeeSnapshotsSince_repolled :
    let s : FeeStatsState := { pollsTotal := 0, pollErrorsTotal := 0, feeStatsSnapshots := [] }
    snapshotWithBaseFee 200 ∈ fetchFeeSnapshotsSince stampText (seconds 1736851620)
      (final (storingPoller.feeStatsStep stampText) s
        [feeStatsTick "100", feeStatsTick "200"]).feeStatsSnapshots := by
  intro s
  have hfirst : storingPoller.fetchedSnapshot (feeStatsTick "100") =
      some (snapshotWithBaseFee 100) := by decide
  have hsecond : storingPoller.fetchedSnapshot (feeStatsTick "200") =
      some (snapshotWithBaseFee 200) := by decide
  have hfloats : ∀ baseFee, (snapshotWithBaseFee baseFee).meanFeeCharged ≠ .nan ∧
      (snapshotWithBaseFee baseFee).ledgerCapacityUsage ≠ some .nan := fun _ => ⟨nofun, nofun⟩
  have hstamp : InFourDigitYears (seconds 1736851620) ∧
      stampText.parseFromRfc3339 (stampText.toRfc3339 (seconds 1736851620)) =
        some (seconds 1736851620) := by decide
  have hrecordable : ∀ baseFee, (snapshotWithBaseFee baseFee).Recordable stampText := fun baseFee =>
    ⟨(hfloats baseFee).1, (hfloats baseFee).2, hstamp.1, hstamp.2⟩
  have hcutoff : storingPoller.retentionCutoff (seconds 1736851620) =
      .ok (seconds 1736246820) := by decide
  refine ((fetchFeeSnapshotsSince_run printsYears_stampText s rfl _ ?_ _ (by decide)).2 _).2
    ⟨⟨[feeStatsTick "100"], feeStatsTick "200", [], rfl, ⟨rfl, hsecond, rfl⟩, by simp, ?_⟩, le_rfl⟩
  · intro tick htick snapshot hstores
    rcases List.mem_cons.1 htick with rfl | htick
    · obtain rfl := Option.some.inj (hfirst.symm.trans hstores.fetched)
      exact hrecordable 100
    · obtain rfl := List.mem_singleton.1 htick
      obtain rfl := Option.some.inj (hsecond.symm.trans hstores.fetched)
      exact hrecordable 200
  · intro later hlater cutoff hprunes _
    obtain rfl := List.mem_singleton.1 hlater
    obtain rfl := Except.ok.inj (hcutoff.symm.trans hprunes.cutoff_eq)
    decide

end Poller

end StellarFeeTracker
