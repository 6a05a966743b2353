import StellarFeeTracker.Chrono
import StellarFeeTracker.General.Uri
import StellarFeeTracker.Services.Horizon

/-!
# Fee statistics

The answer of Horizon's `/fee_stats` is decoded in two ways.  The current fees need the base fee and
the distribution of the fees charged; the scheduler needs the ledger, the mean and the median and the
distribution of the maximal fees, too, and reads the numbers.  So an answer that gives the current
fees gives the scheduler a snapshot exactly when it carries these fields with numbers
(`acceptedInFull_iff`); what both read is then the same.
-/

namespace StellarFeeTracker

open Json

/-! ## The decoder of the current fees -/

structure FeeCharged where
  min : String
  max : String
  /-- The most common fee, which Horizon calls the mode. -/
  avg : String
  p10 : String
  p20 : String
  p30 : String
  p40 : String
  p50 : String
  p60 : String
  p70 : String
  p80 : String
  p90 : String
  p95 : String
  p99 : String
  deriving DecidableEq, Repr

structure HorizonFeeStats where
  lastLedgerBaseFee : String
  feeCharged : FeeCharged
  deriving DecidableEq, Repr

/-- The derived `Deserialize`. -/
def FeeCharged.decode (value : Json) : Option FeeCharged := do
  let min ← recordField 14 0 "min" asStr value
  let max ← recordField 14 1 "max" asStr value
  let avg ← recordField 14 2 "mode" asStr value
  let p10 ← recordField 14 3 "p10" asStr value
  let p20 ← recordField 14 4 "p20" asStr value
  let p30 ← recordField 14 5 "p30" asStr value
  let p40 ← recordField 14 6 "p40" asStr value
  let p50 ← recordField 14 7 "p50" asStr value
  let p60 ← recordField 14 8 "p60" asStr value
  let p70 ← recordField 14 9 "p70" asStr value
  let p80 ← recordField 14 10 "p80" asStr value
  let p90 ← recordField 14 11 "p90" asStr value
  let p95 ← recordField 14 12 "p95" asStr value
  let p99 ← recordField 14 13 "p99" asStr value
  return { min, max, avg, p10, p20, p30, p40, p50, p60, p70, p80, p90, p95, p99 }

def HorizonFeeStats.decode (value : Json) : Option HorizonFeeStats := do
  let lastLedgerBaseFee ← recordField 2 0 "last_ledger_base_fee" asStr value
  let feeCharged ← recordField 2 1 "fee_charged" FeeCharged.decode value
  return { lastLedgerBaseFee, feeCharged }

/-! ## The decoder of the scheduler -/

structure FeeChargedStats where
  min : String
  max : String
  mode : String
  mean : String
  median : String
  p10 : String
  p20 : String
  p30 : String
  p40 : String
  p50 : String
  p60 : String
  p70 : String
  p80 : String
  p90 : String
  p95 : String
  p99 : String
  deriving DecidableEq, Repr

structure MaxFeeStats where
  min : String
  max : String
  mode : String
  mean : String
  median : String
  deriving DecidableEq, Repr

/-- Complete `/fee_stats` payload as exposed by Horizon. -/
structure FeeStatsResponse where
  lastLedger : String
  lastLedgerBaseFee : String
  ledgerCapacityUsage : Option String
  feeCharged : FeeChargedStats
  maxFee : MaxFeeStats
  deriving DecidableEq, Repr

def FeeChargedStats.decode (value : Json) : Option FeeChargedStats := do
  let min ← recordField 16 0 "min" asStr value
  let max ← recordField 16 1 "max" asStr value
  let mode ← recordField 16 2 "mode" asStr value
  let mean ← recordField 16 3 "mean" asStr value
  let median ← recordField 16 4 "median" asStr value
  let p10 ← recordField 16 5 "p10" asStr value
  let p20 ← recordField 16 6 "p20" asStr value
  let p30 ← recordField 16 7 "p30" asStr value
  let p40 ← recordField 16 8 "p40" asStr value
  let p50 ← recordField 16 9 "p50" asStr value
  let p60 ← recordField 16 10 "p60" asStr value
  let p70 ← recordField 16 11 "p70" asStr value
  let p80 ← recordField 16 12 "p80" asStr value
  let p90 ← recordField 16 13 "p90" asStr value
  let p95 ← recordField 16 14 "p95" asStr value
  let p99 ← recordField 16 15 "p99" asStr value
  return { min, max, mode, mean, median, p10, p20, p30, p40, p50, p60, p70, p80, p90, p95, p99 }

def MaxFeeStats.decode (value : Json) : Option MaxFeeStats := do
  let min ← recordField 5 0 "min" asStr value
  let max ← recordField 5 1 "max" asStr value
  let mode ← recordField 5 2 "mode" asStr value
  let mean ← recordField 5 3 "mean" asStr value
  let median ← recordField 5 4 "median" asStr value
  return { min, max, mode, mean, median }

def FeeStatsResponse.decode (value : Json) : Option FeeStatsResponse := do
  let lastLedger ← recordField 5 0 "last_ledger" asStr value
  let lastLedgerBaseFee ← recordField 5 1 "last_ledger_base_fee" asStr value
  let ledgerCapacityUsage ← recordOption 5 2 "ledger_capacity_usage" asStr value
  let feeCharged ← recordField 5 3 "fee_charged" FeeChargedStats.decode value
  let maxFee ← recordField 5 4 "max_fee" MaxFeeStats.decode value
  return { lastLedger, lastLedgerBaseFee, ledgerCapacityUsage, feeCharged, maxFee }

/-! ## Snapshots -/

/-- A point-in-time snapshot of Horizon's `/fee_stats` aggregate data. -/
structure FeeStatsSnapshot where
  ledger : ℕ
  baseFee : ℕ
  minFeeCharged : ℕ
  maxFeeCharged : ℕ
  modeFeeCharged : ℕ
  meanFeeCharged : FloatLiteral
  medianFeeCharged : ℕ
  p10FeeCharged : ℕ
  p95FeeCharged : ℕ
  p99FeeCharged : ℕ
  maxFee : ℕ
  ledgerCapacityUsage : Option FloatLiteral
  timestamp : DateTime
  deriving DecidableEq, Repr

/-- `str::trim`. -/
def trimmed (raw : String) : String := String.ofList (Uri.trim raw.toList)

/-- The error of a field that is no number. -/
def invalidField (field raw : String) : AppError :=
  .parse ("Invalid " ++ field ++ " in fee_stats response: '" ++ raw ++ "'")

/-- A field that is read as a number, if it can be. -/
def parseField {α : Type} (parse : String → Option α) (raw field : String) : Except AppError α :=
  match parse (trimmed raw) with
  | some n => .ok n
  | none => .error (invalidField field raw)

def parseU64Field (raw field : String) : Except AppError ℕ := parseField parseU64 raw field

def parseF64Field (raw field : String) : Except AppError FloatLiteral := parseField parseF64 raw field

/-- `Option::transpose`. -/
def transpose {ε α : Type} : Option (Except ε α) → Except ε (Option α)
  | none => .ok none
  | some (.ok a) => .ok (some a)
  | some (.error e) => .error e

namespace FeeStatsSnapshot

/-- `FeeStatsSnapshot::try_from`. -/
def tryFrom (now : DateTime) (response : FeeStatsResponse) : Except AppError FeeStatsSnapshot := do
  let fee := response.feeCharged
  let ledgerCapacityUsage ← transpose <|
    response.ledgerCapacityUsage.map (parseF64Field · "ledger_capacity_usage")
  let ledger ← parseU64Field response.lastLedger "last_ledger"
  let baseFee ← parseU64Field response.lastLedgerBaseFee "last_ledger_base_fee"
  let minFeeCharged ← parseU64Field fee.min "fee_charged.min"
  let maxFeeCharged ← parseU64Field fee.max "fee_charged.max"
  let modeFeeCharged ← parseU64Field fee.mode "fee_charged.mode"
  let meanFeeCharged ← parseF64Field fee.mean "fee_charged.mean"
  let medianFeeCharged ← parseU64Field fee.median "fee_charged.median"
  let p10FeeCharged ← parseU64Field fee.p10 "fee_charged.p10"
  let p95FeeCharged ← parseU64Field fee.p95 "fee_charged.p95"
  let p99FeeCharged ← parseU64Field fee.p99 "fee_charged.p99"
  let maxFee ← parseU64Field response.maxFee.max "max_fee.max"
  return {
    ledger
    baseFee
    minFeeCharged
    maxFeeCharged
    modeFeeCharged
    meanFeeCharged
    medianFeeCharged
    p10FeeCharged
    p95FeeCharged
    p99FeeCharged
    maxFee
    ledgerCapacityUsage
    timestamp := now }

/-- The numbers of the snapshot are those of the response. -/
structure ReadFrom (response : FeeStatsResponse) (snapshot : FeeStatsSnapshot) : Prop where
  ledgerCapacityUsage : response.ledgerCapacityUsage.map (fun raw => parseF64 (trimmed raw)) =
    snapshot.ledgerCapacityUsage.map some
  ledger : parseU64 (trimmed response.lastLedger) = some snapshot.ledger
  baseFee : parseU64 (trimmed response.lastLedgerBaseFee) = some snapshot.baseFee
  minFeeCharged : parseU64 (trimmed response.feeCharged.min) = some snapshot.minFeeCharged
  maxFeeCharged : parseU64 (trimmed response.feeCharged.max) = some snapshot.maxFeeCharged
  modeFeeCharged : parseU64 (trimmed response.feeCharged.mode) = some snapshot.modeFeeCharged
  meanFeeCharged : parseF64 (trimmed response.feeCharged.mean) = some snapshot.meanFeeCharged
  medianFeeCharged : parseU64 (trimmed response.feeCharged.median) = some snapshot.medianFeeCharged
  p10FeeCharged : parseU64 (trimmed response.feeCharged.p10) = some snapshot.p10FeeCharged
  p95FeeCharged : parseU64 (trimmed response.feeCharged.p95) = some snapshot.p95FeeCharged
  p99FeeCharged : parseU64 (trimmed response.feeCharged.p99) = some snapshot.p99FeeCharged
  maxFee : parseU64 (trimmed response.maxFee.max) = some snapshot.maxFee

theorem parseField_eq_ok_iff {α : Type} {parse : String → Option α} {raw field : String} {n : α} :
    parseField parse raw field = .ok n ↔ parse (trimmed raw) = some n := by
  unfold parseField
  split <;> simp_all

theorem transpose_map_parseField_eq_ok_iff {α : Type} {parse : String → Option α} {field : String}
    {raw : Option String} {n : Option α} :
    transpose (raw.map (parseField parse · field)) = .ok n ↔
      raw.map (fun raw => parse (trimmed raw)) = n.map some := by
  cases raw with
  | none => cases n <;> simp [transpose]
  | some raw =>
    cases hparse : parse (trimmed raw) with
    | none => cases n <;> simp [transpose, parseField, hparse]
    | some m => cases n <;> simp [transpose, parseField, hparse]

/-- A snapshot is made of a response exactly when all its fields are the numbers they must be. -/
theorem tryFrom_eq_ok_iff {now : DateTime} {response : FeeStatsResponse}
    {snapshot : FeeStatsSnapshot} :
    tryFrom now response = .ok snapshot ↔ ReadFrom response snapshot ∧ snapshot.timestamp = now := by
  constructor
  · intro h
    unfold tryFrom at h
    obtain ⟨usage, husage, h⟩ := exists_ok_of_bind h
    obtain ⟨ledger, hledger, h⟩ := exists_ok_of_bind h
    obtain ⟨baseFee, hbaseFee, h⟩ := exists_ok_of_bind h
    obtain ⟨min, hmin, h⟩ := exists_ok_of_bind h
    obtain ⟨max, hmax, h⟩ := exists_ok_of_bind h
    obtain ⟨mode, hmode, h⟩ := exists_ok_of_bind h
    obtain ⟨mean, hmean, h⟩ := exists_ok_of_bind h
    obtain ⟨median, hmedian, h⟩ := exists_ok_of_bind h
    obtain ⟨p10, hp10, h⟩ := exists_ok_of_bind h
    obtain ⟨p95, hp95, h⟩ := exists_ok_of_bind h
    obtain ⟨p99, hp99, h⟩ := exists_ok_of_bind h
    obtain ⟨maxFee, hmaxFee, h⟩ := exists_ok_of_bind h
    obtain rfl := Except.ok.inj h
    exact ⟨⟨transpose_map_parseField_eq_ok_iff.1 husage, parseField_eq_ok_iff.1 hledger,
      parseField_eq_ok_iff.1 hbaseFee, parseField_eq_ok_iff.1 hmin, parseField_eq_ok_iff.1 hmax,
      parseField_eq_ok_iff.1 hmode, parseField_eq_ok_iff.1 hmean, parseField_eq_ok_iff.1 hmedian,
      parseField_eq_ok_iff.1 hp10, parseField_eq_ok_iff.1 hp95, parseField_eq_ok_iff.1 hp99,
      parseField_eq_ok_iff.1 hmaxFee⟩, rfl⟩
  · rintro ⟨h, rfl⟩
    unfold tryFrom parseU64Field parseF64Field
    simp only [transpose_map_parseField_eq_ok_iff.2 h.ledgerCapacityUsage,
      parseField_eq_ok_iff.2 h.ledger, parseField_eq_ok_iff.2 h.baseFee,
      parseField_eq_ok_iff.2 h.minFeeCharged, parseField_eq_ok_iff.2 h.maxFeeCharged,
      parseField_eq_ok_iff.2 h.modeFeeCharged, parseField_eq_ok_iff.2 h.meanFeeCharged,
      parseField_eq_ok_iff.2 h.medianFeeCharged, parseField_eq_ok_iff.2 h.p10FeeCharged,
      parseField_eq_ok_iff.2 h.p95FeeCharged, parseField_eq_ok_iff.2 h.p99FeeCharged,
      parseField_eq_ok_iff.2 h.maxFee]
    rfl

end FeeStatsSnapshot

/-- The texts of the response that a snapshot reads as whole numbers. -/
def FeeStatsResponse.wholeTexts (response : FeeStatsResponse) : List String :=
  let fee := response.feeCharged
  [response.lastLedger, response.lastLedgerBaseFee, fee.min, fee.max, fee.mode, fee.median, fee.p10,
    fee.p95, fee.p99, response.maxFee.max]

/-- The texts that a snapshot reads are numbers. -/
structure FeeStatsResponse.Numeric (response : FeeStatsResponse) : Prop where
  whole : ∀ text ∈ response.wholeTexts, (parseU64 (trimmed text)).isSome
  mean : (parseF64 (trimmed response.feeCharged.mean)).isSome
  ledgerCapacityUsage : ∀ text ∈ response.ledgerCapacityUsage, (parseF64 (trimmed text)).isSome

/-- There is a snapshot of a response exactly when the texts that it reads are numbers. -/
theorem FeeStatsSnapshot.exists_tryFrom_iff {now : DateTime} {response : FeeStatsResponse} :
    (∃ snapshot, tryFrom now response = .ok snapshot) ↔ response.Numeric := by
  constructor
  · rintro ⟨snapshot, hsnapshot⟩
    obtain ⟨h, -⟩ := tryFrom_eq_ok_iff.1 hsnapshot
    refine ⟨?_, Option.isSome_of_eq_some h.meanFeeCharged, fun text htext => ?_⟩
    · simp [FeeStatsResponse.wholeTexts, h.ledger, h.baseFee, h.minFeeCharged, h.maxFeeCharged,
        h.modeFeeCharged, h.medianFeeCharged, h.p10FeeCharged, h.p95FeeCharged, h.p99FeeCharged,
        h.maxFee]
    · have husage := h.ledgerCapacityUsage
      rw [Option.mem_def.1 htext, Option.map_some] at husage
      obtain ⟨usage, -, hvalue⟩ := Option.map_eq_some_iff.1 husage.symm
      exact Option.isSome_of_eq_some hvalue.symm
  · rintro ⟨hwhole, hmean, husage⟩
    simp only [FeeStatsResponse.wholeTexts, List.forall_mem_cons, Option.isSome_iff_exists] at hwhole
    obtain ⟨⟨ledger, hledger⟩, ⟨baseFee, hbaseFee⟩, ⟨min, hmin⟩, ⟨max, hmax⟩, ⟨mode, hmode⟩,
      ⟨median, hmedian⟩, ⟨p10, hp10⟩, ⟨p95, hp95⟩, ⟨p99, hp99⟩, ⟨maxFee, hmaxFee⟩, -⟩ := hwhole
    obtain ⟨mean, hmean⟩ := Option.isSome_iff_exists.1 hmean
    obtain ⟨usage, husage⟩ : ∃ usage : Option FloatLiteral,
        response.ledgerCapacityUsage.map (fun raw => parseF64 (trimmed raw)) = usage.map some := by
      cases hraw : response.ledgerCapacityUsage with
      | none => exact ⟨none, rfl⟩
      | some text =>
        obtain ⟨usage, hvalue⟩ := Option.isSome_iff_exists.1 (husage text hraw)
        exact ⟨some usage, congrArg some hvalue⟩
    exact ⟨⟨ledger, baseFee, min, max, mode, mean, median, p10, p95, p99, maxFee, usage, now⟩,
      tryFrom_eq_ok_iff.2 ⟨⟨husage, hledger, hbaseFee, hmin, hmax, hmode, hmean, hmedian, hp10, hp95,
        hp99, hmaxFee⟩, rfl⟩⟩

/-! ## What the decoders accept -/

/-- The percentiles, from the tenth to the ninety-ninth. -/
def FeeCharged.percentiles (fee : FeeCharged) : List String :=
  [fee.p10, fee.p20, fee.p30, fee.p40, fee.p50, fee.p60, fee.p70, fee.p80, fee.p90, fee.p95, fee.p99]

def FeeChargedStats.percentiles (fee : FeeChargedStats) : List String :=
  [fee.p10, fee.p20, fee.p30, fee.p40, fee.p50, fee.p60, fee.p70, fee.p80, fee.p90, fee.p95, fee.p99]

/-- The fees charged with their mean and median. -/
def FeeCharged.toStats (fee : FeeCharged) (mean median : String) : FeeChargedStats where
  min := fee.min
  max := fee.max
  mode := fee.avg
  mean := mean
  median := median
  p10 := fee.p10
  p20 := fee.p20
  p30 := fee.p30
  p40 := fee.p40
  p50 := fee.p50
  p60 := fee.p60
  p70 := fee.p70
  p80 := fee.p80
  p90 := fee.p90
  p95 := fee.p95
  p99 := fee.p99

/-- Both decoders read the fees charged from an object only. -/
theorem exists_charged {value : Json} {fee : FeeCharged} {full : FeeChargedStats}
    (h : FeeCharged.decode value = some fee) (hfull : FeeChargedStats.decode value = some full) :
    ∃ charged, value = .obj charged := by
  obtain ⟨min, hmin, -⟩ := Option.bind_eq_some_iff.1 h
  obtain ⟨min', hmin', -⟩ := Option.bind_eq_some_iff.1 hfull
  exact exists_fields_of_recordField (by decide) hmin hmin'

/-- An object with the fees charged needs a mean and a median for the scheduler. -/
theorem FeeChargedStats.decode_eq_some_iff {charged : List (String × Json)} {fee : FeeCharged}
    (h : FeeCharged.decode (.obj charged) = some fee) {full : FeeChargedStats} :
    decode (.obj charged) = some full ↔
      ∃ mean, requiredField charged "mean" asStr = some mean ∧
        ∃ median, requiredField charged "median" asStr = some median ∧
          fee.toStats mean median = full := by
  unfold FeeCharged.decode at h
  simp only [recordField_obj] at h
  rw [Option.bind_eq_bind] at h
  simp only [↓Option.bind_eq_some_iff] at h
  obtain ⟨min, hmin, max, hmax, avg, havg, p10, hp10, p20, hp20, p30, hp30, p40, hp40, p50, hp50, p60,
    hp60, p70, hp70, p80, hp80, p90, hp90, p95, hp95, p99, hp99, h⟩ := h
  obtain rfl := Option.some.inj h
  unfold decode
  simp only [recordField_obj]
  rw [Option.bind_eq_bind, hmin, hmax, havg, hp10, hp20, hp30, hp40, hp50, hp60, hp70, hp80, hp90, hp95,
    hp99]
  simp only [↓Option.bind_eq_some_iff, Option.some.injEq, exists_eq_left', Option.pure_def]
  rfl

theorem HorizonFeeStats.decode_eq_some_iff {payload : Json} {stats : HorizonFeeStats} :
    decode payload = some stats ↔
      recordField 2 0 "last_ledger_base_fee" asStr payload = some stats.lastLedgerBaseFee ∧
      recordField 2 1 "fee_charged" FeeCharged.decode payload = some stats.feeCharged := by
  constructor
  · intro h
    obtain ⟨base, hbase, h⟩ := Option.bind_eq_some_iff.1 h
    obtain ⟨fee, hfee, h⟩ := Option.bind_eq_some_iff.1 h
    obtain rfl := Option.some.inj h
    exact ⟨hbase, hfee⟩
  · rintro ⟨hbase, hfee⟩
    unfold decode
    rw [hbase, hfee]
    rfl

theorem FeeStatsResponse.decode_eq_some_iff {payload : Json} {response : FeeStatsResponse} :
    decode payload = some response ↔
      recordField 5 0 "last_ledger" asStr payload = some response.lastLedger ∧
      recordField 5 1 "last_ledger_base_fee" asStr payload = some response.lastLedgerBaseFee ∧
      recordOption 5 2 "ledger_capacity_usage" asStr payload = some response.ledgerCapacityUsage ∧
      recordField 5 3 "fee_charged" FeeChargedStats.decode payload = some response.feeCharged ∧
      recordField 5 4 "max_fee" MaxFeeStats.decode payload = some response.maxFee := by
  constructor
  · intro h
    obtain ⟨ledger, hledger, h⟩ := Option.bind_eq_some_iff.1 h
    obtain ⟨base, hbase, h⟩ := Option.bind_eq_some_iff.1 h
    obtain ⟨usage, husage, h⟩ := Option.bind_eq_some_iff.1 h
    obtain ⟨fee, hfee, h⟩ := Option.bind_eq_some_iff.1 h
    obtain ⟨maxFee, hmaxFee, h⟩ := Option.bind_eq_some_iff.1 h
    obtain rfl := Option.some.inj h
    exact ⟨hledger, hbase, husage, hfee, hmaxFee⟩
  · rintro ⟨hledger, hbase, husage, hfee, hmaxFee⟩
    unfold decode
    rw [hledger, hbase, husage, hfee, hmaxFee]
    rfl

/-- What the scheduler needs beside the fields of the current fees: the ledger, the mean, the median
and the greatest maximal fee are numbers, and so is the capacity usage if it is there. -/
structure CarriesFullStats (fields charged : List (String × Json)) : Prop where
  lastLedger : ∃ raw, requiredField fields "last_ledger" asStr = some raw ∧
    (parseU64 (trimmed raw)).isSome
  ledgerCapacityUsage : ∃ raw, optionalField fields "ledger_capacity_usage" asStr = some raw ∧
    ∀ text ∈ raw, (parseF64 (trimmed text)).isSome
  mean : ∃ raw, requiredField charged "mean" asStr = some raw ∧ (parseF64 (trimmed raw)).isSome
  median : ∃ raw, requiredField charged "median" asStr = some raw ∧ (parseU64 (trimmed raw)).isSome
  maxFee : ∃ fee, requiredField fields "max_fee" MaxFeeStats.decode = some fee ∧
    (parseU64 (trimmed fee.max)).isSome

namespace HorizonFeeStats

/-- The texts that stand for numbers. -/
def numericTexts (stats : HorizonFeeStats) : List String :=
  [stats.lastLedgerBaseFee, stats.feeCharged.min, stats.feeCharged.max, stats.feeCharged.avg] ++
    stats.feeCharged.percentiles

/-- The scheduler makes a snapshot of the payload, with the same base fee and the same percentiles of
the fees charged. -/
def AcceptedInFull (now : DateTime) (payload : Json) (stats : HorizonFeeStats) : Prop :=
  ∃ response snapshot, FeeStatsResponse.decode payload = some response ∧
    FeeStatsSnapshot.tryFrom now response = .ok snapshot ∧
    parseU64 (trimmed stats.lastLedgerBaseFee) = some snapshot.baseFee ∧
    response.feeCharged.percentiles = stats.feeCharged.percentiles ∧
    parseU64 (trimmed stats.feeCharged.p10) = some snapshot.p10FeeCharged ∧
    parseU64 (trimmed stats.feeCharged.p95) = some snapshot.p95FeeCharged ∧
    parseU64 (trimmed stats.feeCharged.p99) = some snapshot.p99FeeCharged

/-- What the scheduler accepts carries what it needs beside the fields of the current fees. -/
theorem carriesFullStats_of_accepted {payload : Json} {stats : HorizonFeeStats}
    (hdecode : decode payload = some stats) {now : DateTime} (h : AcceptedInFull now payload stats) :
    ∃ fields charged, payload = .obj fields ∧ members fields "fee_charged" = [.obj charged] ∧
      CarriesFullStats fields charged := by
  obtain ⟨response, snapshot, hresponse, hsnapshot, -⟩ := h
  have hnumeric := FeeStatsSnapshot.exists_tryFrom_iff.1 ⟨snapshot, hsnapshot⟩
  obtain ⟨hbase, hfee⟩ := HorizonFeeStats.decode_eq_some_iff.1 hdecode
  obtain ⟨hledger, -, husage, hfull, hmaxFee⟩ := FeeStatsResponse.decode_eq_some_iff.1 hresponse
  obtain ⟨fields, rfl⟩ := exists_fields_of_recordField (by decide) hbase hledger
  obtain ⟨member, hmember, hfee⟩ := requiredField_eq_some_iff.1 hfee
  obtain ⟨member', hmember', hfull⟩ := requiredField_eq_some_iff.1 hfull
  obtain rfl : member = member' := List.singleton_injective (hmember.symm.trans hmember')
  obtain ⟨charged, rfl⟩ := exists_charged hfee hfull
  obtain ⟨mean, hmean, median, hmedian, hstats⟩ := (FeeChargedStats.decode_eq_some_iff hfee).1 hfull
  have hmeanRead := hnumeric.mean
  have hmedianRead := hnumeric.whole response.feeCharged.median (by simp [FeeStatsResponse.wholeTexts])
  rw [← hstats] at hmeanRead hmedianRead
  exact ⟨fields, charged, rfl, hmember, {
    lastLedger := ⟨_, hledger, hnumeric.whole _ (by simp [FeeStatsResponse.wholeTexts])⟩
    ledgerCapacityUsage := ⟨_, husage, hnumeric.ledgerCapacityUsage⟩
    mean := ⟨mean, hmean, hmeanRead⟩
    median := ⟨median, hmedian, hmedianRead⟩
    maxFee := ⟨_, hmaxFee, hnumeric.whole _ (by simp [FeeStatsResponse.wholeTexts])⟩ }⟩

/-- Of the answers of Horizon that give the current fees, with texts that can be read as numbers, the
scheduler makes a snapshot with the same fees exactly when the answer and its fees charged are objects
that carry what the scheduler needs beside them. -/
theorem acceptedInFull_iff {payload : Json} {stats : HorizonFeeStats}
    (hdecode : decode payload = some stats)
    (hnumeric : ∀ text ∈ stats.numericTexts, (parseU64 (trimmed text)).isSome) (now : DateTime) :
    AcceptedInFull now payload stats ↔
      ∃ fields charged, payload = .obj fields ∧ members fields "fee_charged" = [.obj charged] ∧
        CarriesFullStats fields charged := by
  refine ⟨carriesFullStats_of_accepted hdecode, ?_⟩
  rintro ⟨fields, charged, rfl, hmember, hcarries⟩
  obtain ⟨hbase, hfee⟩ := HorizonFeeStats.decode_eq_some_iff.1 hdecode
  obtain ⟨member, hmember', hfee⟩ := requiredField_eq_some_iff.1 hfee
  obtain rfl : Json.obj charged = member := List.singleton_injective (hmember.symm.trans hmember')
  obtain ⟨lastLedger, hledger, hledgerRead⟩ := hcarries.lastLedger
  obtain ⟨usage, husage, husageRead⟩ := hcarries.ledgerCapacityUsage
  obtain ⟨mean, hmean, hmeanRead⟩ := hcarries.mean
  obtain ⟨median, hmedian, hmedianRead⟩ := hcarries.median
  obtain ⟨maxFee, hmaxFee, hmaxFeeRead⟩ := hcarries.maxFee
  have hfull := (FeeChargedStats.decode_eq_some_iff hfee).2 ⟨mean, hmean, median, hmedian, rfl⟩
  let response : FeeStatsResponse :=
    { lastLedger
      lastLedgerBaseFee := stats.lastLedgerBaseFee
      ledgerCapacityUsage := usage
      feeCharged := stats.feeCharged.toStats mean median
      maxFee }
  have hresponse : FeeStatsResponse.decode (.obj fields) = some response :=
    FeeStatsResponse.decode_eq_some_iff.2
      ⟨hledger, hbase, husage, requiredField_eq_some_iff.2 ⟨_, hmember, hfull⟩, hmaxFee⟩
  have hwhole : ∀ text ∈ response.wholeTexts, (parseU64 (trimmed text)).isSome := by
    simp only [numericTexts, FeeCharged.percentiles, List.cons_append, List.nil_append,
      List.forall_mem_cons] at hnumeric
    simp [FeeStatsResponse.wholeTexts, response, FeeCharged.toStats, hnumeric, hledgerRead,
      hmedianRead, hmaxFeeRead]
  obtain ⟨snapshot, hsnapshot⟩ : ∃ snapshot, FeeStatsSnapshot.tryFrom now response = .ok snapshot :=
    FeeStatsSnapshot.exists_tryFrom_iff.2 ⟨hwhole, hmeanRead, husageRead⟩
  have hread := (FeeStatsSnapshot.tryFrom_eq_ok_iff.1 hsnapshot).1
  exact ⟨response, snapshot, hresponse, hsnapshot, hread.baseFee, rfl, hread.p10FeeCharged,
    hread.p95FeeCharged, hread.p99FeeCharged⟩

end HorizonFeeStats

/-- The fields of an object of strings. -/
def stringFields (fields : List (String × String)) : List (String × Json) :=
  fields.map fun field => (field.1, .str field.2)

/-- The fees charged in the tests of the decoders. -/
def testFeeCharged : FeeCharged where
  min := "100"
  max := "5000"
  avg := "213"
  p10 := "100"
  p20 := "100"
  p30 := "120"
  p40 := "140"
  p50 := "150"
  p60 := "200"
  p70 := "300"
  p80 := "400"
  p90 := "500"
  p95 := "800"
  p99 := "1200"

/-- The complete answer of these tests. -/
def fullFeeStats : Json := .obj (
  stringFields [("last_ledger", "50000001"), ("last_ledger_base_fee", "100"),
    ("ledger_capacity_usage", "0.97")] ++
  [("fee_charged", .obj (stringFields [("min", "100"), ("max", "5000"), ("mode", "213"),
      ("mean", "250.75"), ("median", "200"), ("p10", "100"), ("p20", "100"), ("p30", "120"),
      ("p40", "140"), ("p50", "150"), ("p60", "200"), ("p70", "300"), ("p80", "400"), ("p90", "500"),
      ("p95", "800"), ("p99", "1200")])),
    ("max_fee", .obj (stringFields [("min", "100"), ("max", "10000"), ("mode", "10000"),
      ("mean", "9876.5"), ("median", "10000")]))])

/-- The answer of the integration tests, without means and medians. -/
def fakeFeeStats : Json :=
  let distribution := [("max", "5000"), ("min", "100"), ("mode", "100"), ("p10", "100"),
    ("p20", "100"), ("p25", "100"), ("p30", "100"), ("p40", "100"), ("p50", "150"), ("p60", "200"),
    ("p70", "250"), ("p75", "300"), ("p80", "350"), ("p90", "500"), ("p95", "800"), ("p99", "1000"),
    ("avg", "213")]
  .obj (stringFields [("last_ledger", "1000"), ("last_ledger_base_fee", "100"),
      ("ledger_usage", "0.1")] ++
    [("fee_charged", .obj (stringFields distribution)), ("max_fee", .obj (stringFields distribution))])

/-- Its fees charged. -/
def fakeFeeCharged : FeeCharged :=
  { testFeeCharged with
    avg := "100"
    p30 := "100"
    p40 := "100"
    p70 := "250"
    p80 := "350"
    p99 := "1000" }

theorem fullFeeStats_acceptedInFull :
    HorizonFeeStats.AcceptedInFull (seconds 1736851620) fullFeeStats ⟨"100", testFeeCharged⟩ := by
  refine (HorizonFeeStats.acceptedInFull_iff (by decide) (by decide) _).2 ?_
  refine ⟨_, _, rfl, rfl, ⟨⟨"50000001", ?_⟩, ⟨some "0.97", ?_⟩, ⟨"250.75", ?_⟩, ⟨"200", ?_⟩,
    ⟨⟨"100", "10000", "10000", "9876.5", "10000"⟩, ?_⟩⟩⟩
  all_goals decide

/-- The current fees are read from the answer of the integration tests, and no snapshot. -/
theorem fakeFeeStats_not_acceptedInFull :
    ∃ stats, HorizonFeeStats.decode fakeFeeStats = some stats ∧
      (∀ text ∈ stats.numericTexts, (parseU64 (trimmed text)).isSome) ∧
      ∀ now, ¬ HorizonFeeStats.AcceptedInFull now fakeFeeStats stats := by
  refine ⟨⟨"100", fakeFeeCharged⟩, by decide, by decide, ?_⟩
  rintro now ⟨response, snapshot, hresponse, -⟩
  have hrejected : FeeStatsResponse.decode fakeFeeStats = none := by decide
  rw [hrejected] at hresponse
  cases hresponse

end StellarFeeTracker
