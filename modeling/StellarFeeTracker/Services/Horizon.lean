import StellarFeeTracker.Insights.HorizonAdapter

/-!
# Transactions of an account

The account endpoint reads the answer of Horizon as a dynamic value and keeps the records whose
fields it can read.  It reads the ledger from a string, where the adapter of the poller wants a
number, so it loses every record that the adapter accepts (`decoders_disagree`).
-/

namespace StellarFeeTracker

/-- The errors of the application that the modelled code makes. -/
inductive AppError where
  | config (message : String)
  | network (message : String)
  | parse (message : String)
  deriving DecidableEq, Repr

/-- The point of a record and whether the transaction was successful. -/
def accountTransactionRecord (text : Rfc3339) (r : Json) : Option (FeeDataPoint × Bool) := do
  let hash ← (r.get "hash").asStr
  let feeCharged ← parseU64 (← (r.get "fee_charged").asStr)
  let ledger ← parseU64 (← (r.get "ledger").asStr)
  let createdAt ← (r.get "created_at").asStr
  let successful ← (r.get "successful").asBool
  let timestamp ← text.parseFromRfc3339 createdAt
  return (
    { feeAmount := feeCharged
      timestamp
      transactionHash := hash
      ledgerSequence := ledger },
    successful)

/-- `fetch_account_transaction_records`, on the body of Horizon's answer. -/
def accountTransactionRecords (text : Rfc3339) (body : Json) :
    Except AppError (List (FeeDataPoint × Bool)) :=
  match ((body.get "_embedded").get "records").asArray with
  | some records => .ok (records.filterMap (accountTransactionRecord text))
  | none => .error (.parse "Missing _embedded.records in response")

/-! ## The two decoders -/

variable (text : Rfc3339)

/-- The point that the adapter makes of a record. -/
def adapterPoint (r : Json) : Option FeeDataPoint := do
  (← HorizonTransactionRecord.decode r).convertToFeeDataPoint text

/-- The account endpoint decodes a record to this point. -/
def DecodedTo (r : Json) (point : FeeDataPoint) : Prop :=
  (accountTransactionRecord text r).map (·.1) = some point

/-- A record that the adapter decodes is lost by the account endpoint. -/
theorem accountTransactionRecord_of_decode {r : Json} {record : HorizonTransactionRecord}
    (h : HorizonTransactionRecord.decode r = some record) : accountTransactionRecord text r = none := by
  have hledger : (r.get "ledger").asStr = none := by
    cases r with
    | obj fields =>
      exact Json.asStr_of_asUnsigned (HorizonTransactionRecord.asUnsigned_ledger_of_decode h)
    | _ => rfl
  by_contra hsome
  obtain ⟨point, hpoint⟩ := Option.ne_none_iff_exists'.1 hsome
  simp only [accountTransactionRecord, bind, Option.bind_eq_some_iff] at hpoint
  obtain ⟨hash, -, feeText, -, fee, -, ledgerText, hledgerText, -⟩ := hpoint
  rw [hledger] at hledgerText
  cases hledgerText

variable {text} in
/-- No record that the adapter makes a point of is decoded to this point by the account endpoint. -/
theorem decoders_disagree {r : Json} {point : FeeDataPoint} (h : adapterPoint text r = some point) :
    ¬ DecodedTo text r point := by
  intro hsame
  obtain ⟨record, hdecode, -⟩ := Option.bind_eq_some_iff.1 h
  rw [DecodedTo, accountTransactionRecord_of_decode text hdecode] at hsame
  cases hsame

/-- A transaction as Horizon lists it. -/
def horizonTransaction : Json :=
  .obj [("hash", .str "tx1"), ("ledger", .num (.posInt 50000001)),
    ("created_at", .str "2025-01-14T10:47:00+00:00"), ("fee_charged", .str "100"),
    ("successful", .bool true)]

/-- The point of this transaction. -/
def horizonPoint : FeeDataPoint where
  feeAmount := 100
  timestamp := seconds 1736851620
  transactionHash := "tx1"
  ledgerSequence := 50000001

theorem decoders_disagree_horizonTransaction :
    ¬ DecodedTo exampleText horizonTransaction horizonPoint :=
  decoders_disagree (by decide)

/-- The adapter makes a point of it; the account endpoint drops it, since its ledger is a number. -/
theorem horizon_transaction_lost :
    adapterPoint exampleText horizonTransaction = some horizonPoint ∧
      accountTransactionRecord exampleText horizonTransaction = none := by
  decide

end StellarFeeTracker
