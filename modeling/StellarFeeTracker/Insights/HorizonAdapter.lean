import StellarFeeTracker.General.Json
import StellarFeeTracker.Insights.Types
import StellarFeeTracker.Numeric

/-!
# Horizon transactions as fee data

The adapter decodes the answer of Horizon into records and converts those of successful transactions
into fee points.  A record that cannot be converted is logged and left out.
-/

namespace StellarFeeTracker

/-- A transaction of Horizon's answer. -/
structure HorizonTransactionRecord where
  hash : String
  ledger : ℕ
  createdAt : String
  feeCharged : String
  successful : Bool
  deriving DecidableEq, Repr

namespace HorizonTransactionRecord

/-- The derived `Deserialize`: from an object, or from the array of the fields in their order. -/
def decode : Json → Option HorizonTransactionRecord
  | .obj fields => do
    let hash ← Json.requiredField fields "hash" Json.asStr
    let ledger ← Json.requiredField fields "ledger" Json.asUnsigned
    let createdAt ← Json.requiredField fields "created_at" Json.asStr
    let feeCharged ← Json.requiredField fields "fee_charged" Json.asStr
    let successful ← Json.requiredField fields "successful" Json.asBool
    return { hash, ledger, createdAt, feeCharged, successful }
  | .arr [hash, ledger, createdAt, feeCharged, successful] => do
    let hash ← hash.asStr
    let ledger ← ledger.asUnsigned
    let createdAt ← createdAt.asStr
    let feeCharged ← feeCharged.asStr
    let successful ← successful.asBool
    return { hash, ledger, createdAt, feeCharged, successful }
  | _ => none

/-- Convert a record to a fee point, if the transaction was successful and the fee and the time can
be read. -/
def convertToFeeDataPoint (text : Rfc3339) (record : HorizonTransactionRecord) :
    Option FeeDataPoint := do
  guard record.successful
  let feeAmount ← parseU64 record.feeCharged
  let timestamp ← text.parseFromRfc3339 record.createdAt
  return {
    feeAmount
    timestamp
    transactionHash := record.hash
    ledgerSequence := record.ledger }

/-- An object that decodes has a number for its ledger. -/
theorem asUnsigned_ledger_of_decode {fields : List (String × Json)}
    {record : HorizonTransactionRecord} (h : decode (.obj fields) = some record) :
    ((Json.obj fields).get "ledger").asUnsigned = some record.ledger := by
  unfold decode at h
  simp only [bind, Option.bind_eq_some_iff] at h
  obtain ⟨hash, -, ledger, hledger, createdAt, -, feeCharged, -, successful, -, hrecord⟩ := h
  obtain rfl := Option.some.inj hrecord
  exact Json.get_of_requiredField hledger

end HorizonTransactionRecord

/-- The records of Horizon's answer: each must decode. -/
def decodeTransactionResponse : Json → Option (List HorizonTransactionRecord)
  | .obj fields => Json.requiredField fields "_embedded" decodeEmbedded
  | .arr [embedded] => decodeEmbedded embedded
  | _ => none
where
  decodeRecords (value : Json) : Option (List HorizonTransactionRecord) := do
    (← value.asArray).mapM HorizonTransactionRecord.decode
  decodeEmbedded : Json → Option (List HorizonTransactionRecord)
    | .obj fields => Json.requiredField fields "records" decodeRecords
    | .arr [records] => decodeRecords records
    | _ => none

end StellarFeeTracker
