import StellarFeeTracker.Api.WebhookUrl
import StellarFeeTracker.Repository

/-!
# Endpoints for alert webhook configurations

The table of alert configs holds its rows in the order of their ids.  `update_alert` makes two
statements on it: it fetches the row, and writes the merged row back.  The URL of a row is written by
`create_alert` only, and only once it was accepted (`createAlert_cases`).
-/

namespace StellarFeeTracker

/-! ## Request and response shapes -/

structure CreateAlertRequest where
  webhookUrl : String
  threshold : Option String
  alertType : Option String
  deriving DecidableEq, Repr

structure UpdateAlertRequest where
  threshold : Option String
  enabled : Option Bool
  alertType : Option String
  deriving DecidableEq, Repr

/-- An error answer: the status and the text under `error` in its body. -/
structure ErrorResponse where
  status : ℕ
  error : String
  deriving DecidableEq, Repr

/-- The answer of a request that ended with a database error. -/
def SqlError.response : SqlError → ErrorResponse
  | failed message => { status := 500, error := message }

def alertConfigNotFound : ErrorResponse where
  status := 404
  error := "Alert config not found"

/-! ## Helpers -/

def isValidThreshold (t : String) : Bool := validThresholds.contains t

def isValidAlertType (t : String) : Bool := validAlertTypes.contains t

def invalidThreshold (threshold : String) : ErrorResponse where
  status := 400
  error := "Invalid threshold '" ++ threshold ++ "'. Must be one of: " ++
    ", ".intercalate validThresholds

def invalidAlertType (alertType : String) : ErrorResponse where
  status := 400
  error := "Invalid alert_type '" ++ alertType ++ "'. Must be one of: " ++
    ", ".intercalate validAlertTypes

def invalidWebhookUrl : ErrorResponse where
  status := 400
  error := "Invalid webhook_url: must be an HTTPS URL with a public hostname"

/-! ## Handlers -/

/-- `POST /alerts/config`: the table and the id of the new row.  The database gives the row its id and
its time, or fails. -/
def createAlert (body : CreateAlertRequest) (insert : Except SqlError (ℤ × String))
    (configs : List AlertConfig) : List AlertConfig × Except ErrorResponse ℤ :=
  let threshold := body.threshold.getD "Major"
  let alertType := body.alertType.getD "spike"
  if !isValidThreshold threshold then (configs, .error (invalidThreshold threshold))
  else if !isValidAlertType alertType then (configs, .error (invalidAlertType alertType))
  else if !isSafeWebhookUrl body.webhookUrl then (configs, .error invalidWebhookUrl)
  else
    match insert with
    | .error err => (configs, .error err.response)
    | .ok (id, createdAt) =>
      (insertAlertConfigTyped id createdAt body.webhookUrl threshold alertType configs, .ok id)

/-- The columns that `update_alert` writes. -/
structure AlertValues where
  threshold : String
  enabled : Bool
  alertType : String
  deriving DecidableEq, Repr

/-- The values of a row with the fields of the request in place of its own. -/
def UpdateAlertRequest.merge (body : UpdateAlertRequest) (current : AlertConfig) : AlertValues where
  threshold := body.threshold.getD current.threshold
  enabled := body.enabled.getD current.enabled
  alertType := body.alertType.getD current.alertType

/-- The checks of `update_alert` on the values that it is going to write. -/
def AlertValues.check (values : AlertValues) : Except ErrorResponse AlertValues :=
  if !isValidThreshold values.threshold then .error (invalidThreshold values.threshold)
  else if !isValidAlertType values.alertType then .error (invalidAlertType values.alertType)
  else .ok values

/-- `update_alert` up to its write: the values to write, from the answer of `list_alert_configs`. -/
def updateAlertMerge (id : ℤ) (body : UpdateAlertRequest)
    (listAlertConfigs : Except SqlError (List AlertConfig)) : Except ErrorResponse AlertValues :=
  match listAlertConfigs with
  | .error err => .error err.response
  | .ok configs =>
    match configs.find? fun c => c.id == id with
    | none => .error alertConfigNotFound
    | some current => (body.merge current).check

/-- The answer to the write of a row: no content, or that there is no such row. -/
def writtenResponse (updated : Bool) : Except ErrorResponse ℕ :=
  if updated then .ok 204 else .error alertConfigNotFound

/-- The write of `update_alert`: the table and the answer. -/
def updateAlertWrite (id : ℤ) (values : AlertValues) (updateError : Option SqlError)
    (configs : List AlertConfig) : List AlertConfig × Except ErrorResponse ℕ :=
  match updateError with
  | some err => (configs, .error err.response)
  | none =>
    let written := updateAlertConfigFull id values.threshold values.enabled values.alertType configs
    (written.1, writtenResponse written.2)

/-- `PATCH /alerts/config/:id`, when nothing comes between its statements. -/
def updateAlert (id : ℤ) (body : UpdateAlertRequest)
    (listAlertConfigs : Except SqlError (List AlertConfig)) (updateError : Option SqlError)
    (configs : List AlertConfig) : List AlertConfig × Except ErrorResponse ℕ :=
  match updateAlertMerge id body listAlertConfigs with
  | .error response => (configs, .error response)
  | .ok values => updateAlertWrite id values updateError configs

/-- `DELETE /alerts/config/:id`, which disables the row. -/
def deleteAlert (id : ℤ) (deleteError : Option SqlError) (configs : List AlertConfig) :
    List AlertConfig × Except ErrorResponse ℕ :=
  match deleteError with
  | some err => (configs, .error err.response)
  | none =>
    let deleted := deleteAlertConfig id configs
    (deleted.1, writtenResponse deleted.2)

/-! ## What `create_alert` does -/

/-- `create_alert` adds a row with an accepted URL or leaves the table as it is. -/
theorem createAlert_cases (body : CreateAlertRequest) (insert : Except SqlError (ℤ × String))
    (configs : List AlertConfig) :
    (∃ response, createAlert body insert configs = (configs, .error response)) ∨
      ∃ id createdAt, insert = .ok (id, createdAt) ∧ isSafeWebhookUrl body.webhookUrl = true ∧
        createAlert body insert configs =
          (insertAlertConfigTyped id createdAt body.webhookUrl (body.threshold.getD "Major")
            (body.alertType.getD "spike") configs, .ok id) := by
  unfold createAlert
  by_cases hthreshold : isValidThreshold (body.threshold.getD "Major") = true
  · by_cases halertType : isValidAlertType (body.alertType.getD "spike") = true
    · by_cases hurl : isSafeWebhookUrl body.webhookUrl = true
      · simp only [hthreshold, halertType, hurl, Bool.not_true, Bool.false_eq_true, if_false]
        rcases insert with err | ⟨id, createdAt⟩
        · exact Or.inl ⟨_, rfl⟩
        · exact Or.inr ⟨id, createdAt, rfl, trivial, rfl⟩
      · exact Or.inl ⟨invalidWebhookUrl, by simp [hthreshold, halertType, hurl]⟩
    · exact Or.inl ⟨_, by simp only [hthreshold, halertType]; rfl⟩
  · exact Or.inl ⟨_, by simp only [hthreshold]; rfl⟩

end StellarFeeTracker
