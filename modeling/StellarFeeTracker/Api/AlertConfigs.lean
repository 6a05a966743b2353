import StellarFeeTracker.Api.Alerts
import StellarFeeTracker.General.Parties

/-!
# The alert configs under any number of requests

Any number of requests on the table of alert configs are open at the same time, and their statements
come in any order.  `Acted` lists what a statement of a request can do, and `ConfigsInv` what every
statement keeps: the rows are those of the create requests that succeeded, and each value in a row was
given by a request that succeeded.
-/

namespace StellarFeeTracker

open Machine Parties

/-! ## Requests in any number -/

/-- The table of alert configs and the largest id that the database has given out for it. -/
structure AlertConfigTable where
  configs : List AlertConfig
  sequence : ℤ

/-- A request on the table. -/
inductive AlertConfigRequest where
  | createAlert (body : CreateAlertRequest)
  | updateAlert (id : ℤ) (body : UpdateAlertRequest)
  | deleteAlert (id : ℤ)
  deriving DecidableEq, Repr

/-- How far a request is. -/
inductive AlertConfigProgress where
  | waiting
  | merged (values : AlertValues)
  | created (response : Except ErrorResponse ℤ)
  | answered (response : Except ErrorResponse ℕ)

structure AlertConfigParty where
  request : AlertConfigRequest
  progress : AlertConfigProgress

/-- A request that has made no statement. -/
def AlertConfigParty.enter (request : AlertConfigRequest) : AlertConfigParty where
  request := request
  progress := .waiting

/-- What the database brings to a statement: an error, if it fails, and its clock. -/
structure SqlAnswer where
  error : Option SqlError
  now : String
  deriving DecidableEq, Repr

/-- The key of an inserted row.  `AUTOINCREMENT` gives no id twice, and none after the largest. -/
def SqlAnswer.inserted (answer : SqlAnswer) (sequence : ℤ) : Except SqlError (ℤ × String) :=
  match answer.error with
  | some err => .error err
  | none =>
    if sequence < 2 ^ 63 - 1 then .ok (sequence + 1, answer.now)
    else .error (.failed
      "error returned from database: (code: 13) database or disk is full")

/-- The rows that `list_alert_configs` returns. -/
def SqlAnswer.listed (answer : SqlAnswer) (configs : List AlertConfig) :
    Except SqlError (List AlertConfig) :=
  match answer.error with
  | some err => .error err
  | none => .ok configs

namespace AlertConfigParty

/-- The next statement of a request; a request that has been answered makes none. -/
def act (table : AlertConfigTable) (party : AlertConfigParty) (answer : SqlAnswer) :
    AlertConfigTable × AlertConfigParty :=
  match party.request, party.progress with
  | .createAlert body, .waiting =>
    let created := createAlert body (answer.inserted table.sequence) table.configs
    ({ configs := created.1
       sequence :=
        match created.2 with
        | .ok id => id
        | .error _ => table.sequence },
      { party with progress := .created created.2 })
  | .updateAlert id body, .waiting =>
    (table, { party with
      progress :=
        match updateAlertMerge id body (answer.listed table.configs) with
        | .ok values => .merged values
        | .error response => .answered (.error response) })
  | .updateAlert id _, .merged values =>
    let written := updateAlertWrite id values answer.error table.configs
    ({ table with configs := written.1 }, { party with progress := .answered written.2 })
  | .deleteAlert id, .waiting =>
    let deleted := StellarFeeTracker.deleteAlert id answer.error table.configs
    ({ table with configs := deleted.1 }, { party with progress := .answered deleted.2 })
  | _, _ => (table, party)

/-- The id and the URL of the row that a create request made. -/
def createdKey (party : AlertConfigParty) : Option (ℤ × String) :=
  match party.request, party.progress with
  | .createAlert body, .created (.ok id) => some (id, body.webhookUrl)
  | _, _ => none

/-- No field. -/
def nothing : UpdateAlertRequest where
  threshold := none
  enabled := none
  alertType := none

/-- The values that a request that succeeded has given to the row with an id. -/
def wrote (party : AlertConfigParty) (id : ℤ) : UpdateAlertRequest :=
  match party.request, party.progress with
  | .createAlert body, .created (.ok id') =>
    if id' = id then
      { threshold := some (body.threshold.getD "Major")
        enabled := some true
        alertType := some (body.alertType.getD "spike") }
    else nothing
  | .updateAlert id' body, .answered (.ok _) => if id' = id then body else nothing
  | .deleteAlert id', .answered (.ok _) =>
    if id' = id then { nothing with enabled := some false } else nothing
  | _, _ => nothing

end AlertConfigParty

/-! ## Rows -/

/-- The values of the columns that requests change. -/
def AlertConfig.values (row : AlertConfig) : AlertValues where
  threshold := row.threshold
  enabled := row.enabled
  alertType := row.alertType

/-- The checks of the handlers on the values that they write. -/
structure AlertValues.Valid (values : AlertValues) : Prop where
  threshold : isValidThreshold values.threshold = true
  alertType : isValidAlertType values.alertType = true

structure AlertConfig.Valid (row : AlertConfig) : Prop where
  values : row.values.Valid
  webhookUrl : isSafeWebhookUrl row.webhookUrl = true

/-- The columns that no request changes. -/
def AlertConfig.key (row : AlertConfig) : ℤ × String × String :=
  (row.id, row.webhookUrl, row.createdAt)

/-- Each of the values was given to the row with the id by a request that succeeded. -/
structure Written (parties : List AlertConfigParty) (id : ℤ) (values : AlertValues) : Prop where
  threshold : ∃ party ∈ parties, (party.wrote id).threshold = some values.threshold
  enabled : ∃ party ∈ parties, (party.wrote id).enabled = some values.enabled
  alertType : ∃ party ∈ parties, (party.wrote id).alertType = some values.alertType

theorem AlertValues.check_eq_ok_iff {values checked : AlertValues} :
    values.check = .ok checked ↔ checked = values ∧ values.Valid := by
  unfold check
  constructor
  · intro h
    split_ifs at h with hthreshold halertType
    obtain rfl := Except.ok.inj h
    exact ⟨rfl, by simpa using hthreshold, by simpa using halertType⟩
  · rintro ⟨rfl, h⟩
    rw [if_neg (by simp [h.threshold]), if_neg (by simp [h.alertType])]

/-- What is written stays written when no request that succeeded is forgotten. -/
theorem Written.mono {parties parties' : List AlertConfigParty} {id : ℤ} {values : AlertValues}
    (h : Written parties id values)
    (hsub : ∀ party ∈ parties, party ∈ parties' ∨ party.wrote id = AlertConfigParty.nothing) :
    Written parties' id values := by
  have hkeep : ∀ {α : Type} {g : UpdateAlertRequest → Option α} {x : α},
      g AlertConfigParty.nothing = none → (∃ party ∈ parties, g (party.wrote id) = some x) →
        ∃ party ∈ parties', g (party.wrote id) = some x := by
    rintro α g x hnothing ⟨party, hparty, hwrote⟩
    rcases hsub party hparty with hparty' | hnone
    · exact ⟨party, hparty', hwrote⟩
    · rw [hnone, hnothing] at hwrote
      cases hwrote
  exact ⟨hkeep (g := (·.threshold)) rfl h.threshold, hkeep (g := (·.enabled)) rfl h.enabled,
    hkeep (g := (·.alertType)) rfl h.alertType⟩

/-- A request that succeeded has written its own values over those that it fetched. -/
theorem Written.merge {parties : List AlertConfigParty} {id : ℤ} {current : AlertConfig}
    (h : Written parties id current.values) {party : AlertConfigParty} (hparty : party ∈ parties)
    {body : UpdateAlertRequest} (hwrote : party.wrote id = body) :
    Written parties id (body.merge current) := by
  have hfield : ∀ {α : Type} {own : Option α} {read : α} {g : UpdateAlertRequest → Option α},
      g body = own → (∃ party ∈ parties, g (party.wrote id) = some read) →
        ∃ party ∈ parties, g (party.wrote id) = some (own.getD read) := by
    rintro α (_ | value) read g hown hread
    · exact hread
    · exact ⟨party, hparty, by rw [hwrote, hown]; rfl⟩
  exact ⟨hfield (g := (·.threshold)) rfl h.threshold, hfield (g := (·.enabled)) rfl h.enabled,
    hfield (g := (·.alertType)) rfl h.alertType⟩

/-! ## What a statement can do -/

/-- The fields of a row with these values. -/
def updatedRow (id : ℤ) (values : AlertValues) (row : AlertConfig) : AlertConfig :=
  if row.id == id then
    { row with threshold := values.threshold, enabled := values.enabled,
               alertType := values.alertType }
  else row

def deletedRow (id : ℤ) (row : AlertConfig) : AlertConfig :=
  if row.id == id then { row with enabled := false } else row

/-- The table and the request after a statement of the request. -/
inductive Acted (table : AlertConfigTable) :
    AlertConfigParty → AlertConfigTable → AlertConfigParty → Prop
  /-- A request that has been answered. -/
  | idle (party : AlertConfigParty) : Acted table party table party
  | rejected (party : AlertConfigParty) (progress : AlertConfigProgress)
      (hopen : ∀ id, party.wrote id = AlertConfigParty.nothing) (hkey : party.createdKey = none)
      (hrejected : (∃ response, progress = .created (.error response)) ∨
        ∃ response, progress = .answered (.error response)) :
      Acted table party table { party with progress }
  | created (body : CreateAlertRequest) (createdAt : String)
      (hvalues : AlertValues.Valid ⟨body.threshold.getD "Major", true, body.alertType.getD "spike"⟩)
      (hurl : isSafeWebhookUrl body.webhookUrl = true) :
      Acted table ⟨.createAlert body, .waiting⟩
        { configs := insertAlertConfigTyped (table.sequence + 1) createdAt body.webhookUrl
            (body.threshold.getD "Major") (body.alertType.getD "spike") table.configs
          sequence := table.sequence + 1 }
        ⟨.createAlert body, .created (.ok (table.sequence + 1))⟩
  | merged (id : ℤ) (body : UpdateAlertRequest) (current : AlertConfig)
      (hcurrent : current ∈ table.configs) (hid : current.id = id)
      (hvalues : (body.merge current).Valid) :
      Acted table ⟨.updateAlert id body, .waiting⟩ table
        ⟨.updateAlert id body, .merged (body.merge current)⟩
  | updated (id : ℤ) (body : UpdateAlertRequest) (values : AlertValues) (status : ℕ) :
      Acted table ⟨.updateAlert id body, .merged values⟩
        { table with configs := table.configs.map (updatedRow id values) }
        ⟨.updateAlert id body, .answered (.ok status)⟩
  | deleted (id : ℤ) (status : ℕ) :
      Acted table ⟨.deleteAlert id, .waiting⟩
        { table with configs := table.configs.map (deletedRow id) }
        ⟨.deleteAlert id, .answered (.ok status)⟩

/-- A create request that is accepted has valid values and an accepted URL. -/
theorem createAlert_ok {body : CreateAlertRequest} {insert : Except SqlError (ℤ × String)}
    {configs : List AlertConfig} {id : ℤ} (h : (createAlert body insert configs).2 = .ok id) :
    AlertValues.Valid ⟨body.threshold.getD "Major", true, body.alertType.getD "spike"⟩ ∧
      isSafeWebhookUrl body.webhookUrl = true ∧ ∃ createdAt, insert = .ok (id, createdAt) ∧
        (createAlert body insert configs).1 = insertAlertConfigTyped id createdAt body.webhookUrl
          (body.threshold.getD "Major") (body.alertType.getD "spike") configs := by
  rcases createAlert_cases body insert configs with
    ⟨response, heq⟩ | ⟨id', createdAt, hinsert, hurl, heq⟩
  · rw [heq] at h
    cases h
  · have hid := h
    rw [heq] at hid
    obtain rfl := Except.ok.inj hid
    refine ⟨?_, hurl, createdAt, hinsert, by rw [heq]⟩
    -- with an invalid value the answer would be an error
    by_contra hvalues
    unfold createAlert at h
    by_cases hthreshold : isValidThreshold (body.threshold.getD "Major") = true
    · by_cases halertType : isValidAlertType (body.alertType.getD "spike") = true
      · exact hvalues ⟨hthreshold, halertType⟩
      · simp [hthreshold, halertType] at h
    · simp [hthreshold] at h

theorem createAlert_error {body : CreateAlertRequest} {insert : Except SqlError (ℤ × String)}
    {configs : List AlertConfig} {response : ErrorResponse}
    (h : (createAlert body insert configs).2 = .error response) :
    (createAlert body insert configs).1 = configs := by
  rcases createAlert_cases body insert configs with ⟨response, heq⟩ | ⟨id, createdAt, -, -, heq⟩
  · rw [heq]
  · rw [heq] at h
    cases h

theorem SqlAnswer.inserted_eq_ok {answer : SqlAnswer} {sequence id : ℤ} {createdAt : String}
    (h : answer.inserted sequence = .ok (id, createdAt)) : id = sequence + 1 := by
  unfold inserted at h
  split at h
  · cases h
  · split_ifs at h
    obtain ⟨rfl, -⟩ := Prod.mk.inj (Except.ok.inj h)
    rfl

theorem SqlAnswer.listed_eq_ok {answer : SqlAnswer} {configs listed : List AlertConfig}
    (h : answer.listed configs = .ok listed) : listed = configs := by
  unfold SqlAnswer.listed at h
  split at h
  · cases h
  · exact (Except.ok.inj h).symm

/-- The statements change no row when none has the id. -/
theorem map_row_of_not_any {id : ℤ} {configs : List AlertConfig}
    (h : (configs.any fun c => c.id == id) = false) {f : AlertConfig → AlertConfig} :
    (configs.map fun c => if c.id == id then f c else c) = configs := by
  rw [List.any_eq_false] at h
  refine (List.map_congr_left fun c hc => ?_).trans (List.map_id' configs)
  rw [if_neg (h c hc)]

/-- The values that a PATCH is going to write are those of a row that it fetched, with its own. -/
theorem updateAlertMerge_listed_ok {id : ℤ} {body : UpdateAlertRequest} {answer : SqlAnswer}
    {configs : List AlertConfig} {values : AlertValues}
    (h : updateAlertMerge id body (answer.listed configs) = .ok values) :
    ∃ current ∈ configs, current.id = id ∧ values = body.merge current ∧
      (body.merge current).Valid := by
  unfold updateAlertMerge at h
  split at h
  · cases h
  · next listed hlisted =>
    obtain rfl := SqlAnswer.listed_eq_ok hlisted
    split at h
    · cases h
    · next current hfind =>
      obtain ⟨rfl, hvalid⟩ := AlertValues.check_eq_ok_iff.1 h
      exact ⟨current, List.mem_of_find?_eq_some hfind, by simpa using List.find?_some hfind, rfl,
        hvalid⟩

theorem AlertConfigParty.act_acted (table : AlertConfigTable) (party : AlertConfigParty)
    (answer : SqlAnswer) :
    Acted table party (party.act table answer).1 (party.act table answer).2 := by
  obtain ⟨request, progress⟩ := party
  cases request with
  | createAlert body =>
    cases progress with
    | waiting =>
      rcases hcreated : createAlert body (answer.inserted table.sequence) table.configs with
        ⟨configs, response | id⟩
      · obtain rfl : configs = table.configs := by
          rw [← createAlert_error (congrArg Prod.snd hcreated), hcreated]
        simp only [act, hcreated]
        exact .rejected _ _ (fun _ => rfl) rfl (.inl ⟨response, rfl⟩)
      · obtain ⟨hvalues, hurl, createdAt, hinsert, hconfigs⟩ :=
          createAlert_ok (congrArg Prod.snd hcreated)
        obtain rfl := SqlAnswer.inserted_eq_ok hinsert
        rw [hcreated] at hconfigs
        simp only [act, hcreated]
        obtain rfl := hconfigs
        exact .created body createdAt hvalues hurl
    | _ => exact .idle _
  | updateAlert id body =>
    cases progress with
    | waiting =>
      simp only [act]
      cases hmerge : updateAlertMerge id body (answer.listed table.configs) with
      | error response => exact .rejected _ _ (fun _ => rfl) rfl (.inr ⟨response, rfl⟩)
      | ok values =>
        obtain ⟨current, hcurrent, hid, rfl, hvalues⟩ := updateAlertMerge_listed_ok hmerge
        exact .merged id body current hcurrent hid hvalues
    | merged values =>
      simp only [act, updateAlertWrite]
      cases answer.error with
      | some err => exact .rejected _ _ (fun _ => rfl) rfl (.inr ⟨err.response, rfl⟩)
      | none =>
        simp only [updateAlertConfigFull]
        cases hany : table.configs.any fun c => c.id == id with
        | false =>
          rw [map_row_of_not_any hany]
          exact .rejected _ _ (fun _ => rfl) rfl (.inr ⟨_, rfl⟩)
        | true => exact .updated id body values 204
    | _ => exact .idle _
  | deleteAlert id =>
    cases progress with
    | waiting =>
      simp only [act, StellarFeeTracker.deleteAlert]
      cases answer.error with
      | some err => exact .rejected _ _ (fun _ => rfl) rfl (.inr ⟨err.response, rfl⟩)
      | none =>
        simp only [deleteAlertConfig]
        cases hany : table.configs.any fun c => c.id == id with
        | false =>
          rw [map_row_of_not_any hany]
          exact .rejected _ _ (fun _ => rfl) rfl (.inr ⟨_, rfl⟩)
        | true => exact .deleted id 204
    | _ => exact .idle _

/-! ## What holds after every schedule -/

structure ConfigsInv (s : System AlertConfigTable AlertConfigParty) : Prop where
  ids : s.shared.configs.map (·.id) =
    (List.range s.shared.configs.length).map fun n : ℕ => (n : ℤ) + 1
  sequence : s.shared.sequence = s.shared.configs.length
  valid : ∀ row ∈ s.shared.configs, row.Valid
  created : (s.parties.filterMap AlertConfigParty.createdKey).Perm
    (s.shared.configs.map fun row => (row.id, row.webhookUrl))
  written : ∀ row ∈ s.shared.configs, Written s.parties row.id row.values
  merged : ∀ id body values, ⟨.updateAlert id body, .merged values⟩ ∈ s.parties →
    values.Valid ∧ ∃ current : AlertConfig, values = body.merge current ∧
      Written s.parties id current.values

section Rows

variable (id : ℤ) (values : AlertValues) (row : AlertConfig)

@[simp] theorem updatedRow_key : (updatedRow id values row).key = row.key := by
  unfold updatedRow
  split_ifs <;> rfl

@[simp] theorem deletedRow_key : (deletedRow id row).key = row.key := by
  unfold deletedRow
  split_ifs <;> rfl

theorem updatedRow_values :
    (updatedRow id values row).values = if row.id = id then values else row.values := by
  unfold updatedRow
  simp only [beq_iff_eq]
  split_ifs <;> rfl

theorem deletedRow_values :
    (deletedRow id row).values =
      if row.id = id then { row.values with enabled := false } else row.values := by
  unfold deletedRow
  simp only [beq_iff_eq]
  split_ifs <;> rfl

end Rows

theorem map_id_of_key {configs : List AlertConfig} {f : AlertConfig → AlertConfig}
    (hf : ∀ row, (f row).key = row.key) :
    (configs.map f).map (·.id) = configs.map (·.id) ∧
      ((configs.map f).map fun row => (row.id, row.webhookUrl)) =
        configs.map fun row => (row.id, row.webhookUrl) := by
  constructor <;> rw [List.map_map] <;> refine List.map_congr_left fun row _ => ?_
  · exact congrArg Prod.fst (hf row)
  · have hkey := hf row
    simp only [AlertConfig.key, Prod.mk.injEq] at hkey
    simp only [Function.comp_apply, hkey.1, hkey.2.1]

namespace ConfigsInv

variable {s : System AlertConfigTable AlertConfigParty} {k : ℕ}
  {party party' : AlertConfigParty} {table' : AlertConfigTable}

/-- A change of the values of rows keeps the invariant. -/
theorem of_map (h : ConfigsInv s) (hk : s.parties[k]? = some party)
    (hopen : ∀ id, party.wrote id = AlertConfigParty.nothing) (hkey : party.createdKey = none)
    (hkey' : party'.createdKey = none) {f : AlertConfig → AlertConfig}
    (hf : ∀ row, (f row).key = row.key)
    (hvalid : ∀ row ∈ s.shared.configs, (f row).values.Valid)
    (hwritten : ∀ row ∈ s.shared.configs,
      Written (s.parties.set k party') row.id (f row).values)
    (hmerged : ∀ id body values, party' = ⟨.updateAlert id body, .merged values⟩ →
      values.Valid ∧ ∃ current : AlertConfig, values = body.merge current ∧
        Written (s.parties.set k party') id current.values) :
    ConfigsInv ⟨{ s.shared with configs := s.shared.configs.map f }, s.parties.set k party'⟩ where
  ids := by
    rw [(map_id_of_key hf).1, List.length_map]
    exact h.ids
  sequence := by
    rw [List.length_map]
    exact h.sequence
  valid := by
    rw [List.forall_mem_map]
    intro row hrow
    have hurl := congrArg (fun key => key.2.1) (hf row)
    simp only [AlertConfig.key] at hurl
    exact ⟨hvalid row hrow, by rw [hurl]; exact (h.valid row hrow).webhookUrl⟩
  created := by
    rw [(map_id_of_key hf).2, filterMap_set hk (hkey'.trans hkey.symm)]
    exact h.created
  written := by
    rw [List.forall_mem_map]
    intro row hrow
    have hid := congrArg Prod.fst (hf row)
    simp only [AlertConfig.key] at hid
    rw [hid]
    exact hwritten row hrow
  merged := by
    intro id body values hmem
    rcases List.mem_or_eq_of_mem_set hmem with hold | hnew
    · obtain ⟨hvalues, current, hmerge, hcurrent⟩ := h.merged id body values hold
      refine ⟨hvalues, current, hmerge, hcurrent.mono fun other hother => ?_⟩
      exact (mem_set_or_eq hk party' hother).imp_right fun heq => by rw [heq, hopen]
    · exact hmerged id body values hnew.symm

/-- An act keeps the invariant. -/
theorem acted (h : ConfigsInv s) (hk : s.parties[k]? = some party)
    (hacted : Acted s.shared party table' party') :
    ConfigsInv ⟨table', s.parties.set k party'⟩ := by
  have hmono : (∀ id, party.wrote id = AlertConfigParty.nothing) → ∀ {id values},
      Written s.parties id values → Written (s.parties.set k party') id values :=
    fun hopen id values hwritten => hwritten.mono fun other hother =>
      (mem_set_or_eq hk party' hother).imp_right fun heq => by rw [heq, hopen]
  have hself : party' ∈ s.parties.set k party' := mem_set_self hk party'
  cases hacted with
  | idle =>
    rw [set_of_getElem? hk]
    exact h
  | rejected _ progress hopen hkey hrejected =>
    have hkey' : AlertConfigParty.createdKey { party with progress } = none := by
      rcases hrejected with ⟨response, rfl⟩ | ⟨response, rfl⟩ <;> cases party.request <;> rfl
    have hsame := h.of_map hk hopen hkey hkey' (f := id) (fun _ => rfl)
      (fun row hrow => (h.valid row hrow).values)
      (fun row hrow => hmono hopen (h.written row hrow))
      (fun id body values heq => by
        rcases hrejected with ⟨response, rfl⟩ | ⟨response, rfl⟩ <;>
          cases congrArg AlertConfigParty.progress heq)
    rwa [List.map_id] at hsame
  | created body createdAt hvalues hurl =>
    have hwrites : (⟨.createAlert body, .created (.ok (s.shared.sequence + 1))⟩ :
        AlertConfigParty).wrote (s.shared.sequence + 1) =
          { threshold := some (body.threshold.getD "Major")
            enabled := some true
            alertType := some (body.alertType.getD "spike") } := if_pos rfl
    have hopen : ∀ id, (⟨.createAlert body, .waiting⟩ : AlertConfigParty).wrote id =
      AlertConfigParty.nothing := fun _ => rfl
    exact {
      ids := by
        rw [insertAlertConfigTyped, List.map_append, h.ids, List.length_append,
          List.length_singleton, List.range_succ, List.map_append, h.sequence]
        rfl
      sequence := by
        rw [insertAlertConfigTyped, List.length_append, List.length_singleton, h.sequence]
        push_cast
        rfl
      valid := by
        intro row hrow
        rcases List.mem_append.1 hrow with hold | hnew
        · exact h.valid row hold
        · rw [List.mem_singleton.1 hnew]
          exact ⟨hvalues, hurl⟩
      created := by
        have hadded := filterMap_set_perm (f := AlertConfigParty.createdKey)
          (b := ⟨.createAlert body, .created (.ok (s.shared.sequence + 1))⟩) hk rfl rfl
        rw [insertAlertConfigTyped, List.map_append]
        exact (hadded.trans (h.created.cons _)).trans (List.perm_append_singleton _ _).symm
      written := by
        intro row hrow
        rcases List.mem_append.1 hrow with hold | hnew
        · exact hmono hopen (h.written row hold)
        · obtain rfl := List.mem_singleton.1 hnew
          exact ⟨⟨_, hself, congrArg _ hwrites⟩, ⟨_, hself, congrArg _ hwrites⟩,
            ⟨_, hself, congrArg _ hwrites⟩⟩
      merged := by
        intro id other values hmem
        rcases List.mem_or_eq_of_mem_set hmem with hold | hnew
        · obtain ⟨hvalid, current, hmerge, hcurrent⟩ := h.merged id other values hold
          exact ⟨hvalid, current, hmerge, hmono hopen hcurrent⟩
        · cases congrArg AlertConfigParty.request hnew }
  | merged id body current hcurrent hid hvalues =>
    have hopen : ∀ id', (⟨.updateAlert id body, .waiting⟩ : AlertConfigParty).wrote id' =
      AlertConfigParty.nothing := fun _ => rfl
    have hkey' : AlertConfigParty.createdKey
      ⟨.updateAlert id body, .merged (body.merge current)⟩ = none := rfl
    have hsame := h.of_map hk hopen rfl hkey' (f := fun row => row) (fun _ => rfl)
      (fun row hrow => (h.valid row hrow).values)
      (fun row hrow => hmono hopen (h.written row hrow))
      (fun id' body' values heq => by
        obtain ⟨hrequest, hprogress⟩ := AlertConfigParty.mk.inj heq
        obtain ⟨rfl, rfl⟩ := AlertConfigRequest.updateAlert.inj hrequest
        obtain rfl := AlertConfigProgress.merged.inj hprogress
        have hwritten := hmono hopen (h.written current hcurrent)
        rw [hid] at hwritten
        exact ⟨hvalues, current, rfl, hwritten⟩)
    rwa [List.map_id'] at hsame
  | updated id body values status =>
    obtain ⟨hvalues, current, rfl, hcurrent⟩ := h.merged id body values (List.mem_of_getElem? hk)
    have hopen : ∀ id', (⟨.updateAlert id body, .merged (body.merge current)⟩ :
      AlertConfigParty).wrote id' = AlertConfigParty.nothing := fun _ => rfl
    have hwrites : (⟨.updateAlert id body, .answered (.ok status)⟩ : AlertConfigParty).wrote id =
      body := if_pos rfl
    -- a value is the request's own, or that of the row that it fetched
    have hmerge := (hmono hopen hcurrent).merge hself hwrites
    refine h.of_map hk hopen rfl rfl (updatedRow_key _ _) (fun row hrow => ?_) (fun row hrow => ?_)
      fun _ _ _ heq => by cases congrArg AlertConfigParty.progress heq
    · rw [updatedRow_values]
      split_ifs
      · exact hvalues
      · exact (h.valid row hrow).values
    · rw [updatedRow_values]
      split_ifs with hid
      · rw [hid]
        exact hmerge
      · exact hmono hopen (h.written row hrow)
  | deleted id status =>
    have hopen : ∀ id', (⟨.deleteAlert id, .waiting⟩ : AlertConfigParty).wrote id' =
      AlertConfigParty.nothing := fun _ => rfl
    have hwrites : (⟨.deleteAlert id, .answered (.ok status)⟩ : AlertConfigParty).wrote id =
      { AlertConfigParty.nothing with enabled := some false } := if_pos rfl
    refine h.of_map hk hopen rfl rfl (deletedRow_key _) (fun row hrow => ?_) (fun row hrow => ?_)
      fun _ _ _ heq => by cases congrArg AlertConfigParty.progress heq
    · have hvalues := (h.valid row hrow).values
      rw [deletedRow_values]
      split_ifs
      · exact ⟨hvalues.threshold, hvalues.alertType⟩
      · exact hvalues
    · have hwritten := hmono hopen (h.written row hrow)
      rw [deletedRow_values]
      split_ifs with hid
      · rw [hid] at hwritten ⊢
        exact ⟨hwritten.threshold, ⟨_, hself, congrArg _ hwrites⟩, hwritten.alertType⟩
      · exact hwritten

theorem enter (h : ConfigsInv s) (request : AlertConfigRequest) :
    ConfigsInv { s with parties := s.parties ++ [.enter request] } where
  ids := h.ids
  sequence := h.sequence
  valid := h.valid
  created := by
    have hnone : AlertConfigParty.createdKey (.enter request) = none := by cases request <;> rfl
    rw [List.filterMap_append, List.filterMap_cons_none hnone, List.filterMap_nil, List.append_nil]
    exact h.created
  written := fun row hrow => (h.written row hrow).mono fun _ hparty =>
    .inl (List.mem_append_left _ hparty)
  merged := by
    intro id body values hmem
    rcases List.mem_append.1 hmem with hold | hnew
    · obtain ⟨hvalues, current, hmerge, hcurrent⟩ := h.merged id body values hold
      exact ⟨hvalues, current, hmerge, hcurrent.mono fun _ hparty =>
        .inl (List.mem_append_left _ hparty)⟩
    · cases congrArg AlertConfigParty.progress (List.mem_singleton.1 hnew)

theorem le_sequence (h : ConfigsInv s) {row : AlertConfig} (hrow : row ∈ s.shared.configs) :
    row.id ≤ s.shared.sequence := by
  have hid := List.mem_map_of_mem (f := (·.id)) hrow
  rw [h.ids, List.mem_map] at hid
  obtain ⟨n, hn, hid⟩ := hid
  rw [List.mem_range] at hn
  rw [h.sequence, ← hid]
  omega

/-- A row is the one with its id. -/
theorem eq_of_id (h : ConfigsInv s) {row row' : AlertConfig} (hrow : row ∈ s.shared.configs)
    (hrow' : row' ∈ s.shared.configs) (hid : row.id = row'.id) : row = row' := by
  have hnodup : (s.shared.configs.map (·.id)).Nodup := by
    rw [h.ids]
    exact List.nodup_range.map fun m n (hmn : (m : ℤ) + 1 = n + 1) => by omega
  exact List.inj_on_of_nodup_map hnodup hrow hrow' hid

end ConfigsInv

end StellarFeeTracker
