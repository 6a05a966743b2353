import StellarFeeTracker.Api.Alerts
import StellarFeeTracker.General.Interleaving
import Mathlib.Data.Bool.Basic
import Mathlib.Logic.Function.Basic

/-!
# Two requests on one alert config

The statements of two requests on a row may come in any order that keeps the order of each.  A PATCH
writes all columns of the row that it fetched, so a change that is written between its fetch and its
write is lost, unless the row had the values already (`noLostUpdate_iff`).
-/

namespace StellarFeeTracker

open Interleaving

/-! ## Requests and their statements -/

/-- A request on one row. -/
inductive AlertRequest where
  | updateAlert (body : UpdateAlertRequest)
  | deleteAlert
  deriving DecidableEq, Repr

/-- A statement on the table of alert configs. -/
inductive DbStep where
  | fetch
  | update
  deriving DecidableEq, Repr

/-- How far a request is. -/
inductive Progress where
  | waiting
  | merged (values : AlertValues)
  | answered (response : Except ErrorResponse ℕ)

/-- The fields that a request can change. -/
inductive AlertField where
  | threshold
  | enabled
  | alertType
  deriving DecidableEq, Repr

namespace AlertRequest

/-- The statements of a request, in order. -/
def dbSteps : AlertRequest → List DbStep
  | updateAlert _ => [.fetch, .update]
  | deleteAlert => [.update]

/-- The values that a request gives to fields. -/
def changes : AlertRequest → UpdateAlertRequest
  | updateAlert body => body
  | deleteAlert => { threshold := none, enabled := some false, alertType := none }

/-- The fields that a request touches. -/
def touches (request : AlertRequest) : AlertField → Bool
  | .threshold => request.changes.threshold.isSome
  | .enabled => request.changes.enabled.isSome
  | .alertType => request.changes.alertType.isSome

end AlertRequest

/-- A row with these values. -/
def AlertConfig.withValues (row : AlertConfig) (values : AlertValues) : AlertConfig :=
  { row with
    threshold := values.threshold
    enabled := values.enabled
    alertType := values.alertType }

namespace AlertRequest

/-- The change that a request makes to a row. -/
def apply (request : AlertRequest) (row : AlertConfig) : AlertConfig :=
  row.withValues (request.changes.merge row)

/-- The request is accepted when it fetches this row. -/
def Accepted : AlertRequest → AlertConfig → Prop
  | updateAlert body, row =>
    isValidThreshold (body.merge row).threshold = true ∧
      isValidAlertType (body.merge row).alertType = true
  | deleteAlert, _ => True

instance (request : AlertRequest) (row : AlertConfig) : Decidable (request.Accepted row) := by
  cases request
  · unfold Accepted
    infer_instance
  · exact .isTrue trivial

end AlertRequest

/-! ## Sessions of two requests -/

/-- The table of alert configs and how far each of two requests is. -/
structure AlertSession where
  configs : List AlertConfig
  progress : Bool → Progress

namespace AlertSession

variable (id : ℤ) (requests : Bool → AlertRequest)

/-- One statement of one of the requests; a request that has been answered makes none. -/
def step (s : AlertSession) (move : Bool × DbStep) : AlertSession :=
  match requests move.1, move.2, s.progress move.1 with
  | .updateAlert body, .fetch, .waiting =>
    { s with
      progress := Function.update s.progress move.1
        (match updateAlertMerge id body (.ok s.configs) with
        | .ok values => .merged values
        | .error response => .answered (.error response)) }
  | .updateAlert _, .update, .merged values =>
    let written := updateAlertWrite id values none s.configs
    { configs := written.1, progress := Function.update s.progress move.1 (.answered written.2) }
  | .deleteAlert, .update, .waiting =>
    let deleted := StellarFeeTracker.deleteAlert id none s.configs
    { configs := deleted.1, progress := Function.update s.progress move.1 (.answered deleted.2) }
  | _, _, _ => s

/-- The session after a schedule of statements. -/
def run (configs : List AlertConfig) (schedule : List (Bool × DbStep)) : AlertSession :=
  schedule.foldl (step id requests) { configs, progress := fun _ => .waiting }

/-- The row is there, with the changes of each request that was answered with no content. -/
def NoLostUpdate (s : AlertSession) : Prop :=
  ∃ row, s.configs.find? (fun c => c.id == id) = some row ∧
    ∀ who, s.progress who = .answered (.ok 204) → (requests who).apply row = row

end AlertSession

/-- A schedule of the statements of both requests, in the order of each. -/
def IsSchedule (requests : Bool → AlertRequest) (schedule : List (Bool × DbStep)) : Prop :=
  ∀ who, schedule.filter (fun move => move.1 == who) = (requests who).dbSteps.map (who, ·)

/-- No field is touched by both requests. -/
def DisjointFields (requests : Bool → AlertRequest) : Prop :=
  ∀ field, ¬ ((requests false).touches field = true ∧ (requests true).touches field = true)

/-! ## The row of a session -/

/-- A change of the rows with an id changes the row that is found under it. -/
theorem find?_map_row (id : ℤ) {f : AlertConfig → AlertConfig} (hf : ∀ c, (f c).id = c.id)
    (configs : List AlertConfig) :
    (configs.map fun c => if c.id == id then f c else c).find? (fun c => c.id == id) =
      (configs.find? fun c => c.id == id).map f := by
  rw [List.find?_map]
  have hsame : ((fun c : AlertConfig => c.id == id) ∘ fun c => if c.id == id then f c else c) =
      fun c => c.id == id := by
    funext c
    simp only [Function.comp_apply]
    split_ifs with h
    · rw [hf]
    · rfl
  rw [hsame]
  cases hfind : configs.find? fun c => c.id == id with
  | none => rfl
  | some row =>
    have hid := List.find?_some hfind
    rw [Option.map_some, Option.map_some, if_pos hid]

theorem any_of_find? {id : ℤ} {configs : List AlertConfig} {row : AlertConfig}
    (h : configs.find? (fun c => c.id == id) = some row) :
    (configs.any fun c => c.id == id) = true := by
  have hid := List.find?_some h
  exact List.any_eq_true.2 ⟨row, List.mem_of_find?_eq_some h, hid⟩

namespace AlertSession

variable (requests : Bool → AlertRequest)

/-- What a fetch of the row leads to. -/
def fetched (body : UpdateAlertRequest) (row : AlertConfig) : Progress :=
  match (body.merge row).check with
  | .ok values => .merged values
  | .error response => .answered (.error response)

/-- A statement, as far as the row is concerned. -/
def rowStep (s : AlertConfig × (Bool → Progress)) (move : Bool × DbStep) :
    AlertConfig × (Bool → Progress) :=
  match requests move.1, move.2, s.2 move.1 with
  | .updateAlert body, .fetch, .waiting => (s.1, Function.update s.2 move.1 (fetched body s.1))
  | .updateAlert _, .update, .merged values =>
    (s.1.withValues values, Function.update s.2 move.1 (.answered (.ok 204)))
  | .deleteAlert, .update, .waiting =>
    ({ s.1 with enabled := false }, Function.update s.2 move.1 (.answered (.ok 204)))
  | _, _, _ => s

theorem step_row {id : ℤ} {s : AlertSession} {row : AlertConfig}
    (hrow : s.configs.find? (fun c => c.id == id) = some row) (move : Bool × DbStep) :
    (step id requests s move).configs.find? (fun c => c.id == id) =
        some (rowStep requests (row, s.progress) move).1 ∧
      (step id requests s move).progress = (rowStep requests (row, s.progress) move).2 := by
  have hany := any_of_find? hrow
  unfold step rowStep
  rcases requests move.1 with body | _ <;> rcases move.2 with _ | _ <;>
    rcases hprogress : s.progress move.1 with _ | values | response <;>
    simp only [hprogress, and_true]
  -- a statement that is not made leaves both as they are
  all_goals try exact hrow
  · refine ⟨hrow, ?_⟩
    rw [updateAlertMerge]
    simp only [hrow]
    rfl
  · simp only [updateAlertWrite, updateAlertConfigFull, hany, writtenResponse, if_true, and_true]
    have hwritten := find?_map_row id (f := fun c => c.withValues values) (fun c => rfl) s.configs
    rw [hrow] at hwritten
    exact hwritten
  · simp only [StellarFeeTracker.deleteAlert, deleteAlertConfig, hany, writtenResponse, if_true,
      and_true]
    have hwritten := find?_map_row id (f := fun c => { c with enabled := false }) (fun c => rfl)
      s.configs
    rw [hrow] at hwritten
    exact hwritten

/-- The row after a schedule, and how far the requests are. -/
theorem run_row {id : ℤ} {configs : List AlertConfig} {row : AlertConfig}
    (hrow : configs.find? (fun c => c.id == id) = some row) (schedule : List (Bool × DbStep)) :
    let final := schedule.foldl (rowStep requests) (row, fun _ => .waiting)
    (run id requests configs schedule).configs.find? (fun c => c.id == id) = some final.1 ∧
      (run id requests configs schedule).progress = final.2 := by
  have hsteps : ∀ (s : AlertSession) (row : AlertConfig),
      s.configs.find? (fun c => c.id == id) = some row →
      let final := schedule.foldl (rowStep requests) (row, s.progress)
      (schedule.foldl (step id requests) s).configs.find? (fun c => c.id == id) = some final.1 ∧
        (schedule.foldl (step id requests) s).progress = final.2 := by
    induction schedule with
    | nil => exact fun s row hrow => ⟨hrow, rfl⟩
    | cons move schedule ih =>
      intro s row hrow
      obtain ⟨hfirst, hprogress⟩ := step_row requests hrow move
      have hrest := ih (step id requests s move) _ hfirst
      rw [hprogress] at hrest
      exact hrest
  exact hsteps { configs, progress := fun _ => .waiting } row hrow

end AlertSession

/-! ## Changes of disjoint fields -/

@[simp] theorem AlertConfig.withValues_withValues (row : AlertConfig) (first second : AlertValues) :
    (row.withValues first).withValues second = row.withValues second := rfl

theorem AlertConfig.withValues_inj (row : AlertConfig) {first second : AlertValues} :
    row.withValues first = row.withValues second ↔ first = second := by
  constructor
  · intro h
    obtain ⟨threshold, enabled, alertType⟩ := first
    obtain ⟨threshold', enabled', alertType'⟩ := second
    injection h with _ _ hthreshold halertType henabled
    exact AlertValues.mk.injEq .. ▸ ⟨hthreshold, henabled, halertType⟩
  · rintro rfl
    rfl

namespace AlertRequest

section Options

variable {α : Type} {a b : Option α} (h : ¬ (a.isSome = true ∧ b.isSome = true)) (x : α)
include h

theorem getD_getD_comm : b.getD (a.getD x) = a.getD (b.getD x) := by
  cases a with
  | none => rfl
  | some a =>
    cases b with
    | none => rfl
    | some b => exact absurd ⟨rfl, rfl⟩ h

theorem getD_getD_eq_iff : b.getD (a.getD x) = a.getD x ↔ b.getD x = x := by
  cases a with
  | none => rfl
  | some a =>
    cases b with
    | none => simp
    | some b => exact absurd ⟨rfl, rfl⟩ h

end Options

/-- Making a change again changes nothing. -/
theorem apply_apply_self (request : AlertRequest) (row : AlertConfig) :
    request.apply (request.apply row) = request.apply row := by
  have hidem : ∀ {α : Type} (a : Option α) (x : α), a.getD (a.getD x) = a.getD x := by
    intro α a x
    cases a <;> rfl
  unfold apply
  rw [AlertConfig.withValues_withValues, AlertConfig.withValues_inj]
  simp only [UpdateAlertRequest.merge, AlertConfig.withValues, hidem]

variable {requests : Bool → AlertRequest} (hdisjoint : DisjointFields requests) (who : Bool)
  (row : AlertConfig)
include hdisjoint

theorem not_both_touch (field : AlertField) :
    ¬ ((requests who).touches field = true ∧ (requests !who).touches field = true) := by
  cases who with
  | false => exact hdisjoint field
  | true => exact fun h => hdisjoint field h.symm

/-- Changes of disjoint fields commute. -/
theorem apply_comm : (requests !who).apply ((requests who).apply row) =
    (requests who).apply ((requests !who).apply row) := by
  have htouch := not_both_touch hdisjoint who
  unfold apply
  rw [AlertConfig.withValues_withValues, AlertConfig.withValues_withValues,
    AlertConfig.withValues_inj]
  simp only [UpdateAlertRequest.merge, AlertConfig.withValues, AlertValues.mk.injEq]
  exact ⟨getD_getD_comm (htouch .threshold) _, getD_getD_comm (htouch .enabled) _,
    getD_getD_comm (htouch .alertType) _⟩

/-- A row that one request has changed has the changes of the other exactly when it had them
before. -/
theorem apply_apply_eq_iff : (requests !who).apply ((requests who).apply row) =
    (requests who).apply row ↔ (requests !who).apply row = row := by
  have htouch := not_both_touch hdisjoint who
  have hrow : row = row.withValues ⟨row.threshold, row.enabled, row.alertType⟩ := rfl
  have hafter : (requests !who).apply row = row ↔ (requests !who).changes.merge row =
      ⟨row.threshold, row.enabled, row.alertType⟩ := by
    conv_lhs => rhs; rw [hrow]
    exact row.withValues_inj
  rw [hafter]
  unfold apply
  rw [AlertConfig.withValues_withValues, AlertConfig.withValues_inj]
  simp only [UpdateAlertRequest.merge, AlertConfig.withValues, AlertValues.mk.injEq]
  rw [getD_getD_eq_iff (htouch .threshold), getD_getD_eq_iff (htouch .enabled),
    getD_getD_eq_iff (htouch .alertType)]

end AlertRequest

/-! ## Schedules -/

namespace AlertSession

variable {requests : Bool → AlertRequest}

theorem fetched_of_accepted {body : UpdateAlertRequest} {row : AlertConfig}
    (h : (AlertRequest.updateAlert body).Accepted row) : fetched body row = .merged (body.merge row) := by
  unfold fetched AlertValues.check
  rw [h.1, h.2]
  rfl

theorem fetched_of_not_accepted {body : UpdateAlertRequest} {row : AlertConfig}
    (h : ¬ (AlertRequest.updateAlert body).Accepted row) :
    ∃ response, fetched body row = .answered (.error response) := by
  unfold fetched AlertValues.check
  cases hthreshold : isValidThreshold (body.merge row).threshold with
  | false => exact ⟨_, rfl⟩
  | true =>
    cases halertType : isValidAlertType (body.merge row).alertType with
    | false => exact ⟨_, rfl⟩
    | true => exact absurd ⟨hthreshold, halertType⟩ h

/-- A schedule is one of the interleavings of the statements of the two requests. -/
theorem mem_interleavings_of_isSchedule {schedule : List (Bool × DbStep)}
    (h : IsSchedule requests schedule) (who : Bool) :
    schedule ∈ interleavings ((requests who).dbSteps.map (who, ·))
      ((requests !who).dbSteps.map (!who, ·)) := by
  have hall := mem_interleavings_filter (fun move : Bool × DbStep => move.1 == who) schedule
  have hother : (fun move : Bool × DbStep => !(move.1 == who)) = fun move => move.1 == !who := by
    funext move
    cases move.1 <;> cases who <;> rfl
  rwa [hother, h who, h (!who)] at hall

/-- The row has the changes of each request that was answered with no content. -/
def Kept (requests : Bool → AlertRequest) (s : AlertConfig × (Bool → Progress)) : Prop :=
  ∀ who, s.2 who = .answered (.ok 204) → (requests who).apply s.1 = s.1

/-- A schedule that makes a PATCH fetch, the other request write and then the PATCH write. -/
def Overlap (who : Bool) (schedule : List (Bool × DbStep)) : Prop :=
  [(who, .fetch), (!who, .update), (who, .update)].Sublist schedule

instance (who : Bool) (schedule : List (Bool × DbStep)) : Decidable (Overlap who schedule) :=
  inferInstanceAs (Decidable (List.Sublist _ _))

/-- What the statements of a PATCH do to the row and to the progress of both requests. -/
theorem rowStep_fetch {who : Bool} {body : UpdateAlertRequest}
    (hrequest : requests who = .updateAlert body) (row : AlertConfig) {progress : Bool → Progress}
    (hwaiting : progress who = .waiting) :
    rowStep requests (row, progress) (who, .fetch) =
      (row, Function.update progress who (fetched body row)) := by
  simp only [rowStep, hrequest, hwaiting]

/-- The row after the write of a request that fetched `base`. -/
def written (request : AlertRequest) (base row : AlertConfig) : AlertConfig :=
  if request.Accepted base then row.withValues (request.changes.merge base) else row

theorem rowStep_update {who : Bool} {body : UpdateAlertRequest}
    (hrequest : requests who = .updateAlert body) (row : AlertConfig) {progress : Bool → Progress}
    {base : AlertConfig} (hfetched : progress who = fetched body base) :
    ∃ progress', rowStep requests (row, progress) (who, .update) =
        (written (requests who) base row, progress') ∧
      progress' (!who) = progress (!who) ∧
      (progress' who = .answered (.ok 204) ↔ (requests who).Accepted base) := by
  unfold written
  by_cases haccepted : (requests who).Accepted base
  · rw [if_pos haccepted]
    rw [hrequest] at haccepted
    rw [fetched_of_accepted haccepted] at hfetched
    refine ⟨_, by simp only [rowStep, hrequest, hfetched, AlertRequest.changes]; rfl, ?_, ?_⟩
    · exact Function.update_of_ne (Bool.not_ne_self who) _ _
    · rw [Function.update_self, hrequest]
      exact iff_of_true rfl haccepted
  · rw [if_neg haccepted]
    have hrefused := haccepted
    rw [hrequest] at hrefused
    obtain ⟨response, hresponse⟩ := fetched_of_not_accepted hrefused
    rw [hresponse] at hfetched
    refine ⟨progress, by simp only [rowStep, hrequest, hfetched], rfl, ?_⟩
    rw [hfetched]
    refine iff_of_false ?_ haccepted
    intro h
    cases h

theorem rowStep_delete {who : Bool} (hrequest : requests who = .deleteAlert) (row : AlertConfig)
    {progress : Bool → Progress} (hwaiting : progress who = .waiting) :
    rowStep requests (row, progress) (who, .update) =
      ((requests who).apply row, Function.update progress who (.answered (.ok 204))) := by
  simp only [rowStep, hrequest, hwaiting]
  rfl

theorem kept_iff (who : Bool) (s : AlertConfig × (Bool → Progress)) :
    Kept requests s ↔
      (s.2 who = .answered (.ok 204) → (requests who).apply s.1 = s.1) ∧
      (s.2 (!who) = .answered (.ok 204) → (requests !who).apply s.1 = s.1) := by
  exact Bool.forall_bool' who

/-- All statements of a request, one after the other. -/
theorem foldl_dbSteps (requests : Bool → AlertRequest) (who : Bool) (row : AlertConfig)
    (progress : Bool → Progress) (hwaiting : progress who = .waiting) :
    ∃ progress', ((requests who).dbSteps.map (who, ·)).foldl (rowStep requests) (row, progress) =
        (written (requests who) row row, progress') ∧
      progress' (!who) = progress (!who) ∧
      (progress' who = .answered (.ok 204) ↔ (requests who).Accepted row) := by
  cases hrequest : requests who with
  | updateAlert body =>
    have hfetch := rowStep_fetch hrequest row hwaiting
    have hfetched : Function.update progress who (fetched body row) who = fetched body row :=
      Function.update_self ..
    obtain ⟨progress', hupdate, hother, hanswered⟩ := rowStep_update hrequest row hfetched
    refine ⟨progress', ?_, ?_, ?_⟩
    · show rowStep requests (rowStep requests (row, progress) (who, .fetch)) (who, .update) = _
      rw [hfetch, hupdate, hrequest]
    · rw [hother, Function.update_of_ne (Bool.not_ne_self who)]
    · rwa [hrequest] at hanswered
  | deleteAlert =>
    refine ⟨Function.update progress who (.answered (.ok 204)), ?_, ?_, ?_⟩
    · show rowStep requests (row, progress) (who, .update) = _
      rw [rowStep_delete hrequest row hwaiting, hrequest]
      rfl
    · exact Function.update_of_ne (Bool.not_ne_self who) _ _
    · rw [Function.update_self]
      exact iff_of_true rfl trivial
/-- A schedule in which nothing overlaps. -/
theorem kept_iff_of_no_overlap {row : AlertConfig} {schedule : List (Bool × DbStep)}
    (hkept : Kept requests (schedule.foldl (rowStep requests) (row, fun _ => .waiting)))
    (hnone : ¬ Overlap false schedule ∧ ¬ Overlap true schedule) :
    Kept requests (schedule.foldl (rowStep requests) (row, fun _ => .waiting)) ↔
      ∀ who, Overlap who schedule → (requests who).Accepted row → (requests !who).Accepted row →
        (requests !who).apply row = row := by
  refine iff_of_true hkept (Bool.forall_bool.2 ⟨?_, ?_⟩)
  · exact fun hoverlap => absurd hoverlap hnone.1
  · exact fun hoverlap => absurd hoverlap hnone.2

/-- A schedule in which the write of one request only overlaps the other. -/
theorem kept_iff_of_one_overlap {who : Bool} {row : AlertConfig} {schedule : List (Bool × DbStep)}
    (hkept : Kept requests (schedule.foldl (rowStep requests) (row, fun _ => .waiting)) ↔
      ((requests who).Accepted row → (requests !who).Accepted row →
        (requests !who).apply row = row))
    (hone : Overlap who schedule ∧ ¬ Overlap (!who) schedule) :
    Kept requests (schedule.foldl (rowStep requests) (row, fun _ => .waiting)) ↔
      ∀ who, Overlap who schedule → (requests who).Accepted row → (requests !who).Accepted row →
        (requests !who).apply row = row := by
  rw [hkept, Bool.forall_bool' who]
  constructor
  · intro h
    exact ⟨fun _ => h, fun hoverlap => absurd hoverlap hone.2⟩
  · rintro ⟨h, -⟩
    exact h hone.1

variable (hdisjoint : DisjointFields requests) (who : Bool) (row : AlertConfig)
include hdisjoint

/-- When one request comes after the other, both changes are kept. -/
theorem kept_of_sequential : Kept requests
    (((requests who).dbSteps.map (who, ·) ++ (requests !who).dbSteps.map (!who, ·)).foldl
      (rowStep requests) (row, fun _ => .waiting)) := by
  obtain ⟨progress, hfirst, hwaiting, haccepted⟩ :=
    foldl_dbSteps requests who row (fun _ => .waiting) rfl
  obtain ⟨progress', hsecond, hother, haccepted'⟩ :=
    foldl_dbSteps requests (!who) (written (requests who) row row) progress hwaiting
  rw [Bool.not_not] at hother
  rw [List.foldl_append, hfirst, hsecond, kept_iff who]
  simp only [hother, haccepted, haccepted']
  constructor
  · intro h
    have hwritten : written (requests who) row row = (requests who).apply row := if_pos h
    rw [hwritten]
    by_cases h' : (requests !who).Accepted ((requests who).apply row)
    · have hwritten' : written (requests !who) ((requests who).apply row) ((requests who).apply row) =
          (requests !who).apply ((requests who).apply row) := if_pos h'
      have hcomm := AlertRequest.apply_comm hdisjoint who ((requests who).apply row)
      rw [hwritten', ← hcomm, AlertRequest.apply_apply_self]
    · rw [written, if_neg h', AlertRequest.apply_apply_self]
  · intro h
    rw [written, if_pos h]
    exact (requests !who).apply_apply_self _

/-- When one request writes over what the other wrote after its fetch, both changes are kept exactly
when one of them is refused or the change written over is none. -/
theorem kept_iff_of_overlap {s : AlertConfig × (Bool → Progress)}
    (hrow : s.1 = written (requests who) row (written (requests !who) row row))
    (haccepted : s.2 who = .answered (.ok 204) ↔ (requests who).Accepted row)
    (haccepted' : s.2 (!who) = .answered (.ok 204) ↔ (requests !who).Accepted row) :
    Kept requests s ↔ ((requests who).Accepted row → (requests !who).Accepted row →
      (requests !who).apply row = row) := by
  rw [kept_iff who, haccepted, haccepted', hrow]
  by_cases h : (requests who).Accepted row
  · have hwritten : written (requests who) row (written (requests !who) row row) =
        (requests who).apply row := by
      rw [written, if_pos h, written]
      split_ifs
      · rfl
      · rfl
    rw [hwritten, AlertRequest.apply_apply_self, AlertRequest.apply_apply_eq_iff hdisjoint]
    simp [h]
  · refine iff_of_true ⟨fun h' => absurd h' h, fun h' => ?_⟩ fun h' => absurd h' h
    rw [written, if_neg h, written, if_pos h']
    exact (requests !who).apply_apply_self row

theorem kept_iff_of_patches {body other : UpdateAlertRequest}
    (hrequest : requests who = .updateAlert body) (hother : requests (!who) = .updateAlert other)
    {fetches : List (Bool × DbStep)}
    (hfetches : fetches = [(who, .fetch), (!who, .fetch)] ∨
      fetches = [(!who, .fetch), (who, .fetch)]) :
    Kept requests ((fetches ++ [(!who, DbStep.update), (who, .update)]).foldl (rowStep requests)
        (row, fun _ => .waiting)) ↔
      ((requests who).Accepted row → (requests !who).Accepted row →
        (requests !who).apply row = row) := by
  have hne := Bool.not_ne_self who
  -- both have fetched the row as it was
  obtain ⟨progress, hfetched, hbody, hbody'⟩ : ∃ progress : Bool → Progress,
      fetches.foldl (rowStep requests) (row, fun _ => .waiting) = (row, progress) ∧
        progress who = fetched body row ∧ progress (!who) = fetched other row := by
    rcases hfetches with rfl | rfl
    · refine ⟨Function.update (Function.update (fun _ => .waiting) who (fetched body row)) (!who)
        (fetched other row), ?_, ?_, Function.update_self ..⟩
      · rw [List.foldl_cons, rowStep_fetch hrequest row rfl, List.foldl_cons,
          rowStep_fetch hother row (Function.update_of_ne hne _ _)]
        rfl
      · rw [Function.update_of_ne hne.symm, Function.update_self]
    · refine ⟨Function.update (Function.update (fun _ => .waiting) (!who) (fetched other row)) who
        (fetched body row), ?_, Function.update_self .., ?_⟩
      · rw [List.foldl_cons, rowStep_fetch hother row rfl, List.foldl_cons,
          rowStep_fetch hrequest row (Function.update_of_ne hne.symm _ _)]
        rfl
      · rw [Function.update_of_ne hne, Function.update_self]
  obtain ⟨progress₁, hfirst, hkeep, haccepted'⟩ := rowStep_update hother row hbody'
  rw [Bool.not_not] at hkeep
  obtain ⟨progress₂, hsecond, hkeep₂, haccepted⟩ := rowStep_update hrequest
    (written (requests !who) row row) (hkeep.trans hbody)
  rw [List.foldl_append, hfetched, List.foldl_cons, hfirst, List.foldl_cons, hsecond]
  refine kept_iff_of_overlap hdisjoint who row rfl haccepted ?_
  show progress₂ (!who) = _ ↔ _
  rw [hkeep₂, haccepted']

theorem kept_iff_of_delete {body : UpdateAlertRequest}
    (hrequest : requests who = .updateAlert body) (hother : requests (!who) = .deleteAlert) :
    Kept requests ([(who, DbStep.fetch), (!who, .update), (who, .update)].foldl (rowStep requests)
        (row, fun _ => .waiting)) ↔
      ((requests who).Accepted row → (requests !who).Accepted row →
        (requests !who).apply row = row) := by
  have hne := Bool.not_ne_self who
  have hwritten : written (requests !who) row row = (requests !who).apply row := by
    rw [hother]
    rfl
  have hfetched : Function.update (Function.update (fun _ => Progress.waiting) who (fetched body row))
      (!who) (Progress.answered (.ok 204)) who = fetched body row := by
    rw [Function.update_of_ne hne.symm, Function.update_self]
  obtain ⟨progress, hlast, hkeep, haccepted⟩ :=
    rowStep_update hrequest ((requests !who).apply row) hfetched
  rw [List.foldl_cons, rowStep_fetch hrequest row rfl, List.foldl_cons,
    rowStep_delete hother row (Function.update_of_ne hne _ _), List.foldl_cons, hlast, List.foldl_nil]
  refine kept_iff_of_overlap hdisjoint who row (by rw [hwritten]) haccepted ?_
  show progress (!who) = _ ↔ _
  rw [hkeep, Function.update_self, hother]
  exact iff_of_true rfl trivial

theorem kept_iff_of_isSchedule_patches {first second : UpdateAlertRequest}
    (hfirst : requests false = .updateAlert first) (hsecond : requests true = .updateAlert second)
    {schedule : List (Bool × DbStep)} (hschedule : IsSchedule requests schedule) :
    Kept requests (schedule.foldl (rowStep requests) (row, fun _ => .waiting)) ↔
      ∀ who, Overlap who schedule → (requests who).Accepted row → (requests !who).Accepted row →
        (requests !who).apply row = row := by
  have hinterleavings : interleavings [(false, DbStep.fetch), (false, .update)]
      [(true, .fetch), (true, .update)] =
      [[(false, .fetch), (false, .update), (true, .fetch), (true, .update)],
        [(false, .fetch), (true, .fetch), (false, .update), (true, .update)],
        [(false, .fetch), (true, .fetch), (true, .update), (false, .update)],
        [(true, .fetch), (false, .fetch), (false, .update), (true, .update)],
        [(true, .fetch), (false, .fetch), (true, .update), (false, .update)],
        [(true, .fetch), (true, .update), (false, .fetch), (false, .update)]] := by
    simp [interleavings]
  have hmem := mem_interleavings_of_isSchedule hschedule false
  rw [hfirst, Bool.not_false, hsecond] at hmem
  simp only [AlertRequest.dbSteps, List.map_cons, List.map_nil, hinterleavings, List.mem_cons,
    List.not_mem_nil, or_false] at hmem
  have hfalse := kept_of_sequential hdisjoint false row
  have htrue := kept_of_sequential hdisjoint true row
  rw [hfirst, Bool.not_false, hsecond] at hfalse
  rw [hsecond, Bool.not_true, hfirst] at htrue
  rcases hmem with rfl | rfl | rfl | rfl | rfl | rfl
  · exact kept_iff_of_no_overlap hfalse (by decide)
  · have hkept := kept_iff_of_patches hdisjoint true row hsecond hfirst (Or.inr rfl)
    exact kept_iff_of_one_overlap hkept (by decide)
  · have hkept := kept_iff_of_patches hdisjoint false row hfirst hsecond (Or.inl rfl)
    exact kept_iff_of_one_overlap hkept (by decide)
  · have hkept := kept_iff_of_patches hdisjoint true row hsecond hfirst (Or.inl rfl)
    exact kept_iff_of_one_overlap hkept (by decide)
  · have hkept := kept_iff_of_patches hdisjoint false row hfirst hsecond (Or.inr rfl)
    exact kept_iff_of_one_overlap hkept (by decide)
  · exact kept_iff_of_no_overlap htrue (by decide)

theorem kept_iff_of_isSchedule_delete {body : UpdateAlertRequest}
    (hrequest : requests who = .updateAlert body) (hother : requests (!who) = .deleteAlert)
    {schedule : List (Bool × DbStep)} (hschedule : IsSchedule requests schedule) :
    Kept requests (schedule.foldl (rowStep requests) (row, fun _ => .waiting)) ↔
      ∀ who, Overlap who schedule → (requests who).Accepted row → (requests !who).Accepted row →
        (requests !who).apply row = row := by
  have hinterleavings : interleavings [(who, DbStep.fetch), (who, .update)] [(!who, .update)] =
      [[(who, .fetch), (who, .update), (!who, .update)],
        [(who, .fetch), (!who, .update), (who, .update)],
        [(!who, .update), (who, .fetch), (who, .update)]] := by
    simp [interleavings]
  have hmem := mem_interleavings_of_isSchedule hschedule who
  rw [hrequest, hother] at hmem
  simp only [AlertRequest.dbSteps, List.map_cons, List.map_nil, hinterleavings, List.mem_cons,
    List.not_mem_nil, or_false] at hmem
  have hbefore := kept_of_sequential hdisjoint who row
  have hafter := kept_of_sequential hdisjoint (!who) row
  rw [hrequest, hother] at hbefore
  rw [hother, Bool.not_not, hrequest] at hafter
  rcases hmem with rfl | rfl | rfl
  · exact kept_iff_of_no_overlap hbefore (by cases who <;> decide)
  · have hkept := kept_iff_of_delete hdisjoint who row hrequest hother
    exact kept_iff_of_one_overlap hkept (by cases who <;> decide)
  · exact kept_iff_of_no_overlap hafter (by cases who <;> decide)

/-- Both changes are kept exactly when no accepted request writes between the fetch and the write of
an accepted PATCH, unless it changes nothing. -/
theorem kept_iff_of_isSchedule {schedule : List (Bool × DbStep)}
    (hschedule : IsSchedule requests schedule) :
    Kept requests (schedule.foldl (rowStep requests) (row, fun _ => .waiting)) ↔
      ∀ who, Overlap who schedule → (requests who).Accepted row → (requests !who).Accepted row →
        (requests !who).apply row = row := by
  have hkind : ∀ who, (∃ body, requests who = .updateAlert body) ∨ requests who = .deleteAlert := by
    intro who
    cases requests who with
    | updateAlert body => exact Or.inl ⟨body, rfl⟩
    | deleteAlert => exact Or.inr rfl
  rcases hkind false with ⟨first, hfirst⟩ | hfirst
  · rcases hkind true with ⟨second, hsecond⟩ | hsecond
    · exact kept_iff_of_isSchedule_patches hdisjoint row hfirst hsecond hschedule
    · exact kept_iff_of_isSchedule_delete hdisjoint false row hfirst hsecond hschedule
  · rcases hkind true with ⟨second, hsecond⟩ | hsecond
    · exact kept_iff_of_isSchedule_delete hdisjoint true row hsecond hfirst hschedule
    · refine absurd ⟨?_, ?_⟩ (hdisjoint .enabled)
      · rw [hfirst]
        rfl
      · rw [hsecond]
        rfl

/-- No update of a row is lost exactly when no accepted request writes between the fetch and the
write of an accepted PATCH, unless the row has its values already. -/
theorem noLostUpdate_iff {id : ℤ} {configs : List AlertConfig}
    (hrow : configs.find? (fun c => c.id == id) = some row) {schedule : List (Bool × DbStep)}
    (hschedule : IsSchedule requests schedule) :
    (run id requests configs schedule).NoLostUpdate id requests ↔
      ∀ who, Overlap who schedule → (requests who).Accepted row → (requests !who).Accepted row →
        (requests !who).apply row = row := by
  rw [← kept_iff_of_isSchedule hdisjoint row hschedule]
  obtain ⟨hfound, hprogress⟩ := run_row requests hrow schedule
  unfold NoLostUpdate Kept
  rw [hfound, hprogress]
  simp only [Option.some.injEq, exists_eq_left']

end AlertSession

/-- An enabled row, a PATCH of its threshold and a DELETE. -/
def majorRow : AlertConfig where
  id := 1
  webhookUrl := "https://hooks.example.com/a"
  threshold := "Major"
  alertType := "spike"
  enabled := true
  createdAt := "2025-01-14T10:45:00+00:00"

def patchAndDelete : Bool → AlertRequest
  | false => .updateAlert { threshold := some "Critical", enabled := none, alertType := none }
  | true => .deleteAlert

theorem disjointFields_patchAndDelete : DisjointFields patchAndDelete := by
  intro field
  cases field <;> decide

/-- A DELETE after the PATCH: both changes are kept. -/
theorem noLostUpdate_patch_then_delete :
    (AlertSession.run 1 patchAndDelete [majorRow]
      [(false, .fetch), (false, .update), (true, .update)]).NoLostUpdate 1 patchAndDelete :=
  (AlertSession.noLostUpdate_iff disjointFields_patchAndDelete majorRow (by decide)
    (by rintro (_ | _) <;> decide)).2 (by decide)

/-- A DELETE between the fetch and the write of the PATCH: the row is enabled again. -/
theorem patch_reenables_deleted_row :
    DisjointFields patchAndDelete ∧
      IsSchedule patchAndDelete [(false, .fetch), (true, .update), (false, .update)] ∧
      ((AlertSession.run 1 patchAndDelete [majorRow]
        [(false, .fetch), (true, .update), (false, .update)]).configs.map (·.enabled) = [true]) ∧
      ¬ (AlertSession.run 1 patchAndDelete [majorRow]
        [(false, .fetch), (true, .update), (false, .update)]).NoLostUpdate 1 patchAndDelete := by
  have hschedule : IsSchedule patchAndDelete
      [(false, .fetch), (true, .update), (false, .update)] := by
    rintro (_ | _) <;> decide
  refine ⟨disjointFields_patchAndDelete, hschedule, by decide, ?_⟩
  rintro ⟨row, hrow, hkept⟩
  have hdeleted := hkept true rfl
  obtain rfl : { majorRow with threshold := "Critical" } = row := Option.some.inj hrow
  exact absurd hdeleted (by decide)

end StellarFeeTracker
