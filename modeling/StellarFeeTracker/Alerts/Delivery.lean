import StellarFeeTracker.Alerts.Audit
import StellarFeeTracker.General.Parties
import StellarFeeTracker.General.PrunedLog

/-!
# Deliveries and their log

Each delivery has a task of its own, which posts the payload, once more after a failure, and then
logs a row if it is one of `dispatch_spike`.  The tasks run side by side, and the poller prunes the
log between their statements.  Whatever the schedule, every task makes the posts of `sendWithRetry`, and
the log holds one row for each task that wrote one, with its outcome, as long as no prune drops it
(`deliveryLog_of_schedule`).
-/

namespace StellarFeeTracker

open Machine Parties PrunedLog

/-! ## Sending with retries -/

inductive WebhookError where
  | request (message : String)
  | status (code : ℕ)
  deriving DecidableEq, Repr

/-- The answer to a post: the error of the client, or a status. -/
abbrev PostAnswer := Except String ℕ

/-- What an attempt makes of the answer to its post. -/
def postResult : PostAnswer → Except WebhookError Unit
  | .ok status => if 200 ≤ status ∧ status < 300 then .ok () else .error (.status status)
  | .error message => .error (.request message)

/-- The webhook took the payload. -/
def accepted (answer : PostAnswer) : Bool := (postResult answer).isOk

/-- A run of `send_with_retry`: its result, its posts and the seconds that it slept after them. -/
structure SendRun where
  result : Except WebhookError Unit
  posts : ℕ
  delays : List ℕ

namespace WebhookDelivery

def maxAttempts : ℕ := 2
def retryDelaySeconds : ℕ := 2

/-- The loop of `send_with_retry` from an attempt on, with so many attempts left. -/
def sendFrom (post : ℕ → PostAnswer) (attempt : ℕ) (lastError : Option WebhookError) : ℕ → SendRun
  | 0 =>
    { result := .error
        (lastError.getD (.request "Webhook delivery failed with unknown error"))
      posts := 0
      delays := [] }
  | left + 1 =>
    match postResult (post attempt) with
    | .ok () => { result := .ok (), posts := 1, delays := [] }
    | .error err =>
      let rest := sendFrom post (attempt + 1) (some err) left
      { rest with
        posts := rest.posts + 1
        delays := if attempt < maxAttempts then retryDelaySeconds :: rest.delays else rest.delays }

def sendWithRetry (post : ℕ → PostAnswer) : SendRun := sendFrom post 1 none maxAttempts

end WebhookDelivery

open WebhookDelivery

/-! ## Tasks -/

/-- How far the task of a delivery is. -/
inductive TaskProgress where
  | sending (attempt : ℕ) (lastError : Option WebhookError)
  | sent (result : Except WebhookError Unit)
  | finished (row : Option AlertEvent)

/-- The task of a delivery, with the answers to its posts so far. -/
structure AlertTask where
  delivery : Delivery
  progress : TaskProgress
  answers : List PostAnswer

/-- A task that has been spawned. -/
def AlertTask.spawn (delivery : Delivery) : AlertTask where
  delivery := delivery
  progress := .sending 1 none
  answers := []

/-- What the world brings to the next step of a task. -/
structure TaskInput where
  answer : PostAnswer
  now : DateTime
  logError : Option SqlError

namespace AlertTask

/-- The next step of a task: a post, or its row. -/
def act (mgr : AlertManager) (text : Rfc3339) (task : AlertTask) (input : TaskInput) :
    AlertTask × List AlertEvent :=
  match task.progress with
  | .sending attempt _ =>
    let progress :=
      match postResult input.answer with
      | .ok () => .sent (.ok ())
      | .error err =>
        if attempt < maxAttempts then .sending (attempt + 1) (some err) else .sent (.error err)
    ({ task with progress, answers := task.answers ++ [input.answer] }, [])
  | .sent result =>
    let row := mgr.auditRow task.delivery
      { delivered := result.isOk
        triggeredAt := text.toRfc3339 input.now
        logError := input.logError }
    ({ task with progress := .finished row }, row.toList)
  | .finished _ => (task, [])

/-- The row that a task has logged. -/
def row (task : AlertTask) : Option AlertEvent :=
  match task.progress with
  | .finished row => row
  | _ => none

end AlertTask

/-! ## What a task has done -/

/-- The posts are answered like the first ones of a task. -/
def Agrees (post : ℕ → PostAnswer) (answers : List PostAnswer) : Prop :=
  ∀ k answer, answers[k]? = some answer → post (k + 1) = answer

theorem Agrees.init {post : ℕ → PostAnswer} {answers : List PostAnswer} {answer : PostAnswer}
    (h : Agrees post (answers ++ [answer])) :
    Agrees post answers ∧ post (answers.length + 1) = answer := by
  constructor
  · intro k old hk
    exact h k old (List.getElem?_append_left (List.getElem?_eq_some_iff.1 hk).1 ▸ hk)
  · exact h answers.length answer (by simp)

/-- A loop that has failed so often before it goes on. -/
def SendRun.after (run : SendRun) (failed : ℕ) : SendRun where
  result := run.result
  posts := run.posts + failed
  delays := List.replicate failed retryDelaySeconds ++ run.delays

/-- The task has posted what `sendWithRetry` posts, and its result is that of `sendWithRetry`. -/
structure AlertTask.Sent (task : AlertTask) (result : Except WebhookError Unit) : Prop where
  run_eq : ∀ post, Agrees post task.answers → sendWithRetry post =
    { result, posts := task.answers.length
      delays := List.replicate (task.answers.length - 1) retryDelaySeconds }
  atMostTwo : task.answers.length ≤ maxAttempts
  onlyLast : ∀ answer ∈ task.answers.dropLast, accepted answer = false
  delivered : result.isOk = task.answers.any accepted

/-- What holds of a task between its steps. -/
def AlertTask.Inv (mgr : AlertManager) (text : Rfc3339) (task : AlertTask) : Prop :=
  match task.progress with
  | .sending attempt lastError =>
    attempt = task.answers.length + 1 ∧ attempt ≤ maxAttempts ∧
      task.answers.any accepted = false ∧
        ∀ post, Agrees post task.answers → sendWithRetry post =
          (sendFrom post attempt lastError (maxAttempts - task.answers.length)).after
            task.answers.length
  | .sent result => task.Sent result
  | .finished row => ∃ result now logError, task.Sent result ∧
      row = mgr.auditRow task.delivery
        { delivered := result.isOk, triggeredAt := text.toRfc3339 now, logError }

namespace AlertTask

variable {mgr : AlertManager} {text : Rfc3339} {task : AlertTask}

theorem inv_spawn (delivery : Delivery) : (AlertTask.spawn delivery).Inv mgr text := by
  refine ⟨rfl, by decide, rfl, fun post _ => ?_⟩
  change _ = SendRun.after (sendWithRetry post) 0
  simp [SendRun.after]

theorem any_accepted_append {answers : List PostAnswer} (h : answers.any accepted = false)
    (answer : PostAnswer) : (answers ++ [answer]).any accepted = accepted answer := by
  rw [List.any_append, h, Bool.false_or, List.any_cons, List.any_nil, Bool.or_false]

theorem forall_mem_dropLast_append {answers : List PostAnswer} (h : answers.any accepted = false)
    (answer : PostAnswer) : ∀ a ∈ (answers ++ [answer]).dropLast, accepted a = false := by
  rw [List.dropLast_concat]
  intro a ha
  rw [← Bool.not_eq_true]
  exact List.any_eq_false.1 h a ha

/-- A step keeps what holds of a task. -/
theorem Inv.act (h : task.Inv mgr text) (input : TaskInput) :
    (task.act mgr text input).1.Inv mgr text := by
  obtain ⟨delivery, progress, answers⟩ := task
  cases progress with
  | sending attempt lastError =>
    obtain ⟨hattempt, hmax, hfailed, hrun⟩ := h
    simp only at hattempt hfailed hrun
    subst hattempt
    obtain ⟨left, hleft⟩ : ∃ left, maxAttempts - answers.length = left + 1 :=
      ⟨maxAttempts - answers.length - 1, by omega⟩
    rw [hleft] at hrun
    have hany := any_accepted_append hfailed input.answer
    unfold accepted at hany
    cases hresult : postResult input.answer with
    | ok done =>
      simp only [AlertTask.act, hresult]
      refine { run_eq := fun post hpost => ?_, atMostTwo := ?_, onlyLast := ?_, delivered := ?_ }
      · obtain ⟨hbefore, hlast⟩ := hpost.init
        rw [hrun post hbefore, sendFrom, hlast, hresult]
        simp [SendRun.after, Nat.add_comm]
      · rw [List.length_append]
        exact hmax
      · exact forall_mem_dropLast_append hfailed _
      · exact (hany.trans (by rw [hresult])).symm
    | error err =>
      simp only [AlertTask.act, hresult]
      rw [hresult] at hany
      by_cases hmore : answers.length + 1 < maxAttempts
      · rw [if_pos hmore]
        refine ⟨by simp, hmore, hany, fun post hpost => ?_⟩
        obtain ⟨hbefore, hlast⟩ := hpost.init
        have hleft' : maxAttempts - (answers ++ [input.answer]).length = left := by
          rw [List.length_append, List.length_singleton]
          omega
        rw [hrun post hbefore, sendFrom, hlast, hresult, hleft']
        simp only [SendRun.after, if_pos hmore, List.length_append, List.length_singleton,
          List.replicate_succ', List.append_assoc, List.singleton_append]
        rw [Nat.add_assoc _ 1 answers.length, Nat.add_comm 1 answers.length]
      · rw [if_neg hmore]
        refine { run_eq := fun post hpost => ?_, atMostTwo := ?_, onlyLast := ?_, delivered := ?_ }
        · obtain ⟨hbefore, hlast⟩ := hpost.init
          obtain rfl : left = 0 := by omega
          rw [hrun post hbefore, sendFrom, hlast, hresult]
          simp [SendRun.after, if_neg hmore, sendFrom, Nat.add_comm]
        · rw [List.length_append]
          exact hmax
        · exact forall_mem_dropLast_append hfailed _
        · exact hany.symm
  | sent result =>
    have hsent : AlertTask.Sent ⟨delivery, .sent result, answers⟩ result := h
    exact ⟨result, input.now, input.logError,
      ⟨hsent.run_eq, hsent.atMostTwo, hsent.onlyLast, hsent.delivered⟩, rfl⟩
  | finished row => exact h

end AlertTask

/-! ## The log -/

/-- The tasks that have been spawned, and the table of their rows. -/
structure AlertLog where
  tasks : System Unit AlertTask
  alertEvents : List AlertEvent

/-- A task is spawned or makes a step, or the poller prunes the table. -/
inductive AlertLogEvent where
  | task (event : Event Delivery TaskInput)
  | prune (cutoff : DateTime)

/-- `log_alert_event`. -/
def logAlertEvent (alertEvents : List AlertEvent) (event : AlertEvent) : List AlertEvent :=
  alertEvents ++ [event]

namespace AlertLog

variable (mgr : AlertManager) (text : Rfc3339)

/-- No tasks and no rows. -/
def start : AlertLog where
  tasks := { shared := (), parties := [] }
  alertEvents := []

/-- The step of a task, which shares the table only. -/
def taskStep (shared : Unit) (task : AlertTask) (input : TaskInput) :
    (Unit × AlertTask) × List AlertEvent :=
  ((shared, (task.act mgr text input).1), (task.act mgr text input).2)

/-- An event, which puts out the row that it logs. -/
def step (s : AlertLog) : AlertLogEvent → AlertLog × List AlertEvent
  | .task event =>
    let stepped := Parties.step AlertTask.spawn (taskStep mgr text) s.tasks event
    ({ tasks := stepped.1, alertEvents := stepped.2.foldl logAlertEvent s.alertEvents }, stepped.2)
  | .prune cutoff =>
    ({ s with
        alertEvents := s.alertEvents.filter fun e => !(e.triggeredAt < text.toRfc3339 cutoff) }, [])

/-- An event keeps a row of the table. -/
def keeps : AlertLogEvent → AlertEvent → Bool
  | .task _, _ => true
  | .prune cutoff, row => !(row.triggeredAt < text.toRfc3339 cutoff)

theorem foldl_logAlertEvent (alertEvents rows : List AlertEvent) :
    rows.foldl logAlertEvent alertEvents = alertEvents ++ rows := by
  induction rows generalizing alertEvents with
  | nil => exact (List.append_nil _).symm
  | cons row rows ih =>
    rw [List.foldl_cons, ih, logAlertEvent, List.append_assoc, List.singleton_append]

theorem step_alertEvents (s : AlertLog) (event : AlertLogEvent) :
    (step mgr text s event).1.alertEvents =
      s.alertEvents.filter (keeps text event) ++ (step mgr text s event).2 := by
  cases event with
  | task event =>
    have hall : s.alertEvents.filter (keeps text (.task event)) = s.alertEvents :=
      List.filter_eq_self.2 fun _ _ => rfl
    rw [hall]
    exact foldl_logAlertEvent _ _
  | prune cutoff => exact (List.append_nil _).symm

/-- A step of a task logs the row that the task has then. -/
theorem act_row (task : AlertTask) (input : TaskInput) :
    ((task.act mgr text input).1.row = task.row ∧ (task.act mgr text input).2 = []) ∨
      task.row = none ∧ (task.act mgr text input).2 = (task.act mgr text input).1.row.toList := by
  obtain ⟨delivery, progress, answers⟩ := task
  cases progress with
  | sending attempt lastError =>
    refine .inl ⟨?_, rfl⟩
    simp only [AlertTask.act]
    cases postResult input.answer with
    | ok done => rfl
    | error err =>
      by_cases hmore : attempt < maxAttempts
      · simp only [if_pos hmore, AlertTask.row]
      · simp only [if_neg hmore, AlertTask.row]
  | sent result => exact .inr ⟨rfl, rfl⟩
  | finished row => exact .inl ⟨rfl, rfl⟩

/-- What a run logs are the rows of its tasks. -/
theorem emitted_perm_rows (s : AlertLog) (events : List AlertLogEvent) :
    (s.tasks.parties.filterMap AlertTask.row ++ emitted (step mgr text) s events).Perm
      ((final (step mgr text) s events).tasks.parties.filterMap AlertTask.row) := by
  induction events generalizing s with
  | nil => simp
  | cons event events ih =>
    rw [emitted_cons, final_cons, ← List.append_assoc]
    refine (List.Perm.append_right _ ?_).trans (ih _)
    cases event with
    | prune cutoff => exact .of_eq (List.append_nil _)
    | task event =>
      cases event with
      | enter delivery =>
        have hrow : (AlertTask.spawn delivery).row = none := rfl
        simp [step, Parties.step, hrow]
      | act k input =>
        cases hk : s.tasks.parties[k]? with
        | none => simp [step, Parties.step, hk]
        | some task =>
          simp only [step, step_act hk, taskStep]
          rcases act_row mgr text task input with ⟨hrow, hout⟩ | ⟨hrow, hout⟩
          · rw [hout, List.append_nil, filterMap_set hk hrow]
          · rw [hout]
            cases hnew : (task.act mgr text input).1.row with
            | none =>
              rw [Option.toList_none, List.append_nil, filterMap_set hk (hnew.trans hrow.symm)]
            | some row =>
              exact (List.perm_append_singleton _ _).trans (filterMap_set_perm hk hrow hnew).symm

theorem inv_final (events : List AlertLogEvent) :
    ∀ task ∈ (final (step mgr text) start events).tasks.parties, task.Inv mgr text := by
  refine final_induction (step mgr text)
    (P := fun s => ∀ task ∈ s.tasks.parties, task.Inv mgr text) (by simp [start]) ?_
  intro s event _ h
  cases event with
  | prune cutoff => exact h
  | task event =>
    refine step_induction (P := fun tasks : System Unit AlertTask =>
      ∀ task ∈ tasks.parties, task.Inv mgr text) event h ?_ ?_
    · intro delivery task htask
      rcases List.mem_append.1 htask with hold | hnew
      · exact h task hold
      · rw [List.mem_singleton.1 hnew]
        exact AlertTask.inv_spawn delivery
    · intro k task input hk other hother
      rcases List.mem_or_eq_of_mem_set hother with hold | rfl
      · exact h other hold
      · exact (h task (List.mem_of_getElem? hk)).act input

/-- In every schedule of delivery tasks and prunes, the table holds the logged rows that no later
prune dropped, and these are the rows of the tasks.  Each task has made at most two posts and none after
one that was accepted; one that is finished has made those of `sendWithRetry`, and its row, if it
writes one, says whether one of them was accepted. -/
theorem deliveryLog_of_schedule (mgr : AlertManager) (text : Rfc3339)
    (events : List AlertLogEvent) :
    let s := final (step mgr text) start events
    s.alertEvents = survivors (step mgr text) (keeps text) start events ∧
      (emitted (step mgr text) start events).Perm (s.tasks.parties.filterMap AlertTask.row) ∧
      ∀ task ∈ s.tasks.parties, task.answers.length ≤ 2 ∧
        (∀ answer ∈ task.answers.dropLast, accepted answer = false) ∧
        ∀ row, task.progress = .finished row →
          (∃ now logError, row = mgr.auditRow task.delivery
            { delivered := task.answers.any accepted
              triggeredAt := text.toRfc3339 now
              logError }) ∧
          ∀ post, Agrees post task.answers →
            (sendWithRetry post).posts = task.answers.length ∧
              (sendWithRetry post).result.isOk = task.answers.any accepted := by
  intro s
  refine ⟨?_, ?_, fun task htask => ?_⟩
  · exact log_final (step_alertEvents mgr text) start events
  · have hrows := emitted_perm_rows mgr text start events
    rwa [start, List.filterMap_nil, List.nil_append] at hrows
  · obtain ⟨delivery, progress, answers⟩ := task
    have h := inv_final mgr text events _ htask
    cases progress with
    | sending attempt lastError =>
      obtain ⟨hattempt, hmax, hfailed, -⟩ := h
      refine ⟨?_, fun answer hanswer => ?_, fun row hrow => by cases hrow⟩
      · change attempt ≤ 2 at hmax
        omega
      · rw [← Bool.not_eq_true]
        exact List.any_eq_false.1 hfailed answer (List.mem_of_mem_dropLast hanswer)
    | sent result =>
      have hsent : AlertTask.Sent _ result := h
      exact ⟨hsent.atMostTwo, hsent.onlyLast, fun row hrow => by cases hrow⟩
    | finished row =>
      obtain ⟨result, now, logError, hsent, hrow⟩ := h
      refine ⟨hsent.atMostTwo, hsent.onlyLast, fun row' hrow' => ?_⟩
      obtain rfl : row = row' := TaskProgress.finished.inj hrow'
      rw [hsent.delivered] at hrow
      refine ⟨⟨now, logError, hrow⟩, fun post hpost => ?_⟩
      rw [hsent.run_eq post hpost]
      exact ⟨rfl, hsent.delivered⟩

end AlertLog

end StellarFeeTracker
