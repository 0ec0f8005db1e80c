/-
The balance between answers and published messages, phone by phone: saves
against queued answers, duplicate logs against duplicate answers, and the other
logs against saves, with the calls in flight and the failed ones accounted for.
-/

import Bistland.CallAccounts

namespace Bistland

open OwnerAccounts

/-! ### What is counted -/

def Call.isFor (call : Call) (phone : ValidatedPhone) : Bool :=
  match call.request.validated with
  | .error _ => false
  | .ok held => held = phone

/-- Whether the call was answered with a body that shows the member as true. -/
def Call.showed (call : Call) (name : String) : Bool :=
  match call.phase with
  | .returned response => response.shows name
  | _ => false

def Phase.isSaved : Phase → Bool
  | .saved _ => true
  | _ => false

def Phase.isLogged (isNewSubmission : Bool) : Phase → Bool
  | .logged _ isNew => isNew = isNewSubmission
  | _ => false

/-- Answered because the save publish raised. -/
def Phase.saveFailed : Phase → Bool
  | .returned (.error (.saveDelay _)) => true
  | _ => false

namespace Web

/-- The answers for a phone that show a member as true. -/
def answers (web : Web) (name : String) (phone : ValidatedPhone) : Nat :=
  web.calls.countP (fun call => call.isFor phone && call.showed name)

def standing (web : Web) (stage : Phase → Bool) (phone : ValidatedPhone) : Nat :=
  web.calls.countP (fun call => call.isFor phone && stage call.phase)

def saves (web : Web) (phone : ValidatedPhone) : Nat :=
  web.published.countP (fun message => message.task.isSaveFor phone)

def logs (web : Web) (phone : ValidatedPhone) (duplicate : Bool) : Nat :=
  web.published.countP (fun message => message.task.isLogFor phone duplicate)

structure Ledger (web : Web) : Prop where
  saves : ∀ phone, web.saves phone = web.answers "queued" phone + web.standing Phase.isSaved phone
  duplicates : ∀ phone,
    web.logs phone true = web.answers "duplicate" phone + web.standing (Phase.isLogged false) phone
  originals : ∀ phone,
    web.logs phone false = web.saves phone + web.standing (Phase.isLogged true) phone +
      web.standing Phase.saveFailed phone
  failed : ∀ (index : Nat) call response, web.calls[index]? = some call →
    call.phase = .returned response → response.status = 500 →
      ∀ message ∈ web.published, message.sender = index → message.task.isSave = false
  recorded : ∀ (index : Nat) call response, web.calls[index]? = some call →
    call.phase = .returned response → response.status = 200 →
      ∃ record, ((postedBy Message.sender web.published index).map Message.task).filter
          (fun task => !task.isSave) = [.logRequestInMongoTask record] ∧
        record.duplicate = response.shows "duplicate"

end Web

/-! ### One call's share -/

/-- What a call adds to the count of the calls for a phone at a stage. -/
def Call.share (call : Call) (phone : ValidatedPhone) (stage : Bool) : Nat :=
  if call.isFor phone && stage then 1 else 0

theorem Call.share_add (call : Call) (phone : ValidatedPhone) {whole first second : Bool}
    (split : whole.toNat = first.toNat + second.toNat) :
    call.share phone whole = call.share phone first + call.share phone second := by
  unfold Call.share
  cases call.isFor phone with
  | false => rfl
  | true => cases whole <;> cases first <;> cases second <;> simp_all

theorem Call.share_of_valid {call : Call} {held : ValidatedPhone}
    (valid : call.request.validated = .ok held) (phone : ValidatedPhone) (stage : Bool) :
    call.share phone stage = if held = phone then stage.toNat else 0 := by
  unfold Call.share Call.isFor
  rw [valid]
  by_cases same : held = phone <;> cases stage <;> simp [same]

theorem Call.share_of_invalid {call : Call} {failure : Failure}
    (refused : call.request.validated = .error failure) (phone : ValidatedPhone) (stage : Bool) :
    call.share phone stage = 0 := by
  simp only [Call.share, Call.isFor, refused, Bool.false_and, Bool.false_eq_true, if_false]

/-- Both the calls that hold a new submission's log alone and those that hold the save too. -/
def Progress.hasOriginal : Progress → Bool
  | .nothing => false
  | .logged isNewSubmission => isNewSubmission
  | .saved => true

def Progress.isSaved : Progress → Bool
  | .saved => true
  | _ => false

def Progress.isLogged (isNewSubmission : Bool) : Progress → Bool
  | .logged isNew => isNew = isNewSubmission
  | _ => false

theorem Progress.countP_save (progress : Progress) (request : Request) (held phone : ValidatedPhone) :
    (progress.tasks request held).countP (Task.isSaveFor phone) =
      if held = phone then progress.isSaved.toNat else 0 := by
  by_cases same : held = phone <;> cases progress <;>
    simp [Progress.tasks, Progress.isSaved, Request.log, Task.isSaveFor, same]

theorem Progress.countP_duplicate (progress : Progress) (request : Request)
    (held phone : ValidatedPhone) :
    (progress.tasks request held).countP (Task.isLogFor phone true) =
      if held = phone then (progress.isLogged false).toNat else 0 := by
  cases progress with
  | nothing => simp [Progress.tasks, Progress.isLogged]
  | logged isNewSubmission =>
      by_cases same : held = phone <;> cases isNewSubmission <;>
        simp [Progress.tasks, Progress.isLogged, Request.log, Task.isLogFor, same]
  | saved =>
      by_cases same : held = phone <;>
        simp [Progress.tasks, Progress.isLogged, Request.log, Task.isLogFor, same]

theorem Progress.countP_original (progress : Progress) (request : Request)
    (held phone : ValidatedPhone) :
    (progress.tasks request held).countP (Task.isLogFor phone false) =
      if held = phone then progress.hasOriginal.toNat else 0 := by
  cases progress with
  | nothing => simp [Progress.tasks, Progress.hasOriginal]
  | logged isNewSubmission =>
      by_cases same : held = phone <;> cases isNewSubmission <;>
        simp [Progress.tasks, Progress.hasOriginal, Request.log, Task.isLogFor, same]
  | saved =>
      by_cases same : held = phone <;>
        simp [Progress.tasks, Progress.hasOriginal, Request.log, Task.isLogFor, same]

theorem Call.countP_tasks (call : Call) (phone : ValidatedPhone) (counted : Task → Bool)
    (stage : Progress → Bool)
    (fixed : ∀ (progress : Progress) request held, (progress.tasks request held).countP counted =
      if held = phone then (stage progress).toNat else 0) :
    call.tasks.countP counted = call.share phone (stage call.phase.progress) := by
  cases valid : call.request.validated with
  | error failure =>
      rw [Call.share_of_invalid valid]
      simp only [Call.tasks, valid, List.countP_nil]
  | ok held =>
      rw [Call.tasks_of_valid valid, Call.share_of_valid valid]
      exact fixed call.phase.progress call.request held

theorem Call.saved_stage (call : Call) :
    call.phase.progress.isSaved.toNat =
      (call.showed "queued").toNat + call.phase.isSaved.toNat := by
  obtain ⟨request, startTime, phase⟩ := call
  cases phase with
  | received => rfl
  | validated held => rfl
  | deduplicated held isNewSubmission => rfl
  | logged held isNewSubmission => rfl
  | saved held => rfl
  | returned response =>
      cases response with
      | duplicate => rfl
      | queued => rfl
      | error failure => cases failure <;> rfl

theorem Call.duplicate_stage (call : Call) :
    (call.phase.progress.isLogged false).toNat =
      (call.showed "duplicate").toNat + (call.phase.isLogged false).toNat := by
  obtain ⟨request, startTime, phase⟩ := call
  cases phase with
  | received => rfl
  | validated held => rfl
  | deduplicated held isNewSubmission => rfl
  | logged held isNewSubmission => cases isNewSubmission <;> rfl
  | saved held => rfl
  | returned response =>
      cases response with
      | duplicate => rfl
      | queued => rfl
      | error failure => cases failure <;> rfl

theorem Call.original_stage (call : Call) :
    call.phase.progress.hasOriginal.toNat =
      call.phase.progress.isSaved.toNat +
        (call.phase.isLogged true || call.phase.saveFailed).toNat := by
  obtain ⟨request, startTime, phase⟩ := call
  cases phase with
  | received => rfl
  | validated held => rfl
  | deduplicated held isNewSubmission => rfl
  | logged held isNewSubmission => cases isNewSubmission <;> rfl
  | saved held => rfl
  | returned response =>
      cases response with
      | duplicate => rfl
      | queued => rfl
      | error failure => cases failure <;> rfl

theorem Call.waiting_stage (call : Call) :
    (call.phase.isLogged true || call.phase.saveFailed).toNat =
      (call.phase.isLogged true).toNat + call.phase.saveFailed.toNat := by
  obtain ⟨request, startTime, phase⟩ := call
  cases phase with
  | logged held isNewSubmission => cases isNewSubmission <;> rfl
  | _ => simp [Phase.isLogged]

theorem Call.Sent.failed {call : Call} {posted : List Task} (sent : call.Sent posted)
    {response : Response} (stands : call.phase = .returned response)
    (failed : response.status = 500) : ∀ task ∈ posted, task.isSave = false := by
  intro task member
  rw [sent.tasks] at member
  obtain ⟨failure, rfl⟩ := response.status_error.mp failed
  cases valid : call.request.validated with
  | error refused =>
      simp only [Call.tasks, valid, List.not_mem_nil] at member
  | ok phone =>
      rw [Call.tasks_of_valid valid, stands] at member
      cases failure with
      | saveDelay detail =>
          rw [List.mem_singleton.mp member]
          rfl
      | parse detail => cases member
      | validation errors => cases member
      | cacheAdd detail => cases member
      | logDelay detail => cases member

theorem Call.Sent.recorded {call : Call} {posted : List Task} (sent : call.Sent posted)
    {response : Response} (stands : call.phase = .returned response)
    (answered : response.status = 200) :
    ∃ record, posted.filter (fun task => !task.isSave) = [.logRequestInMongoTask record] ∧
      record.duplicate = response.shows "duplicate" := by
  have fits := sent.fits
  rw [sent.tasks]
  rw [stands] at fits
  rcases response.status_ok.mp answered with rfl | rfl
  · obtain ⟨phone, valid⟩ := fits
    rw [Call.tasks_of_valid valid, stands]
    exact ⟨_, rfl, rfl⟩
  · obtain ⟨phone, valid⟩ := fits
    rw [Call.tasks_of_valid valid, stands]
    exact ⟨_, rfl, rfl⟩

/-! ### The ledger -/

namespace Web

theorem sum_share (web : Web) (phone : ValidatedPhone) (stage : Call → Bool) :
    (web.calls.map (fun call => call.share phone (stage call))).sum =
      web.calls.countP (fun call => call.isFor phone && stage call) :=
  sum_map_indicator web.calls (fun call => call.isFor phone && stage call)

theorem Inv.countP_published {web : Web} (inv : web.Inv) (phone : ValidatedPhone)
    (counted : Task → Bool) (stage : Progress → Bool)
    (fixed : ∀ (progress : Progress) request held, (progress.tasks request held).countP counted =
      if held = phone then (stage progress).toNat else 0) :
    web.published.countP (fun message => counted message.task) =
      (web.calls.map (fun call => call.share phone (stage call.phase.progress))).sum := by
  apply inv.sent.countP
  intro index call posted found sent
  rw [sent.tasks]
  exact call.countP_tasks phone counted stage fixed

theorem Inv.saves_eq {web : Web} (inv : web.Inv) (phone : ValidatedPhone) :
    web.saves phone =
      (web.calls.map (fun call => call.share phone call.phase.progress.isSaved)).sum :=
  inv.countP_published phone (Task.isSaveFor phone) Progress.isSaved
    (fun progress request held => progress.countP_save request held phone)

theorem Inv.saves_balance {web : Web} (inv : web.Inv) (phone : ValidatedPhone) :
    web.saves phone = web.answers "queued" phone + web.standing Phase.isSaved phone := by
  rw [inv.saves_eq phone]
  simp only [fun call : Call => call.share_add phone call.saved_stage]
  rw [sum_map_add, sum_share, sum_share]
  rfl

theorem Inv.duplicates_balance {web : Web} (inv : web.Inv) (phone : ValidatedPhone) :
    web.logs phone true =
      web.answers "duplicate" phone + web.standing (Phase.isLogged false) phone := by
  change web.published.countP (fun message => message.task.isLogFor phone true) = _
  rw [inv.countP_published phone (Task.isLogFor phone true) (Progress.isLogged false)
    (fun progress request held => progress.countP_duplicate request held phone)]
  simp only [fun call : Call => call.share_add phone call.duplicate_stage]
  rw [sum_map_add, sum_share, sum_share]
  rfl

theorem Inv.originals_balance {web : Web} (inv : web.Inv) (phone : ValidatedPhone) :
    web.logs phone false = web.saves phone + web.standing (Phase.isLogged true) phone +
      web.standing Phase.saveFailed phone := by
  change web.published.countP (fun message => message.task.isLogFor phone false) = _
  rw [inv.countP_published phone (Task.isLogFor phone false) Progress.hasOriginal
    (fun progress request held => progress.countP_original request held phone),
    inv.saves_eq phone]
  simp only [fun call : Call => call.share_add phone call.original_stage,
    fun call : Call => call.share_add phone call.waiting_stage]
  rw [sum_map_add, sum_map_add,
    sum_share web phone (fun call => call.phase.isLogged true),
    sum_share web phone (fun call => call.phase.saveFailed), Nat.add_assoc]
  rfl

theorem standing_saved (web : Web) (answered : ∀ call ∈ web.calls, call.phase.isSaved = false)
    (phone : ValidatedPhone) : web.standing Phase.isSaved phone = 0 := by
  apply List.countP_eq_zero.mpr
  intro call present atSaved
  rw [Bool.and_eq_true, answered call present] at atSaved
  cases atSaved.2

theorem ledger {web : Web} (reached : system.Reachable web) : web.Ledger := by
  have inv := inv_of_reachable reached
  refine
    { saves := inv.saves_balance
      duplicates := inv.duplicates_balance
      originals := inv.originals_balance
      failed := ?_
      recorded := ?_ }
  · intro index call response found stands failed message member own
    apply (inv.sent.account index call found).failed stands failed
    exact List.mem_map_of_mem (List.mem_filter.mpr ⟨member, decide_eq_true own⟩)
  · intro index call response found stands answered
    exact (inv.sent.account index call found).recorded stands answered

/-- A submission whose save publish raises, its retry, another one a day later, and one still
in flight. -/
def retriedRun : List WebAction :=
  [.arrive exampleRequest, .resume 0 .returns, .resume 0 .returns, .resume 0 .returns,
    .resume 0 (.raises (text "broker down")), .arrive exampleRequest, .resume 1 .returns,
    .resume 1 .returns, .resume 1 .returns, .resume 1 .returns, .tick day, .arrive exampleRequest,
    .resume 2 .returns, .resume 2 .returns, .resume 2 .returns, .resume 2 .returns,
    .resume 2 .returns, .arrive exampleRequest, .resume 3 .returns, .resume 3 .returns,
    .resume 3 .returns]

theorem ledger_retried : ∃ web, system.exec Web.start retriedRun = some web ∧
    web.calls.map Call.phase = [.returned (.error (.saveDelay (text "broker down"))),
      .returned .duplicate, .returned .queued, .logged examplePhone false] ∧
    web.saves examplePhone = 1 ∧ web.logs examplePhone true = 2 ∧
      web.logs examplePhone false = 2 ∧ web.Ledger := by
  have outcome : (system.exec Web.start retriedRun).any (fun web =>
      decide (web.calls.map Call.phase = [.returned (.error (.saveDelay (text "broker down"))),
        .returned .duplicate, .returned .queued, .logged examplePhone false]) &&
      decide (web.saves examplePhone = 1) && decide (web.logs examplePhone true = 2) &&
        decide (web.logs examplePhone false = 2)) = true := by decide
  obtain ⟨web, completed, checked⟩ := system.exec_of_any outcome
  simp only [Bool.and_eq_true, decide_eq_true_eq] at checked
  obtain ⟨⟨⟨phases, saves⟩, duplicates⟩, originals⟩ := checked
  exact ⟨web, completed, phases, saves, duplicates, originals,
    ledger (system.reachable_of_exec completed)⟩

end Web

end Bistland
