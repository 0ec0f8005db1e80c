/-
Where the rows and the records come from. Each is traced back through its message and the
`cache.add` of its request to a request that arrived, with nothing in between changed, and
the times along that way never run backwards.
-/

import Bistland.AuditTimeline
import Bistland.Deduplication
import Bistland.Draining
import Bistland.Library.Selection

namespace Bistland

open Custody Expiring OwnerAccounts Selection

/-! ### Times of calls and attempts -/

namespace Web

/-- No call starts in the future, and none makes its attempt before it starts. -/
structure Timed (web : Web) : Prop where
  started : ∀ call ∈ web.calls, call.startTime ≤ web.now
  attempted : ∀ attempt ∈ web.attempts, ∀ call, web.calls[attempt.owner]? = some call →
    call.startTime ≤ attempt.time

variable {web next : Web} {action : WebAction}

theorem timed_start : Web.start.Timed :=
  { started := fun call absent => by cases absent
    attempted := fun attempt absent => by cases absent }

theorem Timed.proceed (timed : web.Timed) {index : Nat} {call : Call}
    (found : web.calls[index]? = some call) (phase : Phase) :
    (web.proceed index call phase).Timed := by
  constructor
  · intro other member
    rcases List.mem_or_eq_of_mem_set member with present | same
    · exact timed.started other present
    · rw [same]
      exact timed.started call (List.mem_of_getElem? found)
  · intro attempt member other foundOther
    have moved : (web.calls.set index { call with phase := phase })[attempt.owner]? =
      some other := foundOther
    by_cases own : index = attempt.owner
    · subst own
      rw [List.getElem?_set_self (List.getElem?_eq_some_iff.mp found).1] at moved
      cases moved
      exact timed.attempted attempt member call found
    · rw [List.getElem?_set_ne own] at moved
      exact timed.attempted attempt member other moved

theorem Timed.answer (timed : web.Timed) {index : Nat} {call : Call}
    (found : web.calls[index]? = some call) (response : Response) :
    (web.answer index call response).Timed :=
  { timed.proceed found (.returned response) with }

theorem Timed.addKey (timed : web.Timed) {index : Nat} {call : Call}
    (found : web.calls[index]? = some call) (phone : ValidatedPhone) :
    (web.addKey index phone).2.Timed := by
  refine { timed with attempted := ?_ }
  intro attempt member other foundOther
  rcases List.mem_append.mp member with earlier | isLast
  · exact timed.attempted attempt earlier other foundOther
  · rw [List.mem_singleton.mp isLast] at foundOther ⊢
    have same : some call = some other := found.symm.trans foundOther
    cases same
    exact timed.started call (List.mem_of_getElem? found)

theorem step_timed (inv : web.Inv) (timed : web.Timed)
    (taken : system.step web action = some next) : next.Timed := by
  cases step_cases taken with
  | tick elapsed =>
      exact { timed with
        started := fun call member =>
          Nat.le_trans (timed.started call member) (Nat.le_add_right _ _) }
  | cachePage key value page => exact ⟨timed.started, timed.attempted⟩
  | arrive request =>
      constructor
      · intro call member
        rcases List.mem_append.mp member with earlier | isLast
        · exact timed.started call earlier
        · rw [List.mem_singleton.mp isLast]
      · intro attempt member call found
        have inside := inv.attempted.owned attempt member
        have kept : (web.calls ++ [_])[attempt.owner]? = some call := found
        rw [List.getElem?_append_left inside] at kept
        exact timed.attempted attempt member call kept
  | refuse reply found stands refused => exact timed.answer found _
  | validate reply found stands valid => exact timed.proceed found _
  | addRaises detail found stands => exact timed.answer found _
  | addReturns found stands => exact (timed.addKey found _).proceed found _
  | logRaises detail found stands => exact timed.answer found _
  | logPublishes found stands => exact { timed.proceed found _ with }
  | answerDuplicate reply found stands => exact timed.answer found _
  | saveRaises detail found stands => exact timed.answer found _
  | savePublishes found stands => exact { timed.proceed found _ with }
  | answerQueued reply found stands => exact timed.answer found _

theorem timed_of_reachable (reached : system.Reachable web) : web.Timed := by
  have both : web.Inv ∧ web.Timed := by
    apply system.reachable_invariant ?_ ?_ reached
    · intro state action next ⟨inv, timed⟩ taken
      exact ⟨step_inv inv taken, step_timed inv timed taken⟩
    · exact ⟨inv_start, timed_start⟩
  exact both.2

/-! ### The requests that arrived -/

def arrival : WebAction → Option Request
  | .arrive request => some request
  | _ => none

theorem step_arrival (taken : system.step web action = some next) :
    next.calls.map Call.request = web.calls.map Call.request ++ (arrival action).toList := by
  cases action with
  | tick elapsed =>
      cases taken
      exact (List.append_nil _).symm
  | cachePage key value =>
      cases step_cases taken
      exact (List.append_nil _).symm
  | arrive request =>
      cases taken
      exact List.map_append
  | resume index reply =>
      obtain ⟨call, phase, advances⟩ := step_advances taken
      rw [advances.changed, List.map_set]
      have held : (web.calls.map Call.request)[index]? = some call.request := by
        rw [List.getElem?_map, advances.found]
        rfl
      obtain ⟨inside, same⟩ := List.getElem?_eq_some_iff.mp held
      change (web.calls.map Call.request).set index call.request = _
      rw [← same, List.set_getElem_self]
      exact (List.append_nil _).symm

/-- A published log carries what its request says. -/
theorem Inv.request_of_log (inv : web.Inv) {message : Message}
    (member : message ∈ web.published) {record : LogMeta}
    (log : message.task = .logRequestInMongoTask record) :
    ∃ call isNewSubmission, web.calls[message.sender]? = some call ∧
      call.request.validated = .ok record.phone ∧
      message.task = call.request.log record.phone isNewSubmission := by
  obtain ⟨call, found, posted⟩ := inv.sent.holder_of_mem member
  have task : message.task ∈ call.tasks := by
    rw [← (inv.sent.account message.sender call found).tasks]
    exact List.mem_map_of_mem posted
  cases valid : call.request.validated with
  | error failure => simp only [Call.tasks, valid, List.not_mem_nil] at task
  | ok phone =>
      rw [Call.tasks_of_valid valid] at task
      have own : ∃ isNewSubmission, message.task = call.request.log phone isNewSubmission := by
        cases stage : call.phase.progress with
        | nothing => simp only [stage, Progress.tasks, List.not_mem_nil] at task
        | logged isNewSubmission =>
            rw [stage] at task
            exact ⟨isNewSubmission, List.mem_singleton.mp task⟩
        | saved =>
            rw [stage] at task
            rcases List.mem_cons.mp task with isLog | isSave
            · exact ⟨true, isLog⟩
            · rw [log] at isSave
              cases List.mem_singleton.mp isSave
      obtain ⟨isNewSubmission, same⟩ := own
      have samePhone : record.phone = phone := by
        rw [log] at same
        cases same
        rfl
      rw [samePhone]
      exact ⟨call, isNewSubmission, found, valid, same⟩

end Web

/-! ### Rows as they are written -/

namespace Cluster

/-- The rows are those of the executed saves with their times, and no time is ahead. -/
structure RowsWritten (cluster : Cluster) : Prop where
  contents : cluster.tables.phones.map (fun row => (row.phone, row.createdAt)) =
    cluster.executed.filterMap (fun execution =>
      execution.message.task.savedPhone.map (fun phone => (phone, execution.time)))
  stamped : ∀ message since ts, Job.running message since (.stamped ts) ∈ cluster.workers →
    ts ≤ cluster.web.now
  executed : ∀ execution ∈ cluster.executed, execution.time ≤ cluster.web.now

variable {cluster next : Cluster} {action : ClusterAction}

theorem stampedLate_start : Cluster.start.StampedLate :=
  { executed := fun execution absent => by cases absent
    running := fun message since ts absent => by cases absent }

theorem rows_start : Cluster.start.RowsWritten :=
  { contents := rfl
    stamped := fun message since ts absent => by cases absent
    executed := fun execution absent => by cases absent }

theorem now_le (taken : system.step cluster action = some next) :
    cluster.web.now ≤ next.web.now := by
  cases step_cases taken with
  | @web _ web webTaken =>
      change cluster.web.now ≤ web.now
      cases Web.step_cases webTaken with
      | tick elapsed => exact Nat.le_add_right _ _
      | _ => exact Nat.le_refl _
  | _ => exact Nat.le_refl _

theorem RowsWritten.assign (rows : cluster.RowsWritten) (worker : Nat) (job : Job)
    (plain : ∀ message since ts, job = .running message since (.stamped ts) →
      ts ≤ cluster.web.now) : (cluster.assign worker job).RowsWritten := by
  refine { rows with stamped := ?_ }
  intro message since ts member
  rcases List.mem_or_eq_of_mem_set member with present | same
  · exact rows.stamped message since ts present
  · exact plain message since ts same.symm

theorem RowsWritten.create (rows : cluster.RowsWritten) {message : Message}
    {phone : ValidatedPhone} (save : message.task = .savePhoneInSqlTask phone) :
    (cluster.record message cluster.web.now
      (cluster.tables.create phone cluster.web.now)).RowsWritten := by
  refine { rows with contents := ?_, executed := ?_ }
  · simp only [record, Tables.create, List.map_append, rows.contents, List.filterMap_append]
    simp [Task.savedPhone, save]
  · intro execution member
    rcases List.mem_append.mp member with earlier | isLast
    · exact rows.executed execution earlier
    · rw [List.mem_singleton.mp isLast]
      exact Nat.le_refl _

theorem RowsWritten.insertOne (rows : cluster.RowsWritten) {message : Message} {record : LogMeta}
    (log : message.task = .logRequestInMongoTask record) {ts : Nat} (past : ts ≤ cluster.web.now) :
    (cluster.record message ts (cluster.tables.insertOne record ts)).RowsWritten := by
  refine { rows with contents := ?_, executed := ?_ }
  · simp only [Cluster.record, Tables.insertOne, rows.contents, List.filterMap_append]
    simp [Task.savedPhone, log]
  · intro execution member
    rcases List.mem_append.mp member with earlier | isLast
    · exact rows.executed execution earlier
    · rw [List.mem_singleton.mp isLast]
      exact past

theorem step_rows (rows : cluster.RowsWritten)
    (taken : system.step cluster action = some next) : next.RowsWritten := by
  have later := now_le taken
  cases step_cases taken with
  | web webTaken =>
      exact { rows with
        stamped := fun message since ts member =>
          Nat.le_trans (rows.stamped message since ts member) later
        executed := fun execution member =>
          Nat.le_trans (rows.executed execution member) later }
  | hire =>
      refine { rows with stamped := ?_ }
      intro message since ts member
      rcases List.mem_append.mp member with present | isNew
      · exact rows.stamped message since ts present
      · cases List.mem_singleton.mp isNew
  | create found save =>
      apply (rows.create save).assign
      intro message since ts same
      cases same
  | stamp found log =>
      apply rows.assign
      intro message since ts same
      cases same
      exact Nat.le_refl _
  | insertOne found log =>
      apply (rows.insertOne log (rows.stamped _ _ _ (List.mem_of_getElem? found))).assign
      intro message since ts same
      cases same
  | @lose worker message since stage cause found unwritten due =>
      refine { rows.assign worker cause.after ?_ with }
      intro message since ts same
      cases cause <;> cases same
  | @cutShort worker message since cause found due =>
      apply rows.assign
      intro message since ts same
      cases cause <;> cases same
  | redeliver published => exact { rows with }
  | reserve found waiting =>
      refine { rows.assign _ (.reserved _) ?_ with }
      intro message since ts same
      cases same
  | giveBack found =>
      refine { rows.assign _ .dead ?_ with }
      intro message since ts same
      cases same
  | _ =>
      apply rows.assign
      intro message since ts same
      cases same

/-! ### The row of a message -/

/-- An execution of the message has created the row: the row stands where that execution
stands among the executed saves, and has its time. -/
def Wrote (cluster : Cluster) (message : Message) (row : PhoneRow) : Prop :=
  ∃ (place : Nat) (execution : Execution), cluster.executed[place]? = some execution ∧
    execution.message = message ∧ execution.time = row.createdAt ∧
      cluster.tables.phones[rank (fun execution => execution.message.task.isSave)
        cluster.executed place]? = some row

theorem RowsWritten.wrote (rows : cluster.RowsWritten) {execution : Execution}
    (member : execution ∈ cluster.executed) {phone : ValidatedPhone}
    (save : execution.message.task = .savePhoneInSqlTask phone) :
    ∃ row, cluster.Wrote execution.message row ∧ row.phone = phone := by
  obtain ⟨place, found⟩ := List.getElem?_of_mem member
  let keep := fun execution : Execution =>
    execution.message.task.savedPhone.map (fun phone => (phone, execution.time))
  have keeps : keep execution = some (phone, execution.time) := by
    simp only [keep, save, Task.savedPhone, Option.map_some]
  have saves : (fun execution => (keep execution).isSome) =
      fun execution => execution.message.task.isSave := by
    funext execution
    simp only [keep]
    cases execution.message.task <;> rfl
  have here := filterMap_at_rank found keeps
  rw [← rows.contents, saves, List.getElem?_map] at here
  obtain ⟨row, foundRow, same⟩ := Option.map_eq_some_iff.mp here
  obtain ⟨samePhone, sameTime⟩ := Prod.mk.inj same
  exact ⟨row, ⟨place, execution, found, rfl, sameTime.symm, foundRow⟩, samePhone⟩

/-! ### The way back from the tables -/

/-- The way from a request to a task of its call: the call of the request, its attempt at
the gate, and the published message. -/
structure Origin (cluster : Cluster) (message : Message) (phone : ValidatedPhone)
    (accepted : Bool) (written : Nat) (call : Call) (attempt : Attempt ValidatedPhone) :
    Prop where
  published : message ∈ cluster.web.published
  caller : cluster.web.calls[message.sender]? = some call
  valid : call.request.validated = .ok phone
  attempted : attempt ∈ cluster.web.attempts
  owner : attempt.owner = message.sender
  key : attempt.key = phone
  answer : attempt.accepted = accepted
  started : call.startTime ≤ attempt.time
  passed : attempt.time ≤ written
  past : written ≤ cluster.web.now

/-- Every row is that of an accepted request, every record says what its request said and
whether it was accepted, and the requests of the calls are those that arrived. -/
structure Provenance (cluster : Cluster) (requests : List Request) : Prop where
  calls : cluster.web.calls.map Call.request = requests
  rows : ∀ row ∈ cluster.tables.phones, ∃ message call attempt,
    message.task = .savePhoneInSqlTask row.phone ∧
      cluster.Origin message row.phone true row.createdAt call attempt
  records : ∀ stored ∈ cluster.tables.mongo, ∃ message call attempt,
    .logRequestInMongoTask stored.record =
        call.request.log stored.record.phone attempt.accepted ∧
      cluster.Origin message stored.record.phone attempt.accepted stored.ts call attempt

def arrival : ClusterAction → Option Request
  | .web action => Web.arrival action
  | _ => none

theorem calls_eq {actions : List ClusterAction}
    (completed : system.exec Cluster.start actions = some cluster) :
    cluster.web.calls.map Call.request = actions.filterMap arrival := by
  have recorded := system.exec_history
    (fun cluster : Cluster => cluster.web.calls.map Call.request) arrival ?_ completed
  · exact recorded
  · intro state action next taken
    cases step_cases taken with
    | web webTaken => exact Web.step_arrival webTaken
    | _ => exact (List.append_nil _).symm

/-- What the runs of a cluster keep about the times of what they write. -/
structure Dated (cluster : Cluster) : Prop where
  inv : cluster.Inv
  stamped : cluster.StampedLate
  rows : cluster.RowsWritten

theorem dated_start : Cluster.start.Dated :=
  { inv := inv_start
    stamped := stampedLate_start
    rows := rows_start }

theorem step_dated (dated : cluster.Dated) (taken : system.step cluster action = some next) :
    next.Dated :=
  { inv := step_inv dated.inv taken
    stamped := step_stamped dated.inv dated.stamped taken
    rows := step_rows dated.rows taken }

theorem dated_of_exec {actions : List ClusterAction}
    (completed : system.exec Cluster.start actions = some cluster) : cluster.Dated :=
  system.reachable_invariant step_dated dated_start (system.reachable_of_exec completed)

/-- The attempt of a call that has published a message, whatever the message is. -/
theorem Dated.origin_of_attempt (dated : cluster.Dated) {execution : Execution}
    (member : execution ∈ cluster.executed) {attempt : Attempt ValidatedPhone}
    (attempted : attempt ∈ cluster.web.attempts)
    (owner : attempt.owner = execution.message.sender) :
    ∃ call, cluster.Origin execution.message attempt.key attempt.accepted execution.time call
      attempt := by
  obtain ⟨call, answers, caller, held, answered⟩ :=
    (Web.inv_of_reachable dated.inv.reached).maker attempted
  have timed := Web.timed_of_reachable dated.inv.reached
  refine ⟨call, ?_⟩
  exact
    { published := dated.inv.published_of_executed member
      caller := owner ▸ caller
      valid := (held.answered answered).1
      attempted := attempted
      owner := owner
      key := rfl
      answer := rfl
      started := timed.attempted attempt attempted call caller
      passed := dated.stamped.executed execution member attempt attempted owner
      past := dated.rows.executed execution member }

theorem Dated.row_origin (dated : cluster.Dated) {row : PhoneRow}
    (member : row ∈ cluster.tables.phones) : ∃ message call attempt,
      message.task = .savePhoneInSqlTask row.phone ∧
        cluster.Origin message row.phone true row.createdAt call attempt := by
  have written := List.mem_map_of_mem (f := fun row : PhoneRow => (row.phone, row.createdAt)) member
  rw [dated.rows.contents] at written
  obtain ⟨execution, executed, saved⟩ := List.mem_filterMap.mp written
  obtain ⟨phone, isSave, same⟩ := Option.map_eq_some_iff.mp saved
  obtain ⟨samePhone, sameTime⟩ := Prod.mk.inj same
  have save : execution.message.task = .savePhoneInSqlTask row.phone := by
    cases content : execution.message.task with
    | savePhoneInSqlTask held =>
        rw [content] at isSave
        cases isSave
        rw [samePhone]
    | logRequestInMongoTask record =>
        rw [content] at isSave
        cases isSave
  obtain ⟨attempt, attempted, owner, key, accepted⟩ :=
    (Web.inv_of_reachable dated.inv.reached).winner_of_save
      (dated.inv.published_of_executed executed) save
  obtain ⟨call, origin⟩ := dated.origin_of_attempt executed attempted owner
  rw [key, accepted, sameTime] at origin
  exact ⟨execution.message, call, attempt, save, origin⟩

theorem Dated.record_origin (dated : cluster.Dated) {stored : MongoRecord}
    (member : stored ∈ cluster.tables.mongo) : ∃ message call attempt,
      .logRequestInMongoTask stored.record =
          call.request.log stored.record.phone attempt.accepted ∧
        cluster.Origin message stored.record.phone attempt.accepted stored.ts call attempt := by
  have web := Web.inv_of_reachable dated.inv.reached
  rw [dated.inv.written.mongo] at member
  obtain ⟨execution, executed, isStored⟩ := List.mem_filterMap.mp member
  obtain ⟨record, isLog, same⟩ := Option.map_eq_some_iff.mp isStored
  have log : execution.message.task = .logRequestInMongoTask stored.record := by
    cases content : execution.message.task with
    | savePhoneInSqlTask held =>
        rw [content] at isLog
        cases isLog
    | logRequestInMongoTask held =>
        rw [content] at isLog
        cases isLog
        rw [← same]
  have published := dated.inv.published_of_executed executed
  obtain ⟨attempt, attempted, owner, key, accepted⟩ := web.attempt_of_log published log
  obtain ⟨call, origin⟩ := dated.origin_of_attempt executed attempted owner
  obtain ⟨sender, isNewSubmission, caller, _, content⟩ := web.request_of_log published log
  have sameCall := origin.caller.symm.trans caller
  cases sameCall
  have own : attempt.accepted = isNewSubmission := by
    rw [log] at content
    have same := Option.some.inj (congrArg Task.loggedRecord content)
    rw [accepted, same, Bool.not_not]
  rw [key, show execution.time = stored.ts by rw [← same]] at origin
  refine ⟨execution.message, call, attempt, ?_, origin⟩
  rw [own, ← content, log]

theorem provenance {actions : List ClusterAction} {final : Cluster}
    (completed : system.exec Cluster.start actions = some final) :
    final.Provenance (actions.filterMap arrival) := by
  have dated := dated_of_exec completed
  exact
    { calls := calls_eq completed
      rows := fun row member => dated.row_origin member
      records := fun stored member => dated.record_origin member }

theorem provenance_overtaken : ∃ final, system.exec Cluster.start overtakenRun = some final ∧
    final.Provenance [exampleRequest, exampleRequest] := by
  obtain ⟨final, completed⟩ :=
    Option.isSome_iff_exists.mp (show (system.exec Cluster.start overtakenRun).isSome by decide)
  exact ⟨final, completed, provenance completed⟩

end Cluster

end Bistland
