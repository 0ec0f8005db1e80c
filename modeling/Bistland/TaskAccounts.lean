/-
Where published messages are. In every reachable state of the cluster a message
is queued, pending with a worker, executed or lost, as often as it was published
and redelivered; the tables hold what was executed and nothing else; and the web
tier runs as it would alone.
-/

import Bistland.CallAccounts
import Bistland.WorkerTier
import Bistland.Library.Custody

namespace Bistland

open Custody

/-! ### What a message leaves in the tables -/

def Task.savedPhone : Task → Option ValidatedPhone
  | .savePhoneInSqlTask phone => some phone
  | .logRequestInMongoTask _ => none

def Task.loggedRecord : Task → Option LogMeta
  | .savePhoneInSqlTask _ => none
  | .logRequestInMongoTask record => some record

def Execution.stored (execution : Execution) : Option MongoRecord :=
  execution.message.task.loggedRecord.map (fun record => { record := record, ts := execution.time })

def ClusterAction.copy : ClusterAction → Option Message
  | .redeliver message => some message
  | _ => none

namespace Cluster

/-- The tables hold one row or record for each execution. -/
structure TablesWritten (cluster : Cluster) : Prop where
  phones : cluster.tables.phones.map PhoneRow.phone =
    cluster.executed.filterMap (fun execution => execution.message.task.savedPhone)
  mongo : cluster.tables.mongo = cluster.executed.filterMap Execution.stored

def MessagesAccounted (cluster : Cluster) : Prop :=
  Accounted Job.pending cluster.queue cluster.workers (cluster.executed.map Execution.message)
    cluster.lost (cluster.web.published ++ cluster.redelivered)

structure Inv (cluster : Cluster) : Prop where
  reached : Web.system.Reachable cluster.web
  accounted : cluster.MessagesAccounted
  copies : ∀ message ∈ cluster.redelivered, message ∈ cluster.web.published
  written : cluster.TablesWritten

end Cluster

/-! ### One step -/

theorem Web.step_publishes {web next : Web} {action : WebAction}
    (taken : Web.system.step web action = some next) :
    ∃ later, next.published = web.published ++ later := by
  cases step_cases taken with
  | logPublishes found stands => exact ⟨_, rfl⟩
  | savePublishes found stands => exact ⟨_, rfl⟩
  | addReturns found stands => exact ⟨[], (List.append_nil _).symm⟩
  | _ => exact ⟨[], (List.append_nil _).symm⟩

theorem Web.reachable_step {web next : Web} {action : WebAction}
    (reached : Web.system.Reachable web) (taken : Web.system.step web action = some next) :
    Web.system.Reachable next := by
  obtain ⟨actions, completed⟩ := reached
  refine ⟨actions ++ [action], ?_⟩
  rw [Web.system.exec_append, completed, Option.bind_some, Web.system.exec_cons taken]
  rfl

namespace Cluster

variable {cluster next : Cluster} {action : ClusterAction}

theorem serve_accounted (accounted : cluster.MessagesAccounted) {web : Web} {action : WebAction}
    (taken : Web.system.step cluster.web action = some web) :
    (cluster.serve web).MessagesAccounted := by
  obtain ⟨later, grown⟩ := Web.step_publishes taken
  have entered := Accounted.enter accounted later
  unfold MessagesAccounted serve
  simp only [grown, List.drop_left]
  apply List.Perm.trans entered
  rw [List.append_assoc, List.append_assoc]
  exact List.perm_append_comm.append_left cluster.web.published

theorem step_accounted (accounted : cluster.MessagesAccounted)
    (taken : system.step cluster action = some next) : next.MessagesAccounted := by
  cases step_cases taken with
  | web webTaken => exact serve_accounted accounted webTaken
  | hire => exact Accounted.hire accounted .idle rfl
  | reserve found waiting => exact Accounted.take accounted found rfl waiting _ rfl
  | acknowledge found => exact Accounted.keep accounted found _ rfl
  | create found save =>
      unfold MessagesAccounted assign record
      rw [List.map_append]
      exact Accounted.complete accounted found rfl _ rfl
  | stamp found log => exact Accounted.keep accounted found _ rfl
  | insertOne found log =>
      unfold MessagesAccounted assign record
      rw [List.map_append]
      exact Accounted.complete accounted found rfl _ rfl
  | finish found => exact Accounted.keep accounted found _ rfl
  | retire found => exact Accounted.keep accounted found _ rfl
  | giveBack found => exact Accounted.giveBack accounted found rfl _ rfl
  | @lose worker message since stage cause found unwritten due =>
      have free : Job.pending cause.after = none := by cases cause <;> rfl
      exact Accounted.lose accounted found (Job.running_unwritten message since unwritten).1 _ free
  | @cutShort worker message since cause found due =>
      have free : Job.pending cause.after = none := by cases cause <;> rfl
      exact Accounted.keep accounted found _ free
  | @redeliver message published =>
      have entered := Accounted.enter accounted [message]
      rw [List.append_assoc] at entered
      exact entered

theorem step_written (written : cluster.TablesWritten)
    (taken : system.step cluster action = some next) : next.TablesWritten := by
  obtain ⟨phones, mongo⟩ := written
  cases step_cases taken with
  | create found save =>
      refine ⟨?_, ?_⟩
      · simp only [assign, record, Tables.create, List.map_append, List.filterMap_append, phones]
        simp [Task.savedPhone, save]
      · simp only [assign, record, Tables.create, List.filterMap_append, mongo]
        simp [Execution.stored, Task.loggedRecord, save]
  | insertOne found log =>
      refine ⟨?_, ?_⟩
      · simp only [assign, record, Tables.insertOne, List.filterMap_append, phones]
        simp [Task.savedPhone, log]
      · simp only [assign, record, Tables.insertOne, List.filterMap_append, mongo]
        simp [Execution.stored, Task.loggedRecord, log]
  | web webTaken => exact ⟨phones, mongo⟩
  | hire => exact ⟨phones, mongo⟩
  | reserve found waiting => exact ⟨phones, mongo⟩
  | acknowledge found => exact ⟨phones, mongo⟩
  | stamp found log => exact ⟨phones, mongo⟩
  | finish found => exact ⟨phones, mongo⟩
  | retire found => exact ⟨phones, mongo⟩
  | giveBack found => exact ⟨phones, mongo⟩
  | lose found unwritten due => exact ⟨phones, mongo⟩
  | cutShort found due => exact ⟨phones, mongo⟩
  | redeliver published => exact ⟨phones, mongo⟩

theorem step_copies (copies : ∀ message ∈ cluster.redelivered, message ∈ cluster.web.published)
    (taken : system.step cluster action = some next) :
    ∀ message ∈ next.redelivered, message ∈ next.web.published := by
  cases step_cases taken with
  | @web _ web webTaken =>
      intro message member
      obtain ⟨later, grown⟩ := Web.step_publishes webTaken
      change message ∈ web.published
      rw [grown]
      exact List.mem_append_left _ (copies message member)
  | redeliver published =>
      intro message member
      rcases List.mem_append.mp member with earlier | last
      · exact copies message earlier
      · rw [List.mem_singleton.mp last]
        exact published
  | hire => exact copies
  | reserve found waiting => exact copies
  | acknowledge found => exact copies
  | create found save => exact copies
  | stamp found log => exact copies
  | insertOne found log => exact copies
  | finish found => exact copies
  | retire found => exact copies
  | giveBack found => exact copies
  | lose found unwritten due => exact copies
  | cutShort found due => exact copies

theorem step_reached (reached : Web.system.Reachable cluster.web)
    (taken : system.step cluster action = some next) : Web.system.Reachable next.web := by
  cases step_cases taken with
  | web webTaken => exact Web.reachable_step reached webTaken
  | _ => exact reached

/-! ### Reachable states -/

theorem inv_start : Cluster.start.Inv :=
  { reached := Web.system.reachable_initial
    accounted := accounted_nil Job.pending
    copies := fun message absent => by cases absent
    written := ⟨rfl, rfl⟩ }

theorem step_inv (inv : cluster.Inv) (taken : system.step cluster action = some next) : next.Inv :=
  { reached := step_reached inv.reached taken
    accounted := step_accounted inv.accounted taken
    copies := step_copies inv.copies taken
    written := step_written inv.written taken }

theorem inv_of_exec {actions : List ClusterAction}
    (completed : system.exec Cluster.start actions = some cluster) : cluster.Inv :=
  system.reachable_invariant step_inv inv_start (system.reachable_of_exec completed)

theorem Inv.published_of_executed (inv : cluster.Inv) {execution : Execution}
    (member : execution ∈ cluster.executed) : execution.message ∈ cluster.web.published := by
  have entered := inv.accounted.entered_of_done (List.mem_map_of_mem (f := Execution.message) member)
  rcases List.mem_append.mp entered with published | copied
  · exact published
  · exact inv.copies _ copied

theorem Inv.published_of_pending (inv : cluster.Inv) {worker : Nat} {job : Job}
    (found : cluster.workers[worker]? = some job) {message : Message}
    (carries : job.pending = some message) : message ∈ cluster.web.published := by
  have entered := inv.accounted.entered_of_held (mem_holdings found carries)
  rcases List.mem_append.mp entered with published | copied
  · exact published
  · exact inv.copies _ copied

/-! ### The history of redeliveries -/

theorem redelivered_eq {actions : List ClusterAction}
    (completed : system.exec Cluster.start actions = some cluster) :
    cluster.redelivered = actions.filterMap ClusterAction.copy := by
  have recorded := system.exec_history Cluster.redelivered ClusterAction.copy ?_ completed
  · exact recorded
  · intro state action next taken
    cases step_cases taken with
    | redeliver published => rfl
    | _ => exact (List.append_nil _).symm

theorem mem_redelivered {actions : List ClusterAction}
    (completed : system.exec Cluster.start actions = some cluster) (message : Message) :
    message ∈ cluster.redelivered ↔ .redeliver message ∈ actions := by
  rw [redelivered_eq completed, List.mem_filterMap]
  constructor
  · intro ⟨action, member, copied⟩
    cases action with
    | redeliver other =>
        cases copied
        exact member
    | _ => cases copied
  · intro member
    exact ⟨.redeliver message, member, rfl⟩

/-! ### Counts for a phone -/

def rows (cluster : Cluster) (phone : ValidatedPhone) : Nat :=
  cluster.tables.phones.countP (fun row => row.phone = phone)

def waiting (cluster : Cluster) (phone : ValidatedPhone) : Nat :=
  cluster.queue.countP (fun message => message.task.isSaveFor phone)

/-- Save messages for a phone in the hands of live workers. -/
def held (cluster : Cluster) (phone : ValidatedPhone) : Nat :=
  (cluster.workers.filterMap Job.message).countP (fun message => message.task.isSaveFor phone)

/-- Save messages for a phone whose effect is still to come from a worker. -/
def pending (cluster : Cluster) (phone : ValidatedPhone) : Nat :=
  (holdings Job.pending cluster.workers).countP (fun message => message.task.isSaveFor phone)

theorem count_savedPhone (messages : List Message) (phone : ValidatedPhone) :
    (messages.filterMap (fun message => message.task.savedPhone)).count phone =
      messages.countP (fun message => message.task.isSaveFor phone) := by
  rw [List.count_eq_countP, List.countP_filterMap]
  apply List.countP_congr
  intro message _
  cases content : message.task with
  | savePhoneInSqlTask held => simp [Task.savedPhone, Task.isSaveFor]
  | logRequestInMongoTask record => simp [Task.savedPhone, Task.isSaveFor]

def SaveFree (messages : List Message) : Prop :=
  ∀ message ∈ messages, message.task.isSave = false

theorem saveFree_iff (messages : List Message) : SaveFree messages ↔ ∀ phone,
    messages.countP (fun message => message.task.isSaveFor phone) = 0 := by
  constructor
  · intro free phone
    apply List.countP_eq_zero.mpr
    intro message member save
    have kept := free message member
    rw [(Task.isSaveFor_iff phone message.task).mp save] at kept
    cases kept
  · intro none message member
    cases content : message.task with
    | logRequestInMongoTask record => rfl
    | savePhoneInSqlTask phone =>
        have absent := List.countP_eq_zero.mp (none phone) message member
        exact False.elim (absent ((Task.isSaveFor_iff phone message.task).mpr content))

theorem rows_eq_count (cluster : Cluster) (phone : ValidatedPhone) :
    cluster.rows phone = (cluster.tables.phones.map PhoneRow.phone).count phone := by
  unfold rows
  rw [List.count_eq_countP, List.countP_map]
  apply List.countP_congr
  intro row _
  simp

theorem Inv.rows_eq (inv : cluster.Inv) (phone : ValidatedPhone) :
    cluster.rows phone = (cluster.executed.map Execution.message).countP
      (fun message => message.task.isSaveFor phone) := by
  rw [rows_eq_count, inv.written.phones, ← count_savedPhone, List.filterMap_map]
  rfl

/-- The saves of a phone, published or redelivered, are in the table, waiting, pending or lost. -/
theorem Inv.saves_accounted (inv : cluster.Inv) (phone : ValidatedPhone) :
    cluster.waiting phone + cluster.pending phone + cluster.rows phone +
        cluster.lost.countP (fun message => message.task.isSaveFor phone) =
      cluster.web.published.countP (fun message => message.task.isSaveFor phone) +
        cluster.redelivered.countP (fun message => message.task.isSaveFor phone) := by
  rw [inv.rows_eq phone, ← List.countP_append]
  exact inv.accounted.countP (fun message => message.task.isSaveFor phone)

end Cluster

end Bistland
