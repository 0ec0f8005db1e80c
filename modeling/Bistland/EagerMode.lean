/-
`CELERY_TASK_ALWAYS_EAGER` against the queue. With the same steps of the web
tier and the same fate for each published task, a finished queued run leaves the
answers and the tables, up to order and timestamps, of the run in which every
`.delay` executes its task at once.
-/

import Bistland.TaskAccounts

namespace Bistland

open Custody

/-! ### Eager mode -/

def Web.breaksPublish (web : Web) : WebAction → Bool
  | .resume index (.raises _) =>
      match web.calls[index]? with
      | none => false
      | some call =>
          match call.phase with
          | .deduplicated _ _ => true
          | .logged _ isNewSubmission => isNewSubmission
          | _ => false
  | _ => false

/-- A task body that does not fail. -/
def Task.run (now : Nat) (tables : Tables) : Task → Tables
  | .savePhoneInSqlTask phone => tables.create phone now
  | .logRequestInMongoTask record => tables.insertOne record now

/-- `.delay` in eager mode; a task that fails writes nothing and does not raise. -/
def runInline (fate : Nat → Bool) (now : Nat) (tables : Tables) (message : Message) : Tables :=
  if fate message.id then message.task.run now tables else tables

structure Eager where
  web : Web
  tables : Tables

namespace Eager

def start : Eager :=
  { web := Web.start
    tables := Tables.empty }

/-- A step of the web tier; each task it publishes runs within the step. -/
def serve (fate : Nat → Bool) (eager : Eager) (next : Web) : Eager :=
  { web := next
    tables := (next.published.drop eager.web.published.length).foldl (runInline fate next.now)
      eager.tables }

def step (fate : Nat → Bool) (eager : Eager) (action : WebAction) : Option Eager :=
  if eager.web.breaksPublish action then none
  else (Web.system.step eager.web action).map (eager.serve fate)

def system (fate : Nat → Bool) : Transition.System Eager WebAction :=
  { initial := Eager.start
    step := Eager.step fate }

end Eager

/-! ### Queued runs with given fates -/

def Job.writes : Job → Option Message
  | .running message _ .begun => if message.task.isSave then some message else none
  | .running message _ (.stamped _) => some message
  | _ => none

def ClusterAction.onWeb : ClusterAction → Option WebAction
  | .web action => some action
  | _ => none

namespace Cluster

/-- No publish raises, each delivered task succeeds or raises as fated, and no worker is
stopped otherwise. -/
def follows (fate : Nat → Bool) (cluster : Cluster) : ClusterAction → Bool
  | .web action => !cluster.web.breaksPublish action
  | .hire => true
  | .reserve _ _ => true
  | .work worker =>
      ((cluster.workers[worker]?).bind Job.writes).all (fun message => fate message.id)
  | .interrupt worker cause =>
      cause = .raised &&
        ((cluster.workers[worker]?).bind Job.unwritten).any (fun message => !fate message.id)
  | .redeliver _ => false

/-- A run with given fates that ends with every message executed or failed. -/
structure Finished (fate : Nat → Bool) (actions : List ClusterAction) (final : Cluster) : Prop where
  completed : system.exec Cluster.start actions = some final
  fated : system.Guarded (fun cluster action => cluster.follows fate action = true) Cluster.start
    actions
  empty : final.queue = []
  free : holdings Job.pending final.workers = []

/-- What the tables hold of given messages, whatever their order. -/
structure Holds (tables : Tables) (messages : List Message) : Prop where
  phones : (tables.phones.map PhoneRow.phone).Perm
    (messages.filterMap (fun message => message.task.savedPhone))
  mongo : (tables.mongo.map MongoRecord.record).Perm
    (messages.filterMap (fun message => message.task.loggedRecord))

/-- Executions and failures so far are the fated ones, and nothing was redelivered. -/
structure Fated (fate : Nat → Bool) (cluster : Cluster) : Prop where
  executed : ∀ message ∈ cluster.executed.map Execution.message, fate message.id = true
  lost : ∀ message ∈ cluster.lost, fate message.id = false
  single : cluster.redelivered = []

theorem step_fated {fate : Nat → Bool} {cluster next : Cluster} {action : ClusterAction}
    (fated : Fated fate cluster) (follows : cluster.follows fate action = true)
    (taken : system.step cluster action = some next) : Fated fate next := by
  have record : ∀ (message : Message) (time : Nat), fate message.id = true →
      ∀ each ∈ (cluster.executed ++ [(⟨message, time⟩ : Execution)]).map Execution.message,
        fate each.id = true := by
    intro message time succeeds each member
    rw [List.map_append] at member
    rcases List.mem_append.mp member with earlier | last
    · exact fated.executed each earlier
    · rw [List.mem_singleton.mp last]
      exact succeeds
  cases step_cases taken with
  | create found save =>
      simp only [Cluster.follows, found, Option.bind_some, Job.writes, save, Task.isSave, if_true,
        Option.all_some] at follows
      exact ⟨record _ _ follows, fated.lost, fated.single⟩
  | insertOne found log =>
      simp only [Cluster.follows, found, Option.bind_some, Job.writes, Option.all_some] at follows
      exact ⟨record _ _ follows, fated.lost, fated.single⟩
  | @lose worker message since stage cause found unwritten due =>
      simp only [Cluster.follows, found, Option.bind_some,
        (Job.running_unwritten message since unwritten).2, Option.any_some, Bool.and_eq_true,
        Bool.not_eq_true'] at follows
      refine ⟨fated.executed, ?_, fated.single⟩
      intro each member
      rcases List.mem_append.mp member with earlier | last
      · exact fated.lost each earlier
      · rw [List.mem_singleton.mp last]
        exact follows.2
  | redeliver published => cases follows
  | _ => exact ⟨fated.executed, fated.lost, fated.single⟩

theorem Finished.fated_end {fate : Nat → Bool} {actions : List ClusterAction} {final : Cluster}
    (finished : Finished fate actions final) : Fated fate final := by
  have start : Fated fate Cluster.start :=
    { executed := fun message absent => by cases absent
      lost := fun message absent => by cases absent
      single := rfl }
  exact system.run_invariant step_fated start finished.fated finished.completed

theorem Finished.executed {fate : Nat → Bool} {actions : List ClusterAction} {final : Cluster}
    (finished : Finished fate actions final) :
    (final.executed.map Execution.message).Perm
      (final.web.published.filter (fun message => fate message.id)) := by
  have fated := finished.fated_end
  have accounted := (inv_of_exec finished.completed).accounted
  unfold MessagesAccounted at accounted
  rw [finished.empty, fated.single, List.append_nil] at accounted
  have all := (Accounted.settled accounted finished.free).filter (fun message => fate message.id)
  rw [List.filter_append, List.filter_eq_self.mpr fated.executed] at all
  have none : final.lost.filter (fun message => fate message.id) = [] := by
    apply List.filter_eq_nil_iff.mpr
    intro message member
    rw [fated.lost message member]
    exact Bool.false_ne_true
  rw [none, List.append_nil] at all
  exact all

theorem Finished.holds {fate : Nat → Bool} {actions : List ClusterAction} {final : Cluster}
    (finished : Finished fate actions final) :
    Holds final.tables (final.web.published.filter (fun message => fate message.id)) := by
  have written := (inv_of_exec finished.completed).written
  refine ⟨?_, ?_⟩
  · rw [written.phones]
    have moved := finished.executed.filterMap (fun message => message.task.savedPhone)
    rw [List.filterMap_map] at moved
    exact moved
  · rw [written.mongo, List.map_filterMap]
    have moved := finished.executed.filterMap (fun message => message.task.loggedRecord)
    rw [List.filterMap_map] at moved
    apply List.Perm.trans ?_ moved
    apply List.Perm.of_eq
    apply List.filterMap_congr
    intro execution _
    cases content : execution.message.task <;>
      simp [Execution.stored, Task.loggedRecord, content]

end Cluster

/-! ### The eager run beside a queued one -/

namespace Eager

/-- The eager tables hold, in order, what the published tasks were fated to write. -/
structure Inv (fate : Nat → Bool) (eager : Eager) : Prop where
  phones : eager.tables.phones.map PhoneRow.phone =
    (eager.web.published.filter (fun message => fate message.id)).filterMap
      (fun message => message.task.savedPhone)
  mongo : eager.tables.mongo.map MongoRecord.record =
    (eager.web.published.filter (fun message => fate message.id)).filterMap
      (fun message => message.task.loggedRecord)

theorem foldl_runInline (fate : Nat → Bool) (now : Nat) (tables : Tables)
    (messages : List Message) :
    (messages.foldl (runInline fate now) tables).phones.map PhoneRow.phone =
        tables.phones.map PhoneRow.phone ++
          (messages.filter (fun message => fate message.id)).filterMap
            (fun message => message.task.savedPhone) ∧
      (messages.foldl (runInline fate now) tables).mongo.map MongoRecord.record =
        tables.mongo.map MongoRecord.record ++
          (messages.filter (fun message => fate message.id)).filterMap
            (fun message => message.task.loggedRecord) := by
  induction messages generalizing tables with
  | nil => exact ⟨(List.append_nil _).symm, (List.append_nil _).symm⟩
  | cons message rest ih =>
      obtain ⟨phones, mongo⟩ := ih (runInline fate now tables message)
      rw [List.foldl_cons, phones, mongo]
      unfold runInline
      cases succeeds : fate message.id with
      | false => simp [succeeds]
      | true =>
          cases content : message.task with
          | savePhoneInSqlTask phone =>
              simp [succeeds, content, Task.run, Tables.create, Task.savedPhone, Task.loggedRecord]
          | logRequestInMongoTask record =>
              simp [succeeds, content, Task.run, Tables.insertOne, Task.savedPhone,
                Task.loggedRecord]

theorem serve_inv {fate : Nat → Bool} {eager : Eager} {next : Web} {action : WebAction}
    (inv : Inv fate eager) (taken : Web.system.step eager.web action = some next) :
    Inv fate (eager.serve fate next) := by
  obtain ⟨later, grown⟩ := Web.step_publishes taken
  obtain ⟨phones, mongo⟩ := foldl_runInline fate next.now eager.tables later
  unfold serve
  rw [grown, List.drop_left]
  refine ⟨?_, ?_⟩
  · change (later.foldl (runInline fate next.now) eager.tables).phones.map PhoneRow.phone = _
    rw [phones, inv.phones, grown, List.filter_append, List.filterMap_append]
  · change (later.foldl (runInline fate next.now) eager.tables).mongo.map MongoRecord.record = _
    rw [mongo, inv.mongo, grown, List.filter_append, List.filterMap_append]

/-- Only the web steps of a queued run are steps of the eager one. -/
def simulation (fate : Nat → Bool) :
    Transition.Simulation Cluster.system (Eager.system fate)
      (fun cluster action => cluster.follows fate action = true) ClusterAction.onWeb :=
  { Related := fun cluster eager => cluster.web = eager.web ∧ Inv fate eager
    initial := ⟨rfl, rfl, rfl⟩
    silent := by
      intro cluster eager action next related follows taken hidden
      obtain ⟨same, inv⟩ := related
      cases Cluster.step_cases taken with
      | web webTaken => cases hidden
      | _ => exact ⟨same, inv⟩
    matched := by
      intro cluster eager action next label related follows taken shown
      obtain ⟨same, inv⟩ := related
      cases Cluster.step_cases taken with
      | @web _ web webTaken =>
          cases shown
          rw [same] at webTaken
          have publishes : eager.web.breaksPublish label = false := by
            rw [← same]
            exact (Bool.not_eq_true' _).mp follows
          refine ⟨eager.serve fate web, ?_, rfl, serve_inv inv webTaken⟩
          change (if eager.web.breaksPublish label then none else
            (Web.system.step eager.web label).map (eager.serve fate)) = _
          rw [publishes, if_neg Bool.false_ne_true, webTaken]
          rfl
      | _ => cases shown }

end Eager

namespace Cluster

/-- The same rows and records, up to order, row ids and timestamps. -/
structure SameTables (left right : Tables) : Prop where
  phones : (left.phones.map PhoneRow.phone).Perm (right.phones.map PhoneRow.phone)
  mongo : (left.mongo.map MongoRecord.record).Perm (right.mongo.map MongoRecord.record)

theorem Holds.same {left right : Tables} {messages : List Message} (holds : Holds left messages)
    (other : Holds right messages) : SameTables left right :=
  { phones := holds.phones.trans other.phones.symm
    mongo := holds.mongo.trans other.mongo.symm }

variable {fate : Nat → Bool} {actions : List ClusterAction} {final : Cluster}

theorem Finished.eager (finished : Finished fate actions final) :
    ∃ eager, (Eager.system fate).exec Eager.start (actions.filterMap ClusterAction.onWeb) =
        some eager ∧ eager.web = final.web ∧
      Holds eager.tables (final.web.published.filter (fun message => fate message.id)) := by
  obtain ⟨eager, completed, same, inv⟩ :=
    (Eager.simulation fate).run finished.fated finished.completed
  refine ⟨eager, completed, same.symm, ?_⟩
  rw [same]
  exact ⟨List.Perm.of_eq inv.phones, List.Perm.of_eq inv.mongo⟩

/-- A finished queued run ends with the answers and the tables of the eager run, and so
does every other finished run with the same web steps and fates. -/
theorem eager_equivalent (finished : Finished fate actions final) :
    (∃ eager, (Eager.system fate).exec Eager.start (actions.filterMap ClusterAction.onWeb) =
        some eager ∧ eager.web = final.web ∧ SameTables final.tables eager.tables) ∧
      ∀ others otherFinal, Finished fate others otherFinal →
        others.filterMap ClusterAction.onWeb = actions.filterMap ClusterAction.onWeb →
          otherFinal.web = final.web ∧ SameTables otherFinal.tables final.tables := by
  obtain ⟨eager, completed, same, eagerHolds⟩ := finished.eager
  refine ⟨⟨eager, completed, same, finished.holds.same eagerHolds⟩, ?_⟩
  intro others otherFinal otherFinished sameSteps
  obtain ⟨otherEager, otherCompleted, otherSame, otherHolds⟩ := otherFinished.eager
  rw [sameSteps, completed] at otherCompleted
  cases otherCompleted
  have sameWeb : otherFinal.web = final.web := otherSame.symm.trans same
  refine ⟨sameWeb, ?_⟩
  rw [sameWeb] at otherHolds
  have holds := otherFinished.holds
  rw [sameWeb] at holds
  exact holds.same finished.holds

/-- Two overlapping submissions of a phone whose three tasks are executed out of order;
the first log fails. -/
def shuffledRun : List ClusterAction :=
  [.web (.arrive exampleRequest), .web (.arrive exampleRequest), .web (.resume 0 .returns),
    .web (.resume 1 .returns), .web (.resume 0 .returns), .web (.resume 1 .returns),
    .web (.resume 0 .returns), .web (.resume 1 .returns), .hire, .hire, .reserve 0 1, .work 0,
    .web (.resume 0 .returns), .reserve 1 1, .work 1, .work 0, .work 1, .web (.tick second),
    .work 0, .work 1, .reserve 1 0, .work 1, .interrupt 1 .raised, .web (.resume 0 .returns),
    .web (.resume 1 .returns)]

theorem eager_equivalent_shuffled :
    ∃ final, Finished (fun id => id ≠ 0) shuffledRun final ∧
      final.web.published.map Message.id = [0, 1, 2] ∧
      final.tables.phones.map PhoneRow.phone = [examplePhone] ∧
      final.tables.mongo.map (fun stored => stored.record.duplicate) = [true] ∧ ∃ eager,
        (Eager.system (fun id => id ≠ 0)).exec Eager.start
            (shuffledRun.filterMap ClusterAction.onWeb) = some eager ∧
          eager.web = final.web ∧ SameTables final.tables eager.tables := by
  have outcome : (system.exec Cluster.start shuffledRun).any (fun final =>
      decide (final.queue = []) && decide (holdings Job.pending final.workers = []) &&
        decide (final.web.published.map Message.id = [0, 1, 2]) &&
        decide (final.tables.phones.map PhoneRow.phone = [examplePhone]) &&
        decide (final.tables.mongo.map (fun stored => stored.record.duplicate) = [true])) =
      true := by decide
  obtain ⟨final, completed, checked⟩ := system.exec_of_any outcome
  simp only [Bool.and_eq_true, decide_eq_true_eq] at checked
  obtain ⟨⟨⟨⟨empty, free⟩, messages⟩, phones⟩, records⟩ := checked
  have finished : Finished (fun id => id ≠ 0) shuffledRun final :=
    { completed := completed
      fated := by decide
      empty := empty
      free := free }
  exact ⟨final, finished, messages, phones, records, (eager_equivalent finished).1⟩

end Cluster

end Bistland
