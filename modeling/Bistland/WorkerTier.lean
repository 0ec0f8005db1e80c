/-
The web tier, the broker's queue and any number of Celery workers over the two
tables the tasks write. A worker acknowledges a message before it runs the task
and holds one message at a time; a worker process with several slots is several
workers here. Executions, losses and redeliveries are kept as histories beside
the state the code has.
-/

import Bistland.WebTier

namespace Bistland

/-! ### Tables -/

structure PhoneRow where
  id : Nat
  phone : ValidatedPhone
  createdAt : Nat
  deriving DecidableEq

/-- `{**meta, "ts": ...}` as it is stored. -/
structure MongoRecord where
  record : LogMeta
  ts : Nat
  deriving DecidableEq

structure Tables where
  phones : List PhoneRow
  mongo : List MongoRecord

def Tables.empty : Tables :=
  { phones := []
    mongo := [] }

/-- `Phone.objects.create(phone=phone)`. -/
def Tables.create (tables : Tables) (phone : ValidatedPhone) (now : Nat) : Tables :=
  { tables with
    phones := tables.phones ++
      [{ id := tables.phones.length + 1, phone := phone, createdAt := now }] }

/-- `_mongo_collection().insert_one(meta)`. -/
def Tables.insertOne (tables : Tables) (record : LogMeta) (ts : Nat) : Tables :=
  { tables with mongo := tables.mongo ++ [{ record := record, ts := ts }] }

/-! ### Workers -/

/-- How far a task body has come; only the log task computes a `ts`. -/
inductive Stage where
  | begun
  | stamped (ts : Nat)
  | written
  deriving DecidableEq

inductive Job where
  | idle
  | reserved (message : Message)
  | running (message : Message) (since : Nat) (stage : Stage)
  | dead
  deriving DecidableEq

/-- What can end the work of a worker. -/
inductive Interruption where
  | raised
  | softTimeLimit
  | timeLimit
  | death
  deriving DecidableEq

/-- `CELERY_TASK_SOFT_TIME_LIMIT`. -/
def taskSoftTimeLimit : Nat := 20 * second

/-- `CELERY_TASK_TIME_LIMIT`. -/
def taskTimeLimit : Nat := 30 * second

/-- Whether the interruption can hit a task that has been running since a time. -/
def Interruption.due (cause : Interruption) (since now : Nat) : Bool :=
  match cause with
  | .raised => true
  | .softTimeLimit => since + taskSoftTimeLimit ≤ now
  | .timeLimit => since + taskTimeLimit ≤ now
  | .death => true

def Interruption.after : Interruption → Job
  | .death => .dead
  | _ => .idle

/-- The message whose effect is still to come. -/
def Job.pending : Job → Option Message
  | .reserved message => some message
  | .running _ _ .written => none
  | .running message _ _ => some message
  | _ => none

/-- The acknowledged message whose effect is still to come. -/
def Job.unwritten : Job → Option Message
  | .running _ _ .written => none
  | .running message _ _ => some message
  | _ => none

/-- The message in the hands of a live worker. -/
def Job.message : Job → Option Message
  | .reserved message => some message
  | .running message _ _ => some message
  | _ => none

theorem Job.running_unwritten (message : Message) (since : Nat) {stage : Stage}
    (unwritten : stage ≠ .written) :
    Job.pending (.running message since stage) = some message ∧
      Job.unwritten (.running message since stage) = some message := by
  cases stage with
  | begun => exact ⟨rfl, rfl⟩
  | stamped ts => exact ⟨rfl, rfl⟩
  | written => exact False.elim (unwritten rfl)

/-! ### State -/

/-- An executed message, with the `created_at` or the `ts` that was written. -/
structure Execution where
  message : Message
  time : Nat

structure Cluster where
  web : Web
  queue : List Message
  workers : List Job
  tables : Tables
  executed : List Execution
  lost : List Message
  redelivered : List Message

def Cluster.start : Cluster :=
  { web := Web.start
    queue := []
    workers := []
    tables := Tables.empty
    executed := []
    lost := []
    redelivered := [] }

inductive ClusterAction where
  | web (action : WebAction)
  | hire
  | reserve (worker position : Nat)
  | work (worker : Nat)
  | interrupt (worker : Nat) (cause : Interruption)
  | redeliver (message : Message)

/-! ### Steps -/

namespace Cluster

def assign (cluster : Cluster) (worker : Nat) (job : Job) : Cluster :=
  { cluster with workers := cluster.workers.set worker job }

def record (cluster : Cluster) (message : Message) (time : Nat) (tables : Tables) : Cluster :=
  { cluster with
    tables := tables
    executed := cluster.executed ++ [{ message := message, time := time }] }

/-- A step of the web tier; what it publishes goes to the end of the queue. -/
def serve (cluster : Cluster) (next : Web) : Cluster :=
  { cluster with
    web := next
    queue := cluster.queue ++ next.published.drop cluster.web.published.length }

/-- The next step of a worker: acknowledge, run a statement of the body, or return. -/
def work (cluster : Cluster) (worker : Nat) : Job → Option Cluster
  | .idle => none
  | .reserved message =>
      some (cluster.assign worker (.running message cluster.web.now .begun))
  | .running message since .begun =>
      match message.task with
      | .savePhoneInSqlTask phone =>
          some ((cluster.record message cluster.web.now
            (cluster.tables.create phone cluster.web.now)).assign worker
              (.running message since .written))
      | .logRequestInMongoTask _ =>
          some (cluster.assign worker (.running message since (.stamped cluster.web.now)))
  | .running message since (.stamped ts) =>
      match message.task with
      | .savePhoneInSqlTask _ => none
      | .logRequestInMongoTask record =>
          some ((cluster.record message ts (cluster.tables.insertOne record ts)).assign worker
            (.running message since .written))
  | .running _ _ .written => some (cluster.assign worker .idle)
  | .dead => none

/-- The worker dies, or its task ends before it returns; an acknowledged message that has
not been executed is gone, one that was only reserved goes back to the queue. -/
def interrupt (cluster : Cluster) (worker : Nat) (cause : Interruption) : Job → Option Cluster
  | .idle => if cause = .death then some (cluster.assign worker .dead) else none
  | .reserved message =>
      if cause = .death then
        some { cluster.assign worker .dead with queue := cluster.queue ++ [message] }
      else none
  | .running message since stage =>
      if cause.due since cluster.web.now then
        match stage with
        | .written => some (cluster.assign worker cause.after)
        | _ => some { cluster.assign worker cause.after with lost := cluster.lost ++ [message] }
      else none
  | .dead => none

def step (cluster : Cluster) : ClusterAction → Option Cluster
  | .web action => (Web.system.step cluster.web action).map cluster.serve
  | .hire => some { cluster with workers := cluster.workers ++ [.idle] }
  | .reserve worker position =>
      match cluster.workers[worker]?, cluster.queue[position]? with
      | some .idle, some message =>
          some { cluster.assign worker (.reserved message) with
            queue := cluster.queue.eraseIdx position }
      | _, _ => none
  | .work worker =>
      match cluster.workers[worker]? with
      | none => none
      | some job => cluster.work worker job
  | .interrupt worker cause =>
      match cluster.workers[worker]? with
      | none => none
      | some job => cluster.interrupt worker cause job
  | .redeliver message =>
      if message ∈ cluster.web.published then
        some { cluster with
          queue := cluster.queue ++ [message]
          redelivered := cluster.redelivered ++ [message] }
      else none

def system : Transition.System Cluster ClusterAction :=
  { initial := Cluster.start
    step := Cluster.step }

/-- Everything a step of the cluster can do. -/
inductive Step (cluster : Cluster) : ClusterAction → Cluster → Prop
  | web {action : WebAction} {next : Web} (taken : Web.system.step cluster.web action = some next) :
      Step cluster (.web action) (cluster.serve next)
  | hire : Step cluster .hire { cluster with workers := cluster.workers ++ [.idle] }
  | reserve {worker position : Nat} {message : Message}
      (found : cluster.workers[worker]? = some .idle)
      (waiting : cluster.queue[position]? = some message) :
      Step cluster (.reserve worker position)
        { cluster.assign worker (.reserved message) with
          queue := cluster.queue.eraseIdx position }
  | acknowledge {worker : Nat} {message : Message}
      (found : cluster.workers[worker]? = some (.reserved message)) :
      Step cluster (.work worker)
        (cluster.assign worker (.running message cluster.web.now .begun))
  | create {worker : Nat} {message : Message} {since : Nat} {phone : ValidatedPhone}
      (found : cluster.workers[worker]? = some (.running message since .begun))
      (save : message.task = .savePhoneInSqlTask phone) :
      Step cluster (.work worker)
        ((cluster.record message cluster.web.now
          (cluster.tables.create phone cluster.web.now)).assign worker
            (.running message since .written))
  | stamp {worker : Nat} {message : Message} {since : Nat} {record : LogMeta}
      (found : cluster.workers[worker]? = some (.running message since .begun))
      (log : message.task = .logRequestInMongoTask record) :
      Step cluster (.work worker)
        (cluster.assign worker (.running message since (.stamped cluster.web.now)))
  | insertOne {worker : Nat} {message : Message} {since ts : Nat} {record : LogMeta}
      (found : cluster.workers[worker]? = some (.running message since (.stamped ts)))
      (log : message.task = .logRequestInMongoTask record) :
      Step cluster (.work worker)
        ((cluster.record message ts (cluster.tables.insertOne record ts)).assign worker
          (.running message since .written))
  | finish {worker : Nat} {message : Message} {since : Nat}
      (found : cluster.workers[worker]? = some (.running message since .written)) :
      Step cluster (.work worker) (cluster.assign worker .idle)
  | retire {worker : Nat} (found : cluster.workers[worker]? = some .idle) :
      Step cluster (.interrupt worker .death) (cluster.assign worker .dead)
  | giveBack {worker : Nat} {message : Message}
      (found : cluster.workers[worker]? = some (.reserved message)) :
      Step cluster (.interrupt worker .death)
        { cluster.assign worker .dead with queue := cluster.queue ++ [message] }
  | lose {worker : Nat} {message : Message} {since : Nat} {stage : Stage} {cause : Interruption}
      (found : cluster.workers[worker]? = some (.running message since stage))
      (unwritten : stage ≠ .written) (due : cause.due since cluster.web.now = true) :
      Step cluster (.interrupt worker cause)
        { cluster.assign worker cause.after with lost := cluster.lost ++ [message] }
  | cutShort {worker : Nat} {message : Message} {since : Nat} {cause : Interruption}
      (found : cluster.workers[worker]? = some (.running message since .written))
      (due : cause.due since cluster.web.now = true) :
      Step cluster (.interrupt worker cause) (cluster.assign worker cause.after)
  | redeliver {message : Message} (published : message ∈ cluster.web.published) :
      Step cluster (.redeliver message)
        { cluster with
          queue := cluster.queue ++ [message]
          redelivered := cluster.redelivered ++ [message] }

private theorem work_cases {cluster next : Cluster} {worker : Nat} {job : Job}
    (found : cluster.workers[worker]? = some job) (taken : cluster.work worker job = some next) :
    Step cluster (.work worker) next := by
  cases job with
  | idle => cases taken
  | reserved message =>
      cases taken
      exact .acknowledge found
  | running message since stage =>
      cases stage with
      | begun =>
          unfold work at taken
          cases content : message.task with
          | savePhoneInSqlTask phone =>
              simp only [content] at taken
              cases taken
              exact .create found content
          | logRequestInMongoTask record =>
              simp only [content] at taken
              cases taken
              exact .stamp found content
      | stamped ts =>
          unfold work at taken
          cases content : message.task with
          | savePhoneInSqlTask phone =>
              simp only [content] at taken
              cases taken
          | logRequestInMongoTask record =>
              simp only [content] at taken
              cases taken
              exact .insertOne found content
      | written =>
          cases taken
          exact .finish found
  | dead => cases taken

private theorem interrupt_cases {cluster next : Cluster} {worker : Nat} {cause : Interruption}
    {job : Job} (found : cluster.workers[worker]? = some job)
    (taken : cluster.interrupt worker cause job = some next) :
    Step cluster (.interrupt worker cause) next := by
  cases job with
  | idle =>
      simp only [interrupt] at taken
      split at taken
      · rename_i isDeath
        cases taken
        subst cause
        exact .retire found
      · cases taken
  | reserved message =>
      simp only [interrupt] at taken
      split at taken
      · rename_i isDeath
        cases taken
        subst cause
        exact .giveBack found
      · cases taken
  | running message since stage =>
      simp only [interrupt] at taken
      split at taken
      · rename_i due
        cases stage with
        | begun =>
            cases taken
            exact .lose found (by intro impossible; cases impossible) due
        | stamped ts =>
            cases taken
            exact .lose found (by intro impossible; cases impossible) due
        | written =>
            cases taken
            exact .cutShort found due
      · cases taken
  | dead => cases taken

theorem step_cases {cluster next : Cluster} {action : ClusterAction}
    (taken : system.step cluster action = some next) : Step cluster action next := by
  cases action with
  | web action =>
      obtain ⟨web, webTaken, rfl⟩ := Option.map_eq_some_iff.mp taken
      exact .web webTaken
  | hire =>
      cases taken
      exact .hire
  | reserve worker position =>
      change (match cluster.workers[worker]?, cluster.queue[position]? with
        | some .idle, some message =>
            some { cluster.assign worker (.reserved message) with
              queue := cluster.queue.eraseIdx position }
        | _, _ => none) = some next at taken
      split at taken
      · rename_i message found waiting
        cases taken
        exact .reserve found waiting
      · cases taken
  | work worker =>
      change (match cluster.workers[worker]? with
        | none => none
        | some job => cluster.work worker job) = some next at taken
      cases found : cluster.workers[worker]? with
      | none =>
          rw [found] at taken
          cases taken
      | some job =>
          rw [found] at taken
          exact work_cases found taken
  | interrupt worker cause =>
      change (match cluster.workers[worker]? with
        | none => none
        | some job => cluster.interrupt worker cause job) = some next at taken
      cases found : cluster.workers[worker]? with
      | none =>
          rw [found] at taken
          cases taken
      | some job =>
          rw [found] at taken
          exact interrupt_cases found taken
  | redeliver message =>
      change (if message ∈ cluster.web.published then
        some { cluster with
          queue := cluster.queue ++ [message]
          redelivered := cluster.redelivered ++ [message] } else none) = some next at taken
      split at taken
      · rename_i published
        cases taken
        exact .redeliver published
      · cases taken

end Cluster

end Bistland
