/-
What the headers of a request can change. Two runs of web tier, broker and workers that differ
only in the paths and the headers of their requests differ only in the path, the ip and the ua
of what is logged: no answer, no entry of the cache, no metric and no row depends on them.
-/

import Bistland.WorkerTier

namespace Bistland

open Transition

/-! ### Leaving the headers out -/

def Request.withoutHeaders (request : Request) : Request :=
  { META :=
      { httpXForwardedFor := none
        remoteAddr := none
        httpUserAgent := none }
    path := []
    data := request.data }

/-- What is logged of a request without headers. -/
def LogMeta.withoutHeaders (record : LogMeta) : LogMeta :=
  { record with
    path := []
    ip := text "unknown"
    ua := [] }

def Task.withoutHeaders : Task → Task
  | .savePhoneInSqlTask phone => .savePhoneInSqlTask phone
  | .logRequestInMongoTask record => .logRequestInMongoTask record.withoutHeaders

def Message.withoutHeaders (message : Message) : Message :=
  { message with task := message.task.withoutHeaders }

def Call.withoutHeaders (call : Call) : Call :=
  { call with request := call.request.withoutHeaders }

def Web.withoutHeaders (web : Web) : Web :=
  { web with
    calls := web.calls.map Call.withoutHeaders
    published := web.published.map Message.withoutHeaders }

def WebAction.withoutHeaders : WebAction → WebAction
  | .arrive request => .arrive request.withoutHeaders
  | action => action

def MongoRecord.withoutHeaders (stored : MongoRecord) : MongoRecord :=
  { stored with record := stored.record.withoutHeaders }

def Tables.withoutHeaders (tables : Tables) : Tables :=
  { tables with mongo := tables.mongo.map MongoRecord.withoutHeaders }

def Job.withoutHeaders : Job → Job
  | .reserved message => .reserved message.withoutHeaders
  | .running message since stage => .running message.withoutHeaders since stage
  | job => job

def Execution.withoutHeaders (execution : Execution) : Execution :=
  { execution with message := execution.message.withoutHeaders }

def Cluster.withoutHeaders (cluster : Cluster) : Cluster :=
  { web := cluster.web.withoutHeaders
    queue := cluster.queue.map Message.withoutHeaders
    workers := cluster.workers.map Job.withoutHeaders
    tables := cluster.tables.withoutHeaders
    executed := cluster.executed.map Execution.withoutHeaders
    lost := cluster.lost.map Message.withoutHeaders
    redelivered := cluster.redelivered.map Message.withoutHeaders }

def ClusterAction.withoutHeaders : ClusterAction → ClusterAction
  | .web action => .web action.withoutHeaders
  | .redeliver message => .redeliver message.withoutHeaders
  | action => action

/-! ### The web tier -/

namespace Web

theorem withoutHeaders_proceed (web : Web) (index : Nat) (call : Call) (phase : Phase) :
    (web.proceed index call phase).withoutHeaders =
      web.withoutHeaders.proceed index call.withoutHeaders phase := by
  simp only [proceed, withoutHeaders, List.map_set]
  rfl

theorem withoutHeaders_answer (web : Web) (index : Nat) (call : Call) (response : Response) :
    (web.answer index call response).withoutHeaders =
      web.withoutHeaders.answer index call.withoutHeaders response := by
  simp only [answer, proceed, withoutHeaders, List.map_set]
  rfl

theorem withoutHeaders_publish (web : Web) (sender : Nat) (task : Task) :
    (web.publish sender task).withoutHeaders =
      web.withoutHeaders.publish sender task.withoutHeaders := by
  simp only [publish, withoutHeaders, List.map_append, List.length_map]
  rfl

theorem resume_withoutHeaders (web : Web) (index : Nat) (call : Call) (reply : Reply) :
    web.withoutHeaders.resume index call.withoutHeaders reply =
      (web.resume index call reply).map Web.withoutHeaders := by
  have phase : call.withoutHeaders.phase = call.phase := rfl
  have validated : call.withoutHeaders.request.validated = call.request.validated := rfl
  unfold resume
  rw [phase, validated]
  cases call.phase with
  | received =>
      cases call.request.validated with
      | error failure =>
          simp only [Option.map_some, withoutHeaders_answer]
      | ok phone => simp only [Option.map_some, withoutHeaders_proceed]
  | validated phone =>
      cases reply with
      | raises detail => simp only [Option.map_some, withoutHeaders_answer]
      | returns =>
          simp only [Option.map_some, withoutHeaders_proceed]
          rfl
  | deduplicated phone isNewSubmission =>
      cases reply with
      | raises detail => simp only [Option.map_some, withoutHeaders_answer]
      | returns =>
          simp only [Option.map_some, withoutHeaders_proceed, withoutHeaders_publish]
          rfl
  | logged phone isNewSubmission =>
      cases isNewSubmission with
      | false => simp only [Bool.not_false, if_true, Option.map_some, withoutHeaders_answer]
      | true =>
          cases reply with
          | raises detail =>
              simp only [Bool.not_true, Bool.false_eq_true, if_false, Option.map_some,
                withoutHeaders_answer]
          | returns =>
              simp only [Bool.not_true, Bool.false_eq_true, if_false, Option.map_some,
                withoutHeaders_proceed, withoutHeaders_publish]
              rfl
  | saved phone => simp only [Option.map_some, withoutHeaders_answer]
  | returned response => rfl

theorem step_withoutHeaders (web : Web) (action : WebAction) :
    system.step web.withoutHeaders action.withoutHeaders =
      (system.step web action).map Web.withoutHeaders := by
  cases action with
  | tick elapsed => rfl
  | cachePage key value =>
      simp only [WebAction.withoutHeaders, system, step]
      by_cases page : pagePrefix.isPrefixOf key = true
      · rw [if_pos page, if_pos page]
        rfl
      · rw [if_neg page, if_neg page]
        rfl
  | arrive request =>
      simp only [WebAction.withoutHeaders, system, step, withoutHeaders, Option.map_some,
        List.map_append]
      rfl
  | resume index reply =>
      simp only [WebAction.withoutHeaders, system, step, withoutHeaders, List.getElem?_map]
      cases web.calls[index]? with
      | none => rfl
      | some call => exact web.resume_withoutHeaders index call reply

end Web

/-! ### The cluster -/

namespace Cluster

theorem withoutHeaders_assign (cluster : Cluster) (worker : Nat) (job : Job) :
    (cluster.assign worker job).withoutHeaders =
      cluster.withoutHeaders.assign worker job.withoutHeaders := by
  simp only [assign, withoutHeaders, List.map_set]

theorem withoutHeaders_record (cluster : Cluster) (message : Message) (time : Nat)
    (tables : Tables) : (cluster.record message time tables).withoutHeaders =
      cluster.withoutHeaders.record message.withoutHeaders time tables.withoutHeaders := by
  simp only [record, withoutHeaders, List.map_append]
  rfl

theorem withoutHeaders_serve (cluster : Cluster) (next : Web) :
    (cluster.serve next).withoutHeaders =
      cluster.withoutHeaders.serve next.withoutHeaders := by
  simp only [serve, withoutHeaders, Web.withoutHeaders, List.map_append, List.map_drop,
    List.length_map]

theorem withoutHeaders_insertOne (tables : Tables) (record : LogMeta) (ts : Nat) :
    (tables.insertOne record ts).withoutHeaders =
      tables.withoutHeaders.insertOne record.withoutHeaders ts := by
  simp only [Tables.insertOne, Tables.withoutHeaders, List.map_append]
  rfl

theorem work_withoutHeaders (cluster : Cluster) (worker : Nat) (job : Job) :
    cluster.withoutHeaders.work worker job.withoutHeaders =
      (cluster.work worker job).map Cluster.withoutHeaders := by
  have now : cluster.withoutHeaders.web.now = cluster.web.now := rfl
  cases job with
  | idle => rfl
  | dead => rfl
  | reserved message =>
      simp only [work, Job.withoutHeaders, Option.map_some, withoutHeaders_assign, now]
  | running message since stage =>
      have body : message.withoutHeaders.task = message.task.withoutHeaders := rfl
      cases stage with
      | written =>
          simp only [work, Job.withoutHeaders, Option.map_some, withoutHeaders_assign]
      | begun =>
          simp only [work, Job.withoutHeaders, body, now]
          cases message.task with
          | savePhoneInSqlTask phone =>
              simp only [Task.withoutHeaders, Option.map_some, withoutHeaders_assign,
                withoutHeaders_record]
              rfl
          | logRequestInMongoTask record =>
              simp only [Task.withoutHeaders, Option.map_some, withoutHeaders_assign]
              rfl
      | stamped ts =>
          simp only [work, Job.withoutHeaders, body]
          cases message.task with
          | savePhoneInSqlTask phone => rfl
          | logRequestInMongoTask record =>
              simp only [Task.withoutHeaders, Option.map_some, withoutHeaders_assign,
                withoutHeaders_record, withoutHeaders_insertOne]
              rfl

theorem interrupt_withoutHeaders (cluster : Cluster) (worker : Nat) (cause : Interruption)
    (job : Job) : cluster.withoutHeaders.interrupt worker cause job.withoutHeaders =
      (cluster.interrupt worker cause job).map Cluster.withoutHeaders := by
  have now : cluster.withoutHeaders.web.now = cluster.web.now := rfl
  have after : cause.after.withoutHeaders = cause.after := by cases cause <;> rfl
  cases job with
  | dead => rfl
  | idle =>
      simp only [interrupt, Job.withoutHeaders]
      split
      · simp only [Option.map_some, withoutHeaders_assign]
        rfl
      · rfl
  | reserved message =>
      simp only [interrupt, Job.withoutHeaders]
      split
      · simp only [Option.map_some, withoutHeaders, assign, List.map_set, List.map_append]
        rfl
      · rfl
  | running message since stage =>
      simp only [interrupt, Job.withoutHeaders, now]
      split
      · cases stage with
        | written => simp only [Option.map_some, withoutHeaders_assign, after]
        | begun =>
            simp only [Option.map_some, withoutHeaders, assign, List.map_set, List.map_append, after]
            rfl
        | stamped ts =>
            simp only [Option.map_some, withoutHeaders, assign, List.map_set, List.map_append, after]
            rfl
      · rfl

/-- Every step but a redelivery, which names its message, is possible without the headers
exactly if it is with them. -/
theorem step_withoutHeaders (cluster : Cluster) {action : ClusterAction}
    (named : ∀ message, action ≠ .redeliver message) :
    system.step cluster.withoutHeaders action.withoutHeaders =
      (system.step cluster action).map Cluster.withoutHeaders := by
  have workers : cluster.withoutHeaders.workers = cluster.workers.map Job.withoutHeaders := rfl
  cases action with
  | web action =>
      have moved := cluster.web.step_withoutHeaders action
      simp only [ClusterAction.withoutHeaders, system, step]
      change (Web.system.step cluster.web.withoutHeaders action.withoutHeaders).map _ = _
      rw [moved]
      cases Web.system.step cluster.web action with
      | none => rfl
      | some next => exact congrArg some (cluster.withoutHeaders_serve next).symm
  | hire =>
      simp only [ClusterAction.withoutHeaders, system, step, withoutHeaders, Option.map_some,
        List.map_append]
      rfl
  | reserve worker position =>
      simp only [ClusterAction.withoutHeaders, system, step, withoutHeaders, List.getElem?_map]
      cases cluster.workers[worker]? with
      | none => rfl
      | some job =>
          cases job with
          | idle =>
              cases cluster.queue[position]? with
              | none => rfl
              | some message =>
                  simp only [Option.map_some, Job.withoutHeaders, assign, withoutHeaders,
                    List.map_set, List.eraseIdx_map]
          | reserved message => rfl
          | running message since stage => rfl
          | dead => rfl
  | work worker =>
      simp only [ClusterAction.withoutHeaders, system, step]
      rw [workers, List.getElem?_map]
      cases cluster.workers[worker]? with
      | none => rfl
      | some job => exact cluster.work_withoutHeaders worker job
  | interrupt worker cause =>
      simp only [ClusterAction.withoutHeaders, system, step]
      rw [workers, List.getElem?_map]
      cases cluster.workers[worker]? with
      | none => rfl
      | some job => exact cluster.interrupt_withoutHeaders worker cause job
  | redeliver message => exact absurd rfl (named message)

theorem step_erases {cluster next : Cluster} {action : ClusterAction}
    (taken : system.step cluster action = some next) :
    system.step cluster.withoutHeaders action.withoutHeaders = some next.withoutHeaders := by
  by_cases named : ∀ message, action ≠ .redeliver message
  · rw [cluster.step_withoutHeaders named, taken]
    rfl
  · push Not at named
    obtain ⟨message, rfl⟩ := named
    cases step_cases taken with
    | redeliver published =>
        have known : message.withoutHeaders ∈ cluster.withoutHeaders.web.published :=
          List.mem_map_of_mem published
        simp only [ClusterAction.withoutHeaders, system, step]
        rw [if_pos known]
        simp only [withoutHeaders, List.map_append]
        rfl

/-- Leaving the headers out is a simulation of the cluster by itself. -/
def erasure : Simulation system system (fun _ _ => True)
    (fun action => some action.withoutHeaders) :=
  { Related := fun cluster erased => erased = cluster.withoutHeaders
    initial := rfl
    silent := fun _ _ _ impossible => by cases impossible
    matched := by
      rintro cluster erased action next label rfl _ taken projected
      cases projected
      exact ⟨_, step_erases taken, rfl⟩ }

theorem exec_erases {actions : List ClusterAction} {cluster : Cluster}
    (completed : system.exec Cluster.start actions = some cluster) :
    system.exec Cluster.start (actions.map ClusterAction.withoutHeaders) =
      some cluster.withoutHeaders := by
  obtain ⟨erased, erasedRun, rfl⟩ :=
    erasure.run (system.guarded_of_mem (fun _ _ _ => trivial)) completed
  have whole : actions.filterMap (fun action => some action.withoutHeaders) =
      actions.map ClusterAction.withoutHeaders := congrFun List.filterMap_eq_map actions
  rw [whole] at erasedRun
  exact erasedRun

/-- Where no message is named, a run that is possible without the headers is possible with
them. -/
theorem exec_restores {actions : List ClusterAction} {cluster erased : Cluster}
    (named : ∀ message, .redeliver message ∉ actions)
    (completed : system.exec cluster.withoutHeaders (actions.map ClusterAction.withoutHeaders) =
      some erased) : ∃ final, system.exec cluster actions = some final := by
  induction actions generalizing cluster with
  | nil => exact ⟨cluster, rfl⟩
  | cons action rest ih =>
      obtain ⟨next, taken, ran⟩ := system.exec_cons_inv completed
      have own : ∀ message, action ≠ .redeliver message := by
        rintro message rfl
        exact named message List.mem_cons_self
      rw [cluster.step_withoutHeaders own] at taken
      obtain ⟨concrete, concreteTaken, rfl⟩ := Option.map_eq_some_iff.mp taken
      obtain ⟨final, finalRun⟩ :=
        ih (fun message member => named message (List.mem_cons_of_mem action member)) ran
      exact ⟨final, (system.exec_cons concreteTaken).trans finalRun⟩

/-! ### What does not depend on the headers -/

/-- Two clusters agree on all but the path, the ip and the ua of the logged records. -/
structure SameButLogs (first second : Cluster) : Prop where
  answers : first.web.calls.map Call.phase = second.web.calls.map Call.phase
  cache : first.web.cache = second.web.cache
  metrics : first.web.metrics = second.web.metrics
  phones : first.tables.phones = second.tables.phones
  saves : first.web.published.filter (fun message => message.task.isSave) =
    second.web.published.filter (fun message => message.task.isSave)
  records : first.tables.mongo.map (fun stored =>
      (stored.record.phone, stored.record.duplicate, stored.ts)) =
    second.tables.mongo.map (fun stored =>
      (stored.record.phone, stored.record.duplicate, stored.ts))

theorem filter_isSave_withoutHeaders (messages : List Message) :
    (messages.map Message.withoutHeaders).filter (fun message => message.task.isSave) =
      messages.filter (fun message => message.task.isSave) := by
  rw [List.filter_map]
  have kept : ∀ message : Message, message.withoutHeaders.task.isSave = message.task.isSave := by
    intro message
    unfold Message.withoutHeaders
    cases message.task <;> rfl
  have chosen : (fun message : Message => message.task.isSave) ∘ Message.withoutHeaders =
      fun message : Message => message.task.isSave := funext kept
  rw [chosen]
  apply (List.map_congr_left ?_).trans (List.map_id _)
  intro message member
  have save := (List.mem_filter.mp member).2
  cases content : message.task with
  | savePhoneInSqlTask phone =>
      unfold Message.withoutHeaders
      rw [content]
      cases message
      cases content
      rfl
  | logRequestInMongoTask record =>
      rw [content] at save
      cases save

theorem sameButLogs_of_erased {first second : Cluster}
    (same : first.withoutHeaders = second.withoutHeaders) : first.SameButLogs second := by
  have calls := congrArg (fun cluster => cluster.web.calls.map Call.phase) same
  have saves := congrArg
    (fun cluster => cluster.web.published.filter (fun message => message.task.isSave)) same
  have records := congrArg (fun cluster => cluster.tables.mongo.map (fun stored =>
    (stored.record.phone, stored.record.duplicate, stored.ts))) same
  simp only [withoutHeaders, Web.withoutHeaders, Tables.withoutHeaders, List.map_map,
    filter_isSave_withoutHeaders] at calls saves records
  exact
    { answers := calls
      cache := congrArg (fun cluster => cluster.web.cache) same
      metrics := congrArg (fun cluster => cluster.web.metrics) same
      phones := congrArg (fun cluster => cluster.tables.phones) same
      saves := saves
      records := records }

/-- Runs that differ in paths and headers only go the same way, and differ in the path, the ip
and the ua of their logs only. -/
theorem headers_only_logged {actions others : List ClusterAction} {cluster : Cluster}
    (completed : system.exec Cluster.start actions = some cluster)
    (same : actions.map ClusterAction.withoutHeaders = others.map ClusterAction.withoutHeaders) :
    ((∀ message, .redeliver message ∉ others) →
      ∃ other, system.exec Cluster.start others = some other) ∧
    ∀ other, system.exec Cluster.start others = some other → cluster.SameButLogs other := by
  have erased := exec_erases completed
  rw [same] at erased
  constructor
  · intro named
    exact exec_restores named erased
  · intro other otherCompleted
    apply sameButLogs_of_erased
    rw [exec_erases otherCompleted] at erased
    exact (Option.some.inj erased).symm

def forgedRequest : Request :=
  { exampleRequest with
    META :=
      { httpXForwardedFor := some (text "1.2.3.4, 5.6.7.8")
        remoteAddr := some (text "10.0.0.1")
        httpUserAgent := some (text "curl") } }

/-- A request that is logged and saved by one worker. -/
def storedRun (request : Request) : List ClusterAction :=
  [.hire, .web (.arrive request), .web (.resume 0 .returns), .web (.resume 0 .returns),
    .web (.resume 0 .returns), .web (.resume 0 .returns), .reserve 0 0, .work 0, .work 0, .work 0,
    .work 0, .reserve 0 0, .work 0, .work 0]

theorem headers_only_logged_forged : ∃ cluster other,
    system.exec Cluster.start (storedRun exampleRequest) = some cluster ∧
      system.exec Cluster.start (storedRun forgedRequest) = some other ∧
        cluster.SameButLogs other ∧ cluster.tables.mongo ≠ other.tables.mongo := by
  have outcome : (system.exec Cluster.start (storedRun exampleRequest)).any (fun cluster =>
      decide (cluster.tables.mongo.map (fun stored => stored.record.ip) = [text "10.0.0.1"])) =
        true := by decide
  have forged : (system.exec Cluster.start (storedRun forgedRequest)).any (fun cluster =>
      decide (cluster.tables.mongo.map (fun stored => stored.record.ip) = [text "1.2.3.4"])) =
        true := by decide
  obtain ⟨cluster, completed, logged⟩ := system.exec_of_any outcome
  obtain ⟨other, otherCompleted, otherLogged⟩ := system.exec_of_any forged
  refine ⟨cluster, other, completed, otherCompleted, ?_, ?_⟩
  · have same : (storedRun exampleRequest).map ClusterAction.withoutHeaders =
        (storedRun forgedRequest).map ClusterAction.withoutHeaders := rfl
    exact (headers_only_logged completed same).2 other otherCompleted
  · intro same
    have ips := of_decide_eq_true otherLogged
    rw [← same, of_decide_eq_true logged] at ips
    exact absurd ips (by decide)

end Cluster

end Bistland
