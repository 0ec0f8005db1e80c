/-
The audit records of a phone. The duplicate flag is fixed by `cache.add`, the
message is published later and `ts` is taken in the worker, so a duplicate can be
stamped before the submission that turned it away; what no schedule can change
is that both are recorded and in which order the cache answered them.
-/

import Bistland.CacheAnswers
import Bistland.TaskAccounts

namespace Bistland

open Custody Expiring OwnerAccounts

/-- A raised call, or anything that stops a worker. -/
def ClusterAction.isFailure : ClusterAction → Bool
  | .web (.resume _ (.raises _)) => true
  | .interrupt _ _ => true
  | _ => false

namespace Cluster

/-- Every duplicate record of a phone has an original one that is not later. -/
def Timeline (cluster : Cluster) : Prop :=
  ∀ stored ∈ cluster.tables.mongo, stored.record.duplicate = true →
    ∃ original ∈ cluster.tables.mongo, original.record.phone = stored.record.phone ∧
      original.record.duplicate = false ∧ original.ts ≤ stored.ts

def RecordOf (cluster : Cluster) (index : Nat) (stored : MongoRecord) : Prop :=
  ∃ execution ∈ cluster.executed, execution.message.sender = index ∧
    execution.stored = some stored

/-- The log of the call that stored a key is recorded, or its message is queued or with a
worker that has not written it, or the call has yet to publish it. -/
def OriginalKept (cluster : Cluster) (winner : Attempt ValidatedPhone) : Prop :=
  (∃ original ∈ cluster.tables.mongo, cluster.RecordOf winner.owner original ∧
      original.record.phone = winner.key ∧ original.record.duplicate = false) ∨
    (∃ message ∈ cluster.queue ++ holdings Job.pending cluster.workers,
      message.sender = winner.owner ∧ message.task.isLogFor winner.key false = true) ∨
    ∃ call, cluster.web.calls[winner.owner]? = some call ∧
      call.phase = .deduplicated winner.key true

/-- Every duplicate record is that of a refused request, made no earlier than the other
request that turned it away; the log of the latter is kept. -/
def Traced (cluster : Cluster) : Prop :=
  ∀ stored ∈ cluster.tables.mongo, stored.record.duplicate = true →
    ∃ refused winner, cluster.RecordOf refused.owner stored ∧
      cluster.web.TurnedAway refused winner ∧ winner.owner ≠ refused.owner ∧
      winner.key = stored.record.phone ∧ winner.time ≤ refused.time ∧
      refused.time ≤ stored.ts ∧ cluster.OriginalKept winner

/-! ### Stamps come after the answers of the cache -/

/-- What is written or about to be was stamped after the `cache.add` of its request. -/
structure StampedLate (cluster : Cluster) : Prop where
  executed : ∀ execution ∈ cluster.executed, ∀ attempt ∈ cluster.web.attempts,
    attempt.owner = execution.message.sender → attempt.time ≤ execution.time
  running : ∀ message since ts, Job.running message since (.stamped ts) ∈ cluster.workers →
    ∀ attempt ∈ cluster.web.attempts, attempt.owner = message.sender → attempt.time ≤ ts

end Cluster

theorem Web.attempts_before_messages {web next : Web} {action : WebAction} (inv : web.Inv)
    (taken : Web.system.step web action = some next) :
    ∀ attempt ∈ next.attempts, attempt ∈ web.attempts ∨
      ∀ message ∈ web.published, attempt.owner ≠ message.sender := by
  cases Web.step_cases taken with
  | addReturns found stands =>
      intro attempt member
      rcases List.mem_append.mp member with earlier | last
      · exact Or.inl earlier
      · refine Or.inr ?_
        intro message published own
        rw [List.mem_singleton.mp last] at own
        obtain ⟨call, foundCall, posted⟩ := inv.sent.holder_of_mem published
        rw [← own, found] at foundCall
        cases foundCall
        have sent := inv.sent.account _ _ found
        have none := sent.tasks
        rw [Call.tasks_of_nothing (by rw [stands]; rfl), List.map_eq_nil_iff] at none
        rw [← own, none] at posted
        cases posted
  | _ => exact fun attempt member => Or.inl member

namespace Cluster

variable {cluster next : Cluster} {action : ClusterAction}

theorem step_stamped (inv : cluster.Inv) (stamped : cluster.StampedLate)
    (taken : system.step cluster action = some next) : next.StampedLate := by
  have gate := (Web.inv_of_reachable inv.reached).gate
  have others : ∀ (worker : Nat) (job : Job), (∀ message since ts,
      job ≠ .running message since (.stamped ts)) →
      ∀ message since ts, Job.running message since (.stamped ts) ∈ cluster.workers.set worker job →
        ∀ attempt ∈ cluster.web.attempts, attempt.owner = message.sender → attempt.time ≤ ts := by
    intro worker job plain message since ts member
    rcases List.mem_or_eq_of_mem_set member with earlier | same
    · exact stamped.running message since ts earlier
    · exact False.elim (plain message since ts same.symm)
  cases step_cases taken with
  | @web _ web webTaken =>
      have origin := Web.attempts_before_messages (Web.inv_of_reachable inv.reached) webTaken
      refine ⟨?_, ?_⟩
      · intro execution executed attempt member own
        rcases origin attempt member with earlier | fresh
        · exact stamped.executed execution executed attempt earlier own
        · exact False.elim (fresh execution.message (inv.published_of_executed executed) own)
      · intro message since ts running attempt member own
        rcases origin attempt member with earlier | fresh
        · exact stamped.running message since ts running attempt earlier own
        · obtain ⟨worker, found⟩ := List.mem_iff_getElem?.mp running
          have published := inv.published_of_pending found rfl
          exact False.elim (fresh message published own)
  | hire =>
      refine ⟨stamped.executed, ?_⟩
      intro message since ts running
      rcases List.mem_append.mp running with earlier | last
      · exact stamped.running message since ts earlier
      · cases List.mem_singleton.mp last
  | create found save =>
      refine ⟨?_, others _ _ (by intro _ _ _ impossible; cases impossible)⟩
      intro execution executed attempt member own
      rcases List.mem_append.mp executed with earlier | last
      · exact stamped.executed execution earlier attempt member own
      · rw [List.mem_singleton.mp last]
        exact gate.tracks.past attempt member
  | stamp found log =>
      refine ⟨stamped.executed, ?_⟩
      intro message since ts running attempt member own
      rcases List.mem_or_eq_of_mem_set running with earlier | same
      · exact stamped.running message since ts earlier attempt member own
      · cases same
        exact gate.tracks.past attempt member
  | insertOne found log =>
      refine ⟨?_, others _ _ (by intro _ _ _ impossible; cases impossible)⟩
      intro execution executed attempt member own
      rcases List.mem_append.mp executed with earlier | last
      · exact stamped.executed execution earlier attempt member own
      · rw [List.mem_singleton.mp last] at own ⊢
        exact stamped.running _ _ _ (List.mem_of_getElem? found) attempt member own
  | reserve found waiting =>
      exact ⟨stamped.executed, others _ _ (by intro _ _ _ impossible; cases impossible)⟩
  | acknowledge found =>
      exact ⟨stamped.executed, others _ _ (by intro _ _ _ impossible; cases impossible)⟩
  | finish found =>
      exact ⟨stamped.executed, others _ _ (by intro _ _ _ impossible; cases impossible)⟩
  | retire found =>
      exact ⟨stamped.executed, others _ _ (by intro _ _ _ impossible; cases impossible)⟩
  | giveBack found =>
      exact ⟨stamped.executed, others _ _ (by intro _ _ _ impossible; cases impossible)⟩
  | @lose worker message since stage cause found unwritten due =>
      refine ⟨stamped.executed, others worker cause.after ?_⟩
      intro _ _ _ impossible
      cases cause <;> cases impossible
  | @cutShort worker message since cause found due =>
      refine ⟨stamped.executed, others worker cause.after ?_⟩
      intro _ _ _ impossible
      cases cause <;> cases impossible
  | redeliver published => exact ⟨stamped.executed, stamped.running⟩

/-! ### Runs without failures -/

/-- Nothing is lost, and only requests that do not validate are answered with an error. -/
structure Calm (cluster : Cluster) : Prop where
  lost : cluster.lost = []
  errors : ∀ call ∈ cluster.web.calls, ∀ failure, call.phase = .returned (.error failure) →
    ∀ phone, call.request.validated ≠ .ok phone

theorem step_calm (calm : cluster.Calm) (healthy : action.isFailure = false)
    (taken : system.step cluster action = some next) : next.Calm := by
  have others : ∀ (index : Nat) (call : Call) (phase : Phase), (∀ failure,
      phase = .returned (.error failure) → ∀ phone, call.request.validated ≠ .ok phone) →
      ∀ each ∈ cluster.web.calls.set index { call with phase := phase }, ∀ failure,
        each.phase = .returned (.error failure) → ∀ phone, each.request.validated ≠ .ok phone := by
    intro index call phase sound each member
    rcases List.mem_or_eq_of_mem_set member with earlier | same
    · exact calm.errors each earlier
    · rw [same]
      exact sound
  cases step_cases taken with
  | web webTaken =>
      refine ⟨calm.lost, ?_⟩
      cases Web.step_cases webTaken with
      | tick elapsed => exact calm.errors
      | cachePage key value page => exact calm.errors
      | arrive request =>
          intro each member failure answered
          rcases List.mem_append.mp member with earlier | last
          · exact calm.errors each earlier failure answered
          · rw [List.mem_singleton.mp last] at answered
            cases answered
      | refuse reply found stands refused =>
          apply others
          intro failure _ phone valid
          rw [refused] at valid
          cases valid
      | addRaises detail found stands => cases healthy
      | logRaises detail found stands => cases healthy
      | saveRaises detail found stands => cases healthy
      | _ => exact others _ _ _ (by intro failure impossible; cases impossible)
  | lose found unwritten due => cases healthy
  | _ => exact ⟨calm.lost, calm.errors⟩

/-! ### The records of a run -/

theorem stored_eq_some {execution : Execution} {stored : MongoRecord} :
    execution.stored = some stored ↔
      execution.message.task = .logRequestInMongoTask stored.record ∧
        stored.ts = execution.time := by
  obtain ⟨record, ts⟩ := stored
  unfold Execution.stored
  cases execution.message.task with
  | savePhoneInSqlTask phone => simp [Task.loggedRecord]
  | logRequestInMongoTask other => simp [Task.loggedRecord, eq_comm]

theorem Inv.log_kept (inv : cluster.Inv) (lost : cluster.lost = []) {message : Message}
    (published : message ∈ cluster.web.published) {record : LogMeta}
    (log : message.task = .logRequestInMongoTask record) :
    message ∈ cluster.queue ++ holdings Job.pending cluster.workers ∨
      ∃ original ∈ cluster.tables.mongo, cluster.RecordOf message.sender original ∧
        original.record = record := by
  have accounted := inv.accounted
  unfold MessagesAccounted Accounted at accounted
  rw [lost, List.append_nil] at accounted
  rcases List.mem_append.mp (accounted.mem_iff.mpr (List.mem_append_left _ published)) with
    waiting | executed
  · exact Or.inl waiting
  · obtain ⟨execution, executed, same⟩ := List.mem_map.mp executed
    have isStored : execution.stored = some { record := record, ts := execution.time } :=
      stored_eq_some.mpr ⟨by rw [same, log], rfl⟩
    refine Or.inr ⟨{ record := record, ts := execution.time }, ?_, ?_, rfl⟩
    · rw [inv.written.mongo]
      exact List.mem_filterMap.mpr ⟨execution, executed, isStored⟩
    · exact ⟨execution, executed, by rw [same], isStored⟩

/-- The call that stored a key has published its log or will, where no call fails. -/
theorem Inv.original_kept (inv : cluster.Inv) (calm : cluster.Calm)
    {winner : Attempt ValidatedPhone} (present : winner ∈ cluster.web.attempts)
    (won : winner.accepted = true) : cluster.OriginalKept winner := by
  have web := Web.inv_of_reachable inv.reached
  obtain ⟨call, answers, found, attempted, had⟩ := web.maker present
  rw [won] at had
  obtain ⟨valid, stage⟩ := attempted.answered had
  have published : call.phase.progress = .logged true ∨ call.phase.progress = .saved →
      cluster.OriginalKept winner := by
    intro stage
    obtain ⟨message, published, sender, log⟩ := web.log_of_progress found valid stage
    rcases inv.log_kept calm.lost published log with waiting | ⟨original, recorded, own, same⟩
    · refine Or.inr (Or.inl ⟨message, waiting, sender, ?_⟩)
      rw [log]
      simp [Request.log, Task.isLogFor]
    · rw [sender] at own
      exact Or.inl ⟨original, recorded, own, by rw [same], by rw [same]; rfl⟩
  rcases stage with stage | stage | ⟨_, stage | stage⟩ | ⟨impossible, _⟩ | ⟨failure, stage⟩
  · exact Or.inr (Or.inr ⟨call, found, stage⟩)
  · exact published (Or.inl (by rw [stage]; rfl))
  · exact published (Or.inr (by rw [stage]; rfl))
  · exact published (Or.inr (by rw [stage]; rfl))
  · cases impossible
  · exact False.elim
      (calm.errors call (List.mem_of_getElem? found) failure stage winner.key valid)

theorem Inv.traced (inv : cluster.Inv) (stamped : cluster.StampedLate) (calm : cluster.Calm) :
    cluster.Traced := by
  have web := Web.inv_of_reachable inv.reached
  intro stored member duplicate
  rw [inv.written.mongo] at member
  obtain ⟨execution, executed, isStored⟩ := List.mem_filterMap.mp member
  obtain ⟨log, ts⟩ := stored_eq_some.mp isStored
  obtain ⟨refused, present, own, key, accepted⟩ :=
    web.attempt_of_log (inv.published_of_executed executed) log
  rw [duplicate] at accepted
  obtain ⟨older, newer, split⟩ := List.append_of_mem present
  obtain ⟨winner, isLatest⟩ := web.turned_away split accepted
  obtain ⟨earlier, sameKey, won⟩ := latest_eq_some isLatest
  have before : winner.time ≤ refused.time := by
    have ordered := web.gate.tracks.ordered
    rw [split, List.pairwise_append] at ordered
    exact ordered.2.2 winner earlier refused List.mem_cons_self
  have other : winner.owner ≠ refused.owner := by
    have apart := web.attempts_apart
    rw [split, List.pairwise_append] at apart
    exact apart.2.2 winner earlier refused List.mem_cons_self
  have after : refused.time ≤ stored.ts := by
    rw [ts]
    exact stamped.executed execution executed refused present own
  have winnerPresent : winner ∈ cluster.web.attempts := by
    rw [split]
    exact List.mem_append_left _ earlier
  exact ⟨refused, winner, ⟨execution, executed, own.symm, isStored⟩,
    ⟨older, newer, split, accepted, isLatest⟩, other, sameKey.trans key, before, after,
    inv.original_kept calm winnerPresent won⟩

/-- In a run without failures every duplicate record is traced to the submission that
turned it away. -/
theorem duplicates_traced {actions : List ClusterAction} {final : Cluster}
    (completed : system.exec Cluster.start actions = some final)
    (healthy : ∀ action ∈ actions, action.isFailure = false) : final.Traced := by
  have start : Cluster.start.StampedLate :=
    { executed := fun execution absent => by cases absent
      running := fun message since ts absent => by cases absent }
  have calmStart : Cluster.start.Calm :=
    { lost := rfl
      errors := fun call absent => by cases absent }
  have all : final.Inv ∧ final.StampedLate ∧ final.Calm := by
    have allowed : system.Guarded (fun _ action => action.isFailure = false) Cluster.start
        actions :=
      system.guarded_of_mem (fun action member _ => healthy action member)
    apply system.run_invariant ?_ ⟨inv_start, start, calmStart⟩ allowed completed
    intro state action next inside free taken
    obtain ⟨inv, stamped, calm⟩ := inside
    exact ⟨step_inv inv taken, step_stamped inv stamped taken, step_calm calm free taken⟩
  exact all.1.traced all.2.1 all.2.2

/-- One phone submitted twice; the later request publishes its log first and a worker
stamps it a second before the other. -/
def overtakenRun : List ClusterAction :=
  [.web (.arrive exampleRequest), .web (.arrive exampleRequest), .web (.resume 0 .returns),
    .web (.resume 1 .returns), .web (.resume 0 .returns), .web (.resume 1 .returns),
    .web (.resume 1 .returns), .web (.resume 0 .returns), .web (.resume 0 .returns),
    .web (.resume 0 .returns), .web (.resume 1 .returns), .hire, .reserve 0 0, .work 0, .work 0,
    .work 0, .work 0, .web (.tick second), .reserve 0 0, .work 0, .work 0, .work 0, .work 0,
    .reserve 0 0, .work 0, .work 0, .work 0]

theorem duplicates_traced_overtaken :
    ∃ final, system.exec Cluster.start overtakenRun = some final ∧ final.Traced := by
  obtain ⟨final, completed⟩ :=
    Option.isSome_iff_exists.mp (show (system.exec Cluster.start overtakenRun).isSome by decide)
  exact ⟨final, completed, duplicates_traced completed (by decide)⟩

theorem duplicate_stamped_first : ∃ final,
    system.exec Cluster.start overtakenRun = some final ∧
      (∀ action ∈ overtakenRun, action.isFailure = false) ∧ final.queue = [] ∧
      final.tables.mongo.map (fun stored => (stored.record.duplicate, stored.ts)) =
        [(true, 0), (false, second)] ∧ ¬final.Timeline := by
  have outcome : (system.exec Cluster.start overtakenRun).any (fun final =>
      decide (final.queue = []) &&
        decide (final.tables.mongo.map (fun stored => (stored.record.duplicate, stored.ts)) =
          [(true, 0), (false, second)])) = true := by decide
  obtain ⟨final, completed, checked⟩ := system.exec_of_any outcome
  simp only [Bool.and_eq_true, decide_eq_true_eq] at checked
  obtain ⟨empty, stamps⟩ := checked
  refine ⟨final, completed, by decide, empty, stamps, ?_⟩
  intro timeline
  have entry : (true, 0) ∈ final.tables.mongo.map
      (fun stored => (stored.record.duplicate, stored.ts)) := by
    rw [stamps]
    exact List.mem_cons_self
  obtain ⟨stored, member, shape⟩ := List.mem_map.mp entry
  obtain ⟨duplicate, early⟩ := Prod.mk.inj shape
  obtain ⟨original, present, _, first, notLater⟩ := timeline stored member duplicate
  have other : (original.record.duplicate, original.ts) ∈ [(true, 0), (false, second)] := by
    rw [← stamps]
    exact List.mem_map_of_mem (f := fun stored : MongoRecord =>
      (stored.record.duplicate, stored.ts)) present
  rw [first] at other
  rw [early] at notLater
  simp [second] at other
  omega

end Cluster

end Bistland
