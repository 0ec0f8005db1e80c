/-
What keeps moving. From every reachable state of the cluster with a worker alive its open calls
and its messages can be worked off without a failure.
-/

import Bistland.TaskAccounts

namespace Bistland

open Custody OwnerAccounts

/-! ### What a call has before it -/

/-- The steps a call takes at most until it is answered. -/
def Phase.steps : Phase → Nat
  | .received => 5
  | .validated _ => 4
  | .deduplicated _ _ => 3
  | .logged _ _ => 2
  | .saved _ => 1
  | .returned _ => 0

/-- The steps until it is answered and its messages are worked off, five for each. -/
def Phase.remaining : Phase → Nat
  | .received => 15
  | .validated _ => 14
  | .deduplicated _ _ => 13
  | .logged _ _ => 7
  | .saved _ => 1
  | .returned _ => 0

namespace Web

variable {web next : Web} {action : WebAction} {index : Nat} {call : Call} {reply : Reply}

/-- A step of a call brings it on, and what it publishes it has had before it. -/
structure Advances (web next : Web) (index : Nat) (call : Call) (phase : Phase) : Prop where
  found : web.calls[index]? = some call
  changed : next.calls = web.calls.set index { call with phase := phase }
  steps : phase.steps < call.phase.steps
  remaining : phase.remaining + 5 * next.published.length <
    call.phase.remaining + 5 * web.published.length

theorem Advances.quiet (found : web.calls[index]? = some call) (phase : Phase)
    (changed : next.calls = web.calls.set index { call with phase := phase })
    (steps : phase.steps < call.phase.steps) (remaining : phase.remaining < call.phase.remaining)
    (same : next.published = web.published) : web.Advances next index call phase :=
  { found := found
    changed := changed
    steps := steps
    remaining := by
      rw [same]
      omega }

theorem step_advances (taken : system.step web (.resume index reply) = some next) :
    ∃ call phase, web.Advances next index call phase := by
  cases step_cases taken with
  | refuse reply found stands refused =>
      exact ⟨_, _, .quiet found _ rfl (by simp [stands, Phase.steps])
        (by simp [stands, Phase.remaining]) rfl⟩
  | validate reply found stands valid =>
      exact ⟨_, _, .quiet found (.validated _) rfl (by simp [stands, Phase.steps])
        (by simp [stands, Phase.remaining]) rfl⟩
  | addRaises detail found stands =>
      exact ⟨_, _, .quiet found _ rfl (by simp [stands, Phase.steps])
        (by simp [stands, Phase.remaining]) rfl⟩
  | addReturns found stands =>
      exact ⟨_, _, .quiet found (.deduplicated _ _) rfl (by simp [stands, Phase.steps])
        (by simp [stands, Phase.remaining]) rfl⟩
  | logRaises detail found stands =>
      exact ⟨_, _, .quiet found _ rfl (by simp [stands, Phase.steps])
        (by simp [stands, Phase.remaining]) rfl⟩
  | logPublishes found stands =>
      refine ⟨_, .logged _ _, found, rfl, by simp [stands, Phase.steps], ?_⟩
      rw [stands]
      simp only [Phase.remaining, proceed, publish, List.length_append, List.length_singleton]
      omega
  | answerDuplicate reply found stands =>
      exact ⟨_, _, .quiet found _ rfl (by simp [stands, Phase.steps])
        (by simp [stands, Phase.remaining]) rfl⟩
  | saveRaises detail found stands =>
      exact ⟨_, _, .quiet found _ rfl (by simp [stands, Phase.steps])
        (by simp [stands, Phase.remaining]) rfl⟩
  | savePublishes found stands =>
      refine ⟨_, .saved _, found, rfl, by simp [stands, Phase.steps], ?_⟩
      rw [stands]
      simp only [Phase.remaining, proceed, publish, List.length_append, List.length_singleton]
      omega
  | answerQueued reply found stands =>
      exact ⟨_, _, .quiet found _ rfl (by simp [stands, Phase.steps])
        (by simp [stands, Phase.remaining]) rfl⟩

/-- Any step keeps the request of a call, and leaves an answered call as it is. -/
theorem step_call (taken : system.step web action = some next)
    (found : web.calls[index]? = some call) :
    ∃ after, next.calls[index]? = some after ∧ after.request = call.request ∧
      (call.phase.steps = 0 → after = call) := by
  cases action with
  | tick elapsed =>
      cases taken
      exact ⟨call, found, rfl, fun _ => rfl⟩
  | cachePage key value =>
      cases step_cases taken
      exact ⟨call, found, rfl, fun _ => rfl⟩
  | arrive request =>
      cases taken
      have inside := (List.getElem?_eq_some_iff.mp found).1
      exact ⟨call, (List.getElem?_append_left inside).trans found, rfl, fun _ => rfl⟩
  | resume other reply =>
      obtain ⟨moved, phase, advances⟩ := step_advances taken
      rw [advances.changed]
      by_cases own : other = index
      · subst own
        have same := advances.found
        rw [found] at same
        cases same
        refine ⟨{ call with phase := phase }, ?_, rfl, ?_⟩
        · exact List.getElem?_set_self (List.getElem?_eq_some_iff.mp found).1
        · intro ended
          have fewer := advances.steps
          omega
      · rw [List.getElem?_set_ne own]
        exact ⟨call, found, rfl, fun _ => rfl⟩

/-- Whatever its external call does, a call that has not been answered can take its step. -/
theorem resume_enabled (found : web.calls[index]? = some call)
    (unanswered : call.phase.steps ≠ 0) (reply : Reply) :
    ∃ next, system.step web (.resume index reply) = some next := by
  rw [step_resume reply found]
  unfold resume
  cases stands : call.phase with
  | received => cases call.request.validated <;> exact ⟨_, rfl⟩
  | validated phone => cases reply <;> exact ⟨_, rfl⟩
  | deduplicated phone isNewSubmission => cases reply <;> exact ⟨_, rfl⟩
  | logged phone isNewSubmission =>
      cases isNewSubmission with
      | false => exact ⟨_, rfl⟩
      | true => cases reply <;> exact ⟨_, rfl⟩
  | saved phone => exact ⟨_, rfl⟩
  | returned response =>
      rw [stands] at unanswered
      exact absurd rfl unanswered

end Web

/-! ### What the cluster has before it -/

/-- The steps a worker takes until it is free. -/
def Job.remaining : Job → Nat
  | .idle => 0
  | .reserved _ => 4
  | .running _ _ .begun => 3
  | .running _ _ (.stamped _) => 2
  | .running _ _ .written => 1
  | .dead => 0

/-- A step in which nothing fails and nobody asks for more. -/
def ClusterAction.isRegular : ClusterAction → Bool
  | .web (.resume _ .returns) => true
  | .reserve _ _ => true
  | .work _ => true
  | _ => false

namespace Cluster

def remaining (cluster : Cluster) : Nat :=
  (cluster.web.calls.map (fun call => call.phase.remaining)).sum + 5 * cluster.queue.length +
    (cluster.workers.map Job.remaining).sum

structure WorkedOff (cluster : Cluster) : Prop where
  answered : ∀ call ∈ cluster.web.calls, ∃ response, call.phase = .returned response
  queue : cluster.queue = []
  workers : ∀ job ∈ cluster.workers, job = .idle ∨ job = .dead

theorem WorkedOff.pending_nil {cluster : Cluster} (done : cluster.WorkedOff) :
    holdings Job.pending cluster.workers = [] := by
  apply List.filterMap_eq_nil_iff.mpr
  intro job member
  rcases done.workers job member with idle | dead
  · rw [idle]
    rfl
  · rw [dead]
    rfl

/-- Only the log task is ever stamped. -/
def StampsLogs (cluster : Cluster) : Prop :=
  ∀ message since ts, Job.running message since (.stamped ts) ∈ cluster.workers →
    ∃ record, message.task = .logRequestInMongoTask record

def Live (cluster : Cluster) : Prop :=
  ∃ job ∈ cluster.workers, job ≠ .dead

variable {cluster next : Cluster} {action : ClusterAction} {worker : Nat} {job : Job}

theorem StampsLogs.assign (stamps : cluster.StampsLogs) (worker : Nat)
    (plain : ∀ message since ts, job = .running message since (.stamped ts) →
      ∃ record, message.task = .logRequestInMongoTask record) :
    (cluster.assign worker job).StampsLogs := by
  intro message since ts member
  rcases List.mem_or_eq_of_mem_set member with present | same
  · exact stamps message since ts present
  · exact plain message since ts same.symm

theorem step_stamps (stamps : cluster.StampsLogs)
    (taken : system.step cluster action = some next) : next.StampsLogs := by
  cases step_cases taken with
  | web webTaken => exact stamps
  | hire =>
      intro message since ts member
      rcases List.mem_append.mp member with present | isNew
      · exact stamps message since ts present
      · cases List.mem_singleton.mp isNew
  | stamp found log =>
      apply stamps.assign
      intro message since ts same
      cases same
      exact ⟨_, log⟩
  | @lose worker message since stage cause found unwritten due =>
      apply stamps.assign
      intro message since ts same
      cases cause <;> cases same
  | @cutShort worker message since cause found due =>
      apply stamps.assign
      intro message since ts same
      cases cause <;> cases same
  | redeliver published => exact stamps
  | _ =>
      apply stamps.assign
      intro message since ts same
      cases same

theorem stamps_of_reachable (reached : system.Reachable cluster) : cluster.StampsLogs :=
  system.reachable_invariant step_stamps (fun message since ts absent => by cases absent) reached

theorem live_assign (found : cluster.workers[worker]? = some job) {after : Job}
    (alive : after ≠ .dead) : (cluster.assign worker after).Live := by
  obtain ⟨inside, _⟩ := List.getElem?_eq_some_iff.mp found
  exact ⟨after, List.mem_set inside after, alive⟩

/-- A regular step loses nothing, redelivers nothing and kills nobody. -/
theorem step_regular (live : cluster.Live) (regular : action.isRegular = true)
    (taken : system.step cluster action = some next) :
    next.Live ∧ next.lost = cluster.lost ∧ next.redelivered = cluster.redelivered := by
  cases step_cases taken with
  | web webTaken => exact ⟨live, rfl, rfl⟩
  | hire => cases regular
  | reserve found waiting =>
      exact ⟨live_assign found (fun impossible => by cases impossible), rfl, rfl⟩
  | acknowledge found =>
      exact ⟨live_assign found (fun impossible => by cases impossible), rfl, rfl⟩
  | create found save =>
      exact ⟨live_assign found (fun impossible => by cases impossible), rfl, rfl⟩
  | stamp found log =>
      exact ⟨live_assign found (fun impossible => by cases impossible), rfl, rfl⟩
  | insertOne found log =>
      exact ⟨live_assign found (fun impossible => by cases impossible), rfl, rfl⟩
  | finish found =>
      exact ⟨live_assign found (fun impossible => by cases impossible), rfl, rfl⟩
  | retire found => cases regular
  | giveBack found => cases regular
  | lose found unwritten due => cases regular
  | cutShort found due => cases regular
  | redeliver published => cases regular

/-! ### A regular step brings the cluster on -/

theorem remaining_lt_of_set (found : cluster.workers[worker]? = some job) (after : Job)
    (web : next.web = cluster.web) (queue : next.queue = cluster.queue)
    (workers : next.workers = cluster.workers.set worker after)
    (less : after.remaining < job.remaining) : next.remaining < cluster.remaining := by
  have shares := sum_map_set Job.remaining found after
  unfold remaining
  rw [web, queue, workers]
  omega

theorem resume_remaining {web : Web} {index : Nat} {reply : Reply}
    (taken : Web.system.step cluster.web (.resume index reply) = some web) :
    (cluster.serve web).remaining < cluster.remaining := by
  obtain ⟨call, phase, advances⟩ := Web.step_advances taken
  obtain ⟨later, grown⟩ := Web.step_publishes taken
  have less := advances.remaining
  have shares := sum_map_set (fun call => call.phase.remaining) advances.found
    { call with phase := phase }
  simp only [remaining, serve, advances.changed, grown, List.drop_left, List.length_append]
  rw [grown, List.length_append] at less
  simp only at shares
  omega

theorem reserve_remaining (found : cluster.workers[worker]? = some .idle) {position : Nat}
    {message : Message} (waiting : cluster.queue[position]? = some message) :
    remaining { cluster.assign worker (.reserved message) with
      queue := cluster.queue.eraseIdx position } < cluster.remaining := by
  obtain ⟨inside, _⟩ := List.getElem?_eq_some_iff.mp waiting
  have shares := sum_map_set Job.remaining found (.reserved message)
  simp only [remaining, assign, List.length_eraseIdx_of_lt inside]
  simp only [Job.remaining] at shares ⊢
  omega

theorem step_remaining (regular : action.isRegular = true)
    (taken : system.step cluster action = some next) : next.remaining < cluster.remaining := by
  cases step_cases taken with
  | @web webAction web webTaken =>
      cases webAction with
      | resume index reply => exact resume_remaining webTaken
      | _ => cases regular
  | hire => cases regular
  | reserve found waiting => exact reserve_remaining found waiting
  | acknowledge found =>
      exact remaining_lt_of_set found _ rfl rfl rfl (by simp [Job.remaining])
  | create found save =>
      exact remaining_lt_of_set found _ rfl rfl rfl (by simp [Job.remaining])
  | stamp found log => exact remaining_lt_of_set found _ rfl rfl rfl (by simp [Job.remaining])
  | insertOne found log =>
      exact remaining_lt_of_set found _ rfl rfl rfl (by simp [Job.remaining])
  | finish found => exact remaining_lt_of_set found _ rfl rfl rfl (by simp [Job.remaining])
  | retire found => cases regular
  | giveBack found => cases regular
  | lose found unwritten due => cases regular
  | cutShort found due => cases regular
  | redeliver published => cases regular

/-! ### A regular step is always there -/

theorem resume_enabled {index : Nat} {call : Call} (found : cluster.web.calls[index]? = some call)
    (unanswered : call.phase.steps ≠ 0) :
    ∃ next, system.step cluster (.web (.resume index .returns)) = some next := by
  obtain ⟨web, taken⟩ := Web.resume_enabled found unanswered .returns
  refine ⟨cluster.serve web, ?_⟩
  simp only [system, step, taken, Option.map_some]

theorem work_enabled (stamps : cluster.StampsLogs) (found : cluster.workers[worker]? = some job)
    (busy : job ≠ .idle) (alive : job ≠ .dead) :
    ∃ next, system.step cluster (.work worker) = some next := by
  have body : system.step cluster (.work worker) = cluster.work worker job := by
    simp only [system, step, found]
  rw [body]
  cases job with
  | idle => exact absurd rfl busy
  | dead => exact absurd rfl alive
  | reserved message => exact ⟨_, rfl⟩
  | running message since stage =>
      cases stage with
      | begun =>
          cases content : message.task with
          | savePhoneInSqlTask phone =>
              simp only [work, content]
              exact ⟨_, rfl⟩
          | logRequestInMongoTask record =>
              simp only [work, content]
              exact ⟨_, rfl⟩
      | stamped ts =>
          obtain ⟨record, content⟩ := stamps message since ts (List.mem_of_getElem? found)
          simp only [work, content]
          exact ⟨_, rfl⟩
      | written => exact ⟨_, rfl⟩

theorem reserve_enabled (found : cluster.workers[worker]? = some .idle)
    (waiting : cluster.queue ≠ []) : ∃ next, system.step cluster (.reserve worker 0) = some next := by
  obtain ⟨message, rest, queue⟩ := List.exists_cons_of_ne_nil waiting
  have first : cluster.queue[0]? = some message := by
    rw [queue]
    rfl
  simp only [system, step, found, first]
  exact ⟨_, rfl⟩

theorem regular_enabled (stamps : cluster.StampsLogs) (live : cluster.Live)
    (open_ : ¬cluster.WorkedOff) :
    ∃ action next, action.isRegular = true ∧ system.step cluster action = some next := by
  by_cases answered : ∀ call ∈ cluster.web.calls, ∃ response, call.phase = .returned response
  · by_cases free : ∀ job ∈ cluster.workers, job = .idle ∨ job = .dead
    · have waiting : cluster.queue ≠ [] := fun empty => open_ ⟨answered, empty, free⟩
      obtain ⟨job, member, alive⟩ := live
      obtain ⟨worker, found⟩ := List.getElem?_of_mem member
      rw [(free job member).resolve_right alive] at found
      obtain ⟨next, taken⟩ := reserve_enabled found waiting
      exact ⟨_, next, rfl, taken⟩
    · push Not at free
      obtain ⟨job, member, busy, alive⟩ := free
      obtain ⟨worker, found⟩ := List.getElem?_of_mem member
      obtain ⟨next, taken⟩ := work_enabled stamps found busy alive
      exact ⟨_, next, rfl, taken⟩
  · push Not at answered
    obtain ⟨call, member, waits⟩ := answered
    obtain ⟨index, found⟩ := List.getElem?_of_mem member
    have unanswered : call.phase.steps ≠ 0 := by
      intro ended
      cases stands : call.phase with
      | returned response => exact waits response stands
      | _ =>
          rw [stands] at ended
          cases ended
    obtain ⟨next, taken⟩ := resume_enabled found unanswered
    exact ⟨_, next, rfl, taken⟩

/-- What stays as it is while a cluster is worked off. -/
structure Continues (cluster later : Cluster) : Prop where
  inv : later.Inv
  stamps : later.StampsLogs
  live : later.Live
  lost : later.lost = cluster.lost
  redelivered : later.redelivered = cluster.redelivered

/-- From every reachable state with a live worker, the open calls and the messages can be
worked off without a failure, in no more steps than they have before them; nothing is lost
on the way, and the tables then hold every message that was not lost before. -/
theorem works_off (reached : system.Reachable cluster) (live : cluster.Live) :
    ∃ schedule final, system.exec cluster schedule = some final ∧
      (∀ action ∈ schedule, action.isRegular = true) ∧
      schedule.length ≤ cluster.remaining ∧ final.WorkedOff ∧ final.TablesWritten ∧
      (final.executed.map Execution.message ++ cluster.lost).Perm
        (final.web.published ++ cluster.redelivered) := by
  have start : cluster.Continues cluster :=
    { inv := system.reachable_invariant step_inv inv_start reached
      stamps := stamps_of_reachable reached
      live := live
      lost := rfl
      redelivered := rfl }
  have goes : ∀ later, cluster.Continues later → ¬later.WorkedOff → ∃ action next,
      action.isRegular = true ∧ system.step later action = some next ∧
        cluster.Continues next ∧ next.remaining < later.remaining := by
    intro later good open_
    obtain ⟨action, next, regular, taken⟩ := regular_enabled good.stamps good.live open_
    obtain ⟨alive, lost, redelivered⟩ := step_regular good.live regular taken
    refine ⟨action, next, regular, taken, ?_, step_remaining regular taken⟩
    exact
      { inv := step_inv good.inv taken
        stamps := step_stamps good.stamps taken
        live := alive
        lost := lost.trans good.lost
        redelivered := redelivered.trans good.redelivered }
  obtain ⟨schedule, final, completed, regular, short, good, done⟩ :=
    system.exec_until remaining goes start
  refine ⟨schedule, final, completed, regular, short, done, good.inv.written, ?_⟩
  have accounted := good.inv.accounted
  unfold MessagesAccounted at accounted
  rw [done.queue, good.lost, good.redelivered] at accounted
  exact accounted.settled done.pending_nil

/-- Two open calls, one worker in the middle of a save and one that has died over another. -/
def busyRun : List ClusterAction :=
  [.hire, .hire, .web (.arrive exampleRequest), .web (.resume 0 .returns),
    .web (.resume 0 .returns), .web (.resume 0 .returns), .web (.resume 0 .returns),
    .reserve 0 0, .work 0, .reserve 1 0, .work 1, .work 1, .interrupt 0 .death,
    .web (.arrive exampleRequest), .web (.resume 1 .returns)]

theorem works_off_busy : ∃ cluster, system.exec Cluster.start busyRun = some cluster ∧
    ∃ schedule final, system.exec cluster schedule = some final ∧ final.WorkedOff := by
  have outcome : (system.exec Cluster.start busyRun).any (fun cluster =>
      cluster.workers.any (fun job => !decide (job = .dead))) = true := by decide
  obtain ⟨cluster, completed, alive⟩ := system.exec_of_any outcome
  obtain ⟨job, member, notDead⟩ := List.any_eq_true.mp alive
  have live : cluster.Live := by
    refine ⟨job, member, ?_⟩
    intro dead
    rw [dead] at notDead
    cases notDead
  obtain ⟨schedule, final, ran, _, _, done, _⟩ :=
    works_off (system.reachable_of_exec completed) live
  exact ⟨cluster, completed, schedule, final, ran, done⟩

end Cluster

end Bistland
