/-
The request counter and the latency histogram of one process over whole runs. The
handler counts on the path that queues a lead and on the path that fails, and observes
on every path; the path that answers a duplicate counts nothing.
-/

import Bistland.LeadKeys

namespace Bistland

/-! ### What a scrape of one process reads -/

/-- `sum(endpoint_requests_total)`. -/
def Metrics.total (metrics : Metrics) : Nat :=
  metrics.success + metrics.error

/-- The "Success Rate" panel, as a fraction. -/
def Metrics.successRate (metrics : Metrics) : Rat :=
  metrics.success / metrics.total

/-! ### Calls by their answer -/

def Response.isServed : Response → Bool
  | .error _ => false
  | _ => true

def Response.isDuplicate : Response → Bool
  | .duplicate => true
  | _ => false

def Phase.answers (which : Response → Bool) : Phase → Bool
  | .returned response => which response
  | _ => false

/-- `cache.add` has found the key. -/
def Phase.isTurnedAway : Phase → Bool
  | .deduplicated _ false => true
  | _ => false

/-- The call is answered duplicate, or can be answered nothing else. -/
def Phase.endsDuplicate : Phase → Bool
  | .logged _ false => true
  | .returned .duplicate => true
  | _ => false

namespace Web

def tally (web : Web) (stage : Phase → Bool) : Nat :=
  web.calls.countP (fun call => stage call.phase)

/-- The calls that have returned such a response. -/
def answered (web : Web) (which : Response → Bool) : Nat :=
  web.tally (Phase.answers which)

def finished (web : Web) : Nat :=
  web.answered (fun _ => true)

def Idle (web : Web) : Prop :=
  ∀ call ∈ web.calls, call.phase.isReturned = true

structure CountedOnce (web : Web) : Prop where
  total : web.metrics.total = web.metrics.latency.length
  observed : web.metrics.latency.length = web.finished
  rate : web.metrics.successRate = (web.answered Response.isServed : Rat) / web.finished

/-- The log publish of a call that `cache.add` has turned away returns. -/
def turns (web : Web) : WebAction → Bool
  | .resume index reply => web.stands Phase.isTurnedAway index && decide (reply = .returns)
  | _ => false

def Counts (web : Web) (action : WebAction) : Prop :=
  web.turns action = false

/-! ### What a step counts -/

section Tallies

variable {web before next : Web} {index : Nat} {call : Call} {phase : Phase}
  {stage : Phase → Bool}

theorem tally_proceed (stage : Phase → Bool) (calls : before.calls = web.calls)
    (found : web.calls[index]? = some call) (phase : Phase) :
    (before.proceed index call phase).tally stage + (stage call.phase).toNat =
      web.tally stage + (stage phase).toNat := by
  obtain ⟨inside, same⟩ := List.getElem?_eq_some_iff.mp found
  unfold tally proceed
  rw [calls, List.countP_set inside, same]
  cases marked : stage call.phase with
  | false => cases stage phase <;> rfl
  | true =>
      have present : 0 < web.calls.countP (fun call => stage call.phase) :=
        List.countP_pos_iff.mpr ⟨call, List.mem_of_getElem? found, marked⟩
      cases stage phase with
      | false =>
          simp only [if_true, Bool.toNat_true, Bool.toNat_false, Bool.false_eq_true, if_false]
          omega
      | true =>
          simp only [if_true, Bool.toNat_true]
          omega

theorem tally_arrive (web : Web) (request : Request) (fresh : stage .received = false) :
    Web.tally { web with
      calls := web.calls ++ [{ request := request, startTime := web.now, phase := .received }] }
      stage = web.tally stage := by
  unfold tally
  rw [List.countP_append, List.countP_singleton, fresh]
  rfl

theorem answers_of_running (running : phase.isReturned = false)
    (which : Response → Bool) : phase.answers which = false := by
  cases phase with
  | returned response => cases running
  | _ => rfl

/-- What a step counts: nothing if it gives no answer, its answer once if it gives one. -/
inductive Counting (web next : Web) : Prop
  | silent (metrics : next.metrics = web.metrics)
      (answered : ∀ which, next.answered which = web.answered which)
  | answer (response : Response) (duration : Nat)
      (metrics : next.metrics = (web.metrics.count response).observe duration)
      (answered : ∀ which, next.answered which = web.answered which + (which response).toNat)

theorem Counting.proceed (calls : before.calls = web.calls) (metrics : before.metrics = web.metrics)
    (found : web.calls[index]? = some call) (running : call.phase.isReturned = false)
    (stays : phase.isReturned = false) :
    Counting web (before.proceed index call phase) := by
  have counted : (before.proceed index call phase).metrics = web.metrics := metrics
  apply Counting.silent counted
  intro which
  have moved := tally_proceed (Phase.answers which) calls found phase
  rw [answers_of_running running which, answers_of_running stays which] at moved
  exact moved

theorem Counting.returns (response : Response) (found : web.calls[index]? = some call)
    (running : call.phase.isReturned = false) :
    Counting web (web.answer index call response) := by
  apply Counting.answer response (web.now - call.startTime) rfl
  intro which
  have moved := tally_proceed (Phase.answers which) rfl found (.returned response)
  rw [answers_of_running running which] at moved
  exact moved

theorem step_counting {action : WebAction} (taken : system.step web action = some next) :
    Counting web next := by
  cases step_cases taken with
  | tick elapsed => exact .silent rfl (fun which => rfl)
  | cachePage key value page => exact .silent rfl (fun which => rfl)
  | arrive request => exact .silent rfl (fun which => tally_arrive web request rfl)
  | refuse reply found stands refused => exact .returns _ found (by rw [stands]; rfl)
  | validate reply found stands valid => exact .proceed rfl rfl found (by rw [stands]; rfl) rfl
  | addRaises detail found stands => exact .returns _ found (by rw [stands]; rfl)
  | addReturns found stands => exact .proceed rfl rfl found (by rw [stands]; rfl) rfl
  | logRaises detail found stands => exact .returns _ found (by rw [stands]; rfl)
  | logPublishes found stands => exact .proceed rfl rfl found (by rw [stands]; rfl) rfl
  | answerDuplicate reply found stands => exact .returns _ found (by rw [stands]; rfl)
  | saveRaises detail found stands => exact .returns _ found (by rw [stands]; rfl)
  | savePublishes found stands => exact .proceed rfl rfl found (by rw [stands]; rfl) rfl
  | answerQueued reply found stands => exact .returns _ found (by rw [stands]; rfl)

theorem turns_resume (found : web.calls[index]? = some call) (reply : Reply) :
    web.turns (.resume index reply) = (call.phase.isTurnedAway && decide (reply = .returns)) := by
  simp only [turns, stands, found]

theorem endsDuplicate_proceed (calls : before.calls = web.calls)
    (found : web.calls[index]? = some call)
    (same : phase.endsDuplicate = call.phase.endsDuplicate) :
    (before.proceed index call phase).tally Phase.endsDuplicate =
      web.tally Phase.endsDuplicate := by
  have moved := tally_proceed Phase.endsDuplicate calls found phase
  rw [same] at moved
  exact Nat.add_right_cancel moved

/-- A call is bound to end as a duplicate from the log publish after its refusal on. -/
theorem step_endsDuplicate {action : WebAction} (taken : system.step web action = some next) :
    next.tally Phase.endsDuplicate =
      web.tally Phase.endsDuplicate + (web.turns action).toNat := by
  cases step_cases taken with
  | tick elapsed => rfl
  | cachePage key value page => rfl
  | arrive request => exact tally_arrive web request rfl
  | refuse reply found stands refused =>
      rw [turns_resume found, stands]
      exact endsDuplicate_proceed rfl found (by rw [stands]; rfl)
  | validate reply found stands valid =>
      rw [turns_resume found, stands]
      exact endsDuplicate_proceed rfl found (by rw [stands]; rfl)
  | addRaises detail found stands =>
      rw [turns_resume found, stands]
      exact endsDuplicate_proceed rfl found (by rw [stands]; rfl)
  | addReturns found stands =>
      rw [turns_resume found, stands]
      exact endsDuplicate_proceed rfl found (by rw [stands]; rfl)
  | @logRaises index call phone isNewSubmission detail found stands =>
      rw [turns_resume found, decide_eq_false Reply.noConfusion, Bool.and_false]
      exact endsDuplicate_proceed rfl found (by rw [stands]; rfl)
  | @logPublishes index call phone isNewSubmission found stands =>
      rw [turns_resume found, stands]
      cases isNewSubmission with
      | true => exact endsDuplicate_proceed rfl found (by rw [stands]; rfl)
      | false =>
          have calls : (web.publish index (call.request.log phone false)).calls = web.calls := rfl
          have moved := tally_proceed Phase.endsDuplicate calls found (.logged phone false)
          rw [stands] at moved
          exact moved
  | answerDuplicate reply found stands =>
      rw [turns_resume found, stands]
      exact endsDuplicate_proceed rfl found (by rw [stands]; rfl)
  | saveRaises detail found stands =>
      rw [turns_resume found, stands]
      exact endsDuplicate_proceed rfl found (by rw [stands]; rfl)
  | savePublishes found stands =>
      rw [turns_resume found, stands]
      exact endsDuplicate_proceed rfl found (by rw [stands]; rfl)
  | answerQueued reply found stands =>
      rw [turns_resume found, stands]
      exact endsDuplicate_proceed rfl found (by rw [stands]; rfl)

end Tallies

/-! ### The metrics against the answers -/

/-- Every answer is observed; the counters miss the duplicates. -/
structure Metered (web : Web) : Prop where
  observed : web.metrics.latency.length = web.finished
  served : web.answered Response.isServed =
    web.metrics.success + web.answered Response.isDuplicate
  accounted : web.metrics.latency.length =
    web.metrics.total + web.answered Response.isDuplicate

theorem start_metered : Web.start.Metered :=
  { observed := rfl
    served := rfl
    accounted := rfl }

section Runs

variable {web next : Web} {action : WebAction} {actions : List WebAction}

theorem step_metered (metered : web.Metered) (taken : system.step web action = some next) :
    next.Metered := by
  obtain ⟨observed, served, accounted⟩ := metered
  cases step_counting taken with
  | silent metrics answered =>
      constructor
      · rw [metrics, finished, answered]
        exact observed
      · rw [metrics, answered, answered]
        exact served
      · rw [metrics, answered]
        exact accounted
  | answer response duration metrics answered =>
      have longer : next.metrics.latency.length = web.metrics.latency.length + 1 := by
        rw [metrics]
        cases response <;> exact List.length_append
      constructor
      · rw [longer, observed]
        exact (answered (fun _ => true)).symm
      · rw [answered, answered, served, metrics]
        cases response with
        | duplicate => rfl
        | queued => exact Nat.add_right_comm _ _ 1
        | error failure => rfl
      · rw [longer, answered, accounted, metrics]
        cases response with
        | duplicate => rfl
        | queued =>
            change web.metrics.success + web.metrics.error + _ + 1 =
              web.metrics.success + 1 + web.metrics.error + _
            rw [Nat.add_right_comm, Nat.add_right_comm web.metrics.success]
            rfl
        | error failure =>
            change web.metrics.success + web.metrics.error + _ + 1 =
              web.metrics.success + (web.metrics.error + 1) + _
            rw [Nat.add_right_comm, Nat.add_assoc web.metrics.success]
            rfl

theorem step_unturned (taken : system.step web action = some next)
    (kept : next.tally Phase.endsDuplicate = 0) : web.tally Phase.endsDuplicate = 0 := by
  have moved := step_endsDuplicate taken
  omega

theorem step_unturned_iff (unturned : web.tally Phase.endsDuplicate = 0)
    (taken : system.step web action = some next) :
    next.tally Phase.endsDuplicate = 0 ↔ web.Counts action := by
  rw [step_endsDuplicate taken, unturned, Nat.zero_add, Counts]
  cases web.turns action <;> decide

theorem countedOnce_of_unturned (metered : web.Metered)
    (unturned : web.tally Phase.endsDuplicate = 0) : web.CountedOnce := by
  have none : web.answered Response.isDuplicate = 0 := by
    apply Nat.eq_zero_of_le_zero
    rw [← unturned]
    apply List.countP_mono_left
    intro call _ duplicate
    revert duplicate
    cases call.phase with
    | returned response => cases response <;> exact id
    | _ => exact Bool.noConfusion
  obtain ⟨observed, served, accounted⟩ := metered
  rw [none, Nat.add_zero] at served accounted
  constructor
  · exact accounted.symm
  · exact observed
  · unfold Metrics.successRate
    rw [← served, ← accounted, observed]

theorem unturned_of_countedOnce (metered : web.Metered) (idle : web.Idle)
    (counted : web.CountedOnce) : web.tally Phase.endsDuplicate = 0 := by
  have none : web.answered Response.isDuplicate = 0 := by
    have total := counted.total
    have accounted := metered.accounted
    omega
  rw [← none]
  apply List.countP_congr
  intro call member
  have returned := idle call member
  revert returned
  cases call.phase with
  | returned response =>
      intro _
      cases response <;> exact Iff.rfl
  | _ => exact Bool.noConfusion

/-- While no call is in progress every finished request is counted once, exactly if no call
that `cache.add` has turned away gets its log publish through. -/
theorem counted_once_exactly (completed : system.exec Web.start actions = some web) :
    (system.Guarded Counts Web.start actions →
      system.Always (fun web => web.Idle → web.CountedOnce) Web.start actions) ∧
    (web.Idle → (web.CountedOnce ↔ system.Guarded Counts Web.start actions)) := by
  have exactly : system.Always (fun web => web.tally Phase.endsDuplicate = 0) Web.start actions ↔
      system.Guarded Counts Web.start actions := by
    have start : Web.start.tally Phase.endsDuplicate = 0 := rfl
    apply system.always_iff_guarded (fun (always : True) _ => always) ?_ trivial start completed
    intro _ _ _ _ unturned taken
    exact step_unturned_iff unturned taken
  have settled : system.Guarded Counts Web.start actions →
      system.Always (fun web => web.Metered ∧ web.tally Phase.endsDuplicate = 0)
        Web.start actions := by
    apply system.always_of_guarded
    · intro web action next ⟨metered, unturned⟩ counts taken
      exact ⟨step_metered metered taken, (step_unturned_iff unturned taken).mpr counts⟩
    · exact ⟨start_metered, rfl⟩
  constructor
  · intro counts
    exact system.always_mono
      (fun web ⟨metered, unturned⟩ _ => countedOnce_of_unturned metered unturned) (settled counts)
  · intro idle
    constructor
    · intro counted
      have metered := system.reachable_invariant step_metered start_metered
        (system.reachable_of_exec completed)
      have unturned := unturned_of_countedOnce metered idle counted
      exact exactly.mp (system.always_of_last step_unturned completed unturned)
    · intro counts
      obtain ⟨metered, unturned⟩ := system.always_last (settled counts) completed
      exact countedOnce_of_unturned metered unturned

end Runs

def resubmittedRun : List WebAction :=
  [.arrive exampleRequest, .resume 0 .returns, .resume 0 .returns, .resume 0 .returns,
    .resume 0 .returns, .resume 0 .returns, .arrive exampleRequest, .resume 1 .returns,
    .resume 1 .returns, .resume 1 .returns, .resume 1 .returns]

theorem duplicate_uncounted : ∃ web, system.exec Web.start resubmittedRun = some web ∧
    web.Idle ∧ web.metrics.total = 1 ∧ web.metrics.latency.length = 2 ∧ ¬web.CountedOnce := by
  have outcome : (system.exec Web.start resubmittedRun).any (fun web =>
      web.calls.all (fun call => call.phase.isReturned) && decide (web.metrics.total = 1) &&
        decide (web.metrics.latency.length = 2)) = true := by decide
  obtain ⟨web, completed, checked⟩ := system.exec_of_any outcome
  simp only [Bool.and_eq_true, decide_eq_true_eq] at checked
  obtain ⟨⟨idle, total⟩, observed⟩ := checked
  refine ⟨web, completed, List.all_eq_true.mp idle, total, observed, ?_⟩
  intro counted
  have same := counted.total
  omega

/-- A lead that is queued, and one whose log publish raises while it waits. -/
def countedRun : List WebAction :=
  [.arrive exampleRequest, .resume 0 .returns, .resume 0 .returns, .arrive exampleRequest,
    .resume 1 .returns, .resume 1 .returns, .resume 1 (.raises (text "broker down")),
    .resume 0 .returns, .resume 0 .returns, .resume 0 .returns]

theorem counted_once_exactly_failed : ∃ web, system.exec Web.start countedRun = some web ∧
    system.Always (fun web => web.Idle → web.CountedOnce) Web.start countedRun ∧
    web.CountedOnce ∧ web.metrics.success = 1 ∧ web.metrics.error = 1 := by
  have outcome : (system.exec Web.start countedRun).any (fun web =>
      web.calls.all (fun call => call.phase.isReturned) && decide (web.metrics.success = 1) &&
        decide (web.metrics.error = 1)) = true := by decide
  obtain ⟨web, completed, checked⟩ := system.exec_of_any outcome
  simp only [Bool.and_eq_true, decide_eq_true_eq] at checked
  obtain ⟨⟨idle, success⟩, error⟩ := checked
  have counts : system.Guarded Counts Web.start countedRun := by
    unfold Counts
    decide
  obtain ⟨always, exactly⟩ := counted_once_exactly completed
  exact ⟨web, completed, always counts, (exactly (List.all_eq_true.mp idle)).mpr counts, success,
    error⟩

end Web

end Bistland
