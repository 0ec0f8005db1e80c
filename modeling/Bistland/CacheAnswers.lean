/-
What a call and its answer from `cache.add` say about each other, and which
attempt a refused one was turned away by.
-/

import Bistland.CallAccounts

namespace Bistland

open Expiring OwnerAccounts

/-! ### Which answer a publishing call has had -/

theorem Call.Attempted.of_logged {call : Call} {answers : List (ValidatedPhone × Bool)}
    (attempted : call.Attempted answers) {phone : ValidatedPhone}
    (valid : call.request.validated = .ok phone) {isNewSubmission : Bool}
    (stage : call.phase.progress = .logged isNewSubmission) :
    answers = [(phone, isNewSubmission)] := by
  have same : ∀ other, call.request.validated = .ok other → other = phone := by
    intro other validOther
    rw [valid] at validOther
    exact (Except.ok.inj validOther).symm
  unfold Call.Attempted at attempted
  cases stands : call.phase with
  | received => simp only [stands, Phase.progress, reduceCtorEq] at stage
  | validated held => simp only [stands, Phase.progress, reduceCtorEq] at stage
  | deduplicated held answer => simp only [stands, Phase.progress, reduceCtorEq] at stage
  | saved held => simp only [stands, Phase.progress, reduceCtorEq] at stage
  | logged held answer =>
      rw [stands] at attempted stage
      cases stage
      obtain ⟨validHeld, rfl⟩ := attempted
      rw [same held validHeld]
  | returned response =>
      rw [stands] at attempted stage
      cases response with
      | duplicate =>
          cases stage
          obtain ⟨held, validHeld, rfl⟩ := attempted
          rw [same held validHeld]
      | queued => simp only [Phase.progress, Response.progress, reduceCtorEq] at stage
      | error failure =>
          cases failure with
          | saveDelay detail =>
              cases stage
              obtain ⟨held, validHeld, rfl⟩ := attempted
              rw [same held validHeld]
          | parse detail => cases stage
          | validation errors => cases stage
          | cacheAdd detail => cases stage
          | logDelay detail => cases stage

theorem Phase.progress_eq_saved {phase : Phase} (stage : phase.progress = .saved) :
    (∃ phone, phase = .saved phone) ∨ phase = .returned .queued := by
  cases phase with
  | received => cases stage
  | validated phone => cases stage
  | deduplicated phone isNewSubmission => cases stage
  | logged phone isNewSubmission => cases stage
  | saved phone => exact Or.inl ⟨phone, rfl⟩
  | returned response =>
      cases response with
      | duplicate => cases stage
      | queued => exact Or.inr rfl
      | error failure => cases failure <;> cases stage

theorem Call.Attempted.of_saved {call : Call} {answers : List (ValidatedPhone × Bool)}
    (attempted : call.Attempted answers) {phone : ValidatedPhone}
    (valid : call.request.validated = .ok phone) (stage : call.phase.progress = .saved) :
    answers = [(phone, true)] := by
  unfold Call.Attempted at attempted
  rcases Phase.progress_eq_saved stage with ⟨held, stands⟩ | stands
  · rw [stands] at attempted
    obtain ⟨validHeld, rfl⟩ := attempted
    rw [valid] at validHeld
    rw [Except.ok.inj validHeld]
  · rw [stands] at attempted
    obtain ⟨held, validHeld, rfl⟩ := attempted
    rw [valid] at validHeld
    rw [Except.ok.inj validHeld]

/-! ### How many answers a call has had -/

section Answers

variable {request : Request} {answers : List (ValidatedPhone × Bool)}

theorem Failure.Attempted.length_le {failure : Failure}
    (attempted : failure.Attempted request answers) : answers.length ≤ 1 := by
  cases failure with
  | parse detail =>
      rw [show answers = [] from attempted]
      exact Nat.zero_le 1
  | validation errors =>
      rw [show answers = [] from attempted]
      exact Nat.zero_le 1
  | cacheAdd detail =>
      rw [show answers = [] from attempted]
      exact Nat.zero_le 1
  | logDelay detail =>
      obtain ⟨_, _, _, rfl⟩ := attempted
      exact Nat.le_refl 1
  | saveDelay detail =>
      obtain ⟨_, _, rfl⟩ := attempted
      exact Nat.le_refl 1

theorem Response.Attempted.length_le {response : Response}
    (attempted : response.Attempted request answers) : answers.length ≤ 1 := by
  cases response with
  | duplicate =>
      obtain ⟨_, _, rfl⟩ := attempted
      exact Nat.le_refl 1
  | queued =>
      obtain ⟨_, _, rfl⟩ := attempted
      exact Nat.le_refl 1
  | error failure => exact Failure.Attempted.length_le attempted

theorem Phase.Attempted.length_le {phase : Phase} (attempted : phase.Attempted request answers) :
    answers.length ≤ 1 := by
  cases phase with
  | received =>
      rw [show answers = [] from attempted]
      exact Nat.zero_le 1
  | validated phone =>
      rw [attempted.2]
      exact Nat.zero_le 1
  | deduplicated phone isNewSubmission =>
      rw [attempted.2]
      exact Nat.le_refl 1
  | logged phone isNewSubmission =>
      rw [attempted.2]
      exact Nat.le_refl 1
  | saved phone =>
      rw [attempted.2]
      exact Nat.le_refl 1
  | returned response => exact Response.Attempted.length_le attempted

end Answers

/-! ### What a call that has had its answer from the cache can be -/

/-- A call that has had an answer has had no other, and stands after its `cache.add`. -/
theorem Call.Attempted.answered {call : Call} {answers : List (ValidatedPhone × Bool)}
    (attempted : call.Attempted answers) {phone : ValidatedPhone} {accepted : Bool}
    (member : (phone, accepted) ∈ answers) :
    call.request.validated = .ok phone ∧
      (call.phase = .deduplicated phone accepted ∨ call.phase = .logged phone accepted ∨
        (accepted = true ∧ (call.phase = .saved phone ∨ call.phase = .returned .queued)) ∨
        (accepted = false ∧ call.phase = .returned .duplicate) ∨
        ∃ failure, call.phase = .returned (.error failure)) := by
  unfold Call.Attempted at attempted
  cases stage : call.phase with
  | received =>
      rw [stage] at attempted
      cases (attempted ▸ member : (phone, accepted) ∈ [])
  | validated held =>
      rw [stage] at attempted
      cases (attempted.2 ▸ member : (phone, accepted) ∈ [])
  | deduplicated held isNewSubmission =>
      rw [stage] at attempted
      obtain ⟨valid, rfl⟩ := attempted
      cases List.mem_singleton.mp member
      exact ⟨valid, Or.inl rfl⟩
  | logged held isNewSubmission =>
      rw [stage] at attempted
      obtain ⟨valid, rfl⟩ := attempted
      cases List.mem_singleton.mp member
      exact ⟨valid, Or.inr (Or.inl rfl)⟩
  | saved held =>
      rw [stage] at attempted
      obtain ⟨valid, rfl⟩ := attempted
      cases List.mem_singleton.mp member
      exact ⟨valid, Or.inr (Or.inr (Or.inl ⟨rfl, Or.inl rfl⟩))⟩
  | returned response =>
      rw [stage] at attempted
      cases response with
      | duplicate =>
          obtain ⟨held, valid, rfl⟩ := attempted
          cases List.mem_singleton.mp member
          exact ⟨valid, Or.inr (Or.inr (Or.inr (Or.inl ⟨rfl, rfl⟩)))⟩
      | queued =>
          obtain ⟨held, valid, rfl⟩ := attempted
          cases List.mem_singleton.mp member
          exact ⟨valid, Or.inr (Or.inr (Or.inl ⟨rfl, Or.inr rfl⟩))⟩
      | error failure =>
          refine ⟨?_, Or.inr (Or.inr (Or.inr (Or.inr ⟨failure, rfl⟩)))⟩
          cases failure with
          | parse detail => cases (attempted ▸ member : (phone, accepted) ∈ [])
          | validation errors => cases (attempted ▸ member : (phone, accepted) ∈ [])
          | cacheAdd detail => cases (attempted ▸ member : (phone, accepted) ∈ [])
          | logDelay detail =>
              obtain ⟨held, isNewSubmission, valid, rfl⟩ := attempted
              cases List.mem_singleton.mp member
              exact valid
          | saveDelay detail =>
              obtain ⟨held, valid, rfl⟩ := attempted
              cases List.mem_singleton.mp member
              exact valid

namespace Web

theorem Inv.maker {web : Web} (inv : web.Inv) {attempt : Attempt ValidatedPhone}
    (member : attempt ∈ web.attempts) :
    ∃ call answers, web.calls[attempt.owner]? = some call ∧ call.Attempted answers ∧
      (attempt.key, attempt.accepted) ∈ answers := by
  obtain ⟨call, found, posted⟩ := inv.attempted.holder_of_mem member
  exact ⟨call, _, found, inv.attempted.account attempt.owner call found,
    List.mem_map_of_mem (f := answerOf) posted⟩

theorem Inv.attempt_of_answers {web : Web} (inv : web.Inv) {index : Nat} {call : Call}
    (found : web.calls[index]? = some call) {phone : ValidatedPhone} {answer : Bool}
    (account : ∀ answers, call.Attempted answers → answers = [(phone, answer)]) :
    ∃ attempt ∈ web.attempts, attempt.owner = index ∧ attempt.key = phone ∧
      attempt.accepted = answer := by
  have answers := account _ (inv.attempted.account index call found)
  have member : (phone, answer) ∈ (postedBy Attempt.owner web.attempts index).map answerOf := by
    rw [answers]
    exact List.mem_singleton_self _
  obtain ⟨attempt, posted, same⟩ := List.mem_map.mp member
  obtain ⟨present, own⟩ := List.mem_filter.mp posted
  obtain ⟨sameKey, sameAnswer⟩ := Prod.mk.inj same
  exact ⟨attempt, present, of_decide_eq_true own, sameKey, sameAnswer⟩

theorem Inv.attempt_of_log {web : Web} (inv : web.Inv) {message : Message}
    (member : message ∈ web.published) {record : LogMeta}
    (log : message.task = .logRequestInMongoTask record) :
    ∃ attempt ∈ web.attempts, attempt.owner = message.sender ∧ attempt.key = record.phone ∧
      attempt.accepted = !record.duplicate := by
  obtain ⟨call, found, posted⟩ := inv.sent.holder_of_mem member
  have task : Task.logRequestInMongoTask record ∈ call.tasks := by
    rw [← (inv.sent.account message.sender call found).tasks, ← log]
    exact List.mem_map_of_mem posted
  cases valid : call.request.validated with
  | error failure => simp only [Call.tasks, valid, List.not_mem_nil] at task
  | ok phone =>
      rw [Call.tasks_of_valid valid] at task
      cases stage : call.phase.progress with
      | nothing => simp only [stage, Progress.tasks, List.not_mem_nil] at task
      | logged isNewSubmission =>
          rw [stage] at task
          cases List.mem_singleton.mp task
          obtain ⟨attempt, present, own, key, accepted⟩ := inv.attempt_of_answers found
            (fun answers attempted => attempted.of_logged valid stage)
          exact ⟨attempt, present, own, key, by rw [accepted, Bool.not_not]⟩
      | saved =>
          rw [stage] at task
          rcases List.mem_cons.mp task with isLog | isSave
          · cases isLog
            exact inv.attempt_of_answers found
              (fun answers attempted => attempted.of_saved valid stage)
          · cases List.mem_singleton.mp isSave

theorem Inv.log_of_progress {web : Web} (inv : web.Inv) {index : Nat} {call : Call}
    (found : web.calls[index]? = some call) {phone : ValidatedPhone}
    (valid : call.request.validated = .ok phone)
    (stage : call.phase.progress = .logged true ∨ call.phase.progress = .saved) :
    ∃ message ∈ web.published, message.sender = index ∧
      message.task = call.request.log phone true := by
  have tasks := (inv.sent.account index call found).tasks
  rw [Call.tasks_of_valid valid] at tasks
  have present : call.request.log phone true ∈
      (postedBy Message.sender web.published index).map Message.task := by
    rw [tasks]
    rcases stage with logged | saved
    · rw [logged]
      exact List.mem_cons_self
    · rw [saved]
      exact List.mem_cons_self
  obtain ⟨message, posted, same⟩ := List.mem_map.mp present
  obtain ⟨member, own⟩ := List.mem_filter.mp posted
  exact ⟨message, member, of_decide_eq_true own, same⟩

/-- No two attempts are of one call. -/
theorem Inv.attempts_apart {web : Web} (inv : web.Inv) :
    web.attempts.Pairwise (fun earlier later => earlier.owner ≠ later.owner) := by
  have once : ∀ index,
      (postedBy Attempt.owner web.attempts index).countP (fun _ => true) ≤ 1 := by
    intro index
    rw [List.countP_true]
    cases found : web.calls[index]? with
    | none =>
        rw [inv.attempted.nil_of_absent found]
        exact Nat.zero_le 1
    | some call =>
        have short := (inv.attempted.account index call found).length_le
        rwa [List.length_map] at short
  exact (pairwise_owner_ne (fun _ => true) once).imp (fun apart => apart rfl rfl)

/-! ### Who turned an attempt away -/

/-- The attempt was refused because of the entry that another attempt had written. -/
def TurnedAway (web : Web) (refused blocker : Attempt ValidatedPhone) : Prop :=
  ∃ older newer, web.attempts = older ++ refused :: newer ∧ refused.accepted = false ∧
    latest older refused.key = some blocker

theorem Inv.turned_away {web : Web} (inv : web.Inv)
    {older newer : List (Attempt ValidatedPhone)} {refused : Attempt ValidatedPhone}
    (split : web.attempts = older ++ refused :: newer) (denied : refused.accepted = false) :
    ∃ blocker, latest older refused.key = some blocker := by
  cases isLatest : latest older refused.key with
  | some blocker => exact ⟨blocker, rfl⟩
  | none =>
      have passed : refused.accepted = true := by
        rw [inv.gate.exact older refused newer split]
        intro earlier member same accepted
        exact False.elim (latest_eq_none isLatest earlier member same accepted)
      rw [denied] at passed
      cases passed

end Web

end Bistland
