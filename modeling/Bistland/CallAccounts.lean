/-
What each call has done so far is fixed by where it stands: the tasks it has
published and the `cache.add` answers it has received. The accounts hold in
every reachable state of the web tier, and so does the gate that the shared
cache keeps for each phone.
-/

import Bistland.WebTier

namespace Bistland

open Expiring OwnerAccounts

/-! ### Accounts of published tasks and of `cache.add` answers -/

/-- The phone a suspended call holds is the one its request validates to, and a failure
answer says whether validation was the cause. -/
def Phase.Fits (request : Request) : Phase → Prop
  | .received => True
  | .validated phone => request.validated = .ok phone
  | .deduplicated phone _ => request.validated = .ok phone
  | .logged phone _ => request.validated = .ok phone
  | .saved phone => request.validated = .ok phone
  | .returned (.error (.parse detail)) => request.validated = .error (.parse detail)
  | .returned (.error (.validation errors)) => request.validated = .error (.validation errors)
  | .returned _ => ∃ phone, request.validated = .ok phone

/-- How far a call has come with publishing. -/
inductive Progress where
  | nothing
  | logged (isNewSubmission : Bool)
  | saved
  deriving DecidableEq

def Failure.progress : Failure → Progress
  | .saveDelay _ => .logged true
  | _ => .nothing

def Response.progress : Response → Progress
  | .duplicate => .logged false
  | .queued => .saved
  | .error failure => failure.progress

def Phase.progress : Phase → Progress
  | .logged _ isNewSubmission => .logged isNewSubmission
  | .saved _ => .saved
  | .returned response => response.progress
  | _ => .nothing

def Progress.tasks (request : Request) (phone : ValidatedPhone) : Progress → List Task
  | .nothing => []
  | .logged isNewSubmission => [request.log phone isNewSubmission]
  | .saved => [request.log phone true, .savePhoneInSqlTask phone]

/-- The tasks a call has published, in order. -/
def Call.tasks (call : Call) : List Task :=
  match call.request.validated with
  | .error _ => []
  | .ok phone => call.phase.progress.tasks call.request phone

structure Call.Sent (call : Call) (posted : List Task) : Prop where
  fits : call.phase.Fits call.request
  tasks : posted = call.tasks

/-- The answers that a failed call has had from `cache.add`; a failed log publish
leaves open which answer it was. -/
def Failure.Attempted (request : Request) (failure : Failure)
    (answers : List (ValidatedPhone × Bool)) : Prop :=
  match failure with
  | .parse _ => answers = []
  | .validation _ => answers = []
  | .cacheAdd _ => answers = []
  | .logDelay _ => ∃ phone isNewSubmission, request.validated = .ok phone ∧
      answers = [(phone, isNewSubmission)]
  | .saveDelay _ => ∃ phone, request.validated = .ok phone ∧ answers = [(phone, true)]

def Response.Attempted (request : Request) (response : Response)
    (answers : List (ValidatedPhone × Bool)) : Prop :=
  match response with
  | .duplicate => ∃ phone, request.validated = .ok phone ∧ answers = [(phone, false)]
  | .queued => ∃ phone, request.validated = .ok phone ∧ answers = [(phone, true)]
  | .error failure => failure.Attempted request answers

def Phase.Attempted (request : Request) (phase : Phase)
    (answers : List (ValidatedPhone × Bool)) : Prop :=
  match phase with
  | .received => answers = []
  | .validated phone => request.validated = .ok phone ∧ answers = []
  | .deduplicated phone isNewSubmission =>
      request.validated = .ok phone ∧ answers = [(phone, isNewSubmission)]
  | .logged phone isNewSubmission =>
      request.validated = .ok phone ∧ answers = [(phone, isNewSubmission)]
  | .saved phone => request.validated = .ok phone ∧ answers = [(phone, true)]
  | .returned response => response.Attempted request answers

def Call.Attempted (call : Call) (answers : List (ValidatedPhone × Bool)) : Prop :=
  call.phase.Attempted call.request answers

def answerOf (attempt : Attempt ValidatedPhone) : ValidatedPhone × Bool :=
  (attempt.key, attempt.accepted)

namespace Web

/-- The tasks published by each call are those of its phase. -/
def SentSettled (web : Web) : Prop :=
  Settled Message.sender Message.task Call.Sent web.calls web.published

def AttemptsSettled (web : Web) : Prop :=
  Settled Attempt.owner answerOf Call.Attempted web.calls web.attempts

def keyOf (phone : ValidatedPhone) : Str :=
  dedupKey phone.value

/-- The shared cache keeps the once-a-day gate of every phone. -/
structure GateKept (web : Web) : Prop where
  exact : Exact day web.attempts
  tracks : Tracks day web.now web.attempts (expiry web.cache keyOf)

end Web

theorem Request.validated_error {request : Request} {failure : Failure}
    (refused : request.validated = .error failure) :
    (∃ detail, failure = .parse detail) ∨ ∃ errors, failure = .validation errors := by
  unfold Request.validated at refused
  split at refused
  · cases refused
    exact Or.inl ⟨_, rfl⟩
  · split at refused
    · cases refused
      exact Or.inr ⟨_, rfl⟩
    · cases refused

theorem Call.tasks_of_valid {call : Call} {phone : ValidatedPhone}
    (valid : call.request.validated = .ok phone) :
    call.tasks = call.phase.progress.tasks call.request phone := by
  simp only [Call.tasks, valid]

theorem Call.tasks_of_nothing {call : Call} (quiet : call.phase.progress = .nothing) :
    call.tasks = [] := by
  unfold Call.tasks
  rw [quiet]
  split <;> rfl

theorem Call.Sent.keep {call : Call} {posted : List Task} (sent : call.Sent posted) (phase : Phase)
    (fits : phase.Fits call.request) (same : phase.progress = call.phase.progress) :
    Call.Sent { call with phase := phase } posted :=
  { fits := fits
    tasks := by
      rw [sent.tasks]
      simp only [Call.tasks, same] }

theorem Call.Sent.publish {call : Call} {posted : List Task} (sent : call.Sent posted)
    {phone : ValidatedPhone} (valid : call.request.validated = .ok phone) (task : Task)
    (phase : Phase) (fits : phase.Fits call.request)
    (grows : phase.progress.tasks call.request phone =
      call.phase.progress.tasks call.request phone ++ [task]) :
    Call.Sent { call with phase := phase } (posted ++ [task]) :=
  { fits := fits
    tasks := by
      rw [sent.tasks, Call.tasks_of_valid valid, ← grows]
      simp only [Call.tasks, valid] }

theorem Call.countP_isSave_le (call : Call) : call.tasks.countP Task.isSave ≤ 1 := by
  cases valid : call.request.validated with
  | error failure =>
      simp only [Call.tasks, valid]
      exact Nat.zero_le 1
  | ok phone =>
      rw [Call.tasks_of_valid valid]
      cases call.phase.progress with
      | nothing => exact Nat.zero_le 1
      | logged isNewSubmission => exact Nat.zero_le 1
      | saved => exact Nat.le_refl 1

theorem keyOf_ne_page {key : Str} (page : pagePrefix.isPrefixOf key = true)
    (phone : ValidatedPhone) : Web.keyOf phone ≠ key := by
  intro same
  obtain ⟨rest, whole⟩ := List.isPrefixOf_iff_prefix.mp page
  rw [← same] at whole
  have first : (0x76 : CodePoint) = 0x64 := Option.some.inj (congrArg List.head? whole)
  exact absurd first (by decide)

/-! ### Steps keep the accounts and the gate -/

namespace Web

theorem step_sent {web next : Web} {action : WebAction} (settled : web.SentSettled)
    (taken : system.step web action = some next) : next.SentSettled := by
  cases step_cases taken with
  | tick elapsed => exact settled
  | cachePage key value page => exact settled
  | arrive request =>
      apply Settled.arrive settled
      exact ⟨trivial, (Call.tasks_of_nothing rfl).symm⟩
  | refuse reply found stands refused =>
      apply Settled.change settled found
      intro posted held
      rcases Request.validated_error refused with ⟨detail, rfl⟩ | ⟨errors, rfl⟩
      · exact held.keep _ refused (by rw [stands]; rfl)
      · exact held.keep _ refused (by rw [stands]; rfl)
  | validate reply found stands valid =>
      apply Settled.change settled found
      intro posted held
      exact held.keep _ valid (by rw [stands]; rfl)
  | addRaises detail found stands =>
      apply Settled.change settled found
      intro posted held
      have fits := held.fits
      rw [stands] at fits
      exact held.keep _ ⟨_, fits⟩ (by rw [stands]; rfl)
  | addReturns found stands =>
      apply Settled.change settled found
      intro posted held
      have fits := held.fits
      rw [stands] at fits
      exact held.keep _ fits (by rw [stands]; rfl)
  | logRaises detail found stands =>
      apply Settled.change settled found
      intro posted held
      have fits := held.fits
      rw [stands] at fits
      exact held.keep _ ⟨_, fits⟩ (by rw [stands]; rfl)
  | logPublishes found stands =>
      apply Settled.post settled found
      · intro message member
        rw [List.mem_singleton.mp member]
      · intro posted held
        have valid := held.fits
        rw [stands] at valid
        exact held.publish valid _ _ valid (by rw [stands]; rfl)
  | answerDuplicate reply found stands =>
      apply Settled.change settled found
      intro posted held
      have fits := held.fits
      rw [stands] at fits
      exact held.keep _ ⟨_, fits⟩ (by rw [stands]; rfl)
  | saveRaises detail found stands =>
      apply Settled.change settled found
      intro posted held
      have fits := held.fits
      rw [stands] at fits
      exact held.keep _ ⟨_, fits⟩ (by rw [stands]; rfl)
  | savePublishes found stands =>
      apply Settled.post settled found
      · intro message member
        rw [List.mem_singleton.mp member]
      · intro posted held
        have valid := held.fits
        rw [stands] at valid
        exact held.publish valid _ _ valid (by rw [stands]; rfl)
  | answerQueued reply found stands =>
      apply Settled.change settled found
      intro posted held
      have fits := held.fits
      rw [stands] at fits
      exact held.keep _ ⟨_, fits⟩ (by rw [stands]; rfl)

theorem step_attempts {web next : Web} {action : WebAction} (settled : web.AttemptsSettled)
    (taken : system.step web action = some next) : next.AttemptsSettled := by
  cases step_cases taken with
  | tick elapsed => exact settled
  | cachePage key value page => exact settled
  | arrive request => exact Settled.arrive settled _ rfl
  | refuse reply found stands refused =>
      apply Settled.change settled found
      intro answers held
      rw [Call.Attempted, stands] at held
      rcases Request.validated_error refused with ⟨detail, rfl⟩ | ⟨errors, rfl⟩
      · exact held
      · exact held
  | validate reply found stands valid =>
      apply Settled.change settled found
      intro answers held
      rw [Call.Attempted, stands] at held
      exact ⟨valid, held⟩
  | addRaises detail found stands =>
      apply Settled.change settled found
      intro answers held
      rw [Call.Attempted, stands] at held
      exact held.2
  | addReturns found stands =>
      apply Settled.post settled found
      · intro attempt member
        rw [List.mem_singleton.mp member]
      · intro answers held
        rw [Call.Attempted, stands] at held
        obtain ⟨valid, none⟩ := held
        rw [none]
        exact ⟨valid, rfl⟩
  | logRaises detail found stands =>
      apply Settled.change settled found
      intro answers held
      rw [Call.Attempted, stands] at held
      exact ⟨_, _, held⟩
  | logPublishes found stands =>
      apply Settled.change settled found
      intro answers held
      rw [Call.Attempted, stands] at held
      exact held
  | answerDuplicate reply found stands =>
      apply Settled.change settled found
      intro answers held
      rw [Call.Attempted, stands] at held
      exact ⟨_, held⟩
  | saveRaises detail found stands =>
      apply Settled.change settled found
      intro answers held
      rw [Call.Attempted, stands] at held
      exact ⟨_, held⟩
  | savePublishes found stands =>
      apply Settled.change settled found
      intro answers held
      rw [Call.Attempted, stands] at held
      exact held
  | answerQueued reply found stands =>
      apply Settled.change settled found
      intro answers held
      rw [Call.Attempted, stands] at held
      exact ⟨_, held⟩

theorem step_gate {web next : Web} {action : WebAction} (kept : web.GateKept)
    (taken : system.step web action = some next) : next.GateKept := by
  cases step_cases taken with
  | tick elapsed =>
      exact ⟨kept.exact, kept.tracks.wait (Nat.le_add_right web.now elapsed)⟩
  | cachePage key value page =>
      refine ⟨kept.exact, ?_⟩
      change Tracks day web.now web.attempts
        (expiry (web.cache.set web.now key value cacheTtl) keyOf)
      rw [expiry_set_foreign web.cache keyOf web.now key value cacheTtl (keyOf_ne_page page)]
      exact kept.tracks
  | @addReturns index call phone found stands =>
      obtain ⟨exact, tracks⟩ :=
        add_keeps keyOf dedupKey_value_injective kept.exact kept.tracks index phone dedupValue
      exact ⟨exact, tracks⟩
  | arrive request => exact ⟨kept.exact, kept.tracks⟩
  | refuse reply found stands refused => exact ⟨kept.exact, kept.tracks⟩
  | validate reply found stands valid => exact ⟨kept.exact, kept.tracks⟩
  | addRaises detail found stands => exact ⟨kept.exact, kept.tracks⟩
  | logRaises detail found stands => exact ⟨kept.exact, kept.tracks⟩
  | logPublishes found stands => exact ⟨kept.exact, kept.tracks⟩
  | answerDuplicate reply found stands => exact ⟨kept.exact, kept.tracks⟩
  | saveRaises detail found stands => exact ⟨kept.exact, kept.tracks⟩
  | savePublishes found stands => exact ⟨kept.exact, kept.tracks⟩
  | answerQueued reply found stands => exact ⟨kept.exact, kept.tracks⟩

/-! ### Reachable states -/

/-- What every reachable state of the web tier satisfies. -/
structure Inv (web : Web) : Prop where
  sent : web.SentSettled
  attempted : web.AttemptsSettled
  gate : web.GateKept

theorem inv_start : Web.start.Inv :=
  { sent := settled_nil
    attempted := settled_nil
    gate := ⟨exact_nil day, tracks_nil day 0⟩ }

theorem step_inv {web next : Web} {action : WebAction} (inv : web.Inv)
    (taken : system.step web action = some next) : next.Inv :=
  { sent := step_sent inv.sent taken
    attempted := step_attempts inv.attempted taken
    gate := step_gate inv.gate taken }

theorem inv_of_reachable {web : Web} (reached : system.Reachable web) : web.Inv :=
  system.reachable_invariant step_inv inv_start reached

/-- Where a call with a valid request fails, one of its external calls has. -/
theorem Inv.failure_of_valid {web : Web} (inv : web.Inv) {call : Call} (member : call ∈ web.calls)
    {phone : ValidatedPhone} (valid : call.request.validated = .ok phone) {failure : Failure}
    (stands : call.phase = .returned (.error failure)) :
    ∃ detail, failure = .cacheAdd detail ∨ failure = .logDelay detail ∨
      failure = .saveDelay detail := by
  obtain ⟨index, found⟩ := List.getElem?_of_mem member
  have fits := (inv.sent.account index call found).fits
  rw [stands] at fits
  cases failure with
  | parse detail =>
      rw [show call.request.validated = _ from fits] at valid
      cases valid
  | validation errors =>
      rw [show call.request.validated = _ from fits] at valid
      cases valid
  | cacheAdd detail => exact ⟨detail, Or.inl rfl⟩
  | logDelay detail => exact ⟨detail, Or.inr (Or.inl rfl)⟩
  | saveDelay detail => exact ⟨detail, Or.inr (Or.inr rfl)⟩

end Web

end Bistland
