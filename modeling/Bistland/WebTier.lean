/-
Any number of `post` calls interleaved step by step over one shared cache. A
call is suspended between its external calls; time passes and the page cache of
LandingPageView writes while it is. The histories of `cache.add` answers and of
published messages are kept beside the state the code has.
-/

import Bistland.SubmitPhoneView
import Bistland.Library.ExpiringStore
import Bistland.Library.OwnerAccounts
import Bistland.Library.TransitionSystem

namespace Bistland

open Expiring

/-! ### State -/

/-- Where a call of `post` stands, with the local variables it still needs. -/
inductive Phase where
  | received
  | validated (phone : ValidatedPhone)
  | deduplicated (phone : ValidatedPhone) (isNewSubmission : Bool)
  | logged (phone : ValidatedPhone) (isNewSubmission : Bool)
  | saved (phone : ValidatedPhone)
  | returned (response : Response)
  deriving DecidableEq

structure Call where
  request : Request
  startTime : Nat
  phase : Phase

/-- A published task with the identifier the broker knows it by; `sender` is the call
that published it. -/
structure Message where
  id : Nat
  sender : Nat
  task : Task
  deriving DecidableEq

structure Web where
  now : Nat
  cache : Store Str Str
  calls : List Call
  metrics : Metrics
  attempts : List (Attempt ValidatedPhone)
  published : List Message

def Web.start : Web :=
  { now := 0
    cache := Store.empty
    calls := []
    metrics := Metrics.zero
    attempts := []
    published := [] }

/-- `CACHE_TTL` of the landing page. -/
def cacheTtl : Nat := 60 * second

/-- What every key of `cache_page` starts with. -/
def pagePrefix : Str := text "views.decorators.cache"

inductive WebAction where
  | tick (elapsed : Nat)
  | cachePage (key value : Str)
  | arrive (request : Request)
  | resume (index : Nat) (reply : Reply)

/-! ### Steps -/

namespace Web

def proceed (web : Web) (index : Nat) (call : Call) (phase : Phase) : Web :=
  { web with calls := web.calls.set index { call with phase := phase } }

def answer (web : Web) (index : Nat) (call : Call) (response : Response) : Web :=
  { web.proceed index call (.returned response) with
    metrics := (web.metrics.count response).observe (web.now - call.startTime) }

def publish (web : Web) (sender : Nat) (task : Task) : Web :=
  { web with
    published := web.published ++ [{ id := web.published.length, sender := sender, task := task }] }

/-- `cache.add(dedup_key, "1", timeout=24 * 3600)` by a call. -/
def addKey (web : Web) (index : Nat) (phone : ValidatedPhone) : Bool × Web :=
  let (stored, cache) := web.cache.add web.now (dedupKey phone.value) dedupValue day
  (stored,
    { web with
      cache := cache
      attempts := web.attempts ++
        [{ owner := index, key := phone, time := web.now, accepted := stored }] })

/-- The next step of a call; the reply is that of the external call it makes, if any. -/
def resume (web : Web) (index : Nat) (call : Call) (reply : Reply) : Option Web :=
  match call.phase with
  | .received =>
      match call.request.validated with
      | .error failure => some (web.answer index call (.error failure))
      | .ok phone => some (web.proceed index call (.validated phone))
  | .validated phone =>
      match reply with
      | .raises detail => some (web.answer index call (.error (.cacheAdd detail)))
      | .returns =>
          let (isNewSubmission, web) := web.addKey index phone
          some (web.proceed index call (.deduplicated phone isNewSubmission))
  | .deduplicated phone isNewSubmission =>
      match reply with
      | .raises detail => some (web.answer index call (.error (.logDelay detail)))
      | .returns =>
          some ((web.publish index (call.request.log phone isNewSubmission)).proceed index call
            (.logged phone isNewSubmission))
  | .logged phone isNewSubmission =>
      if !isNewSubmission then some (web.answer index call .duplicate)
      else
        match reply with
        | .raises detail => some (web.answer index call (.error (.saveDelay detail)))
        | .returns =>
            some ((web.publish index (.savePhoneInSqlTask phone)).proceed index call
              (.saved phone))
  | .saved _ => some (web.answer index call .queued)
  | .returned _ => none

def step (web : Web) : WebAction → Option Web
  | .tick elapsed => some { web with now := web.now + elapsed }
  | .cachePage key value =>
      if pagePrefix.isPrefixOf key then
        some { web with cache := web.cache.set web.now key value cacheTtl }
      else none
  | .arrive request =>
      some { web with
        calls := web.calls ++ [{ request := request, startTime := web.now, phase := .received }] }
  | .resume index reply =>
      match web.calls[index]? with
      | none => none
      | some call => web.resume index call reply

def system : Transition.System Web WebAction :=
  { initial := Web.start
    step := Web.step }

/-- Everything a step of the web tier can do. -/
inductive Step (web : Web) : WebAction → Web → Prop
  | tick (elapsed : Nat) : Step web (.tick elapsed) { web with now := web.now + elapsed }
  | cachePage (key value : Str) (page : pagePrefix.isPrefixOf key = true) :
      Step web (.cachePage key value)
        { web with cache := web.cache.set web.now key value cacheTtl }
  | arrive (request : Request) : Step web (.arrive request)
      { web with
        calls := web.calls ++ [{ request := request, startTime := web.now, phase := .received }] }
  | refuse {index : Nat} {call : Call} {failure : Failure} (reply : Reply)
      (found : web.calls[index]? = some call) (stands : call.phase = .received)
      (refused : call.request.validated = .error failure) :
      Step web (.resume index reply) (web.answer index call (.error failure))
  | validate {index : Nat} {call : Call} {phone : ValidatedPhone} (reply : Reply)
      (found : web.calls[index]? = some call) (stands : call.phase = .received)
      (valid : call.request.validated = .ok phone) :
      Step web (.resume index reply) (web.proceed index call (.validated phone))
  | addRaises {index : Nat} {call : Call} {phone : ValidatedPhone} (detail : Str)
      (found : web.calls[index]? = some call) (stands : call.phase = .validated phone) :
      Step web (.resume index (.raises detail)) (web.answer index call (.error (.cacheAdd detail)))
  | addReturns {index : Nat} {call : Call} {phone : ValidatedPhone}
      (found : web.calls[index]? = some call) (stands : call.phase = .validated phone) :
      Step web (.resume index .returns)
        ((web.addKey index phone).2.proceed index call
          (.deduplicated phone (web.addKey index phone).1))
  | logRaises {index : Nat} {call : Call} {phone : ValidatedPhone} {isNewSubmission : Bool}
      (detail : Str) (found : web.calls[index]? = some call)
      (stands : call.phase = .deduplicated phone isNewSubmission) :
      Step web (.resume index (.raises detail)) (web.answer index call (.error (.logDelay detail)))
  | logPublishes {index : Nat} {call : Call} {phone : ValidatedPhone} {isNewSubmission : Bool}
      (found : web.calls[index]? = some call)
      (stands : call.phase = .deduplicated phone isNewSubmission) :
      Step web (.resume index .returns)
        ((web.publish index (call.request.log phone isNewSubmission)).proceed index call
          (.logged phone isNewSubmission))
  | answerDuplicate {index : Nat} {call : Call} {phone : ValidatedPhone} (reply : Reply)
      (found : web.calls[index]? = some call) (stands : call.phase = .logged phone false) :
      Step web (.resume index reply) (web.answer index call .duplicate)
  | saveRaises {index : Nat} {call : Call} {phone : ValidatedPhone} (detail : Str)
      (found : web.calls[index]? = some call) (stands : call.phase = .logged phone true) :
      Step web (.resume index (.raises detail)) (web.answer index call (.error (.saveDelay detail)))
  | savePublishes {index : Nat} {call : Call} {phone : ValidatedPhone}
      (found : web.calls[index]? = some call) (stands : call.phase = .logged phone true) :
      Step web (.resume index .returns)
        ((web.publish index (.savePhoneInSqlTask phone)).proceed index call (.saved phone))
  | answerQueued {index : Nat} {call : Call} {phone : ValidatedPhone} (reply : Reply)
      (found : web.calls[index]? = some call) (stands : call.phase = .saved phone) :
      Step web (.resume index reply) (web.answer index call .queued)

private theorem resume_cases {web next : Web} {index : Nat} {call : Call} {reply : Reply}
    (found : web.calls[index]? = some call) (taken : web.resume index call reply = some next) :
    Step web (.resume index reply) next := by
  unfold resume at taken
  cases stands : call.phase with
  | received =>
      rw [stands] at taken
      cases valid : call.request.validated with
      | error failure =>
          simp only [valid] at taken
          cases taken
          exact .refuse reply found stands valid
      | ok phone =>
          simp only [valid] at taken
          cases taken
          exact .validate reply found stands valid
  | validated phone =>
      rw [stands] at taken
      cases reply with
      | raises detail =>
          cases taken
          exact .addRaises detail found stands
      | returns =>
          cases taken
          exact .addReturns found stands
  | deduplicated phone isNewSubmission =>
      rw [stands] at taken
      cases reply with
      | raises detail =>
          cases taken
          exact .logRaises detail found stands
      | returns =>
          cases taken
          exact .logPublishes found stands
  | logged phone isNewSubmission =>
      rw [stands] at taken
      cases isNewSubmission with
      | false =>
          cases taken
          exact .answerDuplicate reply found stands
      | true =>
          cases reply with
          | raises detail =>
              cases taken
              exact .saveRaises detail found stands
          | returns =>
              cases taken
              exact .savePublishes found stands
  | saved phone =>
      rw [stands] at taken
      cases taken
      exact .answerQueued reply found stands
  | returned response =>
      rw [stands] at taken
      cases taken

theorem step_cases {web next : Web} {action : WebAction}
    (taken : system.step web action = some next) : Step web action next := by
  cases action with
  | tick elapsed =>
      cases taken
      exact .tick elapsed
  | cachePage key value =>
      change (if pagePrefix.isPrefixOf key then
        some { web with cache := web.cache.set web.now key value cacheTtl } else none) =
          some next at taken
      split at taken
      · rename_i page
        cases taken
        exact .cachePage key value page
      · cases taken
  | arrive request =>
      cases taken
      exact .arrive request
  | resume index reply =>
      change (match web.calls[index]? with
        | none => none
        | some call => web.resume index call reply) = some next at taken
      cases found : web.calls[index]? with
      | none =>
          rw [found] at taken
          cases taken
      | some call =>
          rw [found] at taken
          exact resume_cases found taken

theorem step_resume {web : Web} {index : Nat} {call : Call} (reply : Reply)
    (found : web.calls[index]? = some call) :
    system.step web (.resume index reply) = web.resume index call reply := by
  simp only [system, step, found]

theorem Step.taken {web next : Web} {action : WebAction} (step : Step web action next) :
    system.step web action = some next := by
  cases step with
  | tick elapsed => rfl
  | cachePage key value page => exact if_pos page
  | arrive request => rfl
  | refuse reply found stands refused =>
      rw [step_resume reply found]
      simp only [resume, stands, refused]
  | validate reply found stands valid =>
      rw [step_resume reply found]
      simp only [resume, stands, valid]
  | addRaises detail found stands =>
      rw [step_resume _ found]
      simp only [resume, stands]
  | addReturns found stands =>
      rw [step_resume _ found]
      simp only [resume, stands]
  | logRaises detail found stands =>
      rw [step_resume _ found]
      simp only [resume, stands]
  | logPublishes found stands =>
      rw [step_resume _ found]
      simp only [resume, stands]
  | answerDuplicate reply found stands =>
      rw [step_resume reply found]
      simp only [resume, stands]
      rfl
  | saveRaises detail found stands =>
      rw [step_resume _ found]
      simp only [resume, stands]
      rfl
  | savePublishes found stands =>
      rw [step_resume _ found]
      simp only [resume, stands]
      rfl
  | answerQueued reply found stands =>
      rw [step_resume reply found]
      simp only [resume, stands]

end Web

end Bistland
