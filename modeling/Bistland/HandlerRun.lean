/-
The sequential handler against the small steps. A call that is resumed until it
returns, with nothing in between, does what `post` does: the same answer, cache,
publishes and metrics, whichever of its external calls raise.
-/

import Bistland.WebTier

namespace Bistland

open Expiring

/-! ### Outcomes of handler programs -/

section Outcomes

variable {Cache : Type}

def Handler.outcome {Result : Type} (program : Handler Cache Result) (world : World Cache) :
    Except Failure Result × World Cache :=
  (ExceptT.run program).run world

variable (backend : CacheBackend Cache) (replies : Replies) (request : Request)
  (world : World Cache)

theorem outcome_bind {First Result : Type} (first : Handler Cache First)
    (next : First → Handler Cache Result) :
    Handler.outcome (first >>= next) world =
      match first.outcome world with
      | (.ok value, after) => (next value).outcome after
      | (.error failure, after) => (.error failure, after) := by
  simp only [Handler.outcome, ExceptT.run_bind, StateT.run_bind]
  generalize (ExceptT.run first).run world = reached
  obtain ⟨result, after⟩ := reached
  cases result <;> rfl

theorem outcome_lift {Result : Type} (value : Except Failure Result) :
    Handler.outcome (liftM value : Handler Cache Result) world = (value, world) := by
  cases value <;> rfl

theorem outcome_raises {Result : Type} (detail : Str) (failure : Str → Failure)
    (effect : Handler Cache Result) :
    (external (.raises detail) failure effect).outcome world = (.error (failure detail), world) := rfl

theorem outcome_cacheAdd (key value : Str) (timeout : Nat) :
    (cacheAdd backend key value timeout).outcome world =
      (.ok (backend.add world.cache world.now key value timeout).1,
        { world with cache := (backend.add world.cache world.now key value timeout).2 }) := rfl

def World.publish (world : World Cache) (task : Task) : World Cache :=
  { world with published := world.published ++ [task] }

theorem outcome_delay (task : Task) :
    (delay task).outcome world = (.ok (), world.publish task) := rfl

def World.answer (world : World Cache) (startTime : Nat) (response : Response) :
    Response × World Cache :=
  (response,
    { world with
      metrics := (world.metrics.count response).observe (world.now - startTime) })

def answerTo : Except Failure Response → Response
  | .ok response => response
  | .error failure => .error failure

theorem post_run : (post backend replies request).run world =
    ((process backend replies request).outcome world).2.answer world.now
      (answerTo ((process backend replies request).outcome world).1) := by
  unfold post
  generalize process backend replies request = program
  rcases reached : (ExceptT.run program).run world with ⟨result, after⟩
  simp only [Handler.outcome, reached, StateT.run_bind, StateT.run_get, pure_bind]
  cases result <;> rfl

theorem post_answer : ((post backend replies request).run world).1 =
    answerTo ((process backend replies request).outcome world).1 := by
  rw [post_run]
  rfl

theorem post_cache : ((post backend replies request).run world).2.cache =
    ((process backend replies request).outcome world).2.cache := by
  rw [post_run]
  rfl

/-! ### One call with a valid phone -/

/-- How the `try` block ends for a phone that `cache.add` stores or finds stored. -/
def Replies.verdict (replies : Replies) (stored : Bool) : Except Failure Response :=
  match replies.cacheAdd, replies.logDelay with
  | .raises detail, _ => .error (.cacheAdd detail)
  | .returns, .raises detail => .error (.logDelay detail)
  | .returns, .returns =>
      if !stored then .ok .duplicate
      else
        match replies.saveDelay with
        | .raises detail => .error (.saveDelay detail)
        | .returns => .ok .queued

/-- An answer that is no error is what the cache decided. -/
theorem answerTo_verdict (replies : Replies) (stored : Bool) :
    (∃ failure, answerTo (replies.verdict stored) = .error failure) ∨
      replies.cacheAdd = .returns ∧
        answerTo (replies.verdict stored) = if stored then .queued else .duplicate := by
  unfold Replies.verdict
  cases replies.cacheAdd with
  | raises detail => exact Or.inl ⟨_, rfl⟩
  | returns =>
      cases replies.logDelay with
      | raises detail => exact Or.inl ⟨_, rfl⟩
      | returns =>
          cases stored with
          | false => exact Or.inr ⟨rfl, rfl⟩
          | true =>
              cases replies.saveDelay with
              | raises detail => exact Or.inl ⟨_, rfl⟩
              | returns => exact Or.inr ⟨rfl, rfl⟩

/-- The tasks it has published by then. -/
def Replies.tasks (replies : Replies) (request : Request) (phone : ValidatedPhone)
    (stored : Bool) : List Task :=
  match replies.cacheAdd, replies.logDelay with
  | .returns, .returns =>
      if !stored then [request.log phone stored]
      else
        match replies.saveDelay with
        | .raises _ => [request.log phone stored]
        | .returns => [request.log phone stored, .savePhoneInSqlTask phone]
  | _, _ => []

def Replies.cacheAfter (replies : Replies) (before after : Cache) : Cache :=
  match replies.cacheAdd with
  | .raises _ => before
  | .returns => after

theorem process_rejected {failure : Failure} (rejected : request.validated = .error failure) :
    (process backend replies request).outcome world = (.error failure, world) := by
  unfold process
  simp only [outcome_bind, outcome_lift, rejected]

theorem process_accepted {phone : ValidatedPhone} (valid : request.validated = .ok phone) :
    (process backend replies request).outcome world =
      (replies.verdict (backend.add world.cache world.now (dedupKey phone.value) dedupValue day).1,
        { world with
          cache := replies.cacheAfter world.cache
            (backend.add world.cache world.now (dedupKey phone.value) dedupValue day).2
          published := world.published ++ replies.tasks request phone
            (backend.add world.cache world.now (dedupKey phone.value) dedupValue day).1 }) := by
  unfold process Replies.verdict Replies.tasks Replies.cacheAfter
  simp only [outcome_bind, outcome_lift, valid]
  cases replies.cacheAdd with
  | raises detail => simp only [outcome_raises, List.append_nil]
  | returns =>
      simp only [external, outcome_cacheAdd]
      cases replies.logDelay with
      | raises detail =>
          simp only [List.append_nil]
          rfl
      | returns =>
          simp only [outcome_delay]
          cases (backend.add world.cache world.now (dedupKey phone.value) dedupValue day).1 with
          | false => rfl
          | true =>
              cases replies.saveDelay with
              | raises detail => rfl
              | returns =>
                  have grown := List.append_assoc world.published [request.log phone true]
                    [.savePhoneInSqlTask phone]
                  exact congrArg (fun published => (_, { world with
                    cache := (backend.add world.cache world.now (dedupKey phone.value)
                      dedupValue day).2
                    published := published })) grown

end Outcomes

/-! ### One call at the end of the list -/

def sharedCache : CacheBackend (Store Str Str) :=
  { add := Store.add }

namespace Web

def world (web : Web) : World (Store Str Str) :=
  { now := web.now
    cache := web.cache
    published := web.published.map Message.task
    metrics := web.metrics }

def extend (web : Web) (call : Call) : Web :=
  { web with calls := web.calls ++ [call] }

theorem extend_found (web : Web) (call : Call) :
    (web.extend call).calls[web.calls.length]? = some call := by
  unfold extend
  rw [List.getElem?_append_right (Nat.le_refl _), Nat.sub_self]
  rfl

theorem extend_proceed (web : Web) (call other : Call) (phase : Phase) :
    (web.extend call).proceed web.calls.length other phase =
      web.extend { other with phase := phase } := by
  unfold extend proceed
  simp only [List.set_append_right, Nat.le_refl, Nat.sub_self, List.set_cons_zero]

theorem step_extend (web : Web) (call : Call) (reply : Reply) :
    system.step (web.extend call) (.resume web.calls.length reply) =
      (web.extend call).resume web.calls.length call reply := by
  simp only [system, step, extend_found]

/-- The call, resumed until it returns and with nothing in between, ends with an answer and
a world. -/
def Completes (web : Web) (call : Call) (ending : Response × World (Store Str Str)) : Prop :=
  ∃ schedule final, system.exec (web.extend call) schedule =
      some (extend final { call with phase := .returned ending.1 }) ∧
    final.calls = web.calls ∧ final.world = ending.2 ∧
    ∀ action ∈ schedule, ∃ reply, action = .resume web.calls.length reply

variable {web : Web} {request : Request} {startTime : Nat} {phase : Phase}
  {ending : Response × World (Store Str Str)}

theorem Completes.step (after : Web) (next : Phase) (reply : Reply)
    (taken : (web.extend ⟨request, startTime, phase⟩).resume web.calls.length
      ⟨request, startTime, phase⟩ reply = some (after.extend ⟨request, startTime, next⟩))
    (same : after.calls = web.calls) (rest : Completes after ⟨request, startTime, next⟩ ending) :
    Completes web ⟨request, startTime, phase⟩ ending := by
  obtain ⟨schedule, final, completed, finalSame, world, own⟩ := rest
  refine ⟨.resume web.calls.length reply :: schedule, final, ?_, finalSame.trans same, world, ?_⟩
  · rw [← step_extend] at taken
    rw [system.exec_cons taken]
    exact completed
  · intro action member
    rcases List.mem_cons.mp member with first | later
    · exact ⟨reply, first⟩
    · obtain ⟨reply, same_⟩ := own action later
      rw [same] at same_
      exact ⟨reply, same_⟩

theorem Completes.answer (reply : Reply) (response : Response)
    (taken : (web.extend ⟨request, startTime, phase⟩).resume web.calls.length
        ⟨request, startTime, phase⟩ reply =
      some ((web.extend ⟨request, startTime, phase⟩).answer web.calls.length
        ⟨request, startTime, phase⟩ response)) :
    Completes web ⟨request, startTime, phase⟩ (web.world.answer startTime response) := by
  refine ⟨[.resume web.calls.length reply],
    { web with metrics := (web.metrics.count response).observe (web.now - startTime) }, ?_, rfl,
    rfl, ?_⟩
  · rw [← step_extend] at taken
    rw [system.exec_cons taken]
    unfold Web.answer
    rw [extend_proceed]
    rfl
  · intro action member
    exact ⟨reply, List.mem_singleton.mp member⟩

theorem world_publish (web : Web) (sender : Nat) (task : Task) :
    (web.publish sender task).world = web.world.publish task := by
  unfold Web.publish Web.world World.publish
  simp only [List.map_append, List.map_cons, List.map_nil]

theorem world_addKey (web : Web) (index : Nat) (phone : ValidatedPhone) :
    (web.addKey index phone).2.world =
      { web.world with
        cache := (sharedCache.add web.cache web.now (dedupKey phone.value) dedupValue day).2 } :=
  rfl

theorem Completes.validate {phone : ValidatedPhone} (valid : request.validated = .ok phone)
    (rest : Completes web ⟨request, startTime, .validated phone⟩ ending) :
    Completes web ⟨request, startTime, .received⟩ ending := by
  refine Completes.step web (.validated phone) .returns ?_ rfl rest
  simp only [resume, valid]
  exact congrArg some (extend_proceed _ _ _ _)

theorem Completes.add {phone : ValidatedPhone}
    (rest : Completes (web.addKey web.calls.length phone).2
      ⟨request, startTime, .deduplicated phone (web.addKey web.calls.length phone).1⟩ ending) :
    Completes web ⟨request, startTime, .validated phone⟩ ending := by
  refine Completes.step _ _ .returns ?_ ?_ rest
  · exact congrArg some (extend_proceed (web.addKey web.calls.length phone).2 _ _ _)
  · rfl

theorem Completes.log {phone : ValidatedPhone} {isNewSubmission : Bool}
    (rest : Completes (web.publish web.calls.length (request.log phone isNewSubmission))
      ⟨request, startTime, .logged phone isNewSubmission⟩ ending) :
    Completes web ⟨request, startTime, .deduplicated phone isNewSubmission⟩ ending := by
  refine Completes.step _ _ .returns ?_ ?_ rest
  · exact congrArg some (extend_proceed (web.publish web.calls.length _) _ _ _)
  · rfl

theorem Completes.save {phone : ValidatedPhone}
    (rest : Completes (web.publish web.calls.length (.savePhoneInSqlTask phone))
      ⟨request, startTime, .saved phone⟩ ending) :
    Completes web ⟨request, startTime, .logged phone true⟩ ending := by
  refine Completes.step _ _ .returns ?_ ?_ rest
  · exact congrArg some (extend_proceed (web.publish web.calls.length _) _ _ _)
  · rfl

theorem completes_logged (web : Web) (request : Request) (startTime : Nat) (replies : Replies)
    (phone : ValidatedPhone) (isNewSubmission : Bool) :
    Completes web ⟨request, startTime, .logged phone isNewSubmission⟩
      (if !isNewSubmission then web.world.answer startTime .duplicate
      else
        match replies.saveDelay with
        | .raises detail => web.world.answer startTime (.error (.saveDelay detail))
        | .returns =>
            (web.world.publish (.savePhoneInSqlTask phone)).answer startTime .queued) := by
  cases isNewSubmission with
  | false => exact Completes.answer .returns .duplicate rfl
  | true =>
      cases replies.saveDelay with
      | raises detail => exact Completes.answer (.raises detail) (.error (.saveDelay detail)) rfl
      | returns =>
          apply Completes.save
          rw [← world_publish web web.calls.length]
          exact Completes.answer .returns .queued rfl

/-- The sequential handler is the call that nothing interrupts. -/
theorem post_completes (web : Web) (replies : Replies) (request : Request) :
    Completes web ⟨request, web.now, .received⟩
      ((post sharedCache replies request).run web.world) := by
  rw [post_run]
  unfold process
  cases valid : request.validated with
  | error failure =>
      simp only [outcome_bind, outcome_lift, answerTo]
      apply Completes.answer .returns (.error failure)
      simp only [resume, valid]
  | ok phone =>
      simp only [outcome_bind, outcome_lift]
      apply Completes.validate valid
      cases replies.cacheAdd with
      | raises detail =>
          simp only [outcome_raises, answerTo]
          exact Completes.answer (.raises detail) (.error (.cacheAdd detail)) rfl
      | returns =>
          apply Completes.add
          simp only [external, outcome_cacheAdd]
          cases replies.logDelay with
          | raises detail =>
              exact Completes.answer (.raises detail) (.error (.logDelay detail)) rfl
          | returns =>
              apply Completes.log
              simp only [outcome_delay]
              have logged := completes_logged
                ((web.addKey web.calls.length phone).2.publish web.calls.length
                  (request.log phone (web.addKey web.calls.length phone).1))
                request web.now replies phone (web.addKey web.calls.length phone).1
              rw [world_publish, world_addKey] at logged
              have reads : (sharedCache.add web.world.cache web.world.now
                  (dedupKey phone.value) dedupValue day).1 =
                (web.addKey web.calls.length phone).1 := rfl
              rw [reads]
              cases stored : (web.addKey web.calls.length phone).1 with
              | false =>
                  rw [stored] at logged
                  exact logged
              | true =>
                  rw [stored] at logged
                  cases saveDelay : replies.saveDelay <;>
                    · rw [saveDelay] at logged
                      exact logged

end Web

end Bistland
