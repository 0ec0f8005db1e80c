/-
What the submissions of one phone can tell about the others. The part of a run that belongs
to a phone is a run of the web tier on its own, and its calls stand in it where they stand
among all others: neither other phones nor the page cache reach them.
-/

import Bistland.AnswerLedger
import Bistland.Library.Selection

namespace Bistland

open Expiring OwnerAccounts Selection Transition

def Task.phone : Task → ValidatedPhone
  | .savePhoneInSqlTask phone => phone
  | .logRequestInMongoTask record => record.phone

theorem Call.isFor_iff {call : Call} {held : ValidatedPhone}
    (valid : call.request.validated = .ok held) (phone : ValidatedPhone) :
    call.isFor phone = true ↔ held = phone := by
  simp only [Call.isFor, valid, decide_eq_true_eq]

namespace Web

/-! ### The part of a run that belongs to a phone -/

/-- The number of a call among the calls for a phone. -/
def place (web : Web) (phone : ValidatedPhone) (index : Nat) : Nat :=
  rank (fun call => call.isFor phone) web.calls index

/-- The actions that belong to a phone: its requests, the steps of its calls, and time. -/
def own (phone : ValidatedPhone) (web : Web) : WebAction → Option WebAction
  | .tick elapsed => some (.tick elapsed)
  | .cachePage _ _ => none
  | .arrive request =>
      if Call.isFor ⟨request, web.now, .received⟩ phone then some (.arrive request) else none
  | .resume index reply =>
      match web.calls[index]? with
      | none => none
      | some call =>
          if call.isFor phone then some (.resume (web.place phone index) reply) else none

/-- What one web tier shows of a phone is all that another one, which serves only it, has. -/
structure Seen (phone : ValidatedPhone) (web alone : Web) : Prop where
  now : alone.now = web.now
  entry : alone.cache (keyOf phone) = web.cache (keyOf phone)
  calls : alone.calls = web.calls.filter (fun call => call.isFor phone)
  attempts : alone.attempts = (web.attempts.filter (fun attempt => attempt.key = phone)).map
    (fun attempt => { attempt with owner := web.place phone attempt.owner })
  published : alone.published.map (fun message => (message.sender, message.task)) =
    (web.published.filter (fun message => message.task.phone = phone)).map
      (fun message => (web.place phone message.sender, message.task))

/-! ### One call -/

section Calls

variable {phone : ValidatedPhone} {web alone : Web} {index : Nat} {call : Call}

theorem Seen.found (seen : web.Seen phone alone) (found : web.calls[index]? = some call)
    (mine : call.isFor phone = true) : alone.calls[web.place phone index]? = some call := by
  rw [seen.calls]
  exact filter_at_rank found mine

theorem place_proceed (found : web.calls[index]? = some call) (phase : Phase) :
    (web.proceed index call phase).place phone = web.place phone := by
  funext other
  have same : Call.isFor { call with phase := phase } phone = call.isFor phone := rfl
  exact rank_set (fun call : Call => call.isFor phone) found same other

theorem Seen.proceed (seen : web.Seen phone alone) (found : web.calls[index]? = some call)
    (mine : call.isFor phone = true) (phase : Phase) :
    (web.proceed index call phase).Seen phone
      (alone.proceed (web.place phone index) call phase) := by
  refine { seen with calls := ?_, attempts := ?_, published := ?_ }
  · change alone.calls.set _ _ = (web.calls.set _ _).filter _
    rw [seen.calls]
    exact (filter_set_chosen found mine _ mine).symm
  · rw [place_proceed found]
    exact seen.attempts
  · rw [place_proceed found]
    exact seen.published

theorem Seen.proceed_other (seen : web.Seen phone alone) (found : web.calls[index]? = some call)
    (other : call.isFor phone = false) (phase : Phase) :
    (web.proceed index call phase).Seen phone alone := by
  refine { seen with calls := ?_, attempts := ?_, published := ?_ }
  · rw [seen.calls]
    exact (filter_set_other found other _ other).symm
  · rw [place_proceed found]
    exact seen.attempts
  · rw [place_proceed found]
    exact seen.published

theorem Seen.answer (seen : web.Seen phone alone) (found : web.calls[index]? = some call)
    (mine : call.isFor phone = true) (response : Response) :
    (web.answer index call response).Seen phone
      (alone.answer (web.place phone index) call response) :=
  { seen.proceed found mine (.returned response) with }

theorem Seen.answer_other (seen : web.Seen phone alone) (found : web.calls[index]? = some call)
    (other : call.isFor phone = false) (response : Response) :
    (web.answer index call response).Seen phone alone :=
  { seen.proceed_other found other (.returned response) with }

theorem Seen.publish (seen : web.Seen phone alone) (index : Nat) (task : Task)
    (mine : task.phone = phone) :
    (web.publish index task).Seen phone (alone.publish (web.place phone index) task) := by
  refine { seen with published := ?_ }
  change (alone.published ++ [_]).map _ = ((web.published ++ [_]).filter _).map _
  rw [filter_concat_chosen (by exact decide_eq_true mine), List.map_append, List.map_append,
    seen.published]
  rfl

theorem Seen.publish_other (seen : web.Seen phone alone) (index : Nat) (task : Task)
    (other : task.phone ≠ phone) : (web.publish index task).Seen phone alone := by
  refine { seen with published := ?_ }
  change _ = ((web.published ++ [_]).filter _).map _
  rw [filter_concat_other (by exact decide_eq_false other)]
  exact seen.published

theorem Seen.addKey (seen : web.Seen phone alone) (index : Nat) :
    (alone.addKey (web.place phone index) phone).1 = (web.addKey index phone).1 ∧
      (web.addKey index phone).2.Seen phone
        (alone.addKey (web.place phone index) phone).2 := by
  obtain ⟨same, left⟩ := Store.add_congr seen.entry web.now dedupValue day
  rw [← seen.now] at same left
  refine ⟨same.trans (by rw [seen.now]; rfl), ?_⟩
  refine { seen with entry := left.trans (by rw [seen.now]; rfl), attempts := ?_ }
  change alone.attempts ++ [Attempt.mk _ phone alone.now (alone.cache.add _ _ _ _).1] =
    ((web.attempts ++ [Attempt.mk _ phone web.now (web.cache.add _ _ _ _).1]).filter _).map _
  rw [filter_concat_chosen (by exact decide_eq_true rfl), List.map_append, seen.attempts]
  rw [seen.now] at same ⊢
  exact congrArg (fun stored => _ ++ [Attempt.mk _ phone web.now stored]) same

theorem Seen.addKey_other (seen : web.Seen phone alone) (index : Nat) {held : ValidatedPhone}
    (other : held ≠ phone) : (web.addKey index held).2.Seen phone alone := by
  refine { seen with entry := ?_, attempts := ?_ }
  · rw [seen.entry]
    exact (Store.add_other _ _ _ _ (fun same => other (dedupKey_value_injective same).symm)).symm
  · change _ = ((web.attempts ++ [_]).filter _).map _
    rw [filter_concat_other (by exact decide_eq_false other)]
    exact seen.attempts

end Calls

/-! ### One step -/

section Steps

variable {phone held : ValidatedPhone} {web alone next : Web} {action shown : WebAction}
  {index : Nat} {call : Call} {reply : Reply}

/-- The web tier with a new call. -/
def arrived (web : Web) (request : Request) : Web :=
  { web with
    calls := web.calls ++ [{ request := request, startTime := web.now, phase := .received }] }

theorem place_arrived (request : Request) (inside : index < web.calls.length) :
    (web.arrived request).place phone index = web.place phone index :=
  rank_append (Nat.le_of_lt inside) _

theorem Seen.arrived (inv : web.Inv) (seen : web.Seen phone alone) (request : Request)
    {calls : List Call}
    (same : calls = (web.arrived request).calls.filter (fun call => call.isFor phone)) :
    (web.arrived request).Seen phone { alone with calls := calls } := by
  refine { seen with calls := same, attempts := ?_, published := ?_ }
  · change alone.attempts = _
    rw [seen.attempts]
    apply List.map_congr_left
    intro attempt member
    rw [place_arrived request (inv.attempted.owned attempt (List.mem_filter.mp member).1)]
  · change alone.published.map _ = _
    rw [seen.published]
    apply List.map_congr_left
    intro message member
    rw [place_arrived request (inv.sent.owned message (List.mem_filter.mp member).1)]

theorem own_resume (found : web.calls[index]? = some call) :
    own phone web (.resume index reply) =
      if call.isFor phone then some (.resume (web.place phone index) reply) else none := by
  simp only [own, found]

theorem other_of_hidden (found : web.calls[index]? = some call)
    (hidden : own phone web (.resume index reply) = none) : call.isFor phone = false := by
  rw [own_resume found] at hidden
  cases mine : call.isFor phone with
  | false => rfl
  | true =>
      rw [mine] at hidden
      cases hidden

theorem mine_of_shown (found : web.calls[index]? = some call)
    (projected : own phone web (.resume index reply) = some shown) :
    call.isFor phone = true ∧ shown = .resume (web.place phone index) reply := by
  rw [own_resume found] at projected
  cases mine : call.isFor phone with
  | true =>
      rw [mine] at projected
      cases projected
      exact ⟨rfl, rfl⟩
  | false =>
      rw [mine] at projected
      cases projected

theorem ne_of_other (valid : call.request.validated = .ok held)
    (other : call.isFor phone = false) : held ≠ phone := by
  intro same
  rw [(Call.isFor_iff valid phone).mpr same] at other
  cases other

/-- A step that does not belong to the phone changes nothing that is seen of it. -/
theorem Seen.silent (inv : web.Inv) (seen : web.Seen phone alone)
    (taken : system.step web action = some next) (hidden : own phone web action = none) :
    next.Seen phone alone := by
  cases step_cases taken with
  | tick elapsed => cases hidden
  | cachePage key value page =>
      refine { seen with entry := ?_ }
      rw [seen.entry]
      exact (Store.set_other _ _ _ _ (keyOf_ne_page page phone)).symm
  | arrive request =>
      have other : Call.isFor ⟨request, web.now, .received⟩ phone = false := by
        cases mine : Call.isFor ⟨request, web.now, .received⟩ phone with
        | false => rfl
        | true =>
            simp only [own, mine, if_true] at hidden
            cases hidden
      apply seen.arrived inv request
      rw [seen.calls]
      exact (filter_concat_other (by exact other)).symm
  | refuse reply found stands refused =>
      exact seen.answer_other found (other_of_hidden found hidden) _
  | validate reply found stands valid =>
      exact seen.proceed_other found (other_of_hidden found hidden) _
  | addRaises detail found stands =>
      exact seen.answer_other found (other_of_hidden found hidden) _
  | addReturns found stands =>
      have other := other_of_hidden found hidden
      have valid := (inv.sent.account _ _ found).fits
      rw [stands] at valid
      exact (seen.addKey_other _ (ne_of_other valid other)).proceed_other found other _
  | logRaises detail found stands =>
      exact seen.answer_other found (other_of_hidden found hidden) _
  | @logPublishes index call held isNewSubmission found stands =>
      have other := other_of_hidden found hidden
      have valid := (inv.sent.account _ _ found).fits
      rw [stands] at valid
      have published := seen.publish_other index (call.request.log held isNewSubmission)
        (ne_of_other valid other)
      exact published.proceed_other found other _
  | answerDuplicate reply found stands =>
      exact seen.answer_other found (other_of_hidden found hidden) _
  | saveRaises detail found stands =>
      exact seen.answer_other found (other_of_hidden found hidden) _
  | @savePublishes index call held found stands =>
      have other := other_of_hidden found hidden
      have valid := (inv.sent.account _ _ found).fits
      rw [stands] at valid
      have published :=
        seen.publish_other index (.savePhoneInSqlTask held) (ne_of_other valid other)
      exact published.proceed_other found other _
  | answerQueued reply found stands =>
      exact seen.answer_other found (other_of_hidden found hidden) _

/-- A step that belongs to the phone is the same step for the calls of the phone alone. -/
theorem Seen.matched (inv : web.Inv) (seen : web.Seen phone alone)
    (taken : system.step web action = some next) (projected : own phone web action = some shown) :
    ∃ after, system.step alone shown = some after ∧ next.Seen phone after := by
  cases step_cases taken with
  | tick elapsed =>
      cases projected
      exact ⟨_, rfl, { seen with now := congrArg (· + elapsed) seen.now }⟩
  | cachePage key value page => cases projected
  | arrive request =>
      cases mine : Call.isFor ⟨request, web.now, .received⟩ phone with
      | false =>
          simp only [own, mine, Bool.false_eq_true, if_false] at projected
          cases projected
      | true =>
          simp only [own, mine, if_true] at projected
          cases projected
          refine ⟨_, rfl, ?_⟩
          apply seen.arrived inv request
          rw [seen.calls, seen.now]
          exact (filter_concat_chosen (by exact mine)).symm
  | refuse reply found stands refused =>
      obtain ⟨mine, rfl⟩ := mine_of_shown found projected
      exact ⟨_, (Step.refuse reply (seen.found found mine) stands refused).taken,
        seen.answer found mine _⟩
  | validate reply found stands valid =>
      obtain ⟨mine, rfl⟩ := mine_of_shown found projected
      exact ⟨_, (Step.validate reply (seen.found found mine) stands valid).taken,
        seen.proceed found mine _⟩
  | addRaises detail found stands =>
      obtain ⟨mine, rfl⟩ := mine_of_shown found projected
      exact ⟨_, (Step.addRaises detail (seen.found found mine) stands).taken,
        seen.answer found mine _⟩
  | @addReturns index call held found stands =>
      obtain ⟨mine, rfl⟩ := mine_of_shown found projected
      have valid := (inv.sent.account _ _ found).fits
      rw [stands] at valid
      cases (Call.isFor_iff valid phone).mp mine
      obtain ⟨same, added⟩ := seen.addKey index
      refine ⟨_, (Step.addReturns (seen.found found mine) stands).taken, ?_⟩
      rw [same]
      exact added.proceed found mine _
  | logRaises detail found stands =>
      obtain ⟨mine, rfl⟩ := mine_of_shown found projected
      exact ⟨_, (Step.logRaises detail (seen.found found mine) stands).taken,
        seen.answer found mine _⟩
  | @logPublishes index call held isNewSubmission found stands =>
      obtain ⟨mine, rfl⟩ := mine_of_shown found projected
      have valid := (inv.sent.account _ _ found).fits
      rw [stands] at valid
      have published := seen.publish index (call.request.log held isNewSubmission)
        ((Call.isFor_iff valid phone).mp mine)
      exact ⟨_, (Step.logPublishes (seen.found found mine) stands).taken,
        published.proceed found mine _⟩
  | answerDuplicate reply found stands =>
      obtain ⟨mine, rfl⟩ := mine_of_shown found projected
      exact ⟨_, (Step.answerDuplicate reply (seen.found found mine) stands).taken,
        seen.answer found mine _⟩
  | saveRaises detail found stands =>
      obtain ⟨mine, rfl⟩ := mine_of_shown found projected
      exact ⟨_, (Step.saveRaises detail (seen.found found mine) stands).taken,
        seen.answer found mine _⟩
  | @savePublishes index call held found stands =>
      obtain ⟨mine, rfl⟩ := mine_of_shown found projected
      have valid := (inv.sent.account _ _ found).fits
      rw [stands] at valid
      have published := seen.publish index (.savePhoneInSqlTask held)
        ((Call.isFor_iff valid phone).mp mine)
      exact ⟨_, (Step.savePublishes (seen.found found mine) stands).taken,
        published.proceed found mine _⟩
  | answerQueued reply found stands =>
      obtain ⟨mine, rfl⟩ := mine_of_shown found projected
      exact ⟨_, (Step.answerQueued reply (seen.found found mine) stands).taken,
        seen.answer found mine _⟩

end Steps

/-! ### Runs -/

def isolation (phone : ValidatedPhone) : Projection system system (own phone) :=
  { Related := fun web alone => web.Inv ∧ web.Seen phone alone
    initial :=
      ⟨inv_start, { now := rfl, entry := rfl, calls := rfl, attempts := rfl, published := rfl }⟩
    silent := fun ⟨inv, seen⟩ taken hidden => ⟨step_inv inv taken, seen.silent inv taken hidden⟩
    matched := by
      intro _ _ _ _ _ ⟨inv, seen⟩ taken projected
      obtain ⟨after, same, seenNext⟩ := seen.matched inv taken projected
      exact ⟨after, same, step_inv inv taken, seenNext⟩ }

theorem Seen.messages {phone : ValidatedPhone} {web alone : Web} (seen : web.Seen phone alone) :
    (web.published.filter (fun message => message.task.phone = phone)).map Message.task =
      alone.published.map Message.task := by
  have tasks := congrArg (List.map Prod.snd) seen.published
  rw [List.map_map, List.map_map] at tasks
  exact tasks.symm

/-- The part of a run that belongs to a phone is itself a run, and it ends with the calls,
the cache entry, the attempts and the messages that the whole run has for the phone; two
runs with the same such part have the same of each. -/
theorem isolated {actions : List WebAction} {web : Web}
    (completed : system.exec Web.start actions = some web) (phone : ValidatedPhone) :
    (∃ alone, system.exec Web.start (system.trace (own phone) Web.start actions) = some alone ∧
      web.Seen phone alone) ∧
    ∀ other otherWeb, system.exec Web.start other = some otherWeb →
      system.trace (own phone) Web.start other = system.trace (own phone) Web.start actions →
        otherWeb.calls.filter (fun call => call.isFor phone) =
            web.calls.filter (fun call => call.isFor phone) ∧
          otherWeb.cache (keyOf phone) = web.cache (keyOf phone) ∧
          (otherWeb.published.filter (fun message => message.task.phone = phone)).map
              Message.task =
            (web.published.filter (fun message => message.task.phone = phone)).map
              Message.task := by
  obtain ⟨alone, ran, _, seen⟩ := (isolation phone).run completed
  refine ⟨⟨alone, ran, seen⟩, ?_⟩
  intro other otherWeb otherCompleted same
  obtain ⟨otherAlone, otherRan, _, otherSeen⟩ := (isolation phone).run otherCompleted
  have otherRan : system.exec Web.start (system.trace (own phone) Web.start other) =
    some otherAlone := otherRan
  rw [same] at otherRan
  cases Option.some.inj (ran.symm.trans otherRan)
  refine ⟨?_, ?_, ?_⟩
  · rw [← otherSeen.calls, ← seen.calls]
  · rw [← otherSeen.entry, ← seen.entry]
  · rw [otherSeen.messages, seen.messages]

def otherRequest : Request :=
  { exampleRequest with data := .ok (.object [(text "phone", .string (text "+989351112233"))]) }

/-- Two phones and the page cache, step by step in turn. -/
def mixedRun : List WebAction :=
  [.arrive otherRequest, .arrive exampleRequest, .resume 0 .returns, .resume 1 .returns,
    .resume 0 .returns, .tick second, .cachePage (pagePrefix ++ text ".cache_page") [],
    .resume 1 .returns, .resume 0 (.raises (text "broker down")), .resume 1 .returns,
    .arrive otherRequest, .resume 1 .returns, .resume 1 .returns]

theorem isolated_mixed :
    system.trace (own examplePhone) Web.start mixedRun =
        [.arrive exampleRequest, .resume 0 .returns, .tick second, .resume 0 .returns,
          .resume 0 .returns, .resume 0 .returns, .resume 0 .returns] ∧
      ∃ web, system.exec Web.start mixedRun = some web ∧
        ∃ alone, system.exec Web.start
          (system.trace (own examplePhone) Web.start mixedRun) = some alone ∧
            web.Seen examplePhone alone := by
  obtain ⟨web, completed⟩ :=
    Option.isSome_iff_exists.mp (show (system.exec Web.start mixedRun).isSome by decide)
  exact ⟨rfl, web, completed, (isolated completed examplePhone).1⟩

end Web

end Bistland
