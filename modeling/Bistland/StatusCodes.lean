/-
The status codes of SubmitPhoneView.post. Every exception of its `try` block, that of the
parser and of the serializer included, is answered by the one `except` branch; a fault of
the client is told from a fault of the server only by the body of the answer.
-/

import Bistland.HandlerRun

namespace Bistland

/-! ### Faults of the client and of the server -/

def Request.Rejected (request : Request) (failure : Failure) : Prop :=
  request.validated = .error failure

def Reply.raised : Reply → Bool
  | .returns => false
  | .raises _ => true

/-- An external call that is reached raises; the save publish is reached by a phone that
`cache.add` has stored. -/
def Replies.reachedRaises (replies : Replies) (stored : Bool) : Bool :=
  replies.cacheAdd.raised || replies.logDelay.raised || (stored && replies.saveDelay.raised)

section Statuses

variable {Cache : Type}

/-- What `cache.add` answers for a phone, when it returns. -/
def World.stores (world : World Cache) (backend : CacheBackend Cache) (phone : ValidatedPhone) :
    Bool :=
  (backend.add world.cache world.now (dedupKey phone.value) dedupValue day).1

def statusOf (backend : CacheBackend Cache) (replies : Replies) (request : Request)
    (world : World Cache) : Nat :=
  ((post backend replies request).run world).1.status

def worldAfter (backend : CacheBackend Cache) (replies : Replies) (request : Request)
    (world : World Cache) : World Cache :=
  ((post backend replies request).run world).2

structure StatusSeparates (backend : CacheBackend Cache) (replies : Replies) (request : Request)
    (world : World Cache) : Prop where
  client : (400 ≤ statusOf backend replies request world ∧
      statusOf backend replies request world < 500) ↔
    ∃ failure, request.Rejected failure
  badRequest : ∀ errors, request.Rejected (.validation errors) →
    statusOf backend replies request world = 400
  server : statusOf backend replies request world = 500 ↔
    ∃ phone, request.validated = .ok phone ∧
      replies.reachedRaises (world.stores backend phone) = true
  otherwise : statusOf backend replies request world = 200 ↔
    ∃ phone, request.validated = .ok phone ∧
      replies.reachedRaises (world.stores backend phone) = false
  cacheKept : ∀ failure, request.Rejected failure →
    (worldAfter backend replies request world).cache = world.cache
  queueKept : ∀ failure, request.Rejected failure →
    (worldAfter backend replies request world).published = world.published

variable (backend : CacheBackend Cache) (replies : Replies) {request : Request}
  (world : World Cache)

theorem post_rejected {failure : Failure} (rejected : request.Rejected failure) :
    (post backend replies request).run world = world.answer world.now (.error failure) := by
  rw [post_run, process_rejected backend replies request world rejected]
  rfl

theorem statusOf_accepted {phone : ValidatedPhone} (valid : request.validated = .ok phone) :
    statusOf backend replies request world =
      if replies.reachedRaises (world.stores backend phone) then 500 else 200 := by
  unfold statusOf World.stores Replies.reachedRaises
  rw [post_run, process_accepted backend replies request world valid]
  unfold Replies.verdict
  cases replies.cacheAdd with
  | raises detail => rfl
  | returns =>
      cases replies.logDelay with
      | raises detail => rfl
      | returns =>
          cases (backend.add world.cache world.now (dedupKey phone.value) dedupValue day).1 with
          | false => rfl
          | true => cases replies.saveDelay <;> rfl

theorem request_cases (request : Request) :
    (∃ phone, request.validated = .ok phone) ∨ ∃ failure, request.Rejected failure := by
  unfold Request.Rejected
  cases request.validated with
  | ok phone => exact Or.inl ⟨phone, rfl⟩
  | error failure => exact Or.inr ⟨failure, rfl⟩

theorem statusSeparates_of_accepted {phone : ValidatedPhone}
    (valid : request.validated = .ok phone) : StatusSeparates backend replies request world := by
  have status := statusOf_accepted backend replies world valid
  have accepted : ∀ failure, ¬request.Rejected failure := by
    intro failure rejected
    rw [Request.Rejected, valid] at rejected
    cases rejected
  have raises : ∀ value, (∃ other, request.validated = .ok other ∧
      replies.reachedRaises (world.stores backend other) = value) ↔
        replies.reachedRaises (world.stores backend phone) = value := by
    intro value
    rw [valid]
    constructor
    · intro ⟨other, same, outcome⟩
      cases same
      exact outcome
    · intro outcome
      exact ⟨phone, rfl, outcome⟩
  constructor
  · rw [status]
    constructor
    · intro within
      split at within <;> omega
    · intro ⟨failure, rejected⟩
      exact absurd rejected (accepted failure)
  · intro errors rejected
    exact absurd rejected (accepted _)
  · rw [raises, status]
    cases replies.reachedRaises (world.stores backend phone) <;> decide
  · rw [raises, status]
    cases replies.reachedRaises (world.stores backend phone) <;> decide
  · intro failure rejected
    exact absurd rejected (accepted failure)
  · intro failure rejected
    exact absurd rejected (accepted failure)

/-- The status separates the faults exactly for the bodies that the parser and the serializer
accept; the others are answered 500, with nothing stored or published. -/
theorem status_separates_exactly (backend : CacheBackend Cache) (replies : Replies)
    (request : Request) (world : World Cache) :
    (StatusSeparates backend replies request world ↔ ∃ phone, request.validated = .ok phone) ∧
      ∀ failure, request.Rejected failure →
        statusOf backend replies request world = 500 ∧
          (worldAfter backend replies request world).cache = world.cache ∧
          (worldAfter backend replies request world).published = world.published := by
  have answered : ∀ failure, request.Rejected failure →
      statusOf backend replies request world = 500 ∧
        (worldAfter backend replies request world).cache = world.cache ∧
        (worldAfter backend replies request world).published = world.published := by
    intro failure rejected
    unfold statusOf worldAfter
    rw [post_rejected backend replies world rejected]
    exact ⟨rfl, rfl, rfl⟩
  refine ⟨?_, answered⟩
  constructor
  · intro separates
    rcases request_cases request with accepted | ⟨failure, rejected⟩
    · exact accepted
    · have client := separates.client.mpr ⟨failure, rejected⟩
      have server := (answered failure rejected).1
      omega
  · intro ⟨phone, valid⟩
    exact statusSeparates_of_accepted backend replies world valid

end Statuses

def invalidRequest : Request :=
  { exampleRequest with data := .ok (.object [(text "phone", .string (text "09121234567"))]) }

theorem invalid_phone_answers_500 :
    invalidRequest.Rejected (.validation [.invalidPhone]) ∧
      statusOf sharedCache Replies.allReturn invalidRequest Web.start.world = 500 ∧
      ¬StatusSeparates sharedCache Replies.allReturn invalidRequest Web.start.world := by
  have rejected : invalidRequest.Rejected (.validation [.invalidPhone]) := by
    unfold Request.Rejected
    decide
  have status : statusOf sharedCache Replies.allReturn invalidRequest Web.start.world = 500 := by
    decide
  refine ⟨rejected, status, ?_⟩
  intro separates
  have documented := separates.badRequest _ rejected
  omega

end Bistland
