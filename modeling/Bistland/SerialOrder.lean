/-
The web tier against `post` run for one request after another. A call is decided where it
is refused or where `cache.add` answers it; in the order of these steps the sequential
handler gives every call the answer it had, publishes what it published, and leaves the
cache as it is.
-/

import Bistland.CacheBackends
import Bistland.Deduplication
import Bistland.Library.Spacing

namespace Bistland

open Expiring OwnerAccounts Transition

/-! ### One request after another -/

structure Turn where
  time : Nat
  request : Request
  replies : Replies

def Turn.run (turn : Turn) (world : World (Store Str Str)) : Response × World (Store Str Str) :=
  (post sharedCache turn.replies turn.request).run { world with now := turn.time }

def serial : List Turn → World (Store Str Str) → List Response × World (Store Str Str)
  | [], world => ([], world)
  | turn :: rest, world =>
      let (response, after) := turn.run world
      let (responses, final) := serial rest after
      (response :: responses, final)

theorem serial_concat (turns : List Turn) (turn : Turn) (world : World (Store Str Str)) :
    serial (turns ++ [turn]) world =
      ((serial turns world).1 ++ [(turn.run (serial turns world).2).1],
        (turn.run (serial turns world).2).2) := by
  induction turns generalizing world with
  | nil => rfl
  | cons first rest ih =>
      simp only [List.cons_append, serial, ih]

/-! ### Where a call is decided -/

/-- `added` is the phone that `cache.add` answers for, if it is reached and answers. -/
structure Decision where
  index : Nat
  time : Nat
  added : Option ValidatedPhone

def Call.decides (call : Call) (index now : Nat) (reply : Reply) : Option Decision :=
  match call.phase with
  | .received =>
      match call.request.validated with
      | .error _ => some { index := index, time := now, added := none }
      | .ok _ => none
  | .validated phone =>
      match reply with
      | .raises _ => some { index := index, time := now, added := none }
      | .returns => some { index := index, time := now, added := some phone }
  | _ => none

def Phase.isDecided : Phase → Bool
  | .received => false
  | .validated _ => false
  | _ => true

/-- Answered without an answer from `cache.add`. -/
def Phase.isEarly : Phase → Bool
  | .returned (.error (.parse _)) => true
  | .returned (.error (.validation _)) => true
  | .returned (.error (.cacheAdd _)) => true
  | _ => false

namespace Web

def decides (web : Web) : WebAction → Option Decision
  | .resume index reply =>
      match web.calls[index]? with
      | none => none
      | some call => call.decides index web.now reply
  | _ => none

/-- The store that the decided calls leave, one after another. -/
def replay (decisions : List Decision) : Store Str Str :=
  decisions.foldl (fun store decision =>
    match decision.added with
    | none => store
    | some phone => (store.add decision.time (keyOf phone) dedupValue day).2) Store.empty

/-- The decided calls in their order: their store is that of the web tier under the keys of
phones, and each had from `cache.add` the answer of that store. -/
structure Decided (web : Web) (decisions : List Decision) : Prop where
  entries : ∀ phone, replay decisions (keyOf phone) = web.cache (keyOf phone)
  flags : ∀ older decision newer phone, decisions = older ++ decision :: newer →
    decision.added = some phone →
      ∃ attempt ∈ web.attempts, attempt.owner = decision.index ∧ attempt.key = phone ∧
        attempt.accepted = ((replay older).add decision.time (keyOf phone) dedupValue day).1
  stands : ∀ decision ∈ decisions, ∃ call, web.calls[decision.index]? = some call ∧
    call.phase.isDecided = true ∧ call.startTime ≤ decision.time ∧
      (decision.added = none ↔ call.phase.isEarly = true)
  distinct : (decisions.map Decision.index).Nodup
  covered : ∀ (index : Nat) call, web.calls[index]? = some call → call.phase.isDecided = true →
    index ∈ decisions.map Decision.index
  started : ∀ call ∈ web.calls, call.startTime ≤ web.now
  past : ∀ decision ∈ decisions, decision.time ≤ web.now
  ordered : decisions.Pairwise (fun earlier later => earlier.time ≤ later.time)

theorem replay_concat (decisions : List Decision) (decision : Decision) :
    replay (decisions ++ [decision]) =
      match decision.added with
      | none => replay decisions
      | some phone =>
          ((replay decisions).add decision.time (keyOf phone) dedupValue day).2 := by
  unfold replay
  rw [List.foldl_append]
  rfl

/-! ### One step -/

section Steps

variable {web next : Web} {decisions : List Decision} {index : Nat} {call : Call}
  {action : WebAction}

theorem decided_start : Web.start.Decided [] :=
  { entries := fun _ => rfl
    flags := by
      intro older decision newer phone split
      exact absurd split.symm (List.append_ne_nil_of_right_ne_nil older (List.cons_ne_nil _ _))
    stands := fun decision absent => by cases absent
    distinct := List.nodup_nil
    covered := fun index call absent => by cases absent
    started := fun call absent => by cases absent
    past := fun decision absent => by cases absent
    ordered := List.Pairwise.nil }

theorem mem_set_started (bound : ∀ call ∈ web.calls, call.startTime ≤ web.now)
    (found : web.calls[index]? = some call) (phase : Phase) :
    ∀ other ∈ web.calls.set index { call with phase := phase }, other.startTime ≤ web.now := by
  intro other member
  rcases List.mem_or_eq_of_mem_set member with present | same
  · exact bound other present
  · rw [same]
    exact bound call (List.mem_of_getElem? found)

/-- A call that stays undecided, or stays decided as it was, moves no decision. -/
theorem Decided.proceed (decided : web.Decided decisions) (found : web.calls[index]? = some call)
    (phase : Phase) (same : phase.isDecided = call.phase.isDecided)
    (early : phase.isEarly = call.phase.isEarly) :
    (web.proceed index call phase).Decided decisions := by
  have inside := (List.getElem?_eq_some_iff.mp found).1
  refine { decided with stands := ?_, covered := ?_, started := ?_ }
  · intro decision member
    obtain ⟨held, foundHeld, isDecided, started, reason⟩ := decided.stands decision member
    by_cases own : decision.index = index
    · rw [own, found] at foundHeld
      cases foundHeld
      refine ⟨{ call with phase := phase }, ?_, same.trans isDecided, started, ?_⟩
      · rw [own]
        exact List.getElem?_set_self inside
      · rw [reason, ← early]
    · refine ⟨held, ?_, isDecided, started, reason⟩
      rw [← foundHeld]
      exact List.getElem?_set_ne (fun equal => own equal.symm)
  · intro other held foundHeld isDecided
    by_cases own : other = index
    · subst other
      have moved : (web.calls.set index { call with phase := phase })[index]? = some held :=
        foundHeld
      rw [List.getElem?_set_self inside] at moved
      cases moved
      exact decided.covered index call found (same.symm.trans isDecided)
    · have kept : (web.calls.set index { call with phase := phase })[other]? = some held :=
        foundHeld
      rw [List.getElem?_set_ne (fun equal => own equal.symm)] at kept
      exact decided.covered other held kept isDecided
  · exact mem_set_started decided.started found phase

theorem Decided.answer (decided : web.Decided decisions) (found : web.calls[index]? = some call)
    (response : Response) (same : call.phase.isDecided = true)
    (early : (Phase.returned response).isEarly = call.phase.isEarly) :
    (web.answer index call response).Decided decisions :=
  { decided.proceed found (.returned response) same.symm early with }

/-- A call that is decided now is the last in the order. -/
theorem Decided.settle (decided : web.Decided decisions) (found : web.calls[index]? = some call)
    (undecided : call.phase.isDecided = false) (phase : Phase) (settled : phase.isDecided = true)
    (added : Option ValidatedPhone) (reason : added = none ↔ phase.isEarly = true) (next : Web)
    (clock : next.now = web.now)
    (changed : next.calls = web.calls.set index { call with phase := phase })
    (kept : ∀ attempt ∈ web.attempts, attempt ∈ next.attempts)
    (entries : ∀ phone, replay (decisions ++ [⟨index, web.now, added⟩]) (keyOf phone) =
      next.cache (keyOf phone))
    (answered : ∀ phone, added = some phone → ∃ attempt ∈ next.attempts,
      attempt.owner = index ∧ attempt.key = phone ∧
        attempt.accepted = ((replay decisions).add web.now (keyOf phone) dedupValue day).1) :
    next.Decided (decisions ++ [⟨index, web.now, added⟩]) := by
  have inside := (List.getElem?_eq_some_iff.mp found).1
  have fresh : index ∉ decisions.map Decision.index := by
    intro member
    obtain ⟨decision, present, own⟩ := List.mem_map.mp member
    obtain ⟨held, foundHeld, isDecided, _⟩ := decided.stands decision present
    rw [own, found] at foundHeld
    cases foundHeld
    rw [undecided] at isDecided
    cases isDecided
  refine
    { entries := entries
      flags := ?_
      stands := ?_
      distinct := ?_
      covered := ?_
      started := ?_
      past := ?_
      ordered := ?_ }
  · intro older decision newer phone split isAdded
    rcases Spacing.split_append_singleton split with ⟨rfl, rfl, _⟩ | ⟨front, _, whole⟩
    · exact answered phone isAdded
    · obtain ⟨attempt, present, facts⟩ := decided.flags older decision front phone whole isAdded
      exact ⟨attempt, kept attempt present, facts⟩
  · intro decision member
    rw [changed]
    rcases List.mem_append.mp member with earlier | isLast
    · obtain ⟨held, foundHeld, isDecided, facts⟩ := decided.stands decision earlier
      have different : index ≠ decision.index :=
        fun own => fresh (own ▸ List.mem_map_of_mem (f := Decision.index) earlier)
      rw [List.getElem?_set_ne different]
      exact ⟨held, foundHeld, isDecided, facts⟩
    · rw [List.mem_singleton.mp isLast]
      exact ⟨_, List.getElem?_set_self inside, settled,
        decided.started call (List.mem_of_getElem? found), reason⟩
  · rw [List.map_append, List.nodup_append]
    refine ⟨decided.distinct, List.nodup_singleton _, ?_⟩
    intro old member last isLast same
    rw [same, List.mem_singleton.mp isLast] at member
    exact fresh member
  · intro other held foundHeld isDecided
    rw [List.map_append]
    by_cases own : other = index
    · rw [own]
      exact List.mem_append_right _ (List.mem_singleton_self _)
    · rw [changed, List.getElem?_set_ne (fun equal => own equal.symm)] at foundHeld
      exact List.mem_append_left _ (decided.covered other held foundHeld isDecided)
  · rw [changed, clock]
    exact mem_set_started decided.started found phase
  · intro decision member
    rw [clock]
    rcases List.mem_append.mp member with earlier | isLast
    · exact decided.past decision earlier
    · rw [List.mem_singleton.mp isLast]
  · rw [List.pairwise_append]
    refine ⟨decided.ordered, List.pairwise_singleton _ _, ?_⟩
    intro earlier member last isLast
    rw [List.mem_singleton.mp isLast]
    exact decided.past earlier member

theorem Decided.arrived (decided : web.Decided decisions) (request : Request) :
    Decided { web with
      calls := web.calls ++ [{ request := request, startTime := web.now, phase := .received }] }
      decisions := by
  refine { decided with stands := ?_, covered := ?_, started := ?_ }
  · intro decision member
    obtain ⟨held, foundHeld, facts⟩ := decided.stands decision member
    refine ⟨held, ?_, facts⟩
    rw [← foundHeld]
    exact List.getElem?_append_left (List.getElem?_eq_some_iff.mp foundHeld).1
  · intro other held foundHeld isDecided
    rcases Nat.lt_or_ge other web.calls.length with within | beyond
    · have kept : (web.calls ++ [_])[other]? = some held := foundHeld
      rw [List.getElem?_append_left within] at kept
      exact decided.covered other held kept isDecided
    · have new : (web.calls ++ [_])[other]? = some held := foundHeld
      rw [List.getElem?_append_right beyond] at new
      rw [List.mem_singleton.mp (List.mem_of_getElem? new)] at isDecided
      cases isDecided
  · intro call member
    rcases List.mem_append.mp member with earlier | isLast
    · exact decided.started call earlier
    · rw [List.mem_singleton.mp isLast]

/-- A refused call, or one that `cache.add` raised for, leaves the store as it is. -/
theorem Decided.settleEarly (decided : web.Decided decisions)
    (found : web.calls[index]? = some call) (undecided : call.phase.isDecided = false)
    (response : Response) (early : (Phase.returned response).isEarly = true) :
    (web.answer index call response).Decided (decisions ++ [⟨index, web.now, none⟩]) := by
  apply decided.settle found undecided (.returned response) rfl none ⟨fun _ => early, fun _ => rfl⟩
    (web.answer index call response) rfl rfl (fun attempt present => present)
  · intro phone
    rw [replay_concat]
    exact decided.entries phone
  · intro phone absent
    cases absent

theorem Decided.settleAdded (decided : web.Decided decisions)
    (found : web.calls[index]? = some call) (undecided : call.phase.isDecided = false)
    (phone : ValidatedPhone) :
    ((web.addKey index phone).2.proceed index call
      (.deduplicated phone (web.addKey index phone).1)).Decided
        (decisions ++ [⟨index, web.now, some phone⟩]) := by
  obtain ⟨same, left⟩ := Store.add_congr (decided.entries phone) web.now dedupValue day
  have late : some phone = none ↔
      (Phase.deduplicated phone (web.addKey index phone).1).isEarly = true := by
    constructor <;> intro impossible <;> cases impossible
  apply decided.settle found undecided _ rfl (some phone) late ((web.addKey index phone).2.proceed
    index call _) rfl rfl (fun attempt present => List.mem_append_left _ present)
  · intro other
    rw [replay_concat]
    change ((replay decisions).add web.now (keyOf phone) dedupValue day).2 (keyOf other) =
      (web.cache.add web.now (keyOf phone) dedupValue day).2 (keyOf other)
    by_cases own : other = phone
    · rw [own]
      exact left
    · have different : keyOf other ≠ keyOf phone :=
        fun equal => own (dedupKey_value_injective equal)
      rw [Store.add_other _ _ _ _ different, Store.add_other _ _ _ _ different]
      exact decided.entries other
  · intro other isAdded
    cases isAdded
    exact ⟨_, List.mem_append_right _ (List.mem_singleton_self _), rfl, rfl, same.symm⟩

theorem decides_resume (found : web.calls[index]? = some call) (reply : Reply) :
    web.decides (.resume index reply) = call.decides index web.now reply := by
  simp only [decides, found]

theorem step_decided (decided : web.Decided decisions)
    (taken : system.step web action = some next) :
    next.Decided (decisions ++ (web.decides action).toList) := by
  cases step_cases taken with
  | tick elapsed =>
      simp only [decides, Option.toList_none, List.append_nil]
      have later : web.now ≤ web.now + elapsed := Nat.le_add_right _ _
      exact { decided with
        started := fun call member => Nat.le_trans (decided.started call member) later
        past := fun decision member => Nat.le_trans (decided.past decision member) later }
  | cachePage key value page =>
      simp only [decides, Option.toList_none, List.append_nil]
      refine { decided with entries := ?_ }
      intro phone
      rw [decided.entries]
      exact (Store.set_other _ _ _ _ (keyOf_ne_page page phone)).symm
  | arrive request =>
      simp only [decides, Option.toList_none, List.append_nil]
      exact decided.arrived request
  | refuse reply found stands refused =>
      rw [decides_resume found]
      simp only [Call.decides, stands, refused, Option.toList_some]
      apply decided.settleEarly found (by rw [stands]; rfl)
      rcases Request.validated_error refused with ⟨detail, rfl⟩ | ⟨errors, rfl⟩ <;> rfl
  | validate reply found stands valid =>
      rw [decides_resume found]
      simp only [Call.decides, stands, valid, Option.toList_none, List.append_nil]
      exact decided.proceed found _ (by rw [stands]; rfl) (by rw [stands]; rfl)
  | addRaises detail found stands =>
      rw [decides_resume found]
      simp only [Call.decides, stands, Option.toList_some]
      exact decided.settleEarly found (by rw [stands]; rfl) _ rfl
  | addReturns found stands =>
      rw [decides_resume found]
      simp only [Call.decides, stands, Option.toList_some]
      exact decided.settleAdded found (by rw [stands]; rfl) _
  | logRaises detail found stands =>
      rw [decides_resume found]
      simp only [Call.decides, stands, Option.toList_none, List.append_nil]
      exact decided.answer found _ (by rw [stands]; rfl) (by rw [stands]; rfl)
  | logPublishes found stands =>
      rw [decides_resume found]
      simp only [Call.decides, stands, Option.toList_none, List.append_nil]
      exact { decided.proceed found _ (by rw [stands]; rfl) (by rw [stands]; rfl) with }
  | answerDuplicate reply found stands =>
      rw [decides_resume found]
      simp only [Call.decides, stands, Option.toList_none, List.append_nil]
      exact decided.answer found _ (by rw [stands]; rfl) (by rw [stands]; rfl)
  | saveRaises detail found stands =>
      rw [decides_resume found]
      simp only [Call.decides, stands, Option.toList_none, List.append_nil]
      exact decided.answer found _ (by rw [stands]; rfl) (by rw [stands]; rfl)
  | savePublishes found stands =>
      rw [decides_resume found]
      simp only [Call.decides, stands, Option.toList_none, List.append_nil]
      exact { decided.proceed found _ (by rw [stands]; rfl) (by rw [stands]; rfl) with }
  | answerQueued reply found stands =>
      rw [decides_resume found]
      simp only [Call.decides, stands, Option.toList_none, List.append_nil]
      exact decided.answer found _ (by rw [stands]; rfl) (by rw [stands]; rfl)

end Steps

end Web

/-! ### The turn of a call -/

/-- The replies that the external calls of a call have had, as its phase tells. -/
def Phase.replies : Phase → Replies
  | .returned (.error (.cacheAdd detail)) => { Replies.allReturn with cacheAdd := .raises detail }
  | .returned (.error (.logDelay detail)) => { Replies.allReturn with logDelay := .raises detail }
  | .returned (.error (.saveDelay detail)) => { Replies.allReturn with saveDelay := .raises detail }
  | _ => Replies.allReturn

def Call.turn (call : Call) (time : Nat) : Turn :=
  { time := time
    request := call.request
    replies := call.phase.replies }

def Call.response (call : Call) : Option Response :=
  match call.phase with
  | .returned response => some response
  | _ => none

/-- What a turn answers, stores and publishes. -/
structure Turn.Does (turn : Turn) (world : World (Store Str Str)) (response : Response)
    (cache : Store Str Str) (tasks : List Task) : Prop where
  response : (turn.run world).1 = response
  cache : (turn.run world).2.cache = cache
  published : (turn.run world).2.published = world.published ++ tasks

theorem Turn.does_rejected (turn : Turn) {failure : Failure}
    (rejected : turn.request.validated = .error failure) (world : World (Store Str Str)) :
    turn.Does world (.error failure) world.cache [] := by
  have ran : turn.run world = World.answer { world with now := turn.time } turn.time
      (.error failure) := by
    unfold Turn.run
    rw [post_run, process_rejected sharedCache turn.replies turn.request _ rejected]
    rfl
  exact { response := by rw [ran]; rfl
          cache := by rw [ran]; rfl
          published := by rw [ran, List.append_nil]; rfl }

theorem Turn.does_accepted (turn : Turn) {phone : ValidatedPhone}
    (valid : turn.request.validated = .ok phone) (world : World (Store Str Str)) {stored : Bool}
    (flag : (world.cache.add turn.time (dedupKey phone.value) dedupValue day).1 = stored) :
    turn.Does world (answerTo (turn.replies.verdict stored))
      (turn.replies.cacheAfter world.cache
        (world.cache.add turn.time (dedupKey phone.value) dedupValue day).2)
      (turn.replies.tasks turn.request phone stored) := by
  subst stored
  constructor <;>
    · unfold Turn.run
      rw [post_run, process_accepted sharedCache turn.replies turn.request _ valid]
      rfl

namespace Call

variable {call : Call} {answers : List (ValidatedPhone × Bool)} {phone : ValidatedPhone}
  {stored : Bool} {response : Response} {time : Nat}

/-- A call that was decided by an answer of `cache.add` answers in its turn what it did. -/
theorem turn_added (attempted : call.Attempted answers) (member : (phone, stored) ∈ answers)
    (returned : call.phase = .returned response) (late : call.phase.isEarly = false)
    (world : World (Store Str Str))
    (flag : (world.cache.add time (dedupKey phone.value) dedupValue day).1 = stored) :
    (call.turn time).Does world response
      (world.cache.add time (dedupKey phone.value) dedupValue day).2 call.tasks := by
  have valid := (attempted.answered member).1
  have does := Turn.does_accepted (call.turn time) valid world flag
  rw [Call.tasks_of_valid valid]
  unfold Call.turn at does ⊢
  rw [returned] at late does ⊢
  cases response with
  | duplicate =>
      have only : answers = [(phone, false)] := attempted.of_logged valid (by rw [returned]; rfl)
      rw [only] at member
      cases List.mem_singleton.mp member
      exact does
  | queued =>
      have only : answers = [(phone, true)] := attempted.of_saved valid (by rw [returned]; rfl)
      rw [only] at member
      cases List.mem_singleton.mp member
      exact does
  | error failure =>
      cases failure with
      | parse detail => cases late
      | validation errors => cases late
      | cacheAdd detail => cases late
      | logDelay detail => exact does
      | saveDelay detail =>
          have only : answers = [(phone, true)] :=
            attempted.of_logged valid (by rw [returned]; rfl)
          rw [only] at member
          cases List.mem_singleton.mp member
          exact does

/-- A call that was refused, or for which `cache.add` raised, answers in any turn what it
did. -/
theorem turn_early {posted : List Task} (sent : call.Sent posted)
    (returned : call.phase = .returned response) (early : call.phase.isEarly = true)
    (world : World (Store Str Str)) :
    (call.turn time).Does world response world.cache call.tasks := by
  have fits := sent.fits
  have quiet : call.tasks = [] := by
    apply Call.tasks_of_nothing
    rw [returned] at early ⊢
    cases response with
    | duplicate => cases early
    | queued => cases early
    | error failure => cases failure <;> first | rfl | cases early
  rw [quiet]
  rw [returned] at fits early
  cases response with
  | duplicate => cases early
  | queued => cases early
  | error failure =>
      cases failure with
      | parse detail => exact Turn.does_rejected (call.turn time) fits world
      | validation errors => exact Turn.does_rejected (call.turn time) fits world
      | cacheAdd detail =>
          obtain ⟨held, valid⟩ := fits
          have does := Turn.does_accepted (call.turn time) valid world rfl
          unfold Call.turn at does ⊢
          rw [returned] at does ⊢
          exact does
      | logDelay detail => cases early
      | saveDelay detail => cases early

end Call

/-! ### All turns -/

namespace Web

variable {web : Web} {decisions : List Decision}

/-- Every call has been answered. -/
def Answered (web : Web) : Prop :=
  ∀ call ∈ web.calls, ∃ response, call.phase = .returned response

def turnOf (web : Web) (decision : Decision) : Option (Nat × Turn) :=
  (web.calls[decision.index]?).map (fun call => (decision.index, call.turn decision.time))

def answerOf (web : Web) (entry : Nat × Turn) : Option Response :=
  (web.calls[entry.1]?).bind Call.response

def tasksAt (web : Web) (index : Nat) : List Task :=
  match web.calls[index]? with
  | none => []
  | some call => call.tasks

theorem turns_run (inv : web.Inv) (decided : web.Decided decisions) (answered : web.Answered) :
    ∀ older newer, decisions = older ++ newer →
      (serial ((older.filterMap web.turnOf).map Prod.snd) (World.start Store.empty)).1 =
          (older.filterMap web.turnOf).filterMap web.answerOf ∧
        (serial ((older.filterMap web.turnOf).map Prod.snd) (World.start Store.empty)).2.cache =
          replay older ∧
        (serial ((older.filterMap web.turnOf).map Prod.snd)
            (World.start Store.empty)).2.published =
          older.flatMap (fun decision => web.tasksAt decision.index) := by
  intro older
  induction older using List.reverseRecOn with
  | nil => exact fun newer split => ⟨rfl, rfl, rfl⟩
  | append_singleton front last ih =>
      intro newer split
      rw [List.append_assoc, List.singleton_append] at split
      obtain ⟨responses, cache, published⟩ := ih (last :: newer) split
      obtain ⟨call, found, isDecided, _, reason⟩ := decided.stands last (by
        rw [split]
        exact List.mem_append_right _ List.mem_cons_self)
      obtain ⟨response, returned⟩ := answered call (List.mem_of_getElem? found)
      have own : web.turnOf last = some (last.index, call.turn last.time) := by
        simp only [turnOf, found, Option.map_some]
      have tasks : web.tasksAt last.index = call.tasks := by
        simp only [tasksAt, found]
      have told : web.answerOf (last.index, call.turn last.time) = some response := by
        simp only [answerOf, found, Option.bind_some, Call.response, returned]
      have does : (call.turn last.time).Does
          (serial ((front.filterMap web.turnOf).map Prod.snd) (World.start Store.empty)).2
          response (replay (front ++ [last])) call.tasks := by
        rw [replay_concat]
        cases added : last.added with
        | none =>
            rw [← cache]
            exact call.turn_early (inv.sent.account _ _ found) returned (reason.mp added) _
        | some phone =>
            have late : call.phase.isEarly = false := by
              cases early : call.phase.isEarly with
              | false => rfl
              | true =>
                  rw [reason.mpr early] at added
                  cases added
            obtain ⟨attempt, present, maker, key, accepted⟩ :=
              decided.flags front last newer phone split added
            obtain ⟨holder, answers, foundHolder, attempted, member⟩ := inv.maker present
            rw [maker, found] at foundHolder
            cases foundHolder
            rw [key, accepted, ← cache] at member
            rw [← cache]
            exact Call.turn_added attempted member returned late _ rfl
      rw [List.filterMap_append, List.filterMap_cons_some own, List.filterMap_nil, List.map_append,
        List.map_singleton, serial_concat, List.filterMap_append, List.filterMap_cons_some told,
        List.filterMap_nil, List.flatMap_append, List.flatMap_singleton, tasks]
      refine ⟨?_, does.cache, ?_⟩
      · rw [responses, does.response]
      · rw [does.published, published]

theorem turns_index (present : ∀ decision ∈ decisions,
    ∃ call, web.calls[decision.index]? = some call) :
    (decisions.filterMap web.turnOf).map Prod.fst = decisions.map Decision.index := by
  induction decisions with
  | nil => rfl
  | cons first rest ih =>
      obtain ⟨call, found⟩ := present first List.mem_cons_self
      have own : web.turnOf first = some (first.index, call.turn first.time) := by
        simp only [turnOf, found, Option.map_some]
      rw [List.filterMap_cons_some own, List.map_cons, List.map_cons,
        ih (fun decision member => present decision (List.mem_cons_of_mem first member))]

theorem Decided.index_perm (decided : web.Decided decisions) (answered : web.Answered) :
    (decisions.map Decision.index).Perm (List.range web.calls.length) := by
  apply (List.perm_ext_iff_of_nodup decided.distinct List.nodup_range).mpr
  intro index
  rw [List.mem_range]
  constructor
  · intro member
    obtain ⟨decision, present, rfl⟩ := List.mem_map.mp member
    obtain ⟨call, found, _⟩ := decided.stands decision present
    exact (List.getElem?_eq_some_iff.mp found).1
  · intro inside
    obtain ⟨response, returned⟩ := answered _ (List.getElem_mem inside)
    apply decided.covered index _ (List.getElem?_eq_getElem inside)
    rw [returned]
    rfl

theorem Inv.published_perm (inv : web.Inv) :
    (web.published.map Message.task).Perm
      ((List.range web.calls.length).flatMap web.tasksAt) := by
  have all := (perm_postedBy web.calls.length inv.sent.owned).map Message.task
  rw [List.map_flatMap] at all
  have own : (List.range web.calls.length).flatMap
        (fun index => (postedBy Message.sender web.published index).map Message.task) =
      (List.range web.calls.length).flatMap web.tasksAt := by
    apply List.flatMap_congr
    intro index member
    have inside := List.mem_range.mp member
    have found := List.getElem?_eq_getElem inside
    rw [(inv.sent.account index _ found).tasks]
    simp only [tasksAt, found]
  rw [own] at all
  exact all

/-- The turns of all calls, one after another, do what the web tier did. -/
structure Serialised (web : Web) (order : List (Nat × Turn)) : Prop where
  calls : (order.map Prod.fst).Perm (List.range web.calls.length)
  turns : ∀ entry ∈ order, ∃ call, web.calls[entry.1]? = some call ∧
    entry.2.request = call.request ∧ call.startTime ≤ entry.2.time
  ordered : order.Pairwise (fun earlier later => earlier.2.time ≤ later.2.time)
  responses : (serial (order.map Prod.snd) (World.start Store.empty)).1 =
    order.filterMap web.answerOf
  published : (serial (order.map Prod.snd) (World.start Store.empty)).2.published.Perm
    (web.published.map Message.task)
  cache : ∀ phone, (serial (order.map Prod.snd) (World.start Store.empty)).2.cache (keyOf phone) =
    web.cache (keyOf phone)

theorem turnOf_eq_some {decision : Decision} {entry : Nat × Turn}
    (own : web.turnOf decision = some entry) :
    ∃ call, web.calls[decision.index]? = some call ∧
      entry = (decision.index, call.turn decision.time) := by
  obtain ⟨call, found, same⟩ := Option.map_eq_some_iff.mp own
  exact ⟨call, found, same.symm⟩

theorem Decided.serialised (decided : web.Decided decisions) (inv : web.Inv)
    (answered : web.Answered) : web.Serialised (decisions.filterMap web.turnOf) := by
  obtain ⟨responses, cache, published⟩ :=
    turns_run inv decided answered decisions [] (List.append_nil _).symm
  have indices : (decisions.filterMap web.turnOf).map Prod.fst = decisions.map Decision.index := by
    apply turns_index
    intro decision member
    obtain ⟨call, found, _⟩ := decided.stands decision member
    exact ⟨call, found⟩
  refine
    { calls := ?_
      turns := ?_
      ordered := ?_
      responses := responses
      published := ?_
      cache := ?_ }
  · rw [indices]
    exact decided.index_perm answered
  · intro entry member
    obtain ⟨decision, present, own⟩ := List.mem_filterMap.mp member
    obtain ⟨call, found, rfl⟩ := turnOf_eq_some own
    obtain ⟨held, foundHeld, _, started, _⟩ := decided.stands decision present
    rw [found] at foundHeld
    cases foundHeld
    exact ⟨call, found, rfl, started⟩
  · apply decided.ordered.filterMap
    intro earlier later before entry own laterEntry laterOwn
    obtain ⟨_, _, rfl⟩ := turnOf_eq_some own
    obtain ⟨_, _, rfl⟩ := turnOf_eq_some laterOwn
    exact before
  · rw [published, ← List.flatMap_map]
    exact ((decided.index_perm answered).flatMap_right _).trans inv.published_perm.symm
  · intro phone
    rw [cache]
    exact decided.entries phone

/-! ### Runs -/

theorem decided_of_exec {actions : List WebAction}
    (completed : system.exec Web.start actions = some web) :
    web.Decided (system.trace decides Web.start actions) := by
  have decided : web.Decided ([] ++ system.trace decides Web.start actions) :=
    system.trace_invariant decides step_decided decided_start completed
  exact decided

/-- The order keeps to the run: at every moment of it the calls answered by then come before
the rest, and only calls that had arrived come before. -/
def KeepsTo (order : List (Nat × Turn)) (actions : List WebAction) : Prop :=
  ∀ first second middle, actions = first ++ second →
    system.exec Web.start first = some middle →
      ∃ before after, order = before ++ after ∧
        (∀ (index : Nat) call response, middle.calls[index]? = some call →
          call.phase = .returned response → index ∈ before.map Prod.fst) ∧
        ∀ entry ∈ before, entry.1 < middle.calls.length

/-- Whatever the interleaving, once every call is answered it is as if `post` had been run
for one request after another, in an order that keeps to the run. -/
theorem serialisable {actions : List WebAction} {web : Web}
    (completed : system.exec Web.start actions = some web) (answered : web.Answered) :
    ∃ order, web.Serialised order ∧ KeepsTo order actions := by
  have inv := inv_of_reachable (system.reachable_of_exec completed)
  have decided := decided_of_exec completed
  refine ⟨_, decided.serialised inv answered, ?_⟩
  intro first second middle split reached
  have parts : system.trace decides Web.start (first ++ second) =
      system.trace decides Web.start first ++ system.trace decides middle second :=
    system.trace_append decides reached
  rw [split, parts] at decided
  rw [split, parts, List.filterMap_append]
  refine ⟨_, _, rfl, ?_⟩
  have decidedThen := decided_of_exec reached
  have present : ∀ decision ∈ system.trace decides Web.start first,
      ∃ call, web.calls[decision.index]? = some call := by
    intro decision member
    obtain ⟨call, found, _⟩ := decided.stands decision (List.mem_append_left _ member)
    exact ⟨call, found⟩
  constructor
  · intro index call response found returned
    rw [turns_index present]
    apply decidedThen.covered index call found
    rw [returned]
    rfl
  · intro entry member
    obtain ⟨decision, early, own⟩ := List.mem_filterMap.mp member
    obtain ⟨_, _, rfl⟩ := turnOf_eq_some own
    obtain ⟨call, found, _⟩ := decidedThen.stands decision early
    exact (List.getElem?_eq_some_iff.mp found).1

theorem serialisable_overlapping : ∃ web, system.exec Web.start overlappingRun = some web ∧
    ∃ order, web.Serialised order ∧ KeepsTo order overlappingRun := by
  have outcome : (system.exec Web.start overlappingRun).any (fun web =>
      web.calls.all (fun call => call.response.isSome)) = true := by decide
  obtain ⟨web, completed, all⟩ := system.exec_of_any outcome
  refine ⟨web, completed, serialisable completed ?_⟩
  intro call member
  have responded := List.all_eq_true.mp all call member
  unfold Call.response at responded
  split at responded
  · rename_i response returned
    exact ⟨response, returned⟩
  · cases responded

end Web

end Bistland
