/-
The deduplication key against the lead it stands for. `post` writes the key
before its two publishes and never takes it back, so a publish that raises can
leave a live key without a lead; the steps that do so are named exactly.
-/

import Bistland.CacheAnswers

namespace Bistland

open Expiring OwnerAccounts

/-! ### Keys, answers and leads -/

def Phase.isReturned : Phase → Bool
  | .returned _ => true
  | _ => false

def Phase.isDuplicate : Phase → Bool
  | .returned .duplicate => true
  | _ => false

def Phase.isFailed : Phase → Bool
  | .returned (.error _) => true
  | _ => false

namespace Web

def stands (web : Web) (stage : Phase → Bool) (index : Nat) : Bool :=
  match web.calls[index]? with
  | none => false
  | some call => stage call.phase

/-- The call has published its save of the phone or is still executing. -/
def inHand (web : Web) (phone : ValidatedPhone) (index : Nat) : Bool :=
  web.published.any (fun message => message.sender = index && message.task.isSaveFor phone) ||
    web.stands (fun phase => !phase.isReturned) index

/-- The attempt that wrote the entry of a phone last. -/
def creator (web : Web) (phone : ValidatedPhone) : Option (Attempt ValidatedPhone) :=
  latest web.attempts phone

/-- A live key and a duplicate answer both stand for a lead that is queued or being queued. -/
structure LeadsKept (web : Web) : Prop where
  keys : ∀ phone, web.cache.live web.now (keyOf phone) = true →
    ∃ attempt, web.creator phone = some attempt ∧ web.inHand phone attempt.owner = true
  answers : ∀ older refused newer, web.attempts = older ++ refused :: newer →
    web.stands Phase.isDuplicate refused.owner = true →
      ∃ blocker, latest older refused.key = some blocker ∧
        web.inHand refused.key blocker.owner = true

/-- The entry of the attempt is live, or a call it turned away has been answered. -/
def Relied (web : Web) (attempt : Attempt ValidatedPhone) : Prop :=
  (web.creator attempt.key = some attempt ∧ web.now < attempt.time + day) ∨
    ∃ refused, web.TurnedAway refused attempt ∧
      web.stands Phase.isDuplicate refused.owner = true

/-- No publish raises in a call whose entry is live or has turned away an answered call,
and no call is answered duplicate after the call that turned it away has failed. -/
def Spares (web : Web) : WebAction → Prop
  | .resume index reply =>
      match web.calls[index]? with
      | none => True
      | some call =>
          match call.phase with
          | .deduplicated _ true =>
              reply ≠ .returns → ∀ attempt, web.Relied attempt → attempt.owner ≠ index
          | .logged _ true =>
              reply ≠ .returns → ∀ attempt, web.Relied attempt → attempt.owner ≠ index
          | .logged _ false =>
              ∀ refused blocker, web.TurnedAway refused blocker → refused.owner = index →
                web.stands Phase.isFailed blocker.owner = false
          | _ => True
  | _ => True

end Web

/-! ### Which calls have failed -/

namespace Web

theorem stands_of_found {web : Web} {index : Nat} {call : Call}
    (found : web.calls[index]? = some call) (stage : Phase → Bool) :
    web.stands stage index = stage call.phase := by
  simp only [stands, found]

/-- The call that stored a key has lost its lead exactly if it was answered with an error. -/
theorem Inv.inHand_iff {web : Web} (inv : web.Inv) {attempt : Attempt ValidatedPhone}
    (member : attempt ∈ web.attempts) (accepted : attempt.accepted = true) :
    web.inHand attempt.key attempt.owner = true ↔
      web.stands Phase.isFailed attempt.owner = false := by
  obtain ⟨call, answers, found, attempted, present⟩ := inv.maker member
  have published : web.published.any (fun message =>
      message.sender = attempt.owner && message.task.isSaveFor attempt.key) =
        call.tasks.any (Task.isSaveFor attempt.key) := by
    rw [← (inv.sent.account attempt.owner call found).tasks, List.any_map, postedBy, List.any_filter]
    rfl
  unfold inHand
  rw [published, stands_of_found found, stands_of_found found]
  obtain ⟨valid, stage⟩ := attempted.answered present
  rw [accepted] at stage
  rcases stage with stage | stage | ⟨_, stage | stage⟩ | ⟨impossible, _⟩ | ⟨failure, stage⟩
  · simp [stage, Phase.isReturned, Phase.isFailed]
  · simp [stage, Phase.isReturned, Phase.isFailed]
  · simp [stage, Phase.isReturned, Phase.isFailed]
  · rw [Call.tasks_of_valid valid, stage]
    simp [Phase.progress, Response.progress, Progress.tasks, Task.isSaveFor, Phase.isFailed]
  · cases impossible
  · rw [Call.tasks_of_valid valid, stage]
    cases failure <;>
      simp [Phase.progress, Response.progress, Failure.progress, Progress.tasks, Request.log,
        Task.isSaveFor, Phase.isFailed, Phase.isReturned]

theorem Inv.refused_of_duplicate {web : Web} (inv : web.Inv) {attempt : Attempt ValidatedPhone}
    (member : attempt ∈ web.attempts)
    (answered : web.stands Phase.isDuplicate attempt.owner = true) : attempt.accepted = false := by
  obtain ⟨call, answers, found, attempted, present⟩ := inv.maker member
  rw [stands_of_found found] at answered
  obtain ⟨_, stage⟩ := attempted.answered present
  rcases stage with stage | stage | ⟨_, stage | stage⟩ | ⟨refused, _⟩ | ⟨failure, stage⟩
  · rw [stage] at answered
    cases answered
  · rw [stage] at answered
    cases answered
  · rw [stage] at answered
    cases answered
  · rw [stage] at answered
    cases answered
  · exact refused
  · rw [stage] at answered
    cases answered

theorem Relied.accepted {web : Web} {attempt : Attempt ValidatedPhone} (relied : web.Relied attempt) :
    attempt ∈ web.attempts ∧ attempt.accepted = true := by
  rcases relied with ⟨isCreator, _⟩ | ⟨refused, ⟨older, newer, split, _, isLatest⟩, _⟩
  · obtain ⟨member, _, accepted⟩ := latest_eq_some isCreator
    exact ⟨member, accepted⟩
  · obtain ⟨member, _, accepted⟩ := latest_eq_some isLatest
    rw [split]
    exact ⟨List.mem_append_left _ member, accepted⟩

theorem Inv.live_iff {web : Web} (inv : web.Inv) (phone : ValidatedPhone) :
    web.cache.live web.now (keyOf phone) = true ↔
      ∃ attempt, web.creator phone = some attempt ∧ web.now < attempt.time + day := by
  rw [live_eq_current, inv.gate.tracks.remembered phone]
  unfold creator
  cases latest web.attempts phone with
  | none => simp [current]
  | some attempt => simp [current]

theorem Inv.leadsKept_iff {web : Web} (inv : web.Inv) :
    web.LeadsKept ↔ ∀ attempt, web.Relied attempt →
      web.stands Phase.isFailed attempt.owner = false := by
  constructor
  · intro kept attempt relied
    obtain ⟨member, accepted⟩ := relied.accepted
    apply (inv.inHand_iff member accepted).mp
    rcases relied with ⟨isCreator, young⟩ | ⟨refused, ⟨older, newer, split, _, isLatest⟩, answered⟩
    · obtain ⟨other, isOther, hand⟩ :=
        kept.keys attempt.key ((inv.live_iff attempt.key).mpr ⟨attempt, isCreator, young⟩)
      rw [isCreator] at isOther
      cases isOther
      exact hand
    · obtain ⟨other, isOther, hand⟩ := kept.answers older refused newer split answered
      rw [isLatest] at isOther
      cases isOther
      rw [(latest_eq_some isLatest).2.1]
      exact hand
  · intro sound
    refine ⟨?_, ?_⟩
    · intro phone alive
      obtain ⟨attempt, isCreator, young⟩ := (inv.live_iff phone).mp alive
      obtain ⟨member, same, accepted⟩ := latest_eq_some isCreator
      subst same
      exact ⟨attempt, isCreator,
        (inv.inHand_iff member accepted).mpr (sound attempt (Or.inl ⟨isCreator, young⟩))⟩
    · intro older refused newer split answered
      have member : refused ∈ web.attempts := by
        rw [split]
        exact List.mem_append_right _ List.mem_cons_self
      have denied := inv.refused_of_duplicate member answered
      obtain ⟨blocker, isLatest⟩ := inv.turned_away split denied
      have relied : web.Relied blocker :=
        Or.inr ⟨refused, ⟨older, newer, split, denied, isLatest⟩, answered⟩
      have intact := (inv.inHand_iff relied.accepted.1 relied.accepted.2).mpr (sound blocker relied)
      rw [(latest_eq_some isLatest).2.1] at intact
      exact ⟨blocker, isLatest, intact⟩

/-! ### What one step does to the leads -/

/-- The condition that the leads are kept, without the published saves. -/
def Sound (web : Web) : Prop :=
  ∀ attempt, web.Relied attempt → web.stands Phase.isFailed attempt.owner = false

theorem stands_proceed {web : Web} {index : Nat} {call : Call}
    (found : web.calls[index]? = some call) (phase : Phase) (stage : Phase → Bool) (other : Nat) :
    (web.proceed index call phase).stands stage other =
      if other = index then stage phase else web.stands stage other := by
  have bound : index < web.calls.length := (List.getElem?_eq_some_iff.mp found).1
  unfold stands proceed
  by_cases same : other = index
  · subst other
    rw [if_pos rfl, List.getElem?_set_self bound]
  · rw [if_neg same, List.getElem?_set_ne (fun equal => same equal.symm)]

theorem Inv.not_relied {web : Web} (inv : web.Inv) {index : Nat} {call : Call}
    (found : web.calls[index]? = some call)
    (none : ∀ answers phone, call.Attempted answers → (phone, true) ∉ answers)
    {attempt : Attempt ValidatedPhone} (relied : web.Relied attempt) : attempt.owner ≠ index := by
  intro same
  obtain ⟨member, accepted⟩ := relied.accepted
  obtain ⟨owner, answers, foundOwner, attempted, present⟩ := inv.maker member
  rw [same, found] at foundOwner
  cases foundOwner
  rw [accepted] at present
  exact none answers attempt.key attempted present

section Moves

variable {web next : Web} {index : Nat} {call : Call} {phase : Phase}

/-- A call that moves on leaves histories and clock alone; the cache and the metrics do
not matter. -/
structure Moved (web next : Web) (index : Nat) (call : Call) (phase : Phase) : Prop where
  found : web.calls[index]? = some call
  calls : next.calls = web.calls.set index { call with phase := phase }
  now : next.now = web.now
  attempts : next.attempts = web.attempts

theorem Moved.stands (moved : Moved web next index call phase) (stage : Phase → Bool) (other : Nat) :
    next.stands stage other = if other = index then stage phase else web.stands stage other := by
  rw [← stands_proceed moved.found phase stage other]
  unfold Web.stands proceed
  rw [moved.calls]

theorem Moved.turnedAway (moved : Moved web next index call phase)
    (refused blocker : Attempt ValidatedPhone) :
    next.TurnedAway refused blocker ↔ web.TurnedAway refused blocker := by
  unfold TurnedAway
  rw [moved.attempts]

theorem Moved.live (moved : Moved web next index call phase) (attempt : Attempt ValidatedPhone) :
    (next.creator attempt.key = some attempt ∧ next.now < attempt.time + day) ↔
      (web.creator attempt.key = some attempt ∧ web.now < attempt.time + day) := by
  unfold creator
  rw [moved.attempts, moved.now]

theorem Moved.relied (moved : Moved web next index call phase)
    (before : call.phase.isDuplicate = false) (after : phase.isDuplicate = false)
    (attempt : Attempt ValidatedPhone) : next.Relied attempt ↔ web.Relied attempt := by
  have same : ∀ other, next.stands Phase.isDuplicate other = web.stands Phase.isDuplicate other := by
    intro other
    rw [moved.stands]
    by_cases own : other = index
    · subst other
      rw [if_pos rfl, stands_of_found moved.found, before, after]
    · rw [if_neg own]
  unfold Relied
  simp only [moved.live, moved.turnedAway, same]

theorem Moved.sound_iff (moved : Moved web next index call phase) (sound : web.Sound)
    (before : call.phase.isDuplicate = false) (after : phase.isDuplicate = false) :
    next.Sound ↔
      (phase.isFailed = true → ∀ attempt, web.Relied attempt → attempt.owner ≠ index) := by
  constructor
  · intro soundNext failed attempt relied own
    have intact := soundNext attempt ((moved.relied before after attempt).mpr relied)
    rw [moved.stands, if_pos own, failed] at intact
    cases intact
  · intro spared attempt relied
    have reliedBefore := (moved.relied before after attempt).mp relied
    rw [moved.stands]
    by_cases own : attempt.owner = index
    · rw [if_pos own]
      cases failed : phase.isFailed with
      | false => rfl
      | true => exact False.elim (spared failed attempt reliedBefore own)
    · rw [if_neg own]
      exact sound attempt reliedBefore

theorem Moved.sound_duplicate_iff
    (moved : Moved web next index call (.returned .duplicate)) (sound : web.Sound)
    (running : call.phase.isReturned = false) :
    next.Sound ↔ ∀ refused blocker, web.TurnedAway refused blocker → refused.owner = index →
      web.stands Phase.isFailed blocker.owner = false := by
  have same : ∀ other, next.stands Phase.isFailed other = web.stands Phase.isFailed other := by
    intro other
    rw [moved.stands]
    by_cases own : other = index
    · subst other
      rw [if_pos rfl, stands_of_found moved.found]
      cases stage : call.phase with
      | returned response =>
          rw [stage] at running
          cases running
      | _ => rfl
    · rw [if_neg own]
  constructor
  · intro soundNext refused blocker turned own
    rw [← same]
    apply soundNext blocker
    refine Or.inr ⟨refused, (moved.turnedAway refused blocker).mpr turned, ?_⟩
    rw [moved.stands, if_pos own]
    rfl
  · intro spared attempt relied
    rw [same]
    rcases relied with young | ⟨refused, turned, answered⟩
    · exact sound attempt (Or.inl ((moved.live attempt).mp young))
    · have turnedBefore := (moved.turnedAway refused attempt).mp turned
      rw [moved.stands] at answered
      by_cases own : refused.owner = index
      · exact spared refused attempt turnedBefore own
      · rw [if_neg own] at answered
        exact sound attempt (Or.inr ⟨refused, turnedBefore, answered⟩)

end Moves

theorem Sound.keep {web next : Web} (sound : web.Sound) (attempts : next.attempts = web.attempts)
    (later : web.now ≤ next.now)
    (same : ∀ stage other, stage .received = false → next.stands stage other = web.stands stage other) :
    next.Sound := by
  intro attempt relied
  rw [same Phase.isFailed attempt.owner rfl]
  apply sound attempt
  rcases relied with ⟨isCreator, young⟩ | ⟨refused, turned, answered⟩
  · unfold creator at isCreator
    rw [attempts] at isCreator
    exact Or.inl ⟨isCreator, by omega⟩
  · unfold TurnedAway at turned
    rw [attempts] at turned
    rw [same Phase.isDuplicate refused.owner rfl] at answered
    exact Or.inr ⟨refused, turned, answered⟩

theorem stands_arrive (web : Web) (request : Request) (stage : Phase → Bool) (other : Nat)
    (outside : stage .received = false) :
    stands { web with
      calls := web.calls ++ [{ request := request, startTime := web.now, phase := .received }] }
      stage other = web.stands stage other := by
  unfold stands
  rcases Nat.lt_or_ge other web.calls.length with within | beyond
  · rw [List.getElem?_append_left within]
  · rw [List.getElem?_append_right beyond, List.getElem?_eq_none beyond]
    cases gap : other - web.calls.length with
    | zero => exact outside
    | succ more => rfl

theorem Sound.add {web : Web} (sound : web.Sound) {index : Nat} {call : Call}
    {phone : ValidatedPhone} (found : web.calls[index]? = some call) :
    ((web.addKey index phone).2.proceed index call
      (.deduplicated phone (web.addKey index phone).1)).Sound := by
  intro attempt relied
  have kept : (web.addKey index phone).2.calls[index]? = some call := found
  have same := stands_proceed kept
    (.deduplicated phone (web.addKey index phone).1)
  rw [same]
  by_cases own : attempt.owner = index
  · rw [if_pos own]
    rfl
  · rw [if_neg own]
    apply sound attempt
    rcases relied with ⟨isCreator, young⟩ | ⟨refused, ⟨older, newer, split, denied, isLatest⟩, answered⟩
    · change latest (web.attempts ++ [_]) attempt.key = some attempt at isCreator
      rw [latest_append] at isCreator
      split at isCreator
      · cases isCreator
        exact False.elim (own rfl)
      · exact Or.inl ⟨isCreator, young⟩
    · rw [same] at answered
      by_cases ownRefused : refused.owner = index
      · rw [if_pos ownRefused] at answered
        cases answered
      · rw [if_neg ownRefused] at answered
        refine Or.inr ⟨refused, ?_, answered⟩
        change web.attempts ++ [_] = older ++ refused :: newer at split
        rcases List.eq_nil_or_concat newer with empty | ⟨front, last, tail⟩
        · subst newer
          have sameLast := (List.append_inj' split rfl).2
          cases sameLast
          exact False.elim (ownRefused rfl)
        · rw [tail, List.concat_eq_append, ← List.cons_append, ← List.append_assoc] at split
          exact ⟨older, front, (List.append_inj' split rfl).1, denied, isLatest⟩

theorem moved_proceed {web : Web} {index : Nat} {call : Call}
    (found : web.calls[index]? = some call) (phase : Phase) :
    Moved web (web.proceed index call phase) index call phase :=
  { found := found
    calls := rfl
    now := rfl
    attempts := rfl }

theorem moved_answer {web : Web} {index : Nat} {call : Call}
    (found : web.calls[index]? = some call) (response : Response) :
    Moved web (web.answer index call response) index call (.returned response) :=
  { found := found
    calls := rfl
    now := rfl
    attempts := rfl }

theorem moved_publish {web : Web} {index : Nat} {call : Call}
    (found : web.calls[index]? = some call) (task : Task) (phase : Phase) :
    Moved web ((web.publish index task).proceed index call phase) index call phase :=
  { found := found
    calls := rfl
    now := rfl
    attempts := rfl }

theorem Inv.step_sound {web next : Web} {action : WebAction} (inv : web.Inv) (sound : web.Sound)
    (taken : system.step web action = some next) : next.Sound ↔ web.Spares action := by
  cases step_cases taken with
  | tick elapsed =>
      exact iff_of_true (sound.keep rfl (Nat.le_add_right web.now elapsed) (fun _ _ _ => rfl)) trivial
  | cachePage key value page =>
      exact iff_of_true (sound.keep rfl (Nat.le_refl web.now) (fun _ _ _ => rfl)) trivial
  | arrive request =>
      exact iff_of_true (sound.keep rfl (Nat.le_refl web.now) (web.stands_arrive request)) trivial
  | refuse reply found stage refused =>
      simp only [Spares, found, stage, iff_true]
      rw [(moved_answer found _).sound_iff sound (by rw [stage]; rfl) rfl]
      intro _ attempt relied
      refine inv.not_relied found ?_ relied
      intro answers phone attempted
      rw [Call.Attempted, stage] at attempted
      rw [(attempted : answers = [])]
      exact List.not_mem_nil
  | validate reply found stage valid =>
      simp only [Spares, found, stage, iff_true]
      rw [(moved_proceed found _).sound_iff sound (by rw [stage]; rfl) rfl]
      intro impossible
      cases impossible
  | addRaises detail found stage =>
      simp only [Spares, found, stage, iff_true]
      rw [(moved_answer found _).sound_iff sound (by rw [stage]; rfl) rfl]
      intro _ attempt relied
      refine inv.not_relied found ?_ relied
      intro answers phone attempted
      rw [Call.Attempted, stage] at attempted
      rw [attempted.2]
      exact List.not_mem_nil
  | addReturns found stage =>
      simp only [Spares, found, stage, iff_true]
      exact sound.add found
  | @logRaises index call phone isNewSubmission detail found stage =>
      rw [(moved_answer found _).sound_iff sound (by rw [stage]; rfl) rfl]
      cases isNewSubmission with
      | true => simp [Spares, found, stage, Phase.isFailed]
      | false =>
          simp only [Spares, found, stage, iff_true]
          intro _ attempt relied
          refine inv.not_relied found ?_ relied
          intro answers other attempted
          rw [Call.Attempted, stage] at attempted
          rw [attempted.2]
          simp
  | @logPublishes index call phone isNewSubmission found stage =>
      rw [(moved_publish found _ _).sound_iff sound (by rw [stage]; rfl) rfl]
      cases isNewSubmission <;> simp [Spares, found, stage, Phase.isFailed]
  | answerDuplicate reply found stage =>
      simp only [Spares, found, stage]
      exact (moved_answer found _).sound_duplicate_iff sound (by rw [stage]; rfl)
  | saveRaises detail found stage =>
      rw [(moved_answer found _).sound_iff sound (by rw [stage]; rfl) rfl]
      simp [Spares, found, stage, Phase.isFailed]
  | savePublishes found stage =>
      rw [(moved_publish found _ _).sound_iff sound (by rw [stage]; rfl) rfl]
      simp [Spares, found, stage, Phase.isFailed]
  | answerQueued reply found stage =>
      simp only [Spares, found, stage, iff_true]
      rw [(moved_answer found _).sound_iff sound (by rw [stage]; rfl) rfl]
      intro impossible
      cases impossible

theorem leadsKept_start : Web.start.LeadsKept := by
  rw [inv_start.leadsKept_iff]
  intro attempt relied
  cases relied.accepted.1

/-- In a run every state keeps its leads exactly if every step is a sparing one. -/
theorem leads_kept_exactly {web : Web} {actions : List WebAction}
    (completed : system.exec Web.start actions = some web) :
    system.Always LeadsKept Web.start actions ↔ system.Guarded Spares Web.start actions := by
  apply system.always_iff_guarded step_inv ?_ inv_start leadsKept_start completed
  intro state action next inv kept taken
  rw [(step_inv inv taken).leadsKept_iff]
  exact inv.step_sound (inv.leadsKept_iff.mp kept) taken

/-- Nobody relies on entries that are a day old and have turned nobody away. -/
theorem not_relied_of_expired {web : Web} (expired : web.attempts.all (fun attempt =>
    attempt.accepted && decide (attempt.time + day ≤ web.now)) = true)
    (attempt : Attempt ValidatedPhone) : ¬web.Relied attempt := by
  have old : ∀ attempt ∈ web.attempts, attempt.accepted = true ∧ attempt.time + day ≤ web.now := by
    intro attempt member
    have both := List.all_eq_true.mp expired attempt member
    rwa [Bool.and_eq_true, decide_eq_true_eq] at both
  rintro (⟨isCreator, young⟩ | ⟨refused, ⟨older, newer, split, denied, _⟩, _⟩)
  · have passed := (old attempt (latest_eq_some isCreator).1).2
    omega
  · have accepted := (old refused (split ▸ List.mem_append_right older List.mem_cons_self)).1
    rw [denied] at accepted
    cases accepted

/-- The log publish of a submission raises when its entry has expired; its client retries. -/
def lateFailureRun : List WebAction :=
  [.arrive exampleRequest, .resume 0 .returns, .resume 0 .returns, .tick day,
    .resume 0 (.raises (text "broker down")), .arrive exampleRequest, .resume 1 .returns,
    .resume 1 .returns, .resume 1 .returns, .resume 1 .returns, .resume 1 .returns]

theorem leads_kept_exactly_late : ∃ web, system.exec Web.start lateFailureRun = some web ∧
    web.calls.map Call.phase =
      [.returned (.error (.logDelay (text "broker down"))), .returned .queued] ∧
    system.Guarded Spares Web.start lateFailureRun ∧
      system.Always LeadsKept Web.start lateFailureRun := by
  have outcome : (system.exec Web.start lateFailureRun).any (fun web => web.calls.map Call.phase =
      [.returned (.error (.logDelay (text "broker down"))), .returned .queued]) = true := by decide
  obtain ⟨web, completed, phases⟩ := system.exec_of_any outcome
  have spares : system.Guarded Spares Web.start lateFailureRun := by
    refine And.intro trivial (And.intro trivial (And.intro trivial (And.intro trivial
      (And.intro ?_ (And.intro trivial (And.intro trivial (And.intro trivial
        (And.intro ?_ (And.intro ?_ (And.intro trivial trivial))))))))))
    · intro raises attempt relied
      exact absurd relied (not_relied_of_expired (by decide) attempt)
    · exact fun impossible => absurd rfl impossible
    · exact fun impossible => absurd rfl impossible
  exact ⟨web, completed, of_decide_eq_true phases, spares,
    (leads_kept_exactly completed).mpr spares⟩

/-- The log publish of a first submission raises; its client retries. -/
def swallowedRun : List WebAction :=
  [.arrive exampleRequest, .resume 0 .returns, .resume 0 .returns,
    .resume 0 (.raises (text "broker down")), .arrive exampleRequest, .resume 1 .returns,
    .resume 1 .returns, .resume 1 .returns, .resume 1 .returns]

theorem lead_swallowed : ∃ web, system.exec Web.start swallowedRun = some web ∧
    web.cache.live web.now (keyOf examplePhone) = true ∧
    web.stands Phase.isFailed 0 = true ∧ web.stands Phase.isDuplicate 1 = true ∧
    web.published.any (fun message => message.task.isSave) = false ∧ ¬web.LeadsKept := by
  have outcome : (system.exec Web.start swallowedRun).any (fun web =>
      web.cache.live web.now (keyOf examplePhone) && web.stands Phase.isFailed 0 &&
        web.stands Phase.isDuplicate 1 && !web.published.any (fun message => message.task.isSave) &&
        (web.creator examplePhone).any (fun attempt => !web.inHand examplePhone attempt.owner)) =
          true := by decide
  obtain ⟨web, completed, checked⟩ := system.exec_of_any outcome
  simp only [Bool.and_eq_true, Bool.not_eq_true'] at checked
  obtain ⟨⟨⟨⟨alive, failed⟩, duplicate⟩, unsaved⟩, lost⟩ := checked
  refine ⟨web, completed, alive, failed, duplicate, unsaved, ?_⟩
  intro kept
  obtain ⟨attempt, isCreator, hand⟩ := kept.keys examplePhone alive
  rw [isCreator] at lost
  simp [hand] at lost

end Web

end Bistland
