/-
The cache backends of the settings. With `CACHE_BACKEND` unset every web process
has a LocMemCache of its own; the deployment's environment file names one Redis
for all. The same submissions are served under both, one after another, and the
answers are compared.
-/

import Bistland.HandlerRun
import Bistland.Library.RecencyStore

namespace Bistland

open Expiring Recency

/-! ### The two services -/

/-- `MAX_ENTRIES` and `CULL_FREQUENCY` of a backend whose settings give no `OPTIONS`. -/
def locMemLimits : Limits :=
  { maxEntries := 300
    cullFrequency := 3 }

theorem locMem_spared : locMemLimits.spared = 200 := rfl

def locMemCache : CacheBackend (Cache Str Str) :=
  { add := Cache.add locMemLimits }

/-- A valid request, the time since the one before it and the process it is routed to. -/
structure Submission (workers : Nat) where
  elapsed : Nat
  process : Fin workers
  request : Request
  phone : ValidatedPhone
  valid : request.validated = .ok phone

/-- The world of the shared cache, the worlds of the processes and the answers so far;
`attempts` records what the shared cache decided, under the number of the process. -/
structure Services (workers : Nat) where
  now : Nat
  shared : World (Store Str Str)
  own : Fin workers → World (Cache Str Str)
  sharedAnswers : List Response
  ownAnswers : List Response
  attempts : List (Attempt ValidatedPhone)

def World.start {Cache : Type} (cache : Cache) : World Cache :=
  { now := 0
    cache := cache
    published := []
    metrics := Metrics.zero }

def Services.start (workers : Nat) : Services workers :=
  { now := 0
    shared := World.start Store.empty
    own := fun _ => World.start Cache.empty
    sharedAnswers := []
    ownAnswers := []
    attempts := [] }

def serve {Cache : Type} (backend : CacheBackend Cache) (request : Request) (now : Nat)
    (world : World Cache) : Response × World Cache :=
  (post backend Replies.allReturn request).run { world with now := now }

namespace Services

variable {workers : Nat}

def step (services : Services workers) (submission : Submission workers) :
    Option (Services workers) :=
  let now := services.now + submission.elapsed
  let (sharedAnswer, shared) := serve sharedCache submission.request now services.shared
  let (ownAnswer, own) :=
    serve locMemCache submission.request now (services.own submission.process)
  some
    { now := now
      shared := shared
      own := Function.update services.own submission.process own
      sharedAnswers := services.sharedAnswers ++ [sharedAnswer]
      ownAnswers := services.ownAnswers ++ [ownAnswer]
      attempts := services.attempts ++
        [{ owner := submission.process
           key := submission.phone
           time := now
           accepted := sharedAnswer = .queued }] }

def system (workers : Nat) : Transition.System (Services workers) (Submission workers) :=
  { initial := start workers
    step := step }

def Same (services : Services workers) : Prop :=
  services.ownAnswers = services.sharedAnswers

/-! ### Conditions on the routing -/

/-- The phones a process still remembers of those it accepted, the latest first. -/
def remembered (attempts : List (Attempt ValidatedPhone)) (process : Nat) :
    List ValidatedPhone :=
  attempts.foldl
    (fun phones attempt =>
      if attempt.owner = process && attempt.accepted then locMemLimits.push phones attempt.key
      else phones)
    []

def stores (attempts : List (Attempt ValidatedPhone)) (process : Nat) : Nat :=
  attempts.countP (fun attempt => attempt.owner = process && attempt.accepted)

/-- A repeat inside the window comes back to the process that accepted the phone, which
still remembers it. -/
def Routed (services : Services workers) (submission : Submission workers) : Prop :=
  ∀ blocker ∈ services.attempts, blocker.key = submission.phone → blocker.accepted = true →
    services.now + submission.elapsed < blocker.time + day →
      blocker.owner = submission.process.val ∧
        submission.phone ∈ remembered services.attempts submission.process

/-- A repeat inside the window comes back to the process that accepted the phone, which has
accepted no more than two hundred phones since. -/
def Sticky (services : Services workers) (submission : Submission workers) : Prop :=
  ∀ older blocker newer, services.attempts = older ++ blocker :: newer →
    blocker.key = submission.phone → blocker.accepted = true →
      services.now + submission.elapsed < blocker.time + day →
        blocker.owner = submission.process.val ∧ stores newer submission.process ≤ 200

theorem remembered_append (attempts : List (Attempt ValidatedPhone))
    (attempt : Attempt ValidatedPhone) (process : Nat) :
    remembered (attempts ++ [attempt]) process =
      if attempt.owner = process && attempt.accepted then
        locMemLimits.push (remembered attempts process) attempt.key
      else remembered attempts process := by
  unfold remembered
  rw [List.foldl_append]
  rfl

theorem stores_append (attempts : List (Attempt ValidatedPhone))
    (attempt : Attempt ValidatedPhone) (process : Nat) :
    stores (attempts ++ [attempt]) process =
      stores attempts process + if attempt.owner = process && attempt.accepted then 1 else 0 := by
  unfold stores
  rw [List.countP_append, List.countP_singleton]

/-- Each later phone of its process moves a phone one place back. -/
theorem mem_remembered {older newer : List (Attempt ValidatedPhone)}
    {attempt : Attempt ValidatedPhone} (accepted : attempt.accepted = true)
    (few : stores newer attempt.owner ≤ 200) :
    attempt.key ∈ (remembered (older ++ attempt :: newer) attempt.owner).take
      (stores newer attempt.owner + 1) := by
  induction newer using List.reverseRecOn with
  | nil =>
      rw [remembered_append, if_pos (by rw [accepted, decide_eq_true rfl]; rfl)]
      exact List.mem_cons_self
  | append_singleton front last ih =>
      rw [stores_append] at few ⊢
      rw [← List.cons_append, ← List.append_assoc, remembered_append]
      have member := ih (Nat.le_trans (Nat.le_add_right _ _) few)
      cases stored : decide (last.owner = attempt.owner) && last.accepted with
      | false => exact member
      | true =>
          rw [stored, if_pos rfl, ← locMem_spared] at few
          exact locMemLimits.mem_take_push member few last.key

theorem Sticky.routed {services : Services workers} {submission : Submission workers}
    (sticky : services.Sticky submission) : services.Routed submission := by
  intro blocker present sameKey accepted fresh
  obtain ⟨older, newer, split⟩ := List.append_of_mem present
  obtain ⟨owner, few⟩ := sticky older blocker newer split sameKey accepted fresh
  refine ⟨owner, ?_⟩
  rw [← owner] at few ⊢
  rw [split, ← sameKey]
  exact List.mem_of_mem_take (mem_remembered accepted few)

/-! ### One submission -/

def answerFor (stored : Bool) : Response :=
  if stored then .queued else .duplicate

theorem answerFor_injective {left right : Bool} (same : answerFor left = answerFor right) :
    left = right := by
  cases left <;> cases right <;> first | rfl | cases same

theorem answerFor_queued (stored : Bool) : decide (answerFor stored = .queued) = stored := by
  cases stored <;> rfl

theorem serve_valid {Cache : Type} (backend : CacheBackend Cache) {request : Request}
    {phone : ValidatedPhone} (valid : request.validated = .ok phone) (now : Nat)
    (world : World Cache) :
    (serve backend request now world).1 =
        answerFor (backend.add world.cache now (dedupKey phone.value) dedupValue day).1 ∧
      (serve backend request now world).2.cache =
        (backend.add world.cache now (dedupKey phone.value) dedupValue day).2 := by
  unfold serve
  constructor
  · rw [post_answer, process_accepted backend Replies.allReturn request _ valid]
    simp only [Replies.verdict, Replies.allReturn]
    cases (backend.add world.cache now (dedupKey phone.value) dedupValue day).1 <;> rfl
  · rw [post_cache, process_accepted backend Replies.allReturn request _ valid]
    rfl

/-- What a submission does to the caches, the answers and the attempts. -/
structure Served (services : Services workers) (submission : Submission workers)
    (next : Services workers) : Prop where
  clock : next.now = services.now + submission.elapsed
  sharedCache : next.shared.cache =
    (services.shared.cache.add next.now (dedupKey submission.phone.value) dedupValue day).2
  ownCache : (next.own submission.process).cache =
    ((services.own submission.process).cache.add locMemLimits next.now
      (dedupKey submission.phone.value) dedupValue day).2
  others : ∀ process, process ≠ submission.process → next.own process = services.own process
  sharedAnswers : next.sharedAnswers = services.sharedAnswers ++
    [answerFor (!services.shared.cache.live next.now (dedupKey submission.phone.value))]
  ownAnswers : next.ownAnswers = services.ownAnswers ++
    [answerFor (!(services.own submission.process).cache.live next.now
      (dedupKey submission.phone.value))]
  attempts : next.attempts = services.attempts ++
    [⟨submission.process, submission.phone, next.now,
      (services.shared.cache.add next.now (dedupKey submission.phone.value) dedupValue day).1⟩]

theorem step_served {services next : Services workers} {submission : Submission workers}
    (taken : services.step submission = some next) : Served services submission next := by
  obtain ⟨sharedAnswer, sharedWorld⟩ := serve_valid Bistland.sharedCache submission.valid
    (services.now + submission.elapsed) services.shared
  obtain ⟨ownAnswer, ownWorld⟩ := serve_valid locMemCache submission.valid
    (services.now + submission.elapsed) (services.own submission.process)
  cases taken
  refine
    { clock := rfl
      sharedCache := sharedWorld
      ownCache := ?_
      others := ?_
      sharedAnswers := ?_
      ownAnswers := ?_
      attempts := ?_ }
  · simp only [Function.update_self]
    exact ownWorld
  · intro process different
    exact Function.update_of_ne different _ _
  · rw [← Store.add_fst _ _ _ dedupValue day]
    exact congrArg (fun answer => services.sharedAnswers ++ [answer]) sharedAnswer
  · rw [← Cache.add_fst locMemLimits _ _ _ dedupValue day]
    exact congrArg (fun answer => services.ownAnswers ++ [answer]) ownAnswer
  · have accepted := answerFor_queued (Bistland.sharedCache.add services.shared.cache
      (services.now + submission.elapsed) (dedupKey submission.phone.value) dedupValue day).1
    rw [← sharedAnswer] at accepted
    exact congrArg (fun accepted => services.attempts ++
      [⟨submission.process, submission.phone, services.now + submission.elapsed, accepted⟩])
      accepted

theorem Served.same_iff {services next : Services workers} {submission : Submission workers}
    (served : Served services submission next) (same : services.Same) :
    next.Same ↔ (services.own submission.process).cache.live next.now
        (dedupKey submission.phone.value) =
      services.shared.cache.live next.now (dedupKey submission.phone.value) := by
  unfold Same at same ⊢
  rw [served.ownAnswers, served.sharedAnswers, same, List.append_cancel_left_eq]
  constructor
  · intro equal
    exact Bool.not_inj (answerFor_injective (List.cons.inj equal).1)
  · intro equal
    rw [equal]

theorem Served.order {services next : Services workers} {submission : Submission workers}
    (served : Served services submission next) : services.now ≤ next.now := by
  rw [served.clock]
  exact Nat.le_add_right _ _

/-- Answers that differ once differ for good. -/
theorem Served.same_before {services next : Services workers} {submission : Submission workers}
    (served : Served services submission next) (same : next.Same) : services.Same := by
  unfold Same at same ⊢
  rw [served.ownAnswers, served.sharedAnswers] at same
  exact (List.append_inj' same rfl).1

/-! ### The caches of the processes -/

/-- The cache of a process holds the phones it remembers, and each of its entries is the
one of the latest attempt that the process accepted for the phone. -/
structure Mirrors (attempts : List (Attempt ValidatedPhone)) (process : Nat)
    (cache : Cache Str Str) : Prop where
  keys : cache.keys =
    (remembered attempts process).map (fun phone : ValidatedPhone => dedupKey phone.value)
  stored : ∀ phone : ValidatedPhone, ∀ entry, cache.lookup (dedupKey phone.value) = some entry →
    ∃ attempt ∈ attempts, attempt.owner = process ∧ attempt.key = phone ∧
      attempt.accepted = true ∧ entry.expires = attempt.time + day
  latest : ∀ attempt ∈ attempts, attempt.owner = process → attempt.accepted = true →
    ∀ entry, cache.lookup (dedupKey attempt.key.value) = some entry →
      attempt.time + day ≤ entry.expires

theorem mirrors_empty (process : Nat) : Mirrors [] process Cache.empty :=
  { keys := rfl
    stored := by intro phone entry absent; cases absent
    latest := by intro attempt absent; cases absent }

section Attempts

variable {attempts : List (Attempt ValidatedPhone)} {process : Nat} {cache : Cache Str Str}

theorem Mirrors.skip (mirrors : Mirrors attempts process cache) {attempt : Attempt ValidatedPhone}
    (skipped : (attempt.owner = process && attempt.accepted) = false) :
    Mirrors (attempts ++ [attempt]) process cache := by
  refine
    { keys := ?_
      stored := ?_
      latest := ?_ }
  · rw [remembered_append, skipped]
    exact mirrors.keys
  · intro phone entry found
    obtain ⟨source, present, facts⟩ := mirrors.stored phone entry found
    exact ⟨source, List.mem_append_left _ present, facts⟩
  · intro other member owner accepted
    rcases List.mem_append.mp member with earlier | isLast
    · exact mirrors.latest other earlier owner accepted
    · rw [List.mem_singleton.mp isLast] at owner accepted
      rw [decide_eq_true owner, accepted] at skipped
      cases skipped

theorem Mirrors.store (mirrors : Mirrors attempts process cache) {now : Nat}
    (past : ∀ attempt ∈ attempts, attempt.time ≤ now) (phone : ValidatedPhone) :
    Mirrors (attempts ++ [⟨process, phone, now, true⟩]) process
      (cache.set locMemLimits now (dedupKey phone.value) dedupValue day) := by
  refine
    { keys := ?_
      stored := ?_
      latest := ?_ }
  · rw [Cache.keys_set, mirrors.keys, remembered_append, if_pos (by simp only [decide_true]; rfl),
      locMemLimits.push_map dedupKey_value_injective]
  · intro other entry found
    by_cases same : other = phone
    · subst other
      rw [Cache.lookup_set_self] at found
      cases found
      exact ⟨⟨process, phone, now, true⟩, List.mem_append_right _ (List.mem_singleton_self _), rfl,
        rfl, rfl, rfl⟩
    · have before := Cache.lookup_of_set_other found
        (fun equal => same (dedupKey_value_injective equal))
      obtain ⟨source, present, facts⟩ := mirrors.stored other entry before
      exact ⟨source, List.mem_append_left _ present, facts⟩
  · intro other member owner accepted entry found
    by_cases same : other.key = phone
    · rw [same, Cache.lookup_set_self] at found
      cases found
      have order : other.time ≤ now := by
        rcases List.mem_append.mp member with earlier | isLast
        · exact past other earlier
        · rw [List.mem_singleton.mp isLast]
      change other.time + day ≤ now + day
      omega
    · have before := Cache.lookup_of_set_other found
        (fun equal => same (dedupKey_value_injective equal))
      rcases List.mem_append.mp member with earlier | isLast
      · exact mirrors.latest other earlier owner accepted entry before
      · rw [List.mem_singleton.mp isLast] at same
        exact False.elim (same rfl)

end Attempts

/-- As long as the answers are equal, the processes hold what the shared cache accepted
from them. -/
structure Inv (services : Services workers) : Prop where
  exact : Exact day services.attempts
  tracks : Tracks day services.now services.attempts
    (expiry services.shared.cache (fun phone : ValidatedPhone => dedupKey phone.value))
  mirrors : services.Same → ∀ process : Fin workers,
    Mirrors services.attempts process (services.own process).cache

theorem inv_start (workers : Nat) : Inv (start workers) :=
  { exact := exact_nil day
    tracks := tracks_nil day 0
    mirrors := fun _ process => mirrors_empty process }

theorem Inv.shared_live {services : Services workers} (inv : Inv services) {now : Nat}
    (order : services.now ≤ now) (phone : ValidatedPhone) :
    services.shared.cache.live now (dedupKey phone.value) = true ↔
      ∃ blocker ∈ services.attempts, blocker.key = phone ∧ blocker.accepted = true ∧
        now < blocker.time + day := by
  have decided := (inv.tracks.wait order).decides phone
  rw [← live_eq_current services.shared.cache
    (fun phone : ValidatedPhone => dedupKey phone.value)] at decided
  have blocked := not_congr decided
  rw [Bool.not_eq_false] at blocked
  rw [blocked]
  push Not
  rfl

/-- A process refuses a phone exactly if it accepted the attempt that blocks and still
remembers the phone. -/
theorem Inv.own_live {services : Services workers} (inv : Inv services) (same : services.Same)
    (now : Nat) (process : Fin workers) (phone : ValidatedPhone) :
    (services.own process).cache.live now (dedupKey phone.value) = true ↔
      ∃ blocker ∈ services.attempts, (blocker.key = phone ∧ blocker.accepted = true ∧
          now < blocker.time + day) ∧ blocker.owner = process.val ∧
        phone ∈ remembered services.attempts process := by
  have mirrors := inv.mirrors same process
  have held : dedupKey phone.value ∈ (services.own process).cache.keys ↔
      phone ∈ remembered services.attempts process := by
    rw [mirrors.keys]
    exact List.mem_map_of_injective dedupKey_value_injective
  rw [Cache.mem_keys] at held
  rw [Cache.live_eq_true]
  constructor
  · intro ⟨entry, found, fresh⟩
    obtain ⟨source, present, owner, sameKey, accepted, expires⟩ := mirrors.stored phone entry found
    rw [expires] at fresh
    exact ⟨source, present, ⟨sameKey, accepted, fresh⟩, owner, held.mp ⟨entry, found⟩⟩
  · intro ⟨blocker, present, ⟨sameKey, accepted, fresh⟩, owner, known⟩
    obtain ⟨entry, found⟩ := held.mpr known
    rw [← sameKey] at found
    have later := mirrors.latest blocker present owner accepted entry found
    rw [← sameKey]
    exact ⟨entry, found, Nat.lt_of_lt_of_le fresh later⟩

theorem Inv.blocker_unique {services : Services workers} (inv : Inv services) {now : Nat}
    (order : services.now ≤ now) {first second : Attempt ValidatedPhone}
    (present : first ∈ services.attempts) (secondPresent : second ∈ services.attempts)
    (sameKey : first.key = second.key) (accepted : first.accepted = true)
    (secondAccepted : second.accepted = true) (fresh : now < first.time + day)
    (secondFresh : now < second.time + day) : first = second := by
  by_contra different
  have past := inv.tracks.past first present
  have secondPast := inv.tracks.past second secondPresent
  rcases inv.exact.apart present secondPresent different sameKey accepted secondAccepted with
    before | before
  · omega
  · omega

theorem Inv.same_iff_routed {services next : Services workers} {submission : Submission workers}
    (inv : Inv services) (same : services.Same) (served : Served services submission next) :
    next.Same ↔ services.Routed submission := by
  have order := served.order
  rw [served.same_iff same, Bool.eq_iff_iff, inv.shared_live order, inv.own_live same]
  unfold Routed
  rw [← served.clock]
  constructor
  · intro equal blocker present sameKey accepted fresh
    obtain ⟨source, sourcePresent, ⟨sourceKey, sourceAccepted, sourceFresh⟩, owner, known⟩ :=
      equal.mpr ⟨blocker, present, sameKey, accepted, fresh⟩
    have unique := inv.blocker_unique order sourcePresent present (sourceKey.trans sameKey.symm)
      sourceAccepted accepted sourceFresh fresh
    rw [← unique]
    exact ⟨owner, known⟩
  · intro routed
    constructor
    · intro ⟨blocker, present, blocks, _⟩
      exact ⟨blocker, present, blocks⟩
    · intro ⟨blocker, present, sameKey, accepted, fresh⟩
      exact ⟨blocker, present, ⟨sameKey, accepted, fresh⟩,
        routed blocker present sameKey accepted fresh⟩

theorem Inv.step {services next : Services workers} {submission : Submission workers}
    (inv : Inv services) (served : Served services submission next) : Inv next := by
  have order := served.order
  have tracks := inv.tracks.wait order
  have gate := add_keeps (fun phone : ValidatedPhone => dedupKey phone.value)
    dedupKey_value_injective inv.exact tracks submission.process.val submission.phone dedupValue
  refine
    { exact := ?_
      tracks := ?_
      mirrors := ?_ }
  · rw [served.attempts]
    exact gate.1
  · rw [served.attempts, served.sharedCache]
    exact gate.2
  · intro same process
    have before := served.same_before same
    have mirrors := inv.mirrors before process
    rw [served.attempts, Store.add_fst]
    by_cases routed : process = submission.process
    · subst process
      rw [served.ownCache, Cache.add_snd, (served.same_iff before).mp same]
      cases services.shared.cache.live next.now (dedupKey submission.phone.value) with
      | true => exact mirrors.skip (Bool.and_false _)
      | false => exact mirrors.store tracks.past submission.phone
    · have elsewhere : submission.process.val ≠ process.val :=
        fun equal => routed (Fin.ext equal.symm)
      rw [served.others process routed]
      apply mirrors.skip
      rw [decide_eq_false elsewhere, Bool.false_and]

/-! ### Whole runs -/

/-- The default backend answers as one shared cache does in exactly the runs that bring
every repeat back to a process that still remembers the phone, among them all the runs
with sticky routing. -/
theorem backends_agree_exactly (workers : Nat) (run : List (Submission workers))
    (final : Services workers)
    (completed : (system workers).exec (start workers) run = some final) :
    (final.ownAnswers = final.sharedAnswers ↔
        (system workers).Guarded Routed (start workers) run) ∧
      ((system workers).Guarded Sticky (start workers) run →
        final.ownAnswers = final.sharedAnswers) := by
  have always : (system workers).Always Same (start workers) run ↔
      (system workers).Guarded Routed (start workers) run :=
    (system workers).always_iff_guarded
      (fun inv taken => inv.step (step_served taken))
      (fun inv same taken => inv.same_iff_routed same (step_served taken))
      (inv_start workers) rfl completed
  have exact : final.ownAnswers = final.sharedAnswers ↔
      (system workers).Guarded Routed (start workers) run := by
    rw [← always]
    constructor
    · exact (system workers).always_of_last (fun taken => (step_served taken).same_before) completed
    · intro along
      exact (system workers).always_last along completed
  refine ⟨exact, ?_⟩
  intro sticky
  exact exact.mpr ((system workers).guarded_mono (fun _ _ each => each.routed) sticky)

def resubmit {workers : Nat} (elapsed : Nat) (process : Fin workers) : Submission workers :=
  { elapsed := elapsed
    process := process
    request := exampleRequest
    phone := examplePhone
    valid := by decide }

theorem backends_agree_exactly_sticky :
    ∃ final, (system 3).exec (start 3) [resubmit 0 1, resubmit second 1, resubmit day 2] =
        some final ∧
      (final.ownAnswers = final.sharedAnswers ↔ (system 3).Guarded Routed (start 3)
        [resubmit 0 1, resubmit second 1, resubmit day 2]) ∧
      ((system 3).Guarded Sticky (start 3) [resubmit 0 1, resubmit second 1, resubmit day 2] →
        final.ownAnswers = final.sharedAnswers) ∧
      final.sharedAnswers = [.queued, .duplicate, .queued] := by
  obtain ⟨final, completed, answers⟩ := (system 3).exec_of_any
    (show ((system 3).exec (start 3) [resubmit 0 1, resubmit second 1, resubmit day 2]).any
      (fun final => final.sharedAnswers = [.queued, .duplicate, .queued]) = true by decide)
  have agree := backends_agree_exactly 3 _ final completed
  exact ⟨final, completed, agree.1, agree.2, of_decide_eq_true answers⟩

/-- Two submissions of one phone within a second, routed to two processes. -/
theorem repeat_queued_twice :
    ¬∀ (workers : Nat) (run : List (Submission workers)) (final : Services workers), 1 ≤ workers →
      (system workers).exec (start workers) run = some final →
        final.ownAnswers = final.sharedAnswers := by
  intro everywhere
  obtain ⟨final, completed, answers⟩ := (system 2).exec_of_any
    (show ((system 2).exec (start 2) [resubmit 0 0, resubmit second 1]).any
      (fun final => final.ownAnswers = [.queued, .queued] ∧
        final.sharedAnswers = [.queued, .duplicate]) = true by decide)
  obtain ⟨own, shared⟩ := of_decide_eq_true answers
  have equal := everywhere 2 _ final (by omega) completed
  rw [own, shared] at equal
  cases equal

end Services

end Bistland
