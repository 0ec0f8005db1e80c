/-
What the default cache keeps of the deduplication. With `CACHE_BACKEND` unset each process has
a LocMemCache of its own, which forgets, and which holds the cached landing page as well; still,
however the external calls of the requests end, a duplicate answer has its reason in the same
process, a process accepts a phone again only after a day or after many others, and so the
leads that a phone can make stay few.
-/

import Bistland.CacheBackends
import Bistland.CallAccounts
import Bistland.Library.Spacing
import Mathlib.Algebra.BigOperators.Ring.Finset
import Mathlib.Algebra.Order.BigOperators.Group.Finset

namespace Bistland

open Expiring OwnerAccounts Recency Spacing

/-! ### The processes -/

/-- What `cache_page` does with one of its keys. -/
inductive PageAccess where
  | lookup
  | store (value : Str)

def PageAccess.run (access : PageAccess) (cache : Cache Str Str) (now : Nat) (key : Str) :
    Cache Str Str :=
  match access with
  | .lookup => (cache.get now key).2
  | .store value => cache.set locMemLimits now key value cacheTtl

/-- A request and how its external calls end, with the time since what came before it and the
process it is routed to. -/
structure Arrival (workers : Nat) where
  elapsed : Nat
  process : Fin workers
  request : Request
  replies : Replies

/-- A request that has been answered, and what the cache of its process decided of it if
`cache.add` returned; the owner of the attempt is the process. -/
structure Handled where
  request : Request
  attempt : Option (Attempt ValidatedPhone)
  response : Response

def Handled.isQueuedFor (phone : ValidatedPhone) (handled : Handled) : Bool :=
  handled.response = .queued &&
    match handled.request.validated with
    | .ok other => other = phone
    | .error _ => false

/-- An answer that is no error is the one that the cache decided for the phone of the request. -/
structure Handled.Sound (handled : Handled) : Prop where
  answer : (∃ failure, handled.response = .error failure) ∨
    ∃ attempt, handled.attempt = some attempt ∧
      handled.response = if attempt.accepted then .queued else .duplicate
  key : ∀ attempt, handled.attempt = some attempt → handled.request.validated = .ok attempt.key

/-- The worlds of the processes and the requests that they have handled; `pageKeys` has the
keys of the landing page that were looked up or stored, each once. -/
structure Processes (workers : Nat) where
  now : Nat
  worlds : Fin workers → World (Cache Str Str)
  handled : List Handled
  pageKeys : List Str

inductive ProcessAction (workers : Nat) where
  | submit (arrival : Arrival workers)
  | page (elapsed : Nat) (process : Fin workers) (key : Str) (access : PageAccess)

namespace Processes

variable {workers : Nat}

def start (workers : Nat) : Processes workers :=
  { now := 0
    worlds := fun _ => World.start Cache.empty
    handled := []
    pageKeys := [] }

def attempts (processes : Processes workers) : List (Attempt ValidatedPhone) :=
  processes.handled.filterMap Handled.attempt

/-- What `cache.add` decides of a request, if it is called and returns. -/
def attempt (processes : Processes workers) (arrival : Arrival workers) :
    Option (Attempt ValidatedPhone) :=
  match arrival.request.validated, arrival.replies.cacheAdd with
  | .ok phone, .returns =>
      let now := processes.now + arrival.elapsed
      some
        { owner := arrival.process
          key := phone
          time := now
          accepted := (locMemCache.add (processes.worlds arrival.process).cache now
            (dedupKey phone.value) dedupValue day).1 }
  | _, _ => none

def submit (processes : Processes workers) (arrival : Arrival workers) : Processes workers :=
  let now := processes.now + arrival.elapsed
  let (response, world) := (post locMemCache arrival.replies arrival.request).run
    { processes.worlds arrival.process with now := now }
  { processes with
    now := now
    worlds := Function.update processes.worlds arrival.process world
    handled := processes.handled ++
      [{ request := arrival.request
         attempt := processes.attempt arrival
         response := response }] }

def page (processes : Processes workers) (elapsed : Nat) (process : Fin workers) (key : Str)
    (access : PageAccess) : Processes workers :=
  let now := processes.now + elapsed
  let world := processes.worlds process
  { processes with
    now := now
    worlds := Function.update processes.worlds process
      { world with cache := access.run world.cache now key }
    pageKeys := processes.pageKeys.insert key }

def step (processes : Processes workers) : ProcessAction workers → Option (Processes workers)
  | .submit arrival => some (processes.submit arrival)
  | .page elapsed process key access =>
      if pagePrefix.isPrefixOf key then some (processes.page elapsed process key access) else none

def system (workers : Nat) : Transition.System (Processes workers) (ProcessAction workers) :=
  { initial := start workers
    step := step }

/-! ### Stored keys -/

def isStored (process : Nat) (attempt : Attempt ValidatedPhone) : Bool :=
  attempt.owner = process && attempt.accepted

def isStoredFor (phone : ValidatedPhone) (attempt : Attempt ValidatedPhone) : Bool :=
  attempt.key = phone && attempt.accepted

def isStoredBy (process : Nat) (phone : ValidatedPhone) (attempt : Attempt ValidatedPhone) : Bool :=
  isStoredFor phone attempt && attempt.owner = process

/-- A process refuses a phone only for an attempt of its own that it accepted less than a day
before. -/
def Justified (attempts : List (Attempt ValidatedPhone)) : Prop :=
  ∀ older attempt newer, attempts = older ++ attempt :: newer → attempt.accepted = false →
    ∃ winner ∈ older, winner.owner = attempt.owner ∧ winner.key = attempt.key ∧
      winner.accepted = true ∧ attempt.time < winner.time + day

/-- The phones that a process stores before it can forget one: a full cache spares two hundred
entries, and keys of the landing page may be among them. -/
def gap (processes : Processes workers) : Nat :=
  locMemLimits.spared - processes.pageKeys.length

theorem isStored_iff (process : Nat) (attempt : Attempt ValidatedPhone) :
    isStored process attempt = true ↔ attempt.owner = process ∧ attempt.accepted = true := by
  simp only [isStored, Bool.and_eq_true, decide_eq_true_eq]

theorem isStoredBy_iff (process : Nat) (phone : ValidatedPhone) (attempt : Attempt ValidatedPhone) :
    isStoredBy process phone attempt = true ↔
      attempt.key = phone ∧ isStored process attempt = true := by
  simp only [isStoredBy, isStoredFor, isStored, Bool.and_eq_true, decide_eq_true_eq]
  constructor
  · intro ⟨⟨key, accepted⟩, owner⟩
    exact ⟨key, owner, accepted⟩
  · intro ⟨key, owner, accepted⟩
    exact ⟨⟨key, accepted⟩, owner⟩

/-! ### What the cache of a process holds -/

/-- Whether a key of the cache is none of the landing page. -/
def isOwnKey (key : Str) : Bool :=
  !pagePrefix.isPrefixOf key

theorem isOwnKey_dedupKey (phone : ValidatedPhone) : isOwnKey (dedupKey phone.value) = true := by
  cases page : pagePrefix.isPrefixOf (dedupKey phone.value) with
  | false => rw [isOwnKey, page]; rfl
  | true => exact False.elim (keyOf_ne_page page phone rfl)

/-- The entries of a cache stem from the attempts that its process accepted, those for one phone
from the latest of them; and no phone is deeper in the cache than was accepted since. -/
structure Recalls (attempts : List (Attempt ValidatedPhone)) (pageKeys : List Str) (process : Nat)
    (cache : Cache Str Str) : Prop where
  pages : ∀ key ∈ cache.keys, isOwnKey key = false → key ∈ pageKeys
  stored : ∀ phone : ValidatedPhone, ∀ entry, cache.lookup (dedupKey phone.value) = some entry →
    ∃ attempt ∈ attempts, attempt.key = phone ∧ isStored process attempt = true ∧
      entry.expires = attempt.time + day
  latest : ∀ attempt ∈ attempts, isStored process attempt = true →
    ∀ entry, cache.lookup (dedupKey attempt.key.value) = some entry →
      attempt.time + day ≤ entry.expires
  recent : ∀ older first middle, attempts = older ++ first :: middle →
    isStored process first = true →
      middle.countP (isStored process) + pageKeys.length < locMemLimits.spared →
        Recent isOwnKey cache.keys (dedupKey first.key.value) (middle.countP (isStored process))

section Caches

variable {attempts : List (Attempt ValidatedPhone)} {pageKeys : List Str} {process : Nat}
  {cache : Cache Str Str}

theorem recalls_empty (process : Nat) : Recalls [] [] process Cache.empty :=
  { pages := by intro key absent; cases absent
    stored := by intro phone entry absent; cases absent
    latest := by intro attempt absent; cases absent
    recent := by
      intro older first middle impossible
      exact absurd impossible (List.append_ne_nil_of_right_ne_nil _ (List.cons_ne_nil _ _)).symm }

theorem Recalls.countP_pages (recalls : Recalls attempts pageKeys process cache) :
    cache.keys.countP (fun key => !isOwnKey key) ≤ pageKeys.length := by
  rw [List.countP_eq_length_filter]
  have once : (cache.keys.filter (fun key => !isOwnKey key)).Nodup := cache.distinct.filter _
  apply (List.subperm_of_subset once ?_).length_le
  intro key member
  obtain ⟨held, page⟩ := List.mem_filter.mp member
  exact recalls.pages key held (by simpa only [Bool.not_eq_true'] using page)

/-- An attempt that the process does not store leaves its cache as it is. -/
theorem Recalls.skip (recalls : Recalls attempts pageKeys process cache)
    {attempt : Attempt ValidatedPhone} (skipped : isStored process attempt = false) :
    Recalls (attempts ++ [attempt]) pageKeys process cache := by
  refine
    { pages := recalls.pages
      stored := ?_
      latest := ?_
      recent := ?_ }
  · intro phone entry found
    obtain ⟨source, present, facts⟩ := recalls.stored phone entry found
    exact ⟨source, List.mem_append_left _ present, facts⟩
  · intro other member isOther
    rcases List.mem_append.mp member with earlier | isLast
    · exact recalls.latest other earlier isOther
    · rw [List.mem_singleton.mp isLast, skipped] at isOther
      cases isOther
  · intro older first middle split isFirst few
    rcases split_append_singleton split with ⟨_, rfl, _⟩ | ⟨rest, rfl, whole⟩
    · rw [skipped] at isFirst
      cases isFirst
    · rw [List.countP_append, List.countP_singleton, skipped, if_neg Bool.false_ne_true,
        Nat.add_zero] at few ⊢
      exact recalls.recent older first rest whole isFirst few

theorem Recalls.store (recalls : Recalls attempts pageKeys process cache) {now : Nat}
    (past : ∀ attempt ∈ attempts, attempt.time ≤ now) (phone : ValidatedPhone) :
    Recalls (attempts ++ [⟨process, phone, now, true⟩]) pageKeys process
      (cache.set locMemLimits now (dedupKey phone.value) dedupValue day) := by
  have isLast : isStored process ⟨process, phone, now, true⟩ = true :=
    (isStored_iff _ _).mpr ⟨rfl, rfl⟩
  refine
    { pages := ?_
      stored := ?_
      latest := ?_
      recent := ?_ }
  · intro key held page
    rcases Cache.mem_keys_of_set held with rfl | earlier
    · rw [isOwnKey_dedupKey] at page
      cases page
    · exact recalls.pages key earlier page
  · intro other entry found
    by_cases same : other = phone
    · subst other
      rw [Cache.lookup_set_self] at found
      cases found
      exact ⟨_, List.mem_append_right _ (List.mem_singleton_self _), rfl, isLast, rfl⟩
    · have before := Cache.lookup_of_set_other found
        (fun equal => same (dedupKey_value_injective equal))
      obtain ⟨source, present, facts⟩ := recalls.stored other entry before
      exact ⟨source, List.mem_append_left _ present, facts⟩
  · intro other member isOther entry found
    by_cases same : other.key = phone
    · rw [same, Cache.lookup_set_self] at found
      cases found
      have order : other.time ≤ now := by
        rcases List.mem_append.mp member with earlier | final
        · exact past other earlier
        · rw [List.mem_singleton.mp final]
      change other.time + day ≤ now + day
      omega
    · have before := Cache.lookup_of_set_other found
        (fun equal => same (dedupKey_value_injective equal))
      rcases List.mem_append.mp member with earlier | final
      · exact recalls.latest other earlier isOther entry before
      · rw [List.mem_singleton.mp final] at same
        exact False.elim (same rfl)
  · intro older first middle split isFirst few
    rw [Cache.keys_set]
    rcases split_append_singleton split with ⟨_, rfl, rfl⟩ | ⟨rest, rfl, whole⟩
    · exact Recent.first _ _ _
    · rw [List.countP_append, List.countP_singleton, if_pos isLast] at few ⊢
      by_cases same : first.key = phone
      · rw [same]
        exact Recent.first _ _ _
      · have before := recalls.recent older first rest whole isFirst (by omega)
        have others := recalls.countP_pages
        have after := before.push (fun equal => same (dedupKey_value_injective equal))
          (show _ < locMemLimits.spared by omega)
        rw [isOwnKey_dedupKey, if_pos rfl] at after
        exact after

/-- An access to the cache of another process. -/
theorem Recalls.elsewhere (recalls : Recalls attempts pageKeys process cache) (key : Str) :
    Recalls attempts (pageKeys.insert key) process cache := by
  have more : pageKeys.length ≤ (pageKeys.insert key).length := List.length_le_length_insert
  exact
    { pages := fun other held page => List.mem_insert_of_mem (recalls.pages other held page)
      stored := recalls.stored
      latest := recalls.latest
      recent := fun older first middle split isFirst few =>
        recalls.recent older first middle split isFirst (by omega) }

/-- An access to a key of the landing page moves no phone deeper than that one key. -/
theorem Recalls.page (recalls : Recalls attempts pageKeys process cache) {key : Str}
    (isPage : pagePrefix.isPrefixOf key = true) (access : PageAccess) (now : Nat) :
    Recalls attempts (pageKeys.insert key) process (access.run cache now key) := by
  have different : ∀ phone : ValidatedPhone, dedupKey phone.value ≠ key := keyOf_ne_page isPage
  have notOwn : isOwnKey key = false := by rw [isOwnKey, isPage]; rfl
  have known : pageKeys ⊆ pageKeys.insert key := fun _ member => List.mem_insert_of_mem member
  have more : pageKeys.length ≤ (pageKeys.insert key).length := List.length_le_length_insert
  have before : ∀ (phone : ValidatedPhone) entry,
      (access.run cache now key).lookup (dedupKey phone.value) = some entry →
        cache.lookup (dedupKey phone.value) = some entry := by
    intro phone entry found
    cases access with
    | lookup => exact (cache.get_cases now key).lookup found
    | store value => exact Cache.lookup_of_set_other found (different phone)
  refine
    { pages := ?_
      stored := fun phone entry found => recalls.stored phone entry (before phone entry found)
      latest := fun attempt present isOne entry found =>
        recalls.latest attempt present isOne entry (before attempt.key entry found)
      recent := ?_ }
  · intro other held page
    cases access with
    | lookup => exact known (recalls.pages other ((cache.get_cases now key).keys_subset held) page)
    | store value =>
        rcases Cache.mem_keys_of_set held with rfl | earlier
        · exact List.mem_insert_self
        · exact known (recalls.pages other earlier page)
  · intro older first middle split isFirst few
    have others := recalls.countP_pages
    have place := recalls.recent older first middle split isFirst (by omega)
    cases access with
    | lookup =>
        have after := place.read (different first.key) (cache.get_cases now key)
        rw [notOwn, if_neg Bool.false_ne_true, Nat.add_zero] at after
        exact after
    | store value =>
        have after := place.push (different first.key) (show _ < locMemLimits.spared by omega)
        rw [notOwn, if_neg Bool.false_ne_true, Nat.add_zero] at after
        change Recent isOwnKey (cache.set locMemLimits now key value cacheTtl).keys _ _
        rw [Cache.keys_set]
        exact after

/-- What a live entry stands for. -/
theorem Recalls.blocker (recalls : Recalls attempts pageKeys process cache)
    {phone : ValidatedPhone} {now : Nat} (live : cache.live now (dedupKey phone.value) = true) :
    ∃ winner ∈ attempts, winner.owner = process ∧ winner.key = phone ∧ winner.accepted = true ∧
      now < winner.time + day := by
  obtain ⟨entry, found, fresh⟩ := (Cache.live_eq_true _ _ _).mp live
  obtain ⟨winner, present, key, isWinner, expires⟩ := recalls.stored phone entry found
  obtain ⟨owner, accepted⟩ := (isStored_iff _ _).mp isWinner
  rw [expires] at fresh
  exact ⟨winner, present, owner, key, accepted, fresh⟩

/-- What a process accepts again it has accepted a day before or has forgotten. -/
theorem Recalls.apart (recalls : Recalls attempts pageKeys process cache) {phone : ValidatedPhone}
    {now : Nat} (free : cache.live now (dedupKey phone.value) = false)
    {older middle : List (Attempt ValidatedPhone)} {first : Attempt ValidatedPhone}
    (split : attempts = older ++ first :: middle) (lead : isStoredBy process phone first = true) :
    first.time + day ≤ now ∨
      locMemLimits.spared - pageKeys.length ≤ middle.countP (isStored process) := by
  obtain ⟨rfl, isFirst⟩ := (isStoredBy_iff process phone first).mp lead
  rcases Nat.lt_or_ge (middle.countP (isStored process) + pageKeys.length) locMemLimits.spared
    with few | many
  · left
    have held := (recalls.recent older first middle split isFirst few).mem
    obtain ⟨entry, found⟩ := (Cache.mem_keys _ _).mp held
    have present : first ∈ attempts := split ▸ List.mem_append_right older List.mem_cons_self
    have expires := recalls.latest first present isFirst entry found
    by_contra early
    have live := (Cache.live_eq_true cache now (dedupKey first.key.value)).mpr
      ⟨entry, found, by omega⟩
    rw [free] at live
    cases live
  · right
    omega

end Caches

/-! ### One request -/

variable {processes next : Processes workers}

/-- A request that gets no answer from the cache leaves it as it is; another one has its answer
from it. -/
theorem submit_cases (processes : Processes workers) (arrival : Arrival workers) :
    let now := processes.now + arrival.elapsed
    let before := (processes.worlds arrival.process).cache
    let after := ((processes.submit arrival).worlds arrival.process).cache
    (processes.attempt arrival = none ∧ after = before) ∨
      ∃ phone : ValidatedPhone,
        processes.attempt arrival =
            some ⟨arrival.process, phone, now, !before.live now (dedupKey phone.value)⟩ ∧
          after = (before.add locMemLimits now (dedupKey phone.value) dedupValue day).2 := by
  intro now before after
  have held : after = ((process locMemCache arrival.replies arrival.request).outcome
      { processes.worlds arrival.process with now := now }).2.cache := by
    rw [← post_cache]
    exact congrArg World.cache (Function.update_self _ _ _)
  unfold attempt
  cases valid : arrival.request.validated with
  | error failure =>
      rw [process_rejected _ _ _ _ valid] at held
      exact Or.inl ⟨rfl, held⟩
  | ok phone =>
      rw [process_accepted _ _ _ _ valid] at held
      cases called : arrival.replies.cacheAdd with
      | raises detail =>
          simp only [Replies.cacheAfter, called] at held
          exact Or.inl ⟨rfl, held⟩
      | returns =>
          simp only [Replies.cacheAfter, called] at held
          refine Or.inr ⟨phone, ?_, held⟩
          exact congrArg (fun accepted => some (Attempt.mk _ phone now accepted))
            (Cache.add_fst locMemLimits before now _ dedupValue day)

theorem answer_decided (processes : Processes workers) (arrival : Arrival workers) :
    let response := ((post locMemCache arrival.replies arrival.request).run
      { processes.worlds arrival.process with now := processes.now + arrival.elapsed }).1
    (∃ failure, response = .error failure) ∨ ∃ attempt, processes.attempt arrival = some attempt ∧
      response = if attempt.accepted then .queued else .duplicate := by
  intro response
  have answered : response = answerTo ((process locMemCache arrival.replies arrival.request).outcome
      { processes.worlds arrival.process with now := processes.now + arrival.elapsed }).1 :=
    post_answer _ _ _ _
  cases valid : arrival.request.validated with
  | error failure =>
      rw [process_rejected _ _ _ _ valid] at answered
      exact Or.inl ⟨failure, answered⟩
  | ok phone =>
      rw [process_accepted _ _ _ _ valid] at answered
      rcases answerTo_verdict arrival.replies _ with ⟨failure, failed⟩ | ⟨called, same⟩
      · exact Or.inl ⟨failure, answered.trans failed⟩
      · right
        simp only [attempt, valid, called]
        exact ⟨_, rfl, answered.trans same⟩

theorem attempt_key {processes : Processes workers} {arrival : Arrival workers}
    {attempt : Attempt ValidatedPhone} (made : processes.attempt arrival = some attempt) :
    arrival.request.validated = .ok attempt.key := by
  unfold Processes.attempt at made
  split at made
  · rename_i phone valid _
    cases made
    exact valid
  · cases made

theorem submit_handled (processes : Processes workers) (arrival : Arrival workers) :
    ∃ handled, (processes.submit arrival).handled = processes.handled ++ [handled] ∧
      handled.attempt = processes.attempt arrival ∧ handled.Sound := by
  refine ⟨_, rfl, rfl, ?_⟩
  exact
    { answer := processes.answer_decided arrival
      key := fun attempt made => attempt_key made }

theorem submit_attempts (processes : Processes workers) (arrival : Arrival workers) :
    (processes.submit arrival).attempts =
      processes.attempts ++ (processes.attempt arrival).toList := by
  unfold attempts
  obtain ⟨handled, grown, made, _⟩ := processes.submit_handled arrival
  rw [grown, List.filterMap_append, ← made]
  cases held : handled.attempt with
  | none => rw [List.filterMap_cons_none held]; rfl
  | some attempt => rw [List.filterMap_cons_some held]; rfl

theorem submit_elsewhere (processes : Processes workers) {arrival : Arrival workers}
    {process : Fin workers} (different : process ≠ arrival.process) :
    (processes.submit arrival).worlds process = processes.worlds process :=
  Function.update_of_ne different _ _

/-! ### One step -/

/-- The attempts so far, and what the caches hold of them. -/
structure Decided (processes : Processes workers) : Prop where
  sound : ∀ handled ∈ processes.handled, handled.Sound
  owned : ∀ attempt ∈ processes.attempts, attempt.owner < workers
  past : ∀ attempt ∈ processes.attempts, attempt.time ≤ processes.now
  ordered : processes.attempts.Pairwise (fun earlier later => earlier.time ≤ later.time)
  recalls : ∀ process : Fin workers,
    Recalls processes.attempts processes.pageKeys process (processes.worlds process).cache
  justified : Justified processes.attempts
  spaced : ∀ (process : Fin workers) phone,
    Spaced (isStoredBy process phone) (isStored process) Attempt.time day processes.gap
      processes.attempts

theorem decided_start : Decided (start workers) :=
  { sound := fun handled absent => by cases absent
    owned := fun attempt absent => by cases absent
    past := fun attempt absent => by cases absent
    ordered := List.Pairwise.nil
    recalls := fun process => recalls_empty process
    justified := by
      intro older attempt newer impossible
      exact absurd impossible (List.append_ne_nil_of_right_ne_nil _ (List.cons_ne_nil _ _)).symm
    spaced := fun process phone => spaced_nil }

/-- The cache of the process has decided about a phone, and the caches of the others are as
they were. -/
theorem Decided.attempt (decided : Decided processes) {process : Fin workers}
    {phone : ValidatedPhone} {now : Nat} (order : processes.now ≤ now) (clock : next.now = now)
    (sound : ∀ handled ∈ next.handled, handled.Sound) (pageKeys : next.pageKeys = processes.pageKeys)
    (made : next.attempts = processes.attempts ++
      [⟨process, phone, now,
        !(processes.worlds process).cache.live now (dedupKey phone.value)⟩])
    (held : (next.worlds process).cache =
      ((processes.worlds process).cache.add locMemLimits now (dedupKey phone.value) dedupValue
        day).2)
    (others : ∀ other, other ≠ process → next.worlds other = processes.worlds other) :
    Decided next := by
  have past : ∀ attempt ∈ processes.attempts, attempt.time ≤ now :=
    fun attempt member => Nat.le_trans (decided.past attempt member) order
  refine { sound := sound, owned := ?_, past := ?_, ordered := ?_, recalls := ?_,
           justified := ?_, spaced := ?_ }
  · intro attempt member
    rw [made] at member
    rcases List.mem_append.mp member with earlier | isLast
    · exact decided.owned attempt earlier
    · rw [List.mem_singleton.mp isLast]
      exact process.isLt
  · intro attempt member
    rw [made] at member
    rw [clock]
    rcases List.mem_append.mp member with earlier | isLast
    · exact past attempt earlier
    · rw [List.mem_singleton.mp isLast]
  · rw [made]
    apply List.pairwise_append.mpr
    refine ⟨decided.ordered, List.pairwise_singleton _ _, ?_⟩
    intro earlier member last isLast
    rw [List.mem_singleton.mp isLast]
    exact past earlier member
  · intro other
    rw [made, pageKeys]
    by_cases same : other = process
    · subst same
      rw [held, Cache.add_snd]
      cases (processes.worlds other).cache.live now (dedupKey phone.value) with
      | true => exact (decided.recalls _).skip (Bool.and_false _)
      | false => exact (decided.recalls _).store past phone
    · rw [others other same]
      apply (decided.recalls other).skip
      rw [isStored, decide_eq_false (fun equal => same (Fin.ext equal.symm)), Bool.false_and]
  · intro older attempt newer split refused
    rw [made] at split
    rcases split_append_singleton split with ⟨rfl, rfl, _⟩ | ⟨rest, _, whole⟩
    · exact (decided.recalls process).blocker
        (by simpa only [Bool.not_eq_false'] using refused)
    · exact decided.justified older attempt rest whole refused
  · intro other otherPhone
    rw [made, gap, pageKeys]
    apply (decided.spaced other otherPhone).append
    intro lead older first middle split isFirst
    obtain ⟨rfl, isLast⟩ := (isStoredBy_iff _ _ _).mp lead
    obtain ⟨owner, accepted⟩ := (isStored_iff _ _).mp isLast
    cases Fin.ext owner
    exact (decided.recalls _).apart (by simpa only [Bool.not_eq_true'] using accepted) split isFirst

theorem Decided.submit (decided : Decided processes) (arrival : Arrival workers) :
    Decided (processes.submit arrival) := by
  have order : processes.now ≤ processes.now + arrival.elapsed := Nat.le_add_right _ _
  have made := processes.submit_attempts arrival
  have sound : ∀ handled ∈ (processes.submit arrival).handled, handled.Sound := by
    obtain ⟨last, grown, _, lastSound⟩ := processes.submit_handled arrival
    intro handled member
    rw [grown] at member
    rcases List.mem_append.mp member with earlier | isLast
    · exact decided.sound handled earlier
    · rw [List.mem_singleton.mp isLast]
      exact lastSound
  rcases processes.submit_cases arrival with ⟨none, kept⟩ | ⟨phone, attempt, held⟩
  · rw [none, Option.toList_none, List.append_nil] at made
    refine { sound := sound, owned := ?_, past := ?_, ordered := ?_, recalls := ?_,
             justified := ?_, spaced := ?_ }
    · rw [made]
      exact decided.owned
    · rw [made]
      exact fun attempt member => Nat.le_trans (decided.past attempt member) order
    · rw [made]
      exact decided.ordered
    · intro process
      rw [made]
      by_cases routed : process = arrival.process
      · subst routed
        rw [kept]
        exact decided.recalls _
      · rw [processes.submit_elsewhere routed]
        exact decided.recalls process
    · rw [made]
      exact decided.justified
    · rw [made]
      exact decided.spaced
  · rw [attempt] at made
    exact decided.attempt order rfl sound rfl made held
      (fun other different => processes.submit_elsewhere different)

theorem Decided.page (decided : Decided processes) (elapsed : Nat) (process : Fin workers)
    {key : Str} (isPage : pagePrefix.isPrefixOf key = true) (access : PageAccess) :
    Decided (processes.page elapsed process key access) := by
  have fewer : (processes.page elapsed process key access).gap ≤ processes.gap :=
    Nat.sub_le_sub_left List.length_le_length_insert _
  refine { sound := decided.sound, owned := decided.owned, past := ?_,
           ordered := decided.ordered, recalls := ?_, justified := decided.justified,
           spaced := fun process phone => (decided.spaced process phone).weaken fewer }
  · intro attempt member
    exact Nat.le_trans (decided.past attempt member) (Nat.le_add_right _ _)
  · intro other
    by_cases same : other = process
    · subst other
      simp only [Processes.page, Function.update_self]
      exact (decided.recalls process).page isPage access _
    · simp only [Processes.page, Function.update_of_ne same]
      exact (decided.recalls other).elsewhere key

theorem Decided.step (decided : Decided processes) {action : ProcessAction workers}
    (taken : processes.step action = some next) : Decided next := by
  cases action with
  | submit arrival =>
      cases taken
      exact decided.submit arrival
  | page elapsed process key access =>
      obtain ⟨isPage, same⟩ := Option.ite_none_right_eq_some.mp taken
      cases same
      exact decided.page elapsed process isPage access

/-! ### What the processes keep -/

/-- What is told of a phone is what a cache decided, and a refusal has its reason. A phone is
stored once in each process, once more there for each day that has passed, and once more in all
for each gap of stored phones; it is told to be queued no more often than that. -/
structure DefaultDedup (processes : Processes workers) : Prop where
  sound : ∀ handled ∈ processes.handled, handled.Sound
  justified : Justified processes.attempts
  spaced : ∀ (process : Fin workers) phone,
    Spaced (isStoredBy process phone) (isStored process) Attempt.time day processes.gap
      processes.attempts
  queued : ∀ phone, processes.handled.countP (Handled.isQueuedFor phone) ≤
    processes.attempts.countP (isStoredFor phone)
  bounded : ∀ phone, (processes.gap + 1) * processes.attempts.countP (isStoredFor phone) ≤
    (processes.gap + 1) * (workers * (1 + processes.now / day)) +
      processes.attempts.countP Attempt.accepted

theorem stored_of_queued {handled : Handled} (sound : handled.Sound) {phone : ValidatedPhone}
    (isQueued : handled.isQueuedFor phone = true) :
    (handled.attempt.map (isStoredFor phone)).getD false = true := by
  unfold Handled.isQueuedFor at isQueued
  rw [Bool.and_eq_true, decide_eq_true_eq] at isQueued
  obtain ⟨response, own⟩ := isQueued
  rcases sound.answer with ⟨failure, failed⟩ | ⟨attempt, made, same⟩
  · rw [response] at failed
    cases failed
  · rw [sound.key attempt made] at own
    have own : decide (attempt.key = phone) = true := own
    rw [made, Option.map_some, Option.getD_some, isStoredFor, own, Bool.true_and]
    cases accepted : attempt.accepted with
    | true => rfl
    | false =>
        rw [response, accepted] at same
        cases same

theorem Decided.queued (decided : Decided processes) (phone : ValidatedPhone) :
    processes.handled.countP (Handled.isQueuedFor phone) ≤
      processes.attempts.countP (isStoredFor phone) := by
  unfold attempts
  rw [List.countP_filterMap]
  exact List.countP_mono_left (fun handled member isQueued =>
    stored_of_queued (decided.sound handled member) isQueued)

theorem Decided.bounded (decided : Decided processes) (phone : ValidatedPhone) :
    (processes.gap + 1) * processes.attempts.countP (isStoredFor phone) ≤
      (processes.gap + 1) * (workers * (1 + processes.now / day)) +
        processes.attempts.countP Attempt.accepted := by
  have byProcess : ∀ process ∈ Finset.range workers,
      (processes.gap + 1) *
          (postedBy Attempt.owner processes.attempts process).countP (isStoredFor phone) ≤
        (processes.gap + 1) * (1 + processes.now / day) +
          (postedBy Attempt.owner processes.attempts process).countP Attempt.accepted := by
    intro process inside
    have few := (decided.spaced ⟨process, Finset.mem_range.mp inside⟩ phone).countP_le
      (by decide) (fun _ lead => ((isStoredBy_iff _ _ _).mp lead).2) decided.ordered decided.past
    have leads : (postedBy Attempt.owner processes.attempts process).countP (isStoredFor phone) =
        processes.attempts.countP (isStoredBy process phone) := List.countP_filter
    have stored : (postedBy Attempt.owner processes.attempts process).countP Attempt.accepted =
        processes.attempts.countP (isStored process) := by
      unfold postedBy
      rw [List.countP_filter]
      exact List.countP_congr (fun attempt _ => by rw [isStored, Bool.and_comm])
    rw [leads, stored]
    calc (processes.gap + 1) * processes.attempts.countP (isStoredBy process phone)
        ≤ (processes.gap + 1) * (1 + processes.now / day +
            processes.attempts.countP (isStored process) / (processes.gap + 1)) :=
          Nat.mul_le_mul_left _ few
      _ ≤ (processes.gap + 1) * (1 + processes.now / day) +
            processes.attempts.countP (isStored process) := by
          rw [Nat.mul_add]
          exact Nat.add_le_add_left (Nat.mul_div_le _ _) _
  have total := Finset.sum_le_sum byProcess
  rw [← Finset.mul_sum, Finset.sum_add_distrib, Finset.sum_const_nat (fun _ _ => rfl),
    Finset.card_range, Nat.mul_left_comm,
    ← countP_by_owner (isStoredFor phone) workers decided.owned,
    ← countP_by_owner Attempt.accepted workers decided.owned] at total
  exact total

/-- The default caches never refuse a phone without a reason, and let it pass again only so
often, however the publishes of the requests end. -/
theorem default_dedup {processes : Processes workers}
    (reached : (system workers).Reachable processes) : DefaultDedup processes := by
  have decided : Decided processes :=
    (system workers).reachable_invariant (fun decided taken => decided.step taken) decided_start
      reached
  exact
    { sound := decided.sound
      justified := decided.justified
      spaced := decided.spaced
      queued := decided.queued
      bounded := decided.bounded }

/-- A valid submission, with the end of its publish of the log. -/
def sending {workers : Nat} (elapsed : Nat) (process : Fin workers) (logDelay : Reply) :
    Arrival workers :=
  { elapsed := elapsed
    process := process
    request := exampleRequest
    replies := { Replies.allReturn with logDelay := logDelay } }

/-- One phone sent to three processes, one of which has stored a page in between; the publish
of the second one's log raises, and leaves its key behind. -/
def spreadRun : List (ProcessAction 3) :=
  [.submit (sending 0 0 .returns), .page second 0 (pagePrefix ++ text ".cache_page") (.store []),
    .page second 0 (pagePrefix ++ text ".cache_page") .lookup,
    .submit (sending second 1 (.raises [])), .submit (sending second 1 .returns),
    .submit (sending second 2 .returns), .submit (sending second 0 .returns)]

theorem default_dedup_spread : ∃ processes, (system 3).exec (start 3) spreadRun = some processes ∧
    processes.handled.map Handled.response =
      [.queued, .error (.logDelay []), .duplicate, .queued, .duplicate] ∧
    processes.attempts.map Attempt.accepted = [true, true, false, true, false] ∧
      processes.gap = 199 ∧ DefaultDedup processes := by
  have outcome : ((system 3).exec (start 3) spreadRun).any (fun processes =>
      processes.handled.map Handled.response =
          [.queued, .error (.logDelay []), .duplicate, .queued, .duplicate] ∧
        processes.attempts.map Attempt.accepted = [true, true, false, true, false] ∧
          processes.gap = 199) = true := by decide
  obtain ⟨processes, completed, facts⟩ := (system 3).exec_of_any outcome
  obtain ⟨responses, accepted, gap⟩ := of_decide_eq_true facts
  exact ⟨processes, completed, responses, accepted, gap,
    default_dedup ((system 3).reachable_of_exec completed)⟩

end Processes

end Bistland
