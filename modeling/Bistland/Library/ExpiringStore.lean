/-
Key-value stores whose entries expire, and the gate they implement: a history
of attempts is exact when an attempt is accepted if and only if no accepted
attempt for its key lies less than one window back. A store that writes one
entry for each accepted attempt decides every attempt exactly.
-/

import Mathlib.Data.List.Induction
import Mathlib.Data.List.Pairwise

namespace Bistland.Expiring

/-! ### Stores -/

structure Entry (Value : Type) where
  value : Value
  expires : Nat

abbrev Store (Key Value : Type) := Key → Option (Entry Value)

section Stores

variable {Key Value : Type} [DecidableEq Key]

def Store.empty : Store Key Value := fun _ => none

def Store.live (store : Store Key Value) (now : Nat) (key : Key) : Bool :=
  match store key with
  | none => false
  | some entry => now < entry.expires

def Store.set (store : Store Key Value) (now : Nat) (key : Key) (value : Value)
    (timeout : Nat) : Store Key Value :=
  fun other => if other = key then some ⟨value, now + timeout⟩ else store other

/-- Store the entry only if none is live, and tell whether it was stored. -/
def Store.add (store : Store Key Value) (now : Nat) (key : Key) (value : Value)
    (timeout : Nat) : Bool × Store Key Value :=
  if store.live now key then (false, store) else (true, store.set now key value timeout)

@[simp] theorem Store.set_self (store : Store Key Value) (now : Nat) (key : Key) (value : Value)
    (timeout : Nat) : store.set now key value timeout key = some ⟨value, now + timeout⟩ :=
  if_pos rfl

theorem Store.set_other (store : Store Key Value) (now : Nat) {key other : Key} (value : Value)
    (timeout : Nat) (different : other ≠ key) :
    store.set now key value timeout other = store other :=
  if_neg different

theorem Store.add_fst (store : Store Key Value) (now : Nat) (key : Key) (value : Value)
    (timeout : Nat) : (store.add now key value timeout).1 = !store.live now key := by
  unfold Store.add
  cases store.live now key <;> rfl

theorem Store.add_of_live (store : Store Key Value) {now : Nat} {key : Key} (value : Value)
    (timeout : Nat) (alive : store.live now key = true) :
    store.add now key value timeout = (false, store) :=
  if_pos alive

theorem Store.add_of_not_live (store : Store Key Value) {now : Nat} {key : Key} (value : Value)
    (timeout : Nat) (dead : store.live now key = false) :
    store.add now key value timeout = (true, store.set now key value timeout) :=
  if_neg (by rw [dead]; exact Bool.false_ne_true)

theorem Store.add_other (store : Store Key Value) (now : Nat) {key other : Key} (value : Value)
    (timeout : Nat) (different : other ≠ key) :
    (store.add now key value timeout).2 other = store other := by
  cases alive : store.live now key with
  | true => rw [store.add_of_live value timeout alive]
  | false =>
      rw [store.add_of_not_live value timeout alive]
      exact store.set_other now value timeout different

/-- Only the entry of the key decides what `add` answers and what it leaves there. -/
theorem Store.add_congr {first second : Store Key Value} {key : Key}
    (same : first key = second key) (now : Nat) (value : Value) (timeout : Nat) :
    (first.add now key value timeout).1 = (second.add now key value timeout).1 ∧
      (first.add now key value timeout).2 key = (second.add now key value timeout).2 key := by
  have live : first.live now key = second.live now key := by
    unfold Store.live
    rw [same]
  rw [Store.add_fst, Store.add_fst, live]
  refine ⟨rfl, ?_⟩
  cases alive : second.live now key with
  | true =>
      rw [first.add_of_live value timeout (live.trans alive),
        second.add_of_live value timeout alive]
      exact same
  | false =>
      rw [first.add_of_not_live value timeout (live.trans alive),
        second.add_of_not_live value timeout alive]
      exact (first.set_self ..).trans (second.set_self ..).symm

end Stores

/-! ### The once-per-window gate -/

/-- One attempt of a numbered owner to pass the gate of a key. -/
structure Attempt (Key : Type) where
  owner : Nat
  key : Key
  time : Nat
  accepted : Bool
  deriving DecidableEq

section Gate

variable {Key : Type}

/-- An attempt passes exactly if no earlier accepted one for its key is less than a
window old. -/
def Exact (window : Nat) (attempts : List (Attempt Key)) : Prop :=
  ∀ older attempt newer, attempts = older ++ attempt :: newer →
    (attempt.accepted = true ↔ ∀ earlier ∈ older, earlier.key = attempt.key →
      earlier.accepted = true → ¬attempt.time < earlier.time + window)

theorem exact_nil (window : Nat) : Exact window ([] : List (Attempt Key)) := by
  intro older attempt newer impossible
  have length := congrArg List.length impossible
  rw [List.length_append, List.length_cons, List.length_nil] at length
  omega

theorem Exact.append {window : Nat} {attempts : List (Attempt Key)} (exact : Exact window attempts)
    (attempt : Attempt Key)
    (decided : attempt.accepted = true ↔ ∀ earlier ∈ attempts, earlier.key = attempt.key →
      earlier.accepted = true → ¬attempt.time < earlier.time + window) :
    Exact window (attempts ++ [attempt]) := by
  intro older current newer split
  rcases List.eq_nil_or_concat newer with empty | ⟨front, last, tail⟩
  · subst newer
    obtain ⟨sameOlder, sameLast⟩ := List.append_inj' split rfl
    cases sameLast
    rw [← sameOlder]
    exact decided
  · rw [tail, List.concat_eq_append, ← List.cons_append, ← List.append_assoc] at split
    exact exact older current front (List.append_inj' split rfl).1

theorem Exact.separated {window : Nat} {attempts : List (Attempt Key)}
    (exact : Exact window attempts) :
    attempts.Pairwise (fun earlier later => earlier.key = later.key →
      earlier.accepted = true → later.accepted = true → earlier.time + window ≤ later.time) := by
  induction attempts using List.reverseRecOn with
  | nil => exact List.Pairwise.nil
  | append_singleton front last ih =>
      rw [List.pairwise_append]
      refine ⟨?_, List.pairwise_singleton _ _, ?_⟩
      · apply ih
        intro older attempt newer split
        apply exact older attempt (newer ++ [last])
        rw [split, List.append_assoc, List.cons_append]
      · intro earlier member later isLast sameKey accepted passed
        rw [List.mem_singleton.mp isLast] at sameKey passed ⊢
        have clear := (exact front last [] rfl).mp passed earlier member sameKey accepted
        omega

theorem Exact.apart {window : Nat} {attempts : List (Attempt Key)} (exact : Exact window attempts)
    {winner other : Attempt Key} (present : winner ∈ attempts) (otherPresent : other ∈ attempts)
    (different : winner ≠ other) (sameKey : winner.key = other.key)
    (accepted : winner.accepted = true) (otherAccepted : other.accepted = true) :
    winner.time + window ≤ other.time ∨ other.time + window ≤ winner.time := by
  have either : attempts.Pairwise (fun first later => first.key = later.key →
      first.accepted = true → later.accepted = true →
        first.time + window ≤ later.time ∨ later.time + window ≤ first.time) :=
    exact.separated.imp (fun separated same first later => Or.inl (separated same first later))
  have symmetric : Std.Symm (fun first later : Attempt Key => first.key = later.key →
      first.accepted = true → later.accepted = true →
        first.time + window ≤ later.time ∨ later.time + window ≤ first.time) :=
    ⟨fun first later apart same passed laterPassed => (apart same.symm laterPassed passed).symm⟩
  exact either.forall present otherPresent different sameKey accepted otherAccepted

/-- Moments a window apart, within a span. -/
theorem length_le_of_separated {window : Nat} (positive : 0 < window) (times : List Nat)
    {since deadline : Nat}
    (separated : times.Pairwise (fun earlier later => earlier + window ≤ later))
    (within : ∀ time ∈ times, since ≤ time ∧ time ≤ deadline) :
    times.length ≤ (deadline - since) / window + 1 := by
  induction times generalizing since with
  | nil => exact Nat.zero_le _
  | cons first rest ih =>
      obtain ⟨beforeAll, restSeparated⟩ := List.pairwise_cons.mp separated
      obtain ⟨begins, ends⟩ := within first List.mem_cons_self
      cases rest with
      | nil => exact Nat.le_add_left 1 _
      | cons second others =>
          have gap := beforeAll second List.mem_cons_self
          have inside := (within second (List.mem_cons_of_mem _ List.mem_cons_self)).2
          have shorter := ih restSeparated (fun time member =>
            ⟨beforeAll time member, (within time (List.mem_cons_of_mem _ member)).2⟩)
          have room : (deadline - (first + window)) / window + 1 ≤ (deadline - since) / window := by
            rw [← Nat.add_div_right _ positive]
            exact Nat.div_le_div_right (by omega)
          rw [List.length_cons]
          omega

variable [DecidableEq Key]

/-- The accepted attempts for a key. -/
def passes (attempts : List (Attempt Key)) (key : Key) : List (Attempt Key) :=
  attempts.filter (fun attempt => attempt.key = key && attempt.accepted)

theorem mem_passes {attempts : List (Attempt Key)} {key : Key} {attempt : Attempt Key} :
    attempt ∈ passes attempts key ↔
      attempt ∈ attempts ∧ attempt.key = key ∧ attempt.accepted = true := by
  simp only [passes, List.mem_filter, Bool.and_eq_true, decide_eq_true_eq]

theorem Exact.passes_separated {window : Nat} {attempts : List (Attempt Key)}
    (exact : Exact window attempts) (key : Key) :
    ((passes attempts key).map Attempt.time).Pairwise
      (fun earlier later => earlier + window ≤ later) := by
  rw [List.pairwise_map]
  apply (List.Pairwise.and_mem.mp (exact.separated.filter _)).imp
  rintro first later ⟨passed, laterPassed, separated⟩
  obtain ⟨_, same, accepted⟩ := mem_passes.mp passed
  obtain ⟨_, laterSame, laterAccepted⟩ := mem_passes.mp laterPassed
  exact separated (same.trans laterSame.symm) accepted laterAccepted

/-- The rate at which a key passes. -/
theorem Exact.passes_within {window : Nat} {attempts : List (Attempt Key)}
    (exact : Exact window attempts) (positive : 0 < window) (key : Key) (since deadline : Nat) :
    (passes attempts key).countP (fun attempt => since ≤ attempt.time && attempt.time ≤ deadline) ≤
      (deadline - since) / window + 1 := by
  have chosen : ((passes attempts key).filter (fun attempt =>
      since ≤ attempt.time && attempt.time ≤ deadline)).map Attempt.time =
        ((passes attempts key).map Attempt.time).filter (fun time =>
          since ≤ time && time ≤ deadline) := by
    rw [List.filter_map]
    rfl
  rw [List.countP_eq_length_filter, ← List.length_map Attempt.time, chosen]
  apply length_le_of_separated positive _ ((exact.passes_separated key).filter _)
  intro time member
  have inside := (List.mem_filter.mp member).2
  rw [Bool.and_eq_true, decide_eq_true_eq, decide_eq_true_eq] at inside
  exact inside

def latest (attempts : List (Attempt Key)) (key : Key) : Option (Attempt Key) :=
  attempts.reverse.find? (fun attempt => attempt.key = key && attempt.accepted)

theorem latest_append (attempts : List (Attempt Key)) (attempt : Attempt Key) (key : Key) :
    latest (attempts ++ [attempt]) key =
      if attempt.key = key ∧ attempt.accepted = true then some attempt else latest attempts key := by
  unfold latest
  rw [List.reverse_append, List.reverse_singleton, List.singleton_append, List.find?_cons]
  by_cases chosen : attempt.key = key ∧ attempt.accepted = true
  · rw [if_pos chosen]
    simp only [chosen.1, chosen.2, decide_true, Bool.and_true]
  · rw [if_neg chosen]
    have skipped : (decide (attempt.key = key) && attempt.accepted) = false := by
      cases accepted : attempt.accepted with
      | false => exact Bool.and_false _
      | true =>
          rw [Bool.and_true, decide_eq_false_iff_not]
          exact fun same => chosen ⟨same, accepted⟩
    rw [skipped]

theorem latest_eq_some {attempts : List (Attempt Key)} {key : Key} {attempt : Attempt Key}
    (found : latest attempts key = some attempt) :
    attempt ∈ attempts ∧ attempt.key = key ∧ attempt.accepted = true := by
  have chosen := List.find?_some found
  rw [Bool.and_eq_true, decide_eq_true_eq] at chosen
  exact ⟨List.mem_reverse.mp (List.mem_of_find?_eq_some found), chosen.1, chosen.2⟩

theorem latest_eq_none {attempts : List (Attempt Key)} {key : Key}
    (absent : latest attempts key = none) :
    ∀ attempt ∈ attempts, attempt.key = key → attempt.accepted = true → False := by
  intro attempt member same accepted
  have skipped := List.find?_eq_none.mp absent attempt (List.mem_reverse.mpr member)
  rw [Bool.and_eq_true, decide_eq_true_eq] at skipped
  exact skipped ⟨same, accepted⟩

/-- The expiry times of the store are those of the latest accepted attempts, and the
attempts are in the order of a clock that has reached the present. -/
structure Tracks (window now : Nat) (attempts : List (Attempt Key)) (expiry : Key → Option Nat) :
    Prop where
  past : ∀ attempt ∈ attempts, attempt.time ≤ now
  ordered : attempts.Pairwise (fun earlier later => earlier.time ≤ later.time)
  remembered : ∀ key, expiry key = (latest attempts key).map (fun attempt => attempt.time + window)

def current (now : Nat) (expiry : Option Nat) : Bool :=
  match expiry with
  | none => false
  | some expires => now < expires

theorem tracks_nil (window now : Nat) :
    Tracks window now ([] : List (Attempt Key)) (fun _ => none) :=
  { past := fun attempt absent => by cases absent
    ordered := List.Pairwise.nil
    remembered := fun _ => rfl }

theorem Tracks.wait {window now later : Nat} {attempts : List (Attempt Key)}
    {expiry : Key → Option Nat} (tracks : Tracks window now attempts expiry) (after : now ≤ later) :
    Tracks window later attempts expiry :=
  { tracks with past := fun attempt member => Nat.le_trans (tracks.past attempt member) after }

theorem Tracks.latest_latest {window now : Nat} {attempts : List (Attempt Key)}
    {expiry : Key → Option Nat} (tracks : Tracks window now attempts expiry) {key : Key}
    {found : Attempt Key} (isLatest : latest attempts key = some found) :
    ∀ attempt ∈ attempts, attempt.key = key → attempt.accepted = true → attempt.time ≤ found.time := by
  have ordered := tracks.ordered
  clear tracks
  induction attempts using List.reverseRecOn with
  | nil => cases isLatest
  | append_singleton front last ih =>
      rw [latest_append] at isLatest
      rw [List.pairwise_append] at ordered
      obtain ⟨frontOrdered, _, beforeLast⟩ := ordered
      intro attempt member same accepted
      by_cases chosen : last.key = key ∧ last.accepted = true
      · rw [if_pos chosen] at isLatest
        cases isLatest
        rcases List.mem_append.mp member with earlier | isLast
        · exact beforeLast attempt earlier found (List.mem_singleton_self found)
        · exact Nat.le_of_eq (congrArg Attempt.time (List.mem_singleton.mp isLast))
      · rw [if_neg chosen] at isLatest
        rcases List.mem_append.mp member with earlier | isLast
        · exact ih isLatest frontOrdered attempt earlier same accepted
        · rw [List.mem_singleton.mp isLast] at same accepted
          exact False.elim (chosen ⟨same, accepted⟩)

/-- Reading the expiry of a key decides the next attempt for it exactly. -/
theorem Tracks.decides {window now : Nat} {attempts : List (Attempt Key)}
    {expiry : Key → Option Nat} (tracks : Tracks window now attempts expiry) (key : Key) :
    current now (expiry key) = false ↔ ∀ earlier ∈ attempts, earlier.key = key →
      earlier.accepted = true → ¬now < earlier.time + window := by
  rw [tracks.remembered key]
  cases isLatest : latest attempts key with
  | none =>
      constructor
      · intro _ earlier member same accepted
        exact False.elim (latest_eq_none isLatest earlier member same accepted)
      · intro _
        rfl
  | some found =>
      obtain ⟨present, foundKey, foundAccepted⟩ := latest_eq_some isLatest
      change decide (now < found.time + window) = false ↔ _
      rw [decide_eq_false_iff_not]
      constructor
      · intro expired earlier member same accepted
        have before := tracks.latest_latest isLatest earlier member same accepted
        omega
      · intro clear
        exact clear found present foundKey foundAccepted

private theorem Tracks.append_now {window now : Nat} {attempts : List (Attempt Key)}
    {expiry : Key → Option Nat} (tracks : Tracks window now attempts expiry)
    (attempt : Attempt Key) (present : attempt.time = now) :
    (∀ each ∈ attempts ++ [attempt], each.time ≤ now) ∧
      (attempts ++ [attempt]).Pairwise (fun earlier later => earlier.time ≤ later.time) := by
  constructor
  · intro each member
    rcases List.mem_append.mp member with earlier | isLast
    · exact tracks.past each earlier
    · rw [List.mem_singleton.mp isLast]
      exact Nat.le_of_eq present
  · rw [List.pairwise_append]
    refine ⟨tracks.ordered, List.pairwise_singleton _ _, ?_⟩
    intro earlier member later isLast
    rw [List.mem_singleton.mp isLast, present]
    exact tracks.past earlier member

theorem Tracks.accept {window now : Nat} {attempts : List (Attempt Key)}
    {expiry : Key → Option Nat} (tracks : Tracks window now attempts expiry) (owner : Nat) (key : Key) :
    Tracks window now (attempts ++ [⟨owner, key, now, true⟩])
      (fun other => if other = key then some (now + window) else expiry other) := by
  obtain ⟨past, ordered⟩ := tracks.append_now ⟨owner, key, now, true⟩ rfl
  refine ⟨past, ordered, ?_⟩
  intro other
  rw [latest_append]
  by_cases same : other = key
  · subst other
    simp only [and_self, if_true, Option.map_some]
  · rw [if_neg same, if_neg (fun chosen => same chosen.1.symm)]
    exact tracks.remembered other

theorem Tracks.refuse {window now : Nat} {attempts : List (Attempt Key)}
    {expiry : Key → Option Nat} (tracks : Tracks window now attempts expiry) (owner : Nat) (key : Key) :
    Tracks window now (attempts ++ [⟨owner, key, now, false⟩]) expiry := by
  obtain ⟨past, ordered⟩ := tracks.append_now ⟨owner, key, now, false⟩ rfl
  refine ⟨past, ordered, ?_⟩
  intro other
  rw [latest_append, if_neg (fun chosen => Bool.false_ne_true chosen.2)]
  exact tracks.remembered other

end Gate

/-! ### A store that keeps the gate -/

section Refinement

variable {Key Value Name : Type}

/-- The expiry times a store holds under the names of the keys. -/
def expiry (store : Store Name Value) (name : Key → Name) (key : Key) : Option Nat :=
  (store (name key)).map Entry.expires

theorem live_eq_current (store : Store Name Value) (name : Key → Name) (now : Nat) (key : Key) :
    store.live now (name key) = current now (expiry store name key) := by
  unfold Store.live expiry current
  cases store (name key) <;> rfl

variable [DecidableEq Name]

theorem expiry_set_foreign (store : Store Name Value) (name : Key → Name) (now : Nat)
    (foreign : Name) (value : Value) (timeout : Nat) (apart : ∀ key, name key ≠ foreign) :
    expiry (store.set now foreign value timeout) name = expiry store name := by
  funext key
  unfold expiry
  rw [store.set_other now value timeout (apart key)]

variable [DecidableEq Key]

theorem expiry_set (store : Store Name Value) (name : Key → Name)
    (injective : Function.Injective name) (now : Nat) (key : Key) (value : Value) (timeout : Nat) :
    expiry (store.set now (name key) value timeout) name =
      fun other => if other = key then some (now + timeout) else expiry store name other := by
  funext other
  unfold expiry
  by_cases same : other = key
  · subst other
    rw [store.set_self, if_pos rfl]
    rfl
  · rw [store.set_other now value timeout (fun equal => same (injective equal)), if_neg same]

/-- One `add` under the name of a key is one attempt at the gate of that key. -/
theorem add_keeps {window now : Nat} {attempts : List (Attempt Key)} {store : Store Name Value}
    (name : Key → Name) (injective : Function.Injective name)
    (exact : Exact window attempts) (tracks : Tracks window now attempts (expiry store name))
    (owner : Nat) (key : Key) (value : Value) :
    Exact window (attempts ++
        [⟨owner, key, now, (store.add now (name key) value window).1⟩]) ∧
      Tracks window now (attempts ++
        [⟨owner, key, now, (store.add now (name key) value window).1⟩])
        (expiry (store.add now (name key) value window).2 name) := by
  have decided := tracks.decides key
  rw [← live_eq_current store name now key] at decided
  constructor
  · apply exact.append
    rw [store.add_fst, Bool.not_eq_true']
    exact decided
  · cases alive : store.live now (name key) with
    | true =>
        rw [store.add_of_live value window alive]
        exact tracks.refuse owner key
    | false =>
        rw [store.add_of_not_live value window alive, expiry_set store name injective]
        exact tracks.accept owner key

end Refinement

end Bistland.Expiring
