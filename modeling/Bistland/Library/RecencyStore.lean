/-
Bounded caches kept in the order of their writes and reads. A write to a full cache
first drops the oldest entries, one part of them, and spares the latest of them; which
keys a cache holds that is only written to depends on the keys written alone.
-/

import Bistland.Library.ExpiringStore
import Mathlib.Data.List.Nodup
import Mathlib.Data.List.TakeDrop

namespace Bistland.Recency

open Expiring

/-! ### Limits -/

/-- A write that finds `maxEntries` entries drops one of every `cullFrequency`, or all of
them when the frequency is zero. -/
structure Limits where
  maxEntries : Nat
  cullFrequency : Nat

namespace Limits

def keep (limits : Limits) (length : Nat) : Nat :=
  if limits.cullFrequency = 0 then 0 else length - length / limits.cullFrequency

/-- How many of the latest entries every write spares. -/
def spared (limits : Limits) : Nat :=
  limits.keep limits.maxEntries

def culled {Item : Type} (limits : Limits) (items : List Item) : List Item :=
  if limits.maxEntries ≤ items.length then items.take (limits.keep items.length) else items

/-- The keys of a cache after one of them is written. -/
def push {Key : Type} [DecidableEq Key] (limits : Limits) (keys : List Key) (key : Key) :
    List Key :=
  key :: (limits.culled keys).filter (fun other => other ≠ key)

theorem keep_mono (limits : Limits) {shorter longer : Nat} (order : shorter ≤ longer) :
    limits.keep shorter ≤ limits.keep longer := by
  unfold keep
  split
  · exact Nat.le_refl 0
  · induction order with
    | refl => exact Nat.le_refl _
    | @step longer _ ih =>
        have oneMore : longer.succ / limits.cullFrequency ≤
            longer / limits.cullFrequency + 1 := by
          rw [Nat.succ_eq_add_one, Nat.succ_div]
          split <;> omega
        omega

section Items

variable {Item : Type}

theorem culled_sublist (limits : Limits) (items : List Item) :
    (limits.culled items).Sublist items := by
  unfold culled
  split
  · exact List.take_sublist _ _
  · exact List.Sublist.refl _

theorem culled_map {Image : Type} (limits : Limits) (image : Item → Image) (items : List Item) :
    (limits.culled items).map image = limits.culled (items.map image) := by
  unfold culled
  rw [List.length_map]
  split
  · exact List.map_take
  · rfl

theorem take_culled (limits : Limits) (items : List Item) {depth : Nat}
    (spared : depth ≤ limits.spared) : (limits.culled items).take depth = items.take depth := by
  unfold culled
  split
  · next full =>
      have enough := Nat.le_trans spared (limits.keep_mono full)
      rw [List.take_take, Nat.min_eq_left enough]
  · rfl

theorem mem_take_filter (keeps : Item → Bool) {item : Item} (kept : keeps item = true)
    {items : List Item} {depth : Nat} (member : item ∈ items.take depth) :
    item ∈ (items.filter keeps).take depth := by
  induction items generalizing depth with
  | nil => exact member
  | cons head tail ih =>
      cases depth with
      | zero => cases member
      | succ depth =>
          rw [List.take_succ_cons, List.mem_cons] at member
          rcases member with same | later
          · subst head
            rw [List.filter_cons_of_pos kept]
            exact List.mem_cons_self
          · cases keepsHead : keeps head with
            | true =>
                rw [List.filter_cons_of_pos keepsHead]
                exact List.mem_cons_of_mem head (ih later)
            | false =>
                rw [List.filter_cons_of_neg (by rw [keepsHead]; exact Bool.false_ne_true)]
                have deeper : tail.take depth <+: tail.take (depth + 1) :=
                  List.take_prefix_take_left (Nat.le_succ depth)
                exact ih (deeper.subset later)

end Items

section Keys

variable {Key Name : Type} [DecidableEq Key] [DecidableEq Name]

/-- A write moves a key at most one place back and drops none of the spared ones. -/
theorem mem_take_push (limits : Limits) {keys : List Key} {key : Key} {depth : Nat}
    (member : key ∈ keys.take depth) (spared : depth ≤ limits.spared) (written : Key) :
    key ∈ (limits.push keys written).take (depth + 1) := by
  unfold push
  rw [List.take_succ_cons]
  by_cases same : key = written
  · subst same
    exact List.mem_cons_self
  · apply List.mem_cons_of_mem
    rw [← limits.take_culled keys spared] at member
    exact mem_take_filter (fun other => other ≠ written) (decide_eq_true same) member

theorem push_map (limits : Limits) {name : Key → Name} (injective : Function.Injective name)
    (keys : List Key) (key : Key) :
    (limits.push keys key).map name = limits.push (keys.map name) (name key) := by
  unfold push
  rw [List.map_cons, ← limits.culled_map, List.filter_map]
  have sameTest : (fun other => decide (other ≠ key)) =
      (fun other : Name => decide (other ≠ name key)) ∘ name := by
    funext other
    exact decide_eq_decide.mpr injective.ne_iff.symm
  rw [sameTest]

end Keys

end Limits

/-! ### Caches -/

/-- The entries from the latest written to the oldest, with each key once. -/
structure Cache (Key Value : Type) where
  entries : List (Key × Entry Value)
  distinct : (entries.map Prod.fst).Nodup

namespace Cache

section Operations

variable {Key Value : Type}

def empty : Cache Key Value :=
  { entries := []
    distinct := List.nodup_nil }

def keys (cache : Cache Key Value) : List Key :=
  cache.entries.map Prod.fst

variable [DecidableEq Key]

def lookup (cache : Cache Key Value) : Store Key Value :=
  fun key => (cache.entries.find? (fun item => item.1 = key)).map Prod.snd

def set (limits : Limits) (cache : Cache Key Value) (now : Nat) (key : Key) (value : Value)
    (timeout : Nat) : Cache Key Value :=
  { entries :=
      (key, ⟨value, now + timeout⟩) ::
        (limits.culled cache.entries).filter (fun item => item.1 ≠ key)
    distinct := by
      rw [List.map_cons, List.nodup_cons]
      constructor
      · intro member
        obtain ⟨item, kept, same⟩ := List.mem_map.mp member
        exact of_decide_eq_true (List.mem_filter.mp kept).2 same
      · have shorter : ((limits.culled cache.entries).filter (fun item => item.1 ≠ key)).Sublist
            cache.entries := List.filter_sublist.trans (limits.culled_sublist cache.entries)
        exact cache.distinct.sublist (shorter.map Prod.fst) }

def live (cache : Cache Key Value) (now : Nat) (key : Key) : Bool :=
  cache.lookup.live now key

def add (limits : Limits) (cache : Cache Key Value) (now : Nat) (key : Key) (value : Value)
    (timeout : Nat) : Bool × Cache Key Value :=
  if cache.live now key then (false, cache)
  else (true, cache.set limits now key value timeout)

end Operations

section Lookup

variable {Key Value : Type} [DecidableEq Key]

theorem add_fst (limits : Limits) (cache : Cache Key Value) (now : Nat) (key : Key)
    (value : Value) (timeout : Nat) :
    (cache.add limits now key value timeout).1 = !cache.live now key := by
  unfold add
  cases cache.live now key <;> rfl

theorem add_snd (limits : Limits) (cache : Cache Key Value) (now : Nat) (key : Key)
    (value : Value) (timeout : Nat) :
    (cache.add limits now key value timeout).2 =
      if cache.live now key then cache else cache.set limits now key value timeout := by
  unfold add
  cases cache.live now key <;> rfl

theorem lookup_eq_some (cache : Cache Key Value) (key : Key) (entry : Entry Value) :
    cache.lookup key = some entry ↔ (key, entry) ∈ cache.entries := by
  obtain ⟨entries, distinct⟩ := cache
  unfold lookup
  induction entries with
  | nil => simp only [List.find?_nil, Option.map_none, reduceCtorEq, List.not_mem_nil]
  | cons head tail ih =>
      rw [List.map_cons, List.nodup_cons] at distinct
      by_cases same : head.1 = key
      · simp only [List.find?_cons, same, decide_true, Option.map_some, Option.some.injEq,
          List.mem_cons, Prod.ext_iff, true_and]
        constructor
        · intro found
          exact Or.inl found.symm
        · rintro (found | later)
          · exact found.symm
          · rw [same] at distinct
            exact False.elim (distinct.1 (List.mem_map.mpr ⟨(key, entry), later, rfl⟩))
      · simp only [List.find?_cons, same, decide_false, List.mem_cons]
        rw [ih distinct.2]
        constructor
        · exact Or.inr
        · rintro (found | later)
          · exact False.elim (same (congrArg Prod.fst found.symm))
          · exact later

theorem mem_keys (cache : Cache Key Value) (key : Key) :
    key ∈ cache.keys ↔ ∃ entry, cache.lookup key = some entry := by
  unfold keys
  rw [List.mem_map]
  constructor
  · intro ⟨item, present, same⟩
    subst key
    exact ⟨item.2, (cache.lookup_eq_some item.1 item.2).mpr present⟩
  · intro ⟨entry, found⟩
    exact ⟨(key, entry), (cache.lookup_eq_some key entry).mp found, rfl⟩

theorem live_eq_true (cache : Cache Key Value) (now : Nat) (key : Key) :
    cache.live now key = true ↔ ∃ entry, cache.lookup key = some entry ∧ now < entry.expires := by
  unfold live Store.live
  cases cache.lookup key with
  | none => simp only [Bool.false_eq_true, reduceCtorEq, false_and, exists_false]
  | some entry => simp only [decide_eq_true_eq, Option.some.injEq, exists_eq_left']

end Lookup

section Writes

variable {Key Value : Type} [DecidableEq Key] (limits : Limits) (cache : Cache Key Value)
  (now : Nat) (key : Key) (value : Value) (timeout : Nat)

theorem keys_set : (cache.set limits now key value timeout).keys = limits.push cache.keys key := by
  unfold keys set Limits.push
  rw [List.map_cons, ← limits.culled_map, List.filter_map]
  rfl

theorem lookup_set_self :
    (cache.set limits now key value timeout).lookup key = some ⟨value, now + timeout⟩ := by
  rw [lookup_eq_some]
  exact List.mem_cons_self

variable {limits cache now key value timeout}

theorem mem_keys_of_set {other : Key}
    (held : other ∈ (cache.set limits now key value timeout).keys) :
    other = key ∨ other ∈ cache.keys := by
  rw [keys_set] at held
  rcases List.mem_cons.mp held with same | earlier
  · exact Or.inl same
  · exact Or.inr ((limits.culled_sublist cache.keys).subset (List.mem_filter.mp earlier).1)

theorem lookup_of_set_other {other : Key} {entry : Entry Value}
    (found : (cache.set limits now key value timeout).lookup other = some entry)
    (different : other ≠ key) : cache.lookup other = some entry := by
  rw [lookup_eq_some] at found ⊢
  have kept := (List.mem_cons.mp found).resolve_left
    (fun same => different (congrArg Prod.fst same))
  exact (limits.culled_sublist cache.entries).subset (List.mem_filter.mp kept).1

end Writes

/-! ### Reads -/

section Reads

variable {Key Value : Type} [DecidableEq Key]

def remove (cache : Cache Key Value) (key : Key) : Cache Key Value :=
  { entries := cache.entries.filter (fun item => item.1 ≠ key)
    distinct := cache.distinct.sublist (List.filter_sublist.map Prod.fst) }

/-- An entry that is read becomes the latest. -/
def refresh (cache : Cache Key Value) (key : Key) (entry : Entry Value) : Cache Key Value :=
  { entries := (key, entry) :: (cache.remove key).entries
    distinct := by
      rw [List.map_cons, List.nodup_cons]
      refine ⟨?_, (cache.remove key).distinct⟩
      intro member
      obtain ⟨item, kept, same⟩ := List.mem_map.mp member
      exact of_decide_eq_true (List.mem_filter.mp kept).2 same }

/-- A read that finds an expired entry removes it. -/
def get (cache : Cache Key Value) (now : Nat) (key : Key) : Option Value × Cache Key Value :=
  match cache.lookup key with
  | none => (none, cache)
  | some entry =>
      if now < entry.expires then (some entry.value, cache.refresh key entry)
      else (none, cache.remove key)

theorem keys_remove (cache : Cache Key Value) (key : Key) :
    (cache.remove key).keys = cache.keys.filter (fun other => other ≠ key) := by
  unfold keys remove
  rw [List.filter_map]
  rfl

theorem keys_refresh (cache : Cache Key Value) (key : Key) (entry : Entry Value) :
    (cache.refresh key entry).keys = key :: cache.keys.filter (fun other => other ≠ key) := by
  rw [← keys_remove]
  rfl

theorem lookup_of_remove {cache : Cache Key Value} {key other : Key} {entry : Entry Value}
    (found : (cache.remove key).lookup other = some entry) : cache.lookup other = some entry := by
  rw [lookup_eq_some] at found ⊢
  exact (List.mem_filter.mp found).1

/-- What a read does to the cache. -/
inductive Read (cache : Cache Key Value) (key : Key) : Cache Key Value → Prop
  | missed : Read cache key cache
  | expired : Read cache key (cache.remove key)
  | hit {entry : Entry Value} (found : cache.lookup key = some entry) :
      Read cache key (cache.refresh key entry)

theorem get_cases (cache : Cache Key Value) (now : Nat) (key : Key) :
    Read cache key (cache.get now key).2 := by
  unfold get
  split
  · exact Read.missed
  · next found =>
      split
      · exact Read.hit found
      · exact Read.expired

theorem Read.lookup {cache after : Cache Key Value} {key other : Key} {entry : Entry Value}
    (read : Read cache key after) (found : after.lookup other = some entry) :
    cache.lookup other = some entry := by
  cases read with
  | missed => exact found
  | expired => exact lookup_of_remove found
  | hit present =>
      rw [lookup_eq_some] at found
      rcases List.mem_cons.mp found with same | earlier
      · cases same
        exact present
      · exact lookup_of_remove (((cache.remove key).lookup_eq_some other entry).mpr earlier)

theorem Read.keys_subset {cache after : Cache Key Value} {key : Key} (read : Read cache key after) :
    after.keys ⊆ cache.keys := by
  intro other member
  obtain ⟨entry, found⟩ := (after.mem_keys other).mp member
  exact (cache.mem_keys other).mpr ⟨entry, read.lookup found⟩

end Reads

end Cache

/-! ### The place of a key -/

/-- No more than so many of the counted keys stand before the key. -/
def Recent {Key : Type} (counted : Key → Bool) (keys : List Key) (key : Key) (depth : Nat) :
    Prop :=
  ∃ ahead behind, keys = ahead ++ key :: behind ∧ ahead.countP counted ≤ depth

namespace Recent

variable {Key : Type} {counted : Key → Bool} {keys : List Key} {key : Key} {depth : Nat}

theorem first (key : Key) (keys : List Key) (depth : Nat) :
    Recent counted (key :: keys) key depth :=
  ⟨[], keys, rfl, Nat.zero_le depth⟩

theorem mem (recent : Recent counted keys key depth) : key ∈ keys := by
  obtain ⟨ahead, behind, rfl, _⟩ := recent
  exact List.mem_append_right ahead List.mem_cons_self

theorem mono (recent : Recent counted keys key depth) {deeper : Nat} (order : depth ≤ deeper) :
    Recent counted keys key deeper := by
  obtain ⟨ahead, behind, split, few⟩ := recent
  exact ⟨ahead, behind, split, Nat.le_trans few order⟩

theorem cons (recent : Recent counted keys key depth) (written : Key) :
    Recent counted (written :: keys) key (depth + if counted written then 1 else 0) := by
  obtain ⟨ahead, behind, rfl, few⟩ := recent
  refine ⟨written :: ahead, behind, rfl, ?_⟩
  rw [List.countP_cons]
  exact Nat.add_le_add_right few _

theorem filter (recent : Recent counted keys key depth) {keeps : Key → Bool}
    (kept : keeps key = true) : Recent counted (keys.filter keeps) key depth := by
  obtain ⟨ahead, behind, rfl, few⟩ := recent
  refine ⟨ahead.filter keeps, behind.filter keeps, ?_, ?_⟩
  · rw [List.filter_append, List.filter_cons_of_pos kept]
  · exact Nat.le_trans (List.filter_sublist.countP_le) few

/-- The counted keys before a key and all the keys that are not counted are its whole depth. -/
theorem culled (recent : Recent counted keys key depth) {limits : Limits}
    (spared : depth + keys.countP (fun other => !counted other) < limits.spared) :
    Recent counted (limits.culled keys) key depth := by
  obtain ⟨ahead, behind, rfl, few⟩ := recent
  have whole : ahead.length = ahead.countP counted + ahead.countP (fun other => !counted other) := by
    rw [List.length_eq_countP_add_countP counted, Nat.add_left_cancel_iff]
    exact List.countP_congr (fun other _ => by simp)
  have others : ahead.countP (fun other => !counted other) ≤
      (ahead ++ key :: behind).countP (fun other => !counted other) :=
    (List.sublist_append_left ahead (key :: behind)).countP_le
  have shallow : ahead.length < limits.spared := by omega
  unfold Limits.culled
  split
  · next full =>
      have enough := Nat.lt_of_lt_of_le shallow (limits.keep_mono full)
      refine ⟨ahead, behind.take (limits.keep (ahead ++ key :: behind).length - ahead.length - 1),
        ?_, few⟩
      rw [List.take_append, List.take_of_length_le (Nat.le_of_lt enough),
        List.take_cons (by omega)]
  · exact ⟨ahead, behind, rfl, few⟩

section Moves

variable [DecidableEq Key] {written : Key}

theorem push (recent : Recent counted keys key depth) (different : key ≠ written) {limits : Limits}
    (spared : depth + keys.countP (fun other => !counted other) < limits.spared) :
    Recent counted (limits.push keys written) key (depth + if counted written then 1 else 0) :=
  ((recent.culled spared).filter (decide_eq_true different)).cons written

theorem read {Value : Type} {cache after : Cache Key Value}
    (recent : Recent counted cache.keys key depth) (different : key ≠ written)
    (taken : cache.Read written after) :
    Recent counted after.keys key (depth + if counted written then 1 else 0) := by
  have kept : Recent counted (cache.keys.filter (fun other => other ≠ written)) key depth :=
    recent.filter (decide_eq_true different)
  cases taken with
  | missed => exact recent.mono (Nat.le_add_right _ _)
  | expired =>
      rw [Cache.keys_remove]
      exact kept.mono (Nat.le_add_right _ _)
  | hit found =>
      rw [Cache.keys_refresh]
      exact kept.cons written

end Moves

end Recent

end Bistland.Recency
