/-
Items posted by numbered owners. An account says which list of items an owner
may have posted; the rules say how accounts survive a new owner, an owner that
changes without posting, and an owner that changes while it posts. Totals over
all items are then sums over the owners.
-/

import Mathlib.Algebra.BigOperators.Group.Finset.Basic
import Mathlib.Algebra.BigOperators.Group.Finset.Piecewise
import Mathlib.Algebra.GroupWithZero.Nat

namespace Bistland.OwnerAccounts

variable {Owner Item View : Type}

/-- What the owner at an index posted, in the order of posting. -/
def postedBy (owner : Item → Nat) (items : List Item) (index : Nat) : List Item :=
  items.filter (fun item => owner item = index)

/-- Every item has an existing owner, and each owner's items meet its account. -/
structure Settled (owner : Item → Nat) (view : Item → View)
    (Account : Owner → List View → Prop) (owners : List Owner) (items : List Item) : Prop where
  owned : ∀ item ∈ items, owner item < owners.length
  account : ∀ index holder, owners[index]? = some holder →
    Account holder ((postedBy owner items index).map view)

section Rules

variable {owner : Item → Nat} {view : Item → View} {Account : Owner → List View → Prop}
  {owners : List Owner} {items : List Item}

theorem postedBy_append (items later : List Item) (index : Nat) :
    postedBy owner (items ++ later) index = postedBy owner items index ++ postedBy owner later index :=
  List.filter_append ..

theorem postedBy_self (later : List Item) (index : Nat) (own : ∀ item ∈ later, owner item = index) :
    postedBy owner later index = later :=
  List.filter_eq_self.mpr (fun item member => decide_eq_true (own item member))

theorem postedBy_other (later : List Item) (index other : Nat) (different : other ≠ index)
    (own : ∀ item ∈ later, owner item = index) : postedBy owner later other = [] := by
  apply List.filter_eq_nil_iff.mpr
  intro item member
  rw [own item member, decide_eq_true_eq]
  exact fun same => different same.symm

theorem settled_nil : Settled owner view Account [] [] :=
  { owned := fun item absent => by cases absent
    account := fun index holder absent => by cases absent }

theorem Settled.nil_of_absent (settled : Settled owner view Account owners items) {index : Nat}
    (absent : owners[index]? = none) : postedBy owner items index = [] := by
  apply List.filter_eq_nil_iff.mpr
  intro item member
  have bound := settled.owned item member
  have beyond := List.getElem?_eq_none_iff.mp absent
  rw [decide_eq_true_eq]
  omega

theorem Settled.arrive (settled : Settled owner view Account owners items) (holder : Owner)
    (fresh : Account holder []) : Settled owner view Account (owners ++ [holder]) items := by
  refine ⟨?_, ?_⟩
  · intro item member
    have bound := settled.owned item member
    rw [List.length_append, List.length_singleton]
    omega
  · intro index other found
    rcases Nat.lt_or_ge index owners.length with within | beyond
    · rw [List.getElem?_append_left within] at found
      exact settled.account index other found
    · rw [List.getElem?_append_right beyond] at found
      have last : index = owners.length := by
        have bound := (List.getElem?_eq_some_iff.mp found).1
        rw [List.length_singleton] at bound
        omega
      subst last
      rw [Nat.sub_self] at found
      have same : holder = other := Option.some.inj found
      rw [settled.nil_of_absent (List.getElem?_eq_none (Nat.le_refl _)), ← same]
      exact fresh

theorem Settled.post (settled : Settled owner view Account owners items) {index : Nat}
    {holder : Owner} (found : owners[index]? = some holder) (changed : Owner) (later : List Item)
    (own : ∀ item ∈ later, owner item = index)
    (moved : ∀ posted, Account holder posted → Account changed (posted ++ later.map view)) :
    Settled owner view Account (owners.set index changed) (items ++ later) := by
  have bound : index < owners.length := (List.getElem?_eq_some_iff.mp found).1
  refine ⟨?_, ?_⟩
  · intro item member
    rw [List.length_set]
    rcases List.mem_append.mp member with earlier | new
    · exact settled.owned item earlier
    · rw [own item new]
      exact bound
  · intro other current at_
    rw [postedBy_append, List.map_append]
    by_cases same : other = index
    · subst other
      rw [List.getElem?_set_self bound] at at_
      cases at_
      rw [postedBy_self later index own]
      exact moved _ (settled.account index holder found)
    · rw [List.getElem?_set_ne (fun equal => same equal.symm)] at at_
      rw [postedBy_other later index other same own, List.map_nil, List.append_nil]
      exact settled.account other current at_

theorem Settled.change (settled : Settled owner view Account owners items) {index : Nat}
    {holder : Owner} (found : owners[index]? = some holder) (changed : Owner)
    (moved : ∀ posted, Account holder posted → Account changed posted) :
    Settled owner view Account (owners.set index changed) items := by
  have posted := settled.post found changed []
    (fun item absent => by cases absent)
    (fun posted held => by rw [List.map_nil, List.append_nil]; exact moved posted held)
  rw [List.append_nil] at posted
  exact posted

theorem Settled.holder_of_mem (settled : Settled owner view Account owners items) {item : Item}
    (member : item ∈ items) : ∃ holder, owners[owner item]? = some holder ∧
      item ∈ postedBy owner items (owner item) := by
  have bound := settled.owned item member
  exact ⟨owners[owner item], List.getElem?_eq_getElem bound,
    List.mem_filter.mpr ⟨member, decide_eq_true rfl⟩⟩

theorem pairwise_owner_ne (counted : Item → Bool)
    (once : ∀ index, (postedBy owner items index).countP counted ≤ 1) :
    items.Pairwise (fun earlier later => counted earlier = true → counted later = true →
      owner earlier ≠ owner later) := by
  induction items with
  | nil => exact List.Pairwise.nil
  | cons item rest ih =>
      apply List.pairwise_cons.mpr
      constructor
      · intro later member firstCounted laterCounted same
        have bound := once (owner item)
        have kept : postedBy owner (item :: rest) (owner item) =
            item :: postedBy owner rest (owner item) :=
          List.filter_cons_of_pos (decide_eq_true rfl)
        have present : later ∈ postedBy owner rest (owner item) :=
          List.mem_filter.mpr ⟨member, decide_eq_true same.symm⟩
        have positive := List.countP_pos_iff.mpr ⟨later, present, laterCounted⟩
        rw [kept, List.countP_cons_of_pos firstCounted] at bound
        omega
      · apply ih
        intro index
        have bound := once index
        have sublist : (postedBy owner rest index).Sublist (postedBy owner (item :: rest) index) :=
          List.Sublist.filter _ (List.sublist_cons_self item rest)
        exact Nat.le_trans (sublist.countP_le) bound

theorem countP_by_owner (counted : Item → Bool) (size : Nat)
    (owned : ∀ item ∈ items, owner item < size) :
    items.countP counted =
      ∑ index ∈ Finset.range size, (postedBy owner items index).countP counted := by
  induction items with
  | nil => simp only [postedBy, List.filter_nil, List.countP_nil, Finset.sum_const_zero]
  | cons item rest ih =>
      have split : ∀ index, (postedBy owner (item :: rest) index).countP counted =
          (postedBy owner rest index).countP counted +
            if index = owner item then (if counted item then 1 else 0) else 0 := by
        intro index
        by_cases same : owner item = index
        · have kept : postedBy owner (item :: rest) index = item :: postedBy owner rest index :=
            List.filter_cons_of_pos (decide_eq_true same)
          rw [kept, List.countP_cons, if_pos same.symm]
        · have dropped : postedBy owner (item :: rest) index = postedBy owner rest index :=
            List.filter_cons_of_neg (by rw [decide_eq_true_eq]; exact same)
          rw [dropped, if_neg (fun equal => same equal.symm), Nat.add_zero]
      simp only [split, Finset.sum_add_distrib, Finset.sum_ite_eq', Finset.mem_range,
        owned item List.mem_cons_self, if_true]
      rw [List.countP_cons, ih (fun later member => owned later (List.mem_cons_of_mem item member))]

/-- The items are those of all owners together. -/
theorem perm_postedBy [DecidableEq Item] (size : Nat) (owned : ∀ item ∈ items, owner item < size) :
    items.Perm ((List.range size).flatMap (postedBy owner items)) := by
  apply List.perm_iff_count.mpr
  intro item
  rw [List.count_flatMap, List.count_eq_countP, countP_by_owner (· == item) size owned]
  rfl

private theorem sum_range_weight (weight : Owner → Nat) (amount : Nat → Nat)
    (agrees : ∀ index holder, owners[index]? = some holder → amount index = weight holder) :
    ∑ index ∈ Finset.range owners.length, amount index = (owners.map weight).sum := by
  induction owners using List.reverseRecOn with
  | nil => rfl
  | append_singleton front last ih =>
      rw [List.length_append, List.length_singleton, Finset.sum_range_succ, List.map_append,
        List.sum_append, List.map_singleton, List.sum_singleton]
      have lastAgrees := agrees front.length last (by
        rw [List.getElem?_append_right (Nat.le_refl _), Nat.sub_self]
        rfl)
      have frontAgrees := ih (by
        intro index holder found
        apply agrees index holder
        rw [List.getElem?_append_left (List.getElem?_eq_some_iff.mp found).1]
        exact found)
      rw [frontAgrees, lastAgrees]

/-- A total over all items is the sum of what the accounts fix for the owners. -/
theorem Settled.countP (settled : Settled owner view Account owners items)
    (counted : View → Bool) (weight : Owner → Nat)
    (fixed : ∀ (index : Nat) (holder : Owner) (posted : List View),
      owners[index]? = some holder → Account holder posted →
        posted.countP counted = weight holder) :
    items.countP (fun item => counted (view item)) = (owners.map weight).sum := by
  rw [countP_by_owner (fun item => counted (view item)) owners.length settled.owned]
  apply sum_range_weight
  intro index holder found
  have held := fixed index holder _ found (settled.account index holder found)
  rw [← held, List.countP_map]
  rfl

end Rules

section Totals

variable (owners : List Owner)

theorem sum_map_indicator (counted : Owner → Bool) :
    (owners.map (fun holder => if counted holder then 1 else 0)).sum = owners.countP counted := by
  induction owners with
  | nil => rfl
  | cons holder rest ih =>
      rw [List.map_cons, List.sum_cons, ih, List.countP_cons, Nat.add_comm]

theorem sum_map_add (first second : Owner → Nat) :
    (owners.map (fun holder => first holder + second holder)).sum =
      (owners.map first).sum + (owners.map second).sum := by
  induction owners with
  | nil => rfl
  | cons holder rest ih =>
      simp only [List.map_cons, List.sum_cons, ih]
      omega

/-- An owner that changes gives its old share away and adds its new one. -/
theorem sum_map_set (weight : Owner → Nat) {owners : List Owner} {index : Nat} {old : Owner}
    (found : owners[index]? = some old) (new : Owner) :
    ((owners.set index new).map weight).sum + weight old =
      (owners.map weight).sum + weight new := by
  induction owners generalizing index with
  | nil => cases found
  | cons holder rest ih =>
      cases index with
      | zero =>
          cases found
          simp only [List.set_cons_zero, List.map_cons, List.sum_cons]
          omega
      | succ index =>
          have later := ih found
          simp only [List.set_cons_succ, List.map_cons, List.sum_cons]
          omega

end Totals

end Bistland.OwnerAccounts
