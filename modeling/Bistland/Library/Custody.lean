/-
Items that wait in a queue, are taken by holders and end as done or lost. Every
move keeps the account: what has entered is in exactly one of the four places,
as often as it entered.
-/

import Mathlib.Data.List.Perm.Basic

namespace Bistland.Custody

variable {Holder Item : Type}

def holdings (held : Holder → Option Item) (holders : List Holder) : List Item :=
  holders.filterMap held

def Accounted (held : Holder → Option Item) (queue : List Item) (holders : List Holder)
    (done lost entered : List Item) : Prop :=
  (queue ++ holdings held holders ++ done ++ lost).Perm entered

section Rules

variable {held : Holder → Option Item} {queue done lost entered : List Item}
  {holders : List Holder}

theorem holdings_cons (held : Holder → Option Item) (holder : Holder) (holders : List Holder) :
    holdings held (holder :: holders) = (held holder).toList ++ holdings held holders := by
  unfold holdings
  cases carried : held holder with
  | none =>
      rw [List.filterMap_cons_none carried]
      rfl
  | some item =>
      rw [List.filterMap_cons_some carried]
      rfl

theorem accounted_nil (held : Holder → Option Item) : Accounted held [] [] [] [] [] :=
  List.Perm.nil

theorem Accounted.settled (accounted : Accounted held [] holders done lost entered)
    (free : holdings held holders = []) : (done ++ lost).Perm entered := by
  unfold Accounted at accounted
  rw [free] at accounted
  exact accounted

theorem Accounted.entered_of_done (accounted : Accounted held queue holders done lost entered)
    {item : Item} (member : item ∈ done) : item ∈ entered :=
  accounted.mem_iff.mp (List.mem_append_left _ (List.mem_append_right _ member))

theorem Accounted.entered_of_held (accounted : Accounted held queue holders done lost entered)
    {item : Item} (member : item ∈ holdings held holders) : item ∈ entered :=
  accounted.mem_iff.mp
    (List.mem_append_left _ (List.mem_append_left _ (List.mem_append_right _ member)))

theorem Accounted.countP (accounted : Accounted held queue holders done lost entered)
    (counted : Item → Bool) :
    queue.countP counted + (holdings held holders).countP counted + done.countP counted +
      lost.countP counted = entered.countP counted := by
  have total := accounted.countP_eq counted
  simp only [List.countP_append] at total
  exact total

theorem mem_holdings {index : Nat} {holder : Holder} (found : holders[index]? = some holder)
    {item : Item} (carries : held holder = some item) : item ∈ holdings held holders :=
  List.mem_filterMap.mpr ⟨holder, List.mem_of_getElem? found, carries⟩

theorem Accounted.hire (accounted : Accounted held queue holders done lost entered)
    (holder : Holder) (free : held holder = none) :
    Accounted held queue (holders ++ [holder]) done lost entered := by
  unfold Accounted holdings
  rw [List.filterMap_append, List.filterMap_cons_none free, List.filterMap_nil, List.append_nil]
  exact accounted

variable [DecidableEq Item]

theorem accounted_iff : Accounted held queue holders done lost entered ↔ ∀ item,
    queue.count item + (holdings held holders).count item + done.count item + lost.count item =
      entered.count item := by
  unfold Accounted
  rw [List.perm_iff_count]
  simp only [List.count_append]

/-- A holder that changes gives its old item away and carries its new one. -/
theorem count_holdings_set {index : Nat} {old : Holder} (found : holders[index]? = some old)
    (new : Holder) (item : Item) :
    (holdings held (holders.set index new)).count item + (held old).toList.count item =
      (holdings held holders).count item + (held new).toList.count item := by
  induction holders generalizing index with
  | nil => cases found
  | cons first rest ih =>
      cases index with
      | zero =>
          cases found
          rw [List.set_cons_zero, holdings_cons, holdings_cons, List.count_append,
            List.count_append]
          omega
      | succ index =>
          have later := ih found
          rw [List.set_cons_succ, holdings_cons, holdings_cons, List.count_append,
            List.count_append]
          omega

theorem count_eraseIdx {position : Nat} {taken : Item} (waiting : queue[position]? = some taken)
    (item : Item) :
    (queue.eraseIdx position).count item + [taken].count item = queue.count item := by
  obtain ⟨bound, rfl⟩ := List.getElem?_eq_some_iff.mp waiting
  rw [← (List.getElem_cons_eraseIdx_perm bound).count_eq item, List.count_cons, List.count_cons,
    List.count_nil]
  omega

theorem Accounted.enter (accounted : Accounted held queue holders done lost entered)
    (items : List Item) : Accounted held (queue ++ items) holders done lost (entered ++ items) := by
  rw [accounted_iff] at accounted ⊢
  intro item
  have before := accounted item
  rw [List.count_append, List.count_append]
  omega

variable {index : Nat} {old : Holder}

theorem Accounted.keep (accounted : Accounted held queue holders done lost entered)
    (found : holders[index]? = some old) (new : Holder) (same : held new = held old) :
    Accounted held queue (holders.set index new) done lost entered := by
  rw [accounted_iff] at accounted ⊢
  intro item
  have before := accounted item
  have moved : (holdings held (holders.set index new)).count item + _ = _ :=
    count_holdings_set found new item
  rw [same] at moved
  omega

theorem Accounted.take (accounted : Accounted held queue holders done lost entered)
    (found : holders[index]? = some old) (free : held old = none) {position : Nat} {taken : Item}
    (waiting : queue[position]? = some taken) (new : Holder) (carries : held new = some taken) :
    Accounted held (queue.eraseIdx position) (holders.set index new) done lost entered := by
  rw [accounted_iff] at accounted ⊢
  intro item
  have before := accounted item
  have moved : (holdings held (holders.set index new)).count item + _ = _ :=
    count_holdings_set found new item
  have removed := count_eraseIdx waiting item
  rw [free, carries, Option.toList_none, Option.toList_some, List.count_nil] at moved
  omega

private theorem count_given {given : Item} (found : holders[index]? = some old)
    (carried : held old = some given) (new : Holder) (free : held new = none) (item : Item) :
    (holdings held (holders.set index new)).count item + [given].count item =
      (holdings held holders).count item := by
  have moved : (holdings held (holders.set index new)).count item + _ = _ :=
    count_holdings_set found new item
  rw [carried, free, Option.toList_none, Option.toList_some, List.count_nil] at moved
  exact moved

section Given

variable {given : Item} (accounted : Accounted held queue holders done lost entered)
  (found : holders[index]? = some old) (carried : held old = some given)
  (new : Holder) (free : held new = none)

include accounted found carried free

theorem Accounted.giveBack :
    Accounted held (queue ++ [given]) (holders.set index new) done lost entered := by
  rw [accounted_iff] at accounted ⊢
  intro item
  have before := accounted item
  have moved := count_given found carried new free item
  rw [List.count_append]
  omega

theorem Accounted.complete :
    Accounted held queue (holders.set index new) (done ++ [given]) lost entered := by
  rw [accounted_iff] at accounted ⊢
  intro item
  have before := accounted item
  have moved := count_given found carried new free item
  rw [List.count_append]
  omega

theorem Accounted.lose :
    Accounted held queue (holders.set index new) done (lost ++ [given]) entered := by
  rw [accounted_iff] at accounted ⊢
  intro item
  have before := accounted item
  have moved := count_given found carried new free item
  rw [List.count_append]
  omega

end Given

end Rules

end Bistland.Custody
