/-
Some owners of a numbered list, renumbered among themselves. The rank of an owner is the
number of chosen ones before it; what happens to the list happens to its chosen part at the
rank, or does not show there.
-/

import Mathlib.Data.List.Basic

namespace Bistland.Selection

variable {Owner : Type} (chosen : Owner → Bool)

/-- The number under which the chosen owner at an index is known among the chosen ones. -/
def rank (owners : List Owner) (index : Nat) : Nat :=
  (owners.take index).countP chosen

section Rules

variable {chosen} {owners : List Owner} {index : Nat} {old : Owner}

theorem filter_at_rank (found : owners[index]? = some old) (isChosen : chosen old = true) :
    (owners.filter chosen)[rank chosen owners index]? = some old := by
  induction owners generalizing index with
  | nil => cases found
  | cons first rest ih =>
      cases index with
      | zero =>
          cases found
          rw [List.filter_cons_of_pos isChosen]
          rfl
      | succ index =>
          have later := ih found
          unfold rank at later ⊢
          rw [List.take_succ_cons]
          by_cases kept : chosen first = true
          · rw [List.filter_cons_of_pos kept, List.countP_cons_of_pos kept, List.getElem?_cons_succ]
            exact later
          · rw [List.filter_cons_of_neg kept, List.countP_cons_of_neg kept]
            exact later

/-- What a list keeps of an item stands at the rank of the item. -/
theorem filterMap_at_rank {Kept : Type} {keep : Owner → Option Kept} {kept : Kept}
    (found : owners[index]? = some old) (keeps : keep old = some kept) :
    (owners.filterMap keep)[rank (fun owner => (keep owner).isSome) owners index]? =
      some kept := by
  obtain ⟨inside, same⟩ := List.getElem?_eq_some_iff.mp found
  have split := List.take_append_drop index owners
  rw [List.drop_eq_getElem_cons inside, same] at split
  have whole : owners.filterMap keep = (owners.take index).filterMap keep ++
      kept :: (owners.drop (index + 1)).filterMap keep := by
    rw [← List.filterMap_cons_some keeps, ← List.filterMap_append, split]
  unfold rank
  rw [whole, ← List.length_filterMap_eq_countP, List.getElem?_append_right (Nat.le_refl _),
    Nat.sub_self]
  rfl

theorem filter_set_chosen (found : owners[index]? = some old) (isChosen : chosen old = true)
    (new : Owner) (stays : chosen new = true) :
    (owners.set index new).filter chosen =
      (owners.filter chosen).set (rank chosen owners index) new := by
  induction owners generalizing index with
  | nil => cases found
  | cons first rest ih =>
      cases index with
      | zero =>
          cases found
          rw [List.set_cons_zero, List.filter_cons_of_pos stays, List.filter_cons_of_pos isChosen]
          rfl
      | succ index =>
          have later := ih found
          unfold rank at later ⊢
          rw [List.set_cons_succ, List.take_succ_cons]
          by_cases kept : chosen first = true
          · rw [List.filter_cons_of_pos kept, List.filter_cons_of_pos kept,
              List.countP_cons_of_pos kept, List.set_cons_succ, later]
          · rw [List.filter_cons_of_neg kept, List.filter_cons_of_neg kept,
              List.countP_cons_of_neg kept, later]

theorem filter_set_other (found : owners[index]? = some old) (notChosen : chosen old = false)
    (new : Owner) (stays : chosen new = false) :
    (owners.set index new).filter chosen = owners.filter chosen := by
  induction owners generalizing index with
  | nil => rfl
  | cons first rest ih =>
      cases index with
      | zero =>
          cases found
          rw [List.set_cons_zero, List.filter_cons_of_neg (by rw [stays]; exact Bool.false_ne_true),
            List.filter_cons_of_neg (by rw [notChosen]; exact Bool.false_ne_true)]
      | succ index =>
          rw [List.set_cons_succ, List.filter_cons, List.filter_cons, ih found]

theorem filter_concat_chosen {last : Owner} (isChosen : chosen last = true) :
    (owners ++ [last]).filter chosen = owners.filter chosen ++ [last] := by
  rw [List.filter_append, List.filter_cons_of_pos isChosen, List.filter_nil]

theorem filter_concat_other {last : Owner} (notChosen : chosen last = false) :
    (owners ++ [last]).filter chosen = owners.filter chosen := by
  rw [List.filter_append, List.filter_cons_of_neg (by rw [notChosen]; exact Bool.false_ne_true),
    List.filter_nil, List.append_nil]

/-- An owner that changes and stays what it is for the choice renumbers nobody. -/
theorem rank_set (chosen : Owner → Bool) (found : owners[index]? = some old) {new : Owner}
    (same : chosen new = chosen old) (other : Nat) :
    rank chosen (owners.set index new) other = rank chosen owners other := by
  induction owners generalizing index other with
  | nil => rfl
  | cons first rest ih =>
      cases other with
      | zero => rfl
      | succ other =>
          unfold rank at ih ⊢
          cases index with
          | zero =>
              cases found
              rw [List.set_cons_zero, List.take_succ_cons, List.take_succ_cons, List.countP_cons,
                List.countP_cons, same]
          | succ index =>
              rw [List.set_cons_succ, List.take_succ_cons, List.take_succ_cons, List.countP_cons,
                List.countP_cons, ih found]

theorem rank_append {other : Nat} (inside : other ≤ owners.length) (later : List Owner) :
    rank chosen (owners ++ later) other = rank chosen owners other := by
  unfold rank
  rw [List.take_append_of_le_length inside]

end Rules

end Bistland.Selection
