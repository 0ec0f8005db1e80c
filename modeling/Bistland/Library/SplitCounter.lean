/-
A counter held in parts by several holders, and a log of readings of it. A reading shows
one part; it shows the whole count exactly if the other parts are zero.
-/

import Mathlib.Algebra.Order.BigOperators.Group.Finset

namespace Bistland.SplitCounter

/-! ### Parts of a count -/

section Parts

variable {Holder : Type} [Fintype Holder] [DecidableEq Holder] (parts : Holder → Nat)
  (holder : Holder)

def total (parts : Holder → Nat) : Nat :=
  ∑ holder, parts holder

theorem total_split :
    total parts = parts holder + ∑ other ∈ Finset.univ.erase holder, parts other :=
  (Finset.add_sum_erase Finset.univ parts (Finset.mem_univ holder)).symm

theorem total_update (amount : Nat) :
    total (Function.update parts holder (parts holder + amount)) = total parts + amount := by
  have others : ∑ other ∈ Finset.univ.erase holder,
      Function.update parts holder (parts holder + amount) other =
        ∑ other ∈ Finset.univ.erase holder, parts other := by
    apply Finset.sum_congr rfl
    intro other member
    exact Function.update_of_ne (Finset.ne_of_mem_erase member) _ _
  rw [total_split _ holder, total_split parts holder, others, Function.update_self]
  omega

theorem part_le_total : parts holder ≤ total parts := by
  rw [total_split parts holder]
  omega

/-- One part is the whole count exactly if the others are zero. -/
theorem total_le_part_iff :
    total parts ≤ parts holder ↔ ∀ other, other ≠ holder → parts other = 0 := by
  have zero := Finset.sum_eq_zero_iff (s := Finset.univ.erase holder) (f := parts)
  rw [total_split parts holder]
  constructor
  · intro whole other different
    apply zero.mp (by omega) other
    exact Finset.mem_erase.mpr ⟨different, Finset.mem_univ other⟩
  · intro alone
    have rest := zero.mpr (fun other member => alone other (Finset.ne_of_mem_erase member))
    omega

end Parts

/-! ### A log of readings -/

/-- The value a reading shows, and the count that had been made by then. -/
structure Reading where
  seen : Nat
  made : Nat

/-- The readings of a counter: none misses what was counted before it, none falls. -/
structure Faithful (log : List Reading) : Prop where
  complete : ∀ reading ∈ log, reading.made ≤ reading.seen
  rising : log.Pairwise (fun earlier later => earlier.seen ≤ later.seen)

theorem faithful_nil : Faithful [] :=
  { complete := fun _ absent => by cases absent
    rising := List.Pairwise.nil }

/-- A log whose readings show no more than was counted stays faithful exactly if the next
reading shows the whole count. -/
theorem faithful_append_iff {log : List Reading} {seen made : Nat} (faithful : Faithful log)
    (bounded : ∀ reading ∈ log, reading.seen ≤ made) :
    Faithful (log ++ [⟨seen, made⟩]) ↔ made ≤ seen := by
  constructor
  · intro extended
    exact extended.complete ⟨seen, made⟩ (List.mem_append_right log List.mem_cons_self)
  · intro whole
    constructor
    · intro reading member
      rcases List.mem_append.mp member with old | last
      · exact faithful.complete reading old
      · rw [List.mem_singleton.mp last]
        exact whole
    · apply List.pairwise_append.mpr
      refine ⟨faithful.rising, List.pairwise_singleton _ _, ?_⟩
      intro earlier old later last
      rw [List.mem_singleton.mp last]
      exact Nat.le_trans (bounded earlier old) whole

end Bistland.SplitCounter
