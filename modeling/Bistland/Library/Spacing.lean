/-
Histories in which the chosen items keep their distance. Between two of them lies a span of
time or a number of counted items; so there is one of them, one more for each whole span of
time and one more for each full gap of counted items.
-/

import Mathlib.Data.List.Basic
import Mathlib.Data.List.Induction

namespace Bistland.Spacing

variable {Item : Type}

/-- A place in an extended history is the new item or a place in the history before. -/
theorem split_append_singleton {front older newer : List Item} {item last : Item}
    (split : front ++ [last] = older ++ item :: newer) :
    (older = front ∧ item = last ∧ newer = []) ∨
      ∃ rest, newer = rest ++ [last] ∧ front = older ++ item :: rest := by
  rcases List.eq_nil_or_concat newer with empty | ⟨rest, final, tail⟩
  · subst newer
    obtain ⟨sameOlder, sameLast⟩ := List.append_inj' split rfl
    cases sameLast
    exact Or.inl ⟨sameOlder.symm, rfl, rfl⟩
  · rw [tail, List.concat_eq_append, ← List.cons_append, ← List.append_assoc] at split
    obtain ⟨sameFront, sameLast⟩ := List.append_inj' split rfl
    cases sameLast
    rw [List.concat_eq_append] at tail
    exact Or.inr ⟨rest, tail, sameFront⟩

/-- Two chosen items are a span of time or a gap of counted items apart. -/
def Spaced (chosen counted : Item → Bool) (time : Item → Nat) (span gap : Nat)
    (items : List Item) : Prop :=
  ∀ older first middle second newer, items = older ++ first :: (middle ++ second :: newer) →
    chosen first = true → chosen second = true →
      time first + span ≤ time second ∨ gap ≤ middle.countP counted

section Rules

variable {chosen counted : Item → Bool} {time : Item → Nat} {span gap : Nat} {items : List Item}

theorem spaced_nil : Spaced chosen counted time span gap [] := by
  intro older first middle second newer impossible
  have length := congrArg List.length impossible
  simp only [List.length_nil, List.length_append, List.length_cons] at length
  omega

theorem Spaced.weaken (spaced : Spaced chosen counted time span gap items) {smaller : Nat}
    (order : smaller ≤ gap) : Spaced chosen counted time span smaller items := by
  intro older first middle second newer split isChosen laterChosen
  rcases spaced older first middle second newer split isChosen laterChosen with late | gapped
  · exact Or.inl late
  · exact Or.inr (Nat.le_trans order gapped)

theorem Spaced.append (spaced : Spaced chosen counted time span gap items) (last : Item)
    (apart : chosen last = true → ∀ older first middle, items = older ++ first :: middle →
      chosen first = true → time first + span ≤ time last ∨ gap ≤ middle.countP counted) :
    Spaced chosen counted time span gap (items ++ [last]) := by
  intro older first middle second newer split isChosen laterChosen
  have regrouped : items ++ [last] = (older ++ first :: middle) ++ second :: newer := by
    rw [split, List.append_assoc, List.cons_append]
  rcases split_append_singleton regrouped with ⟨whole, rfl, _⟩ | ⟨rest, _, whole⟩
  · exact apart laterChosen older first middle whole.symm isChosen
  · apply spaced older first middle second rest ?_ isChosen laterChosen
    rw [whole, List.append_assoc, List.cons_append]

theorem Spaced.front {last : Item}
    (spaced : Spaced chosen counted time span gap (items ++ [last])) :
    Spaced chosen counted time span gap items := by
  intro older first middle second newer split
  apply spaced older first middle second (newer ++ [last])
  rw [split]
  simp only [List.append_assoc, List.cons_append]

/-- The items so far are few for the time of a chosen one and what is counted up to it. -/
private theorem Spaced.countP_at (spaced : Spaced chosen counted time span gap items)
    (positive : 0 < span) (within : ∀ item, chosen item = true → counted item = true)
    (ordered : items.Pairwise (fun earlier later => time earlier ≤ time later)) :
    items.countP chosen = 0 ∨ ∃ older last newer, items = older ++ last :: newer ∧
      chosen last = true ∧ items.countP chosen ≤
        1 + time last / span + (older ++ [last]).countP counted / (gap + 1) := by
  induction items using List.reverseRecOn with
  | nil => exact Or.inl rfl
  | append_singleton front last ih =>
      obtain ⟨orderedFront, _, latest⟩ := List.pairwise_append.mp ordered
      have before := ih spaced.front orderedFront
      rw [List.countP_append, List.countP_singleton]
      cases isChosen : chosen last with
      | false =>
          rw [if_neg Bool.false_ne_true, Nat.add_zero]
          rcases before with none | ⟨older, latestChosen, newer, rfl, facts⟩
          · exact Or.inl none
          · refine Or.inr ⟨older, latestChosen, newer ++ [last], ?_, facts⟩
            rw [List.append_assoc, List.cons_append]
      | true =>
          rw [if_pos rfl]
          refine Or.inr ⟨front, last, [], rfl, isChosen, ?_⟩
          rcases before with none | ⟨older, latestChosen, newer, rfl, wasChosen, few⟩
          · rw [none, Nat.zero_add, Nat.add_assoc]
            exact Nat.le_add_right 1 _
          · have notLater := latest latestChosen
              (List.mem_append_right older List.mem_cons_self) last (List.mem_singleton_self _)
            have more : (older ++ latestChosen :: newer ++ [last]).countP counted =
                (older ++ [latestChosen]).countP counted + newer.countP counted + 1 := by
              simp only [List.countP_append, List.countP_cons, List.countP_nil, within last isChosen,
                if_true]
              omega
            have apart := spaced older latestChosen newer last [] (by
              rw [List.append_assoc, List.cons_append]) wasChosen isChosen
            rw [more]
            rcases apart with late | gapped
            · have oneMore : time latestChosen / span + 1 ≤ time last / span := by
                rw [← Nat.add_div_right _ positive]
                exact Nat.div_le_div_right late
              have kept : (older ++ [latestChosen]).countP counted / (gap + 1) ≤
                  ((older ++ [latestChosen]).countP counted + newer.countP counted + 1) /
                    (gap + 1) := Nat.div_le_div_right (by omega)
              omega
            · have kept : time latestChosen / span ≤ time last / span :=
                Nat.div_le_div_right notLater
              have oneMore : (older ++ [latestChosen]).countP counted / (gap + 1) + 1 ≤
                  ((older ++ [latestChosen]).countP counted + newer.countP counted + 1) /
                    (gap + 1) := by
                rw [← Nat.add_div_right _ (Nat.succ_pos gap)]
                exact Nat.div_le_div_right (by omega)
              omega

/-- Spaced items are few. -/
theorem Spaced.countP_le (spaced : Spaced chosen counted time span gap items)
    (positive : 0 < span) (within : ∀ item, chosen item = true → counted item = true)
    (ordered : items.Pairwise (fun earlier later => time earlier ≤ time later)) {deadline : Nat}
    (past : ∀ item ∈ items, time item ≤ deadline) :
    items.countP chosen ≤ 1 + deadline / span + items.countP counted / (gap + 1) := by
  rcases spaced.countP_at positive within ordered with none | ⟨older, last, newer, rfl, _, few⟩
  · rw [none]
    exact Nat.zero_le _
  · have early : time last / span ≤ deadline / span :=
      Nat.div_le_div_right (past last (List.mem_append_right older List.mem_cons_self))
    have counts : (older ++ [last]).countP counted / (gap + 1) ≤
        (older ++ last :: newer).countP counted / (gap + 1) := by
      apply Nat.div_le_div_right
      simp only [List.countP_append, List.countP_cons, List.countP_nil]
      omega
    omega

end Rules

end Bistland.Spacing
