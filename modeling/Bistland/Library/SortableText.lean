/-
Encodings whose texts stand in the order of what they encode. An encoding sorts a relation if
the text of the earlier value comes first whatever follows the two; so encodings can be put
one after another, and numbers of a fixed width are such encodings.
-/

import Mathlib.Algebra.GroupWithZero.Nat
import Mathlib.Data.List.Basic
import Mathlib.Data.Prod.Lex

namespace Bistland.SortableText

variable {Symbol Value Other : Type} [LT Symbol]

def Sorts (earlier : Value → Value → Prop) (encode : Value → List Symbol) : Prop :=
  ∀ first second : Value, earlier first second → ∀ rest other : List Symbol,
    encode first ++ rest < encode second ++ other

section Rules

variable {earlier weaker : Value → Value → Prop} {encode : Value → List Symbol}

theorem Sorts.lt (sorts : Sorts earlier encode) {first second : Value}
    (order : earlier first second) : encode first < encode second := by
  have extended := sorts first second order [] []
  rw [List.append_nil, List.append_nil] at extended
  exact extended

theorem Sorts.after (sorts : Sorts earlier encode) (shared : List Symbol) :
    Sorts earlier (fun value => shared ++ encode value) := by
  intro first second order rest other
  rw [List.append_assoc, List.append_assoc]
  exact List.append_left_lt (sorts first second order rest other)

/-- One encoding after another sorts by the first component and then by the second. -/
theorem Sorts.pair {next : Other → Other → Prop} {encodeNext : Other → List Symbol}
    (sorts : Sorts earlier encode) (sortsNext : Sorts next encodeNext) :
    Sorts (Prod.Lex earlier next) (fun pair => encode pair.1 ++ encodeNext pair.2) := by
  rintro ⟨first, firstNext⟩ ⟨second, secondNext⟩ order rest other
  rw [List.append_assoc, List.append_assoc]
  cases order with
  | left _ _ order => exact sorts first second order _ _
  | right _ order =>
      exact List.append_left_lt (sortsNext firstNext secondNext order rest other)

end Rules

/-! ### Numbers of a fixed width -/

section Numbers

variable {digit : Nat → Symbol}

def padded (digit : Nat → Symbol) : Nat → Nat → List Symbol
  | 0, _ => []
  | width + 1, value => padded digit width (value / 10) ++ [digit (value % 10)]

/-- Numbers in their order, the later one of a width. -/
def Below (width first second : Nat) : Prop :=
  first < second ∧ second < 10 ^ width

theorem sorts_padded (ordered : ∀ first second, first < second → second < 10 →
    digit first < digit second) (width : Nat) : Sorts (Below width) (padded digit width) := by
  induction width with
  | zero =>
      rintro first second ⟨order, bound⟩
      rw [pow_zero] at bound
      omega
  | succ width ih =>
      rintro first second ⟨order, bound⟩ rest other
      rw [padded, padded, List.append_assoc, List.append_assoc]
      rcases Nat.lt_or_ge (first / 10) (second / 10) with front | sameFront
      · have inside : second / 10 < 10 ^ width := by
          rw [pow_succ] at bound
          exact Nat.div_lt_of_lt_mul (Nat.mul_comm _ _ ▸ bound)
        exact ih _ _ ⟨front, inside⟩ _ _
      · have same : first / 10 = second / 10 := by omega
        rw [same]
        apply List.append_left_lt
        apply List.cons_lt_cons_iff.mpr
        left
        apply ordered
        · omega
        · exact Nat.mod_lt _ (by decide)

end Numbers

end Bistland.SortableText
