/-
The spellings of one number. The pattern's `\d` admits the decimal digits of
every script, so a number has as many accepted spellings as scripts allow, each
with a deduplication key of its own; with ASCII digits the spelling is unique.
-/

import Bistland.SubmitPhoneView

namespace Bistland

open Python

/-- `+989` followed by nine of the digits 0 to 9. -/
def AsciiSpelled (value : Str) : Prop :=
  ∃ digits, value = text "+989" ++ digits ∧ digits.length = 9 ∧
    ∀ symbol ∈ digits, isAsciiDigit symbol = true

/-- The value is accepted exactly if it trims to a phone in ASCII digits, which is then
the validated phone. -/
def AcceptedAsAscii (value : Json) : Prop :=
  ∀ phone, (∃ accepted, SubmitPhoneSerializer.validate value = .ok accepted ∧
      accepted.value = phone) ↔
    ∃ shown, value = .string shown ∧ strip shown = phone ∧ AsciiSpelled phone

/-- A text that trims to a phone with a digit of another script. -/
def ForeignDigits (value : Json) : Prop :=
  ∃ shown, value = .string shown ∧ IsPhone (strip shown) ∧ ¬AsciiSpelled (strip shown)

/-! ### Spellings and numbers -/

theorem AsciiSpelled.isPhone {value : Str} (spelled : AsciiSpelled value) : IsPhone value := by
  obtain ⟨digits, same, size, ascii⟩ := spelled
  exact ⟨digits, same, size, fun symbol member => isDecimal_of_ascii symbol (ascii symbol member)⟩

theorem filterMap_decimalValue_phone (digits : Str) :
    (text "+989" ++ digits).filterMap decimalValue = [9, 8, 9] ++ digits.filterMap decimalValue := by
  rw [List.filterMap_append]
  rfl

def asciiDigit (value : Nat) : CodePoint :=
  Fin.ofNat 0x110000 (0x30 + value)

theorem asciiDigit_val (value : Nat) (small : value < 10) : (asciiDigit value).val = 0x30 + value :=
  Nat.mod_eq_of_lt (by omega)

theorem isAsciiDigit_asciiDigit (value : Nat) (small : value < 10) :
    isAsciiDigit (asciiDigit value) = true := by
  unfold isAsciiDigit
  rw [asciiDigit_val value small, Bool.and_eq_true, decide_eq_true_eq, decide_eq_true_eq]
  omega

theorem decimalValue_asciiDigit (value : Nat) (small : value < 10) :
    decimalValue (asciiDigit value) = some value := by
  rw [decimalValue_of_ascii _ (isAsciiDigit_asciiDigit value small), asciiDigit_val value small,
    Nat.add_sub_cancel_left]

theorem asciiDigit_of_ascii (symbol : CodePoint) (ascii : isAsciiDigit symbol = true) :
    asciiDigit (symbol.val - 0x30) = symbol := by
  unfold isAsciiDigit at ascii
  rw [Bool.and_eq_true, decide_eq_true_eq, decide_eq_true_eq] at ascii
  apply Fin.ext
  rw [asciiDigit_val _ (by omega)]
  omega

theorem map_asciiDigit_values (digits : Str) (ascii : ∀ symbol ∈ digits, isAsciiDigit symbol = true) :
    (digits.filterMap decimalValue).map asciiDigit = digits := by
  induction digits with
  | nil => rfl
  | cons symbol rest ih =>
      have first := ascii symbol List.mem_cons_self
      rw [List.filterMap_cons_some (decimalValue_of_ascii symbol first), List.map_cons,
        asciiDigit_of_ascii symbol first,
        ih (fun later member => ascii later (List.mem_cons_of_mem symbol member))]

theorem values_map_asciiDigit (values : List Nat) (small : ∀ value ∈ values, value < 10) :
    (values.map asciiDigit).filterMap decimalValue = values := by
  induction values with
  | nil => rfl
  | cons value rest ih =>
      rw [List.map_cons, List.filterMap_cons_some
        (decimalValue_asciiDigit value (small value List.mem_cons_self)),
        ih (fun later member => small later (List.mem_cons_of_mem value member))]

theorem values_lt (digits : Str) : ∀ value ∈ digits.filterMap decimalValue, value < 10 := by
  intro value member
  obtain ⟨symbol, _, valued⟩ := List.mem_filterMap.mp member
  exact decimalValue_lt symbol value valued

theorem values_length (digits : Str) (decimal : ∀ symbol ∈ digits, isDecimal symbol = true) :
    (digits.filterMap decimalValue).length = digits.length := by
  induction digits with
  | nil => rfl
  | cons symbol rest ih =>
      obtain ⟨value, valued⟩ := Option.isSome_iff_exists.mp (decimal symbol List.mem_cons_self)
      rw [List.filterMap_cons_some valued, List.length_cons, List.length_cons,
        ih (fun later member => decimal later (List.mem_cons_of_mem symbol member))]

theorem values_of_number {left right : Str} (leftPhone : IsPhone left) (rightPhone : IsPhone right)
    (same : number left = number right) :
    left.filterMap decimalValue = right.filterMap decimalValue := by
  obtain ⟨leftDigits, rfl, leftSize, leftDecimal⟩ := leftPhone
  obtain ⟨rightDigits, rfl, rightSize, rightDecimal⟩ := rightPhone
  apply List.reverse_injective
  apply Nat.ofDigits_inj_of_len_eq (by decide) ?_ ?_ ?_ same
  · rw [List.length_reverse, List.length_reverse, filterMap_decimalValue_phone,
      filterMap_decimalValue_phone, List.length_append, List.length_append,
      values_length leftDigits leftDecimal, values_length rightDigits rightDecimal, leftSize,
      rightSize]
  · intro value member
    exact values_lt _ value (List.mem_reverse.mp member)
  · intro value member
    exact values_lt _ value (List.mem_reverse.mp member)

theorem AsciiSpelled.unique {left right : Str} (leftSpelled : AsciiSpelled left)
    (rightSpelled : AsciiSpelled right) (same : number left = number right) : left = right := by
  have values := values_of_number leftSpelled.isPhone rightSpelled.isPhone same
  obtain ⟨leftDigits, rfl, _, leftAscii⟩ := leftSpelled
  obtain ⟨rightDigits, rfl, _, rightAscii⟩ := rightSpelled
  rw [filterMap_decimalValue_phone, filterMap_decimalValue_phone] at values
  rw [← map_asciiDigit_values leftDigits leftAscii, ← map_asciiDigit_values rightDigits rightAscii,
    List.append_cancel_left values]

theorem IsPhone.ascii {value : Str} (phone : IsPhone value) :
    ∃ spelling, AsciiSpelled spelling ∧ number spelling = number value := by
  obtain ⟨digits, rfl, size, decimal⟩ := phone
  refine ⟨text "+989" ++ (digits.filterMap decimalValue).map asciiDigit, ⟨_, rfl, ?_, ?_⟩, ?_⟩
  · rw [List.length_map, values_length digits decimal, size]
  · intro symbol member
    obtain ⟨value, valued, rfl⟩ := List.mem_map.mp member
    exact isAsciiDigit_asciiDigit value (values_lt digits value valued)
  · unfold number
    rw [filterMap_decimalValue_phone, filterMap_decimalValue_phone,
      values_map_asciiDigit _ (values_lt digits)]

/-! ### The accepted language -/

theorem validate_ascii {shown : Str} (spelled : AsciiSpelled (strip shown)) :
    ∃ accepted, SubmitPhoneSerializer.validate (.string shown) = .ok accepted ∧
      accepted.value = strip shown :=
  ⟨⟨strip shown, spelled.isPhone⟩,
    (SubmitPhoneSerializer.validate_eq_ok _ _).mpr ⟨shown, rfl, rfl⟩, rfl⟩

theorem acceptedAsAscii_iff (value : Json) : AcceptedAsAscii value ↔ ¬ForeignDigits value := by
  constructor
  · rintro exact_ ⟨shown, rfl, phone, foreign⟩
    have accepted : SubmitPhoneSerializer.validate (.string shown) = .ok ⟨strip shown, phone⟩ :=
      (SubmitPhoneSerializer.validate_eq_ok _ _).mpr ⟨shown, rfl, rfl⟩
    obtain ⟨_, _, _, spelled⟩ := (exact_ (strip shown)).mp ⟨_, accepted, rfl⟩
    exact foreign spelled
  · intro native phone
    constructor
    · rintro ⟨accepted, validated, rfl⟩
      obtain ⟨shown, isString, trimmed⟩ :=
        (SubmitPhoneSerializer.validate_eq_ok value accepted).mp validated
      refine ⟨shown, isString, trimmed, ?_⟩
      by_contra foreign
      apply native
      refine ⟨shown, isString, ?_, ?_⟩
      · rw [trimmed]
        exact accepted.spelled
      · rw [trimmed]
        exact foreign
    · rintro ⟨shown, rfl, rfl, spelled⟩
      exact validate_ascii spelled

theorem asciiSpelled_of_accepted {value : Json} {accepted : ValidatedPhone}
    (validated : SubmitPhoneSerializer.validate value = .ok accepted)
    (native : ¬ForeignDigits value) : AsciiSpelled accepted.value := by
  obtain ⟨_, _, _, spelled⟩ :=
    ((acceptedAsAscii_iff value).mpr native accepted.value).mp ⟨accepted, validated, rfl⟩
  exact spelled

/-- Without foreign digits a value is accepted exactly in ASCII digits, and two accepted
values share a key exactly if they denote one number; each accepted value with foreign
digits denotes the number of another accepted one under a different key. -/
theorem one_spelling_exactly (value : Json) :
    (AcceptedAsAscii value ↔ ¬ForeignDigits value) ∧
      (∀ other first second, SubmitPhoneSerializer.validate value = .ok first →
        SubmitPhoneSerializer.validate other = .ok second → ¬ForeignDigits value →
          ¬ForeignDigits other →
            (dedupKey first.value = dedupKey second.value ↔
              number first.value = number second.value)) ∧
      ∀ first, SubmitPhoneSerializer.validate value = .ok first → ForeignDigits value →
        ∃ other second, SubmitPhoneSerializer.validate other = .ok second ∧
          number first.value = number second.value ∧
            dedupKey first.value ≠ dedupKey second.value := by
  refine ⟨acceptedAsAscii_iff value, ?_, ?_⟩
  · intro other first second validated otherValidated native otherNative
    have spelled := asciiSpelled_of_accepted validated native
    have otherSpelled := asciiSpelled_of_accepted otherValidated otherNative
    constructor
    · intro same
      rw [dedupKey_injective same]
    · intro same
      rw [spelled.unique otherSpelled same]
  · intro first validated foreignDigits
    obtain ⟨shown, rfl, phone, foreign⟩ := foreignDigits
    obtain ⟨_, isString, trimmed⟩ :=
      (SubmitPhoneSerializer.validate_eq_ok _ first).mp validated
    cases isString
    obtain ⟨spelling, spelled, same⟩ := phone.ascii
    refine ⟨.string spelling, ⟨spelling, spelled.isPhone⟩, ?_, ?_, ?_⟩
    · exact (SubmitPhoneSerializer.validate_eq_ok _ _).mpr
        ⟨spelling, rfl, spelled.isPhone.strip_eq⟩
    · rw [← trimmed]
      exact same.symm
    · intro sameKey
      apply foreign
      rw [trimmed, dedupKey_injective sameKey]
      exact spelled

/-- `+989` and nine Persian digits, the number of `exampleRequest`. -/
def persianPhone : Str :=
  text "+989۱۲۱۲۳۴۵۶۷"

theorem persian_digits_accepted : ∃ first second,
    SubmitPhoneSerializer.validate (.string persianPhone) = .ok first ∧
      SubmitPhoneSerializer.validate (.string (text "+989121234567")) = .ok second ∧
      first.value = persianPhone ∧ number first.value = number second.value ∧
      dedupKey first.value ≠ dedupKey second.value ∧ ¬AcceptedAsAscii (.string persianPhone) := by
  have phone : IsPhone persianPhone :=
    ⟨text "۱۲۱۲۳۴۵۶۷", by decide, by decide,
      List.all_eq_true.mp (show (text "۱۲۱۲۳۴۵۶۷").all isDecimal = true by decide)⟩
  have trimmed : strip persianPhone = persianPhone := phone.strip_eq
  refine ⟨⟨persianPhone, phone⟩, examplePhone, ?_, ?_, rfl,
    show number persianPhone = number (text "+989121234567") by decide,
    show dedupKey persianPhone ≠ dedupKey (text "+989121234567") by decide, ?_⟩
  · exact (SubmitPhoneSerializer.validate_eq_ok _ _).mpr ⟨persianPhone, rfl, trimmed⟩
  · exact (SubmitPhoneSerializer.validate_eq_ok _ _).mpr
      ⟨text "+989121234567", rfl, examplePhone.spelled.strip_eq⟩
  · rw [acceptedAsAscii_iff, not_not]
    refine ⟨persianPhone, rfl, by rw [trimmed]; exact phone, ?_⟩
    rw [trimmed]
    intro ⟨digits, same, _, ascii⟩
    have foreign : (0x6F1 : CodePoint) ∈ digits := by
      have tail : digits = persianPhone.drop 4 := by
        rw [same]
        rfl
      rw [tail]
      decide
    exact absurd (ascii 0x6F1 foreign) (by decide)

end Bistland
