/-
SubmitPhoneSerializer: the JSON value of the request body, the checks of its
`CharField`, and `validate_phone`. A validated phone carries the shape that the
pattern forces on a trimmed text, so no later stage can hold another one.
-/

import Bistland.PythonText

namespace Bistland

open Python

/-- What a JSON parser returns; the members of an object stand in source order. -/
inductive Json where
  | null
  | bool (value : Bool)
  | int (value : Int)
  | float (value : PyFloat)
  | string (value : Str)
  | array (items : List Json)
  | object (members : List (Str × Json))

/-- Member lookup in the parsed dictionary: a repeated name keeps its last value. -/
def lookup (name : Str) (members : List (Str × Json)) : Option Json :=
  (members.reverse.find? (fun member => member.1 = name)).map Prod.snd

/-- The checks a submission can fail, by the code or text they answer with. -/
inductive FieldError where
  | notADictionary
  | required
  | null
  | invalid
  | blank
  | nullCharacters
  | maxLength (limit : Nat)
  | invalidPhone
  deriving DecidableEq

/-! ### The character field -/

structure CharField where
  maxLength : Nat

namespace CharField

/-- Texts and numbers become trimmed texts; every other kind of value is refused. -/
def toInternalValue : Json → Except FieldError Str
  | .string value => .ok (strip value)
  | .int value => .ok (strip (strInt value))
  | .float value => .ok (strip (strFloat value))
  | _ => .error .invalid

def runValidators (field : CharField) (value : Str) : List FieldError :=
  (if field.maxLength < value.length then [.maxLength field.maxLength] else []) ++
    (if value.contains 0 then [.nullCharacters] else [])

/-- The blank check and the validators, on a trimmed text. -/
def check (field : CharField) (value : Str) : Except (List FieldError) Str :=
  if value = [] then .error [.blank]
  else
    match field.runValidators value with
    | [] => .ok value
    | errors => .error errors

def runValidation (field : CharField) : Option Json → Except (List FieldError) Str
  | none => .error [.required]
  | some .null => .error [.null]
  | some data =>
      match toInternalValue data with
      | .error error => .error [error]
      | .ok value => field.check value

end CharField

/-! ### The phone pattern -/

/-- `^\+989\d{9}$`. -/
def phoneRegex : Text.Pattern CodePoint :=
  .numbered (text "+989") 9

/-- The texts `+989` followed by nine decimal digits of any script. -/
def IsPhone (value : Str) : Prop :=
  ∃ digits, value = text "+989" ++ digits ∧ digits.length = 9 ∧
    ∀ symbol ∈ digits, isDecimal symbol = true

structure ValidatedPhone where
  value : Str
  spelled : IsPhone value
  deriving DecidableEq

theorem IsPhone.strip_eq {value : Str} (spelled : IsPhone value) : strip value = value := by
  obtain ⟨digits, rfl, size, decimal⟩ := spelled
  apply Text.strip_of_ends
  · intro symbol first
    have plus : (0x2B : CodePoint) = symbol := Option.some.inj first
    rw [← plus]
    decide
  · intro symbol last
    have nonempty : digits ≠ [] := by
      intro empty
      rw [empty] at size
      cases size
    rw [List.getLast?_append_of_ne_nil _ nonempty] at last
    exact isSpace_of_isDecimal symbol (decimal symbol (List.mem_of_mem_getLast? last))

theorem IsPhone.length_eq {value : Str} (spelled : IsPhone value) : value.length = 13 := by
  obtain ⟨digits, rfl, size, _⟩ := spelled
  rw [List.length_append, size]
  rfl

theorem IsPhone.matches {value : Str} (spelled : IsPhone value) :
    re.matchesAtStart phoneRegex value = true := by
  obtain ⟨digits, rfl, size, decimal⟩ := spelled
  apply (Text.matchesAtStart_numbered re (text "+989") 9 _).mpr
  refine ⟨digits, [], ?_, size, decimal, by decide⟩
  rw [List.append_nil]

/-- After a strip the end anchor cannot stand before a final newline. -/
theorem isPhone_of_matches (value : Str)
    (matched : re.matchesAtStart phoneRegex (strip value) = true) : IsPhone (strip value) := by
  obtain ⟨digits, rest, split, size, decimal, stopped⟩ :=
    (Text.matchesAtStart_numbered re (text "+989") 9 _).mp matched
  have stopped : (rest == [] || rest == [newline]) = true := stopped
  rcases Bool.or_eq_true_iff.mp stopped with ends | trailing
  · rw [eq_of_beq ends, List.append_nil] at split
    exact ⟨digits, split, size, decimal⟩
  · have final : newline ∈ (strip value).getLast? := by
      rw [split, eq_of_beq trailing, ← List.append_assoc, List.getLast?_concat]
      rfl
    have kept := Text.strip_last isSpace value newline final
    rw [isSpace_newline] at kept
    cases kept

/-! ### The serializer -/

namespace SubmitPhoneSerializer

def phoneField : CharField :=
  { maxLength := 13 }

def validatePhone (value : Str) : Except FieldError ValidatedPhone :=
  if matched : re.matchesAtStart phoneRegex (strip value) = true then
    .ok ⟨strip value, isPhone_of_matches value matched⟩
  else .error .invalidPhone

/-- `is_valid(raise_exception=True)` followed by `validated_data["phone"]`. -/
def run : Json → Except (List FieldError) ValidatedPhone
  | .null => .error [.null]
  | .object members =>
      match phoneField.runValidation (lookup (text "phone") members) with
      | .error errors => .error errors
      | .ok value =>
          match validatePhone value with
          | .error error => .error [error]
          | .ok phone => .ok phone
  | _ => .error [.notADictionary]

/-- The serializer on the body `{"phone": value}`. -/
def validate (value : Json) : Except (List FieldError) ValidatedPhone :=
  run (.object [(text "phone", value)])

theorem validatePhone_eq_ok (value : Str) (phone : ValidatedPhone) :
    validatePhone value = .ok phone ↔ strip value = phone.value := by
  unfold validatePhone
  by_cases matched : re.matchesAtStart phoneRegex (strip value) = true
  · rw [dif_pos matched, Except.ok.injEq]
    exact ⟨fun same => congrArg ValidatedPhone.value same,
      fun same => by cases phone; cases same; rfl⟩
  · rw [dif_neg matched]
    constructor
    · intro impossible
      cases impossible
    · intro same
      rw [same] at matched
      exact False.elim (matched phone.spelled.matches)

theorem runValidators_of_phone (phone : ValidatedPhone) :
    phoneField.runValidators phone.value = [] := by
  have short : ¬phoneField.maxLength < phone.value.length := by
    rw [phone.spelled.length_eq]
    decide
  have printable : phone.value.contains 0 = false := by
    obtain ⟨digits, same, _, decimal⟩ := phone.spelled
    rw [same]
    cases present : (text "+989" ++ digits).contains 0 with
    | false => rfl
    | true =>
        rcases List.mem_append.mp (List.contains_iff_mem.mp present) with literal | digit
        · exact absurd literal (by decide)
        · exact absurd (decimal 0 digit) (by decide)
  unfold CharField.runValidators
  rw [if_neg short, printable]
  rfl

theorem check_of_phone (phone : ValidatedPhone) :
    phoneField.check phone.value = .ok phone.value := by
  have nonblank : phone.value ≠ [] := by
    intro empty
    have size := phone.spelled.length_eq
    rw [empty] at size
    cases size
  unfold CharField.check
  rw [if_neg nonblank, runValidators_of_phone phone]

theorem check_eq_ok (value result : Str) (passed : phoneField.check value = .ok result) :
    value = result := by
  unfold CharField.check at passed
  split at passed
  · cases passed
  · split at passed
    · exact Except.ok.inj passed
    · cases passed

theorem strip_unsigned_ne (shown : Str) (unsigned : Unsigned shown) (phone : ValidatedPhone) :
    strip shown ≠ phone.value := by
  intro same
  obtain ⟨first, rest, spelled, notPlus, graphic⟩ := unsigned
  obtain ⟨digits, phoneSpelled, _, _⟩ := phone.spelled
  obtain ⟨before, after, split, blank, _⟩ := Text.strip_split isSpace shown
  change Text.strip isSpace shown = phone.value at same
  rw [same, phoneSpelled, spelled] at split
  cases before with
  | nil => exact notPlus (List.cons.inj split).1
  | cons removed before =>
      have sameFirst : first = removed := (List.cons.inj split).1
      have gone := blank removed List.mem_cons_self
      rw [← sameFirst, graphic] at gone
      cases gone

private theorem validate_of_internal (value : Json) (trimmed : Str) (phone : ValidatedPhone)
    (notNull : value ≠ .null) (internal : CharField.toInternalValue value = .ok trimmed) :
    validate value = .ok phone ↔
      (∃ checked, phoneField.check trimmed = .ok checked ∧ strip checked = phone.value) := by
  have found : lookup (text "phone") [(text "phone", value)] = some value := by
    simp only [lookup, List.reverse_singleton, List.find?_cons, decide_true, Option.map_some]
  have field : phoneField.runValidation (some value) = phoneField.check trimmed := by
    cases value with
    | null => exact False.elim (notNull rfl)
    | bool value => cases internal
    | array items => cases internal
    | object members => cases internal
    | int value => cases internal; rfl
    | float value => cases internal; rfl
    | string value => cases internal; rfl
  simp only [validate, run, found, field]
  cases checked : phoneField.check trimmed with
  | error errors => simp only [reduceCtorEq, false_and, exists_false]
  | ok result =>
      simp only [Except.ok.injEq, exists_eq_left', ← validatePhone_eq_ok]
      cases validatePhone result with
      | error error => simp only [reduceCtorEq]
      | ok other => simp only [Except.ok.injEq]

private theorem accepted_trims (value : Json) (shown : Str) (phone : ValidatedPhone)
    (notNull : value ≠ .null) (internal : CharField.toInternalValue value = .ok (strip shown))
    (accepted : validate value = .ok phone) : strip shown = phone.value := by
  obtain ⟨checked, passed, same⟩ :=
    (validate_of_internal value (strip shown) phone notNull internal).mp accepted
  rw [← check_eq_ok _ _ passed, strip_idempotent] at same
  exact same

/-- The accepted values: the texts that trim to a phone, and nothing else. -/
theorem validate_eq_ok (value : Json) (phone : ValidatedPhone) :
    validate value = .ok phone ↔ ∃ shown, value = .string shown ∧ strip shown = phone.value := by
  constructor
  · intro accepted
    cases value with
    | null => cases accepted
    | bool value => cases accepted
    | array items => cases accepted
    | object members => cases accepted
    | int value =>
        have trimmed := accepted_trims _ (strInt value) phone Json.noConfusion rfl accepted
        exact False.elim (strip_unsigned_ne _ (strInt_unsigned value) phone trimmed)
    | float value =>
        have trimmed := accepted_trims _ (strFloat value) phone Json.noConfusion rfl accepted
        exact False.elim (strip_unsigned_ne _ (strFloat_unsigned value) phone trimmed)
    | string value =>
        exact ⟨value, rfl, accepted_trims _ value phone Json.noConfusion rfl accepted⟩
  · rintro ⟨shown, rfl, trimmed⟩
    apply (validate_of_internal _ _ phone Json.noConfusion rfl).mpr
    refine ⟨phone.value, ?_, phone.spelled.strip_eq⟩
    rw [trimmed]
    exact check_of_phone phone

end SubmitPhoneSerializer

end Bistland
