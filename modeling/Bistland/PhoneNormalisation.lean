/-
Validation as a normal form. Only the trimmed text of a value matters to the serializer,
and the value it keeps is its own trim; what the column of `Phone` and the keys of the
cache may rely on is read off the shape that a validated phone carries.
-/

import Bistland.SubmitPhoneView

namespace Bistland

open Python

/-! ### What is stored downstream -/

/-- The category Cc. -/
def isControl (symbol : CodePoint) : Bool :=
  symbol.val < 0x20 || (0x7F ≤ symbol.val && symbol.val < 0xA0)

/-- A visible ASCII character or a decimal digit of any script. -/
def isPrintable (symbol : CodePoint) : Bool :=
  (0x20 < symbol.val && symbol.val < 0x7F) || isDecimal symbol

/-- `max_length` of `Phone.phone`. -/
def phoneMaxLength : Nat := 20

/-- `make_key` of the cache, with no `KEY_PREFIX` and version 1. -/
def makeKey (key : Str) : Str :=
  text ":1:" ++ key

/-- The shortest key limit among the cache backends, that of memcached. -/
def maxKeyLength : Nat := 250

def utf8Size (symbol : CodePoint) : Nat :=
  if symbol.val < 0x80 then 1
  else if symbol.val < 0x800 then 2
  else if symbol.val < 0x10000 then 3
  else 4

def utf8Length (value : Str) : Nat :=
  (value.map utf8Size).sum

structure Storable (value : Str) : Prop where
  size : value.length = 13
  fits : value.length ≤ phoneMaxLength
  clean : ∀ symbol ∈ value, isSpace symbol = false ∧ symbol ≠ newline ∧ isControl symbol = false
  printable : ∀ symbol ∈ makeKey (dedupKey value), isPrintable symbol = true
  short : (makeKey (dedupKey value)).length < maxKeyLength
  shortEncoded : utf8Length (makeKey (dedupKey value)) < maxKeyLength

/-! ### The shape of a validated phone -/

theorem isSpace_of_isPrintable (symbol : CodePoint) (printable : isPrintable symbol = true) :
    isSpace symbol = false := by
  rcases Bool.or_eq_true_iff.mp printable with visible | decimal
  · rw [Bool.and_eq_true, decide_eq_true_eq, decide_eq_true_eq] at visible
    have apart : ∀ blank ∈ whitespace, blank ≤ 0x20 ∨ 0x7F ≤ blank := by decide
    cases space : isSpace symbol with
    | false => rfl
    | true =>
        have blank := apart symbol.val (List.contains_iff_mem.mp space)
        omega
  · exact isSpace_of_isDecimal symbol decimal

theorem isControl_of_isPrintable (symbol : CodePoint) (printable : isPrintable symbol = true) :
    isControl symbol = false := by
  have bounds : (0x20 < symbol.val ∧ symbol.val < 0x7F) ∨ 0xA0 ≤ symbol.val := by
    rcases Bool.or_eq_true_iff.mp printable with visible | decimal
    · rw [Bool.and_eq_true, decide_eq_true_eq, decide_eq_true_eq] at visible
      exact Or.inl visible
    · unfold isDecimal decimalValue at decimal
      rw [Option.isSome_map, List.find?_isSome] at decimal
      obtain ⟨base, member, within⟩ := decimal
      rw [Bool.and_eq_true, decide_eq_true_eq, decide_eq_true_eq] at within
      have apart : ∀ base ∈ decimalZeros, base = 0x30 ∨ 0xA0 ≤ base := by decide
      have zero := apart base member
      omega
  unfold isControl
  rw [Bool.or_eq_false_iff, Bool.and_eq_false_iff, decide_eq_false_iff_not,
    decide_eq_false_iff_not, decide_eq_false_iff_not]
  omega

theorem IsPhone.printable {value : Str} (spelled : IsPhone value) :
    ∀ symbol ∈ value, isPrintable symbol = true := by
  obtain ⟨digits, rfl, _, decimal⟩ := spelled
  intro symbol member
  rcases List.mem_append.mp member with literal | digit
  · exact List.all_eq_true.mp (show (text "+989").all isPrintable = true by decide) symbol literal
  · unfold isPrintable
    rw [decimal symbol digit, Bool.or_true]

theorem utf8Length_le (value : Str) : utf8Length value ≤ 4 * value.length := by
  induction value with
  | nil => exact Nat.le_refl 0
  | cons symbol rest ih =>
      have first : utf8Size symbol ≤ 4 := by
        unfold utf8Size
        split
        · decide
        · split
          · decide
          · split <;> decide
      unfold utf8Length at ih ⊢
      rw [List.map_cons, List.sum_cons, List.length_cons]
      omega

theorem IsPhone.storable {value : Str} (spelled : IsPhone value) : Storable value := by
  have size := spelled.length_eq
  have keySize : (makeKey (dedupKey value)).length = 28 := by
    unfold makeKey dedupKey
    rw [List.length_append, List.length_append, size]
    rfl
  constructor
  · exact size
  · rw [size]
    decide
  · intro symbol member
    have visible := isSpace_of_isPrintable symbol (spelled.printable symbol member)
    refine ⟨visible, ?_, isControl_of_isPrintable symbol (spelled.printable symbol member)⟩
    intro same
    rw [same, isSpace_newline] at visible
    cases visible
  · intro symbol member
    unfold makeKey dedupKey at member
    rw [← List.append_assoc] at member
    rcases List.mem_append.mp member with literal | phone
    · exact List.all_eq_true.mp
        (show (text ":1:" ++ text "dedup:phone:").all isPrintable = true by decide) symbol literal
    · exact spelled.printable symbol phone
  · rw [keySize]
    decide
  · have encoded := utf8Length_le (makeKey (dedupKey value))
    rw [keySize] at encoded
    exact Nat.lt_of_le_of_lt encoded (by decide)

/-! ### Normalisation -/

namespace SubmitPhoneSerializer

/-- The verdict on a text depends on its trim only. -/
theorem validate_of_strip {left right : Str} (same : strip left = strip right) :
    validate (.string left) = validate (.string right) := by
  have found : ∀ value, lookup (text "phone") [(text "phone", value)] = some value := by
    intro value
    simp only [lookup, List.reverse_singleton, List.find?_cons, decide_true, Option.map_some]
  simp only [validate, run, found, CharField.runValidation, CharField.toInternalValue, same]

/-- Padding changes no verdict, a validated phone validates to itself, and whatever the
body was, the validated phone fits the column and the cache. -/
theorem validation_normalises (value leading trailing : Str)
    (blankBefore : ∀ symbol ∈ leading, isSpace symbol = true)
    (blankAfter : ∀ symbol ∈ trailing, isSpace symbol = true) :
    validate (.string (leading ++ value ++ trailing)) = validate (.string value) ∧
      ∀ data phone, run data = .ok phone →
        validate (.string phone.value) = .ok phone ∧ Storable phone.value := by
  constructor
  · apply validate_of_strip
    unfold strip
    rw [Text.strip_append_right isSpace (leading ++ value) trailing blankAfter,
      Text.strip_append_left isSpace leading value blankBefore]
  · intro data phone _
    constructor
    · exact (validate_eq_ok (.string phone.value) phone).mpr
        ⟨phone.value, rfl, phone.spelled.strip_eq⟩
    · exact phone.spelled.storable

/-- The pattern alone admits a final newline. -/
example : re.matchesAtStart phoneRegex (text "+989121234567\n") = true := by decide

theorem validation_normalises_padded :
    validate (.string (text " \t" ++ text "+989121234567" ++ text "\n")) = .ok examplePhone ∧
      Storable examplePhone.value := by
  obtain ⟨same, kept⟩ := validation_normalises (text "+989121234567") (text " \t") (text "\n")
    (List.all_eq_true.mp (show (text " \t").all isSpace = true by decide))
    (List.all_eq_true.mp (show (text "\n").all isSpace = true by decide))
  have accepted : validate (.string (text "+989121234567")) = .ok examplePhone := by decide
  rw [same]
  exact ⟨accepted, (kept _ _ accepted).2⟩

end SubmitPhoneSerializer

end Bistland
