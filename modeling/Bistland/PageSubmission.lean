/-
What the landing page sends against what the serializer accepts. Page and server share the
text of one pattern, and differ in what trimming removes, in the digits of `\d` and in where
`$` matches; the page accepts less, so its texts pass the server unchanged.
-/

import Bistland.JavaScriptText
import Bistland.PhoneSpelling
import Bistland.CacheBackends

namespace Bistland

open Expiring JavaScript

namespace Page

/-- `/^\+989\d{9}$/`. -/
def phoneRegex : Text.Pattern CodeUnit :=
  .numbered (codeUnits "+989") 9

def validatePhoneFormat (phone : JsString) : Bool :=
  regExp.search phoneRegex phone

/-- The phone that `submitPhone` sends for a text in the field, if it sends one. -/
def sent (value : JsString) : Option JsString :=
  let phone := trim value
  if !validatePhoneFormat phone then none else some phone

/-- The parsed `JSON.stringify({ phone })`. -/
def body (phone : JsString) : Json :=
  .object [(text "phone", .string (toText phone))]

/-- The request of the page as it reaches the server. -/
def request (server : Request) (phone : JsString) : Request :=
  { server with data := .ok (body phone) }

theorem validatePhoneFormat_iff (phone : JsString) :
    validatePhoneFormat phone = true ↔
      ∃ digits, phone = codeUnits "+989" ++ digits ∧ digits.length = 9 ∧
        ∀ unit ∈ digits, isDigit unit = true := by
  unfold validatePhoneFormat phoneRegex Text.Pattern.numbered
  rw [Text.search_start]
  constructor
  · intro matched
    obtain ⟨digits, rest, whole, size, decimal, ends⟩ :=
      (Text.matchesAtStart_numbered regExp (codeUnits "+989") 9 phone).mp matched
    have empty : rest = [] := eq_of_beq ends
    rw [empty, List.append_nil] at whole
    exact ⟨digits, whole, size, decimal⟩
  · intro ⟨digits, whole, size, decimal⟩
    apply (Text.matchesAtStart_numbered regExp (codeUnits "+989") 9 phone).mpr
    refine ⟨digits, [], ?_, size, decimal, rfl⟩
    rw [List.append_nil]
    exact whole

/-! ### The text of a phone that is sent -/

theorem isAsciiDigit_widen (unit : CodeUnit) (digit : isDigit unit = true) :
    Python.isAsciiDigit (widen unit) = true := by
  unfold Python.isAsciiDigit
  rw [widen_val]
  exact digit

theorem isHighSurrogate_digit (unit : CodeUnit) (digit : isDigit unit = true) :
    isHighSurrogate unit = false := by
  unfold isDigit at digit
  rw [Bool.and_eq_true, decide_eq_true_eq, decide_eq_true_eq] at digit
  unfold isHighSurrogate
  rw [decide_eq_false (by omega), Bool.false_and]

/-- What the page sends is a number in ASCII digits, the same unit by unit in Python. -/
structure Sent (value phone : JsString) : Prop where
  trimmed : phone = trim value
  plain : toText phone = phone.map widen
  spelled : AsciiSpelled (toText phone)

theorem sent_spelled {value phone : JsString} (sends : sent value = some phone) :
    Sent value phone := by
  change (if !validatePhoneFormat (trim value) then none else some (trim value)) =
    some phone at sends
  cases valid : validatePhoneFormat (trim value) with
  | false =>
      rw [valid] at sends
      cases sends
  | true =>
      rw [valid] at sends
      have trimmed : trim value = phone := Option.some.inj sends
      rw [trimmed] at valid
      obtain ⟨digits, whole, size, decimal⟩ := (validatePhoneFormat_iff phone).mp valid
      have literalScalar : (codeUnits "+989").all (fun unit => !isHighSurrogate unit) = true := by
        decide
      have scalar : ∀ unit ∈ phone, isHighSurrogate unit = false := by
        intro unit member
        rw [whole] at member
        rcases List.mem_append.mp member with literal | digit
        · have low := List.all_eq_true.mp literalScalar unit literal
          rwa [Bool.not_eq_true'] at low
        · exact isHighSurrogate_digit unit (decimal unit digit)
      have plain := toText_eq_map phone scalar
      refine { trimmed := trimmed.symm, plain := plain, spelled := ?_ }
      refine ⟨digits.map widen, ?_, ?_, ?_⟩
      · rw [plain, whole, List.map_append]
        rfl
      · rw [List.length_map]
        exact size
      · intro symbol member
        obtain ⟨unit, digit, same⟩ := List.mem_map.mp member
        rw [← same]
        exact isAsciiDigit_widen unit (decimal unit digit)

theorem Sent.run {value phone : JsString} (sends : Sent value phone) :
    SubmitPhoneSerializer.run (body phone) = .ok ⟨toText phone, sends.spelled.isPhone⟩ :=
  (SubmitPhoneSerializer.validate_eq_ok (.string (toText phone)) _).mpr
    ⟨toText phone, rfl, sends.spelled.isPhone.strip_eq⟩

theorem Sent.validated {value phone : JsString} (sends : Sent value phone) (server : Request) :
    (request server phone).validated = .ok ⟨toText phone, sends.spelled.isPhone⟩ := by
  simp only [Request.validated, request, sends.run]

theorem Sent.key_iff {first firstPhone second secondPhone : JsString}
    (firstSends : Sent first firstPhone) (secondSends : Sent second secondPhone) :
    dedupKey (toText firstPhone) = dedupKey (toText secondPhone) ↔ trim first = trim second := by
  rw [dedupKey_injective.eq_iff, firstSends.plain, secondSends.plain,
    (List.map_injective_iff.mpr widen_injective).eq_iff, firstSends.trimmed, secondSends.trimmed]

/-- With an empty cache a second submission inside the day is turned away exactly if the
first has the same key. -/
theorem serve_second {first second : Request} {firstPhone secondPhone : ValidatedPhone}
    (firstValid : first.validated = .ok firstPhone)
    (secondValid : second.validated = .ok secondPhone) {started later : Nat}
    (within : later < started + day) :
    (serve sharedCache second later
        (serve sharedCache first started (World.start Store.empty)).2).1 = .duplicate ↔
      dedupKey firstPhone.value = dedupKey secondPhone.value := by
  obtain ⟨_, stored⟩ :=
    Services.serve_valid sharedCache firstValid started (World.start Store.empty)
  obtain ⟨answered, _⟩ := Services.serve_valid sharedCache secondValid later
    (serve sharedCache first started (World.start Store.empty)).2
  rw [answered, stored]
  simp only [sharedCache, World.start]
  rw [Store.add_of_not_live Store.empty dedupValue day rfl, Store.add_fst]
  by_cases same : dedupKey firstPhone.value = dedupKey secondPhone.value
  · have alive : (Store.empty.set started (dedupKey firstPhone.value) dedupValue day).live later
        (dedupKey secondPhone.value) = true := by
      unfold Store.live
      rw [← same, Store.set_self]
      exact decide_eq_true within
    rw [alive]
    exact ⟨fun _ => same, fun _ => rfl⟩
  · have dead : (Store.empty.set started (dedupKey firstPhone.value) dedupValue day).live later
        (dedupKey secondPhone.value) = false := by
      unfold Store.live
      rw [Store.set_other _ _ _ _ (Ne.symm same)]
      rfl
    rw [dead]
    constructor
    · intro impossible
      cases impossible
    · intro equal
      exact absurd equal same

/-- What the page sends, the serializer accepts and keeps as it is, so two submissions have
one key, and inside a day one lead, exactly if their trimmed texts are equal. -/
theorem sent_accepted_unchanged {value phone : JsString} (sends : sent value = some phone) :
    (∃ accepted, SubmitPhoneSerializer.run (body phone) = .ok accepted ∧
      accepted.value = toText phone ∧
      dedupKey accepted.value = text "dedup:phone:" ++ toText phone) ∧
    ∀ other otherPhone, sent other = some otherPhone →
      (dedupKey (toText phone) = dedupKey (toText otherPhone) ↔ trim value = trim other) ∧
      ∀ server otherServer started later, later < started + day →
        ((serve sharedCache (request otherServer otherPhone) later
            (serve sharedCache (request server phone) started (World.start Store.empty)).2).1 =
          .duplicate ↔ trim value = trim other) := by
  have kept := sent_spelled sends
  constructor
  · exact ⟨_, kept.run, rfl, rfl⟩
  · intro other otherPhone otherSends
    have otherKept := sent_spelled otherSends
    constructor
    · exact kept.key_iff otherKept
    · intro server otherServer started later within
      rw [serve_second (kept.validated server) (otherKept.validated otherServer) within]
      exact kept.key_iff otherKept

/-- A field padded on the left with U+FEFF, which only the page's `trim` removes. -/
theorem sent_accepted_unchanged_padded :
    sent (0xFEFF :: codeUnits "+989121234567 ") = some (codeUnits "+989121234567") ∧
      ∃ accepted, SubmitPhoneSerializer.run (body (codeUnits "+989121234567")) = .ok accepted ∧
        accepted.value = text "+989121234567" ∧
        dedupKey accepted.value = text "dedup:phone:+989121234567" := by
  have sends : sent (0xFEFF :: codeUnits "+989121234567 ") = some (codeUnits "+989121234567") := by
    decide
  obtain ⟨⟨accepted, ran, value, key⟩, _⟩ := sent_accepted_unchanged sends
  refine ⟨sends, accepted, ran, value, ?_⟩
  rw [value]
  decide

end Page

end Bistland
