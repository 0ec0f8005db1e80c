/-
The script of the landing page as an event loop. `submitPhone` runs to its first `await`
at once and from there in the turns in which `fetch` and `res.json` settle; the button is
disabled in between, and the Enter key reaches the same function past the button.
-/

import Bistland.PageSubmission
import Bistland.Library.TransitionSystem

namespace Bistland

open JavaScript

/-! ### State -/

/-- What a suspended call of `submitPhone` waits for. -/
inductive Awaited where
  | response
  | data (resOk : Bool)
  deriving DecidableEq

/-- A call of `submitPhone` between its fetch and its `finally` block. -/
structure Flight where
  id : Nat
  phone : JsString
  awaited : Awaited
  deriving DecidableEq

/-- The members of the answer that the script reads. -/
structure Data where
  ok : Bool
  duplicate : Bool
  error : Option JsString

/-- A call that has run its `finally` block, and how many had been made by then. -/
structure Completion where
  id : Nat
  started : Nat
  deriving DecidableEq

/-- The elements the script changes and its suspended calls. `started` counts the calls of
`submitPhone`, those over a text that is no phone included; `writer` is the one of them that
wrote the message shown, and `completions` are those that have run their `finally` block. -/
structure Page where
  value : JsString
  disabled : Bool
  message : String
  color : String
  inFlight : List Flight
  started : Nat
  writer : Option Nat
  completions : List Completion

def Page.start : Page :=
  { value := []
    disabled := false
    message := ""
    color := ""
    inFlight := []
    started := 0
    writer := none
    completions := [] }

/-- A promise settles with a value or is rejected; a body that is `null` raises where it is
read and so settles as a rejection. -/
inductive PageAction where
  | edit (value : JsString)
  | click
  | keydown (key : JsString)
  | fetchSettles (index : Nat) (resOk : Option Bool)
  | jsonSettles (index : Nat) (data : Option Data)

/-! ### The script -/

namespace Page

/-- `setMessage`, called by the call of a number. -/
def setMessage (page : Page) (writer : Nat) (shown : String) (ok : Bool) : Page :=
  { page with
    message := shown
    color := if ok then "#007bff" else "#ff4d4f"
    writer := some writer }

/-- A text that is no phone ends the call at once. -/
def refuse (page : Page) : Page :=
  { page.setMessage page.started "Invalid phone format. Use +989XXXXXXXX" false with
    started := page.started + 1 }

/-- From the disabled button to the first `await`. -/
def fetch (page : Page) (phone : JsString) : Page :=
  { page.setMessage page.started "Submitting..." true with
    disabled := true
    inFlight := page.inFlight ++ [{ id := page.started, phone := phone, awaited := .response }]
    started := page.started + 1 }

def submitPhone (page : Page) : Page :=
  match sent page.value with
  | none => page.refuse
  | some phone => page.fetch phone

/-- The rest of the `try` block, once the body is there. -/
def receive (page : Page) (flight : Flight) (resOk : Bool) (data : Data) : Page :=
  if resOk && data.ok then
    let told := page.setMessage flight.id
      (if data.duplicate then "Phone already submitted." else "Phone submitted successfully.") true
    if !data.duplicate then { told with value := [] } else told
  else if data.error = some (codeUnits "invalid_phone") then
    page.setMessage flight.id "Invalid phone number." false
  else if data.error = some (codeUnits "rate_limited") then
    page.setMessage flight.id "Too many attempts. Please try again later." false
  else page.setMessage flight.id "Unknown error occurred." false

/-- The `catch` block. -/
def networkError (page : Page) (flight : Flight) : Page :=
  page.setMessage flight.id "Network error. Please try again." false

/-- The `finally` block. -/
def leave (page : Page) (index : Nat) (flight : Flight) : Page :=
  { page with
    disabled := false
    inFlight := page.inFlight.eraseIdx index
    completions := page.completions ++ [{ id := flight.id, started := page.started }] }

def step (page : Page) : PageAction → Option Page
  | .edit value => some { page with value := value }
  | .click => some (if page.disabled then page else page.submitPhone)
  | .keydown key => some (if key = codeUnits "Enter" then page.submitPhone else page)
  | .fetchSettles index resOk =>
      match page.inFlight[index]? with
      | none => none
      | some flight =>
          match flight.awaited, resOk with
          | .response, none => some ((page.networkError flight).leave index flight)
          | .response, some resOk =>
              some { page with
                inFlight := page.inFlight.set index { flight with awaited := .data resOk } }
          | .data _, _ => none
  | .jsonSettles index data =>
      match page.inFlight[index]? with
      | none => none
      | some flight =>
          match flight.awaited, data with
          | .data _, none => some ((page.networkError flight).leave index flight)
          | .data resOk, some data => some ((page.receive flight resOk data).leave index flight)
          | .response, _ => none

def system : Transition.System Page PageAction :=
  { initial := Page.start
    step := Page.step }

/-! ### One submission at a time -/

/-- At most one call is in flight and the button shows it; the call in flight is the last one
that was made, the message shown is that of the last one, and a call that ended, and cleared
the field if it succeeded, was the last one then. -/
structure OneInFlight (page : Page) : Prop where
  atMostOne : page.inFlight.length ≤ 1
  button : page.disabled = true ↔ page.inFlight.length = 1
  newest : ∀ flight ∈ page.inFlight, flight.id + 1 = page.started
  message : ∀ id, page.writer = some id ↔ id + 1 = page.started
  completed : ∀ completion ∈ page.completions, completion.id + 1 = completion.started

/-- Enter is not pressed while a call is in flight. -/
def Waits (page : Page) : PageAction → Prop
  | .keydown key => key = codeUnits "Enter" → page.inFlight = []
  | _ => True

instance decidableWaits (page : Page) (action : PageAction) : Decidable (page.Waits action) :=
  match action with
  | .keydown key => inferInstanceAs (Decidable (key = codeUnits "Enter" → page.inFlight = []))
  | .edit _ => isTrue trivial
  | .click => isTrue trivial
  | .fetchSettles _ _ => isTrue trivial
  | .jsonSettles _ _ => isTrue trivial

/-! ### What a turn of the event loop can do -/

/-- Whether the action calls `submitPhone`. -/
def invokes (page : Page) : PageAction → Bool
  | .click => !page.disabled
  | .keydown key => key = codeUnits "Enter"
  | _ => false

/-- The phone that the action makes the script send, if it makes it send one. -/
def sends (page : Page) (action : PageAction) : Option JsString :=
  if page.invokes action then sent page.value else none

/-- Only the text of the field has changed, or what a call in flight waits for. -/
structure Unmoved (page next : Page) : Prop where
  disabled : next.disabled = page.disabled
  message : next.message = page.message
  flights : next.inFlight.map Flight.id = page.inFlight.map Flight.id
  started : next.started = page.started
  writer : next.writer = page.writer
  completions : next.completions = page.completions

/-- Only the message, its writer and the field have changed. -/
structure Told (page told : Page) (flight : Flight) : Prop where
  inFlight : told.inFlight = page.inFlight
  started : told.started = page.started
  writer : told.writer = some flight.id
  completions : told.completions = page.completions

inductive Step (page : Page) (action : PageAction) : Page → Prop
  | quiet {next : Page} (silent : page.invokes action = false) (unmoved : page.Unmoved next) :
      Step page action next
  | refuses (invoked : page.invokes action = true) (invalid : sent page.value = none) :
      Step page action page.refuse
  | fetches {phone : JsString} (invoked : page.invokes action = true)
      (valid : sent page.value = some phone) : Step page action (page.fetch phone)
  | leaves {index : Nat} {flight : Flight} {told : Page} (silent : page.invokes action = false)
      (found : page.inFlight[index]? = some flight) (said : page.Told told flight) :
      Step page action (told.leave index flight)

theorem Unmoved.refl (page : Page) : page.Unmoved page :=
  { disabled := rfl
    message := rfl
    flights := rfl
    started := rfl
    writer := rfl
    completions := rfl }

theorem told_receive (page : Page) (flight : Flight) (resOk : Bool) (data : Data) :
    page.Told (page.receive flight resOk data) flight := by
  unfold receive
  split
  · cases data.duplicate <;>
      exact { inFlight := rfl, started := rfl, writer := rfl, completions := rfl }
  · split
    · exact { inFlight := rfl, started := rfl, writer := rfl, completions := rfl }
    · split <;> exact { inFlight := rfl, started := rfl, writer := rfl, completions := rfl }

theorem told_networkError (page : Page) (flight : Flight) :
    page.Told (page.networkError flight) flight :=
  { inFlight := rfl
    started := rfl
    writer := rfl
    completions := rfl }

theorem map_id_set (flights : List Flight) {index : Nat} {flight : Flight}
    (found : flights[index]? = some flight) (awaited : Awaited) :
    (flights.set index { flight with awaited := awaited }).map Flight.id =
      flights.map Flight.id := by
  have held : (flights.map Flight.id)[index]? = some flight.id := by
    rw [List.getElem?_map, found]
    rfl
  obtain ⟨inside, same⟩ := List.getElem?_eq_some_iff.mp held
  rw [List.map_set]
  change (flights.map Flight.id).set index flight.id = flights.map Flight.id
  rw [← same]
  exact List.set_getElem_self inside

theorem step_submitPhone {page : Page} {action : PageAction}
    (invoked : page.invokes action = true) : Step page action page.submitPhone := by
  unfold submitPhone
  cases valid : sent page.value with
  | none => exact .refuses invoked valid
  | some phone => exact .fetches invoked valid

theorem step_cases {page next : Page} {action : PageAction}
    (taken : system.step page action = some next) : Step page action next := by
  cases action with
  | edit value =>
      cases taken
      exact .quiet rfl { Unmoved.refl page with }
  | click =>
      have taken : some (if page.disabled then page else page.submitPhone) = some next := taken
      cases pressed : page.disabled with
      | true =>
          rw [pressed] at taken
          cases taken
          exact .quiet (congrArg not pressed) (Unmoved.refl page)
      | false =>
          rw [pressed] at taken
          cases taken
          exact step_submitPhone (congrArg not pressed)
  | keydown key =>
      have taken : some (if key = codeUnits "Enter" then page.submitPhone else page) = some next :=
        taken
      by_cases enter : key = codeUnits "Enter"
      · rw [if_pos enter] at taken
        cases taken
        exact step_submitPhone (decide_eq_true enter)
      · rw [if_neg enter] at taken
        cases taken
        exact .quiet (decide_eq_false enter) (Unmoved.refl page)
  | fetchSettles index resOk =>
      simp only [system, step] at taken
      cases found : page.inFlight[index]? with
      | none =>
          rw [found] at taken
          cases taken
      | some flight =>
          rw [found] at taken
          cases awaited : flight.awaited with
          | data resOk =>
              simp only [awaited] at taken
              cases taken
          | response =>
              cases resOk with
              | none =>
                  simp only [awaited] at taken
                  cases taken
                  exact .leaves rfl found (told_networkError page flight)
              | some resOk =>
                  simp only [awaited] at taken
                  cases taken
                  exact .quiet rfl
                    { Unmoved.refl page with
                      flights := map_id_set page.inFlight found (.data resOk) }
  | jsonSettles index data =>
      simp only [system, step] at taken
      cases found : page.inFlight[index]? with
      | none =>
          rw [found] at taken
          cases taken
      | some flight =>
          rw [found] at taken
          cases awaited : flight.awaited with
          | response =>
              simp only [awaited] at taken
              cases taken
          | data resOk =>
              cases data with
              | none =>
                  simp only [awaited] at taken
                  cases taken
                  exact .leaves rfl found (told_networkError page flight)
              | some data =>
                  simp only [awaited] at taken
                  cases taken
                  exact .leaves rfl found (told_receive page flight resOk data)

/-! ### When the invariant is kept -/

section Invariant

variable {page next told : Page} {action : PageAction} {phone : JsString} {index : Nat}
  {flight : Flight}

theorem OneInFlight.start : OneInFlight Page.start :=
  { atMostOne := Nat.zero_le 1
    button := by decide
    newest := fun flight absent => by cases absent
    message := fun id => iff_of_false (fun absent => by cases absent) (Nat.succ_ne_zero id)
    completed := fun completion absent => by cases absent }

theorem OneInFlight.unmoved (single : page.OneInFlight) (unmoved : page.Unmoved next) :
    next.OneInFlight := by
  obtain ⟨disabled, _, flights, started, writer, completions⟩ := unmoved
  have size : next.inFlight.length = page.inFlight.length := by
    rw [← List.length_map Flight.id, flights, List.length_map]
  constructor
  · rw [size]
    exact single.atMostOne
  · rw [size, disabled]
    exact single.button
  · intro flight member
    rw [started]
    have present := List.mem_map_of_mem (f := Flight.id) member
    rw [flights] at present
    obtain ⟨old, oldMember, same⟩ := List.mem_map.mp present
    rw [← same]
    exact single.newest old oldMember
  · rw [started, writer]
    exact single.message
  · rw [completions]
    exact single.completed

/-- The message of a call that was just made is its own. -/
theorem written_last {id last : Nat} : some last = some id ↔ id + 1 = last + 1 := by
  rw [Option.some.injEq, Nat.add_right_cancel_iff, eq_comm]

theorem OneInFlight.refuse_iff (single : page.OneInFlight) :
    page.refuse.OneInFlight ↔ page.inFlight = [] := by
  constructor
  · intro kept
    apply List.eq_nil_iff_forall_not_mem.mpr
    intro flight flying
    have before := single.newest flight flying
    have now : flight.id + 1 = page.started + 1 := kept.newest flight flying
    omega
  · intro empty
    refine { single with newest := ?_, message := fun id => written_last }
    intro flight flying
    have flying : flight ∈ page.inFlight := flying
    rw [empty] at flying
    cases flying

theorem OneInFlight.fetch_iff (single : page.OneInFlight) (phone : JsString) :
    (page.fetch phone).OneInFlight ↔ page.inFlight = [] := by
  have size : (page.fetch phone).inFlight.length = page.inFlight.length + 1 :=
    List.length_append
  constructor
  · intro kept
    have small := kept.atMostOne
    apply List.eq_nil_of_length_eq_zero
    omega
  · intro empty
    rw [empty] at size
    constructor
    · exact Nat.le_of_eq size
    · exact ⟨fun _ => size, fun _ => rfl⟩
    · intro flight member
      have member : flight ∈ page.inFlight ++ [_] := member
      rw [empty, List.nil_append] at member
      rw [List.mem_singleton.mp member]
      rfl
    · exact fun id => written_last
    · exact single.completed

theorem OneInFlight.leave (single : page.OneInFlight) (found : page.inFlight[index]? = some flight)
    (said : page.Told told flight) : (told.leave index flight).OneInFlight := by
  obtain ⟨inFlight, started, writer, completions⟩ := said
  have newest := single.newest flight (List.mem_of_getElem? found)
  obtain ⟨inside, _⟩ := List.getElem?_eq_some_iff.mp found
  have empty : (told.leave index flight).inFlight = [] := by
    have small := single.atMostOne
    apply List.eq_nil_of_length_eq_zero
    change (told.inFlight.eraseIdx index).length = 0
    rw [inFlight, List.length_eraseIdx_of_lt inside]
    omega
  constructor
  · rw [empty]
    exact Nat.zero_le 1
  · rw [empty]
    change false = true ↔ 0 = 1
    decide
  · rw [empty]
    intro other absent
    cases absent
  · intro id
    change told.writer = some id ↔ id + 1 = told.started
    rw [writer, started, ← newest]
    exact written_last
  · intro completion member
    have member : completion ∈ told.completions ++ [_] := member
    rw [completions] at member
    rcases List.mem_append.mp member with old | last
    · exact single.completed completion old
    · rw [List.mem_singleton.mp last, started]
      exact newest

theorem waits_of_silent (silent : page.invokes action = false) : page.Waits action := by
  cases action with
  | keydown key =>
      intro enter
      exact absurd enter (of_decide_eq_false silent)
  | _ => trivial

theorem OneInFlight.waits_iff (single : page.OneInFlight)
    (invoked : page.invokes action = true) : page.Waits action ↔ page.inFlight = [] := by
  cases action with
  | click =>
      have free : page.inFlight = [] := by
        have enabled : (!page.disabled) = true := invoked
        have small := single.atMostOne
        apply List.eq_nil_of_length_eq_zero
        by_contra flying
        rw [single.button.mpr (by omega)] at enabled
        cases enabled
      exact ⟨fun _ => free, fun _ => trivial⟩
  | keydown key => exact ⟨fun waits => waits (of_decide_eq_true invoked), fun free _ => free⟩
  | edit value => cases invoked
  | fetchSettles index resOk => cases invoked
  | jsonSettles index data => cases invoked

theorem OneInFlight.step_iff (single : page.OneInFlight)
    (taken : system.step page action = some next) : next.OneInFlight ↔ page.Waits action := by
  cases step_cases taken with
  | quiet silent unmoved =>
      exact ⟨fun _ => waits_of_silent silent, fun _ => single.unmoved unmoved⟩
  | refuses invoked invalid => rw [single.refuse_iff, single.waits_iff invoked]
  | fetches invoked valid => rw [single.fetch_iff, single.waits_iff invoked]
  | leaves silent found said =>
      exact ⟨fun _ => waits_of_silent silent, fun _ => single.leave found said⟩

end Invariant

/-- The page has one submission in flight at most, exactly if Enter waits for the one in
flight; the disabled button itself lets nothing through. -/
theorem one_in_flight_exactly {actions : List PageAction} {page : Page}
    (completed : system.exec Page.start actions = some page) :
    (system.Always OneInFlight Page.start actions ↔
      system.Guarded Waits Page.start actions) ∧
    (page.disabled = true → system.step page .click = some page) := by
  constructor
  · apply system.always_iff_guarded (fun (always : True) _ => always) ?_ trivial OneInFlight.start
      completed
    intro _ _ _ _ single taken
    exact single.step_iff taken
  · intro pressed
    exact congrArg some (if_pos pressed)

/-- Enter over the phone that a click has just sent. -/
def impatientRun : List PageAction :=
  [.edit (codeUnits "+989121234567"), .click, .keydown (codeUnits "Enter"),
    .fetchSettles 0 (some true),
    .jsonSettles 0 (some { ok := true, duplicate := true, error := none })]

theorem enter_overtakes : ∃ page, system.exec Page.start (impatientRun.take 3) = some page ∧
    page.inFlight.length = 2 ∧ ¬page.OneInFlight ∧
    ∃ later, system.exec Page.start impatientRun = some later ∧ later.disabled = false ∧
      later.inFlight.length = 1 ∧ later.writer = some 0 ∧ later.started = 2 := by
  have overtaken : (system.exec Page.start (impatientRun.take 3)).any (fun page =>
      decide (page.inFlight.length = 2)) = true := by decide
  have finished : (system.exec Page.start impatientRun).any (fun page =>
      decide (page.disabled = false) && decide (page.inFlight.length = 1) &&
        decide (page.writer = some 0) && decide (page.started = 2)) = true := by decide
  obtain ⟨page, completed, two⟩ := system.exec_of_any overtaken
  obtain ⟨later, laterCompleted, checked⟩ := system.exec_of_any finished
  simp only [Bool.and_eq_true, decide_eq_true_eq] at checked two
  obtain ⟨⟨⟨enabled, flying⟩, wrote⟩, started⟩ := checked
  refine ⟨page, completed, two, ?_, later, laterCompleted, enabled, flying, wrote, started⟩
  intro single
  have small := single.atMostOne
  omega

/-- Enter over the empty field, a click, a rejected fetch, and Enter after it. -/
def patientRun : List PageAction :=
  [.keydown (codeUnits "Enter"), .edit (codeUnits "+989121234567"), .click, .click,
    .fetchSettles 0 none, .keydown (codeUnits "Enter"), .fetchSettles 0 (some true),
    .jsonSettles 0 (some { ok := true, duplicate := false, error := none })]

theorem one_in_flight_exactly_retried : ∃ page, system.exec Page.start patientRun = some page ∧
    system.Always OneInFlight Page.start patientRun ∧ page.value = [] ∧ page.started = 3 ∧
      page.message = "Phone submitted successfully." := by
  have finished : (system.exec Page.start patientRun).any (fun page =>
      decide (page.value = []) && decide (page.started = 3) &&
        decide (page.message = "Phone submitted successfully.")) = true := by decide
  obtain ⟨page, completed, checked⟩ := system.exec_of_any finished
  simp only [Bool.and_eq_true, decide_eq_true_eq] at checked
  obtain ⟨⟨cleared, started⟩, told⟩ := checked
  have waits : system.Guarded Waits Page.start patientRun := by decide
  exact ⟨page, completed, (one_in_flight_exactly completed).1.mpr waits, cleared, started, told⟩

end Page

end Bistland
