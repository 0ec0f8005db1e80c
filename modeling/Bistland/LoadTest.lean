/-
The load that locustfile.py puts on the endpoint. Its random numbers are spelled as phones the
serializer accepts, one key for each, so that in a run of less than a day in which Locust sees
no failure the leads are the distinct numbers it has drawn; a failure it sees is never one of
validation.
-/

import Bistland.Conservation
import Bistland.PhoneSpelling
import Bistland.Provenance

namespace Bistland

open Expiring OwnerAccounts Python

/-! ### The first day of the endpoint -/

/-- Each call is answered, and with status 200. -/
def Web.AllServed (web : Web) : Prop :=
  ∀ call ∈ web.calls, ∃ response, call.phase = .returned response ∧ response.status = 200

def Call.phone (call : Call) : Option ValidatedPhone :=
  call.request.validated.toOption

theorem Call.phone_eq_some (call : Call) (phone : ValidatedPhone) :
    call.phone = some phone ↔ call.request.validated = .ok phone := by
  unfold Call.phone
  cases call.request.validated with
  | error failure => simp [Except.toOption]
  | ok held => simp [Except.toOption]

namespace Web

variable {web : Web}

def phones (web : Web) : List ValidatedPhone :=
  web.calls.filterMap Call.phone

/-- The keys of the accepted attempts, in their order. -/
def acceptedKeys (web : Web) : List ValidatedPhone :=
  (web.attempts.filter Attempt.accepted).map Attempt.key

theorem Inv.queued_eq_accepted (inv : web.Inv) (served : web.AllServed) :
    web.answered Response.isQueued = web.acceptedKeys.length := by
  have counted : web.attempts.countP (fun attempt => (Bistland.answerOf attempt).2) =
      (web.calls.map (fun call => (call.phase.answers Response.isQueued).toNat)).sum := by
    apply inv.attempted.countP (fun answer : ValidatedPhone × Bool => answer.2)
    intro index call answers found attempted
    obtain ⟨response, stands, status⟩ := served call (List.mem_of_getElem? found)
    rw [Call.Attempted, stands] at attempted
    rw [stands]
    rcases response.status_ok.mp status with rfl | rfl
    · obtain ⟨phone, _, rfl⟩ := attempted
      rfl
    · obtain ⟨phone, _, rfl⟩ := attempted
      rfl
  rw [web.sum_tally (Phase.answers Response.isQueued)] at counted
  rw [acceptedKeys, List.length_map, ← List.countP_eq_length_filter]
  exact counted.symm

theorem Inv.acceptedKeys_nodup (inv : web.Inv) (early : web.now < day) :
    web.acceptedKeys.Nodup := by
  unfold acceptedKeys List.Nodup
  rw [List.pairwise_map]
  have separated := inv.gate.exact.separated.filter Attempt.accepted
  apply (List.Pairwise.and_mem.mp separated).imp
  rintro first later ⟨present, laterPresent, apart⟩ same
  obtain ⟨_, accepted⟩ := List.mem_filter.mp present
  obtain ⟨attempted, laterAccepted⟩ := List.mem_filter.mp laterPresent
  have past := inv.gate.tracks.past later attempted
  have aDay := apart same accepted laterAccepted
  omega

/-- Where each call is served, the phones that were accepted are those that were submitted. -/
theorem Inv.mem_acceptedKeys (inv : web.Inv) (served : web.AllServed) (phone : ValidatedPhone) :
    phone ∈ web.acceptedKeys ↔ phone ∈ web.phones := by
  unfold acceptedKeys phones
  constructor
  · intro member
    obtain ⟨attempt, accepted, rfl⟩ := List.mem_map.mp member
    obtain ⟨call, answers, found, attempted, answer⟩ := inv.maker (List.mem_filter.mp accepted).1
    exact List.mem_filterMap.mpr ⟨call, List.mem_of_getElem? found,
      (call.phone_eq_some _).mpr (attempted.answered answer).1⟩
  · intro member
    obtain ⟨call, present, held⟩ := List.mem_filterMap.mp member
    have valid := (call.phone_eq_some phone).mp held
    obtain ⟨index, found⟩ := List.getElem?_of_mem present
    obtain ⟨response, stands, status⟩ := served call present
    have first : ∃ attempt ∈ web.attempts, attempt.key = phone ∧ attempt.accepted = true := by
      rcases response.status_ok.mp status with rfl | rfl
      · obtain ⟨attempt, attempted, _, key, refused⟩ := inv.attempt_of_answers found
          (fun answers attempted => attempted.of_logged valid (by rw [stands]; rfl))
        obtain ⟨older, newer, split⟩ := List.append_of_mem attempted
        by_contra none
        have clear := (inv.gate.exact older attempt newer split).mpr (by
          intro earlier member same accepted _
          apply none
          refine ⟨earlier, ?_, same.trans key, accepted⟩
          rw [split]
          exact List.mem_append_left _ member)
        rw [refused] at clear
        cases clear
      · obtain ⟨attempt, attempted, _, key, accepted⟩ := inv.attempt_of_answers found
          (fun answers attempted => attempted.of_saved valid (by rw [stands]; rfl))
        exact ⟨attempt, attempted, key, accepted⟩
    obtain ⟨attempt, attempted, key, accepted⟩ := first
    exact List.mem_map.mpr ⟨attempt, List.mem_filter.mpr ⟨attempted, accepted⟩, key⟩

/-- On the first day the leads are the distinct phones. -/
theorem Inv.first_day (inv : web.Inv) (early : web.now < day) (served : web.AllServed) :
    web.answered Response.isQueued = web.phones.dedup.length := by
  rw [inv.queued_eq_accepted served]
  apply List.Perm.length_eq
  apply (List.perm_ext_iff_of_nodup (inv.acceptedKeys_nodup early) (List.nodup_dedup _)).mpr
  intro phone
  rw [inv.mem_acceptedKeys served, List.mem_dedup]

end Web

/-! ### The simulated users -/

/-- `random.randint(100000000, 999999999)`. -/
structure RandomNumber where
  value : Nat
  lower : 100000000 ≤ value
  upper : value ≤ 999999999
  deriving DecidableEq

namespace SubmitUser

/-- `f"+989{random_number}"`. -/
def phoneNumber (number : RandomNumber) : Str :=
  text "+989" ++ strNat number.value

/-- The payload as the server has parsed it. -/
def payload (number : RandomNumber) : Json :=
  .object [(text "phone", .string (phoneNumber number))]

def request (server : Request) (number : RandomNumber) : Request :=
  { server with
    path := text "/api/submit"
    data := .ok (payload number) }

/-- Whether a response is marked a success. -/
def succeeds (response : Response) : Bool :=
  response.status = 200

end SubmitUser

/-! ### Numbers as phones -/

theorem strNat_injective : Function.Injective strNat := by
  intro first second same
  have codes : Function.Injective (fun symbol : Char => Fin.ofNat 0x110000 symbol.toNat) := by
    intro left right equal
    have values := congrArg Fin.val equal
    change left.toNat % 0x110000 = right.toNat % 0x110000 at values
    have bounded : ∀ symbol : Char, symbol.toNat < 0x110000 := by
      intro symbol
      rcases symbol.valid with low | high
      · exact Nat.lt_trans low (by decide)
      · exact high.2
    rw [Nat.mod_eq_of_lt (bounded left), Nat.mod_eq_of_lt (bounded right)] at values
    exact Char.toNat_inj.mp values
  have digits := List.map_injective_iff.mpr codes same
  have read := congrArg (fun shown => Nat.ofDigitChars 10 shown 0) digits
  simpa using read

theorem isAsciiDigit_of_mem_strNat {value : Nat} {symbol : CodePoint}
    (member : symbol ∈ strNat value) : isAsciiDigit symbol = true := by
  obtain ⟨digit, shown, rfl⟩ := List.mem_map.mp member
  have isDigit := Nat.isDigit_of_mem_toDigits (by decide) (by decide) shown
  have bounds : 48 ≤ digit.toNat ∧ digit.toNat ≤ 57 := by
    simp only [Char.isDigit, Bool.and_eq_true, decide_eq_true_eq, ge_iff_le,
      UInt32.le_iff_toNat_le] at isDigit
    exact isDigit
  have code : (Fin.ofNat 0x110000 digit.toNat).val = digit.toNat := Nat.mod_eq_of_lt (by omega)
  unfold isAsciiDigit
  rw [code, Bool.and_eq_true, decide_eq_true_eq, decide_eq_true_eq]
  omega

namespace SubmitUser

theorem phoneNumber_spelled (number : RandomNumber) : AsciiSpelled (phoneNumber number) := by
  refine ⟨strNat number.value, rfl, ?_, fun symbol => isAsciiDigit_of_mem_strNat⟩
  have lower := number.lower
  have upper := number.upper
  have atMost := (Nat.length_toDigits_le_iff (b := 10) (n := number.value) (k := 9) (by decide)
    (by decide)).mpr (by omega)
  have above : ¬(Nat.toDigits 10 number.value).length ≤ 8 := by
    rw [Nat.length_toDigits_le_iff (by decide) (by decide)]
    omega
  unfold strNat
  rw [List.length_map]
  omega

def phone (number : RandomNumber) : ValidatedPhone :=
  ⟨phoneNumber number, (phoneNumber_spelled number).isPhone⟩

theorem phone_injective : Function.Injective phone := by
  intro first second same
  have values := strNat_injective (List.append_cancel_left (congrArg ValidatedPhone.value same))
  cases first
  cases second
  cases values
  rfl

theorem validated (server : Request) (number : RandomNumber) :
    (request server number).validated = .ok (phone number) := by
  have run : SubmitPhoneSerializer.run (payload number) = .ok (phone number) :=
    (SubmitPhoneSerializer.validate_eq_ok (.string (phoneNumber number)) _).mpr
      ⟨phoneNumber number, rfl, (phone number).spelled.strip_eq⟩
  simp only [Request.validated, request, run]

end SubmitUser

/-! ### A load test -/

/-- What Locust can see of the endpoint and what it cannot. -/
structure LoadAccounted (web : Web) (load : List (Request × RandomNumber)) : Prop where
  accepted : ∀ call ∈ web.calls, ∃ number ∈ load.map Prod.snd,
    call.request.validated = .ok (SubmitUser.phone number)
  keys : ∀ first second, dedupKey (SubmitUser.phoneNumber first) =
    dedupKey (SubmitUser.phoneNumber second) ↔ first = second
  failures : ∀ call ∈ web.calls, ∀ response, call.phase = .returned response →
    SubmitUser.succeeds response = false → ∃ detail,
      response = .error (.cacheAdd detail) ∨ response = .error (.logDelay detail) ∨
        response = .error (.saveDelay detail)
  leads : web.now < day →
    (∀ call ∈ web.calls, ∃ response, call.phase = .returned response ∧
      SubmitUser.succeeds response = true) →
      web.answered Response.isQueued = (load.map Prod.snd).dedup.length ∧
        web.answered Response.isQueued + web.answered Response.isDuplicate = load.length

namespace Web

theorem calls_eq {actions : List WebAction} {web : Web}
    (completed : system.exec Web.start actions = some web) :
    web.calls.map Call.request = actions.filterMap arrival :=
  system.exec_history (fun web : Web => web.calls.map Call.request) arrival step_arrival completed

theorem AllServed.answered_length {web : Web} (served : web.AllServed) :
    web.answered Response.isQueued + web.answered Response.isDuplicate = web.calls.length := by
  rw [← web.answered_served]
  apply List.countP_eq_length.mpr
  intro call member
  obtain ⟨response, stands, status⟩ := served call member
  rw [stands]
  rcases response.status_ok.mp status with rfl | rfl <;> rfl

theorem phones_of_requests {web : Web} {load : List (Request × RandomNumber)}
    (requests : web.calls.map Call.request =
      load.map (fun each => SubmitUser.request each.1 each.2)) :
    web.phones = (load.map Prod.snd).map SubmitUser.phone := by
  have listed : web.phones = (web.calls.map Call.request).filterMap
      (fun request => request.validated.toOption) := by
    rw [List.filterMap_map]
    rfl
  rw [listed, requests, List.filterMap_map, List.map_map]
  apply List.filterMap_eq_map_iff_forall_eq_some.mpr
  intro each _
  simp only [Function.comp_apply, SubmitUser.validated, Except.toOption]

theorem load_accounted {actions : List WebAction} {web : Web}
    {load : List (Request × RandomNumber)}
    (completed : system.exec Web.start actions = some web)
    (arrivals : actions.filterMap arrival =
      load.map (fun each => SubmitUser.request each.1 each.2)) : LoadAccounted web load := by
  have inv := inv_of_reachable (system.reachable_of_exec completed)
  have requests := (calls_eq completed).trans arrivals
  have accepted : ∀ call ∈ web.calls, ∃ number ∈ load.map Prod.snd,
      call.request.validated = .ok (SubmitUser.phone number) := by
    intro call member
    have listed := List.mem_map_of_mem (f := Call.request) member
    rw [requests] at listed
    obtain ⟨each, present, same⟩ := List.mem_map.mp listed
    refine ⟨each.2, List.mem_map_of_mem present, ?_⟩
    rw [← same]
    exact SubmitUser.validated each.1 each.2
  refine { accepted := accepted, keys := ?_, failures := ?_, leads := ?_ }
  · intro first second
    constructor
    · intro same
      exact SubmitUser.phone_injective (dedupKey_value_injective same)
    · intro same
      rw [same]
  · intro call member response stands failed
    obtain ⟨number, _, valid⟩ := accepted call member
    cases response with
    | duplicate => cases failed
    | queued => cases failed
    | error failure =>
        obtain ⟨detail, which⟩ := inv.failure_of_valid member valid stands
        refine ⟨detail, ?_⟩
        rcases which with rfl | rfl | rfl
        · exact Or.inl rfl
        · exact Or.inr (Or.inl rfl)
        · exact Or.inr (Or.inr rfl)
  · intro early succeeded
    have served : web.AllServed := by
      intro call member
      obtain ⟨response, stands, good⟩ := succeeded call member
      exact ⟨response, stands, of_decide_eq_true good⟩
    have total : web.calls.length = load.length := by
      have lengths := congrArg List.length requests
      rw [List.length_map, List.length_map] at lengths
      exact lengths
    constructor
    · rw [inv.first_day early served, phones_of_requests requests,
        List.dedup_map_of_injective SubmitUser.phone_injective, List.length_map]
    · rw [served.answered_length, total]

/-- Three users, two of whom have drawn one number. -/
def exampleLoad : List (Request × RandomNumber) :=
  [(exampleRequest, ⟨123456789, by decide, by decide⟩),
    (exampleRequest, ⟨999999999, by decide, by decide⟩),
    (exampleRequest, ⟨123456789, by decide, by decide⟩)]

/-- They arrive at once, and the last one is the first at the cache. -/
def loadRun : List WebAction :=
  exampleLoad.map (fun each => .arrive (SubmitUser.request each.1 each.2)) ++
    [2, 2, 1, 0, 1, 0, 0, 1, 2, 2, 1, 0, 1, 2].map (fun call => .resume call .returns)

theorem load_accounted_drawn : ∃ web, system.exec Web.start loadRun = some web ∧
    web.answered Response.isQueued = 2 ∧ web.answered Response.isDuplicate = 1 ∧
      LoadAccounted web exampleLoad := by
  have outcome : (system.exec Web.start loadRun).any (fun web =>
      decide (web.answered Response.isQueued = 2) &&
        decide (web.answered Response.isDuplicate = 1)) = true := by decide
  obtain ⟨web, completed, checked⟩ := system.exec_of_any outcome
  rw [Bool.and_eq_true, decide_eq_true_eq, decide_eq_true_eq] at checked
  exact ⟨web, completed, checked.1, checked.2, load_accounted completed rfl⟩

end Web

end Bistland
