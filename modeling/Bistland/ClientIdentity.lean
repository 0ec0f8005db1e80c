/-
The identity a client gets behind the repository's nginx. The proxy appends the
peer address to the header the client sent, and `get_client_ip` takes the first
element, so the client's own header decides the throttle key and the audit log.
-/

import Bistland.SubmitPhoneView

namespace Bistland

open Python

/-! ### The proxy and the throttle -/

/-- The address of a peer as nginx writes it. -/
structure PeerAddress where
  value : Str
  nonempty : value ≠ []
  plain : comma ∉ value
  graphic : ∀ symbol ∈ value, isSpace symbol = false

/-- `$proxy_add_x_forwarded_for`. -/
def proxyAddXForwardedFor (header : Option Str) (peer : PeerAddress) : Str :=
  match header with
  | none => peer.value
  | some xff => xff ++ text ", " ++ peer.value

/-- The request as it reaches the application; `REMOTE_ADDR` is then the proxy's. -/
def Request.proxied (request : Request) (header : Option Str) (peer : PeerAddress) : Request :=
  { request with
    META := { request.META with httpXForwardedFor := some (proxyAddXForwardedFor header peer) } }

namespace SubmitPerIPThrottle

def scope : Str := text "submit_ip"

/-- `cache_format % {"scope": scope, "ident": ident}`. -/
def cacheFormat (scope ident : Str) : Str :=
  text "throttle_" ++ scope ++ text "_" ++ ident

def getCacheKey (request : Request) : Option Str :=
  match getClientIp request with
  | none => none
  | some ip => if ip = [] then none else some (cacheFormat scope ip)

end SubmitPerIPThrottle

def Task.loggedIp : Task → Option Str
  | .savePhoneInSqlTask _ => none
  | .logRequestInMongoTask record => some record.ip

/-! ### Whose address it is -/

/-- Both requests are known by the address of the peer they came from. -/
structure IdentityFixed (first second : Request) (peer : PeerAddress) : Prop where
  same : getClientIp first = getClientIp second
  address : getClientIp first = some peer.value
  key : SubmitPerIPThrottle.getCacheKey first = SubmitPerIPThrottle.getCacheKey second
  throttled : SubmitPerIPThrottle.getCacheKey first ≠ none
  audited : ∀ phone isNewSubmission,
    (first.log phone isNewSubmission).loggedIp = some peer.value ∧
      (second.log phone isNewSubmission).loggedIp = some peer.value

/-- The header is absent or its first element is the peer's address, up to whitespace. -/
def OwnAddress (peer : PeerAddress) (header : Option Str) : Prop :=
  ∀ xff, header = some xff → ∃ before after rest, xff = before ++ peer.value ++ after ++ rest ∧
    (∀ symbol ∈ before, isSpace symbol = true) ∧ (∀ symbol ∈ after, isSpace symbol = true) ∧
      (rest = [] ∨ rest.head? = some comma)

theorem isSpace_comma : isSpace comma = false := by decide

theorem strip_peer (peer : PeerAddress) : strip peer.value = peer.value := by
  apply Text.strip_of_ends
  · intro symbol first
    exact peer.graphic symbol (List.mem_of_mem_head? first)
  · intro symbol last
    exact peer.graphic symbol (List.mem_of_mem_getLast? last)

theorem strip_padded (peer : PeerAddress) {before after : Str}
    (blankBefore : ∀ symbol ∈ before, isSpace symbol = true)
    (blankAfter : ∀ symbol ∈ after, isSpace symbol = true) :
    strip (before ++ peer.value ++ after) = peer.value := by
  change Text.strip isSpace (before ++ peer.value ++ after) = peer.value
  rw [Text.strip_append_right isSpace _ after blankAfter,
    Text.strip_append_left isSpace before _ blankBefore]
  exact strip_peer peer

theorem ownAddress_some (peer : PeerAddress) (xff : Str) :
    OwnAddress peer (some xff) ↔ strip (Text.firstField comma xff) = peer.value := by
  constructor
  · intro own
    obtain ⟨before, after, rest, split, blankBefore, blankAfter, stopped⟩ := own xff rfl
    have free : comma ∉ before ++ peer.value ++ after := by
      have blank : ∀ symbol, isSpace symbol = true → symbol ≠ comma := by
        intro symbol space same
        rw [same, isSpace_comma] at space
        cases space
      intro member
      rcases List.mem_append.mp member with front | back
      · rcases List.mem_append.mp front with leading | inside
        · exact blank comma (blankBefore comma leading) rfl
        · exact peer.plain inside
      · exact blank comma (blankAfter comma back) rfl
    have first : Text.firstField comma xff = before ++ peer.value ++ after := by
      rw [split]
      cases rest with
      | nil =>
          rw [List.append_nil]
          exact Text.firstField_of_free comma _ free
      | cons symbol rest =>
          have isComma : symbol = comma := by
            rcases stopped with empty | ahead
            · cases empty
            · exact Option.some.inj ahead
          rw [isComma]
          exact Text.firstField_append_separator comma _ rest free
    rw [first]
    exact strip_padded peer blankBefore blankAfter
  · intro own other isHeader
    cases isHeader
    obtain ⟨before, after, split, blankBefore, blankAfter⟩ :=
      Text.strip_split isSpace (Text.firstField comma xff)
    change Text.strip isSpace (Text.firstField comma xff) = peer.value at own
    rw [own] at split
    rcases Text.firstField_cases comma xff with ⟨_, whole⟩ | ⟨rest, whole, _⟩
    · refine ⟨before, after, [], ?_, blankBefore, blankAfter, Or.inl rfl⟩
      rw [List.append_nil, ← split, whole]
    · refine ⟨before, after, comma :: rest, ?_, blankBefore, blankAfter, Or.inr rfl⟩
      rw [← split]
      exact whole

theorem getClientIp_proxied_some (request : Request) (xff : Str) (peer : PeerAddress) :
    getClientIp (request.proxied (some xff) peer) = some (strip (Text.firstField comma xff)) := by
  have nonempty : proxyAddXForwardedFor (some xff) peer ≠ [] := by
    intro empty
    exact peer.nonempty (List.append_eq_nil_iff.mp empty).2
  have shape : proxyAddXForwardedFor (some xff) peer = xff ++ comma :: (text " " ++ peer.value) := by
    change xff ++ text ", " ++ peer.value = _
    rw [List.append_assoc]
    rfl
  have field : Text.firstField comma (proxyAddXForwardedFor (some xff) peer) =
      Text.firstField comma xff := by
    rw [shape]
    rcases Text.firstField_cases comma xff with ⟨free, whole⟩ | ⟨rest, whole, free⟩
    · rw [Text.firstField_append_separator comma xff _ free, whole]
    · have longer : xff ++ comma :: (text " " ++ peer.value) =
          Text.firstField comma xff ++ comma :: (rest ++ comma :: (text " " ++ peer.value)) := by
        conv => lhs; rw [whole]
        rw [List.append_assoc, List.cons_append]
      rw [longer, Text.firstField_append_separator comma _ _ free]
  unfold getClientIp Request.proxied
  simp only [if_neg nonempty, field]

theorem getClientIp_proxied_none (request : Request) (peer : PeerAddress) :
    getClientIp (request.proxied none peer) = some peer.value := by
  unfold getClientIp Request.proxied proxyAddXForwardedFor
  simp only [if_neg peer.nonempty, Text.firstField_of_free comma _ peer.plain, strip_peer]

theorem getClientIp_proxied (request : Request) (header : Option Str) (peer : PeerAddress) :
    getClientIp (request.proxied header peer) = some peer.value ↔ OwnAddress peer header := by
  cases header with
  | none =>
      apply iff_of_true (getClientIp_proxied_none request peer)
      intro xff impossible
      cases impossible
  | some xff => rw [getClientIp_proxied_some, Option.some.injEq, ownAddress_some]

theorem identity_of_address {request : Request} {peer : PeerAddress}
    (address : getClientIp request = some peer.value) :
    SubmitPerIPThrottle.getCacheKey request =
        some (SubmitPerIPThrottle.cacheFormat SubmitPerIPThrottle.scope peer.value) ∧
      ∀ phone isNewSubmission, (request.log phone isNewSubmission).loggedIp = some peer.value := by
  constructor
  · simp only [SubmitPerIPThrottle.getCacheKey, address, if_neg peer.nonempty]
  · intro phone isNewSubmission
    simp only [Request.log, Task.loggedIp, Request.ip, address, if_neg peer.nonempty]

/-- Two requests of one peer are known by its address exactly if neither header begins with
anything else. -/
theorem identity_fixed_exactly (first second : Request) (peer : PeerAddress)
    (header other : Option Str) :
    IdentityFixed (first.proxied header peer) (second.proxied other peer) peer ↔
      OwnAddress peer header ∧ OwnAddress peer other := by
  rw [← getClientIp_proxied first header peer, ← getClientIp_proxied second other peer]
  constructor
  · intro fixed
    exact ⟨fixed.address, fixed.same ▸ fixed.address⟩
  · intro ⟨address, otherAddress⟩
    obtain ⟨key, audited⟩ := identity_of_address address
    obtain ⟨otherKey, otherAudited⟩ := identity_of_address otherAddress
    refine
      { same := address.trans otherAddress.symm
        address := address
        key := key.trans otherKey.symm
        throttled := ?_
        audited := ?_ }
    · rw [key]
      exact Option.some_ne_none _
    · intro phone isNewSubmission
      exact ⟨audited phone isNewSubmission, otherAudited phone isNewSubmission⟩

def examplePeer : PeerAddress :=
  { value := text "203.0.113.7"
    nonempty := by decide
    plain := by decide
    graphic := by
      intro symbol member
      have all : (text "203.0.113.7").all (fun symbol => !isSpace symbol) = true := by decide
      exact (Bool.not_eq_true' _).mp (List.all_eq_true.mp all symbol member) }

/-- One peer, without the header, with an address of its choice, and with an empty header. -/
theorem identity_chosen :
    getClientIp (exampleRequest.proxied none examplePeer) = some (text "203.0.113.7") ∧
      getClientIp (exampleRequest.proxied (some (text "1.2.3.4")) examplePeer) =
        some (text "1.2.3.4") ∧
      SubmitPerIPThrottle.getCacheKey (exampleRequest.proxied (some []) examplePeer) = none ∧
      ¬IdentityFixed (exampleRequest.proxied none examplePeer)
        (exampleRequest.proxied (some (text "1.2.3.4")) examplePeer) examplePeer := by
  have shown : getClientIp (exampleRequest.proxied none examplePeer) =
      some (text "203.0.113.7") := by decide
  have chosen : getClientIp (exampleRequest.proxied (some (text "1.2.3.4")) examplePeer) =
      some (text "1.2.3.4") := by decide
  refine ⟨shown, chosen, by decide, ?_⟩
  intro fixed
  have same := fixed.same
  rw [shown, chosen] at same
  exact absurd same (by decide)

end Bistland
