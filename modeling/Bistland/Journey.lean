/-
Any number of open landing pages in front of the cluster. A fetch becomes a request on the
wire, which may reach the web tier or not; the answer of a call travels back as a head and a
body, either of which may be lost, and the proxy may answer in its place. What a page tells
its user is traced through the wire to the call and its messages.
-/

import Bistland.LandingPage
import Bistland.Provenance

namespace Bistland

open Custody Expiring JavaScript OwnerAccounts

/-! ### State -/

/-- A request that a page has sent; the flight is the call of `submitPhone` that sent it, and
the field is what the page's field held then. -/
structure Posting where
  browser : Nat
  flight : Nat
  field : JsString
  phone : JsString
  deriving DecidableEq

/-- The head of the answer of a call, as it has reached the page. -/
structure Head where
  browser : Nat
  flight : Nat
  response : Response

/-- A request on the wire is in `postings`; a call that it has become is in `deliveries`. -/
structure Site where
  cluster : Cluster
  pages : List Page
  postings : List Posting
  deliveries : List (Posting × Nat)
  heads : List Head

def Site.start : Site :=
  { cluster := Cluster.start
    pages := []
    postings := []
    deliveries := []
    heads := [] }

/-- What the server does, the requests of others included, is `server`; `user` is an event of
the field or the button; `deliver` takes a request to the web tier. A head, an error page of
the proxy in its place, or a body arrives at the call in flight at an index of the page, or
is lost. -/
inductive SiteAction where
  | server (action : ClusterAction)
  | visit
  | user (browser : Nat) (action : PageAction)
  | deliver (posting : Nat) (server : Request)
  | head (browser index : Nat) (delivery : Nat)
  | gateway (browser index : Nat)
  | body (browser index : Nat) (error : JsString)
  | lose (browser index : Nat)

/-! ### The answer as the page reads it -/

/-- `res.ok`. -/
def Response.isOk (response : Response) : Bool :=
  200 ≤ response.status && response.status ≤ 299

/-- The members of the parsed body that the script reads; `error` is the text of the exception,
if there was one. -/
def Response.read (response : Response) (error : JsString) : Data :=
  { ok := response.shows "ok"
    duplicate := response.shows "duplicate"
    error :=
      match response with
      | .error _ => some error
      | _ => none }

def PageAction.isOfUser : PageAction → Bool
  | .edit _ => true
  | .click => true
  | .keydown _ => true
  | _ => false

/-- How the promise that a call waits for is rejected. -/
def Awaited.rejection (index : Nat) : Awaited → PageAction
  | .response => .fetchSettles index none
  | .data _ => .jsonSettles index none

/-! ### Steps -/

namespace Site

/-- A page takes a step; what it sends goes on the wire. -/
def turn (site : Site) (browser : Nat) (action : PageAction) : Option Site :=
  match site.pages[browser]? with
  | none => none
  | some page =>
      match Page.system.step page action with
      | none => none
      | some next =>
          some { site with
            pages := site.pages.set browser next
            postings := site.postings ++
              (page.sends action).toList.map (fun phone =>
                { browser := browser, flight := page.started, field := page.value,
                  phone := phone }) }

/-- The call in flight at an index of a page. -/
def flight (site : Site) (browser index : Nat) : Option Flight :=
  (site.pages[browser]?).bind (fun page => page.inFlight[index]?)

def step (site : Site) : SiteAction → Option Site
  | .server action =>
      (Cluster.system.step site.cluster action).map
        (fun cluster => { site with cluster := cluster })
  | .visit => some { site with pages := site.pages ++ [Page.start] }
  | .user browser action => if action.isOfUser then site.turn browser action else none
  | .deliver posting server =>
      match site.postings[posting]? with
      | none => none
      | some posting =>
          (Cluster.system.step site.cluster
            (.web (.arrive (Page.request server posting.phone)))).map (fun cluster =>
              { site with
                cluster := cluster
                deliveries := site.deliveries ++
                  [(posting, site.cluster.web.calls.length)] })
  | .head browser index delivery =>
      match site.flight browser index, site.deliveries[delivery]? with
      | some flight, some (posting, call) =>
          if posting.browser = browser ∧ posting.flight = flight.id then
            match (site.cluster.web.calls[call]?).map Call.phase with
            | some (.returned response) =>
                (site.turn browser (.fetchSettles index (some response.isOk))).map (fun site =>
                  { site with
                    heads := site.heads ++
                      [{ browser := browser, flight := flight.id, response := response }] })
            | _ => none
          else none
      | _, _ => none
  | .gateway browser index => site.turn browser (.fetchSettles index (some false))
  | .body browser index error =>
      match site.flight browser index with
      | none => none
      | some flight =>
          match site.heads.find? (fun head =>
              head.browser = browser && head.flight = flight.id) with
          | none => none
          | some head => site.turn browser (.jsonSettles index (some (head.response.read error)))
  | .lose browser index =>
      match site.flight browser index with
      | none => none
      | some flight => site.turn browser (flight.awaited.rejection index)

def system : Transition.System Site SiteAction :=
  { initial := Site.start
    step := Site.step }

/-- Everything a step can do: the server moves, a request becomes a call, or a page has a
turn, of its user or settled by what has reached it. -/
inductive Step (site : Site) : Site → Prop
  | server {action : ClusterAction} {cluster : Cluster}
      (taken : Cluster.system.step site.cluster action = some cluster) :
      Step site { site with cluster := cluster }
  | visit : Step site { site with pages := site.pages ++ [Page.start] }
  | user {browser : Nat} {action : PageAction} {next : Site} (own : action.isOfUser = true)
      (taken : site.turn browser action = some next) : Step site next
  | deliver {posting : Posting} {server : Request} {cluster : Cluster}
      (sent : posting ∈ site.postings)
      (taken : Cluster.system.step site.cluster
        (.web (.arrive (Page.request server posting.phone))) = some cluster) :
      Step site { site with
        cluster := cluster
        deliveries := site.deliveries ++ [(posting, site.cluster.web.calls.length)] }
  | head {posting : Posting} {index number : Nat} {call : Call} {response : Response} {next : Site}
      (delivered : (posting, number) ∈ site.deliveries)
      (found : site.cluster.web.calls[number]? = some call)
      (answered : call.phase = .returned response)
      (taken : site.turn posting.browser (.fetchSettles index (some response.isOk)) = some next) :
      Step site { next with
        heads := next.heads ++
          [{ browser := posting.browser, flight := posting.flight, response := response }] }
  | gateway {browser index : Nat} {next : Site}
      (taken : site.turn browser (.fetchSettles index (some false)) = some next) : Step site next
  | body {browser index : Nat} {flight : Flight} {head : Head} {error : JsString} {next : Site}
      (flying : site.flight browser index = some flight) (arrived : head ∈ site.heads)
      (toPage : head.browser = browser) (toFlight : head.flight = flight.id)
      (taken : site.turn browser (.jsonSettles index (some (head.response.read error))) =
        some next) : Step site next
  | lose {browser index : Nat} {flight : Flight} {next : Site}
      (taken : site.turn browser (flight.awaited.rejection index) = some next) : Step site next

theorem body_cases {site next : Site} {browser index : Nat} {error : JsString}
    (taken : system.step site (.body browser index error) = some next) :
    ∃ flight head, site.flight browser index = some flight ∧
      site.heads.find? (fun head => head.browser = browser && head.flight = flight.id) =
        some head ∧
      site.turn browser (.jsonSettles index (some (head.response.read error))) = some next := by
  simp only [system, step] at taken
  split at taken
  · cases taken
  · rename_i flight flying
    split at taken
    · cases taken
    · rename_i head found
      exact ⟨flight, head, flying, found, taken⟩

theorem head_of_find {heads : List Head} {browser id : Nat} {head : Head}
    (found : heads.find? (fun head => head.browser = browser && head.flight = id) = some head) :
    head ∈ heads ∧ head.browser = browser ∧ head.flight = id := by
  have own := List.find?_some found
  simp only [Bool.and_eq_true, decide_eq_true_eq] at own
  exact ⟨List.mem_of_find?_eq_some found, own⟩

theorem step_cases {site next : Site} {action : SiteAction}
    (taken : system.step site action = some next) : Step site next := by
  cases action with
  | server action =>
      obtain ⟨cluster, clusterTaken, rfl⟩ := Option.map_eq_some_iff.mp taken
      exact .server clusterTaken
  | visit =>
      cases taken
      exact .visit
  | user browser action =>
      simp only [system, step] at taken
      split at taken
      · rename_i own
        exact .user own taken
      · cases taken
  | deliver posting server =>
      simp only [system, step] at taken
      split at taken
      · cases taken
      · rename_i found
        obtain ⟨cluster, clusterTaken, rfl⟩ := Option.map_eq_some_iff.mp taken
        exact .deliver (List.mem_of_getElem? found) clusterTaken
  | head browser index delivery =>
      simp only [system, step] at taken
      split at taken
      · rename_i flight posting number flying found
        split at taken
        · rename_i own
          obtain ⟨rfl, sameFlight⟩ := own
          split at taken
          · rename_i response answered
            obtain ⟨call, foundCall, phase⟩ := Option.map_eq_some_iff.mp answered
            obtain ⟨turned, turnTaken, rfl⟩ := Option.map_eq_some_iff.mp taken
            rw [← sameFlight]
            exact .head (List.mem_of_getElem? found) foundCall phase turnTaken
          · cases taken
        · cases taken
      · cases taken
  | gateway browser index => exact .gateway taken
  | body browser index error =>
      obtain ⟨flight, head, flying, found, turned⟩ := body_cases taken
      obtain ⟨arrived, toPage, toFlight⟩ := head_of_find found
      exact .body flying arrived toPage toFlight turned
  | lose browser index =>
      simp only [system, step] at taken
      split at taken
      · cases taken
      · exact .lose taken

/-- The page of a turn, before and after. -/
theorem turn_cases {site next : Site} {browser : Nat} {action : PageAction}
    (taken : site.turn browser action = some next) :
    ∃ page after, site.pages[browser]? = some page ∧
      Page.system.step page action = some after ∧
      next = { site with
        pages := site.pages.set browser after
        postings := site.postings ++ (page.sends action).toList.map (fun phone =>
          { browser := browser, flight := page.started, field := page.value,
            phone := phone }) } := by
  unfold turn at taken
  split at taken
  · cases taken
  · rename_i page found
    split at taken
    · cases taken
    · rename_i after stepped
      cases taken
      exact ⟨page, after, found, stepped, rfl⟩

end Site

/-! ### What a page says -/

/-- What a page says of an answer that it has understood. -/
def Response.told : Response → Option String
  | .duplicate => some "Phone already submitted."
  | .queued => some "Phone submitted successfully."
  | .error _ => none

theorem Response.told_iff (response : Response) (shown : String) :
    response.told = some shown ↔
      (response = .duplicate ∧ shown = "Phone already submitted.") ∨
        (response = .queued ∧ shown = "Phone submitted successfully.") := by
  cases response <;> simp [told, eq_comm]

theorem Response.told_injective {first second : Response} {shown : String}
    (told : first.told = some shown) (also : second.told = some shown) : first = second := by
  rcases (first.told_iff shown).mp told with ⟨rfl, isDuplicate⟩ | ⟨rfl, isQueued⟩
  · rcases (second.told_iff shown).mp also with ⟨rfl, _⟩ | ⟨rfl, other⟩
    · rfl
    · exact absurd (isDuplicate.symm.trans other) (by decide)
  · rcases (second.told_iff shown).mp also with ⟨rfl, other⟩ | ⟨rfl, _⟩
    · exact absurd (isQueued.symm.trans other) (by decide)
    · rfl

/-- The messages that are about no answer. -/
def otherMessages : List String :=
  ["", "Submitting...", "Invalid phone format. Use +989XXXXXXXX",
    "Network error. Please try again.", "Invalid phone number.",
    "Too many attempts. Please try again later.", "Unknown error occurred."]

theorem not_told_other {shown : String} (other : shown ∈ otherMessages) (response : Response) :
    response.told ≠ some shown := by
  intro told
  rcases (response.told_iff shown).mp told with ⟨_, rfl⟩ | ⟨_, rfl⟩
  · exact absurd other (by decide)
  · exact absurd other (by decide)

namespace Page

variable {page after : Page} {response : Response} {index id : Nat} {action : PageAction}

theorem receive_message (page : Page) (flight : Flight) (resOk : Bool) (held : Response)
    (error : JsString) :
    held.told = some (page.receive flight resOk (held.read error)).message ∨
      (page.receive flight resOk (held.read error)).message ∈ otherMessages := by
  unfold receive
  split
  · rename_i understood
    cases held with
    | duplicate => exact Or.inl rfl
    | queued => exact Or.inl rfl
    | error failure =>
        rw [Bool.and_eq_true] at understood
        cases understood.2
  · right
    split
    · exact List.mem_of_elem_eq_true rfl
    · split <;> exact List.mem_of_elem_eq_true rfl

theorem receive_told {flight : Flight} {resOk : Bool} {held : Response} {error : JsString}
    (told : response.told = some (page.receive flight resOk (held.read error)).message) :
    response = held := by
  rcases receive_message page flight resOk held error with understood | other
  · exact Response.told_injective told understood
  · exact absurd told (not_told_other other response)

theorem submitPhone_message (page : Page) : page.submitPhone.message ∈ otherMessages := by
  unfold submitPhone
  cases sent page.value <;> exact List.mem_of_elem_eq_true rfl

/-- An event of the user leaves the message, or writes one that is about no answer. -/
theorem user_writes (own : action.isOfUser = true)
    (taken : Page.system.step page action = some after) :
    (after.writer = page.writer ∧ after.message = page.message) ∨
      after.message ∈ otherMessages := by
  cases action with
  | edit value =>
      cases taken
      exact Or.inl ⟨rfl, rfl⟩
  | click =>
      have taken : some (if page.disabled then page else page.submitPhone) = some after := taken
      by_cases pressed : page.disabled = true
      · rw [if_pos pressed] at taken
        cases taken
        exact Or.inl ⟨rfl, rfl⟩
      · rw [if_neg pressed] at taken
        cases taken
        exact Or.inr (submitPhone_message page)
  | keydown key =>
      have taken : some (if key = codeUnits "Enter" then page.submitPhone else page) =
        some after := taken
      by_cases enter : key = codeUnits "Enter"
      · rw [if_pos enter] at taken
        cases taken
        exact Or.inr (submitPhone_message page)
      · rw [if_neg enter] at taken
        cases taken
        exact Or.inl ⟨rfl, rfl⟩
  | fetchSettles index resOk => cases own
  | jsonSettles index data => cases own

/-- A page on which no call has written shows no message. -/
theorem step_blank (blank : page.writer = none → page.message = "")
    (taken : Page.system.step page action = some after) (unwritten : after.writer = none) :
    after.message = "" := by
  cases step_cases taken with
  | quiet silent unmoved =>
      rw [unmoved.writer] at unwritten
      rw [unmoved.message]
      exact blank unwritten
  | refuses invoked invalid => cases unwritten
  | fetches invoked valid => cases unwritten
  | @leaves index flight told silent found said =>
      have unwritten : told.writer = none := unwritten
      rw [said.writer] at unwritten
      cases unwritten

theorem head_told {resOk : Bool}
    (taken : Page.system.step page (.fetchSettles index (some resOk)) = some after) :
    after.writer = page.writer ∧ after.message = page.message := by
  simp only [system, step] at taken
  split at taken
  · cases taken
  · split at taken
    · rename_i failed
      cases failed
    · cases taken
      exact ⟨rfl, rfl⟩
    · cases taken

theorem rejection_told {awaited : Awaited}
    (taken : Page.system.step page (awaited.rejection index) = some after) :
    after.message = "Network error. Please try again." := by
  cases awaited with
  | response =>
      simp only [Awaited.rejection, system, step] at taken
      split at taken
      · cases taken
      · split at taken
        · cases taken
          rfl
        · rename_i impossible
          cases impossible
        · cases taken
  | data resOk =>
      simp only [Awaited.rejection, system, step] at taken
      split at taken
      · cases taken
      · split at taken
        · cases taken
          rfl
        · rename_i impossible
          cases impossible
        · cases taken

theorem body_writes {data : Data}
    (taken : Page.system.step page (.jsonSettles index (some data)) = some after) :
    ∃ flight resOk, page.inFlight[index]? = some flight ∧ flight.awaited = .data resOk ∧
      after.writer = some flight.id ∧
        after.message = (page.receive flight resOk data).message := by
  simp only [system, step] at taken
  split at taken
  · cases taken
  · rename_i flight flying
    split at taken
    · rename_i impossible
      cases impossible
    · rename_i resOk _ awaits same
      cases same
      cases taken
      exact ⟨flight, resOk, flying, awaits, (told_receive page flight _ _).writer, rfl⟩
    · cases taken

theorem body_told {held : Response} {error : JsString}
    (taken : Page.system.step page (.jsonSettles index (some (held.read error))) = some after) :
    ∃ flight, page.inFlight[index]? = some flight ∧ after.writer = some flight.id ∧
      ∀ response : Response, response.told = some after.message → response = held := by
  obtain ⟨flight, resOk, flying, _, writer, message⟩ := body_writes taken
  refine ⟨flight, flying, writer, ?_⟩
  intro response told
  rw [message] at told
  exact receive_told told

theorem sends_of_silent (silent : page.invokes action = false) : page.sends action = none := by
  unfold sends
  rw [silent]
  rfl

theorem started_le (taken : Page.system.step page action = some after) :
    page.started + (page.sends action).toList.length ≤ after.started := by
  cases step_cases taken with
  | quiet silent unmoved =>
      rw [sends_of_silent silent, unmoved.started]
      exact Nat.le_refl _
  | refuses invoked invalid =>
      rw [sends, if_pos invoked, invalid]
      exact Nat.le_succ _
  | fetches invoked valid =>
      rw [sends, if_pos invoked, valid]
      exact Nat.le_refl _
  | @leaves index flight told silent found said =>
      rw [sends_of_silent silent]
      exact Nat.le_of_eq said.started.symm

theorem sent_of_sends {phone : JsString} (sends : page.sends action = some phone) :
    sent page.value = some phone := by
  unfold Page.sends at sends
  split at sends
  · exact sends
  · cases sends

end Page

/-! ### What the wire carries -/

namespace Site

/-- The call of a number is what a request on the wire has become. -/
def Delivered (site : Site) (posting : Posting) (number : Nat) (call : Call) : Prop :=
  (posting, number) ∈ site.deliveries ∧ site.cluster.web.calls[number]? = some call

/-- What a message that tells of an answer rests on. -/
def Backed (heads : List Head) (browser id : Nat) (shown : String) : Prop :=
  ∀ response : Response, response.told = some shown →
    ∃ head ∈ heads, head.browser = browser ∧ head.flight = id ∧ head.response = response

structure Wired (site : Site) : Prop where
  cluster : site.cluster.Dated
  sent : ∀ posting ∈ site.postings, Page.sent posting.field = some posting.phone
  sender : ∀ posting ∈ site.postings, ∃ page, site.pages[posting.browser]? = some page ∧
    posting.flight < page.started
  single : site.postings.Pairwise (fun earlier later =>
    earlier.browser = later.browser → earlier.flight < later.flight)
  delivered : ∀ posting number, (posting, number) ∈ site.deliveries →
    posting ∈ site.postings ∧ ∃ call server, site.cluster.web.calls[number]? = some call ∧
      call.request = Page.request server posting.phone
  distinct : (site.deliveries.map Prod.snd).Nodup
  answered : ∀ head ∈ site.heads, ∃ posting number call, site.Delivered posting number call ∧
    posting.browser = head.browser ∧ posting.flight = head.flight ∧
      call.phase = .returned head.response
  blank : ∀ page ∈ site.pages, page.writer = none → page.message = ""
  told : ∀ (browser : Nat) page id, site.pages[browser]? = some page → page.writer = some id →
    Backed site.heads browser id page.message

variable {site next : Site} {action : SiteAction}

theorem wired_start : Site.start.Wired :=
  { cluster := Cluster.dated_start
    sent := fun posting absent => by cases absent
    sender := fun posting absent => by cases absent
    single := List.Pairwise.nil
    delivered := fun posting number absent => by cases absent
    distinct := List.nodup_nil
    answered := fun head absent => by cases absent
    blank := fun page absent => by cases absent
    told := fun browser page id absent => by cases absent }

theorem cluster_call {cluster after : Cluster} {action : ClusterAction} {number : Nat} {call : Call}
    (taken : Cluster.system.step cluster action = some after)
    (found : cluster.web.calls[number]? = some call) :
    ∃ later, after.web.calls[number]? = some later ∧ later.request = call.request ∧
      (call.phase.steps = 0 → later = call) := by
  cases Cluster.step_cases taken with
  | web webTaken => exact Web.step_call webTaken found
  | _ => exact ⟨call, found, rfl, fun _ => rfl⟩

theorem Wired.server (wired : site.Wired) {action : ClusterAction} {cluster : Cluster}
    (taken : Cluster.system.step site.cluster action = some cluster) :
    Wired { site with cluster := cluster } := by
  refine { wired with cluster := Cluster.step_dated wired.cluster taken, delivered := ?_,
                      answered := ?_ }
  · intro posting number member
    obtain ⟨present, call, server, found, request⟩ := wired.delivered posting number member
    obtain ⟨later, foundLater, same, _⟩ := cluster_call taken found
    exact ⟨present, later, server, foundLater, same.trans request⟩
  · intro head member
    obtain ⟨posting, number, call, ⟨delivery, found⟩, browser, flight, returned⟩ :=
      wired.answered head member
    obtain ⟨later, foundLater, _, stays⟩ := cluster_call taken found
    rw [stays (by rw [returned]; rfl)] at foundLater
    exact ⟨posting, number, call, ⟨delivery, foundLater⟩, browser, flight, returned⟩

theorem Wired.deliver (wired : site.Wired) {posting : Posting} {server : Request}
    {cluster : Cluster} (sent : posting ∈ site.postings)
    (taken : Cluster.system.step site.cluster
      (.web (.arrive (Page.request server posting.phone))) = some cluster) :
    Wired { site with
      cluster := cluster
      deliveries := site.deliveries ++ [(posting, site.cluster.web.calls.length)] } := by
  have served := wired.server taken
  refine { served with delivered := ?_, distinct := ?_, answered := ?_ }
  · intro other number member
    rcases List.mem_append.mp member with earlier | isLast
    · exact served.delivered other number earlier
    · obtain ⟨rfl, rfl⟩ := Prod.mk.inj (List.mem_singleton.mp isLast)
      refine ⟨sent, ?_⟩
      cases taken
      exact ⟨_, server, List.getElem?_concat_length, rfl⟩
  · rw [List.map_append, List.nodup_append]
    refine ⟨wired.distinct, List.nodup_singleton _, ?_⟩
    intro number member last isLast same
    obtain ⟨⟨other, delivered⟩, present, rfl⟩ := List.mem_map.mp member
    obtain ⟨_, call, _, found, _⟩ := wired.delivered other delivered present
    have inside := (List.getElem?_eq_some_iff.mp found).1
    have isNext : delivered = site.cluster.web.calls.length :=
      same.trans (List.mem_singleton.mp isLast)
    exact absurd isNext (Nat.ne_of_lt inside)
  · intro head member
    obtain ⟨other, number, call, ⟨delivery, found⟩, facts⟩ := served.answered head member
    exact ⟨other, number, call, ⟨List.mem_append_left _ delivery, found⟩, facts⟩

/-- A turn of a page keeps the wire, if what the page then says rests on it. -/
theorem Wired.turn (wired : site.Wired) {browser : Nat} {action : PageAction}
    (taken : site.turn browser action = some next)
    (honest : ∀ page after, site.pages[browser]? = some page →
      Page.system.step page action = some after → ∀ id, after.writer = some id →
        Backed site.heads browser id after.message) : next.Wired := by
  obtain ⟨page, after, found, stepped, rfl⟩ := turn_cases taken
  have inside := (List.getElem?_eq_some_iff.mp found).1
  have grows := Page.started_le stepped
  refine { wired with sent := ?_, sender := ?_, single := ?_, delivered := ?_, blank := ?_,
                      told := ?_ }
  · intro posting member
    rcases List.mem_append.mp member with earlier | isNew
    · exact wired.sent posting earlier
    · obtain ⟨phone, sends, rfl⟩ := List.mem_map.mp isNew
      exact Page.sent_of_sends (Option.mem_toList.mp sends)
  · intro posting member
    rcases List.mem_append.mp member with earlier | isNew
    · obtain ⟨owner, foundOwner, before⟩ := wired.sender posting earlier
      by_cases same : browser = posting.browser
      · subst same
        rw [found] at foundOwner
        cases foundOwner
        exact ⟨after, List.getElem?_set_self inside, by omega⟩
      · exact ⟨owner, (List.getElem?_set_ne same).trans foundOwner, before⟩
    · obtain ⟨phone, sends, rfl⟩ := List.mem_map.mp isNew
      refine ⟨after, List.getElem?_set_self inside, ?_⟩
      have one := List.length_pos_of_mem sends
      change page.started < after.started
      omega
  · apply List.pairwise_append.mpr
    refine ⟨wired.single, ?_, ?_⟩
    · cases page.sends action with
      | none => exact List.Pairwise.nil
      | some phone => exact List.pairwise_singleton _ _
    · intro earlier member later isNew same
      obtain ⟨phone, _, rfl⟩ := List.mem_map.mp isNew
      obtain ⟨owner, foundOwner, before⟩ := wired.sender earlier member
      rw [same, found] at foundOwner
      cases foundOwner
      exact before
  · intro posting number member
    obtain ⟨present, facts⟩ := wired.delivered posting number member
    exact ⟨List.mem_append_left _ present, facts⟩
  · intro shown member
    rcases List.mem_or_eq_of_mem_set member with present | isMoved
    · exact wired.blank shown present
    · subst isMoved
      exact Page.step_blank (wired.blank page (List.mem_of_getElem? found)) stepped
  · intro other shown id foundOther wrote
    by_cases same : browser = other
    · subst same
      have moved : (site.pages.set browser after)[browser]? = some shown := foundOther
      rw [List.getElem?_set_self inside] at moved
      cases moved
      exact honest page after found stepped id wrote
    · have kept : (site.pages.set browser after)[other]? = some shown := foundOther
      rw [List.getElem?_set_ne same] at kept
      exact wired.told other shown id kept wrote

theorem Backed.mono {heads : List Head} {browser id : Nat} {shown : String}
    (backed : Backed heads browser id shown) (later : List Head) :
    Backed (heads ++ later) browser id shown := by
  intro response told
  obtain ⟨head, member, facts⟩ := backed response told
  exact ⟨head, List.mem_append_left _ member, facts⟩

theorem backed_other (heads : List Head) (browser id : Nat) {shown : String}
    (other : shown ∈ otherMessages) : Backed heads browser id shown := by
  intro response told
  exact absurd told (not_told_other other response)

theorem step_wired (wired : site.Wired) (taken : system.step site action = some next) :
    next.Wired := by
  cases step_cases taken with
  | server clusterTaken => exact wired.server clusterTaken
  | visit =>
      refine { wired with sender := ?_, blank := ?_, told := ?_ }
      · intro posting member
        obtain ⟨page, found, before⟩ := wired.sender posting member
        have inside := (List.getElem?_eq_some_iff.mp found).1
        exact ⟨page, (List.getElem?_append_left inside).trans found, before⟩
      · intro page member
        rcases List.mem_append.mp member with present | isNew
        · exact wired.blank page present
        · rw [List.mem_singleton.mp isNew]
          exact fun _ => rfl
      · intro browser page id found wrote
        rcases Nat.lt_or_ge browser site.pages.length with within | beyond
        · have kept : (site.pages ++ [Page.start])[browser]? = some page := found
          rw [List.getElem?_append_left within] at kept
          exact wired.told browser page id kept wrote
        · have new : (site.pages ++ [Page.start])[browser]? = some page := found
          rw [List.getElem?_append_right beyond] at new
          rw [List.mem_singleton.mp (List.mem_of_getElem? new)] at wrote
          cases wrote
  | user own turned =>
      apply wired.turn turned
      intro page after found stepped id wrote
      rcases Page.user_writes own stepped with ⟨sameWriter, sameMessage⟩ | other
      · rw [sameMessage]
        exact wired.told _ page id found (sameWriter ▸ wrote)
      · exact backed_other _ _ _ other
  | deliver sent clusterTaken => exact wired.deliver sent clusterTaken
  | @head posting index number call response after delivered found answered turned =>
      have kept : after.Wired := by
        apply wired.turn turned
        intro page after foundPage stepped id wrote
        obtain ⟨sameWriter, sameMessage⟩ := Page.head_told stepped
        rw [sameMessage]
        exact wired.told _ page id foundPage (sameWriter ▸ wrote)
      obtain ⟨page, after, _, _, rfl⟩ := turn_cases turned
      refine { kept with answered := ?_, told := ?_ }
      · intro head member
        rcases List.mem_append.mp member with earlier | isLast
        · exact kept.answered head earlier
        · rw [List.mem_singleton.mp isLast]
          exact ⟨_, _, _, ⟨delivered, found⟩, rfl, rfl, answered⟩
      · intro browser shown id foundShown wrote
        exact (kept.told browser shown id foundShown wrote).mono _
  | gateway turned =>
      apply wired.turn turned
      intro page after found stepped id wrote
      obtain ⟨sameWriter, sameMessage⟩ := Page.head_told stepped
      rw [sameMessage]
      exact wired.told _ page id found (sameWriter ▸ wrote)
  | body flying arrived toPage toFlight turned =>
      apply wired.turn turned
      intro page after found stepped id wrote response told
      obtain ⟨flight, inFlight, writer, only⟩ := Page.body_told stepped
      rw [Site.flight, found, Option.bind_some, inFlight] at flying
      cases flying
      rw [writer] at wrote
      cases wrote
      exact ⟨_, arrived, toPage, toFlight, (only response told).symm⟩
  | lose turned =>
      apply wired.turn turned
      intro page after found stepped id wrote
      rw [Page.rejection_told stepped]
      exact backed_other _ _ _ (List.mem_of_elem_eq_true rfl)

/-! ### What the user may rely on -/

/-- The attempt of the one call that a request of the page became; the request carried the
trimmed text that the field then held, and the call holds it as its phone. -/
structure Reached (site : Site) (browser id : Nat) (phone : ValidatedPhone)
    (attempt : Attempt ValidatedPhone) (response : Response) : Prop where
  entered : ∃ posting ∈ site.postings, posting.browser = browser ∧ posting.flight = id ∧
    posting.phone = trim posting.field ∧ phone.value = toText (trim posting.field) ∧
      (posting, attempt.owner) ∈ site.deliveries
  answered : ∃ call, site.cluster.web.calls[attempt.owner]? = some call ∧
    call.request.validated = .ok phone ∧ call.phase = .returned response
  attempted : attempt ∈ site.cluster.web.attempts
  key : attempt.key = phone

/-- The save of a phone by a call, and where it is: on its way, executed with a row of its own,
or lost by a worker. -/
def SavedBy (cluster : Cluster) (phone : ValidatedPhone) (sender : Nat) : Prop :=
  ∃ message ∈ cluster.web.published, message.sender = sender ∧
    message.task = .savePhoneInSqlTask phone ∧
    (message ∈ cluster.queue ∨ message ∈ holdings Job.pending cluster.workers ∨
      (∃ row, cluster.Wrote message row ∧ row.phone = phone) ∨ message ∈ cluster.lost)

/-- Each message shown is that of a call of the page. A success is told of an accepted attempt
whose save is on its way, has its own row or was lost by a worker; a duplicate of one that an
older accepted attempt, made less than a day before, turned away; and the successes for one
phone, in whichever pages, are a day apart. -/
structure Honest (site : Site) : Prop where
  success : ∀ (browser : Nat) page, site.pages[browser]? = some page →
    page.message = "Phone submitted successfully." → ∃ id phone winner, page.writer = some id ∧
      site.Reached browser id phone winner .queued ∧ winner.accepted = true ∧
        SavedBy site.cluster phone winner.owner
  duplicate : ∀ (browser : Nat) page, site.pages[browser]? = some page →
    page.message = "Phone already submitted." → ∃ id phone refused, page.writer = some id ∧
      site.Reached browser id phone refused .duplicate ∧
      ∃ older newer, site.cluster.web.attempts = older ++ refused :: newer ∧
        ∃ winner ∈ older, winner.key = phone ∧ winner.accepted = true ∧
          refused.time < winner.time + day
  apart : ∀ browser id other otherId phone winner otherWinner,
    site.Reached browser id phone winner .queued →
      site.Reached other otherId phone otherWinner .queued → (browser, id) ≠ (other, otherId) →
        winner.time + day ≤ otherWinner.time ∨ otherWinner.time + day ≤ winner.time

theorem fate_of_save {cluster : Cluster} (dated : cluster.Dated) {message : Message}
    {phone : ValidatedPhone} (published : message ∈ cluster.web.published)
    (save : message.task = .savePhoneInSqlTask phone) :
    message ∈ cluster.queue ∨ message ∈ holdings Job.pending cluster.workers ∨
      (∃ row, cluster.Wrote message row ∧ row.phone = phone) ∨ message ∈ cluster.lost := by
  have everywhere :=
    dated.inv.accounted.mem_iff.mpr (List.mem_append_left cluster.redelivered published)
  rcases List.mem_append.mp everywhere with kept | lost
  · rcases List.mem_append.mp kept with waiting | done
    · rcases List.mem_append.mp waiting with queued | pending
      · exact Or.inl queued
      · exact Or.inr (Or.inl pending)
    · obtain ⟨execution, executed, rfl⟩ := List.mem_map.mp done
      exact Or.inr (Or.inr (Or.inl (dated.rows.wrote executed save)))
  · exact Or.inr (Or.inr (Or.inr lost))

theorem save_of_queued {web : Web} (inv : web.Inv) {number : Nat} {call : Call}
    {phone : ValidatedPhone} (found : web.calls[number]? = some call)
    (valid : call.request.validated = .ok phone) (returned : call.phase = .returned .queued) :
    ∃ message ∈ web.published, message.sender = number ∧
      message.task = .savePhoneInSqlTask phone := by
  have tasks := (inv.sent.account number call found).tasks
  rw [Call.tasks_of_valid valid, returned] at tasks
  have member : Task.savePhoneInSqlTask phone ∈
      (postedBy Message.sender web.published number).map Message.task := by
    rw [tasks]
    exact List.mem_cons_of_mem _ (List.mem_singleton_self _)
  obtain ⟨message, posted, save⟩ := List.mem_map.mp member
  obtain ⟨published, own⟩ := List.mem_filter.mp posted
  exact ⟨message, published, of_decide_eq_true own, save⟩

/-- A page that tells of an answer has reached the call that gave it. -/
theorem Wired.reached (wired : site.Wired) (response : Response) {browser : Nat} {page : Page}
    (foundPage : site.pages[browser]? = some page) (told : response.told = some page.message) :
    ∃ id phone attempt, page.writer = some id ∧ site.Reached browser id phone attempt response ∧
      attempt.accepted = decide (response = .queued) := by
  have written : ∃ id, page.writer = some id := by
    cases writer : page.writer with
    | none =>
        rw [wired.blank page (List.mem_of_getElem? foundPage) writer] at told
        exact absurd told (not_told_other (List.mem_of_elem_eq_true rfl) response)
    | some id => exact ⟨id, rfl⟩
  obtain ⟨id, wrote⟩ := written
  obtain ⟨head, arrived, toPage, toFlight, sameResponse⟩ :=
    wired.told browser page id foundPage wrote response told
  obtain ⟨posting, number, call, ⟨delivery, found⟩, ofPage, ofFlight, returned⟩ :=
    wired.answered head arrived
  obtain ⟨present, same, server, foundSame, request⟩ := wired.delivered posting number delivery
  rw [found] at foundSame
  cases foundSame
  have kept := Page.sent_spelled (wired.sent posting present)
  have valid := kept.validated server
  rw [← request] at valid
  rw [sameResponse] at returned
  have inv := Web.inv_of_reachable wired.cluster.inv.reached
  have answered : ∃ attempt ∈ site.cluster.web.attempts, attempt.owner = number ∧
      attempt.key = ⟨toText posting.phone, kept.spelled.isPhone⟩ ∧
        attempt.accepted = decide (response = .queued) := by
    rcases (response.told_iff _).mp told with ⟨rfl, _⟩ | ⟨rfl, _⟩
    · exact inv.attempt_of_answers found
        (fun answers attempted => attempted.of_logged valid (by rw [returned]; rfl))
    · exact inv.attempt_of_answers found
        (fun answers attempted => attempted.of_saved valid (by rw [returned]; rfl))
  obtain ⟨attempt, attempted, owner, key, accepted⟩ := answered
  subst owner
  refine ⟨id, ⟨toText posting.phone, kept.spelled.isPhone⟩, attempt, wrote, ?_, accepted⟩
  exact
    { entered := ⟨posting, present, ofPage.trans toPage, ofFlight.trans toFlight,
        kept.trimmed, congrArg toText kept.trimmed, delivery⟩
      answered := ⟨call, found, valid, returned⟩
      attempted := attempted
      key := key }

theorem Wired.apart (wired : site.Wired) {browser id other otherId : Nat} {phone : ValidatedPhone}
    {winner otherWinner : Attempt ValidatedPhone}
    (first : site.Reached browser id phone winner .queued)
    (second : site.Reached other otherId phone otherWinner .queued)
    (different : (browser, id) ≠ (other, otherId)) :
    winner.time + day ≤ otherWinner.time ∨ otherWinner.time + day ≤ winner.time := by
  have inv := Web.inv_of_reachable wired.cluster.inv.reached
  have accepted : ∀ {browser id attempt}, site.Reached browser id phone attempt .queued →
      attempt.accepted = true := by
    intro browser id attempt reached
    obtain ⟨call, found, valid, returned⟩ := reached.answered
    obtain ⟨maker, answers, foundMaker, attempted, member⟩ := inv.maker reached.attempted
    rw [found] at foundMaker
    cases foundMaker
    have only := attempted.of_saved valid (by rw [returned]; rfl)
    rw [only] at member
    exact (Prod.mk.inj (List.mem_singleton.mp member)).2
  apply inv.gate.exact.apart first.attempted second.attempted ?_ (first.key.trans second.key.symm)
    (accepted first) (accepted second)
  intro same
  obtain ⟨posting, _, ofPage, ofFlight, _, _, delivery⟩ := first.entered
  obtain ⟨otherPosting, _, otherPage, otherFlight, _, _, otherDelivery⟩ := second.entered
  rw [← same] at otherDelivery
  have one := List.inj_on_of_nodup_map wired.distinct delivery otherDelivery rfl
  cases one
  exact different (by rw [← ofPage, ← ofFlight, ← otherPage, ← otherFlight])

theorem honest {actions : List SiteAction} {site : Site}
    (completed : system.exec Site.start actions = some site) : site.Honest := by
  have wired : site.Wired :=
    system.reachable_invariant step_wired wired_start (system.reachable_of_exec completed)
  have inv := Web.inv_of_reachable wired.cluster.inv.reached
  refine { success := ?_, duplicate := ?_, apart := ?_ }
  · intro browser page foundPage shown
    obtain ⟨id, phone, winner, wrote, reached, accepted⟩ :=
      wired.reached .queued foundPage (congrArg some shown.symm)
    obtain ⟨call, found, valid, returned⟩ := reached.answered
    obtain ⟨message, published, sender, save⟩ := save_of_queued inv found valid returned
    exact ⟨id, phone, winner, wrote, reached, accepted, message, published, sender, save,
      fate_of_save wired.cluster published save⟩
  · intro browser page foundPage shown
    obtain ⟨id, phone, refused, wrote, reached, denied⟩ :=
      wired.reached .duplicate foundPage (congrArg some shown.symm)
    obtain ⟨older, newer, split⟩ := List.append_of_mem reached.attempted
    refine ⟨id, phone, refused, wrote, reached, older, newer, split, ?_⟩
    have blocked := inv.gate.exact older refused newer split
    rw [denied] at blocked
    by_contra none
    have clear := blocked.mpr (by
      intro earlier member same accepted young
      exact none ⟨earlier, member, same.trans reached.key, accepted, young⟩)
    cases clear
  · intro browser id other otherId phone winner otherWinner first second different
    exact wired.apart first second different

/-- Two pages send one phone, and the answer of the later request is the first to arrive. -/
def contestedRun : List SiteAction :=
  [.visit, .visit, .user 0 (.edit (codeUnits "+989121234567")), .user 0 .click,
    .user 1 (.edit (codeUnits " +989121234567")), .user 1 .click, .deliver 1 exampleRequest,
    .deliver 0 exampleRequest] ++
  [1, 1, 0, 0, 1, 0, 0, 1, 1].map (fun call => .server (.web (.resume call .returns))) ++
  [.head 1 0 0, .head 0 0 1, .body 0 0 [], .body 1 0 []]

theorem honest_contested : ∃ site, system.exec Site.start contestedRun = some site ∧
    site.pages.map Page.message = ["Phone submitted successfully.", "Phone already submitted."] ∧
      site.Honest := by
  have outcome : (system.exec Site.start contestedRun).any (fun site =>
      decide (site.pages.map Page.message =
        ["Phone submitted successfully.", "Phone already submitted."])) = true := by decide
  obtain ⟨site, completed, checked⟩ := system.exec_of_any outcome
  exact ⟨site, completed, of_decide_eq_true checked, honest completed⟩

end Site

end Bistland
