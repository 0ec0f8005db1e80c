/-
Open pages come to rest. From every state that the site can reach with a worker alive there is
a schedule without a new failure after which no call of `submitPhone` is in flight: each one
that waited has had the answer of its call, the server is worked off, and the save of a success
that a page shows has written its row unless a worker had lost it before.
-/

import Bistland.Journey

namespace Bistland

open Custody JavaScript OwnerAccounts

/-! ### What a page has before it -/

/-- The turns until a call has run its `finally` block. -/
def Awaited.remaining : Awaited → Nat
  | .response => 2
  | .data _ => 1

namespace Page

variable {page after : Page} {action : PageAction} {index id : Nat} {flight : Flight}

def remaining (page : Page) : Nat :=
  (page.inFlight.map (fun flight => flight.awaited.remaining)).sum

/-- A call in flight still waits for the head of its answer. -/
def AwaitsResponse (page : Page) (id : Nat) : Prop :=
  ∃ flight ∈ page.inFlight, flight.id = id ∧ flight.awaited = .response

/-- The button can be pressed again, and nobody is told to wait. -/
structure AtRest (page : Page) : Prop where
  enabled : page.disabled = false
  finished : page.message ≠ "Submitting..."

theorem receive_finished (page : Page) (flight : Flight) (resOk : Bool) (data : Data) :
    (page.receive flight resOk data).message ≠ "Submitting..." := by
  unfold receive
  split
  · cases data.duplicate <;> exact of_decide_eq_true rfl
  · split
    · exact of_decide_eq_true rfl
    · split <;> exact of_decide_eq_true rfl

theorem AtRest.leave {told : Page} (finished : told.message ≠ "Submitting...") (index : Nat)
    (flight : Flight) : (told.leave index flight).AtRest :=
  { enabled := rfl
    finished := finished }

theorem submitPhone_rest (rest : page.inFlight = [] → page.AtRest)
    (empty : page.submitPhone.inFlight = []) : page.submitPhone.AtRest := by
  unfold submitPhone at empty ⊢
  cases valid : sent page.value with
  | none =>
      rw [valid] at empty
      exact
        { enabled := (rest empty).enabled
          finished := of_decide_eq_true rfl }
  | some phone =>
      rw [valid] at empty
      exact absurd empty (List.append_ne_nil_of_right_ne_nil _ (List.cons_ne_nil _ _))

/-- A page whose calls have all ended is at rest. -/
theorem step_rest (rest : page.inFlight = [] → page.AtRest)
    (taken : system.step page action = some after) (empty : after.inFlight = []) :
    after.AtRest := by
  cases action with
  | edit value =>
      cases taken
      exact
        { enabled := (rest empty).enabled
          finished := (rest empty).finished }
  | click =>
      have taken : some (if page.disabled then page else page.submitPhone) = some after := taken
      split at taken
      · cases taken
        exact rest empty
      · cases taken
        exact submitPhone_rest rest empty
  | keydown key =>
      have taken : some (if key = codeUnits "Enter" then page.submitPhone else page) =
        some after := taken
      split at taken
      · cases taken
        exact submitPhone_rest rest empty
      · cases taken
        exact rest empty
  | fetchSettles index resOk =>
      simp only [system, step] at taken
      split at taken
      · cases taken
      · rename_i flight found
        split at taken
        · cases taken
          exact AtRest.leave (of_decide_eq_true rfl) index flight
        · cases taken
          rw [(List.set_eq_nil_iff _ _).mp empty] at found
          cases found
        · cases taken
  | jsonSettles index data =>
      simp only [system, step] at taken
      split at taken
      · cases taken
      · rename_i flight found
        split at taken
        · cases taken
          exact AtRest.leave (of_decide_eq_true rfl) index flight
        · cases taken
          exact AtRest.leave (receive_finished page flight _ _) index flight
        · cases taken

/-- The calls in flight after a step were in flight before it or have just been sent. -/
theorem step_inFlight (taken : system.step page action = some after)
    (flying : flight ∈ after.inFlight) : (∃ earlier ∈ page.inFlight, earlier.id = flight.id) ∨
      flight.id = page.started ∧ ∃ phone, page.sends action = some phone := by
  cases step_cases taken with
  | quiet silent unmoved =>
      have present := List.mem_map_of_mem (f := Flight.id) flying
      rw [unmoved.flights] at present
      exact Or.inl (List.mem_map.mp present)
  | refuses invoked invalid => exact Or.inl ⟨flight, flying, rfl⟩
  | fetches invoked valid =>
      rcases List.mem_append.mp flying with earlier | isNew
      · exact Or.inl ⟨flight, earlier, rfl⟩
      · rw [List.mem_singleton.mp isNew]
        exact Or.inr ⟨rfl, _, (if_pos invoked).trans valid⟩
  | @leaves index left told silent found said =>
      have present : flight ∈ told.inFlight.eraseIdx index := flying
      rw [said.inFlight] at present
      exact Or.inl ⟨flight, List.mem_of_mem_eraseIdx present, rfl⟩

theorem remaining_eraseIdx (found : page.inFlight[index]? = some flight) :
    ((page.inFlight.eraseIdx index).map (fun flight => flight.awaited.remaining)).sum +
      flight.awaited.remaining = page.remaining := by
  obtain ⟨inside, same⟩ := List.getElem?_eq_some_iff.mp found
  have parted := (List.getElem_cons_eraseIdx_perm inside).map
    (fun flight => flight.awaited.remaining)
  unfold remaining
  rw [← parted.sum_eq, List.map_cons, List.sum_cons, same, Nat.add_comm]

/-- The head of an answer takes its call to the body, and the others wait on. -/
theorem fetchSettles_descends {resOk : Bool}
    (taken : system.step page (.fetchSettles index (some resOk)) = some after) :
    after.remaining < page.remaining ∧ ∀ flight, page.inFlight[index]? = some flight →
      ∀ id, page.AwaitsResponse id → after.AwaitsResponse id ∨ id = flight.id := by
  simp only [system, step] at taken
  split at taken
  · cases taken
  · rename_i flight found
    split at taken
    · rename_i impossible
      cases impossible
    · rename_i resOk awaits same
      cases taken
      constructor
      · have shares := sum_map_set (fun flight : Flight => flight.awaited.remaining) found
          { flight with awaited := .data resOk }
        simp only [awaits, Awaited.remaining] at shares
        simp only [remaining, Awaited.remaining]
        omega
      · rintro moved foundMoved id ⟨other, flying, rfl, waits⟩
        rw [found] at foundMoved
        cases foundMoved
        obtain ⟨place, at_⟩ := List.getElem?_of_mem flying
        by_cases own : index = place
        · subst own
          rw [found] at at_
          cases at_
          exact Or.inr rfl
        · left
          refine ⟨other, ?_, rfl, waits⟩
          apply List.mem_of_getElem? (i := place)
          exact (List.getElem?_set_ne own).trans at_
    · cases taken

theorem leave_descends {told : Page} {resOk : Bool}
    (found : page.inFlight[index]? = some flight) (awaits : flight.awaited = .data resOk)
    (said : page.Told told flight) : (told.leave index flight).remaining < page.remaining ∧
      ∀ id, page.AwaitsResponse id → (told.leave index flight).AwaitsResponse id := by
  have left : (told.leave index flight).inFlight = page.inFlight.eraseIdx index :=
    congrArg (fun flights => flights.eraseIdx index) said.inFlight
  constructor
  · have parted := remaining_eraseIdx found
    rw [awaits] at parted
    unfold remaining at parted ⊢
    rw [left]
    simp only [Awaited.remaining] at parted ⊢
    omega
  · rintro id ⟨other, flying, rfl, waits⟩
    refine ⟨other, ?_, rfl, waits⟩
    rw [left]
    apply (List.mem_eraseIdx_iff_getElem?).mpr
    obtain ⟨place, at_⟩ := List.getElem?_of_mem flying
    refine ⟨place, ?_, at_⟩
    rintro rfl
    rw [found] at at_
    cases at_
    rw [awaits] at waits
    cases waits

/-- The body ends its call, and the others wait on. -/
theorem jsonSettles_descends {data : Option Data}
    (taken : system.step page (.jsonSettles index data) = some after) :
    after.remaining < page.remaining ∧
      ∀ id, page.AwaitsResponse id → after.AwaitsResponse id := by
  simp only [system, step] at taken
  split at taken
  · cases taken
  · rename_i flight found
    split at taken
    · rename_i resOk awaits
      cases taken
      exact leave_descends found awaits (told_networkError page flight)
    · rename_i resOk data awaits
      cases taken
      exact leave_descends found awaits (told_receive page flight resOk data)
    · cases taken

theorem fetchSettles_enabled (found : page.inFlight[index]? = some flight)
    (awaits : flight.awaited = .response) (resOk : Bool) :
    ∃ after, system.step page (.fetchSettles index (some resOk)) = some after := by
  simp only [system, step, found, awaits]
  exact ⟨_, rfl⟩

theorem jsonSettles_enabled {resOk : Bool} (found : page.inFlight[index]? = some flight)
    (awaits : flight.awaited = .data resOk) (data : Option Data) :
    ∃ after, system.step page (.jsonSettles index data) = some after := by
  simp only [system, step, found, awaits]
  cases data with
  | none => exact ⟨_, rfl⟩
  | some data => exact ⟨_, rfl⟩

end Page

/-! ### What the site has before it -/

namespace Site

variable {site later next : Site} {action : SiteAction} {browser index : Nat} {page after : Page}
  {flight : Flight}

/-- No call has come of the request yet. -/
def isUndelivered (deliveries : List (Posting × Nat)) (posting : Posting) : Bool :=
  !(deliveries.any (fun delivery => delivery.1 = posting))

/-- Sixteen for each request on its way: its delivery and what the call it becomes has before
it. -/
def remaining (site : Site) : Nat :=
  16 * site.postings.countP (isUndelivered site.deliveries) +
    (site.pages.map Page.remaining).sum + site.cluster.remaining

/-- The proxy has answered the call at an index of a page, and no body of the endpoint comes. -/
def ErrorPage (site : Site) (browser index : Nat) : Prop :=
  ∃ flight resOk, site.flight browser index = some flight ∧ flight.awaited = .data resOk ∧
    ∀ head ∈ site.heads, head.browser = browser → head.flight ≠ flight.id

/-- A step in which nothing fails and nobody asks for more; the error page of the proxy, which
has been there before, is no JSON. -/
def Quiet (site : Site) : SiteAction → Prop
  | .server action => action.isRegular = true
  | .deliver posting _ => ∃ sent, site.postings[posting]? = some sent ∧
      isUndelivered site.deliveries sent = true
  | .head _ _ _ => True
  | .body _ _ _ => True
  | .lose browser index => site.ErrorPage browser index
  | _ => False

/-- What every state of the site has, for its pages to come to rest. -/
structure Sound (site : Site) : Prop where
  posted : ∀ (browser : Nat) page, site.pages[browser]? = some page → ∀ flight ∈ page.inFlight,
    ∃ posting ∈ site.postings, posting.browser = browser ∧ posting.flight = flight.id
  rest : ∀ page ∈ site.pages, page.inFlight = [] → page.AtRest
  stamps : site.cluster.StampsLogs

theorem Sound.turn {action : PageAction} (sound : site.Sound)
    (taken : site.turn browser action = some next) : next.Sound := by
  obtain ⟨page, after, found, stepped, rfl⟩ := turn_cases taken
  have inside := (List.getElem?_eq_some_iff.mp found).1
  refine { posted := ?_, rest := ?_, stamps := sound.stamps }
  · intro other shown foundShown flight flying
    by_cases same : browser = other
    · subst same
      have moved : (site.pages.set browser after)[browser]? = some shown := foundShown
      rw [List.getElem?_set_self inside] at moved
      cases moved
      rcases Page.step_inFlight stepped flying with ⟨earlier, present, sameId⟩ | ⟨isNew, sent⟩
      · obtain ⟨posting, posted, ofPage, ofFlight⟩ := sound.posted browser page found earlier present
        exact ⟨posting, List.mem_append_left _ posted, ofPage, ofFlight.trans sameId⟩
      · obtain ⟨phone, sends⟩ := sent
        refine ⟨{ browser := browser, flight := page.started, field := page.value,
                  phone := phone }, ?_, rfl, isNew.symm⟩
        apply List.mem_append_right
        rw [sends]
        exact List.mem_singleton_self _
    · have kept : (site.pages.set browser after)[other]? = some shown := foundShown
      rw [List.getElem?_set_ne same] at kept
      obtain ⟨posting, posted, facts⟩ := sound.posted other shown kept flight flying
      exact ⟨posting, List.mem_append_left _ posted, facts⟩
  · intro shown member
    rcases List.mem_or_eq_of_mem_set member with present | isMoved
    · exact sound.rest shown present
    · subst isMoved
      exact Page.step_rest (sound.rest page (List.mem_of_getElem? found)) stepped

theorem sound_start : Site.start.Sound :=
  { posted := fun browser page absent => by cases absent
    rest := fun page absent => by cases absent
    stamps := fun message since ts absent => by cases absent }

theorem step_sound (sound : site.Sound) (taken : system.step site action = some next) :
    next.Sound := by
  cases step_cases taken with
  | server clusterTaken =>
      exact { sound with stamps := Cluster.step_stamps sound.stamps clusterTaken }
  | visit =>
      refine { sound with posted := ?_, rest := ?_ }
      · intro browser page found flight flying
        rcases Nat.lt_or_ge browser site.pages.length with within | beyond
        · have kept : (site.pages ++ [Page.start])[browser]? = some page := found
          rw [List.getElem?_append_left within] at kept
          exact sound.posted browser page kept flight flying
        · have new : (site.pages ++ [Page.start])[browser]? = some page := found
          rw [List.getElem?_append_right beyond] at new
          rw [List.mem_singleton.mp (List.mem_of_getElem? new)] at flying
          cases flying
      · intro page member
        rcases List.mem_append.mp member with present | isNew
        · exact sound.rest page present
        · intro _
          rw [List.mem_singleton.mp isNew]
          exact
            { enabled := rfl
              finished := of_decide_eq_true rfl }
  | user own turned => exact sound.turn turned
  | deliver sent clusterTaken =>
      exact { sound with stamps := Cluster.step_stamps sound.stamps clusterTaken }
  | head delivered found answered turned =>
      have shown := sound.turn turned
      exact { posted := shown.posted, rest := shown.rest, stamps := shown.stamps }
  | gateway turned => exact sound.turn turned
  | body flying arrived toPage toFlight turned => exact sound.turn turned
  | lose turned => exact sound.turn turned

/-! ### A quiet step brings the site nearer to rest -/

/-- The call still waits for the head of its answer, or has had it. -/
def Serves (site : Site) (browser id : Nat) : Prop :=
  (∃ page, site.pages[browser]? = some page ∧ page.AwaitsResponse id) ∨
    ∃ head ∈ site.heads, head.browser = browser ∧ head.flight = id

/-- What stays as it is while a site comes to rest. -/
structure Continues (site later : Site) : Prop where
  wired : later.Wired
  sound : later.Sound
  live : later.cluster.Live
  lost : later.cluster.lost = site.cluster.lost
  served : ∀ (browser : Nat) page id, site.pages[browser]? = some page →
    page.AwaitsResponse id → later.Serves browser id

/-- A turn that sends nothing changes its page alone. -/
theorem turn_silent {action : PageAction} (silent : ∀ page : Page, page.sends action = none)
    (taken : site.turn browser action = some next) :
    ∃ page after, site.pages[browser]? = some page ∧
      Page.system.step page action = some after ∧
      next = { site with pages := site.pages.set browser after } := by
  obtain ⟨page, after, found, stepped, rfl⟩ := turn_cases taken
  refine ⟨page, after, found, stepped, ?_⟩
  rw [silent page, Option.toList_none, List.map_nil, List.append_nil]

theorem head_turn {index place : Nat}
    (taken : system.step site (.head browser index place) = some next) :
    ∃ page after flight response, site.pages[browser]? = some page ∧
      page.inFlight[index]? = some flight ∧
      Page.system.step page (.fetchSettles index (some (Response.isOk response))) = some after ∧
      next = { site with
        pages := site.pages.set browser after
        heads := site.heads ++
          [{ browser := browser, flight := flight.id, response := response }] } := by
  simp only [system, step] at taken
  split at taken
  · rename_i flight posting number flying found
    split at taken
    · split at taken
      · rename_i response _
        obtain ⟨turned, turnTaken, rfl⟩ := Option.map_eq_some_iff.mp taken
        obtain ⟨page, after, foundPage, stepped, rfl⟩ := turn_silent (fun _ => rfl) turnTaken
        rw [Site.flight, foundPage, Option.bind_some] at flying
        exact ⟨page, after, flight, response, foundPage, flying, stepped, rfl⟩
      · cases taken
    · cases taken
  · cases taken

theorem body_turn {index : Nat} {error : JsString}
    (taken : system.step site (.body browser index error) = some next) :
    ∃ page after data, site.pages[browser]? = some page ∧
      Page.system.step page (.jsonSettles index data) = some after ∧
      next = { site with pages := site.pages.set browser after } := by
  obtain ⟨_, head, _, _, turned⟩ := body_cases taken
  obtain ⟨page, after, foundPage, stepped, rfl⟩ := turn_silent (fun _ => rfl) turned
  exact ⟨page, after, _, foundPage, stepped, rfl⟩

/-- A turn in which a call of the page moves on or ends. -/
theorem Continues.turn (continues : site.Continues later) {heads : List Head}
    (found : later.pages[browser]? = some page)
    (taken : system.step later action =
      some { later with pages := later.pages.set browser after, heads := heads })
    (less : after.remaining < page.remaining) (grown : later.heads ⊆ heads)
    (kept : ∀ id, page.AwaitsResponse id → after.AwaitsResponse id ∨
      ∃ head ∈ heads, head.browser = browser ∧ head.flight = id) :
    site.Continues { later with pages := later.pages.set browser after, heads := heads } ∧
      remaining { later with pages := later.pages.set browser after, heads := heads } <
        later.remaining := by
  constructor
  · refine { wired := step_wired continues.wired taken, sound := step_sound continues.sound taken,
             live := continues.live, lost := continues.lost, served := ?_ }
    intro other shown id foundShown awaits
    rcases continues.served other shown id foundShown awaits with waiting | ⟨head, arrived, facts⟩
    · obtain ⟨now, foundNow, stillAwaits⟩ := waiting
      by_cases same : browser = other
      · subst same
        rw [found] at foundNow
        cases foundNow
        have inside := (List.getElem?_eq_some_iff.mp found).1
        rcases kept id stillAwaits with goesOn | had
        · exact Or.inl ⟨after, List.getElem?_set_self inside, goesOn⟩
        · exact Or.inr had
      · exact Or.inl ⟨now, (List.getElem?_set_ne same).trans foundNow, stillAwaits⟩
    · exact Or.inr ⟨head, grown arrived, facts⟩
  · have shares := sum_map_set Page.remaining found after
    have fewer : ((later.pages.set browser after).map Page.remaining).sum <
        (later.pages.map Page.remaining).sum := by omega
    exact Nat.add_lt_add_right (Nat.add_lt_add_left fewer _) _

theorem undelivered_deliver (site : Site) {posting : Posting} (sent : posting ∈ site.postings)
    (undelivered : isUndelivered site.deliveries posting = true) (number : Nat) :
    site.postings.countP (isUndelivered (site.deliveries ++ [(posting, number)])) <
      site.postings.countP (isUndelivered site.deliveries) := by
  have parted := List.perm_cons_erase sent
  rw [parted.countP_eq, parted.countP_eq, List.countP_cons_of_pos undelivered,
    List.countP_cons_of_neg (by simp [isUndelivered])]
  apply Nat.lt_succ_of_le
  apply List.countP_mono_left
  intro other _ still
  simp only [isUndelivered, List.any_append, Bool.not_or, Bool.and_eq_true] at still
  exact still.1

/-- A request that arrives is a call with fifteen steps before it. -/
theorem arrive_remaining {cluster arrived : Cluster} {request : Request}
    (taken : Cluster.system.step cluster (.web (.arrive request)) = some arrived) :
    arrived.remaining = cluster.remaining + 15 ∧ arrived.workers = cluster.workers ∧
      arrived.lost = cluster.lost := by
  cases taken
  refine ⟨?_, rfl, rfl⟩
  simp only [Cluster.remaining, Cluster.serve, List.drop_length, List.append_nil, List.map_append,
    List.sum_append, List.map_singleton, List.sum_singleton, Phase.remaining]
  omega

theorem Continues.quiet (continues : site.Continues later) (quiet : later.Quiet action)
    (taken : system.step later action = some next) :
    site.Continues next ∧ next.remaining < later.remaining := by
  have wired := step_wired continues.wired taken
  have sound := step_sound continues.sound taken
  cases action with
  | server action =>
      obtain ⟨cluster, clusterTaken, rfl⟩ := Option.map_eq_some_iff.mp taken
      obtain ⟨alive, lost, _⟩ := Cluster.step_regular continues.live quiet clusterTaken
      have less := Cluster.step_remaining quiet clusterTaken
      refine ⟨?_, Nat.add_lt_add_left less _⟩
      exact
        { wired := wired
          sound := sound
          live := alive
          lost := lost.trans continues.lost
          served := continues.served }
  | deliver place server =>
      obtain ⟨posting, found, undelivered⟩ := quiet
      simp only [system, step, found] at taken
      obtain ⟨cluster, clusterTaken, rfl⟩ := Option.map_eq_some_iff.mp taken
      obtain ⟨more, workers, lost⟩ := arrive_remaining clusterTaken
      constructor
      · refine { wired := wired, sound := sound, live := ?_, lost := lost.trans continues.lost,
                 served := continues.served }
        rw [Cluster.Live, workers]
        exact continues.live
      · have fewer := later.undelivered_deliver (List.mem_of_getElem? found) undelivered
          later.cluster.web.calls.length
        simp only [remaining]
        omega
  | head browser index place =>
      obtain ⟨page, after, flight, response, foundPage, flying, stepped, rfl⟩ := head_turn taken
      obtain ⟨less, kept⟩ := Page.fetchSettles_descends stepped
      apply continues.turn foundPage taken less (List.subset_append_left _ _)
      intro id waiting
      rcases kept flight flying id waiting with goesOn | rfl
      · exact Or.inl goesOn
      · exact Or.inr ⟨_, List.mem_append_right _ (List.mem_singleton_self _), rfl, rfl⟩
  | body browser index error =>
      obtain ⟨page, after, data, foundPage, stepped, rfl⟩ := body_turn taken
      obtain ⟨less, kept⟩ := Page.jsonSettles_descends stepped
      apply continues.turn foundPage taken less (List.Subset.refl _)
      exact fun id waiting => Or.inl (kept id waiting)
  | lose browser index =>
      have whole := taken
      obtain ⟨flight, resOk, flying, awaits, _⟩ := quiet
      simp only [system, step, flying, awaits, Awaited.rejection] at taken
      obtain ⟨page, after, foundPage, stepped, rfl⟩ := turn_silent (fun _ => rfl) taken
      obtain ⟨less, kept⟩ := Page.jsonSettles_descends stepped
      apply continues.turn foundPage whole less (List.Subset.refl _)
      exact fun id waiting => Or.inl (kept id waiting)
  | visit => cases quiet
  | user browser action => cases quiet
  | gateway browser index => cases quiet

/-! ### A quiet step is always there -/

/-- Nothing is open any more, neither on a page nor behind it. -/
structure WorkedOff (site : Site) : Prop where
  cluster : site.cluster.WorkedOff
  pages : ∀ page ∈ site.pages, page.inFlight = []

theorem turn_enabled {action : PageAction} (found : site.pages[browser]? = some page)
    (stepped : Page.system.step page action = some after) :
    ∃ next, site.turn browser action = some next := by
  simp only [turn, found, stepped]
  exact ⟨_, rfl⟩

/-- The head of the answer that a call has given can reach the page that waits for it. -/
theorem head_enabled (wired : site.Wired) (done : site.cluster.WorkedOff)
    (foundPage : site.pages[browser]? = some page) (found : page.inFlight[index]? = some flight)
    (awaits : flight.awaited = .response) {posting : Posting} (ofPage : posting.browser = browser)
    (ofFlight : posting.flight = flight.id) {number : Nat}
    (delivered : (posting, number) ∈ site.deliveries) :
    ∃ place next, system.step site (.head browser index place) = some next := by
  obtain ⟨place, foundDelivery⟩ := List.getElem?_of_mem delivered
  obtain ⟨_, call, _, foundCall, _⟩ := wired.delivered posting number delivered
  obtain ⟨response, returned⟩ := done.answered call (List.mem_of_getElem? foundCall)
  obtain ⟨after, stepped⟩ := Page.fetchSettles_enabled found awaits response.isOk
  obtain ⟨turned, turnTaken⟩ := turn_enabled foundPage stepped
  have flying : site.flight browser index = some flight := by
    rw [Site.flight, foundPage, Option.bind_some, found]
  refine ⟨place, ?_⟩
  simp only [system, step, flying, foundDelivery, ofPage, ofFlight, and_self, if_true, foundCall,
    Option.map_some, returned, turnTaken]
  exact ⟨_, rfl⟩

/-- The body of the answer can reach its page; that of an error page is no JSON. -/
theorem body_enabled (foundPage : site.pages[browser]? = some page)
    (found : page.inFlight[index]? = some flight) {resOk : Bool}
    (awaits : flight.awaited = .data resOk) :
    ∃ action next, site.Quiet action ∧ system.step site action = some next := by
  have flying : site.flight browser index = some flight := by
    rw [Site.flight, foundPage, Option.bind_some, found]
  cases arrived : site.heads.find? (fun head =>
      head.browser = browser && head.flight = flight.id) with
  | some head =>
      obtain ⟨after, stepped⟩ :=
        Page.jsonSettles_enabled found awaits (some (head.response.read []))
      obtain ⟨next, turnTaken⟩ := turn_enabled foundPage stepped
      refine ⟨.body browser index [], next, trivial, ?_⟩
      simp only [system, step, flying, arrived]
      exact turnTaken
  | none =>
      obtain ⟨after, stepped⟩ := Page.jsonSettles_enabled found awaits none
      obtain ⟨next, turnTaken⟩ := turn_enabled foundPage stepped
      refine ⟨.lose browser index, next, ⟨flight, resOk, flying, awaits, ?_⟩, ?_⟩
      · intro head member toPage toFlight
        have other := List.find?_eq_none.mp arrived head member
        simp only [toPage, toFlight, decide_true, Bool.and_self, not_true_eq_false] at other
      · simp only [system, step, flying, awaits, Awaited.rejection]
        exact turnTaken

theorem deliver_enabled {posting : Posting} (sent : posting ∈ site.postings)
    (undelivered : isUndelivered site.deliveries posting = true) :
    ∃ action next, site.Quiet action ∧ system.step site action = some next := by
  obtain ⟨place, found⟩ := List.getElem?_of_mem sent
  have arrives : ∃ next, system.step site (.deliver place exampleRequest) = some next := by
    simp only [system, step, found]
    exact ⟨_, rfl⟩
  obtain ⟨next, taken⟩ := arrives
  exact ⟨.deliver place exampleRequest, next, ⟨posting, found, undelivered⟩, taken⟩

theorem Continues.quiet_enabled (continues : site.Continues later) (open_ : ¬later.WorkedOff) :
    ∃ action next, later.Quiet action ∧ system.step later action = some next := by
  by_cases done : later.cluster.WorkedOff
  · have flying : ∃ page ∈ later.pages, page.inFlight ≠ [] := by
      by_contra none
      push Not at none
      exact open_ ⟨done, none⟩
    obtain ⟨page, member, calls⟩ := flying
    obtain ⟨browser, foundPage⟩ := List.getElem?_of_mem member
    obtain ⟨flight, inFlight⟩ := List.exists_mem_of_ne_nil page.inFlight calls
    obtain ⟨index, found⟩ := List.getElem?_of_mem inFlight
    cases awaits : flight.awaited with
    | data resOk => exact body_enabled foundPage found awaits
    | response =>
        obtain ⟨posting, sent, ofPage, ofFlight⟩ :=
          continues.sound.posted browser page foundPage flight inFlight
        cases undelivered : isUndelivered later.deliveries posting with
        | true => exact deliver_enabled sent undelivered
        | false =>
            simp only [isUndelivered, Bool.not_eq_false', List.any_eq_true,
              decide_eq_true_eq] at undelivered
            obtain ⟨⟨same, number⟩, present, rfl⟩ := undelivered
            obtain ⟨place, next, taken⟩ :=
              head_enabled continues.wired done foundPage found awaits ofPage ofFlight present
            exact ⟨.head browser index place, next, trivial, taken⟩
  · obtain ⟨action, cluster, regular, taken⟩ :=
      Cluster.regular_enabled continues.sound.stamps continues.live done
    refine ⟨.server action, { later with cluster := cluster }, regular, ?_⟩
    simp only [system, step, taken, Option.map_some]

/-! ### The site at rest -/

/-- Where the users of a site are in the end: no page is busy, each call that waited for its
answer has had the one that its request was given, and the save of a success that is shown has
written its own row, unless it was lost before. -/
structure SettledBy (site final : Site) : Prop where
  workedOff : final.WorkedOff
  rest : ∀ page ∈ final.pages, page.AtRest
  answered : ∀ (browser : Nat) page id, site.pages[browser]? = some page →
    page.AwaitsResponse id → ∃ posting number call head, final.Delivered posting number call ∧
      posting.browser = browser ∧ posting.flight = id ∧ head ∈ final.heads ∧
        head.browser = browser ∧ head.flight = id ∧ call.phase = .returned head.response
  written : ∀ (browser : Nat) page, final.pages[browser]? = some page →
    page.message = "Phone submitted successfully." → ∃ id phone winner, page.writer = some id ∧
      final.Reached browser id phone winner .queued ∧
      ∃ message ∈ final.cluster.web.published, message.sender = winner.owner ∧
        message.task = .savePhoneInSqlTask phone ∧
          ((∃ row, final.cluster.Wrote message row ∧ row.phone = phone) ∨
            message ∈ site.cluster.lost)

theorem Continues.settled {final : Site} (continues : site.Continues final)
    (done : final.WorkedOff) : site.SettledBy final := by
  have inv := Web.inv_of_reachable continues.wired.cluster.inv.reached
  refine { workedOff := done, rest := ?_, answered := ?_, written := ?_ }
  · intro page member
    exact continues.sound.rest page member (done.pages page member)
  · intro browser page id found awaits
    rcases continues.served browser page id found awaits with waiting | had
    · obtain ⟨now, foundNow, flight, flying, _⟩ := waiting
      rw [done.pages now (List.mem_of_getElem? foundNow)] at flying
      cases flying
    · obtain ⟨head, arrived, toPage, toFlight⟩ := had
      obtain ⟨posting, number, call, delivered, ofPage, ofFlight, returned⟩ :=
        continues.wired.answered head arrived
      exact ⟨posting, number, call, head, delivered, ofPage.trans toPage,
        ofFlight.trans toFlight, arrived, toPage, toFlight, returned⟩
  · intro browser page foundPage shown
    obtain ⟨id, phone, winner, wrote, reached, _⟩ :=
      continues.wired.reached .queued foundPage (congrArg some shown.symm)
    obtain ⟨call, found, valid, returned⟩ := reached.answered
    obtain ⟨message, published, sender, save⟩ := save_of_queued inv found valid returned
    refine ⟨id, phone, winner, wrote, reached, message, published, sender, save, ?_⟩
    rcases fate_of_save continues.wired.cluster published save with queued | held | row | lost
    · rw [done.cluster.queue] at queued
      cases queued
    · rw [done.cluster.pending_nil] at held
      cases held
    · exact Or.inl row
    · exact Or.inr (continues.lost ▸ lost)

/-- From every reachable state with a worker alive, however the quiet steps are ordered: they
end, and where no quiet step is left the site has come to rest. -/
theorem comes_to_rest (reached : system.Reachable site) (live : site.cluster.Live) :
    (∀ schedule later, system.exec site schedule = some later →
      system.Guarded Quiet site schedule → schedule.length ≤ site.remaining ∧
        (site.SettledBy later ∨
          ∃ action next, later.Quiet action ∧ system.step later action = some next)) ∧
    ∃ schedule final, system.exec site schedule = some final ∧
      system.Guarded Quiet site schedule ∧ site.SettledBy final := by
  have start : site.Continues site :=
    { wired := system.reachable_invariant step_wired wired_start reached
      sound := system.reachable_invariant step_sound sound_start reached
      live := live
      lost := rfl
      served := fun browser page id found awaits => Or.inl ⟨page, found, awaits⟩ }
  constructor
  · intro schedule later completed quiet
    obtain ⟨continues, short⟩ := system.guarded_descends remaining
      (fun continues quiet taken => continues.quiet quiet taken) start quiet completed
    refine ⟨by omega, ?_⟩
    by_cases done : later.WorkedOff
    · exact Or.inl (continues.settled done)
    · exact Or.inr (continues.quiet_enabled done)
  · have goes : ∀ later, site.Continues later → ¬later.WorkedOff → ∃ action next,
        later.Quiet action ∧ system.step later action = some next ∧ site.Continues next ∧
          next.remaining < later.remaining := by
      intro later continues open_
      obtain ⟨action, next, quiet, taken⟩ := continues.quiet_enabled open_
      exact ⟨action, next, quiet, taken, continues.quiet quiet taken⟩
    obtain ⟨schedule, final, completed, quiet, _, continues, done⟩ :=
      system.guarded_until remaining goes start
    exact ⟨schedule, final, completed, quiet, continues.settled done⟩

/-- Of three pages the first has sent a request that is still on the wire, the second waits for
a call that has just been accepted, and the third has the error page of the proxy. -/
def troubledRun : List SiteAction :=
  [.visit, .visit, .visit, .server .hire, .user 0 (.edit (codeUnits "+989121234567")),
    .user 0 .click, .user 1 (.edit (codeUnits " +989121234567")), .user 1 .click,
    .user 2 (.edit (codeUnits "+989123456789")), .user 2 .click, .deliver 1 exampleRequest,
    .server (.web (.resume 0 .returns)), .server (.web (.resume 0 .returns)), .gateway 2 0]

theorem comes_to_rest_troubled : ∃ site, system.exec Site.start troubledRun = some site ∧
    site.pages.map (fun page => page.inFlight.length) = [1, 1, 1] ∧
      ∃ schedule final, system.exec site schedule = some final ∧ site.SettledBy final := by
  have outcome : (system.exec Site.start troubledRun).any (fun site =>
      decide (site.pages.map (fun page => page.inFlight.length) = [1, 1, 1]) &&
        decide (site.cluster.workers = [.idle])) = true := by decide
  obtain ⟨site, completed, checked⟩ := system.exec_of_any outcome
  simp only [Bool.and_eq_true, decide_eq_true_eq] at checked
  have live : site.cluster.Live := by
    rw [Cluster.Live, checked.2]
    exact ⟨.idle, List.mem_singleton_self _, fun impossible => by cases impossible⟩
  obtain ⟨schedule, final, ran, _, settled⟩ :=
    (comes_to_rest (system.reachable_of_exec completed) live).2
  exact ⟨site, completed, checked.1, schedule, final, ran, settled⟩

end Site

end Bistland
