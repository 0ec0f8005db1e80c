/-
The counters of a service with several web processes. Each process counts the submissions
it has served in its own memory, and `/metrics` shows the counters of the process that
happens to serve the scrape; the scraper takes them for those of the one target it knows.
-/

import Bistland.HandlerRun
import Bistland.Library.SplitCounter

namespace Bistland

open SplitCounter

/-! ### State -/

/-- The labels of `endpoint_requests`. -/
inductive StatusLabel where
  | success
  | error
  deriving DecidableEq

def Metrics.labelled (metrics : Metrics) : StatusLabel → Nat
  | .success => metrics.success
  | .error => metrics.error

/-- What a scrape shows, and what all processes have counted when it is made. -/
structure Scrape where
  seen : Metrics
  made : Metrics

def Scrape.reading (status : StatusLabel) (scrape : Scrape) : Reading :=
  { seen := scrape.seen.labelled status
    made := scrape.made.labelled status }

/-- The counters of each process, the count that one process would have made of all the
submissions, and the scrapes so far. -/
structure Fleet (workers : Nat) where
  metrics : Fin workers → Metrics
  made : Metrics
  scrapes : List Scrape

def Fleet.start (workers : Nat) : Fleet workers :=
  { metrics := fun _ => Metrics.zero
    made := Metrics.zero
    scrapes := [] }

def Response.increment : Response → StatusLabel → Nat
  | .queued, .success => 1
  | .error _, .error => 1
  | _, _ => 0

theorem labelled_count (metrics : Metrics) (response : Response) (duration : Nat)
    (status : StatusLabel) :
    ((metrics.count response).observe duration).labelled status =
      metrics.labelled status + response.increment status := by
  cases response <;> cases status <;> rfl

/-- A submission is served by one process, whatever cache and queue it finds. -/
inductive FleetAction (Cache : Type) (workers : Nat) where
  | submit (process : Fin workers) (found : World Cache) (replies : Replies) (request : Request)
  | scrape (process : Fin workers)

/-! ### Steps -/

section Counting

variable {Cache : Type} (backend : CacheBackend Cache) (replies : Replies) (request : Request)
  (found : World Cache) (metrics : Metrics)

/-- What a call of `post` makes of the counters of its process. -/
def counted : Metrics :=
  ((post backend replies request).run { found with metrics := metrics }).2.metrics

def answered : Response :=
  ((post backend replies request).run found).1

/-- The `try` block neither reads the counters nor changes them. -/
theorem process_metrics :
    (process backend replies request).outcome { found with metrics := metrics } =
      (((process backend replies request).outcome found).1,
        { ((process backend replies request).outcome found).2 with metrics := metrics }) := by
  cases valid : request.validated with
  | error failure =>
      rw [process_rejected backend replies request _ valid,
        process_rejected backend replies request found valid]
  | ok phone =>
      rw [process_accepted backend replies request _ valid,
        process_accepted backend replies request found valid]

/-- A call adds its own answer to the counters, in whichever process it is served. -/
theorem labelled_counted (status : StatusLabel) :
    (counted backend replies request found metrics).labelled status =
      metrics.labelled status + (answered backend replies request found).increment status := by
  have same := process_metrics backend replies request found metrics
  unfold counted answered
  rw [post_run, post_run, same]
  exact labelled_count metrics _ _ status

end Counting

namespace Fleet

section Steps

variable {Cache : Type} {workers : Nat} (backend : CacheBackend Cache)

def submit (fleet : Fleet workers) (process : Fin workers) (found : World Cache)
    (replies : Replies) (request : Request) : Fleet workers :=
  { fleet with
    metrics := Function.update fleet.metrics process
      (counted backend replies request found (fleet.metrics process))
    made := counted backend replies request found fleet.made }

def scrape (fleet : Fleet workers) (process : Fin workers) : Fleet workers :=
  { fleet with
    scrapes := fleet.scrapes ++ [{ seen := fleet.metrics process, made := fleet.made }] }

def step (fleet : Fleet workers) : FleetAction Cache workers → Option (Fleet workers)
  | .submit process found replies request =>
      some (fleet.submit backend process found replies request)
  | .scrape process => some (fleet.scrape process)

def system (workers : Nat) : Transition.System (Fleet workers) (FleetAction Cache workers) :=
  { initial := Fleet.start workers
    step := Fleet.step backend }

end Steps

variable {workers : Nat}

def readings (fleet : Fleet workers) (status : StatusLabel) : List Reading :=
  fleet.scrapes.map (Scrape.reading status)

def Counterlike (fleet : Fleet workers) : Prop :=
  ∀ status, Faithful (fleet.readings status)

/-- A scrape is served by a process besides which none has counted a submission. -/
def Alone {Cache : Type} (fleet : Fleet workers) : FleetAction Cache workers → Prop
  | .submit _ _ _ _ => True
  | .scrape process => ∀ other, other ≠ process →
      (fleet.metrics other).success = 0 ∧ (fleet.metrics other).error = 0

instance decidableAlone {Cache : Type} (fleet : Fleet workers)
    (action : FleetAction Cache workers) : Decidable (fleet.Alone action) :=
  match action with
  | .submit _ _ _ _ => isTrue trivial
  | .scrape process => inferInstanceAs (Decidable (∀ other, other ≠ process →
      (fleet.metrics other).success = 0 ∧ (fleet.metrics other).error = 0))

theorem readings_scrape (fleet : Fleet workers) (process : Fin workers) (status : StatusLabel) :
    readings (fleet.scrape process) status = fleet.readings status ++
      [{ seen := (fleet.metrics process).labelled status, made := fleet.made.labelled status }] :=
  List.map_append

/-! ### The parts and their sum -/

def parts (fleet : Fleet workers) (status : StatusLabel) (process : Fin workers) : Nat :=
  (fleet.metrics process).labelled status

structure Inv (fleet : Fleet workers) : Prop where
  sum : ∀ status, total (fleet.parts status) = fleet.made.labelled status
  bounded : ∀ status, ∀ reading ∈ fleet.readings status,
    reading.seen ≤ fleet.made.labelled status

theorem inv_start (workers : Nat) : Inv (start workers) :=
  { sum := fun status => by
      unfold total
      apply Eq.trans (Finset.sum_eq_zero ?_) ?_
      · intro process _
        cases status <;> rfl
      · cases status <;> rfl
    bounded := fun status reading absent => by cases absent }

section Runs

variable {Cache : Type} {backend : CacheBackend Cache} {fleet next : Fleet workers}
  {action : FleetAction Cache workers} {actions : List (FleetAction Cache workers)}

theorem parts_submit (fleet : Fleet workers) (process : Fin workers) (found : World Cache)
    (replies : Replies) (request : Request) (status : StatusLabel) :
    (fleet.submit backend process found replies request).parts status =
      Function.update (fleet.parts status) process (fleet.parts status process +
        (answered backend replies request found).increment status) := by
  funext other
  change (Function.update fleet.metrics process
    (counted backend replies request found (fleet.metrics process)) other).labelled status = _
  by_cases same : other = process
  · rw [same, Function.update_self, Function.update_self, labelled_counted]
    rfl
  · rw [Function.update_of_ne same, Function.update_of_ne same]
    rfl

theorem Inv.submit (inv : fleet.Inv) (process : Fin workers) (found : World Cache)
    (replies : Replies) (request : Request) :
    (fleet.submit backend process found replies request).Inv := by
  have made : ∀ status,
      (fleet.submit backend process found replies request).made.labelled status =
        fleet.made.labelled status + (answered backend replies request found).increment status :=
    labelled_counted backend replies request found fleet.made
  constructor
  · intro status
    rw [parts_submit, total_update, inv.sum status, made]
  · intro status reading member
    have before := inv.bounded status reading member
    rw [made]
    omega

theorem Inv.scrape (inv : fleet.Inv) (process : Fin workers) : (fleet.scrape process).Inv := by
  constructor
  · exact inv.sum
  · intro status reading member
    have member : reading ∈ readings (fleet.scrape process) status := member
    rw [readings_scrape] at member
    rcases List.mem_append.mp member with old | last
    · exact inv.bounded status reading old
    · rw [List.mem_singleton.mp last]
      change fleet.parts status process ≤ fleet.made.labelled status
      rw [← inv.sum status]
      exact part_le_total (fleet.parts status) process

theorem Inv.step (inv : fleet.Inv)
    (taken : (system backend workers).step fleet action = some next) : next.Inv := by
  cases action with
  | submit process found replies request =>
      cases taken
      exact inv.submit process found replies request
  | scrape process =>
      cases taken
      exact inv.scrape process

/-- A submission shows in no scrape; a scrape is a faithful reading exactly if its process
has counted alone. -/
theorem Inv.step_iff (inv : fleet.Inv) (counterlike : fleet.Counterlike)
    (taken : (system backend workers).step fleet action = some next) :
    next.Counterlike ↔ fleet.Alone action := by
  cases action with
  | submit process found replies request =>
      cases taken
      exact ⟨fun _ => trivial, fun _ => counterlike⟩
  | scrape process =>
      cases taken
      have each : ∀ status, Faithful (readings (fleet.scrape process) status) ↔
          ∀ other, other ≠ process → fleet.parts status other = 0 := by
        intro status
        rw [readings_scrape, ← total_le_part_iff, inv.sum status]
        exact faithful_append_iff (counterlike status) (inv.bounded status)
      constructor
      · intro faithful other different
        exact ⟨(each .success).mp (faithful .success) other different,
          (each .error).mp (faithful .error) other different⟩
      · intro alone status
        apply (each status).mpr
        intro other different
        cases status with
        | success => exact (alone other different).1
        | error => exact (alone other different).2

/-- The scrapes read a counter exactly if each is served by a process that has counted alone,
and so always where there is one process only. -/
theorem scrapes_counterlike_exactly
    (completed : (system backend workers).exec (start workers) actions = some fleet) :
    ((system backend workers).Always Counterlike (start workers) actions ↔
      (system backend workers).Guarded Alone (start workers) actions) ∧
    (workers = 1 → (system backend workers).Always Counterlike (start workers) actions) := by
  have exactly : (system backend workers).Always Counterlike (start workers) actions ↔
      (system backend workers).Guarded Alone (start workers) actions := by
    apply (system backend workers).always_iff_guarded (fun inv taken => Inv.step inv taken) ?_
      (inv_start workers) (fun status => faithful_nil) completed
    intro _ _ _ inv counterlike taken
    exact inv.step_iff counterlike taken
  refine ⟨exactly, ?_⟩
  intro single
  apply exactly.mpr
  apply (system backend workers).guarded_of_mem
  intro action _ fleet
  cases action with
  | submit process found replies request => trivial
  | scrape process =>
      intro other different
      subst single
      exact absurd (Subsingleton.elim other process) different

end Runs

def submitExample {workers : Nat} (process : Fin workers) :
    FleetAction (Expiring.Store Str Str) workers :=
  .submit process Web.start.world Replies.allReturn exampleRequest

/-- One submission, scraped from the process that served it and then from the other. -/
theorem scrape_falls :
    ∃ fleet, (system sharedCache 2).exec (start 2) [submitExample 0, .scrape 0, .scrape 1] =
        some fleet ∧
      (fleet.readings .success).map Reading.seen = [1, 0] ∧ ¬fleet.Counterlike := by
  obtain ⟨fleet, completed, seen⟩ := (system sharedCache 2).exec_of_any
    (show ((system sharedCache 2).exec (start 2) [submitExample 0, .scrape 0, .scrape 1]).any
      (fun fleet => (fleet.readings .success).map Reading.seen = [1, 0]) = true by decide)
  have values := of_decide_eq_true seen
  refine ⟨fleet, completed, values, ?_⟩
  intro counterlike
  have rising := (counterlike .success).rising
  rw [← List.pairwise_map (R := fun earlier later => earlier ≤ later), values] at rising
  revert rising
  decide

theorem scrapes_counterlike_exactly_sticky :
    ∃ fleet, (system sharedCache 2).exec (start 2)
        [.scrape 0, submitExample 0, .scrape 0, submitExample 0, .scrape 0] = some fleet ∧
      (system sharedCache 2).Always Counterlike (start 2)
        [.scrape 0, submitExample 0, .scrape 0, submitExample 0, .scrape 0] ∧
      (fleet.readings .success).map Reading.seen = [0, 1, 2] := by
  obtain ⟨fleet, completed, seen⟩ := (system sharedCache 2).exec_of_any
    (show ((system sharedCache 2).exec (start 2)
        [.scrape 0, submitExample 0, .scrape 0, submitExample 0, .scrape 0]).any
      (fun fleet => (fleet.readings .success).map Reading.seen = [0, 1, 2]) = true by decide)
  have alone : (system sharedCache 2).Guarded Alone (start 2)
      [.scrape 0, submitExample 0, .scrape 0, submitExample 0, .scrape 0] := by decide
  exact ⟨fleet, completed, (scrapes_counterlike_exactly completed).1.mpr alone,
    of_decide_eq_true seen⟩

end Fleet

end Bistland
