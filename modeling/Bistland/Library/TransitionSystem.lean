/-
Partial deterministic transition systems. A run is a list of actions; a guard
speaks about every step of a run and a state predicate about every state it
reaches. The invariant rule, the exactness rule and the simulation rule are the
only inductions over runs; what a system proves about itself is its steps.
-/

import Mathlib.Data.List.Basic

namespace Bistland.Transition

structure System (State Action : Type) where
  initial : State
  step : State → Action → Option State

variable {State Action : Type}

def System.exec (system : System State Action) : State → List Action → Option State
  | state, [] => some state
  | state, action :: rest =>
      match system.step state action with
      | none => none
      | some next => system.exec next rest

def System.Reachable (system : System State Action) (state : State) : Prop :=
  ∃ actions, system.exec system.initial actions = some state

/-- Every state along the run, the first one included, satisfies the predicate. -/
def System.Always (system : System State Action) (holds : State → Prop) :
    State → List Action → Prop
  | state, [] => holds state
  | state, action :: rest =>
      holds state ∧
        match system.step state action with
        | none => True
        | some next => system.Always holds next rest

/-- Every step of the run satisfies the guard in the state it is taken from. -/
def System.Guarded (system : System State Action) (guard : State → Action → Prop) :
    State → List Action → Prop
  | _, [] => True
  | state, action :: rest =>
      guard state action ∧
        match system.step state action with
        | none => True
        | some next => system.Guarded guard next rest

section Runs

variable (system : System State Action) {holds invariant : State → Prop}
  {guard : State → Action → Prop} {state next final : State} {action : Action}
  {actions rest : List Action}

theorem System.exec_cons (taken : system.step state action = some next) :
    system.exec state (action :: rest) = system.exec next rest := by
  simp only [System.exec, taken]

theorem System.always_cons (taken : system.step state action = some next) :
    system.Always holds state (action :: rest) ↔
      holds state ∧ system.Always holds next rest := by
  simp only [System.Always, taken]

theorem System.guarded_cons (taken : system.step state action = some next) :
    system.Guarded guard state (action :: rest) ↔
      guard state action ∧ system.Guarded guard next rest := by
  simp only [System.Guarded, taken]

theorem System.exec_cons_inv (completed : system.exec state (action :: rest) = some final) :
    ∃ next, system.step state action = some next ∧ system.exec next rest = some final := by
  cases taken : system.step state action with
  | none =>
      simp only [System.exec, taken] at completed
      contradiction
  | some next =>
      rw [system.exec_cons taken] at completed
      exact ⟨next, rfl, completed⟩

theorem System.exec_of_any {check : State → Bool}
    (checked : (system.exec state actions).any check = true) :
    ∃ final, system.exec state actions = some final ∧ check final = true := by
  cases completed : system.exec state actions with
  | none =>
      rw [completed] at checked
      cases checked
  | some final =>
      rw [completed] at checked
      exact ⟨final, rfl, checked⟩

theorem System.exec_append (first second : List Action) :
    system.exec state (first ++ second) =
      (system.exec state first).bind (fun middle => system.exec middle second) := by
  induction first generalizing state with
  | nil => rfl
  | cons action rest ih =>
      cases taken : system.step state action with
      | none => simp only [List.cons_append, System.exec, taken, Option.bind_none]
      | some next =>
          rw [List.cons_append, system.exec_cons taken, system.exec_cons taken]
          exact ih

theorem System.always_first (reached : system.Always holds state actions) : holds state := by
  cases actions with
  | nil => exact reached
  | cons action rest => exact reached.1

theorem System.always_last (reached : system.Always holds state actions)
    (completed : system.exec state actions = some final) : holds final := by
  induction actions generalizing state with
  | nil =>
      cases completed
      exact reached
  | cons action rest ih =>
      obtain ⟨next, taken, completed⟩ := system.exec_cons_inv completed
      rw [system.always_cons taken] at reached
      exact ih reached.2 completed

theorem System.always_mono {weaker : State → Prop} (weaken : ∀ state, holds state → weaker state)
    (reached : system.Always holds state actions) : system.Always weaker state actions := by
  induction actions generalizing state with
  | nil => exact weaken state reached
  | cons action rest ih =>
      refine ⟨weaken state reached.1, ?_⟩
      have later := reached.2
      cases taken : system.step state action with
      | none => trivial
      | some next =>
          rw [taken] at later
          exact ih later

theorem System.guarded_mono {weaker : State → Action → Prop}
    (weaken : ∀ state action, guard state action → weaker state action)
    (allowed : system.Guarded guard state actions) : system.Guarded weaker state actions := by
  induction actions generalizing state with
  | nil => trivial
  | cons action rest ih =>
      refine ⟨weaken state action allowed.1, ?_⟩
      have later := allowed.2
      cases taken : system.step state action with
      | none => trivial
      | some next =>
          rw [taken] at later
          exact ih later

theorem System.guarded_of_mem (every : ∀ action ∈ actions, ∀ state, guard state action) :
    system.Guarded guard state actions := by
  induction actions generalizing state with
  | nil => trivial
  | cons action rest ih =>
      refine ⟨every action List.mem_cons_self state, ?_⟩
      cases system.step state action with
      | none => trivial
      | some next => exact ih (fun later member => every later (List.mem_cons_of_mem action member))

/-- The invariant rule: what every guarded step preserves holds in every state
of a guarded run. -/
theorem System.always_of_guarded
    (preserved : ∀ {state action next}, invariant state → guard state action →
      system.step state action = some next → invariant next)
    (start : invariant state) (allowed : system.Guarded guard state actions) :
    system.Always invariant state actions := by
  induction actions generalizing state with
  | nil => exact start
  | cons action rest ih =>
      refine ⟨start, ?_⟩
      have later := allowed.2
      cases taken : system.step state action with
      | none => trivial
      | some next =>
          rw [taken] at later
          exact ih (preserved start allowed.1 taken) later

theorem System.run_invariant
    (preserved : ∀ {state action next}, invariant state → guard state action →
      system.step state action = some next → invariant next)
    (start : invariant state) (allowed : system.Guarded guard state actions)
    (completed : system.exec state actions = some final) : invariant final :=
  system.always_last (system.always_of_guarded preserved start allowed) completed

theorem System.always_of_preserved
    (preserved : ∀ {state action next}, invariant state →
      system.step state action = some next → invariant next)
    (start : invariant state) : system.Always invariant state actions := by
  have allowed : system.Guarded (fun _ _ => True) state actions :=
    system.guarded_of_mem (fun _ _ _ => trivial)
  exact system.always_of_guarded (fun inside _ taken => preserved inside taken) start allowed

theorem System.reachable_invariant
    (preserved : ∀ {state action next}, invariant state →
      system.step state action = some next → invariant next)
    (start : invariant system.initial) (reached : system.Reachable state) : invariant state := by
  obtain ⟨actions, completed⟩ := reached
  exact system.always_last (system.always_of_preserved preserved start) completed

theorem System.always_of_last
    (kept : ∀ {state action next}, system.step state action = some next → holds next → holds state)
    (completed : system.exec state actions = some final) (last : holds final) :
    system.Always holds state actions := by
  induction actions generalizing state with
  | nil =>
      cases completed
      exact last
  | cons action rest ih =>
      obtain ⟨next, taken, completed⟩ := system.exec_cons_inv completed
      have later := ih completed
      rw [system.always_cons taken]
      exact ⟨kept taken (system.always_first later), later⟩

/-- A history that each step extends by what it records of its action. -/
theorem System.exec_history {Event : Type} (history : State → List Event)
    (event : Action → Option Event)
    (extends_ : ∀ {state action next}, system.step state action = some next →
      history next = history state ++ (event action).toList)
    (completed : system.exec state actions = some final) :
    history final = history state ++ actions.filterMap event := by
  induction actions generalizing state with
  | nil =>
      cases completed
      rw [List.filterMap_nil, List.append_nil]
  | cons action rest ih =>
      obtain ⟨next, taken, completed⟩ := system.exec_cons_inv completed
      rw [ih completed, extends_ taken, List.append_assoc]
      cases recorded : event action with
      | none => rw [List.filterMap_cons_none recorded]; rfl
      | some item => rw [List.filterMap_cons_some recorded]; rfl

theorem System.reachable_initial : system.Reachable system.initial :=
  ⟨[], rfl⟩

theorem System.reachable_of_exec (completed : system.exec system.initial actions = some final) :
    system.Reachable final :=
  ⟨actions, completed⟩

/-- The exactness rule: when each step from a good state leads to a good state
exactly if it satisfies the guard, a run stays good exactly if all its steps
satisfy the guard. -/
theorem System.always_iff_guarded
    (preserved : ∀ {state action next}, invariant state →
      system.step state action = some next → invariant next)
    (exact : ∀ {state action next}, invariant state → holds state →
      system.step state action = some next → (holds next ↔ guard state action))
    (start : invariant state) (good : holds state)
    (completed : system.exec state actions = some final) :
    system.Always holds state actions ↔ system.Guarded guard state actions := by
  induction actions generalizing state with
  | nil => exact ⟨fun _ => trivial, fun _ => good⟩
  | cons action rest ih =>
      obtain ⟨next, taken, completed⟩ := system.exec_cons_inv completed
      rw [system.always_cons taken, system.guarded_cons taken]
      have here := exact start good taken
      constructor
      · intro ⟨_, reached⟩
        have goodNext := system.always_first reached
        exact ⟨here.mp goodNext, (ih (preserved start taken) goodNext completed).mp reached⟩
      · intro ⟨allowed, later⟩
        have goodNext := here.mpr allowed
        exact ⟨good, (ih (preserved start taken) goodNext completed).mpr later⟩

/-- A guard that does not read the state holds of every action of a completed run. -/
theorem System.forall_of_guarded {allowed : Action → Prop}
    (completed : system.exec state actions = some final)
    (guarded : system.Guarded (fun _ action => allowed action) state actions) :
    ∀ action ∈ actions, allowed action := by
  induction actions generalizing state with
  | nil =>
      intro action absent
      cases absent
  | cons first rest ih =>
      obtain ⟨next, taken, ran⟩ := system.exec_cons_inv completed
      rw [system.guarded_cons taken] at guarded
      intro action member
      rcases List.mem_cons.mp member with isFirst | later
      · rw [isFirst]
        exact guarded.1
      · exact ih ran guarded.2 action later

/-- The descent rule: where each guarded step of a good state leads to a good state of lower
measure, a guarded run is no longer than the measure. -/
theorem System.guarded_descends (measure : State → Nat)
    (descends : ∀ {state action next}, invariant state → guard state action →
      system.step state action = some next → invariant next ∧ measure next < measure state)
    (start : invariant state) (guarded : system.Guarded guard state actions)
    (completed : system.exec state actions = some final) :
    invariant final ∧ actions.length + measure final ≤ measure state := by
  induction actions generalizing state with
  | nil =>
      cases completed
      exact ⟨start, Nat.le_of_eq (Nat.zero_add _)⟩
  | cons action rest ih =>
      obtain ⟨next, taken, ran⟩ := system.exec_cons_inv completed
      rw [system.guarded_cons taken] at guarded
      obtain ⟨good, less⟩ := descends start guarded.1 taken
      obtain ⟨goodFinal, short⟩ := ih good guarded.2 ran
      refine ⟨goodFinal, ?_⟩
      rw [List.length_cons]
      omega

/-- The progress rule: where every good state that is not done has a step that the guard
allows to a good state of lower measure, a guarded run, no longer than the measure, gets done. -/
theorem System.guarded_until {done : State → Prop} (measure : State → Nat)
    (progress : ∀ state, invariant state → ¬done state → ∃ action next, guard state action ∧
      system.step state action = some next ∧ invariant next ∧ measure next < measure state)
    (start : invariant state) : ∃ schedule final, system.exec state schedule = some final ∧
      system.Guarded guard state schedule ∧ schedule.length ≤ measure state ∧
        invariant final ∧ done final := by
  induction size : measure state using Nat.strongRecOn generalizing state with
  | _ bound ih =>
      by_cases isDone : done state
      · exact ⟨[], state, rfl, trivial, Nat.zero_le bound, start, isDone⟩
      · obtain ⟨action, next, isAllowed, taken, good, smaller⟩ := progress state start isDone
        rw [size] at smaller
        obtain ⟨schedule, final, completed, guarded, short, ends⟩ := ih _ smaller good rfl
        refine ⟨action :: schedule, final, ?_, ?_, ?_, ends⟩
        · rw [system.exec_cons taken]
          exact completed
        · rw [system.guarded_cons taken]
          exact ⟨isAllowed, guarded⟩
        · rw [List.length_cons]
          omega

theorem System.exec_until {done : State → Prop} {allowed : Action → Prop} (measure : State → Nat)
    (progress : ∀ state, invariant state → ¬done state → ∃ action next, allowed action ∧
      system.step state action = some next ∧ invariant next ∧ measure next < measure state)
    (start : invariant state) : ∃ schedule final, system.exec state schedule = some final ∧
      (∀ action ∈ schedule, allowed action) ∧ schedule.length ≤ measure state ∧
        invariant final ∧ done final := by
  have run : ∃ schedule final, system.exec state schedule = some final ∧
      system.Guarded (fun _ action => allowed action) state schedule ∧
        schedule.length ≤ measure state ∧ invariant final ∧ done final :=
    system.guarded_until measure progress start
  obtain ⟨schedule, final, completed, guarded, short, ends⟩ := run
  exact ⟨schedule, final, completed, system.forall_of_guarded completed guarded, short, ends⟩

end Runs

section Decidability

variable (system : System State Action)

instance System.decidableGuarded (guard : State → Action → Prop)
    [∀ state action, Decidable (guard state action)] :
    (state : State) → (actions : List Action) → Decidable (system.Guarded guard state actions)
  | _, [] => isTrue trivial
  | state, action :: rest =>
      match taken : system.step state action with
      | none => decidable_of_iff (guard state action) (by simp only [System.Guarded, taken, and_true])
      | some next =>
          have := System.decidableGuarded guard next rest
          decidable_of_iff (guard state action ∧ system.Guarded guard next rest)
            (system.guarded_cons taken).symm

end Decidability

section Simulations

variable {Abstract Label : Type}

/-- Each guarded step of the concrete system is matched by the abstract step its
action projects to, and by no step when the action projects to nothing. -/
structure Simulation (concrete : System State Action) (abstract : System Abstract Label)
    (guard : State → Action → Prop) (project : Action → Option Label) where
  Related : State → Abstract → Prop
  initial : Related concrete.initial abstract.initial
  silent : ∀ {state view action next}, Related state view → guard state action →
    concrete.step state action = some next → project action = none → Related next view
  matched : ∀ {state view action next label}, Related state view → guard state action →
    concrete.step state action = some next → project action = some label →
      ∃ after, abstract.step view label = some after ∧ Related next after

variable {concrete : System State Action} {abstract : System Abstract Label}
  {guard : State → Action → Prop} {project : Action → Option Label}

private theorem Simulation.exec (simulation : Simulation concrete abstract guard project)
    {state final : State} {view : Abstract} {actions : List Action}
    (related : simulation.Related state view) (allowed : concrete.Guarded guard state actions)
    (completed : concrete.exec state actions = some final) :
    ∃ after, abstract.exec view (actions.filterMap project) = some after ∧
      simulation.Related final after := by
  induction actions generalizing state view with
  | nil =>
      cases completed
      exact ⟨view, rfl, related⟩
  | cons action rest ih =>
      obtain ⟨next, taken, completed⟩ := concrete.exec_cons_inv completed
      rw [concrete.guarded_cons taken] at allowed
      cases projected : project action with
      | none =>
          rw [List.filterMap_cons_none projected]
          exact ih (simulation.silent related allowed.1 taken projected) allowed.2 completed
      | some label =>
          obtain ⟨after, abstractTaken, relatedNext⟩ :=
            simulation.matched related allowed.1 taken projected
          rw [List.filterMap_cons_some projected, abstract.exec_cons abstractTaken]
          exact ih relatedNext allowed.2 completed

theorem Simulation.run (simulation : Simulation concrete abstract guard project)
    {final : State} {actions : List Action}
    (allowed : concrete.Guarded guard concrete.initial actions)
    (completed : concrete.exec concrete.initial actions = some final) :
    ∃ after, abstract.exec abstract.initial (actions.filterMap project) = some after ∧
      simulation.Related final after :=
  simulation.exec simulation.initial allowed completed

end Simulations

section Projections

variable {Abstract Label : Type}

/-- What the steps of a run project to, each in the state it is taken from. -/
def System.trace (system : System State Action) (project : State → Action → Option Label) :
    State → List Action → List Label
  | _, [] => []
  | state, action :: rest =>
      match system.step state action with
      | none => []
      | some next => (project state action).toList ++ system.trace project next rest

/-- A simulation whose projection reads the state and where every step is matched. -/
structure Projection (concrete : System State Action) (abstract : System Abstract Label)
    (project : State → Action → Option Label) where
  Related : State → Abstract → Prop
  initial : Related concrete.initial abstract.initial
  silent : ∀ {state view action next}, Related state view →
    concrete.step state action = some next → project state action = none → Related next view
  matched : ∀ {state view action next label}, Related state view →
    concrete.step state action = some next → project state action = some label →
      ∃ after, abstract.step view label = some after ∧ Related next after

variable {concrete : System State Action} {abstract : System Abstract Label}
  {project : State → Action → Option Label}

private theorem Projection.exec (projection : Projection concrete abstract project)
    {state final : State} {view : Abstract} {actions : List Action}
    (related : projection.Related state view)
    (completed : concrete.exec state actions = some final) :
    ∃ after, abstract.exec view (concrete.trace project state actions) = some after ∧
      projection.Related final after := by
  induction actions generalizing state view with
  | nil =>
      cases completed
      exact ⟨view, rfl, related⟩
  | cons action rest ih =>
      obtain ⟨next, taken, completed⟩ := concrete.exec_cons_inv completed
      simp only [System.trace, taken]
      cases projected : project state action with
      | none => exact ih (projection.silent related taken projected) completed
      | some label =>
          obtain ⟨after, abstractTaken, relatedNext⟩ :=
            projection.matched related taken projected
          rw [Option.toList_some, List.singleton_append, abstract.exec_cons abstractTaken]
          exact ih relatedNext completed

theorem Projection.run (projection : Projection concrete abstract project)
    {final : State} {actions : List Action}
    (completed : concrete.exec concrete.initial actions = some final) :
    ∃ after,
      abstract.exec abstract.initial (concrete.trace project concrete.initial actions) =
        some after ∧ projection.Related final after :=
  projection.exec projection.initial completed

end Projections

section Traces

variable {Label : Type} (system : System State Action) (project : State → Action → Option Label)

theorem System.trace_cons {state next : State} {action : Action} {rest : List Action}
    (taken : system.step state action = some next) :
    system.trace project state (action :: rest) =
      (project state action).toList ++ system.trace project next rest := by
  simp only [System.trace, taken]

theorem System.trace_append {state middle : State} {first second : List Action}
    (completed : system.exec state first = some middle) :
    system.trace project state (first ++ second) =
      system.trace project state first ++ system.trace project middle second := by
  induction first generalizing state with
  | nil =>
      cases completed
      rfl
  | cons action rest ih =>
      obtain ⟨next, taken, completed⟩ := system.exec_cons_inv completed
      rw [List.cons_append, system.trace_cons project taken, system.trace_cons project taken,
        ih completed, List.append_assoc]

/-- The invariant rule for a state together with what the run has projected to so far. -/
theorem System.trace_invariant {holds : State → List Label → Prop}
    (preserved : ∀ {state history action next}, holds state history →
      system.step state action = some next →
        holds next (history ++ (project state action).toList))
    {state final : State} {history : List Label} {actions : List Action}
    (start : holds state history) (completed : system.exec state actions = some final) :
    holds final (history ++ system.trace project state actions) := by
  induction actions generalizing state history with
  | nil =>
      cases completed
      simp only [System.trace, List.append_nil]
      exact start
  | cons action rest ih =>
      obtain ⟨next, taken, completed⟩ := system.exec_cons_inv completed
      rw [system.trace_cons project taken, ← List.append_assoc]
      exact ih (preserved start taken) completed

end Traces

end Bistland.Transition
