/-
Scripts that wait for services before they start a program. A wait probes its target until
a probe is answered and gives the script up after too many failures; a required call gives
it up with its own status. The log keeps every probe with its time.
-/

import Mathlib.Tactic.Common

namespace Bistland.Polling

/-- When a target accepts, how long a probe or a call begun at a time takes, and what
status each call ends with. -/
structure Surroundings (Target Call : Type) where
  accepts : Target → Nat → Bool
  probing : Target → Nat → Nat
  calling : Call → Nat → Nat
  status : Call → Nat

structure Probe (Target : Type) where
  target : Target
  time : Nat
  answered : Bool
  deriving DecidableEq

inductive Command (Target Call : Type) where
  | wait (target : Target) (pause tolerated : Nat)
  | require (call : Call)
  | attempt (call : Call)

inductive Ending where
  | reached
  | exited (status : Nat)
  deriving DecidableEq

structure Run (Target : Type) where
  log : List (Probe Target)
  ending : Ending

structure Waited (Target : Type) where
  log : List (Probe Target)
  now : Nat
  ready : Bool

variable {Target Call : Type} (env : Surroundings Target Call)

/-! ### One wait -/

/-- The probes of one wait, while so many more failures are tolerated. -/
def poll (target : Target) (pause : Nat) : Nat → Nat → Waited Target
  | tolerated, now =>
      let later := now + env.probing target now
      if env.accepts target now then
        { log := [{ target := target, time := now, answered := true }]
          now := later
          ready := true }
      else
        let failed := { target := target, time := now, answered := false }
        match tolerated with
        | 0 =>
            { log := [failed]
              now := later
              ready := false }
        | tolerated + 1 =>
            let rest := poll target pause tolerated (later + pause)
            { rest with log := failed :: rest.log }

/-- When the probe after so many failures is made. -/
def probeTime (target : Target) (pause start : Nat) : Nat → Nat
  | 0 => start
  | failures + 1 =>
      let now := probeTime target pause start failures
      now + env.probing target now + pause

/-- The target answers none of the probes of a wait. -/
def Refuses (target : Target) (pause tolerated start : Nat) : Prop :=
  ∀ failures, failures ≤ tolerated →
    env.accepts target (probeTime env target pause start failures) = false

theorem probeTime_succ (target : Target) (pause start failures : Nat) :
    probeTime env target pause start (failures + 1) =
      probeTime env target pause (start + env.probing target start + pause) failures := by
  induction failures with
  | zero => rfl
  | succ failures ih =>
      rw [probeTime, ih]
      rfl

section Waits

variable {env} {target : Target} {pause tolerated now : Nat}

private theorem poll_of_accepts (accepted : env.accepts target now = true) :
    poll env target pause tolerated now =
      { log := [{ target := target, time := now, answered := true }]
        now := now + env.probing target now
        ready := true } := by
  unfold poll
  rw [if_pos accepted]

private theorem poll_zero (refused : env.accepts target now = false) :
    poll env target pause 0 now =
      { log := [{ target := target, time := now, answered := false }]
        now := now + env.probing target now
        ready := false } := by
  unfold poll
  rw [if_neg (by rw [refused]; exact Bool.false_ne_true)]

private theorem poll_succ (refused : env.accepts target now = false) :
    poll env target pause (tolerated + 1) now =
      { poll env target pause tolerated (now + env.probing target now + pause) with
        log := { target := target, time := now, answered := false } ::
          (poll env target pause tolerated (now + env.probing target now + pause)).log } := by
  conv_lhs => unfold poll
  rw [if_neg (by rw [refused]; exact Bool.false_ne_true)]

/-- The rule for one wait: an answer ends it, a failure ends it if none is tolerated any
more, and otherwise the wait goes on after the pause. -/
theorem poll_induction {motive : Nat → Nat → Waited Target → Prop}
    (answer : ∀ tolerated now, env.accepts target now = true → motive tolerated now
      { log := [{ target := target, time := now, answered := true }]
        now := now + env.probing target now
        ready := true })
    (giveUp : ∀ now, env.accepts target now = false → motive 0 now
      { log := [{ target := target, time := now, answered := false }]
        now := now + env.probing target now
        ready := false })
    (again : ∀ tolerated now rest, env.accepts target now = false →
      motive tolerated (now + env.probing target now + pause) rest → motive (tolerated + 1) now
        { rest with log := { target := target, time := now, answered := false } :: rest.log }) :
    motive tolerated now (poll env target pause tolerated now) := by
  induction tolerated generalizing now with
  | zero =>
      cases accepted : env.accepts target now with
      | true =>
          rw [poll_of_accepts accepted]
          exact answer 0 now accepted
      | false =>
          rw [poll_zero accepted]
          exact giveUp now accepted
  | succ tolerated ih =>
      cases accepted : env.accepts target now with
      | true =>
          rw [poll_of_accepts accepted]
          exact answer (tolerated + 1) now accepted
      | false =>
          rw [poll_succ accepted]
          exact again tolerated now _ accepted ih

/-- Each probe of a wait reports what its target did at its time. -/
theorem poll_reports : ∀ probe ∈ (poll env target pause tolerated now).log,
    probe.target = target ∧ probe.answered = env.accepts target probe.time := by
  apply poll_induction (motive := fun _ _ waited => ∀ probe ∈ waited.log,
    probe.target = target ∧ probe.answered = env.accepts target probe.time)
  · intro _ now accepted probe member
    rw [List.mem_singleton.mp member]
    exact ⟨rfl, accepted.symm⟩
  · intro now refused probe member
    rw [List.mem_singleton.mp member]
    exact ⟨rfl, refused.symm⟩
  · intro _ now rest refused reports probe member
    rcases List.mem_cons.mp member with first | later
    · rw [first]
      exact ⟨rfl, refused.symm⟩
    · exact reports probe later

theorem poll_answered (ready : (poll env target pause tolerated now).ready = true) :
    ∃ probe ∈ (poll env target pause tolerated now).log,
      probe.target = target ∧ probe.answered = true := by
  revert ready
  apply poll_induction (motive := fun _ _ waited => waited.ready = true →
    ∃ probe ∈ waited.log, probe.target = target ∧ probe.answered = true)
  · intro _ now _ _
    exact ⟨_, List.mem_cons_self, rfl, rfl⟩
  · intro now _ impossible
    cases impossible
  · intro _ now rest _ answered ready
    obtain ⟨probe, member, reply⟩ := answered ready
    exact ⟨probe, List.mem_cons_of_mem _ member, reply⟩

/-- A wait that gives up has made one probe more than it tolerates failures, all in vain. -/
theorem poll_given_up (given : (poll env target pause tolerated now).ready = false) :
    (poll env target pause tolerated now).log.length = tolerated + 1 ∧
      ∀ probe ∈ (poll env target pause tolerated now).log,
        probe.target = target ∧ probe.answered = false := by
  revert given
  apply poll_induction (motive := fun tolerated _ waited => waited.ready = false →
    waited.log.length = tolerated + 1 ∧
      ∀ probe ∈ waited.log, probe.target = target ∧ probe.answered = false)
  · intro _ now _ impossible
    cases impossible
  · intro now _ _
    refine ⟨rfl, ?_⟩
    intro probe member
    rw [List.mem_singleton.mp member]
    exact ⟨rfl, rfl⟩
  · intro tolerated now rest _ vain given
    obtain ⟨size, each⟩ := vain given
    refine ⟨congrArg (· + 1) size, ?_⟩
    intro probe member
    rcases List.mem_cons.mp member with first | later
    · rw [first]
      exact ⟨rfl, rfl⟩
    · exact each probe later

theorem poll_given_up_iff : (poll env target pause tolerated now).ready = false ↔
    Refuses env target pause tolerated now := by
  apply poll_induction (motive := fun tolerated now waited => waited.ready = false ↔
    Refuses env target pause tolerated now)
  · intro tolerated now accepted
    constructor
    · intro impossible
      cases impossible
    · intro refuses
      have first := refuses 0 (Nat.zero_le tolerated)
      rw [probeTime, accepted] at first
      cases first
  · intro now refused
    constructor
    · intro _ failures few
      rw [Nat.le_zero.mp few]
      exact refused
    · intro _
      rfl
  · intro tolerated now rest refused later
    apply Iff.trans later
    constructor
    · intro refuses failures few
      cases failures with
      | zero => exact refused
      | succ failures =>
          rw [probeTime_succ]
          exact refuses failures (Nat.le_of_succ_le_succ few)
    · intro refuses failures few
      have next := refuses (failures + 1) (Nat.succ_le_succ few)
      rw [probeTime_succ] at next
      exact next

end Waits

/-! ### A script -/

def run (env : Surroundings Target Call) : List (Command Target Call) → Nat → Run Target
  | [], _ =>
      { log := []
        ending := .reached }
  | .wait target pause tolerated :: rest, now =>
      let waited := poll env target pause tolerated now
      if waited.ready then
        let later := run env rest waited.now
        { later with log := waited.log ++ later.log }
      else
        { log := waited.log
          ending := .exited 1 }
  | .require call :: rest, now =>
      if env.status call = 0 then run env rest (now + env.calling call now)
      else
        { log := []
          ending := .exited (env.status call) }
  | .attempt call :: rest, now => run env rest (now + env.calling call now)

section Scripts

variable {env} {script : List (Command Target Call)} {now : Nat}

theorem run_wait_ready {target : Target} {pause tolerated : Nat}
    (ready : (poll env target pause tolerated now).ready = true) :
    run env (.wait target pause tolerated :: script) now =
      { run env script (poll env target pause tolerated now).now with
        log := (poll env target pause tolerated now).log ++
          (run env script (poll env target pause tolerated now).now).log } := by
  rw [run]
  exact if_pos ready

theorem run_wait_given_up {target : Target} {pause tolerated : Nat}
    (given : (poll env target pause tolerated now).ready = false) :
    run env (.wait target pause tolerated :: script) now =
      { log := (poll env target pause tolerated now).log
        ending := .exited 1 } := by
  rw [run]
  exact if_neg (by rw [given]; exact Bool.false_ne_true)

theorem run_require {call : Call} (succeeds : env.status call = 0) :
    run env (.require call :: script) now = run env script (now + env.calling call now) := by
  rw [run]
  exact if_pos succeeds

theorem run_require_failed {call : Call} (fails : env.status call ≠ 0) :
    run env (.require call :: script) now =
      { log := []
        ending := .exited (env.status call) } := by
  rw [run]
  exact if_neg fails

theorem run_attempt (call : Call) :
    run env (.attempt call :: script) now = run env script (now + env.calling call now) := by
  rw [run]

theorem run_reports : ∀ probe ∈ (run env script now).log,
    probe.answered = env.accepts probe.target probe.time := by
  induction script generalizing now with
  | nil =>
      intro probe absent
      cases absent
  | cons command rest ih =>
      intro probe member
      cases command with
      | wait first sleep few =>
          have reports : probe ∈ (poll env first sleep few now).log →
              probe.answered = env.accepts probe.target probe.time := by
            intro polled
            obtain ⟨same, answered⟩ := poll_reports probe polled
            rw [same]
            exact answered
          cases ready : (poll env first sleep few now).ready with
          | false =>
              rw [run_wait_given_up ready] at member
              exact reports member
          | true =>
              rw [run_wait_ready ready] at member
              rcases List.mem_append.mp member with polled | later
              · exact reports polled
              · exact ih probe later
      | require call =>
          by_cases succeeds : env.status call = 0
          · rw [run_require succeeds] at member
            exact ih probe member
          · rw [run_require_failed succeeds] at member
            cases member
      | attempt call =>
          rw [run_attempt] at member
          exact ih probe member

/-- A script that reaches its end has had an answer from every target it waits for. -/
theorem run_reached (reached : (run env script now).ending = .reached) {target : Target}
    {pause tolerated : Nat} (waits : .wait target pause tolerated ∈ script) :
    ∃ probe ∈ (run env script now).log, probe.target = target ∧ probe.answered = true := by
  induction script generalizing now with
  | nil => cases waits
  | cons command rest ih =>
      cases command with
      | wait first sleep few =>
          cases ready : (poll env first sleep few now).ready with
          | false =>
              rw [run_wait_given_up ready] at reached
              cases reached
          | true =>
              rw [run_wait_ready ready] at reached ⊢
              rcases List.mem_cons.mp waits with same | later
              · cases same
                obtain ⟨probe, member, same, answered⟩ := poll_answered ready
                exact ⟨probe, List.mem_append_left _ member, same, answered⟩
              · obtain ⟨probe, member, same, answered⟩ := ih reached later
                exact ⟨probe, List.mem_append_right _ member, same, answered⟩
      | require call =>
          have later := (List.mem_cons.mp waits).resolve_left (fun same => by cases same)
          by_cases succeeds : env.status call = 0
          · rw [run_require succeeds] at reached ⊢
            exact ih reached later
          · rw [run_require_failed succeeds] at reached
            cases reached
      | attempt call =>
          rw [run_attempt] at reached ⊢
          exact ih reached ((List.mem_cons.mp waits).resolve_left (fun same => by cases same))

/-- A script is given up by a required call that fails, with its status, or by a wait whose
probes, the last of the log, were all in vain. -/
inductive GivenUp (env : Surroundings Target Call) (script : List (Command Target Call))
    (log : List (Probe Target)) : Nat → Prop
  | call {call : Call} (required : .require call ∈ script) (fails : env.status call ≠ 0) :
      GivenUp env script log (env.status call)
  | wait {target : Target} {pause tolerated : Nat} {before failures : List (Probe Target)}
      (waits : .wait target pause tolerated ∈ script) (split : log = before ++ failures)
      (size : failures.length = tolerated + 1)
      (vain : ∀ probe ∈ failures, probe.target = target ∧ probe.answered = false) :
      GivenUp env script log 1

theorem GivenUp.later {log : List (Probe Target)} {status : Nat}
    (given : GivenUp env script log status) (command : Command Target Call)
    (earlier : List (Probe Target)) :
    GivenUp env (command :: script) (earlier ++ log) status := by
  cases given with
  | call required fails => exact .call (List.mem_cons_of_mem command required) fails
  | @wait target pause tolerated before failures waits split size vain =>
      have longer : earlier ++ log = (earlier ++ before) ++ failures := by
        rw [split, List.append_assoc]
      exact .wait (List.mem_cons_of_mem command waits) longer size vain

theorem run_exited {status : Nat} (ended : (run env script now).ending = .exited status) :
    GivenUp env script (run env script now).log status := by
  induction script generalizing now with
  | nil => cases ended
  | cons command rest ih =>
      cases command with
      | wait first sleep few =>
          cases ready : (poll env first sleep few now).ready with
          | false =>
              rw [run_wait_given_up ready] at ended ⊢
              cases ended
              obtain ⟨size, vain⟩ := poll_given_up ready
              exact .wait List.mem_cons_self (List.nil_append _).symm size vain
          | true =>
              rw [run_wait_ready ready] at ended ⊢
              exact (ih ended).later _ _
      | require call =>
          by_cases succeeds : env.status call = 0
          · rw [run_require succeeds] at ended ⊢
            exact (ih ended).later _ []
          · rw [run_require_failed succeeds] at ended
            cases ended
            exact .call List.mem_cons_self succeeds
      | attempt call =>
          rw [run_attempt] at ended ⊢
          exact (ih ended).later _ []

end Scripts

/-! ### The clock of a script -/

/-- When a script reaches its end, if it does. -/
def finish (env : Surroundings Target Call) : List (Command Target Call) → Nat → Option Nat
  | [], now => some now
  | .wait target pause tolerated :: rest, now =>
      let waited := poll env target pause tolerated now
      if waited.ready then finish env rest waited.now else none
  | .require call :: rest, now =>
      if env.status call = 0 then finish env rest (now + env.calling call now) else none
  | .attempt call :: rest, now => finish env rest (now + env.calling call now)

/-- The calls that a script makes, each with when it has ended. -/
def calls (env : Surroundings Target Call) : List (Command Target Call) → Nat → List (Call × Nat)
  | [], _ => []
  | .wait target pause tolerated :: rest, now =>
      let waited := poll env target pause tolerated now
      if waited.ready then calls env rest waited.now else []
  | .require call :: rest, now =>
      let ended := now + env.calling call now
      (call, ended) :: if env.status call = 0 then calls env rest ended else []
  | .attempt call :: rest, now =>
      let ended := now + env.calling call now
      (call, ended) :: calls env rest ended

section Clock

variable {env} {script : List (Command Target Call)} {target : Target} {pause tolerated now : Nat}

theorem le_probeTime (failures : Nat) :
    now + failures * pause ≤ probeTime env target pause now failures := by
  induction failures with
  | zero => exact Nat.le_of_eq (by rw [Nat.zero_mul]; rfl)
  | succ failures ih =>
      rw [probeTime, Nat.succ_mul]
      omega

theorem poll_timed : now ≤ (poll env target pause tolerated now).now ∧
    ∀ probe ∈ (poll env target pause tolerated now).log,
      now ≤ probe.time ∧ probe.time ≤ (poll env target pause tolerated now).now := by
  apply poll_induction (motive := fun _ now waited => now ≤ waited.now ∧
    ∀ probe ∈ waited.log, now ≤ probe.time ∧ probe.time ≤ waited.now)
  · intro _ now _
    refine ⟨Nat.le_add_right _ _, ?_⟩
    intro probe member
    rw [List.mem_singleton.mp member]
    exact ⟨Nat.le_refl _, Nat.le_add_right _ _⟩
  · intro now _
    refine ⟨Nat.le_add_right _ _, ?_⟩
    intro probe member
    rw [List.mem_singleton.mp member]
    exact ⟨Nat.le_refl _, Nat.le_add_right _ _⟩
  · intro _ now rest _ ⟨later, timed⟩
    refine ⟨by change now ≤ rest.now; omega, ?_⟩
    intro probe member
    rcases List.mem_cons.mp member with first | afterwards
    · rw [first]
      exact ⟨Nat.le_refl _, by change now ≤ rest.now; omega⟩
    · obtain ⟨begins, ends⟩ := timed probe afterwards
      exact ⟨by omega, ends⟩

/-- A wait does not give up on a target that accepts from its last probe on. -/
theorem poll_ready_of_up
    (up : ∀ time, now + tolerated * pause ≤ time → env.accepts target time = true) :
    (poll env target pause tolerated now).ready = true := by
  cases ready : (poll env target pause tolerated now).ready with
  | true => rfl
  | false =>
      have refused := poll_given_up_iff.mp ready tolerated (Nat.le_refl _)
      rw [up _ (le_probeTime tolerated)] at refused
      cases refused

theorem finish_isSome :
    (finish env script now).isSome = true ↔ (run env script now).ending = .reached := by
  induction script generalizing now with
  | nil => exact iff_of_true rfl rfl
  | cons command rest ih =>
      cases command with
      | wait target pause tolerated =>
          cases ready : (poll env target pause tolerated now).ready with
          | false =>
              rw [run_wait_given_up ready, finish]
              simp only [ready, Bool.false_eq_true, if_false, Option.isSome_none, reduceCtorEq]
          | true =>
              rw [run_wait_ready ready, finish]
              simp only [ready, if_true]
              exact ih
      | require call =>
          by_cases succeeds : env.status call = 0
          · rw [run_require succeeds, finish, if_pos succeeds]
            exact ih
          · rw [run_require_failed succeeds, finish, if_neg succeeds]
            simp only [Option.isSome_none, Bool.false_eq_true, reduceCtorEq]
      | attempt call =>
          rw [run_attempt, finish]
          exact ih

/-- The rule for a script that reaches its end: each of its waits is ended by an answer, and
each of its required calls succeeds. -/
theorem finish_induction {done : Nat} {motive : List (Command Target Call) → Nat → Prop}
    (nil : motive [] done)
    (wait : ∀ target pause tolerated rest now,
      (poll env target pause tolerated now).ready = true →
        motive rest (poll env target pause tolerated now).now →
          motive (.wait target pause tolerated :: rest) now)
    (require : ∀ call rest now, env.status call = 0 →
      motive rest (now + env.calling call now) → motive (.require call :: rest) now)
    (attempt : ∀ call rest now,
      motive rest (now + env.calling call now) → motive (.attempt call :: rest) now)
    (finished : finish env script now = some done) : motive script now := by
  induction script generalizing now with
  | nil =>
      cases finished
      exact nil
  | cons command rest ih =>
      cases command with
      | wait target pause tolerated =>
          rw [finish] at finished
          cases ready : (poll env target pause tolerated now).ready with
          | false => simp only [ready, Bool.false_eq_true, if_false, reduceCtorEq] at finished
          | true =>
              simp only [ready, if_true] at finished
              exact wait target pause tolerated rest now ready (ih finished)
      | require call =>
          rw [finish] at finished
          by_cases succeeds : env.status call = 0
          · rw [if_pos succeeds] at finished
            exact require call rest now succeeds (ih finished)
          · rw [if_neg succeeds] at finished
            cases finished
      | attempt call => exact attempt call rest now (ih finished)

/-- Every probe of a script that reaches its end falls between its start and its end. -/
theorem finish_timed {done : Nat} (finished : finish env script now = some done) : now ≤ done ∧
    ∀ probe ∈ (run env script now).log, now ≤ probe.time ∧ probe.time ≤ done := by
  have called : ∀ (call : Call) rest now, (now + env.calling call now ≤ done ∧
      ∀ probe ∈ (run env rest (now + env.calling call now)).log,
        now + env.calling call now ≤ probe.time ∧ probe.time ≤ done) →
      now ≤ done ∧ ∀ probe ∈ (run env rest (now + env.calling call now)).log,
        now ≤ probe.time ∧ probe.time ≤ done := by
    intro call rest now ⟨ends, later⟩
    refine ⟨by omega, ?_⟩
    intro probe member
    obtain ⟨lower, upper⟩ := later probe member
    exact ⟨by omega, upper⟩
  apply finish_induction (motive := fun script now => now ≤ done ∧
    ∀ probe ∈ (run env script now).log, now ≤ probe.time ∧ probe.time ≤ done) ?_ ?_ ?_ ?_ finished
  · refine ⟨Nat.le_refl _, ?_⟩
    intro probe absent
    cases absent
  · intro target pause tolerated rest now ready ⟨ends, later⟩
    have begins : now ≤ (poll env target pause tolerated now).now := poll_timed.1
    have polled : ∀ probe ∈ (poll env target pause tolerated now).log,
        now ≤ probe.time ∧ probe.time ≤ (poll env target pause tolerated now).now := poll_timed.2
    refine ⟨Nat.le_trans begins ends, ?_⟩
    intro probe member
    rw [run_wait_ready ready] at member
    rcases List.mem_append.mp member with first | afterwards
    · obtain ⟨lower, upper⟩ := polled probe first
      exact ⟨lower, Nat.le_trans upper ends⟩
    · obtain ⟨lower, upper⟩ := later probe afterwards
      exact ⟨Nat.le_trans begins lower, upper⟩
  · intro call rest now succeeds timed
    rw [run_require succeeds]
    exact called call rest now timed
  · intro call rest now timed
    rw [run_attempt]
    exact called call rest now timed

/-- A script that reaches its end has made each required call before, and it succeeded. -/
theorem finish_required {done : Nat} (finished : finish env script now = some done) {call : Call}
    (required : .require call ∈ script) :
    env.status call = 0 ∧ ∃ ended, (call, ended) ∈ calls env script now ∧ ended ≤ done := by
  have timed : now ≤ done ∧ (.require call ∈ script →
      env.status call = 0 ∧ ∃ ended, (call, ended) ∈ calls env script now ∧ ended ≤ done) := by
    apply finish_induction (motive := fun script now => now ≤ done ∧ (.require call ∈ script →
      env.status call = 0 ∧ ∃ ended, (call, ended) ∈ calls env script now ∧ ended ≤ done))
      ?_ ?_ ?_ ?_ finished
    · exact ⟨Nat.le_refl _, fun absent => by cases absent⟩
    · intro target pause tolerated rest now ready ⟨ends, later⟩
      refine ⟨Nat.le_trans poll_timed.1 ends, ?_⟩
      intro required
      rw [calls]
      simp only [ready, if_true]
      exact later ((List.mem_cons.mp required).resolve_left (fun same => by cases same))
    · intro first rest now succeeds ⟨ends, later⟩
      refine ⟨by omega, ?_⟩
      intro required
      rw [calls]
      rcases List.mem_cons.mp required with same | member
      · cases same
        exact ⟨succeeds, _, List.mem_cons_self, ends⟩
      · obtain ⟨succeeded, ended, made, early⟩ := later member
        simp only [if_pos succeeds]
        exact ⟨succeeded, ended, List.mem_cons_of_mem _ made, early⟩
    · intro first rest now ⟨ends, later⟩
      refine ⟨by omega, ?_⟩
      intro required
      obtain ⟨succeeded, ended, made, early⟩ :=
        later ((List.mem_cons.mp required).resolve_left (fun same => by cases same))
      exact ⟨succeeded, ended, List.mem_cons_of_mem _ made, early⟩
  exact timed.2 required

/-- A script reaches its end if each of its targets accepts from a certain time on that no
wait for it ends before, and each required call succeeds. -/
theorem finish_of_up (up : Nat)
    (accepting : ∀ target pause tolerated, .wait target pause tolerated ∈ script →
      up ≤ now + tolerated * pause ∧ ∀ time, up ≤ time → env.accepts target time = true)
    (succeeds : ∀ call, .require call ∈ script → env.status call = 0) :
    (finish env script now).isSome = true := by
  induction script generalizing now with
  | nil => rfl
  | cons command rest ih =>
      have restSucceeds : ∀ call, .require call ∈ rest → env.status call = 0 :=
        fun call member => succeeds call (List.mem_cons_of_mem command member)
      have restAccepting : ∀ later, now ≤ later → ∀ target pause tolerated,
          .wait target pause tolerated ∈ rest → up ≤ later + tolerated * pause ∧
            ∀ time, up ≤ time → env.accepts target time = true := by
        intro later after target pause tolerated member
        obtain ⟨soon, accepts⟩ :=
          accepting target pause tolerated (List.mem_cons_of_mem command member)
        exact ⟨by omega, accepts⟩
      cases command with
      | wait target pause tolerated =>
          obtain ⟨soon, accepts⟩ := accepting target pause tolerated List.mem_cons_self
          have ready : (poll env target pause tolerated now).ready = true :=
            poll_ready_of_up (fun time late => accepts time (Nat.le_trans soon late))
          rw [finish]
          simp only [ready, if_true]
          exact ih (restAccepting _ poll_timed.1) restSucceeds
      | require call =>
          rw [finish, if_pos (succeeds call List.mem_cons_self)]
          exact ih (restAccepting _ (Nat.le_add_right _ _)) restSucceeds
      | attempt call =>
          rw [finish]
          exact ih (restAccepting _ (Nat.le_add_right _ _)) restSucceeds

end Clock

end Bistland.Polling
