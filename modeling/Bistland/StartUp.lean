/-
The start of the containers on the clock of the cluster. Requests arrive only once the web
container has reached its `exec`, so that whatever is written for them is written after the
services have answered and the database is migrated, whenever a worker was started.
-/

import Bistland.Entrypoint
import Bistland.Provenance
import Bistland.Redelivery

namespace Bistland

open Polling

namespace Entrypoint

/-- When `entrypoint.sh` reaches its `exec`. -/
def opened (env : Surroundings Service ManageCommand) (vars : Variables) (arguments : List Str)
    (started : Nat) : Option Nat :=
  finish env (script vars arguments) started

/-- The subcommands of `manage.py` that `entrypoint.sh` runs, and when each has ended. -/
def managed (env : Surroundings Service ManageCommand) (vars : Variables) (arguments : List Str)
    (started : Nat) : List (ManageCommand × Nat) :=
  calls env (script vars arguments) started

theorem minio_mem_script {vars : Variables} {arguments : List Str} (unset : vars.skipWait = [])
    (web : mentions arguments "gunicorn" = true) :
    waitForService minio ∈ script vars arguments := by
  unfold script waits
  rw [if_pos unset, if_pos web]
  apply List.mem_append_left
  apply List.mem_append_right
  exact List.mem_cons_of_mem _ (List.mem_cons_of_mem _ (List.mem_singleton_self _))

theorem required_mem_script {vars : Variables} {arguments : List Str}
    (web : mentions arguments "gunicorn" = true) :
    ∀ call ∈ [ManageCommand.migrate, .collectstatic], .require call ∈ script vars arguments := by
  intro call member
  unfold script preparations
  rw [if_pos web]
  apply List.mem_append_right
  apply List.mem_append_left
  rcases List.mem_cons.mp member with isMigrate | isCollect
  · rw [isMigrate]
    exact List.mem_cons_of_mem _ List.mem_cons_self
  · rw [List.mem_singleton.mp isCollect]
    exact List.mem_cons_of_mem _ (List.mem_cons_of_mem _ List.mem_cons_self)

theorem service_mem_script {vars : Variables} {arguments : List Str} (unset : vars.skipWait = [])
    (web : mentions arguments "gunicorn" = true) :
    ∀ service ∈ [redis, db, mongo, minio], waitForService service ∈ script vars arguments := by
  intro service member
  simp only [List.mem_cons, List.not_mem_nil, or_false] at member
  rcases member with same | same | same | same
  · exact mem_script_of_web unset web service (by rw [same]; exact List.mem_cons_self)
  · exact mem_script_of_web unset web service (by rw [same]; exact .tail _ List.mem_cons_self)
  · exact mem_script_of_web unset web service
      (by rw [same]; exact .tail _ (.tail _ List.mem_cons_self))
  · rw [same]
    exact minio_mem_script unset web

theorem wait_shape {vars : Variables} {arguments : List Str} {service : Service}
    {pause tolerated : Nat} (member : .wait service pause tolerated ∈ script vars arguments) :
    pause = second ∧ tolerated = 60 := by
  rcases List.mem_append.mp member with waiting | preparing
  · obtain ⟨waited, same⟩ := mem_waits waiting
    cases same
    exact ⟨rfl, rfl⟩
  · rcases mem_preparations preparing with ⟨call, same⟩ | same | same <;> cases same

/-- Whatever the arguments, the start does not give up on services that accept from a minute
after it began on, if the two required commands succeed where it runs them. -/
theorem comes_up (env : Surroundings Service ManageCommand) (vars : Variables)
    (arguments : List Str) (started : Nat)
    (up : ∀ service, waitForService service ∈ script vars arguments →
      ∀ time, started + 60 * second ≤ time → env.accepts service time = true)
    (prepared : mentions arguments "gunicorn" = true →
      env.status .migrate = 0 ∧ env.status .collectstatic = 0) :
    (entrypoint env vars arguments started).ending = .reached := by
  apply finish_isSome.mp
  apply finish_of_up (started + 60 * second)
  · intro service pause tolerated member
    obtain ⟨rfl, rfl⟩ := wait_shape member
    exact ⟨Nat.le_refl _, up service member⟩
  · intro call member
    have web : mentions arguments "gunicorn" = true := by
      rcases List.mem_append.mp member with waiting | preparing
      · obtain ⟨waited, same⟩ := mem_waits waiting
        cases same
      · unfold preparations at preparing
        split at preparing
        · assumption
        · cases preparing
    rcases require_mem_script member with same | same
    · rw [same]
      exact (prepared web).1
    · rw [same]
      exact (prepared web).2

/-- `gunicorn config.wsgi:application --bind 0.0.0.0:8000 --workers 3`. -/
def webArguments : List Str :=
  ["gunicorn", "config.wsgi:application", "--bind", "0.0.0.0:8000", "--workers", "3"].map text

theorem script_of_web : script ⟨[], []⟩ webArguments =
    [waitForService redis, waitForService db, waitForService mongo, waitForService minio,
      .attempt .makemigrations, .require .migrate, .require .collectstatic,
      .attempt .setupMinio] := by
  have web : mentions webArguments "gunicorn" = true := by decide
  -- the command has no `y`
  have absent : (0x79 : CodePoint) ∉ joined webArguments := by decide
  have worker : mentions webArguments "celery worker" = false :=
    decide_eq_false (fun inside => absent (inside.subset (List.mem_of_elem_eq_true rfl)))
  simp only [script, waits, preparations, web, worker]
  rfl

/-- The databases take three seconds to come up, and each command takes half a minute. -/
def slowDatabases : Surroundings Service ManageCommand :=
  { accepts := fun service time => decide (service = redis) || decide (3 * second ≤ time)
    probing := fun _ _ => 0
    calling := fun _ _ => 30 * second
    status := fun _ => 0 }

theorem comes_up_slowly : (entrypoint slowDatabases ⟨[], []⟩ webArguments 0).ending = .reached := by
  apply comes_up
  · intro service _ time late
    have up : 3 * second ≤ time := Nat.le_trans (by decide) late
    change (decide (service = redis) || decide (3 * second ≤ time)) = true
    rw [decide_eq_true up, Bool.or_true]
  · intro _
    exact ⟨rfl, rfl⟩

end Entrypoint

/-! ### Requests after the start -/

/-- Requests arrive from a certain time on. -/
def Web.opensAt (opening : Nat) (web : Web) : WebAction → Bool
  | .arrive _ => opening ≤ web.now
  | _ => true

def Web.StartedFrom (opening : Nat) (web : Web) : Prop :=
  ∀ call ∈ web.calls, opening ≤ call.startTime

theorem Web.step_startedFrom {opening : Nat} {web next : Web} {action : WebAction}
    (started : web.StartedFrom opening) (opens : web.opensAt opening action = true)
    (taken : Web.system.step web action = some next) : next.StartedFrom opening := by
  cases action with
  | tick elapsed =>
      cases taken
      exact started
  | cachePage key value =>
      cases step_cases taken
      exact started
  | arrive request =>
      cases taken
      intro call member
      rcases List.mem_append.mp member with earlier | isLast
      · exact started call earlier
      · rw [List.mem_singleton.mp isLast]
        exact of_decide_eq_true opens
  | resume index reply =>
      obtain ⟨call, phase, advances⟩ := step_advances taken
      intro other member
      rw [advances.changed] at member
      rcases List.mem_or_eq_of_mem_set member with present | same
      · exact started other present
      · rw [same]
        exact started call (List.mem_of_getElem? advances.found)

namespace Cluster

open Entrypoint

def opensAt (opening : Nat) (cluster : Cluster) : ClusterAction → Bool
  | .web action => cluster.web.opensAt opening action
  | _ => true

def OpensAt (opening : Nat) (cluster : Cluster) (action : ClusterAction) : Prop :=
  cluster.opensAt opening action = true

instance decidableOpensAt (opening : Nat) (cluster : Cluster) (action : ClusterAction) :
    Decidable (cluster.OpensAt opening action) :=
  inferInstanceAs (Decidable (cluster.opensAt opening action = true))

variable {cluster next : Cluster} {action : ClusterAction}

theorem step_startedFrom {opening : Nat} (started : cluster.web.StartedFrom opening)
    (opens : cluster.OpensAt opening action) (taken : system.step cluster action = some next) :
    next.web.StartedFrom opening := by
  cases step_cases taken with
  | web webTaken => exact Web.step_startedFrom started opens webTaken
  | _ => exact started

/-- Everything that is decided or written for a request comes after a moment. -/
structure AllAfter (cluster : Cluster) (moment : Nat) : Prop where
  attempts : ∀ attempt ∈ cluster.web.attempts, moment ≤ attempt.time
  rows : ∀ row ∈ cluster.tables.phones, moment ≤ row.createdAt
  records : ∀ stored ∈ cluster.tables.mongo, moment ≤ stored.ts

theorem Dated.allAfter (dated : cluster.Dated) {opening moment : Nat}
    (started : cluster.web.StartedFrom opening) (before : moment ≤ opening) :
    cluster.AllAfter moment := by
  have web := Web.inv_of_reachable dated.inv.reached
  have timed := Web.timed_of_reachable dated.inv.reached
  refine { attempts := ?_, rows := ?_, records := ?_ }
  · intro attempt member
    obtain ⟨call, answers, caller, _⟩ := web.maker member
    have began := started call (List.mem_of_getElem? caller)
    have later := timed.attempted attempt member call caller
    omega
  · intro row member
    obtain ⟨message, call, attempt, _, origin⟩ := dated.row_origin member
    have began := started call (List.mem_of_getElem? origin.caller)
    have decided := origin.started
    have written := origin.passed
    omega
  · intro stored member
    obtain ⟨message, call, attempt, _, origin⟩ := dated.record_origin member
    have began := started call (List.mem_of_getElem? origin.caller)
    have decided := origin.started
    have written := origin.passed
    omega

/-- The start of the web container lies before all that its requests lead to: each service
has answered one of its probes, and the two required commands have run and succeeded. -/
structure Prepared (cluster : Cluster) (env : Surroundings Service ManageCommand)
    (vars : Variables) (arguments : List Str) (begun : Nat) : Prop where
  answered : ∀ service ∈ [redis, db, mongo, minio],
    ∃ probe ∈ (entrypoint env vars arguments begun).log, probe.target = service ∧
      env.accepts service probe.time = true ∧ cluster.AllAfter probe.time
  managed : ∀ command ∈ [ManageCommand.migrate, .collectstatic], env.status command = 0 ∧
    ∃ ended, (command, ended) ∈ managed env vars arguments begun ∧ cluster.AllAfter ended

/-- If the web container waits at all and requests arrive once it has reached its `exec`,
then no attempt, row or record comes before an answer of each service or before the end of
`migrate` or `collectstatic`. -/
theorem prepared {env : Surroundings Service ManageCommand} {vars : Variables}
    {arguments : List Str} {begun opening : Nat} {actions : List ClusterAction} {final : Cluster}
    (unset : vars.skipWait = []) (web : mentions arguments "gunicorn" = true)
    (reachesExec : opened env vars arguments begun = some opening)
    (completed : system.exec Cluster.start actions = some final)
    (waits : system.Guarded (OpensAt opening) Cluster.start actions) :
    final.Prepared env vars arguments begun := by
  have started : final.web.StartedFrom opening := by
    have always : system.Always (fun cluster => cluster.web.StartedFrom opening)
        Cluster.start actions := by
      apply system.always_of_guarded step_startedFrom ?_ waits
      intro call absent
      cases absent
    exact system.always_last always completed
  have dated := dated_of_exec completed
  obtain ⟨_, timed⟩ := finish_timed reachesExec
  have reached : (entrypoint env vars arguments begun).ending = .reached :=
    finish_isSome.mp (Option.isSome_of_mem reachesExec)
  refine { answered := ?_, managed := ?_ }
  · intro service member
    obtain ⟨probe, logged, same, answered⟩ :=
      run_reached reached (service_mem_script unset web service member)
    refine ⟨probe, logged, same, ?_, dated.allAfter started (timed probe logged).2⟩
    rw [← same, ← run_reports probe logged]
    exact answered
  · intro command member
    obtain ⟨succeeded, ended, made, early⟩ :=
      finish_required reachesExec (required_mem_script web command member)
    exact ⟨succeeded, ended, made, dated.allAfter started early⟩

/-- A worker is there at once, and the first request comes when the container is open. -/
def openedRun : List ClusterAction :=
  [.hire, .web (.tick (123 * second)), .web (.arrive exampleRequest)] ++
    (submission 0).tail ++ [.reserve 0 1, .work 0, .work 0, .work 0, .reserve 0 0, .work 0,
      .work 0, .work 0, .work 0]

theorem prepared_slowly : ∃ final, system.exec Cluster.start openedRun = some final ∧
    final.tables.phones.length = 1 ∧ final.tables.mongo.length = 1 ∧
      final.Prepared slowDatabases ⟨[], []⟩ webArguments 0 := by
  have outcome : (system.exec Cluster.start openedRun).any (fun final =>
      decide (final.tables.phones.length = 1) && decide (final.tables.mongo.length = 1)) = true := by
    decide
  obtain ⟨final, completed, checked⟩ := system.exec_of_any outcome
  rw [Bool.and_eq_true, decide_eq_true_eq, decide_eq_true_eq] at checked
  have reachesExec : opened slowDatabases ⟨[], []⟩ webArguments 0 = some (123 * second) := by
    unfold opened
    rw [script_of_web]
    decide
  exact ⟨final, completed, checked.1, checked.2,
    prepared rfl (by decide) reachesExec completed (by decide)⟩

end Cluster

end Bistland
