/-
entrypoint.sh as the commands it runs for given arguments. Which services it waits for is
decided by substrings of the joined arguments, and docker-compose.yml puts an option
between `celery` and `worker`.
-/

import Bistland.SubmitPhoneView
import Bistland.Library.Polling

namespace Bistland

open Polling

namespace Entrypoint

structure Service where
  host : String
  port : Nat
  deriving DecidableEq

def redis : Service :=
  { host := "redis"
    port := 6379 }

def db : Service :=
  { host := "db"
    port := 5432 }

def mongo : Service :=
  { host := "mongo"
    port := 27017 }

def minio : Service :=
  { host := "minio"
    port := 9000 }

/-- The subcommands of `python manage.py`. -/
inductive ManageCommand where
  | makemigrations
  | migrate
  | collectstatic
  | setupMinio
  | uploadSampleMedia
  deriving DecidableEq

/-- The environment variables the script reads; an unset one is empty. -/
structure Variables where
  skipWait : Str
  uploadSampleMedia : Str

/-- `"$*"`. -/
def joined (arguments : List Str) : Str :=
  (text " ").intercalate arguments

/-- `[[ "$*" == *"part"* ]]`. -/
def mentions (arguments : List Str) (part : String) : Bool :=
  decide (text part <:+: joined arguments)

/-- `wait_for_service`: a second between two probes, and the sixty-first failure exits. -/
def waitForService (service : Service) : Command Service ManageCommand :=
  .wait service second 60

def waits (vars : Variables) (arguments : List Str) : List (Command Service ManageCommand) :=
  if vars.skipWait = [] then
    [waitForService redis] ++
      (if mentions arguments "celery worker" then [waitForService db, waitForService mongo]
      else []) ++
      (if mentions arguments "gunicorn" then
        [waitForService db, waitForService mongo, waitForService minio] else [])
  else []

def preparations (vars : Variables) (arguments : List Str) :
    List (Command Service ManageCommand) :=
  if mentions arguments "gunicorn" then
    [.attempt .makemigrations, .require .migrate, .require .collectstatic, .attempt .setupMinio] ++
      (if vars.uploadSampleMedia = text "1" then [.attempt .uploadSampleMedia] else [])
  else []

/-- The script up to its `exec`. -/
def script (vars : Variables) (arguments : List Str) : List (Command Service ManageCommand) :=
  waits vars arguments ++ preparations vars arguments

def entrypoint (env : Surroundings Service ManageCommand) (vars : Variables)
    (arguments : List Str) (started : Nat) : Run Service :=
  run env (script vars arguments) started

/-- `celery`, any global options, `worker`, any options of the worker. -/
def workerArguments (globals options : List Str) : List Str :=
  text "celery" :: (globals ++ text "worker" :: options)

/-- The program is started after an answer from each database, or else the script has ended
with status 1 after the last sixty-one probes, all of one service, failed. -/
def StartsAfterDatabases (ran : Run Service) : Prop :=
  match ran.ending with
  | .reached => ∀ service ∈ [redis, db, mongo],
      ∃ probe ∈ ran.log, probe.target = service ∧ probe.answered = true
  | .exited status => status = 1 ∧ ∃ service before failures,
      ran.log = before ++ failures ∧ failures.length = 61 ∧
        ∀ probe ∈ failures, probe.target = service ∧ probe.answered = false

/-! ### What the script covers -/

section Coverage

variable {env : Surroundings Service ManageCommand}
  {commands : List (Command Service ManageCommand)} {vars : Variables} {arguments : List Str}
  {started : Nat}

/-- A script that waits for the databases, sixty-one probes each, and that fails in no
required call starts its program after them. -/
theorem startsAfterDatabases_of_waits
    (covers : ∀ service ∈ [redis, db, mongo], waitForService service ∈ commands)
    (own : ∀ service pause tolerated, .wait service pause tolerated ∈ commands → tolerated = 60)
    (succeeds : ∀ call, .require call ∈ commands → env.status call = 0) :
    StartsAfterDatabases (run env commands started) := by
  unfold StartsAfterDatabases
  cases ended : (run env commands started).ending with
  | reached =>
      intro service member
      exact run_reached ended (covers service member)
  | exited status =>
      cases run_exited ended with
      | call required fails => exact absurd (succeeds _ required) fails
      | wait waiting split size vain =>
          rw [own _ _ _ waiting] at size
          exact ⟨rfl, _, _, _, split, size, vain⟩

theorem script_of_worker (unset : vars.skipWait = [])
    (worker : mentions arguments "celery worker" = true)
    (web : mentions arguments "gunicorn" = false) :
    script vars arguments = [waitForService redis, waitForService db, waitForService mongo] := by
  simp only [script, waits, preparations, unset, worker, web, if_true, Bool.false_eq_true,
    if_false, List.append_nil]
  rfl

theorem script_of_neither (unset : vars.skipWait = [])
    (worker : mentions arguments "celery worker" = false)
    (web : mentions arguments "gunicorn" = false) :
    script vars arguments = [waitForService redis] := by
  simp only [script, waits, preparations, unset, worker, web, if_true, Bool.false_eq_true,
    if_false, List.append_nil]

theorem mem_waits {command : Command Service ManageCommand}
    (member : command ∈ waits vars arguments) : ∃ service, command = waitForService service := by
  unfold waits at member
  split at member
  · rcases List.mem_append.mp member with earlier | web
    · rcases List.mem_append.mp earlier with first | worker
      · exact ⟨redis, List.mem_singleton.mp first⟩
      · split at worker
        · rcases List.mem_cons.mp worker with isDb | isMongo
          · exact ⟨db, isDb⟩
          · exact ⟨mongo, List.mem_singleton.mp isMongo⟩
        · cases worker
    · split at web
      · rcases List.mem_cons.mp web with isDb | others
        · exact ⟨db, isDb⟩
        · rcases List.mem_cons.mp others with isMongo | isMinio
          · exact ⟨mongo, isMongo⟩
          · exact ⟨minio, List.mem_singleton.mp isMinio⟩
      · cases web
  · cases member

theorem mem_preparations {command : Command Service ManageCommand}
    (member : command ∈ preparations vars arguments) :
    (∃ call, command = .attempt call) ∨ command = .require .migrate ∨
      command = .require .collectstatic := by
  unfold preparations at member
  split at member
  · rcases List.mem_append.mp member with always | optional
    · simp only [List.mem_cons, List.not_mem_nil, or_false] at always
      rcases always with same | same | same | same
      · exact Or.inl ⟨_, same⟩
      · exact Or.inr (Or.inl same)
      · exact Or.inr (Or.inr same)
      · exact Or.inl ⟨_, same⟩
    · split at optional
      · exact Or.inl ⟨_, List.mem_singleton.mp optional⟩
      · cases optional
  · cases member

theorem wait_mem_script {service : Service} {pause tolerated : Nat}
    (member : .wait service pause tolerated ∈ script vars arguments) : tolerated = 60 := by
  rcases List.mem_append.mp member with waiting | preparing
  · obtain ⟨waited, same⟩ := mem_waits waiting
    cases same
    rfl
  · rcases mem_preparations preparing with ⟨call, same⟩ | same | same
    · cases same
    · cases same
    · cases same

theorem require_mem_script {call : ManageCommand}
    (member : .require call ∈ script vars arguments) : call = .migrate ∨ call = .collectstatic := by
  rcases List.mem_append.mp member with waiting | preparing
  · obtain ⟨waited, same⟩ := mem_waits waiting
    cases same
  · rcases mem_preparations preparing with ⟨attempted, same⟩ | same | same
    · cases same
    · cases same
      exact Or.inl rfl
    · cases same
      exact Or.inr rfl

theorem mem_script_of_web (unset : vars.skipWait = [])
    (web : mentions arguments "gunicorn" = true) :
    ∀ service ∈ [redis, db, mongo], waitForService service ∈ script vars arguments := by
  unfold script waits
  rw [if_pos unset, if_pos web]
  intro service member
  apply List.mem_append_left
  rcases List.mem_cons.mp member with isRedis | others
  · rw [isRedis]
    exact List.mem_append_left _ (List.mem_append_left _ List.mem_cons_self)
  · apply List.mem_append_right
    rcases List.mem_cons.mp others with isDb | isMongo
    · rw [isDb]
      exact List.mem_cons_self
    · rw [List.mem_singleton.mp isMongo]
      exact List.mem_cons_of_mem _ List.mem_cons_self

end Coverage

/-! ### The arguments that cover the databases -/

section Exactness

variable {vars : Variables} {arguments : List Str} {started : Nat}

theorem starts_of_worker (env : Surroundings Service ManageCommand) (unset : vars.skipWait = [])
    (worker : mentions arguments "celery worker" = true)
    (web : mentions arguments "gunicorn" = false) :
    StartsAfterDatabases (entrypoint env vars arguments started) := by
  apply startsAfterDatabases_of_waits
  · intro service member
    rw [script_of_worker unset worker web]
    exact List.mem_map_of_mem (f := waitForService) member
  · intro service pause tolerated
    exact wait_mem_script
  · intro call member
    rw [script_of_worker unset worker web] at member
    simp only [waitForService, List.mem_cons, reduceCtorEq, List.not_mem_nil, or_self] at member

theorem starts_of_web {env : Surroundings Service ManageCommand} (unset : vars.skipWait = [])
    (web : mentions arguments "gunicorn" = true) (migrates : env.status .migrate = 0)
    (collects : env.status .collectstatic = 0) :
    StartsAfterDatabases (entrypoint env vars arguments started) := by
  apply startsAfterDatabases_of_waits
  · exact mem_script_of_web unset web
  · intro service pause tolerated
    exact wait_mem_script
  · intro call member
    rcases require_mem_script member with same | same
    · rw [same]
      exact migrates
    · rw [same]
      exact collects

theorem starts_of_neither_iff (env : Surroundings Service ManageCommand)
    (unset : vars.skipWait = []) (worker : mentions arguments "celery worker" = false)
    (web : mentions arguments "gunicorn" = false) :
    StartsAfterDatabases (entrypoint env vars arguments started) ↔
      Refuses env redis second 60 started := by
  unfold entrypoint
  rw [script_of_neither unset worker web, ← poll_given_up_iff, waitForService]
  cases ready : (poll env redis second 60 started).ready with
  | true =>
      rw [run_wait_ready ready]
      constructor
      · intro starts
        obtain ⟨probe, member, isDb, _⟩ :=
          starts db (List.mem_cons_of_mem _ List.mem_cons_self)
        have member : probe ∈ (poll env redis second 60 started).log ++ [] := member
        rw [List.append_nil] at member
        rw [(poll_reports probe member).1] at isDb
        exact absurd isDb (by decide)
      · intro impossible
        cases impossible
  | false =>
      rw [run_wait_given_up ready]
      obtain ⟨size, vain⟩ := poll_given_up ready
      constructor
      · intro _
        rfl
      · intro _
        exact ⟨rfl, redis, [], _, rfl, size, vain⟩

/-- Everything is up, and `migrate` fails. -/
def unmigrated : Surroundings Service ManageCommand :=
  { accepts := fun _ _ => true
    probing := fun _ _ => 0
    calling := fun _ _ => 0
    status := fun call => if call = .migrate then 1 else 0 }

/-- Redis is up, and the databases never are. -/
def redisOnly : Surroundings Service ManageCommand :=
  { accepts := fun service _ => decide (service = redis)
    probing := fun _ _ => 0
    calling := fun _ _ => 0
    status := fun _ => 0 }

theorem not_starts_unmigrated (unset : vars.skipWait = [])
    (web : mentions arguments "gunicorn" = true) :
    ¬StartsAfterDatabases (entrypoint unmigrated vars arguments started) := by
  have ended : (entrypoint unmigrated vars arguments started).ending = .exited 1 := by
    unfold entrypoint script waits preparations
    rw [if_pos unset, if_pos web, if_pos web]
    cases mentions arguments "celery worker" <;> rfl
  intro starts
  unfold StartsAfterDatabases at starts
  rw [ended] at starts
  obtain ⟨_, service, before, failures, log, size, vain⟩ := starts
  cases failures with
  | nil => cases size
  | cons probe rest =>
      have failed := (vain probe List.mem_cons_self).2
      have reported := run_reports probe (by
        unfold entrypoint at log
        rw [log]
        exact List.mem_append_right before List.mem_cons_self)
      rw [failed] at reported
      cases reported

/-- A worker starts after its databases, whenever they accept, exactly if the joined
arguments contain `celery worker` and not `gunicorn`. With neither, it does so only where
Redis keeps it from starting; with `gunicorn`, only where the preparations succeed. -/
theorem worker_waits_exactly (upload : Str) (globals options : List Str) (started : Nat) :
    ((∀ env, StartsAfterDatabases
        (entrypoint env ⟨[], upload⟩ (workerArguments globals options) started)) ↔
      mentions (workerArguments globals options) "celery worker" = true ∧
        mentions (workerArguments globals options) "gunicorn" = false) ∧
    (mentions (workerArguments globals options) "celery worker" = false →
      mentions (workerArguments globals options) "gunicorn" = false →
        ∀ env, StartsAfterDatabases
            (entrypoint env ⟨[], upload⟩ (workerArguments globals options) started) ↔
          Refuses env redis second 60 started) ∧
    (mentions (workerArguments globals options) "gunicorn" = true →
      ∀ env, env.status .migrate = 0 → env.status .collectstatic = 0 →
        StartsAfterDatabases
          (entrypoint env ⟨[], upload⟩ (workerArguments globals options) started)) := by
  refine ⟨?_, ?_, ?_⟩
  · constructor
    · intro starts
      cases web : mentions (workerArguments globals options) "gunicorn" with
      | true => exact absurd (starts unmigrated) (not_starts_unmigrated rfl web)
      | false =>
          cases worker : mentions (workerArguments globals options) "celery worker" with
          | true => exact ⟨rfl, rfl⟩
          | false =>
              have refuses :=
                (starts_of_neither_iff redisOnly rfl worker web).mp (starts redisOnly)
              have down : decide (redis = redis) = false := refuses 0 (Nat.zero_le 60)
              exact absurd down (by decide)
    · intro ⟨worker, web⟩ env
      exact starts_of_worker env rfl worker web
  · intro worker web env
    exact starts_of_neither_iff env rfl worker web
  · intro web env migrates collects
    exact starts_of_web rfl web migrates collects

end Exactness

/-! ### The deployed arguments -/

/-- `celery -A config worker -l info`. -/
def composeArguments : List Str :=
  workerArguments [text "-A", text "config"] [text "-l", text "info"]

/-- The deployed worker is started after one probe of Redis while the databases are down. -/
theorem compose_worker_overtakes :
    entrypoint redisOnly ⟨[], []⟩ composeArguments 0 =
        { log := [{ target := redis, time := 0, answered := true }]
          ending := .reached } ∧
      ¬StartsAfterDatabases (entrypoint redisOnly ⟨[], []⟩ composeArguments 0) := by
  have ran : entrypoint redisOnly ⟨[], []⟩ composeArguments 0 =
      { log := [{ target := redis, time := 0, answered := true }]
        ending := .reached } := by
    unfold entrypoint
    rw [script_of_neither rfl (by decide) (by decide)]
    rfl
  refine ⟨ran, ?_⟩
  intro starts
  rw [ran] at starts
  obtain ⟨probe, member, isDb, _⟩ := starts db (List.mem_cons_of_mem _ List.mem_cons_self)
  rw [List.mem_singleton.mp member] at isDb
  exact absurd isDb (by decide)

theorem worker_waits_exactly_compose :
    (∀ env, StartsAfterDatabases
      (entrypoint env ⟨[], []⟩ (workerArguments [] [text "-l", text "info"]) 0)) ∧
    ∀ env, StartsAfterDatabases (entrypoint env ⟨[], []⟩ composeArguments 0) ↔
      Refuses env redis second 60 0 := by
  constructor
  · exact (worker_waits_exactly [] [] [text "-l", text "info"] 0).1.mpr ⟨by decide, by decide⟩
  · exact (worker_waits_exactly [] [text "-A", text "config"] [text "-l", text "info"] 0).2.1
      (by decide) (by decide)

end Entrypoint

end Bistland
