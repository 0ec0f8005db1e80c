/-
The counters of the dashboard against the tables. In every reachable state the successes that
were counted, the saves in flight and those delivered again are the rows, the saves on their
way and the lost ones; the answers, the logs in flight and those of failed saves balance the
records in the same way; and the latencies observed exceed the counters by the duplicates.
-/

import Bistland.RequestMetrics
import Bistland.Redelivery

namespace Bistland

open Custody OwnerAccounts

/-! ### Stages of a call -/

def Response.isQueued : Response → Bool
  | .queued => true
  | _ => false

theorem Phase.served_split (phase : Phase) : (phase.answers Response.isServed).toNat =
    (phase.answers Response.isQueued).toNat + (phase.answers Response.isDuplicate).toNat := by
  cases phase with
  | returned response => cases response <;> rfl
  | _ => rfl

/-- A request that was refused has published nothing. -/
theorem Phase.Fits.nothing {request : Request} {phase : Phase} {failure : Failure}
    (fits : phase.Fits request) (refused : request.validated = .error failure) :
    phase.progress = .nothing := by
  have never : ∀ phone, request.validated ≠ .ok phone := by
    intro phone valid
    rw [refused] at valid
    cases valid
  cases phase with
  | logged phone isNewSubmission => exact absurd fits (never phone)
  | saved phone => exact absurd fits (never phone)
  | returned response =>
      cases response with
      | duplicate =>
          obtain ⟨phone, valid⟩ := fits
          exact absurd valid (never phone)
      | queued =>
          obtain ⟨phone, valid⟩ := fits
          exact absurd valid (never phone)
      | error cause =>
          cases cause with
          | saveDelay detail =>
              obtain ⟨phone, valid⟩ := fits
              exact absurd valid (never phone)
          | _ => rfl
  | _ => rfl

theorem Call.Sent.countP {call : Call} {posted : List Task} (sent : call.Sent posted)
    (counted : Task → Bool) (stage : Progress → Bool) (nothing : stage .nothing = false)
    (fixed : ∀ (progress : Progress) request phone,
      (progress.tasks request phone).countP counted = (stage progress).toNat) :
    posted.countP counted = (stage call.phase.progress).toNat := by
  rw [sent.tasks]
  cases valid : call.request.validated with
  | error failure =>
      rw [sent.fits.nothing valid, nothing]
      simp only [Call.tasks, valid, List.countP_nil, Bool.toNat_false]
  | ok phone =>
      rw [Call.tasks_of_valid valid]
      exact fixed call.phase.progress call.request phone

namespace Web

variable {web : Web}

theorem sum_tally (web : Web) (stage : Phase → Bool) :
    (web.calls.map (fun call => (stage call.phase).toNat)).sum = web.tally stage := by
  rw [tally, ← sum_map_indicator]
  congr 1
  apply List.map_congr_left
  intro call _
  cases stage call.phase <;> rfl

theorem tally_add {web : Web} {whole first second : Phase → Bool}
    (split : ∀ phase, (whole phase).toNat = (first phase).toNat + (second phase).toNat) :
    web.tally whole = web.tally first + web.tally second := by
  rw [← sum_tally, ← sum_tally, ← sum_tally, ← sum_map_add]
  congr 1
  apply List.map_congr_left
  intro call _
  exact split call.phase

theorem answered_served (web : Web) : web.answered Response.isServed =
    web.answered Response.isQueued + web.answered Response.isDuplicate :=
  tally_add Phase.served_split

end Web

namespace Cluster

def saves (messages : List Message) : Nat :=
  messages.countP (fun message => message.task.isSave)

def logs (messages : List Message) : Nat :=
  messages.countP (fun message => !message.task.isSave)

variable {cluster : Cluster}

end Cluster

end Bistland
