/-
Accepted leads against the Phone table. Messages are acknowledged before the
task body runs and a task that raises is not retried, so an interruption between
the acknowledgement and the row loses an accepted lead, and nothing else does.
-/

import Bistland.AnswerLedger
import Bistland.TaskAccounts

namespace Bistland

open Custody

namespace Cluster

/-- Every accepted lead is in the table, in the queue or with a live worker. -/
def Durable (cluster : Cluster) : Prop :=
  ∀ phone, cluster.web.answers "queued" phone ≤
    cluster.rows phone + cluster.waiting phone + cluster.held phone

/-- No save is interrupted between its acknowledgement and its row. -/
def keeps (cluster : Cluster) : ClusterAction → Bool
  | .interrupt worker _ =>
      ((cluster.workers[worker]?).bind Job.unwritten).all (fun message => !message.task.isSave)
  | _ => true

def Keeps (cluster : Cluster) (action : ClusterAction) : Prop :=
  cluster.keeps action = true

instance decidableKeeps (cluster : Cluster) (action : ClusterAction) :
    Decidable (cluster.Keeps action) :=
  inferInstanceAs (Decidable (cluster.keeps action = true))

/-- No request is between its save publish and its answer, and no worker between the
write of its task and its return. -/
structure Settled (cluster : Cluster) : Prop where
  answered : ∀ call ∈ cluster.web.calls, call.phase.isSaved = false
  returned : ∀ job ∈ cluster.workers, job.message = job.pending

def NoSaveLost (cluster : Cluster) : Prop :=
  SaveFree cluster.lost

variable {cluster next : Cluster} {action : ClusterAction}

theorem step_noSaveLost (clean : cluster.NoSaveLost)
    (taken : system.step cluster action = some next) : next.NoSaveLost ↔ cluster.Keeps action := by
  cases step_cases taken with
  | @lose worker message since stage cause found unwritten due =>
      have spared : cluster.Keeps (.interrupt worker cause) ↔ message.task.isSave = false := by
        simp only [Keeps, keeps, found, Option.bind_some,
          (Job.running_unwritten message since unwritten).2, Option.all_some, Bool.not_eq_true']
      rw [spared]
      constructor
      · intro cleanNext
        exact cleanNext message (List.mem_append_right _ (List.mem_singleton_self message))
      · intro other lost member
        rcases List.mem_append.mp member with earlier | last
        · exact clean lost earlier
        · rw [List.mem_singleton.mp last]
          exact other
  | retire found =>
      refine iff_of_true clean ?_
      simp only [Keeps, keeps, found, Option.bind_some, Job.unwritten, Option.all_none]
  | giveBack found =>
      refine iff_of_true clean ?_
      simp only [Keeps, keeps, found, Option.bind_some, Job.unwritten, Option.all_none]
  | cutShort found due =>
      refine iff_of_true clean ?_
      simp only [Keeps, keeps, found, Option.bind_some, Job.unwritten, Option.all_none]
  | web webTaken => exact iff_of_true clean rfl
  | hire => exact iff_of_true clean rfl
  | reserve found waiting => exact iff_of_true clean rfl
  | acknowledge found => exact iff_of_true clean rfl
  | create found save => exact iff_of_true clean rfl
  | stamp found log => exact iff_of_true clean rfl
  | insertOne found log => exact iff_of_true clean rfl
  | finish found => exact iff_of_true clean rfl
  | redeliver published => exact iff_of_true clean rfl

theorem noSaveLost_of_step (taken : system.step cluster action = some next)
    (clean : next.NoSaveLost) : cluster.NoSaveLost := by
  cases step_cases taken with
  | lose found unwritten due =>
      intro message member
      exact clean message (List.mem_append_left _ member)
  | _ => exact clean

theorem noSaveLost_iff {actions : List ClusterAction} {final : Cluster}
    (completed : system.exec Cluster.start actions = some final) :
    final.NoSaveLost ↔ system.Guarded Keeps Cluster.start actions := by
  have exact : system.Always NoSaveLost Cluster.start actions ↔
      system.Guarded Keeps Cluster.start actions := by
    apply system.always_iff_guarded (fun inv taken => step_inv inv taken) ?_ inv_start ?_ completed
    · intro state action next _ clean taken
      exact step_noSaveLost clean taken
    · intro message absent
      cases absent
  rw [← exact]
  constructor
  · exact system.always_of_last noSaveLost_of_step completed
  · intro always
    exact system.always_last always completed

theorem pending_sublist (workers : List Job) :
    (holdings Job.pending workers).Sublist (workers.filterMap Job.message) := by
  induction workers with
  | nil => exact List.Sublist.slnil
  | cons job rest ih =>
      rw [holdings_cons]
      change ((Job.pending job).toList ++ _).Sublist (holdings Job.message (job :: rest))
      rw [holdings_cons]
      apply List.Sublist.append ?_ ih
      cases job with
      | idle => exact List.Sublist.slnil
      | reserved message => exact List.Sublist.refl _
      | running message since stage => cases stage <;> simp [Job.pending, Job.message]
      | dead => exact List.Sublist.slnil

theorem pending_le_held (cluster : Cluster) (phone : ValidatedPhone) :
    cluster.pending phone ≤ cluster.held phone :=
  (pending_sublist cluster.workers).countP_le

/-- The balance of a phone: accepted leads and saves in flight on the one side, rows and
messages on the other. -/
theorem Inv.balance (inv : cluster.Inv) (phone : ValidatedPhone) :
    cluster.web.answers "queued" phone + cluster.web.standing Phase.isSaved phone +
        cluster.redelivered.countP (fun message => message.task.isSaveFor phone) =
      cluster.waiting phone + cluster.pending phone + cluster.rows phone +
        cluster.lost.countP (fun message => message.task.isSaveFor phone) := by
  have saves := (Web.inv_of_reachable inv.reached).saves_balance phone
  have places := inv.saves_accounted phone
  unfold Web.saves at saves
  omega

theorem Inv.durable (inv : cluster.Inv) (clean : cluster.NoSaveLost) : cluster.Durable := by
  intro phone
  have balance := inv.balance phone
  have bound := cluster.pending_le_held phone
  rw [(saveFree_iff cluster.lost).mp clean phone] at balance
  omega

/-- Where no work is half done and nothing was redelivered, a missing save shows. -/
theorem Inv.noSaveLost_of_durable (inv : cluster.Inv) (durable : cluster.Durable)
    (settled : cluster.Settled) (single : cluster.redelivered = []) : cluster.NoSaveLost := by
  apply (saveFree_iff cluster.lost).mpr
  intro phone
  have balance := inv.balance phone
  have bound := durable phone
  have standing := cluster.web.standing_saved settled.answered phone
  have hands : cluster.held phone = cluster.pending phone := by
    unfold held pending holdings
    rw [List.filterMap_congr settled.returned]
  rw [single, List.countP_nil] at balance
  omega

/-- Runs that keep their saves are durable throughout; among the runs that settle and
redeliver nothing, only they are. -/
theorem durable_exactly {actions : List ClusterAction} {final : Cluster}
    (completed : system.exec Cluster.start actions = some final) :
    (system.Guarded Keeps Cluster.start actions → system.Always Durable Cluster.start actions) ∧
      ((∀ message, .redeliver message ∉ actions) → final.Settled →
        (system.Always Durable Cluster.start actions ↔
          system.Guarded Keeps Cluster.start actions)) := by
  have enough : system.Guarded Keeps Cluster.start actions →
      system.Always Durable Cluster.start actions := by
    intro keeps
    have always : system.Always (fun state => state.Inv ∧ state.NoSaveLost) Cluster.start
        actions := by
      apply system.always_of_guarded ?_ ⟨inv_start, fun message absent => by cases absent⟩ keeps
      intro state action next both keep taken
      exact ⟨step_inv both.1 taken, (step_noSaveLost both.2 taken).mpr keep⟩
    exact system.always_mono (fun state both => both.1.durable both.2) always
  refine ⟨enough, ?_⟩
  intro single settled
  refine ⟨?_, enough⟩
  intro always
  rw [← noSaveLost_iff completed]
  apply (inv_of_exec completed).noSaveLost_of_durable (system.always_last always completed) settled
  apply List.eq_nil_iff_forall_not_mem.mpr
  intro message member
  exact single message ((mem_redelivered completed message).mp member)

/-- A lead that is accepted and saved, by workers of which one dies first. -/
def savedRun : List ClusterAction :=
  [.web (.arrive exampleRequest), .web (.resume 0 .returns), .web (.resume 0 .returns),
    .web (.resume 0 .returns), .web (.resume 0 .returns), .hire, .hire, .reserve 0 1,
    .interrupt 0 .death, .web (.resume 0 .returns), .reserve 1 1, .work 1, .work 1, .work 1]

theorem durable_exactly_saved : ∃ final, system.exec Cluster.start savedRun = some final ∧
    system.Always Durable Cluster.start savedRun := by
  obtain ⟨final, completed⟩ :=
    Option.isSome_iff_exists.mp (show (system.exec Cluster.start savedRun).isSome by decide)
  have keeps : system.Guarded Keeps Cluster.start savedRun := by decide
  exact ⟨final, completed, (durable_exactly completed).1 keeps⟩

/-- A lead is accepted, its message acknowledged, and the database does not answer. -/
def unreachableDatabaseRun : List ClusterAction :=
  [.web (.arrive exampleRequest), .web (.resume 0 .returns), .web (.resume 0 .returns),
    .web (.resume 0 .returns), .web (.resume 0 .returns), .web (.resume 0 .returns), .hire,
    .reserve 0 1, .work 0, .interrupt 0 .raised]

theorem accepted_lead_lost : ∃ final,
    system.exec Cluster.start unreachableDatabaseRun = some final ∧
      final.web.answers "queued" examplePhone = 1 ∧ final.rows examplePhone = 0 ∧
      final.waiting examplePhone = 0 ∧ final.held examplePhone = 0 ∧ ¬final.Durable := by
  have outcome : (system.exec Cluster.start unreachableDatabaseRun).any (fun final =>
      final.web.answers "queued" examplePhone = 1 && final.rows examplePhone = 0 &&
        final.waiting examplePhone = 0 && final.held examplePhone = 0) = true := by decide
  obtain ⟨final, completed, checked⟩ := system.exec_of_any outcome
  simp only [Bool.and_eq_true, decide_eq_true_eq] at checked
  obtain ⟨⟨⟨accepted, rows⟩, waiting⟩, held⟩ := checked
  refine ⟨final, completed, accepted, rows, waiting, held, ?_⟩
  intro durable
  have bound := durable examplePhone
  omega

end Cluster

end Bistland
