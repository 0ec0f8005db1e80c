/-
Saves under redelivery. `save_phone_in_sql_task` inserts a row for each delivery
and carries no identity of its message, so the table has one row for each
accepted lead exactly where no save was delivered twice.
-/

import Bistland.LeadDurability

namespace Bistland

open Custody

namespace Cluster

/-- Every save has been executed and every call that published one has been answered. -/
structure SavesDrained (cluster : Cluster) : Prop where
  queued : SaveFree cluster.queue
  pending : SaveFree (holdings Job.pending cluster.workers)
  answered : ∀ call ∈ cluster.web.calls, call.phase.isSaved = false

/-- One row for each published save, and one for each accepted lead. -/
structure SavedOnce (cluster : Cluster) : Prop where
  rows : (cluster.tables.phones.map PhoneRow.phone).Perm
    (cluster.web.published.filterMap (fun message => message.task.savedPhone))
  answers : ∀ phone, cluster.rows phone = cluster.web.answers "queued" phone

variable {cluster : Cluster}

/-- Each redelivered save is a row too many. -/
theorem Inv.rows_of_drained (inv : cluster.Inv) (clean : cluster.NoSaveLost)
    (drained : cluster.SavesDrained) (phone : ValidatedPhone) :
    cluster.rows phone = cluster.web.answers "queued" phone +
      cluster.redelivered.countP (fun message => message.task.isSaveFor phone) := by
  have balance := inv.balance phone
  have lost := (saveFree_iff cluster.lost).mp clean phone
  have queued : cluster.waiting phone = 0 := (saveFree_iff cluster.queue).mp drained.queued phone
  have pending : cluster.pending phone = 0 := (saveFree_iff _).mp drained.pending phone
  rw [cluster.web.standing_saved drained.answered phone] at balance
  omega

theorem Inv.savedOnce_iff (inv : cluster.Inv) (clean : cluster.NoSaveLost)
    (drained : cluster.SavesDrained) : cluster.SavedOnce ↔ SaveFree cluster.redelivered := by
  rw [saveFree_iff]
  constructor
  · intro once phone
    have total := inv.rows_of_drained clean drained phone
    have same := once.answers phone
    omega
  · intro single
    have same : ∀ phone, cluster.rows phone = cluster.web.answers "queued" phone := by
      intro phone
      have total := inv.rows_of_drained clean drained phone
      rw [single phone] at total
      exact total
    refine ⟨?_, same⟩
    apply List.perm_iff_count.mpr
    intro phone
    have balance := (Web.inv_of_reachable inv.reached).saves_balance phone
    rw [cluster.web.standing_saved drained.answered phone, Nat.add_zero] at balance
    rw [count_savedPhone, ← cluster.rows_eq_count phone, same phone]
    exact balance.symm

/-- Where no save is lost, the drained table is right exactly if no save was redelivered. -/
theorem saved_once_exactly {actions : List ClusterAction} {final : Cluster}
    (completed : system.exec Cluster.start actions = some final)
    (kept : system.Guarded Keeps Cluster.start actions) (drained : final.SavesDrained) :
    final.SavedOnce ↔
      ∀ message, message.task.isSave = true → .redeliver message ∉ actions := by
  rw [(inv_of_exec completed).savedOnce_iff ((noSaveLost_iff completed).mpr kept) drained]
  constructor
  · intro single message save redelivers
    have copied := (mem_redelivered completed message).mpr redelivers
    rw [single message copied] at save
    cases save
  · intro never message copied
    have redelivers := (mem_redelivered completed message).mp copied
    cases save : message.task.isSave with
    | false => rfl
    | true => exact False.elim (never message save redelivers)

def exampleLog : Message :=
  { id := 0
    sender := 0
    task := exampleRequest.log examplePhone true }

def exampleSave : Message :=
  { id := 1
    sender := 0
    task := .savePhoneInSqlTask examplePhone }

def submission (index : Nat) : List ClusterAction :=
  [.web (.arrive exampleRequest), .web (.resume index .returns), .web (.resume index .returns),
    .web (.resume index .returns), .web (.resume index .returns), .web (.resume index .returns)]

/-- A phone saved twice, a day apart, with its first log redelivered meanwhile. -/
def resubmittedRun : List ClusterAction :=
  submission 0 ++ [.hire, .reserve 0 1, .work 0, .work 0, .work 0, .redeliver exampleLog,
    .web (.tick day)] ++ submission 1 ++ [.reserve 0 3, .work 0, .work 0]

theorem saved_once_exactly_resubmitted : ∃ final,
    system.exec Cluster.start resubmittedRun = some final ∧ final.SavedOnce := by
  have outcome : (system.exec Cluster.start resubmittedRun).any (fun final =>
      final.queue.all (fun message => !message.task.isSave) &&
        (holdings Job.pending final.workers).all (fun message => !message.task.isSave) &&
        final.web.calls.all (fun call => !call.phase.isSaved)) = true := by decide
  obtain ⟨final, completed, checked⟩ := system.exec_of_any outcome
  simp only [Bool.and_eq_true, List.all_eq_true, Bool.not_eq_true'] at checked
  obtain ⟨⟨queued, pending⟩, answered⟩ := checked
  refine ⟨final, completed, ?_⟩
  apply (saved_once_exactly completed (by decide)
    { queued := queued, pending := pending, answered := answered }).mpr
  intro message save redelivers
  have only : ∀ copied ∈ resubmittedRun.filterMap ClusterAction.copy, copied.task.isSave = false := by
    decide
  rw [only message (List.mem_filterMap.mpr ⟨_, redelivers, rfl⟩)] at save
  cases save

/-- The visibility timeout passes while one worker holds the save, and another takes the
copy. -/
def heldTwiceRun : List ClusterAction :=
  submission 0 ++ [.hire, .hire, .reserve 0 1, .web (.tick (3600 * second)),
    .redeliver exampleSave, .reserve 1 1, .work 0, .work 1, .work 0, .work 1, .work 0, .work 1,
    .reserve 0 0, .work 0, .work 0, .work 0, .work 0]

theorem lead_saved_twice : ∃ final, system.exec Cluster.start heldTwiceRun = some final ∧
    final.queue = [] ∧ final.workers = [.idle, .idle] ∧
      final.web.saves examplePhone = 1 ∧ final.web.answers "queued" examplePhone = 1 ∧
      final.rows examplePhone = 2 ∧ ¬final.SavedOnce := by
  have outcome : (system.exec Cluster.start heldTwiceRun).any (fun final =>
      decide (final.queue = []) && decide (final.workers = [.idle, .idle]) &&
        final.web.saves examplePhone = 1 && final.web.answers "queued" examplePhone = 1 &&
        final.rows examplePhone = 2) = true := by decide
  obtain ⟨final, completed, checked⟩ := system.exec_of_any outcome
  simp only [Bool.and_eq_true, decide_eq_true_eq] at checked
  obtain ⟨⟨⟨⟨empty, free⟩, published⟩, accepted⟩, rows⟩ := checked
  refine ⟨final, completed, empty, free, published, accepted, rows, ?_⟩
  intro once
  have same := once.answers examplePhone
  omega

end Cluster

end Bistland
