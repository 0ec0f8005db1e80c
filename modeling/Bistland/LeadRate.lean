/-
How many leads one phone can make. The accepted attempts for a phone are a day apart, so in
any stretch of time there is at most one for each day of it begun; its queued answers, its
saves and its rows in the table grow no faster, but for what the broker delivers again.
-/

import Bistland.Deduplication
import Bistland.Redelivery

namespace Bistland

open Custody Expiring OwnerAccounts

namespace Web

def accepted (web : Web) (phone : ValidatedPhone) : List (Attempt ValidatedPhone) :=
  passes web.attempts phone

theorem Inv.accepted_within {web : Web} (inv : web.Inv) (phone : ValidatedPhone)
    (since deadline : Nat) :
    (web.accepted phone).countP (fun attempt =>
      since ≤ attempt.time && attempt.time ≤ deadline) ≤ (deadline - since) / day + 1 :=
  inv.gate.exact.passes_within (by decide) phone since deadline

theorem Inv.accepted_le {web : Web} (inv : web.Inv) (phone : ValidatedPhone) :
    (web.accepted phone).length ≤ web.now / day + 1 := by
  have within := inv.accepted_within phone 0 web.now
  have all : (web.accepted phone).countP (fun attempt =>
      0 ≤ attempt.time && attempt.time ≤ web.now) = (web.accepted phone).length := by
    apply List.countP_eq_length.mpr
    intro attempt member
    have past := inv.gate.tracks.past attempt (mem_passes.mp member).1
    simp [past]
  rw [all] at within
  exact within

/-- The senders of the saves of a phone are distinct owners of its accepted attempts. -/
theorem Inv.saves_le_accepted {web : Web} (inv : web.Inv) (phone : ValidatedPhone) :
    web.saves phone ≤ (web.accepted phone).length := by
  have senders : ((web.published.filter (fun message => message.task.isSaveFor phone)).map
      Message.sender).Nodup := by
    unfold List.Nodup
    rw [List.pairwise_map]
    have apart := (pairwise_owner_ne (fun message : Message => message.task.isSave)
      inv.saves_le_one).filter (fun message => message.task.isSaveFor phone)
    apply (List.Pairwise.and_mem.mp apart).imp
    rintro first later ⟨present, laterPresent, different⟩
    have isSave : ∀ {message : Message}, message ∈ web.published.filter (fun message =>
        message.task.isSaveFor phone) → message.task.isSave = true := by
      intro message member
      rw [(Task.isSaveFor_iff phone message.task).mp (List.mem_filter.mp member).2]
      rfl
    exact different (isSave present) (isSave laterPresent)
  have owners : (web.published.filter (fun message => message.task.isSaveFor phone)).map
      Message.sender ⊆ (web.accepted phone).map Attempt.owner := by
    intro sender member
    obtain ⟨message, saved, rfl⟩ := List.mem_map.mp member
    obtain ⟨published, isSave⟩ := List.mem_filter.mp saved
    obtain ⟨attempt, present, own, key, accepted⟩ :=
      inv.winner_of_save published ((Task.isSaveFor_iff phone message.task).mp isSave)
    exact List.mem_map.mpr ⟨attempt, mem_passes.mpr ⟨present, key, accepted⟩, own⟩
  have bound := (senders.subperm owners).length_le
  rw [List.length_map, List.length_map, ← List.countP_eq_length_filter] at bound
  exact bound

end Web

namespace Cluster

def redelivers (actions : List ClusterAction) (phone : ValidatedPhone) : Nat :=
  (actions.filterMap ClusterAction.copy).countP (fun message => message.task.isSaveFor phone)

/-- What one phone has made by the end of a run. -/
structure RateLimited (cluster : Cluster) (actions : List ClusterAction) (phone : ValidatedPhone) :
    Prop where
  accepted : ∀ since span, (cluster.web.accepted phone).countP (fun attempt =>
    since ≤ attempt.time && attempt.time ≤ since + span) ≤ span / day + 1
  answered : cluster.web.answers "queued" phone ≤ cluster.web.now / day + 1
  stored : cluster.waiting phone + cluster.pending phone + cluster.rows phone +
      cluster.lost.countP (fun message => message.task.isSaveFor phone) ≤
    cluster.web.now / day + 1 + redelivers actions phone

theorem rate_limited {actions : List ClusterAction} {final : Cluster}
    (completed : system.exec Cluster.start actions = some final) (phone : ValidatedPhone) :
    final.RateLimited actions phone := by
  have inv := inv_of_exec completed
  have web := Web.inv_of_reachable inv.reached
  have accepted := web.accepted_le phone
  have saves := web.saves_le_accepted phone
  refine { accepted := ?_, answered := ?_, stored := ?_ }
  · intro since span
    have within := web.accepted_within phone since (since + span)
    rw [Nat.add_sub_cancel_left] at within
    exact within
  · have balance := web.saves_balance phone
    omega
  · have places := inv.saves_accounted phone
    have copies : final.redelivered.countP (fun message => message.task.isSaveFor phone) =
        redelivers actions phone := by
      rw [redelivered_eq completed]
      rfl
    unfold Web.saves at saves
    omega

/-- Two leads of one phone in a day and no more: the bound is attained. -/
theorem rate_limited_resubmitted : ∃ final, system.exec Cluster.start resubmittedRun = some final ∧
    final.RateLimited resubmittedRun examplePhone ∧ final.web.now = day ∧
      (final.web.accepted examplePhone).length = 2 := by
  have outcome : (system.exec Cluster.start resubmittedRun).any (fun final =>
      decide (final.web.now = day) &&
        decide ((final.web.accepted examplePhone).length = 2)) = true := by decide
  obtain ⟨final, completed, checked⟩ := system.exec_of_any outcome
  rw [Bool.and_eq_true, decide_eq_true_eq, decide_eq_true_eq] at checked
  exact ⟨final, completed, rate_limited completed examplePhone, checked.1, checked.2⟩

end Cluster

end Bistland
