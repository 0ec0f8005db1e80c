/-
The 24-hour window of the submission endpoint, under any interleaving of calls
with each other, with time and with the page cache: every answered `cache.add`
is decided by the earlier winners alone, and only winners publish a save.
-/

import Bistland.CacheAnswers

namespace Bistland

open Expiring OwnerAccounts

theorem Call.save_mem_tasks {call : Call} {phone : ValidatedPhone}
    (member : Task.savePhoneInSqlTask phone ∈ call.tasks) :
    call.request.validated = .ok phone ∧ call.phase.progress = .saved := by
  cases valid : call.request.validated with
  | error failure =>
      simp only [Call.tasks, valid, List.not_mem_nil] at member
  | ok held =>
      rw [Call.tasks_of_valid valid] at member
      cases stage : call.phase.progress with
      | nothing => simp only [stage, Progress.tasks, List.not_mem_nil] at member
      | logged isNewSubmission =>
          simp only [stage, Progress.tasks, Request.log, List.mem_singleton, reduceCtorEq] at member
      | saved =>
          simp only [stage, Progress.tasks, Request.log, List.mem_cons, reduceCtorEq, false_or,
            List.not_mem_nil, or_false, Task.savePhoneInSqlTask.injEq] at member
          exact ⟨by rw [member], rfl⟩

namespace Web

theorem Inv.winner_of_save {web : Web} (inv : web.Inv) {message : Message}
    (member : message ∈ web.published) {phone : ValidatedPhone}
    (save : message.task = .savePhoneInSqlTask phone) :
    ∃ attempt ∈ web.attempts, attempt.owner = message.sender ∧ attempt.key = phone ∧
      attempt.accepted = true := by
  obtain ⟨call, found, posted⟩ := inv.sent.holder_of_mem member
  have sent := inv.sent.account message.sender call found
  have task : Task.savePhoneInSqlTask phone ∈ call.tasks := by
    rw [← sent.tasks, ← save]
    exact List.mem_map_of_mem posted
  obtain ⟨valid, stage⟩ := Call.save_mem_tasks task
  exact inv.attempt_of_answers found (fun answers attempted => attempted.of_saved valid stage)

theorem Inv.saves_le_one {web : Web} (inv : web.Inv) (index : Nat) :
    (postedBy Message.sender web.published index).countP (fun message => message.task.isSave) ≤ 1 := by
  cases found : web.calls[index]? with
  | none =>
      rw [inv.sent.nil_of_absent found]
      exact Nat.zero_le 1
  | some call =>
      have sent := inv.sent.account index call found
      have bound := call.countP_isSave_le
      rw [← sent.tasks, List.countP_map] at bound
      exact bound

/-- The 24-hour window, at every answered `cache.add` and every published save. -/
structure DedupExact (web : Web) : Prop where
  firstWins : ∀ phone older attempt newer, web.attempts = older ++ attempt :: newer →
    attempt.key = phone →
      (attempt.accepted = true ↔ ¬∃ earlier ∈ older, earlier.key = phone ∧
        earlier.accepted = true ∧ attempt.time < earlier.time + 86400 * second)
  savedByWinner : ∀ phone, ∀ message ∈ web.published,
    message.task = .savePhoneInSqlTask phone →
      ∃ attempt ∈ web.attempts, attempt.owner = message.sender ∧ attempt.key = phone ∧
        attempt.accepted = true
  savedOnce : ∀ index,
    web.published.countP (fun message => message.task.isSave && message.sender = index) ≤ 1
  dayApart : ∀ phone, web.published.Pairwise (fun first later =>
    first.task = .savePhoneInSqlTask phone → later.task = .savePhoneInSqlTask phone →
      ∃ winner ∈ web.attempts, ∃ other ∈ web.attempts,
        winner.owner = first.sender ∧ winner.key = phone ∧ winner.accepted = true ∧
        other.owner = later.sender ∧ other.key = phone ∧ other.accepted = true ∧
        (winner.time + 86400 * second ≤ other.time ∨ other.time + 86400 * second ≤ winner.time))

theorem dedup_exact {web : Web} (reached : system.Reachable web) : web.DedupExact := by
  have inv := inv_of_reachable reached
  refine ⟨?_, ?_, ?_, ?_⟩
  · intro phone older attempt newer split sameKey
    rw [inv.gate.exact older attempt newer split, sameKey]
    constructor
    · rintro clear ⟨earlier, member, same, accepted, young⟩
      exact clear earlier member same accepted young
    · intro none earlier member same accepted young
      exact none ⟨earlier, member, same, accepted, young⟩
  · intro phone message member save
    exact inv.winner_of_save member save
  · intro index
    rw [← List.countP_filter]
    exact inv.saves_le_one index
  · intro phone
    have senders := pairwise_owner_ne (fun message : Message => message.task.isSave)
      inv.saves_le_one
    apply (List.Pairwise.and_mem.mp senders).imp
    rintro first later ⟨present, laterPresent, different⟩ save laterSave
    obtain ⟨winner, winnerPresent, own, key, accepted⟩ := inv.winner_of_save present save
    obtain ⟨other, otherPresent, otherOwn, otherKey, otherAccepted⟩ :=
      inv.winner_of_save laterPresent laterSave
    refine ⟨winner, winnerPresent, other, otherPresent, own, key, accepted, otherOwn, otherKey,
      otherAccepted, ?_⟩
    apply inv.gate.exact.apart winnerPresent otherPresent ?_ (key.trans otherKey.symm) accepted
      otherAccepted
    intro same
    apply different (by rw [save]; rfl) (by rw [laterSave]; rfl)
    rw [← own, ← otherOwn, same]

/-- Two overlapping submissions of one phone, the later one answered first, and a third
submission when the entry expires. -/
def overlappingRun : List WebAction :=
  [.arrive exampleRequest, .arrive exampleRequest, .resume 0 .returns, .resume 1 .returns,
    .resume 1 .returns, .resume 0 .returns, .resume 0 .returns, .resume 0 (.raises []),
    .tick (59 * second), .cachePage (pagePrefix ++ text ".cache_page") [], .resume 1 .returns,
    .resume 1 .returns, .resume 1 .returns, .tick (86341 * second), .arrive exampleRequest,
    .resume 2 .returns, .resume 2 .returns, .resume 2 .returns, .resume 2 .returns,
    .resume 2 .returns]

theorem dedup_exact_overlapping : ∃ web, system.exec Web.start overlappingRun = some web ∧
    web.attempts.map (fun attempt => (attempt.owner, attempt.time, attempt.accepted)) =
      [(1, 0, true), (0, 0, false), (2, day, true)] ∧
    (web.published.filter (fun message => message.task.isSave)).map Message.sender = [1, 2] ∧
      web.DedupExact := by
  have outcome : (system.exec Web.start overlappingRun).any (fun web =>
      decide (web.attempts.map (fun attempt => (attempt.owner, attempt.time, attempt.accepted)) =
          [(1, 0, true), (0, 0, false), (2, day, true)]) &&
        decide ((web.published.filter (fun message => message.task.isSave)).map Message.sender =
          [1, 2])) = true := by decide
  obtain ⟨web, completed, checked⟩ := system.exec_of_any outcome
  simp only [Bool.and_eq_true, decide_eq_true_eq] at checked
  exact ⟨web, completed, checked.1, checked.2, dedup_exact (system.reachable_of_exec completed)⟩

end Web

end Bistland
