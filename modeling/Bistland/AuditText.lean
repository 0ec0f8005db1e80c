/-
The texts of the audit log. A task stores its `ts` as the text of `isoformat`, which leaves out
a fraction of zero; the records still sort by these texts as by the instants the tasks took,
and two of them are equal only if the instants are.
-/

import Bistland.PhoneSpelling
import Bistland.Provenance
import Bistland.Library.Calendar
import Bistland.Library.SortableText

namespace Bistland

open Calendar SortableText

/-! ### The text of an instant -/

/-- A format of the kind `%02d`. -/
def zeroPadded (width value : Nat) : Str :=
  padded asciiDigit width value

/-- The fraction, where there is one, and the offset. -/
def fractionAndOffset (microsecond : Nat) : Str :=
  (if microsecond = 0 then [] else text "." ++ zeroPadded 6 microsecond) ++ text "+00:00"

/-- `isoformat` of an aware datetime in UTC. -/
def isoformat (moment : DateTime) : Str :=
  zeroPadded 4 moment.date.year ++ text "-" ++ zeroPadded 2 moment.date.month ++ text "-" ++
    zeroPadded 2 moment.date.day ++ text "T" ++ zeroPadded 2 moment.time.hour ++ text ":" ++
    zeroPadded 2 moment.time.minute ++ text ":" ++ zeroPadded 2 moment.time.second ++
    fractionAndOffset moment.time.microsecond

example : isoformat (utc 3723000001) = text "1970-01-01T01:02:03.000001+00:00" := by
  decide +kernel

example : isoformat (utc (59 * microsecondsOfDay)) = text "1970-03-01T00:00:00+00:00" := by
  decide +kernel

/-- What `timezone.now().isoformat()` gives when the clock of the model shows a time; it was
started at an instant after the beginning of 1970. -/
def tsText (started time : Nat) : Str :=
  isoformat (utc (started + time))

/-! ### Its order -/

theorem asciiDigit_ordered (first second : Nat) (order : first < second) (bound : second < 10) :
    asciiDigit first < asciiDigit second := by
  rw [Fin.lt_def, asciiDigit_val first (Nat.lt_trans order bound), asciiDigit_val second bound]
  omega

theorem sorts_zeroPadded (width : Nat) : Sorts (Below width) (zeroPadded width) :=
  sorts_padded asciiDigit_ordered width

/-- The plus of the offset comes before the point of a fraction. -/
theorem sorts_fractionAndOffset : Sorts (Below 6) fractionAndOffset := by
  intro first second order rest other
  have present : second ≠ 0 := Nat.ne_of_gt (Nat.lt_of_le_of_lt (Nat.zero_le first) order.1)
  unfold fractionAndOffset
  rw [if_neg present]
  by_cases whole : first = 0
  · rw [if_pos whole, List.nil_append]
    apply List.cons_lt_cons_iff.mpr
    left
    decide
  · rw [if_neg whole]
    simp only [List.append_assoc]
    exact List.append_left_lt (sorts_zeroPadded 6 first second order _ _)

def DateTime.fields (moment : DateTime) : Nat × Nat × Nat × Nat × Nat × Nat × Nat :=
  (moment.date.year, moment.date.month, moment.date.day, moment.time.hour, moment.time.minute,
    moment.time.second, moment.time.microsecond)

/-- The order of the fields, each below what its digits hold. -/
abbrev FieldsEarlier : (first second : Nat × Nat × Nat × Nat × Nat × Nat × Nat) → Prop :=
  Prod.Lex (Below 4) (Prod.Lex (Below 2) (Prod.Lex (Below 2) (Prod.Lex (Below 2)
    (Prod.Lex (Below 2) (Prod.Lex (Below 2) (Below 6))))))

theorem isoformat_lt {first second : DateTime}
    (order : FieldsEarlier (DateTime.fields first) (DateTime.fields second)) :
    isoformat first < isoformat second := by
  have seconds := (sorts_zeroPadded 2).pair sorts_fractionAndOffset
  have minutes := (sorts_zeroPadded 2).pair (seconds.after (text ":"))
  have hours := (sorts_zeroPadded 2).pair (minutes.after (text ":"))
  have days := (sorts_zeroPadded 2).pair (hours.after (text "T"))
  have months := (sorts_zeroPadded 2).pair (days.after (text "-"))
  have years := (sorts_zeroPadded 4).pair (months.after (text "-"))
  have sorted := years.lt order
  unfold isoformat
  simp only [List.append_assoc]
  exact sorted

theorem fields_earlier {first second : Nat} (order : first < second)
    (inRange : (utc second).date.year ≤ 9999) :
    FieldsEarlier (DateTime.fields (utc first)) (DateTime.fields (utc second)) := by
  have months := (utc second).date.month_le
  have days := Nat.le_trans (utc second).date.day_le (daysInMonth_le _ _)
  have clock := Time.ofMicroseconds_bounds (Nat.mod_lt second (show 0 < microsecondsOfDay by decide))
  change (utc second).time.hour < 24 ∧ (utc second).time.minute < 60 ∧
    (utc second).time.second < 60 ∧ (utc second).time.microsecond < 1000000 at clock
  have earlier := utc_earlier order
  simp only [Date.Earlier, Time.Earlier] at earlier
  simp only [FieldsEarlier, Prod.lex_def, Below, DateTime.fields]
  rcases earlier with date | ⟨date, time⟩
  · omega
  · rw [date]
    omega

theorem tsText_lt {started first second : Nat} (order : first < second)
    (inRange : (utc (started + second)).date.year ≤ 9999) :
    tsText started first < tsText started second :=
  isoformat_lt (fields_earlier (by omega) inRange)

/-- In the years of four digits the texts stand in the order of their instants. -/
theorem tsText_lt_iff {started first second deadline : Nat} (firstPast : first ≤ deadline)
    (secondPast : second ≤ deadline) (inRange : (utc (started + deadline)).date.year ≤ 9999) :
    tsText started first < tsText started second ↔ first < second := by
  have years : ∀ time, time ≤ deadline → (utc (started + time)).date.year ≤ 9999 :=
    fun time past => Nat.le_trans (utc_year_le (by omega)) inRange
  constructor
  · intro sorted
    by_contra notBefore
    rcases Nat.lt_or_eq_of_le (Nat.le_of_not_lt notBefore) with after | same
    · exact List.lt_asymm sorted (tsText_lt after (years first firstPast))
    · rw [same] at sorted
      exact List.lt_irrefl _ sorted
  · intro order
    exact tsText_lt order (years second secondPast)

/-! ### The records -/

namespace Cluster

/-- The records of the collection sort by the text of their `ts` as by the instants, and none of
them by a text before the start of its request. -/
structure SortsByText (cluster : Cluster) (started : Nat) : Prop where
  ordered : ∀ first ∈ cluster.tables.mongo, ∀ second ∈ cluster.tables.mongo,
    (tsText started first.ts < tsText started second.ts ↔ first.ts < second.ts)
  distinct : ∀ first ∈ cluster.tables.mongo, ∀ second ∈ cluster.tables.mongo,
    (tsText started first.ts = tsText started second.ts ↔ first.ts = second.ts)
  between : ∀ stored ∈ cluster.tables.mongo, ∃ message call attempt,
    cluster.Origin message stored.record.phone attempt.accepted stored.ts call attempt ∧
      ¬tsText started stored.ts < tsText started call.startTime

theorem sorts_by_text {actions : List ClusterAction} {cluster : Cluster} (started : Nat)
    (completed : system.exec Cluster.start actions = some cluster)
    (inRange : (utc (started + cluster.web.now)).date.year ≤ 9999) :
    cluster.SortsByText started := by
  have dated := dated_of_exec completed
  have past : ∀ stored ∈ cluster.tables.mongo, stored.ts ≤ cluster.web.now := by
    intro stored member
    obtain ⟨_, _, _, _, origin⟩ := dated.record_origin member
    exact origin.past
  have ordered : ∀ first ∈ cluster.tables.mongo, ∀ second ∈ cluster.tables.mongo,
      (tsText started first.ts < tsText started second.ts ↔ first.ts < second.ts) := by
    intro first member second secondMember
    exact tsText_lt_iff (past first member) (past second secondMember) inRange
  refine { ordered := ordered, distinct := ?_, between := ?_ }
  · intro first member second secondMember
    constructor
    · intro same
      have forward := ordered first member second secondMember
      have backward := ordered second secondMember first member
      rw [same] at forward backward
      have notBefore := mt forward.mpr (List.lt_irrefl _)
      have notAfter := mt backward.mpr (List.lt_irrefl _)
      omega
    · intro same
      rw [same]
  · intro stored member
    obtain ⟨message, call, attempt, _, origin⟩ := dated.record_origin member
    have order := Nat.le_trans origin.started origin.passed
    refine ⟨message, call, attempt, origin, ?_⟩
    rw [tsText_lt_iff origin.past (Nat.le_trans order origin.past) inRange]
    omega

/-- Two requests are logged, the first on a full second and the other a microsecond later. -/
def loggedRun : List ClusterAction :=
  [.hire, .web (.arrive exampleRequest), .web (.arrive exampleRequest)] ++
  [0, 0, 0, 1, 1, 1].map (fun call => .web (.resume call .returns)) ++
  [.reserve 0 0, .work 0, .work 0, .work 0, .work 0, .web (.tick 1), .reserve 0 0, .work 0,
    .work 0, .work 0]

theorem sorts_by_text_fraction : ∃ cluster, system.exec Cluster.start loggedRun = some cluster ∧
    cluster.tables.mongo.map MongoRecord.ts = [0, 1] ∧ cluster.SortsByText 0 := by
  have outcome : (system.exec Cluster.start loggedRun).any (fun cluster =>
      decide (cluster.tables.mongo.map MongoRecord.ts = [0, 1]) &&
        decide (cluster.web.now = 1)) = true := by decide
  obtain ⟨cluster, completed, checked⟩ := system.exec_of_any outcome
  simp only [Bool.and_eq_true, decide_eq_true_eq] at checked
  refine ⟨cluster, completed, checked.1, sorts_by_text 0 completed ?_⟩
  rw [checked.2]
  decide

end Cluster

end Bistland
