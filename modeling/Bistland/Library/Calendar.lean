/-
The Gregorian calendar and the time of day, for instants counted in microseconds from the
beginning of 1970. A date is one that exists; the days follow each other in the order of year,
month and day, and so do the instants with their times of day.
-/

import Mathlib.Data.Nat.Notation
import Mathlib.Tactic.Common

namespace Bistland.Calendar

/-! ### Dates -/

def isLeap (year : Nat) : Bool :=
  year % 4 = 0 && (year % 100 ≠ 0 || year % 400 = 0)

def daysInMonth (year month : Nat) : Nat :=
  if month = 2 then (if isLeap year then 29 else 28)
  else if month ∈ [4, 6, 9, 11] then 30
  else 31

structure Date where
  year : Nat
  month : Nat
  day : Nat
  month_pos : 1 ≤ month
  month_le : month ≤ 12
  day_pos : 1 ≤ day
  day_le : day ≤ daysInMonth year month

theorem daysInMonth_pos (year month : Nat) : 1 ≤ daysInMonth year month := by
  unfold daysInMonth
  split
  · split <;> omega
  · split <;> omega

theorem daysInMonth_le (year month : Nat) : daysInMonth year month ≤ 31 := by
  unfold daysInMonth
  split
  · split <;> omega
  · split <;> omega

namespace Date

def epoch : Date :=
  { year := 1970
    month := 1
    day := 1
    month_pos := by decide
    month_le := by decide
    day_pos := by decide
    day_le := by decide }

def next (date : Date) : Date :=
  if inMonth : date.day < daysInMonth date.year date.month then
    { date with
      day := date.day + 1
      day_pos := Nat.le_add_left 1 _
      day_le := inMonth }
  else if inYear : date.month < 12 then
    { year := date.year
      month := date.month + 1
      day := 1
      month_pos := Nat.le_add_left 1 _
      month_le := inYear
      day_pos := Nat.le_refl 1
      day_le := daysInMonth_pos _ _ }
  else
    { year := date.year + 1
      month := 1
      day := 1
      month_pos := Nat.le_refl 1
      month_le := by decide
      day_pos := Nat.le_refl 1
      day_le := daysInMonth_pos _ _ }

/-- The date so many days after the beginning of 1970. -/
def onDay : Nat → Date
  | 0 => epoch
  | days + 1 => (onDay days).next

example : (onDay 59).month = 3 ∧ (onDay 59).day = 1 ∧ (onDay 789).month = 2 ∧
    (onDay 789).day = 29 := by
  decide +kernel

/-- The order of the calendar. -/
def Earlier (first second : Date) : Prop :=
  first.year < second.year ∨ first.year = second.year ∧
    (first.month < second.month ∨ first.month = second.month ∧ first.day < second.day)

theorem Earlier.trans {first second third : Date} (left : first.Earlier second)
    (right : second.Earlier third) : first.Earlier third := by
  unfold Earlier at *
  omega

theorem earlier_next (date : Date) : date.Earlier date.next := by
  unfold next
  split
  · exact Or.inr ⟨rfl, Or.inr ⟨rfl, Nat.lt_succ_self _⟩⟩
  · split
    · exact Or.inr ⟨rfl, Or.inl (Nat.lt_succ_self _)⟩
    · exact Or.inl (Nat.lt_succ_self _)

theorem onDay_earlier {first second : Nat} (order : first < second) :
    (onDay first).Earlier (onDay second) := by
  induction order with
  | refl => exact earlier_next _
  | step _ ih => exact ih.trans (earlier_next _)

theorem onDay_year_le {first second : Nat} (order : first ≤ second) :
    (onDay first).year ≤ (onDay second).year := by
  rcases Nat.lt_or_eq_of_le order with before | rfl
  · have earlier := onDay_earlier before
    unfold Earlier at earlier
    omega
  · exact Nat.le_refl _

end Date

/-! ### Times of day -/

def microsecondsOfSecond : Nat := 1000000

def microsecondsOfMinute : Nat := 60 * microsecondsOfSecond

def microsecondsOfHour : Nat := 60 * microsecondsOfMinute

def microsecondsOfDay : Nat := 24 * microsecondsOfHour

/-- The hands of a clock. -/
structure Time where
  hour : Nat
  minute : Nat
  second : Nat
  microsecond : Nat
  deriving DecidableEq

namespace Time

def ofMicroseconds (elapsed : Nat) : Time :=
  { hour := elapsed / microsecondsOfHour
    minute := elapsed % microsecondsOfHour / microsecondsOfMinute
    second := elapsed % microsecondsOfMinute / microsecondsOfSecond
    microsecond := elapsed % microsecondsOfSecond }

def Earlier (first second : Time) : Prop :=
  first.hour < second.hour ∨ first.hour = second.hour ∧
    (first.minute < second.minute ∨ first.minute = second.minute ∧
      (first.second < second.second ∨ first.second = second.second ∧
        first.microsecond < second.microsecond))

theorem ofMicroseconds_earlier {first second : Nat} (order : first < second) :
    (ofMicroseconds first).Earlier (ofMicroseconds second) := by
  simp only [Earlier, ofMicroseconds, microsecondsOfHour, microsecondsOfMinute,
    microsecondsOfSecond]
  omega

/-- The digits that each hand needs within a day. -/
theorem ofMicroseconds_bounds {elapsed : Nat} (inDay : elapsed < microsecondsOfDay) :
    (ofMicroseconds elapsed).hour < 24 ∧ (ofMicroseconds elapsed).minute < 60 ∧
      (ofMicroseconds elapsed).second < 60 ∧ (ofMicroseconds elapsed).microsecond < 1000000 := by
  simp only [ofMicroseconds, microsecondsOfDay, microsecondsOfHour, microsecondsOfMinute,
    microsecondsOfSecond] at inDay ⊢
  omega

end Time

/-! ### Instants -/

structure DateTime where
  date : Date
  time : Time

/-- What the calendar and a clock show an instant after the beginning of 1970. -/
def utc (instant : Nat) : DateTime :=
  { date := Date.onDay (instant / microsecondsOfDay)
    time := Time.ofMicroseconds (instant % microsecondsOfDay) }

theorem utc_earlier {first second : Nat} (order : first < second) :
    (utc first).date.Earlier (utc second).date ∨
      (utc first).date = (utc second).date ∧ (utc first).time.Earlier (utc second).time := by
  rcases Nat.lt_or_ge (first / microsecondsOfDay) (second / microsecondsOfDay) with before | notLater
  · exact Or.inl (Date.onDay_earlier before)
  · have sameDay : first / microsecondsOfDay = second / microsecondsOfDay :=
      Nat.le_antisymm (Nat.div_le_div_right (Nat.le_of_lt order)) notLater
    right
    refine ⟨congrArg Date.onDay sameDay, Time.ofMicroseconds_earlier ?_⟩
    have firstParts := Nat.div_add_mod first microsecondsOfDay
    have secondParts := Nat.div_add_mod second microsecondsOfDay
    rw [sameDay] at firstParts
    omega

theorem utc_year_le {first second : Nat} (order : first ≤ second) :
    (utc first).date.year ≤ (utc second).date.year :=
  Date.onDay_year_le (Nat.div_le_div_right order)

end Bistland.Calendar
