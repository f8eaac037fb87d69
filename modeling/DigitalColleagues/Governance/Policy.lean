import DigitalColleagues.Core.Policy

/-!
# Evaluation of a colleague policy

When a policy is within its working hours, and which bucket of its wake budget
an instant falls into.

## Main definitions

- `withinWorkingHours` — the weekly windows, in local time
- `budgetBucketStart` — the start of the hour, day or week of an instant
-/

namespace DigitalColleagues

/-- A wall-clock time: a day of the week, Monday first, and a minute of the day. -/
structure LocalTime where
  day : ℕ
  minute : ℕ
deriving DecidableEq

/-- The local times that a time zone database gives to instants. -/
abbrev TimeZones := String → Instant → LocalTime

/-- Whether a window covers a local time. -/
def WeeklyWindow.covers (w : WeeklyWindow) (now : LocalTime) : Bool :=
  if w.startMinute < w.endMinute then
    decide (now.day = w.weekday.index ∧ w.startMinute ≤ now.minute ∧ now.minute < w.endMinute)
  else
    decide ((now.day = w.weekday.index ∧ w.startMinute ≤ now.minute) ∨
      (now.day = (w.weekday.index + 1) % 7 ∧ now.minute < w.endMinute))

/-- `within_working_hours`. -/
def withinWorkingHours (zones : TimeZones) (policy : ColleaguePolicy) (evaluatedAt : Instant) :
    Bool :=
  policy.weeklyWindows.any fun w => w.covers (zones policy.timezone evaluatedAt)

def microsPerHour : ℤ := 3600000000

def microsPerDay : ℤ := 24 * microsPerHour

/-- The weekday of the day of an instant; instants count from a Thursday. -/
def weekdayOf (t : Instant) : ℤ := (t / microsPerDay + 3) % 7

/-- `budget_bucket_start`. -/
def budgetBucketStart (period : WakeBudgetPeriod) (evaluatedAt : Instant) : Instant :=
  match period with
  | .hour => evaluatedAt - evaluatedAt % microsPerHour
  | .day => evaluatedAt - evaluatedAt % microsPerDay
  | .week => evaluatedAt - evaluatedAt % microsPerDay - weekdayOf evaluatedAt * microsPerDay

end DigitalColleagues
