import Mathlib.Data.List.Sort
import DigitalColleagues.Core.Principals

/-!
# Colleague policies

Typed, revisioned policy values of the deterministic runtime. A policy narrows
when a colleague runs; it cannot grant effects its mandate lacks.
-/

namespace DigitalColleagues

inductive Weekday
  | monday
  | tuesday
  | wednesday
  | thursday
  | friday
  | saturday
  | sunday
deriving DecidableEq

/-- `WEEKDAY_INDEX`. -/
def Weekday.index : Weekday → ℕ
  | .monday => 0
  | .tuesday => 1
  | .wednesday => 2
  | .thursday => 3
  | .friday => 4
  | .saturday => 5
  | .sunday => 6

inductive DurableTriggerKind
  | event
  | timer
deriving DecidableEq

inductive ProactivityMode
  | disabled
  | bounded
deriving DecidableEq

inductive NotificationMode
  | enabled
  | suppressed
deriving DecidableEq

inductive InterruptionMode
  | never
  | workingHoursOnly
  | allowed
deriving DecidableEq

inductive WakeBudgetPeriod
  | hour
  | day
  | week
deriving DecidableEq

inductive OutsideHoursOutcome
  | defer
  | noOp
  | stop
  | escalate
deriving DecidableEq

inductive StopCondition
  | adminStop
  | budgetExhausted
  | repeatedFailure
  | finiteWorkTerminal
deriving DecidableEq

inductive EscalationCondition
  | outsideHours
  | budgetExhausted
  | repeatedFailure
  | blockedWork
deriving DecidableEq

inductive PolicyRunState
  | active
  | stopped
deriving DecidableEq

inductive PolicyStage
  | trigger
  | preWake
  | postModel
  | approval
  | dispatch
  | stop
  | escalation
deriving DecidableEq

inductive PolicyOutcomeKind
  | allowed
  | stalePolicy
  | disallowedTrigger
  | outsideHoursDefer
  | outsideHoursNoOp
  | outsideHoursStop
  | outsideHoursEscalate
  | proactivitySuppressed
  | notificationSuppressed
  | interruptionSuppressed
  | budgetExhausted
  | duplicateTrigger
  | repeatedFailureStop
  | repeatedFailureEscalate
  | finiteWorkTerminalStop
  | blockedWorkEscalate
  | stopped
  | explicitResume
deriving DecidableEq

/-- One local wall-clock window, attributed to its starting weekday. -/
structure WeeklyWindow where
  weekday : Weekday
  startMinute : ℕ
  endMinute : ℕ
  start_lt : startMinute < 1440 := by decide
  end_le : endMinute ≤ 1440 := by decide
  start_ne_end : startMinute ≠ endMinute := by decide
  end_ne_zero : endMinute ≠ 0 := by decide
deriving DecidableEq

structure WakeBudget where
  limit : ℕ
  period : WakeBudgetPeriod
  one_le_limit : 1 ≤ limit := by decide
  limit_le : limit ≤ 10000 := by decide
deriving DecidableEq

/-- A part of one local day, in minutes. -/
structure DayInterval where
  day : ℕ
  start : ℕ
  stop : ℕ
deriving DecidableEq

/-- Python's order on the triples. -/
def DayInterval.le (a b : DayInterval) : Prop :=
  a.day < b.day ∨ a.day = b.day ∧ (a.start < b.start ∨ a.start = b.start ∧ a.stop ≤ b.stop)

instance : DecidableRel DayInterval.le := fun _ _ => inferInstanceAs (Decidable (_ ∨ _))

/-- `_expanded_intervals`: an overnight window continues on the next day. -/
def WeeklyWindow.expandedIntervals (w : WeeklyWindow) : List DayInterval :=
  if w.startMinute < w.endMinute then [⟨w.weekday.index, w.startMinute, w.endMinute⟩]
  else [⟨w.weekday.index, w.startMinute, 1440⟩, ⟨(w.weekday.index + 1) % 7, 0, w.endMinute⟩]

/-- `_validate_windows`: neighbours in the sorted list of intervals do not overlap. -/
def ValidWindows (windows : List WeeklyWindow) : Prop :=
  windows ≠ [] ∧
    ((windows.flatMap WeeklyWindow.expandedIntervals).insertionSort DayInterval.le).IsChain
      fun previous current => ¬(previous.day = current.day ∧ current.start < previous.stop)

instance (windows : List WeeklyWindow) : Decidable (ValidWindows windows) :=
  inferInstanceAs (Decidable (_ ∧ _))

/-- Authoritative runtime policy of one colleague. -/
structure ColleaguePolicy where
  policyId : StableId
  mandateId : StableId
  mandateRevision : ℕ
  timezone : String
  weeklyWindows : List WeeklyWindow
  allowedTriggers : List DurableTriggerKind
  proactivity : ProactivityMode
  notification : NotificationMode
  interruption : InterruptionMode
  wakeBudget : WakeBudget
  outsideHours : OutsideHoursOutcome
  stopConditions : List StopCondition
  escalationConditions : List EscalationCondition
  failureLimit : ℕ
  runState : PolicyRunState
  revision : ℕ
  issuedBy : Principal
  effectiveAt : Instant
  windows_valid : ValidWindows weeklyWindows := by decide
  allowedTriggers_ne_nil : allowedTriggers ≠ [] := by decide
  allowedTriggers_nodup : allowedTriggers.Nodup := by decide
  stopConditions_nodup : stopConditions.Nodup := by decide
  escalationConditions_nodup : escalationConditions.Nodup := by decide
  failureLimit_bounds : 1 ≤ failureLimit ∧ failureLimit ≤ 100 := by decide
  issued_by_human : issuedBy.kind = .human := by decide
deriving DecidableEq

end DigitalColleagues
