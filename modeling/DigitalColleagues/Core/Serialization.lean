import DigitalColleagues.Core.Builder

/-!
# Public data of contracts

`contract_to_public_data` for the values a diff shows. Public data compares
exactly as the contract values do, so a comparison of either kind says the same.
-/

namespace DigitalColleagues

open Json

/-- A contract value, Python's `==` on it, and its public data. -/
class PublicContract (α : Type) where
  publicData : α → Json
  pyEq : α → α → Bool
  pyEq_publicData : ∀ a b, (publicData a).pyEq (publicData b) = pyEq a b

open PublicContract

namespace Json

mutual

theorem pyEq_refl : ∀ a : Json, a.pyEq a = true
  | null => rfl
  | bool b => by simp [pyEq, number?]
  | int n => by simp [pyEq, number?]
  | float q => by simp [pyEq, number?]
  | str s => by simp [pyEq]
  | array items => pyEqItems_refl items
  | object entries => pyEqEntries_refl entries

theorem pyEqItems_refl : ∀ items : List Json, pyEqItems items items = true
  | [] => rfl
  | x :: xs => by simp [pyEqItems, pyEq_refl x, pyEqItems_refl xs]

theorem pyEqEntries_refl : ∀ entries : List (String × Json), pyEqEntries entries entries = true
  | [] => rfl
  | (k, x) :: xs => by simp [pyEqEntries, pyEq_refl x, pyEqEntries_refl xs]

end

end Json

/-- Every contract value equals itself. -/
@[simp] theorem PublicContract.pyEq_refl {α : Type} [PublicContract α] (a : α) :
    pyEq a a = true := by
  rw [← pyEq_publicData]
  exact Json.pyEq_refl _

-- ════════════════════════════════════════════════════════════════════════
-- Scalars and collections
-- ════════════════════════════════════════════════════════════════════════

instance : PublicContract String where
  publicData := .str
  pyEq a b := a == b
  pyEq_publicData _ _ := by simp [Json.pyEq]

instance : PublicContract StableId where
  publicData a := .str a.val
  pyEq a b := a.val == b.val
  pyEq_publicData _ _ := by simp [Json.pyEq]

instance : PublicContract ℕ where
  publicData n := .int n
  pyEq a b := a == b
  pyEq_publicData a b := by
    by_cases h : a = b
    · simp [Json.pyEq, number?, h]
    · have hcast : ((a : ℤ) : ℚ) ≠ ((b : ℤ) : ℚ) := fun he => h (by exact_mod_cast he)
      simpa [Json.pyEq, number?, h] using hcast

instance : PublicContract Bool where
  publicData := .bool
  pyEq a b := a == b
  pyEq_publicData a b := by cases a <;> cases b <;> simp [Json.pyEq, number?]

instance : PublicContract FrozenJsonObject where
  publicData o := .object o.entries
  pyEq := FrozenJsonObject.pyEq
  pyEq_publicData _ _ := by simp [Json.pyEq, FrozenJsonObject.pyEq]

/-- Tuples compare item by item. -/
def pyEqList {α : Type} [PublicContract α] : List α → List α → Bool
  | [], [] => true
  | a :: as, b :: bs => pyEq a b && pyEqList as bs
  | _, _ => false

instance {α : Type} [PublicContract α] : PublicContract (List α) where
  publicData as := .array (as.map publicData)
  pyEq := pyEqList
  pyEq_publicData as bs := by
    simp only [Json.pyEq]
    induction as generalizing bs with
    | nil => cases bs <;> simp [pyEqItems, pyEqList]
    | cons a as ih =>
      cases bs with
      | nil => simp [pyEqItems, pyEqList]
      | cons b bs => simp [pyEqItems, pyEqList, ih, pyEq_publicData]

/-- An enumeration, through the text of its members. -/
abbrev PublicContract.ofValue {α : Type} [DecidableEq α] (value : α → String)
    (h : Function.Injective value) : PublicContract α where
  publicData a := .str (value a)
  pyEq a b := decide (a = b)
  pyEq_publicData a b := by
    by_cases hab : a = b
    · simp [Json.pyEq, hab]
    · have hne : value a ≠ value b := fun he => hab (h he)
      simp [Json.pyEq, hab, hne]

-- ════════════════════════════════════════════════════════════════════════
-- Enumerations
-- ════════════════════════════════════════════════════════════════════════

def EffectKind.value : EffectKind → String
  | .referenceMessage => "reference_message"
  | .internalRecord => "internal_record"
  | .notification => "notification"

instance : PublicContract EffectKind :=
  .ofValue EffectKind.value fun a b => by cases a <;> cases b <;> decide

def Weekday.value : Weekday → String
  | .monday => "monday"
  | .tuesday => "tuesday"
  | .wednesday => "wednesday"
  | .thursday => "thursday"
  | .friday => "friday"
  | .saturday => "saturday"
  | .sunday => "sunday"

instance : PublicContract Weekday :=
  .ofValue Weekday.value fun a b => by cases a <;> cases b <;> decide

def DurableTriggerKind.value : DurableTriggerKind → String
  | .event => "event"
  | .timer => "timer"

instance : PublicContract DurableTriggerKind :=
  .ofValue DurableTriggerKind.value fun a b => by cases a <;> cases b <;> decide

def ProactivityMode.value : ProactivityMode → String
  | .disabled => "disabled"
  | .bounded => "bounded"

instance : PublicContract ProactivityMode :=
  .ofValue ProactivityMode.value fun a b => by cases a <;> cases b <;> decide

def NotificationMode.value : NotificationMode → String
  | .enabled => "enabled"
  | .suppressed => "suppressed"

instance : PublicContract NotificationMode :=
  .ofValue NotificationMode.value fun a b => by cases a <;> cases b <;> decide

def InterruptionMode.value : InterruptionMode → String
  | .never => "never"
  | .workingHoursOnly => "working_hours_only"
  | .allowed => "allowed"

instance : PublicContract InterruptionMode :=
  .ofValue InterruptionMode.value fun a b => by cases a <;> cases b <;> decide

def WakeBudgetPeriod.value : WakeBudgetPeriod → String
  | .hour => "hour"
  | .day => "day"
  | .week => "week"

instance : PublicContract WakeBudgetPeriod :=
  .ofValue WakeBudgetPeriod.value fun a b => by cases a <;> cases b <;> decide

def OutsideHoursOutcome.value : OutsideHoursOutcome → String
  | .defer => "defer"
  | .noOp => "no_op"
  | .stop => "stop"
  | .escalate => "escalate"

instance : PublicContract OutsideHoursOutcome :=
  .ofValue OutsideHoursOutcome.value fun a b => by cases a <;> cases b <;> decide

def StopCondition.value : StopCondition → String
  | .adminStop => "admin_stop"
  | .budgetExhausted => "budget_exhausted"
  | .repeatedFailure => "repeated_failure"
  | .finiteWorkTerminal => "finite_work_terminal"

theorem StopCondition.value_injective : Function.Injective StopCondition.value :=
  fun a b => by cases a <;> cases b <;> decide

instance : PublicContract StopCondition := .ofValue StopCondition.value StopCondition.value_injective

def EscalationCondition.value : EscalationCondition → String
  | .outsideHours => "outside_hours"
  | .budgetExhausted => "budget_exhausted"
  | .repeatedFailure => "repeated_failure"
  | .blockedWork => "blocked_work"

instance : PublicContract EscalationCondition :=
  .ofValue EscalationCondition.value fun a b => by cases a <;> cases b <;> decide

def PolicyRunState.value : PolicyRunState → String
  | .active => "active"
  | .stopped => "stopped"

instance : PublicContract PolicyRunState :=
  .ofValue PolicyRunState.value fun a b => by cases a <;> cases b <;> decide

-- ════════════════════════════════════════════════════════════════════════
-- Records
-- ════════════════════════════════════════════════════════════════════════

instance : PublicContract ResponsibilityDefinition where
  publicData r := .object [("responsibility_id", publicData r.responsibilityId),
    ("description", publicData r.description), ("obligations", publicData r.obligations),
    ("completion_conditions", publicData r.completionConditions)]
  pyEq a b := pyEq a.responsibilityId b.responsibilityId && (pyEq a.description b.description &&
    (pyEq a.obligations b.obligations && pyEq a.completionConditions b.completionConditions))
  pyEq_publicData _ _ := by simp [Json.pyEq, pyEqEntries, pyEq_publicData]

instance : PublicContract CapabilityGrant where
  publicData c := .object [("capability_id", publicData c.capabilityId),
    ("description", publicData c.description)]
  pyEq a b := pyEq a.capabilityId b.capabilityId && pyEq a.description b.description
  pyEq_publicData _ _ := by simp [Json.pyEq, pyEqEntries, pyEq_publicData]

instance : PublicContract Constraint where
  publicData c := .object [("constraint_id", publicData c.constraintId),
    ("description", publicData c.description)]
  pyEq a b := pyEq a.constraintId b.constraintId && pyEq a.description b.description
  pyEq_publicData _ _ := by simp [Json.pyEq, pyEqEntries, pyEq_publicData]

instance : PublicContract EffectBoundary where
  publicData e := .object [("boundary_id", publicData e.boundaryId),
    ("effect_kind", publicData e.effectKind),
    ("allowed_destination_kinds", publicData e.allowedDestinationKinds),
    ("allowed_actions", publicData e.allowedActions), ("constraints", publicData e.constraints),
    ("human_approval_required", publicData e.humanApprovalRequired)]
  pyEq a b := pyEq a.boundaryId b.boundaryId && (pyEq a.effectKind b.effectKind &&
    (pyEq a.allowedDestinationKinds b.allowedDestinationKinds &&
      (pyEq a.allowedActions b.allowedActions && (pyEq a.constraints b.constraints &&
        pyEq a.humanApprovalRequired b.humanApprovalRequired))))
  pyEq_publicData _ _ := by simp [Json.pyEq, pyEqEntries, pyEq_publicData]

instance : PublicContract WeeklyWindow where
  publicData w := .object [("weekday", publicData w.weekday),
    ("start_minute", publicData w.startMinute), ("end_minute", publicData w.endMinute)]
  pyEq a b := pyEq a.weekday b.weekday && (pyEq a.startMinute b.startMinute &&
    pyEq a.endMinute b.endMinute)
  pyEq_publicData _ _ := by simp [Json.pyEq, pyEqEntries, pyEq_publicData]

instance : PublicContract WakeBudget where
  publicData b := .object [("limit", publicData b.limit), ("period", publicData b.period)]
  pyEq a b := pyEq a.limit b.limit && pyEq a.period b.period
  pyEq_publicData _ _ := by simp [Json.pyEq, pyEqEntries, pyEq_publicData]

end DigitalColleagues
