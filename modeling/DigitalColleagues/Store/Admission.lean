import DigitalColleagues.Core.Effects
import DigitalColleagues.Core.Work
import DigitalColleagues.Governance.Policy
import DigitalColleagues.Store.Builder
import DigitalColleagues.Store.Outbox

/-!
# Admission of triggers

The policy decides whether a trigger may wake its colleague, and its wake budget
counts the triggers it lets in. Outcome, budget, run state and escalation are
written in one transaction.

## Main definitions

- `AdmissionTables` — wake budget counters, their consumptions, and escalations
- `admissionRefusal` — what refuses a trigger before the budget is looked at
- `admitTrigger` — the transaction
-/

namespace DigitalColleagues

open Keyed

-- ════════════════════════════════════════════════════════════════════════
-- Rows
-- ════════════════════════════════════════════════════════════════════════

/-- One bucket of the wake budget of one policy revision. -/
structure BudgetBucket where
  policyId : StableId
  policyRevision : ℕ
  period : WakeBudgetPeriod
  bucketStart : Instant
deriving DecidableEq

/-- A row of `p5_wake_budget_counters`. -/
structure BudgetCounter where
  bucket : BudgetBucket
  consumedCount : ℕ
  updatedAt : Instant
  revision : ℕ
deriving DecidableEq

/-- A row of `p5_wake_budget_consumptions`. -/
structure BudgetConsumption where
  occurrenceKey : StableId
  bucket : BudgetBucket
  triggerClass : DurableTriggerKind
  sourceId : StableId
  consumedAt : Instant
deriving DecidableEq

structure EscalationRecord where
  escalationId : StableId
  policyId : StableId
  policyRevision : ℕ
  condition : EscalationCondition
  actorPrincipalId : StableId
  correlationId : StableId
  causationId : StableId
  occurredAt : Instant
  revision : ℕ
deriving DecidableEq

instance : Keyed BudgetCounter BudgetBucket := ⟨BudgetCounter.bucket⟩

instance : Keyed BudgetConsumption StableId := ⟨BudgetConsumption.occurrenceKey⟩

instance : Keyed EscalationRecord StableId := ⟨EscalationRecord.escalationId⟩

instance : Keyed FiniteWork StableId := ⟨FiniteWork.workId⟩

/-- The wake budget and escalation tables of one colleague. -/
structure AdmissionTables where
  counters : Table BudgetCounter
  consumptions : Table BudgetConsumption
  escalations : Table EscalationRecord

def AdmissionTables.empty : AdmissionTables := ⟨.empty, .empty, .empty⟩

/-- The arguments of `admit_trigger`. -/
structure AdmitTriggerCommand where
  policy : ColleaguePolicy
  triggerClass : DurableTriggerKind
  sourceId : StableId
  occurrenceKey : StableId
  actor : Principal
  correlationId : StableId
  causationId : StableId
  outcomeId : StableId
  escalationId : StableId
  occurredAt : Instant

structure PolicyAdmission where
  accepted : Bool
  outcome : PolicyOutcomeKind
  budgetCount : ℕ
  budgetLimit : ℕ
  record : PolicyEnforcementRecord
  escalation : Option EscalationRecord
deriving DecidableEq

-- ════════════════════════════════════════════════════════════════════════
-- What refuses a trigger
-- ════════════════════════════════════════════════════════════════════════

def ActionResultState.isFailure : ActionResultState → Bool
  | .failed => true
  | .retryableFailure => true
  | .permanentFailure => true
  | _ => false

/-- `_deterministic_failure_streak`: the failures since the last other result. -/
def failureStreak (results : Records ActionResult) : ℕ :=
  ((results.domain.rows.insertionSort fun a b =>
      toLex (b.occurredAt, b.actionResultId) ≤ toLex (a.occurredAt, a.actionResultId)).takeWhile
    fun r => r.state.isFailure).length

/-- The outcome outside the working hours. -/
def OutsideHoursOutcome.outcomeKind : OutsideHoursOutcome → PolicyOutcomeKind
  | .defer => .outsideHoursDefer
  | .noOp => .outsideHoursNoOp
  | .stop => .outsideHoursStop
  | .escalate => .outsideHoursEscalate

/-- What earlier results and the state of the work say against a trigger. -/
def workRefusal (policy : ColleaguePolicy) (streak : ℕ) (work : Option FiniteWork) :
    Option PolicyOutcomeKind :=
  if policy.failureLimit ≤ streak ∧ .repeatedFailure ∈ policy.stopConditions then
    some .repeatedFailureStop
  else if policy.failureLimit ≤ streak ∧ .repeatedFailure ∈ policy.escalationConditions then
    some .repeatedFailureEscalate
  else if (work.any fun w => decide (w.state = .completed ∨ w.state = .cancelled)) = true ∧
      .finiteWorkTerminal ∈ policy.stopConditions then
    some .finiteWorkTerminalStop
  else if (work.any fun w => decide (w.state = .blocked)) = true ∧
      .blockedWork ∈ policy.escalationConditions then
    some .blockedWorkEscalate
  else none

/-- The policy or the durable run state is stopped. -/
def BuilderTables.stopped (s : BuilderTables) (policy : ColleaguePolicy) : Prop :=
  policy.runState = .stopped ∨ s.runState.map RunStateRow.state = some .stopped

instance (s : BuilderTables) (policy : ColleaguePolicy) : Decidable (s.stopped policy) :=
  inferInstanceAs (Decidable (_ ∨ _))

/-- What refuses a trigger before the wake budget is looked at. -/
def admissionRefusal (zones : TimeZones) (works : Table FiniteWork)
    (results : Records ActionResult) (s : BuilderTables) (active : Option ColleaguePolicy)
    (cmd : AdmitTriggerCommand) : Option PolicyOutcomeKind :=
  if active ≠ some cmd.policy then some .stalePolicy
  else if s.stopped cmd.policy then some .stopped
  else if cmd.triggerClass ∉ cmd.policy.allowedTriggers then some .disallowedTrigger
  else if cmd.policy.proactivity = .disabled then some .proactivitySuppressed
  else if withinWorkingHours zones cmd.policy cmd.occurredAt = false then
    some cmd.policy.outsideHours.outcomeKind
  else workRefusal cmd.policy (failureStreak results) (works.find? cmd.causationId)

-- ════════════════════════════════════════════════════════════════════════
-- The wake budget
-- ════════════════════════════════════════════════════════════════════════

/-- The bucket that a trigger is counted in. -/
def AdmitTriggerCommand.bucket (cmd : AdmitTriggerCommand) : BudgetBucket where
  policyId := cmd.policy.policyId
  policyRevision := cmd.policy.revision
  period := cmd.policy.wakeBudget.period
  bucketStart := budgetBucketStart cmd.policy.wakeBudget.period cmd.occurredAt

namespace AdmissionTables

/-- The count of one bucket; there is no row before the first trigger. -/
def bucketCount (s : AdmissionTables) (bucket : BudgetBucket) : ℕ :=
  (s.counters.find? bucket).elim 0 BudgetCounter.consumedCount

/-- `_budget_count`: the sum over all buckets of a policy revision. -/
def budgetCount (s : AdmissionTables) (policy : ColleaguePolicy) : ℕ :=
  s.counters.sum fun c =>
    if c.bucket.policyId = policy.policyId ∧ c.bucket.policyRevision = policy.revision then
      c.consumedCount
    else 0

/-- The counter of a bucket, one higher. -/
def countBucket (s : AdmissionTables) (bucket : BudgetBucket) (occurredAt : Instant) :
    Outcome (Table BudgetCounter) :=
  match s.counters.find? bucket with
  | none => orFail (s.counters.insert? ⟨bucket, 1, occurredAt, 1⟩) .integrity
  | some counter => .ok (s.counters.replace
      { counter with
        consumedCount := counter.consumedCount + 1
        updatedAt := occurredAt
        revision := counter.revision + 1 })

/-- One trigger of the budget, unless its occurrence was counted or the bucket is full. -/
def consumeBudget (s : AdmissionTables) (cmd : AdmitTriggerCommand) :
    Outcome (PolicyOutcomeKind × AdmissionTables) :=
  match s.consumptions.find? cmd.occurrenceKey with
  | some _ => .ok (.duplicateTrigger, s)
  | none =>
    if cmd.policy.wakeBudget.limit ≤ s.bucketCount cmd.bucket then .ok (.budgetExhausted, s)
    else do
      let counters ← s.countBucket cmd.bucket cmd.occurredAt
      let consumptions ← orFail (s.consumptions.insert?
        { occurrenceKey := cmd.occurrenceKey
          bucket := cmd.bucket
          triggerClass := cmd.triggerClass
          sourceId := cmd.sourceId
          consumedAt := cmd.occurredAt }) .integrity
      pure (.allowed, { s with counters := counters, consumptions := consumptions })

/-- `_insert_escalation`. -/
def insertEscalation (s : AdmissionTables) (escalation : EscalationRecord) :
    Outcome AdmissionTables :=
  match s.escalations.find? escalation.escalationId with
  | some existing => do
    require (existing = escalation) (.conflict "escalation identity was rebound")
    pure s
  | none => do
    let escalations ← orFail (s.escalations.insert? escalation) .integrity
    pure { s with escalations := escalations }

end AdmissionTables

-- ════════════════════════════════════════════════════════════════════════
-- What an outcome causes
-- ════════════════════════════════════════════════════════════════════════

/-- The reason for which an outcome stops the colleague. -/
def stopReason (policy : ColleaguePolicy) : PolicyOutcomeKind → Option String
  | .outsideHoursStop => some "outside_hours_stop"
  | .repeatedFailureStop => some "repeated_failure_stop"
  | .finiteWorkTerminalStop => some "finite_work_terminal_stop"
  | .budgetExhausted =>
    if .budgetExhausted ∈ policy.stopConditions then some "budget_exhausted" else none
  | _ => none

/-- The condition that an outcome escalates. -/
def escalatedCondition (policy : ColleaguePolicy) : PolicyOutcomeKind → Option EscalationCondition
  | .outsideHoursEscalate => some .outsideHours
  | .budgetExhausted =>
    if .budgetExhausted ∈ policy.escalationConditions then some .budgetExhausted else none
  | .repeatedFailureStop =>
    if .repeatedFailure ∈ policy.escalationConditions then some .repeatedFailure else none
  | .repeatedFailureEscalate =>
    if .repeatedFailure ∈ policy.escalationConditions then some .repeatedFailure else none
  | .blockedWorkEscalate => some .blockedWork
  | _ => none

namespace AdmitTriggerCommand

/-- `_record_for_admission`. -/
def recordFor (cmd : AdmitTriggerCommand) (outcome : PolicyOutcomeKind) :
    PolicyEnforcementRecord where
  outcomeId := .given cmd.outcomeId
  policyId := cmd.policy.policyId
  policyRevision := cmd.policy.revision
  mandateId := cmd.policy.mandateId
  mandateRevision := cmd.policy.mandateRevision
  stage := .preWake
  outcome := outcome
  triggerClass := some cmd.triggerClass
  sourceId := some cmd.sourceId
  actorPrincipalId := cmd.actor.principalId
  correlationId := cmd.correlationId
  causationId := cmd.causationId
  occurredAt := cmd.occurredAt

def escalationFor (cmd : AdmitTriggerCommand) (condition : EscalationCondition) :
    EscalationRecord where
  escalationId := cmd.escalationId
  policyId := cmd.policy.policyId
  policyRevision := cmd.policy.revision
  condition := condition
  actorPrincipalId := cmd.actor.principalId
  correlationId := cmd.correlationId
  causationId := cmd.sourceId
  occurredAt := cmd.occurredAt
  revision := 1

end AdmitTriggerCommand

/-- The run state after an outcome. -/
def BuilderTables.stopFor (s : BuilderTables) (cmd : AdmitTriggerCommand)
    (outcome : PolicyOutcomeKind) : BuilderTables :=
  match stopReason cmd.policy outcome with
  | none => s
  | some reason => s.upsertRunState { cmd.policy with runState := .stopped } cmd.actor
      cmd.correlationId cmd.sourceId cmd.occurredAt reason

/-- The escalation of an outcome, when there is one. -/
def AdmissionTables.escalateFor (s : AdmissionTables) (cmd : AdmitTriggerCommand)
    (outcome : PolicyOutcomeKind) : Outcome (Option EscalationRecord × AdmissionTables) :=
  match escalatedCondition cmd.policy outcome with
  | none => .ok (none, s)
  | some condition => do
    let s ← s.insertEscalation (cmd.escalationFor condition)
    pure (some (cmd.escalationFor condition), s)

/-- The outcome of a trigger that was not seen before, and what it consumes. -/
def AdmissionTables.decide (zones : TimeZones) (works : Table FiniteWork)
    (results : Records ActionResult) (s : AdmissionTables) (builder : BuilderTables)
    (cmd : AdmitTriggerCommand) : Outcome (PolicyOutcomeKind × AdmissionTables) := do
  let active ← builder.getActivePolicy
  match admissionRefusal zones works results builder active cmd with
  | some outcome => pure (outcome, s)
  | none => s.consumeBudget cmd

/-- The admission that a stored outcome stands for. -/
def AdmissionTables.replayOf (s : AdmissionTables) (cmd : AdmitTriggerCommand)
    (record : PolicyEnforcementRecord) : PolicyAdmission where
  accepted := Decidable.decide (record.outcome = .allowed)
  outcome := record.outcome
  budgetCount := s.budgetCount cmd.policy
  budgetLimit := cmd.policy.wakeBudget.limit
  record := record
  escalation := s.escalations.selectMin
    (fun e => Decidable.decide (e.causationId = cmd.sourceId))
    fun e => toLex (e.occurredAt, e.escalationId)

/-- `admit_trigger`. An outcome that is stored is returned as it is. -/
def admitTrigger (zones : TimeZones) (works : Table FiniteWork) (results : Records ActionResult)
    (s : AdmissionTables) (builder : BuilderTables) (cmd : AdmitTriggerCommand) :
    Outcome (PolicyAdmission × AdmissionTables × BuilderTables) :=
  match builder.policyOutcomes.find? (.given cmd.outcomeId) with
  | some record => .ok (s.replayOf cmd record, s, builder)
  | none => do
    let (outcome, s) ← s.decide zones works results builder cmd
    let recorded ← builder.insertPolicyOutcome (cmd.recordFor outcome)
    let (escalation, s) ← s.escalateFor cmd outcome
    pure
      ({ accepted := Decidable.decide (outcome = .allowed)
         outcome := outcome
         budgetCount := s.budgetCount cmd.policy
         budgetLimit := cmd.policy.wakeBudget.limit
         record := cmd.recordFor outcome
         escalation := escalation }, s, recorded.stopFor cmd outcome)

-- ════════════════════════════════════════════════════════════════════════
-- What an admission does
-- ════════════════════════════════════════════════════════════════════════

/-- The row of a counted trigger. -/
def AdmitTriggerCommand.consumption (cmd : AdmitTriggerCommand) : BudgetConsumption where
  occurrenceKey := cmd.occurrenceKey
  bucket := cmd.bucket
  triggerClass := cmd.triggerClass
  sourceId := cmd.sourceId
  consumedAt := cmd.occurredAt

section Admits

variable {zones : TimeZones} {works : Table FiniteWork} {results : Records ActionResult}
  {s t : AdmissionTables} {builder recorded : BuilderTables} {cmd : AdmitTriggerCommand}
  {admission : PolicyAdmission}

namespace AdmissionTables

/-- The consumptions of the buckets that qualify, by their counters. -/
def total (s : AdmissionTables) (p : BudgetBucket → Bool) : ℕ :=
  s.counters.sum fun c => if p c.bucket then c.consumedCount else 0

/-- The consumptions of the buckets that qualify, by their rows. -/
def consumed (s : AdmissionTables) (p : BudgetBucket → Bool) : ℕ :=
  s.consumptions.rows.countP fun c => p c.bucket

theorem bucketCount_eq_total (s : AdmissionTables) (bucket : BudgetBucket) :
    s.bucketCount bucket = s.total fun b => Decidable.decide (b = bucket) := by
  unfold bucketCount total
  cases h : s.counters.find? bucket with
  | none =>
    have hzero : ∀ c ∈ s.counters, (if Decidable.decide (c.bucket = bucket) = true then
        c.consumedCount else 0) = 0 := by
      intro c hc
      have hne : c.bucket ≠ bucket := Table.find?_eq_none.mp h c hc
      simp [hne]
    rw [Table.sum_congr hzero]
    simp [Table.sum]
  | some counter =>
    have hkey : counter.bucket = bucket := Table.key_of_find? h
    have hzero : ∀ c ∈ s.counters, (if key c = key counter then 0 else
        if Decidable.decide (c.bucket = bucket) = true then c.consumedCount else 0) = 0 := by
      intro c _
      have hkeys : key c = key counter ↔ c.bucket = bucket := by rw [← hkey]; rfl
      by_cases hc : c.bucket = bucket <;> simp [hkeys, hc]
    rw [Table.sum_eq_add (Table.mem_of_find? h), Table.sum_congr hzero]
    simp [Table.sum, hkey]

theorem budgetCount_eq_total (s : AdmissionTables) (policy : ColleaguePolicy) :
    s.budgetCount policy = s.total fun b =>
      Decidable.decide (b.policyId = policy.policyId ∧ b.policyRevision = policy.revision) := by
  simp [budgetCount, total]

theorem find?_countBucket {bucket : BudgetBucket} {occurredAt : Instant}
    {counters : Table BudgetCounter} (h : s.countBucket bucket occurredAt = .ok counters) :
    ∀ c ∈ counters, c ∈ s.counters ∧ c.bucket ≠ bucket ∨
      c.bucket = bucket ∧ c.consumedCount = s.bucketCount bucket + 1 := by
  unfold countBucket at h
  intro c hc
  split at h
  · rename_i hnone
    rw [orFail_eq_ok] at h
    rcases (Table.mem_insert h).mp hc with hold | rfl
    · exact .inl ⟨hold, Table.find?_eq_none.mp hnone c hold⟩
    · exact .inr ⟨rfl, by simp [bucketCount, hnone]⟩
  · rename_i counter hcounter
    obtain rfl := Except.ok.inj h
    have hkey : counter.bucket = bucket := Table.key_of_find? hcounter
    have hstored : s.counters.find? (key ({ counter with
        consumedCount := counter.consumedCount + 1
        updatedAt := occurredAt
        revision := counter.revision + 1 } : BudgetCounter)) = some counter := by
      rw [← hkey] at hcounter
      exact hcounter
    rcases (Table.mem_replace hstored).mp hc with rfl | ⟨hold, hne⟩
    · exact .inr ⟨hkey, by simp [bucketCount, hcounter]⟩
    · exact .inl ⟨hold, fun heq => hne (heq.trans hkey.symm)⟩

/-- Counting a bucket adds one to every total it qualifies for. -/
theorem total_countBucket {bucket : BudgetBucket} {occurredAt : Instant}
    {counters : Table BudgetCounter} (h : s.countBucket bucket occurredAt = .ok counters)
    (hcounters : t.counters = counters) (p : BudgetBucket → Bool) :
    t.total p = s.total p + if p bucket then 1 else 0 := by
  unfold total
  rw [hcounters]
  unfold countBucket at h
  split at h
  · rw [orFail_eq_ok] at h
    rw [Table.sum_insert h]
  · rename_i counter hcounter
    obtain rfl := Except.ok.inj h
    have hkey : counter.bucket = bucket := Table.key_of_find? hcounter
    have hstored : s.counters.find? (key ({ counter with
        consumedCount := counter.consumedCount + 1
        updatedAt := occurredAt
        revision := counter.revision + 1 } : BudgetCounter)) = some counter := by
      rw [← hkey] at hcounter
      exact hcounter
    have hsum := Table.sum_replace hstored fun c =>
      if p c.bucket = true then c.consumedCount else 0
    simp only [hkey] at hsum
    split at hsum
    · simp_all
      omega
    · simp_all

end AdmissionTables

/-- A trigger that was not seen before and is let in. -/
structure AcceptsTrigger (s : AdmissionTables) (builder : BuilderTables)
    (cmd : AdmitTriggerCommand) (t : AdmissionTables) (recorded : BuilderTables) : Prop where
  fresh : builder.policyOutcomes.find? (.given cmd.outcomeId) = none
  active : builder.getActivePolicy = .ok (some cmd.policy)
  running : ¬builder.stopped cmd.policy
  unconsumed : s.consumptions.find? cmd.occurrenceKey = none
  room : s.bucketCount cmd.bucket < cmd.policy.wakeBudget.limit
  counters : s.countBucket cmd.bucket cmd.occurredAt = .ok t.counters
  consumptions : s.consumptions.insert? cmd.consumption = some t.consumptions
  records : builder.insertPolicyOutcome (cmd.recordFor .allowed) = .ok recorded

/-- What a call of `admit_trigger` does: it returns a stored outcome, refuses, or
    lets the trigger in. -/
inductive AdmitsTrigger (s : AdmissionTables) (builder : BuilderTables)
    (cmd : AdmitTriggerCommand) (admission : PolicyAdmission) :
    AdmissionTables → BuilderTables → Prop
  | replayed {record : PolicyEnforcementRecord} :
      builder.policyOutcomes.find? (.given cmd.outcomeId) = some record →
      admission = s.replayOf cmd record → AdmitsTrigger s builder cmd admission s builder
  | refused {outcome : PolicyOutcomeKind} {t : AdmissionTables} {recorded : BuilderTables} :
      builder.policyOutcomes.find? (.given cmd.outcomeId) = none →
      outcome ≠ .allowed → admission.accepted = false → t.counters = s.counters →
      t.consumptions = s.consumptions →
      (stopReason cmd.policy outcome ≠ none →
        builder.getActivePolicy = .ok (some cmd.policy) ∧ ¬builder.stopped cmd.policy) →
      builder.insertPolicyOutcome (cmd.recordFor outcome) = .ok recorded →
      AdmitsTrigger s builder cmd admission t (recorded.stopFor cmd outcome)
  | accepted {t : AdmissionTables} {recorded : BuilderTables} :
      AcceptsTrigger s builder cmd t recorded → admission.accepted = true →
      admission.budgetCount = t.budgetCount cmd.policy →
      admission.budgetLimit = cmd.policy.wakeBudget.limit →
      AdmitsTrigger s builder cmd admission t recorded

theorem AdmissionTables.insertEscalation_eq_ok {escalation : EscalationRecord}
    (h : s.insertEscalation escalation = .ok t) :
    t.counters = s.counters ∧ t.consumptions = s.consumptions := by
  unfold insertEscalation at h
  split at h
  · simp only [bind_eq_ok, require_eq_ok, pure_eq_ok, exists_const] at h
    obtain ⟨_, rfl⟩ := h
    exact ⟨rfl, rfl⟩
  · simp only [bind_eq_ok, orFail_eq_ok, pure_eq_ok] at h
    obtain ⟨_, _, rfl⟩ := h
    exact ⟨rfl, rfl⟩

theorem AdmissionTables.escalateFor_eq_ok {outcome : PolicyOutcomeKind}
    {escalation : Option EscalationRecord} (h : s.escalateFor cmd outcome = .ok (escalation, t)) :
    t.counters = s.counters ∧ t.consumptions = s.consumptions := by
  unfold escalateFor at h
  split at h
  · obtain ⟨_, rfl⟩ := Prod.mk.inj (Except.ok.inj h)
    exact ⟨rfl, rfl⟩
  · simp only [bind_eq_ok, pure_eq_ok] at h
    obtain ⟨_, hinsert, hpair⟩ := h
    obtain ⟨_, rfl⟩ := Prod.mk.inj hpair
    exact insertEscalation_eq_ok hinsert

theorem admissionRefusal_ne_allowed {active : Option ColleaguePolicy} {outcome : PolicyOutcomeKind}
    (h : admissionRefusal zones works results builder active cmd = some outcome) :
    outcome ≠ .allowed := by
  rintro rfl
  unfold admissionRefusal workRefusal at h
  split_ifs at h <;> simp_all [OutsideHoursOutcome.outcomeKind]
  split at h <;> simp at h

/-- A trigger that nothing refuses is one of the active policy of a running colleague. -/
theorem active_of_admissionRefusal {active : Option ColleaguePolicy}
    (h : admissionRefusal zones works results builder active cmd = none) :
    active = some cmd.policy ∧ ¬builder.stopped cmd.policy := by
  unfold admissionRefusal at h
  by_cases hactive : active = some cmd.policy
  · by_cases hstopped : builder.stopped cmd.policy
    · simp [hactive, hstopped] at h
    · exact ⟨hactive, hstopped⟩
  · simp [hactive] at h

/-- Only a trigger of the active policy of a running colleague can stop it. -/
theorem active_of_stopReason {active : Option ColleaguePolicy} {outcome : PolicyOutcomeKind}
    (h : admissionRefusal zones works results builder active cmd = some outcome)
    (hstops : stopReason cmd.policy outcome ≠ none) :
    active = some cmd.policy ∧ ¬builder.stopped cmd.policy := by
  unfold admissionRefusal at h
  by_cases hactive : active = some cmd.policy
  · by_cases hstopped : builder.stopped cmd.policy
    · rw [if_neg (not_not.mpr hactive), if_pos hstopped] at h
      obtain rfl := Option.some.inj h
      exact absurd rfl hstops
    · exact ⟨hactive, hstopped⟩
  · rw [if_pos hactive] at h
    obtain rfl := Option.some.inj h
    exact absurd rfl hstops

theorem admitTrigger_eq_ok
    (h : admitTrigger zones works results s builder cmd = .ok (admission, t, recorded)) :
    AdmitsTrigger s builder cmd admission t recorded := by
  unfold admitTrigger at h
  split at h
  · rename_i record hrecord
    simp only [Except.ok.injEq, Prod.mk.injEq] at h
    obtain ⟨rfl, rfl, rfl⟩ := h
    exact .replayed hrecord rfl
  · rename_i hfresh
    simp only [bind_eq_ok, pure_eq_ok, Prod.exists, Prod.mk.injEq] at h
    obtain ⟨outcome, u, hdecide, inserted, hinsert, escalation, v, hescalate, rfl, rfl, rfl⟩ := h
    obtain ⟨hcounters, hconsumptions⟩ := AdmissionTables.escalateFor_eq_ok hescalate
    simp only [AdmissionTables.decide, bind_eq_ok] at hdecide
    obtain ⟨active, hactive, hdecide⟩ := hdecide
    split at hdecide
    · rename_i refusal hrefusal
      simp only [pure_eq_ok, Prod.mk.injEq] at hdecide
      obtain ⟨rfl, rfl⟩ := hdecide
      have hne := admissionRefusal_ne_allowed hrefusal
      refine .refused hfresh hne (by simp [hne]) hcounters hconsumptions (fun hstops => ?_) hinsert
      obtain ⟨rfl, hrunning⟩ := active_of_stopReason hrefusal hstops
      exact ⟨hactive, hrunning⟩
    · rename_i hnone
      obtain ⟨rfl, hrunning⟩ := active_of_admissionRefusal hnone
      unfold AdmissionTables.consumeBudget at hdecide
      split at hdecide
      · simp only [Except.ok.injEq, Prod.mk.injEq] at hdecide
        obtain ⟨rfl, rfl⟩ := hdecide
        exact .refused hfresh (by simp) rfl hcounters hconsumptions (fun _ => ⟨hactive, hrunning⟩)
          hinsert
      · rename_i hunconsumed
        split at hdecide
        · simp only [Except.ok.injEq, Prod.mk.injEq] at hdecide
          obtain ⟨rfl, rfl⟩ := hdecide
          exact .refused hfresh (by simp) rfl hcounters hconsumptions (fun _ => ⟨hactive, hrunning⟩)
            hinsert
        · rename_i hroom
          simp only [bind_eq_ok, orFail_eq_ok, pure_eq_ok, Prod.mk.injEq] at hdecide
          obtain ⟨counters, hcount, consumptions, hconsume, rfl, rfl⟩ := hdecide
          refine .accepted ⟨hfresh, hactive, hrunning, hunconsumed, Nat.lt_of_not_le hroom, ?_, ?_,
            hinsert⟩ rfl rfl rfl
          · rw [hcounters]
            exact hcount
          · rw [hconsumptions]
            exact hconsume

end Admits

end DigitalColleagues
