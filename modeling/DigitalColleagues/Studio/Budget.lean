import DigitalColleagues.Studio.Moves

/-!
# The wake budget over whole runs

Counters, consumptions and admitting outcomes of a run belong together one by
one. The count that an admission reports adds up all buckets of its policy
revision, while the limit holds for each bucket.

## Main definitions

- `StudioState.admissionOf` — the admission of a trigger in a state
- `BudgetKept` — the invariant
- `LeavesRoom` — when the reported count stays within the limit
-/

namespace DigitalColleagues

open Keyed

variable {ports : GovernancePorts} {zones : TimeZones}

/-- The admission of a trigger in a state. -/
def StudioState.admissionOf (zones : TimeZones) (s : StudioState) (cmd : AdmitTriggerCommand) :
    Outcome (PolicyAdmission × AdmissionTables × BuilderTables) :=
  admitTrigger zones s.tables.works s.runtime.effects.tables.results s.tables.admission
    s.configuration cmd

/-- A bucket of a policy revision. -/
def BudgetBucket.IsOf (bucket : BudgetBucket) (policy : ColleaguePolicy) : Prop :=
  bucket.policyId = policy.policyId ∧ bucket.policyRevision = policy.revision

instance (bucket : BudgetBucket) (policy : ColleaguePolicy) : Decidable (bucket.IsOf policy) :=
  inferInstanceAs (Decidable (_ ∧ _))

/-- A consumption was written with an outcome, in one transaction. -/
structure BudgetConsumption.With (c : BudgetConsumption) (record : PolicyEnforcementRecord) :
    Prop where
  policyId : record.policyId = c.bucket.policyId
  policyRevision : record.policyRevision = c.bucket.policyRevision
  triggerClass : record.triggerClass = some c.triggerClass
  sourceId : record.sourceId = some c.sourceId
  occurredAt : record.occurredAt = c.consumedAt

/-- Counters count consumptions and keep to the limit of a stored policy, and
    consumptions and admissions belong together. -/
structure BudgetKept (admission : AdmissionTables) (builder : BuilderTables) : Prop where
  counted : ∀ p, admission.total p = admission.consumed p
  limited : ∀ c ∈ admission.counters, ∃ policy, auditRecord policy ∈ builder.policies.audit ∧
    c.bucket.IsOf policy ∧ c.consumedCount ≤ policy.wakeBudget.limit
  lockstep : List.Forall₂ BudgetConsumption.With admission.consumptions.rows builder.admissions

/-- Over all buckets of its policy revision fewer triggers were let in than the
    limit of one bucket; a call that returns a stored outcome adds none itself. -/
def LeavesRoom (s : StudioState) (cmd : AdmitTriggerCommand) : Prop :=
  let consumed := s.tables.admission.consumed fun b => decide (b.IsOf cmd.policy)
  if (s.configuration.policyOutcomes.find? (.given cmd.outcomeId)).isSome = true then
    consumed ≤ cmd.policy.wakeBudget.limit
  else consumed < cmd.policy.wakeBudget.limit

namespace BudgetKept

variable {s t : AdmissionTables} {builder recorded : BuilderTables} {cmd : AdmitTriggerCommand}
  {admission : PolicyAdmission}

theorem empty (builder : BuilderTables) (h : builder.admissions = []) :
    BudgetKept .empty builder where
  counted _ := rfl
  limited c hc := absurd hc (Table.not_mem_empty c)
  lockstep := by
    rw [h]
    exact .nil

theorem keeps (h : BudgetKept s builder) (hkeeps : builder.Keeps recorded) :
    BudgetKept s recorded where
  counted := h.counted
  limited c hc :=
    have ⟨policy, hpolicy, hbucket, hcount⟩ := h.limited c hc
    ⟨policy, hkeeps.policies _ hpolicy, hbucket, hcount⟩
  lockstep := by
    rw [hkeeps.admissions]
    exact h.lockstep

/-- Budget tables with the same counters and consumptions. -/
theorem congr (h : BudgetKept s builder) (hcounters : t.counters = s.counters)
    (hconsumptions : t.consumptions = s.consumptions) : BudgetKept t builder where
  counted p := by
    have hcounted := h.counted p
    rwa [AdmissionTables.total, AdmissionTables.consumed, hcounters, hconsumptions]
  limited := by
    rw [hcounters]
    exact h.limited
  lockstep := by
    rw [hconsumptions]
    exact h.lockstep

/-- The policy that is active was stored. -/
theorem audit_of_active {policy : ColleaguePolicy}
    (h : builder.getActivePolicy = .ok (some policy)) :
    auditRecord policy ∈ builder.policies.audit := by
  unfold BuilderTables.getActivePolicy at h
  split at h
  · exact absurd h (by simp)
  · rename_i active hrows
    obtain rfl := Option.some.inj (Except.ok.inj h)
    exact Records.auditRecord_mem (by rw [Table.mem_def, hrows]; exact List.mem_singleton_self _)
  · exact absurd h (by simp)

theorem consumed_of_accepts (h : AcceptsTrigger s builder cmd t recorded)
    (p : BudgetBucket → Bool) : t.consumed p = s.consumed p + if p cmd.bucket then 1 else 0 := by
  have hrows := (Table.insert?_eq_some.mp h.consumptions).2
  rw [AdmissionTables.consumed, AdmissionTables.consumed, hrows, List.countP_append]
  simp [List.countP_cons, AdmitTriggerCommand.consumption]

theorem admissions_of_accepts (h : AcceptsTrigger s builder cmd t recorded) :
    recorded.admissions = builder.admissions ++ [cmd.recordFor .allowed] := by
  rcases BuilderTables.insertPolicyOutcome_eq_ok h.records with ⟨hstored, _⟩ |
    ⟨outcomes, hinsert, rfl⟩
  · exact absurd (h.fresh.symm.trans hstored) (by simp)
  · have hrows : outcomes.rows = builder.policyOutcomes.rows ++ [cmd.recordFor .allowed] :=
      (Table.insert?_eq_some.mp hinsert).2
    have hadmits : (cmd.recordFor .allowed).admits := ⟨rfl, rfl⟩
    simp [BuilderTables.admissions, hrows, hadmits]

/-- A trigger that is let in is counted once, in a bucket that had room. -/
theorem accepts (h : BudgetKept s builder) (haccepts : AcceptsTrigger s builder cmd t recorded) :
    BudgetKept t recorded := by
  have hpolicies : recorded.policies = builder.policies := by
    have hsame := BuilderTables.SameDrafting.of_insertPolicyOutcome haccepts.records
    rw [hsame]
  refine ⟨fun p => ?_, fun c hc => ?_, ?_⟩
  · rw [AdmissionTables.total_countBucket haccepts.counters rfl, h.counted,
      consumed_of_accepts haccepts]
  · rw [hpolicies]
    rcases AdmissionTables.find?_countBucket haccepts.counters c hc with ⟨hold, _⟩ |
      ⟨hbucket, hcount⟩
    · exact h.limited c hold
    · refine ⟨cmd.policy, audit_of_active haccepts.active, ?_, ?_⟩
      · rw [hbucket]
        exact ⟨rfl, rfl⟩
      · rw [hcount]
        exact haccepts.room
  · rw [admissions_of_accepts haccepts, (Table.insert?_eq_some.mp haccepts.consumptions).2]
    exact List.rel_append h.lockstep (.cons ⟨rfl, rfl, rfl, rfl, rfl⟩ .nil)

theorem keeps_of_refused {outcome : PolicyOutcomeKind} (houtcome : outcome ≠ .allowed)
    (h : builder.insertPolicyOutcome (cmd.recordFor outcome) = .ok recorded) :
    builder.Keeps (recorded.stopFor cmd outcome) := by
  have hsame := (BuilderTables.SameDrafting.of_insertPolicyOutcome h).stopFor cmd outcome
  have hadmissions := BuilderTables.admissions_insertPolicyOutcome h fun hadmits =>
    houtcome hadmits.2
  refine ⟨fun a ha => ?_, ?_⟩
  · rw [hsame]
    exact ha
  · rw [← hadmissions, BuilderTables.stopFor]
    split <;> rfl

theorem admits (h : BudgetKept s builder) (hadmits : AdmitsTrigger s builder cmd admission t recorded) :
    BudgetKept t recorded := by
  cases hadmits with
  | replayed => exact h
  | refused _ houtcome _ hcounters hconsumptions _ hinsert =>
    exact (h.keeps (keeps_of_refused houtcome hinsert)).congr hcounters hconsumptions
  | accepted haccepts => exact h.accepts haccepts

end BudgetKept

-- ════════════════════════════════════════════════════════════════════════
-- Runs
-- ════════════════════════════════════════════════════════════════════════

/-- Without a colleague nothing is let in. -/
theorem not_acceptsTrigger_empty {s t : AdmissionTables} {cmd : AdmitTriggerCommand}
    {recorded : BuilderTables} : ¬AcceptsTrigger s .empty cmd t recorded := by
  intro h
  have hactive := h.active
  simp [BuilderTables.getActivePolicy, BuilderTables.empty, Records.empty, Table.empty] at hactive

theorem budgetKept_of_move {s t : StudioTables} {a : StudioAction} (h : s.Move ports zones a t)
    (hs : Lineage ports s.governance) (hkept : BudgetKept s.admission s.configuration) :
    BudgetKept t.admission t.configuration := by
  cases h with
  | frame hgovernance hadmission =>
    rw [StudioTables.configuration, hgovernance, hadmission]
    exact hkept
  | governance hexec => exact hkept.keeps (keeps_of_governance hexec hs)
  | @admitted cmd results admission admitted configuration hadmit =>
    have hadmits := admitTrigger_eq_ok hadmit
    cases hc : s.governance.store.colleague with
    | none =>
      have hempty : s.configuration = .empty := StudioTables.configuration_of_none hc
      have hsame : BudgetKept admitted s.configuration := by
        rw [hempty] at hadmits hkept ⊢
        cases hadmits with
        | replayed => exact hkept
        | refused _ _ _ hcounters hconsumptions => exact hkept.congr hcounters hconsumptions
        | accepted haccepts => exact absurd haccepts not_acceptsTrigger_empty
      have hframe := StudioTables.withConfiguration_of_none
        (s := { s with admission := admitted }) hc configuration
      rw [hframe]
      exact hsame
    | some c =>
      have hframe := StudioTables.configuration_withConfiguration
        (s := { s with admission := admitted }) hc configuration
      rw [hframe]
      exact hkept.admits hadmits
  | @record _ record configuration hrecord hinsert =>
    cases hc : s.governance.store.colleague with
    | none =>
      rw [StudioTables.withConfiguration_of_none hc]
      exact hkept
    | some c =>
      rw [StudioTables.configuration_withConfiguration hc]
      have hsame := BuilderTables.SameDrafting.of_insertPolicyOutcome hinsert
      refine hkept.keeps ⟨fun a ha => ?_, BuilderTables.admissions_insertPolicyOutcome hinsert hrecord⟩
      rw [hsame]
      exact ha

theorem budgetKept_of_reachable {s : StudioState} (h : (studio ports zones).Reachable s) :
    BudgetKept s.tables.admission s.configuration := by
  let kept (s : StudioState) : Prop :=
    Lineage ports s.tables.governance ∧ BudgetKept s.tables.admission s.configuration
  have hboth : kept s := by
    refine h.invariant ?_ ?_
    · rintro _ rfl
      exact ⟨lineage_initial ports, .empty _ rfl⟩
    · rintro s a t ⟨hlineage, hkept⟩ hstep
      have hmove := StudioState.move_of_exec hstep
      exact ⟨hmove.lineage hlineage, budgetKept_of_move hmove hlineage hkept⟩
  exact hboth.2

namespace StudioState

variable {s : StudioState} {cmd : AdmitTriggerCommand} {admission : PolicyAdmission}
  {admitted : AdmissionTables} {configuration : BuilderTables}

/-- What is refused or returned again consumes nothing. -/
theorem consumes_nothing (h : s.admissionOf zones cmd = .ok (admission, admitted, configuration))
    (hnothing : admission.accepted = false ∨
      s.configuration.policyOutcomes.find? (.given cmd.outcomeId) ≠ none) :
    admitted.counters = s.tables.admission.counters ∧
      admitted.consumptions = s.tables.admission.consumptions := by
  cases admitTrigger_eq_ok h with
  | replayed => exact ⟨rfl, rfl⟩
  | refused _ _ _ hcounters hconsumptions => exact ⟨hcounters, hconsumptions⟩
  | accepted haccepts haccepted =>
    rcases hnothing with hrefused | hreplayed
    · exact absurd (hrefused.symm.trans haccepted) (by simp)
    · exact absurd haccepts.fresh hreplayed

/-- The count that an admission reports is within the limit exactly when the
    policy revision left room over all of its buckets. -/
theorem reported_le_limit_iff (hkept : BudgetKept s.tables.admission s.configuration)
    (h : s.admissionOf zones cmd = .ok (admission, admitted, configuration))
    (haccepted : admission.accepted = true) :
    admission.budgetCount ≤ admission.budgetLimit ↔ LeavesRoom s cmd := by
  have hadmits := admitTrigger_eq_ok h
  cases hadmits with
  | replayed hrecord hadmission =>
    rw [hadmission, LeavesRoom, if_pos (by rw [hrecord]; rfl)]
    show s.tables.admission.budgetCount cmd.policy ≤ _ ↔ _
    rw [AdmissionTables.budgetCount_eq_total, hkept.counted]
    rfl
  | refused _ _ hrefused => exact absurd (hrefused.symm.trans haccepted) (by simp)
  | accepted haccepts _ hcount hlimit =>
    have hbucket : cmd.bucket.IsOf cmd.policy := ⟨rfl, rfl⟩
    have htotal := (hkept.accepts haccepts).counted fun b => decide (b.IsOf cmd.policy)
    rw [BudgetKept.consumed_of_accepts haccepts, if_pos (decide_eq_true hbucket)] at htotal
    rw [hcount, hlimit, AdmissionTables.budgetCount_eq_total, LeavesRoom,
      if_neg (by rw [haccepts.fresh]; simp)]
    show admitted.total (fun b => decide (b.IsOf cmd.policy)) ≤ _ ↔ _
    rw [htotal]
    exact Nat.succ_le_iff

end StudioState

/-- Every state of a run keeps the wake budget, and every admission in it
    reports a count within the limit exactly when its policy leaves room. -/
theorem wake_budget_accounted {s : StudioState} (h : (studio ports zones).Reachable s) :
    (∀ bucket, s.tables.admission.bucketCount bucket =
      s.tables.admission.consumptions.rows.countP fun c => decide (c.bucket = bucket)) ∧
    (∀ policy, auditRecord policy ∈ s.configuration.policies.audit → ∀ bucket,
      bucket.IsOf policy → s.tables.admission.bucketCount bucket ≤ policy.wakeBudget.limit) ∧
    (s.tables.admission.consumptions.rows.map BudgetConsumption.occurrenceKey).Nodup ∧
    List.Forall₂ BudgetConsumption.With s.tables.admission.consumptions.rows
      s.configuration.admissions ∧
    ∀ cmd admission admitted configuration,
      s.admissionOf zones cmd = .ok (admission, admitted, configuration) →
      (admission.accepted = false ∨
          s.configuration.policyOutcomes.find? (.given cmd.outcomeId) ≠ none →
        admitted.counters = s.tables.admission.counters ∧
          admitted.consumptions = s.tables.admission.consumptions) ∧
      (admission.accepted = true →
        (admission.budgetCount ≤ admission.budgetLimit ↔ LeavesRoom s cmd)) := by
  have hkept := budgetKept_of_reachable h
  refine ⟨fun bucket => ?_, fun policy hpolicy bucket hbucket => ?_,
    s.tables.admission.consumptions.nodup, hkept.lockstep,
    fun cmd admission admitted configuration hadmit =>
      ⟨StudioState.consumes_nothing hadmit, StudioState.reported_le_limit_iff hkept hadmit⟩⟩
  · rw [AdmissionTables.bucketCount_eq_total, hkept.counted]
    rfl
  · unfold AdmissionTables.bucketCount
    cases hcounter : s.tables.admission.counters.find? bucket with
    | none => exact Nat.zero_le _
    | some counter =>
      obtain ⟨stored, hstored, hof, hcount⟩ := hkept.limited counter (Table.mem_of_find? hcounter)
      rw [show counter.bucket = bucket from Table.key_of_find? hcounter] at hof
      have hsame : auditRecord stored = auditRecord policy :=
        Table.eq_of_key_eq hstored hpolicy
          (Prod.ext (hof.1.symm.trans hbucket.1) (hof.2.symm.trans hbucket.2))
      have hpolicies : stored = policy := congrArg AuditRecord.safeProjection hsame
      rw [← hpolicies]
      exact hcount

-- ════════════════════════════════════════════════════════════════════════
-- Two buckets
-- ════════════════════════════════════════════════════════════════════════

/-- An event for the sample colleague, for concrete runs. -/
def sampleTrigger (policy : ColleaguePolicy) (sourceId : StableId) (occurredAt : Instant) :
    AdmitTriggerCommand where
  policy := policy
  triggerClass := .event
  sourceId := sourceId
  occurrenceKey := sourceId
  actor := sampleWorker
  correlationId := sourceId
  causationId := sourceId
  outcomeId := sourceId
  escalationId := sourceId
  occurredAt := occurredAt

/-- The admission of an event under the active policy. -/
def sampleAdmit (sourceId : StableId) (occurredAt : Instant) (s : StudioState) : StudioAction :=
  match s.configuration.getActivePolicy with
  | .ok (some policy) => .admitTrigger (sampleTrigger policy sourceId occurredAt)
  | _ => .abandonReview 0

/-- A policy with one wake a day, and the event of a first day. -/
def sampleFirstWake : List (StudioState → StudioAction) :=
  samplePoliced { PolicyEdit.none with wakeLimit := some 1 } ++
    [sampleAdmit (stableId "event-1") 200]

/-- The event of another day is let in with a count above the limit. -/
def exceedsLimit (s : StudioState) (policy : ColleaguePolicy) : Bool :=
  (s.admissionOf sampleZones (sampleTrigger policy (stableId "event-2") (microsPerDay + 200))).toOption.any
    fun r => r.1.accepted && decide (r.1.budgetLimit < r.1.budgetCount)

set_option maxRecDepth 8000 in
theorem wake_budget_accounted_first_wake :
    ∃ s, (studio samplePorts sampleZones).Reachable s ∧
      s.tables.admission.consumptions.rows.length = 1 ∧
      (∀ bucket, s.tables.admission.bucketCount bucket =
        s.tables.admission.consumptions.rows.countP fun c => decide (c.bucket = bucket)) ∧
      List.Forall₂ BudgetConsumption.With s.tables.admission.consumptions.rows
        s.configuration.admissions := by
  obtain ⟨tr, s, hpath, hp⟩ := exists_studio_path samplePorts sampleZones sampleFirstWake
    (fun _ s => decide (s.tables.admission.consumptions.rows.length = 1)) (by decide +kernel)
  have hreachable := hpath.reachable (.init rfl)
  obtain ⟨hcounted, _, _, hlockstep, _⟩ := wake_budget_accounted hreachable
  exact ⟨s, hreachable, of_decide_eq_true hp, hcounted, hlockstep⟩

set_option maxRecDepth 8000 in
/-- A trigger can be let in with a reported count above the limit. -/
theorem wake_budget_accounted_two_buckets :
    ¬∀ s, (studio samplePorts sampleZones).Reachable s →
      ∀ cmd admission admitted configuration,
        s.admissionOf sampleZones cmd = .ok (admission, admitted, configuration) →
        admission.accepted = true → admission.budgetCount ≤ admission.budgetLimit := by
  intro hclaim
  obtain ⟨tr, s, hpath, hp⟩ := exists_studio_path samplePorts sampleZones sampleFirstWake
    (fun _ s => s.configuration.policies.domain.rows.any (exceedsLimit s)) (by decide +kernel)
  simp only [List.any_eq_true, exceedsLimit, Option.any_eq_true, toOption_eq_some, Bool.and_eq_true,
    decide_eq_true_eq] at hp
  obtain ⟨policy, _, ⟨admission, admitted, configuration⟩, hadmit, haccepted, hexceeds⟩ := hp
  have hle := hclaim s (hpath.reachable (.init rfl)) _ _ _ _ hadmit haccepted
  exact absurd hle (Nat.not_le.mpr hexceeds)

end DigitalColleagues
