import DigitalColleagues.Studio.Processes
import DigitalColleagues.Studio.Resume
import DigitalColleagues.Studio.Submission

/-!
# Triggers and their admission

A bound source was admitted by a call of `submit_trigger` before it was ingested.
The outcome of that admission may be one that an earlier call left, for the policy
of its time.

## Main definitions

- `AgendaTables.SameSources` — what every other step than an ingestion keeps
- `Submits` — the steps that calls of `submit_trigger` take
- `SamePolicyReplays` — the condition on admissions that return a stored outcome
- `AdmittedUnder` — the admission that a bound source needs
- `SourcesAdmitted` — the invariant
-/

namespace DigitalColleagues

open Keyed

-- ════════════════════════════════════════════════════════════════════════
-- Sources of a run
-- ════════════════════════════════════════════════════════════════════════

/-- Tables with the same events and timer occurrences. -/
structure AgendaTables.SameSources (s t : AgendaTables) : Prop where
  inputEvents : t.inputEvents = s.inputEvents
  timerOccurrences : t.timerOccurrences = s.timerOccurrences

/-- The actions that ingest a source. -/
def AgendaAction.ingests : AgendaAction → Prop
  | .ingestEvent _ _ _ => True
  | .ingestTimer _ _ _ => True
  | _ => False

theorem AgendaSide.sameSources_of_exec {s t : AgendaSide} {a : AgendaAction}
    (h : s.exec a = .ok t) (ha : ¬a.ingests) : s.tables.SameSources t.tables := by
  cases a with
  | ingestEvent => exact absurd trivial ha
  | ingestTimer => exact absurd trivial ha
  | claimTrigger owner now leaseUntil =>
    simp only [exec] at h
    split at h
    · obtain rfl := Except.ok.inj h
      exact ⟨rfl, rfl⟩
    · rename_i claim tables hclaim
      obtain rfl := Except.ok.inj h
      obtain ⟨type, row, _, _, _, rfl⟩ := AgendaTables.claimTrigger_eq_some hclaim
      exact ⟨AgendaTables.setTriggerTable_inputEvents _ _ _,
        AgendaTables.setTriggerTable_timerOccurrences _ _ _⟩
  | materializeAgenda claim wakeCycleId agendaItemId actor occurredAt =>
    simp only [exec, bind_eq_ok, pure_eq_ok, Prod.exists] at h
    obtain ⟨_, _, _, _, tables, hmaterialize, rfl⟩ := h
    obtain ⟨_, _, _, _, _, _, _, _, _, rfl, _⟩ := AgendaTables.materializeAgenda_eq_ok hmaterialize
    exact ⟨AgendaTables.setTriggerTable_inputEvents _ _ _,
      AgendaTables.setTriggerTable_timerOccurrences _ _ _⟩
  | claimAgenda owner now leaseUntil =>
    simp only [exec, bind_eq_ok, pure_eq_ok, Prod.exists] at h
    obtain ⟨_, tables, hclaim, rfl⟩ := h
    rcases AgendaTables.claimAgenda_eq_ok hclaim with ⟨_, _, rfl⟩ | ⟨_, _, _, _, _, _, _, _, _, rfl⟩
    · exact ⟨rfl, rfl⟩
    · exact ⟨rfl, rfl⟩
  | releaseAgenda claim =>
    simp only [exec, bind_eq_ok, pure_eq_ok] at h
    obtain ⟨_, _, tables, hrelease, rfl⟩ := h
    obtain ⟨_, _, _, _, _, _, _, _, rfl⟩ := AgendaTables.releaseAgenda_eq_ok hrelease
    exact ⟨rfl, rfl⟩

/-- The runtime actions that ingest a source. -/
def RuntimeAction.ingests {ε : Type} : RuntimeAction ε → Prop
  | .agenda action => action.ingests
  | _ => False

theorem sameSources_of_runtime {ε : Type} {hooks : StoreHooks ε} {s t : RuntimeState ε}
    {a : RuntimeAction ε} (h : (runtime hooks).step s a t) (ha : ¬a.ingests) :
    s.agenda.tables.SameSources t.agenda.tables := by
  have hexec : s.exec hooks a = .ok t := h
  cases a with
  | agenda action =>
    simp only [RuntimeState.exec, bind_eq_ok, pure_eq_ok] at hexec
    obtain ⟨agenda, hagenda, rfl⟩ := hexec
    exact AgendaSide.sameSources_of_exec hagenda ha
  | effect action =>
    simp only [RuntimeState.exec, bind_eq_ok, pure_eq_ok] at hexec
    obtain ⟨_, _, rfl⟩ := hexec
    exact ⟨rfl, rfl⟩
  | commitSemanticDecision claim semantic =>
    simp only [RuntimeState.exec, bind_eq_ok, pure_eq_ok] at hexec
    obtain ⟨_, _, store, hcommit, rfl⟩ := hexec
    obtain ⟨_, _, _, _, _, _, _, _, _, _, _, hcheckpoint, rfl⟩ :=
      RuntimeStore.commitSemanticDecision_eq_ok hooks hcommit
    obtain ⟨_, _, _, _, _, _, _, _, _, _, rfl⟩ := AgendaTables.checkpointDecision_eq_ok hcheckpoint
    exact ⟨rfl, rfl⟩
  | commitApprovalAndAttempt cmd =>
    simp only [RuntimeState.exec, RuntimeStore.commitApprovalAndAttempt, bind_eq_ok, pure_eq_ok,
      Prod.exists, Prod.mk.injEq] at hexec
    obtain ⟨_, _, ⟨_, _, _, _, _, rfl⟩, rfl⟩ := hexec
    exact ⟨rfl, rfl⟩
  | loadDispatchBundle claim mandateId =>
    simp only [RuntimeState.exec, bind_eq_ok, pure_eq_ok] at hexec
    obtain ⟨_, _, _, _, rfl⟩ := hexec
    exact ⟨rfl, rfl⟩
  | environment rest =>
    obtain rfl := Except.ok.inj hexec
    exact ⟨rfl, rfl⟩

/-- The policy binding of a stored source. -/
def StudioState.sourcePolicy (s : StudioState) :
    DurableTriggerKind → StableId → Option (Option PolicyBinding)
  | .event, id => (s.runtime.agenda.tables.inputEvents.find? id).map InputEvent.policy
  | .timer, id => (s.runtime.agenda.tables.timerOccurrences.find? id).map TimerOccurrence.policy

/-- Sources stay, and a new one was admitted under its policy. -/
structure NewSourcesAdmitted (s t : StudioState) : Prop where
  kept : ∀ triggerClass id policy, s.sourcePolicy triggerClass id = some policy →
    t.sourcePolicy triggerClass id = some policy
  admitted : ∀ triggerClass id policy, t.sourcePolicy triggerClass id = some policy →
    s.sourcePolicy triggerClass id = some policy ∨
      s.sourcePolicy triggerClass id = none ∧ s.bindingAdmitted triggerClass id policy

theorem NewSourcesAdmitted.of_same {s t : StudioState}
    (h : s.runtime.agenda.tables.SameSources t.runtime.agenda.tables) :
    NewSourcesAdmitted s t := by
  have hsame : ∀ triggerClass id, t.sourcePolicy triggerClass id =
      s.sourcePolicy triggerClass id := by
    intro triggerClass id
    cases triggerClass with
    | event => rw [StudioState.sourcePolicy, StudioState.sourcePolicy, h.inputEvents]
    | timer => rw [StudioState.sourcePolicy, StudioState.sourcePolicy, h.timerOccurrences]
  exact ⟨fun c id p hp => (hsame c id).trans hp, fun c id p hp => .inl ((hsame c id).symm.trans hp)⟩

/-- The bindings of the records with a new one: it is new under its key, and the
    others stay. -/
theorem policy_of_insertRecord {ρ : Type} [DurableRecord ρ] {records records' : Records ρ}
    {source : ρ} (h : records.insertRecord source = .ok records')
    (policyOf : ρ → Option PolicyBinding) (id : StableId) (policy : Option PolicyBinding) :
    ((records.find? id).map policyOf = some policy →
      (records'.find? id).map policyOf = some policy) ∧
    ((records'.find? id).map policyOf = some policy →
      (records.find? id).map policyOf = some policy ∨
        (records.find? id).map policyOf = none ∧ id = key source ∧ policyOf source = policy) := by
  have hfind := Records.find?_insertRecord h id
  by_cases hid : id = key source
  · rw [if_pos hid] at hfind
    have hnone : records.find? id = none := by
      rw [hid]
      exact (Table.insert?_eq_some.mp (Records.insert?_of_insertRecord h)).1
    rw [hfind, hnone]
    refine ⟨fun hp => absurd hp (by simp), fun hp => .inr ⟨rfl, hid, Option.some.inj hp⟩⟩
  · rw [if_neg hid] at hfind
    rw [hfind]
    exact ⟨fun hp => hp, .inl⟩

theorem newSourcesAdmitted_of_exec {ports : GovernancePorts} {zones : TimeZones}
    {s t : StudioState} {a : StudioAction} (h : s.exec ports zones a = .ok t) :
    NewSourcesAdmitted s t := by
  have hruntime := StudioState.runtime_of_exec h
  cases a with
  | ingestEvent event idempotencyKey triggerId =>
    simp only [StudioState.exec, bind_eq_ok, require_eq_ok, exists_const] at h
    obtain ⟨hadmitted, _⟩ := h
    have hexec : s.runtime.exec studioHooks (.agenda (.ingestEvent event idempotencyKey
      triggerId)) = .ok t.runtime := hruntime
    simp only [RuntimeState.exec, AgendaSide.exec, AgendaTables.ingestEvent, bind_eq_ok,
      pure_eq_ok, Prod.exists, Prod.mk.injEq] at hexec
    obtain ⟨agenda, ⟨_, _, tables, ⟨done, hdone, _, rfl⟩, rfl⟩, ht⟩ := hexec
    rcases ingestSource_eq_ok hdone with ⟨hrecords, _, _⟩ | ⟨hrecords, _, _⟩
    · exact .of_same ⟨by rw [← ht]; exact hrecords, by rw [← ht]⟩
    · have htimers : t.runtime.agenda.tables.timerOccurrences =
          s.runtime.agenda.tables.timerOccurrences := by rw [← ht]
      have hevents : t.runtime.agenda.tables.inputEvents = done.records := by rw [← ht]
      refine ⟨fun triggerClass id policy hp => ?_, fun triggerClass id policy hp => ?_⟩
      · cases triggerClass with
        | event =>
          rw [StudioState.sourcePolicy, hevents]
          exact (policy_of_insertRecord hrecords _ id policy).1 hp
        | timer =>
          rw [StudioState.sourcePolicy, htimers]
          exact hp
      · cases triggerClass with
        | event =>
          rw [StudioState.sourcePolicy, hevents] at hp
          rcases (policy_of_insertRecord hrecords _ id policy).2 hp with hold | ⟨hnone, rfl, rfl⟩
          · exact .inl hold
          · exact .inr ⟨hnone, hadmitted⟩
        | timer =>
          rw [StudioState.sourcePolicy, htimers] at hp
          exact .inl hp
  | ingestTimer occurrence idempotencyKey triggerId =>
    simp only [StudioState.exec, bind_eq_ok, require_eq_ok, exists_const] at h
    obtain ⟨hadmitted, _⟩ := h
    have hexec : s.runtime.exec studioHooks (.agenda (.ingestTimer occurrence idempotencyKey
      triggerId)) = .ok t.runtime := hruntime
    simp only [RuntimeState.exec, AgendaSide.exec, AgendaTables.ingestTimer, bind_eq_ok,
      pure_eq_ok, Prod.exists, Prod.mk.injEq] at hexec
    obtain ⟨agenda, ⟨_, _, tables, ⟨done, hdone, _, rfl⟩, rfl⟩, ht⟩ := hexec
    rcases ingestSource_eq_ok hdone with ⟨hrecords, _, _⟩ | ⟨hrecords, _, _⟩
    · exact .of_same ⟨by rw [← ht], by rw [← ht]; exact hrecords⟩
    · have htimers : t.runtime.agenda.tables.timerOccurrences = done.records := by rw [← ht]
      have hevents : t.runtime.agenda.tables.inputEvents =
          s.runtime.agenda.tables.inputEvents := by rw [← ht]
      refine ⟨fun triggerClass id policy hp => ?_, fun triggerClass id policy hp => ?_⟩
      · cases triggerClass with
        | event =>
          rw [StudioState.sourcePolicy, hevents]
          exact hp
        | timer =>
          rw [StudioState.sourcePolicy, htimers]
          exact (policy_of_insertRecord hrecords _ id policy).1 hp
      · cases triggerClass with
        | event =>
          rw [StudioState.sourcePolicy, hevents] at hp
          exact .inl hp
        | timer =>
          rw [StudioState.sourcePolicy, htimers] at hp
          rcases (policy_of_insertRecord hrecords _ id policy).2 hp with hold | ⟨hnone, rfl, rfl⟩
          · exact .inl hold
          · exact .inr ⟨hnone, hadmitted⟩
  | agenda action =>
    refine .of_same (sameSources_of_runtime hruntime ?_)
    cases action with
    | ingestEvent => exact absurd h (by simp [StudioState.exec, StudioState.execAgenda,
        StudioState.otherwise])
    | ingestTimer => exact absurd h (by simp [StudioState.exec, StudioState.execAgenda,
        StudioState.otherwise])
    | _ => exact not_false
  | startDispatch i occurredAt =>
    refine .of_same (sameSources_of_runtime hruntime ?_)
    rw [StudioState.runtimeAction]
    split <;> exact not_false
  | _ => exact .of_same (sameSources_of_runtime hruntime not_false)

-- ════════════════════════════════════════════════════════════════════════
-- Runs of submissions
-- ════════════════════════════════════════════════════════════════════════

/-- Triggers are admitted and ingested as calls of `submit_trigger` do it; a call
    may end after any of its transactions. -/
def Submits (rports : RuntimePorts) : StudioAction → Prop
  | .admitTrigger cmd => ∃ r policy now, cmd = TriggerSubmission.admission rports r policy now
  | .ingestEvent event idempotencyKey triggerId => ∃ r work policy now,
      event = TriggerSubmission.event rports r work policy now ∧
      idempotencyKey = r.idempotencyKey ∧ triggerId = r.eventTriggerId rports
  | .ingestTimer occurrence idempotencyKey triggerId => ∃ r work service policy dueAt now,
      occurrence = TriggerSubmission.occurrence rports r work service policy dueAt now ∧
      idempotencyKey = r.idempotencyKey ∧ triggerId = r.timerTriggerId rports
  | _ => True

/-- An outcome admitted a source under a policy revision. -/
def PolicyEnforcementRecord.AdmitsUnder (record : PolicyEnforcementRecord) (id : StableId)
    (binding : PolicyBinding) : Prop :=
  record.sourceId = some id ∧ record.policyId = binding.policyId ∧
    record.policyRevision = binding.policyRevision

instance (record : PolicyEnforcementRecord) (id : StableId) (binding : PolicyBinding) :
    Decidable (record.AdmitsUnder id binding) :=
  inferInstanceAs (Decidable (_ ∧ _))

/-- An admission that returns a stored outcome returns the one of its own source
    and policy revision, unless the source is stored already. -/
def SamePolicyReplays (s : StudioState) : StudioAction → Prop
  | .admitTrigger cmd => s.sourcePolicy cmd.triggerClass cmd.sourceId ≠ none ∨
      ∀ record ∈ s.configuration.policyOutcomes.find? (.given cmd.outcomeId),
        record.outcome = .allowed → record.stage = .preWake ∧
          record.AdmitsUnder cmd.sourceId ⟨cmd.policy.policyId, cmd.policy.revision⟩
  | _ => True

instance (s : StudioState) (a : StudioAction) : Decidable (SamePolicyReplays s a) := by
  unfold SamePolicyReplays
  split <;> infer_instance

/-- An outcome that let the source in under the policy revision is recorded. -/
def AdmittedUnder (s : BuilderTables) (id : StableId) (binding : PolicyBinding) : Prop :=
  ∃ record ∈ s.admissions, record.AdmitsUnder id binding

instance (s : BuilderTables) (id : StableId) (binding : PolicyBinding) :
    Decidable (AdmittedUnder s id binding) :=
  inferInstanceAs (Decidable (∃ record ∈ s.admissions, record.AdmitsUnder id binding))

/-- The budget consumptions of a source under a policy revision. -/
def AdmissionTables.consumptionsOf (s : AdmissionTables) (id : StableId)
    (binding : PolicyBinding) : ℕ :=
  s.consumptions.rows.countP fun c => Decidable.decide (c.sourceId = id ∧
    c.bucket.policyId = binding.policyId ∧ c.bucket.policyRevision = binding.policyRevision)

/-- Bound sources were admitted, those that calls may still ingest too, and the
    outcomes of admissions are named after their sources. -/
structure SourcesAdmitted (rports : RuntimePorts) (s : StudioState) : Prop where
  stored : ∀ triggerClass id binding, s.sourcePolicy triggerClass id = some (some binding) →
    AdmittedUnder s.configuration id binding
  pending : ∀ cmd ∈ s.admitted, s.sourcePolicy cmd.triggerClass cmd.sourceId ≠ none ∨
    AdmittedUnder s.configuration cmd.sourceId ⟨cmd.policy.policyId, cmd.policy.revision⟩
  named : ∀ record ∈ s.configuration.admissions, ∃ id, record.sourceId = some id ∧
    record.outcomeId = .given (rports.derive "policy-outcome" [id.val, "pre-wake"])

variable {ports : GovernancePorts} {zones : TimeZones} {rports : RuntimePorts}

/-- Only an admission that lets its trigger in adds an admitting outcome. -/
theorem admissions_of_move {s t : StudioTables} {a : StudioAction} (h : s.Move ports zones a t)
    (hs : Lineage ports s.governance) :
    t.configuration.admissions = s.configuration.admissions ∨
      ∃ cmd, a = .admitTrigger cmd ∧ t.configuration.admissions =
        s.configuration.admissions ++ [cmd.recordFor .allowed] := by
  cases h with
  | frame hgovernance =>
    rw [StudioTables.configuration, hgovernance]
    exact .inl rfl
  | governance hexec => exact .inl (keeps_of_governance hexec hs).admissions
  | @admitted cmd results admission admitted configuration hadmit =>
    have hadmits := admitTrigger_eq_ok hadmit
    cases hc : s.governance.store.colleague with
    | none =>
      have hframe := StudioTables.withConfiguration_of_none
        (s := { s with admission := admitted }) hc configuration
      rw [hframe]
      exact .inl rfl
    | some c =>
      have hframe := StudioTables.configuration_withConfiguration
        (s := { s with admission := admitted }) hc configuration
      rw [hframe]
      cases hadmits with
      | replayed => exact .inl rfl
      | refused _ houtcome _ _ _ _ hinsert =>
        exact .inl (BudgetKept.keeps_of_refused houtcome hinsert).admissions
      | accepted haccepts => exact .inr ⟨cmd, rfl, BudgetKept.admissions_of_accepts haccepts⟩
  | record hrecord hinsert =>
    cases hc : s.governance.store.colleague with
    | none =>
      rw [StudioTables.withConfiguration_of_none hc]
      exact .inl rfl
    | some c =>
      rw [StudioTables.configuration_withConfiguration hc]
      exact .inl (BuilderTables.admissions_insertPolicyOutcome hinsert hrecord)

/-- An admission that accepts found or left an outcome that allows the trigger. -/
theorem allowed_of_accepted {s : StudioState} {t : StudioTables} {cmd : AdmitTriggerCommand}
    {admission : PolicyAdmission} {admitted : AdmissionTables} {configuration : BuilderTables}
    (h : s.admissionOf zones cmd = .ok (admission, admitted, configuration))
    (haccepted : admission.accepted = true)
    (ht : t = { s.tables with admission := admitted }.withConfiguration configuration) :
    (∃ record, s.configuration.policyOutcomes.find? (.given cmd.outcomeId) = some record ∧
        record.outcome = .allowed) ∨ cmd.recordFor .allowed ∈ t.configuration.admissions := by
  cases admitTrigger_eq_ok h with
  | replayed hrecord hadmission =>
    rw [hadmission] at haccepted
    exact .inl ⟨_, hrecord, of_decide_eq_true haccepted⟩
  | refused _ _ hrefused => exact absurd (hrefused.symm.trans haccepted) (by simp)
  | accepted haccepts =>
    right
    cases hc : s.tables.governance.store.colleague with
    | none =>
      have hempty : s.configuration = .empty := StudioTables.configuration_of_none hc
      rw [hempty] at haccepts
      exact absurd haccepts not_acceptsTrigger_empty
    | some c =>
      have hframe := StudioTables.configuration_withConfiguration
        (s := { s.tables with admission := admitted }) hc configuration
      rw [ht, hframe, BudgetKept.admissions_of_accepts haccepts]
      exact List.mem_append_right _ (List.mem_singleton_self _)

theorem NewSourcesAdmitted.ne_none {s t : StudioState} (h : NewSourcesAdmitted s t)
    {triggerClass : DurableTriggerKind} {id : StableId}
    (hs : s.sourcePolicy triggerClass id ≠ none) : t.sourcePolicy triggerClass id ≠ none := by
  obtain ⟨policy, hpolicy⟩ := Option.ne_none_iff_exists'.mp hs
  rw [h.kept _ _ _ hpolicy]
  simp

namespace SourcesAdmitted

theorem initial (rports : RuntimePorts) : SourcesAdmitted rports .initial where
  stored triggerClass id binding h := by
    cases triggerClass with
    | event => exact nomatch (show none = some (some binding) from h)
    | timer => exact nomatch (show none = some (some binding) from h)
  pending cmd h := absurd h List.not_mem_nil
  named record h := absurd h List.not_mem_nil

/-- A step of a submission that replays outcomes of its own policy only. -/
theorem step {s t : StudioState} {a : StudioAction} (hs : SourcesAdmitted rports s)
    (hlineage : Lineage ports s.tables.governance) (h : s.exec ports zones a = .ok t)
    (hsubmits : Submits rports a) (hsame : SamePolicyReplays s a) : SourcesAdmitted rports t := by
  have hadmissions := admissions_of_move (StudioState.move_of_exec h) hlineage
  have hsources := newSourcesAdmitted_of_exec h
  have hkept : ∀ {id binding}, AdmittedUnder s.configuration id binding →
      AdmittedUnder t.configuration id binding := by
    rintro id binding ⟨record, hrecord, hunder⟩
    refine ⟨record, ?_, hunder⟩
    rcases hadmissions with heq | ⟨_, _, heq⟩
    · exact heq ▸ hrecord
    · exact heq ▸ List.mem_append_left _ hrecord
  have hopen : ∀ cmd ∈ s.admitted, t.sourcePolicy cmd.triggerClass cmd.sourceId ≠ none ∨
      AdmittedUnder t.configuration cmd.sourceId ⟨cmd.policy.policyId, cmd.policy.revision⟩ :=
    fun cmd hcmd => (hs.pending cmd hcmd).imp hsources.ne_none hkept
  refine ⟨fun triggerClass id binding hp => ?_, fun cmd hcmd => ?_, fun record hrecord => ?_⟩
  · rcases hsources.admitted _ _ _ hp with hold | ⟨hnone, hbound⟩
    · exact hkept (hs.stored _ _ _ hold)
    · obtain ⟨cmd, hcmd, rfl, rfl, rfl⟩ := hbound binding rfl
      rcases hs.pending cmd hcmd with hstored | hunder
      · exact absurd hnone hstored
      · exact hkept hunder
  · cases StudioState.proceeds_of_exec h with
    | admitted hadmit haccepted htables hadmitted =>
      rw [hadmitted, List.mem_append, List.mem_singleton] at hcmd
      rcases hcmd with hcmd | rfl
      · exact hopen cmd hcmd
      · rcases allowed_of_accepted hadmit haccepted htables with ⟨record, hrecord, hallowed⟩ | hnew
        · rcases hsame with hstored | hreplay
          · exact .inl (hsources.ne_none hstored)
          · obtain ⟨hstage, hunder⟩ := hreplay record hrecord hallowed
            refine .inr (hkept ⟨record, ?_, hunder⟩)
            exact List.mem_filter.mpr ⟨Table.mem_of_find? hrecord,
              decide_eq_true ⟨hstage, hallowed⟩⟩
        · exact .inr ⟨_, hnew, rfl, rfl, rfl⟩
    | frame hadmitted => exact hopen cmd (hadmitted ▸ hcmd)
    | review _ _ hadmitted => exact hopen cmd (hadmitted ▸ hcmd)
    | reviewed _ _ _ hadmitted => exact hopen cmd (hadmitted ▸ hcmd)
    | decide hadmitted => exact hopen cmd (hadmitted ▸ hcmd)
    | load _ hadmitted => exact hopen cmd (hadmitted ▸ hcmd)
    | validate _ _ _ _ hadmitted => exact hopen cmd (hadmitted ▸ hcmd)
    | authorizePolicy _ _ _ hadmitted => exact hopen cmd (hadmitted ▸ hcmd)
    | authorizeRunState _ _ _ hadmitted => exact hopen cmd (hadmitted ▸ hcmd)
    | authorizeBinding _ _ _ hadmitted => exact hopen cmd (hadmitted ▸ hcmd)
    | authorizePrincipal _ _ _ hadmitted => exact hopen cmd (hadmitted ▸ hcmd)
    | authorizeMembership _ _ _ hadmitted => exact hopen cmd (hadmitted ▸ hcmd)
    | close hadmitted => exact hopen cmd (hadmitted ▸ hcmd)
  · rcases hadmissions with heq | ⟨cmd, rfl, heq⟩
    · exact hs.named record (heq ▸ hrecord)
    · rw [StudioState.configuration, heq, List.mem_append, List.mem_singleton] at hrecord
      rcases hrecord with hrecord | rfl
      · exact hs.named record hrecord
      · obtain ⟨r, policy, now, rfl⟩ := hsubmits
        exact ⟨_, rfl, rfl⟩

theorem of_reachable {s : StudioState}
    (h : ((studio ports zones).restrict fun s a =>
      Submits rports a ∧ SamePolicyReplays s a).Reachable s) : SourcesAdmitted rports s := by
  let kept (s : StudioState) : Prop :=
    Lineage ports s.tables.governance ∧ SourcesAdmitted rports s
  have hboth : kept s := by
    refine h.invariant ?_ ?_
    · rintro _ rfl
      exact ⟨lineage_initial ports, initial rports⟩
    · rintro s a t ⟨hlineage, hs⟩ ⟨hstep, hsubmits, hsame⟩
      exact ⟨lineage_studio_preserved ports zones _ _ _ hlineage hstep,
        hs.step hlineage hstep hsubmits hsame⟩
  exact hboth.2

/-- At most one outcome admits a source. -/
theorem eq_of_sourceId {s : StudioState} (hs : SourcesAdmitted rports s)
    {record other : PolicyEnforcementRecord} {id : StableId}
    (hrecord : record ∈ s.configuration.admissions) (hother : other ∈ s.configuration.admissions)
    (hid : record.sourceId = some id) (hid' : other.sourceId = some id) : other = record := by
  obtain ⟨i, hi, hkey⟩ := hs.named record hrecord
  obtain ⟨j, hj, hkey'⟩ := hs.named other hother
  obtain rfl : i = id := Option.some.inj (hi.symm.trans hid)
  obtain rfl : j = i := Option.some.inj (hj.symm.trans hid')
  exact Table.eq_of_key_eq (List.mem_filter.mp hother).1 (List.mem_filter.mp hrecord).1
    (hkey'.trans hkey.symm)

end SourcesAdmitted

/-- What qualifies in one list qualifies in the other, element by element. -/
theorem countP_eq_of_forall₂ {α β : Type*} {R : α → β → Prop} {l : List α} {l' : List β}
    (h : List.Forall₂ R l l') {p : α → Bool} {q : β → Bool}
    (hpq : ∀ a b, R a b → p a = q b) : l.countP p = l'.countP q := by
  induction h with
  | nil => rfl
  | cons hab _ ih => rw [List.countP_cons, List.countP_cons, ih, hpq _ _ hab]

theorem countP_eq_one {α : Type*} {l : List α} {a : α} {p : α → Bool} (hl : l.Nodup) (ha : a ∈ l)
    (hp : p a = true) (hunique : ∀ b ∈ l, p b = true → b = a) : l.countP p = 1 := by
  classical
  rw [← List.count_eq_one_of_mem hl ha, List.count]
  refine List.countP_congr fun b hb => ⟨fun hpb => ?_, fun hba => ?_⟩
  · exact beq_iff_eq.mpr (hunique b hb hpb)
  · rwa [eq_of_beq hba]

/-- In a run of submissions whose replayed admissions are those of their own
    policy, every bound source was admitted under its policy, and counted once. -/
theorem bound_sources_admitted {s : StudioState}
    (h : ((studio ports zones).restrict fun s a =>
      Submits rports a ∧ SamePolicyReplays s a).Reachable s)
    (triggerClass : DurableTriggerKind) (id : StableId) (binding : PolicyBinding)
    (hbound : s.sourcePolicy triggerClass id = some (some binding)) :
    AdmittedUnder s.configuration id binding ∧
      s.tables.admission.consumptionsOf id binding = 1 := by
  have hsources := SourcesAdmitted.of_reachable h
  obtain ⟨record, hrecord, hunder⟩ := hsources.stored _ _ _ hbound
  refine ⟨⟨record, hrecord, hunder⟩, ?_⟩
  have hcount : s.tables.admission.consumptionsOf id binding =
      s.configuration.admissions.countP fun r => decide (r.AdmitsUnder id binding) := by
    refine countP_eq_of_forall₂ (budgetKept_of_reachable h.of_restrict).lockstep fun c r hcr => ?_
    rw [decide_eq_decide, PolicyEnforcementRecord.AdmitsUnder, hcr.sourceId, hcr.policyId,
      hcr.policyRevision, Option.some.injEq]
  have hnodup : s.configuration.admissions.Nodup :=
    (List.Nodup.of_map _ s.configuration.policyOutcomes.nodup).filter _
  rw [hcount]
  refine countP_eq_one hnodup hrecord (decide_eq_true hunder) fun other hother hsame => ?_
  exact hsources.eq_of_sourceId hrecord hother hunder.1 (of_decide_eq_true hsame).1

-- ════════════════════════════════════════════════════════════════════════
-- Calls as runs
-- ════════════════════════════════════════════════════════════════════════

/-- The ingestion of a call is one step, where its source is admitted. -/
theorem P4RuntimeController.submitTrigger_step (ports : GovernancePorts) (zones : TimeZones)
    {s : StudioState} {r : TriggerSubmission}
    {policy : Option PolicyBinding} {clock : SubmissionClock} {id : StableId}
    {store : RuntimeStore StudioTables}
    (h : submitTrigger rports s.runtime.store r policy clock = .ok (id, store))
    (hadmitted : s.bindingAdmitted r.triggerClass (r.sourceId rports) policy) :
    ∃ a t, (studio ports zones).step s a t ∧ Submits rports a ∧ t.runtime.store = store := by
  simp only [submitTrigger, bind_eq_ok, orFail_eq_ok] at h
  obtain ⟨_, _, work, _, service, _, h⟩ := h
  split at h
  · rename_i hclass
    rw [hclass] at hadmitted
    simp only [bind_eq_ok, require_eq_ok, exists_const, pure_eq_ok, Prod.exists,
      Prod.mk.injEq] at h
    obtain ⟨_, source, accepted, agenda, hingest, _, rfl⟩ := h
    refine ⟨.ingestEvent (r.event rports work policy clock.occurredAt) r.idempotencyKey
      (r.eventTriggerId rports), { s with runtime := { s.runtime with agenda :=
        { s.runtime.agenda with tables := agenda } } }, ?_, ⟨r, work, policy, _, rfl, rfl, rfl⟩, rfl⟩
    show s.exec ports zones _ = _
    simp only [StudioState.exec, StudioState.execRuntime, RuntimeState.exec, AgendaSide.exec,
      bind_eq_ok, require_eq_ok, exists_const, pure_eq_ok, Prod.exists]
    exact ⟨hadmitted, _, ⟨_, ⟨_, _, _, hingest, rfl⟩, rfl⟩, rfl⟩
  · rename_i hclass
    rw [hclass] at hadmitted
    simp only [bind_eq_ok, require_eq_ok, exists_const, pure_eq_ok, Prod.exists,
      Prod.mk.injEq] at h
    obtain ⟨_, source, accepted, agenda, hingest, _, rfl⟩ := h
    refine ⟨.ingestTimer (r.occurrence rports work service policy clock.dueAt clock.occurredAt)
      r.idempotencyKey (r.timerTriggerId rports), { s with runtime := { s.runtime with agenda :=
        { s.runtime.agenda with tables := agenda } } }, ?_,
      ⟨r, work, service, policy, _, _, rfl, rfl, rfl⟩, rfl⟩
    show s.exec ports zones _ = _
    simp only [StudioState.exec, StudioState.execRuntime, RuntimeState.exec, AgendaSide.exec,
      bind_eq_ok, require_eq_ok, exists_const, pure_eq_ok, Prod.exists]
    exact ⟨hadmitted, _, ⟨_, ⟨_, _, _, hingest, rfl⟩, rfl⟩, rfl⟩

/-- A call of `submit_trigger` is a run of at most two steps. -/
theorem P5RuntimeController.submitTrigger_path {s : StudioState} {r : TriggerSubmission}
    {clock : SubmissionClock} {response : Outcome SubmissionResponse}
    {store : RuntimeStore StudioTables}
    (h : submitTrigger rports zones s.runtime.store r clock = .ok (response, store)) :
    ∃ tr t, ((studio ports zones).restrict fun _ a => Submits rports a).Path s tr t ∧
      t.runtime.store = store := by
  simp only [submitTrigger, bind_eq_ok] at h
  obtain ⟨active, _, h⟩ := h
  split at h
  · simp only [bind_eq_ok, pure_eq_ok, Prod.exists, Prod.mk.injEq] at h
    obtain ⟨id, _, hsubmit, _, rfl⟩ := h
    obtain ⟨a, t, hstep, hsubmits, ht⟩ := P4RuntimeController.submitTrigger_step ports zones
      hsubmit fun _ hp => absurd hp (by simp)
    exact ⟨_, t, .snoc .refl ⟨hstep, hsubmits⟩, ht⟩
  · rename_i policy _
    simp only [submitAdmitted, bind_eq_ok, Prod.exists] at h
    obtain ⟨admission, admitted, configuration, hadmit, h⟩ := h
    let cmd := r.admission rports policy clock.admittedAt
    let t : StudioState :=
      { s.withTables ({ s.tables with admission := admitted }.withConfiguration configuration) with
        admitted := if admission.accepted then s.admitted ++ [cmd] else s.admitted }
    have hstep : ((studio ports zones).restrict fun _ a => Submits rports a).step s
        (.admitTrigger cmd) t := by
      refine ⟨?_, r, policy, clock.admittedAt, rfl⟩
      show s.exec ports zones _ = _
      simp only [StudioState.exec, bind_eq_ok, pure_eq_ok, Prod.exists]
      exact ⟨_, _, _, hadmit, rfl⟩
    split at h
    · rename_i haccepted
      have hmem : cmd ∈ t.admitted := by
        show cmd ∈ if admission.accepted = true then _ else _
        rw [if_pos haccepted]
        exact List.mem_append_right _ (List.mem_singleton_self _)
      split at h
      · rename_i id u hsubmit
        obtain ⟨_, rfl⟩ := Prod.mk.inj (pure_eq_ok.mp h)
        obtain ⟨a, v, hingest, hsubmits, hv⟩ := P4RuntimeController.submitTrigger_step
          (s := t) ports zones hsubmit fun b hb =>
            ⟨cmd, hmem, rfl, rfl, (Option.some.inj hb).symm⟩
        exact ⟨_, v, .snoc (.snoc .refl hstep) ⟨hingest, hsubmits⟩, hv⟩
      · obtain ⟨_, rfl⟩ := Prod.mk.inj (pure_eq_ok.mp h)
        exact ⟨_, t, .snoc .refl hstep, rfl⟩
    · obtain ⟨_, rfl⟩ := Prod.mk.inj (pure_eq_ok.mp h)
      exact ⟨_, t, .snoc .refl hstep, rfl⟩

-- ════════════════════════════════════════════════════════════════════════
-- A crash between admission and ingestion
-- ════════════════════════════════════════════════════════════════════════

/-- The admission of the sample submission under the active policy. -/
def sampleAdmission (now : Instant) (s : StudioState) : StudioAction :=
  match s.configuration.getActivePolicy with
  | .ok (some policy) =>
    .admitTrigger ((sampleSubmission .event).admission sampleRuntimePorts policy now)
  | _ => .abandonReview 0

/-- The ingestion of the sample submission, bound to the active policy. -/
def sampleIngestion (now : Instant) (s : StudioState) : StudioAction :=
  .ingestEvent ((sampleSubmission .event).event sampleRuntimePorts sampleWork
    (s.activePolicy.map fun p => ⟨p.policyId, p.revision⟩) now)
    (sampleSubmission .event).idempotencyKey
    ((sampleSubmission .event).eventTriggerId sampleRuntimePorts)

/-- A call that is admitted and ends there; its retry after a change of policy. -/
def sampleRetried : List (StudioState → StudioAction) :=
  sampleAssigned ++ [sampleAdmission 200] ++
    sampleGoverned
      (sampleRevision 2 (stableId "draft-2") { PolicyEdit.none with wakeLimit := some 9 }) ++
    [sampleAdmission 400, sampleIngestion 410]

theorem submits_governed (rports : RuntimePorts) (as : List (GovernanceState → GovernanceAction)) :
    ∀ a ∈ sampleGoverned as, ∀ s, Submits rports (a s) := by
  intro a ha s
  obtain ⟨f, _, rfl⟩ := List.mem_map.mp ha
  trivial

theorem submits_sampleAdmission (now : Instant) (s : StudioState) :
    Submits sampleRuntimePorts (sampleAdmission now s) := by
  unfold sampleAdmission
  split
  · exact ⟨_, _, _, rfl⟩
  · trivial

theorem submits_sampleAssigned : ∀ a ∈ sampleAssigned, ∀ s, Submits sampleRuntimePorts (a s) := by
  intro a ha s
  rcases List.mem_append.mp ha with hgoverned | hassigned
  · exact submits_governed _ _ a hgoverned s
  · obtain rfl := List.mem_singleton.mp hassigned
    trivial

theorem submits_sampleSubmitted (n m : Instant) : ∀ a ∈ [sampleAdmission n, sampleIngestion m],
    ∀ s, Submits sampleRuntimePorts (a s) := by
  intro a ha s
  simp only [List.mem_cons, List.not_mem_nil, or_false] at ha
  rcases ha with rfl | rfl
  · exact submits_sampleAdmission n s
  · exact ⟨_, _, _, _, rfl, rfl, rfl⟩

/-- The sample source is stored with a binding that passes a test. -/
def sampleBound (p : StableId → PolicyBinding → Bool) (s : StudioState) : Bool :=
  let id := (sampleSubmission .event).sourceId sampleRuntimePorts
  (s.sourcePolicy .event id).any fun policy => policy.any (p id)

theorem exists_of_sampleBound {p : StableId → PolicyBinding → Bool} {s : StudioState}
    (h : sampleBound p s = true) : ∃ triggerClass id binding,
      s.sourcePolicy triggerClass id = some (some binding) ∧ p id binding = true := by
  simp only [sampleBound, Option.any_eq_true] at h
  obtain ⟨policy, hpolicy, binding, rfl, hp⟩ := h
  exact ⟨_, _, binding, hpolicy, hp⟩

theorem exists_submission_path (as : List (StudioState → StudioAction))
    (p : List StudioStep → StudioState → Bool)
    (has : ∀ a ∈ as, ∀ s, Submits sampleRuntimePorts (a s))
    (h : TransitionSystem.runsTo (StudioState.exec samplePorts sampleZones) .initial as p = true) :
    ∃ tr s, ((studio samplePorts sampleZones).restrict fun _ a =>
      Submits sampleRuntimePorts a).Path .initial tr s ∧ p tr s = true :=
  TransitionSystem.exists_restricted_path_of_runsTo (fun _ _ _ hs => hs) has h

theorem submits_sampleRetried : ∀ a ∈ sampleRetried, ∀ s, Submits sampleRuntimePorts (a s) := by
  intro a ha s
  simp only [sampleRetried, List.append_assoc, List.mem_append, List.mem_singleton] at ha
  rcases ha with ha | rfl | ha | ha
  · exact submits_sampleAssigned a ha s
  · exact submits_sampleAdmission 200 s
  · exact submits_governed _ _ a ha s
  · exact submits_sampleSubmitted 400 410 a ha s

set_option maxRecDepth 8000 in
theorem bound_sources_admitted_event :
    ∃ s, ((studio samplePorts sampleZones).restrict fun s a =>
        Submits sampleRuntimePorts a ∧ SamePolicyReplays s a).Reachable s ∧
      ∃ triggerClass id binding, s.sourcePolicy triggerClass id = some (some binding) ∧
        AdmittedUnder s.configuration id binding ∧
        s.tables.admission.consumptionsOf id binding = 1 := by
  obtain ⟨tr, s, hpath, hp⟩ := exists_submission_path
    (sampleAssigned ++ [sampleAdmission 200, sampleIngestion 210])
    (fun tr s => tr.all (fun e => decide (SamePolicyReplays e.source e.action)) &&
      sampleBound (fun _ _ => true) s)
    (fun a ha => (List.mem_append.mp ha).elim (submits_sampleAssigned a)
      (submits_sampleSubmitted 200 210 a)) (by decide +kernel)
  rw [Bool.and_eq_true, List.all_eq_true] at hp
  obtain ⟨triggerClass, id, binding, hbound, _⟩ := exists_of_sampleBound hp.2
  have hrun := hpath.of_restrict.restrict (C := fun s a =>
    Submits sampleRuntimePorts a ∧ SamePolicyReplays s a) fun e he =>
      ⟨(hpath.step_of_mem e he).2, of_decide_eq_true (hp.1 e he)⟩
  have hreachable := hrun.reachable (.init rfl)
  exact ⟨s, hreachable, triggerClass, id, binding, hbound,
    bound_sources_admitted hreachable triggerClass id binding hbound⟩

set_option maxRecDepth 8000 in
/-- A retry after a change of policy binds its source to a policy under which it
    was never admitted. -/
theorem bound_sources_admitted_retried :
    ¬∀ s, ((studio samplePorts sampleZones).restrict fun _ a =>
        Submits sampleRuntimePorts a).Reachable s →
      ∀ triggerClass id binding, s.sourcePolicy triggerClass id = some (some binding) →
        AdmittedUnder s.configuration id binding ∧
          s.tables.admission.consumptionsOf id binding = 1 := by
  intro hclaim
  obtain ⟨tr, s, hpath, hp⟩ := exists_submission_path sampleRetried
    (fun _ s => sampleBound (fun id binding =>
      !decide (AdmittedUnder s.configuration id binding)) s) submits_sampleRetried
    (by decide +kernel)
  obtain ⟨triggerClass, id, binding, hbound, hnever⟩ := exists_of_sampleBound hp
  rw [Bool.not_eq_true', decide_eq_false_iff_not] at hnever
  exact hnever (hclaim s (hpath.reachable (.init rfl)) _ _ _ hbound).1

end DigitalColleagues
