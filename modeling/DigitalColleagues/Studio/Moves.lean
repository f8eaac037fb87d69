import DigitalColleagues.Studio.System

/-!
# What a step can do to the whole store

Every step is a step of the runtime or leaves it alone; next to the runtime it
moves the tables in one of four ways.

## Main definitions

- `StudioTables.Move` — the moves of the tables next to the runtime
- `BuilderTables.SameDrafting` — configurations that differ in run state and outcomes only
- `BuilderTables.Keeps` — what governance keeps of a configuration
-/

namespace DigitalColleagues

open Keyed

variable {ports : GovernancePorts} {zones : TimeZones}

/-- One step of a run of the store. -/
abbrev StudioStep := Transition StudioState StudioAction

-- ════════════════════════════════════════════════════════════════════════
-- Configurations inside the tables
-- ════════════════════════════════════════════════════════════════════════

namespace StudioTables

theorem withConfiguration_eq {s : StudioTables} {c : Colleague}
    (h : s.governance.store.colleague = some c) (tables : BuilderTables) :
    (s.withConfiguration tables).governance.store.colleague = some { c with tables := tables } := by
  simp only [withConfiguration, h, Option.map_some]

theorem configuration_eq {s : StudioTables} {c : Colleague}
    (h : s.governance.store.colleague = some c) : s.configuration = c.tables := by
  rw [configuration, GovernanceState.configuration, h]
  rfl

theorem configuration_withConfiguration {s : StudioTables} {c : Colleague}
    (h : s.governance.store.colleague = some c) (tables : BuilderTables) :
    (s.withConfiguration tables).configuration = tables :=
  configuration_eq (withConfiguration_eq h tables)

/-- Without a colleague there is no configuration to write. -/
theorem withConfiguration_of_none {s : StudioTables} (h : s.governance.store.colleague = none)
    (tables : BuilderTables) : s.withConfiguration tables = s := by
  rw [withConfiguration, h, Option.map_none, ← h]

theorem configuration_of_none {s : StudioTables} (h : s.governance.store.colleague = none) :
    s.configuration = .empty := by
  rw [configuration, GovernanceState.configuration, h]
  rfl

@[simp] theorem withConfiguration_self (s : StudioTables) :
    s.withConfiguration s.configuration = s := by
  cases h : s.governance.store.colleague with
  | none => exact withConfiguration_of_none h _
  | some c =>
    have hc : s.configuration = c.tables := configuration_eq h
    rw [hc, withConfiguration, h, Option.map_some, ← h]

@[simp] theorem admission_withConfiguration (s : StudioTables) (tables : BuilderTables) :
    (s.withConfiguration tables).admission = s.admission := rfl

@[simp] theorem tenant_withConfiguration (s : StudioTables) (tables : BuilderTables) :
    (s.withConfiguration tables).tenant = s.tenant := rfl

@[simp] theorem bindings_withConfiguration (s : StudioTables) (tables : BuilderTables) :
    (s.withConfiguration tables).bindings = s.bindings := rfl

@[simp] theorem colleagueNamespace_withConfiguration (s : StudioTables) (tables : BuilderTables) :
    (s.withConfiguration tables).colleagueNamespace = s.colleagueNamespace := by
  cases h : s.governance.store.colleague with
  | none => rw [withConfiguration_of_none h]
  | some c => simp [colleagueNamespace, withConfiguration_eq h, h]

/-- The moves of the tables next to the runtime, with what their transaction did. -/
inductive Move (ports : GovernancePorts) (zones : TimeZones) (s : StudioTables) :
    StudioAction → StudioTables → Prop
  | frame {a : StudioAction} {t : StudioTables} : t.governance = s.governance →
      t.admission = s.admission → Move ports zones s a t
  | governance {action : GovernanceAction} {governance : GovernanceState} :
      s.governance.exec ports action = .ok governance →
      Move ports zones s (.governance action) { s with governance := governance }
  | admitted {cmd : AdmitTriggerCommand} {results : Records ActionResult} {admission : PolicyAdmission}
      {admitted : AdmissionTables} {configuration : BuilderTables} :
      admitTrigger zones s.works results s.admission s.configuration cmd =
        .ok (admission, admitted, configuration) →
      Move ports zones s (.admitTrigger cmd)
        ({ s with admission := admitted }.withConfiguration configuration)
  | record {a : StudioAction} {record : PolicyEnforcementRecord} {configuration : BuilderTables} :
      ¬(record.stage = .preWake ∧ record.outcome = .allowed) →
      s.configuration.insertPolicyOutcome record = .ok configuration →
      Move ports zones s a (s.withConfiguration configuration)

theorem bindEffectApprovalAuthority_eq_ok {s t : StudioTables} {occurredAt : Instant}
    {proposal : EffectProposal} {decision : HumanApprovalDecision} {approver : Principal}
    (h : s.bindEffectApprovalAuthority occurredAt proposal decision approver = .ok t) :
    ∃ bindings, t = { s with bindings := bindings } ∧ ∀ b ∈ s.bindings, b ∈ bindings := by
  simp only [bindEffectApprovalAuthority, bind_eq_ok, orFail_eq_ok, pure_eq_ok] at h
  obtain ⟨_, _, bindings, hinsert, rfl⟩ := h
  exact ⟨bindings, rfl, fun b hb => (Table.mem_insert hinsert).mpr (.inl hb)⟩

/-- Preparing a decision stores an outcome at most, and it stores one of a stop. -/
theorem prepareSemanticDecision_eq_ok {s : RuntimeStore StudioTables}
    {semantic prepared : SemanticDecision} {t : StudioTables} (claim : AgendaClaim)
    (h : prepareSemanticDecision s claim semantic = .ok (prepared, t)) :
    ∃ active, s.rest.configuration.getActivePolicy = .ok active ∧
      ((∀ policy ∈ active, ¬s.rest.configuration.stopped policy) ∧ prepared = semantic ∧
          t = s.rest ∨
        ∃ policy, active = some policy ∧ s.rest.configuration.stopped policy ∧
          prepared.proposal = none ∧
          (t = s.rest ∨ ∃ record configuration, record.outcome = .stopped ∧
            s.rest.configuration.insertPolicyOutcome record = .ok configuration ∧
            t = s.rest.withConfiguration configuration)) := by
  simp only [prepareSemanticDecision, bind_eq_ok] at h
  obtain ⟨active, hactive, h⟩ := h
  refine ⟨active, hactive, ?_⟩
  cases active with
  | none =>
    obtain ⟨rfl, rfl⟩ := Prod.mk.inj (pure_eq_ok.mp h)
    exact .inl ⟨fun _ hp => absurd hp (by simp), rfl, rfl⟩
  | some policy =>
    simp only [] at h
    split at h
    · rename_i hstopped
      simp only [bind_eq_ok] at h
      obtain ⟨recorded, hrecorded, h⟩ := h
      have htables : s.rest.withConfiguration recorded = s.rest ∨
          ∃ record configuration, record.outcome = .stopped ∧
            s.rest.configuration.insertPolicyOutcome record = .ok configuration ∧
            s.rest.withConfiguration recorded = s.rest.withConfiguration configuration := by
        unfold recordStoppedDecision at hrecorded
        split at hrecorded
        · obtain rfl := Except.ok.inj hrecorded
          exact .inl (withConfiguration_self _)
        · simp only [bind_eq_ok] at hrecorded
          obtain ⟨wake, _, hinsert⟩ := hrecorded
          exact .inr ⟨_, recorded, rfl, hinsert, rfl⟩
      refine .inr ⟨policy, rfl, hstopped, ?_⟩
      split at h
      · rename_i hnone
        obtain ⟨rfl, rfl⟩ := Prod.mk.inj (pure_eq_ok.mp h)
        exact ⟨hnone, htables⟩
      · obtain ⟨rfl, rfl⟩ := Prod.mk.inj (pure_eq_ok.mp h)
        exact ⟨rfl, htables⟩
    · rename_i hactive'
      obtain ⟨rfl, rfl⟩ := Prod.mk.inj (pure_eq_ok.mp h)
      refine .inl ⟨fun p hp => ?_, rfl, rfl⟩
      obtain rfl := Option.some.inj hp
      exact hactive'

end StudioTables

-- ════════════════════════════════════════════════════════════════════════
-- Steps
-- ════════════════════════════════════════════════════════════════════════

/-- The steps of a process that write nothing. -/
def StudioAction.reads : StudioAction → Prop
  | .reviewProposal _ _ => True
  | .reviewRunState _ => True
  | .abandonReview _ => True
  | .loadDispatch _ _ => True
  | .validateDispatch _ _ _ => True
  | .authorizePolicy _ => True
  | .authorizeRunState _ => True
  | .authorizeBinding _ _ => True
  | .authorizePrincipal _ => True
  | .authorizeMembership _ => True
  | .abandonDispatch _ => True
  | _ => False

namespace StudioState

theorem execRuntime_eq_ok {s t : StudioState} {action : RuntimeAction StudioTables}
    (h : s.execRuntime action = .ok t) :
    s.runtime.exec studioHooks action = .ok t.runtime ∧ t = { s with runtime := t.runtime } := by
  simp only [execRuntime, bind_eq_ok, pure_eq_ok] at h
  obtain ⟨runtime, hruntime, rfl⟩ := h
  exact ⟨hruntime, rfl⟩

/-- The agenda and the effects move without the tables next to them. -/
theorem tables_of_execRuntime_agenda {s t : StudioState} {action : AgendaAction}
    (h : s.execRuntime (.agenda action) = .ok t) : t.tables = s.tables := by
  obtain ⟨hruntime, -⟩ := execRuntime_eq_ok h
  simp only [RuntimeState.exec, bind_eq_ok, pure_eq_ok] at hruntime
  obtain ⟨_, _, hruntime⟩ := hruntime
  rw [tables, tables, ← hruntime]

theorem tables_of_execRuntime_effect {s t : StudioState} {action : EffectAction}
    (h : s.execRuntime (.effect action) = .ok t) : t.tables = s.tables := by
  obtain ⟨hruntime, -⟩ := execRuntime_eq_ok h
  simp only [RuntimeState.exec, bind_eq_ok, pure_eq_ok] at hruntime
  obtain ⟨_, _, hruntime⟩ := hruntime
  rw [tables, tables, ← hruntime]

theorem execAgenda_eq_ok {s t : StudioState} {action : AgendaAction}
    (h : s.execAgenda action = .ok t) : s.execRuntime (.agenda action) = .ok t := by
  cases action with
  | ingestEvent => exact absurd h (by simp [execAgenda, otherwise])
  | ingestTimer => exact absurd h (by simp [execAgenda, otherwise])
  | _ => exact h

theorem execEffect_eq_ok {s t : StudioState} {action : EffectAction}
    (h : s.execEffect action = .ok t) : s.execRuntime (.effect action) = .ok t ∧
      ∀ claim occurredAt, action ≠ .markDispatchStarted claim occurredAt := by
  cases action with
  | markDispatchStarted => exact absurd h (by simp [execEffect, otherwise])
  | _ => exact ⟨h, fun _ _ => by simp⟩

/-- A step that writes nothing leaves the store as it was. -/
theorem runtime_of_reads {s t : StudioState} {a : StudioAction} (ha : a.reads)
    (h : s.exec ports zones a = .ok t) : t.runtime = s.runtime := by
  cases a with
  | reviewProposal proposalId choice =>
    simp only [exec, bind_eq_ok] at h
    obtain ⟨_, _, h⟩ := h
    split at h
    · simp only [bind_eq_ok, pure_eq_ok] at h
      obtain ⟨_, _, rfl⟩ := h
      rfl
    · simp only [bind_eq_ok, pure_eq_ok] at h
      obtain ⟨_, _, rfl⟩ := h
      rfl
  | reviewRunState i =>
    simp only [exec, bind_eq_ok, pure_eq_ok] at h
    obtain ⟨_, _, _, _, _, _, rfl⟩ := h
    rfl
  | abandonReview i =>
    obtain rfl := Except.ok.inj h
    rfl
  | loadDispatch claim mandateId =>
    simp only [exec, bind_eq_ok, pure_eq_ok] at h
    obtain ⟨_, _, _, _, rfl⟩ := h
    rfl
  | validateDispatch i mandateId evaluatedAt =>
    simp only [exec, bind_eq_ok, pure_eq_ok] at h
    obtain ⟨_, _, _, _, _, _, _, _, rfl⟩ := h
    rfl
  | authorizePolicy i =>
    simp only [exec, bind_eq_ok, pure_eq_ok] at h
    obtain ⟨_, _, _, _, _, _, rfl⟩ := h
    rfl
  | authorizeRunState i =>
    simp only [exec, bind_eq_ok] at h
    obtain ⟨_, _, h⟩ := h
    split at h
    · simp only [bind_eq_ok, pure_eq_ok] at h
      obtain ⟨_, _, rfl⟩ := h
      rfl
    · cases h
  | authorizeBinding i evaluatedAt =>
    simp only [exec, bind_eq_ok, pure_eq_ok] at h
    obtain ⟨_, _, _, _, _, _, rfl⟩ := h
    rfl
  | authorizePrincipal i =>
    simp only [exec, bind_eq_ok] at h
    obtain ⟨_, _, h⟩ := h
    split at h
    · simp only [bind_eq_ok, pure_eq_ok] at h
      obtain ⟨_, _, rfl⟩ := h
      rfl
    · cases h
  | authorizeMembership i =>
    simp only [exec, bind_eq_ok] at h
    obtain ⟨_, _, h⟩ := h
    split at h
    · simp only [bind_eq_ok, pure_eq_ok] at h
      obtain ⟨_, _, _, _, rfl⟩ := h
      rfl
    · cases h
  | abandonDispatch i =>
    obtain rfl := Except.ok.inj h
    rfl
  | _ => exact ha.elim

/-- The runtime step behind a step; the others change its environment at most. -/
def runtimeAction (t : StudioState) (dispatches : List Dispatch) : StudioAction →
    RuntimeAction StudioTables
  | .ingestEvent event idempotencyKey triggerId =>
    .agenda (.ingestEvent event idempotencyKey triggerId)
  | .ingestTimer occurrence idempotencyKey triggerId =>
    .agenda (.ingestTimer occurrence idempotencyKey triggerId)
  | .agenda action => .agenda action
  | .commitSemanticDecision claim semantic => .commitSemanticDecision claim semantic
  | .commitApproval _ cmd => .commitApprovalAndAttempt cmd
  | .effect action => .effect action
  | .startDispatch i occurredAt =>
    match dispatches[i]? with
    | some dispatch => .effect (.markDispatchStarted dispatch.claim occurredAt)
    | none => .environment t.runtime.rest
  | _ => .environment t.runtime.rest

/-- Every step is a step of the runtime. -/
theorem runtime_of_exec {s t : StudioState} {a : StudioAction}
    (h : s.exec ports zones a = .ok t) :
    (DigitalColleagues.runtime studioHooks).step s.runtime (runtimeAction t s.dispatches a) t.runtime := by
  show s.runtime.exec studioHooks _ = .ok t.runtime
  cases a with
  | governance action =>
    simp only [exec, bind_eq_ok, pure_eq_ok] at h
    obtain ⟨_, _, rfl⟩ := h
    rfl
  | assignWork work =>
    simp only [exec, pure_eq_ok] at h
    subst h
    rfl
  | admitTrigger cmd =>
    simp only [exec, bind_eq_ok, pure_eq_ok, Prod.exists] at h
    obtain ⟨_, _, _, _, rfl⟩ := h
    rfl
  | ingestEvent event idempotencyKey triggerId =>
    simp only [exec, bind_eq_ok, require_eq_ok, exists_const] at h
    exact (execRuntime_eq_ok h.2).1
  | ingestTimer occurrence idempotencyKey triggerId =>
    simp only [exec, bind_eq_ok, require_eq_ok, exists_const] at h
    exact (execRuntime_eq_ok h.2).1
  | agenda action => exact (execRuntime_eq_ok (execAgenda_eq_ok h)).1
  | recordPolicyOutcome record =>
    simp only [exec, bind_eq_ok, require_eq_ok, exists_const, pure_eq_ok] at h
    obtain ⟨_, _, _, rfl⟩ := h
    rfl
  | commitSemanticDecision claim semantic => exact (execRuntime_eq_ok h).1
  | commitApproval i cmd =>
    simp only [exec, bind_eq_ok, require_eq_ok, exists_const, pure_eq_ok] at h
    obtain ⟨_, _, _, _, u, hu, rfl⟩ := h
    exact (execRuntime_eq_ok hu).1
  | effect action => exact (execRuntime_eq_ok (execEffect_eq_ok h).1).1
  | startDispatch i occurredAt =>
    simp only [exec, process, bind_eq_ok, orFail_eq_ok, require_eq_ok, exists_const, pure_eq_ok] at h
    obtain ⟨dispatch, hdispatch, _, u, hu, rfl⟩ := h
    rw [runtimeAction, hdispatch]
    exact (execRuntime_eq_ok hu).1
  | _ =>
    have hread : t.runtime = s.runtime := runtime_of_reads (by trivial) h
    show Except.ok { s.runtime with rest := t.runtime.rest } = _
    rw [hread]

/-- Next to the runtime every step moves the tables. -/
theorem move_of_exec {s t : StudioState} {a : StudioAction} (h : s.exec ports zones a = .ok t) :
    s.tables.Move ports zones a t.tables := by
  have hruntime := runtime_of_exec h
  cases a with
  | governance action =>
    simp only [exec, bind_eq_ok, pure_eq_ok] at h
    obtain ⟨governance, hgovernance, rfl⟩ := h
    exact .governance hgovernance
  | assignWork work =>
    simp only [exec, pure_eq_ok] at h
    subst h
    exact .frame rfl rfl
  | admitTrigger cmd =>
    simp only [exec, bind_eq_ok, pure_eq_ok, Prod.exists] at h
    obtain ⟨_, _, _, hadmit, rfl⟩ := h
    exact .admitted hadmit
  | recordPolicyOutcome record =>
    simp only [exec, bind_eq_ok, require_eq_ok, exists_const, pure_eq_ok] at h
    obtain ⟨hrecord, configuration, hinsert, rfl⟩ := h
    refine .record (fun hallowed => ?_) hinsert
    rcases hrecord with hstage | ⟨_, houtcome | houtcome⟩ <;> simp_all
  | commitSemanticDecision claim semantic =>
    have hstep : s.runtime.exec studioHooks (.commitSemanticDecision claim semantic) =
      .ok t.runtime := hruntime
    simp only [RuntimeState.exec, bind_eq_ok, pure_eq_ok] at hstep
    obtain ⟨_, _, store, hcommit, hstore⟩ := hstep
    obtain ⟨_, prepared, rest, _, _, _, _, hprepared, _, _, _, _, rfl⟩ :=
      RuntimeStore.commitSemanticDecision_eq_ok studioHooks hcommit
    have hrest : t.tables = rest := by rw [tables, ← hstore]; rfl
    rw [hrest]
    obtain ⟨_, _, hcase⟩ := StudioTables.prepareSemanticDecision_eq_ok claim hprepared
    rcases hcase with ⟨_, _, rfl⟩ | ⟨_, _, _, _, rfl | ⟨record, _, houtcome, hinsert, rfl⟩⟩
    · exact .frame rfl rfl
    · exact .frame rfl rfl
    · exact .record (fun hallowed => by simp [houtcome] at hallowed) hinsert
  | commitApproval i cmd =>
    have hstep : s.runtime.exec studioHooks (.commitApprovalAndAttempt cmd) = .ok t.runtime :=
      hruntime
    simp only [RuntimeState.exec, RuntimeStore.commitApprovalAndAttempt, bind_eq_ok, pure_eq_ok,
      Prod.exists, Prod.mk.injEq] at hstep
    obtain ⟨_, _, ⟨result, bound, effects, hcommit, _, rfl⟩, hstore⟩ := hstep
    have hrest : t.tables = bound.getD s.tables := by rw [tables, ← hstore]; rfl
    rw [hrest]
    rcases EffectTables.commitApprovalAndAttempt_eq_ok hcommit with ⟨_, rfl, _⟩ |
      ⟨_, b, _, hauthorize, rfl, _⟩
    · exact .frame rfl rfl
    · obtain ⟨_, _, _, hbound, _⟩ := EffectTables.authorizeApproval_eq_ok hauthorize
      obtain ⟨_, rfl, _⟩ := StudioTables.bindEffectApprovalAuthority_eq_ok hbound
      exact .frame rfl rfl
  | ingestEvent event idempotencyKey triggerId =>
    simp only [exec, bind_eq_ok, require_eq_ok, exists_const] at h
    have htables := tables_of_execRuntime_agenda h.2
    rw [htables]
    exact .frame rfl rfl
  | ingestTimer occurrence idempotencyKey triggerId =>
    simp only [exec, bind_eq_ok, require_eq_ok, exists_const] at h
    have htables := tables_of_execRuntime_agenda h.2
    rw [htables]
    exact .frame rfl rfl
  | agenda action =>
    have htables := tables_of_execRuntime_agenda (execAgenda_eq_ok h)
    rw [htables]
    exact .frame rfl rfl
  | effect action =>
    have htables := tables_of_execRuntime_effect (execEffect_eq_ok h).1
    rw [htables]
    exact .frame rfl rfl
  | startDispatch i occurredAt =>
    simp only [exec, bind_eq_ok, pure_eq_ok] at h
    obtain ⟨_, _, _, _, u, hu, rfl⟩ := h
    have htables := tables_of_execRuntime_effect hu
    exact .frame (congrArg StudioTables.governance htables) (congrArg StudioTables.admission htables)
  | _ =>
    have hread : t.tables = s.tables := congrArg RuntimeState.rest (runtime_of_reads (by trivial) h)
    rw [hread]
    exact .frame rfl rfl

end StudioState

-- ════════════════════════════════════════════════════════════════════════
-- What every step keeps
-- ════════════════════════════════════════════════════════════════════════

/-- Tables that differ in run state and outcomes only. -/
def BuilderTables.SameDrafting (s t : BuilderTables) : Prop :=
  t = { s with runState := t.runState, policyOutcomes := t.policyOutcomes }

theorem BuilderTables.SameDrafting.getActivePolicy {s t : BuilderTables} (h : s.SameDrafting t) :
    t.getActivePolicy = s.getActivePolicy := by
  rw [h]
  rfl

theorem BuilderTables.SameDrafting.of_insertPolicyOutcome {s t : BuilderTables}
    {record : PolicyEnforcementRecord} (h : s.insertPolicyOutcome record = .ok t) :
    s.SameDrafting t := by
  rcases insertPolicyOutcome_eq_ok h with ⟨_, rfl⟩ | ⟨outcomes, _, rfl⟩
  · rfl
  · rfl

theorem BuilderTables.SameDrafting.stopFor {s t : BuilderTables} (h : s.SameDrafting t)
    (cmd : AdmitTriggerCommand) (outcome : PolicyOutcomeKind) :
    s.SameDrafting (t.stopFor cmd outcome) := by
  unfold BuilderTables.stopFor
  split
  · exact h
  · rw [SameDrafting] at h
    rw [h]
    rfl

theorem BuilderTables.SameDrafting.of_admitsTrigger {s t : AdmissionTables}
    {builder recorded : BuilderTables} {cmd : AdmitTriggerCommand} {admission : PolicyAdmission}
    (h : AdmitsTrigger s builder cmd admission t recorded) : builder.SameDrafting recorded := by
  cases h with
  | replayed => rfl
  | refused _ _ _ _ _ _ hinsert => exact (of_insertPolicyOutcome hinsert).stopFor cmd _
  | accepted haccepts => exact of_insertPolicyOutcome haccepts.records

theorem BuilderTables.Configured.sameDrafting {policyId : StableId} {s t : BuilderTables}
    {base : BaseValues} (h : s.Configured policyId base) (hst : s.SameDrafting t) :
    t.Configured policyId base := by
  rw [hst]
  exact ⟨⟨h.active.profiles, h.active.mandates, h.active.policies⟩, h.bound, h.policies⟩

/-- What is kept of a configuration from one step to the next. -/
structure BuilderTables.Keeps (s t : BuilderTables) : Prop where
  policies : ∀ a ∈ s.policies.audit, a ∈ t.policies.audit
  admissions : t.admissions = s.admissions

/-- The governance of a colleague admits no trigger. -/
theorem keeps_of_governance {s t : GovernanceState} {action : GovernanceAction}
    (h : s.exec ports action = .ok t) (hs : Lineage ports s) :
    s.configuration.Keeps t.configuration := by
  cases hc : s.store.colleague with
  | none =>
    have hsource : s.configuration = .empty := by rw [GovernanceState.configuration, hc]; rfl
    rw [hsource]
    refine ⟨fun a ha => absurd ha (Table.not_mem_empty a), ?_⟩
    cases ht : t.store.colleague with
    | none =>
      rw [GovernanceState.configuration, ht]
      rfl
    | some c =>
      obtain ⟨profile, mandate, htables⟩ := colleague_of_exec h hc ht
      simp only [BuilderTables.insertConfiguration, bind_eq_ok, pure_eq_ok] at htables
      obtain ⟨_, _, _, _, htables⟩ := htables
      rw [GovernanceState.configuration, ht, Option.elim_some, ← htables]
      rfl
  | some c =>
    obtain ⟨u, hu, hcase⟩ := configurationStep_of_exec h hs hc
    have hsource : s.configuration = c.tables := by rw [GovernanceState.configuration, hc]; rfl
    have htarget : t.configuration = u := by rw [GovernanceState.configuration, hu]; rfl
    rw [hsource, htarget]
    rcases hcase with hdrafts | ⟨_, _, _, _, _, _, _, hconfirm, _⟩
    · rw [hdrafts.frame]
      exact ⟨fun a ha => ha, rfl⟩
    · exact ⟨hconfirm.audits.policies, hconfirm.admissions⟩

namespace StudioTables

theorem lineage_withConfiguration {s : StudioTables} (h : Lineage ports s.governance)
    {tables : BuilderTables} (hsame : s.configuration.SameDrafting tables) :
    Lineage ports (s.withConfiguration tables).governance := by
  cases hc : s.governance.store.colleague with
  | none =>
    rw [withConfiguration_of_none hc]
    exact h
  | some c =>
    have hsource : s.configuration = c.tables := configuration_eq hc
    have htarget := configuration_withConfiguration hc tables
    have hcolleague := withConfiguration_eq hc tables
    rw [hsource] at hsame
    have hreads : (s.withConfiguration tables).governance.reads.StoredIn
        (s.withConfiguration tables).configuration := by
      rw [htarget, hsame]
      have hstored : s.governance.reads.StoredIn s.configuration := h.reads
      rw [hsource] at hstored
      exact hstored.mono (fun _ ha => ha) (fun _ ha => ha) fun _ ha => ha
    refine ⟨hreads, fun c' hc' => ?_, fun c' hc' => ?_⟩
    · obtain rfl := Option.some.inj (hcolleague.symm.trans hc')
      obtain ⟨base, hbase⟩ := h.configured c hc
      exact ⟨base, hbase.sameDrafting hsame⟩
    · obtain rfl := Option.some.inj (hcolleague.symm.trans hc')
      have hsourced := h.sourced c hc
      show tables.Sourced ports (ports.policyId c.colleagueId)
      rw [hsame]
      intro d hd
      obtain ⟨base, hbase, hbuilt⟩ := hsourced d hd
      exact ⟨base, ⟨hbase.profile, hbase.mandate, hbase.policy⟩, hbuilt⟩

/-- The configurations of a run are those that its drafts were built from. -/
theorem Move.lineage {s t : StudioTables} {a : StudioAction} (h : s.Move ports zones a t)
    (hs : Lineage ports s.governance) : Lineage ports t.governance := by
  cases h with
  | frame hgovernance => rwa [hgovernance]
  | governance hexec => exact lineage_preserved ports _ _ _ hs hexec
  | admitted hadmit =>
    exact lineage_withConfiguration hs (.of_admitsTrigger (admitTrigger_eq_ok hadmit))
  | record _ hinsert => exact lineage_withConfiguration hs (.of_insertPolicyOutcome hinsert)

end StudioTables

theorem lineage_studio_preserved (ports : GovernancePorts) (zones : TimeZones) :
    (studio ports zones).Preserved fun s => Lineage ports s.tables.governance :=
  fun _ _ _ hs hstep => (StudioState.move_of_exec hstep).lineage hs

theorem lineage_of_studio {s : StudioState} (h : (studio ports zones).Reachable s) :
    Lineage ports s.tables.governance := by
  refine h.invariant ?_ (lineage_studio_preserved ports zones)
  rintro _ rfl
  exact lineage_initial ports

-- ════════════════════════════════════════════════════════════════════════
-- Concrete runs
-- ════════════════════════════════════════════════════════════════════════

/-- A run that succeeds with a trace and a final state that meet `p`. -/
theorem exists_studio_path (ports : GovernancePorts) (zones : TimeZones)
    (as : List (StudioState → StudioAction))
    (p : List (Transition StudioState StudioAction) → StudioState → Bool)
    (h : TransitionSystem.runsTo (StudioState.exec ports zones) .initial as p = true) :
    ∃ tr s, (studio ports zones).Path .initial tr s ∧ p tr s = true :=
  TransitionSystem.exists_path_of_runsTo (fun _ _ _ hs => hs) h

/-- Clocks that always show the start of a Monday, for concrete runs. -/
def sampleZones : TimeZones := fun _ _ => ⟨0, 0⟩

/-- A run of the governance as a part of a run of the store. -/
def sampleGoverned (as : List (GovernanceState → GovernanceAction)) :
    List (StudioState → StudioAction) :=
  as.map fun f s => .governance (f s.tables.governance)

/-- The `k`-th revision of the sample policy, drafted, approved and confirmed
    when the policy has revision `k - 1`. -/
def sampleRevision (k : ℕ) (draftId : StableId) (edit : PolicyEdit) :
    List (GovernanceState → GovernanceAction) :=
  [fun _ => .read sampleAssistant .policy, fun _ => .read sampleAssistant .runState,
    fun _ => .builder sampleAssistant (.createDraft ⟨0, 0, k⟩ sampleAdmin draftId draftId 100),
    fun _ => .read sampleAssistant (.draft draftId),
    fun _ => .builder sampleAssistant (.updateDraft ⟨0, 0, k⟩ (k - 1) (k - 1) sampleAdmin
      ⟨sampleProfile.edit, sampleAssistantMandate.edit, edit, 1⟩ 105),
    fun _ => .builder sampleAssistant (.reviewDraft draftId 2 sampleAdmin 108)] ++
    sampleApprovedChange (sampleDraftChange draftId draftId 2 ⟨1, 1, k - 1⟩) draftId ++
    [fun _ => .confirmDraft sampleAssistant
        (sampleConfirm draftId 2 ⟨1, 1, k - 1⟩ (some draftId) 120)]

/-- The model of the sample colleague. -/
def sampleModel : Principal where
  principalId := stableId "model-1"
  kind := .model
  roles := []
  revision := 1
  roles_nodup := List.nodup_nil
  human_of_roles := no_roles .model

/-- The service of the sample colleague. -/
def sampleService : Principal where
  principalId := stableId "service-1"
  kind := .service
  roles := []
  revision := 1
  roles_nodup := List.nodup_nil
  human_of_roles := no_roles .service

/-- The sample colleague with its runtime principals; its configuration was read. -/
def sampleEmployed : List (GovernanceState → GovernanceAction) :=
  sampleTwoAdmins ++
    [fun _ => .createInitialColleague sampleAssistant sampleProfile sampleAssistantMandate
        [sampleModel, sampleService] sampleAdmin,
      fun _ => .read sampleAssistant .profile, fun _ => .read sampleAssistant .mandate,
      fun _ => .read sampleAssistant .policy]

/-- The sample colleague with a first policy that was edited. -/
def samplePoliced (edit : PolicyEdit) : List (StudioState → StudioAction) :=
  sampleGoverned (sampleEmployed ++ sampleRevision 1 (stableId "draft-1") edit)

end DigitalColleagues
