import DigitalColleagues.Runtime.BoundedDispatch
import DigitalColleagues.Studio.Stops

/-!
# Dispatches and the authority behind them

A dispatch checks its Mandate, its policy and its approver one after the other,
each in a read of its own, and starts its attempt in a later transaction. What it
checked is still current there unless something was changed in between.

## Main definitions

- `StudioTables.ApproverCurrent` — the approver is bound as at the approval
- `StudioState.MayStart` — the authority that a started attempt needs
- `Undisturbed` — the condition on a step
- `Dispatch.Checked` — what a dispatch under way knows
-/

namespace DigitalColleagues

open Keyed

variable {ports : GovernancePorts} {zones : TimeZones}

-- ════════════════════════════════════════════════════════════════════════
-- Current authority
-- ════════════════════════════════════════════════════════════════════════

/-- The identity and revision of the active Mandate. -/
def BuilderTables.mandateBindings (s : BuilderTables) : List MandateBinding :=
  s.mandates.domain.rows.map fun m => ⟨m.mandateId, m.revision⟩

/-- The identity and revision of the active policy, when there is one. -/
def BuilderTables.policyBindings (s : BuilderTables) : List PolicyBinding :=
  s.policies.domain.rows.map fun p => ⟨p.policyId, p.revision⟩

/-- The principal and the membership of the approver are those bound at the approval. -/
def StudioTables.ApproverCurrent (s : StudioTables) (approval : HumanApprovalDecision) : Prop :=
  ∃ binding principal membership,
    s.bindings.find? approval.approvalDecisionId = some binding ∧
    binding.principalId = approval.author.principalId ∧
    s.tenant.principals.find? approval.author.principalId = some principal ∧
    s.tenant.memberships.find? approval.author.principalId = some membership ∧
    binding.current principal membership.toMembershipFields s.colleagueNamespace

/-- The proposal and the approval of an attempt are those of the present
    configuration and of an approver whose authority is unchanged. -/
structure StudioState.MayStart (s : StudioState) (attempt : EffectAttempt)
    (proposal : EffectProposal) (approval : HumanApprovalDecision) : Prop where
  proposed : s.runtime.effects.tables.proposals.find? attempt.proposalId = some proposal
  approved : s.runtime.effects.tables.approvals.find? attempt.approvalDecisionId = some approval
  mandate : s.configuration.mandateBindings = proposal.mandate.toList ∧ proposal.mandate ≠ none
  policy : s.configuration.policyBindings = proposal.policy.toList
  approver : s.tables.ApproverCurrent approval

/-- A step leaves alone what the dispatches under way have read so far: the
    Mandate, then the policy, then the principal of the approver, then the membership. -/
structure Undisturbed (e : StudioStep) : Prop where
  mandate : ∀ dispatch ∈ e.source.dispatches, 2 ≤ dispatch.phase.reads →
    e.target.configuration.mandateBindings = e.source.configuration.mandateBindings
  policy : ∀ dispatch ∈ e.source.dispatches, 3 ≤ dispatch.phase.reads →
    e.target.configuration.policyBindings = e.source.configuration.policyBindings
  principal : ∀ dispatch ∈ e.source.dispatches, 6 ≤ dispatch.phase.reads →
    let id := dispatch.bundle.approval.author.principalId
    e.target.tables.tenant.principals.find? id = e.source.tables.tenant.principals.find? id
  membership : ∀ dispatch ∈ e.source.dispatches, 7 ≤ dispatch.phase.reads →
    let id := dispatch.bundle.approval.author.principalId
    e.target.tables.tenant.memberships.find? id = e.source.tables.tenant.memberships.find? id

instance (e : StudioStep) : Decidable (Undisturbed e) :=
  decidable_of_iff
    ((∀ dispatch ∈ e.source.dispatches, 2 ≤ dispatch.phase.reads →
        e.target.configuration.mandateBindings = e.source.configuration.mandateBindings) ∧
      (∀ dispatch ∈ e.source.dispatches, 3 ≤ dispatch.phase.reads →
        e.target.configuration.policyBindings = e.source.configuration.policyBindings) ∧
      (∀ dispatch ∈ e.source.dispatches, 6 ≤ dispatch.phase.reads →
        let id := dispatch.bundle.approval.author.principalId
        e.target.tables.tenant.principals.find? id = e.source.tables.tenant.principals.find? id) ∧
      ∀ dispatch ∈ e.source.dispatches, 7 ≤ dispatch.phase.reads →
        let id := dispatch.bundle.approval.author.principalId
        e.target.tables.tenant.memberships.find? id = e.source.tables.tenant.memberships.find? id)
    ⟨fun h => ⟨h.1, h.2.1, h.2.2.1, h.2.2.2⟩,
      fun h => ⟨h.mandate, h.policy, h.principal, h.membership⟩⟩

-- ════════════════════════════════════════════════════════════════════════
-- Approvals and their bindings
-- ════════════════════════════════════════════════════════════════════════

/-- Every binding belongs to the author of a recorded decision. -/
def BindingsNamed (s : StudioState) : Prop :=
  ∀ binding ∈ s.tables.bindings, ∃ decision,
    s.runtime.effects.tables.approvals.find? binding.approvalDecisionId = some decision ∧
    binding.principalId = decision.author.principalId

/-- A step binds nothing, or the decision that it records. -/
theorem bindings_of_exec {s t : StudioState} {a : StudioAction}
    (h : s.exec ports zones a = .ok t) : t.tables.bindings = s.tables.bindings ∨
      ∃ binding decision, s.tables.bindings.insert? binding = some t.tables.bindings ∧
        t.runtime.effects.tables.approvals.find? binding.approvalDecisionId = some decision ∧
        binding.principalId = decision.author.principalId := by
  have hruntime := StudioState.runtime_of_exec h
  cases a with
  | governance action =>
    simp only [StudioState.exec, bind_eq_ok, pure_eq_ok] at h
    obtain ⟨_, _, rfl⟩ := h
    exact .inl rfl
  | assignWork work =>
    simp only [StudioState.exec, pure_eq_ok] at h
    subst h
    exact .inl rfl
  | admitTrigger cmd =>
    simp only [StudioState.exec, bind_eq_ok, pure_eq_ok, Prod.exists] at h
    obtain ⟨_, _, _, _, rfl⟩ := h
    exact .inl rfl
  | recordPolicyOutcome record =>
    simp only [StudioState.exec, bind_eq_ok, require_eq_ok, exists_const, pure_eq_ok] at h
    obtain ⟨_, _, _, rfl⟩ := h
    exact .inl rfl
  | commitSemanticDecision claim semantic =>
    have hstep : s.runtime.exec studioHooks (.commitSemanticDecision claim semantic) =
      .ok t.runtime := hruntime
    simp only [RuntimeState.exec, bind_eq_ok, pure_eq_ok] at hstep
    obtain ⟨_, _, store, hcommit, hstore⟩ := hstep
    obtain ⟨_, prepared, rest, _, _, _, _, hprepared, _, _, _, _, rfl⟩ :=
      RuntimeStore.commitSemanticDecision_eq_ok studioHooks hcommit
    have hrest : t.tables = rest := by rw [StudioState.tables, ← hstore]; rfl
    rw [hrest]
    obtain ⟨_, _, hcase⟩ := StudioTables.prepareSemanticDecision_eq_ok claim hprepared
    rcases hcase with ⟨_, _, rfl⟩ | ⟨_, _, _, _, rfl | ⟨_, _, _, _, rfl⟩⟩
    · exact .inl rfl
    · exact .inl rfl
    · exact .inl rfl
  | commitApproval i cmd =>
    have hstep : s.runtime.exec studioHooks (.commitApprovalAndAttempt cmd) = .ok t.runtime :=
      hruntime
    simp only [RuntimeState.exec, RuntimeStore.commitApprovalAndAttempt, bind_eq_ok, pure_eq_ok,
      Prod.exists, Prod.mk.injEq] at hstep
    obtain ⟨_, _, ⟨result, bound, effects, hcommit, _, rfl⟩, hstore⟩ := hstep
    have hrest : t.tables = bound.getD s.tables := by rw [StudioState.tables, ← hstore]; rfl
    have heffects : t.runtime.effects.tables = effects := by rw [← hstore]; rfl
    rw [hrest, heffects]
    rcases EffectTables.commitApprovalAndAttempt_eq_ok hcommit with ⟨_, rfl, _⟩ |
      ⟨proposal, b, decided, hauthorize, rfl, _, hdecided, hcase⟩
    · exact .inl rfl
    · right
      obtain ⟨_, _, _, hbound, _⟩ := EffectTables.authorizeApproval_eq_ok hauthorize
      have happrovals : effects.approvals = decided.approvals := by
        rcases hcase with ⟨_, rfl⟩ | ⟨_, henqueue⟩
        · rfl
        · obtain ⟨_, _, _, _, _, rfl⟩ := EffectTables.enqueueAttempt_eq_ok henqueue
          rfl
      obtain ⟨_, _, _, _, hinsert, _, rfl⟩ := EffectTables.insertDecision_eq_ok hdecided
      have hstored := Records.find?_insertRecord_self hinsert
      simp only [studioHooks, StudioTables.bindEffectApprovalAuthority, bind_eq_ok, orFail_eq_ok,
        pure_eq_ok] at hbound
      obtain ⟨membership, _, bindings, hbindings, rfl⟩ := hbound
      refine ⟨_, cmd.decision, hbindings, ?_, rfl⟩
      rw [happrovals]
      exact hstored
  | ingestEvent event idempotencyKey triggerId =>
    simp only [StudioState.exec, bind_eq_ok, require_eq_ok, exists_const] at h
    exact .inl (congrArg StudioTables.bindings (StudioState.tables_of_execRuntime_agenda h.2))
  | ingestTimer occurrence idempotencyKey triggerId =>
    simp only [StudioState.exec, bind_eq_ok, require_eq_ok, exists_const] at h
    exact .inl (congrArg StudioTables.bindings (StudioState.tables_of_execRuntime_agenda h.2))
  | agenda action =>
    have htables := StudioState.tables_of_execRuntime_agenda (StudioState.execAgenda_eq_ok h)
    exact .inl (congrArg StudioTables.bindings htables)
  | effect action =>
    have htables := StudioState.tables_of_execRuntime_effect (StudioState.execEffect_eq_ok h).1
    exact .inl (congrArg StudioTables.bindings htables)
  | startDispatch i occurredAt =>
    simp only [StudioState.exec, bind_eq_ok, pure_eq_ok] at h
    obtain ⟨_, _, _, _, u, hu, rfl⟩ := h
    have htables := StudioState.tables_of_execRuntime_effect hu
    exact .inl (congrArg StudioTables.bindings htables)
  | _ =>
    have hread : t.tables = s.tables :=
      congrArg RuntimeState.rest (StudioState.runtime_of_reads (by trivial) h)
    exact .inl (congrArg StudioTables.bindings hread)

theorem retains_of_exec {s t : StudioState} {a : StudioAction}
    (h : s.exec ports zones a = .ok t) :
    s.runtime.effects.tables.Retains t.runtime.effects.tables :=
  (RuntimeState.effects_move (StudioState.runtime_of_exec h)).retains

theorem bindingsNamed_of_exec {s t : StudioState} {a : StudioAction} (hs : BindingsNamed s)
    (h : s.exec ports zones a = .ok t) : BindingsNamed t := by
  have hkept : ∀ binding ∈ s.tables.bindings, ∃ decision,
      t.runtime.effects.tables.approvals.find? binding.approvalDecisionId = some decision ∧
      binding.principalId = decision.author.principalId := by
    intro binding hbinding
    obtain ⟨decision, hdecision, hnamed⟩ := hs binding hbinding
    exact ⟨decision, (retains_of_exec h).approvals _ _ hdecision, hnamed⟩
  intro binding hbinding
  rcases bindings_of_exec h with hsame | ⟨new, decision, hinsert, hdecision, hnamed⟩
  · exact hkept binding (hsame ▸ hbinding)
  · rcases (Table.mem_insert hinsert).mp hbinding with hold | rfl
    · exact hkept binding hold
    · exact ⟨decision, hdecision, hnamed⟩

theorem bindingsNamed_of_reachable {s : StudioState} (h : (studio ports zones).Reachable s) :
    BindingsNamed s := by
  refine h.invariant (I := BindingsNamed) ?_ fun _ _ _ hs hstep => bindingsNamed_of_exec hs hstep
  rintro _ rfl
  exact fun binding hbinding => absurd hbinding (Table.not_mem_empty binding)

-- ════════════════════════════════════════════════════════════════════════
-- What a dispatch has checked
-- ════════════════════════════════════════════════════════════════════════

/-- The one Mandate of a colleague is its active one. -/
theorem mandateBindings_of_find? {s : StudioState} (h : (studio ports zones).Reachable s)
    {mandateId : StableId} {mandate : Mandate}
    (hfind : s.configuration.mandates.find? mandateId = some mandate) :
    s.configuration.mandateBindings = [⟨mandate.mandateId, mandate.revision⟩] := by
  have hmem : mandate ∈ s.configuration.mandates.domain := Table.mem_of_find? hfind
  cases hc : s.tables.governance.store.colleague with
  | none =>
    have hempty : s.configuration = .empty := StudioTables.configuration_of_none hc
    rw [hempty] at hmem
    exact absurd hmem (Table.not_mem_empty mandate)
  | some c =>
    have hsource : s.configuration = c.tables := StudioTables.configuration_eq hc
    obtain ⟨base, hbase⟩ := (lineage_of_studio h).configured c hc
    rw [hsource, Table.mem_def, hbase.active.mandates, List.mem_singleton] at hmem
    rw [hsource, BuilderTables.mandateBindings, hbase.active.mandates, hmem]
    rfl

theorem policyBindings_of_getActivePolicy {s : BuilderTables} {active : Option ColleaguePolicy}
    (h : s.getActivePolicy = .ok active) :
    s.policyBindings = (active.map fun p => ⟨p.policyId, p.revision⟩).toList := by
  unfold BuilderTables.getActivePolicy at h
  unfold BuilderTables.policyBindings
  split at h
  · rename_i hrows
    obtain rfl := Except.ok.inj h
    rw [hrows]
    rfl
  · rename_i policy hrows
    obtain rfl := Except.ok.inj h
    rw [hrows]
    rfl
  · exact absurd h (by simp)

/-- The check of a proposal's policy compares it with the active one. -/
theorem policyBindings_of_requireBoundPolicy {s : StudioTables} {proposal : EffectProposal}
    {bound : Option ColleaguePolicy} (h : s.requireBoundPolicy proposal = .ok bound) :
    s.configuration.policyBindings = proposal.policy.toList := by
  simp only [StudioTables.requireBoundPolicy, bind_eq_ok] at h
  obtain ⟨active, hactive, h⟩ := h
  rw [policyBindings_of_getActivePolicy hactive]
  cases active with
  | none =>
    simp only [bind_eq_ok, require_eq_ok, exists_const] at h
    rw [h.1]
    rfl
  | some policy =>
    simp only [bind_eq_ok, require_eq_ok, exists_const] at h
    rw [h.1]
    rfl

/-- What is stored of a binding that was read: it is that of the approval's author. -/
structure StudioTables.Bound (s : StudioTables) (approval : HumanApprovalDecision)
    (binding : EffectApprovalBinding) : Prop where
  stored : s.bindings.find? approval.approvalDecisionId = some binding
  author : binding.principalId = approval.author.principalId

/-- The check of an approval finds the binding of its author. -/
theorem bound_of_requireApprovalBinding {s : StudioState} (hnamed : BindingsNamed s)
    {approval : HumanApprovalDecision} {evaluatedAt : Instant} {binding : EffectApprovalBinding}
    (hstored : s.runtime.effects.tables.approvals.find? approval.approvalDecisionId = some approval)
    (h : s.tables.requireApprovalBinding approval.approvalDecisionId evaluatedAt = .ok binding) :
    s.tables.Bound approval binding := by
  simp only [StudioTables.requireApprovalBinding, bind_eq_ok, orFail_eq_ok, require_eq_ok,
    exists_const, pure_eq_ok] at h
  obtain ⟨_, hbinding, _, rfl⟩ := h
  obtain ⟨decision, hdecision, hauthor⟩ := hnamed _ (Table.mem_of_find? hbinding)
  have hkey := Table.key_of_find? hbinding
  change EffectApprovalBinding.approvalDecisionId _ = approval.approvalDecisionId at hkey
  rw [hkey, hstored] at hdecision
  obtain rfl := Option.some.inj hdecision
  exact ⟨hbinding, hauthor⟩

/-- The check of the membership finds the authority that the binding was made with. -/
theorem approverCurrent_of_requireCurrentApprover {s : StudioTables}
    {approval : HumanApprovalDecision} {binding : EffectApprovalBinding} {principal : Principal}
    (hbound : s.Bound approval binding)
    (hprincipal : s.tenant.principals.find? approval.author.principalId = some principal)
    (h : s.requireCurrentApprover binding principal = .ok ()) : s.ApproverCurrent approval := by
  simp only [StudioTables.requireCurrentApprover, bind_eq_ok, require_eq_ok] at h
  obtain ⟨membership, hmembership, hcurrent⟩ := h
  obtain ⟨row, hrow, hfields⟩ := TenantTables.membershipForPrincipal_eq_ok hmembership
  rw [hbound.author] at hrow
  exact ⟨binding, principal, row, hbound.stored, hbound.author, hprincipal, hrow,
    hfields ▸ hcurrent⟩

/-- What a dispatch under way knows: the records it loaded are stored, and what it
    has read so far is current. -/
structure Dispatch.Checked (d : Dispatch) (s : StudioState) : Prop where
  proposed : s.runtime.effects.tables.proposals.find? d.claim.proposalId = some d.bundle.proposal
  approved : s.runtime.effects.tables.approvals.find? d.claim.approvalDecisionId =
    some d.bundle.approval
  mandate : 2 ≤ d.phase.reads →
    s.configuration.mandateBindings = d.bundle.proposal.mandate.toList ∧
      d.bundle.proposal.mandate ≠ none
  policy : 3 ≤ d.phase.reads →
    s.configuration.policyBindings = d.bundle.proposal.policy.toList
  binding : ∀ binding, d.phase = .bindingRead binding →
    s.tables.Bound d.bundle.approval binding
  principal : ∀ binding principal, d.phase = .principalRead binding principal →
    s.tables.Bound d.bundle.approval binding ∧
      s.tables.tenant.principals.find? d.bundle.approval.author.principalId = some principal
  approver : d.phase = .approvalChecked → s.tables.ApproverCurrent d.bundle.approval

/-- A dispatch loads stored records. -/
theorem stored_of_loadDispatchBundle {s : StudioState} {claim : OutboxClaim} {mandateId : StableId}
    {bundle : DispatchBundle}
    (h : s.runtime.store.loadDispatchBundle studioHooks claim mandateId = .ok bundle) :
    s.runtime.effects.tables.proposals.find? claim.proposalId = some bundle.proposal ∧
      s.runtime.effects.tables.approvals.find? claim.approvalDecisionId = some bundle.approval := by
  simp only [RuntimeStore.loadDispatchBundle, EffectTables.loadDispatchBundle, bind_eq_ok,
    Records.getRecord_eq_ok, orFail_eq_ok, require_eq_ok, exists_const, pure_eq_ok] at h
  obtain ⟨_, _, proposal, hproposal, approval, happroval, _, _, _, _, _, _, _, rfl⟩ := h
  exact ⟨hproposal, happroval⟩

/-- The checks against a Mandate compare the proposal with it. -/
theorem DispatchBundle.mandate_of_validate {bundle : DispatchBundle} {mandate : Mandate}
    {evaluatedAt : Instant} (h : bundle.validate mandate evaluatedAt = .ok ()) :
    bundle.proposal.mandate = some ⟨mandate.mandateId, mandate.revision⟩ := by
  simp only [DispatchBundle.validate, bind_eq_ok, require_eq_ok, exists_const] at h
  obtain ⟨hid, hrevision, _⟩ := h
  cases hm : bundle.proposal.mandate with
  | none =>
    rw [hm] at hid
    exact absurd hid (by simp)
  | some binding =>
    rw [hm] at hid hrevision
    rw [← Option.some.inj hid, ← Option.some.inj hrevision]

-- ════════════════════════════════════════════════════════════════════════
-- What a step keeps
-- ════════════════════════════════════════════════════════════════════════

/-- A colleague with a Mandate keeps its namespace. -/
theorem colleagueNamespace_of_exec {s t : StudioState} {a : StudioAction}
    (h : s.exec ports zones a = .ok t) (hlineage : Lineage ports s.tables.governance)
    (hs : s.configuration.mandateBindings ≠ []) :
    t.tables.colleagueNamespace = s.tables.colleagueNamespace := by
  obtain ⟨c, hc⟩ : ∃ c, s.tables.governance.store.colleague = some c := by
    refine Option.ne_none_iff_exists'.mp fun hnone => hs ?_
    rw [StudioState.configuration, StudioTables.configuration_of_none hnone]
    rfl
  obtain ⟨tables, ht⟩ : ∃ tables, t.tables = tables := ⟨_, rfl⟩
  have hmove := StudioState.move_of_exec h
  rw [ht] at hmove ⊢
  cases hmove with
  | frame hgovernance => rw [StudioTables.colleagueNamespace, hgovernance]; rfl
  | governance hexec =>
    obtain ⟨u, hu, _⟩ := configurationStep_of_exec hexec hlineage hc
    rw [StudioTables.colleagueNamespace, StudioTables.colleagueNamespace, hc, hu]
    rfl
  | admitted => rw [StudioTables.colleagueNamespace_withConfiguration]; rfl
  | record => rw [StudioTables.colleagueNamespace_withConfiguration]

/-- A binding stays once it is made. -/
theorem StudioTables.Bound.kept {s t : StudioState} {a : StudioAction}
    {approval : HumanApprovalDecision} {binding : EffectApprovalBinding}
    (hbound : s.tables.Bound approval binding) (h : s.exec ports zones a = .ok t) :
    t.tables.Bound approval binding := by
  refine ⟨?_, hbound.author⟩
  rcases bindings_of_exec h with hbindings | ⟨_, _, hinsert, _⟩
  · rw [hbindings]
    exact hbound.stored
  · exact Table.find?_insert_of_some hinsert hbound.stored

/-- What a dispatch knows it knows after a step that does not disturb it. -/
theorem Dispatch.Checked.kept {s t : StudioState} {a : StudioAction} {d : Dispatch}
    (hd : d.Checked s) (h : s.exec ports zones a = .ok t)
    (hlineage : Lineage ports s.tables.governance) (hmem : d ∈ s.dispatches)
    (hsame : Undisturbed ⟨s, a, t⟩) : d.Checked t where
  proposed := (retains_of_exec h).proposals _ _ hd.proposed
  approved := (retains_of_exec h).approvals _ _ hd.approved
  mandate hphase := by
    rw [hsame.mandate d hmem hphase]
    exact hd.mandate hphase
  policy hphase := by
    rw [hsame.policy d hmem hphase]
    exact hd.policy hphase
  binding binding hphase := (hd.binding binding hphase).kept h
  principal binding principal hphase := by
    obtain ⟨hbound, hprincipal⟩ := hd.principal binding principal hphase
    exact ⟨hbound.kept h, (hsame.principal d hmem (by simp [hphase])).trans hprincipal⟩
  approver hphase := by
    obtain ⟨binding, principal, membership, hbinding, hauthor, hprincipal, hmembership, hcurrent⟩ :=
      hd.approver hphase
    have hprincipals := hsame.principal d hmem (by simp [hphase])
    have hmemberships := hsame.membership d hmem (by simp [hphase])
    obtain ⟨hmandate, hsome⟩ := hd.mandate (by simp [hphase])
    have hnamespace := colleagueNamespace_of_exec h hlineage (by
      rw [hmandate]
      cases hm : d.bundle.proposal.mandate with
      | none => exact absurd hm hsome
      | some binding => simp)
    have hbound : t.tables.Bound d.bundle.approval binding :=
      StudioTables.Bound.kept ⟨hbinding, hauthor⟩ h
    refine ⟨binding, principal, membership, hbound.stored, hauthor, hprincipals.trans hprincipal,
      hmemberships.trans hmembership, ?_⟩
    rw [hnamespace]
    exact hcurrent

/-- A read that moves a dispatch on adds to what it knows; the rest stays. -/
theorem Dispatch.Checked.advance {s t : StudioState} {d : Dispatch} (hd : d.Checked s)
    (hread : t.runtime = s.runtime) {phase : DispatchPhase}
    (hmandate : 2 ≤ phase.reads → 2 ≤ d.phase.reads ∨
      s.configuration.mandateBindings = d.bundle.proposal.mandate.toList ∧
        d.bundle.proposal.mandate ≠ none)
    (hpolicy : 3 ≤ phase.reads → 3 ≤ d.phase.reads ∨
      s.configuration.policyBindings = d.bundle.proposal.policy.toList)
    (hbinding : ∀ binding, phase = .bindingRead binding → s.tables.Bound d.bundle.approval binding)
    (hprincipal : ∀ binding principal, phase = .principalRead binding principal →
      s.tables.Bound d.bundle.approval binding ∧
        s.tables.tenant.principals.find? d.bundle.approval.author.principalId = some principal)
    (happrover : phase = .approvalChecked → s.tables.ApproverCurrent d.bundle.approval) :
    Dispatch.Checked { d with phase := phase } t := by
  have hconfiguration : t.configuration = s.configuration := by
    rw [StudioState.configuration, StudioState.tables, hread]
    rfl
  have htables : t.tables = s.tables := congrArg RuntimeState.rest hread
  refine ⟨?_, ?_, fun hphase => ?_, fun hphase => ?_, ?_, ?_, ?_⟩
  · rw [hread]
    exact hd.proposed
  · rw [hread]
    exact hd.approved
  · rw [hconfiguration]
    exact (hmandate hphase).elim hd.mandate id
  · rw [hconfiguration]
    exact (hpolicy hphase).elim hd.policy id
  · rw [htables]
    exact hbinding
  · rw [htables]
    exact hprincipal
  · rw [htables]
    exact happrover

theorem checked_of_step {s t : StudioState} {a : StudioAction}
    (hreachable : (studio ports zones).Reachable s) (h : s.exec ports zones a = .ok t)
    (hchecked : ∀ d ∈ s.dispatches, d.Checked s) (hsame : Undisturbed ⟨s, a, t⟩) :
    ∀ d ∈ t.dispatches, d.Checked t := by
  have hkept : ∀ d ∈ s.dispatches, d.Checked t := fun d hd =>
    (hchecked d hd).kept h (lineage_of_studio hreachable) hd hsame
  -- the one dispatch that a read moves on
  have hset : ∀ {i : ℕ} {moved : Dispatch}, t.dispatches = s.dispatches.set i moved →
      moved.Checked t → ∀ d ∈ t.dispatches, d.Checked t := by
    intro i moved hdispatches hmoved d hd
    rw [hdispatches] at hd
    rcases List.mem_or_eq_of_mem_set hd with hold | rfl
    · exact hkept d hold
    · exact hmoved
  have hread : a.reads → t.runtime = s.runtime := fun ha => StudioState.runtime_of_reads ha h
  cases StudioState.proceeds_of_exec h with
  | frame _ _ hdispatches => exact fun d hd => hkept d (hdispatches ▸ hd)
  | admitted _ _ _ _ _ hdispatches => exact fun d hd => hkept d (hdispatches ▸ hd)
  | review _ _ _ _ hdispatches => exact fun d hd => hkept d (hdispatches ▸ hd)
  | reviewed _ _ _ _ _ hdispatches => exact fun d hd => hkept d (hdispatches ▸ hd)
  | decide _ _ hdispatches => exact fun d hd => hkept d (hdispatches ▸ hd)
  | close _ _ hdispatches =>
    exact fun d hd => hkept d (List.mem_of_mem_eraseIdx (hdispatches ▸ hd))
  | load hbundle _ _ hdispatches =>
    intro d hd
    rw [hdispatches] at hd
    rcases List.mem_append.mp hd with hold | hnew
    · exact hkept d hold
    · obtain rfl := List.mem_singleton.mp hnew
      obtain ⟨hproposal, happroval⟩ := stored_of_loadDispatchBundle hbundle
      exact ⟨(retains_of_exec h).proposals _ _ hproposal,
        (retains_of_exec h).approvals _ _ happroval, by simp, by simp, by simp, by simp, by simp⟩
  | validate hdispatch _ hmandate hvalid _ _ hdispatches =>
    have hd := hchecked _ (List.mem_of_getElem? hdispatch)
    refine hset hdispatches (hd.advance (hread trivial) (fun _ => .inr ?_) (by simp) (by simp)
      (by simp) (by simp))
    have hactive := mandateBindings_of_find? hreachable hmandate
    rw [DispatchBundle.mandate_of_validate hvalid]
    exact ⟨hactive, by simp⟩
  | @authorizePolicy _ _ active hdispatch hphase hcheck _ _ hdispatches =>
    have hd := hchecked _ (List.mem_of_getElem? hdispatch)
    have hbound := policyBindings_of_requireBoundPolicy hcheck
    cases active with
    | none =>
      exact hset hdispatches (hd.advance (hread trivial) (fun _ => .inl (by simp [hphase]))
        (fun _ => .inr hbound) (by simp) (by simp) (by simp))
    | some policy =>
      exact hset hdispatches (hd.advance (hread trivial) (fun _ => .inl (by simp [hphase]))
        (fun _ => .inr hbound) (by simp) (by simp) (by simp))
  | authorizeRunState hdispatch hphase _ _ _ hdispatches =>
    have hd := hchecked _ (List.mem_of_getElem? hdispatch)
    exact hset hdispatches (hd.advance (hread trivial) (fun _ => .inl (by simp [hphase]))
      (fun _ => .inl (by simp [hphase])) (by simp) (by simp) (by simp))
  | @authorizeBinding _ _ dispatch binding hdispatch hphase hcheck _ _ hdispatches =>
    have hd := hchecked _ (List.mem_of_getElem? hdispatch)
    refine hset hdispatches (hd.advance (hread trivial) (fun _ => .inl (by simp [hphase]))
      (fun _ => .inl (by simp [hphase])) (fun found hfound => ?_) (by simp) (by simp))
    obtain rfl := DispatchPhase.bindingRead.inj hfound
    have hstored := hd.approved
    have hkey : dispatch.bundle.approval.approvalDecisionId = dispatch.claim.approvalDecisionId :=
      Records.key_of_find? hstored
    rw [← hkey] at hstored
    exact bound_of_requireApprovalBinding (bindingsNamed_of_reachable hreachable) hstored hcheck
  | authorizePrincipal hdispatch hphase hprincipal _ _ hdispatches =>
    have hd := hchecked _ (List.mem_of_getElem? hdispatch)
    refine hset hdispatches (hd.advance (hread trivial) (fun _ => .inl (by simp [hphase]))
      (fun _ => .inl (by simp [hphase])) (by simp) (fun binding principal hfound => ?_) (by simp))
    obtain ⟨rfl, rfl⟩ := DispatchPhase.principalRead.inj hfound
    have hbound := hd.binding _ hphase
    rw [TenantTables.getPrincipal, orFail_eq_ok, hbound.author] at hprincipal
    exact ⟨hbound, hprincipal⟩
  | authorizeMembership hdispatch hphase hcheck _ _ hdispatches =>
    have hd := hchecked _ (List.mem_of_getElem? hdispatch)
    obtain ⟨hbound, hprincipal⟩ := hd.principal _ _ hphase
    exact hset hdispatches (hd.advance (hread trivial) (fun _ => .inl (by simp [hphase]))
      (fun _ => .inl (by simp [hphase])) (by simp) (by simp)
      fun _ => approverCurrent_of_requireCurrentApprover hbound hprincipal hcheck)

/-- In a run that disturbs no dispatch, what the dispatches under way have checked
    is current. -/
theorem checked_of_path {s : StudioState} {tr : List StudioStep}
    (h : (studio ports zones).Path .initial tr s) (hsame : ∀ e ∈ tr, Undisturbed e) :
    ∀ d ∈ s.dispatches, d.Checked s := by
  induction h with
  | refl => exact fun d hd => absurd hd List.not_mem_nil
  | @snoc t u a tr hpath hstep ih =>
    refine checked_of_step (hpath.reachable (.init rfl)) hstep
      (ih fun e he => hsame e (by simp [he])) (hsame _ (by simp))

-- ════════════════════════════════════════════════════════════════════════
-- Starts
-- ════════════════════════════════════════════════════════════════════════

/-- A step moves an attempt to its started state. -/
def StartsAttempt (e : StudioStep) (attempt : EffectAttempt) : Prop :=
  e.source.runtime.effects.tables.attempts.find? attempt.effectAttemptId ≠ some attempt ∧
    e.target.runtime.effects.tables.attempts.find? attempt.effectAttemptId = some attempt ∧
    attempt.state = .started

instance (e : StudioStep) (attempt : EffectAttempt) : Decidable (StartsAttempt e attempt) :=
  inferInstanceAs (Decidable (_ ∧ _))

/-- A first attempt is planned, not started. -/
theorem started_of_enqueueAttempt {s t : EffectTables} {proposal : EffectProposal}
    {cmd : ApprovalCommand} (h : s.enqueueAttempt proposal cmd = .ok t) {id : StableId}
    {found : EffectAttempt} (hfound : t.attempts.find? id = some found)
    (hstarted : found.state = .started) : s.attempts.find? id = some found := by
  obtain ⟨attempts, _, _, hinsert, _, rfl⟩ := EffectTables.enqueueAttempt_eq_ok h
  have hfind : attempts.find? id = some found := hfound
  rw [Records.find?_insertRecord hinsert] at hfind
  split at hfind
  · obtain rfl := Option.some.inj hfind
    exact absurd hstarted (by simp [firstAttempt])
  · exact hfind

theorem started_of_runtime {ε : Type} {hooks : StoreHooks ε} {s t : RuntimeState ε}
    {a : RuntimeAction ε} (h : s.exec hooks a = .ok t)
    (hstarts : ∀ claim occurredAt, a ≠ .effect (.markDispatchStarted claim occurredAt))
    {id : StableId} {found : EffectAttempt}
    (hfound : t.effects.tables.attempts.find? id = some found) (hstarted : found.state = .started) :
    s.effects.tables.attempts.find? id = some found := by
  cases a with
  | effect action =>
    simp only [RuntimeState.exec, bind_eq_ok, pure_eq_ok] at h
    obtain ⟨effects, heffects, rfl⟩ := h
    have hquiet := EffectSide.quiet_of_exec heffects fun claim occurredAt heq =>
      hstarts claim occurredAt (by rw [heq])
    exact hquiet.attempts id found hfound hstarted
  | commitApprovalAndAttempt cmd =>
    simp only [RuntimeState.exec, bind_eq_ok, pure_eq_ok, Prod.exists,
      RuntimeStore.commitApprovalAndAttempt, Prod.mk.injEq] at h
    obtain ⟨_, _, ⟨_, _, effects, happroval, _, rfl⟩, rfl⟩ := h
    rcases EffectTables.commitApprovalAndAttempt_eq_ok happroval with ⟨_, _, rfl⟩ |
      ⟨proposal, b, decided, _, _, _, hdecided, hcase⟩
    · exact hfound
    · obtain ⟨_, _, _, _, _, _, rfl⟩ := EffectTables.insertDecision_eq_ok hdecided
      rcases hcase with ⟨_, rfl⟩ | ⟨_, henqueue⟩
      · exact hfound
      · exact started_of_enqueueAttempt henqueue hfound hstarted
  | agenda action =>
    simp only [RuntimeState.exec, bind_eq_ok, pure_eq_ok] at h
    obtain ⟨_, _, rfl⟩ := h
    exact hfound
  | commitSemanticDecision claim semantic =>
    simp only [RuntimeState.exec, bind_eq_ok, pure_eq_ok] at h
    obtain ⟨_, _, store, hstore, rfl⟩ := h
    obtain ⟨_, _, _, _, _, _, _, _, _, _, _, _, rfl⟩ :=
      RuntimeStore.commitSemanticDecision_eq_ok hooks hstore
    exact hfound
  | loadDispatchBundle claim mandateId =>
    simp only [RuntimeState.exec, bind_eq_ok, pure_eq_ok] at h
    obtain ⟨_, _, _, _, rfl⟩ := h
    exact hfound
  | environment rest =>
    obtain rfl := Except.ok.inj h
    exact hfound

/-- The attempt that a claim starts belongs to the proposal and the decision of
    the claim. -/
theorem EffectTables.Tracked.claimed {s t : EffectTables} (hs : s.Tracked) {claim : OutboxClaim}
    {occurredAt : Instant} {started attempt : EffectAttempt}
    (h : s.markDispatchStarted claim occurredAt = .ok (started, t))
    (hnew : s.attempts.find? attempt.effectAttemptId ≠ some attempt)
    (hfound : t.attempts.find? attempt.effectAttemptId = some attempt) :
    attempt.proposalId = claim.proposalId ∧ attempt.approvalDecisionId = claim.approvalDecisionId := by
  obtain ⟨row, old, attempts, hrow, hold, _, hupdate, rfl, rfl⟩ := markDispatchStarted_eq_ok h
  obtain ⟨hfind, _, _, _, _, _, hproposal, happroval, hattempt, _⟩ := requireOutboxClaim_eq_ok hrow
  have hmem : row ∈ s.outbox := Table.mem_of_find? hfind
  have hupdated : attempts.find? attempt.effectAttemptId = some attempt := hfound
  rw [Records.find?_updateRecord hupdate] at hupdated
  split at hupdated
  · obtain rfl := Option.some.inj hupdated
    obtain ⟨current, hcurrent, hcited, _⟩ := (hs.row row hmem).current
    rw [hattempt, hold] at hcurrent
    obtain rfl := Option.some.inj hcurrent
    obtain ⟨r, hr, hrapproval, hrproposal⟩ := hs.owned old (Table.mem_of_find? hold)
    have hsame : r = row := hs.unique r hr row hmem (.inl (hrapproval.trans hcited))
    rw [hsame] at hrproposal
    exact ⟨hrproposal.symm.trans hproposal, hcited.trans happroval⟩
  · exact absurd hupdated hnew

theorem runtime_of_studio {s : StudioState} (h : (studio ports zones).Reachable s) :
    (runtime studioHooks).Reachable s.runtime := by
  induction h with
  | init h0 =>
    obtain rfl := h0
    exact .init ⟨_, rfl⟩
  | step _ hstep ih => exact ih.step (StudioState.runtime_of_exec hstep)

/-- In a run that disturbs no dispatch under way, every attempt is started under
    the Mandate, the policy and the approver's authority of the state it is
    started in. -/
theorem dispatch_current {s : StudioState} {tr : List StudioStep}
    (h : (studio ports zones).Path .initial tr s) (hsame : ∀ e ∈ tr, Undisturbed e) :
    ∀ e ∈ tr, ∀ attempt, StartsAttempt e attempt →
      ∃ proposal approval, e.source.MayStart attempt proposal approval := by
  rintro e he attempt ⟨hnew, hfound, hstarted⟩
  obtain ⟨before, after, rfl⟩ := List.mem_iff_append.mp he
  obtain ⟨hbefore, hstep, _⟩ := h.of_append_cons
  have hreachable := hbefore.reachable (.init rfl)
  have hchecked := checked_of_path hbefore fun x hx => hsame x (by simp [hx])
  have hruntime := StudioState.runtime_of_exec hstep
  have hother : (∀ claim occurredAt, StudioState.runtimeAction e.target e.source.dispatches e.action ≠
      .effect (.markDispatchStarted claim occurredAt)) → False := fun hstarts =>
    hnew (started_of_runtime hruntime hstarts hfound hstarted)
  cases ha : e.action with
  | startDispatch i occurredAt =>
    rw [ha] at hstep
    have hexec : e.source.exec ports zones (.startDispatch i occurredAt) = .ok e.target := hstep
    simp only [StudioState.exec, StudioState.process, bind_eq_ok, orFail_eq_ok, require_eq_ok,
      exists_const, pure_eq_ok] at hexec
    obtain ⟨dispatch, hdispatch, hphase, u, hu, ht⟩ := hexec
    have hd := hchecked dispatch (List.mem_of_getElem? hdispatch)
    obtain ⟨hmark, _⟩ := StudioState.execRuntime_eq_ok hu
    simp only [RuntimeState.exec, EffectSide.exec, bind_eq_ok, pure_eq_ok, Prod.exists] at hmark
    obtain ⟨_, ⟨_, _, started, tables, hmark, rfl⟩, hruntimeEq⟩ := hmark
    have htables : e.target.runtime.effects.tables = tables := by
      rw [← ht]
      show u.runtime.effects.tables = tables
      rw [← hruntimeEq]
    rw [htables] at hfound
    have htracked := tracked_of_reachable (runtime_of_studio hreachable)
    obtain ⟨hproposal, happroval⟩ := htracked.claimed hmark hnew hfound
    refine ⟨dispatch.bundle.proposal, dispatch.bundle.approval, ?_, ?_,
      hd.mandate (by simp [hphase]), hd.policy (by simp [hphase]), hd.approver hphase⟩
    · rw [hproposal]
      exact hd.proposed
    · rw [happroval]
      exact hd.approved
  | effect action =>
    rw [ha] at hstep
    obtain ⟨_, hnot⟩ := StudioState.execEffect_eq_ok hstep
    rw [ha] at hother
    exact (hother fun claim occurredAt heq =>
      hnot claim occurredAt (RuntimeAction.effect.inj heq)).elim
  | _ =>
    rw [ha] at hother
    exact (hother (by simp [StudioState.runtimeAction])).elim

-- ════════════════════════════════════════════════════════════════════════
-- A change between the last check and the start
-- ════════════════════════════════════════════════════════════════════════

/-- The sample proposal approved, and its dispatch checked. -/
def sampleDispatchChecked : List (StudioState → StudioAction) :=
  sampleProposed ++
    [fun _ => .reviewProposal (stableId "proposal-1") .approve, fun _ => .reviewRunState 0,
      fun _ => .commitApproval 0 sampleApproves,
      fun _ => .effect (.claimOutbox sampleWorker.principalId 300 400),
      fun s => match s.runtime.effects.outboxClaims.getLast? with
        | none => .abandonDispatch 0
        | some claim => .loadDispatch claim (stableId "mandate-1"),
      fun _ => .validateDispatch 0 (stableId "mandate-1") 310, fun _ => .authorizePolicy 0,
      fun _ => .authorizeRunState 0, fun _ => .authorizeBinding 0 310,
      fun _ => .authorizePrincipal 0, fun _ => .authorizeMembership 0]

/-- The start of the sample attempt. -/
def sampleStarted : EffectAttempt where
  effectAttemptId := stableId "attempt-1"
  proposalId := stableId "proposal-1"
  proposalRevision := 1
  approvalDecisionId := stableId "approval-1"
  attemptNumber := 1
  state := .started
  actor := sampleWorker
  correlationId := stableId "correlation-1"
  occurredAt := 320
  revision := 2

/-- A new policy revision is confirmed before the checked dispatch starts. -/
def sampleSuperseded : List (StudioState → StudioAction) :=
  sampleDispatchChecked ++
    sampleGoverned
      (sampleRevision 2 (stableId "draft-2") { PolicyEdit.none with wakeLimit := some 9 }) ++
    [fun _ => .startDispatch 0 320]

/-- A step starts the sample attempt under another policy revision than the active one. -/
def startsSuperseded (e : StudioStep) : Bool :=
  decide (StartsAttempt e sampleStarted) &&
    (e.source.runtime.effects.tables.proposals.find? sampleStarted.proposalId).any fun proposal =>
      decide (e.source.configuration.policyBindings ≠ proposal.policy.toList)

set_option maxRecDepth 8000 in
theorem dispatch_current_undisturbed :
    ∃ tr s, (studio samplePorts sampleZones).Path .initial tr s ∧
      ∃ e ∈ tr, StartsAttempt e sampleStarted ∧
        ∃ proposal approval, e.source.MayStart sampleStarted proposal approval := by
  obtain ⟨tr, s, hpath, hp⟩ := exists_studio_path samplePorts sampleZones
    (sampleDispatchChecked ++ [fun _ => .startDispatch 0 320])
    (fun tr _ => tr.all (fun e => decide (Undisturbed e)) &&
      tr.any fun e => decide (StartsAttempt e sampleStarted)) (by decide +kernel)
  simp only [Bool.and_eq_true, List.all_eq_true, List.any_eq_true, decide_eq_true_eq] at hp
  obtain ⟨hsame, e, he, hstarts⟩ := hp
  exact ⟨tr, s, hpath, e, he, hstarts, dispatch_current hpath hsame e he sampleStarted hstarts⟩

set_option maxRecDepth 8000 in
/-- An attempt can be started for a proposal whose policy is not the active one. -/
theorem dispatch_current_superseded :
    ¬∀ tr s, (studio samplePorts sampleZones).Path .initial tr s →
      ∀ e ∈ tr, ∀ attempt, StartsAttempt e attempt →
        ∃ proposal approval, e.source.MayStart attempt proposal approval := by
  intro hclaim
  obtain ⟨tr, s, hpath, hp⟩ := exists_studio_path samplePorts sampleZones sampleSuperseded
    (fun tr _ => tr.any startsSuperseded) (by decide +kernel)
  simp only [List.any_eq_true, startsSuperseded, Bool.and_eq_true, decide_eq_true_eq,
    Option.any_eq_true] at hp
  obtain ⟨e, he, hstarts, proposal, hproposal, hstale⟩ := hp
  obtain ⟨found, approval, hmay⟩ := hclaim tr s hpath e he sampleStarted hstarts
  obtain rfl := Option.some.inj (hmay.proposed.symm.trans hproposal)
  exact hstale hmay.policy

end DigitalColleagues
