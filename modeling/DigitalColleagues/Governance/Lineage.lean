import DigitalColleagues.Governance.Configuration
import DigitalColleagues.Governance.Provenance

/-!
# The lineage of a configuration

A colleague has one active configuration. Only a confirmation replaces it, by the
content of a draft that was built from exactly this configuration and reviewed.

## Main definitions

- `BuilderTables.Configured` — one active configuration, its policy bound to it
- `Lineage` — the invariant of runs
- `ConfirmsDraft` — a step that confirms a draft
-/

namespace DigitalColleagues

open Keyed

namespace BuilderTables

/-- One active configuration with its policy bound to its mandate; stored
    policies have one identifier and count their revisions from one. -/
structure Configured (policyId : StableId) (s : BuilderTables) (base : BaseValues) : Prop where
  active : s.Active base
  bound : base.Bound
  policies : ∀ a ∈ s.policies.audit, a.recordId = policyId ∧ 0 < a.recordRevision

/-- Every draft was built from a configuration that was stored. -/
def Sourced (ports : GovernancePorts) (policyId : StableId) (s : BuilderTables) : Prop :=
  ∀ d ∈ s.drafts, ∃ base, s.Recorded base ∧ BuiltFrom ports policyId d base

variable {ports : GovernancePorts} {policyId : StableId} {reads : ConfigurationReads}
  {s t : BuilderTables}

/-- What was stored belongs to the colleague. -/
theorem Configured.sameColleague {base other : BaseValues} (h : s.Configured policyId base)
    (hother : s.Recorded other) : base.SameColleague policyId other where
  profileId := by
    obtain ⟨r, hr, hkey, _⟩ := s.profiles.bounded _ hother.profile
    rw [Table.mem_def, h.active.profiles] at hr
    obtain rfl := List.mem_singleton.mp hr
    exact hkey.symm
  mandateId := by
    obtain ⟨r, hr, hkey, _⟩ := s.mandates.bounded _ hother.mandate
    rw [Table.mem_def, h.active.mandates] at hr
    obtain rfl := List.mem_singleton.mp hr
    exact hkey.symm
  policy p hp := h.policies _ (hother.policy p hp)

/-- The revisions a draft is compared with are the active ones. -/
theorem Configured.currentRevisions {base : BaseValues} (h : s.Configured policyId base)
    (hsourced : s.Sourced ports policyId) {draft : ColleagueDraft} (hdraft : draft ∈ s.drafts) :
    s.currentRevisions draft = .ok base.revisions := by
  obtain ⟨source, hrecorded, hbuilt⟩ := hsourced draft hdraft
  have hself := h.sameColleague h.active.recorded
  have hsame := h.sameColleague hrecorded
  have hprofile : s.profiles.find? draft.proposedProfile.profileId = some base.profile := by
    refine Table.find?_eq_some.mpr ⟨?_, ?_⟩
    · rw [Table.mem_def, h.active.profiles]
      exact List.mem_singleton_self _
    · exact (hbuilt.profileId.trans hsame.profileId).symm
  have hmandate : s.mandates.find? draft.proposedMandate.mandateId = some base.mandate := by
    refine Table.find?_eq_some.mpr ⟨?_, ?_⟩
    · rw [Table.mem_def, h.active.mandates]
      exact List.mem_singleton_self _
    · exact (hbuilt.mandateId.trans hsame.mandateId).symm
  have hpolicyId : draft.proposedPolicy.policyId = policyId := by
    rw [hbuilt.policyId]
    cases hp : source.policy with
    | none => rfl
    | some p => exact (hsame.policy p hp).1
  have hpolicy : (s.policies.find? draft.proposedPolicy.policyId).elim 0 ColleaguePolicy.revision =
      base.policy.elim 0 ColleaguePolicy.revision := by
    cases hp : base.policy with
    | none =>
      have hnone : s.policies.find? draft.proposedPolicy.policyId = none := by
        rw [Records.find?, Table.find?_eq_none]
        intro r hr
        rw [Table.mem_def, h.active.policies, hp] at hr
        exact absurd hr (by simp)
      rw [hnone]
    | some p =>
      have hsome : s.policies.find? draft.proposedPolicy.policyId = some p := by
        refine Table.find?_eq_some.mpr ⟨?_, ?_⟩
        · rw [Table.mem_def, h.active.policies, hp]
          exact List.mem_singleton_self p
        · exact ((hself.policy p hp).1).trans hpolicyId.symm
      rw [hsome]
  simp only [BuilderTables.currentRevisions, bind_eq_ok, pure_eq_ok, Records.getRecord_eq_ok]
  refine ⟨base.profile, hprofile, base.mandate, hmandate, ?_⟩
  rw [hpolicy, BaseValues.revisions]

/-- A draft over the active revisions was built from the active configuration. -/
theorem Configured.builtFrom {base : BaseValues} (h : s.Configured policyId base)
    (hsourced : s.Sourced ports policyId) {draft : ColleagueDraft} (hdraft : draft ∈ s.drafts)
    (hcurrent : s.currentRevisions draft = .ok draft.baseRevisions) :
    BuiltFrom ports policyId draft base := by
  obtain ⟨source, hrecorded, hbuilt⟩ := hsourced draft hdraft
  have hrevisions : base.revisions = draft.baseRevisions :=
    Except.ok.inj ((h.currentRevisions hsourced hdraft).symm.trans hcurrent)
  have heq : source = base :=
    hrecorded.eq_of_revisions h.active (h.sameColleague hrecorded)
      (h.sameColleague h.active.recorded) (hbuilt.revisions.symm.trans hrevisions.symm)
  exact heq ▸ hbuilt

end BuilderTables

/-- Whatever was read of a configuration was stored. -/
structure ConfigurationReads.StoredIn (reads : ConfigurationReads) (s : BuilderTables) : Prop where
  profiles : ∀ p ∈ reads.profiles, auditRecord p ∈ s.profiles.audit
  mandates : ∀ m ∈ reads.mandates, auditRecord m ∈ s.mandates.audit
  policies : ∀ o ∈ reads.policies, ∀ p ∈ o, auditRecord p ∈ s.policies.audit

theorem ConfigurationReads.StoredIn.base {reads : ConfigurationReads} {s : BuilderTables}
    (h : reads.StoredIn s) {i : BaseReads} {base : BaseValues} (hbase : reads.base i = .ok base) :
    s.Recorded base := by
  simp only [ConfigurationReads.base, bind_eq_ok, orFail_eq_ok, pure_eq_ok] at hbase
  obtain ⟨profile, hprofile, mandate, hmandate, policy, hpolicy, rfl⟩ := hbase
  exact ⟨h.profiles _ (List.mem_of_getElem? hprofile), h.mandates _ (List.mem_of_getElem? hmandate),
    h.policies _ (List.mem_of_getElem? hpolicy)⟩

theorem ConfigurationReads.StoredIn.mono {reads : ConfigurationReads} {s t : BuilderTables}
    (h : reads.StoredIn s) (hprofiles : ∀ a ∈ s.profiles.audit, a ∈ t.profiles.audit)
    (hmandates : ∀ a ∈ s.mandates.audit, a ∈ t.mandates.audit)
    (hpolicies : ∀ a ∈ s.policies.audit, a ∈ t.policies.audit) : reads.StoredIn t :=
  ⟨fun p hp => hprofiles _ (h.profiles p hp), fun m hm => hmandates _ (h.mandates m hm),
    fun o ho p hp => hpolicies _ (h.policies o ho p hp)⟩

namespace BuilderTables

variable {ports : GovernancePorts} {policyId : StableId} {reads : ConfigurationReads}
  {review : ColleagueDraft → Prop} {s t : BuilderTables}

theorem Configured.draftStep {base : BaseValues} (h : s.Configured policyId base)
    (hstep : s.DraftStep ports policyId reads review t) : t.Configured policyId base := by
  rw [hstep.frame]
  exact ⟨⟨h.active.profiles, h.active.mandates, h.active.policies⟩, h.bound, h.policies⟩

theorem Sourced.draftStep (h : s.Sourced ports policyId) (hreads : reads.StoredIn s)
    (hstep : s.DraftStep ports policyId reads review t) : t.Sourced ports policyId := by
  have hrecorded : ∀ {base}, s.Recorded base → t.Recorded base := fun hr => by
    rw [hstep.frame]
    exact ⟨hr.profile, hr.mandate, hr.policy⟩
  intro d hd
  cases hstep.origin d hd with
  | kept hd =>
    obtain ⟨base, hbase, hbuilt⟩ := h d hd
    exact ⟨base, hrecorded hbase, hbuilt⟩
  | built hbase hbuilt _ => exact ⟨_, hrecorded (hreads.base hbase), hbuilt⟩
  | moved hother hstate _ =>
    obtain ⟨base, hbase, hbuilt⟩ := h _ hother
    exact ⟨base, hrecorded hbase, hbuilt.of_inStateOf hstate⟩

end BuilderTables

/-- A confirmation leaves a bound configuration. -/
theorem Confirmation.configured {ports : GovernancePorts} {policyId : StableId}
    {s t : BuilderTables} {cmd : ConfirmDraftCommand} {draft : ColleagueDraft}
    {base next : BaseValues} (h : Confirmation s cmd draft base next t)
    (hs : s.Configured policyId base) (hbuilt : BuiltFrom ports policyId draft base) :
    t.Configured policyId next := by
  obtain ⟨p, hp, hkept, hwritten⟩ := h.replaces.policy
  refine ⟨h.target, fun q hq => ?_, fun a ha => ?_⟩
  · obtain rfl := Option.some.inj (hp.symm.trans hq)
    cases hchanged : BuilderTables.policyChanges base.policy draft with
    | true =>
      obtain ⟨_, _, hid, hrevision, _⟩ := hwritten hchanged
      exact ⟨hid, hrevision⟩
    | false =>
      -- the policy kept its content, in particular its mandate, so the mandate stayed
      have hbase := hkept hchanged
      obtain ⟨hid, hrevision⟩ := hs.bound p hbase
      obtain ⟨_, hproposed⟩ := hbuilt.bound hs.bound
      have hsame : samePolicyContent p draft.proposedPolicy = true := by
        simpa [BuilderTables.policyChanges, hbase] using hchanged
      have hmandate : p.mandateRevision = draft.proposedPolicy.mandateRevision := by
        simp only [samePolicyContent, Bool.and_eq_true] at hsame
        exact eq_of_beq hsame.1.1.1.1.1.1.1.1.1.1.1.1.2
      have hkeep : sameMandateContent base.mandate draft.proposedMandate = true := by
        by_contra hne
        rw [if_neg hne] at hproposed
        omega
      rw [h.replaces.mandateId, h.replaces.mandateRevision, if_pos hkeep]
      exact ⟨hid, hrevision⟩
  · rcases h.audits.positive a ha with ha | hpos
    · exact hs.policies a ha
    · refine ⟨?_, hpos⟩
      obtain ⟨r, hr, hkey, _⟩ := t.policies.bounded a ha
      rw [Table.mem_def, h.target.policies, hp] at hr
      obtain rfl := List.mem_singleton.mp hr
      rw [← hkey]
      cases hchanged : BuilderTables.policyChanges base.policy draft with
      | true =>
        refine (hwritten hchanged).1.trans (hbuilt.policyId.trans ?_)
        cases hb : base.policy with
        | none => rfl
        | some q => exact (hs.sameColleague hs.active.recorded).policy q hb |>.1
      | false =>
        exact ((hs.sameColleague hs.active.recorded).policy _ (hkept hchanged)).1

theorem Confirmation.sourced {ports : GovernancePorts} {policyId : StableId}
    {s t : BuilderTables} {cmd : ConfirmDraftCommand} {draft : ColleagueDraft}
    {base next : BaseValues} (h : Confirmation s cmd draft base next t)
    (hs : s.Sourced ports policyId) : t.Sourced ports policyId := by
  obtain ⟨confirmed, hstate, _, hdrafts⟩ := h.confirmed
  have hkey : key confirmed = draft.draftId := by
    show confirmed.draftId = draft.draftId
    rw [hstate]
  intro d hd
  rw [hdrafts] at hd
  rcases (Table.mem_replace (hkey ▸ h.stored)).mp hd with rfl | ⟨hd, _⟩
  · obtain ⟨base, hbase, hbuilt⟩ := hs draft (Table.mem_of_find? h.stored)
    exact ⟨base, hbase.mono h.audits, hbuilt.of_inStateOf hstate⟩
  · obtain ⟨base, hbase, hbuilt⟩ := hs d hd
    exact ⟨base, hbase.mono h.audits, hbuilt⟩

-- ════════════════════════════════════════════════════════════════════════
-- The invariant
-- ════════════════════════════════════════════════════════════════════════

/-- The configuration tables of the colleague, if there is one. -/
def GovernanceState.configuration (s : GovernanceState) : BuilderTables :=
  s.store.colleague.elim .empty Colleague.tables

/-- Reads were stored, and the colleague has one bound configuration and drafts
    that were built from stored ones. -/
structure Lineage (ports : GovernancePorts) (s : GovernanceState) : Prop where
  reads : s.reads.StoredIn s.configuration
  configured : ∀ c ∈ s.store.colleague, ∃ base,
    c.tables.Configured (ports.policyId c.colleagueId) base
  sourced : ∀ c ∈ s.store.colleague, c.tables.Sourced ports (ports.policyId c.colleagueId)

theorem lineage_initial (ports : GovernancePorts) : Lineage ports .initial :=
  ⟨⟨fun _ hp => absurd hp List.not_mem_nil, fun _ hm => absurd hm List.not_mem_nil,
      fun _ ho => absurd ho List.not_mem_nil⟩,
    fun _ hc => absurd hc (by simp [GovernanceState.initial, GovernanceStore.empty]),
    fun _ hc => absurd hc (by simp [GovernanceState.initial, GovernanceStore.empty])⟩

/-- The tables of a namespace are those of the colleague or none. -/
theorem GovernanceStore.tables_eq {s : GovernanceStore} {c : Colleague}
    (h : s.colleague = some c) (colleagueId : StableId) :
    s.tables colleagueId = if c.colleagueId = colleagueId then c.tables else .empty := by
  rw [tables, h]

theorem GovernanceStore.withTables_eq {s : GovernanceStore} {c : Colleague}
    (h : s.colleague = some c) (colleagueId : StableId) (tables : BuilderTables) :
    (s.withTables colleagueId tables).colleague =
      some { c with tables := if c.colleagueId = colleagueId then tables else c.tables } := by
  simp only [withTables, h, Option.map_some]
  split <;> rfl

theorem confirmDraft_empty {tenant : TenantTables} {colleagueId : StableId}
    {cmd : ConfirmDraftCommand} {x : Outcome ConfirmationResult × TenantTables × BuilderTables} :
    confirmDraft tenant .empty colleagueId cmd ≠ .ok x := by
  intro h
  simp only [confirmDraft, bind_eq_ok] at h
  obtain ⟨_, _, h⟩ := h
  split at h
  · rename_i hfind
    exact absurd hfind (by simp [BuilderTables.empty, Table.empty])
  · simp only [bind_eq_ok] at h
    obtain ⟨_, hdraft, _⟩ := h
    exact absurd hdraft (by simp [BuilderTables.getDraft, BuilderTables.empty, Table.empty,
      Table.find?, orFail])

/-- The review of a draft at its revision. -/
def GovernanceAction.Reviews (a : GovernanceAction) (draft : ColleagueDraft) : Prop :=
  ∃ colleagueId action, a = .builder colleagueId action ∧ action.Reviews draft

/-- A step over an existing colleague changes drafts only or confirms one. -/
theorem configurationStep_of_exec {ports : GovernancePorts} {s t : GovernanceState}
    {a : GovernanceAction} (h : s.exec ports a = .ok t) (hs : Lineage ports s) {c : Colleague}
    (hc : s.store.colleague = some c) :
    ∃ u, t.store.colleague = some { c with tables := u } ∧
      (c.tables.DraftStep ports (ports.policyId c.colleagueId) s.reads a.Reviews u ∨
        ∃ cmd draft base next, a = .confirmDraft c.colleagueId cmd ∧
          c.tables.Configured (ports.policyId c.colleagueId) base ∧
          BuiltFrom ports (ports.policyId c.colleagueId) draft base ∧
          Confirmation c.tables cmd draft base next u ∧
          s.store.tenant.authorizeDraftConfirmation c.colleagueId draft cmd.actor
            cmd.changeDecisionId cmd.occurredAt = .ok t.store.tenant) := by
  cases a with
  | tenant action =>
    simp only [GovernanceState.exec, bind_eq_ok, pure_eq_ok] at h
    obtain ⟨_, _, rfl⟩ := h
    exact ⟨c.tables, hc, .inl (.refl _)⟩
  | createInitialColleague colleagueId profile mandate runtimePrincipals actor =>
    simp only [GovernanceState.exec, GovernanceStore.createInitialColleague, bind_eq_ok,
      require_eq_ok, exists_const] at h
    obtain ⟨_, ⟨_, hnone, _⟩, _⟩ := h
    rw [hc] at hnone
    exact absurd hnone (by simp)
  | read colleagueId read =>
    simp only [GovernanceState.exec, bind_eq_ok, pure_eq_ok] at h
    obtain ⟨_, _, rfl⟩ := h
    exact ⟨c.tables, hc, .inl (.refl _)⟩
  | builder colleagueId action =>
    simp only [GovernanceState.exec, bind_eq_ok, pure_eq_ok] at h
    obtain ⟨tables, htables, rfl⟩ := h
    refine ⟨_, GovernanceStore.withTables_eq hc colleagueId tables, .inl ?_⟩
    rw [GovernanceStore.tables_eq hc] at htables
    split
    · rename_i hid
      rw [if_pos hid] at htables
      rw [hid]
      have hstep := BuilderTables.draftStep_of_exec htables
      exact hstep.mono fun draft hreview => ⟨colleagueId, action, rfl, hreview⟩
    · exact .refl _
  | confirmDraft colleagueId cmd =>
    simp only [GovernanceState.exec, bind_eq_ok, pure_eq_ok, Prod.exists] at h
    obtain ⟨r, tenant, tables, hconfirm, rfl⟩ := h
    have hc' : ({ s.store with tenant := tenant } : GovernanceStore).colleague = some c := hc
    refine ⟨_, GovernanceStore.withTables_eq hc' colleagueId tables, ?_⟩
    rw [GovernanceStore.tables_eq hc] at hconfirm
    by_cases hid : c.colleagueId = colleagueId
    · rw [if_pos hid] at hconfirm ⊢
      subst hid
      obtain ⟨base, hbase⟩ := hs.configured c hc
      rcases confirmDraft_eq_ok ports (ports.policyId c.colleagueId) s.reads hconfirm
        hbase.active with ⟨_, hstep⟩ | ⟨draft, next, hnext, htenant⟩
      · exact .inl (hstep.mono fun _ hfalse => hfalse.elim)
      · exact .inr ⟨cmd, draft, base, next, rfl, hbase,
          hbase.builtFrom (hs.sourced c hc) (Table.mem_of_find? hnext.stored) hnext.current,
          hnext, htenant⟩
    · rw [if_neg hid] at hconfirm
      exact absurd hconfirm confirmDraft_empty

/-- A read returns what some namespace stores. -/
theorem ConfigurationReads.StoredIn.read {reads reads' : ConfigurationReads}
    {s tables : BuilderTables} {read : ConfigurationRead} (h : reads.StoredIn s)
    (hread : reads.exec tables read = .ok reads') (htables : tables = s ∨ tables = .empty) :
    reads'.StoredIn s := by
  have hprofiles : ∀ p ∈ tables.profiles.domain, auditRecord p ∈ s.profiles.audit := by
    rcases htables with rfl | rfl
    · exact fun p hp => Records.auditRecord_mem hp
    · exact fun p hp => absurd hp (Table.not_mem_empty p)
  have hmandates : ∀ m ∈ tables.mandates.domain, auditRecord m ∈ s.mandates.audit := by
    rcases htables with rfl | rfl
    · exact fun m hm => Records.auditRecord_mem hm
    · exact fun m hm => absurd hm (Table.not_mem_empty m)
  have hpolicies : ∀ p ∈ tables.policies.domain, auditRecord p ∈ s.policies.audit := by
    rcases htables with rfl | rfl
    · exact fun p hp => Records.auditRecord_mem hp
    · exact fun p hp => absurd hp (Table.not_mem_empty p)
  cases read with
  | profile =>
    simp only [ConfigurationReads.exec, bind_eq_ok, pure_eq_ok, Prod.exists] at hread
    obtain ⟨profile, mandate, hactive, rfl⟩ := hread
    refine ⟨fun p hp => ?_, h.mandates, h.policies⟩
    rcases List.mem_append.mp hp with hp | hp
    · exact h.profiles p hp
    · obtain rfl := List.mem_singleton.mp hp
      unfold BuilderTables.activeConfiguration at hactive
      split at hactive
      · rename_i hrows _
        obtain ⟨rfl, rfl⟩ := Prod.mk.inj (Except.ok.inj hactive)
        exact hprofiles _ (by simp [Table.mem_def, hrows])
      · exact absurd hactive (by simp)
  | mandate =>
    simp only [ConfigurationReads.exec, bind_eq_ok, pure_eq_ok, Prod.exists] at hread
    obtain ⟨profile, mandate, hactive, rfl⟩ := hread
    refine ⟨h.profiles, fun m hm => ?_, h.policies⟩
    rcases List.mem_append.mp hm with hm | hm
    · exact h.mandates m hm
    · obtain rfl := List.mem_singleton.mp hm
      unfold BuilderTables.activeConfiguration at hactive
      split at hactive
      · rename_i hrows
        obtain ⟨rfl, rfl⟩ := Prod.mk.inj (Except.ok.inj hactive)
        exact hmandates _ (by simp [Table.mem_def, hrows])
      · exact absurd hactive (by simp)
  | policy =>
    simp only [ConfigurationReads.exec, bind_eq_ok, pure_eq_ok] at hread
    obtain ⟨policy, hactive, rfl⟩ := hread
    refine ⟨h.profiles, h.mandates, fun o ho p hp => ?_⟩
    rcases List.mem_append.mp ho with ho | ho
    · exact h.policies o ho p hp
    · obtain rfl := List.mem_singleton.mp ho
      unfold BuilderTables.getActivePolicy at hactive
      split at hactive
      · obtain rfl := Except.ok.inj hactive
        exact absurd hp (by simp)
      · rename_i q hrows
        obtain rfl := Option.some.inj ((Except.ok.inj hactive).trans hp)
        exact hpolicies _ (by simp [Table.mem_def, hrows])
      · exact absurd hactive (by simp)
  | runState =>
    simp only [ConfigurationReads.exec, bind_eq_ok, pure_eq_ok, Prod.exists] at hread
    obtain ⟨_, _, _, rfl⟩ := hread
    exact ⟨h.profiles, h.mandates, h.policies⟩
  | draft draftId =>
    simp only [ConfigurationReads.exec, bind_eq_ok, pure_eq_ok] at hread
    obtain ⟨_, _, rfl⟩ := hread
    exact ⟨h.profiles, h.mandates, h.policies⟩

/-- The reads of a step were stored before it. -/
theorem reads_of_exec {ports : GovernancePorts} {s t : GovernanceState} {a : GovernanceAction}
    (h : s.exec ports a = .ok t) (hs : s.reads.StoredIn s.configuration) :
    t.reads.StoredIn s.configuration := by
  cases a with
  | tenant action =>
    simp only [GovernanceState.exec, bind_eq_ok, pure_eq_ok] at h
    obtain ⟨_, _, rfl⟩ := h
    exact hs
  | createInitialColleague colleagueId profile mandate runtimePrincipals actor =>
    simp only [GovernanceState.exec, bind_eq_ok, pure_eq_ok] at h
    obtain ⟨_, _, rfl⟩ := h
    exact hs
  | read colleagueId read =>
    simp only [GovernanceState.exec, bind_eq_ok, pure_eq_ok] at h
    obtain ⟨reads, hreads, rfl⟩ := h
    refine hs.read hreads ?_
    cases hc : s.store.colleague with
    | none => exact .inr (by rw [GovernanceStore.tables, hc])
    | some c =>
      rw [GovernanceStore.tables_eq hc, GovernanceState.configuration, hc]
      split
      · exact .inl rfl
      · exact .inr rfl
  | builder colleagueId action =>
    simp only [GovernanceState.exec, bind_eq_ok, pure_eq_ok] at h
    obtain ⟨_, _, rfl⟩ := h
    exact hs
  | confirmDraft colleagueId cmd =>
    simp only [GovernanceState.exec, bind_eq_ok, pure_eq_ok, Prod.exists] at h
    obtain ⟨_, _, _, _, rfl⟩ := h
    exact hs

/-- Only its creation gives a tenant a colleague. -/
theorem colleague_of_exec {ports : GovernancePorts} {s t : GovernanceState} {a : GovernanceAction}
    (h : s.exec ports a = .ok t) (hs : s.store.colleague = none) {c : Colleague}
    (hc : t.store.colleague = some c) :
    ∃ profile mandate, BuilderTables.empty.insertConfiguration profile mandate = .ok c.tables := by
  cases a with
  | tenant action =>
    simp only [GovernanceState.exec, bind_eq_ok, pure_eq_ok] at h
    obtain ⟨_, _, rfl⟩ := h
    exact absurd (hs.symm.trans hc) (by simp)
  | createInitialColleague colleagueId profile mandate runtimePrincipals actor =>
    simp only [GovernanceState.exec, GovernanceStore.createInitialColleague, bind_eq_ok,
      pure_eq_ok] at h
    obtain ⟨_, ⟨_, _, _, _, _, _, _, _, _, _, tables, htables, rfl⟩, rfl⟩ := h
    obtain rfl := Option.some.inj hc
    exact ⟨profile, mandate, htables⟩
  | read colleagueId read =>
    simp only [GovernanceState.exec, bind_eq_ok, pure_eq_ok] at h
    obtain ⟨_, _, rfl⟩ := h
    exact absurd (hs.symm.trans hc) (by simp)
  | builder colleagueId action =>
    simp only [GovernanceState.exec, bind_eq_ok, pure_eq_ok] at h
    obtain ⟨_, _, rfl⟩ := h
    simp only [GovernanceStore.withTables, hs, Option.map_none] at hc
    exact absurd hc (by simp)
  | confirmDraft colleagueId cmd =>
    simp only [GovernanceState.exec, bind_eq_ok, pure_eq_ok, Prod.exists] at h
    obtain ⟨_, _, _, _, rfl⟩ := h
    simp only [GovernanceStore.withTables, hs, Option.map_none] at hc
    exact absurd hc (by simp)

theorem configured_insertConfiguration (policyId : StableId) {profile : Profile} {mandate : Mandate}
    {tables : BuilderTables}
    (h : BuilderTables.empty.insertConfiguration profile mandate = .ok tables) :
    tables.Configured policyId ⟨profile, mandate, none⟩ ∧ tables.drafts = .empty := by
  simp only [BuilderTables.insertConfiguration, bind_eq_ok, pure_eq_ok] at h
  obtain ⟨profiles, hprofiles, mandates, hmandates, rfl⟩ := h
  have hp := (Table.insert?_eq_some.mp (Records.insert?_of_insertRecord hprofiles)).2
  have hm := (Table.insert?_eq_some.mp (Records.insert?_of_insertRecord hmandates)).2
  exact ⟨⟨⟨hp, hm, rfl⟩, fun p hp => absurd hp (by simp), fun a ha =>
    absurd ha (Table.not_mem_empty a)⟩, rfl⟩

theorem lineage_preserved (ports : GovernancePorts) :
    (governance ports).Preserved (Lineage ports) := by
  intro s a t hs hstep
  have hreads := reads_of_exec hstep hs.reads
  cases hc : s.store.colleague with
  | none =>
    have hempty : s.configuration = .empty := by rw [GovernanceState.configuration, hc]; rfl
    rw [hempty] at hreads
    refine ⟨?_, fun c ht => ?_, fun c ht => ?_⟩
    · exact hreads.mono (fun a ha => absurd ha (Table.not_mem_empty a))
        (fun a ha => absurd ha (Table.not_mem_empty a))
        fun a ha => absurd ha (Table.not_mem_empty a)
    · obtain ⟨profile, mandate, htables⟩ := colleague_of_exec hstep hc ht
      exact ⟨_, (configured_insertConfiguration _ htables).1⟩
    · obtain ⟨profile, mandate, htables⟩ := colleague_of_exec hstep hc ht
      intro d hd
      rw [(configured_insertConfiguration (ports.policyId c.colleagueId) htables).2] at hd
      exact absurd hd (Table.not_mem_empty d)
  | some c =>
    obtain ⟨u, hu, hcase⟩ := configurationStep_of_exec hstep hs hc
    have hsource : s.configuration = c.tables := by rw [GovernanceState.configuration, hc]; rfl
    have htarget : t.configuration = u := by rw [GovernanceState.configuration, hu]; rfl
    have hstored := hs.reads
    rw [hsource] at hreads hstored
    rcases hcase with hdrafts | ⟨cmd, draft, base, next, _, hbase, hbuilt, hconfirm, _⟩
    · refine ⟨?_, fun c' hc' => ?_, fun c' hc' => ?_⟩
      · rw [htarget, hdrafts.frame]
        exact hreads.mono (fun _ ha => ha) (fun _ ha => ha) fun _ ha => ha
      · obtain rfl := Option.some.inj (hu.symm.trans hc')
        obtain ⟨base, hbase⟩ := hs.configured c hc
        exact ⟨base, hbase.draftStep hdrafts⟩
      · obtain rfl := Option.some.inj (hu.symm.trans hc')
        exact (hs.sourced c hc).draftStep hstored hdrafts
    · refine ⟨?_, fun c' hc' => ?_, fun c' hc' => ?_⟩
      · rw [htarget]
        exact hreads.mono hconfirm.audits.profiles hconfirm.audits.mandates
          hconfirm.audits.policies
      · obtain rfl := Option.some.inj (hu.symm.trans hc')
        exact ⟨next, hconfirm.configured hbase hbuilt⟩
      · obtain rfl := Option.some.inj (hu.symm.trans hc')
        exact hconfirm.sourced (hs.sourced c hc)

theorem lineage_of_reachable {ports : GovernancePorts} {s : GovernanceState}
    (h : (governance ports).Reachable s) : Lineage ports s := by
  refine h.invariant ?_ (lineage_preserved ports)
  rintro _ rfl
  exact lineage_initial ports

-- ════════════════════════════════════════════════════════════════════════
-- Confirmations of a run
-- ════════════════════════════════════════════════════════════════════════

/-- A step confirms a draft that was not confirmed before it. -/
def confirmsDraft (e : GovernanceStep) (draft : ColleagueDraft) : Bool :=
  decide (draft.state ≠ .confirmed) &&
    e.target.configuration.drafts.holds draft.draftId fun d => decide (d.state = .confirmed)

/-- A step confirms some draft that starts from the given revisions. -/
def confirmsFrom (revisions : BaseRevisions) (e : GovernanceStep) : Bool :=
  e.source.configuration.drafts.rows.any fun draft =>
    decide (draft.baseRevisions = revisions) && confirmsDraft e draft

/-- Each revision stays or grows by one, and one of them grows. -/
structure BaseRevisions.Advances (r r' : BaseRevisions) : Prop where
  profile : r'.profile = r.profile ∨ r'.profile = r.profile + 1
  mandate : r'.mandate = r.mandate ∨ r'.mandate = r.mandate + 1
  policy : r'.policy = r.policy ∨ r'.policy = r.policy + 1
  ne : r' ≠ r

/-- The configuration that a confirmation replaced by the content of its draft,
    which was made for it and reviewed under its digest. -/
structure ConfirmedAs (ports : GovernancePorts) (cmd : ConfirmDraftCommand)
    (draft : ColleagueDraft) (base next : BaseValues) : Prop where
  baseRevisions : draft.baseRevisions = base.revisions
  advances : base.revisions.Advances next.revisions
  reviewable : draft.state = .reviewable
  canonicalDigest : draft.canonicalDigest = cmd.expectedCanonicalDigest
  digest : ∃ builtAt, draft.canonicalDigest = ports.draftDigest
    { draft.toColleagueDraftFields with
      canonicalDigest := 0
      state := .draft
      updatedAt := builtAt }
  profile : sameProfileContent next.profile draft.proposedProfile = true
  mandate : sameMandateContent next.mandate draft.proposedMandate = true
  policy : ∃ p, next.policy = some p ∧ samePolicyContent p draft.proposedPolicy = true ∧
    p.mandateId = next.mandate.mandateId ∧ p.mandateRevision = next.mandate.revision

/-- What a confirmed draft makes of a bound configuration it was built from. -/
theorem Replaces.confirmedAs {ports : GovernancePorts} {policyId : StableId}
    {s t : BuilderTables} {cmd : ConfirmDraftCommand} {draft : ColleagueDraft}
    {base next : BaseValues} (h : Confirmation s cmd draft base next t)
    (hs : s.Configured policyId base) (hbuilt : BuiltFrom ports policyId draft base) :
    ConfirmedAs ports cmd draft base next := by
  obtain ⟨p, hp, hkept, hwritten⟩ := h.replaces.policy
  have hbound := (h.configured hs hbuilt).bound p hp
  obtain ⟨hproposedId, hproposed⟩ := hbuilt.bound hs.bound
  have hmandateRevision := h.replaces.mandateRevision
  refine ⟨hbuilt.revisions, ⟨?_, ?_, ?_, fun he => h.replaces.changed ?_⟩, h.reviewable,
    h.canonicalDigest, hbuilt.digest, h.replaces.profileContent, h.replaces.mandateContent, p, hp,
    ?_, hbound⟩
  · have hrevision := h.replaces.profileRevision
    split at hrevision
    · exact .inl hrevision
    · exact .inr hrevision
  · split at hmandateRevision
    · exact .inl hmandateRevision
    · exact .inr hmandateRevision
  · show next.policy.elim 0 ColleaguePolicy.revision = base.policy.elim 0 ColleaguePolicy.revision ∨
      next.policy.elim 0 ColleaguePolicy.revision =
        base.policy.elim 0 ColleaguePolicy.revision + 1
    rw [hp]
    cases hchanged : BuilderTables.policyChanges base.policy draft with
    | true => exact .inr (hwritten hchanged).2.1
    | false =>
      rw [hkept hchanged]
      exact .inl rfl
  · refine ⟨?_, ?_, ?_⟩
    · by_contra hne
      have hrevision := h.replaces.profileRevision
      rw [if_neg hne] at hrevision
      have : next.profile.revision = base.profile.revision := congrArg BaseRevisions.profile he
      omega
    · by_contra hne
      rw [if_neg hne] at hmandateRevision
      have : next.mandate.revision = base.mandate.revision := congrArg BaseRevisions.mandate he
      omega
    · by_contra hne
      rw [Bool.not_eq_false] at hne
      have hrevision := (hwritten hne).2.1
      have : next.policy.elim 0 ColleaguePolicy.revision =
          base.policy.elim 0 ColleaguePolicy.revision := congrArg BaseRevisions.policy he
      rw [hp, Option.elim_some] at this
      omega
  · cases hchanged : BuilderTables.policyChanges base.policy draft with
    | true =>
      refine (hwritten hchanged).2.2.2.2 ?_ ?_
      · rw [hproposedId, hbound.1, h.replaces.mandateId]
      · rw [hproposed, hbound.2, hmandateRevision]
        split <;> rfl
    | false =>
      have hbase := hkept hchanged
      simpa [BuilderTables.policyChanges, hbase] using hchanged

section Runs

variable {ports : GovernancePorts}

/-- A step changes no configuration and confirms nothing, or it confirms one draft. -/
theorem configuration_of_step {e : GovernanceStep} {base : BaseValues}
    (h : e.source.exec ports e.action = .ok e.target) (hs : Lineage ports e.source)
    (hbase : e.source.configuration.Active base) :
    ∃ next, e.target.configuration.Active next ∧
      ((next = base ∧ ∀ d ∈ e.source.configuration.drafts, confirmsDraft e d = false) ∨
        ∃ colleagueId cmd draft, e.action = .confirmDraft colleagueId cmd ∧
          draft ∈ e.source.configuration.drafts ∧
          (∀ d ∈ e.source.configuration.drafts, confirmsDraft e d = true ↔ d = draft) ∧
          ConfirmedAs ports cmd draft base next) := by
  cases hc : e.source.store.colleague with
  | none =>
    have hempty : e.source.configuration = .empty := by
      rw [GovernanceState.configuration, hc]
      rfl
    have hrows := hbase.profiles
    rw [hempty] at hrows
    exact absurd hrows (by simp [BuilderTables.empty, Records.empty, Table.empty])
  | some c =>
    obtain ⟨u, hu, hcase⟩ := configurationStep_of_exec h hs hc
    have hsource : e.source.configuration = c.tables := by
      rw [GovernanceState.configuration, hc]
      rfl
    have htarget : e.target.configuration = u := by
      rw [GovernanceState.configuration, hu]
      rfl
    rw [hsource] at hbase ⊢
    rw [htarget]
    rcases hcase with hdrafts | ⟨cmd, draft, base', next, haction, hconfigured, hbuilt, hconfirm, _⟩
    · refine ⟨base, ?_, .inl ⟨rfl, fun d hd => ?_⟩⟩
      · rw [hdrafts.frame]
        exact ⟨hbase.profiles, hbase.mandates, hbase.policies⟩
      · rw [← Bool.not_eq_true, confirmsDraft, htarget, Bool.and_eq_true, Table.holds_eq_true]
        rintro ⟨hstate, d', hfind, hconfirmed⟩
        have hkey : d'.draftId = d.draftId := Table.key_of_find? hfind
        cases hdrafts.origin d' (Table.mem_of_find? hfind) with
        | kept hd' =>
          obtain rfl := Table.eq_of_key_eq hd hd' hkey.symm
          exact of_decide_eq_true hstate (of_decide_eq_true hconfirmed)
        | built _ _ hdraft => simp_all
        | moved _ _ hmoved => simp_all
    · obtain rfl := hbase.unique hconfigured.active
      obtain ⟨confirmed, hstate, hstateEq, hreplace⟩ := hconfirm.confirmed
      have hkey : key confirmed = draft.draftId := by
        show confirmed.draftId = draft.draftId
        rw [hstate]
      refine ⟨next, hconfirm.target, .inr ⟨c.colleagueId, cmd, draft, haction,
        Table.mem_of_find? hconfirm.stored, fun d hd => ?_,
        Replaces.confirmedAs hconfirm hconfigured hbuilt⟩⟩
      rw [confirmsDraft, htarget, Bool.and_eq_true, Table.holds_eq_true, hreplace]
      constructor
      · rintro ⟨hnot, d', hfind, hconfirmed⟩
        by_contra hne
        have hkeys : d.draftId ≠ key confirmed := fun he =>
          hne (Table.eq_of_key_eq hd (Table.mem_of_find? hconfirm.stored) (he.trans hkey))
        rw [Table.find?_replace_of_ne hkeys, show d.draftId = key d from rfl,
          Table.find?_of_mem hd] at hfind
        obtain rfl := Option.some.inj hfind
        exact of_decide_eq_true hnot (of_decide_eq_true hconfirmed)
      · rintro rfl
        refine ⟨by simp [hconfirm.reviewable], confirmed, ?_, by simp [hstateEq]⟩
        rw [← hkey]
        exact Table.find?_replace_self (hkey ▸ hconfirm.stored)

/-- A reviewable draft was reviewed as it is. -/
theorem exists_review_of_path {s : GovernanceState} {tr : List GovernanceStep}
    (h : (governance ports).Path .initial tr s) {draft : ColleagueDraft}
    (hdraft : draft ∈ s.configuration.drafts) (hstate : draft.state = .reviewable) :
    ∃ e ∈ tr, e.action.Reviews draft ∧ draft ∈ e.target.configuration.drafts := by
  generalize hinit : GovernanceState.initial = s₀ at h
  induction h with
  | refl =>
    subst hinit
    exact absurd hdraft (Table.not_mem_empty draft)
  | @snoc t u a tr hp ht ih =>
    by_cases hold : draft ∈ t.configuration.drafts
    · obtain ⟨e, he, hreview⟩ := ih hold
      exact ⟨e, List.mem_append_left _ he, hreview⟩
    · have hlineage : Lineage ports t :=
        lineage_of_reachable (hp.reachable (.init hinit.symm))
      cases hc : t.store.colleague with
      | none =>
        cases hc' : u.store.colleague with
        | none =>
          rw [GovernanceState.configuration, hc'] at hdraft
          exact absurd hdraft (Table.not_mem_empty draft)
        | some c =>
          obtain ⟨profile, mandate, htables⟩ := colleague_of_exec ht hc hc'
          have hdrafts := (configured_insertConfiguration
            (ports.policyId c.colleagueId) htables).2
          rw [GovernanceState.configuration, hc', Option.elim_some, hdrafts] at hdraft
          exact absurd hdraft (Table.not_mem_empty draft)
      | some c =>
        obtain ⟨v, hv, hcase⟩ := configurationStep_of_exec ht hlineage hc
        have hsource : t.configuration = c.tables := by
          rw [GovernanceState.configuration, hc]
          rfl
        have htarget : u.configuration = v := by
          rw [GovernanceState.configuration, hv]
          rfl
        rw [hsource] at hold
        have hdraft' := hdraft
        rw [htarget] at hdraft'
        rcases hcase with hdrafts | ⟨cmd, other, base, next, _, _, _, hconfirm, _⟩
        · cases hdrafts.origin draft hdraft' with
          | kept hkept => exact absurd hkept hold
          | built _ _ hbuilt => exact absurd (hstate.symm.trans hbuilt) (by simp)
          | moved _ _ hmoved =>
            rcases hmoved with ⟨_, hreview⟩ | hmoved | hmoved
            · exact ⟨⟨t, a, u⟩, by simp, hreview, hdraft⟩
            · exact absurd (hstate.symm.trans hmoved) (by simp)
            · exact absurd (hstate.symm.trans hmoved) (by simp)
        · obtain ⟨confirmed, hinstate, hstateEq, hreplace⟩ := hconfirm.confirmed
          have hkey : key confirmed = other.draftId := by
            show confirmed.draftId = other.draftId
            rw [hinstate]
          rw [hreplace] at hdraft'
          rcases (Table.mem_replace (hkey ▸ hconfirm.stored)).mp hdraft' with rfl | ⟨hkept, _⟩
          · exact absurd (hstate.symm.trans hstateEq) (by simp)
          · exact absurd hkept hold

/-- The active revisions have passed some revisions. -/
def Beyond (revisions : BaseRevisions) (s : GovernanceState) : Prop :=
  ∃ base, s.configuration.Active base ∧ revisions.profile ≤ base.revisions.profile ∧
    revisions.mandate ≤ base.revisions.mandate ∧ revisions.policy ≤ base.revisions.policy ∧
    revisions ≠ base.revisions

theorem BaseRevisions.Advances.ne_of_le {r r' r₀ : BaseRevisions} (h : r.Advances r')
    (hprofile : r₀.profile ≤ r.profile) (hmandate : r₀.mandate ≤ r.mandate)
    (hpolicy : r₀.policy ≤ r.policy) :
    r₀.profile ≤ r'.profile ∧ r₀.mandate ≤ r'.mandate ∧ r₀.policy ≤ r'.policy ∧ r₀ ≠ r' := by
  have hp := h.profile
  have hm := h.mandate
  have hq := h.policy
  refine ⟨by omega, by omega, by omega, fun he => h.ne ?_⟩
  subst he
  cases r
  cases r₀
  simp only [BaseRevisions.mk.injEq] at *
  omega

theorem exists_active_of_draft {s : GovernanceState} (hs : Lineage ports s) {d : ColleagueDraft}
    (hd : d ∈ s.configuration.drafts) : ∃ base, s.configuration.Active base := by
  cases hc : s.store.colleague with
  | none =>
    rw [GovernanceState.configuration, hc] at hd
    exact absurd hd (Table.not_mem_empty d)
  | some c =>
    obtain ⟨base, hbase⟩ := hs.configured c hc
    exact ⟨base, by rw [GovernanceState.configuration, hc]; exact hbase.active⟩

/-- A confirmation passes the revisions it starts from, and no step goes back. -/
theorem countP_confirmsFrom_le_one {s : GovernanceState} {tr : List GovernanceStep}
    (h : (governance ports).Path .initial tr s) (revisions : BaseRevisions) :
    tr.countP (confirmsFrom revisions) ≤ 1 := by
  classical
  let μ (s : GovernanceState) : ℕ := if Beyond revisions s then 0 else 1
  have hle : tr.countP (confirmsFrom revisions) + μ s ≤ μ .initial := by
    refine h.countP_le (I := Lineage ports) (lineage_preserved ports) ?_ ?_
      (lineage_initial ports)
    · intro s a t hs hstep hconfirms
      simp only [confirmsFrom, List.any_eq_true, Bool.and_eq_true, decide_eq_true_eq] at hconfirms
      obtain ⟨d, hd, hfrom, hconfirms⟩ := hconfirms
      obtain ⟨base, hbase⟩ := exists_active_of_draft hs hd
      obtain ⟨next, hnext, hcase⟩ := configuration_of_step (e := ⟨s, a, t⟩) hstep hs hbase
      rcases hcase with ⟨_, hnone⟩ | ⟨_, _, draft, _, _, honly, hconfirmed⟩
      · exact absurd (hnone d hd) (by simp [hconfirms])
      · obtain rfl := (honly d hd).mp hconfirms
        have heq : base.revisions = revisions := hconfirmed.baseRevisions.symm.trans hfrom
        have htarget : Beyond revisions t :=
          ⟨next, hnext, heq ▸ hconfirmed.advances.ne_of_le le_rfl le_rfl le_rfl⟩
        have hsource : ¬Beyond revisions s := by
          rintro ⟨base', hbase', _, _, _, hne⟩
          exact hne (hbase.unique hbase' ▸ heq.symm)
        simp only [μ, if_pos htarget, if_neg hsource, le_refl]
    · intro s a t hs hstep
      by_cases hsource : Beyond revisions s
      · obtain ⟨base, hbase, hprofile, hmandate, hpolicy, hne⟩ := hsource
        have htarget : Beyond revisions t := by
          obtain ⟨next, hnext, hcase⟩ := configuration_of_step (e := ⟨s, a, t⟩) hstep hs hbase
          rcases hcase with ⟨rfl, _⟩ | ⟨_, _, draft, _, _, _, hconfirmed⟩
          · exact ⟨next, hnext, hprofile, hmandate, hpolicy, hne⟩
          · exact ⟨next, hnext, hconfirmed.advances.ne_of_le hprofile hmandate hpolicy⟩
        simp only [μ, if_pos htarget, Nat.zero_le]
      · show (if Beyond revisions t then 0 else 1) ≤ if Beyond revisions s then 0 else 1
        rw [if_neg hsource]
        split <;> omega
  have hone : μ .initial ≤ 1 := by
    show (if _ then 0 else 1) ≤ 1
    split <;> omega
  omega

end Runs

-- ════════════════════════════════════════════════════════════════════════
-- A concrete run
-- ════════════════════════════════════════════════════════════════════════

def sampleAdmin : Principal := .human firstAdmin .tenantAdmin

def sampleAssistant : StableId := stableId "assistant"

/-- A new profile, for concrete runs. -/
def sampleProfile : Profile where
  profileId := stableId "profile-1"
  displayName := "assistant"
  description := "answers messages"
  presentation := .empty
  revision := 1
  updatedBy := sampleAdmin
  updatedAt := 100

/-- A new mandate with two responsibilities, for concrete runs. -/
def sampleAssistantMandate : Mandate where
  mandateId := stableId "mandate-1"
  mission := "answer messages"
  serviceRelationship := "assistant"
  responsibilities := [⟨stableId "reply", "reply", [], []⟩, ⟨stableId "sort", "sort", [], []⟩]
  capabilities := [⟨stableId "write", "write"⟩]
  constraints := [⟨stableId "polite", "be polite"⟩]
  workingContext := .empty
  effectBoundaries := [{
    boundaryId := stableId "boundary-1"
    effectKind := .referenceMessage
    allowedDestinationKinds := ["channel"]
    allowedActions := ["send"]
    constraints := ⟨[("network", .bool false)], by simp⟩
    humanApprovalRequired := true }]
  revision := 1
  issuedBy := sampleAdmin
  effectiveAt := 100

/-- A tenant with two Admins and a colleague whose configuration was read. -/
def sampleReadColleague : List (GovernanceState → GovernanceAction) :=
  sampleTwoAdmins ++
    [fun _ => .createInitialColleague sampleAssistant sampleProfile sampleAssistantMandate []
        sampleAdmin,
      fun _ => .read sampleAssistant .profile, fun _ => .read sampleAssistant .mandate,
      fun _ => .read sampleAssistant .policy]

theorem sampleDraftChange_expires : (100 : Instant) < 1000 := by decide

/-- The change proposal for a draft of the sample colleague. -/
def sampleDraftChange (proposalId draftId : StableId) (revision : ℕ)
    (baseRevisions : BaseRevisions) : ChangeProposal where
  ns := .colleague sampleAssistant
  proposalId := proposalId
  changeKind := .draft
  targetId := draftId
  targetRevision := revision
  canonicalDigest := 0
  baseRevisions := baseRevisions
  proposedRole := none
  proposedStatus := none
  proposedColleagueIds := .only []
  proposerPrincipalId := firstAdmin
  proposerRoleRevision := 1
  proposerMembershipRevision := 1
  issuedAt := 100
  expiresAt := 1000
  state := .pending
  idempotencyKey := proposalId
  requestDigest := 0
  correlationId := proposalId
  causationId := proposalId
  decisionId := none
  consumedAt := none
  revision := 1
  expires := sampleDraftChange_expires

/-- The confirmation of a draft by the first Admin. -/
def sampleConfirm (draftId : StableId) (revision : ℕ) (baseRevisions : BaseRevisions)
    (changeDecisionId : Option StableId) (occurredAt : Instant) : ConfirmDraftCommand where
  draftId := draftId
  expectedDraftRevision := revision
  expectedBaseRevisions := baseRevisions
  expectedCanonicalDigest := 0
  actor := sampleAdmin
  idempotencyKey := draftId
  requestDigest := 0
  confirmationId := draftId
  occurredAt := occurredAt
  changeDecisionId := changeDecisionId

/-- The first policy of the sample colleague, approved and confirmed. -/
def sampleFirstPolicy : List (GovernanceState → GovernanceAction) :=
  sampleReadColleague ++
    [fun _ => .builder sampleAssistant (.createDraft ⟨0, 0, 0⟩ sampleAdmin (stableId "draft-1")
        (stableId "correlation-1") 100),
      fun _ => .builder sampleAssistant (.reviewDraft (stableId "draft-1") 1 sampleAdmin 105)] ++
    sampleApprovedChange (sampleDraftChange (stableId "change-1") (stableId "draft-1") 1 ⟨1, 1, 0⟩)
      (stableId "decision-1") ++
    [fun _ => .confirmDraft sampleAssistant
        (sampleConfirm (stableId "draft-1") 1 ⟨1, 1, 0⟩ (some (stableId "decision-1")) 120)]

end DigitalColleagues
