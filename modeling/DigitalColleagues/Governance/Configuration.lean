import DigitalColleagues.Governance.Moves

/-!
# What a step can do to a configuration

The drafts of a colleague are built from configurations that were stored at some
time; a confirmation replaces the configuration by the one a draft proposes.

## Main definitions

- `BuilderTables.Active` — the configuration that a colleague has
- `BuilderTables.Recorded` — a configuration each part of which was stored once
- `BuiltFrom` — a draft built from a configuration
- `Replaces` — what a confirmed draft makes of a configuration
- `BuilderTables.DraftOrigin` — where a draft comes from that a step leaves
-/

namespace DigitalColleagues

open Keyed

-- ════════════════════════════════════════════════════════════════════════
-- Configurations
-- ════════════════════════════════════════════════════════════════════════

/-- The policy, if there is one, is bound to the mandate. -/
def BaseValues.Bound (base : BaseValues) : Prop :=
  ∀ p ∈ base.policy, p.mandateId = base.mandate.mandateId ∧
    p.mandateRevision = base.mandate.revision

/-- Another configuration of the same colleague. Its policies have one identifier
    and count their revisions from one. -/
structure BaseValues.SameColleague (policyId : StableId) (base other : BaseValues) : Prop where
  profileId : other.profile.profileId = base.profile.profileId
  mandateId : other.mandate.mandateId = base.mandate.mandateId
  policy : ∀ p ∈ other.policy, p.policyId = policyId ∧ 0 < p.revision

namespace BuilderTables

/-- One profile, one mandate and at most one policy. -/
structure Active (s : BuilderTables) (base : BaseValues) : Prop where
  profiles : s.profiles.domain.rows = [base.profile]
  mandates : s.mandates.domain.rows = [base.mandate]
  policies : s.policies.domain.rows = base.policy.toList

/-- Each part of the configuration was stored at its revision. -/
structure Recorded (s : BuilderTables) (base : BaseValues) : Prop where
  profile : auditRecord base.profile ∈ s.profiles.audit
  mandate : auditRecord base.mandate ∈ s.mandates.audit
  policy : ∀ p ∈ base.policy, auditRecord p ∈ s.policies.audit

/-- Audit rows are never lost, and new policies count their revisions from one. -/
structure Extends (s t : BuilderTables) : Prop where
  profiles : ∀ a ∈ s.profiles.audit, a ∈ t.profiles.audit
  mandates : ∀ a ∈ s.mandates.audit, a ∈ t.mandates.audit
  policies : ∀ a ∈ s.policies.audit, a ∈ t.policies.audit
  positive : ∀ a ∈ t.policies.audit, a ∈ s.policies.audit ∨ 0 < a.recordRevision

theorem Recorded.mono {s t : BuilderTables} {base : BaseValues} (h : s.Recorded base)
    (hst : s.Extends t) : t.Recorded base :=
  ⟨hst.profiles _ h.profile, hst.mandates _ h.mandate, fun p hp => hst.policies _ (h.policy p hp)⟩

theorem Active.recorded {s : BuilderTables} {base : BaseValues} (h : s.Active base) :
    s.Recorded base where
  profile := Records.auditRecord_mem (by simp [Table.mem_def, h.profiles])
  mandate := Records.auditRecord_mem (by simp [Table.mem_def, h.mandates])
  policy p hp := Records.auditRecord_mem (by
    rw [Table.mem_def, h.policies]
    exact Option.mem_toList.mpr hp)

theorem Active.unique {s : BuilderTables} {base base' : BaseValues} (h : s.Active base)
    (h' : s.Active base') : base = base' := by
  have hprofile := List.singleton_inj.mp (h.profiles.symm.trans h'.profiles)
  have hmandate := List.singleton_inj.mp (h.mandates.symm.trans h'.mandates)
  have hpolicy : base.policy = base'.policy := by
    have hlist := h.policies.symm.trans h'.policies
    cases hb : base.policy <;> cases hb' : base'.policy <;> simp_all
  cases base
  cases base'
  simp_all

/-- A configuration that was stored at the revisions of the active one is it. -/
theorem Recorded.eq_of_revisions {s : BuilderTables} {base active : BaseValues}
    {policyId : StableId} (h : s.Recorded base) (hactive : s.Active active)
    (hbase : active.SameColleague policyId base) (hself : active.SameColleague policyId active)
    (hrevisions : base.revisions = active.revisions) : base = active := by
  have hprofile : base.profile = active.profile :=
    Records.publicData_eq_of_revision (r := active.profile) (by simp [Table.mem_def, hactive.profiles])
      h.profile hbase.profileId (congrArg BaseRevisions.profile hrevisions)
  have hmandate : base.mandate = active.mandate :=
    Records.publicData_eq_of_revision (r := active.mandate) (by simp [Table.mem_def, hactive.mandates])
      h.mandate hbase.mandateId (congrArg BaseRevisions.mandate hrevisions)
  have hrevision := congrArg BaseRevisions.policy hrevisions
  have hpolicy : base.policy = active.policy := by
    cases hp : base.policy with
    | none =>
      cases hq : active.policy with
      | none => rfl
      | some q =>
        have hpos := (hself.policy q hq).2
        simp only [BaseValues.revisions, hp, hq, Option.elim_none, Option.elim_some] at hrevision
        omega
    | some p =>
      cases hq : active.policy with
      | none =>
        have hpos := (hbase.policy p hp).2
        simp only [BaseValues.revisions, hp, hq, Option.elim_none, Option.elim_some] at hrevision
        omega
      | some q =>
        simp only [BaseValues.revisions, hp, hq, Option.elim_some] at hrevision
        have hid : p.policyId = q.policyId :=
          (hbase.policy p hp).1.trans (hself.policy q hq).1.symm
        have heq : p = q := Records.publicData_eq_of_revision (r := q)
          (by simp [Table.mem_def, hactive.policies, hq]) (h.policy p hp) hid hrevision
        rw [heq]
  cases base
  cases active
  simp_all

end BuilderTables

-- ════════════════════════════════════════════════════════════════════════
-- Drafts
-- ════════════════════════════════════════════════════════════════════════

/-- A draft built from a configuration. Its digest covers it as it was built. -/
structure BuiltFrom (ports : GovernancePorts) (policyId : StableId) (draft : ColleagueDraft)
    (base : BaseValues) : Prop where
  revisions : draft.baseRevisions = base.revisions
  profileId : draft.proposedProfile.profileId = base.profile.profileId
  mandateId : draft.proposedMandate.mandateId = base.mandate.mandateId
  policyId : draft.proposedPolicy.policyId = base.policy.elim policyId ColleaguePolicy.policyId
  bound : base.Bound → draft.proposedPolicy.mandateId = base.mandate.mandateId ∧
    draft.proposedPolicy.mandateRevision =
      if sameMandateContent base.mandate draft.proposedMandate then base.mandate.revision
      else base.mandate.revision + 1
  diff : ∃ resume, (resume = [] ∨ resume = [explicitResumeItem]) ∧ draft.diff =
    buildDraftDiff base.profile base.mandate base.policy draft.proposedProfile
      draft.proposedMandate draft.proposedPolicy ++ resume
  digest : ∃ builtAt, draft.canonicalDigest = ports.draftDigest
    { draft.toColleagueDraftFields with
      canonicalDigest := 0
      state := .draft
      updatedAt := builtAt }

/-- The content of a mandate survives the edit that keeps it. -/
theorem sameMandateContent_nextMandate {mandate next : Mandate} {author : Principal}
    {now : Instant} (h : nextMandate mandate mandate.edit author now = .ok next) :
    sameMandateContent mandate next = true := by
  unfold nextMandate at h
  split at h
  · split at h
    · obtain rfl := Except.ok.inj h
      simp [sameMandateContent, Mandate.edit]
    · exact absurd h (by simp)
  · exact absurd h (by simp)

theorem nextMandate_eq_ok {mandate next : Mandate} {edit : MandateEdit} {author : Principal}
    {now : Instant} (h : nextMandate mandate edit author now = .ok next) :
    next.mandateId = mandate.mandateId ∧ next.revision = mandate.revision + 1 := by
  unfold nextMandate at h
  split at h
  · split at h
    · obtain rfl := Except.ok.inj h
      exact ⟨rfl, rfl⟩
    · exact absurd h (by simp)
  · exact absurd h (by simp)

theorem policyFromEdit_eq_ok {context : PolicyContext} {edit : PolicyEdit}
    {active : Option ColleaguePolicy} {policy : ColleaguePolicy} {defaults : List ExplicitDefault}
    (h : policyFromEdit context edit active = .ok (policy, defaults)) :
    policy.policyId = context.policyId ∧ policy.revision = context.revision ∧
      policy.mandateId = context.mandateId ∧ policy.mandateRevision = context.mandateRevision := by
  simp only [policyFromEdit, bind_eq_ok, pure_eq_ok, Prod.mk.injEq] at h
  obtain ⟨made, hmade, rfl, _⟩ := h
  unfold makePolicy at hmade
  split at hmade
  · split at hmade
    · obtain rfl := Except.ok.inj hmade
      exact ⟨rfl, rfl, rfl, rfl⟩
    · exact absurd hmade (by simp)
  · exact absurd hmade (by simp)

theorem builtFrom_createdDraft {ports : GovernancePorts} {policyId : StableId} {base : BaseValues}
    {author : Principal} {draftId correlationId : StableId} {now : Instant}
    {draft : ColleagueDraft}
    (h : createdDraft ports.draftDigest policyId base author draftId correlationId now =
      .ok draft) : BuiltFrom ports policyId draft base ∧ draft.state = .draft := by
  simp only [createdDraft, bind_eq_ok, Prod.exists] at h
  obtain ⟨_, _, mandate, hmandate, policy, defaults, hpolicy, hdraft⟩ := h
  have hfields := ColleagueDraft.make_eq_ok hdraft
  have hid : policy.policyId = base.policy.elim policyId ColleaguePolicy.policyId ∧
      (base.Bound → policy.mandateId = base.mandate.mandateId ∧
        policy.mandateRevision = base.mandate.revision) := by
    unfold initialProposedPolicy at hpolicy
    cases hbase : base.policy with
    | none =>
      simp only [hbase] at hpolicy
      obtain ⟨hid, _, hmandateId, hrevision⟩ := policyFromEdit_eq_ok hpolicy
      exact ⟨hid, fun _ => ⟨hmandateId, hrevision⟩⟩
    | some active =>
      simp only [hbase, bind_eq_ok, pure_eq_ok, Prod.mk.injEq] at hpolicy
      obtain ⟨next, hnext, rfl, _⟩ := hpolicy
      unfold nextPolicy at hnext
      split at hnext
      · obtain rfl := Except.ok.inj hnext
        exact ⟨rfl, fun hbound => hbound active hbase⟩
      · exact absurd hnext (by simp)
  refine ⟨⟨by rw [hfields], by rw [hfields]; rfl, by rw [hfields]; exact (nextMandate_eq_ok hmandate).1,
    by rw [hfields]; exact hid.1, fun hbound => ?_, ⟨[], .inl rfl, ?_⟩, now, ?_⟩, by rw [hfields]⟩
  · rw [hfields]
    show policy.mandateId = _ ∧ policy.mandateRevision = if sameMandateContent base.mandate mandate
      then _ else _
    rw [if_pos (sameMandateContent_nextMandate hmandate)]
    exact hid.2 hbound
  · rw [hfields, List.append_nil]
  · rw [hfields]

theorem builtFrom_updatedDraft {ports : GovernancePorts} {policyId : StableId} {base : BaseValues}
    {runtimeState : Option PolicyRunState} {existing draft : ColleagueDraft} {author : Principal}
    {request : DraftUpdateRequest} {now : Instant}
    (h : updatedDraft ports.draftDigest policyId base runtimeState existing author request now =
      .ok draft) : BuiltFrom ports policyId draft base ∧ draft.state = .draft := by
  simp only [updatedDraft, bind_eq_ok, require_eq_ok, exists_const, Prod.exists] at h
  obtain ⟨_, _, _, _, mandate, hmandate, policy, generated, hpolicy, resume, hresume, hdraft⟩ := h
  have hfields := ColleagueDraft.make_eq_ok hdraft
  obtain ⟨hid, hrevision, hmandateId, hmandateRevision⟩ := policyFromEdit_eq_ok hpolicy
  obtain ⟨hnextId, hnextRevision⟩ := nextMandate_eq_ok hmandate
  have hresumed : resume = [] ∨ resume = [explicitResumeItem] := by
    unfold resumeItems at hresume
    split at hresume
    · simp only [bind_eq_ok, require_eq_ok, pure_eq_ok, exists_const] at hresume
      exact .inr hresume.2.symm
    · exact .inl (Except.ok.inj hresume).symm
  -- the constructor ties the revisions that were read to those the draft started from
  have hrevisions : existing.baseRevisions = base.revisions := by
    obtain ⟨_, _, _, hp, hm, hq⟩ := draft.checks
    rw [hfields] at hp hm hq
    have hp' : base.profile.revision + 1 = existing.baseRevisions.profile + 1 := hp
    have hm' : mandate.revision = existing.baseRevisions.mandate + 1 := hm
    have hq' : base.policy.elim 0 ColleaguePolicy.revision + 1 =
        existing.baseRevisions.policy + 1 := hrevision.symm.trans hq
    rw [hnextRevision] at hm'
    have h₁ : existing.baseRevisions.profile = base.profile.revision := by omega
    have h₂ : existing.baseRevisions.mandate = base.mandate.revision := by omega
    have h₃ : existing.baseRevisions.policy = base.policy.elim 0 ColleaguePolicy.revision := by
      omega
    show existing.baseRevisions = ⟨_, _, _⟩
    rw [← h₁, ← h₂, ← h₃]
  refine ⟨⟨by rw [hfields]; exact hrevisions, by rw [hfields]; rfl, by rw [hfields]; exact hnextId,
    by rw [hfields]; exact hid, fun _ => ?_, ⟨resume, hresumed, by rw [hfields]⟩, now, ?_⟩,
    by rw [hfields]⟩
  · rw [hfields]
    refine ⟨hmandateId, hmandateRevision.trans ?_⟩
    show (if _ then _ else mandate.revision) = _
    rw [hnextRevision]
  · rw [hfields]

-- ════════════════════════════════════════════════════════════════════════
-- Confirmation
-- ════════════════════════════════════════════════════════════════════════

/-- The configuration that a confirmed draft makes of another one. A record whose
    content the draft keeps stays; the policy is written for the new mandate. -/
structure Replaces (draft : ColleagueDraft) (base next : BaseValues) : Prop where
  profileId : next.profile.profileId = base.profile.profileId
  profileRevision : next.profile.revision =
    base.profile.revision + if sameProfileContent base.profile draft.proposedProfile then 0 else 1
  profileContent : sameProfileContent next.profile draft.proposedProfile = true
  mandateId : next.mandate.mandateId = base.mandate.mandateId
  mandateRevision : next.mandate.revision =
    base.mandate.revision + if sameMandateContent base.mandate draft.proposedMandate then 0 else 1
  mandateContent : sameMandateContent next.mandate draft.proposedMandate = true
  policy : ∃ p, next.policy = some p ∧
    (BuilderTables.policyChanges base.policy draft = false → base.policy = some p) ∧
    (BuilderTables.policyChanges base.policy draft = true → p.policyId = draft.proposedPolicy.policyId ∧
      p.revision = base.policy.elim 0 ColleaguePolicy.revision + 1 ∧
      p.mandateId = next.mandate.mandateId ∧ p.mandateRevision = next.mandate.revision ∧
      (draft.proposedPolicy.mandateId = p.mandateId →
        draft.proposedPolicy.mandateRevision = p.mandateRevision →
        samePolicyContent p draft.proposedPolicy = true))
  changed : ¬(sameProfileContent base.profile draft.proposedProfile = true ∧
    sameMandateContent base.mandate draft.proposedMandate = true ∧
    BuilderTables.policyChanges base.policy draft = false)

namespace BuilderTables

theorem updateRecord_of_rows {ρ : Type} [DurableRecord ρ] {rs rs' : Records ρ} {r old : ρ} {n : ℕ}
    (h : rs.updateRecord r n = .ok rs') (hrows : rs.domain.rows = [old]) :
    rs'.domain.rows = [r] ∧ DurableRecord.revision r = n + 1 ∧ key r = key old := by
  obtain ⟨hrevision, ⟨x, hx, _⟩, hdomain⟩ := Records.updateRecord_eq_ok h
  have hmem : x ∈ rs.domain.rows := Table.mem_of_find? hx
  rw [hrows] at hmem
  obtain rfl := List.mem_singleton.mp hmem
  have hkey : key r = key x := (Records.key_of_find? hx).symm
  refine ⟨?_, hrevision, hkey⟩
  show rs'.domain.rows = [r]
  simp only [hdomain, Table.replace, hrows, List.map_cons, List.map_nil, if_pos hkey.symm]

theorem applyProfile_eq_ok {s t : BuilderTables} {current next : Profile} {draft : ColleagueDraft}
    {actor : Principal} {occurredAt : Instant}
    (h : s.applyProfile current draft actor occurredAt = .ok (next, t))
    (hrows : s.profiles.domain.rows = [current]) :
    t = { s with profiles := t.profiles } ∧ t.profiles.domain.rows = [next] ∧
      (∀ a ∈ s.profiles.audit, a ∈ t.profiles.audit) ∧ next.profileId = current.profileId ∧
      (next.revision =
        current.revision + if sameProfileContent current draft.proposedProfile then 0 else 1) ∧
      sameProfileContent next draft.proposedProfile = true := by
  unfold applyProfile at h
  split at h
  · rename_i hsame
    obtain ⟨rfl, rfl⟩ := Prod.mk.inj (Except.ok.inj h)
    exact ⟨rfl, hrows, fun _ ha => ha, rfl, by rw [if_pos hsame]; rfl, hsame⟩
  · rename_i hsame
    simp only [bind_eq_ok, pure_eq_ok, Prod.mk.injEq] at h
    obtain ⟨profiles, hupdate, rfl, rfl⟩ := h
    obtain ⟨hnext, _, hkey⟩ := updateRecord_of_rows hupdate hrows
    exact ⟨rfl, hnext, fun _ ha => (Records.mem_audit_updateRecord hupdate).mpr (.inl ha), hkey,
      by rw [if_neg hsame], by simp [sameProfileContent]⟩

theorem applyMandate_eq_ok {s t : BuilderTables} {current next : Mandate} {draft : ColleagueDraft}
    {actor : Principal} {occurredAt : Instant}
    (h : s.applyMandate current draft actor occurredAt = .ok (next, t))
    (hrows : s.mandates.domain.rows = [current]) :
    t = { s with mandates := t.mandates } ∧ t.mandates.domain.rows = [next] ∧
      (∀ a ∈ s.mandates.audit, a ∈ t.mandates.audit) ∧ next.mandateId = current.mandateId ∧
      (next.revision =
        current.revision + if sameMandateContent current draft.proposedMandate then 0 else 1) ∧
      sameMandateContent next draft.proposedMandate = true := by
  unfold applyMandate at h
  split at h
  · rename_i hsame
    obtain ⟨rfl, rfl⟩ := Prod.mk.inj (Except.ok.inj h)
    exact ⟨rfl, hrows, fun _ ha => ha, rfl, by rw [if_pos hsame]; rfl, hsame⟩
  · rename_i hsame
    split at h
    · simp only [bind_eq_ok, pure_eq_ok, Prod.mk.injEq] at h
      obtain ⟨mandates, hupdate, rfl, rfl⟩ := h
      obtain ⟨hnext, _, hkey⟩ := updateRecord_of_rows hupdate hrows
      exact ⟨rfl, hnext, fun _ ha => (Records.mem_audit_updateRecord hupdate).mpr (.inl ha), hkey,
        by rw [if_neg hsame], by simp [sameMandateContent]⟩
    · exact absurd h (by simp)

theorem applyPolicy_eq_ok {s t : BuilderTables} {current : Option ColleaguePolicy}
    {next : ColleaguePolicy} {mandate : Mandate} {draft : ColleagueDraft} {actor : Principal}
    {occurredAt : Instant}
    (h : s.applyPolicy current mandate draft actor occurredAt = .ok (next, t))
    (hrows : s.policies.domain.rows = current.toList) :
    t = { s with policies := t.policies } ∧ t.policies.domain.rows = [next] ∧
      (∀ a ∈ s.policies.audit, a ∈ t.policies.audit) ∧
      (∀ a ∈ t.policies.audit, a ∈ s.policies.audit ∨ 0 < a.recordRevision) ∧
      next.policyId = draft.proposedPolicy.policyId ∧
      next.revision = current.elim 0 ColleaguePolicy.revision + 1 ∧
      next.mandateId = mandate.mandateId ∧ next.mandateRevision = mandate.revision ∧
      next.runState = draft.proposedPolicy.runState ∧
      (draft.proposedPolicy.mandateId = next.mandateId →
        draft.proposedPolicy.mandateRevision = next.mandateRevision →
        samePolicyContent next draft.proposedPolicy = true) := by
  unfold applyPolicy at h
  split at h
  · cases current with
    | none =>
      simp only [bind_eq_ok, pure_eq_ok, Prod.mk.injEq] at h
      obtain ⟨policies, hinsert, rfl, rfl⟩ := h
      have hrows' := (Table.insert?_eq_some.mp (Records.insert?_of_insertRecord hinsert)).2
      simp only [hrows, Option.toList_none, List.nil_append] at hrows'
      have haudit := fun a => Records.mem_audit_insertRecord (a := a) hinsert
      refine ⟨rfl, hrows', fun a ha => (haudit a).mpr (.inl ha),
        fun a ha => ((haudit a).mp ha).imp_right fun he => ?_, rfl, rfl, rfl, rfl, rfl,
        fun hid hrevision => ?_⟩
      · rw [he]
        exact Nat.succ_pos _
      simp only [] at hid hrevision
      simp [samePolicyContent, hid, hrevision]
    | some old =>
      simp only [bind_eq_ok, pure_eq_ok, Prod.mk.injEq] at h
      obtain ⟨policies, hupdate, rfl, rfl⟩ := h
      have haudit := fun a => Records.mem_audit_updateRecord (a := a) hupdate
      refine ⟨rfl, (updateRecord_of_rows hupdate hrows).1, fun a ha => (haudit a).mpr (.inl ha),
        fun a ha => ((haudit a).mp ha).imp_right fun he => ?_, rfl, rfl, rfl, rfl, rfl,
        fun hid hrevision => ?_⟩
      · rw [he]
        exact Nat.succ_pos _
      simp only [] at hid hrevision
      simp [samePolicyContent, hid, hrevision]
  · exact absurd h (by simp)

theorem Active.getActivePolicy {s : BuilderTables} {base : BaseValues} (h : s.Active base) :
    s.getActivePolicy = .ok base.policy := by
  unfold BuilderTables.getActivePolicy
  rw [h.policies]
  cases base.policy <;> rfl

theorem Active.getProfile {s : BuilderTables} {base : BaseValues} (h : s.Active base)
    {id : StableId} {profile : Profile} (hget : s.profiles.getRecord id = .ok profile) :
    profile = base.profile ∧ base.profile.profileId = id := by
  have hfind := Records.getRecord_eq_ok.mp hget
  have hmem : profile ∈ s.profiles.domain.rows := Table.mem_of_find? hfind
  rw [h.profiles] at hmem
  obtain rfl := List.mem_singleton.mp hmem
  exact ⟨rfl, Records.key_of_find? hfind⟩

theorem Active.getMandate {s : BuilderTables} {base : BaseValues} (h : s.Active base)
    {id : StableId} {mandate : Mandate} (hget : s.mandates.getRecord id = .ok mandate) :
    mandate = base.mandate ∧ base.mandate.mandateId = id := by
  have hfind := Records.getRecord_eq_ok.mp hget
  have hmem : mandate ∈ s.mandates.domain.rows := Table.mem_of_find? hfind
  rw [h.mandates] at hmem
  obtain rfl := List.mem_singleton.mp hmem
  exact ⟨rfl, Records.key_of_find? hfind⟩

/-- A confirmation writes the configuration that its draft makes of the active one. -/
theorem applyConfiguration_eq_ok {s t : BuilderTables} {draft : ColleagueDraft} {actor : Principal}
    {occurredAt : Instant} {applied : AppliedConfiguration} {base : BaseValues}
    (h : s.applyConfiguration draft actor occurredAt = .ok (applied, t)) (hactive : s.Active base) :
    ∃ next, t.Active next ∧ Replaces draft base next ∧ s.Extends t ∧
      t = { s with profiles := t.profiles, mandates := t.mandates, policies := t.policies } ∧
      applied.currentPolicy = base.policy ∧ applied.profile = next.profile ∧
      applied.mandate = next.mandate ∧ next.policy = some applied.policy ∧
      applied.policyChanged = policyChanges base.policy draft ∧
      (applied.policyChanged = true → applied.policy.runState = draft.proposedPolicy.runState) := by
  simp only [applyConfiguration, bind_eq_ok, require_eq_ok, exists_const, Prod.exists] at h
  obtain ⟨currentProfile, hprofile, currentMandate, hmandate, currentPolicy, hpolicy, hchanged,
    profile, s₁, hs₁, mandate, s₂, hs₂, hlast⟩ := h
  obtain ⟨rfl, hprofileId⟩ := hactive.getProfile hprofile
  obtain ⟨rfl, hmandateId⟩ := hactive.getMandate hmandate
  obtain rfl := Except.ok.inj (hactive.getActivePolicy.symm.trans hpolicy)
  obtain ⟨hs₁', hrows₁, haudit₁, hid₁, hrev₁, hcontent₁⟩ := applyProfile_eq_ok hs₁ hactive.profiles
  have hmandates₁ : s₁.mandates = s.mandates := by rw [hs₁']
  obtain ⟨hs₂', hrows₂, haudit₂, hid₂, hrev₂, hcontent₂⟩ :=
    applyMandate_eq_ok hs₂ (hmandates₁ ▸ hactive.mandates)
  have hpolicies₂ : s₂.policies = s.policies := by rw [hs₂', hs₁']
  -- the policy stays, or it is written for the new mandate
  have hlast : ∃ policy s₃, applied = ⟨base.policy, profile, mandate, policy,
        policyChanges base.policy draft⟩ ∧ t = s₃ ∧
      s₃ = { s₂ with policies := s₃.policies } ∧ s₃.policies.domain.rows = [policy] ∧
      (∀ a ∈ s₂.policies.audit, a ∈ s₃.policies.audit) ∧
      (∀ a ∈ s₃.policies.audit, a ∈ s₂.policies.audit ∨ 0 < a.recordRevision) ∧
      (policyChanges base.policy draft = false → base.policy = some policy) ∧
      (policyChanges base.policy draft = true → policy.policyId = draft.proposedPolicy.policyId ∧
        policy.revision = base.policy.elim 0 ColleaguePolicy.revision + 1 ∧
        policy.mandateId = mandate.mandateId ∧ policy.mandateRevision = mandate.revision ∧
        policy.runState = draft.proposedPolicy.runState ∧
        (draft.proposedPolicy.mandateId = policy.mandateId →
          draft.proposedPolicy.mandateRevision = policy.mandateRevision →
          samePolicyContent policy draft.proposedPolicy = true)) := by
    split at hlast
    · rename_i policy hsame hbase
      simp only [bind_eq_ok, pure_eq_ok, exists_eq_left', Prod.mk.injEq] at hlast
      obtain ⟨rfl, rfl⟩ := hlast
      refine ⟨policy, s₂, by rw [hsame], rfl, rfl, ?_, fun _ ha => ha, fun _ ha => .inl ha,
        fun _ => hbase,
        fun h => absurd (hsame.symm.trans h) (by simp)⟩
      rw [hpolicies₂, hactive.policies, hbase]
      rfl
    · rename_i hno
      simp only [bind_eq_ok, pure_eq_ok, Prod.exists, Prod.mk.injEq] at hlast
      obtain ⟨policy, s₃, hs₃, rfl, rfl⟩ := hlast
      obtain ⟨hs₃', hrows₃, haudit₃, hpositive₃, hid, hrev, hmid, hmrev, hrun, hcontent⟩ :=
        applyPolicy_eq_ok hs₃ (hpolicies₂ ▸ hactive.policies)
      refine ⟨policy, s₃, rfl, rfl, hs₃', hrows₃, haudit₃, hpositive₃, fun hfalse => ?_,
        fun _ => ⟨hid, hrev, hmid, hmrev, hrun, hcontent⟩⟩
      cases hbase : base.policy with
      | none =>
        rw [hbase] at hfalse
        exact absurd hfalse (by simp [policyChanges])
      | some old => exact absurd hbase (hno old hfalse)
  obtain ⟨policy, s₃, rfl, rfl, hs₃', hrows₃, haudit₃, hpositive₃, hkept, hwritten⟩ := hlast
  have hprofiles : t.profiles = s₁.profiles := by rw [hs₃', hs₂']
  have hmandates : t.mandates = s₂.mandates := by rw [hs₃']
  refine ⟨⟨profile, mandate, some policy⟩, ⟨hprofiles ▸ hrows₁, hmandates ▸ hrows₂, hrows₃⟩,
    ⟨hid₁, hrev₁, hcontent₁, hid₂, hrev₂, hcontent₂, ⟨policy, rfl, hkept, fun h => ?_⟩, hchanged⟩,
    ⟨hprofiles ▸ haudit₁, hmandates ▸ hmandates₁ ▸ haudit₂, hpolicies₂ ▸ haudit₃,
      hpolicies₂ ▸ hpositive₃⟩, ?_, rfl, rfl, rfl,
    rfl, rfl, fun h => (hwritten h).2.2.2.2.1⟩
  · obtain ⟨h₁, h₂, h₃, h₄, _, h₅⟩ := hwritten h
    exact ⟨h₁, h₂, h₃, h₄, h₅⟩
  · rw [hprofiles, hmandates]
    conv_lhs => rw [hs₃', hs₂', hs₁']

/-- The run state after a confirmation touches nothing but itself and the outcomes. -/
theorem confirmRunState_eq_ok {s t : BuilderTables} {draft : ColleagueDraft}
    {applied : AppliedConfiguration} {actor : Principal} {occurredAt : Instant}
    (h : s.confirmRunState draft applied actor occurredAt = .ok t) :
    t = { s with runState := t.runState, policyOutcomes := t.policyOutcomes } := by
  unfold confirmRunState at h
  split at h
  · obtain rfl := Except.ok.inj h
    rfl
  · split at h
    · simp only [bind_eq_ok, orFail_eq_ok, require_eq_ok, exists_const] at h
      obtain ⟨current, _, _, h⟩ := h
      split at h
      · unfold recordExplicitResume insertPolicyOutcome at h
        split at h
        · simp only [bind_eq_ok, require_eq_ok, pure_eq_ok, exists_const] at h
          obtain ⟨_, rfl⟩ := h
          rfl
        · simp only [bind_eq_ok, orFail_eq_ok, pure_eq_ok] at h
          obtain ⟨_, _, rfl⟩ := h
          rfl
      · split at h
        · obtain rfl := pure_eq_ok.mp h
          rfl
        · obtain rfl := pure_eq_ok.mp h
          rfl
    · split at h
      · obtain rfl := Except.ok.inj h
        rfl
      · obtain rfl := Except.ok.inj h
        rfl

/-- A resume is an outcome of its own kind; it admits no trigger. -/
theorem admissions_recordExplicitResume {s t : BuilderTables} {draft : ColleagueDraft}
    {policy : ColleaguePolicy} {actor : Principal} {occurredAt : Instant}
    (h : s.recordExplicitResume draft policy actor occurredAt = .ok t) :
    t.admissions = s.admissions :=
  admissions_insertPolicyOutcome h (by simp [PolicyEnforcementRecord.admits])

theorem admissions_confirmRunState {s t : BuilderTables} {draft : ColleagueDraft}
    {applied : AppliedConfiguration} {actor : Principal} {occurredAt : Instant}
    (h : s.confirmRunState draft applied actor occurredAt = .ok t) :
    t.admissions = s.admissions := by
  unfold confirmRunState at h
  split at h
  · obtain rfl := Except.ok.inj h
    rfl
  · split at h
    · simp only [bind_eq_ok, orFail_eq_ok, require_eq_ok, exists_const] at h
      obtain ⟨current, _, _, h⟩ := h
      split at h
      · have hkept := admissions_recordExplicitResume h
        exact hkept
      · split at h
        · obtain rfl := pure_eq_ok.mp h
          rfl
        · obtain rfl := pure_eq_ok.mp h
          rfl
    · split at h
      · obtain rfl := Except.ok.inj h
        rfl
      · obtain rfl := Except.ok.inj h
        rfl

end BuilderTables

-- ════════════════════════════════════════════════════════════════════════
-- Drafts of a step
-- ════════════════════════════════════════════════════════════════════════

/-- The draft is another one in its present state. -/
def ColleagueDraft.InStateOf (draft other : ColleagueDraft) : Prop :=
  draft.toColleagueDraftFields = { other.toColleagueDraftFields with
    state := draft.state
    updatedAt := draft.updatedAt }

theorem BuiltFrom.of_inStateOf {ports : GovernancePorts} {policyId : StableId}
    {draft other : ColleagueDraft} {base : BaseValues} (h : BuiltFrom ports policyId other base)
    (hstate : draft.InStateOf other) : BuiltFrom ports policyId draft base := by
  obtain ⟨hrevisions, hprofile, hmandate, hpolicy, hbound, hdiff, hdigest⟩ := h
  refine ⟨?_, ?_, ?_, ?_, ?_, ?_, ?_⟩ <;> rw [hstate] <;> assumption

/-- The review of a draft at its revision. -/
def BuilderAction.Reviews (a : BuilderAction) (draft : ColleagueDraft) : Prop :=
  ∃ actor occurredAt, a = .reviewDraft draft.draftId draft.revision actor occurredAt

namespace BuilderTables

/-- Where a draft comes from that a step leaves: it was there, it was built from
    what was read, or it is a stored draft in another state short of confirmed.
    Drafts become reviewable by a review. -/
inductive DraftOrigin (ports : GovernancePorts) (policyId : StableId) (reads : ConfigurationReads)
    (review : ColleagueDraft → Prop) (s : BuilderTables) (draft : ColleagueDraft) : Prop
  | kept : draft ∈ s.drafts → DraftOrigin ports policyId reads review s draft
  | built {i : BaseReads} {base : BaseValues} : reads.base i = .ok base →
      BuiltFrom ports policyId draft base → draft.state = .draft →
      DraftOrigin ports policyId reads review s draft
  | moved {other : ColleagueDraft} : other ∈ s.drafts → draft.InStateOf other →
      (draft.state = .reviewable ∧ review draft) ∨ draft.state = .cancelled ∨
        draft.state = .stale → DraftOrigin ports policyId reads review s draft

/-- A step that changes drafts and nothing else. -/
structure DraftStep (ports : GovernancePorts) (policyId : StableId) (reads : ConfigurationReads)
    (review : ColleagueDraft → Prop) (s t : BuilderTables) : Prop where
  frame : t = { s with drafts := t.drafts }
  origin : ∀ draft ∈ t.drafts, DraftOrigin ports policyId reads review s draft

variable {ports : GovernancePorts} {policyId : StableId} {reads : ConfigurationReads}
  {review : ColleagueDraft → Prop} {s t : BuilderTables}

theorem DraftStep.refl (s : BuilderTables) : s.DraftStep ports policyId reads review s :=
  ⟨rfl, fun _ h => .kept h⟩

theorem DraftStep.mono {review' : ColleagueDraft → Prop}
    (h : s.DraftStep ports policyId reads review t) (hreview : ∀ d, review d → review' d) :
    s.DraftStep ports policyId reads review' t := by
  refine ⟨h.frame, fun d hd => ?_⟩
  cases h.origin d hd with
  | kept hd => exact .kept hd
  | built hbase hbuilt hstate => exact .built hbase hbuilt hstate
  | moved hother hsame hstate =>
    exact .moved hother hsame (hstate.imp_left fun h => ⟨h.1, hreview _ h.2⟩)

theorem draftIn_eq_ok {draft next : ColleagueDraft} {state : DraftLifecycle} {occurredAt : Instant}
    (h : draftIn draft state occurredAt = .ok next) :
    next.InStateOf draft ∧ next.state = state ∧ next.draftId = draft.draftId := by
  have hfields := ColleagueDraft.make_eq_ok h
  refine ⟨?_, by rw [hfields], by rw [hfields]⟩
  rw [ColleagueDraft.InStateOf, hfields]

/-- A draft written over a stored one has its own origin; the others stay. -/
theorem DraftStep.of_writeDraft {draft existing : ColleagueDraft}
    (hfind : s.drafts.find? draft.draftId = some existing)
    (h : DraftOrigin ports policyId reads review s draft) :
    s.DraftStep ports policyId reads review (s.writeDraft draft) := by
  refine ⟨rfl, fun d hd => ?_⟩
  rcases (Table.mem_replace hfind).mp hd with rfl | ⟨hd, _⟩
  · exact h
  · exact .kept hd

/-- Moving a stored draft to another state. -/
theorem DraftStep.of_draftIn {draft next : ColleagueDraft} {state : DraftLifecycle}
    {occurredAt : Instant} {draftId : StableId} (hfind : s.getDraft draftId = .ok draft)
    (hnext : draftIn draft state occurredAt = .ok next)
    (hstate : (state = .reviewable ∧ review next) ∨ state = .cancelled ∨ state = .stale) :
    s.DraftStep ports policyId reads review (s.writeDraft next) := by
  obtain ⟨hsame, rfl, hid⟩ := draftIn_eq_ok hnext
  have hstored : s.drafts.find? draftId = some draft := by
    simpa [getDraft] using hfind
  have hkey : next.draftId = draftId := hid.trans (Table.key_of_find? hstored)
  exact .of_writeDraft (by rw [hkey]; exact hstored)
    (.moved (Table.mem_of_find? hstored) hsame hstate)

theorem draftStep_of_exec {tenant : TenantTables} {colleagueId : StableId} {a : BuilderAction}
    (h : s.exec ports tenant reads colleagueId a = .ok t) :
    s.DraftStep ports (ports.policyId colleagueId) reads a.Reviews t := by
  cases a with
  | createDraft base author draftId correlationId now =>
    simp only [exec, createDraft, bind_eq_ok, pure_eq_ok, Prod.exists] at h
    obtain ⟨values, hvalues, draft, hdraft, _, store, ⟨_, _, h⟩, rfl⟩ := h
    obtain ⟨hbuilt, hstate⟩ := builtFrom_createdDraft hdraft
    split at h
    · obtain ⟨_, rfl⟩ := Prod.mk.inj (pure_eq_ok.mp h)
      exact .refl _
    · simp only [bind_eq_ok, require_eq_ok, orFail_eq_ok, pure_eq_ok, exists_const,
        Prod.mk.injEq] at h
      obtain ⟨_, _, _, drafts, hinsert, rfl, rfl⟩ := h
      refine ⟨rfl, fun d hd => ?_⟩
      rcases (Table.mem_insert hinsert).mp hd with hd | rfl
      · exact .kept hd
      · exact .built hvalues hbuilt hstate
  | updateDraft base runState draft author request now =>
    simp only [exec, updateDraft, bind_eq_ok, pure_eq_ok, Prod.exists, require_eq_ok,
      exists_const] at h
    obtain ⟨values, hvalues, _, _, _, _, updated, hupdated, _, store, ⟨_, _, existing, hexisting, _,
      _, _, current, _, h⟩, rfl⟩ := h
    obtain ⟨hbuilt, hstate⟩ := builtFrom_updatedDraft hupdated
    split at h
    · obtain ⟨_, rfl⟩ := Prod.mk.inj (pure_eq_ok.mp h)
      exact .of_writeDraft (by simpa [getDraft] using hexisting) (.built hvalues hbuilt hstate)
    · simp only [markStale, bind_eq_ok, pure_eq_ok, Prod.mk.injEq] at h
      obtain ⟨_, ⟨stale, hstale, rfl⟩, _, rfl⟩ := h
      exact .of_draftIn hexisting hstale (.inr (.inr rfl))
  | reviewDraft draftId expectedRevision actor occurredAt =>
    simp only [exec, reviewDraft, bind_eq_ok, pure_eq_ok, Prod.exists, require_eq_ok,
      exists_const] at h
    obtain ⟨_, store, ⟨_, _, draft, hdraft, hrevision, _, current, _, h⟩, rfl⟩ := h
    split at h
    · simp only [bind_eq_ok, require_eq_ok, pure_eq_ok, exists_const, Prod.mk.injEq] at h
      obtain ⟨_, reviewed, hreviewed, _, rfl⟩ := h
      obtain ⟨hsame, _, hid⟩ := draftIn_eq_ok hreviewed
      have hkey : draft.draftId = draftId := Table.key_of_find? (by simpa [getDraft] using hdraft)
      have hnumber : reviewed.revision = draft.revision := by rw [hsame]
      exact .of_draftIn hdraft hreviewed
        (.inl ⟨rfl, actor, occurredAt, by rw [hid, hkey, hnumber, hrevision]⟩)
    · simp only [markStale, bind_eq_ok, pure_eq_ok, Prod.mk.injEq] at h
      obtain ⟨_, ⟨stale, hstale, rfl⟩, _, rfl⟩ := h
      exact .of_draftIn hdraft hstale (.inr (.inr rfl))
  | cancelDraft draftId expectedRevision actor occurredAt =>
    simp only [exec, cancelDraft, bind_eq_ok, pure_eq_ok, Prod.exists, require_eq_ok, exists_const,
      Prod.mk.injEq] at h
    obtain ⟨_, store, ⟨_, _, draft, hdraft, _, _, cancelled, hcancelled, _, rfl⟩, rfl⟩ := h
    exact .of_draftIn hdraft hcancelled (.inr (.inl rfl))

end BuilderTables

-- ════════════════════════════════════════════════════════════════════════
-- Confirmed drafts
-- ════════════════════════════════════════════════════════════════════════

/-- The confirmation of a stored, reviewed draft over the active configuration. -/
structure Confirmation (s : BuilderTables) (cmd : ConfirmDraftCommand) (draft : ColleagueDraft)
    (base next : BaseValues) (t : BuilderTables) : Prop where
  draftId : draft.draftId = cmd.draftId
  stored : s.drafts.find? draft.draftId = some draft
  reviewable : draft.state = .reviewable
  revision : draft.revision = cmd.expectedDraftRevision
  canonicalDigest : draft.canonicalDigest = cmd.expectedCanonicalDigest
  current : s.currentRevisions draft = .ok draft.baseRevisions
  source : s.Active base
  target : t.Active next
  replaces : Replaces draft base next
  audits : s.Extends t
  confirmed : ∃ confirmed, confirmed.InStateOf draft ∧ confirmed.state = .confirmed ∧
    t.drafts = s.drafts.replace confirmed
  runState : ∃ (applied : BuilderTables.AppliedConfiguration) (u v : BuilderTables),
    applied.currentPolicy = base.policy ∧
    next.policy = some applied.policy ∧
    applied.policyChanged = BuilderTables.policyChanges base.policy draft ∧
    (applied.policyChanged = true → applied.policy.runState = draft.proposedPolicy.runState) ∧
    u.runState = s.runState ∧
    u.confirmRunState draft applied cmd.actor cmd.occurredAt = .ok v ∧ t.runState = v.runState
  admissions : t.admissions = s.admissions

/-- A confirmation changes drafts only, or confirms one whose approval it checked. -/
theorem confirmDraft_eq_ok (ports : GovernancePorts) (policyId : StableId)
    (reads : ConfigurationReads) {tenant tenant' : TenantTables} {s t : BuilderTables}
    {colleagueId : StableId} {cmd : ConfirmDraftCommand} {r : Outcome ConfirmationResult}
    {base : BaseValues} (h : confirmDraft tenant s colleagueId cmd = .ok (r, tenant', t))
    (hactive : s.Active base) :
    (tenant' = tenant ∧ s.DraftStep ports policyId reads (fun _ => False) t) ∨
      ∃ draft next, Confirmation s cmd draft base next t ∧
        tenant.authorizeDraftConfirmation colleagueId draft cmd.actor cmd.changeDecisionId
          cmd.occurredAt = .ok tenant' := by
  simp only [confirmDraft, bind_eq_ok] at h
  obtain ⟨_, _, h⟩ := h
  split at h
  · simp only [bind_eq_ok, pure_eq_ok, Prod.mk.injEq] at h
    obtain ⟨_, _, _, rfl, rfl⟩ := h
    exact .inl ⟨rfl, .refl _⟩
  · simp only [bind_eq_ok, require_eq_ok, exists_const] at h
    obtain ⟨draft, hdraft, ⟨hrevision, hbase, hdigest⟩, hreviewable, current, hcurrent, h⟩ := h
    split at h
    · rename_i hsame
      simp only [bind_eq_ok, pure_eq_ok, Prod.exists, Prod.mk.injEq, confirmCurrentDraft,
        orFail_eq_ok] at h
      obtain ⟨_, _, _, ⟨tenant₁, htenant, applied, s₁, hs₁, confirmed, hconfirmed, s₂, hs₂,
        confirmations, _, rfl, rfl, rfl⟩, _, rfl, rfl⟩ := h
      obtain ⟨next, hnext, hreplaces, hextends, hframe, happliedPolicy, _, _, hpolicy, hchanged,
        hrun⟩ := BuilderTables.applyConfiguration_eq_ok hs₁ hactive
      have hs₂' := BuilderTables.confirmRunState_eq_ok hs₂
      obtain ⟨hstate, hstateEq, hid⟩ := BuilderTables.draftIn_eq_ok hconfirmed
      have hfind : s.drafts.find? cmd.draftId = some draft := by
        simpa [BuilderTables.getDraft] using hdraft
      have hdrafts : s₂.drafts = s.drafts.replace confirmed := by
        rw [hs₂', hframe]
        rfl
      refine .inr ⟨draft, next, ⟨Table.key_of_find? hfind, ?_, hreviewable, hrevision, hdigest, ?_, hactive, ⟨?_, ?_, ?_⟩,
        hreplaces, ⟨?_, ?_, ?_, ?_⟩, ⟨confirmed, hstate, hstateEq, hdrafts⟩,
        ⟨applied, s₁.writeDraft confirmed, s₂, happliedPolicy, hpolicy, hchanged, hrun, ?_, hs₂,
          rfl⟩, ?_⟩, htenant⟩
      · have hkey : draft.draftId = cmd.draftId := Table.key_of_find? hfind
        rwa [hkey]
      · rw [hcurrent, hsame, ← hbase]
      · rw [hs₂']
        exact hnext.profiles
      · rw [hs₂']
        exact hnext.mandates
      · rw [hs₂']
        exact hnext.policies
      · rw [hs₂']
        exact hextends.profiles
      · rw [hs₂']
        exact hextends.mandates
      · rw [hs₂']
        exact hextends.policies
      · rw [hs₂']
        exact hextends.positive
      · rw [hframe]
        rfl
      · refine (BuilderTables.admissions_confirmRunState hs₂).trans ?_
        rw [hframe]
        rfl
    · simp only [BuilderTables.markStale, bind_eq_ok, pure_eq_ok, Prod.mk.injEq] at h
      obtain ⟨_, ⟨stale, hstale, rfl⟩, _, rfl, rfl⟩ := h
      exact .inl ⟨rfl, .of_draftIn hdraft hstale (.inr (.inr rfl))⟩

end DigitalColleagues
