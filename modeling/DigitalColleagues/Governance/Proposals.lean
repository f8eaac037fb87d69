import DigitalColleagues.Governance.Lineage

/-!
# What a change proposal stays bound to

A proposal passes through its states with the content it was made with, and the
draft it is about keeps its base revisions. So whatever was checked of a proposal
when it was made can be relied on when it is applied.

## Main definitions

- `ChangeProposal.Phase` — the same proposal at another time of its life
- `GovernanceState.Founded` — a proposal that fits what it is about

## Main results

- `founded_of_reachable` — every stored proposal is founded
- `Founded.of_path` — and stays so
-/

namespace DigitalColleagues

open Keyed TenantTables

-- ════════════════════════════════════════════════════════════════════════
-- Proposals
-- ════════════════════════════════════════════════════════════════════════

/-- The same proposal at another time of its life. -/
def ChangeProposal.Phase (p q : ChangeProposal) : Prop :=
  q = { p with
    state := q.state
    decisionId := q.decisionId
    consumedAt := q.consumedAt
    revision := q.revision }

theorem ChangeProposal.Phase.refl (p : ChangeProposal) : p.Phase p := rfl

/-- Nothing but the phases of the stored proposals changes. -/
def Rephased (s t : Table ChangeProposal) : Prop := ∀ q ∈ t, ∃ p ∈ s, p.Phase q

theorem Rephased.refl (s : Table ChangeProposal) : Rephased s s := fun q hq => ⟨q, hq, .refl q⟩

theorem rephased_of_eq {s t : Table ChangeProposal} (h : t = s) : Rephased s t := by
  rw [h]
  exact .refl s

theorem rephased_replace {s : Table ChangeProposal} {p q : ChangeProposal}
    (hq : p.Phase q) (hp : s.find? (key q) = some p) : Rephased s (s.replace q) := by
  intro x hx
  obtain rfl | ⟨hx, -⟩ := (Table.mem_replace hp).mp hx
  · exact ⟨p, Table.mem_of_find? hp, hq⟩
  · exact ⟨x, hx, .refl x⟩

namespace AuthorityTables

/-- The proposals as they are, or with one that is used. -/
def Consumes (s t : AuthorityTables) : Prop :=
  t.changeProposals = s.changeProposals ∨
    ∃ p ∈ s.changeProposals, ∃ d occurredAt,
      t.changeProposals = (s.consume p d occurredAt).changeProposals

theorem Consumes.rephased {s t : AuthorityTables} (h : s.Consumes t) :
    Rephased s.changeProposals t.changeProposals := by
  obtain h | ⟨p, hp, d, occurredAt, h⟩ := h
  · exact rephased_of_eq h
  · rw [h]
    exact rephased_replace (p := p) rfl (Table.find?_of_mem hp)

end AuthorityTables

section Transactions

variable {s s' : TenantTables} {digest : GovernanceChange → Digest}

theorem consumes_of_applyMembershipChange {p : ChangeProposal} {decisionId : StableId}
    {session : AuthenticatedSession} {idempotencyKey : StableId} {requestDigest : Digest}
    {occurredAt : Instant} {m : Membership}
    (h : s.applyMembershipChange digest p decisionId session idempotencyKey requestDigest
      occurredAt = .ok (m, s')) : s.Consumes s'.toAuthorityTables := by
  simp only [applyMembershipChange, bind_eq_ok, require_eq_ok, exists_const] at h
  obtain ⟨_, _, _, h⟩ := h
  split at h
  · simp only [bind_eq_ok, require_eq_ok, pure_eq_ok, exists_const, Prod.mk.injEq] at h
    obtain ⟨_, _, rfl⟩ := h
    exact .inl rfl
  · simp only [bind_eq_ok, require_eq_ok, orFail_eq_ok, pure_eq_ok, exists_const, Prod.exists,
      Prod.mk.injEq] at h
    obtain ⟨hp, d, hd, target, htarget, _, role, _, status, _, updated, s₁, hwrite, s₂, hconsume,
      _, replays, _, _, rfl⟩ := h
    obtain ⟨row, hrow, hfields⟩ := membershipForPrincipal_eq_ok htarget
    have htargetId : target.principalId = p.targetId :=
      (congrArg MembershipFields.principalId hfields).trans (Table.key_of_find? hrow)
    obtain ⟨principal, row', audits, _, rfl⟩ :=
      AuthorityTables.writeMembershipChange_eq_ok hwrite (htargetId.symm ▸ hrow) hfields
        (issuer_of_membershipForPrincipal htarget)
    obtain rfl := AuthorityTables.consumeChangeRows_eq_ok hconsume hp
      (validatedChangeApproval_eq_ok hd).2.findDecision
    exact .inr ⟨p, Table.mem_of_find? hp, d, occurredAt, rfl⟩

theorem consumes_of_consumeAdminEnrollmentAuthority {decisionId : StableId} {role : HumanRole}
    {scopes : ColleagueScopes} {actor : Principal} {occurredAt : Instant}
    (h : s.consumeAdminEnrollmentAuthority digest decisionId role scopes actor occurredAt =
      .ok s') : s.Consumes s'.toAuthorityTables := by
  obtain ⟨p, d, hp, _, _, _, rfl⟩ := AuthorityTables.consumeAdminEnrollmentAuthority_eq_ok h
  exact .inr ⟨p, hp, d, occurredAt, rfl⟩

theorem consumes_of_authorizeDraftConfirmation {colleagueId : StableId} {draft : ColleagueDraft}
    {actor : Principal} {changeDecisionId : Option StableId} {occurredAt : Instant}
    (h : s.authorizeDraftConfirmation colleagueId draft actor changeDecisionId occurredAt =
      .ok s') : s.Consumes s'.toAuthorityTables := by
  obtain ⟨_, rfl⟩ | ⟨_, p, d, hp, _, _, _, _, _, _, _, rfl⟩ :=
    AuthorityTables.authorizeDraftConfirmation_eq_ok h
  · exact .inl rfl
  · exact .inr ⟨p, hp, d, occurredAt, rfl⟩

theorem consumes_of_confirmDraft {u v : BuilderTables} {colleagueId : StableId}
    {cmd : ConfirmDraftCommand} {r : Outcome ConfirmationResult}
    (h : confirmDraft s u colleagueId cmd = .ok (r, s', v)) : s.Consumes s'.toAuthorityTables := by
  obtain rfl | ⟨draft, hdraft⟩ := AuthorityTables.tenant_of_confirmDraft h
  · exact .inl rfl
  · exact consumes_of_authorizeDraftConfirmation hdraft

theorem consumes_of_authorizeEnrollment {credential stored : GovernanceCredential} {m : Membership}
    (h : s.authorizeEnrollment digest credential m = .ok (stored, s')) :
    s.Consumes s'.toAuthorityTables := by
  unfold authorizeEnrollment at h
  split at h
  · exact absurd h (by simp)
  · simp only [bind_eq_ok, require_eq_ok, exists_const] at h
    obtain ⟨_, _, _, _, _, h⟩ := h
    split at h
    · simp only [bind_eq_ok, require_eq_ok, pure_eq_ok, exists_const, Prod.mk.injEq] at h
      obtain ⟨_, _, rfl⟩ := h
      exact .inl rfl
    · simp only [bind_eq_ok, pure_eq_ok, Prod.mk.injEq] at h
      obtain ⟨s₁, hissuance, s₂, hinsert, _, rfl⟩ := h
      simp only [insertCredential, bind_eq_ok, require_eq_ok, orFail_eq_ok, pure_eq_ok,
        exists_const] at hinsert
      obtain ⟨_, credentials, _, rfl⟩ := hinsert
      unfold authorizeIssuance at hissuance
      split at hissuance
      · simp only [openBootstrapTransition, bind_eq_ok, require_eq_ok, orFail_eq_ok, pure_eq_ok,
          exists_const] at hissuance
        obtain ⟨_, _, _, rfl⟩ := hissuance
        exact .inl rfl
      · split at hissuance
        · simp only [bind_eq_ok, orFail_eq_ok] at hissuance
          obtain ⟨_, _, hconsume⟩ := hissuance
          have hconsumes := consumes_of_consumeAdminEnrollmentAuthority hconsume
          exact hconsumes
        · obtain rfl := Except.ok.inj hissuance
          exact .inl rfl

theorem rephased_of_decideChange {p : ChangeProposal} {decision : ChangeDecision}
    {r : Outcome (ChangeProposal × ChangeDecision)}
    (h : s.decideChange p decision = .ok (r, s')) :
    Rephased s.changeProposals s'.changeProposals := by
  simp only [decideChange, bind_eq_ok, require_eq_ok, orFail_eq_ok, exists_const] at h
  obtain ⟨current, hcurrent, _, _, _, _, _, h⟩ := h
  split at h
  · simp only [bind_eq_ok, require_eq_ok, pure_eq_ok, exists_const, Prod.mk.injEq] at h
    obtain ⟨_, _, rfl⟩ := h
    exact .refl _
  · simp only [bind_eq_ok, require_eq_ok, exists_const] at h
    obtain ⟨rfl, _, _, h⟩ := h
    split at h
    · simp only [pure_eq_ok, Prod.mk.injEq] at h
      obtain ⟨_, rfl⟩ := h
      exact rephased_replace rfl hcurrent
    · simp only [bind_eq_ok, require_eq_ok, orFail_eq_ok, pure_eq_ok, exists_const,
        Prod.mk.injEq] at h
      obtain ⟨_, _, _, _, rfl⟩ := h
      exact rephased_replace rfl hcurrent

theorem rephased_of_expireChangeProposal {p expired : ChangeProposal} {actor : Principal}
    {occurredAt : Instant} (h : s.expireChangeProposal p actor occurredAt = .ok (expired, s')) :
    Rephased s.changeProposals s'.changeProposals := by
  simp only [expireChangeProposal, bind_eq_ok, require_eq_ok, orFail_eq_ok, pure_eq_ok,
    exists_const, Prod.mk.injEq] at h
  obtain ⟨_, _, _, row, hrow, _, _, rfl⟩ := h
  have hkey : key row = (p.ns, p.proposalId) := Table.key_of_find? hrow
  rw [← hkey] at hrow
  exact rephased_replace rfl hrow

/-- What marking a proposal stale takes, and what it does. -/
theorem markChangeProposalStale_eq_ok {p stale : ChangeProposal} {actor : Principal} :
    s.markChangeProposalStale p actor = .ok (stale, s') ↔
      (∃ m, s.requireCurrentMembership actor .applyChange p.ns = .ok m) ∧
      s.changeProposals.find? (p.ns, p.proposalId) = some p ∧
      (p.state = .pending ∨ p.state = .approved) ∧
      stale = { p with state := .stale, revision := p.revision + 1 } ∧
      s' = { s with changeProposals := s.changeProposals.replace stale } := by
  simp only [markChangeProposalStale, bind_eq_ok, require_eq_ok, pure_eq_ok, exists_const,
    Prod.mk.injEq]
  constructor
  · rintro ⟨m, hm, hfind, hstate, rfl, rfl⟩
    exact ⟨⟨m, hm⟩, hfind, hstate, rfl, rfl⟩
  · rintro ⟨⟨m, hm⟩, hfind, hstate, rfl, rfl⟩
    exact ⟨m, hm, hfind, hstate, rfl, rfl⟩

end Transactions

/-- A new proposal was checked against its target; no other step makes one. -/
theorem proposals_of_tenantExec {ports : GovernancePorts}
    {findDraft : Namespace → StableId → Option ColleagueDraft} {s s' : TenantTables}
    {a : TenantAction} (h : s.exec ports findDraft a = .ok s') {q : ChangeProposal}
    (hq : q ∈ s'.changeProposals) :
    (∃ p ∈ s.changeProposals, p.Phase q) ∨
      checkChangeTarget ports.changeDigest findDraft s q = .ok () := by
  have of_eq (heq : s'.changeProposals = s.changeProposals) :
      ∃ p ∈ s.changeProposals, p.Phase q := rephased_of_eq heq q hq
  cases a with
  | createBootstrap record =>
    simp only [exec, bind_eq_ok, pure_eq_ok, Prod.exists, createBootstrap] at h
    obtain ⟨_, s₁, h, rfl⟩ := h
    split at h
    · obtain ⟨-, rfl⟩ := Prod.mk.inj (Except.ok.inj h)
      exact .inl (of_eq rfl)
    · simp only [bind_eq_ok, pure_eq_ok, Prod.mk.injEq] at h
      obtain ⟨_, _, _, _, _, rfl⟩ := h
      exact .inl (of_eq rfl)
  | claimBootstrapRetrieval tokenDigest occurredAt =>
    simp only [exec, claimBootstrapRetrieval, bind_eq_ok, pure_eq_ok] at h
    obtain ⟨_, _, _, _, _, _, rfl⟩ := h
    exact .inl (of_eq rfl)
  | consumeBootstrap tokenDigest principalId session occurredAt =>
    simp only [exec, consumeBootstrap, bind_eq_ok, require_eq_ok, orFail_eq_ok, pure_eq_ok,
      exists_const, Prod.exists, Prod.mk.injEq] at h
    obtain ⟨_, _, ⟨_, _, _, _, _, _, _, s₁, hprincipal, _, _, _, _, _, _, _, s₂, hsession, _, rfl⟩,
      rfl⟩ := h
    obtain ⟨principals, audits, _, rfl⟩ := insertPrincipal_eq_ok hprincipal
    obtain ⟨sessions, rfl⟩ := insertGovernedSession_eq_ok hsession
    exact .inl (of_eq rfl)
  | authorizeEnrollment credential issuerMembership =>
    simp only [exec, bind_eq_ok, pure_eq_ok, Prod.exists] at h
    obtain ⟨_, _, h, rfl⟩ := h
    exact .inl ((consumes_of_authorizeEnrollment h).rephased q hq)
  | authorizeRecovery credential issuerMembership =>
    simp only [exec, bind_eq_ok, pure_eq_ok, Prod.exists, authorizeRecovery] at h
    obtain ⟨_, s₁, h, rfl⟩ := h
    split at h
    · exact absurd h (by simp)
    · simp only [bind_eq_ok, require_eq_ok, exists_const] at h
      obtain ⟨_, _, _, _, _, _, _, _, _, h⟩ := h
      split at h
      · rename_i s₂ hinsert
        simp only [insertCredential, bind_eq_ok, require_eq_ok, orFail_eq_ok, pure_eq_ok,
          exists_const] at hinsert
        obtain ⟨_, credentials, _, rfl⟩ := hinsert
        obtain ⟨_, rfl⟩ := Prod.mk.inj (Except.ok.inj h)
        exact .inl (of_eq rfl)
      · simp only [bind_eq_ok, require_eq_ok, orFail_eq_ok, pure_eq_ok, exists_const,
          Prod.mk.injEq] at h
        obtain ⟨_, _, _, _, rfl⟩ := h
        exact .inl (of_eq rfl)
  | claimCredentialSecret credentialId tokenDigest occurredAt =>
    simp only [exec, bind_eq_ok, pure_eq_ok, Prod.exists, claimCredentialSecret, require_eq_ok,
      orFail_eq_ok, exists_const] at h
    obtain ⟨_, s₁, ⟨_, _, _, _, _, h⟩, rfl⟩ := h
    split at h
    · obtain ⟨-, rfl⟩ := Prod.mk.inj (Except.ok.inj h)
      exact .inl (of_eq rfl)
    · simp only [bind_eq_ok, require_eq_ok, pure_eq_ok, exists_const, Prod.mk.injEq] at h
      obtain ⟨_, _, _, rfl⟩ := h
      exact .inl (of_eq rfl)
  | expireCredential credential occurredAt =>
    simp only [exec, expireCredential, bind_eq_ok, require_eq_ok, pure_eq_ok, exists_const,
      Prod.exists, Prod.mk.injEq] at h
    obtain ⟨_, _, ⟨_, _, _, _, _, rfl⟩, rfl⟩ := h
    exact .inl (of_eq rfl)
  | revokeCredential session credentialId idempotencyKey requestDigest occurredAt =>
    simp only [exec, bind_eq_ok, pure_eq_ok, Prod.exists, revokeCredential] at h
    obtain ⟨_, s₁, ⟨_, _, h⟩, rfl⟩ := h
    split at h
    · simp only [bind_eq_ok, require_eq_ok, pure_eq_ok, exists_const, Prod.mk.injEq] at h
      obtain ⟨_, _, rfl⟩ := h
      exact .inl (of_eq rfl)
    · simp only [bind_eq_ok, require_eq_ok, orFail_eq_ok, pure_eq_ok, exists_const,
        Prod.mk.injEq] at h
      obtain ⟨_, _, _, _, _, _, _, _, _, _, _, rfl⟩ := h
      exact .inl (of_eq rfl)
  | consumeEnrollment tokenDigest principalId role membership session occurredAt =>
    simp only [exec, bind_eq_ok, pure_eq_ok, Prod.exists, consumeEnrollment, require_eq_ok,
      orFail_eq_ok, exists_const] at h
    obtain ⟨_, s₁, ⟨_, _, _, _, h⟩, rfl⟩ := h
    split at h
    · exact absurd h (by simp)
    · simp only [bind_eq_ok, require_eq_ok, orFail_eq_ok, toOption_eq_some, pure_eq_ok,
        exists_const, Prod.mk.injEq] at h
      obtain ⟨_, _, _, _, _, _, s₂, hprincipal, memberships, _, s₃, hsession, _, rfl⟩ := h
      obtain ⟨principals, audits, _, rfl⟩ := insertPrincipal_eq_ok hprincipal
      obtain ⟨sessions, rfl⟩ := insertGovernedSession_eq_ok hsession
      exact .inl (of_eq rfl)
  | consumeRecovery tokenDigest session occurredAt =>
    simp only [exec, bind_eq_ok, pure_eq_ok, Prod.exists, consumeRecovery, orFail_eq_ok] at h
    obtain ⟨_, s₁, ⟨_, _, h⟩, rfl⟩ := h
    split at h
    · exact absurd h (by simp)
    · simp only [bind_eq_ok, require_eq_ok, pure_eq_ok, exists_const, Prod.mk.injEq] at h
      obtain ⟨_, _, _, _, _, _, s₂, hsession, _, rfl⟩ := h
      obtain ⟨sessions, rfl⟩ := insertGovernedSession_eq_ok hsession
      exact .inl (of_eq rfl)
  | createChangeProposal proposal =>
    simp only [exec, bind_eq_ok, pure_eq_ok, Prod.exists, createChangeProposal, require_eq_ok,
      exists_const] at h
    obtain ⟨_, s₁, ⟨_, _, _, _, _, h⟩, rfl⟩ := h
    split at h
    · simp only [bind_eq_ok, require_eq_ok, pure_eq_ok, exists_const, Prod.mk.injEq] at h
      obtain ⟨_, _, rfl⟩ := h
      exact .inl (of_eq rfl)
    · simp only [bind_eq_ok, orFail_eq_ok, pure_eq_ok, Prod.mk.injEq] at h
      obtain ⟨_, hcheck, changeProposals, hinsert, _, rfl⟩ := h
      obtain hq | rfl := (Table.mem_insert hinsert).mp hq
      · exact .inl ⟨q, hq, .refl q⟩
      · exact .inr hcheck
  | decideChange proposal decision =>
    simp only [exec, bind_eq_ok, pure_eq_ok, Prod.exists] at h
    obtain ⟨_, _, h, rfl⟩ := h
    exact .inl (rephased_of_decideChange h q hq)
  | expireChangeProposal proposal actor occurredAt =>
    simp only [exec, bind_eq_ok, pure_eq_ok, Prod.exists] at h
    obtain ⟨_, _, h, rfl⟩ := h
    exact .inl (rephased_of_expireChangeProposal h q hq)
  | markChangeProposalStale proposal actor =>
    simp only [exec, bind_eq_ok, pure_eq_ok, Prod.exists] at h
    obtain ⟨stale, s₁, h, rfl⟩ := h
    obtain ⟨_, hfind, _, rfl, rfl⟩ := markChangeProposalStale_eq_ok.mp h
    have hphase : proposal.Phase { proposal with
        state := .stale
        revision := proposal.revision + 1 } := rfl
    exact .inl (rephased_replace hphase hfind q hq)
  | applyMembershipChange proposal decisionId session idempotencyKey requestDigest occurredAt =>
    simp only [exec, bind_eq_ok, pure_eq_ok, Prod.exists] at h
    obtain ⟨_, _, h, rfl⟩ := h
    exact .inl ((consumes_of_applyMembershipChange h).rephased q hq)
  | consumeAdminEnrollmentChange decisionId role colleagueIds actor occurredAt =>
    exact .inl ((consumes_of_consumeAdminEnrollmentAuthority h).rephased q hq)

-- ════════════════════════════════════════════════════════════════════════
-- Drafts
-- ════════════════════════════════════════════════════════════════════════

namespace BuilderTables

/-- Every draft is still there, over the same base. -/
def KeepsBases (s t : BuilderTables) : Prop :=
  s.drafts.Persists (fun d d' => d'.baseRevisions = d.baseRevisions) t.drafts

variable {s t : BuilderTables}

theorem KeepsBases.refl (s : BuilderTables) : s.KeepsBases s := fun _ d hd => ⟨d, hd, rfl⟩

theorem keepsBases_replace {draft existing : ColleagueDraft}
    (hfind : s.drafts.find? draft.draftId = some existing)
    (hbase : draft.baseRevisions = existing.baseRevisions)
    (ht : t.drafts = s.drafts.replace draft) : s.KeepsBases t := by
  intro id d hd
  rw [ht]
  by_cases hid : id = key draft
  · subst hid
    obtain rfl := Option.some.inj (hfind.symm.trans hd)
    exact ⟨draft, Table.find?_replace_self hfind, hbase⟩
  · exact ⟨d, (Table.find?_replace_of_ne hid).trans hd, rfl⟩

/-- A draft in another state is over the same base. -/
theorem keepsBases_draftIn {draft next : ColleagueDraft} {id : StableId} {state : DraftLifecycle}
    {occurredAt : Instant} (hfind : s.drafts.find? id = some draft)
    (hnext : draftIn draft state occurredAt = .ok next) : s.KeepsBases (s.writeDraft next) := by
  obtain ⟨hstate, _, hid⟩ := draftIn_eq_ok hnext
  have hkey : draft.draftId = id := Table.key_of_find? hfind
  have hstored : s.drafts.find? next.draftId = some draft := by
    rw [hid, hkey]
    exact hfind
  have hbase : next.baseRevisions = draft.baseRevisions := by rw [hstate]
  exact keepsBases_replace hstored hbase rfl

theorem keepsBases_of_exec {ports : GovernancePorts} {reads : ConfigurationReads}
    {tenant : TenantTables} {colleagueId : StableId} {a : BuilderAction}
    (h : s.exec ports tenant reads colleagueId a = .ok t) : s.KeepsBases t := by
  cases a with
  | createDraft base author draftId correlationId now =>
    simp only [exec, createDraft, bind_eq_ok, pure_eq_ok, Prod.exists] at h
    obtain ⟨_, _, draft, _, _, u, ⟨_, _, h⟩, rfl⟩ := h
    split at h
    · obtain ⟨_, rfl⟩ := Prod.mk.inj (pure_eq_ok.mp h)
      exact .refl _
    · simp only [bind_eq_ok, require_eq_ok, orFail_eq_ok, pure_eq_ok, exists_const,
        Prod.mk.injEq] at h
      obtain ⟨_, _, _, drafts, hinsert, _, rfl⟩ := h
      exact fun id d hd => ⟨d, Table.find?_insert_of_some hinsert hd, rfl⟩
  | updateDraft base runState draft author request now =>
    simp only [exec, updateDraft, getDraft, bind_eq_ok, require_eq_ok, orFail_eq_ok, pure_eq_ok,
      exists_const, Prod.exists] at h
    obtain ⟨_, _, _, _, _, _, draft, _, _, u, ⟨_, _, existing, hexisting, _, _, hbase, _, _, h⟩,
      rfl⟩ := h
    split at h
    · obtain ⟨_, rfl⟩ := Prod.mk.inj (pure_eq_ok.mp h)
      exact keepsBases_replace hexisting hbase.symm rfl
    · simp only [markStale, bind_eq_ok, pure_eq_ok, Prod.mk.injEq] at h
      obtain ⟨_, ⟨stale, hstale, rfl⟩, _, rfl⟩ := h
      exact keepsBases_draftIn hexisting hstale
  | reviewDraft draftId expectedRevision actor occurredAt =>
    simp only [exec, reviewDraft, getDraft, bind_eq_ok, require_eq_ok, orFail_eq_ok, pure_eq_ok,
      exists_const, Prod.exists] at h
    obtain ⟨_, u, ⟨_, _, draft, hdraft, _, _, _, _, h⟩, rfl⟩ := h
    split at h
    · simp only [bind_eq_ok, require_eq_ok, pure_eq_ok, exists_const, Prod.mk.injEq] at h
      obtain ⟨_, reviewed, hreviewed, _, rfl⟩ := h
      exact keepsBases_draftIn hdraft hreviewed
    · simp only [markStale, bind_eq_ok, pure_eq_ok, Prod.mk.injEq] at h
      obtain ⟨_, ⟨stale, hstale, rfl⟩, _, rfl⟩ := h
      exact keepsBases_draftIn hdraft hstale
  | cancelDraft draftId expectedRevision actor occurredAt =>
    simp only [exec, cancelDraft, getDraft, bind_eq_ok, require_eq_ok, orFail_eq_ok, pure_eq_ok,
      exists_const, Prod.exists, Prod.mk.injEq] at h
    obtain ⟨_, u, ⟨_, _, draft, hdraft, _, _, cancelled, hcancelled, _, rfl⟩, rfl⟩ := h
    exact keepsBases_draftIn hdraft hcancelled

theorem keepsBases_of_confirmDraft {tenant tenant' : TenantTables} {colleagueId : StableId}
    {cmd : ConfirmDraftCommand} {r : Outcome ConfirmationResult} {base : BaseValues}
    (h : confirmDraft tenant s colleagueId cmd = .ok (r, tenant', t)) (hactive : s.Active base) :
    s.KeepsBases t := by
  simp only [confirmDraft, getDraft, bind_eq_ok] at h
  obtain ⟨_, _, h⟩ := h
  split at h
  · simp only [bind_eq_ok, pure_eq_ok, Prod.mk.injEq] at h
    obtain ⟨_, _, _, _, rfl⟩ := h
    exact .refl _
  · simp only [bind_eq_ok, require_eq_ok, orFail_eq_ok, exists_const] at h
    obtain ⟨draft, hdraft, _, _, current, _, h⟩ := h
    split at h
    · simp only [bind_eq_ok, pure_eq_ok, Prod.exists, Prod.mk.injEq, confirmCurrentDraft,
        orFail_eq_ok] at h
      obtain ⟨_, _, _, ⟨_, _, applied, s₁, hs₁, confirmed, hconfirmed, s₂, hs₂, _, _, _, _, rfl⟩,
        _, _, rfl⟩ := h
      obtain ⟨_, _, _, _, hframe, _⟩ := applyConfiguration_eq_ok hs₁ hactive
      have hkeeps := keepsBases_draftIn hdraft hconfirmed
      have hdrafts : s₂.drafts = (s.writeDraft confirmed).drafts := by
        rw [confirmRunState_eq_ok hs₂, hframe]
        rfl
      intro id d hd
      rw [hdrafts]
      exact hkeeps id d hd
    · simp only [markStale, bind_eq_ok, pure_eq_ok, Prod.mk.injEq] at h
      obtain ⟨_, ⟨stale, hstale, rfl⟩, _, _, rfl⟩ := h
      exact keepsBases_draftIn hdraft hstale

end BuilderTables

/-- No step loses a draft that a proposal can be about, or moves its base. -/
theorem findDraft_of_exec {ports : GovernancePorts} {s t : GovernanceState} {a : GovernanceAction}
    (h : s.exec ports a = .ok t) (hs : Lineage ports s) {ns : Namespace} {draftId : StableId}
    {d : ColleagueDraft} (hd : s.store.findDraft ns draftId = some d) :
    ∃ d', t.store.findDraft ns draftId = some d' ∧ d'.baseRevisions = d.baseRevisions := by
  cases ns with
  | tenant => exact absurd hd (by simp [GovernanceStore.findDraft])
  | principal id => exact absurd hd (by simp [GovernanceStore.findDraft])
  | colleague colleagueId =>
    cases hc : s.store.colleague with
    | none =>
      rw [GovernanceStore.findDraft, GovernanceStore.tables, hc] at hd
      exact absurd hd (by simp [BuilderTables.empty])
    | some c =>
      have hwith {tables : BuilderTables} {store : GovernanceStore} {id : StableId}
          (hstore : store.colleague = some c) (hkeeps : (s.store.tables id).KeepsBases tables) :
          ∃ d', (store.withTables id tables).findDraft (.colleague colleagueId) draftId = some d' ∧
            d'.baseRevisions = d.baseRevisions := by
        rw [GovernanceStore.findDraft, GovernanceStore.tables_eq hc] at hd
        rw [GovernanceStore.findDraft, GovernanceStore.tables_eq
          (GovernanceStore.withTables_eq hstore id tables)]
        by_cases hid : c.colleagueId = colleagueId
        · rw [if_pos hid] at hd ⊢
          by_cases hid' : c.colleagueId = id
          · rw [GovernanceStore.tables_eq hc, if_pos hid'] at hkeeps
            rw [if_pos hid']
            exact hkeeps draftId d hd
          · rw [if_neg hid']
            exact ⟨d, hd, rfl⟩
        · rw [if_neg hid] at hd
          exact absurd hd (by simp [BuilderTables.empty])
      cases a with
      | tenant action =>
        simp only [GovernanceState.exec, bind_eq_ok, pure_eq_ok] at h
        obtain ⟨tenant, _, rfl⟩ := h
        exact ⟨d, hd, rfl⟩
      | createInitialColleague id profile mandate runtimePrincipals actor =>
        simp only [GovernanceState.exec, GovernanceStore.createInitialColleague, bind_eq_ok,
          require_eq_ok, pure_eq_ok, exists_const] at h
        obtain ⟨_, ⟨_, hnone, _⟩, _⟩ := h
        rw [hc] at hnone
        exact absurd hnone (by simp)
      | read id read =>
        simp only [GovernanceState.exec, bind_eq_ok, pure_eq_ok] at h
        obtain ⟨_, _, rfl⟩ := h
        exact ⟨d, hd, rfl⟩
      | builder id action =>
        simp only [GovernanceState.exec, bind_eq_ok, pure_eq_ok] at h
        obtain ⟨tables, htables, rfl⟩ := h
        exact hwith hc (BuilderTables.keepsBases_of_exec htables)
      | confirmDraft id cmd =>
        simp only [GovernanceState.exec, bind_eq_ok, pure_eq_ok, Prod.exists] at h
        obtain ⟨r, tenant, tables, hconfirm, rfl⟩ := h
        have hid : c.colleagueId = id := by
          by_contra hne
          rw [GovernanceStore.tables_eq hc, if_neg hne] at hconfirm
          exact confirmDraft_empty hconfirm
        obtain ⟨base, hbase⟩ := hs.configured c hc
        have hactive : (s.store.tables id).Active base := by
          rw [GovernanceStore.tables_eq hc, if_pos hid]
          exact hbase.active
        exact hwith hc (BuilderTables.keepsBases_of_confirmDraft hconfirm hactive)

-- ════════════════════════════════════════════════════════════════════════
-- Founded proposals
-- ════════════════════════════════════════════════════════════════════════

/-- A proposal that fits what it is about: the draft is there over the bound
    revisions; or the digest is the one of the proposed change. -/
def GovernanceState.Founded (ports : GovernancePorts) (s : GovernanceState) (p : ChangeProposal) :
    Prop :=
  if p.changeKind = .draft then
    ∃ d, s.store.findDraft p.ns p.targetId = some d ∧ d.baseRevisions = p.baseRevisions
  else ports.changeDigest p.change = p.canonicalDigest

section Runs

variable {ports : GovernancePorts} {s t : GovernanceState} {p q : ChangeProposal}

theorem founded_of_checkChangeTarget {tenant : TenantTables}
    (h : checkChangeTarget ports.changeDigest s.store.findDraft tenant p = .ok ()) :
    s.Founded ports p := by
  unfold checkChangeTarget at h
  unfold GovernanceState.Founded
  split at h
  · rename_i hkind
    simp only [bind_eq_ok, orFail_eq_ok, require_eq_ok] at h
    obtain ⟨d, hd, _, _, _, hbase⟩ := h
    rw [if_pos hkind]
    exact ⟨d, hd, hbase⟩
  · rename_i hkind
    simp only [bind_eq_ok, require_eq_ok, exists_const] at h
    rw [if_neg (by simp [hkind])]
    exact h.1
  · rename_i hkind
    simp only [bind_eq_ok, require_eq_ok, exists_const] at h
    rw [if_neg (by simp [hkind])]
    exact h.1

/-- What a proposal is founded on does not depend on its phase. -/
theorem GovernanceState.Founded.phase (h : s.Founded ports p) (hq : p.Phase q) :
    s.Founded ports q := by
  unfold ChangeProposal.Phase at hq
  have hkind : q.changeKind = p.changeKind := by rw [hq]
  have hns : q.ns = p.ns := by rw [hq]
  have htarget : q.targetId = p.targetId := by rw [hq]
  have hbase : q.baseRevisions = p.baseRevisions := by rw [hq]
  have hdigest : q.canonicalDigest = p.canonicalDigest := by rw [hq]
  have hchange : q.change = p.change := by
    rw [hq]
    rfl
  rw [Founded, hkind, hns, htarget, hbase, hdigest, hchange]
  exact h

theorem GovernanceState.Founded.exec (h : s.Founded ports p) (hs : Lineage ports s)
    {a : GovernanceAction} (hstep : s.exec ports a = .ok t) : t.Founded ports p := by
  unfold Founded at h ⊢
  by_cases hkind : p.changeKind = .draft
  · rw [if_pos hkind] at h ⊢
    obtain ⟨d, hd, hbase⟩ := h
    obtain ⟨d', hd', hbase'⟩ := findDraft_of_exec hstep hs hd
    exact ⟨d', hd', hbase'.trans hbase⟩
  · rw [if_neg hkind] at h ⊢
    exact h

/-- Every stored proposal is another phase of a founded one. -/
theorem proposals_of_exec {a : GovernanceAction} (h : s.exec ports a = .ok t)
    (hq : q ∈ t.store.tenant.changeProposals) :
    (∃ p ∈ s.store.tenant.changeProposals, p.Phase q) ∨ s.Founded ports q := by
  cases a with
  | tenant action =>
    simp only [GovernanceState.exec, bind_eq_ok, pure_eq_ok] at h
    obtain ⟨tenant, htenant, rfl⟩ := h
    exact (proposals_of_tenantExec htenant hq).imp_right founded_of_checkChangeTarget
  | createInitialColleague colleagueId profile mandate runtimePrincipals actor =>
    simp only [GovernanceState.exec, GovernanceStore.createInitialColleague, bind_eq_ok,
      pure_eq_ok] at h
    obtain ⟨_, ⟨_, _, _, _, _, _, _, _, tenant, htenant, _, _, rfl⟩, rfl⟩ := h
    obtain ⟨principals, audits, rfl, _, _⟩ := AuthorityTables.insertRuntimePrincipals_eq_ok htenant
    exact .inl ⟨q, hq, .refl q⟩
  | read colleagueId read =>
    simp only [GovernanceState.exec, bind_eq_ok, pure_eq_ok] at h
    obtain ⟨_, _, rfl⟩ := h
    exact .inl ⟨q, hq, .refl q⟩
  | builder colleagueId action =>
    simp only [GovernanceState.exec, bind_eq_ok, pure_eq_ok] at h
    obtain ⟨_, _, rfl⟩ := h
    exact .inl ⟨q, hq, .refl q⟩
  | confirmDraft colleagueId cmd =>
    simp only [GovernanceState.exec, bind_eq_ok, pure_eq_ok, Prod.exists] at h
    obtain ⟨_, tenant, tables, hconfirm, rfl⟩ := h
    exact .inl ((consumes_of_confirmDraft hconfirm).rephased q hq)

theorem founded_of_reachable (h : (governance ports).Reachable s)
    (hp : p ∈ s.store.tenant.changeProposals) : s.Founded ports p := by
  have hinvariant : Lineage ports s ∧ ∀ p ∈ s.store.tenant.changeProposals, s.Founded ports p := by
    refine h.invariant (I := fun s => Lineage ports s ∧
      ∀ p ∈ s.store.tenant.changeProposals, s.Founded ports p) ?_ ?_
    · rintro _ rfl
      exact ⟨lineage_initial ports, fun p hp => absurd hp (Table.not_mem_empty p)⟩
    · rintro s a t ⟨hs, hfounded⟩ hstep
      refine ⟨lineage_preserved ports _ _ _ hs hstep, fun q hq => ?_⟩
      obtain ⟨p, hp, hphase⟩ | hnew := proposals_of_exec hstep hq
      · exact ((hfounded p hp).phase hphase).exec hs hstep
      · exact hnew.exec hs hstep
  exact hinvariant.2 p hp

/-- What a proposal was founded on lasts. -/
theorem GovernanceState.Founded.of_path (hp : s.Founded ports p)
    (hs : (governance ports).Reachable s) {tr : List (Transition _ GovernanceAction)}
    (hpath : (governance ports).Path s tr t) : t.Founded ports p := by
  have hinvariant : Lineage ports t ∧ t.Founded ports p := by
    refine hpath.invariant (I := fun s => Lineage ports s ∧ s.Founded ports p) ?_
      ⟨lineage_of_reachable hs, hp⟩
    rintro s a t ⟨hs, hfounded⟩ hstep
    exact ⟨lineage_preserved ports _ _ _ hs hstep, hfounded.exec hs hstep⟩
  exact hinvariant.2

end Runs

end DigitalColleagues
