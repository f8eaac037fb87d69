import DigitalColleagues.Governance.TwoPersons

/-!
# Permits for the second Admin

The sole Admin authorizes a permit for a second one. A permit that ran out is
closed only when someone tries to retrieve or to redeem it; until then the store
counts it as pending and refuses its replacement. At most one permit is pending
at any time.

## Main definitions

- `GovernanceCredential.pendingPermit` — what the store counts as pending
- `AuthorityTables.OpenStaffed` — one Admin of the whole tenant, until the
  transition is used
- `Replacement` — a fresh permit for which every earlier one is spent

## Main results

- `replacement_granted_iff` — a replacement succeeds exactly when no earlier
  permit is still stored as pending
- `not_replacement_granted` — a permit that nobody touched blocks it for good
-/

namespace DigitalColleagues

open Keyed TenantTables

/-- A permit of the bootstrap transition in a state that counts as pending. -/
def GovernanceCredential.pendingPermit (c : GovernanceCredential) : Bool :=
  c.kind.isBootstrap && decide (c.state = .authorized ∨ c.state = .retrieved)

theorem GovernanceCredential.pendingPermit_eq_true {c : GovernanceCredential} :
    c.pendingPermit = true ↔
      c.kind.isBootstrap = true ∧ (c.state = .authorized ∨ c.state = .retrieved) := by
  simp only [pendingPermit, Bool.and_eq_true, decide_eq_true_eq]

-- ════════════════════════════════════════════════════════════════════════
-- One pending permit
-- ════════════════════════════════════════════════════════════════════════

/-- What a transaction can do to the credentials: nothing, one more that is
    pending only when no other is, or a change that makes none pending. -/
inductive CredentialStep (s : Table GovernanceCredential) : Table GovernanceCredential → Prop
  | same : CredentialStep s s
  | issue {c : GovernanceCredential} {t : Table GovernanceCredential} : s.insert? c = some t →
      (c.pendingPermit = true → ∀ x ∈ s, x.pendingPermit = false) → CredentialStep s t
  | move {c c' : GovernanceCredential} : c ∈ s → c'.credentialId = c.credentialId →
      (c'.pendingPermit = true → c.pendingPermit = true) → CredentialStep s (s.replace c')

/-- No two permits are pending. -/
def OnePending (credentials : Table GovernanceCredential) : Prop :=
  ∀ c ∈ credentials, ∀ c' ∈ credentials, c.pendingPermit = true → c'.pendingPermit = true → c = c'

theorem CredentialStep.onePending {s t : Table GovernanceCredential} (h : CredentialStep s t)
    (hs : OnePending s) : OnePending t := by
  intro x hx y hy hpx hpy
  cases h with
  | same => exact hs x hx y hy hpx hpy
  | @issue c _ hinsert halone =>
    obtain hx | rfl := (Table.mem_insert hinsert).mp hx
    · obtain hy | rfl := (Table.mem_insert hinsert).mp hy
      · exact hs x hx y hy hpx hpy
      · exact absurd hpx (by simp [halone hpy x hx])
    · obtain hy | rfl := (Table.mem_insert hinsert).mp hy
      · exact absurd hpy (by simp [halone hpx y hy])
      · rfl
  | @move c c' hc hid hpending =>
    have hfind : s.find? (key c') = some c := by
      show s.find? c'.credentialId = some c
      rw [hid]
      exact Table.find?_of_mem hc
    have hkey {z : GovernanceCredential} (hz : z ∈ s) (hpz : z.pendingPermit = true)
        (hp : c'.pendingPermit = true) : key z = key c' := by
      have hzc := hs z hz c hc hpz (hpending hp)
      exact (congrArg GovernanceCredential.credentialId hzc).trans hid.symm
    obtain rfl | ⟨hxs, hxkey⟩ := (Table.mem_replace hfind).mp hx
    · obtain rfl | ⟨hys, hykey⟩ := (Table.mem_replace hfind).mp hy
      · rfl
      · exact absurd (hkey hys hpy hpx) hykey
    · obtain rfl | ⟨hys, -⟩ := (Table.mem_replace hfind).mp hy
      · exact absurd (hkey hxs hpx hpy) hxkey
      · exact hs x hxs y hys hpx hpy

section Credentials

variable {s s' : TenantTables}

theorem credentialStep_of_insertCredential {credential : GovernanceCredential}
    (h : s.insertCredential credential = .ok s')
    (hpending : credential.pendingPermit = true → ∀ c ∈ s.credentials, c.pendingPermit = false) :
    CredentialStep s.credentials s'.credentials := by
  simp only [insertCredential, bind_eq_ok, require_eq_ok, orFail_eq_ok, pure_eq_ok,
    exists_const] at h
  obtain ⟨-, credentials, hinsert, rfl⟩ := h
  exact .issue hinsert hpending

theorem credentials_of_consumeChangeRows {proposal : ChangeProposal} {decision : ChangeDecision}
    {occurredAt : Instant} (h : s.consumeChangeRows proposal decision occurredAt = .ok s') :
    s'.credentials = s.credentials := by
  simp only [consumeChangeRows, bind_eq_ok, require_eq_ok, orFail_eq_ok, pure_eq_ok,
    exists_const] at h
  obtain ⟨_, _, _, _, _, _, rfl⟩ := h
  rfl

theorem credentials_of_consumeAdminEnrollmentAuthority {digest : GovernanceChange → Digest}
    {decisionId : StableId} {role : HumanRole} {scopes : ColleagueScopes} {actor : Principal}
    {occurredAt : Instant}
    (h : s.consumeAdminEnrollmentAuthority digest decisionId role scopes actor occurredAt =
      .ok s') : s'.credentials = s.credentials := by
  obtain ⟨_, _, _, _, _, _, rfl⟩ := AuthorityTables.consumeAdminEnrollmentAuthority_eq_ok h
  rfl

/-- The authority behind a permit of the transition is that no other is pending. -/
theorem credentials_of_authorizeIssuance {digest : GovernanceChange → Digest}
    {credential : GovernanceCredential} {role : HumanRole} {bootstrap : Bool}
    {decisionId : Option StableId} {issuer : Principal}
    (h : s.authorizeIssuance digest credential role bootstrap decisionId issuer = .ok s') :
    s'.credentials = s.credentials ∧
      (bootstrap = true → ∀ c ∈ s.credentials, c.pendingPermit = false) := by
  unfold authorizeIssuance at h
  split at h
  · simp only [openBootstrapTransition, bind_eq_ok, require_eq_ok, orFail_eq_ok, pure_eq_ok,
      exists_const] at h
    obtain ⟨_, _, ⟨_, _, hnone, _, _⟩, rfl⟩ := h
    refine ⟨rfl, fun _ c hc => ?_⟩
    rw [Bool.eq_false_iff, ne_eq, GovernanceCredential.pendingPermit_eq_true]
    rintro ⟨hbootstrap, hstate⟩
    exact hnone c hc hbootstrap hstate
  · rename_i hbootstrap
    split at h
    · simp only [bind_eq_ok, orFail_eq_ok] at h
      obtain ⟨_, _, hconsume⟩ := h
      exact ⟨credentials_of_consumeAdminEnrollmentAuthority hconsume,
        fun he => absurd he hbootstrap⟩
    · obtain rfl := Except.ok.inj h
      exact ⟨rfl, fun he => absurd he hbootstrap⟩

theorem credentialStep_of_authorizeEnrollment {digest : GovernanceChange → Digest}
    {credential stored : GovernanceCredential} {m : Membership}
    (h : s.authorizeEnrollment digest credential m = .ok (stored, s')) :
    CredentialStep s.credentials s'.credentials := by
  unfold authorizeEnrollment at h
  split at h
  · exact absurd h (by simp)
  · rename_i role bootstrap decisionId hkind
    simp only [bind_eq_ok, require_eq_ok, exists_const] at h
    obtain ⟨_, _, _, _, _, h⟩ := h
    split at h
    · simp only [bind_eq_ok, require_eq_ok, pure_eq_ok, exists_const, Prod.mk.injEq] at h
      obtain ⟨_, _, rfl⟩ := h
      exact .same
    · simp only [bind_eq_ok, pure_eq_ok, Prod.mk.injEq] at h
      obtain ⟨s₁, hissuance, s₂, hinsert, _, rfl⟩ := h
      obtain ⟨hsame, halone⟩ := credentials_of_authorizeIssuance hissuance
      rw [← hsame]
      refine credentialStep_of_insertCredential hinsert fun hpending => ?_
      rw [hsame]
      refine halone ?_
      have hbootstrap := (GovernanceCredential.pendingPermit_eq_true.mp hpending).1
      rw [hkind] at hbootstrap
      exact hbootstrap

theorem credentialStep_of_authorizeRecovery {credential stored : GovernanceCredential}
    {m : Membership} (h : s.authorizeRecovery credential m = .ok (stored, s')) :
    CredentialStep s.credentials s'.credentials := by
  unfold authorizeRecovery at h
  split at h
  · exact absurd h (by simp)
  · rename_i hkind
    simp only [bind_eq_ok, require_eq_ok, exists_const] at h
    obtain ⟨_, _, _, _, _, _, _, _, _, h⟩ := h
    split at h
    · rename_i s₁ hinsert
      simp only [pure_eq_ok, Prod.mk.injEq] at h
      obtain ⟨_, rfl⟩ := h
      refine credentialStep_of_insertCredential hinsert fun hpending => ?_
      have hbootstrap := (GovernanceCredential.pendingPermit_eq_true.mp hpending).1
      rw [hkind] at hbootstrap
      exact absurd hbootstrap Bool.false_ne_true
    · simp only [bind_eq_ok, require_eq_ok, orFail_eq_ok, pure_eq_ok, exists_const,
        Prod.mk.injEq] at h
      obtain ⟨_, _, _, _, rfl⟩ := h
      exact .same

theorem credentialStep_of_claimCredentialSecret {credentialId : StableId} {tokenDigest : Digest}
    {occurredAt : Instant} {c : GovernanceCredential}
    (h : s.claimCredentialSecret credentialId tokenDigest occurredAt = .ok (c, s')) :
    CredentialStep s.credentials s'.credentials := by
  simp only [claimCredentialSecret, bind_eq_ok, require_eq_ok, orFail_eq_ok, exists_const] at h
  obtain ⟨credential, hfind, _, _, hstate, h⟩ := h
  have hpending (hbootstrap : credential.kind.isBootstrap = true) :
      credential.pendingPermit = true :=
    GovernanceCredential.pendingPermit_eq_true.mpr ⟨hbootstrap, .inl hstate⟩
  split at h
  · simp only [pure_eq_ok, Prod.mk.injEq] at h
    obtain ⟨_, rfl⟩ := h
    exact .move (Table.mem_of_find? hfind) rfl fun hp =>
      hpending (GovernanceCredential.pendingPermit_eq_true.mp hp).1
  · simp only [bind_eq_ok, require_eq_ok, pure_eq_ok, exists_const, Prod.mk.injEq] at h
    obtain ⟨_, _, _, rfl⟩ := h
    exact .move (Table.mem_of_find? hfind) rfl fun hp =>
      hpending (GovernanceCredential.pendingPermit_eq_true.mp hp).1

/-- A closed credential is not pending. -/
theorem not_pendingPermit_of_closed {c : GovernanceCredential} (h : c.state ≠ .authorized)
    (h' : c.state ≠ .retrieved) : c.pendingPermit ≠ true := by
  intro hpending
  obtain hstate | hstate := (GovernanceCredential.pendingPermit_eq_true.mp hpending).2
  · exact h hstate
  · exact h' hstate

theorem credentialStep_of_expireCredential {credential c : GovernanceCredential}
    {occurredAt : Instant} (h : s.expireCredential credential occurredAt = .ok (c, s')) :
    CredentialStep s.credentials s'.credentials := by
  simp only [expireCredential, bind_eq_ok, require_eq_ok, pure_eq_ok, exists_const,
    Prod.mk.injEq] at h
  obtain ⟨hfind, _, _, _, _, rfl⟩ := h
  exact .move (Table.mem_of_find? hfind) rfl fun hp =>
    absurd hp (not_pendingPermit_of_closed (by simp) (by simp))

theorem credentialStep_of_revokeCredential {session : AuthenticatedSession}
    {credentialId idempotencyKey : StableId} {requestDigest : Digest} {occurredAt : Instant}
    {c : GovernanceCredential}
    (h : s.revokeCredential session credentialId idempotencyKey requestDigest occurredAt =
      .ok (c, s')) : CredentialStep s.credentials s'.credentials := by
  simp only [revokeCredential, bind_eq_ok] at h
  obtain ⟨_, _, h⟩ := h
  split at h
  · simp only [bind_eq_ok, require_eq_ok, pure_eq_ok, exists_const, Prod.mk.injEq] at h
    obtain ⟨_, _, rfl⟩ := h
    exact .same
  · simp only [bind_eq_ok, require_eq_ok, orFail_eq_ok, pure_eq_ok, exists_const,
      Prod.mk.injEq] at h
    obtain ⟨_, _, _, _, _, credential, hfind, _, replays, _, _, rfl⟩ := h
    exact .move (Table.mem_of_find? hfind) rfl fun hp =>
      absurd hp (not_pendingPermit_of_closed (by simp) (by simp))

theorem credentialStep_of_consumed {credentials : Table GovernanceCredential}
    {c : GovernanceCredential} (hc : c ∈ credentials) (principalId : StableId)
    (occurredAt : Instant) :
    CredentialStep credentials (credentials.replace (consumedBy c principalId occurredAt)) :=
  .move hc rfl fun hp =>
    absurd hp (not_pendingPermit_of_closed (by simp [consumedBy]) (by simp [consumedBy]))

theorem credentialStep_of_consumeEnrollment {tokenDigest : Digest} {principal : Principal}
    {m : Membership} {session : AuthenticatedSession} {occurredAt : Instant}
    {consumed : GovernanceCredential}
    (h : s.consumeEnrollment tokenDigest principal m session occurredAt = .ok (consumed, s')) :
    CredentialStep s.credentials s'.credentials := by
  simp only [consumeEnrollment, bind_eq_ok, require_eq_ok, orFail_eq_ok, exists_const] at h
  obtain ⟨_, _, c, hc, h⟩ := h
  split at h
  · exact absurd h (by simp)
  · simp only [bind_eq_ok, require_eq_ok, orFail_eq_ok, toOption_eq_some, pure_eq_ok, exists_const,
      Prod.mk.injEq] at h
    obtain ⟨_, _, _, _, _, _, s₁, hprincipal, memberships, _, s₂, hsession, _, rfl⟩ := h
    obtain ⟨principals, audits, _, rfl⟩ := insertPrincipal_eq_ok hprincipal
    obtain ⟨sessions, rfl⟩ := insertGovernedSession_eq_ok hsession
    exact credentialStep_of_consumed
      (Table.mem_of_find? (AuthorityTables.find?_of_credentialOfToken hc).1) _ _

theorem credentialStep_of_consumeRecovery {tokenDigest : Digest} {session : AuthenticatedSession}
    {occurredAt : Instant} {consumed : GovernanceCredential}
    (h : s.consumeRecovery tokenDigest session occurredAt = .ok (consumed, s')) :
    CredentialStep s.credentials s'.credentials := by
  simp only [consumeRecovery, bind_eq_ok, orFail_eq_ok] at h
  obtain ⟨c, hc, h⟩ := h
  split at h
  · exact absurd h (by simp)
  · simp only [bind_eq_ok, require_eq_ok, pure_eq_ok, exists_const, Prod.mk.injEq] at h
    obtain ⟨_, _, _, principal, _, _, s₁, hsession, _, rfl⟩ := h
    obtain ⟨sessions, rfl⟩ := insertGovernedSession_eq_ok hsession
    exact credentialStep_of_consumed
      (Table.mem_of_find? (AuthorityTables.find?_of_credentialOfToken hc).1) _ _

end Credentials

-- ════════════════════════════════════════════════════════════════════════
-- Transactions that leave the credentials alone
-- ════════════════════════════════════════════════════════════════════════

section Untouched

variable {s s' : TenantTables}

theorem credentials_of_consumeBootstrap {tokenDigest : Digest} {principal : Principal}
    {session governed : AuthenticatedSession} {occurredAt : Instant}
    (h : s.consumeBootstrap tokenDigest principal session occurredAt = .ok (governed, s')) :
    s'.credentials = s.credentials := by
  simp only [consumeBootstrap, bind_eq_ok, require_eq_ok, orFail_eq_ok, pure_eq_ok, exists_const,
    Prod.mk.injEq] at h
  obtain ⟨_, _, _, _, _, _, _, s₁, hprincipal, _, _, _, _, _, _, _, s₂, hsession, _, rfl⟩ := h
  obtain ⟨principals, audits, _, rfl⟩ := insertPrincipal_eq_ok hprincipal
  obtain ⟨sessions, rfl⟩ := insertGovernedSession_eq_ok hsession
  rfl

theorem credentials_of_createChangeProposal {digest : GovernanceChange → Digest}
    {findDraft : Namespace → StableId → Option ColleagueDraft} {proposal stored : ChangeProposal}
    (h : s.createChangeProposal digest findDraft proposal = .ok (stored, s')) :
    s'.credentials = s.credentials := by
  simp only [createChangeProposal, bind_eq_ok, require_eq_ok, exists_const] at h
  obtain ⟨_, _, _, _, _, h⟩ := h
  split at h
  · simp only [bind_eq_ok, require_eq_ok, pure_eq_ok, exists_const, Prod.mk.injEq] at h
    obtain ⟨_, _, rfl⟩ := h
    rfl
  · simp only [bind_eq_ok, orFail_eq_ok, pure_eq_ok, Prod.mk.injEq] at h
    obtain ⟨_, _, _, _, _, rfl⟩ := h
    rfl

theorem credentials_of_decideChange {proposal : ChangeProposal} {decision : ChangeDecision}
    {r : Outcome (ChangeProposal × ChangeDecision)}
    (h : s.decideChange proposal decision = .ok (r, s')) : s'.credentials = s.credentials := by
  simp only [decideChange, bind_eq_ok, require_eq_ok, orFail_eq_ok, exists_const] at h
  obtain ⟨current, _, _, _, _, _, _, h⟩ := h
  split at h
  · simp only [bind_eq_ok, require_eq_ok, pure_eq_ok, exists_const, Prod.mk.injEq] at h
    obtain ⟨_, _, rfl⟩ := h
    rfl
  · simp only [bind_eq_ok, require_eq_ok, exists_const] at h
    obtain ⟨_, _, _, h⟩ := h
    split at h
    · simp only [pure_eq_ok, Prod.mk.injEq] at h
      obtain ⟨_, rfl⟩ := h
      rfl
    · simp only [bind_eq_ok, require_eq_ok, orFail_eq_ok, pure_eq_ok, exists_const,
        Prod.mk.injEq] at h
      obtain ⟨_, _, _, _, rfl⟩ := h
      rfl

theorem credentials_of_expireChangeProposal {proposal expired : ChangeProposal}
    {actor : Principal} {occurredAt : Instant}
    (h : s.expireChangeProposal proposal actor occurredAt = .ok (expired, s')) :
    s'.credentials = s.credentials := by
  simp only [expireChangeProposal, bind_eq_ok, require_eq_ok, orFail_eq_ok, pure_eq_ok,
    exists_const, Prod.mk.injEq] at h
  obtain ⟨_, _, _, _, _, _, _, rfl⟩ := h
  rfl

theorem credentials_of_markChangeProposalStale {proposal stale : ChangeProposal}
    {actor : Principal} (h : s.markChangeProposalStale proposal actor = .ok (stale, s')) :
    s'.credentials = s.credentials := by
  simp only [markChangeProposalStale, bind_eq_ok, require_eq_ok, pure_eq_ok, exists_const,
    Prod.mk.injEq] at h
  obtain ⟨_, _, _, _, _, rfl⟩ := h
  rfl

/-- A membership change repeats an earlier one, or uses an approval of two Admins. -/
theorem approvedBy_of_applyMembershipChange {digest : GovernanceChange → Digest}
    {p : ChangeProposal} {decisionId : StableId} {session : AuthenticatedSession}
    {idempotencyKey : StableId} {requestDigest : Digest} {occurredAt : Instant} {m : Membership}
    (h : s.applyMembershipChange digest p decisionId session idempotencyKey requestDigest
      occurredAt = .ok (m, s')) :
    s'.credentials = s.credentials ∧ (s' = s ∨ ∃ d, s.ApprovedBy p d) := by
  simp only [applyMembershipChange, bind_eq_ok, require_eq_ok, exists_const] at h
  obtain ⟨_, _, _, h⟩ := h
  split at h
  · simp only [bind_eq_ok, require_eq_ok, pure_eq_ok, exists_const, Prod.mk.injEq] at h
    obtain ⟨_, _, rfl⟩ := h
    exact ⟨rfl, .inl rfl⟩
  · simp only [bind_eq_ok, require_eq_ok, orFail_eq_ok, pure_eq_ok, exists_const, Prod.exists,
      Prod.mk.injEq] at h
    obtain ⟨_, d, hd, target, htarget, _, role, _, status, _, updated, s₁, hwrite, s₂, hconsume, _,
      replays, _, _, rfl⟩ := h
    obtain ⟨row, hrow, hfields⟩ := membershipForPrincipal_eq_ok htarget
    have htargetId : target.principalId = p.targetId :=
      (congrArg MembershipFields.principalId hfields).trans (Table.key_of_find? hrow)
    obtain ⟨principal, row', audits, _, rfl⟩ :=
      AuthorityTables.writeMembershipChange_eq_ok hwrite (htargetId.symm ▸ hrow) hfields
        (issuer_of_membershipForPrincipal htarget)
    have hsame := credentials_of_consumeChangeRows hconsume
    exact ⟨hsame, .inr ⟨d, (validatedChangeApproval_eq_ok hd).2⟩⟩

end Untouched

theorem credentialStep_of_tenantExec {ports : GovernancePorts}
    {findDraft : Namespace → StableId → Option ColleagueDraft} {s s' : TenantTables}
    {a : TenantAction} (h : s.exec ports findDraft a = .ok s') :
    CredentialStep s.credentials s'.credentials := by
  have of_eq (heq : s'.credentials = s.credentials) :
      CredentialStep s.credentials s'.credentials := by
    rw [heq]
    exact .same
  cases a with
  | createBootstrap record =>
    simp only [exec, bind_eq_ok, pure_eq_ok, Prod.exists, createBootstrap] at h
    obtain ⟨_, s₁, h, rfl⟩ := h
    split at h
    · obtain ⟨_, rfl⟩ := Prod.mk.inj (Except.ok.inj h)
      exact .same
    · simp only [bind_eq_ok, pure_eq_ok, Prod.mk.injEq] at h
      obtain ⟨_, _, _, _, _, rfl⟩ := h
      exact .same
  | claimBootstrapRetrieval tokenDigest occurredAt =>
    simp only [exec, claimBootstrapRetrieval, bind_eq_ok, pure_eq_ok] at h
    obtain ⟨_, _, _, _, _, _, rfl⟩ := h
    exact .same
  | consumeBootstrap tokenDigest principalId session occurredAt =>
    simp only [exec, bind_eq_ok, pure_eq_ok, Prod.exists] at h
    obtain ⟨_, _, h, rfl⟩ := h
    exact of_eq (credentials_of_consumeBootstrap h)
  | authorizeEnrollment credential issuerMembership =>
    simp only [exec, bind_eq_ok, pure_eq_ok, Prod.exists] at h
    obtain ⟨_, _, h, rfl⟩ := h
    exact credentialStep_of_authorizeEnrollment h
  | authorizeRecovery credential issuerMembership =>
    simp only [exec, bind_eq_ok, pure_eq_ok, Prod.exists] at h
    obtain ⟨_, _, h, rfl⟩ := h
    exact credentialStep_of_authorizeRecovery h
  | claimCredentialSecret credentialId tokenDigest occurredAt =>
    simp only [exec, bind_eq_ok, pure_eq_ok, Prod.exists] at h
    obtain ⟨_, _, h, rfl⟩ := h
    exact credentialStep_of_claimCredentialSecret h
  | expireCredential credential occurredAt =>
    simp only [exec, bind_eq_ok, pure_eq_ok, Prod.exists] at h
    obtain ⟨_, _, h, rfl⟩ := h
    exact credentialStep_of_expireCredential h
  | revokeCredential session credentialId idempotencyKey requestDigest occurredAt =>
    simp only [exec, bind_eq_ok, pure_eq_ok, Prod.exists] at h
    obtain ⟨_, _, h, rfl⟩ := h
    exact credentialStep_of_revokeCredential h
  | consumeEnrollment tokenDigest principalId role membership session occurredAt =>
    simp only [exec, bind_eq_ok, pure_eq_ok, Prod.exists] at h
    obtain ⟨_, _, h, rfl⟩ := h
    exact credentialStep_of_consumeEnrollment h
  | consumeRecovery tokenDigest session occurredAt =>
    simp only [exec, bind_eq_ok, pure_eq_ok, Prod.exists] at h
    obtain ⟨_, _, h, rfl⟩ := h
    exact credentialStep_of_consumeRecovery h
  | createChangeProposal proposal =>
    simp only [exec, bind_eq_ok, pure_eq_ok, Prod.exists] at h
    obtain ⟨_, _, h, rfl⟩ := h
    exact of_eq (credentials_of_createChangeProposal h)
  | decideChange proposal decision =>
    simp only [exec, bind_eq_ok, pure_eq_ok, Prod.exists] at h
    obtain ⟨_, _, h, rfl⟩ := h
    exact of_eq (credentials_of_decideChange h)
  | expireChangeProposal proposal actor occurredAt =>
    simp only [exec, bind_eq_ok, pure_eq_ok, Prod.exists] at h
    obtain ⟨_, _, h, rfl⟩ := h
    exact of_eq (credentials_of_expireChangeProposal h)
  | markChangeProposalStale proposal actor =>
    simp only [exec, bind_eq_ok, pure_eq_ok, Prod.exists] at h
    obtain ⟨_, _, h, rfl⟩ := h
    exact of_eq (credentials_of_markChangeProposalStale h)
  | applyMembershipChange proposal decisionId session idempotencyKey requestDigest occurredAt =>
    simp only [exec, bind_eq_ok, pure_eq_ok, Prod.exists] at h
    obtain ⟨_, _, h, rfl⟩ := h
    exact of_eq (approvedBy_of_applyMembershipChange h).1
  | consumeAdminEnrollmentChange decisionId role colleagueIds actor occurredAt =>
    exact of_eq (credentials_of_consumeAdminEnrollmentAuthority h)

/-- Every step of a run is a step of the credentials. -/
theorem credentialStep_of_exec {ports : GovernancePorts} {s s' : GovernanceState}
    {a : GovernanceAction} (h : s.exec ports a = .ok s') :
    CredentialStep s.authority.credentials s'.authority.credentials := by
  cases a with
  | tenant action =>
    simp only [GovernanceState.exec, bind_eq_ok, pure_eq_ok] at h
    obtain ⟨tenant, htenant, rfl⟩ := h
    exact credentialStep_of_tenantExec htenant
  | createInitialColleague colleagueId profile mandate runtimePrincipals actor =>
    simp only [GovernanceState.exec, GovernanceStore.createInitialColleague, bind_eq_ok,
      pure_eq_ok] at h
    obtain ⟨_, ⟨_, _, _, _, _, _, _, _, tenant, htenant, _, _, rfl⟩, rfl⟩ := h
    obtain ⟨principals, audits, rfl, _, _⟩ :=
      AuthorityTables.insertRuntimePrincipals_eq_ok htenant
    exact .same
  | read colleagueId read =>
    simp only [GovernanceState.exec, bind_eq_ok, pure_eq_ok] at h
    obtain ⟨_, _, rfl⟩ := h
    exact .same
  | builder colleagueId action =>
    simp only [GovernanceState.exec, bind_eq_ok, pure_eq_ok] at h
    obtain ⟨_, _, rfl⟩ := h
    exact .same
  | confirmDraft colleagueId cmd =>
    simp only [GovernanceState.exec, bind_eq_ok, pure_eq_ok, Prod.exists] at h
    obtain ⟨_, tenant, tables, hconfirm, rfl⟩ := h
    obtain rfl | ⟨draft, hdraft⟩ := AuthorityTables.tenant_of_confirmDraft hconfirm
    · exact .same
    · obtain ⟨_, rfl⟩ | ⟨_, p, d, _, _, _, _, _, _, _, _, rfl⟩ :=
        AuthorityTables.authorizeDraftConfirmation_eq_ok hdraft
      · exact .same
      · exact .same

-- ════════════════════════════════════════════════════════════════════════
-- The sole Admin
-- ════════════════════════════════════════════════════════════════════════

namespace AuthorityTables

/-- Until the transition is used, the one Admin has the scope of the tenant. -/
def OpenStaffed (s : AuthorityTables) : Prop := s.transitionConsumed = false → s.Staffed

end AuthorityTables

section Runs

variable {ports : GovernancePorts}

/-- Before the transition is used no membership change can be applied, so no
    condition on changes is needed. -/
theorem staffed_of_exec {s t : GovernanceState} {a : GovernanceAction}
    (h : s.exec ports a = .ok t) (hs : s.authority.Staffed)
    (hopen : s.authority.transitionConsumed = false) : t.authority.Staffed := by
  by_cases hkeeps : s.authority.KeepsTwoAdmins a
  · exact (AuthorityTables.move_of_exec h).staffed hs hkeeps
  · unfold AuthorityTables.KeepsTwoAdmins at hkeeps
    split at hkeeps
    · simp only [GovernanceState.exec, exec, bind_eq_ok, pure_eq_ok, Prod.exists] at h
      obtain ⟨_, ⟨_, _, happly, rfl⟩, rfl⟩ := h
      obtain ⟨-, rfl | ⟨d, happroved⟩⟩ := approvedBy_of_applyMembershipChange happly
      · exact hs
      · have hconsumed := hs.transitionConsumed happroved
        rw [hopen] at hconsumed
        exact absurd hconsumed Bool.false_ne_true
    · exact absurd trivial hkeeps

theorem openStaffed_preserved :
    (governance ports).Preserved fun s => s.authority.OpenStaffed := by
  intro s a t hs hstep ht
  have hopen : s.authority.transitionConsumed = false := by
    rw [Bool.eq_false_iff]
    intro hconsumed
    have htarget := (AuthorityTables.move_of_exec hstep).transitionConsumed hconsumed
    exact absurd (htarget.symm.trans ht) (by simp)
  exact staffed_of_exec hstep (hs hopen) hopen

theorem onePending_preserved :
    (governance ports).Preserved fun s => OnePending s.authority.credentials :=
  fun _ _ _ hs hstep => (credentialStep_of_exec hstep).onePending hs

variable {db : StableId → GovernanceState}

theorem openStaffed_of_reachable (h : (tenants ports).Reachable db) (tenantId : StableId) :
    (db tenantId).authority.OpenStaffed := by
  refine TransitionSystem.Reachable.invariant (fun s hs => ?_) openStaffed_preserved
    (h.component tenantId)
  rw [hs]
  exact fun _ => staffed_initial

theorem onePending_of_reachable (h : (tenants ports).Reachable db) (tenantId : StableId) :
    OnePending (db tenantId).authority.credentials := by
  refine TransitionSystem.Reachable.invariant (fun s hs => ?_) onePending_preserved
    (h.component tenantId)
  rw [hs]
  exact fun c hc => absurd hc (Table.not_mem_empty c)

end Runs

/-- The only active Admin is the one that governs the tenant. -/
theorem governsTenant_of_sole {s : AuthorityTables} (hs : s.Staffed)
    (hopen : s.transitionConsumed = false) (hone : s.adminCount = 1) {row : MembershipRow}
    (hrow : row ∈ s.memberships) (hadmin : row.status = .active ∧ row.roles = [.tenantAdmin]) :
    row.governsTenant = true := by
  have hcount : s.tenantAdminCount = 1 := (hs.before hopen).2.trans hone
  obtain ⟨r, hr, hgoverns, -⟩ := Table.exists_of_sum_eq_one hcount
  have hr' : r.governsTenant = true := by
    by_contra hnot
    rw [if_neg hnot] at hgoverns
    exact absurd hgoverns (by simp)
  have hactive := of_decide_eq_true hr'
  by_cases hkey : key row = key r
  · rw [Table.eq_of_key_eq hrow hr hkey]
    exact hr'
  · have htwo := Table.two_le_sum_of_ne
      (p := fun x : MembershipRow => x.status = .active ∧ x.roles = [.tenantAdmin]) hrow hr hkey
      hadmin ⟨hactive.1, hactive.2.1⟩
    have hle : 2 ≤ s.adminCount := htwo
    omega

theorem membershipForPrincipal_of_requireCurrent {s : TenantTables} {actor : Principal}
    {action : AuthorizationAction} {ns : Namespace} {m : Membership}
    (h : s.requireCurrentMembership actor action ns = .ok m) :
    s.membershipForPrincipal actor.principalId = .ok m := by
  simp only [requireCurrentMembership, bind_eq_ok, require_eq_ok, exists_const] at h
  obtain ⟨_, _, membership, hmembership, _, h⟩ := h
  split at h
  · obtain rfl := pure_eq_ok.mp h
    exact hmembership
  · exact absurd h (by simp)

-- ════════════════════════════════════════════════════════════════════════
-- Replacement
-- ════════════════════════════════════════════════════════════════════════

/-- A fresh permit of the sole Admin, whose membership is `m`, while the
    transition is available and every earlier permit is consumed, revoked or
    past its expiry. -/
structure Replacement (s : TenantTables) (credential : GovernanceCredential) (m : Membership) :
    Prop where
  available : ∃ transition, s.bootstrapTransition = some transition ∧
    transition.state = .available
  oneAdmin : s.adminCount = 1
  issuer : s.membershipForPrincipal credential.issuedByPrincipalId = .ok m
  admin : m.status = .active ∧ m.roles = [.tenantAdmin]
  fresh : s.credentials.find? credential.credentialId = none
  permit : ∃ decisionId, credential.kind = .enrollment .tenantAdmin true decisionId
  scopes : credential.colleagueIds = .all
  authorized : credential.state = .authorized
  spent : ∀ c ∈ s.credentials, c.kind.isBootstrap = true →
    c.state = .consumed ∨ c.state = .revoked ∨ c.expiresAt ≤ credential.issuedAt

namespace Replacement

variable {s : TenantTables} {credential : GovernanceCredential} {m : Membership}

theorem not_consumed (h : Replacement s credential m) : s.transitionConsumed = false := by
  obtain ⟨transition, htransition, hstate⟩ := h.available
  simp [AuthorityTables.transitionConsumed, htransition, hstate]

/-- The sole Admin is authorized, with the membership of its row. -/
theorem authorized_issuer (h : Replacement s credential m) (hs : s.toAuthorityTables.OpenStaffed) :
    ∃ issuer, s.getPrincipal credential.issuedByPrincipalId = .ok issuer ∧
      s.requireCurrentMembership issuer .manageCredential .tenant = .ok m := by
  have hopen := h.not_consumed
  have hstaffed := hs hopen
  obtain ⟨row, hfind, hfields⟩ := membershipForPrincipal_eq_ok h.issuer
  have hrow : row ∈ s.memberships := Table.mem_of_find? hfind
  have hkey : row.principalId = credential.issuedByPrincipalId := Table.key_of_find? hfind
  have hadmin : row.status = .active ∧ row.roles = [.tenantAdmin] := by
    have hm := h.admin
    rw [hfields] at hm
    exact hm
  have hgoverns := governsTenant_of_sole hstaffed hopen h.oneAdmin hrow hadmin
  obtain ⟨issuer, hid, hissuer⟩ := governsTenant_of_row hrow (hstaffed.seated row hrow) hgoverns
  obtain ⟨m', hcurrent, -⟩ := hissuer .manageCredential
  have hprincipal := (requireCurrentMembership_eq_ok hcurrent).principal
  have hmembership := membershipForPrincipal_of_requireCurrent hcurrent
  have hissuerId : issuer.principalId = credential.issuedByPrincipalId := hid.trans hkey
  rw [hissuerId] at hprincipal hmembership
  obtain rfl := Except.ok.inj (hmembership.symm.trans h.issuer)
  exact ⟨issuer, orFail_eq_ok.mpr hprincipal, hcurrent⟩

/-- The new permit is stored. -/
theorem exists_insertCredential (h : Replacement s credential m) {s' : TenantTables}
    (hsame : s'.credentials = s.credentials) : ∃ t, s'.insertCredential credential = .ok t := by
  simp only [insertCredential, bind_eq_ok, require_eq_ok, orFail_eq_ok, pure_eq_ok, exists_const]
  obtain ⟨credentials, hinsert⟩ : ∃ credentials, s'.credentials.insert?
      { credential with
        tokenDigest := none
        retrievedAt := none
        consumedAt := none
        revokedAt := none
        consumedPrincipalId := none } = some credentials := by
    refine Option.ne_none_iff_exists'.mp fun hnone => ?_
    obtain ⟨_, hstored⟩ := Table.insert?_eq_none.mp hnone
    rw [hsame] at hstored
    exact absurd (hstored.symm.trans h.fresh) (by simp)
  exact ⟨_, .inl h.authorized, credentials, hinsert, rfl⟩

/-- The replacement is granted exactly when no earlier permit counts as pending. -/
theorem granted_iff (h : Replacement s credential m) (hs : s.toAuthorityTables.OpenStaffed)
    (digest : GovernanceChange → Digest) :
    (∃ t, s.authorizeEnrollment digest credential m = .ok (credential, t)) ↔
      ∀ c ∈ s.credentials, c.pendingPermit = false := by
  obtain ⟨decisionId, hkind⟩ := h.permit
  obtain ⟨issuer, hissuer, hcurrent⟩ := h.authorized_issuer hs
  constructor
  · rintro ⟨t, ht⟩
    rw [authorizeEnrollment, hkind] at ht
    simp only [hissuer, hcurrent, h.fresh, bind_eq_ok, require_eq_ok, pure_eq_ok, exists_const,
      Except.ok.injEq, exists_eq_left', Prod.mk.injEq, true_and] at ht
    obtain ⟨s₁, hissuance, -⟩ := ht
    exact (credentials_of_authorizeIssuance hissuance).2 rfl
  · intro hnone
    obtain ⟨transition, htransition, hstate⟩ := h.available
    have hpending : ∀ c ∈ s.credentials.rows, c.kind.isBootstrap = true →
        ¬(c.state = .authorized ∨ c.state = .retrieved) := by
      intro c hc hbootstrap hopen
      have hpermit := GovernanceCredential.pendingPermit_eq_true.mpr ⟨hbootstrap, hopen⟩
      rw [hnone c hc] at hpermit
      exact absurd hpermit Bool.false_ne_true
    obtain ⟨s₁, hissuance⟩ : ∃ s₁, s.authorizeIssuance digest credential .tenantAdmin true
        decisionId issuer = .ok s₁ := by
      simp only [authorizeIssuance, if_true, openBootstrapTransition, bind_eq_ok, require_eq_ok,
        orFail_eq_ok, pure_eq_ok, exists_const]
      exact ⟨_, transition, htransition, ⟨hstate, h.oneAdmin, hpending, trivial, h.scopes⟩, rfl⟩
    obtain ⟨t, ht⟩ := h.exists_insertCredential (credentials_of_authorizeIssuance hissuance).1
    refine ⟨t, ?_⟩
    rw [authorizeEnrollment, hkind]
    simp only [hissuer, hcurrent, h.fresh, hissuance, ht, bind_eq_ok, require_eq_ok, pure_eq_ok,
      exists_const, Except.ok.injEq, exists_eq_left', and_self]

end Replacement

/-- **Replacement of a permit.** In every reachable state at most one permit of
    the bootstrap transition is pending, and the sole Admin can replace its
    spent permits exactly when none of them is still stored as authorized or
    retrieved. -/
theorem replacement_granted_iff {ports : GovernancePorts} {db : StableId → GovernanceState}
    (h : (tenants ports).Reachable db) (tenantId : StableId) :
    OnePending (db tenantId).store.tenant.credentials ∧
      ∀ credential m, Replacement (db tenantId).store.tenant credential m →
        ((∃ t, (db tenantId).store.tenant.authorizeEnrollment ports.changeDigest credential m =
            .ok (credential, t)) ↔
          ∀ c ∈ (db tenantId).store.tenant.credentials, c.kind.isBootstrap = true →
            c.state ≠ .authorized ∧ c.state ≠ .retrieved) := by
  refine ⟨onePending_of_reachable h tenantId, fun credential m hreplaces => ?_⟩
  rw [hreplaces.granted_iff (openStaffed_of_reachable h tenantId)]
  refine forall₂_congr fun c _ => ?_
  rw [Bool.eq_false_iff, ne_eq, GovernanceCredential.pendingPermit_eq_true]
  tauto

-- ════════════════════════════════════════════════════════════════════════
-- Concrete runs
-- ════════════════════════════════════════════════════════════════════════

/-- Whether a permit of the first Admin is a replacement, for concrete runs. -/
def replacesIn (credential : GovernanceCredential) (s : TenantTables) : Bool :=
  match s.membershipForPrincipal credential.issuedByPrincipalId with
  | .error _ => false
  | .ok m =>
    (s.bootstrapTransition.any fun transition => decide (transition.state = .available)) &&
      decide (s.adminCount = 1 ∧ (m.status = .active ∧ m.roles = [.tenantAdmin]) ∧
        s.credentials.find? credential.credentialId = none ∧
        ∀ c ∈ s.credentials.rows, c.kind.isBootstrap = true →
          c.state = .consumed ∨ c.state = .revoked ∨ c.expiresAt ≤ credential.issuedAt)

theorem exists_replacement {s : TenantTables} {credentialId : StableId} {issuedAt : Instant}
    {hexpires : issuedAt < issuedAt + 100}
    (h : replacesIn (sampleCredential credentialId true none issuedAt hexpires) s = true) :
    ∃ m, Replacement s (sampleCredential credentialId true none issuedAt hexpires) m := by
  unfold replacesIn at h
  split at h
  · exact absurd h Bool.false_ne_true
  · rename_i m hm
    rw [Bool.and_eq_true, Option.any_eq_true, decide_eq_true_eq] at h
    obtain ⟨⟨transition, htransition, hstate⟩, hone, hadmin, hfresh, hspent⟩ := h
    exact ⟨m,
      { available := ⟨transition, htransition, of_decide_eq_true hstate⟩
        oneAdmin := hone
        issuer := hm
        admin := hadmin
        fresh := hfresh
        permit := ⟨none, rfl⟩
        scopes := rfl
        authorized := rfl
        spent := hspent }⟩

theorem firstPermit_expires : (30 : Instant) < 30 + 100 := by decide

/-- The first Admin and a permit that runs out at 130. -/
def sampleFirstPermit : List (GovernanceState → GovernanceAction) :=
  sampleBootstrap ++
    [fun s => sampleOk (s.store.tenant.membershipForPrincipal firstAdmin) fun m =>
      .authorizeEnrollment
        (sampleCredential (stableId "credential-2") true none 30 firstPermit_expires) m]

/-- The permit after a retrieval that came too late. -/
def sampleLateRetrieval : List (GovernanceState → GovernanceAction) :=
  sampleFirstPermit ++ [fun _ => .tenant (.claimCredentialSecret (stableId "credential-2") 2 200)]

theorem thirdCredential_expires : (210 : Instant) < 210 + 100 := by decide

def thirdCredential : GovernanceCredential :=
  sampleCredential (stableId "credential-3") true none 210 thirdCredential_expires

/-- No permit of the transition is stored as authorized or retrieved. -/
def nonePending (s : TenantTables) : Bool :=
  s.credentials.rows.all fun c => !c.pendingPermit

/-- A permit that a late retrieval marked as expired is replaced. -/
theorem replacement_granted_expired :
    ∃ db, (tenants samplePorts).Reachable db ∧ ∃ m t,
      (db sampleTenant).store.tenant.authorizeEnrollment samplePorts.changeDigest thirdCredential
        m = .ok (thirdCredential, t) := by
  obtain ⟨tr, s, hpath, hrun⟩ := exists_governance_path samplePorts sampleLateRetrieval
    (fun _ s => replacesIn thirdCredential s.store.tenant && nonePending s.store.tenant)
    (by decide +kernel)
  obtain ⟨hreplacesIn, hnone⟩ := Bool.and_eq_true_iff.mp hrun
  obtain ⟨db, hreachable, rfl⟩ := exists_tenants_reachable hpath
  obtain ⟨m, hreplaces⟩ := exists_replacement hreplacesIn
  have hclosed : ∀ c ∈ (db sampleTenant).store.tenant.credentials, c.kind.isBootstrap = true →
      c.state ≠ .authorized ∧ c.state ≠ .retrieved := by
    intro c hc hbootstrap
    have hpending := List.all_eq_true.mp hnone c hc
    rw [Bool.not_eq_true', Bool.eq_false_iff, ne_eq,
      GovernanceCredential.pendingPermit_eq_true] at hpending
    tauto
  obtain ⟨t, ht⟩ :=
    ((replacement_granted_iff hreachable sampleTenant).2 _ m hreplaces).mpr hclosed
  exact ⟨db, hreachable, m, t, ht⟩

/-- A permit that nobody touched after it ran out blocks its replacement. -/
theorem not_replacement_granted :
    ¬∀ (db : StableId → GovernanceState), (tenants samplePorts).Reachable db →
      ∀ tenantId credential m, Replacement (db tenantId).store.tenant credential m →
        ∃ t, (db tenantId).store.tenant.authorizeEnrollment samplePorts.changeDigest credential
          m = .ok (credential, t) := by
  intro hgranted
  obtain ⟨tr, s, hpath, hrun⟩ := exists_governance_path samplePorts sampleFirstPermit
    (fun _ s => replacesIn thirdCredential s.store.tenant && !nonePending s.store.tenant)
    (by decide +kernel)
  obtain ⟨hreplacesIn, hpending⟩ := Bool.and_eq_true_iff.mp hrun
  obtain ⟨db, hreachable, rfl⟩ := exists_tenants_reachable hpath
  obtain ⟨m, hreplaces⟩ := exists_replacement hreplacesIn
  have hnone := (hreplaces.granted_iff (openStaffed_of_reachable hreachable sampleTenant) _).mp
    (hgranted db hreachable sampleTenant _ m hreplaces)
  have hall : nonePending (db sampleTenant).store.tenant = true :=
    List.all_eq_true.mpr fun c hc => by rw [hnone c hc, Bool.not_false]
  rw [hall] at hpending
  exact absurd hpending (by decide)

end DigitalColleagues
