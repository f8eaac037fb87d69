import DigitalColleagues.Governance.System

/-!
# What a step can do to authority

Every step of a run moves the authority tables of the tenant in one of a dozen
ways. A move that can make an Admin names the action it belongs to.
-/

namespace DigitalColleagues

open Keyed TenantTables

namespace AuthorityTables

/-- The one-time use of an approved change. -/
def consume (s : AuthorityTables) (proposal : ChangeProposal) (decision : ChangeDecision)
    (occurredAt : Instant) : AuthorityTables :=
  { s with
    changeProposals := s.changeProposals.replace
      { proposal with
        state := .applied
        consumedAt := some occurredAt
        revision := proposal.revision + 1 }
    changeDecisions := s.changeDecisions.replace
      { decision with consumedAt := some occurredAt, revision := decision.revision + 1 } }

/-- What stands behind a new credential: nothing for one that makes no Admin,
    else the bootstrap transition or an approved change. -/
inductive Issues (s : AuthorityTables) (c : GovernanceCredential) : AuthorityTables → Prop
  | ordinary : (∀ bootstrap decisionId, c.kind ≠ .enrollment .tenantAdmin bootstrap decisionId) →
      c.kind.isBootstrap = false → Issues s c s
  | transition {t : BootstrapTransition} {decisionId : Option StableId} :
      c.kind = .enrollment .tenantAdmin true decisionId → c.colleagueIds = .all →
      s.bootstrapTransition = some t → t.state = .available →
      Issues s c { s with bootstrapTransition := some { t with
        activeCredentialId := some c.credentialId
        revision := t.revision + 1 } }
  | approved {p : ChangeProposal} {d : ChangeDecision} {decisionId : Option StableId} :
      c.kind = .enrollment .tenantAdmin false decisionId → p ∈ s.changeProposals →
      p.changeKind = .adminEnrollment → p.proposedColleagueIds = c.colleagueIds →
      s.ApprovedBy p d → Issues s c (s.consume p d c.issuedAt)

/-- The write of a membership change to a principal and its membership. -/
structure MembershipWrite (s : AuthorityTables) (principalId : StableId) (role : HumanRole)
    (status : MembershipStatus) (scopes : ColleagueScopes) (principal : Principal)
    (row : MembershipRow) : Prop where
  old : ∃ oldPrincipal oldRow, s.principals.find? principalId = some oldPrincipal ∧
    s.memberships.find? principalId = some oldRow ∧
    (.tenantAdmin ∈ oldPrincipal.roles ∧ (role ≠ .tenantAdmin ∨ status = .revoked) →
      2 < s.adminCount) ∧
    (oldPrincipal.revision = oldRow.roleRevision → principal.revision = row.roleRevision)
  principalId_eq : principal.principalId = principalId
  human : principal.kind = .human
  roles : principal.roles = [role]
  rowId : row.principalId = principalId
  rowRoles : row.roles = [role]
  rowStatus : row.status = status
  rowScopes : row.colleagueIds = scopes
  rowIssuer : ∃ issuer, s.principals.find? row.issuedByPrincipalId = some issuer ∧
    issuer.kind = .human
  rowValid : row.validate = .ok ()

/-- The moves of the authority tables, with what their transaction checked. -/
inductive Move (s : AuthorityTables) : GovernanceAction → AuthorityTables → Prop
  | idle {a : GovernanceAction} : Move s a s
  | registerRuntime {a : GovernanceAction} {principals : Table Principal} :
      (∀ id p, s.principals.find? id = some p → principals.find? id = some p) →
      (∀ p ∈ principals, p ∈ s.principals ∨ p.kind ≠ .human) →
      Move s a { s with principals := principals }
  | bootstrap {tokenDigest : Digest} {id : StableId} {session : SessionFields}
      {occurredAt : Instant} {row : MembershipRow} {principals : Table Principal}
      {memberships : Table MembershipRow} :
      (∀ p ∈ s.principals, p.kind ≠ .human) → s.bootstrapTransition = none →
      s.principals.insert? (.human id .tenantAdmin) = some principals →
      row.principalId = id → row.roles = [.tenantAdmin] → row.colleagueIds = .all →
      row.status = .active → row.roleRevision = 1 → row.issuedByPrincipalId = id →
      row.validate = .ok () → s.memberships.insert? row = some memberships →
      Move s (.tenant (.consumeBootstrap tokenDigest id session occurredAt)) { s with
        principals := principals
        memberships := memberships
        bootstrapTransition := some ⟨.available, none, none, id, 1⟩ }
  | issue {a : GovernanceAction} {c : GovernanceCredential} {s' : AuthorityTables}
      {credentials : Table GovernanceCredential} :
      (c.kind.purpose = .enrollment → ∃ m c', a = .tenant (.authorizeEnrollment c' m) ∧
        c'.credentialId = c.credentialId) →
      s.Issues c s' → c.state ≠ .consumed → c.consumedAt = none →
      s.credentials.insert? c = some credentials →
      Move s a { s' with credentials := credentials }
  | setCredential {a : GovernanceAction} {c c' : GovernanceCredential} :
      s.credentials.find? c.credentialId = some c → c.state ≠ .consumed →
      c'.credentialId = c.credentialId → c'.kind = c.kind → c'.colleagueIds = c.colleagueIds →
      c'.state ≠ .consumed → c'.consumedAt = c.consumedAt →
      Move s a { s with credentials := s.credentials.replace c' }
  | enroll {tokenDigest : Digest} {id : StableId} {role : HumanRole} {m : Membership}
      {session : SessionFields} {occurredAt : Instant} {c : GovernanceCredential}
      {bootstrap : Bool} {decisionId : Option StableId} {principals : Table Principal}
      {memberships : Table MembershipRow} :
      s.credentials.find? c.credentialId = some c → c.kind = .enrollment role bootstrap decisionId →
      c.state = .retrieved → occurredAt < c.expiresAt →
      (bootstrap = true → ∃ t, s.bootstrapTransition = some t ∧ t.state = .available ∧
        s.adminCount = 1) →
      s.principals.insert? (.human id role) = some principals →
      m.principalId = id → m.roles = [role] → m.colleagueIds = c.colleagueIds →
      m.status = .active → m.roleRevision = 1 →
      s.principals.find? m.issuedBy.principalId = some m.issuedBy →
      s.memberships.insert? m.row = some memberships →
      Move s (.tenant (.consumeEnrollment tokenDigest id role m session occurredAt)) { s with
        principals := principals
        memberships := memberships
        credentials := s.credentials.replace (consumedBy c id occurredAt)
        bootstrapTransition :=
          if bootstrap then s.bootstrapTransition.map fun t => closeTransition t id
          else s.bootstrapTransition }
  | recover {a : GovernanceAction} {id : StableId} {occurredAt : Instant}
      {c : GovernanceCredential} :
      s.credentials.find? c.credentialId = some c → c.kind.purpose = .recovery →
      c.state = .retrieved → occurredAt < c.expiresAt →
      Move s a { s with credentials := s.credentials.replace (consumedBy c id occurredAt) }
  | propose {a : GovernanceAction} {p : ChangeProposal} {changeProposals : Table ChangeProposal} :
      p.consumedAt = none → (p.changeKind = .adminEnrollment → p.proposedColleagueIds = .all) →
      s.changeProposals.insert? p = some changeProposals →
      Move s a { s with changeProposals := changeProposals }
  | decide {a : GovernanceAction} {p p' : ChangeProposal} {d : ChangeDecision}
      {changeDecisions : Table ChangeDecision} :
      s.changeProposals.find? (key p) = some p →
      p' = { p with state := p'.state, decisionId := p'.decisionId, revision := p'.revision } →
      d.consumedAt = none → s.changeDecisions.insert? d = some changeDecisions →
      Move s a { s with
        changeProposals := s.changeProposals.replace p'
        changeDecisions := changeDecisions }
  | close {a : GovernanceAction} {p p' : ChangeProposal} :
      s.changeProposals.find? (key p) = some p →
      p' = { p with state := p'.state, revision := p'.revision } →
      p'.state = .expired ∨ p'.state = .stale →
      Move s a { s with changeProposals := s.changeProposals.replace p' }
  | consume {a : GovernanceAction} {p : ChangeProposal} {d : ChangeDecision}
      {occurredAt : Instant} : p ∈ s.changeProposals → s.ApprovedBy p d →
      Move s a (s.consume p d occurredAt)
  | change {p : ChangeProposal} {decisionId : StableId} {session : AuthenticatedSession}
      {idempotencyKey : StableId} {requestDigest : Digest} {occurredAt : Instant}
      {d : ChangeDecision} {role : HumanRole} {status : MembershipStatus} {principal : Principal}
      {row : MembershipRow} :
      p.changeKind = .membership → p ∈ s.changeProposals → s.ApprovedBy p d →
      p.proposedRole = some role → p.proposedStatus = some status →
      s.MembershipWrite p.targetId role status p.proposedColleagueIds principal row →
      Move s (.tenant (.applyMembershipChange p decisionId session idempotencyKey requestDigest
        occurredAt)) ({ s with
          principals := s.principals.replace principal
          memberships := s.memberships.replace row }.consume p d occurredAt)

-- ════════════════════════════════════════════════════════════════════════
-- Changes
-- ════════════════════════════════════════════════════════════════════════

theorem consumeChangeRows_eq_ok {s s' : TenantTables} {p : ChangeProposal} {d : ChangeDecision}
    {occurredAt : Instant} (h : s.consumeChangeRows p d occurredAt = .ok s')
    (hp : s.changeProposals.find? (p.ns, p.proposalId) = some p)
    (hd : s.changeDecisions.find? (p.ns, d.decisionId) = some d) :
    s' = { s with toAuthorityTables := s.toAuthorityTables.consume p d occurredAt } := by
  simp only [consumeChangeRows, bind_eq_ok, require_eq_ok, orFail_eq_ok, pure_eq_ok,
    exists_const] at h
  obtain ⟨p', hp', d', hd', _, _, rfl⟩ := h
  obtain rfl := Option.some.inj (hp'.symm.trans hp)
  obtain rfl := Option.some.inj (hd'.symm.trans hd)
  rfl

theorem consumeAdminEnrollmentAuthority_eq_ok {digest : GovernanceChange → Digest}
    {s s' : TenantTables} {decisionId : StableId} {role : HumanRole} {scopes : ColleagueScopes}
    {actor : Principal} {occurredAt : Instant}
    (h : s.consumeAdminEnrollmentAuthority digest decisionId role scopes actor occurredAt = .ok s') :
    ∃ p d, p ∈ s.changeProposals ∧ p.changeKind = .adminEnrollment ∧
      p.proposedColleagueIds = scopes ∧ s.ApprovedBy p d ∧
      s' = { s with toAuthorityTables := s.toAuthorityTables.consume p d occurredAt } := by
  simp only [consumeAdminEnrollmentAuthority, bind_eq_ok, require_eq_ok, orFail_eq_ok,
    exists_const] at h
  obtain ⟨p, hp, ⟨hkind, _, _, hscopes, _⟩, d, hd, hs'⟩ := h
  have hmem : p ∈ s.changeProposals := List.mem_of_find?_eq_some hp
  obtain ⟨_, happroved⟩ := validatedChangeApproval_eq_ok hd
  exact ⟨p, d, hmem, hkind, hscopes, happroved,
    consumeChangeRows_eq_ok hs' (Table.find?_of_mem hmem) happroved.findDecision⟩

/-- What a confirmation consumes, when the stored diff touches authority. -/
theorem authorizeDraftConfirmation_eq_ok {s s' : TenantTables} {colleagueId : StableId}
    {draft : ColleagueDraft} {actor : Principal} {changeDecisionId : Option StableId}
    {occurredAt : Instant}
    (h : s.authorizeDraftConfirmation colleagueId draft actor changeDecisionId occurredAt = .ok s') :
    (authorityChanged draft = false ∧ s' = s) ∨
    (authorityChanged draft = true ∧ ∃ p d, p ∈ s.changeProposals ∧
      p.ns = .colleague colleagueId ∧ p.changeKind = .draft ∧ p.targetId = draft.draftId ∧
      p.targetRevision = draft.revision ∧ p.canonicalDigest = draft.canonicalDigest ∧
      p.baseRevisions = draft.baseRevisions ∧ s.ApprovedBy p d ∧
      s' = { s with toAuthorityTables := s.toAuthorityTables.consume p d occurredAt }) := by
  unfold authorizeDraftConfirmation at h
  split at h
  · rename_i hauthority
    simp only [bind_eq_ok, require_eq_ok, orFail_eq_ok, exists_const] at h
    obtain ⟨decisionId, _, p, hp, ⟨hkind, htarget, hrevision, hdigest, hbase⟩, d, hd, hs'⟩ := h
    have hmem : p ∈ s.changeProposals := List.mem_of_find?_eq_some hp
    have hfound := List.find?_some hp
    simp only [decide_eq_true_eq] at hfound
    obtain ⟨_, happroved⟩ := validatedChangeApproval_eq_ok hd
    exact .inr ⟨hauthority, p, d, hmem, hfound.1, hkind, htarget, hrevision, hdigest, hbase,
      happroved,
      consumeChangeRows_eq_ok hs' (Table.find?_of_mem hmem) happroved.findDecision⟩
  · rename_i hauthority
    simp only [bind_eq_ok, require_eq_ok, pure_eq_ok, exists_const] at h
    obtain ⟨_, _, _, rfl⟩ := h
    exact .inl ⟨by simpa using hauthority, rfl⟩

theorem move_of_createChangeProposal {digest : GovernanceChange → Digest}
    {findDraft : Namespace → StableId → Option ColleagueDraft} {s s' : TenantTables}
    {proposal stored : ChangeProposal} {a : GovernanceAction}
    (h : s.createChangeProposal digest findDraft proposal = .ok (stored, s')) :
    s.Move a s'.toAuthorityTables := by
  simp only [createChangeProposal, bind_eq_ok, require_eq_ok, exists_const] at h
  obtain ⟨_, _, _, _, _, h⟩ := h
  split at h
  · simp only [bind_eq_ok, require_eq_ok, pure_eq_ok, exists_const, Prod.mk.injEq] at h
    obtain ⟨_, _, rfl⟩ := h
    exact .idle
  · simp only [bind_eq_ok, orFail_eq_ok, pure_eq_ok, Prod.mk.injEq] at h
    obtain ⟨_, hcheck, changeProposals, hinsert, _, rfl⟩ := h
    refine .propose rfl (fun hkind => ?_) hinsert
    have hkind : proposal.changeKind = .adminEnrollment := hkind
    simp only [checkChangeTarget, hkind, bind_eq_ok, require_eq_ok, exists_const] at hcheck
    exact hcheck.2.2.2

theorem move_of_decideChange {s s' : TenantTables} {proposal : ChangeProposal}
    {decision : ChangeDecision} {r : Outcome (ChangeProposal × ChangeDecision)}
    {a : GovernanceAction} (h : s.decideChange proposal decision = .ok (r, s')) :
    s.Move a s'.toAuthorityTables := by
  simp only [decideChange, bind_eq_ok, require_eq_ok, orFail_eq_ok, exists_const] at h
  obtain ⟨current, hcurrent, _, _, _, _, _, h⟩ := h
  split at h
  · simp only [bind_eq_ok, require_eq_ok, pure_eq_ok, exists_const, Prod.mk.injEq] at h
    obtain ⟨_, _, rfl⟩ := h
    exact .idle
  · simp only [bind_eq_ok, require_eq_ok, exists_const] at h
    obtain ⟨rfl, _, _, h⟩ := h
    split at h
    · simp only [pure_eq_ok, Prod.mk.injEq] at h
      obtain ⟨_, rfl⟩ := h
      exact .close hcurrent rfl (.inl rfl)
    · simp only [bind_eq_ok, require_eq_ok, orFail_eq_ok, pure_eq_ok, exists_const,
        Prod.mk.injEq] at h
      obtain ⟨_, changeDecisions, hinsert, _, rfl⟩ := h
      exact .decide hcurrent rfl rfl hinsert

theorem move_of_expireChangeProposal {s s' : TenantTables} {proposal expired : ChangeProposal}
    {actor : Principal} {occurredAt : Instant} {a : GovernanceAction}
    (h : s.expireChangeProposal proposal actor occurredAt = .ok (expired, s')) :
    s.Move a s'.toAuthorityTables := by
  simp only [expireChangeProposal, bind_eq_ok, require_eq_ok, orFail_eq_ok, pure_eq_ok,
    exists_const, Prod.mk.injEq] at h
  obtain ⟨_, _, _, row, hrow, _, _, rfl⟩ := h
  have hkey : key row = (proposal.ns, proposal.proposalId) := Table.key_of_find? hrow
  rw [← hkey] at hrow
  exact .close hrow rfl (.inl rfl)

theorem move_of_markChangeProposalStale {s s' : TenantTables} {proposal stale : ChangeProposal}
    {actor : Principal} {a : GovernanceAction}
    (h : s.markChangeProposalStale proposal actor = .ok (stale, s')) :
    s.Move a s'.toAuthorityTables := by
  simp only [markChangeProposalStale, bind_eq_ok, require_eq_ok, pure_eq_ok, exists_const,
    Prod.mk.injEq] at h
  obtain ⟨_, _, hfind, _, _, rfl⟩ := h
  exact .close hfind rfl (.inr rfl)

theorem withRole_eq_ok {principal updated : Principal} {role : HumanRole} {revision : ℕ}
    (h : withRole principal role revision = .ok updated) :
    updated.principalId = principal.principalId ∧ updated.kind = .human ∧
      updated.roles = [role] ∧ updated.revision = revision := by
  unfold withRole at h
  split at h
  · rename_i hkind
    obtain rfl := Except.ok.inj h
    exact ⟨rfl, hkind, rfl, rfl⟩
  · exact absurd h (by simp)

/-- A membership change writes the principal only for a new role. -/
theorem writeMembershipChange_eq_ok {s s' : TenantTables} {target updated : Membership}
    {p : ChangeProposal} {role : HumanRole} {status : MembershipStatus} {decisionId : StableId}
    {occurredAt : Instant} {row : MembershipRow}
    (h : s.writeMembershipChange target p role status decisionId occurredAt = .ok (updated, s'))
    (hrow : s.memberships.find? target.principalId = some row)
    (hfields : target.toMembershipFields = row.toMembershipFields)
    (hissuer : s.principals.find? target.issuedBy.principalId = some target.issuedBy) :
    ∃ principal row' audits,
      s.MembershipWrite target.principalId role status p.proposedColleagueIds principal row' ∧
      s' = { s with
        principals := s.principals.replace principal
        principalAudits := audits
        memberships := s.memberships.replace row' } := by
  simp only [writeMembershipChange, getPrincipal, bind_eq_ok, require_eq_ok, orFail_eq_ok,
    pure_eq_ok, exists_const, Prod.mk.injEq] at h
  obtain ⟨current, hcurrent, hguard, principal, hprincipal, s₁, hs₁, made, hmade, _, rfl⟩ := h
  obtain ⟨hid, hhuman, hroles, hrevision⟩ := withRole_eq_ok hprincipal
  have hcurrentId : current.principalId = target.principalId := Table.key_of_find? hcurrent
  obtain ⟨hmadeFields, hmadeIssuer⟩ := Membership.make_eq_ok hmade
  have hmadeRow : ∃ issuer, s.principals.find? made.row.issuedByPrincipalId = some issuer ∧
      issuer.kind = .human :=
    ⟨made.issuedBy, by rw [Membership.row, hmadeIssuer, hissuer], made.issued_by_human⟩
  have htargetRevision : target.roleRevision = row.roleRevision :=
    congrArg MembershipFields.roleRevision hfields
  unfold updateRole at hs₁
  split at hs₁
  · rename_i hchanged
    obtain ⟨audits, rfl⟩ := updatePrincipal_eq_ok hs₁
    refine ⟨principal, made.row, audits, ⟨⟨current, row, hcurrent, hrow, hguard, ?_⟩,
      hid.trans hcurrentId, hhuman, hroles, ?_, ?_, ?_, ?_, hmadeRow, made.valid⟩, rfl⟩
    all_goals simp [Membership.row, hmadeFields, hrevision, hchanged]
  · rename_i hsame
    obtain rfl := Except.ok.inj hs₁
    have hsame : current.roles = [role] := by simpa using hsame
    have hmem : current ∈ s.principals := Table.mem_of_find? hcurrent
    refine ⟨current, made.row, s.principalAudits, ⟨⟨current, row, hcurrent, hrow, hguard, ?_⟩,
      hcurrentId, ?_, hsame, ?_, ?_, ?_, ?_, hmadeRow, made.valid⟩, ?_⟩
    · simp [Membership.row, hmadeFields, hsame, htargetRevision]
    · unfold withRole at hprincipal
      split at hprincipal
      · assumption
      · exact absurd hprincipal (by simp)
    all_goals simp [Membership.row, hmadeFields, Table.replace_self hmem]

theorem move_of_applyMembershipChange {digest : GovernanceChange → Digest} {s s' : TenantTables}
    {p : ChangeProposal} {decisionId : StableId} {session : AuthenticatedSession}
    {idempotencyKey : StableId} {requestDigest : Digest} {occurredAt : Instant} {m : Membership}
    (h : s.applyMembershipChange digest p decisionId session idempotencyKey requestDigest
      occurredAt = .ok (m, s')) :
    s.Move (.tenant (.applyMembershipChange p decisionId session idempotencyKey requestDigest
      occurredAt)) s'.toAuthorityTables := by
  simp only [applyMembershipChange, bind_eq_ok, require_eq_ok, exists_const] at h
  obtain ⟨hkind, _, _, h⟩ := h
  split at h
  · simp only [bind_eq_ok, require_eq_ok, pure_eq_ok, exists_const, Prod.mk.injEq] at h
    obtain ⟨_, _, rfl⟩ := h
    exact .idle
  · simp only [bind_eq_ok, require_eq_ok, orFail_eq_ok, pure_eq_ok, exists_const, Prod.exists,
      Prod.mk.injEq] at h
    obtain ⟨hp, d, hd, target, htarget, _, role, hrole, status, hstatus, updated, s₁, hwrite, s₂,
      hconsume, _, replays, _, _, rfl⟩ := h
    obtain ⟨_, happroved⟩ := validatedChangeApproval_eq_ok hd
    obtain ⟨row, hrow, hfields⟩ := membershipForPrincipal_eq_ok htarget
    have htargetId : target.principalId = p.targetId :=
      (congrArg MembershipFields.principalId hfields).trans (Table.key_of_find? hrow)
    obtain ⟨principal, row', audits, hwritten, rfl⟩ :=
      writeMembershipChange_eq_ok hwrite (htargetId.symm ▸ hrow) hfields
        (issuer_of_membershipForPrincipal htarget)
    rw [consumeChangeRows_eq_ok hconsume hp happroved.findDecision]
    exact .change hkind (Table.mem_of_find? hp) happroved hrole hstatus (htargetId ▸ hwritten)

-- ════════════════════════════════════════════════════════════════════════
-- Credentials
-- ════════════════════════════════════════════════════════════════════════

theorem move_of_consumeBootstrap {s s' : TenantTables} {tokenDigest : Digest} {id : StableId}
    {session : SessionFields} {occurredAt : Instant} {governed : AuthenticatedSession}
    (h : s.consumeBootstrap tokenDigest (.human id .tenantAdmin)
      (sessionOf session (.human id .tenantAdmin)) occurredAt = .ok (governed, s')) :
    s.Move (.tenant (.consumeBootstrap tokenDigest id session occurredAt))
      s'.toAuthorityTables := by
  simp only [consumeBootstrap, bind_eq_ok, require_eq_ok, orFail_eq_ok, pure_eq_ok, exists_const,
    Prod.mk.injEq] at h
  obtain ⟨_, _, bootstrap, _, _, _, hhumans, s₁, hprincipal, _, _, membership, hmembership,
    memberships, hinsert, htransition, s₂, hsession, _, rfl⟩ := h
  obtain ⟨principals, audits, hprincipals, rfl⟩ := insertPrincipal_eq_ok hprincipal
  obtain ⟨sessions, rfl⟩ := insertGovernedSession_eq_ok hsession
  obtain ⟨hfields, hissuer⟩ := Membership.make_eq_ok hmembership
  refine .bootstrap hhumans htransition hprincipals ?_ ?_ ?_ ?_ ?_ ?_ membership.valid hinsert
  all_goals simp [Membership.row, hfields, hissuer, Principal.human]

/-- A new credential is unused. -/
theorem insertCredential_eq_ok {s s' : TenantTables} {credential : GovernanceCredential}
    (h : s.insertCredential credential = .ok s') :
    ∃ c credentials, c.credentialId = credential.credentialId ∧ c.kind = credential.kind ∧
      c.colleagueIds = credential.colleagueIds ∧ c.issuedAt = credential.issuedAt ∧
      c.state ≠ .consumed ∧ c.consumedAt = none ∧
      s.credentials.insert? c = some credentials ∧ s' = { s with credentials := credentials } := by
  simp only [insertCredential, bind_eq_ok, require_eq_ok, orFail_eq_ok, pure_eq_ok,
    exists_const] at h
  obtain ⟨hstate, credentials, hinsert, rfl⟩ := h
  have hopen : credential.state ≠ .consumed := by
    rcases hstate with hstate | hstate <;> simp [hstate]
  refine ⟨_, credentials, ?_, ?_, ?_, ?_, ?_, ?_, hinsert, rfl⟩
  · rfl
  · rfl
  · rfl
  · rfl
  · exact hopen
  · rfl

theorem issues_of_authorizeIssuance {digest : GovernanceChange → Digest} {s s' : TenantTables}
    {credential c : GovernanceCredential} {role : HumanRole} {bootstrap : Bool}
    {decisionId : Option StableId} {issuer : Principal}
    (h : s.authorizeIssuance digest credential role bootstrap decisionId issuer = .ok s')
    (hkind : c.kind = .enrollment role bootstrap decisionId)
    (hid : c.credentialId = credential.credentialId)
    (hscopes : c.colleagueIds = credential.colleagueIds)
    (hissued : c.issuedAt = credential.issuedAt) :
    s.Issues c s'.toAuthorityTables ∧ s'.credentials = s.credentials := by
  unfold authorizeIssuance at h
  split at h
  · rename_i hbootstrap
    simp only [openBootstrapTransition, bind_eq_ok, require_eq_ok, orFail_eq_ok, pure_eq_ok,
      exists_const] at h
    obtain ⟨t, ht, ⟨havailable, _, _, rfl, hall⟩, rfl⟩ := h
    rw [hbootstrap] at hkind
    rw [← hid]
    exact ⟨.transition hkind (hscopes.trans hall) ht havailable, rfl⟩
  · rename_i hbootstrap
    have hbootstrap : bootstrap = false := by simpa using hbootstrap
    split at h
    · rename_i hrole
      simp only [bind_eq_ok, orFail_eq_ok] at h
      obtain ⟨_, _, hconsume⟩ := h
      obtain ⟨p, d, hp, hchange, hpscopes, happroved, rfl⟩ :=
        consumeAdminEnrollmentAuthority_eq_ok hconsume
      rw [← hissued]
      rw [hrole, hbootstrap] at hkind
      exact ⟨.approved hkind hp hchange (hpscopes.trans hscopes.symm) happroved, rfl⟩
    · rename_i hrole
      obtain rfl := Except.ok.inj h
      refine ⟨.ordinary (fun b dec he => hrole ?_) ?_, rfl⟩
      · exact (CredentialKind.enrollment.inj (hkind.symm.trans he)).1
      · rw [hkind]
        exact hbootstrap

theorem move_of_authorizeEnrollment {digest : GovernanceChange → Digest} {s s' : TenantTables}
    {credential stored : GovernanceCredential} {m : Membership}
    (h : s.authorizeEnrollment digest credential m = .ok (stored, s')) :
    s.Move (.tenant (.authorizeEnrollment credential m)) s'.toAuthorityTables := by
  unfold authorizeEnrollment at h
  split at h
  · exact absurd h (by simp)
  · rename_i role bootstrap decisionId hkind
    simp only [bind_eq_ok, require_eq_ok, exists_const] at h
    obtain ⟨issuer, _, _, _, _, h⟩ := h
    split at h
    · simp only [bind_eq_ok, require_eq_ok, pure_eq_ok, exists_const, Prod.mk.injEq] at h
      obtain ⟨_, _, rfl⟩ := h
      exact .idle
    · simp only [bind_eq_ok, pure_eq_ok, Prod.mk.injEq] at h
      obtain ⟨s₁, hissuance, s₂, hinsert, _, rfl⟩ := h
      obtain ⟨c, credentials, hid, hckind, hscopes, hissued, hstate, hconsumed, hcredentials, rfl⟩ :=
        insertCredential_eq_ok hinsert
      obtain ⟨hissues, hsame⟩ :=
        issues_of_authorizeIssuance hissuance (hckind.trans hkind) hid hscopes hissued
      rw [hsame] at hcredentials
      exact .issue (fun _ => ⟨m, credential, rfl, hid.symm⟩) hissues hstate hconsumed hcredentials

theorem move_of_authorizeRecovery {s s' : TenantTables} {credential stored : GovernanceCredential}
    {m : Membership} {a : GovernanceAction}
    (h : s.authorizeRecovery credential m = .ok (stored, s')) : s.Move a s'.toAuthorityTables := by
  unfold authorizeRecovery at h
  split at h
  · exact absurd h (by simp)
  · rename_i target roleRevision membershipRevision hkind
    simp only [bind_eq_ok, require_eq_ok, exists_const] at h
    obtain ⟨issuer, _, _, _, _, _, _, _, _, h⟩ := h
    split at h
    · rename_i s₁ hinsert
      simp only [pure_eq_ok, Prod.mk.injEq] at h
      obtain ⟨_, rfl⟩ := h
      obtain ⟨c, credentials, _, hckind, _, _, hstate, hconsumed, hcredentials, rfl⟩ :=
        insertCredential_eq_ok hinsert
      have hrecovery := hckind.trans hkind
      refine .issue (fun he => ?_) (.ordinary (fun _ _ he => ?_) ?_) hstate hconsumed hcredentials
      all_goals simp_all [CredentialKind.purpose, CredentialKind.isBootstrap]
    · simp only [bind_eq_ok, require_eq_ok, orFail_eq_ok, pure_eq_ok, exists_const,
        Prod.mk.injEq] at h
      obtain ⟨_, _, _, _, rfl⟩ := h
      exact .idle

theorem move_of_claimCredentialSecret {s s' : TenantTables} {credentialId : StableId}
    {tokenDigest : Digest} {occurredAt : Instant} {c : GovernanceCredential} {a : GovernanceAction}
    (h : s.claimCredentialSecret credentialId tokenDigest occurredAt = .ok (c, s')) :
    s.Move a s'.toAuthorityTables := by
  simp only [claimCredentialSecret, bind_eq_ok, require_eq_ok, orFail_eq_ok, exists_const] at h
  obtain ⟨credential, hfind, _, _, hstate, h⟩ := h
  have hkey : credential.credentialId = credentialId := Table.key_of_find? hfind
  rw [← hkey] at hfind
  split at h
  · simp only [pure_eq_ok, Prod.mk.injEq] at h
    obtain ⟨_, rfl⟩ := h
    exact .setCredential hfind (by simp [hstate]) rfl rfl rfl (by simp) rfl
  · simp only [bind_eq_ok, require_eq_ok, pure_eq_ok, exists_const, Prod.mk.injEq] at h
    obtain ⟨_, _, _, rfl⟩ := h
    exact .setCredential hfind (by simp [hstate]) rfl rfl rfl (by simp) rfl

theorem move_of_expireCredential {s s' : TenantTables} {credential c : GovernanceCredential}
    {occurredAt : Instant} {a : GovernanceAction}
    (h : s.expireCredential credential occurredAt = .ok (c, s')) :
    s.Move a s'.toAuthorityTables := by
  simp only [expireCredential, bind_eq_ok, require_eq_ok, pure_eq_ok, exists_const,
    Prod.mk.injEq] at h
  obtain ⟨hfind, ⟨hstate, _⟩, _, _, _, rfl⟩ := h
  exact .setCredential hfind (by simp [hstate]) rfl rfl rfl (by simp) rfl

theorem move_of_revokeCredential {s s' : TenantTables} {session : AuthenticatedSession}
    {credentialId idempotencyKey : StableId} {requestDigest : Digest} {occurredAt : Instant}
    {c : GovernanceCredential} {a : GovernanceAction}
    (h : s.revokeCredential session credentialId idempotencyKey requestDigest occurredAt =
      .ok (c, s')) : s.Move a s'.toAuthorityTables := by
  simp only [revokeCredential, bind_eq_ok] at h
  obtain ⟨_, _, h⟩ := h
  split at h
  · simp only [bind_eq_ok, require_eq_ok, pure_eq_ok, exists_const, Prod.mk.injEq] at h
    obtain ⟨_, _, rfl⟩ := h
    exact .idle
  · simp only [bind_eq_ok, require_eq_ok, orFail_eq_ok, pure_eq_ok, exists_const,
      Prod.mk.injEq] at h
    obtain ⟨_, _, _, _, _, credential, hfind, hstate, replays, _, _, rfl⟩ := h
    have hkey : credential.credentialId = credentialId := Table.key_of_find? hfind
    rw [← hkey] at hfind
    refine .setCredential hfind ?_ rfl rfl rfl (by simp) rfl
    rcases hstate with hstate | hstate <;> simp [hstate]

/-- The credential found by its token is the one of its identifier. -/
theorem find?_of_credentialOfToken {s : TenantTables} {tokenDigest : Digest}
    {purpose : CredentialPurpose} {c : GovernanceCredential}
    (h : s.credentialOfToken tokenDigest purpose = some c) :
    s.credentials.find? c.credentialId = some c ∧ c.kind.purpose = purpose := by
  have hfound := List.find?_some h
  simp only [decide_eq_true_eq] at hfound
  exact ⟨Table.find?_of_mem (List.mem_of_find?_eq_some h), hfound.2⟩

theorem move_of_consumeEnrollment {s s' : TenantTables} {tokenDigest : Digest} {id : StableId}
    {role : HumanRole} {m : Membership} {session : SessionFields} {occurredAt : Instant}
    {consumed : GovernanceCredential}
    (h : s.consumeEnrollment tokenDigest (.human id role) m (sessionOf session (.human id role))
      occurredAt = .ok (consumed, s')) :
    s.Move (.tenant (.consumeEnrollment tokenDigest id role m session occurredAt))
      s'.toAuthorityTables := by
  simp only [consumeEnrollment, bind_eq_ok, require_eq_ok, orFail_eq_ok, exists_const] at h
  obtain ⟨_, hid, c, hc, h⟩ := h
  split at h
  · exact absurd h (by simp)
  · rename_i targetRole bootstrap decisionId hkind
    simp only [bind_eq_ok, require_eq_ok, orFail_eq_ok, toOption_eq_some, pure_eq_ok, exists_const,
      Prod.mk.injEq] at h
    obtain ⟨⟨hretrieved, _, hexpires, hrole, hroles, hscopes, hrevision, _, hactive, _⟩, issuer,
      hissuer, hissuedBy, _, htransition, s₁, hprincipal, memberships, hmemberships, s₂, hsession, _, rfl⟩ := h
    obtain ⟨principals, audits, hprincipals, rfl⟩ := insertPrincipal_eq_ok hprincipal
    obtain ⟨sessions, rfl⟩ := insertGovernedSession_eq_ok hsession
    have hrole : role = targetRole := by simpa [Principal.human] using hrole
    rw [← hrole] at hkind
    refine .enroll (find?_of_credentialOfToken hc).1 hkind hretrieved hexpires ?_ hprincipals
      hid.symm hroles hscopes hactive hrevision ?_ hmemberships
    · rintro rfl
      simp only [requireBootstrapTransition, if_true, bind_eq_ok, require_eq_ok,
        orFail_eq_ok] at htransition
      obtain ⟨t, ht, havailable, _, hcount⟩ := htransition
      exact ⟨t, ht, havailable, hcount⟩
    · exact find?_of_getPrincipal (hissuedBy ▸ hissuer)

theorem move_of_consumeRecovery {s s' : TenantTables} {tokenDigest : Digest}
    {session : AuthenticatedSession} {occurredAt : Instant} {consumed : GovernanceCredential}
    {a : GovernanceAction}
    (h : s.consumeRecovery tokenDigest session occurredAt = .ok (consumed, s')) :
    s.Move a s'.toAuthorityTables := by
  simp only [consumeRecovery, bind_eq_ok, orFail_eq_ok] at h
  obtain ⟨c, hc, h⟩ := h
  split at h
  · exact absurd h (by simp)
  · simp only [bind_eq_ok, require_eq_ok, pure_eq_ok, exists_const, Prod.mk.injEq] at h
    obtain ⟨⟨hretrieved, _, hexpires⟩, _, _, principal, _, _, s₁, hsession, _, rfl⟩ := h
    obtain ⟨sessions, rfl⟩ := insertGovernedSession_eq_ok hsession
    obtain ⟨hfind, hpurpose⟩ := find?_of_credentialOfToken hc
    exact .recover hfind hpurpose hretrieved hexpires

-- ════════════════════════════════════════════════════════════════════════
-- Every action
-- ════════════════════════════════════════════════════════════════════════

theorem move_of_tenantExec {ports : GovernancePorts}
    {findDraft : Namespace → StableId → Option ColleagueDraft} {s s' : TenantTables}
    {a : TenantAction} (h : s.exec ports findDraft a = .ok s') :
    s.Move (.tenant a) s'.toAuthorityTables := by
  cases a with
  | createBootstrap record =>
    simp only [exec, bind_eq_ok, pure_eq_ok, Prod.exists, createBootstrap] at h
    obtain ⟨_, s₁, h, rfl⟩ := h
    split at h
    · obtain ⟨_, rfl⟩ := Prod.mk.inj (Except.ok.inj h)
      exact .idle
    · simp only [bind_eq_ok, pure_eq_ok, Prod.mk.injEq] at h
      obtain ⟨_, _, _, _, _, rfl⟩ := h
      exact .idle
  | claimBootstrapRetrieval tokenDigest occurredAt =>
    simp only [exec, claimBootstrapRetrieval, bind_eq_ok, pure_eq_ok] at h
    obtain ⟨_, _, _, _, _, _, rfl⟩ := h
    exact .idle
  | consumeBootstrap tokenDigest principalId session occurredAt =>
    simp only [exec, bind_eq_ok, pure_eq_ok, Prod.exists] at h
    obtain ⟨_, _, h, rfl⟩ := h
    exact move_of_consumeBootstrap h
  | authorizeEnrollment credential issuerMembership =>
    simp only [exec, bind_eq_ok, pure_eq_ok, Prod.exists] at h
    obtain ⟨_, _, h, rfl⟩ := h
    exact move_of_authorizeEnrollment h
  | authorizeRecovery credential issuerMembership =>
    simp only [exec, bind_eq_ok, pure_eq_ok, Prod.exists] at h
    obtain ⟨_, _, h, rfl⟩ := h
    exact move_of_authorizeRecovery h
  | claimCredentialSecret credentialId tokenDigest occurredAt =>
    simp only [exec, bind_eq_ok, pure_eq_ok, Prod.exists] at h
    obtain ⟨_, _, h, rfl⟩ := h
    exact move_of_claimCredentialSecret h
  | expireCredential credential occurredAt =>
    simp only [exec, bind_eq_ok, pure_eq_ok, Prod.exists] at h
    obtain ⟨_, _, h, rfl⟩ := h
    exact move_of_expireCredential h
  | revokeCredential session credentialId idempotencyKey requestDigest occurredAt =>
    simp only [exec, bind_eq_ok, pure_eq_ok, Prod.exists] at h
    obtain ⟨_, _, h, rfl⟩ := h
    exact move_of_revokeCredential h
  | consumeEnrollment tokenDigest principalId role membership session occurredAt =>
    simp only [exec, bind_eq_ok, pure_eq_ok, Prod.exists] at h
    obtain ⟨_, _, h, rfl⟩ := h
    exact move_of_consumeEnrollment h
  | consumeRecovery tokenDigest session occurredAt =>
    simp only [exec, bind_eq_ok, pure_eq_ok, Prod.exists] at h
    obtain ⟨_, _, h, rfl⟩ := h
    exact move_of_consumeRecovery h
  | createChangeProposal proposal =>
    simp only [exec, bind_eq_ok, pure_eq_ok, Prod.exists] at h
    obtain ⟨_, _, h, rfl⟩ := h
    exact move_of_createChangeProposal h
  | decideChange proposal decision =>
    simp only [exec, bind_eq_ok, pure_eq_ok, Prod.exists] at h
    obtain ⟨_, _, h, rfl⟩ := h
    exact move_of_decideChange h
  | expireChangeProposal proposal actor occurredAt =>
    simp only [exec, bind_eq_ok, pure_eq_ok, Prod.exists] at h
    obtain ⟨_, _, h, rfl⟩ := h
    exact move_of_expireChangeProposal h
  | markChangeProposalStale proposal actor =>
    simp only [exec, bind_eq_ok, pure_eq_ok, Prod.exists] at h
    obtain ⟨_, _, h, rfl⟩ := h
    exact move_of_markChangeProposalStale h
  | applyMembershipChange proposal decisionId session idempotencyKey requestDigest occurredAt =>
    simp only [exec, bind_eq_ok, pure_eq_ok, Prod.exists] at h
    obtain ⟨_, _, h, rfl⟩ := h
    exact move_of_applyMembershipChange h
  | consumeAdminEnrollmentChange decisionId role colleagueIds actor occurredAt =>
    obtain ⟨p, d, hp, _, _, happroved, rfl⟩ := consumeAdminEnrollmentAuthority_eq_ok h
    exact .consume hp happroved

/-- Runtime principals are new and not human. -/
theorem insertRuntimePrincipals_eq_ok {s s' : TenantTables} {ps : List Principal}
    (h : ps.foldlM insertRuntimePrincipal s = .ok s') :
    ∃ principals audits, s' = { s with principals := principals, principalAudits := audits } ∧
      (∀ id p, s.principals.find? id = some p → principals.find? id = some p) ∧
      ∀ p ∈ principals, p ∈ s.principals ∨ p.kind ≠ .human := by
  induction ps generalizing s with
  | nil =>
    obtain rfl := pure_eq_ok.mp h
    exact ⟨s.principals, s.principalAudits, rfl, fun _ _ h => h, fun _ h => .inl h⟩
  | cons p ps ih =>
    simp only [List.foldlM_cons, insertRuntimePrincipal, bind_eq_ok, require_eq_ok,
      exists_const] at h
    obtain ⟨s₁, ⟨hkind, hinsert⟩, h⟩ := h
    obtain ⟨principals₁, audits₁, hprincipals, rfl⟩ := insertPrincipal_eq_ok hinsert
    obtain ⟨principals, audits, rfl, hkeep, hnew⟩ := ih h
    refine ⟨principals, audits, rfl, fun id q hq => ?_, fun q hq => ?_⟩
    · exact hkeep id q (Table.find?_insert_of_some hprincipals hq)
    · rcases hnew q hq with hq | hq
      · rcases (Table.mem_insert hprincipals).mp hq with hq | rfl
        · exact .inl hq
        · exact .inr hkind
      · exact .inr hq

theorem tenant_of_confirmDraft {tenant tenant' : TenantTables} {s s' : BuilderTables}
    {colleagueId : StableId} {cmd : ConfirmDraftCommand} {r : Outcome ConfirmationResult}
    (h : confirmDraft tenant s colleagueId cmd = .ok (r, tenant', s')) :
    tenant' = tenant ∨ ∃ draft, tenant.authorizeDraftConfirmation colleagueId draft cmd.actor
      cmd.changeDecisionId cmd.occurredAt = .ok tenant' := by
  simp only [confirmDraft, bind_eq_ok] at h
  obtain ⟨_, _, h⟩ := h
  split at h
  · simp only [bind_eq_ok, pure_eq_ok, Prod.mk.injEq] at h
    obtain ⟨_, _, _, rfl, _⟩ := h
    exact .inl rfl
  · simp only [bind_eq_ok] at h
    obtain ⟨draft, _, _, _, _, _, current, _, h⟩ := h
    split at h
    · simp only [bind_eq_ok, pure_eq_ok, Prod.exists, Prod.mk.injEq, confirmCurrentDraft] at h
      obtain ⟨_, _, _, ⟨t, ht, _, _, _, _, _, _, _, _, _, _, rfl, _⟩, _, rfl, _⟩ := h
      exact .inr ⟨draft, ht⟩
    · simp only [bind_eq_ok, pure_eq_ok, Prod.mk.injEq] at h
      obtain ⟨_, _, _, rfl, _⟩ := h
      exact .inl rfl

/-- Every step of a run is a move of the authority tables. -/
theorem move_of_exec {ports : GovernancePorts} {s s' : GovernanceState} {a : GovernanceAction}
    (h : s.exec ports a = .ok s') :
    s.store.tenant.Move a s'.store.tenant.toAuthorityTables := by
  cases a with
  | tenant action =>
    simp only [GovernanceState.exec, bind_eq_ok, pure_eq_ok] at h
    obtain ⟨tenant, htenant, rfl⟩ := h
    exact move_of_tenantExec htenant
  | createInitialColleague colleagueId profile mandate runtimePrincipals actor =>
    simp only [GovernanceState.exec, GovernanceStore.createInitialColleague, bind_eq_ok,
      pure_eq_ok] at h
    obtain ⟨_, ⟨_, _, _, _, _, _, _, _, tenant, htenant, _, _, rfl⟩, rfl⟩ := h
    obtain ⟨principals, audits, rfl, hkeep, hnew⟩ := insertRuntimePrincipals_eq_ok htenant
    exact .registerRuntime hkeep hnew
  | read colleagueId read =>
    simp only [GovernanceState.exec, bind_eq_ok, pure_eq_ok] at h
    obtain ⟨_, _, rfl⟩ := h
    exact .idle
  | builder colleagueId action =>
    simp only [GovernanceState.exec, bind_eq_ok, pure_eq_ok] at h
    obtain ⟨_, _, rfl⟩ := h
    exact .idle
  | confirmDraft colleagueId cmd =>
    simp only [GovernanceState.exec, bind_eq_ok, pure_eq_ok, Prod.exists] at h
    obtain ⟨_, tenant, tables, hconfirm, rfl⟩ := h
    rcases tenant_of_confirmDraft hconfirm with rfl | ⟨draft, hdraft⟩
    · exact .idle
    · rcases authorizeDraftConfirmation_eq_ok hdraft with
        ⟨_, rfl⟩ | ⟨_, p, d, hp, _, _, _, _, _, _, happroved, rfl⟩
      · exact .idle
      · exact .consume hp happroved

end AuthorityTables

end DigitalColleagues
