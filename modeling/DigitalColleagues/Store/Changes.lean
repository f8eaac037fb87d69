import DigitalColleagues.Core.Builder
import DigitalColleagues.Store.Tenant

/-!
# Authority changes

Change proposals, their decisions, and the one-time use of an approved change by
a membership change, an Admin enrollment or a draft confirmation.

## Main definitions

- `TenantTables.createChangeProposal`, `TenantTables.decideChange`
- `TenantTables.validatedChangeApproval`, `TenantTables.consumeChangeRows`
- `TenantTables.applyMembershipChange`
- `AuthorityTables.ApprovedBy` — what a validated approval says
-/

namespace DigitalColleagues

/-- `_same_change_proposal_request`. -/
def sameChangeProposalRequest (stored requested : ChangeProposal) : Prop :=
  (stored.ns = requested.ns ∧ stored.changeKind = requested.changeKind ∧
    stored.proposerPrincipalId = requested.proposerPrincipalId ∧
    stored.idempotencyKey = requested.idempotencyKey ∧ stored.targetId = requested.targetId) ∧
  if stored.changeKind = .draft then
    stored.targetRevision = requested.targetRevision ∧
      stored.canonicalDigest = requested.canonicalDigest
  else
    stored.proposedRole = requested.proposedRole ∧
      stored.proposedStatus = requested.proposedStatus ∧
      stored.proposedColleagueIds = requested.proposedColleagueIds

instance (stored requested : ChangeProposal) :
    Decidable (sameChangeProposalRequest stored requested) :=
  inferInstanceAs (Decidable (_ ∧ _))

/-- `_same_change_decision_request`. -/
def sameChangeDecisionRequest (stored requested : ChangeDecision) : Prop :=
  stored.ns = requested.ns ∧ stored.approverPrincipalId = requested.approverPrincipalId ∧
    stored.idempotencyKey = requested.idempotencyKey ∧ stored.proposalId = requested.proposalId ∧
    stored.proposalRevision = requested.proposalRevision ∧
    stored.proposalDigest = requested.proposalDigest ∧ stored.choice = requested.choice

instance (stored requested : ChangeDecision) :
    Decidable (sameChangeDecisionRequest stored requested) :=
  inferInstanceAs (Decidable (_ ∧ _))

namespace AuthorityTables

/-- The principal and the membership of an Admin, at given revisions. -/
structure AdminAt (s : AuthorityTables) (principalId : StableId)
    (roleRevision membershipRevision : ℕ) (principal : Principal) (row : MembershipRow) :
    Prop where
  findPrincipal : s.principals.find? principalId = some principal
  findRow : s.memberships.find? principalId = some row
  active : row.status = .active
  admin : .tenantAdmin ∈ principal.roles
  revision : principal.revision = roleRevision
  roleRevision : row.roleRevision = roleRevision
  membershipRevision : row.membershipRevision = membershipRevision

/-- A proposal with an unused approval of another principal, both of them still
    active Admins at the revisions they acted with. -/
structure ApprovedBy (s : AuthorityTables) (proposal : ChangeProposal) (decision : ChangeDecision) :
    Prop where
  approved : proposal.state = .approved
  unconsumed : proposal.consumedAt = none
  decisionId : proposal.decisionId = some decision.decisionId
  findDecision : s.changeDecisions.find? (proposal.ns, decision.decisionId) = some decision
  proposalId : decision.proposalId = proposal.proposalId
  choice : decision.choice = .approve
  fresh : decision.consumedAt = none
  distinct : proposal.proposerPrincipalId ≠ decision.approverPrincipalId
  proposer : ∃ principal row, s.AdminAt proposal.proposerPrincipalId proposal.proposerRoleRevision
    proposal.proposerMembershipRevision principal row
  approver : ∃ principal row, s.AdminAt decision.approverPrincipalId decision.approverRoleRevision
    decision.approverMembershipRevision principal row

end AuthorityTables

namespace TenantTables

-- ════════════════════════════════════════════════════════════════════════
-- Proposals
-- ════════════════════════════════════════════════════════════════════════

/-- What a proposal must still fit when it is made. -/
def checkChangeTarget (digest : GovernanceChange → Digest)
    (findDraft : Namespace → StableId → Option ColleagueDraft) (s : TenantTables)
    (proposal : ChangeProposal) : Outcome Unit :=
  match proposal.changeKind with
  | .draft => do
    let draft ← orFail (findDraft proposal.ns proposal.targetId)
      (.notFound "governance target was not found")
    require (draft.state = .reviewable ∧ draft.revision = proposal.targetRevision ∧
        draft.canonicalDigest = proposal.canonicalDigest ∧
        draft.baseRevisions = proposal.baseRevisions)
      (.staleConflict "exact draft change proposal is stale")
  | .membership => do
    require (digest proposal.change = proposal.canonicalDigest)
      (.staleConflict "governance change digest was refused")
    let target ← s.membershipForPrincipal proposal.targetId
    require (target.membershipRevision = proposal.targetRevision)
      (.staleConflict "membership change base is stale")
    require (proposal.proposedRole.isSome ∧ proposal.proposedStatus.isSome)
      (.permissionDenied "membership change binding is incomplete")
  | .adminEnrollment => do
    require (digest proposal.change = proposal.canonicalDigest)
      (.staleConflict "governance change digest was refused")
    require (proposal.proposedRole = some .tenantAdmin ∧ proposal.proposedStatus = some .active ∧
        proposal.proposedColleagueIds = .all)
      (.permissionDenied "Admin enrollment authority was refused")

/-- `create_change_proposal`. -/
def createChangeProposal (digest : GovernanceChange → Digest)
    (findDraft : Namespace → StableId → Option ColleagueDraft) (s : TenantTables)
    (proposal : ChangeProposal) : Outcome (ChangeProposal × TenantTables) := do
  let proposer ← s.getPrincipal proposal.proposerPrincipalId
  let membership ← s.requireCurrentMembership proposer .proposeChange proposal.ns
  require (proposal.proposerRoleRevision = membership.roleRevision ∧
      proposal.proposerMembershipRevision = membership.membershipRevision ∧
      proposal.state = .pending)
    (.permissionDenied "change proposer binding was refused")
  match s.changeProposals.rows.find? fun p => decide (p.ns = proposal.ns ∧
      p.proposerPrincipalId = proposal.proposerPrincipalId ∧
      p.idempotencyKey = proposal.idempotencyKey) with
  | some stored =>
    require (sameChangeProposalRequest stored proposal)
      (.replayConflict "change proposal idempotency key was rebound")
    pure (stored, s)
  | none =>
    checkChangeTarget digest findDraft s proposal
    let changeProposals ← orFail (s.changeProposals.insert?
      { proposal with decisionId := none, consumedAt := none }) .integrity
    pure (proposal, { s with changeProposals := changeProposals })

/-- `expire_change_proposal`. The row is the one of the given revision, whatever
    else the argument says. -/
def expireChangeProposal (s : TenantTables) (proposal : ChangeProposal) (actor : Principal)
    (occurredAt : Instant) : Outcome (ChangeProposal × TenantTables) := do
  let _ ← s.requireCurrentMembership actor .decideChange proposal.ns
  require (proposal.state = .pending ∧ proposal.expiresAt ≤ occurredAt)
    (.conflict "change proposal is not expirable")
  let row ← orFail (s.changeProposals.find? (proposal.ns, proposal.proposalId))
    (.conflict "change expiry lost its atomic claim")
  require (row.revision = proposal.revision ∧ row.state = .pending)
    (.conflict "change expiry lost its atomic claim")
  let changeProposals := s.changeProposals.replace
    { row with state := .expired, revision := row.revision + 1 }
  pure ({ proposal with state := .expired, revision := proposal.revision + 1 },
    { s with changeProposals := changeProposals })

/-- `mark_change_proposal_stale`. -/
def markChangeProposalStale (s : TenantTables) (proposal : ChangeProposal) (actor : Principal) :
    Outcome (ChangeProposal × TenantTables) := do
  let _ ← s.requireCurrentMembership actor .applyChange proposal.ns
  require (s.changeProposals.find? (proposal.ns, proposal.proposalId) = some proposal)
    (.conflict "change proposal stale-state claim was refused")
  require (proposal.state = .pending ∨ proposal.state = .approved)
    (.conflict "change proposal is already terminal")
  let stale := { proposal with state := .stale, revision := proposal.revision + 1 }
  pure (stale, { s with changeProposals := s.changeProposals.replace stale })

-- ════════════════════════════════════════════════════════════════════════
-- Decisions
-- ════════════════════════════════════════════════════════════════════════

/-- `decide_change`. A decision that comes too late commits the expiry of the
    proposal and then raises. -/
def decideChange (s : TenantTables) (proposal : ChangeProposal) (decision : ChangeDecision) :
    Outcome (Outcome (ChangeProposal × ChangeDecision) × TenantTables) := do
  let current ← orFail (s.changeProposals.find? (proposal.ns, proposal.proposalId))
    (.notFound "governance change was not found")
  let approver ← s.getPrincipal decision.approverPrincipalId
  let membership ← s.requireCurrentMembership approver .decideChange proposal.ns
  require (proposal.proposerPrincipalId ≠ approver.principalId)
    (.permissionDenied "change proposer cannot approve their own change")
  match s.changeDecisions.rows.find? fun d => decide (d.ns = proposal.ns ∧
      d.approverPrincipalId = approver.principalId ∧
      d.idempotencyKey = decision.idempotencyKey) with
  | some stored =>
    require (sameChangeDecisionRequest stored decision)
      (.replayConflict "change decision idempotency key was rebound")
    pure (.ok (current, stored), s)
  | none =>
    require (current = proposal) (.staleConflict "change proposal binding is stale")
    require (decision.ns = proposal.ns ∧ decision.proposalId = proposal.proposalId ∧
        decision.proposalRevision = proposal.revision ∧
        decision.proposalDigest = proposal.canonicalDigest ∧
        decision.approverRoleRevision = membership.roleRevision ∧
        decision.approverMembershipRevision = membership.membershipRevision ∧
        proposal.issuedAt ≤ decision.occurredAt ∧ decision.validUntil ≤ proposal.expiresAt)
      (.staleConflict "exact change decision binding is stale")
    require (proposal.state = .pending)
      (.conflict "change proposal already has a terminal decision")
    if proposal.expiresAt ≤ decision.occurredAt then
      let changeProposals := s.changeProposals.replace
        { proposal with state := .expired, revision := proposal.revision + 1 }
      pure (.error (.permissionDenied "change proposal validity expired"),
        { s with changeProposals := changeProposals })
    else
      require (∀ d ∈ s.changeDecisions.rows,
        ¬(d.ns = decision.ns ∧ d.proposalId = decision.proposalId)) .integrity
      let changeDecisions ← orFail
        (s.changeDecisions.insert? { decision with consumedAt := none }) .integrity
      let decided := { proposal with
        state := if decision.choice = .approve then .approved else .rejected
        decisionId := some decision.decisionId
        revision := proposal.revision + 1 }
      pure (.ok (decided, decision),
        { s with
          changeProposals := s.changeProposals.replace decided
          changeDecisions := changeDecisions })

-- ════════════════════════════════════════════════════════════════════════
-- One-time use of an approved change
-- ════════════════════════════════════════════════════════════════════════

/-- `_validated_change_approval`. -/
def validatedChangeApproval (s : TenantTables) (proposal : ChangeProposal) (decisionId : StableId)
    (actor : Principal) (occurredAt : Instant) : Outcome ChangeDecision := do
  let _ ← s.requireCurrentMembership actor .applyChange proposal.ns
  require (proposal.state = .approved ∧ proposal.decisionId = some decisionId ∧
      occurredAt < proposal.expiresAt ∧ proposal.consumedAt = none)
    (.permissionDenied "approved change is stale or expired")
  let decision ← orFail ((s.changeDecisions.find? (proposal.ns, decisionId)).filter
      fun d => decide (d.proposalId = proposal.proposalId))
    (.permissionDenied "change decision was not found")
  require (decision.choice = .approve ∧ decision.proposalRevision + 1 = proposal.revision ∧
      decision.proposalDigest = proposal.canonicalDigest ∧ decision.consumedAt = none ∧
      occurredAt ≤ decision.validUntil)
    (.permissionDenied "approved change decision is stale or expired")
  let proposer ← s.getPrincipal proposal.proposerPrincipalId
  let proposerMembership ← s.membershipForPrincipal proposal.proposerPrincipalId
  let approver ← s.getPrincipal decision.approverPrincipalId
  let approverMembership ← s.membershipForPrincipal decision.approverPrincipalId
  require (proposer.principalId ≠ approver.principalId ∧ proposerMembership.status = .active ∧
      approverMembership.status = .active ∧
      proposer.revision = proposal.proposerRoleRevision ∧
      proposerMembership.roleRevision = proposal.proposerRoleRevision ∧
      proposerMembership.membershipRevision = proposal.proposerMembershipRevision ∧
      approver.revision = decision.approverRoleRevision ∧
      approverMembership.roleRevision = decision.approverRoleRevision ∧
      approverMembership.membershipRevision = decision.approverMembershipRevision ∧
      .tenantAdmin ∈ proposer.roles ∧ .tenantAdmin ∈ approver.roles)
    (.permissionDenied "change principal authority became stale")
  pure decision

/-- `_consume_change_rows`. -/
def consumeChangeRows (s : TenantTables) (proposal : ChangeProposal) (decision : ChangeDecision)
    (occurredAt : Instant) : Outcome TenantTables := do
  let lost : Failure := .conflict "change approval consumption lost its atomic claim"
  let p ← orFail (s.changeProposals.find? (proposal.ns, proposal.proposalId)) lost
  let d ← orFail (s.changeDecisions.find? (proposal.ns, decision.decisionId)) lost
  require (p.revision = proposal.revision ∧ p.state = .approved ∧ p.consumedAt = none) lost
  require (d.revision = decision.revision ∧ d.consumedAt = none) lost
  pure { s with
    changeProposals := s.changeProposals.replace
      { p with state := .applied, consumedAt := some occurredAt, revision := p.revision + 1 }
    changeDecisions := s.changeDecisions.replace
      { d with consumedAt := some occurredAt, revision := d.revision + 1 } }

/-- `_consume_admin_enrollment_authority`. -/
def consumeAdminEnrollmentAuthority (digest : GovernanceChange → Digest) (s : TenantTables)
    (decisionId : StableId) (role : HumanRole) (colleagueIds : ColleagueScopes)
    (actor : Principal) (occurredAt : Instant) : Outcome TenantTables := do
  let proposal ← orFail (s.changeProposals.rows.find? fun p =>
      decide (p.ns = .tenant ∧ p.decisionId = some decisionId))
    (.permissionDenied "Admin enrollment change was not found")
  require (proposal.changeKind = .adminEnrollment ∧ proposal.proposedRole = some role ∧
      proposal.proposedStatus = some .active ∧ proposal.proposedColleagueIds = colleagueIds ∧
      proposal.canonicalDigest = digest
        { changeKind := .adminEnrollment
          targetId := proposal.targetId
          targetRevision := proposal.targetRevision
          proposedRole := some role
          proposedStatus := some .active
          proposedColleagueIds := colleagueIds.sorted })
    (.permissionDenied "Admin enrollment change binding was refused")
  let decision ← s.validatedChangeApproval proposal decisionId actor occurredAt
  s.consumeChangeRows proposal decision occurredAt

/-- Whether a draft touches the mandate or the policy, as its stored diff says. -/
def authorityChanged (draft : ColleagueDraft) : Bool :=
  draft.diff.any fun item =>
    decide ((item.diffSection = .mandate ∨ item.diffSection = .policy) ∧
      item.classification ≠ .unchanged)

/-- `_authorize_draft_confirmation`. -/
def authorizeDraftConfirmation (s : TenantTables) (colleagueId : StableId)
    (draft : ColleagueDraft) (actor : Principal) (changeDecisionId : Option StableId)
    (occurredAt : Instant) : Outcome TenantTables :=
  if authorityChanged draft then do
    let decisionId ← orFail changeDecisionId
      (.permissionDenied "authority change requires a separate Admin approval")
    let proposal ← orFail (s.changeProposals.rows.find? fun p =>
        decide (p.ns = .colleague colleagueId ∧ p.decisionId = some decisionId))
      (.permissionDenied "authority change approval was refused")
    require (proposal.changeKind = .draft ∧ proposal.targetId = draft.draftId ∧
        proposal.targetRevision = draft.revision ∧
        proposal.canonicalDigest = draft.canonicalDigest ∧
        proposal.baseRevisions = draft.baseRevisions)
      (.staleConflict "authority change approval does not bind this draft")
    let decision ← s.validatedChangeApproval proposal decisionId actor occurredAt
    s.consumeChangeRows proposal decision occurredAt
  else do
    let _ ← s.requireCurrentMembership actor .applyChange (.colleague colleagueId)
    require (changeDecisionId = none)
      (.permissionDenied "Profile-only change cannot consume unrelated approval")
    pure s

-- ════════════════════════════════════════════════════════════════════════
-- Membership changes
-- ════════════════════════════════════════════════════════════════════════

/-- A principal with one new role. -/
def withRole (principal : Principal) (role : HumanRole) (revision : ℕ) : Outcome Principal :=
  if h : principal.kind = .human then
    .ok { principal with
      roles := [role]
      revision := revision
      roles_nodup := List.nodup_singleton role
      human_of_roles := fun hne => absurd h hne }
  else .error (.coreInvariant "model and service principals cannot have human roles")

/-- The record of a principal is written only for a new role. -/
def updateRole (s : TenantTables) (roleChanged : Bool) (updated : Principal) :
    Outcome TenantTables :=
  if roleChanged then s.updatePrincipal updated else .ok s

/-- The write of an approved membership change to principal and membership. -/
def writeMembershipChange (s : TenantTables) (target : Membership) (proposal : ChangeProposal)
    (role : HumanRole) (status : MembershipStatus) (decisionId : StableId)
    (occurredAt : Instant) : Outcome (Membership × TenantTables) := do
  let current ← s.getPrincipal target.principalId
  require (.tenantAdmin ∈ current.roles ∧ (role ≠ .tenantAdmin ∨ status = .revoked) →
      2 < s.adminCount)
    (.permissionDenied "membership change would break two-person governance")
  let roleChanged := decide (current.roles ≠ [role])
  let roleRevision := if roleChanged then target.roleRevision + 1 else target.roleRevision
  let updatedPrincipal ← withRole current role roleRevision
  let s ← s.updateRole roleChanged updatedPrincipal
  let updated ← Membership.make
    { target.toMembershipFields with
      roles := [role]
      colleagueIds := proposal.proposedColleagueIds
      status := status
      roleRevision := roleRevision
      membershipRevision := target.membershipRevision + 1
      updatedAt := occurredAt
      correlationId := proposal.correlationId
      causationId := decisionId
      revision := target.revision + 1 } target.issuedBy
  pure (updated, { s with memberships := s.memberships.replace updated.row })

/-- `apply_membership_change`. -/
def applyMembershipChange (digest : GovernanceChange → Digest) (s : TenantTables)
    (proposal : ChangeProposal) (decisionId : StableId) (session : AuthenticatedSession)
    (idempotencyKey : StableId) (requestDigest : Digest) (occurredAt : Instant) :
    Outcome (Membership × TenantTables) := do
  require (proposal.changeKind = .membership) (.permissionDenied "change kind was refused")
  let actor := session.principal
  let _ ← s.requireCurrentMembership actor .applyChange proposal.ns
  match s.membershipReplays.find? (actor.principalId, idempotencyKey) with
  | some replay =>
    require (replay.requestDigest = requestDigest)
      (.replayConflict "membership apply idempotency key was rebound")
    pure (replay.result, s)
  | none =>
    require (s.changeProposals.find? (proposal.ns, proposal.proposalId) = some proposal)
      (.staleConflict "membership change proposal is stale")
    let decision ← s.validatedChangeApproval proposal decisionId actor occurredAt
    let target ← s.membershipForPrincipal proposal.targetId
    let stale : Failure := .staleConflict "membership change target is stale"
    require (target.membershipRevision = proposal.targetRevision ∧
      proposal.canonicalDigest = digest
        { proposal.change with
          targetId := target.principalId
          targetRevision := target.membershipRevision }) stale
    let role ← orFail proposal.proposedRole stale
    let status ← orFail proposal.proposedStatus stale
    let (updated, s) ←
      s.writeMembershipChange target proposal role status decision.decisionId occurredAt
    let s := s.revokeSessions target.principalId occurredAt "membership_revision_changed"
    let s ← s.consumeChangeRows proposal decision occurredAt
    require ((s.sessions.find? (actor.principalId, session.sessionId)).isSome) .integrity
    let replays ← orFail (s.membershipReplays.insert?
      ⟨actor.principalId, session.sessionId, idempotencyKey, requestDigest, updated⟩) .integrity
    pure (updated, { s with membershipReplays := replays })

theorem validatedChangeApproval_eq_ok {s : TenantTables} {proposal : ChangeProposal}
    {decisionId : StableId} {actor : Principal} {occurredAt : Instant} {decision : ChangeDecision}
    (h : s.validatedChangeApproval proposal decisionId actor occurredAt = .ok decision) :
    decision.decisionId = decisionId ∧ s.ApprovedBy proposal decision := by
  simp only [validatedChangeApproval, getPrincipal, bind_eq_ok, require_eq_ok, orFail_eq_ok,
    pure_eq_ok, exists_const, Option.filter_eq_some_iff, decide_eq_true_eq] at h
  obtain ⟨_, _, ⟨happroved, hid, _, hunconsumed⟩, decision, ⟨hdecision, hproposal⟩,
    ⟨hchoice, _, _, hfresh, _⟩, proposer, hproposer, m₁, hm₁, approver, happrover, m₂, hm₂,
    ⟨hne, hactive₁, hactive₂, hrev₁, hrole₁, hmember₁, hrev₂, hrole₂, hmember₂, hadmin₁, hadmin₂⟩,
    rfl⟩ := h
  obtain ⟨row₁, hrow₁, hfields₁⟩ := membershipForPrincipal_eq_ok hm₁
  obtain ⟨row₂, hrow₂, hfields₂⟩ := membershipForPrincipal_eq_ok hm₂
  have hkey : decision.decisionId = decisionId :=
    congrArg Prod.snd (Table.key_of_find? hdecision)
  have hkey₁ : proposer.principalId = proposal.proposerPrincipalId := Table.key_of_find? hproposer
  have hkey₂ : approver.principalId = decision.approverPrincipalId := Table.key_of_find? happrover
  rw [hfields₁] at hactive₁ hrole₁ hmember₁
  rw [hfields₂] at hactive₂ hrole₂ hmember₂
  refine ⟨hkey, ?_⟩
  exact
    { approved := happroved
      unconsumed := hunconsumed
      decisionId := hkey ▸ hid
      findDecision := hkey.symm ▸ hdecision
      proposalId := hproposal
      choice := hchoice
      fresh := hfresh
      distinct := hkey₁ ▸ hkey₂ ▸ hne
      proposer := ⟨proposer, row₁, hproposer, hrow₁, hactive₁, hadmin₁, hrev₁, hrole₁, hmember₁⟩
      approver := ⟨approver, row₂, happrover, hrow₂, hactive₂, hadmin₂, hrev₂, hrole₂, hmember₂⟩ }

end TenantTables

end DigitalColleagues
