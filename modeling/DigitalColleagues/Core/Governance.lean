import Mathlib.Data.List.Sort
import DigitalColleagues.Core.Principals

/-!
# Local governance records

Memberships, credentials, change proposals and change decisions of one tenant,
and the finite authorization vocabulary.

## Main definitions

- `ColleagueScopes` — the tenant scope `*`, or exact colleagues
- `Membership` — a membership its constructor accepted
- `GovernanceCredential` — a one-time enrollment or recovery credential
- `ChangeProposal`, `ChangeDecision` — an authority change and its decision
-/

namespace DigitalColleagues

inductive AuthorizationAction
  | readSessionSecurity
  | readColleague
  | readGovernance
  | assignWork
  | submitTrigger
  | processRuntime
  | decideEffect
  | manageDraft
  | proposeChange
  | decideChange
  | applyChange
  | manageCredential
  | manageMembership
  | exportAudit
  | readAgentPackages
  | manageAgentPackages
  | readDeployments
  | manageDeployments
  | selectDeployment
  | readDeploymentAudit
deriving DecidableEq

-- ════════════════════════════════════════════════════════════════════════
-- Memberships
-- ════════════════════════════════════════════════════════════════════════

inductive MembershipStatus
  | active
  | revoked
deriving DecidableEq

/-- `colleague_ids`: `("*",)`, or identifiers of colleagues. -/
inductive ColleagueScopes
  | all
  | only (colleagueIds : List StableId)
deriving DecidableEq

/-- No colleague twice, and none at all only where that is allowed. -/
def ColleagueScopes.WellFormed (allowEmpty : Bool) : ColleagueScopes → Prop
  | .all => True
  | .only ids => (ids = [] → allowEmpty = true) ∧ ids.Nodup

instance (allowEmpty : Bool) (scopes : ColleagueScopes) :
    Decidable (scopes.WellFormed allowEmpty) := by
  cases scopes <;> unfold ColleagueScopes.WellFormed <;> infer_instance

/-- A membership without the human who issued it. -/
structure MembershipFields where
  membershipId : StableId
  principalId : StableId
  roles : List HumanRole
  colleagueIds : ColleagueScopes
  status : MembershipStatus
  roleRevision : ℕ
  membershipRevision : ℕ
  createdAt : Instant
  updatedAt : Instant
  correlationId : StableId
  causationId : StableId
  revision : ℕ
deriving DecidableEq

namespace MembershipFields

/-- The checks of the constructor, in its order. -/
def validate (f : MembershipFields) : Outcome Unit := do
  require (f.roles ≠ [] ∧ f.roles.Nodup)
    (.coreInvariant "membership roles must be non-empty and unique")
  match f.colleagueIds with
  | .all =>
    require (.tenantAdmin ∈ f.roles)
      (.authorization "only an Admin may have the tenant governance scope")
  | .only ids =>
    require (ids ≠ [] ∧ ids.Nodup)
      (.coreInvariant "membership colleague scopes must be non-empty and unique")
  require (0 < f.roleRevision) (.coreInvariant "role_revision must be a positive integer")
  require (0 < f.membershipRevision)
    (.coreInvariant "membership_revision must be a positive integer")
  require (f.createdAt ≤ f.updatedAt)
    (.coreInvariant "membership update cannot precede creation")
  require (0 < f.revision) (.coreInvariant "revision must be a positive integer")

/-- `allows_namespace`. -/
def allowsNamespace (f : MembershipFields) (ns : Namespace) : Bool :=
  match f.status with
  | .revoked => false
  | .active =>
    match ns with
    | .tenant => decide (f.colleagueIds = .all)
    | .principal scopeId => decide (scopeId = f.principalId)
    | .colleague scopeId =>
      match f.colleagueIds with
      | .all => true
      | .only ids => decide (scopeId ∈ ids)

theorem active_of_allowsNamespace {f : MembershipFields} {ns : Namespace}
    (h : f.allowsNamespace ns = true) : f.status = .active := by
  unfold allowsNamespace at h
  split at h
  · exact absurd h (by simp)
  · assumption

end MembershipFields

/-- A durable membership row; it names its issuer. -/
structure MembershipRow extends MembershipFields where
  issuedByPrincipalId : StableId
deriving DecidableEq

/-- A membership its constructor accepted, with the human who issued it. -/
structure Membership extends MembershipFields where
  issuedBy : Principal
  valid : toMembershipFields.validate = .ok ()
  issued_by_human : issuedBy.kind = .human

namespace Membership

instance : DecidableEq Membership := fun a b =>
  decidable_of_iff (a.toMembershipFields = b.toMembershipFields ∧ a.issuedBy = b.issuedBy) <| by
    cases a
    cases b
    simp

def make (fields : MembershipFields) (issuedBy : Principal) : Outcome Membership :=
  match h : fields.validate with
  | .error e => .error e
  | .ok () =>
    if hissued : issuedBy.kind = .human then .ok ⟨fields, issuedBy, h, hissued⟩
    else .error (.authorization "membership issuer must be a durable human")

theorem make_eq_ok {fields : MembershipFields} {issuedBy : Principal} {m : Membership}
    (h : make fields issuedBy = .ok m) :
    m.toMembershipFields = fields ∧ m.issuedBy = issuedBy := by
  unfold make at h
  split at h
  · exact absurd h (by simp)
  · split at h
    · obtain rfl := Except.ok.inj h
      exact ⟨rfl, rfl⟩
    · exact absurd h (by simp)

/-- The row `_insert_membership` writes. -/
def row (m : Membership) : MembershipRow := ⟨m.toMembershipFields, m.issuedBy.principalId⟩

end Membership

-- ════════════════════════════════════════════════════════════════════════
-- Credentials
-- ════════════════════════════════════════════════════════════════════════

/-- What a credential is for: enrollment fixes a role, recovery a principal with
    its authority revisions. The bootstrap transition may create only an Admin. -/
inductive CredentialKind
  | enrollment (targetRole : HumanRole) (bootstrapTransition : Bool)
      (changeDecisionId : Option StableId)
  | recovery (targetPrincipalId : StableId) (targetRoleRevision targetMembershipRevision : ℕ)
deriving DecidableEq

inductive CredentialState
  | authorized
  | retrieved
  | consumed
  | revoked
  | expired
deriving DecidableEq

structure GovernanceCredential where
  credentialId : StableId
  kind : CredentialKind
  state : CredentialState
  colleagueIds : ColleagueScopes
  issuedByPrincipalId : StableId
  issuedAt : Instant
  expiresAt : Instant
  correlationId : StableId
  causationId : StableId
  tokenDigest : Option Digest
  retrievedAt : Option Instant
  consumedAt : Option Instant
  revokedAt : Option Instant
  consumedPrincipalId : Option StableId
  revision : ℕ
  expires : issuedAt < expiresAt := by decide
  scopes : colleagueIds.WellFormed false := by decide
deriving DecidableEq

-- ════════════════════════════════════════════════════════════════════════
-- Change proposals and decisions
-- ════════════════════════════════════════════════════════════════════════

inductive ChangeKind
  | draft
  | membership
  | adminEnrollment
deriving DecidableEq

inductive ChangeState
  | pending
  | approved
  | rejected
  | expired
  | stale
  | applied
deriving DecidableEq

inductive ChangeChoice
  | approve
  | reject
deriving DecidableEq

/-- The revisions of profile, mandate and policy that a draft starts from; a
    missing policy has revision zero. -/
structure BaseRevisions where
  profile : ℕ
  mandate : ℕ
  policy : ℕ
deriving DecidableEq

/-- The payload of `governance_change_digest`; exact colleagues are sorted. -/
structure GovernanceChange where
  changeKind : ChangeKind
  targetId : StableId
  targetRevision : ℕ
  proposedRole : Option HumanRole
  proposedStatus : Option MembershipStatus
  proposedColleagueIds : ColleagueScopes
deriving DecidableEq

/-- `sorted(proposed_colleague_ids)`. -/
def ColleagueScopes.sorted : ColleagueScopes → ColleagueScopes
  | .all => .all
  | .only ids => .only (ids.insertionSort fun a b => a.val ≤ b.val)

structure ChangeProposal where
  ns : Namespace
  proposalId : StableId
  changeKind : ChangeKind
  targetId : StableId
  targetRevision : ℕ
  canonicalDigest : Digest
  baseRevisions : BaseRevisions
  proposedRole : Option HumanRole
  proposedStatus : Option MembershipStatus
  proposedColleagueIds : ColleagueScopes
  proposerPrincipalId : StableId
  proposerRoleRevision : ℕ
  proposerMembershipRevision : ℕ
  issuedAt : Instant
  expiresAt : Instant
  state : ChangeState
  idempotencyKey : StableId
  requestDigest : Digest
  correlationId : StableId
  causationId : StableId
  decisionId : Option StableId
  consumedAt : Option Instant
  revision : ℕ
  ns_of_kind : if changeKind = .draft then ns.isColleague = true else ns = .tenant := by decide
  scopes : proposedColleagueIds.WellFormed (decide (changeKind = .draft)) := by decide
  expires : issuedAt < expiresAt := by decide
deriving DecidableEq

/-- The change a proposal asks for, under the target revision it was made for. -/
def ChangeProposal.change (p : ChangeProposal) : GovernanceChange where
  changeKind := p.changeKind
  targetId := p.targetId
  targetRevision := p.targetRevision
  proposedRole := p.proposedRole
  proposedStatus := p.proposedStatus
  proposedColleagueIds := p.proposedColleagueIds.sorted

structure ChangeDecision where
  ns : Namespace
  decisionId : StableId
  proposalId : StableId
  proposalRevision : ℕ
  proposalDigest : Digest
  choice : ChangeChoice
  approverPrincipalId : StableId
  approverRoleRevision : ℕ
  approverMembershipRevision : ℕ
  occurredAt : Instant
  validUntil : Instant
  idempotencyKey : StableId
  requestDigest : Digest
  correlationId : StableId
  consumedAt : Option Instant
  revision : ℕ
  valid : occurredAt ≤ validUntil := by decide
deriving DecidableEq

/-- A change decision cites its proposal. -/
def ChangeDecision.causationId (d : ChangeDecision) : StableId := d.proposalId

end DigitalColleagues
