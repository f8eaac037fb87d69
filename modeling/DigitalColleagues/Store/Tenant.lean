import DigitalColleagues.Governance.Rbac
import DigitalColleagues.Store.Records

/-!
# The governance tables of one tenant

Principals, memberships, credentials, changes and sessions, and the check of the
current membership that every governed transaction starts with. A lookup that
the database makes across tenants can only refuse more than this one does.

## Main definitions

- `AuthorityTables` — who may do what, and through which records
- `TenantTables` — the tables
- `TenantTables.requireCurrentMembership` — the authority of an actor right now
-/

namespace DigitalColleagues

-- ════════════════════════════════════════════════════════════════════════
-- Rows
-- ════════════════════════════════════════════════════════════════════════

/-- The bootstrap credential of the first Admin. -/
structure BootstrapRecord where
  credentialId : StableId
  tokenDigest : Digest
  issuedAt : Instant
  expiresAt : Instant
  retrievedAt : Option Instant
  consumedAt : Option Instant
  revision : ℕ
  expires : issuedAt < expiresAt := by decide

instance instDecidableEqBootstrapRecord : DecidableEq BootstrapRecord := fun a b =>
  decidable_of_iff (a.credentialId = b.credentialId ∧ a.tokenDigest = b.tokenDigest ∧
    a.issuedAt = b.issuedAt ∧ a.expiresAt = b.expiresAt ∧ a.retrievedAt = b.retrievedAt ∧
    a.consumedAt = b.consumedAt ∧ a.revision = b.revision) (by cases a; cases b; simp)

inductive TransitionState
  | available
  | consumed
deriving DecidableEq

/-- The one row `transition:second-admin`. -/
structure BootstrapTransition where
  state : TransitionState
  activeCredentialId : Option StableId
  consumedPrincipalId : Option StableId
  createdByPrincipalId : StableId
  revision : ℕ
deriving DecidableEq

/-- What a session and its row share. -/
structure SessionFields where
  sessionId : StableId
  credentialDigest : Digest
  csrfDigest : Digest
  activeColleagueId : Option StableId
  createdAt : Instant
  expiresAt : Instant
  revision : ℕ
  roleRevision : ℕ
  membershipRevision : ℕ
deriving DecidableEq

structure AuthenticatedSession extends SessionFields where
  principal : Principal
deriving DecidableEq

structure SessionRow extends SessionFields where
  principalId : StableId
  revokedAt : Option Instant
  revokedReason : Option String
deriving DecidableEq

/-- A row of the replay ledger of one action. -/
structure MutationReplay (α : Type) where
  principalId : StableId
  sessionId : StableId
  idempotencyKey : StableId
  requestDigest : Digest
  result : α

instance : Keyed MembershipRow StableId := ⟨fun r => r.principalId⟩

instance : Keyed BootstrapRecord StableId := ⟨BootstrapRecord.credentialId⟩

instance : Keyed GovernanceCredential StableId := ⟨GovernanceCredential.credentialId⟩

instance : Keyed ChangeProposal (Namespace × StableId) := ⟨fun p => (p.ns, p.proposalId)⟩

instance : Keyed ChangeDecision (Namespace × StableId) := ⟨fun d => (d.ns, d.decisionId)⟩

instance : Keyed SessionRow (StableId × StableId) := ⟨fun r => (r.principalId, r.sessionId)⟩

instance (α : Type) : Keyed (MutationReplay α) (StableId × StableId) :=
  ⟨fun r => (r.principalId, r.idempotencyKey)⟩

/-- The tables that say who may do what: principals and memberships, and the
    credentials and changes through which they arise. -/
structure AuthorityTables where
  principals : Table Principal
  memberships : Table MembershipRow
  bootstrapTransition : Option BootstrapTransition
  credentials : Table GovernanceCredential
  changeProposals : Table ChangeProposal
  changeDecisions : Table ChangeDecision

/-- The tables of one tenant. -/
structure TenantTables extends AuthorityTables where
  principalAudits : Table (AuditRecord Principal)
  bootstrapCredentials : Table BootstrapRecord
  sessions : Table SessionRow
  membershipReplays : Table (MutationReplay Membership)
  revocationReplays : Table (MutationReplay GovernanceCredential)

namespace AuthorityTables

def empty : AuthorityTables := ⟨.empty, .empty, none, .empty, .empty, .empty⟩

/-- `admin_count`: the active rows whose roles are exactly Tenant Admin. -/
def adminCount (s : AuthorityTables) : ℕ :=
  s.memberships.sum fun row =>
    if row.status = .active ∧ row.roles = [.tenantAdmin] then 1 else 0

/-- What a current membership is: the durable row of a durable human, active,
    with the roles of the principal and in the scope of the namespace. -/
structure Authorized (s : AuthorityTables) (actor : Principal) (action : AuthorizationAction)
    (ns : Namespace) (fields : MembershipFields) : Prop where
  principal : s.principals.find? actor.principalId = some actor
  row : ∃ row, s.memberships.find? actor.principalId = some row ∧ row.toMembershipFields = fields
  human : actor.kind = .human
  active : fields.status = .active
  roles : fields.roles = actor.roles
  roleRevision : fields.roleRevision = actor.revision
  allowsNamespace : fields.allowsNamespace ns = true
  allowsAction : ∃ role ∈ fields.roles, roleAllows role action = true

end AuthorityTables

namespace TenantTables

def empty : TenantTables := ⟨.empty, .empty, .empty, .empty, .empty, .empty⟩

-- ════════════════════════════════════════════════════════════════════════
-- Principals
-- ════════════════════════════════════════════════════════════════════════

def getPrincipal (s : TenantTables) (principalId : StableId) : Outcome Principal :=
  orFail (s.principals.find? principalId) (.notFound "namespaced durable record was not found")

/-- `_insert_record` for a principal, with the audit row of its revision. -/
def insertPrincipal (s : TenantTables) (principal : Principal) : Outcome TenantTables := do
  let principals ← orFail (s.principals.insert? principal) Records.identityConflict
  let audits ← orFail (s.principalAudits.insert? (auditRecord principal)) Records.identityConflict
  pure { s with principals := principals, principalAudits := audits }

/-- The update of a principal's record in place, with the audit row of its revision. -/
def updatePrincipal (s : TenantTables) (principal : Principal) : Outcome TenantTables := do
  let audits ← orFail (s.principalAudits.insert? (auditRecord principal)) .integrity
  pure { s with principals := s.principals.replace principal, principalAudits := audits }

theorem insertPrincipal_eq_ok {s s' : TenantTables} {principal : Principal}
    (h : s.insertPrincipal principal = .ok s') :
    ∃ principals audits, s.principals.insert? principal = some principals ∧
      s' = { s with principals := principals, principalAudits := audits } := by
  simp only [insertPrincipal, bind_eq_ok, orFail_eq_ok, pure_eq_ok] at h
  obtain ⟨principals, hprincipals, audits, _, rfl⟩ := h
  exact ⟨principals, audits, hprincipals, rfl⟩

theorem updatePrincipal_eq_ok {s s' : TenantTables} {principal : Principal}
    (h : s.updatePrincipal principal = .ok s') :
    ∃ audits, s' = { s with
      principals := s.principals.replace principal, principalAudits := audits } := by
  simp only [updatePrincipal, bind_eq_ok, orFail_eq_ok, pure_eq_ok] at h
  obtain ⟨audits, _, rfl⟩ := h
  exact ⟨audits, rfl⟩

-- ════════════════════════════════════════════════════════════════════════
-- Memberships
-- ════════════════════════════════════════════════════════════════════════

/-- `_membership_row`. -/
def membershipRow (s : TenantTables) (principalId : StableId) : Outcome MembershipRow :=
  orFail (s.memberships.find? principalId)
    (.permissionDenied "governance authority was refused")

/-- `_membership_from_row`: the membership with the current record of its issuer. -/
def membershipFromRow (s : TenantTables) (row : MembershipRow) : Outcome Membership := do
  let issuedBy ← s.getPrincipal row.issuedByPrincipalId
  Membership.make row.toMembershipFields issuedBy

def membershipForPrincipal (s : TenantTables) (principalId : StableId) : Outcome Membership := do
  let row ← s.membershipRow principalId
  s.membershipFromRow row

theorem membershipForPrincipal_eq_ok {s : TenantTables} {principalId : StableId} {m : Membership}
    (h : s.membershipForPrincipal principalId = .ok m) :
    ∃ row, s.memberships.find? principalId = some row ∧
      m.toMembershipFields = row.toMembershipFields := by
  simp only [membershipForPrincipal, membershipRow, membershipFromRow, bind_eq_ok,
    orFail_eq_ok] at h
  obtain ⟨row, hrow, issuedBy, _, hm⟩ := h
  exact ⟨row, hrow, (Membership.make_eq_ok hm).1⟩

/-- A principal is looked up by its own identifier. -/
theorem find?_of_getPrincipal {s : TenantTables} {principalId : StableId} {p : Principal}
    (h : s.getPrincipal principalId = .ok p) : s.principals.find? p.principalId = some p :=
  Table.find?_of_mem (Table.mem_of_find? (orFail_eq_ok.mp h))

theorem issuer_of_membershipForPrincipal {s : TenantTables} {principalId : StableId}
    {m : Membership} (h : s.membershipForPrincipal principalId = .ok m) :
    s.principals.find? m.issuedBy.principalId = some m.issuedBy := by
  simp only [membershipForPrincipal, membershipFromRow, bind_eq_ok] at h
  obtain ⟨row, _, issuedBy, hissuer, hm⟩ := h
  rw [(Membership.make_eq_ok hm).2]
  exact find?_of_getPrincipal hissuer

/-- `_require_current_membership`. -/
def requireCurrentMembership (s : TenantTables) (actor : Principal)
    (action : AuthorizationAction) (ns : Namespace) : Outcome Membership := do
  let current ← s.getPrincipal actor.principalId
  let membership ← s.membershipForPrincipal actor.principalId
  require (current = actor) (.permissionDenied "governance principal binding was refused")
  match authorizeAction current membership.toMembershipFields action ns with
  | .ok () => pure membership
  | .error _ => .error (.permissionDenied "governance authority was refused")

theorem requireCurrentMembership_eq_ok {s : TenantTables} {actor : Principal}
    {action : AuthorizationAction} {ns : Namespace} {m : Membership}
    (h : s.requireCurrentMembership actor action ns = .ok m) :
    s.Authorized actor action ns m.toMembershipFields := by
  simp only [requireCurrentMembership, getPrincipal, bind_eq_ok, orFail_eq_ok, require_eq_ok,
    exists_const] at h
  obtain ⟨current, hcurrent, membership, hmembership, rfl, h⟩ := h
  obtain ⟨row, hrow, hfields⟩ := membershipForPrincipal_eq_ok hmembership
  split at h
  · rename_i hauthorized
    obtain rfl := pure_eq_ok.mp h
    obtain ⟨hhuman, _, hactive, ⟨hroles, hrevision⟩, hns, haction⟩ :=
      authorizeAction_eq_ok.mp hauthorized
    exact ⟨hcurrent, ⟨row, hrow, hfields.symm⟩, hhuman, hactive, hroles, hrevision, hns, haction⟩
  · exact absurd h (by simp)

-- ════════════════════════════════════════════════════════════════════════
-- Sessions
-- ════════════════════════════════════════════════════════════════════════

/-- `_insert_governed_session`. -/
def insertGovernedSession (s : TenantTables) (session : AuthenticatedSession) :
    Outcome TenantTables := do
  require (∀ row ∈ s.sessions.rows, row.credentialDigest ≠ session.credentialDigest) .integrity
  let sessions ← orFail (s.sessions.insert?
    ⟨session.toSessionFields, session.principal.principalId, none, none⟩) .integrity
  pure { s with sessions := sessions }

/-- Every open session of a principal is closed. -/
def revokeSessions (s : TenantTables) (principalId : StableId) (occurredAt : Instant)
    (reason : String) : TenantTables :=
  { s with sessions := s.sessions.update (fun row =>
      if row.principalId = principalId ∧ row.revokedAt = none then
        { row with
          revokedAt := some occurredAt
          revokedReason := some reason
          revision := row.revision + 1 }
      else row) (fun row => by dsimp only [Keyed.key]; split <;> rfl) }

/-- `_session_from_row`. -/
def sessionFromRow (s : TenantTables) (row : SessionRow) : Outcome AuthenticatedSession := do
  let principal ← s.getPrincipal row.principalId
  pure ⟨row.toSessionFields, principal⟩

theorem insertGovernedSession_eq_ok {s s' : TenantTables} {session : AuthenticatedSession}
    (h : s.insertGovernedSession session = .ok s') :
    ∃ sessions, s' = { s with sessions := sessions } := by
  simp only [insertGovernedSession, bind_eq_ok, require_eq_ok, orFail_eq_ok, pure_eq_ok,
    exists_const] at h
  obtain ⟨_, sessions, _, rfl⟩ := h
  exact ⟨sessions, rfl⟩

end TenantTables

end DigitalColleagues
