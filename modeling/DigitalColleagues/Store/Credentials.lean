import DigitalColleagues.Store.Changes

/-!
# One-time credentials

The bootstrap of the first Admin, the second-Admin transition, and enrollment
and recovery credentials from their authorization to their single use.
-/

namespace DigitalColleagues

/-- `str.removeprefix`. -/
def removePrefix (pre s : String) : String :=
  if pre.toList.isPrefixOf s.toList then String.ofList (s.toList.drop pre.length) else s

/-- `_same_enrollment_authorization`. -/
def sameEnrollmentAuthorization (stored requested : GovernanceCredential) : Prop :=
  stored.credentialId = requested.credentialId ∧ stored.kind = requested.kind ∧
    stored.colleagueIds = requested.colleagueIds ∧
    stored.issuedByPrincipalId = requested.issuedByPrincipalId

instance (stored requested : GovernanceCredential) :
    Decidable (sameEnrollmentAuthorization stored requested) :=
  inferInstanceAs (Decidable (_ ∧ _))

/-- `_same_recovery_authorization`: the target, but not its revisions. -/
def sameRecoveryAuthorization (stored requested : GovernanceCredential) : Prop :=
  stored.credentialId = requested.credentialId ∧
    (match stored.kind, requested.kind with
      | .recovery target _ _, .recovery target' _ _ => target = target'
      | _, _ => False) ∧
    stored.issuedByPrincipalId = requested.issuedByPrincipalId

instance (stored requested : GovernanceCredential) :
    Decidable (sameRecoveryAuthorization stored requested) := by
  unfold sameRecoveryAuthorization
  split <;> infer_instance

/-- What a credential is good for, apart from its data. -/
inductive CredentialPurpose
  | enrollment
  | recovery
deriving DecidableEq

def CredentialKind.purpose : CredentialKind → CredentialPurpose
  | .enrollment .. => .enrollment
  | .recovery .. => .recovery

def CredentialKind.isBootstrap : CredentialKind → Bool
  | .enrollment _ bootstrapTransition _ => bootstrapTransition
  | .recovery .. => false

namespace TenantTables

-- ════════════════════════════════════════════════════════════════════════
-- The first Admin
-- ════════════════════════════════════════════════════════════════════════

def bootstrapInitial : StableId := stableId "bootstrap-initial"

/-- `create_bootstrap`. -/
def createBootstrap (s : TenantTables) (record : BootstrapRecord) :
    Outcome (Bool × TenantTables) :=
  match s.bootstrapCredentials.find? bootstrapInitial with
  | some _ => .ok (false, s)
  | none => do
    require (∀ b ∈ s.bootstrapCredentials.rows, b.tokenDigest ≠ record.tokenDigest) .integrity
    let bootstrapCredentials ← orFail (s.bootstrapCredentials.insert?
      { record with retrievedAt := none, consumedAt := none }) .integrity
    pure (true, { s with bootstrapCredentials := bootstrapCredentials })

/-- The bootstrap credential of a token. -/
def bootstrapOfToken (s : TenantTables) (tokenDigest : Digest) : Option BootstrapRecord :=
  s.bootstrapCredentials.rows.find? fun b => decide (b.tokenDigest = tokenDigest)

/-- `claim_bootstrap_retrieval`. -/
def claimBootstrapRetrieval (s : TenantTables) (tokenDigest : Digest) (occurredAt : Instant) :
    Outcome TenantTables := do
  let record ← orFail (s.bootstrapOfToken tokenDigest)
    (.permissionDenied "bootstrap retrieval was refused")
  require (record.retrievedAt = none ∧ record.consumedAt = none)
    (.conflict "bootstrap token has already been retrieved")
  require (occurredAt < record.expiresAt) (.permissionDenied "bootstrap token has expired")
  let bootstrapCredentials := s.bootstrapCredentials.replace
    { record with retrievedAt := some occurredAt, revision := record.revision + 1 }
  pure { s with bootstrapCredentials := bootstrapCredentials }

def correlationBootstrap : StableId := stableId "correlation:bootstrap"

/-- `consume_bootstrap`. -/
def consumeBootstrap (s : TenantTables) (tokenDigest : Digest) (principal : Principal)
    (session : AuthenticatedSession) (occurredAt : Instant) :
    Outcome (AuthenticatedSession × TenantTables) := do
  require (principal.kind = .human ∧ principal.roles = [.tenantAdmin])
    (.permissionDenied "bootstrap may create only the first tenant Admin")
  require (session.principal = principal)
    (.permissionDenied "bootstrap authority binding was refused")
  let governed := { session with roleRevision := 1, membershipRevision := 1 }
  let bootstrap ← orFail (s.bootstrapOfToken tokenDigest)
    (.permissionDenied "bootstrap exchange was refused")
  require (bootstrap.retrievedAt.isSome ∧ occurredAt < bootstrap.expiresAt)
    (.permissionDenied "bootstrap exchange was refused")
  require (bootstrap.consumedAt = none) (.conflict "bootstrap exchange replay was refused")
  require (∀ p ∈ s.principals.rows, p.kind ≠ .human)
    (.conflict "the first durable human principal already exists")
  let s ← s.insertPrincipal principal
  let membershipId ← requireStableId
    ("membership:" ++ removePrefix "human:" principal.principalId.val) "membership_id"
  let membership ← Membership.make
    { membershipId := membershipId
      principalId := principal.principalId
      roles := principal.roles
      colleagueIds := .all
      status := .active
      roleRevision := 1
      membershipRevision := 1
      createdAt := occurredAt
      updatedAt := occurredAt
      correlationId := correlationBootstrap
      causationId := bootstrap.credentialId
      revision := 1 } principal
  let memberships ← orFail (s.memberships.insert? membership.row) .integrity
  require (s.bootstrapTransition = none) .integrity
  let s ← { s with
    memberships := memberships
    bootstrapTransition := some ⟨.available, none, none, principal.principalId, 1⟩
    bootstrapCredentials := s.bootstrapCredentials.replace
      { bootstrap with consumedAt := some occurredAt, revision := bootstrap.revision + 1 }
      }.insertGovernedSession { governed with activeColleagueId := none, revision := 1 }
  pure (governed, s)

-- ════════════════════════════════════════════════════════════════════════
-- Authorization
-- ════════════════════════════════════════════════════════════════════════

/-- A new credential. The table refuses the states that need more than a new row
    has: a token, a time of use or a time of revocation. -/
def insertCredential (s : TenantTables) (credential : GovernanceCredential) :
    Outcome TenantTables := do
  require (credential.state = .authorized ∨ credential.state = .expired) .integrity
  let credentials ← orFail (s.credentials.insert?
    { credential with
      tokenDigest := none
      retrievedAt := none
      consumedAt := none
      revokedAt := none
      consumedPrincipalId := none }) .integrity
  pure { s with credentials := credentials }

/-- The bootstrap transition opened for one more credential. -/
def openBootstrapTransition (s : TenantTables) (credential : GovernanceCredential)
    (targetRole : HumanRole) : Outcome TenantTables := do
  let refused : Failure := .permissionDenied "second-Admin bootstrap transition was refused"
  let transition ← orFail s.bootstrapTransition refused
  require (transition.state = .available ∧ s.adminCount = 1 ∧
      (∀ c ∈ s.credentials.rows, c.kind.isBootstrap = true →
        ¬(c.state = .authorized ∨ c.state = .retrieved)) ∧
      targetRole = .tenantAdmin ∧ credential.colleagueIds = .all) refused
  pure { s with bootstrapTransition := some { transition with
    activeCredentialId := some credential.credentialId
    revision := transition.revision + 1 } }

/-- The authority behind a new enrollment credential. -/
def authorizeIssuance (digest : GovernanceChange → Digest) (s : TenantTables)
    (credential : GovernanceCredential) (targetRole : HumanRole) (bootstrapTransition : Bool)
    (changeDecisionId : Option StableId) (issuer : Principal) : Outcome TenantTables :=
  if bootstrapTransition then s.openBootstrapTransition credential targetRole
  else if targetRole = .tenantAdmin then do
    let decisionId ← orFail changeDecisionId
      (.permissionDenied "Admin enrollment requires exact change approval")
    s.consumeAdminEnrollmentAuthority digest decisionId targetRole credential.colleagueIds issuer
      credential.issuedAt
  else .ok s

/-- `authorize_enrollment`. -/
def authorizeEnrollment (digest : GovernanceChange → Digest) (s : TenantTables)
    (credential : GovernanceCredential) (issuerMembership : Membership) :
    Outcome (GovernanceCredential × TenantTables) :=
  match credential.kind with
  | .recovery .. => .error (.permissionDenied "credential purpose was refused")
  | .enrollment targetRole bootstrapTransition changeDecisionId => do
    let issuer ← s.getPrincipal credential.issuedByPrincipalId
    let current ← s.requireCurrentMembership issuer .manageCredential .tenant
    require (current = issuerMembership)
      (.permissionDenied "credential issuer binding was refused")
    match s.credentials.find? credential.credentialId with
    | some stored =>
      require (sameEnrollmentAuthorization stored credential)
        (.replayConflict "enrollment idempotency key was rebound")
      pure (stored, s)
    | none =>
      let s ← s.authorizeIssuance digest credential targetRole bootstrapTransition
        changeDecisionId issuer
      let s ← s.insertCredential credential
      pure (credential, s)

/-- `authorize_recovery`. -/
def authorizeRecovery (s : TenantTables) (credential : GovernanceCredential)
    (issuerMembership : Membership) : Outcome (GovernanceCredential × TenantTables) :=
  match credential.kind with
  | .enrollment .. => .error (.permissionDenied "credential purpose was refused")
  | .recovery targetPrincipalId targetRoleRevision targetMembershipRevision => do
    let issuer ← s.getPrincipal credential.issuedByPrincipalId
    let current ← s.requireCurrentMembership issuer .manageCredential .tenant
    require (current = issuerMembership)
      (.permissionDenied "credential issuer binding was refused")
    let target ← s.membershipForPrincipal targetPrincipalId
    require (target.status = .active) (.permissionDenied "recovery target was refused")
    require (target.colleagueIds = credential.colleagueIds ∧
        target.roleRevision = targetRoleRevision ∧
        target.membershipRevision = targetMembershipRevision)
      (.permissionDenied "recovery authority was rebound")
    match s.insertCredential credential with
    | .ok s => pure (credential, s)
    | .error _ =>
      let rebound : Failure := .replayConflict "recovery idempotency key was rebound"
      let stored ← orFail (s.credentials.find? credential.credentialId) rebound
      require (sameRecoveryAuthorization stored credential) rebound
      pure (stored, s)

-- ════════════════════════════════════════════════════════════════════════
-- Retrieval, expiry and revocation
-- ════════════════════════════════════════════════════════════════════════

/-- `claim_credential_secret`. A credential that is past its expiry is marked expired. -/
def claimCredentialSecret (s : TenantTables) (credentialId : StableId) (tokenDigest : Digest)
    (occurredAt : Instant) : Outcome (GovernanceCredential × TenantTables) := do
  let credential ← orFail (s.credentials.find? credentialId)
    (.permissionDenied "credential retrieval was refused")
  let _ ← s.getPrincipal credential.issuedByPrincipalId
  require (credential.state = .authorized) (.conflict "credential retrieval was refused")
  if credential.expiresAt ≤ occurredAt then
    let expired := { credential with state := .expired, revision := credential.revision + 1 }
    pure (expired, { s with credentials := s.credentials.replace expired })
  else
    require (credential.tokenDigest = none)
      (.conflict "credential retrieval lost its atomic claim")
    require (∀ c ∈ s.credentials.rows, c.tokenDigest ≠ some tokenDigest) .integrity
    let retrieved := { credential with
      state := .retrieved
      tokenDigest := some tokenDigest
      retrievedAt := some occurredAt
      revision := credential.revision + 1 }
    pure (retrieved, { s with credentials := s.credentials.replace retrieved })

/-- `expire_credential`. -/
def expireCredential (s : TenantTables) (credential : GovernanceCredential)
    (occurredAt : Instant) : Outcome (GovernanceCredential × TenantTables) := do
  require (s.credentials.find? credential.credentialId = some credential)
    (.permissionDenied "credential expiry binding was refused")
  require (credential.state = .retrieved ∧ credential.expiresAt ≤ occurredAt)
    (.permissionDenied "credential expiry was refused")
  let expired := { credential with
    state := .expired
    tokenDigest := none
    revision := credential.revision + 1 }
  let _ ← s.getPrincipal credential.issuedByPrincipalId
  pure (expired, { s with credentials := s.credentials.replace expired })

/-- `revoke_credential`. -/
def revokeCredential (s : TenantTables) (session : AuthenticatedSession) (credentialId : StableId)
    (idempotencyKey : StableId) (requestDigest : Digest) (occurredAt : Instant) :
    Outcome (GovernanceCredential × TenantTables) := do
  let actor := session.principal
  let membership ← s.requireCurrentMembership actor .manageCredential .tenant
  match s.revocationReplays.find? (actor.principalId, idempotencyKey) with
  | some replay =>
    require (replay.requestDigest = requestDigest)
      (.replayConflict "credential revoke idempotency key was rebound")
    pure (replay.result, s)
  | none =>
    let refused : Failure := .permissionDenied "credential revoke session binding was refused"
    let sessionRow ← orFail ((s.sessions.find? (actor.principalId, session.sessionId)).filter
      fun row => decide (row.revokedAt = none)) refused
    let current ← s.sessionFromRow sessionRow
    require (current = session ∧ session.roleRevision = membership.roleRevision ∧
      session.membershipRevision = membership.membershipRevision) refused
    let credential ← orFail (s.credentials.find? credentialId)
      (.notFound "governance credential was not found")
    require (credential.state = .authorized ∨ credential.state = .retrieved)
      (.conflict "credential cannot be revoked")
    let revoked := { credential with
      state := .revoked
      tokenDigest := none
      revokedAt := some occurredAt
      revision := credential.revision + 1 }
    let replays ← orFail (s.revocationReplays.insert?
      ⟨actor.principalId, session.sessionId, idempotencyKey, requestDigest, revoked⟩) .integrity
    pure (revoked, { s with
      credentials := s.credentials.replace revoked
      revocationReplays := replays })

-- ════════════════════════════════════════════════════════════════════════
-- Consumption
-- ════════════════════════════════════════════════════════════════════════

/-- The credential of a token, for one purpose. -/
def credentialOfToken (s : TenantTables) (tokenDigest : Digest) (purpose : CredentialPurpose) :
    Option GovernanceCredential :=
  s.credentials.rows.find? fun c =>
    decide (c.tokenDigest = some tokenDigest ∧ c.kind.purpose = purpose)

/-- The single use of a credential by a principal. -/
def consumedBy (credential : GovernanceCredential) (principalId : StableId)
    (occurredAt : Instant) : GovernanceCredential :=
  { credential with
    state := .consumed
    consumedAt := some occurredAt
    consumedPrincipalId := some principalId
    revision := credential.revision + 1 }

/-- What the second-Admin transition must be when its credential is used. -/
def requireBootstrapTransition (s : TenantTables) (bootstrapTransition : Bool)
    (credentialId : StableId) : Outcome Unit :=
  if bootstrapTransition then do
    let refused : Failure := .permissionDenied "second-Admin transition was refused"
    let transition ← orFail s.bootstrapTransition refused
    require (transition.state = .available ∧
      transition.activeCredentialId = some credentialId ∧ s.adminCount = 1) refused
  else .ok ()

/-- The second-Admin transition after its use. -/
def closeTransition (transition : BootstrapTransition) (principalId : StableId) :
    BootstrapTransition :=
  { transition with
    state := .consumed
    consumedPrincipalId := some principalId
    revision := transition.revision + 1 }

/-- `consume_enrollment`. -/
def consumeEnrollment (s : TenantTables) (tokenDigest : Digest) (principal : Principal)
    (membership : Membership) (session : AuthenticatedSession) (occurredAt : Instant) :
    Outcome (GovernanceCredential × TenantTables) := do
  require (principal.kind = .human ∧ session.principal = principal)
    (.permissionDenied "enrollment principal binding was refused")
  require (principal.principalId = membership.principalId)
    (.namespaceMismatch "namespace mismatch")
  let credential ← orFail (s.credentialOfToken tokenDigest .enrollment)
    (.permissionDenied "enrollment exchange was refused")
  match credential.kind with
  | .recovery .. => .error (.permissionDenied "enrollment exchange was refused")
  | .enrollment targetRole bootstrapTransition _ => do
    require (credential.state = .retrieved ∧ credential.retrievedAt.isSome ∧
        occurredAt < credential.expiresAt ∧ principal.roles = [targetRole] ∧
        membership.roles = principal.roles ∧
        membership.colleagueIds = credential.colleagueIds ∧ membership.roleRevision = 1 ∧
        membership.membershipRevision = 1 ∧ membership.status = .active ∧
        session.roleRevision = 1 ∧ session.membershipRevision = 1)
      (.permissionDenied "enrollment exchange was refused")
    let issuer ← s.getPrincipal credential.issuedByPrincipalId
    require (membership.issuedBy = issuer)
      (.permissionDenied "enrollment issuer binding was refused")
    s.requireBootstrapTransition bootstrapTransition credential.credentialId
    let s ← s.insertPrincipal principal
    let lost : Failure := .conflict "enrollment atomic consumption lost its claim"
    let memberships ← orFail (s.memberships.insert? membership.row) lost
    let s ← orFail ({ s with memberships := memberships }.insertGovernedSession session).toOption
      lost
    let consumed := consumedBy credential principal.principalId occurredAt
    pure (consumed, { s with
      credentials := s.credentials.replace consumed
      bootstrapTransition :=
        if bootstrapTransition then
          s.bootstrapTransition.map fun t => closeTransition t principal.principalId
        else s.bootstrapTransition })

/-- `consume_recovery`. -/
def consumeRecovery (s : TenantTables) (tokenDigest : Digest) (session : AuthenticatedSession)
    (occurredAt : Instant) : Outcome (GovernanceCredential × TenantTables) := do
  let credential ← orFail (s.credentialOfToken tokenDigest .recovery)
    (.permissionDenied "recovery exchange was refused")
  match credential.kind with
  | .enrollment .. => .error (.permissionDenied "recovery exchange was refused")
  | .recovery targetPrincipalId targetRoleRevision targetMembershipRevision => do
    require (credential.state = .retrieved ∧ credential.retrievedAt.isSome ∧
        occurredAt < credential.expiresAt)
      (.permissionDenied "recovery exchange was refused")
    let membership ← s.membershipForPrincipal targetPrincipalId
    let principal ← s.getPrincipal targetPrincipalId
    require (membership.status = .active ∧ membership.colleagueIds = credential.colleagueIds ∧
        membership.roleRevision = targetRoleRevision ∧
        membership.membershipRevision = targetMembershipRevision ∧
        session.principal = principal ∧ session.roleRevision = membership.roleRevision ∧
        session.membershipRevision = membership.membershipRevision ∧
        ∀ colleagueId ∈ session.activeColleagueId,
          membership.allowsNamespace (.colleague colleagueId) = true)
      (.permissionDenied "recovery authority binding was refused")
    let s ← (s.revokeSessions principal.principalId occurredAt
      "recovery_rotation").insertGovernedSession session
    let consumed := consumedBy credential principal.principalId occurredAt
    pure (consumed, { s with credentials := s.credentials.replace consumed })

end TenantTables

end DigitalColleagues
