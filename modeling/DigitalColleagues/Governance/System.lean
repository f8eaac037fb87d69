import DigitalColleagues.Application.DraftService
import DigitalColleagues.Lib.Transition
import DigitalColleagues.Store.Credentials

/-!
# Runs of the governed store

Any number of Admins, operators and services on one tenant, as an interleaving
of the store's transactions. What a service reads it may use in a later
transaction, however stale. A transaction that raises before it commits is no
step; one that raises after its commit is a step like any other.

## Main definitions

- `GovernanceStore` — the tables of a tenant and of its colleague
- `GovernanceAction`, `GovernanceState.exec` — the transactions and reads
- `governance`, `tenants` — the systems of one tenant and of all of them
-/

namespace DigitalColleagues

-- ════════════════════════════════════════════════════════════════════════
-- State
-- ════════════════════════════════════════════════════════════════════════

/-- The digests and the derived identifiers that the services use. -/
structure GovernancePorts where
  changeDigest : GovernanceChange → Digest
  draftDigest : ColleagueDraftFields → Digest
  policyId : StableId → StableId

structure Colleague where
  colleagueId : StableId
  tables : BuilderTables

/-- The store of one tenant; it has one colleague at most. -/
structure GovernanceStore where
  tenant : TenantTables
  colleague : Option Colleague

/-- What services read of the configuration so far. -/
structure ConfigurationReads where
  profiles : List Profile
  mandates : List Mandate
  policies : List (Option ColleaguePolicy)
  runStates : List (Option PolicyRunState)
  drafts : List ColleagueDraft

structure GovernanceState where
  store : GovernanceStore
  reads : ConfigurationReads

-- ════════════════════════════════════════════════════════════════════════
-- Actions
-- ════════════════════════════════════════════════════════════════════════

/-- A transaction on the tables of the tenant. -/
inductive TenantAction
  | createBootstrap (record : BootstrapRecord)
  | claimBootstrapRetrieval (tokenDigest : Digest) (occurredAt : Instant)
  | consumeBootstrap (tokenDigest : Digest) (principalId : StableId) (session : SessionFields)
      (occurredAt : Instant)
  | authorizeEnrollment (credential : GovernanceCredential) (issuerMembership : Membership)
  | authorizeRecovery (credential : GovernanceCredential) (issuerMembership : Membership)
  | claimCredentialSecret (credentialId : StableId) (tokenDigest : Digest) (occurredAt : Instant)
  | expireCredential (credential : GovernanceCredential) (occurredAt : Instant)
  | revokeCredential (session : AuthenticatedSession) (credentialId idempotencyKey : StableId)
      (requestDigest : Digest) (occurredAt : Instant)
  | consumeEnrollment (tokenDigest : Digest) (principalId : StableId) (role : HumanRole)
      (membership : Membership) (session : SessionFields) (occurredAt : Instant)
  | consumeRecovery (tokenDigest : Digest) (session : AuthenticatedSession) (occurredAt : Instant)
  | createChangeProposal (proposal : ChangeProposal)
  | decideChange (proposal : ChangeProposal) (decision : ChangeDecision)
  | expireChangeProposal (proposal : ChangeProposal) (actor : Principal) (occurredAt : Instant)
  | markChangeProposalStale (proposal : ChangeProposal) (actor : Principal)
  | applyMembershipChange (proposal : ChangeProposal) (decisionId : StableId)
      (session : AuthenticatedSession) (idempotencyKey : StableId) (requestDigest : Digest)
      (occurredAt : Instant)
  | consumeAdminEnrollmentChange (decisionId : StableId) (role : HumanRole)
      (colleagueIds : ColleagueScopes) (actor : Principal) (occurredAt : Instant)

/-- A read of the configuration of a colleague. -/
inductive ConfigurationRead
  | profile
  | mandate
  | policy
  | runState
  | draft (draftId : StableId)

/-- The reads that a draft is built from. -/
structure BaseReads where
  profile : ℕ
  mandate : ℕ
  policy : ℕ

/-- A transaction on the configuration of a colleague. -/
inductive BuilderAction
  | createDraft (base : BaseReads) (author : Principal) (draftId correlationId : StableId)
      (now : Instant)
  | updateDraft (base : BaseReads) (runState draft : ℕ) (author : Principal)
      (request : DraftUpdateRequest) (now : Instant)
  | reviewDraft (draftId : StableId) (expectedRevision : ℕ) (actor : Principal)
      (occurredAt : Instant)
  | cancelDraft (draftId : StableId) (expectedRevision : ℕ) (actor : Principal)
      (occurredAt : Instant)

inductive GovernanceAction
  | tenant (action : TenantAction)
  | createInitialColleague (colleagueId : StableId) (profile : Profile) (mandate : Mandate)
      (runtimePrincipals : List Principal) (actor : Principal)
  | read (colleagueId : StableId) (read : ConfigurationRead)
  | builder (colleagueId : StableId) (action : BuilderAction)
  | confirmDraft (colleagueId : StableId) (cmd : ConfirmDraftCommand)

-- ════════════════════════════════════════════════════════════════════════
-- Transactions
-- ════════════════════════════════════════════════════════════════════════

/-- A new human's session. -/
def sessionOf (session : SessionFields) (principal : Principal) : AuthenticatedSession :=
  ⟨session, principal⟩

namespace TenantTables

def exec (ports : GovernancePorts) (findDraft : Namespace → StableId → Option ColleagueDraft)
    (s : TenantTables) : TenantAction → Outcome TenantTables
  | .createBootstrap record => do
    let (_, s) ← s.createBootstrap record
    pure s
  | .claimBootstrapRetrieval tokenDigest occurredAt =>
    s.claimBootstrapRetrieval tokenDigest occurredAt
  | .consumeBootstrap tokenDigest principalId session occurredAt => do
    let principal := Principal.human principalId .tenantAdmin
    let (_, s) ← s.consumeBootstrap tokenDigest principal (sessionOf session principal) occurredAt
    pure s
  | .authorizeEnrollment credential issuerMembership => do
    let (_, s) ← s.authorizeEnrollment ports.changeDigest credential issuerMembership
    pure s
  | .authorizeRecovery credential issuerMembership => do
    let (_, s) ← s.authorizeRecovery credential issuerMembership
    pure s
  | .claimCredentialSecret credentialId tokenDigest occurredAt => do
    let (_, s) ← s.claimCredentialSecret credentialId tokenDigest occurredAt
    pure s
  | .expireCredential credential occurredAt => do
    let (_, s) ← s.expireCredential credential occurredAt
    pure s
  | .revokeCredential session credentialId idempotencyKey requestDigest occurredAt => do
    let (_, s) ← s.revokeCredential session credentialId idempotencyKey requestDigest occurredAt
    pure s
  | .consumeEnrollment tokenDigest principalId role membership session occurredAt => do
    let principal := Principal.human principalId role
    let (_, s) ← s.consumeEnrollment tokenDigest principal membership
      (sessionOf session principal) occurredAt
    pure s
  | .consumeRecovery tokenDigest session occurredAt => do
    let (_, s) ← s.consumeRecovery tokenDigest session occurredAt
    pure s
  | .createChangeProposal proposal => do
    let (_, s) ← s.createChangeProposal ports.changeDigest findDraft proposal
    pure s
  | .decideChange proposal decision => do
    let (_, s) ← s.decideChange proposal decision
    pure s
  | .expireChangeProposal proposal actor occurredAt => do
    let (_, s) ← s.expireChangeProposal proposal actor occurredAt
    pure s
  | .markChangeProposalStale proposal actor => do
    let (_, s) ← s.markChangeProposalStale proposal actor
    pure s
  | .applyMembershipChange proposal decisionId session idempotencyKey requestDigest occurredAt => do
    let (_, s) ← s.applyMembershipChange ports.changeDigest proposal decisionId session
      idempotencyKey requestDigest occurredAt
    pure s
  | .consumeAdminEnrollmentChange decisionId role colleagueIds actor occurredAt =>
    s.consumeAdminEnrollmentAuthority ports.changeDigest decisionId role colleagueIds actor
      occurredAt

/-- The insert of a runtime principal. -/
def insertRuntimePrincipal (s : TenantTables) (principal : Principal) : Outcome TenantTables := do
  require (principal.kind ≠ .human) (.permissionDenied "runtime principals cannot be human")
  s.insertPrincipal principal

end TenantTables

namespace GovernanceStore

def empty : GovernanceStore := ⟨.empty, none⟩

/-- The configuration tables of a namespace. -/
def tables (s : GovernanceStore) (colleagueId : StableId) : BuilderTables :=
  match s.colleague with
  | none => .empty
  | some c => if c.colleagueId = colleagueId then c.tables else .empty

def withTables (s : GovernanceStore) (colleagueId : StableId) (tables : BuilderTables) :
    GovernanceStore :=
  { s with colleague := s.colleague.map fun c =>
      if c.colleagueId = colleagueId then { c with tables := tables } else c }

/-- The draft that a change proposal of a namespace is about. -/
def findDraft (s : GovernanceStore) : Namespace → StableId → Option ColleagueDraft
  | .colleague colleagueId, draftId => (s.tables colleagueId).drafts.find? draftId
  | _, _ => none

/-- `create_initial_colleague`. -/
def createInitialColleague (s : GovernanceStore) (colleagueId : StableId) (profile : Profile)
    (mandate : Mandate) (runtimePrincipals : List Principal) (actor : Principal) :
    Outcome GovernanceStore := do
  require (actor.kind = .human ∧ .tenantAdmin ∈ actor.roles)
    (.permissionDenied "initial colleague requires a durable tenant Admin")
  require (s.colleague.isNone = true) (.conflict "P4 supports exactly one initial colleague")
  let current ← s.tenant.getPrincipal actor.principalId
  require (current = actor) (.permissionDenied "initial colleague actor binding drifted")
  let tenant ← runtimePrincipals.foldlM TenantTables.insertRuntimePrincipal s.tenant
  let tables ← BuilderTables.empty.insertConfiguration profile mandate
  pure ⟨tenant, some ⟨colleagueId, tables⟩⟩

end GovernanceStore

namespace ConfigurationReads

def empty : ConfigurationReads := ⟨[], [], [], [], []⟩

/-- One more read. -/
def exec (reads : ConfigurationReads) (tables : BuilderTables) :
    ConfigurationRead → Outcome ConfigurationReads
  | .profile => do
    let (profile, _) ← tables.activeConfiguration
    pure { reads with profiles := reads.profiles ++ [profile] }
  | .mandate => do
    let (_, mandate) ← tables.activeConfiguration
    pure { reads with mandates := reads.mandates ++ [mandate] }
  | .policy => do
    let policy ← tables.getActivePolicy
    pure { reads with policies := reads.policies ++ [policy] }
  | .runState => do
    let (_, state) ← tables.runtimePolicyState
    pure { reads with runStates := reads.runStates ++ [state] }
  | .draft draftId => do
    let draft ← tables.getDraft draftId
    pure { reads with drafts := reads.drafts ++ [draft] }

def neverRead : Failure := .persistence "value was never read"

/-- The configuration that was read; each part may stem from another time. -/
def base (reads : ConfigurationReads) (i : BaseReads) : Outcome BaseValues := do
  let profile ← orFail reads.profiles[i.profile]? neverRead
  let mandate ← orFail reads.mandates[i.mandate]? neverRead
  let policy ← orFail reads.policies[i.policy]? neverRead
  pure ⟨profile, mandate, policy⟩

end ConfigurationReads

def BuilderTables.exec (ports : GovernancePorts) (tenant : TenantTables)
    (reads : ConfigurationReads) (colleagueId : StableId) (s : BuilderTables) :
    BuilderAction → Outcome BuilderTables
  | .createDraft base author draftId correlationId now => do
    let base ← reads.base base
    let draft ← createdDraft ports.draftDigest (ports.policyId colleagueId) base author draftId
      correlationId now
    let (_, s) ← s.createDraft tenant draft
    pure s
  | .updateDraft base runState draft author request now => do
    let base ← reads.base base
    let runState ← orFail reads.runStates[runState]? ConfigurationReads.neverRead
    let existing ← orFail reads.drafts[draft]? ConfigurationReads.neverRead
    let draft ← updatedDraft ports.draftDigest (ports.policyId colleagueId) base runState existing
      author request now
    let (_, s) ← s.updateDraft tenant draft request.expectedDraftRevision
    pure s
  | .reviewDraft draftId expectedRevision actor occurredAt => do
    let (_, s) ← s.reviewDraft tenant draftId expectedRevision actor occurredAt
    pure s
  | .cancelDraft draftId expectedRevision actor occurredAt => do
    let (_, s) ← s.cancelDraft tenant draftId expectedRevision actor occurredAt
    pure s

namespace GovernanceState

variable (ports : GovernancePorts)

def initial : GovernanceState := ⟨.empty, .empty⟩

def exec (s : GovernanceState) : GovernanceAction → Outcome GovernanceState
  | .tenant action => do
    let tenant ← s.store.tenant.exec ports s.store.findDraft action
    pure { s with store := { s.store with tenant := tenant } }
  | .createInitialColleague colleagueId profile mandate runtimePrincipals actor => do
    let store ← s.store.createInitialColleague colleagueId profile mandate runtimePrincipals actor
    pure { s with store := store }
  | .read colleagueId read => do
    let reads ← s.reads.exec (s.store.tables colleagueId) read
    pure { s with reads := reads }
  | .builder colleagueId action => do
    let tables ← (s.store.tables colleagueId).exec ports s.store.tenant s.reads colleagueId action
    pure { s with store := s.store.withTables colleagueId tables }
  | .confirmDraft colleagueId cmd => do
    let (_, tenant, tables) ←
      DigitalColleagues.confirmDraft s.store.tenant (s.store.tables colleagueId) colleagueId cmd
    pure { s with store := { s.store with tenant := tenant }.withTables colleagueId tables }

end GovernanceState

/-- The governed store of one tenant. -/
def governance (ports : GovernancePorts) :
    TransitionSystem GovernanceState GovernanceAction where
  init s := s = .initial
  step s a t := s.exec ports a = .ok t

/-- The governed stores of all tenants of a database. -/
def tenants (ports : GovernancePorts) :
    TransitionSystem (StableId → GovernanceState) (StableId × GovernanceAction) :=
  (governance ports).indexed StableId

-- ════════════════════════════════════════════════════════════════════════
-- Concrete runs
-- ════════════════════════════════════════════════════════════════════════

theorem exists_governance_path (ports : GovernancePorts)
    (as : List (GovernanceState → GovernanceAction))
    (p : List (Transition GovernanceState GovernanceAction) → GovernanceState → Bool)
    (h : TransitionSystem.runsTo (GovernanceState.exec ports) .initial as p = true) :
    ∃ tr s, (governance ports).Path .initial tr s ∧ p tr s = true :=
  TransitionSystem.exists_path_of_runsTo (fun _ _ _ hs => hs) h

/-- Ports with constant digests, for concrete runs. -/
def samplePorts : GovernancePorts where
  changeDigest _ := 0
  draftDigest _ := 0
  policyId _ := stableId "policy-1"

def sampleTenant : StableId := stableId "tenant-1"

/-- A database in which one tenant made a run. -/
theorem exists_tenants_reachable {ports : GovernancePorts} {s : GovernanceState}
    {tr : List (Transition GovernanceState GovernanceAction)}
    (h : (governance ports).Path .initial tr s) :
    ∃ db, (tenants ports).Reachable db ∧ db sampleTenant = s := by
  let db₀ : StableId → GovernanceState := fun _ => .initial
  have hlift := h.lift (s := db₀) (i := sampleTenant)
  exact ⟨_, hlift.reachable (.init fun _ => rfl), Function.update_self ..⟩

def firstAdmin : StableId := stableId "human:first"

def secondAdmin : StableId := stableId "human:second"

def thirdAdmin : StableId := stableId "human:third"

/-- An action on a value that the store has, for concrete runs; there is nothing
    to read before a colleague exists. -/
def sampleOk {α : Type} (x : Outcome α) (f : α → TenantAction) : GovernanceAction :=
  match x with
  | .ok a => .tenant (f a)
  | .error _ => .read (stableId "missing") .profile

def sampleSession (sessionId : StableId) (credentialDigest : Digest) : SessionFields where
  sessionId := sessionId
  credentialDigest := credentialDigest
  csrfDigest := credentialDigest
  activeColleagueId := none
  createdAt := 0
  expiresAt := 10000
  revision := 1
  roleRevision := 1
  membershipRevision := 1

/-- The first Admin, from the bootstrap. -/
def sampleBootstrap : List (GovernanceState → GovernanceAction) :=
  [fun _ => .tenant (.createBootstrap
      { credentialId := TenantTables.bootstrapInitial
        tokenDigest := 1
        issuedAt := 0
        expiresAt := 100
        retrievedAt := none
        consumedAt := none
        revision := 1 }),
    fun _ => .tenant (.claimBootstrapRetrieval 1 10),
    fun _ => .tenant (.consumeBootstrap 1 firstAdmin (sampleSession (stableId "session-1") 1) 20)]

/-- A credential that the first Admin issues for a new Admin. -/
def sampleCredential (credentialId : StableId) (bootstrap : Bool)
    (changeDecisionId : Option StableId) (issuedAt : Instant) (h : issuedAt < issuedAt + 100) :
    GovernanceCredential where
  credentialId := credentialId
  kind := .enrollment .tenantAdmin bootstrap changeDecisionId
  state := .authorized
  colleagueIds := .all
  issuedByPrincipalId := firstAdmin
  issuedAt := issuedAt
  expiresAt := issuedAt + 100
  correlationId := credentialId
  causationId := credentialId
  tokenDigest := none
  retrievedAt := none
  consumedAt := none
  revokedAt := none
  consumedPrincipalId := none
  revision := 1
  expires := h

/-- An Admin enrolled with a credential, from its authorization to its use. -/
def sampleEnrollment (credential : GovernanceCredential) (token : Digest) (principalId : StableId)
    (now : Instant) : List (GovernanceState → GovernanceAction) :=
  [fun s => sampleOk (s.store.tenant.membershipForPrincipal firstAdmin) fun m =>
      .authorizeEnrollment credential m,
    fun _ => .tenant (.claimCredentialSecret credential.credentialId token (now + 10)),
    fun s => sampleOk
      (do
        let issuer ← s.store.tenant.getPrincipal firstAdmin
        Membership.make
          { membershipId := principalId
            principalId := principalId
            roles := [.tenantAdmin]
            colleagueIds := .all
            status := .active
            roleRevision := 1
            membershipRevision := 1
            createdAt := now + 20
            updatedAt := now + 20
            correlationId := principalId
            causationId := principalId
            revision := 1 } issuer)
      fun m => .consumeEnrollment token principalId .tenantAdmin m
        (sampleSession principalId token) (now + 20)]

/-- Two Admins, the second one from the second-Admin transition. -/
def sampleTwoAdmins : List (GovernanceState → GovernanceAction) :=
  sampleBootstrap ++
    sampleEnrollment (sampleCredential (stableId "credential-2") true none 30 (by decide)) 2
      secondAdmin 30

/-- A change that the first Admin proposes. -/
def sampleChange (proposalId : StableId) (changeKind : ChangeKind) (targetId : StableId)
    (scopes : ColleagueScopes)
    (hns : if changeKind = .draft then Namespace.tenant.isColleague = true
      else Namespace.tenant = .tenant)
    (hscopes : scopes.WellFormed (decide (changeKind = .draft))) : ChangeProposal where
  ns := .tenant
  proposalId := proposalId
  changeKind := changeKind
  targetId := targetId
  targetRevision := 1
  canonicalDigest := 0
  baseRevisions := ⟨0, 0, 0⟩
  proposedRole := some .tenantAdmin
  proposedStatus := some .active
  proposedColleagueIds := scopes
  proposerPrincipalId := firstAdmin
  proposerRoleRevision := 1
  proposerMembershipRevision := 1
  issuedAt := 100
  expiresAt := 1000
  state := .pending
  idempotencyKey := proposalId
  requestDigest := 0
  correlationId := proposalId
  causationId := proposalId
  decisionId := none
  consumedAt := none
  revision := 1
  ns_of_kind := hns
  scopes := hscopes

/-- The approval of a change by the second Admin. -/
def sampleChangeDecision (proposal : ChangeProposal) (decisionId : StableId) : ChangeDecision where
  ns := proposal.ns
  decisionId := decisionId
  proposalId := proposal.proposalId
  proposalRevision := 1
  proposalDigest := proposal.canonicalDigest
  choice := .approve
  approverPrincipalId := secondAdmin
  approverRoleRevision := 1
  approverMembershipRevision := 1
  occurredAt := 110
  validUntil := 900
  idempotencyKey := decisionId
  requestDigest := 0
  correlationId := proposal.correlationId
  consumedAt := none
  revision := 1

/-- A change that the first Admin proposes and the second one approves. -/
def sampleApprovedChange (proposal : ChangeProposal) (decisionId : StableId) :
    List (GovernanceState → GovernanceAction) :=
  [fun _ => .tenant (.createChangeProposal proposal),
    fun _ => .tenant (.decideChange proposal (sampleChangeDecision proposal decisionId))]

end DigitalColleagues
