import DigitalColleagues.Application.Boundaries
import DigitalColleagues.Deployments.Lifecycles

/-!
# Package and deployment services

`P11PackageService` and `P11DeploymentService`: the calls of Admins. A call makes
several transactions; each of them meets the tables of its own time, and only
the last one writes.

## Main definitions

- `HostPorts`, `HostTables` — what the services compute, and what they work on
- `Call`, `Call.perform` — the calls
-/

namespace DigitalColleagues

-- ════════════════════════════════════════════════════════════════════════
-- Requests
-- ════════════════════════════════════════════════════════════════════════

structure GitHubAttestationPolicy where
  repository : String
  signerWorkflow : String
  signerDigest : Digest
  sourceRef : String
  sourceDigest : Digest
  buildIdentity : String
deriving DecidableEq

structure PackageInspection where
  package : AgentPackage
  packageDigest : Digest
  archiveDigest : Digest

/-- A registration; exactly a GitHub release brings an attestation. -/
structure PackageRegistrationRequest where
  archive : List UInt8
  source : PackageSource
  expectedArchiveDigest : Digest
  attestationBundle : Option (List UInt8)
  githubPolicy : Option GitHubAttestationPolicy
  bundle_supplied : attestationBundle.isSome = true ↔ source = .githubRelease
  policy_supplied : githubPolicy.isSome = true ↔ source = .githubRelease
deriving DecidableEq

structure ExactDraftConfirmation where
  expectedRevision : ℕ
  expectedCanonicalDigest : Digest
  idempotencyKey : StableId
deriving DecidableEq

structure ExactLifecycleRequest where
  target : String
  expectedRevision : ℕ
  expectedPackageDigest : Digest
  idempotencyKey : StableId
deriving DecidableEq

structure ExactRebindingRequest where
  package : PackageVersion
  expectedDeploymentRevision : ℕ
  idempotencyKey : StableId
deriving DecidableEq

/-- The kinds of draft that `rebinding_draft` is called for. -/
inductive RebindingKind
  | upgrade
  | rollback
deriving DecidableEq

def RebindingKind.draftKind : RebindingKind → DeploymentDraftKind
  | .upgrade => .upgrade
  | .rollback => .rollback

inductive DraftStep
  | review
  | confirm
deriving DecidableEq

/-- What the services pass to `_digest` for a request. -/
inductive RequestPayload
  | register (archiveDigest packageDigest : Digest) (source : PackageSource)
      (attestationBundleDigest : Option Digest) (policy : Option GitHubAttestationPolicy)
  | package (action : PackageAction) (version : PackageVersion) (expectedRevision : ℕ)
  | createDraft (deploymentId : StableId) (package : PackageVersion)
      (displayName description mission serviceRelationship : String)
      (grantedCapabilities : List String) (timezone : String)
  | rebinding (kind : DeploymentDraftKind) (deploymentId : StableId) (package : PackageVersion)
      (expectedDeploymentRevision : ℕ)
  | draftStep (action : DraftStep) (draftId : StableId) (revision : ℕ) (canonicalDigest : Digest)
  | transition (target : String) (expectedRevision : ℕ) (expectedPackageDigest : Digest)
deriving DecidableEq

/-- What the services pass to `_digest` for a draft. -/
inductive DraftPayload
  | create (draftId : StableId) (packageDigest : Digest) (profile : Profile) (mandate : Mandate)
      (policy : ColleaguePolicy) (permissionDiff : PermissionDiff)
  | rebinding (draftId : StableId) (kind : DeploymentDraftKind) (packageDigest : Digest)
      (permissionDiff : PermissionDiff)

/-- What the services compute beside the store. -/
structure HostPorts extends DeploymentPorts where
  requestDigest : RequestPayload → Digest
  canonicalDigest : DraftPayload → Digest
  bytesDigest : List UInt8 → Digest
  unpack : List UInt8 → Outcome AgentPackage
  verify : List UInt8 → Digest → List UInt8 → GitHubAttestationPolicy → Outcome GitHubAttestation
  governance : GovernancePorts

-- ════════════════════════════════════════════════════════════════════════
-- The host
-- ════════════════════════════════════════════════════════════════════════

/-- The tables of a host: those of each tenant, and the deployments of all. -/
structure HostTables where
  tenants : StableId → TenantStore
  deployments : DeploymentTables

namespace HostTables

def empty : HostTables := ⟨fun _ => .empty, .empty⟩

/-- The governance tables of a tenant. -/
def tenant (s : HostTables) (tenantId : StableId) : TenantTables := (s.tenants tenantId).tenant

def withStore (s : HostTables) (tenantId : StableId) (store : TenantStore) : HostTables :=
  { s with tenants := Function.update s.tenants tenantId store }

/-- `P6AuthenticationService.authorize`. -/
def authorize (s : HostTables) (tenantId : StableId) (session : AuthenticatedSession)
    (action : AuthorizationAction) (ns : Namespace) : Outcome Unit := do
  let current ← (s.tenant tenantId).membershipForPrincipal session.principal.principalId
  match authorizeAction session.principal current.toMembershipFields action ns with
  | .error _ => .error (.permissionDenied "governance action was refused")
  | .ok () =>
    require (session.roleRevision = current.roleRevision ∧
        session.membershipRevision = current.membershipRevision)
      (.permissionDenied "session authority revision is stale")

def getPackage (ports : HostPorts) (s : HostTables) (tenantId : StableId)
    (version : PackageVersion) : Outcome PackageRecord :=
  DeploymentTables.getPackage ports.packageDigest (s.tenant tenantId) s.deployments tenantId version

def getDraft (s : HostTables) (tenantId deploymentId draftId : StableId) :
    Outcome DeploymentDraft :=
  DeploymentTables.getDeploymentDraft (s.tenant tenantId) s.deployments tenantId deploymentId
    draftId

def getDeployment (s : HostTables) (tenantId deploymentId : StableId) :
    Outcome ColleagueDeployment :=
  DeploymentTables.getDeployment (s.tenant tenantId) s.deployments tenantId deploymentId

def configuration (s : HostTables) (tenantId colleagueId : StableId) : BuilderTables :=
  (s.tenants tenantId).configuration colleagueId

/-- The result of an operation that writes no table but those of the deployments. -/
def written {α : Type} (s : HostTables) (x : Outcome (α × DeploymentTables)) :
    Outcome (α × HostTables) := do
  let (a, deployments) ← x
  pure (a, { s with deployments := deployments })

end HostTables

/-- Who calls in which tenant, and what the clock shows. -/
structure CallContext where
  tenantId : StableId
  session : AuthenticatedSession
  now : Instant

def CallContext.actor (ctx : CallContext) : Principal := ctx.session.principal

-- ════════════════════════════════════════════════════════════════════════
-- Packages
-- ════════════════════════════════════════════════════════════════════════

section Packages

variable (ports : HostPorts) (ctx : CallContext)

def PackageRegistrationRequest.payload (request : PackageRegistrationRequest)
    (inspection : PackageInspection) : RequestPayload :=
  .register inspection.archiveDigest inspection.packageDigest request.source
    (request.attestationBundle.map ports.bytesDigest) request.githubPolicy

/-- The provenance of a GitHub release. -/
def PackageRegistrationRequest.verified (request : PackageRegistrationRequest)
    (archiveDigest : Digest) : Outcome (Option GitHubAttestation) :=
  match request.attestationBundle, request.githubPolicy with
  | some bundle, some policy => do
    let attestation ← ports.verify request.archive archiveDigest bundle policy
    pure (some attestation)
  | _, _ => pure none

/-- The fields of a package after an action. -/
def PackageAction.next (action : PackageAction) (current : PackageFields)
    (idempotencyKey : StableId) : PackageFields :=
  { current with
    trustState :=
      match action with
      | .trust => .trusted
      | .revoke => .revoked
      | .install => current.trustState
    installState := if action = .install then .installed else current.installState
    updatedAt := ctx.now
    causationId := ports.derive "p11-package-action" [action.value, idempotencyKey.val]
    revision := current.revision + 1 }

namespace P11PackageService

/-- `validate`, with the expected digest that a registration always gives. -/
def inspect (archive : List UInt8) (expectedArchiveDigest : Digest) :
    Outcome PackageInspection := do
  require (ports.bytesDigest archive = expectedArchiveDigest)
    (.validation "package archive digest does not match the expected value")
  let package ← ports.unpack archive
  pure ⟨package, ports.packageDigest package, ports.bytesDigest archive⟩

/-- The record of a new package, which nobody trusts yet. -/
def registeredFields (source : PackageSource) (inspection : PackageInspection)
    (attestation : Option GitHubAttestation) (idempotencyKey : StableId) : PackageFields where
  tenantId := ctx.tenantId
  package := inspection.package
  packageDigest := inspection.packageDigest
  archiveDigest := inspection.archiveDigest
  source := source
  trustState := .untrusted
  installState := .notInstalled
  attestation := attestation
  createdAt := ctx.now
  updatedAt := ctx.now
  correlationId := ports.derive "p11-package" [inspection.packageDigest.text]
  causationId := ports.derive "p11-register" [idempotencyKey.val]
  revision := 1

/-- `register`. -/
def register (looks : ℕ → HostTables) (s : HostTables) (request : PackageRegistrationRequest)
    (idempotencyKey : StableId) : Outcome (PackageRecord × HostTables) := do
  (looks 0).authorize ctx.tenantId ctx.session .manageAgentPackages .tenant
  let inspection ← inspect ports request.archive request.expectedArchiveDigest
  let version : PackageVersion :=
    ⟨inspection.package.packageId, inspection.package.version, inspection.packageDigest⟩
  let requestDigest := ports.requestDigest (request.payload ports inspection)
  match ← DeploymentTables.registrationReplay ports.toDeploymentPorts
      ((looks 1).tenant ctx.tenantId) (looks 1).deployments ctx.tenantId ctx.actor version
      idempotencyKey requestDigest with
  | some record => pure (record, s)
  | none => do
    let attestation ← request.verified ports inspection.archiveDigest
    let record ← PackageRecord.make ports.packageDigest
      (registeredFields ports ctx request.source inspection attestation idempotencyKey) ctx.actor
    s.written (s.deployments.registerPackage ports.toDeploymentPorts (s.tenant ctx.tenantId) record
      idempotencyKey requestDigest)

/-- `_mutate`. -/
def mutate (looks : ℕ → HostTables) (s : HostTables) (action : PackageAction)
    (version : PackageVersion) (expectedRevision : ℕ) (idempotencyKey : StableId) :
    Outcome (PackageRecord × HostTables) := do
  (looks 0).authorize ctx.tenantId ctx.session .manageAgentPackages .tenant
  let current ← (looks 1).getPackage ports ctx.tenantId version
  let updated ← PackageRecord.make ports.packageDigest
    (action.next ports ctx current.toPackageFields idempotencyKey) current.createdBy
  s.written (s.deployments.changePackageState ports.toDeploymentPorts (s.tenant ctx.tenantId)
    updated ctx.actor action expectedRevision idempotencyKey
    (ports.requestDigest (.package action version expectedRevision)))

end P11PackageService

end Packages

-- ════════════════════════════════════════════════════════════════════════
-- Deployments
-- ════════════════════════════════════════════════════════════════════════

/-- The `Profile` constructor. -/
def Profile.make (profileId : StableId) (edit : ProfileEdit) (revision : ℕ) (updatedBy : Principal)
    (updatedAt : Instant) : Outcome Profile := do
  let displayName ← requireText edit.displayName "display_name" 4096
  let description ← requireText edit.description "description" 4096
  pure ⟨profileId, displayName, description, edit.presentation, revision, updatedBy, updatedAt⟩

/-- The lifecycle that a text stands for. -/
def DeploymentLifecycle.ofValue? (value : String) : Option DeploymentLifecycle :=
  [.draft, .active, .paused, .blocked, .retired].find? fun lifecycle => lifecycle.value = value

section Deployments

variable (ports : HostPorts) (ctx : CallContext)

def DeploymentCreationRequest.version (request : DeploymentCreationRequest) : PackageVersion :=
  ⟨request.packageId, request.packageVersion, request.packageDigest⟩

def DeploymentCreationRequest.payload (request : DeploymentCreationRequest) : RequestPayload :=
  .createDraft request.deploymentId request.version request.displayName request.description
    request.mission request.serviceRelationship request.grantedCapabilities request.timezone

def DeploymentCreationRequest.draftId (request : DeploymentCreationRequest) : StableId :=
  ports.derive "deployment-draft" [request.deploymentId.val, request.idempotencyKey.val]

/-- What `rebinding_draft` reads of a deployment and of its configuration. -/
structure RebindingReads where
  deployment : ColleagueDeployment
  package : PackageRecord
  profile : Profile
  mandate : Mandate
  policy : ColleaguePolicy

namespace P11DeploymentService

/-- `_package_ready`. -/
def packageReady (s : HostTables) (version : PackageVersion) : Outcome PackageRecord := do
  let package ← s.getPackage ports ctx.tenantId version
  require (package.trustState = .trusted ∧ package.installState = .installed)
    (.permissionDenied "deployment requires a trusted installed exact package")
  pure package

/-- The draft of a new deployment. -/
def creationDraft (request : DeploymentCreationRequest) (package : PackageRecord) :
    Outcome DeploymentDraft := do
  let mandate ← request.mandate ports.derive ctx.actor ctx.now
  let profile ← Profile.make (ports.derive "profile" [request.deploymentId.val])
    ⟨request.displayName, request.description,
      .singleton "package_id" (.str package.package.packageId.val)⟩ 1 ctx.actor ctx.now
  let (policy, _) ← policyFromEdit
    ⟨ports.derive "policy" [request.deploymentId.val], 1, mandate.mandateId, 1, ctx.actor, ctx.now⟩
    { PolicyEdit.none with timezone := some request.timezone } none
  let diff := permissionDiff package.package request.grantedCapabilities
    ⟨⟨profile.profileId, 1⟩, ⟨mandate.mandateId, 1⟩, ⟨policy.policyId, 1⟩, none⟩
  DeploymentDraft.make
    { tenantId := ctx.tenantId
      deploymentId := request.deploymentId
      draftId := request.draftId ports
      kind := .create
      package := package.version
      profile := profile
      mandate := mandate
      policy := policy
      baseDeploymentRevision := 0
      permissionDiff := diff
      canonicalDigest := ports.canonicalDigest
        (.create (request.draftId ports) package.packageDigest profile mandate policy diff)
      state := .draft
      createdAt := ctx.now
      updatedAt := ctx.now
      correlationId := ports.derive "p11-deployment" [request.deploymentId.val]
      causationId := ports.derive "p11-create" [request.idempotencyKey.val]
      revision := 1 } ctx.actor

/-- `create_draft`. -/
def createDraft (looks : ℕ → HostTables) (s : HostTables) (request : DeploymentCreationRequest) :
    Outcome (DeploymentDraft × HostTables) := do
  (looks 0).authorize ctx.tenantId ctx.session .manageDeployments .tenant
  let requestDigest := ports.requestDigest request.payload
  match ← DeploymentTables.deploymentDraftReplay ((looks 1).tenant ctx.tenantId)
      (looks 1).deployments ctx.tenantId request.deploymentId ctx.actor .create
      (request.draftId ports) request.idempotencyKey requestDigest with
  | some draft => pure (draft, s)
  | none => do
    let package ← packageReady ports ctx (looks 2) request.version
    let draft ← creationDraft ports ctx request package
    s.written (s.deployments.createDeploymentDraft ports.toDeploymentPorts (s.tenant ctx.tenantId)
      draft request.idempotencyKey requestDigest)

def rebindingDraftId (deploymentId : StableId) (kind : RebindingKind) (idempotencyKey : StableId) :
    StableId :=
  ports.derive "deployment-draft" [deploymentId.val, kind.draftKind.value, idempotencyKey.val]

/-- The draft of a rebinding. -/
def rebindingDraftOf (deploymentId : StableId) (request : ExactRebindingRequest)
    (kind : RebindingKind) (reads : RebindingReads) : Outcome DeploymentDraft :=
  let draftId := rebindingDraftId ports deploymentId kind request.idempotencyKey
  let grants := reads.mandate.capabilities.map fun item => item.capabilityId.val
  let diff := permissionDiff reads.package.package grants
    ⟨⟨reads.profile.profileId, reads.profile.revision⟩,
      ⟨reads.mandate.mandateId, reads.mandate.revision⟩,
      ⟨reads.policy.policyId, reads.policy.revision⟩, some reads.deployment.package.digest⟩
  DeploymentDraft.make
    { tenantId := ctx.tenantId
      deploymentId := deploymentId
      draftId := draftId
      kind := kind.draftKind
      package := reads.package.version
      profile := reads.profile
      mandate := reads.mandate
      policy := reads.policy
      baseDeploymentRevision := reads.deployment.revision
      permissionDiff := diff
      canonicalDigest := ports.canonicalDigest
        (.rebinding draftId kind.draftKind reads.package.packageDigest diff)
      state := .draft
      createdAt := ctx.now
      updatedAt := ctx.now
      correlationId := ports.derive "p11-deployment" [deploymentId.val]
      causationId := ports.derive "p11-rebinding" [request.idempotencyKey.val]
      revision := 1 } ctx.actor

/-- The reads of `rebinding_draft`, and what it asks of them. -/
def readRebinding (looks : ℕ → HostTables) (deploymentId : StableId)
    (request : ExactRebindingRequest) (kind : RebindingKind) : Outcome RebindingReads := do
  let deployment ← (looks 2).getDeployment ctx.tenantId deploymentId
  require (deployment.revision = request.expectedDeploymentRevision)
    (.staleConflict "deployment rebinding revision is stale")
  require (deployment.package.digest ≠ request.package.digest)
    (.permissionDenied "deployment rebinding requires a different package digest")
  let package ← packageReady ports ctx (looks 3) request.package
  require (kind = .rollback → (looks 4).deployments.packageInHistory ctx.tenantId deploymentId
      request.package = true)
    (.permissionDenied "rollback target is not in accepted deployment history")
  let profile ← ((looks 5).configuration ctx.tenantId deploymentId).profiles.getRecord
    deployment.profile.recordId
  let mandate ← ((looks 6).configuration ctx.tenantId deploymentId).mandates.getRecord
    deployment.mandate.recordId
  let active ← ((looks 7).configuration ctx.tenantId deploymentId).getActivePolicy
  let policy ← orFail active (.permissionDenied "legacy deployment Policy remains unconfirmed")
  pure ⟨deployment, package, profile, mandate, policy⟩

/-- `rebinding_draft`. -/
def rebindingDraft (looks : ℕ → HostTables) (s : HostTables) (deploymentId : StableId)
    (request : ExactRebindingRequest) (kind : RebindingKind) :
    Outcome (DeploymentDraft × HostTables) := do
  (looks 0).authorize ctx.tenantId ctx.session .manageDeployments (.colleague deploymentId)
  let requestDigest := ports.requestDigest
    (.rebinding kind.draftKind deploymentId request.package request.expectedDeploymentRevision)
  match ← DeploymentTables.deploymentDraftReplay ((looks 1).tenant ctx.tenantId)
      (looks 1).deployments ctx.tenantId deploymentId ctx.actor kind.draftKind
      (rebindingDraftId ports deploymentId kind request.idempotencyKey) request.idempotencyKey
      requestDigest with
  | some draft => pure (draft, s)
  | none => do
    let reads ← readRebinding ports ctx looks deploymentId request kind
    let draft ← rebindingDraftOf ports ctx deploymentId request kind reads
    s.written (s.deployments.createDeploymentDraft ports.toDeploymentPorts (s.tenant ctx.tenantId)
      draft request.idempotencyKey requestDigest)

/-- The stored draft that a review or a confirmation is about, in the name of its
    caller. -/
def boundDraft (looks : ℕ → HostTables) (deploymentId draftId : StableId)
    (request : ExactDraftConfirmation) (message : String) : Outcome DeploymentDraft := do
  (looks 0).authorize ctx.tenantId ctx.session .manageDeployments (.colleague deploymentId)
  let draft ← (looks 1).getDraft ctx.tenantId deploymentId draftId
  require (draft.canonicalDigest = request.expectedCanonicalDigest) (.staleConflict message)
  DeploymentDraft.make { draft.toDeploymentDraftFields with updatedAt := ctx.now } ctx.actor

/-- `review`. -/
def review (looks : ℕ → HostTables) (s : HostTables) (deploymentId draftId : StableId)
    (request : ExactDraftConfirmation) : Outcome (DeploymentDraft × HostTables) := do
  let updated ← boundDraft ctx looks deploymentId draftId request
    "deployment draft review binding is stale"
  s.written (s.deployments.reviewDeploymentDraft ports.toDeploymentPorts (s.tenant ctx.tenantId)
    updated request.expectedRevision request.idempotencyKey (ports.requestDigest
      (.draftStep .review draftId request.expectedRevision request.expectedCanonicalDigest)))

/-- `confirm`. -/
def confirm (looks : ℕ → HostTables) (s : HostTables) (deploymentId draftId : StableId)
    (request : ExactDraftConfirmation) : Outcome (ColleagueDeployment × HostTables) := do
  let updated ← boundDraft ctx looks deploymentId draftId request
    "deployment draft confirmation binding is stale"
  let (deployment, store, deployments) ← s.deployments.confirmDeploymentDraft
    ports.toDeploymentPorts (s.tenants ctx.tenantId) updated request.expectedRevision
    request.idempotencyKey (ports.requestDigest
      (.draftStep .confirm draftId request.expectedRevision request.expectedCanonicalDigest))
    (.model (ports.derive "model" [deploymentId.val]))
    (.service (ports.derive "service" [deploymentId.val]))
  pure (deployment, { s.withStore ctx.tenantId store with deployments := deployments })

/-- The command that a transition passes to the store. -/
def command (deploymentId : StableId) (request : ExactLifecycleRequest)
    (target : DeploymentLifecycle) : TransitionCommand where
  tenantId := ctx.tenantId
  deploymentId := deploymentId
  target := target
  actor := ctx.actor
  expectedRevision := request.expectedRevision
  expectedPackageDigest := request.expectedPackageDigest
  idempotencyKey := request.idempotencyKey
  requestDigest := ports.requestDigest
    (.transition request.target request.expectedRevision request.expectedPackageDigest)
  occurredAt := ctx.now
  correlationId := ports.derive "p11-deployment" [deploymentId.val]
  causationId := ports.derive "p11-lifecycle" [request.idempotencyKey.val]

/-- `transition`. -/
def transition (looks : ℕ → HostTables) (s : HostTables) (deploymentId : StableId)
    (request : ExactLifecycleRequest) :
    Outcome (LifecycleTransitionResult × HostTables) := do
  (looks 0).authorize ctx.tenantId ctx.session .manageDeployments (.colleague deploymentId)
  let target ← orFail (DeploymentLifecycle.ofValue? request.target)
    (.permissionDenied "deployment lifecycle target is unsupported")
  s.written (s.deployments.transitionDeployment ports.toDeploymentPorts (s.tenant ctx.tenantId)
    (command ports ctx deploymentId request target))

end P11DeploymentService

end Deployments

-- ════════════════════════════════════════════════════════════════════════
-- Calls
-- ════════════════════════════════════════════════════════════════════════

/-- The calls that write. -/
inductive Call
  | register (request : PackageRegistrationRequest) (idempotencyKey : StableId)
  | package (action : PackageAction) (version : PackageVersion) (expectedRevision : ℕ)
      (idempotencyKey : StableId)
  | createDraft (request : DeploymentCreationRequest)
  | rebindingDraft (deploymentId : StableId) (request : ExactRebindingRequest)
      (kind : RebindingKind)
  | review (deploymentId draftId : StableId) (request : ExactDraftConfirmation)
  | confirm (deploymentId draftId : StableId) (request : ExactDraftConfirmation)
  | transition (deploymentId : StableId) (request : ExactLifecycleRequest)

inductive CallAnswer
  | package (record : PackageRecord)
  | draft (draft : DeploymentDraft)
  | deployment (deployment : ColleagueDeployment)
  | lifecycle (result : LifecycleTransitionResult)

/-- A call: `looks i` are the tables that its transaction `i` meets, and `s` those of
    the transaction that writes. -/
def Call.perform (ports : HostPorts) (ctx : CallContext) (looks : ℕ → HostTables)
    (s : HostTables) : Call → Outcome (CallAnswer × HostTables)
  | .register request idempotencyKey => do
    let (record, s) ← P11PackageService.register ports ctx looks s request idempotencyKey
    pure (.package record, s)
  | .package action version expectedRevision idempotencyKey => do
    let (record, s) ← P11PackageService.mutate ports ctx looks s action version expectedRevision
      idempotencyKey
    pure (.package record, s)
  | .createDraft request => do
    let (draft, s) ← P11DeploymentService.createDraft ports ctx looks s request
    pure (.draft draft, s)
  | .rebindingDraft deploymentId request kind => do
    let (draft, s) ← P11DeploymentService.rebindingDraft ports ctx looks s deploymentId request kind
    pure (.draft draft, s)
  | .review deploymentId draftId request => do
    let (draft, s) ← P11DeploymentService.review ports ctx looks s deploymentId draftId request
    pure (.draft draft, s)
  | .confirm deploymentId draftId request => do
    let (deployment, s) ← P11DeploymentService.confirm ports ctx looks s deploymentId draftId
      request
    pure (.deployment deployment, s)
  | .transition deploymentId request => do
    let (result, s) ← P11DeploymentService.transition ports ctx looks s deploymentId request
    pure (.lifecycle result, s)

end DigitalColleagues
