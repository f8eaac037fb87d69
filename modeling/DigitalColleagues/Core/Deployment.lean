import DigitalColleagues.Core.AgentPackage
import DigitalColleagues.Core.Authority
import DigitalColleagues.Core.Policy
import Mathlib.Data.List.Dedup
import Mathlib.Data.List.Sort

/-!
# Package trust and deployment lifecycles

The records of package versions, of deployment drafts and of the deployments of
colleagues, with the checks of their constructors, and the table of lifecycle
transitions.

## Main definitions

- `PackageRecord`, `DeploymentDraft`, `ColleagueDeployment` — the records
- `permissionDiff` — what a draft shows of the permissions it asks for
- `allowedLifecycleTransitions` — the lifecycle table
-/

namespace DigitalColleagues

-- ════════════════════════════════════════════════════════════════════════
-- States
-- ════════════════════════════════════════════════════════════════════════

inductive PackageTrustState
  | untrusted
  | trusted
  | revoked
  | legacyPreserved
deriving DecidableEq

def PackageTrustState.value : PackageTrustState → String
  | .untrusted => "untrusted"
  | .trusted => "trusted"
  | .revoked => "revoked"
  | .legacyPreserved => "legacy_preserved"

inductive PackageInstallState
  | notInstalled
  | installed
deriving DecidableEq

inductive AttestationVerification
  | notApplicable
  | verified
  | failed
  | unavailable
deriving DecidableEq

inductive DeploymentLifecycle
  | draft
  | active
  | paused
  | blocked
  | retired
deriving DecidableEq

def DeploymentLifecycle.value : DeploymentLifecycle → String
  | .draft => "draft"
  | .active => "active"
  | .paused => "paused"
  | .blocked => "blocked"
  | .retired => "retired"

inductive DeploymentDraftKind
  | create
  | upgrade
  | rollback
deriving DecidableEq

def DeploymentDraftKind.value : DeploymentDraftKind → String
  | .create => "create"
  | .upgrade => "upgrade"
  | .rollback => "rollback"

inductive DeploymentDraftState
  | draft
  | reviewed
  | confirmed
  | stale
  | cancelled
deriving DecidableEq

/-- `ALLOWED_LIFECYCLE_TRANSITIONS`. -/
def allowedLifecycleTransitions : DeploymentLifecycle → List DeploymentLifecycle
  | .draft => [.active, .retired]
  | .active => [.paused, .blocked, .retired]
  | .paused => [.active, .blocked, .retired]
  | .blocked => [.paused, .retired]
  | .retired => []

-- ════════════════════════════════════════════════════════════════════════
-- Package records
-- ════════════════════════════════════════════════════════════════════════

structure GitHubAttestation where
  verification : AttestationVerification
  artifactDigest : Digest
  signer : String
  signerDigest : Digest
  repository : String
  workflow : String
  buildIdentity : String
  sourceRef : String
  sourceDigest : String
  predicateType : String
  verifiedAt : Instant
deriving DecidableEq

/-- What a package record and its row share. -/
structure PackageFields where
  tenantId : StableId
  package : AgentPackage
  packageDigest : Digest
  archiveDigest : Digest
  source : PackageSource
  trustState : PackageTrustState
  installState : PackageInstallState
  attestation : Option GitHubAttestation
  createdAt : Instant
  updatedAt : Instant
  correlationId : StableId
  causationId : StableId
  revision : ℕ
deriving DecidableEq

namespace PackageFields

/-- The exact version that a record is about. -/
def version (f : PackageFields) : PackageVersion :=
  ⟨f.package.packageId, f.package.version, f.packageDigest⟩

/-- The attestation that the source of a package asks for. -/
def Attested (f : PackageFields) : Prop :=
  if f.source = .githubRelease then
    ∃ attestation ∈ f.attestation, attestation.verification = .verified ∧
      attestation.artifactDigest = f.archiveDigest
  else f.attestation = none

/-- What the constructor of a record requires of its fields. -/
structure WellFormed (digest : AgentPackage → Digest) (f : PackageFields) : Prop where
  bound : digest f.package = f.packageDigest
  attested : f.Attested
  ordered : f.createdAt ≤ f.updatedAt
  revised : 0 < f.revision

/-- The check of the attestation. -/
def checkAttestation (f : PackageFields) : Outcome Unit :=
  if f.source = .githubRelease then
    match f.attestation with
    | none => .error (.coreInvariant "GitHub Release package requires verified provenance")
    | some attestation => do
      require (attestation.verification = .verified)
        (.coreInvariant "GitHub Release package requires verified provenance")
      require (attestation.artifactDigest = f.archiveDigest)
        (.coreInvariant "attestation does not bind the exact archive")
  else
    require (f.attestation = none)
      (.coreInvariant "non-GitHub package cannot carry GitHub attestation")

theorem checkAttestation_eq_ok {f : PackageFields} {u : Unit} :
    f.checkAttestation = .ok u ↔ f.Attested := by
  unfold checkAttestation Attested
  by_cases hsource : f.source = .githubRelease
  · rw [if_pos hsource, if_pos hsource]
    cases f.attestation with
    | none => simp
    | some attestation => simp [bind_eq_ok]
  · rw [if_neg hsource, if_neg hsource, require_eq_ok]

/-- Trusted, or kept from before there was trust; and installed. -/
def Runs (f : PackageFields) : Prop :=
  (f.trustState = .trusted ∨ f.trustState = .legacyPreserved) ∧ f.installState = .installed

instance (f : PackageFields) : Decidable f.Runs := by
  unfold Runs
  infer_instance

end PackageFields

structure PackageRecord extends PackageFields where
  createdBy : Principal

def invalidRevision : Failure := .coreInvariant "revision must be a positive integer"

/-- The `PackageRecord` constructor. -/
def PackageRecord.make (digest : AgentPackage → Digest) (fields : PackageFields)
    (createdBy : Principal) : Outcome PackageRecord := do
  require (digest fields.package = fields.packageDigest)
    (.coreInvariant "package record digest binding is invalid")
  fields.checkAttestation
  require (createdBy.kind ≠ .model)
    (.authorization "package creator principal kind is unsupported")
  require (fields.createdAt ≤ fields.updatedAt)
    (.coreInvariant "package update precedes creation")
  require (0 < fields.revision) invalidRevision
  pure ⟨fields, createdBy⟩

theorem PackageRecord.make_eq_ok {digest : AgentPackage → Digest} {fields : PackageFields}
    {createdBy : Principal} {record : PackageRecord} :
    PackageRecord.make digest fields createdBy = .ok record ↔
      fields.WellFormed digest ∧ createdBy.kind ≠ .model ∧ ⟨fields, createdBy⟩ = record := by
  simp only [PackageRecord.make, bind_eq_ok, require_eq_ok, PackageFields.checkAttestation_eq_ok,
    pure_eq_ok, exists_const]
  constructor
  · rintro ⟨hbound, hattested, hkind, hordered, hrevised, rfl⟩
    exact ⟨⟨hbound, hattested, hordered, hrevised⟩, hkind, rfl⟩
  · rintro ⟨⟨hbound, hattested, hordered, hrevised⟩, hkind, rfl⟩
    exact ⟨hbound, hattested, hkind, hordered, hrevised, rfl⟩

-- ════════════════════════════════════════════════════════════════════════
-- Drafts
-- ════════════════════════════════════════════════════════════════════════

/-- A record and the revision that something is bound to. -/
structure RevisionBinding where
  recordId : StableId
  revision : ℕ
deriving DecidableEq

/-- The configuration and the package that a permission diff was shown for. -/
structure PermissionBinding where
  profile : RevisionBinding
  mandate : RevisionBinding
  policy : RevisionBinding
  fromPackageDigest : Option Digest
deriving DecidableEq

structure PermissionDiff where
  requested : List String
  granted : List String
  adminExtra : List String
  notGranted : List String
  binding : PermissionBinding
deriving DecidableEq

/-- `sorted(set(values))`. -/
def sortedSet (values : List String) : List String :=
  values.dedup.insertionSort (· ≤ ·)

/-- `permission_diff`: what a package requests beside what a human grants. -/
def permissionDiff (package : AgentPackage) (grantedCapabilities : List String)
    (binding : PermissionBinding) : PermissionDiff where
  requested := sortedSet package.requestedCapabilities
  granted := sortedSet grantedCapabilities
  adminExtra := sortedSet (grantedCapabilities.filter (· ∉ package.requestedCapabilities))
  notGranted := sortedSet (package.requestedCapabilities.filter (· ∉ grantedCapabilities))
  binding := binding

/-- What a deployment draft and its row share. -/
structure DeploymentDraftFields where
  tenantId : StableId
  deploymentId : StableId
  draftId : StableId
  kind : DeploymentDraftKind
  package : PackageVersion
  profile : Profile
  mandate : Mandate
  policy : ColleaguePolicy
  baseDeploymentRevision : ℕ
  permissionDiff : PermissionDiff
  canonicalDigest : Digest
  state : DeploymentDraftState
  createdAt : Instant
  updatedAt : Instant
  correlationId : StableId
  causationId : StableId
  revision : ℕ

/-- What the constructor of a draft requires of its fields. -/
structure DeploymentDraftFields.WellFormed (f : DeploymentDraftFields) : Prop where
  versioned : f.package.version ≠ ""
  bound : f.policy.mandateId = f.mandate.mandateId
  ordered : f.createdAt ≤ f.updatedAt
  revised : 0 < f.revision

structure DeploymentDraft extends DeploymentDraftFields where
  author : Principal

/-- The `DeploymentDraft` constructor. -/
def DeploymentDraft.make (fields : DeploymentDraftFields) (author : Principal) :
    Outcome DeploymentDraft := do
  require (fields.package.version ≠ "") (.coreInvariant "package version is missing")
  require (fields.policy.mandateId = fields.mandate.mandateId)
    (.coreInvariant "deployment Policy does not bind its Mandate")
  require (author.kind = .human) (.authorization "deployment draft author must be HUMAN")
  require (fields.createdAt ≤ fields.updatedAt)
    (.coreInvariant "deployment draft update precedes creation")
  require (0 < fields.revision) invalidRevision
  pure ⟨fields, author⟩

theorem DeploymentDraft.make_eq_ok {fields : DeploymentDraftFields} {author : Principal}
    {draft : DeploymentDraft} :
    DeploymentDraft.make fields author = .ok draft ↔
      fields.WellFormed ∧ author.kind = .human ∧ ⟨fields, author⟩ = draft := by
  simp only [DeploymentDraft.make, bind_eq_ok, require_eq_ok, pure_eq_ok, exists_const]
  constructor
  · rintro ⟨hversioned, hbound, hkind, hordered, hrevised, rfl⟩
    exact ⟨⟨hversioned, hbound, hordered, hrevised⟩, hkind, rfl⟩
  · rintro ⟨⟨hversioned, hbound, hordered, hrevised⟩, hkind, rfl⟩
    exact ⟨hversioned, hbound, hkind, hordered, hrevised, rfl⟩

-- ════════════════════════════════════════════════════════════════════════
-- Deployments
-- ════════════════════════════════════════════════════════════════════════

/-- What a deployment and its row share. -/
structure DeploymentFields where
  tenantId : StableId
  deploymentId : StableId
  package : PackageVersion
  profile : RevisionBinding
  mandate : RevisionBinding
  policy : Option RevisionBinding
  lifecycle : DeploymentLifecycle
  legacyManual : Bool
  legacyPolicyUnconfirmed : Bool
  createdAt : Instant
  updatedAt : Instant
  correlationId : StableId
  causationId : StableId
  revision : ℕ
deriving DecidableEq

/-- What the constructor of a deployment requires of its fields. -/
structure DeploymentFields.WellFormed (f : DeploymentFields) : Prop where
  versioned : f.package.version ≠ ""
  profile : 0 < f.profile.revision
  mandate : 0 < f.mandate.revision
  policy : ∀ p ∈ f.policy, 0 < p.revision
  legacy : f.legacyPolicyUnconfirmed = true → f.legacyManual = true
  ordered : f.createdAt ≤ f.updatedAt
  revised : 0 < f.revision

structure ColleagueDeployment extends DeploymentFields where
  updatedBy : Principal

/-- The `ColleagueDeployment` constructor. -/
def ColleagueDeployment.make (fields : DeploymentFields) (updatedBy : Principal) :
    Outcome ColleagueDeployment := do
  require (fields.package.version ≠ "") (.coreInvariant "deployment package version is missing")
  require (0 < fields.profile.revision)
    (.coreInvariant "profile_revision must be a positive integer")
  require (0 < fields.mandate.revision)
    (.coreInvariant "mandate_revision must be a positive integer")
  require (∀ p ∈ fields.policy, 0 < p.revision)
    (.coreInvariant "policy_revision must be a positive integer")
  require (fields.legacyPolicyUnconfirmed = true → fields.legacyManual = true)
    (.coreInvariant "only a legacy deployment may lack a confirmed Policy")
  require (updatedBy.kind ≠ .model) (.authorization "deployment actor kind is unsupported")
  require (fields.createdAt ≤ fields.updatedAt)
    (.coreInvariant "deployment update precedes creation")
  require (0 < fields.revision) invalidRevision
  pure ⟨fields, updatedBy⟩

theorem ColleagueDeployment.make_eq_ok {fields : DeploymentFields} {updatedBy : Principal}
    {deployment : ColleagueDeployment} :
    ColleagueDeployment.make fields updatedBy = .ok deployment ↔
      fields.WellFormed ∧ updatedBy.kind ≠ .model ∧ ⟨fields, updatedBy⟩ = deployment := by
  simp only [ColleagueDeployment.make, bind_eq_ok, require_eq_ok, pure_eq_ok, exists_const]
  constructor
  · rintro ⟨hversioned, hprofile, hmandate, hpolicy, hlegacy, hkind, hordered, hrevised, rfl⟩
    exact ⟨⟨hversioned, hprofile, hmandate, hpolicy, hlegacy, hordered, hrevised⟩, hkind, rfl⟩
  · rintro ⟨⟨hversioned, hprofile, hmandate, hpolicy, hlegacy, hordered, hrevised⟩, hkind, rfl⟩
    exact ⟨hversioned, hprofile, hmandate, hpolicy, hlegacy, hkind, hordered, hrevised, rfl⟩

/-- `active_limit`. -/
def activeLimit : ℕ := 10

inductive LifecycleResult
  | transitionApplied
  | activeDeploymentLimitReached
deriving DecidableEq

/-- The result of a lifecycle request; its count is within the limit. -/
structure LifecycleTransitionResult where
  deployment : ColleagueDeployment
  accepted : Bool
  result : LifecycleResult
  activeCount : ℕ
  count_le : activeCount ≤ activeLimit

/-- The `LifecycleTransitionResult` constructor. -/
def LifecycleTransitionResult.make (deployment : ColleagueDeployment) (accepted : Bool)
    (result : LifecycleResult) (activeCount : ℕ) : Outcome LifecycleTransitionResult :=
  if h : activeCount ≤ activeLimit then .ok ⟨deployment, accepted, result, activeCount, h⟩
  else .error (.coreInvariant "active deployment count is invalid")

end DigitalColleagues
