import DigitalColleagues.Core.Deployment
import DigitalColleagues.Store.Tenant

/-!
# The tables of packages and deployments

Package versions, deployment drafts and deployments of all tenants of one host,
with the replay ledger and the causal audit of the operations that write them,
the constraints and triggers of the tables, and their reads.

## Main definitions

- `DeploymentTables` — the tables
- `DeploymentRow.Checked`, `DeploymentTables.writeDeployment` — the constraints
- `getPackage`, `getDeploymentDraft`, `getDeployment` — the reads
- `AuditSeed.text`, `DeploymentTables.audit` — the audit helper
-/

namespace DigitalColleagues

-- ════════════════════════════════════════════════════════════════════════
-- Rows
-- ════════════════════════════════════════════════════════════════════════

structure PackageRow extends PackageFields where
  createdByPrincipalId : StableId
  createdByKind : PrincipalKind
deriving DecidableEq

/-- The actions that change the state of a package. -/
inductive PackageAction
  | trust
  | revoke
  | install
deriving DecidableEq

def PackageAction.value : PackageAction → String
  | .trust => "trust"
  | .revoke => "revoke"
  | .install => "install"

/-- A trust decision; its identifier is made of the action, of the first 24 digits
    of the package digest and of the revision. -/
structure TrustDecision where
  tenantId : StableId
  action : PackageAction
  package : PackageVersion
  revision : ℕ
  decision : PackageTrustState
  actorPrincipalId : StableId
  occurredAt : Instant
deriving DecidableEq

def TrustDecision.digestPrefix (d : TrustDecision) : ℕ := d.package.digest.val / 2 ^ 160

structure DeploymentDraftRow extends DeploymentDraftFields where
  authorPrincipalId : StableId

structure DeploymentRow extends DeploymentFields where
  activeSlot : Option ℕ
  updatedByPrincipalId : StableId
  updatedByKind : PrincipalKind
deriving DecidableEq

/-- A package that a deployment has accepted. -/
structure PackageHistoryRow where
  tenantId : StableId
  deploymentId : StableId
  sequence : ℕ
  package : PackageVersion
  acceptedAt : Instant
  actorPrincipalId : StableId
deriving DecidableEq

/-- The operations that the replay ledger knows. -/
inductive ReplayOperation
  | registerPackage
  | package (action : PackageAction)
  | draft (kind : DeploymentDraftKind)
  | reviewDraft
  | confirmDraft
  | lifecycle
deriving DecidableEq

/-- What the replay ledger keeps of a result. -/
inductive ReplayResult
  | registered (packageDigest : Digest)
  | revision (revision : ℕ)
  | draft (draftId : StableId)
  | deployment (deploymentId : StableId)
  | lifecycle (accepted : Bool) (result : LifecycleResult)
deriving DecidableEq

/-- The key of a row of the replay ledger. -/
structure ReplayKey where
  tenantId : StableId
  ns : Namespace
  operation : ReplayOperation
  actorPrincipalId : StableId
  idempotencyKey : StableId
deriving DecidableEq

structure OperationReplay extends ReplayKey where
  requestDigest : Digest
  result : ReplayResult
  occurredAt : Instant
deriving DecidableEq

-- ════════════════════════════════════════════════════════════════════════
-- The causal audit
-- ════════════════════════════════════════════════════════════════════════

inductive AuditRecordType
  | agentPackage
  | deploymentDraft
  | colleagueDeployment
deriving DecidableEq

def AuditRecordType.value : AuditRecordType → String
  | .agentPackage => "agent_package"
  | .deploymentDraft => "deployment_draft"
  | .colleagueDeployment => "colleague_deployment"

/-- What an audit identifier is derived from. -/
structure AuditSeed where
  recordType : AuditRecordType
  recordId : String
  recordRevision : ℕ
  action : String
  result : String
  actorPrincipalId : StableId
  causationId : StableId
deriving DecidableEq

def AuditSeed.parts (seed : AuditSeed) : List String :=
  [seed.recordType.value, seed.recordId, seed.recordRevision.repr, seed.action, seed.result,
    seed.actorPrincipalId.val, seed.causationId.val]

/-- `audit_seed`. -/
def AuditSeed.text (seed : AuditSeed) : String :=
  (String.singleton (Char.ofNat 0)).intercalate seed.parts

/-- The safe projections of audit rows. -/
inductive AuditProjection
  | registered (packageDigest : Digest) (source : PackageSource)
  | package (packageDigest : Digest)
  | draft (canonicalDigest : Digest)
  | limit (activeCount activeLimit : ℕ)
  | lifecycle (source target : DeploymentLifecycle)
  | selected (lifecycle : DeploymentLifecycle) (packageDigest : Digest)
deriving DecidableEq

/-- What an operation passes to the audit helper. -/
structure AuditEntry extends AuditSeed where
  tenantId : StableId
  ns : Namespace
  actorKind : PrincipalKind
  correlationId : StableId
  occurredAt : Instant
  projection : AuditProjection
deriving DecidableEq

structure CausalAudit extends AuditEntry where
  auditId : StableId
deriving DecidableEq

-- ════════════════════════════════════════════════════════════════════════
-- Tables
-- ════════════════════════════════════════════════════════════════════════

instance : Keyed PackageRow (StableId × PackageVersion) := ⟨fun r => (r.tenantId, r.version)⟩

instance : Keyed TrustDecision (StableId × PackageAction × ℕ × ℕ) :=
  ⟨fun d => (d.tenantId, d.action, d.digestPrefix, d.revision)⟩

instance : Keyed DeploymentDraftRow (StableId × StableId × StableId) :=
  ⟨fun r => (r.tenantId, r.deploymentId, r.draftId)⟩

instance : Keyed DeploymentRow (StableId × StableId) := ⟨fun r => (r.tenantId, r.deploymentId)⟩

instance : Keyed PackageHistoryRow (StableId × StableId × PackageVersion) :=
  ⟨fun r => (r.tenantId, r.deploymentId, r.package)⟩

instance : Keyed OperationReplay ReplayKey := ⟨OperationReplay.toReplayKey⟩

instance : Keyed CausalAudit (StableId × Namespace × StableId) :=
  ⟨fun a => (a.tenantId, a.ns, a.auditId)⟩

/-- The tables of packages and deployments, of all tenants of a host. -/
structure DeploymentTables where
  packages : Table PackageRow
  trustDecisions : Table TrustDecision
  drafts : Table DeploymentDraftRow
  deployments : Table DeploymentRow
  history : Table PackageHistoryRow
  replays : Table OperationReplay
  audits : Table CausalAudit

/-- The constraints of a row of the deployments. -/
structure DeploymentRow.Checked (r : DeploymentRow) : Prop where
  slot : ∀ n ∈ r.activeSlot, 1 ≤ n ∧ n ≤ 10
  active : r.lifecycle = .active ↔ r.activeSlot.isSome = true
  legacy : r.legacyPolicyUnconfirmed = true → r.legacyManual = true

instance (r : DeploymentRow) : Decidable r.Checked :=
  decidable_of_iff ((∀ n ∈ r.activeSlot, 1 ≤ n ∧ n ≤ 10) ∧
    (r.lifecycle = .active ↔ r.activeSlot.isSome = true) ∧
    (r.legacyPolicyUnconfirmed = true → r.legacyManual = true))
    ⟨fun ⟨hslot, hactive, hlegacy⟩ => ⟨hslot, hactive, hlegacy⟩,
      fun ⟨hslot, hactive, hlegacy⟩ => ⟨hslot, hactive, hlegacy⟩⟩

/-- `_actor`: a service by its identifier, anyone else by the durable record. -/
def TenantTables.actorOf (tenant : TenantTables) (principalId : StableId) (kind : PrincipalKind) :
    Outcome Principal :=
  if kind = .service then .ok (.service principalId) else tenant.getPrincipal principalId

namespace DeploymentTables

def empty : DeploymentTables := ⟨.empty, .empty, .empty, .empty, .empty, .empty, .empty⟩

-- ════════════════════════════════════════════════════════════════════════
-- Reads
-- ════════════════════════════════════════════════════════════════════════

section Reads

variable (digest : AgentPackage → Digest) (tenant : TenantTables) (s : DeploymentTables)

/-- `_package_from_row`. -/
def packageFromRow (row : PackageRow) : Outcome PackageRecord := do
  let createdBy ← tenant.actorOf row.createdByPrincipalId row.createdByKind
  PackageRecord.make digest row.toPackageFields createdBy

/-- `get_package`. -/
def getPackage (tenantId : StableId) (version : PackageVersion) : Outcome PackageRecord := do
  let row ← orFail (s.packages.find? (tenantId, version))
    (.notFound "exact package version was not found")
  packageFromRow digest tenant row

/-- `get_deployment_draft`. -/
def getDeploymentDraft (tenantId deploymentId draftId : StableId) : Outcome DeploymentDraft := do
  let row ← orFail (s.drafts.find? (tenantId, deploymentId, draftId))
    (.notFound "deployment draft was not found")
  let author ← tenant.getPrincipal row.authorPrincipalId
  DeploymentDraft.make row.toDeploymentDraftFields author

/-- `_deployment_from_row`. -/
def deploymentFromRow (row : DeploymentRow) : Outcome ColleagueDeployment := do
  let updatedBy ← tenant.actorOf row.updatedByPrincipalId row.updatedByKind
  ColleagueDeployment.make row.toDeploymentFields updatedBy

/-- `get_deployment`. -/
def getDeployment (tenantId deploymentId : StableId) : Outcome ColleagueDeployment := do
  let row ← orFail (s.deployments.find? (tenantId, deploymentId))
    (.notFound "exact deployment was not found")
  deploymentFromRow tenant row

/-- `package_in_history`. -/
def packageInHistory (tenantId deploymentId : StableId) (version : PackageVersion) : Bool :=
  (s.history.find? (tenantId, deploymentId, version)).isSome

/-- `deployment_is_active`. -/
def deploymentIsActive (tenantId deploymentId : StableId) : Outcome Bool :=
  match getDeployment tenant s tenantId deploymentId with
  | .ok deployment => .ok (deployment.lifecycle = .active)
  | .error (.notFound _) => .ok false
  | .error e => .error e

end Reads

-- ════════════════════════════════════════════════════════════════════════
-- Active slots
-- ════════════════════════════════════════════════════════════════════════

/-- The rows whose lifecycle is active. -/
def activeRows (s : DeploymentTables) : List DeploymentRow :=
  s.deployments.rows.filter fun r => r.lifecycle = .active

/-- `_active_count`. -/
def activeCount (s : DeploymentTables) : ℕ := s.activeRows.length

/-- The first slot that no active deployment holds. -/
def freeSlot (s : DeploymentTables) : Option ℕ :=
  (List.range' 1 10).find? fun candidate =>
    some candidate ∉ s.activeRows.map DeploymentRow.activeSlot

-- ════════════════════════════════════════════════════════════════════════
-- Writes
-- ════════════════════════════════════════════════════════════════════════

/-- No other row holds the slot of a row. -/
def SlotFree (s : DeploymentTables) (row : DeploymentRow) : Prop :=
  ∀ other ∈ s.deployments.rows, Keyed.key other ≠ Keyed.key row →
    row.activeSlot = none ∨ other.activeSlot ≠ row.activeSlot

instance (s : DeploymentTables) (row : DeploymentRow) : Decidable (s.SlotFree row) := by
  unfold SlotFree
  infer_instance

/-- The insert of a deployment, with the constraints and the trigger of its table. -/
def insertDeployment (s : DeploymentTables) (row : DeploymentRow) : Outcome DeploymentTables := do
  require (row.lifecycle = .active → s.activeCount < 10)
    (.constraint "active_deployment_limit_reached")
  require (row.Checked ∧ s.SlotFree row) .integrity
  require ((s.packages.find? (row.tenantId, row.package)).isSome = true) .integrity
  let deployments ← orFail (s.deployments.insert? row) .integrity
  pure { s with deployments := deployments }

/-- The update of a deployment, with the constraints and the trigger of its table. -/
def updateDeployment (s : DeploymentTables) (old row : DeploymentRow) :
    Outcome DeploymentTables := do
  require (row.lifecycle = .active ∧ old.lifecycle ≠ .active → s.activeCount < 10)
    (.constraint "active_deployment_limit_reached")
  require (row.Checked ∧ s.SlotFree row) .integrity
  require ((s.packages.find? (row.tenantId, row.package)).isSome = true) .integrity
  pure { s with deployments := s.deployments.replace row }

/-- `COALESCE(MAX(sequence), 0) + 1`. -/
def nextSequence (s : DeploymentTables) (tenantId deploymentId : StableId) : ℕ :=
  ((s.history.rows.filter fun r => r.tenantId = tenantId ∧ r.deploymentId = deploymentId).map
    PackageHistoryRow.sequence).foldr max 0 + 1

/-- `INSERT OR IGNORE` into the accepted packages of a deployment. -/
def acceptPackage (s : DeploymentTables) (row : PackageHistoryRow) : DeploymentTables :=
  match s.history.insert? row with
  | some history => { s with history := history }
  | none => s

/-- `_replay_result`. -/
def replayResult (s : DeploymentTables) (key : ReplayKey) (requestDigest : Digest) :
    Outcome (Option ReplayResult) :=
  match s.replays.find? key with
  | none => .ok none
  | some row => do
    require (row.requestDigest = requestDigest)
      (.replayConflict "P11 idempotency key was rebound")
    pure (some row.result)

/-- `_record_replay`. -/
def recordReplay (s : DeploymentTables) (key : ReplayKey) (requestDigest : Digest)
    (result : ReplayResult) (occurredAt : Instant) : Outcome DeploymentTables := do
  let replays ← orFail (s.replays.insert? ⟨key, requestDigest, result, occurredAt⟩) .integrity
  pure { s with replays := replays }

/-- The failure of an audit row whose identifier is taken. -/
def auditIdTaken : Failure := .constraint "p11_causal_audit"

/-- `_audit`. -/
def audit (auditId : String → StableId) (s : DeploymentTables) (entry : AuditEntry) :
    Outcome DeploymentTables := do
  let audits ← orFail (s.audits.insert? ⟨entry, auditId entry.text⟩) auditIdTaken
  pure { s with audits := audits }

theorem audit_eq_ok {auditId : String → StableId} {s t : DeploymentTables} {entry : AuditEntry} :
    s.audit auditId entry = .ok t ↔
      ∃ audits, s.audits.insert? ⟨entry, auditId entry.text⟩ = some audits ∧
        { s with audits := audits } = t := by
  simp only [audit, bind_eq_ok, orFail_eq_ok, pure_eq_ok]

theorem recordReplay_eq_ok {s t : DeploymentTables} {key : ReplayKey} {requestDigest : Digest}
    {result : ReplayResult} {occurredAt : Instant} :
    s.recordReplay key requestDigest result occurredAt = .ok t ↔
      ∃ replays, s.replays.insert? ⟨key, requestDigest, result, occurredAt⟩ = some replays ∧
        { s with replays := replays } = t := by
  simp only [recordReplay, bind_eq_ok, orFail_eq_ok, pure_eq_ok]

theorem insertDeployment_eq_ok {s t : DeploymentTables} {row : DeploymentRow} :
    s.insertDeployment row = .ok t ↔
      (row.lifecycle = .active → s.activeCount < 10) ∧ (row.Checked ∧ s.SlotFree row) ∧
      (s.packages.find? (row.tenantId, row.package)).isSome = true ∧
      ∃ deployments, s.deployments.insert? row = some deployments ∧
        { s with deployments := deployments } = t := by
  simp only [insertDeployment, bind_eq_ok, require_eq_ok, orFail_eq_ok, pure_eq_ok, exists_const]

theorem updateDeployment_eq_ok {s t : DeploymentTables} {old row : DeploymentRow} :
    s.updateDeployment old row = .ok t ↔
      (row.lifecycle = .active ∧ old.lifecycle ≠ .active → s.activeCount < 10) ∧
      (row.Checked ∧ s.SlotFree row) ∧
      (s.packages.find? (row.tenantId, row.package)).isSome = true ∧
      { s with deployments := s.deployments.replace row } = t := by
  simp only [updateDeployment, bind_eq_ok, require_eq_ok, pure_eq_ok, exists_const]

/-- Only the accepted packages change, and the package is among them. -/
theorem acceptPackage_eq (s : DeploymentTables) (row : PackageHistoryRow) :
    ∃ history, s.acceptPackage row = { s with history := history } ∧ s.history.Within history ∧
      (history.find? (Keyed.key row)).isSome = true := by
  unfold acceptPackage
  cases hinsert : s.history.insert? row with
  | some history =>
    refine ⟨history, rfl, Table.within_insert hinsert, ?_⟩
    rw [Table.find?_insert hinsert, if_pos rfl]
    rfl
  | none =>
    have hfound := Table.insert?_eq_none.mp hinsert
    exact ⟨s.history, rfl, .refl _, Option.isSome_iff_exists.mpr hfound⟩

end DeploymentTables

end DigitalColleagues
