import DigitalColleagues.Deployments.Packages
import DigitalColleagues.Governance.System

/-!
# Draft operations of the deployment store

The creation, the review and the confirmation of a deployment draft. A confirmed
draft creates the deployment of a new colleague with its principals and its
configuration, or rebinds an existing deployment to another package.

## Main definitions

- `TenantStore` — the tables of one tenant and of its colleagues
- `createDeploymentDraft`, `reviewDeploymentDraft`, `confirmDeploymentDraft`
-/

namespace DigitalColleagues

-- ════════════════════════════════════════════════════════════════════════
-- One tenant
-- ════════════════════════════════════════════════════════════════════════

instance : Keyed Colleague StableId := ⟨Colleague.colleagueId⟩

/-- The tables of one tenant and the configuration of each of its colleagues. -/
structure TenantStore where
  tenant : TenantTables
  colleagues : Table Colleague

namespace TenantStore

def empty : TenantStore := ⟨.empty, .empty⟩

/-- The configuration tables of a colleague's namespace. -/
def configuration (s : TenantStore) (colleagueId : StableId) : BuilderTables :=
  (s.colleagues.find? colleagueId).elim .empty Colleague.tables

def writeConfiguration (s : TenantStore) (colleagueId : StableId) (tables : BuilderTables) :
    TenantStore :=
  match s.colleagues.insert? ⟨colleagueId, tables⟩ with
  | some colleagues => { s with colleagues := colleagues }
  | none => { s with colleagues := s.colleagues.replace ⟨colleagueId, tables⟩ }

@[simp] theorem tenant_writeConfiguration (s : TenantStore) (colleagueId : StableId)
    (tables : BuilderTables) : (s.writeConfiguration colleagueId tables).tenant = s.tenant := by
  unfold writeConfiguration
  split <;> rfl

/-- A write is seen in its own namespace and in no other. -/
theorem configuration_writeConfiguration (s : TenantStore) (colleagueId other : StableId)
    (tables : BuilderTables) :
    (s.writeConfiguration colleagueId tables).configuration other =
      if other = colleagueId then tables else s.configuration other := by
  unfold writeConfiguration configuration
  split
  · rename_i colleagues hinsert
    rw [Table.find?_insert hinsert]
    simp only [Keyed.key]
    split <;> rfl
  · rename_i hnone
    obtain ⟨row, hrow⟩ := Table.insert?_eq_none.mp hnone
    simp only [Keyed.key] at hrow
    simp only [Table.find?_replace, Keyed.key]
    split
    · rename_i hother
      rw [hother, hrow]
      rfl
    · rfl

/-- The principals and the configuration that a confirmed draft creates. -/
def insertDraftColleague (s : TenantStore) (draft : DeploymentDraft)
    (modelPrincipal servicePrincipal : Principal) : Outcome TenantStore := do
  let tenant ← s.tenant.insertPrincipal modelPrincipal
  let tenant ← tenant.insertPrincipal servicePrincipal
  let tables ← (s.configuration draft.deploymentId).insertConfiguration draft.profile draft.mandate
  let policies ← tables.policies.insertRecord draft.policy
  let tables := { tables with policies := policies }.upsertRunState draft.policy draft.author
    draft.correlationId draft.draftId draft.updatedAt "p11_deployment_confirmed"
  pure ({ s with tenant := tenant }.writeConfiguration draft.deploymentId tables)

end TenantStore

namespace DeploymentTables

-- ════════════════════════════════════════════════════════════════════════
-- Creation and review
-- ════════════════════════════════════════════════════════════════════════

/-- The audit entry of a mutation of a draft. -/
def draftEntry (draft : DeploymentDraft) (revision : ℕ) (action result : String)
    (occurredAt : Instant) : AuditEntry where
  recordType := .deploymentDraft
  recordId := draft.draftId.val
  recordRevision := revision
  action := action
  result := result
  actorPrincipalId := draft.author.principalId
  causationId := draft.causationId
  tenantId := draft.tenantId
  ns := .colleague draft.deploymentId
  actorKind := draft.author.kind
  correlationId := draft.correlationId
  occurredAt := occurredAt
  projection := .draft draft.canonicalDigest

def draftCreatedEntry (draft : DeploymentDraft) : AuditEntry :=
  draftEntry draft draft.revision (draft.kind.value ++ "_draft_created") "draft" draft.createdAt

def newDraftRow (draft : DeploymentDraft) : DeploymentDraftRow :=
  ⟨draft.toDeploymentDraftFields, draft.author.principalId⟩

/-- The new row, its audit row and its replay row. -/
def insertDraft (ports : DeploymentPorts) (s : DeploymentTables) (draft : DeploymentDraft)
    (key : ReplayKey) (requestDigest : Digest) : Outcome (DeploymentDraft × DeploymentTables) := do
  require ((s.packages.find? (draft.tenantId, draft.package)).isSome = true) .integrity
  let drafts ← orFail (s.drafts.insert? (newDraftRow draft)) .integrity
  let s ← { s with drafts := drafts }.audit ports.auditId (draftCreatedEntry draft)
  let s ← s.recordReplay key requestDigest (.draft draft.draftId) draft.createdAt
  pure (draft, s)

/-- The key of an operation on a draft or a deployment. -/
def deploymentKey (tenantId deploymentId : StableId) (operation : ReplayOperation)
    (actor : Principal) (idempotencyKey : StableId) : ReplayKey :=
  ⟨tenantId, .colleague deploymentId, operation, actor.principalId, idempotencyKey⟩

/-- `deployment_draft_replay`. -/
def deploymentDraftReplay (tenant : TenantTables) (s : DeploymentTables)
    (tenantId deploymentId : StableId) (actor : Principal) (kind : DeploymentDraftKind)
    (draftId idempotencyKey : StableId) (requestDigest : Digest) :
    Outcome (Option DeploymentDraft) :=
  replayLookup tenant s actor .manageDeployments
    (deploymentKey tenantId deploymentId (.draft kind) actor idempotencyKey) requestDigest
    (.draft draftId) (.conflict "durable deployment draft replay is invalid")
    (getDeploymentDraft tenant s tenantId deploymentId draftId)

/-- `create_deployment_draft`. -/
def createDeploymentDraft (ports : DeploymentPorts) (tenant : TenantTables) (s : DeploymentTables)
    (draft : DeploymentDraft) (idempotencyKey : StableId) (requestDigest : Digest) :
    Outcome (DeploymentDraft × DeploymentTables) :=
  let key := deploymentKey draft.tenantId draft.deploymentId (.draft draft.kind) draft.author
    idempotencyKey
  mutation tenant s s draft.author .manageDeployments key requestDigest
    (fun _ => getDeploymentDraft tenant s draft.tenantId draft.deploymentId draft.draftId)
    (s.insertDraft ports draft key requestDigest)

/-- The row of a draft in its next state. -/
def movedDraftRow (draft : DeploymentDraft) (target : DeploymentDraftState)
    (row : DeploymentDraftRow) : DeploymentDraftRow :=
  { row with
    state := target
    revision := row.revision + 1
    updatedAt := draft.updatedAt }

/-- The update of a draft's row, for a row at the expected revision and state. -/
def moveDraft (s : DeploymentTables) (draft : DeploymentDraft) (expectedRevision : ℕ)
    (source target : DeploymentDraftState) (message : String) : Outcome DeploymentTables := do
  let row ← orFail (s.drafts.find? (draft.tenantId, draft.deploymentId, draft.draftId))
    (.staleConflict message)
  require (row.revision = expectedRevision ∧ row.state = source) (.staleConflict message)
  pure { s with drafts := s.drafts.replace (movedDraftRow draft target row) }

def draftReviewedEntry (draft : DeploymentDraft) (expectedRevision : ℕ) : AuditEntry :=
  draftEntry draft (expectedRevision + 1) "draft_reviewed" "reviewed" draft.updatedAt

/-- The review of a draft that is not a replay. -/
def reviewDraft (ports : DeploymentPorts) (s : DeploymentTables) (draft : DeploymentDraft)
    (expectedRevision : ℕ) (key : ReplayKey) (requestDigest : Digest) :
    Outcome (DeploymentDraft × DeploymentTables) := do
  require (draft.state = .draft) (.staleConflict "only a draft can be reviewed")
  let s ← s.moveDraft draft expectedRevision .draft .reviewed "deployment draft revision is stale"
  let s ← s.audit ports.auditId (draftReviewedEntry draft expectedRevision)
  let s ← s.recordReplay key requestDigest (.revision (expectedRevision + 1)) draft.updatedAt
  pure ({ draft with state := .reviewed, revision := expectedRevision + 1 }, s)

/-- `review_deployment_draft`. -/
def reviewDeploymentDraft (ports : DeploymentPorts) (tenant : TenantTables) (s : DeploymentTables)
    (draft : DeploymentDraft) (expectedRevision : ℕ) (idempotencyKey : StableId)
    (requestDigest : Digest) : Outcome (DeploymentDraft × DeploymentTables) :=
  let key := deploymentKey draft.tenantId draft.deploymentId .reviewDraft draft.author
    idempotencyKey
  mutation tenant s s draft.author .manageDeployments key requestDigest
    (fun _ => getDeploymentDraft tenant s draft.tenantId draft.deploymentId draft.draftId)
    (s.reviewDraft ports draft expectedRevision key requestDigest)

-- ════════════════════════════════════════════════════════════════════════
-- Confirmation
-- ════════════════════════════════════════════════════════════════════════

/-- The deployment that a draft creates. -/
def createdDeployment (draft : DeploymentDraft) : DeploymentFields where
  tenantId := draft.tenantId
  deploymentId := draft.deploymentId
  package := draft.package
  profile := ⟨draft.profile.profileId, draft.profile.revision⟩
  mandate := ⟨draft.mandate.mandateId, draft.mandate.revision⟩
  policy := some ⟨draft.policy.policyId, draft.policy.revision⟩
  lifecycle := .draft
  legacyManual := false
  legacyPolicyUnconfirmed := false
  createdAt := draft.updatedAt
  updatedAt := draft.updatedAt
  correlationId := draft.correlationId
  causationId := draft.draftId
  revision := 1

/-- An existing deployment, rebound by a draft. -/
def reboundDeployment (draft : DeploymentDraft) (existing : DeploymentFields) :
    DeploymentFields :=
  { existing with
    package := draft.package
    lifecycle := .draft
    updatedAt := draft.updatedAt
    correlationId := draft.correlationId
    causationId := draft.draftId
    revision := existing.revision + 1 }

/-- The row of a deployment that is not active, written by a human. -/
def inactiveRow (fields : DeploymentFields) (actor : Principal) : DeploymentRow :=
  ⟨fields, none, actor.principalId, actor.kind⟩

/-- The creation of a colleague and its deployment. -/
def createDeployment (s : DeploymentTables) (store : TenantStore) (draft : DeploymentDraft)
    (modelPrincipal servicePrincipal : Principal) :
    Outcome (ColleagueDeployment × TenantStore × DeploymentTables) := do
  require ((s.deployments.find? (draft.tenantId, draft.deploymentId)).isNone = true ∧
      draft.baseDeploymentRevision = 0) (.staleConflict "deployment creation base is stale")
  let store ← store.insertDraftColleague draft modelPrincipal servicePrincipal
  let deployment ← ColleagueDeployment.make (createdDeployment draft) draft.author
  let s ← s.insertDeployment (inactiveRow deployment.toDeploymentFields draft.author)
  pure (deployment, store, s)

/-- The rebinding of a deployment to the package of a draft. -/
def rebindDeployment (s : DeploymentTables) (store : TenantStore) (draft : DeploymentDraft) :
    Outcome (ColleagueDeployment × TenantStore × DeploymentTables) := do
  let row ← orFail (s.deployments.find? (draft.tenantId, draft.deploymentId))
    (.staleConflict "deployment rebinding base is missing")
  let existing ← deploymentFromRow store.tenant row
  require (existing.revision = draft.baseDeploymentRevision)
    (.staleConflict "deployment rebinding base is stale")
  let deployment ← ColleagueDeployment.make
    (reboundDeployment draft existing.toDeploymentFields) draft.author
  let s ← s.updateDeployment row (inactiveRow deployment.toDeploymentFields draft.author)
  pure (deployment, store, s)

def confirmedEntry (draft : DeploymentDraft) (deployment : ColleagueDeployment) : AuditEntry where
  recordType := .colleagueDeployment
  recordId := deployment.deploymentId.val
  recordRevision := deployment.revision
  action := "deployment_confirmed"
  result := "draft"
  actorPrincipalId := draft.author.principalId
  causationId := draft.draftId
  tenantId := deployment.tenantId
  ns := .colleague deployment.deploymentId
  actorKind := draft.author.kind
  correlationId := draft.correlationId
  occurredAt := draft.updatedAt
  projection := .package deployment.package.digest

/-- The accepted package of a confirmed deployment. -/
def acceptedRow (s : DeploymentTables) (draft : DeploymentDraft)
    (deployment : ColleagueDeployment) : PackageHistoryRow where
  tenantId := deployment.tenantId
  deploymentId := deployment.deploymentId
  sequence := s.nextSequence deployment.tenantId deployment.deploymentId
  package := deployment.package
  acceptedAt := deployment.updatedAt
  actorPrincipalId := draft.author.principalId

/-- The deployment that a draft is confirmed for. -/
def bindDeployment (s : DeploymentTables) (store : TenantStore) (draft : DeploymentDraft)
    (modelPrincipal servicePrincipal : Principal) :
    Outcome (ColleagueDeployment × TenantStore × DeploymentTables) :=
  if draft.kind = .create then s.createDeployment store draft modelPrincipal servicePrincipal
  else s.rebindDeployment store draft

/-- The confirmation of a draft that is not a replay. -/
def confirmDraft (ports : DeploymentPorts) (store : TenantStore) (s : DeploymentTables)
    (draft : DeploymentDraft) (expectedRevision : ℕ) (key : ReplayKey) (requestDigest : Digest)
    (modelPrincipal servicePrincipal : Principal) :
    Outcome (ColleagueDeployment × TenantStore × DeploymentTables) := do
  require (draft.state = .reviewed) (.staleConflict "only a reviewed draft can be confirmed")
  let package ← getPackage ports.packageDigest store.tenant s draft.tenantId draft.package
  require (package.trustState = .trusted ∧ package.installState = .installed)
    (.permissionDenied "deployment requires a trusted installed exact package")
  let (deployment, store, s) ← s.bindDeployment store draft modelPrincipal servicePrincipal
  let s := s.acceptPackage (s.acceptedRow draft deployment)
  let s ← s.moveDraft draft expectedRevision .reviewed .confirmed
    "deployment draft confirmation is stale"
  let s ← s.audit ports.auditId (confirmedEntry draft deployment)
  let s ← s.recordReplay key requestDigest (.deployment deployment.deploymentId) draft.updatedAt
  pure (deployment, store, s)

/-- `confirm_deployment_draft`. -/
def confirmDeploymentDraft (ports : DeploymentPorts) (store : TenantStore) (s : DeploymentTables)
    (draft : DeploymentDraft) (expectedRevision : ℕ) (idempotencyKey : StableId)
    (requestDigest : Digest) (modelPrincipal servicePrincipal : Principal) :
    Outcome (ColleagueDeployment × TenantStore × DeploymentTables) :=
  let key := deploymentKey draft.tenantId draft.deploymentId .confirmDraft draft.author
    idempotencyKey
  mutation store.tenant s (store, s) draft.author .manageDeployments key requestDigest
    (fun _ => getDeployment store.tenant s draft.tenantId draft.deploymentId)
    (s.confirmDraft ports store draft expectedRevision key requestDigest modelPrincipal
      servicePrincipal)

-- ════════════════════════════════════════════════════════════════════════
-- What the operations do
-- ════════════════════════════════════════════════════════════════════════

section Specs

variable {ports : DeploymentPorts} {store store' : TenantStore} {s t : DeploymentTables}
  {draft answer : DeploymentDraft} {expectedRevision : ℕ} {key : ReplayKey}
  {requestDigest : Digest}

/-- What the creation of a draft does to the tables. -/
structure InsertsDraft (ports : DeploymentPorts) (s t : DeploymentTables) (draft : DeploymentDraft)
    (key : ReplayKey) (requestDigest : Digest) : Prop where
  package : (s.packages.find? (draft.tenantId, draft.package)).isSome = true
  packages : t.packages = s.packages
  drafts : s.drafts.insert? (newDraftRow draft) = some t.drafts
  deployments : t.deployments = s.deployments
  history : t.history = s.history
  audits : s.audits.insert? ⟨draftCreatedEntry draft, ports.auditId (draftCreatedEntry draft).text⟩ =
    some t.audits
  replays : s.replays.insert? ⟨key, requestDigest, .draft draft.draftId, draft.createdAt⟩ =
    some t.replays

theorem insertDraft_eq_ok
    (h : s.insertDraft ports draft key requestDigest = .ok (answer, t)) :
    answer = draft ∧ InsertsDraft ports s t draft key requestDigest := by
  simp only [insertDraft, bind_eq_ok, require_eq_ok, orFail_eq_ok, audit_eq_ok,
    recordReplay_eq_ok, pure_eq_ok, exists_const, Prod.mk.injEq] at h
  obtain ⟨hpackage, drafts, hdrafts, _, ⟨audits, haudits, rfl⟩, _, ⟨replays, hreplays, rfl⟩, rfl,
    rfl⟩ := h
  exact ⟨rfl, hpackage, rfl, hdrafts, rfl, rfl, haudits, hreplays⟩

theorem moveDraft_eq_ok {source target : DeploymentDraftState} {message : String} :
    s.moveDraft draft expectedRevision source target message = .ok t ↔
      ∃ row, s.drafts.find? (draft.tenantId, draft.deploymentId, draft.draftId) = some row ∧
        (row.revision = expectedRevision ∧ row.state = source) ∧
        { s with drafts := s.drafts.replace (movedDraftRow draft target row) } = t := by
  simp only [moveDraft, bind_eq_ok, orFail_eq_ok, require_eq_ok, pure_eq_ok, exists_const]

/-- What the review of a draft does to the tables. -/
structure ReviewsDraft (ports : DeploymentPorts) (s t : DeploymentTables) (draft : DeploymentDraft)
    (expectedRevision : ℕ) (key : ReplayKey) (requestDigest : Digest) (row : DeploymentDraftRow) :
    Prop where
  found : s.drafts.find? (draft.tenantId, draft.deploymentId, draft.draftId) = some row
  revision : row.revision = expectedRevision
  state : row.state = .draft
  packages : t.packages = s.packages
  drafts : t.drafts = s.drafts.replace (movedDraftRow draft .reviewed row)
  deployments : t.deployments = s.deployments
  history : t.history = s.history
  audits : s.audits.insert? ⟨draftReviewedEntry draft expectedRevision,
    ports.auditId (draftReviewedEntry draft expectedRevision).text⟩ = some t.audits
  replays : s.replays.insert? ⟨key, requestDigest, .revision (expectedRevision + 1),
    draft.updatedAt⟩ = some t.replays

theorem reviewDraft_eq_ok
    (h : s.reviewDraft ports draft expectedRevision key requestDigest = .ok (answer, t)) :
    ∃ row, ReviewsDraft ports s t draft expectedRevision key requestDigest row := by
  simp only [reviewDraft, bind_eq_ok, require_eq_ok, moveDraft_eq_ok, audit_eq_ok,
    recordReplay_eq_ok, pure_eq_ok, exists_const, Prod.mk.injEq] at h
  obtain ⟨hstate, _, ⟨row, hrow, ⟨hrevision, hsource⟩, rfl⟩, _, ⟨audits, haudits, rfl⟩, _,
    ⟨replays, hreplays, rfl⟩, rfl, rfl⟩ := h
  exact ⟨row, hrow, hrevision, hsource, rfl, rfl, rfl, rfl, haudits, hreplays⟩

theorem deploymentFromRow_eq_ok {tenant : TenantTables} {row : DeploymentRow}
    {deployment : ColleagueDeployment} (h : deploymentFromRow tenant row = .ok deployment) :
    deployment.toDeploymentFields = row.toDeploymentFields ∧ row.WellFormed := by
  simp only [deploymentFromRow, bind_eq_ok, ColleagueDeployment.make_eq_ok] at h
  obtain ⟨_, _, hwell, _, rfl⟩ := h
  exact ⟨rfl, hwell⟩

theorem getDeployment_eq_ok {tenant : TenantTables} {tenantId deploymentId : StableId}
    {deployment : ColleagueDeployment}
    (h : getDeployment tenant s tenantId deploymentId = .ok deployment) :
    ∃ row, s.deployments.find? (tenantId, deploymentId) = some row ∧
      deployment.toDeploymentFields = row.toDeploymentFields ∧ row.WellFormed := by
  simp only [getDeployment, bind_eq_ok, orFail_eq_ok] at h
  obtain ⟨row, hrow, hdeployment⟩ := h
  exact ⟨row, hrow, deploymentFromRow_eq_ok hdeployment⟩

theorem getPackage_eq_ok {digest : AgentPackage → Digest} {tenant : TenantTables}
    {tenantId : StableId} {version : PackageVersion} {record : PackageRecord}
    (h : getPackage digest tenant s tenantId version = .ok record) :
    ∃ row, s.packages.find? (tenantId, version) = some row ∧
      record.toPackageFields = row.toPackageFields ∧ row.WellFormed digest := by
  simp only [getPackage, bind_eq_ok, orFail_eq_ok] at h
  obtain ⟨row, hrow, hrecord⟩ := h
  exact ⟨row, hrow, packageFromRow_eq_ok hrecord⟩

/-- What a confirmed draft does to the deployments: it creates one, or it rebinds one. -/
inductive BindsDeployment (store : TenantStore) (s : DeploymentTables) (draft : DeploymentDraft)
    (modelPrincipal servicePrincipal : Principal) :
    DeploymentFields → TenantStore → Table DeploymentRow → Prop
  | created {store' : TenantStore} {deployments : Table DeploymentRow}
      (kind : draft.kind = .create)
      (absent : s.deployments.find? (draft.tenantId, draft.deploymentId) = none)
      (base : draft.baseDeploymentRevision = 0)
      (colleague : store.insertDraftColleague draft modelPrincipal servicePrincipal = .ok store')
      (well : (createdDeployment draft).WellFormed)
      (insert : s.deployments.insert? (inactiveRow (createdDeployment draft) draft.author) =
        some deployments) :
      BindsDeployment store s draft modelPrincipal servicePrincipal (createdDeployment draft)
        store' deployments
  | rebound {row : DeploymentRow} (kind : draft.kind ≠ .create)
      (found : s.deployments.find? (draft.tenantId, draft.deploymentId) = some row)
      (base : row.revision = draft.baseDeploymentRevision)
      (readable : row.WellFormed)
      (well : (reboundDeployment draft row.toDeploymentFields).WellFormed) :
      BindsDeployment store s draft modelPrincipal servicePrincipal
        (reboundDeployment draft row.toDeploymentFields) store
        (s.deployments.replace
          (inactiveRow (reboundDeployment draft row.toDeploymentFields) draft.author))

variable {modelPrincipal servicePrincipal : Principal} {deployment : ColleagueDeployment}

theorem bindDeployment_eq_ok
    (h : s.bindDeployment store draft modelPrincipal servicePrincipal =
      .ok (deployment, store', t)) :
    draft.author.kind ≠ .model ∧ ∃ deployments,
      BindsDeployment store s draft modelPrincipal servicePrincipal deployment.toDeploymentFields
        store' deployments ∧
      (s.packages.find? (draft.tenantId, draft.package)).isSome = true ∧
      { s with deployments := deployments } = t := by
  unfold bindDeployment at h
  split at h
  · rename_i hkind
    simp only [createDeployment, bind_eq_ok, require_eq_ok, ColleagueDeployment.make_eq_ok,
      insertDeployment_eq_ok, pure_eq_ok, exists_const, Prod.mk.injEq,
      Option.isNone_iff_eq_none] at h
    obtain ⟨⟨habsent, hbase⟩, _, hcolleague, _, ⟨hwell, hactor, rfl⟩, _, ⟨_, _, hpackage,
      deployments, hinsert, rfl⟩, rfl, rfl, rfl⟩ := h
    exact ⟨hactor, deployments, .created hkind habsent hbase hcolleague hwell hinsert, hpackage,
      rfl⟩
  · rename_i hkind
    simp only [rebindDeployment, bind_eq_ok, orFail_eq_ok, require_eq_ok,
      ColleagueDeployment.make_eq_ok, updateDeployment_eq_ok, pure_eq_ok, exists_const,
      Prod.mk.injEq] at h
    obtain ⟨row, hrow, existing, hexisting, hbase, _, ⟨hwell, hactor, rfl⟩, _, ⟨_, _, hpackage,
      rfl⟩, rfl, rfl, rfl⟩ := h
    obtain ⟨hfields, hreadable⟩ := deploymentFromRow_eq_ok hexisting
    rw [hfields] at hbase hwell hpackage ⊢
    have hkey := Table.key_of_find? hrow
    simp only [Keyed.key, Prod.mk.injEq] at hkey
    refine ⟨hactor, _, .rebound hkind hrow hbase hreadable hwell, ?_, rfl⟩
    rw [← hkey.1]
    exact hpackage

/-- What a confirmation does to the tables. -/
structure ConfirmsDraft (ports : DeploymentPorts) (store store' : TenantStore)
    (s t : DeploymentTables) (draft : DeploymentDraft) (expectedRevision : ℕ) (key : ReplayKey)
    (requestDigest : Digest) (modelPrincipal servicePrincipal : Principal)
    (deployment : ColleagueDeployment) (row : DeploymentDraftRow) : Prop where
  reviewed : draft.state = .reviewed
  package : ∃ package, s.packages.find? (draft.tenantId, draft.package) = some package ∧
    package.trustState = .trusted ∧ package.installState = .installed
  author : draft.author.kind ≠ .model
  binds : BindsDeployment store s draft modelPrincipal servicePrincipal
    deployment.toDeploymentFields store' t.deployments
  found : s.drafts.find? (draft.tenantId, draft.deploymentId, draft.draftId) = some row
  revision : row.revision = expectedRevision
  state : row.state = .reviewed
  packages : t.packages = s.packages
  drafts : t.drafts = s.drafts.replace (movedDraftRow draft .confirmed row)
  history : s.history.Within t.history
  accepted : (t.history.find? (deployment.tenantId, deployment.deploymentId,
    deployment.package)).isSome = true
  audits : s.audits.insert? ⟨confirmedEntry draft deployment,
    ports.auditId (confirmedEntry draft deployment).text⟩ = some t.audits
  replays : s.replays.insert? ⟨key, requestDigest, .deployment deployment.deploymentId,
    draft.updatedAt⟩ = some t.replays

theorem confirmDraft_eq_ok
    (h : s.confirmDraft ports store draft expectedRevision key requestDigest modelPrincipal
      servicePrincipal = .ok (deployment, store', t)) :
    ∃ row, ConfirmsDraft ports store store' s t draft expectedRevision key requestDigest
      modelPrincipal servicePrincipal deployment row := by
  simp only [confirmDraft, bind_eq_ok, require_eq_ok, moveDraft_eq_ok, audit_eq_ok,
    recordReplay_eq_ok, pure_eq_ok, exists_const, Prod.exists, Prod.mk.injEq] at h
  obtain ⟨hstate, package, hpackage, htrusted, deployment, store', bound, hbind, _,
    ⟨row, hrow, ⟨hrevision, hsource⟩, rfl⟩, _, ⟨audits, haudits, rfl⟩, _,
    ⟨replays, hreplays, rfl⟩, rfl, rfl, rfl⟩ := h
  obtain ⟨hactor, deployments, hbinds, _, rfl⟩ := bindDeployment_eq_ok hbind
  obtain ⟨prow, hprow, hfields, _⟩ := getPackage_eq_ok hpackage
  obtain ⟨history, haccept, hwithin, haccepted⟩ := acceptPackage_eq
    { s with deployments := deployments }
    (acceptedRow { s with deployments := deployments } draft deployment)
  rw [haccept] at hrow haudits hreplays ⊢
  rw [hfields] at htrusted
  exact ⟨row, hstate, ⟨prow, hprow, htrusted⟩, hactor, hbinds, hrow, hrevision, hsource, rfl, rfl,
    hwithin, haccepted, haudits, hreplays⟩

end Specs

end DeploymentTables

end DigitalColleagues
