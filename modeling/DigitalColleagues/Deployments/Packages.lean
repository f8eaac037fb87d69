import DigitalColleagues.Deployments.Tables

/-!
# Package operations of the deployment store

The registration of a package version and the changes of its trust and of its
installation. Every mutation of the store first asks for the current authority
of its actor and then the replay ledger, and only then looks at the state.

## Main definitions

- `mutation` — the common start of every mutation
- `registerPackage`, `changePackageState` — the operations
- `PackageAction.Allows` — the table of package transitions
-/

namespace DigitalColleagues

/-- The identifiers and digests that the services and the store compute. -/
structure DeploymentPorts where
  derive : String → List String → StableId
  packageDigest : AgentPackage → Digest
  auditId : String → StableId

/-- The changes of a package that an action may make. -/
def PackageAction.Allows (action : PackageAction) (current next : PackageFields) : Prop :=
  match action with
  | .trust => current.trustState = .untrusted ∧ next.trustState = .trusted ∧
      next.installState = current.installState
  | .revoke => current.trustState ≠ .revoked ∧ next.trustState = .revoked ∧
      next.installState = current.installState
  | .install => current.trustState = .trusted ∧ current.installState = .notInstalled ∧
      next.trustState = .trusted ∧ next.installState = .installed

instance PackageAction.decidableAllows (action : PackageAction) (current next : PackageFields) :
    Decidable (action.Allows current next) := by
  cases action <;> unfold PackageAction.Allows <;> infer_instance

namespace DeploymentTables

-- ════════════════════════════════════════════════════════════════════════
-- Mutations
-- ════════════════════════════════════════════════════════════════════════

/-- A mutation: the authority of the actor, the answer of the replay ledger with
    the state as it is, or else what the mutation does. -/
def mutation {α σ : Type} (tenant : TenantTables) (s : DeploymentTables) (state : σ)
    (actor : Principal) (action : AuthorizationAction) (key : ReplayKey) (requestDigest : Digest)
    (replayed : ReplayResult → Outcome α) (perform : Outcome (α × σ)) : Outcome (α × σ) := do
  let _ ← tenant.requireCurrentMembership actor action key.ns
  match ← s.replayResult key requestDigest with
  | some result => do
    let answer ← replayed result
    pure (answer, state)
  | none => perform

/-- What an operation did that committed: nothing but an answer, or its work. -/
theorem mutation_eq_ok {α σ : Type} {tenant : TenantTables} {s : DeploymentTables} {state t : σ}
    {actor : Principal} {action : AuthorizationAction} {key : ReplayKey} {requestDigest : Digest}
    {replayed : ReplayResult → Outcome α} {perform : Outcome (α × σ)} {a : α}
    (h : mutation tenant s state actor action key requestDigest replayed perform = .ok (a, t)) :
    (∃ m, tenant.requireCurrentMembership actor action key.ns = .ok m) ∧
      ((∃ row, s.replays.find? key = some row ∧ row.requestDigest = requestDigest ∧
          replayed row.result = .ok a ∧ t = state) ∨
        s.replays.find? key = none ∧ perform = .ok (a, t)) := by
  simp only [mutation, bind_eq_ok] at h
  obtain ⟨m, hm, answer, hanswer, h⟩ := h
  refine ⟨⟨m, hm⟩, ?_⟩
  unfold replayResult at hanswer
  cases hrow : s.replays.find? key with
  | none =>
    rw [hrow] at hanswer
    obtain rfl := Except.ok.inj hanswer
    exact .inr ⟨rfl, h⟩
  | some row =>
    rw [hrow] at hanswer
    simp only [bind_eq_ok, require_eq_ok, pure_eq_ok, exists_const] at hanswer
    obtain ⟨hdigest, rfl⟩ := hanswer
    simp only [bind_eq_ok, pure_eq_ok, Prod.mk.injEq] at h
    obtain ⟨_, ha, rfl, rfl⟩ := h
    exact .inl ⟨row, rfl, hdigest, ha, rfl⟩

/-- A key that the ledger knows answers, for the request it was used for. -/
theorem mutation_replay {α σ : Type} {tenant : TenantTables} {s : DeploymentTables} {state : σ}
    {actor : Principal} {action : AuthorizationAction} {key : ReplayKey} {row : OperationReplay}
    {replayed : ReplayResult → Outcome α} {perform : Outcome (α × σ)} {a : α} {m : Membership}
    (hm : tenant.requireCurrentMembership actor action key.ns = .ok m)
    (hrow : s.replays.find? key = some row) (ha : replayed row.result = .ok a) :
    mutation tenant s state actor action key row.requestDigest replayed perform =
      .ok (a, state) := by
  have hanswer : s.replayResult key row.requestDigest = .ok (some row.result) := by
    simp only [replayResult, hrow, bind_eq_ok, require_eq_ok, pure_eq_ok, exists_const, and_true]
  rw [mutation, hm]
  show (s.replayResult key row.requestDigest >>= _) = _
  rw [hanswer]
  show (replayed row.result >>= _) = _
  rw [ha]
  rfl

/-- A key that was used for another request raises. -/
theorem mutation_rebound {α σ : Type} {tenant : TenantTables} {s : DeploymentTables} {state : σ}
    {actor : Principal} {action : AuthorizationAction} {key : ReplayKey} {requestDigest : Digest}
    {row : OperationReplay} {replayed : ReplayResult → Outcome α} {perform : Outcome (α × σ)}
    (hrow : s.replays.find? key = some row) (hdigest : row.requestDigest ≠ requestDigest)
    (x : α × σ) :
    mutation tenant s state actor action key requestDigest replayed perform ≠ .ok x := by
  intro h
  obtain ⟨_, ⟨row', hrow', hdigest', _⟩ | ⟨hnone, _⟩⟩ := mutation_eq_ok h
  · obtain rfl := Option.some.inj (hrow.symm.trans hrow')
    exact hdigest hdigest'
  · exact absurd (hrow.symm.trans hnone) (by simp)

/-- The answer to a recorded mutation, before anything else is looked at; the recorded
    result must be the one that the request leads to. -/
def replayLookup {α : Type} (tenant : TenantTables) (s : DeploymentTables) (actor : Principal)
    (action : AuthorizationAction) (key : ReplayKey) (requestDigest : Digest)
    (expected : ReplayResult) (invalid : Failure) (read : Outcome α) : Outcome (Option α) := do
  let _ ← tenant.requireCurrentMembership actor action key.ns
  match ← s.replayResult key requestDigest with
  | none => pure none
  | some result => do
    require (result = expected) invalid
    let answer ← read
    pure (some answer)

theorem replayLookup_eq_some {α : Type} {tenant : TenantTables} {s : DeploymentTables}
    {actor : Principal} {action : AuthorizationAction} {key : ReplayKey} {requestDigest : Digest}
    {expected : ReplayResult} {invalid : Failure} {read : Outcome α} {a : α}
    (h : replayLookup tenant s actor action key requestDigest expected invalid read =
      .ok (some a)) :
    ∃ row, s.replays.find? key = some row ∧ row.requestDigest = requestDigest ∧
      row.result = expected ∧ read = .ok a := by
  simp only [replayLookup, bind_eq_ok] at h
  obtain ⟨_, _, answer, hanswer, h⟩ := h
  unfold replayResult at hanswer
  cases hrow : s.replays.find? key with
  | none =>
    rw [hrow] at hanswer
    obtain rfl := Except.ok.inj hanswer
    exact absurd (pure_eq_ok.mp h) (by simp)
  | some row =>
    rw [hrow] at hanswer
    simp only [bind_eq_ok, require_eq_ok, pure_eq_ok, exists_const] at hanswer
    obtain ⟨hdigest, rfl⟩ := hanswer
    simp only [bind_eq_ok, require_eq_ok, pure_eq_ok, exists_const, Option.some.injEq] at h
    obtain ⟨hexpected, _, hread, rfl⟩ := h
    exact ⟨row, rfl, hdigest, hexpected, hread⟩

-- ════════════════════════════════════════════════════════════════════════
-- Registration
-- ════════════════════════════════════════════════════════════════════════

/-- `f"{package_id}:{version}"`. -/
def packageRecordId (package : AgentPackage) : String :=
  package.packageId.val ++ ":" ++ package.version

/-- What the audit says of a registration. -/
def registeredEntry (record : PackageRecord) : AuditEntry where
  recordType := .agentPackage
  recordId := packageRecordId record.package
  recordRevision := record.revision
  action := "registered"
  result := "untrusted"
  actorPrincipalId := record.createdBy.principalId
  causationId := record.causationId
  tenantId := record.tenantId
  ns := .tenant
  actorKind := record.createdBy.kind
  correlationId := record.correlationId
  occurredAt := record.createdAt
  projection := .registered record.packageDigest record.source

/-- The row of a new package. -/
def newPackageRow (record : PackageRecord) : PackageRow :=
  ⟨record.toPackageFields, record.createdBy.principalId, record.createdBy.kind⟩

/-- The new row, its audit row and its replay row. -/
def insertPackage (ports : DeploymentPorts) (s : DeploymentTables) (record : PackageRecord)
    (key : ReplayKey) (requestDigest : Digest) : Outcome (PackageRecord × DeploymentTables) := do
  let packages ← orFail (s.packages.insert? (newPackageRow record))
    (.conflict "package version identity already exists")
  let s ← { s with packages := packages }.audit ports.auditId (registeredEntry record)
  let s ← s.recordReplay key requestDigest (.registered record.packageDigest) record.createdAt
  pure (record, s)

def registrationKey (tenantId : StableId) (actor : Principal) (idempotencyKey : StableId) :
    ReplayKey :=
  ⟨tenantId, .tenant, .registerPackage, actor.principalId, idempotencyKey⟩

/-- `registration_replay`. -/
def registrationReplay (ports : DeploymentPorts) (tenant : TenantTables) (s : DeploymentTables)
    (tenantId : StableId) (actor : Principal) (version : PackageVersion)
    (idempotencyKey : StableId) (requestDigest : Digest) : Outcome (Option PackageRecord) :=
  replayLookup tenant s actor .manageAgentPackages (registrationKey tenantId actor idempotencyKey)
    requestDigest (.registered version.digest)
    (.conflict "durable package registration replay is invalid")
    (getPackage ports.packageDigest tenant s tenantId version)

/-- `register_package`. -/
def registerPackage (ports : DeploymentPorts) (tenant : TenantTables) (s : DeploymentTables)
    (record : PackageRecord) (idempotencyKey : StableId) (requestDigest : Digest) :
    Outcome (PackageRecord × DeploymentTables) :=
  let key := registrationKey record.tenantId record.createdBy idempotencyKey
  mutation tenant s s record.createdBy .manageAgentPackages key requestDigest
    (fun _ => getPackage ports.packageDigest tenant s record.tenantId record.version)
    (s.insertPackage ports record key requestDigest)

/-- What a registration does to the tables. -/
structure RegistersPackage (ports : DeploymentPorts) (s t : DeploymentTables)
    (record : PackageRecord) (key : ReplayKey) (requestDigest : Digest) : Prop where
  packages : s.packages.insert? (newPackageRow record) = some t.packages
  drafts : t.drafts = s.drafts
  deployments : t.deployments = s.deployments
  history : t.history = s.history
  audits : s.audits.insert? ⟨registeredEntry record, ports.auditId (registeredEntry record).text⟩ =
    some t.audits
  replays : s.replays.insert? ⟨key, requestDigest, .registered record.packageDigest,
    record.createdAt⟩ = some t.replays

theorem insertPackage_eq_ok {ports : DeploymentPorts} {s t : DeploymentTables}
    {record answer : PackageRecord} {key : ReplayKey} {requestDigest : Digest}
    (h : s.insertPackage ports record key requestDigest = .ok (answer, t)) :
    answer = record ∧ RegistersPackage ports s t record key requestDigest := by
  simp only [insertPackage, bind_eq_ok, orFail_eq_ok, audit_eq_ok, recordReplay_eq_ok, pure_eq_ok,
    Prod.mk.injEq] at h
  obtain ⟨packages, hpackages, _, ⟨audits, haudits, rfl⟩, _, ⟨replays, hreplays, rfl⟩, rfl, rfl⟩ := h
  exact ⟨rfl, hpackages, rfl, rfl, rfl, haudits, hreplays⟩

-- ════════════════════════════════════════════════════════════════════════
-- Blocked deployments
-- ════════════════════════════════════════════════════════════════════════

/-- The active deployments bound to a package version. -/
def boundActive (s : DeploymentTables) (tenantId : StableId) (version : PackageVersion) :
    List DeploymentRow :=
  s.deployments.rows.filter fun r =>
    r.tenantId = tenantId ∧ r.package = version ∧ r.lifecycle = .active

/-- The row of a deployment after the revocation of its package. -/
def blockedRow (record : PackageRecord) (actor : Principal) (row : DeploymentRow) :
    DeploymentRow :=
  { row with
    lifecycle := .blocked
    activeSlot := none
    updatedByPrincipalId := actor.principalId
    updatedByKind := .human
    updatedAt := record.updatedAt
    correlationId := record.correlationId
    causationId := record.causationId
    revision := row.revision + 1 }

def blockedEntry (record : PackageRecord) (actor : Principal) (row : DeploymentRow) :
    AuditEntry where
  recordType := .colleagueDeployment
  recordId := row.deploymentId.val
  recordRevision := row.revision + 1
  action := "package_revocation_blocked"
  result := "blocked"
  actorPrincipalId := actor.principalId
  causationId := record.causationId
  tenantId := record.tenantId
  ns := .colleague row.deploymentId
  actorKind := actor.kind
  correlationId := record.correlationId
  occurredAt := record.updatedAt
  projection := .package record.packageDigest

/-- One deployment is blocked. -/
def blockDeployment (ports : DeploymentPorts) (record : PackageRecord) (actor : Principal)
    (s : DeploymentTables) (row : DeploymentRow) : Outcome DeploymentTables := do
  let s ← s.updateDeployment row (blockedRow record actor row)
  s.audit ports.auditId (blockedEntry record actor row)

/-- Every active deployment of the package is blocked. -/
def blockActive (ports : DeploymentPorts) (record : PackageRecord) (actor : Principal)
    (s : DeploymentTables) : Outcome DeploymentTables :=
  (s.boundActive record.tenantId record.version).foldlM (blockDeployment ports record actor) s

/-- The audit row of a blocked deployment. -/
def blockedAudit (ports : DeploymentPorts) (record : PackageRecord) (actor : Principal)
    (row : DeploymentRow) : CausalAudit :=
  ⟨blockedEntry record actor row, ports.auditId (blockedEntry record actor row).text⟩

section Block

variable {ports : DeploymentPorts} {record : PackageRecord} {actor : Principal}

theorem foldlM_blockDeployment {rows : List DeploymentRow} {s t : DeploymentTables}
    (hnodup : (rows.map Keyed.key).Nodup)
    (hfound : ∀ r ∈ rows, s.deployments.find? (Keyed.key r) = some r)
    (h : rows.foldlM (blockDeployment ports record actor) s = .ok t) :
    ∃ deployments audits, t = { s with deployments := deployments, audits := audits } ∧
      (∀ k, deployments.find? k = (s.deployments.find? k).map fun r =>
        if r ∈ rows then blockedRow record actor r else r) ∧
      audits.rows = s.audits.rows ++ rows.map (blockedAudit ports record actor) := by
  induction rows generalizing s with
  | nil =>
    obtain rfl := pure_eq_ok.mp h
    exact ⟨s.deployments, s.audits, rfl, fun k => by simp, by simp⟩
  | cons row rows ih =>
    simp only [List.foldlM_cons, blockDeployment, bind_eq_ok, updateDeployment_eq_ok,
      audit_eq_ok] at h
    obtain ⟨_, ⟨_, ⟨_, _, _, rfl⟩, audits, haudits, rfl⟩, h⟩ := h
    rw [List.map_cons, List.nodup_cons] at hnodup
    have hkey : ∀ r ∈ rows, Keyed.key r ≠ Keyed.key (blockedRow record actor row) :=
      fun r hr he => hnodup.1 (List.mem_map.mpr ⟨r, hr, he⟩)
    obtain ⟨deployments, audits', rfl, hdeployments, haudits'⟩ := ih hnodup.2 (fun r hr =>
      (Table.find?_replace_of_ne (hkey r hr)).trans (hfound r (List.mem_cons_of_mem _ hr))) h
    refine ⟨deployments, audits', rfl, fun k => ?_, ?_⟩
    · rw [hdeployments k]
      show ((s.deployments.replace (blockedRow record actor row)).find? k).map _ = _
      rw [Table.find?_replace_eq_map, Option.map_map]
      cases hk : s.deployments.find? k with
      | none => rfl
      | some r =>
        rw [Option.map_some, Option.map_some, Function.comp_apply]
        by_cases hr : r = row
        · have hblocked : blockedRow record actor row ∉ rows := fun hmem => hkey _ hmem rfl
          have hself : Keyed.key row = Keyed.key (blockedRow record actor row) := rfl
          rw [hr, if_pos hself, if_neg hblocked, if_pos List.mem_cons_self]
        · have hne : ¬Keyed.key r = Keyed.key (blockedRow record actor row) := fun he =>
            hr (Table.eq_of_key_eq (Table.mem_of_find? hk)
              (Table.mem_of_find? (hfound row List.mem_cons_self)) he)
          rw [if_neg hne]
          simp only [List.mem_cons, hr, false_or]
    · rw [haudits', (Table.insert?_eq_some.mp haudits).2, List.map_cons, List.append_assoc]
      rfl

/-- A revocation blocks exactly the active deployments of the package, each with its
    audit row. -/
theorem blockActive_eq_ok {s t : DeploymentTables} (h : s.blockActive ports record actor = .ok t) :
    ∃ deployments audits, t = { s with deployments := deployments, audits := audits } ∧
      (∀ k, deployments.find? k = (s.deployments.find? k).map fun r =>
        if r ∈ s.boundActive record.tenantId record.version then blockedRow record actor r else r) ∧
      audits.rows = s.audits.rows ++
        (s.boundActive record.tenantId record.version).map (blockedAudit ports record actor) := by
  refine foldlM_blockDeployment ?_ (fun r hr => ?_) h
  · exact s.deployments.nodup.sublist (List.filter_sublist.map _)
  · exact Table.find?_of_mem (List.mem_of_mem_filter hr)

end Block

-- ════════════════════════════════════════════════════════════════════════
-- Package states
-- ════════════════════════════════════════════════════════════════════════

/-- The row of a package in its next state. -/
def changedPackageRow (record : PackageRecord) (row : PackageRow) : PackageRow :=
  { row with
    trustState := record.trustState
    installState := record.installState
    updatedAt := record.updatedAt
    correlationId := record.correlationId
    causationId := record.causationId
    revision := record.revision }

def changedEntry (record : PackageRecord) (actor : Principal) (action : PackageAction) :
    AuditEntry where
  recordType := .agentPackage
  recordId := packageRecordId record.package
  recordRevision := record.revision
  action := action.value
  result := if action = .install then "installed" else record.trustState.value
  actorPrincipalId := actor.principalId
  causationId := record.causationId
  tenantId := record.tenantId
  ns := .tenant
  actorKind := actor.kind
  correlationId := record.correlationId
  occurredAt := record.updatedAt
  projection := .package record.packageDigest

/-- The trust decision of a change, which an installation is not. -/
def recordDecision (s : DeploymentTables) (record : PackageRecord) (actor : Principal)
    (action : PackageAction) : Outcome DeploymentTables :=
  if action = .install then .ok s
  else do
    let trustDecisions ← orFail (s.trustDecisions.insert?
      ⟨record.tenantId, action, record.version, record.revision, record.trustState,
        actor.principalId, record.updatedAt⟩) .integrity
    pure { s with trustDecisions := trustDecisions }

/-- A revocation blocks; no other action does. -/
def blockRevoked (ports : DeploymentPorts) (s : DeploymentTables) (record : PackageRecord)
    (actor : Principal) (action : PackageAction) : Outcome DeploymentTables :=
  if action = .revoke then s.blockActive ports record actor else .ok s

/-- The change of a package that is not a replay. -/
def changePackage (ports : DeploymentPorts) (tenant : TenantTables) (s : DeploymentTables)
    (record : PackageRecord) (actor : Principal) (action : PackageAction) (expectedRevision : ℕ)
    (key : ReplayKey) (requestDigest : Digest) : Outcome (PackageRecord × DeploymentTables) := do
  let row ← orFail (s.packages.find? (record.tenantId, record.version))
    (.notFound "exact package version was not found")
  let current ← packageFromRow ports.packageDigest tenant row
  require (current.revision = expectedRevision) (.staleConflict "package revision is stale")
  require (action.Allows current.toPackageFields record.toPackageFields)
    (.permissionDenied "package lifecycle transition is forbidden")
  require (record.revision = expectedRevision + 1) (.staleConflict "package revision is stale")
  let s := { s with packages := s.packages.replace (changedPackageRow record row) }
  let s ← s.recordDecision record actor action
  let s ← s.blockRevoked ports record actor action
  let s ← s.audit ports.auditId (changedEntry record actor action)
  let s ← s.recordReplay key requestDigest (.revision record.revision) record.updatedAt
  pure (record, s)

def packageKey (tenantId : StableId) (actor : Principal) (action : PackageAction)
    (idempotencyKey : StableId) : ReplayKey :=
  ⟨tenantId, .tenant, .package action, actor.principalId, idempotencyKey⟩

/-- `change_package_state`. -/
def changePackageState (ports : DeploymentPorts) (tenant : TenantTables) (s : DeploymentTables)
    (record : PackageRecord) (actor : Principal) (action : PackageAction) (expectedRevision : ℕ)
    (idempotencyKey : StableId) (requestDigest : Digest) :
    Outcome (PackageRecord × DeploymentTables) :=
  let key := packageKey record.tenantId actor action idempotencyKey
  mutation tenant s s actor .manageAgentPackages key requestDigest
    (fun _ => getPackage ports.packageDigest tenant s record.tenantId record.version)
    (s.changePackage ports tenant record actor action expectedRevision key requestDigest)

/-- The deployments that an action blocks. -/
def blockedBy (s : DeploymentTables) (record : PackageRecord) (action : PackageAction) :
    List DeploymentRow :=
  if action = .revoke then s.boundActive record.tenantId record.version else []

/-- What a change of a package does to its row and to the tables. -/
structure ChangesPackage (ports : DeploymentPorts) (tenant : TenantTables) (s t : DeploymentTables)
    (record : PackageRecord) (actor : Principal) (action : PackageAction) (key : ReplayKey)
    (requestDigest : Digest) (row : PackageRow) : Prop where
  found : s.packages.find? (record.tenantId, record.version) = some row
  readable : ∃ current, packageFromRow ports.packageDigest tenant row = .ok current
  revision : record.revision = row.revision + 1
  allowed : action.Allows row.toPackageFields record.toPackageFields
  packages : t.packages = s.packages.replace (changedPackageRow record row)
  drafts : t.drafts = s.drafts
  history : t.history = s.history
  deployments : ∀ k, t.deployments.find? k = (s.deployments.find? k).map fun r =>
    if r ∈ s.blockedBy record action then blockedRow record actor r else r
  audits : t.audits.rows = s.audits.rows ++
    (s.blockedBy record action).map (blockedAudit ports record actor) ++
      [⟨changedEntry record actor action, ports.auditId (changedEntry record actor action).text⟩]
  replays : s.replays.insert? ⟨key, requestDigest, .revision record.revision, record.updatedAt⟩ =
    some t.replays

theorem packageFromRow_eq_ok {digest : AgentPackage → Digest} {tenant : TenantTables}
    {row : PackageRow} {record : PackageRecord} (h : packageFromRow digest tenant row = .ok record) :
    record.toPackageFields = row.toPackageFields ∧ row.WellFormed digest := by
  simp only [packageFromRow, bind_eq_ok, PackageRecord.make_eq_ok] at h
  obtain ⟨_, _, hwell, _, rfl⟩ := h
  exact ⟨rfl, hwell⟩

theorem recordDecision_eq_ok {s t : DeploymentTables} {record : PackageRecord} {actor : Principal}
    {action : PackageAction} (h : s.recordDecision record actor action = .ok t) :
    ∃ trustDecisions, { s with trustDecisions := trustDecisions } = t := by
  unfold recordDecision at h
  split at h
  · exact ⟨s.trustDecisions, Except.ok.inj h⟩
  · simp only [bind_eq_ok, pure_eq_ok] at h
    obtain ⟨trustDecisions, _, rfl⟩ := h
    exact ⟨trustDecisions, rfl⟩

/-- What the revocation of a package blocks, and other actions leave. -/
theorem blockRevoked_eq_ok {ports : DeploymentPorts} {record : PackageRecord} {actor : Principal}
    {action : PackageAction} {s t : DeploymentTables}
    (h : s.blockRevoked ports record actor action = .ok t) :
    ∃ deployments audits, t = { s with deployments := deployments, audits := audits } ∧
      (∀ k, deployments.find? k = (s.deployments.find? k).map fun r =>
        if r ∈ s.blockedBy record action then blockedRow record actor r else r) ∧
      audits.rows = s.audits.rows ++
        (s.blockedBy record action).map (blockedAudit ports record actor) := by
  unfold blockRevoked at h
  unfold blockedBy
  by_cases hrevoke : action = .revoke
  · rw [if_pos hrevoke] at h ⊢
    exact blockActive_eq_ok h
  · rw [if_neg hrevoke] at h ⊢
    obtain rfl := Except.ok.inj h
    exact ⟨s.deployments, s.audits, rfl, fun k => by simp, by simp⟩

theorem changePackage_eq_ok {ports : DeploymentPorts} {tenant : TenantTables}
    {s t : DeploymentTables} {record answer : PackageRecord} {actor : Principal}
    {action : PackageAction} {expectedRevision : ℕ} {key : ReplayKey} {requestDigest : Digest}
    (h : s.changePackage ports tenant record actor action expectedRevision key requestDigest =
      .ok (answer, t)) :
    answer = record ∧
      ∃ row, ChangesPackage ports tenant s t record actor action key requestDigest row := by
  simp only [changePackage, bind_eq_ok, orFail_eq_ok, require_eq_ok, audit_eq_ok,
    recordReplay_eq_ok, pure_eq_ok, exists_const, Prod.mk.injEq] at h
  obtain ⟨row, hrow, current, hcurrent, hrevision, hallowed, hnext, _, hdecision, _, hblock, _,
    ⟨audits, haudits, rfl⟩, _, ⟨replays, hreplays, rfl⟩, rfl, rfl⟩ := h
  obtain ⟨trustDecisions, rfl⟩ := recordDecision_eq_ok hdecision
  obtain ⟨deployments, audits', rfl, hdeployments, haudits'⟩ := blockRevoked_eq_ok hblock
  obtain ⟨hfields, _⟩ := packageFromRow_eq_ok hcurrent
  refine ⟨rfl, row, hrow, ⟨current, hcurrent⟩, ?_, ?_, rfl, rfl, rfl, hdeployments, ?_, hreplays⟩
  · rw [hnext, ← hrevision, hfields]
  · rwa [hfields] at hallowed
  · rw [(Table.insert?_eq_some.mp haudits).2, haudits']
    rfl

end DeploymentTables

end DigitalColleagues
