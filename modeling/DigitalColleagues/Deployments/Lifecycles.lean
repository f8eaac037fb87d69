import DigitalColleagues.Deployments.Drafts

/-!
# Lifecycle operations of the deployment store

The transitions of a deployment through the lifecycle table, which hand out the
ten active slots of the host, and the creation of the initial colleague, whose
deployment is active from the start.

## Main definitions

- `transitionDeployment` — a lifecycle transition
- `legacyPackage`, `createInitialColleague` — the initial colleague
-/

namespace DigitalColleagues

-- ════════════════════════════════════════════════════════════════════════
-- Transitions
-- ════════════════════════════════════════════════════════════════════════

/-- The arguments of `transition_deployment`. -/
structure TransitionCommand where
  tenantId : StableId
  deploymentId : StableId
  target : DeploymentLifecycle
  actor : Principal
  expectedRevision : ℕ
  expectedPackageDigest : Digest
  idempotencyKey : StableId
  requestDigest : Digest
  occurredAt : Instant
  correlationId : StableId
  causationId : StableId

namespace TransitionCommand

variable (cmd : TransitionCommand)

def key : ReplayKey :=
  DeploymentTables.deploymentKey cmd.tenantId cmd.deploymentId .lifecycle cmd.actor cmd.idempotencyKey

/-- The audit entry of a transition. -/
def entry (revision : ℕ) (result : String) (projection : AuditProjection) : AuditEntry where
  recordType := .colleagueDeployment
  recordId := cmd.deploymentId.val
  recordRevision := revision
  action := "lifecycle"
  result := result
  actorPrincipalId := cmd.actor.principalId
  causationId := cmd.causationId
  tenantId := cmd.tenantId
  ns := .colleague cmd.deploymentId
  actorKind := cmd.actor.kind
  correlationId := cmd.correlationId
  occurredAt := cmd.occurredAt
  projection := projection

def limitReached : String := "active_deployment_limit_reached"

/-- The entry of a refused activation; the deployment keeps its revision. -/
def refusedEntry (current : DeploymentFields) : AuditEntry :=
  cmd.entry current.revision limitReached (.limit 10 10)

/-- The entry of an applied transition. -/
def appliedEntry (current : DeploymentFields) : AuditEntry :=
  cmd.entry (current.revision + 1) cmd.target.value (.lifecycle current.lifecycle cmd.target)

/-- The fields of a deployment after a transition. -/
def next (current : DeploymentFields) : DeploymentFields :=
  { current with
    lifecycle := cmd.target
    updatedAt := cmd.occurredAt
    correlationId := cmd.correlationId
    causationId := cmd.causationId
    revision := current.revision + 1 }

/-- The row of a deployment after a transition. -/
def row (current : DeploymentFields) (slot : Option ℕ) : DeploymentRow :=
  ⟨cmd.next current, slot, cmd.actor.principalId, .human⟩

end TransitionCommand

namespace DeploymentTables

/-- The failures that a transition makes of a violated constraint. -/
def lifecycleConflict : Failure → Failure
  | .constraint _ => .conflict TransitionCommand.limitReached
  | _ => .conflict "deployment lifecycle constraint conflict"

/-- The refusal of an activation beyond the limit; it is audited and replayed. -/
def refuseTransition (ports : DeploymentPorts) (s : DeploymentTables) (cmd : TransitionCommand)
    (current : ColleagueDeployment) : Outcome (LifecycleTransitionResult × DeploymentTables) := do
  let s ← s.audit ports.auditId (cmd.refusedEntry current.toDeploymentFields)
  let s ← s.recordReplay cmd.key cmd.requestDigest
    (.lifecycle false .activeDeploymentLimitReached) cmd.occurredAt
  let result ← LifecycleTransitionResult.make current false .activeDeploymentLimitReached 10
  pure (result, s)

/-- A transition with the slot that it takes. -/
def applyTransition (ports : DeploymentPorts) (s : DeploymentTables) (cmd : TransitionCommand)
    (current : ColleagueDeployment) (slot : Option ℕ) :
    Outcome (LifecycleTransitionResult × DeploymentTables) := do
  let next ← ColleagueDeployment.make (cmd.next current.toDeploymentFields) cmd.actor
  let old ← orFail (s.deployments.find? (cmd.tenantId, cmd.deploymentId))
    (.staleConflict "deployment lifecycle revision is stale")
  let s ← (s.updateDeployment old (cmd.row current.toDeploymentFields slot)).mapError
    lifecycleConflict
  let activeCount := s.activeCount
  let s ← s.audit ports.auditId (cmd.appliedEntry current.toDeploymentFields)
  let s ← s.recordReplay cmd.key cmd.requestDigest (.lifecycle true .transitionApplied)
    cmd.occurredAt
  let result ← LifecycleTransitionResult.make next true .transitionApplied activeCount
  pure (result, s)

/-- The slot of a transition: the first free one for an activation, none otherwise. -/
def slotTransition (ports : DeploymentPorts) (s : DeploymentTables) (cmd : TransitionCommand)
    (current : ColleagueDeployment) : Outcome (LifecycleTransitionResult × DeploymentTables) :=
  if cmd.target = .active then
    match s.freeSlot with
    | none => s.refuseTransition ports cmd current
    | some slot => s.applyTransition ports cmd current (some slot)
  else s.applyTransition ports cmd current none

/-- The transition of a deployment that is not a replay. -/
def transition (ports : DeploymentPorts) (tenant : TenantTables) (s : DeploymentTables)
    (cmd : TransitionCommand) : Outcome (LifecycleTransitionResult × DeploymentTables) := do
  let current ← getDeployment tenant s cmd.tenantId cmd.deploymentId
  require (current.revision = cmd.expectedRevision ∧
      current.package.digest = cmd.expectedPackageDigest)
    (.staleConflict "deployment lifecycle binding is stale")
  require (cmd.target ∈ allowedLifecycleTransitions current.lifecycle)
    (.permissionDenied "deployment lifecycle transition is forbidden")
  let package ← getPackage ports.packageDigest tenant s cmd.tenantId current.package
  require (cmd.target = .active → package.Runs)
    (.permissionDenied "activation requires a trusted installed package")
  s.slotTransition ports cmd current

/-- The answer to a transition that was recorded. -/
def replayedTransition (tenant : TenantTables) (s : DeploymentTables) (cmd : TransitionCommand)
    (result : ReplayResult) : Outcome LifecycleTransitionResult := do
  let current ← getDeployment tenant s cmd.tenantId cmd.deploymentId
  match result with
  | .lifecycle accepted result =>
    LifecycleTransitionResult.make current accepted result s.activeCount
  | _ => .error (.conflict "durable P11 lifecycle replay result is invalid")

/-- `transition_deployment`. -/
def transitionDeployment (ports : DeploymentPorts) (tenant : TenantTables) (s : DeploymentTables)
    (cmd : TransitionCommand) : Outcome (LifecycleTransitionResult × DeploymentTables) :=
  mutation tenant s s cmd.actor .manageDeployments cmd.key cmd.requestDigest
    (s.replayedTransition tenant cmd) (s.transition ports tenant cmd)

end DeploymentTables

-- ════════════════════════════════════════════════════════════════════════
-- The initial colleague
-- ════════════════════════════════════════════════════════════════════════

theorem isCanonicalVersion_initial : isCanonicalVersion "1.0.0" = true := by decide

/-- `_LEGACY_PACKAGE_JSON`. -/
def legacyPackage : AgentPackage where
  packageId := ⟨"legacy-manual", by decide⟩
  version := "1.0.0"
  displayEnUs := ⟨"Legacy Manual", "Preserved pre-P11 colleague deployment."⟩
  displayZhTw := ⟨"既有手動部署", "保留 P11 之前的同事部署。"⟩
  promptEnUs := "Preserved legacy/manual compatibility package."
  promptZhTw := "保留既有手動部署的相容套件。"
  requestedCapabilities := ["manage_work", "read_work"]
  workflow :=
    { entrypoint := ⟨"complete", by decide⟩
      steps := [completeStep ⟨"complete", by decide⟩]
      checked := checkWorkflow_completeStep _ }
  contentDigest := 0xab12b78f9e0d5d800498453e53a678164297500b6db8134a7f3eed6eb75ad6cb
  version_canonical := isCanonicalVersion_initial

/-- `_LEGACY_PACKAGE_DIGEST`. -/
def legacyPackageDigest : Digest :=
  0x060b07c809db61f98486d6feed53042ca7266fb916d4933dc6950ce1d35e23cd

def legacyVersion : PackageVersion :=
  ⟨legacyPackage.packageId, legacyPackage.version, legacyPackageDigest⟩

def compatibilityId : StableId := ⟨"p11-compatibility", by decide⟩

/-- The row of the legacy package. -/
def legacyPackageRow (tenantId correlationId causationId : StableId) (occurredAt : Instant) :
    PackageRow where
  tenantId := tenantId
  package := legacyPackage
  packageDigest := legacyPackageDigest
  archiveDigest := legacyPackageDigest
  source := .officialBuiltin
  trustState := .legacyPreserved
  installState := .installed
  attestation := none
  createdAt := occurredAt
  updatedAt := occurredAt
  correlationId := correlationId
  causationId := causationId
  revision := 1
  createdByPrincipalId := compatibilityId
  createdByKind := .service

/-- The arguments of `create_initial_colleague`. -/
structure InitialColleagueCommand where
  tenantId : StableId
  colleagueId : StableId
  profile : Profile
  mandate : Mandate
  runtimePrincipals : List Principal
  actor : Principal
  correlationId : StableId
  occurredAt : Instant

/-- The deployment of an initial colleague. -/
def initialDeploymentRow (cmd : InitialColleagueCommand) (slot : ℕ) : DeploymentRow where
  tenantId := cmd.tenantId
  deploymentId := cmd.colleagueId
  package := legacyVersion
  profile := ⟨cmd.profile.profileId, cmd.profile.revision⟩
  mandate := ⟨cmd.mandate.mandateId, cmd.mandate.revision⟩
  policy := none
  lifecycle := .active
  legacyManual := true
  legacyPolicyUnconfirmed := true
  createdAt := cmd.occurredAt
  updatedAt := cmd.occurredAt
  correlationId := cmd.correlationId
  causationId := cmd.profile.profileId
  revision := 1
  activeSlot := some slot
  updatedByPrincipalId := compatibilityId
  updatedByKind := .service

/-- The records of an initial colleague. -/
def TenantStore.insertInitialColleague (s : TenantStore) (cmd : InitialColleagueCommand) :
    Outcome TenantStore := do
  require (cmd.actor.kind = .human ∧ .tenantAdmin ∈ cmd.actor.roles)
    (.permissionDenied "initial colleague requires a durable tenant Admin")
  require (∀ c ∈ s.colleagues.rows, c.tables.profiles.domain.rows.isEmpty = true)
    (.conflict "P4 supports exactly one initial colleague")
  let current ← s.tenant.getPrincipal cmd.actor.principalId
  require (current = cmd.actor) (.permissionDenied "initial colleague actor binding drifted")
  let tenant ← cmd.runtimePrincipals.foldlM TenantTables.insertRuntimePrincipal s.tenant
  let tables ← (s.configuration cmd.colleagueId).insertConfiguration cmd.profile cmd.mandate
  pure ({ s with tenant := tenant }.writeConfiguration cmd.colleagueId tables)

namespace DeploymentTables

/-- `INSERT OR IGNORE` into the package versions. -/
def preserveLegacyPackage (s : DeploymentTables) (row : PackageRow) : DeploymentTables :=
  match s.packages.insert? row with
  | some packages => { s with packages := packages }
  | none => s

/-- `create_initial_colleague`. -/
def createInitialColleague (s : DeploymentTables) (store : TenantStore)
    (cmd : InitialColleagueCommand) : Outcome (TenantStore × DeploymentTables) := do
  let store ← store.insertInitialColleague cmd
  let s := s.preserveLegacyPackage
    (legacyPackageRow cmd.tenantId cmd.correlationId cmd.profile.profileId cmd.occurredAt)
  let slot ← orFail s.freeSlot (.conflict TransitionCommand.limitReached)
  let s ← s.insertDeployment (initialDeploymentRow cmd slot)
  let history ← orFail (s.history.insert?
    ⟨cmd.tenantId, cmd.colleagueId, 1, legacyVersion, cmd.occurredAt, compatibilityId⟩) .integrity
  pure (store, { s with history := history })

-- ════════════════════════════════════════════════════════════════════════
-- What the operations do
-- ════════════════════════════════════════════════════════════════════════

/-- What a transition asks of the deployment and of its package. -/
structure StartsTransition (packageDigest : AgentPackage → Digest) (s : DeploymentTables)
    (cmd : TransitionCommand) (row : DeploymentRow) : Prop where
  found : s.deployments.find? (cmd.tenantId, cmd.deploymentId) = some row
  readable : row.WellFormed
  revision : row.revision = cmd.expectedRevision
  digest : row.package.digest = cmd.expectedPackageDigest
  allowed : cmd.target ∈ allowedLifecycleTransitions row.lifecycle
  package : ∃ package, s.packages.find? (cmd.tenantId, row.package) = some package ∧
    package.WellFormed packageDigest ∧ (cmd.target = .active → package.Runs)

/-- What a transition does: it is refused, or it is applied with a slot. -/
inductive TransitionEffect (ports : DeploymentPorts) (s : DeploymentTables)
    (cmd : TransitionCommand) (row : DeploymentRow) :
    LifecycleTransitionResult → DeploymentTables → Prop
  | refused {result : LifecycleTransitionResult} {audits : Table CausalAudit}
      {replays : Table OperationReplay} (target : cmd.target = .active)
      (full : s.freeSlot = none)
      (haudits : s.audits.insert? ⟨cmd.refusedEntry row.toDeploymentFields,
        ports.auditId (cmd.refusedEntry row.toDeploymentFields).text⟩ = some audits)
      (hreplays : s.replays.insert? ⟨cmd.key, cmd.requestDigest,
        .lifecycle false .activeDeploymentLimitReached, cmd.occurredAt⟩ = some replays)
      (hresult : result.accepted = false ∧ result.result = .activeDeploymentLimitReached) :
      TransitionEffect ports s cmd row result { s with audits := audits, replays := replays }
  | applied {result : LifecycleTransitionResult} {slot : Option ℕ} {audits : Table CausalAudit}
      {replays : Table OperationReplay}
      (hslot : cmd.target = .active ∧ s.freeSlot = slot ∧ slot.isSome = true ∨
        cmd.target ≠ .active ∧ slot = none)
      (well : (cmd.next row.toDeploymentFields).WellFormed)
      (actor : cmd.actor.kind ≠ .model)
      (checked : (cmd.row row.toDeploymentFields slot).Checked)
      (free : s.SlotFree (cmd.row row.toDeploymentFields slot))
      (haudits : s.audits.insert? ⟨cmd.appliedEntry row.toDeploymentFields,
        ports.auditId (cmd.appliedEntry row.toDeploymentFields).text⟩ = some audits)
      (hreplays : s.replays.insert? ⟨cmd.key, cmd.requestDigest,
        .lifecycle true .transitionApplied, cmd.occurredAt⟩ = some replays)
      (hresult : result.accepted = true ∧ result.result = .transitionApplied) :
      TransitionEffect ports s cmd row result { s with
        deployments := s.deployments.replace (cmd.row row.toDeploymentFields slot)
        audits := audits
        replays := replays }

section Specs

variable {ports : DeploymentPorts} {tenant : TenantTables} {s t : DeploymentTables}
  {cmd : TransitionCommand} {current : ColleagueDeployment} {row : DeploymentRow}
  {result : LifecycleTransitionResult}

theorem mapError_eq_ok {α : Type} {x : Outcome α} {f : Failure → Failure} {a : α} :
    x.mapError f = .ok a ↔ x = .ok a := by
  cases x <;> simp [Except.mapError]

theorem LifecycleTransitionResult.make_eq_ok {accepted : Bool} {kind : LifecycleResult} {n : ℕ}
    (h : LifecycleTransitionResult.make current accepted kind n = .ok result) :
    n ≤ activeLimit ∧ result.deployment = current ∧ result.accepted = accepted ∧
      result.result = kind := by
  unfold LifecycleTransitionResult.make at h
  split at h
  · rename_i hle
    obtain rfl := Except.ok.inj h
    exact ⟨hle, rfl, rfl, rfl⟩
  · exact absurd h (by simp)

theorem refuseTransition_eq_ok (htarget : cmd.target = .active) (hfull : s.freeSlot = none)
    (hfields : current.toDeploymentFields = row.toDeploymentFields)
    (h : s.refuseTransition ports cmd current = .ok (result, t)) :
    TransitionEffect ports s cmd row result t := by
  simp only [refuseTransition, bind_eq_ok, audit_eq_ok, recordReplay_eq_ok, pure_eq_ok,
    Prod.mk.injEq, hfields] at h
  obtain ⟨_, ⟨audits, haudits, rfl⟩, _, ⟨replays, hreplays, rfl⟩, _, hresult, rfl, rfl⟩ := h
  exact .refused htarget hfull haudits hreplays (LifecycleTransitionResult.make_eq_ok hresult).2.2

theorem applyTransition_eq_ok {slot : Option ℕ}
    (hslot : cmd.target = .active ∧ s.freeSlot = slot ∧ slot.isSome = true ∨
      cmd.target ≠ .active ∧ slot = none)
    (hfields : current.toDeploymentFields = row.toDeploymentFields)
    (h : s.applyTransition ports cmd current slot = .ok (result, t)) :
    TransitionEffect ports s cmd row result t := by
  simp only [applyTransition, bind_eq_ok, ColleagueDeployment.make_eq_ok, orFail_eq_ok,
    mapError_eq_ok, updateDeployment_eq_ok, audit_eq_ok, recordReplay_eq_ok, pure_eq_ok,
    Prod.mk.injEq, hfields] at h
  obtain ⟨_, ⟨hwell, hactor, rfl⟩, _, _, _, ⟨_, ⟨hchecked, hfree⟩, _, rfl⟩, _,
    ⟨audits, haudits, rfl⟩, _, ⟨replays, hreplays, rfl⟩, _, hresult, rfl, rfl⟩ := h
  exact .applied hslot hwell hactor hchecked hfree haudits hreplays
    (LifecycleTransitionResult.make_eq_ok hresult).2.2

theorem transition_eq_ok (h : s.transition ports tenant cmd = .ok (result, t)) :
    ∃ row, s.StartsTransition ports.packageDigest cmd row ∧
      TransitionEffect ports s cmd row result t := by
  simp only [transition, bind_eq_ok, require_eq_ok, exists_const] at h
  obtain ⟨current, hcurrent, ⟨hrevision, hdigest⟩, hallowed, package, hpackage, hruns, h⟩ := h
  obtain ⟨row, hrow, hfields, hreadable⟩ := getDeployment_eq_ok hcurrent
  obtain ⟨prow, hprow, hpfields, hwell⟩ := getPackage_eq_ok hpackage
  rw [hfields] at hrevision hdigest hallowed hprow
  rw [hpfields] at hruns
  refine ⟨row, ⟨hrow, hreadable, hrevision, hdigest, hallowed, prow, hprow, hwell, hruns⟩, ?_⟩
  unfold slotTransition at h
  split at h
  · rename_i htarget
    split at h
    · rename_i hfull
      exact refuseTransition_eq_ok htarget hfull hfields h
    · rename_i slot hslot
      exact applyTransition_eq_ok (.inl ⟨htarget, hslot, rfl⟩) hfields h
  · rename_i htarget
    exact applyTransition_eq_ok (.inr ⟨htarget, rfl⟩) hfields h

/-- Only the package versions change, and the legacy one is among them. -/
theorem preserveLegacyPackage_eq (s : DeploymentTables) (row : PackageRow) :
    ∃ packages, s.preserveLegacyPackage row = { s with packages := packages } ∧
      (s.packages.insert? row = some packages ∨
        packages = s.packages ∧ (s.packages.find? (Keyed.key row)).isSome = true) := by
  unfold preserveLegacyPackage
  cases hinsert : s.packages.insert? row with
  | some packages => exact ⟨packages, rfl, .inl rfl⟩
  | none =>
    have hfound := Table.insert?_eq_none.mp hinsert
    exact ⟨s.packages, rfl, .inr ⟨rfl, Option.isSome_iff_exists.mpr hfound⟩⟩

/-- What the creation of an initial colleague does to the tables. -/
structure CreatesInitial (store store' : TenantStore) (s t : DeploymentTables)
    (cmd : InitialColleagueCommand) (slot : ℕ) : Prop where
  colleague : store.insertInitialColleague cmd = .ok store'
  packages :
    let row := legacyPackageRow cmd.tenantId cmd.correlationId cmd.profile.profileId cmd.occurredAt
    s.packages.insert? row = some t.packages ∨
      t.packages = s.packages ∧ (s.packages.find? (Keyed.key row)).isSome = true
  vacant : s.freeSlot = some slot
  checked : (initialDeploymentRow cmd slot).Checked
  free : s.SlotFree (initialDeploymentRow cmd slot)
  insert : s.deployments.insert? (initialDeploymentRow cmd slot) = some t.deployments
  drafts : t.drafts = s.drafts
  history : s.history.Within t.history
  replays : t.replays = s.replays
  audits : t.audits = s.audits

theorem createInitialColleague_eq_ok {store store' : TenantStore} {cmd : InitialColleagueCommand}
    (h : s.createInitialColleague store cmd = .ok (store', t)) :
    ∃ slot, CreatesInitial store store' s t cmd slot := by
  simp only [createInitialColleague, bind_eq_ok, orFail_eq_ok, insertDeployment_eq_ok, pure_eq_ok,
    Prod.mk.injEq] at h
  obtain ⟨_, hstore, slot, hslot, _, ⟨_, ⟨hchecked, hfree⟩, _, deployments, hinsert, rfl⟩, history,
    hhistory, rfl, rfl⟩ := h
  obtain ⟨packages, heq, hpackages⟩ := preserveLegacyPackage_eq s
    (legacyPackageRow cmd.tenantId cmd.correlationId cmd.profile.profileId cmd.occurredAt)
  rw [heq] at hslot hfree hinsert hhistory ⊢
  exact ⟨slot, hstore, hpackages, hslot, hchecked, hfree, hinsert, rfl,
    Table.within_insert hhistory, rfl, rfl⟩

end Specs

end DeploymentTables

end DigitalColleagues
