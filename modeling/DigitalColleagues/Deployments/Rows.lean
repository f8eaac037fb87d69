import DigitalColleagues.Deployments.Moves

/-!
# What a step of a host does to one row

The packages, the drafts and the deployments, one key at a time: what is found
there after a step, and what was found before. Every law about the states of
these records is read off these three relations.

## Main definitions

- `PackageStep`, `DraftStep`, `DeploymentStep` — a step, seen at one key
- `packageStep_of_move`, `draftRowStep_of_move`, `deploymentStep_of_move`
-/

namespace DigitalColleagues

open DeploymentTables

/-- What a step does to the package at one key. -/
inductive PackageStep (ports : HostPorts) (s : HostState) :
    HostAction → HostTables → Option PackageRow → Option PackageRow → Prop
  | same {a : HostAction} {t : HostTables} (o : Option PackageRow) : PackageStep ports s a t o o
  | preserved {ctx : CallContext} {request : InitialColleagueRequest}
      {cmd : InitialColleagueCommand} {t : HostTables}
      (command : InitialColleagueService.command ports ctx request = .ok cmd) :
      PackageStep ports s (.createInitialColleague ctx request) t none
        (some (legacyPackageRow cmd.tenantId cmd.correlationId cmd.profile.profileId
          cmd.occurredAt))
  | registered {ctx : CallContext} {request : PackageRegistrationRequest}
      {idempotencyKey : StableId} {looks : List ℕ} {inspection : PackageInspection}
      {attestation : Option GitHubAttestation} {record : PackageRecord} {t : HostTables}
      (fields : record.toPackageFields = P11PackageService.registeredFields ports ctx
        request.source inspection attestation idempotencyKey)
      (actor : record.createdBy = ctx.actor) (well : record.WellFormed ports.packageDigest) :
      PackageStep ports s (.call ctx (.register request idempotencyKey) looks) t none
        (some (newPackageRow record))
  | changed {ctx : CallContext} {action : PackageAction} {version : PackageVersion}
      {expectedRevision : ℕ} {idempotencyKey : StableId} {looks : List ℕ} {digest : Digest}
      {current record : PackageRecord} {row : PackageRow} {d : DeploymentTables}
      (seen : (s.look looks 1).getPackage ports ctx.tenantId version = .ok current)
      (fields : record.toPackageFields = action.next ports ctx current.toPackageFields
        idempotencyKey)
      (effect : ChangesPackage ports.toDeploymentPorts (s.tables.tenant ctx.tenantId)
        s.tables.deployments d record ctx.actor action
        ((Call.package action version expectedRevision idempotencyKey).replayKey ctx) digest row) :
      PackageStep ports s
        (.call ctx (.package action version expectedRevision idempotencyKey) looks)
        { s.tables with deployments := d } (some row) (some (changedPackageRow record row))

/-- What a step does to the draft at one key. -/
inductive DraftRowStep (ports : HostPorts) (s : HostState) :
    HostAction → HostTables → Option DeploymentDraftRow → Option DeploymentDraftRow → Prop
  | same {a : HostAction} {t : HostTables} (o : Option DeploymentDraftRow) :
      DraftRowStep ports s a t o o
  | created {ctx : CallContext} {request : DeploymentCreationRequest} {looks : List ℕ}
      {package : PackageRecord} {draft : DeploymentDraft} {t : HostTables}
      (made : P11DeploymentService.creationDraft ports ctx request package = .ok draft) :
      DraftRowStep ports s (.call ctx (.createDraft request) looks) t none
        (some (newDraftRow draft))
  | rebinding {ctx : CallContext} {deploymentId : StableId} {request : ExactRebindingRequest}
      {kind : RebindingKind} {looks : List ℕ} {reads : RebindingReads} {draft : DeploymentDraft}
      {t : HostTables}
      (read : P11DeploymentService.readRebinding ports ctx (s.look looks) deploymentId request
        kind = .ok reads)
      (made : P11DeploymentService.rebindingDraftOf ports ctx deploymentId request kind reads =
        .ok draft) :
      DraftRowStep ports s (.call ctx (.rebindingDraft deploymentId request kind) looks) t none
        (some (newDraftRow draft))
  | reviewed {ctx : CallContext} {deploymentId draftId : StableId}
      {request : ExactDraftConfirmation} {looks : List ℕ} {message : String}
      {draft : DeploymentDraft} {row : DeploymentDraftRow} {t : HostTables}
      (bound : P11DeploymentService.boundDraft ctx (s.look looks) deploymentId draftId request
        message = .ok draft)
      (state : row.state = .draft) :
      DraftRowStep ports s (.call ctx (.review deploymentId draftId request) looks) t (some row)
        (some (movedDraftRow draft .reviewed row))
  | confirmed {ctx : CallContext} {deploymentId draftId : StableId}
      {request : ExactDraftConfirmation} {looks : List ℕ} {message : String}
      {draft : DeploymentDraft} {row : DeploymentDraftRow} {t : HostTables}
      (bound : P11DeploymentService.boundDraft ctx (s.look looks) deploymentId draftId request
        message = .ok draft)
      (state : row.state = .reviewed) :
      DraftRowStep ports s (.call ctx (.confirm deploymentId draftId request) looks) t (some row)
        (some (movedDraftRow draft .confirmed row))

/-- What a confirmation is told about, besides the deployment that it binds. -/
structure Confirms (ports : HostPorts) (s : HostState) (ctx : CallContext)
    (deploymentId draftId : StableId) (request : ExactDraftConfirmation) (looks : List ℕ)
    (draft : DeploymentDraft) (row : DeploymentDraftRow) : Prop where
  fresh : s.tables.deployments.replays.find?
    ((Call.confirm deploymentId draftId request).replayKey ctx) = none
  bound : ∃ message, P11DeploymentService.boundDraft ctx (s.look looks) deploymentId draftId request
    message = .ok draft
  reviewed : draft.state = .reviewed
  found : s.tables.deployments.drafts.find? (ctx.tenantId, deploymentId, draftId) = some row
  revision : row.revision = request.expectedRevision
  state : row.state = .reviewed
  package : ∃ package, s.tables.deployments.packages.find? (ctx.tenantId, draft.package) =
    some package ∧ package.trustState = .trusted ∧ package.installState = .installed

/-- What a step does to the deployment at one key. -/
inductive DeploymentStep (ports : HostPorts) (s : HostState) :
    HostAction → HostTables → Option DeploymentRow → Option DeploymentRow → Prop
  | same {a : HostAction} {t : HostTables} (o : Option DeploymentRow) :
      DeploymentStep ports s a t o o
  | initial {ctx : CallContext} {request : InitialColleagueRequest}
      {cmd : InitialColleagueCommand} {store : TenantStore} {d : DeploymentTables} {slot : ℕ}
      {t : HostTables} (command : InitialColleagueService.command ports ctx request = .ok cmd)
      (effect : CreatesInitial (s.tables.tenants ctx.tenantId) store s.tables.deployments d cmd
        slot) (tables : t.deployments = d) :
      DeploymentStep ports s (.createInitialColleague ctx request) t none
        (some (initialDeploymentRow cmd slot))
  | blocked {ctx : CallContext} {version : PackageVersion} {expectedRevision : ℕ}
      {idempotencyKey : StableId} {looks : List ℕ} {current record : PackageRecord}
      {row : DeploymentRow} {t : HostTables}
      (seen : (s.look looks 1).getPackage ports ctx.tenantId version = .ok current)
      (fields : record.toPackageFields = PackageAction.revoke.next ports ctx
        current.toPackageFields idempotencyKey)
      (bound : row ∈ s.tables.deployments.boundActive record.tenantId record.version) :
      DeploymentStep ports s
        (.call ctx (.package .revoke version expectedRevision idempotencyKey) looks) t
        (some row) (some (blockedRow record ctx.actor row))
  | created {ctx : CallContext} {deploymentId draftId : StableId}
      {request : ExactDraftConfirmation} {looks : List ℕ} {draft : DeploymentDraft}
      {row : DeploymentDraftRow} {t : HostTables}
      (confirms : Confirms ports s ctx deploymentId draftId request looks draft row)
      (kind : draft.kind = .create) (well : (createdDeployment draft).WellFormed) :
      DeploymentStep ports s (.call ctx (.confirm deploymentId draftId request) looks) t none
        (some (inactiveRow (createdDeployment draft) draft.author))
  | rebound {ctx : CallContext} {deploymentId draftId : StableId}
      {request : ExactDraftConfirmation} {looks : List ℕ} {draft : DeploymentDraft}
      {row : DeploymentDraftRow} {old : DeploymentRow} {t : HostTables}
      (confirms : Confirms ports s ctx deploymentId draftId request looks draft row)
      (kind : draft.kind ≠ .create) (key : Keyed.key old = (ctx.tenantId, deploymentId))
      (base : old.revision = draft.baseDeploymentRevision)
      (well : (reboundDeployment draft old.toDeploymentFields).WellFormed) :
      DeploymentStep ports s (.call ctx (.confirm deploymentId draftId request) looks) t (some old)
        (some (inactiveRow (reboundDeployment draft old.toDeploymentFields) draft.author))
  | transitioned {ctx : CallContext} {deploymentId : StableId} {request : ExactLifecycleRequest}
      {looks : List ℕ} {target : DeploymentLifecycle} {old : DeploymentRow} {slot : Option ℕ}
      {t : HostTables} (parsed : DeploymentLifecycle.ofValue? request.target = some target)
      (starts : s.tables.deployments.StartsTransition ports.packageDigest
        (P11DeploymentService.command ports ctx deploymentId request target) old)
      (well : ((P11DeploymentService.command ports ctx deploymentId request target).next
        old.toDeploymentFields).WellFormed)
      (checked : ((P11DeploymentService.command ports ctx deploymentId request target).row
        old.toDeploymentFields slot).Checked)
      (free : s.tables.deployments.SlotFree
        ((P11DeploymentService.command ports ctx deploymentId request target).row
          old.toDeploymentFields slot)) :
      DeploymentStep ports s (.call ctx (.transition deploymentId request) looks) t (some old)
        (some ((P11DeploymentService.command ports ctx deploymentId request target).row
          old.toDeploymentFields slot))

section Moves

variable {ports : HostPorts} {s : HostState} {a : HostAction} {t : HostTables}

theorem packageStep_of_move (h : HostMove ports s a t) (k : StableId × PackageVersion) :
    PackageStep ports s a t (s.tables.deployments.packages.find? k)
      (t.deployments.packages.find? k) := by
  cases h with
  | idle same elsewhere =>
    rw [same]
    exact .same _
  | initial command effect =>
    rcases effect.packages with hinsert | ⟨hsame, _⟩
    · exact Table.find?_insert_rel .same (.preserved command) hinsert k
    · rw [hsame]
      exact .same _
  | replayed requested recorded => exact .same _
  | call requested authority fresh effect =>
    cases effect with
    | registered inspected fields actor well effect =>
      exact Table.find?_insert_rel .same (.registered fields actor well) effect.packages k
    | changed seen fields well effect =>
      rw [effect.packages]
      exact Table.find?_replace_rel (R := PackageStep ports s _ _) .same
        (.changed seen fields effect) (Table.mem_of_find? effect.found) rfl k
    | created made effect =>
      rw [effect.packages]
      exact .same _
    | rebinding read made effect =>
      rw [effect.packages]
      exact .same _
    | reviewed bound effect =>
      rw [effect.packages]
      exact .same _
    | confirmed bound effect =>
      rw [effect.packages]
      exact .same _
    | transitioned parsed starts effect =>
      cases effect <;> exact .same _

theorem draftRowStep_of_move (h : HostMove ports s a t) (k : StableId × StableId × StableId) :
    DraftRowStep ports s a t (s.tables.deployments.drafts.find? k)
      (t.deployments.drafts.find? k) := by
  cases h with
  | idle same elsewhere =>
    rw [same]
    exact .same _
  | initial command effect =>
    rw [effect.drafts]
    exact .same _
  | replayed requested recorded => exact .same _
  | call requested authority fresh effect =>
    cases effect with
    | registered inspected fields actor well effect =>
      rw [effect.drafts]
      exact .same _
    | changed seen fields well effect =>
      rw [effect.drafts]
      exact .same _
    | created made effect => exact Table.find?_insert_rel .same (.created made) effect.drafts k
    | rebinding read made effect =>
      exact Table.find?_insert_rel .same (.rebinding read made) effect.drafts k
    | reviewed bound effect =>
      rw [effect.drafts]
      exact Table.find?_replace_rel (R := DraftRowStep ports s _ _) .same
        (.reviewed bound effect.state) (Table.mem_of_find? effect.found) rfl k
    | confirmed bound effect =>
      rw [effect.drafts]
      exact Table.find?_replace_rel (R := DraftRowStep ports s _ _) .same
        (.confirmed bound effect.state) (Table.mem_of_find? effect.found) rfl k
    | transitioned parsed starts effect =>
      cases effect <;> exact .same _

/-- What a confirmation asks, from what it does. -/
theorem confirms_of_effect {ctx : CallContext} {deploymentId draftId : StableId}
    {request : ExactDraftConfirmation} {looks : List ℕ} {message : String}
    {draft : DeploymentDraft} {deployment : ColleagueDeployment} {row : DeploymentDraftRow}
    {store : TenantStore} {d : DeploymentTables} {digest : Digest} {key : ReplayKey}
    {model service : Principal}
    (fresh : s.tables.deployments.replays.find?
      ((Call.confirm deploymentId draftId request).replayKey ctx) = none)
    (bound : P11DeploymentService.boundDraft ctx (s.look looks) deploymentId draftId request
      message = .ok draft)
    (effect : ConfirmsDraft ports.toDeploymentPorts (s.tables.tenants ctx.tenantId) store
      s.tables.deployments d draft request.expectedRevision key digest model service deployment
      row) :
    Confirms ports s ctx deploymentId draftId request looks draft row := by
  obtain ⟨htenant, hdeployment, hdraft⟩ := boundDraft_key bound
  have hfound := effect.found
  have hpackage := effect.package
  rw [htenant, hdeployment, hdraft] at hfound
  rw [htenant] at hpackage
  exact ⟨fresh, ⟨message, bound⟩, effect.reviewed, hfound, effect.revision, effect.state, hpackage⟩

/-- What the binding of a draft does at every key. -/
theorem deploymentStep_of_binds {ctx : CallContext} {deploymentId draftId : StableId}
    {request : ExactDraftConfirmation} {looks : List ℕ} {draft : DeploymentDraft}
    {row : DeploymentDraftRow} {store store' : TenantStore} {model service : Principal}
    {fields : DeploymentFields} {deployments : Table DeploymentRow}
    (confirms : Confirms ports s ctx deploymentId draftId request looks draft row)
    (binds : BindsDeployment store s.tables.deployments draft model service fields store'
      deployments) (k : StableId × StableId) :
    DeploymentStep ports s (.call ctx (.confirm deploymentId draftId request) looks) t
      (s.tables.deployments.deployments.find? k) (deployments.find? k) := by
  cases binds with
  | created kind absent base colleague well insert =>
    exact Table.find?_insert_rel .same (.created confirms kind well) insert k
  | rebound kind found base readable well =>
    obtain ⟨message, hbound⟩ := confirms.bound
    obtain ⟨htenant, hdeployment, _⟩ := boundDraft_key hbound
    have hkey := Table.key_of_find? found
    rw [htenant, hdeployment] at hkey
    exact Table.find?_replace_rel (R := DeploymentStep ports s _ _) .same
      (.rebound confirms kind hkey base well) (Table.mem_of_find? found) rfl k

theorem deploymentStep_of_move (h : HostMove ports s a t) (k : StableId × StableId) :
    DeploymentStep ports s a t (s.tables.deployments.deployments.find? k)
      (t.deployments.deployments.find? k) := by
  cases h with
  | idle same elsewhere =>
    rw [same]
    exact .same _
  | initial command effect =>
    exact Table.find?_insert_rel .same (.initial command effect rfl) effect.insert k
  | replayed requested recorded => exact .same _
  | call requested authority fresh effect =>
    cases effect with
    | registered inspected fields actor well effect =>
      rw [effect.deployments]
      exact .same _
    | @changed action _ _ _ _ record _ d seen fields well effect =>
      rw [effect.deployments]
      cases hrow : s.tables.deployments.deployments.find? k with
      | none => exact .same _
      | some old =>
        rw [Option.map_some]
        split
        · rename_i hblocked
          unfold blockedBy at hblocked
          split at hblocked
          · rename_i hrevoke
            subst hrevoke
            exact .blocked seen fields hblocked
          · exact absurd hblocked List.not_mem_nil
        · exact .same _
    | created made effect =>
      rw [effect.deployments]
      exact .same _
    | rebinding read made effect =>
      rw [effect.deployments]
      exact .same _
    | reviewed bound effect =>
      rw [effect.deployments]
      exact .same _
    | confirmed bound effect =>
      exact deploymentStep_of_binds (confirms_of_effect fresh bound effect) effect.binds k
    | transitioned parsed starts effect =>
      cases effect with
      | refused => exact .same _
      | applied hslot well actor checked free =>
        exact Table.find?_replace_rel (R := DeploymentStep ports s _ _) .same
          (.transitioned parsed starts well checked free) (Table.mem_of_find? starts.found) rfl k

end Moves

end DigitalColleagues
