import DigitalColleagues.Deployments.System

/-!
# What a step of a host does

One summary of the steps of a host, in terms of the effects of the store's
operations. A call changes the deployments in one of seven ways, or it answers
from the replay ledger and changes nothing.

## Main definitions

- `Call.replayKey`, `Call.payload` — how a call is known to the replay ledger
- `CallEffect` — what a call does that is not a replay
- `HostMove`, `hostMove_of_exec` — what a step does
-/

namespace DigitalColleagues

open DeploymentTables

-- ════════════════════════════════════════════════════════════════════════
-- Calls and the replay ledger
-- ════════════════════════════════════════════════════════════════════════

namespace Call

/-- The operation and the namespace of a call. -/
def operation : Call → ReplayOperation
  | .register _ _ => .registerPackage
  | .package action _ _ _ => .package action
  | .createDraft _ => .draft .create
  | .rebindingDraft _ _ kind => .draft kind.draftKind
  | .review _ _ _ => .reviewDraft
  | .confirm _ _ _ => .confirmDraft
  | .transition _ _ => .lifecycle

def ns : Call → Namespace
  | .register _ _ => .tenant
  | .package _ _ _ _ => .tenant
  | .createDraft request => .colleague request.deploymentId
  | .rebindingDraft deploymentId _ _ => .colleague deploymentId
  | .review deploymentId _ _ => .colleague deploymentId
  | .confirm deploymentId _ _ => .colleague deploymentId
  | .transition deploymentId _ => .colleague deploymentId

def idempotencyKey : Call → StableId
  | .register _ idempotencyKey => idempotencyKey
  | .package _ _ _ idempotencyKey => idempotencyKey
  | .createDraft request => request.idempotencyKey
  | .rebindingDraft _ request _ => request.idempotencyKey
  | .review _ _ request => request.idempotencyKey
  | .confirm _ _ request => request.idempotencyKey
  | .transition _ request => request.idempotencyKey

/-- What the actor of a call must be allowed to do. -/
def action : Call → AuthorizationAction
  | .register _ _ => .manageAgentPackages
  | .package _ _ _ _ => .manageAgentPackages
  | _ => .manageDeployments

/-- The row of the replay ledger that a call reads or writes. -/
def replayKey (ctx : CallContext) (call : Call) : ReplayKey :=
  ⟨ctx.tenantId, call.ns, call.operation, ctx.actor.principalId, call.idempotencyKey⟩

/-- The payload whose digest identifies the request of a call. -/
def payload (ports : HostPorts) : Call → Outcome RequestPayload
  | .register request _ => do
    let inspection ← P11PackageService.inspect ports request.archive request.expectedArchiveDigest
    pure (request.payload ports inspection)
  | .package action version expectedRevision _ => pure (.package action version expectedRevision)
  | .createDraft request => pure request.payload
  | .rebindingDraft deploymentId request kind =>
    pure (.rebinding kind.draftKind deploymentId request.package
      request.expectedDeploymentRevision)
  | .review _ draftId request =>
    pure (.draftStep .review draftId request.expectedRevision request.expectedCanonicalDigest)
  | .confirm _ draftId request =>
    pure (.draftStep .confirm draftId request.expectedRevision request.expectedCanonicalDigest)
  | .transition _ request =>
    pure (.transition request.target request.expectedRevision request.expectedPackageDigest)

end Call

-- ════════════════════════════════════════════════════════════════════════
-- Effects
-- ════════════════════════════════════════════════════════════════════════

/-- What a call does to the tables when the replay ledger does not know it; `digest`
    is the digest of its request. -/
inductive CallEffect (ports : HostPorts) (ctx : CallContext) (looks : ℕ → HostTables)
    (s : HostTables) (digest : Digest) : Call → CallAnswer → HostTables → Prop
  | registered {request : PackageRegistrationRequest} {idempotencyKey : StableId}
      {inspection : PackageInspection} {attestation : Option GitHubAttestation}
      {record : PackageRecord} {d : DeploymentTables}
      (inspected : P11PackageService.inspect ports request.archive request.expectedArchiveDigest =
        .ok inspection)
      (fields : record.toPackageFields = P11PackageService.registeredFields ports ctx
        request.source inspection attestation idempotencyKey)
      (actor : record.createdBy = ctx.actor)
      (well : record.WellFormed ports.packageDigest)
      (effect : RegistersPackage ports.toDeploymentPorts s.deployments d record
        ((Call.register request idempotencyKey).replayKey ctx) digest) :
      CallEffect ports ctx looks s digest (.register request idempotencyKey) (.package record)
        { s with deployments := d }
  | changed {action : PackageAction} {version : PackageVersion} {expectedRevision : ℕ}
      {idempotencyKey : StableId} {current : PackageRecord} {record : PackageRecord}
      {row : PackageRow} {d : DeploymentTables}
      (seen : (looks 1).getPackage ports ctx.tenantId version = .ok current)
      (fields : record.toPackageFields = action.next ports ctx current.toPackageFields
        idempotencyKey)
      (well : record.WellFormed ports.packageDigest)
      (effect : ChangesPackage ports.toDeploymentPorts (s.tenant ctx.tenantId) s.deployments d
        record ctx.actor action
        ((Call.package action version expectedRevision idempotencyKey).replayKey ctx) digest row) :
      CallEffect ports ctx looks s digest (.package action version expectedRevision idempotencyKey)
        (.package record) { s with deployments := d }
  | created {request : DeploymentCreationRequest} {package : PackageRecord}
      {draft : DeploymentDraft} {d : DeploymentTables}
      (made : P11DeploymentService.creationDraft ports ctx request package = .ok draft)
      (effect : InsertsDraft ports.toDeploymentPorts s.deployments d draft
        ((Call.createDraft request).replayKey ctx) digest) :
      CallEffect ports ctx looks s digest (.createDraft request) (.draft draft)
        { s with deployments := d }
  | rebinding {deploymentId : StableId} {request : ExactRebindingRequest} {kind : RebindingKind}
      {reads : RebindingReads} {draft : DeploymentDraft} {d : DeploymentTables}
      (read : P11DeploymentService.readRebinding ports ctx looks deploymentId request kind =
        .ok reads)
      (made : P11DeploymentService.rebindingDraftOf ports ctx deploymentId request kind reads =
        .ok draft)
      (effect : InsertsDraft ports.toDeploymentPorts s.deployments d draft
        ((Call.rebindingDraft deploymentId request kind).replayKey ctx) digest) :
      CallEffect ports ctx looks s digest (.rebindingDraft deploymentId request kind)
        (.draft draft) { s with deployments := d }
  | reviewed {deploymentId draftId : StableId} {request : ExactDraftConfirmation}
      {message : String} {draft answer : DeploymentDraft} {row : DeploymentDraftRow}
      {d : DeploymentTables}
      (bound : P11DeploymentService.boundDraft ctx looks deploymentId draftId request message =
        .ok draft)
      (effect : ReviewsDraft ports.toDeploymentPorts s.deployments d draft
        request.expectedRevision ((Call.review deploymentId draftId request).replayKey ctx) digest
        row) :
      CallEffect ports ctx looks s digest (.review deploymentId draftId request) (.draft answer)
        { s with deployments := d }
  | confirmed {deploymentId draftId : StableId} {request : ExactDraftConfirmation}
      {message : String} {draft : DeploymentDraft} {deployment : ColleagueDeployment}
      {row : DeploymentDraftRow} {store : TenantStore} {d : DeploymentTables}
      (bound : P11DeploymentService.boundDraft ctx looks deploymentId draftId request message =
        .ok draft)
      (effect : ConfirmsDraft ports.toDeploymentPorts (s.tenants ctx.tenantId) store s.deployments
        d draft request.expectedRevision ((Call.confirm deploymentId draftId request).replayKey ctx)
        digest (.model (ports.derive "model" [deploymentId.val]))
        (.service (ports.derive "service" [deploymentId.val])) deployment row) :
      CallEffect ports ctx looks s digest (.confirm deploymentId draftId request)
        (.deployment deployment) { s.withStore ctx.tenantId store with deployments := d }
  | transitioned {deploymentId : StableId} {request : ExactLifecycleRequest}
      {target : DeploymentLifecycle} {row : DeploymentRow} {result : LifecycleTransitionResult}
      {d : DeploymentTables}
      (parsed : DeploymentLifecycle.ofValue? request.target = some target)
      (starts : s.deployments.StartsTransition ports.packageDigest
        (P11DeploymentService.command ports ctx deploymentId request target) row)
      (effect : TransitionEffect ports.toDeploymentPorts s.deployments
        (P11DeploymentService.command ports ctx deploymentId request target) row result d) :
      CallEffect ports ctx looks s digest (.transition deploymentId request) (.lifecycle result)
        { s with deployments := d }

/-- What the replay ledger keeps of an answer. -/
def Call.Recorded : Call → CallAnswer → ReplayResult → Prop
  | .transition _ _, answer, result =>
      ∃ r, answer = .lifecycle r ∧ result = .lifecycle r.accepted r.result
  | _, _, _ => True

/-- The replay ledger knows a call, under the digest of its request. -/
def RecordedIn (ctx : CallContext) (digest : Digest) (call : Call) (answer : CallAnswer)
    (s : HostTables) : Prop :=
  ∃ row, s.deployments.replays.find? (call.replayKey ctx) = some row ∧
    row.requestDigest = digest ∧ call.Recorded answer row.result

/-- What a call does that succeeds: nothing, having found that it was recorded, or
    something that the replay ledger did not know. -/
inductive CallMove (ports : HostPorts) (ctx : CallContext) (looks : ℕ → HostTables)
    (s : HostTables) (digest : Digest) (call : Call) (answer : CallAnswer) : HostTables → Prop
  | replayed (recorded : RecordedIn ctx digest call answer (looks 1) ∨
      RecordedIn ctx digest call answer s) :
      CallMove ports ctx looks s digest call answer s
  | performed {t : HostTables}
      (authority : ∃ m, (s.tenant ctx.tenantId).requireCurrentMembership ctx.actor call.action
        call.ns = .ok m)
      (fresh : s.deployments.replays.find? (call.replayKey ctx) = none)
      (effect : CallEffect ports ctx looks s digest call answer t) :
      CallMove ports ctx looks s digest call answer t

-- ════════════════════════════════════════════════════════════════════════
-- Every call has such an effect
-- ════════════════════════════════════════════════════════════════════════

theorem HostTables.written_eq_ok {α : Type} {s t : HostTables} {x : Outcome (α × DeploymentTables)}
    {a : α} : s.written x = .ok (a, t) ↔
      ∃ d, x = .ok (a, d) ∧ { s with deployments := d } = t := by
  simp only [HostTables.written, bind_eq_ok, Prod.exists, pure_eq_ok, Prod.mk.injEq]
  constructor
  · rintro ⟨_, d, h, rfl, rfl⟩
    exact ⟨d, h, rfl⟩
  · rintro ⟨d, h, rfl⟩
    exact ⟨a, d, h, rfl, rfl⟩

section Calls

variable {ports : HostPorts} {ctx : CallContext} {looks : ℕ → HostTables} {s t : HostTables}

theorem boundDraft_eq_ok {deploymentId draftId : StableId} {request : ExactDraftConfirmation}
    {message : String} {draft : DeploymentDraft}
    (h : P11DeploymentService.boundDraft ctx looks deploymentId draftId request message =
      .ok draft) :
    ∃ row, (looks 1).deployments.drafts.find? (ctx.tenantId, deploymentId, draftId) = some row ∧
      draft.toDeploymentDraftFields =
        { row.toDeploymentDraftFields with updatedAt := ctx.now } ∧
      draft.author = ctx.actor ∧ draft.WellFormed ∧ draft.author.kind = .human ∧
      row.canonicalDigest = request.expectedCanonicalDigest := by
  simp only [P11DeploymentService.boundDraft, HostTables.getDraft, getDeploymentDraft, bind_eq_ok,
    orFail_eq_ok, require_eq_ok, DeploymentDraft.make_eq_ok, exists_const] at h
  obtain ⟨_, _, _, ⟨row, hrow, _, _, _, _, rfl⟩, hdigest, hwell, hkind, rfl⟩ := h
  exact ⟨row, hrow, rfl, rfl, hwell, hkind, hdigest⟩

/-- The draft that a call is about is the one that it names. -/
theorem boundDraft_key {deploymentId draftId : StableId} {request : ExactDraftConfirmation}
    {message : String} {draft : DeploymentDraft}
    (h : P11DeploymentService.boundDraft ctx looks deploymentId draftId request message =
      .ok draft) :
    draft.tenantId = ctx.tenantId ∧ draft.deploymentId = deploymentId ∧
      draft.draftId = draftId := by
  obtain ⟨row, hrow, hfields, _⟩ := boundDraft_eq_ok h
  have hkey := Table.key_of_find? hrow
  simp only [Keyed.key, Prod.mk.injEq] at hkey
  rw [hfields]
  exact hkey

theorem callMove_of_register {request : PackageRegistrationRequest} {idempotencyKey : StableId}
    {record : PackageRecord}
    (h : P11PackageService.register ports ctx looks s request idempotencyKey = .ok (record, t)) :
    ∃ payload, (Call.register request idempotencyKey).payload ports = .ok payload ∧
      CallMove ports ctx looks s (ports.requestDigest payload) (.register request idempotencyKey)
        (.package record) t := by
  simp only [P11PackageService.register, bind_eq_ok] at h
  obtain ⟨_, _, inspection, hinspection, answer, hanswer, h⟩ := h
  refine ⟨request.payload ports inspection, ?_, ?_⟩
  · simp only [Call.payload, bind_eq_ok, pure_eq_ok]
    exact ⟨inspection, hinspection, rfl⟩
  cases answer with
  | some replayed =>
    obtain ⟨rfl, rfl⟩ := Prod.mk.inj (pure_eq_ok.mp h)
    obtain ⟨row, hrow, hdigest, _, _⟩ := replayLookup_eq_some hanswer
    exact .replayed (.inl ⟨row, hrow, hdigest, trivial⟩)
  | none =>
    simp only [bind_eq_ok, PackageRecord.make_eq_ok, HostTables.written_eq_ok] at h
    obtain ⟨attestation, _, made, ⟨hwell, _, rfl⟩, d, hd, rfl⟩ := h
    obtain ⟨hauthority, ⟨row, hrow, hdigest, _, rfl⟩ | ⟨hfresh, hd⟩⟩ := mutation_eq_ok hd
    · exact .replayed (.inr ⟨row, hrow, hdigest, trivial⟩)
    · obtain ⟨rfl, heffect⟩ := insertPackage_eq_ok hd
      exact .performed hauthority hfresh (.registered hinspection rfl rfl hwell heffect)

theorem callMove_of_mutate {action : PackageAction} {version : PackageVersion}
    {expectedRevision : ℕ} {idempotencyKey : StableId} {record : PackageRecord}
    (h : P11PackageService.mutate ports ctx looks s action version expectedRevision
      idempotencyKey = .ok (record, t)) :
    CallMove ports ctx looks s (ports.requestDigest (.package action version expectedRevision))
      (.package action version expectedRevision idempotencyKey) (.package record) t := by
  simp only [P11PackageService.mutate, bind_eq_ok, PackageRecord.make_eq_ok,
    HostTables.written_eq_ok] at h
  obtain ⟨_, _, current, hcurrent, made, ⟨hwell, _, rfl⟩, d, hd, rfl⟩ := h
  have htenant : current.tenantId = ctx.tenantId := by
    obtain ⟨row, hrow, hfields, _⟩ := getPackage_eq_ok hcurrent
    rw [hfields]
    exact (Prod.mk.inj (Table.key_of_find? hrow)).1
  have hkey : packageKey current.tenantId ctx.actor action idempotencyKey =
      (Call.package action version expectedRevision idempotencyKey).replayKey ctx := by
    rw [htenant]
    rfl
  obtain ⟨hauthority, ⟨row, hrow, hdigest, _, rfl⟩ | ⟨hfresh, hd⟩⟩ := mutation_eq_ok hd
  · exact .replayed (.inr ⟨row, hkey ▸ hrow, hdigest, trivial⟩)
  · obtain ⟨rfl, row, heffect⟩ := changePackage_eq_ok hd
    exact .performed hauthority (hkey ▸ hfresh) (.changed hcurrent rfl hwell (hkey ▸ heffect))

/-- What a draft is that a call has just made. -/
structure FreshDraft (ctx : CallContext) (deploymentId draftId : StableId)
    (kind : DeploymentDraftKind) (package : PackageVersion) (draft : DeploymentDraft) : Prop where
  tenantId : draft.tenantId = ctx.tenantId
  deploymentId : draft.deploymentId = deploymentId
  draftId : draft.draftId = draftId
  kind : draft.kind = kind
  package : draft.package = package
  author : draft.author = ctx.actor
  human : draft.author.kind = .human
  revision : draft.revision = 1
  state : draft.state = .draft
  createdAt : draft.createdAt = ctx.now
  well : draft.WellFormed

theorem freshDraft_of_creationDraft {request : DeploymentCreationRequest}
    {package : PackageRecord} {draft : DeploymentDraft}
    (h : P11DeploymentService.creationDraft ports ctx request package = .ok draft) :
    FreshDraft ctx request.deploymentId (request.draftId ports) .create package.version draft := by
  simp only [P11DeploymentService.creationDraft, bind_eq_ok, Prod.exists,
    DeploymentDraft.make_eq_ok] at h
  obtain ⟨mandate, _, profile, _, policy, _, _, hwell, hhuman, rfl⟩ := h
  exact ⟨rfl, rfl, rfl, rfl, rfl, rfl, hhuman, rfl, rfl, rfl, hwell⟩

theorem freshDraft_of_rebindingDraftOf {deploymentId : StableId} {request : ExactRebindingRequest}
    {kind : RebindingKind} {reads : RebindingReads} {draft : DeploymentDraft}
    (h : P11DeploymentService.rebindingDraftOf ports ctx deploymentId request kind reads =
      .ok draft) :
    FreshDraft ctx deploymentId
      (P11DeploymentService.rebindingDraftId ports deploymentId kind request.idempotencyKey)
      kind.draftKind reads.package.version draft := by
  simp only [P11DeploymentService.rebindingDraftOf, DeploymentDraft.make_eq_ok] at h
  obtain ⟨hwell, hhuman, rfl⟩ := h
  exact ⟨rfl, rfl, rfl, rfl, rfl, rfl, hhuman, rfl, rfl, rfl, hwell⟩

theorem callMove_of_createDraft {request : DeploymentCreationRequest} {draft : DeploymentDraft}
    (h : P11DeploymentService.createDraft ports ctx looks s request = .ok (draft, t)) :
    CallMove ports ctx looks s (ports.requestDigest request.payload) (.createDraft request)
      (.draft draft) t := by
  simp only [P11DeploymentService.createDraft, bind_eq_ok] at h
  obtain ⟨_, _, answer, hanswer, h⟩ := h
  cases answer with
  | some replayed =>
    obtain ⟨rfl, rfl⟩ := Prod.mk.inj (pure_eq_ok.mp h)
    obtain ⟨row, hrow, hdigest, _, _⟩ := replayLookup_eq_some hanswer
    exact .replayed (.inl ⟨row, hrow, hdigest, trivial⟩)
  | none =>
    simp only [bind_eq_ok, HostTables.written_eq_ok] at h
    obtain ⟨package, _, made, hmade, d, hd, rfl⟩ := h
    have hfresh := freshDraft_of_creationDraft hmade
    simp only [createDeploymentDraft, hfresh.tenantId, hfresh.deploymentId, hfresh.kind,
      hfresh.author] at hd
    obtain ⟨hauthority, ⟨row, hrow, hdigest, _, rfl⟩ | ⟨hnew, hd⟩⟩ := mutation_eq_ok hd
    · exact .replayed (.inr ⟨row, hrow, hdigest, trivial⟩)
    · obtain ⟨rfl, heffect⟩ := insertDraft_eq_ok hd
      exact .performed hauthority hnew (.created hmade heffect)

theorem callMove_of_rebindingDraft {deploymentId : StableId} {request : ExactRebindingRequest}
    {kind : RebindingKind} {draft : DeploymentDraft}
    (h : P11DeploymentService.rebindingDraft ports ctx looks s deploymentId request kind =
      .ok (draft, t)) :
    CallMove ports ctx looks s (ports.requestDigest (.rebinding kind.draftKind deploymentId
      request.package request.expectedDeploymentRevision)) (.rebindingDraft deploymentId request kind)
      (.draft draft) t := by
  simp only [P11DeploymentService.rebindingDraft, bind_eq_ok] at h
  obtain ⟨_, _, answer, hanswer, h⟩ := h
  cases answer with
  | some replayed =>
    obtain ⟨rfl, rfl⟩ := Prod.mk.inj (pure_eq_ok.mp h)
    obtain ⟨row, hrow, hdigest, _, _⟩ := replayLookup_eq_some hanswer
    exact .replayed (.inl ⟨row, hrow, hdigest, trivial⟩)
  | none =>
    simp only [bind_eq_ok, HostTables.written_eq_ok] at h
    obtain ⟨reads, hreads, made, hmade, d, hd, rfl⟩ := h
    have hfresh := freshDraft_of_rebindingDraftOf hmade
    simp only [createDeploymentDraft, hfresh.tenantId, hfresh.deploymentId, hfresh.kind,
      hfresh.author] at hd
    obtain ⟨hauthority, ⟨row, hrow, hdigest, _, rfl⟩ | ⟨hnew, hd⟩⟩ := mutation_eq_ok hd
    · exact .replayed (.inr ⟨row, hrow, hdigest, trivial⟩)
    · obtain ⟨rfl, heffect⟩ := insertDraft_eq_ok hd
      exact .performed hauthority hnew (.rebinding hreads hmade heffect)

theorem callMove_of_review {deploymentId draftId : StableId} {request : ExactDraftConfirmation}
    {draft : DeploymentDraft}
    (h : P11DeploymentService.review ports ctx looks s deploymentId draftId request =
      .ok (draft, t)) :
    CallMove ports ctx looks s (ports.requestDigest (.draftStep .review draftId
      request.expectedRevision request.expectedCanonicalDigest))
      (.review deploymentId draftId request) (.draft draft) t := by
  simp only [P11DeploymentService.review, bind_eq_ok, HostTables.written_eq_ok] at h
  obtain ⟨bound, hbound, d, hd, rfl⟩ := h
  obtain ⟨htenant, hdeployment, _⟩ := boundDraft_key hbound
  obtain ⟨_, _, _, hauthor, _⟩ := boundDraft_eq_ok hbound
  simp only [reviewDeploymentDraft, htenant, hdeployment, hauthor] at hd
  obtain ⟨hauthority, ⟨row, hrow, hdigest, _, rfl⟩ | ⟨hnew, hd⟩⟩ := mutation_eq_ok hd
  · exact .replayed (.inr ⟨row, hrow, hdigest, trivial⟩)
  · obtain ⟨row, heffect⟩ := reviewDraft_eq_ok hd
    exact .performed hauthority hnew (.reviewed hbound heffect)

theorem callMove_of_confirm {deploymentId draftId : StableId} {request : ExactDraftConfirmation}
    {deployment : ColleagueDeployment}
    (h : P11DeploymentService.confirm ports ctx looks s deploymentId draftId request =
      .ok (deployment, t)) :
    CallMove ports ctx looks s (ports.requestDigest (.draftStep .confirm draftId
      request.expectedRevision request.expectedCanonicalDigest))
      (.confirm deploymentId draftId request) (.deployment deployment) t := by
  simp only [P11DeploymentService.confirm, bind_eq_ok, Prod.exists, pure_eq_ok,
    Prod.mk.injEq] at h
  obtain ⟨bound, hbound, answer, store, d, hd, rfl, rfl⟩ := h
  obtain ⟨htenant, hdeployment, _⟩ := boundDraft_key hbound
  obtain ⟨_, _, _, hauthor, _⟩ := boundDraft_eq_ok hbound
  simp only [confirmDeploymentDraft, htenant, hdeployment, hauthor] at hd
  obtain ⟨hauthority, ⟨row, hrow, hdigest, _, hsame⟩ | ⟨hnew, hd⟩⟩ := mutation_eq_ok hd
  · obtain ⟨rfl, rfl⟩ := Prod.mk.inj hsame
    rw [show ({ s.withStore ctx.tenantId (s.tenants ctx.tenantId) with
      deployments := s.deployments } : HostTables) = s from by
        rw [HostTables.withStore, Function.update_eq_self]]
    exact .replayed (.inr ⟨row, hrow, hdigest, trivial⟩)
  · obtain ⟨row, heffect⟩ := confirmDraft_eq_ok hd
    exact .performed hauthority hnew (.confirmed hbound heffect)

theorem callMove_of_transition {deploymentId : StableId} {request : ExactLifecycleRequest}
    {result : LifecycleTransitionResult}
    (h : P11DeploymentService.transition ports ctx looks s deploymentId request =
      .ok (result, t)) :
    CallMove ports ctx looks s (ports.requestDigest (.transition request.target
      request.expectedRevision request.expectedPackageDigest)) (.transition deploymentId request)
      (.lifecycle result) t := by
  simp only [P11DeploymentService.transition, bind_eq_ok, orFail_eq_ok,
    HostTables.written_eq_ok] at h
  obtain ⟨_, _, target, htarget, d, hd, rfl⟩ := h
  obtain ⟨hauthority, ⟨row, hrow, hdigest, hanswer, rfl⟩ | ⟨hnew, hd⟩⟩ := mutation_eq_ok hd
  · refine .replayed (.inr ⟨row, hrow, hdigest, result, rfl, ?_⟩)
    simp only [replayedTransition, bind_eq_ok] at hanswer
    obtain ⟨current, _, hanswer⟩ := hanswer
    split at hanswer
    · rename_i accepted kind hresult
      obtain ⟨_, _, haccepted, hkind⟩ := LifecycleTransitionResult.make_eq_ok hanswer
      rw [hresult, haccepted, hkind]
    · exact absurd hanswer (by simp)
  · obtain ⟨row, hstarts, heffect⟩ := transition_eq_ok hd
    exact .performed hauthority hnew (.transitioned htarget hstarts heffect)

/-- **Every call that succeeds** has one of these effects, for the digest of its
    request. -/
theorem callMove_of_perform {call : Call} {answer : CallAnswer}
    (h : call.perform ports ctx looks s = .ok (answer, t)) :
    ∃ payload, call.payload ports = .ok payload ∧
      CallMove ports ctx looks s (ports.requestDigest payload) call answer t := by
  cases call <;> simp only [Call.perform, bind_eq_ok, Prod.exists, pure_eq_ok, Prod.mk.injEq] at h
  all_goals obtain ⟨_, _, h, rfl, rfl⟩ := h
  case register => exact callMove_of_register h
  case package => exact ⟨_, rfl, callMove_of_mutate h⟩
  case createDraft => exact ⟨_, rfl, callMove_of_createDraft h⟩
  case rebindingDraft => exact ⟨_, rfl, callMove_of_rebindingDraft h⟩
  case review => exact ⟨_, rfl, callMove_of_review h⟩
  case confirm => exact ⟨_, rfl, callMove_of_confirm h⟩
  case transition => exact ⟨_, rfl, callMove_of_transition h⟩

end Calls

-- ════════════════════════════════════════════════════════════════════════
-- Steps
-- ════════════════════════════════════════════════════════════════════════

/-- The actions that have nothing to do with deployments. -/
def HostAction.Elsewhere : HostAction → Prop
  | .createInitialColleague _ _ => False
  | .call _ _ _ => False
  | _ => True

/-- What a step of a host does to the deployments. -/
inductive HostMove (ports : HostPorts) (s : HostState) : HostAction → HostTables → Prop
  | idle {a : HostAction} {t : HostTables} (same : t.deployments = s.tables.deployments)
      (elsewhere : a.Elsewhere) : HostMove ports s a t
  | initial {ctx : CallContext} {request : InitialColleagueRequest}
      {cmd : InitialColleagueCommand} {store : TenantStore} {d : DeploymentTables} {slot : ℕ}
      (command : InitialColleagueService.command ports ctx request = .ok cmd)
      (effect : CreatesInitial (s.tables.tenants ctx.tenantId) store s.tables.deployments d cmd
        slot) :
      HostMove ports s (.createInitialColleague ctx request)
        { s.tables.withStore ctx.tenantId store with deployments := d }
  | call {ctx : CallContext} {call : Call} {looks : List ℕ} {payload : RequestPayload}
      {answer : CallAnswer} {t : HostTables} (requested : call.payload ports = .ok payload)
      (authority : ∃ m, (s.tables.tenant ctx.tenantId).requireCurrentMembership ctx.actor
        call.action call.ns = .ok m)
      (fresh : s.tables.deployments.replays.find? (call.replayKey ctx) = none)
      (effect : CallEffect ports ctx (s.look looks) s.tables (ports.requestDigest payload) call
        answer t) :
      HostMove ports s (.call ctx call looks) t
  | replayed {ctx : CallContext} {call : Call} {looks : List ℕ} {payload : RequestPayload}
      {answer : CallAnswer} (requested : call.payload ports = .ok payload)
      (recorded :
        RecordedIn ctx (ports.requestDigest payload) call answer (s.look looks 1) ∨
          RecordedIn ctx (ports.requestDigest payload) call answer s.tables) :
      HostMove ports s (.call ctx call looks) s.tables

theorem hostMove_of_exec {ports : HostPorts} {s t : HostState} {a : HostAction}
    (h : s.exec ports a = .ok t) : HostMove ports s a t.tables := by
  cases a with
  | tenant tenantId action =>
    simp only [HostState.exec, bind_eq_ok, pure_eq_ok] at h
    obtain ⟨_, _, rfl⟩ := h
    exact .idle rfl trivial
  | read tenantId colleagueId read =>
    simp only [HostState.exec, bind_eq_ok, pure_eq_ok] at h
    obtain ⟨_, _, rfl⟩ := h
    exact .idle rfl trivial
  | builder tenantId colleagueId action =>
    simp only [HostState.exec, bind_eq_ok, pure_eq_ok] at h
    obtain ⟨_, _, rfl⟩ := h
    exact .idle rfl trivial
  | confirmDraft tenantId colleagueId cmd =>
    simp only [HostState.exec, bind_eq_ok, Prod.exists, pure_eq_ok] at h
    obtain ⟨_, _, _, _, rfl⟩ := h
    exact .idle rfl trivial
  | createInitialColleague ctx request =>
    simp only [HostState.exec, InitialColleagueService.create, bind_eq_ok, require_eq_ok,
      Prod.exists, pure_eq_ok, exists_const] at h
    obtain ⟨_, ⟨_, cmd, hcmd, store, d, hd, rfl⟩, rfl⟩ := h
    obtain ⟨slot, heffect⟩ := createInitialColleague_eq_ok hd
    exact .initial hcmd heffect
  | call ctx call looks =>
    simp only [HostState.exec, bind_eq_ok, Prod.exists, pure_eq_ok] at h
    obtain ⟨answer, tables, hperform, rfl⟩ := h
    obtain ⟨payload, hpayload, hmove⟩ := callMove_of_perform hperform
    cases hmove with
    | replayed recorded => exact .replayed hpayload recorded
    | performed hauthority hfresh heffect => exact .call hpayload hauthority hfresh heffect

end DigitalColleagues
