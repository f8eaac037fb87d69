import DigitalColleagues.Governance.System

/-!
# The application of approved changes

`P6ChangeService.apply_draft` and `apply_membership`. A call reads the store more
than once and writes it in up to two transactions; transactions of others may lie
between all of these.

## Main definitions

- `ChangeApplication` — what a call left behind
- `P6ChangeService.applyDraft`, `P6ChangeService.applyMembership`
-/

namespace DigitalColleagues

/-- `P6AuthenticationService.authorize`. -/
def TenantTables.authorize (s : TenantTables) (session : AuthenticatedSession)
    (action : AuthorizationAction) (ns : Namespace) : Outcome Membership := do
  let current ← s.membershipForPrincipal session.principal.principalId
  match authorizeAction session.principal current.toMembershipFields action ns with
  | .error _ => .error (.permissionDenied "governance action was refused")
  | .ok () =>
    require (session.roleRevision = current.roleRevision ∧
        session.membershipRevision = current.membershipRevision)
      (.permissionDenied "session authority revision is stale")
    pure current

/-- `get_change_proposal`. -/
def TenantTables.getChangeProposal (s : TenantTables) (ns : Namespace) (proposalId : StableId) :
    Outcome ChangeProposal :=
  orFail (s.changeProposals.find? (ns, proposalId)) (.notFound "governance change was not found")

/-- What the request of a confirmation is bound to. -/
structure ConfirmationBinding where
  draftId : StableId
  expectedDraftRevision : ℕ
  expectedBaseRevisions : BaseRevisions
  expectedCanonicalDigest : Digest
  changeDecisionId : Option StableId

structure ChangePorts extends GovernancePorts where
  confirmationDigest : ConfirmationBinding → Digest
  textDigest : String → String → Digest
  derive : String → List String → StableId

/-- The arguments of an application; the clock is read when its transaction begins. -/
structure ApplyRequest where
  session : AuthenticatedSession
  proposalId : StableId
  decisionId : StableId
  idempotencyKey : StableId
  now : Instant

/-- What a call left behind: its result, the store after its first transaction,
    and the store after the one that marks a proposal stale. Without a second
    transaction that is what others made of the first store. -/
structure ChangeApplication (α : Type) where
  result : Outcome α
  applied : GovernanceStore
  marked : GovernanceStore

namespace P6ChangeService

-- The call meets the stores `looks 0`, `looks 1`, … as it reads, and `s` in its
-- first transaction; `others` act before the second one.
variable (ports : ChangePorts) (looks : ℕ → GovernanceStore)
  (others : GovernanceStore → GovernanceStore) (request : ApplyRequest)

/-- The colleague of the session and the proposal to apply to it. -/
def draftProposal : Outcome (StableId × ChangeProposal) := do
  let colleagueId ← orFail request.session.activeColleagueId
    (.coreInvariant "session has no active colleague namespace")
  let _ ← (looks 0).tenant.authorize request.session .applyChange (.colleague colleagueId)
  let proposal ← (looks 1).tenant.getChangeProposal (.colleague colleagueId) request.proposalId
  require (proposal.changeKind = .draft)
    (.permissionDenied "change proposal is not a draft change")
  pure (colleagueId, proposal)

/-- `P6BuilderService.confirm` up to its transaction. -/
def authorizeConfirmation (colleagueId : StableId) : Outcome Unit := do
  let _ ← (looks 2).tenant.authorize request.session .manageDraft (.colleague colleagueId)
  requireDraftAdmin request.session.principal

/-- The confirmation of a proposal's draft. -/
def confirmCommand (proposal : ChangeProposal) : ConfirmDraftCommand where
  draftId := proposal.targetId
  expectedDraftRevision := proposal.targetRevision
  expectedBaseRevisions := proposal.baseRevisions
  expectedCanonicalDigest := proposal.canonicalDigest
  actor := request.session.principal
  idempotencyKey := request.idempotencyKey
  requestDigest := ports.confirmationDigest
    { draftId := proposal.targetId
      expectedDraftRevision := proposal.targetRevision
      expectedBaseRevisions := proposal.baseRevisions
      expectedCanonicalDigest := proposal.canonicalDigest
      changeDecisionId := some request.decisionId }
  confirmationId := ports.derive "confirmation" [proposal.targetId.val, request.idempotencyKey.val]
  occurredAt := request.now
  changeDecisionId := some request.decisionId

/-- The transaction that marks a proposal stale, on the store it finds. -/
def markStale (proposal : ChangeProposal) (s : GovernanceStore) : Outcome GovernanceStore := do
  let (_, tenant) ← s.tenant.markChangeProposalStale proposal request.session.principal
  pure { s with tenant := tenant }

/-- `except StaleConflictError`: the proposal is marked and the error raised again. -/
def markAndRaise {α : Type} (proposal : ChangeProposal) (e : Failure) (s : GovernanceStore) :
    ChangeApplication α :=
  match e with
  | .staleConflict _ =>
    match markStale request proposal (others s) with
    | .ok t => ⟨.error e, s, t⟩
    | .error e' => ⟨.error e', s, others s⟩
  | _ => ⟨.error e, s, others s⟩

/-- `apply_draft`. -/
def applyDraft (s : GovernanceStore) : ChangeApplication ConfirmationResult :=
  match draftProposal looks request with
  | .error e => ⟨.error e, s, others s⟩
  | .ok (colleagueId, proposal) =>
    match authorizeConfirmation looks request colleagueId with
    | .error e => ⟨.error e, s, others s⟩
    | .ok () =>
      match confirmDraft s.tenant (s.tables colleagueId) colleagueId
          (confirmCommand ports request proposal) with
      | .error e => markAndRaise others request proposal e s
      | .ok (result, tenant, tables) =>
        let t := { s with tenant := tenant }.withTables colleagueId tables
        match result with
        | .error e => markAndRaise others request proposal e t
        | .ok confirmation => ⟨.ok confirmation, t, others t⟩

/-- What `apply_membership` reads before its transaction: the proposal, and
    whether the membership it is about is still the one it was made for. -/
def membershipProposal : Outcome (ChangeProposal × Bool) := do
  let _ ← (looks 0).tenant.authorize request.session .applyChange .tenant
  let proposal ← (looks 1).tenant.getChangeProposal .tenant request.proposalId
  let target ← (looks 2).tenant.membershipForPrincipal proposal.targetId
  let expectedDigest := ports.changeDigest
    { proposal.change with
      targetId := target.principalId
      targetRevision := target.membershipRevision }
  pure (proposal, decide (proposal.state = .approved ∧
    (target.membershipRevision ≠ proposal.targetRevision ∨
      expectedDigest ≠ proposal.canonicalDigest)))

/-- `apply_membership`; one transaction, which marks or applies the proposal. -/
def applyMembership (s : GovernanceStore) : Outcome Membership × GovernanceStore :=
  match membershipProposal ports looks request with
  | .error e => (.error e, s)
  | .ok (proposal, true) =>
    match markStale request proposal s with
    | .error e => (.error e, s)
    | .ok t => (.error (.staleConflict "membership change target is stale"), t)
  | .ok (proposal, false) =>
    match s.tenant.applyMembershipChange ports.changeDigest proposal request.decisionId
        request.session request.idempotencyKey
        (ports.textDigest "change:membership-apply"
          (request.proposalId.val ++ ":" ++ request.decisionId.val)) request.now with
    | .error e => (.error e, s)
    | .ok (membership, tenant) => (.ok membership, { s with tenant := tenant })

end P6ChangeService

end DigitalColleagues
