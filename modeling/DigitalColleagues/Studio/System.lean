import DigitalColleagues.Governance.Lineage
import DigitalColleagues.Governance.Approvals
import DigitalColleagues.Runtime.System
import DigitalColleagues.Store.Admission

/-!
# Runs of the whole store

Admins, submitters, approvers and workers on one colleague, as an interleaving
of their transactions: the governed configuration, the admission of triggers,
and the runtime, over one database. What a process reads or checks in one
transaction it may use in a later one, whatever happened in between.

## Main definitions

- `StudioTables` — what the runtime store reaches through the hooks of its class
- `studioHooks` — the overridden methods of the governed store
- `StudioState`, `StudioAction`, `StudioState.exec` — the states and transactions
- `studio` — the system
-/

namespace DigitalColleagues

open Keyed

-- ════════════════════════════════════════════════════════════════════════
-- Tables
-- ════════════════════════════════════════════════════════════════════════

/-- A row of `p6_effect_approval_bindings`. -/
structure EffectApprovalBinding where
  approvalDecisionId : StableId
  principalId : StableId
  principalRevision : ℕ
  roleRevision : ℕ
  membershipRevision : ℕ
  proposalId : StableId
  proposalRevision : ℕ
  proposalDigest : Digest
  validUntil : Instant
  consumedAt : Instant
deriving DecidableEq

instance : Keyed EffectApprovalBinding StableId := ⟨EffectApprovalBinding.approvalDecisionId⟩

/-- The tables next to those of the runtime. -/
structure StudioTables where
  governance : GovernanceState
  admission : AdmissionTables
  works : Table FiniteWork
  bindings : Table EffectApprovalBinding

namespace StudioTables

def empty : StudioTables := ⟨.initial, .empty, .empty, .empty⟩

/-- The tables of the tenant. -/
def tenant (s : StudioTables) : TenantTables := s.governance.store.tenant

/-- The configuration tables of the colleague. -/
def configuration (s : StudioTables) : BuilderTables := s.governance.configuration

def withConfiguration (s : StudioTables) (tables : BuilderTables) : StudioTables :=
  { s with governance := { s.governance with store := { s.governance.store with
      colleague := s.governance.store.colleague.map fun c => { c with tables := tables } } } }

/-- The namespace of the colleague. -/
def colleagueNamespace (s : StudioTables) : Namespace :=
  s.governance.store.colleague.elim .tenant fun c => .colleague c.colleagueId

-- ════════════════════════════════════════════════════════════════════════
-- Overridden methods
-- ════════════════════════════════════════════════════════════════════════

/-- `_bind_effect_approval_authority`. -/
def bindEffectApprovalAuthority (s : StudioTables) (occurredAt : Instant)
    (proposal : EffectProposal) (decision : HumanApprovalDecision) (approver : Principal) :
    Outcome StudioTables := do
  let membership ← s.tenant.requireCurrentMembership approver .decideEffect s.colleagueNamespace
  let bindings ← orFail (s.bindings.insert?
    { approvalDecisionId := decision.approvalDecisionId
      principalId := approver.principalId
      principalRevision := approver.revision
      roleRevision := membership.roleRevision
      membershipRevision := membership.membershipRevision
      proposalId := proposal.proposalId
      proposalRevision := proposal.revision
      proposalDigest := proposal.proposalDigest
      validUntil := decision.validUntil
      consumedAt := occurredAt }) .integrity
  pure { s with bindings := bindings }

theorem noAction_effect : DecisionKind.noAction = .proposeEffect ↔
    (none : Option StableId).isSome := by decide

theorem noOp_proposal : SemanticOutcome.noOp = .proposal ↔
    (none : Option EffectProposal).isSome := by simp

/-- A decision that found the colleague stopped before its proposal was stored. -/
def stoppedDecision (semantic : SemanticDecision) (policy : ColleaguePolicy) : SemanticDecision where
  outcome := .noOp
  decision :=
    { semantic.decision with
      kind := .noAction
      rationale := "Durable stopped state was revalidated before proposal persistence."
      proposedEffectId := none
      policy := some ⟨policy.policyId, policy.revision⟩
      effect_iff := noAction_effect }
  proposal := none
  requestId := semantic.requestId
  proposal_iff := noOp_proposal

/-- The outcome of a decision about a stopped colleague, unless one is recorded. -/
def recordStoppedDecision (s : BuilderTables) (wakeCycles : Records WakeCycle)
    (policy : ColleaguePolicy) (decision : Decision) : Outcome BuilderTables :=
  if (s.policyOutcomes.rows.any fun r => decide (r.correlationId = decision.correlationId ∧
      r.causationId = decision.agendaItemId ∧ r.outcome = .stopped)) = true then .ok s
  else do
    let wake ← wakeCycles.getRecord decision.wakeCycleId
    s.insertPolicyOutcome
      { outcomeId := .stoppedProposal decision.decisionId
        policyId := policy.policyId
        policyRevision := policy.revision
        mandateId := policy.mandateId
        mandateRevision := policy.mandateRevision
        stage := .postModel
        outcome := .stopped
        triggerClass := some (if wake.triggerTimerOccurrenceIds = [] then .event else .timer)
        sourceId := wake.causationId
        actorPrincipalId := decision.actor.principalId
        correlationId := decision.correlationId
        causationId := decision.agendaItemId
        occurredAt := decision.occurredAt }

/-- `_prepare_semantic_decision`. -/
def prepareSemanticDecision (s : RuntimeStore StudioTables) (_ : AgendaClaim)
    (semantic : SemanticDecision) : Outcome (SemanticDecision × StudioTables) := do
  let policy ← s.rest.configuration.getActivePolicy
  match policy with
  | none => pure (semantic, s.rest)
  | some policy =>
    if s.rest.configuration.stopped policy then do
      let recorded ← recordStoppedDecision s.rest.configuration s.agenda.wakeCycles policy
        semantic.decision
      match semantic.proposal with
      | none => pure (semantic, s.rest.withConfiguration recorded)
      | some _ => pure (stoppedDecision semantic policy, s.rest.withConfiguration recorded)
    else pure (semantic, s.rest)

end StudioTables

/-- The governed store as a class of runtime stores. -/
def studioHooks : StoreHooks StudioTables where
  findMandate s := s.configuration.mandates.find?
  findPrincipal s := s.tenant.principals.find?
  bindEffectApprovalAuthority := StudioTables.bindEffectApprovalAuthority
  prepareSemanticDecision := StudioTables.prepareSemanticDecision

-- ════════════════════════════════════════════════════════════════════════
-- Checks in reads of their own
-- ════════════════════════════════════════════════════════════════════════

/-- The first read of `require_current_proposal_policy`: the active policy, whose
    run state is still to be looked at. -/
def StudioTables.requireBoundPolicy (s : StudioTables) (proposal : EffectProposal) :
    Outcome (Option ColleaguePolicy) := do
  let active ← s.configuration.getActivePolicy
  match active with
  | none => do
    require (proposal.policy = none) (.permissionDenied "proposal policy binding is stale")
    pure none
  | some active => do
    require (proposal.policy = some ⟨active.policyId, active.revision⟩)
      (.permissionDenied "proposal policy binding is stale")
    require (proposal.mandate = some ⟨active.mandateId, active.mandateRevision⟩)
      (.permissionDenied "proposal Mandate/policy binding is stale")
    pure (some active)

/-- The second read of `require_current_proposal_policy`. -/
def StudioTables.requireRunning (s : StudioTables) (active : ColleaguePolicy) : Outcome Unit :=
  require (¬s.configuration.stopped active)
    (.permissionDenied "stopped policy refused proposal use")

/-- The authority that a binding was made with is the present one. -/
def EffectApprovalBinding.current (b : EffectApprovalBinding) (principal : Principal)
    (membership : MembershipFields) (ns : Namespace) : Prop :=
  principal.kind = .human ∧ principal.revision = b.principalRevision ∧
    membership.status = .active ∧ membership.roleRevision = b.roleRevision ∧
    membership.membershipRevision = b.membershipRevision ∧ membership.allowsNamespace ns = true ∧
    (.tenantAdmin ∈ membership.roles ∨ .colleagueUser ∈ membership.roles)

instance (b : EffectApprovalBinding) (principal : Principal) (membership : MembershipFields)
    (ns : Namespace) : Decidable (b.current principal membership ns) :=
  inferInstanceAs (Decidable (_ ∧ _))

/-- The first read of `require_current_effect_approval`; the principal and the
    membership follow in reads of their own. -/
def StudioTables.requireApprovalBinding (s : StudioTables) (approvalDecisionId : StableId)
    (evaluatedAt : Instant) : Outcome EffectApprovalBinding := do
  let binding ← orFail (s.bindings.find? approvalDecisionId)
    (.permissionDenied "effect approval authority was refused")
  require (evaluatedAt ≤ binding.validUntil)
    (.permissionDenied "effect approval authority was refused")
  pure binding

/-- The last read of `require_current_effect_approval`, with what the others found. -/
def StudioTables.requireCurrentApprover (s : StudioTables) (binding : EffectApprovalBinding)
    (principal : Principal) : Outcome Unit := do
  let membership ← s.tenant.membershipForPrincipal binding.principalId
  require (binding.current principal membership.toMembershipFields s.colleagueNamespace)
    (.permissionDenied "effect approval authority became stale")

/-- What `_validate_exact_effect` checks of a bundle against the mandate it reads. -/
def DispatchBundle.validate (bundle : DispatchBundle) (mandate : Mandate) (evaluatedAt : Instant) :
    Outcome Unit := do
  require (bundle.proposal.mandate.map MandateBinding.mandateId = some mandate.mandateId)
    (.permissionDenied "proposal mandate identity is stale")
  require (bundle.proposal.mandate.map MandateBinding.mandateRevision = some mandate.revision)
    (.permissionDenied "proposal mandate revision is stale")
  require (bundle.effectIdempotencyKey = bundle.proposal.constraints.idempotencyKey)
    (.permissionDenied "effect idempotency identity drifted")
  require (bundle.approval.author = bundle.approver)
    (.permissionDenied "approval principal binding drifted")
  authorizeEffectProposal bundle.proposal mandate mandate.revision
  authorizeHumanApproval bundle.proposal bundle.approval evaluatedAt

-- ════════════════════════════════════════════════════════════════════════
-- State
-- ════════════════════════════════════════════════════════════════════════

/-- A human decision under way; `policy` is the one it found active, as long as the
    run state is not looked at. -/
structure Review where
  proposal : EffectProposal
  choice : ApprovalChoice
  policy : Option ColleaguePolicy

/-- How far `_validate_exact_effect` has come, with what it read and did not
    compare yet. -/
inductive DispatchPhase
  | loaded
  | mandateChecked
  | policyRead (active : ColleaguePolicy)
  | policyChecked
  | bindingRead (binding : EffectApprovalBinding)
  | principalRead (binding : EffectApprovalBinding) (principal : Principal)
  | approvalChecked
deriving DecidableEq

/-- A dispatch under way, from the read of its bundle to its start. -/
structure Dispatch where
  claim : OutboxClaim
  bundle : DispatchBundle
  phase : DispatchPhase

/-- The store and the processes between two of their transactions. -/
structure StudioState where
  runtime : RuntimeState StudioTables
  admitted : List AdmitTriggerCommand
  reviews : List Review
  dispatches : List Dispatch

inductive StudioAction
  | governance (action : GovernanceAction)
  | assignWork (work : FiniteWork)
  | admitTrigger (cmd : AdmitTriggerCommand)
  | ingestEvent (event : InputEvent) (idempotencyKey : String) (triggerId : StableId)
  | ingestTimer (occurrence : TimerOccurrence) (idempotencyKey : String) (triggerId : StableId)
  | agenda (action : AgendaAction)
  | recordPolicyOutcome (record : PolicyEnforcementRecord)
  | commitSemanticDecision (claim : AgendaClaim) (semantic : SemanticDecision)
  | reviewProposal (proposalId : StableId) (choice : ApprovalChoice)
  | reviewRunState (review : ℕ)
  | commitApproval (review : ℕ) (cmd : ApprovalCommand)
  | abandonReview (review : ℕ)
  | effect (action : EffectAction)
  | loadDispatch (claim : OutboxClaim) (mandateId : StableId)
  | validateDispatch (dispatch : ℕ) (mandateId : StableId) (evaluatedAt : Instant)
  | authorizePolicy (dispatch : ℕ)
  | authorizeRunState (dispatch : ℕ)
  | authorizeBinding (dispatch : ℕ) (evaluatedAt : Instant)
  | authorizePrincipal (dispatch : ℕ)
  | authorizeMembership (dispatch : ℕ)
  | startDispatch (dispatch : ℕ) (occurredAt : Instant)
  | abandonDispatch (dispatch : ℕ)

namespace StudioState

def initial : StudioState := ⟨.initial .empty, [], [], []⟩

/-- The tables next to those of the runtime. -/
def tables (s : StudioState) : StudioTables := s.runtime.rest

def withTables (s : StudioState) (tables : StudioTables) : StudioState :=
  { s with runtime := { s.runtime with rest := tables } }

/-- The configuration tables of the colleague. -/
def configuration (s : StudioState) : BuilderTables := s.tables.configuration

/-- A process that the state knows. -/
def process {α : Type} (processes : List α) (i : ℕ) : Outcome α :=
  orFail processes[i]? (.persistence "process was never started")

/-- An action that a process takes only as a part of another one. -/
def otherwise {α : Type} : Outcome α := .error (.persistence "action belongs to another process")

/-- A bound source is that of an admitted trigger; `submit_trigger` binds no other. -/
def bindingAdmitted (s : StudioState) (triggerClass : DurableTriggerKind) (sourceId : StableId)
    (policy : Option PolicyBinding) : Prop :=
  ∀ binding ∈ policy, ∃ cmd ∈ s.admitted, cmd.triggerClass = triggerClass ∧
    cmd.sourceId = sourceId ∧ binding = ⟨cmd.policy.policyId, cmd.policy.revision⟩

instance (s : StudioState) (triggerClass : DurableTriggerKind) (sourceId : StableId)
    (policy : Option PolicyBinding) : Decidable (s.bindingAdmitted triggerClass sourceId policy) := by
  unfold bindingAdmitted
  infer_instance

/-- The outcomes that `_policy_record` writes: after the model, or a refusal before it. -/
def recordedAroundModel (record : PolicyEnforcementRecord) : Prop :=
  record.stage = .postModel ∨
    record.stage = .preWake ∧ (record.outcome = .stalePolicy ∨ record.outcome = .stopped)

instance (record : PolicyEnforcementRecord) : Decidable (recordedAroundModel record) :=
  inferInstanceAs (Decidable (_ ∨ _))

/-- One transaction of the runtime. -/
def execRuntime (s : StudioState) (action : RuntimeAction StudioTables) : Outcome StudioState := do
  let runtime ← s.runtime.exec studioHooks action
  pure { s with runtime := runtime }

def execAgenda (s : StudioState) : AgendaAction → Outcome StudioState
  | .ingestEvent _ _ _ => otherwise
  | .ingestTimer _ _ _ => otherwise
  | action => s.execRuntime (.agenda action)

def execEffect (s : StudioState) : EffectAction → Outcome StudioState
  | .markDispatchStarted _ _ => otherwise
  | action => s.execRuntime (.effect action)

/-- A dispatch that passed its next check. -/
def advance (s : StudioState) (i : ℕ) (dispatch : Dispatch) (phase : DispatchPhase) : StudioState :=
  { s with dispatches := s.dispatches.set i { dispatch with phase := phase } }

variable (ports : GovernancePorts) (zones : TimeZones)

def exec (s : StudioState) : StudioAction → Outcome StudioState
  | .governance action => do
    let governance ← s.tables.governance.exec ports action
    pure (s.withTables { s.tables with governance := governance })
  | .assignWork work => do
    let works := match s.tables.works.insert? work with
      | some works => works
      | none => s.tables.works.replace work
    pure (s.withTables { s.tables with works := works })
  | .admitTrigger cmd => do
    let (admission, admitted, configuration) ← DigitalColleagues.admitTrigger zones s.tables.works
      s.runtime.effects.tables.results s.tables.admission s.configuration cmd
    let s := s.withTables
      ({ s.tables with admission := admitted }.withConfiguration configuration)
    pure { s with admitted := if admission.accepted then s.admitted ++ [cmd] else s.admitted }
  | .ingestEvent event idempotencyKey triggerId => do
    require (s.bindingAdmitted .event event.eventId event.policy)
      (.persistence "trigger was never admitted")
    s.execRuntime (.agenda (.ingestEvent event idempotencyKey triggerId))
  | .ingestTimer occurrence idempotencyKey triggerId => do
    require (s.bindingAdmitted .timer occurrence.occurrenceId occurrence.policy)
      (.persistence "trigger was never admitted")
    s.execRuntime (.agenda (.ingestTimer occurrence idempotencyKey triggerId))
  | .agenda action => s.execAgenda action
  | .recordPolicyOutcome record => do
    require (recordedAroundModel record) (.persistence "outcome belongs to another process")
    let configuration ← s.configuration.insertPolicyOutcome record
    pure (s.withTables (s.tables.withConfiguration configuration))
  | .commitSemanticDecision claim semantic =>
    s.execRuntime (.commitSemanticDecision claim semantic)
  | .reviewProposal proposalId choice => do
    let proposal ← s.runtime.effects.tables.proposals.getRecord proposalId
    let policy ← if proposal.policy ≠ none then s.tables.requireBoundPolicy proposal else .ok none
    pure { s with reviews := s.reviews ++ [⟨proposal, choice, policy⟩] }
  | .reviewRunState i => do
    let review ← process s.reviews i
    let active ← orFail review.policy (.persistence "review is past this check")
    s.tables.requireRunning active
    pure { s with reviews := s.reviews.set i { review with policy := none } }
  | .commitApproval i cmd => do
    let review ← process s.reviews i
    require (review.policy = none) (.persistence "review is not checked yet")
    require (cmd.decision.proposalId = review.proposal.proposalId ∧
        cmd.decision.choice = review.choice)
      (.persistence "decision belongs to another process")
    let s ← s.execRuntime (.commitApprovalAndAttempt cmd)
    pure { s with reviews := s.reviews.eraseIdx i }
  | .abandonReview i => .ok { s with reviews := s.reviews.eraseIdx i }
  | .effect action => s.execEffect action
  | .loadDispatch claim mandateId => do
    requireIssued claim s.runtime.effects.outboxClaims
    let bundle ← s.runtime.store.loadDispatchBundle studioHooks claim mandateId
    pure { s with dispatches := s.dispatches ++ [⟨claim, bundle, .loaded⟩] }
  | .validateDispatch i mandateId evaluatedAt => do
    let dispatch ← process s.dispatches i
    require (dispatch.phase = .loaded) (.persistence "dispatch is past this check")
    let mandate ← s.configuration.mandates.getRecord mandateId
    dispatch.bundle.validate mandate evaluatedAt
    pure (s.advance i dispatch .mandateChecked)
  | .authorizePolicy i => do
    let dispatch ← process s.dispatches i
    require (dispatch.phase = .mandateChecked) (.persistence "dispatch is past this check")
    let active ← s.tables.requireBoundPolicy dispatch.bundle.proposal
    pure (s.advance i dispatch (active.elim .policyChecked .policyRead))
  | .authorizeRunState i => do
    let dispatch ← process s.dispatches i
    match dispatch.phase with
    | .policyRead active => do
      s.tables.requireRunning active
      pure (s.advance i dispatch .policyChecked)
    | _ => .error (.persistence "dispatch is past this check")
  | .authorizeBinding i evaluatedAt => do
    let dispatch ← process s.dispatches i
    require (dispatch.phase = .policyChecked) (.persistence "dispatch is past this check")
    let binding ← s.tables.requireApprovalBinding dispatch.bundle.approval.approvalDecisionId
      evaluatedAt
    pure (s.advance i dispatch (.bindingRead binding))
  | .authorizePrincipal i => do
    let dispatch ← process s.dispatches i
    match dispatch.phase with
    | .bindingRead binding => do
      let principal ← s.tables.tenant.getPrincipal binding.principalId
      pure (s.advance i dispatch (.principalRead binding principal))
    | _ => .error (.persistence "dispatch is past this check")
  | .authorizeMembership i => do
    let dispatch ← process s.dispatches i
    match dispatch.phase with
    | .principalRead binding principal => do
      s.tables.requireCurrentApprover binding principal
      require (dispatch.bundle.attempt.attemptNumber ≤ dispatch.bundle.maximumAttempts)
        (.permissionDenied "effect attempt limit was exceeded")
      pure (s.advance i dispatch .approvalChecked)
    | _ => .error (.persistence "dispatch is past this check")
  | .startDispatch i occurredAt => do
    let dispatch ← process s.dispatches i
    require (dispatch.phase = .approvalChecked) (.persistence "dispatch is not checked yet")
    let s ← s.execRuntime (.effect (.markDispatchStarted dispatch.claim occurredAt))
    pure { s with dispatches := s.dispatches.eraseIdx i }
  | .abandonDispatch i => .ok { s with dispatches := s.dispatches.eraseIdx i }

end StudioState

/-- The whole store of one colleague and its tenant. -/
def studio (ports : GovernancePorts) (zones : TimeZones) :
    TransitionSystem StudioState StudioAction where
  init s := s = .initial
  step s a t := s.exec ports zones a = .ok t

end DigitalColleagues
