import DigitalColleagues.Core.Authority
import DigitalColleagues.Core.Runtime

/-!
# Effects, approvals, attempts and results

The fully specified immutable effects of one colleague and the records of their
approval and execution. The two digests of a proposal are kept as data.
-/

namespace DigitalColleagues

structure EffectDestination where
  kind : StableId
  target : String
deriving DecidableEq

structure EffectConstraints where
  boundaryId : StableId
  idempotencyKey : StableId
  validUntil : Instant
  maximumAttempts : ℕ
  parameters : FrozenJsonObject
  maximumAttempts_pos : 0 < maximumAttempts := by decide

inductive EffectProposalState
  | pendingApproval
  | approved
  | rejected
  | expired
deriving DecidableEq

/-- A mandate identity is complete or absent. -/
structure MandateBinding where
  mandateId : StableId
  mandateRevision : ℕ
deriving DecidableEq

/-- The public fields of an effect proposal: everything but its payload. -/
structure EffectProposalContract where
  proposalId : StableId
  decisionId : StableId
  effectKind : EffectKind
  destination : EffectDestination
  action : StableId
  safeProjection : FrozenJsonObject
  constraints : EffectConstraints
  state : EffectProposalState
  actor : Principal
  correlationId : StableId
  occurredAt : Instant
  revision : ℕ
  mandate : Option MandateBinding
  policy : Option PolicyBinding
  payloadDigest : Digest
  proposalDigest : Digest

/-- A proposed effect. It must expire after it is proposed. -/
structure EffectProposal extends EffectProposalContract where
  payload : FrozenJsonObject
  expires : occurredAt < constraints.validUntil

inductive ApprovalChoice
  | approve
  | reject
deriving DecidableEq

/-- One human decision about one exact proposal revision. -/
structure HumanApprovalDecision where
  approvalDecisionId : StableId
  proposalId : StableId
  proposalRevision : ℕ
  proposalPayloadDigest : Digest
  proposalDigest : Digest
  choice : ApprovalChoice
  author : Principal
  idempotencyKey : StableId
  correlationId : StableId
  occurredAt : Instant
  validUntil : Instant
  revision : ℕ
  author_human : author.kind = .human := by decide
  validity : occurredAt ≤ validUntil := by decide

instance instDecidableEqHumanApprovalDecision : DecidableEq HumanApprovalDecision := fun a b =>
  decidable_of_iff (a.approvalDecisionId = b.approvalDecisionId ∧ a.proposalId = b.proposalId ∧
    a.proposalRevision = b.proposalRevision ∧
    a.proposalPayloadDigest = b.proposalPayloadDigest ∧ a.proposalDigest = b.proposalDigest ∧
    a.choice = b.choice ∧ a.author = b.author ∧ a.idempotencyKey = b.idempotencyKey ∧
    a.correlationId = b.correlationId ∧ a.occurredAt = b.occurredAt ∧
    a.validUntil = b.validUntil ∧ a.revision = b.revision) (by cases a; cases b; simp)

/-- Approval causation names its proposal. -/
def HumanApprovalDecision.causationId (d : HumanApprovalDecision) : StableId := d.proposalId

inductive EffectAttemptState
  | planned
  | started
  | succeeded
  | failed
  | ambiguous
deriving DecidableEq, Repr

structure EffectAttempt where
  effectAttemptId : StableId
  proposalId : StableId
  proposalRevision : ℕ
  approvalDecisionId : StableId
  attemptNumber : ℕ
  state : EffectAttemptState
  actor : Principal
  correlationId : StableId
  occurredAt : Instant
  revision : ℕ
deriving DecidableEq

/-- Attempt causation names its approval decision. -/
def EffectAttempt.causationId (a : EffectAttempt) : StableId := a.approvalDecisionId

inductive ActionResultState
  | succeeded
  | failed
  | notExecuted
  | retryableFailure
  | permanentFailure
  | ambiguous
deriving DecidableEq, Repr

structure ActionResult where
  actionResultId : StableId
  effectAttemptId : StableId
  state : ActionResultState
  safeProjection : FrozenJsonObject
  resultDigest : Digest
  actor : Principal
  correlationId : StableId
  occurredAt : Instant
  revision : ℕ

end DigitalColleagues
