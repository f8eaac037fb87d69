import DigitalColleagues.Core.Effects

/-!
# Requests to the intelligence

What a wake asks an intelligence adapter, and the proposal that an adapter
builds for it. Everything but the destination, the action and the two JSON
objects of a proposal comes from the request and from one boundary of its
mandate.
-/

namespace DigitalColleagues

/-- The text of a digest, `sha256:` and 64 hexadecimal digits. -/
def Digest.text (digest : Digest) : String :=
  "sha256:" ++ String.ofList ((Nat.toDigits 16 digest.val).leftpad 64 '0')

/-- The fields that the constructor of a request checks are types of identifiers;
    its validity follows the request and its policy is the one of its wake. -/
structure IntelligenceRequest where
  requestId : StableId
  wakeCycle : WakeCycle
  agendaItem : AgendaItem
  mandate : Mandate
  modelPrincipal : Principal
  decisionId : StableId
  proposalId : StableId
  effectIdempotencyKey : StableId
  occurredAt : Instant
  proposalValidUntil : Instant
  policy : Option PolicyBinding
  validity : occurredAt < proposalValidUntil := by decide
  policy_wake : wakeCycle.policy = policy := by decide

/-- The two digests that the constructor of a proposal computes. -/
structure ProposalDigests where
  payloadDigest : FrozenJsonObject → Digest
  proposalDigest : EffectProposalContract → Digest

namespace IntelligenceRequest

variable (digests : ProposalDigests) (request : IntelligenceRequest)

/-- The constraints of a proposal inside `boundary`. -/
def constraints (boundary : EffectBoundary) : EffectConstraints where
  boundaryId := boundary.boundaryId
  idempotencyKey := request.effectIdempotencyKey
  validUntil := request.proposalValidUntil
  maximumAttempts := 3
  parameters := boundary.constraints

/-- The proposal that both adapters build inside `boundary`. -/
def proposal (boundary : EffectBoundary) (destination : EffectDestination) (action : StableId)
    (payload safeProjection : FrozenJsonObject) : EffectProposal :=
  let contract : EffectProposalContract :=
    { proposalId := request.proposalId
      decisionId := request.decisionId
      effectKind := boundary.effectKind
      destination := destination
      action := action
      safeProjection := safeProjection
      constraints := request.constraints boundary
      state := .pendingApproval
      actor := request.modelPrincipal
      correlationId := request.agendaItem.correlationId
      occurredAt := request.occurredAt
      revision := 1
      mandate := some ⟨request.mandate.mandateId, request.mandate.revision⟩
      policy := request.policy
      payloadDigest := digests.payloadDigest payload
      proposalDigest := 0 }
  { contract with
    proposalDigest := digests.proposalDigest contract
    payload := payload
    expires := request.validity }

section Fields

variable (boundary : EffectBoundary) (destination : EffectDestination) (action : StableId)
  (payload safeProjection : FrozenJsonObject)

@[simp] theorem proposal_effectKind :
    (request.proposal digests boundary destination action payload safeProjection).effectKind =
      boundary.effectKind := rfl

@[simp] theorem proposal_destination :
    (request.proposal digests boundary destination action payload safeProjection).destination =
      destination := rfl

@[simp] theorem proposal_action :
    (request.proposal digests boundary destination action payload safeProjection).action =
      action := rfl

@[simp] theorem proposal_constraints :
    (request.proposal digests boundary destination action payload safeProjection).constraints =
      request.constraints boundary := rfl

@[simp] theorem proposal_state :
    (request.proposal digests boundary destination action payload safeProjection).state =
      .pendingApproval := rfl

@[simp] theorem constraints_boundaryId :
    (request.constraints boundary).boundaryId = boundary.boundaryId := rfl

@[simp] theorem constraints_parameters :
    (request.constraints boundary).parameters = boundary.constraints := rfl

end Fields

end IntelligenceRequest

end DigitalColleagues
