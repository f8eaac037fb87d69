import DigitalColleagues.Core.Effects

/-!
# Exact-effect approval policies

The fail-closed checks of a proposal against its mandate and of a human decision
against its proposal.
-/

namespace DigitalColleagues

/-- Only durable human principals with an accepted role are authoritative. -/
def requireAuthoritativeHumanRole (principal : Principal) (acceptedRoles : List HumanRole) :
    Outcome Unit := do
  require (principal.kind = .human)
    (.authorization "operation requires a durable human principal")
  require (∃ r ∈ acceptedRoles, r ∈ principal.roles)
    (.authorization "human principal lacks an authoritative accepted role")

/-- `_typed_constraint_values`: the one recognized key is `network`, a boolean. -/
def typedConstraintValues (values : FrozenJsonObject) : Outcome (List (String × Bool)) := do
  require (values.entries ≠ []) (.authorization "effect constraints must be explicit")
  values.entries.mapM fun e => do
    require (e.1 = "network") (.authorization "effect constraint is not recognized")
    match e.2 with
    | .bool b => .ok (e.1, b)
    | _ => .error (.authorization "effect constraint has the wrong value type")

def authorizeConstraintParameters (proposal authoritative : FrozenJsonObject) :
    Outcome Unit := do
  let proposed ← typedConstraintValues proposal
  let required ← typedConstraintValues authoritative
  require (proposed.map Prod.fst = required.map Prod.fst)
    (.authorization "effect constraint keys do not match the boundary")
  require (proposed = required) (.authorization "effect constraints conflict with the boundary")

/-- A fully specified effect against one exact authoritative mandate revision. -/
def authorizeEffectProposal (proposal : EffectProposal) (mandate : Mandate)
    (expectedMandateRevision : ℕ) : Outcome Unit := do
  require (mandate.revision = expectedMandateRevision)
    (.revisionMismatch "Mandate revision is stale")
  match mandate.effectBoundaries.filter
      fun b => decide (b.boundaryId = proposal.constraints.boundaryId) with
  | [boundary] => do
    require (proposal.effectKind = boundary.effectKind)
      (.authorization "effect kind is outside the authoritative boundary")
    require (proposal.destination.kind.val ∈ boundary.allowedDestinationKinds)
      (.authorization "effect destination is outside the authoritative boundary")
    require (proposal.action.val ∈ boundary.allowedActions)
      (.authorization "effect action is outside the authoritative boundary")
    authorizeConstraintParameters proposal.constraints.parameters boundary.constraints
    require (proposal.state = if boundary.humanApprovalRequired then .pendingApproval else .approved)
      (.authorization "effect state does not satisfy the human approval policy")
  | _ => .error (.authorization "effect does not name one authoritative boundary")

/-- One human decision against one immutable effect revision. -/
def authorizeHumanApproval (proposal : EffectProposal) (decision : HumanApprovalDecision)
    (evaluatedAt : Instant) : Outcome Unit := do
  requireAuthoritativeHumanRole decision.author [.tenantAdmin, .colleagueUser]
  require (proposal.state = .pendingApproval)
    (.authorization "proposal is not awaiting approval")
  require (decision.choice = .approve)
    (.authorization "a rejected proposal cannot be authorized")
  require (decision.proposalId = proposal.proposalId)
    (.coreInvariant "approval references the wrong proposal")
  require (decision.proposalRevision = proposal.revision)
    (.revisionMismatch "approval references a stale proposal revision")
  require (decision.proposalPayloadDigest = proposal.payloadDigest)
    (.revisionMismatch "approval payload binding does not match the proposal")
  require (decision.proposalDigest = proposal.proposalDigest)
    (.revisionMismatch "approval binding does not match the complete proposal")
  require (decision.correlationId = proposal.correlationId)
    (.coreInvariant "approval correlation does not match the proposal")
  require (proposal.occurredAt ≤ decision.occurredAt)
    (.coreInvariant "approval cannot precede its proposal")
  require (decision.occurredAt ≤ evaluatedAt)
    (.authorization "future-dated approval is not authoritative")
  require (decision.validUntil ≤ proposal.constraints.validUntil)
    (.authorization "approval cannot extend proposal validity")
  require (evaluatedAt ≤ proposal.constraints.validUntil ∧ evaluatedAt ≤ decision.validUntil)
    (.authorization "approval or proposal validity has expired")

-- ════════════════════════════════════════════════════════════════════════
-- What an authorized approval says
-- ════════════════════════════════════════════════════════════════════════

/-- The effect lies inside the boundary that its constraints name. -/
structure EffectBoundary.Contains (boundary : EffectBoundary) (proposal : EffectProposal) :
    Prop where
  boundaryId : boundary.boundaryId = proposal.constraints.boundaryId
  effectKind : proposal.effectKind = boundary.effectKind
  destination : proposal.destination.kind.val ∈ boundary.allowedDestinationKinds
  action : proposal.action.val ∈ boundary.allowedActions
  parameters : proposal.constraints.parameters = boundary.constraints

/-- The decision cites this exact proposal revision and both of its digests. -/
structure HumanApprovalDecision.Cites (decision : HumanApprovalDecision)
    (proposal : EffectProposal) : Prop where
  proposalId : decision.proposalId = proposal.proposalId
  proposalRevision : decision.proposalRevision = proposal.revision
  proposalPayloadDigest : decision.proposalPayloadDigest = proposal.payloadDigest
  proposalDigest : decision.proposalDigest = proposal.proposalDigest

/-- The decision cites the proposal, by a human with an accepted role, no earlier
    than the proposal and no later than its validity. -/
structure EffectProposal.AnsweredBy (proposal : EffectProposal)
    (decision : HumanApprovalDecision) : Prop extends decision.Cites proposal where
  human : decision.author.kind = .human
  role : .tenantAdmin ∈ decision.author.roles ∨ .colleagueUser ∈ decision.author.roles
  correlationId : decision.correlationId = proposal.correlationId
  not_before : proposal.occurredAt ≤ decision.occurredAt
  not_after : decision.occurredAt ≤ proposal.constraints.validUntil

/-- Recognized values determine the object they were read from. -/
theorem typedConstraintValues_entries {o : FrozenJsonObject} {values : List (String × Bool)}
    (h : typedConstraintValues o = .ok values) :
    o.entries = values.map fun v => (v.1, Json.bool v.2) := by
  simp only [typedConstraintValues, bind_eq_ok, require_eq_ok, exists_const] at h
  obtain ⟨_, h⟩ := h
  generalize o.entries = entries at h
  induction entries generalizing values with
  | nil =>
    obtain rfl := pure_eq_ok.mp h
    rfl
  | cons e entries ih =>
    simp only [List.mapM_cons, bind_eq_ok, require_eq_ok, exists_const, pure_eq_ok] at h
    obtain ⟨v, ⟨_, hv⟩, vs, hvs, rfl⟩ := h
    split at hv
    · rename_i b hb
      obtain rfl := Except.ok.inj hv
      rw [List.map_cons, ← ih hvs, ← hb]
    · exact absurd hv (by simp)

theorem authorizeConstraintParameters_eq_ok {proposal authoritative : FrozenJsonObject}
    (h : authorizeConstraintParameters proposal authoritative = .ok ()) :
    proposal = authoritative := by
  simp only [authorizeConstraintParameters, bind_eq_ok, require_eq_ok, exists_const] at h
  obtain ⟨proposed, hproposed, required, hrequired, _, rfl⟩ := h
  have hentries : proposal.entries = authoritative.entries :=
    (typedConstraintValues_entries hproposed).trans (typedConstraintValues_entries hrequired).symm
  cases proposal
  cases authoritative
  obtain rfl := hentries
  rfl

/-- An authorized effect lies inside exactly one boundary of the mandate. -/
theorem authorizeEffectProposal_eq_ok {proposal : EffectProposal} {mandate : Mandate} {n : ℕ}
    (h : authorizeEffectProposal proposal mandate n = .ok ()) :
    ∃! boundary, boundary ∈ mandate.effectBoundaries ∧ boundary.Contains proposal := by
  simp only [authorizeEffectProposal, bind_eq_ok, require_eq_ok, exists_const] at h
  obtain ⟨_, h⟩ := h
  split at h
  · rename_i boundary hboundary
    simp only [bind_eq_ok, require_eq_ok, exists_const] at h
    obtain ⟨hkind, hdestination, haction, _, hparameters, _⟩ := h
    have hmem : boundary ∈ mandate.effectBoundaries ∧
        boundary.boundaryId = proposal.constraints.boundaryId := by
      have hself : boundary ∈ [boundary] := List.mem_singleton_self boundary
      rw [← hboundary, List.mem_filter] at hself
      exact ⟨hself.1, of_decide_eq_true hself.2⟩
    refine ⟨boundary, ⟨hmem.1, hmem.2, hkind, hdestination, haction,
      authorizeConstraintParameters_eq_ok hparameters⟩, fun other hother => ?_⟩
    have hfilter : other ∈ mandate.effectBoundaries.filter
        fun b => decide (b.boundaryId = proposal.constraints.boundaryId) :=
      List.mem_filter.mpr ⟨hother.1, decide_eq_true hother.2.boundaryId⟩
    rw [hboundary] at hfilter
    exact List.mem_singleton.mp hfilter
  · exact absurd h (by simp)

theorem authorizeHumanApproval_eq_ok {proposal : EffectProposal}
    {decision : HumanApprovalDecision} {evaluatedAt : Instant}
    (h : authorizeHumanApproval proposal decision evaluatedAt = .ok ()) :
    proposal.AnsweredBy decision := by
  simp only [authorizeHumanApproval, requireAuthoritativeHumanRole, bind_eq_ok, require_eq_ok,
    exists_const] at h
  obtain ⟨⟨hhuman, role, hrole, hroles⟩, _, _, hid, hrevision, hpayload, hdigest, hcorrelation,
    hbefore, hpast, _, hvalid, _⟩ := h
  refine ⟨⟨hid, hrevision, hpayload, hdigest⟩, hhuman, ?_, hcorrelation, hbefore,
    hpast.trans hvalid⟩
  simp only [List.mem_cons, List.not_mem_nil, or_false] at hrole
  rcases hrole with rfl | rfl
  · exact .inl hroles
  · exact .inr hroles

end DigitalColleagues
