import DigitalColleagues.Intelligence.Failures

/-!
# Model output and authority

The identity of a returned decision is a function of the request, of the outcome
and of the selected boundary. The authority filter looks at the keys as they
arrive, the stored objects have the stripped keys.

## Main definitions

- `DecisionIdentity` — every identity and authority field of a decision
- `IntelligenceRequest.identity` — that function
- `StripsToNoAuthority` — the responses whose stored keys the filter covers
-/

namespace DigitalColleagues

-- ════════════════════════════════════════════════════════════════════════
-- Identity
-- ════════════════════════════════════════════════════════════════════════

/-- The fields of a proposal that a model must not choose, and its boundary's kind. -/
structure ProposalIdentity where
  proposalId : StableId
  decisionId : StableId
  effectKind : EffectKind
  constraints : EffectConstraints
  state : EffectProposalState
  actor : Principal
  correlationId : StableId
  occurredAt : Instant
  revision : ℕ
  mandate : Option MandateBinding
  policy : Option PolicyBinding

/-- The fields of a decision that a model must not choose. -/
structure DecisionIdentity where
  requestId : StableId
  decisionId : StableId
  wakeCycleId : StableId
  agendaItemId : StableId
  kind : DecisionKind
  proposedEffectId : Option StableId
  actor : Principal
  correlationId : StableId
  occurredAt : Instant
  revision : ℕ
  policy : Option PolicyBinding
  proposal : Option ProposalIdentity

def EffectProposal.identity (proposal : EffectProposal) : ProposalIdentity where
  proposalId := proposal.proposalId
  decisionId := proposal.decisionId
  effectKind := proposal.effectKind
  constraints := proposal.constraints
  state := proposal.state
  actor := proposal.actor
  correlationId := proposal.correlationId
  occurredAt := proposal.occurredAt
  revision := proposal.revision
  mandate := proposal.mandate
  policy := proposal.policy

def ReturnedDecision.identity (d : ReturnedDecision) : DecisionIdentity where
  requestId := d.requestId
  decisionId := d.decisionId
  wakeCycleId := d.wakeCycleId
  agendaItemId := d.agendaItemId
  kind := d.kind
  proposedEffectId := d.proposedEffectId
  actor := d.actor
  correlationId := d.correlationId
  occurredAt := d.occurredAt
  revision := d.revision
  policy := d.policy
  proposal := d.proposal.map EffectProposal.identity

/-- The boundary that a decision names. -/
def ReturnedDecision.boundaryId (d : ReturnedDecision) : Option StableId :=
  d.proposal.map fun proposal => proposal.constraints.boundaryId

namespace IntelligenceRequest

variable (request : IntelligenceRequest)

/-- The identity of a proposal inside `boundary`. -/
def proposalIdentity (boundary : EffectBoundary) : ProposalIdentity where
  proposalId := request.proposalId
  decisionId := request.decisionId
  effectKind := boundary.effectKind
  constraints := request.constraints boundary
  state := .pendingApproval
  actor := request.modelPrincipal
  correlationId := request.agendaItem.correlationId
  occurredAt := request.occurredAt
  revision := 1
  mandate := some ⟨request.mandate.mandateId, request.mandate.revision⟩
  policy := request.policy

/-- The identity of a decision with this outcome that selected `boundary`. -/
def identity (outcome : SemanticOutcome) (boundary : Option EffectBoundary) :
    DecisionIdentity where
  requestId := request.requestId
  decisionId := request.decisionId
  wakeCycleId := request.wakeCycle.wakeCycleId
  agendaItemId := request.agendaItem.agendaItemId
  kind := if outcome = .proposal then .proposeEffect else HttpJsonIntelligence.decisionKind outcome
  proposedEffectId := if outcome = .proposal then some request.proposalId else none
  actor := request.modelPrincipal
  correlationId := request.agendaItem.correlationId
  occurredAt := request.occurredAt
  revision := 1
  policy := request.policy
  proposal := boundary.map request.proposalIdentity

end IntelligenceRequest

-- ════════════════════════════════════════════════════════════════════════
-- What a returned decision says
-- ════════════════════════════════════════════════════════════════════════

/-- A key that is an authority field as it arrives is one as text. -/
theorem isAuthorityKey_ofString (key : String) :
    isAuthorityKey (.ofString key) = isAuthorityField key := by
  rw [Bool.eq_iff_iff]
  simp only [isAuthorityKey, isAuthorityField, List.contains_iff_mem]
  exact List.mem_map_of_injective PyString.ofString_injective

/-- The boundary allows the kind, the destination and the action of the proposal. -/
structure EffectBoundary.Covers (boundary : EffectBoundary) (proposal : EffectProposal) :
    Prop where
  effectKind : boundary.effectKind = proposal.effectKind
  destination : proposal.destination.kind.val ∈ boundary.allowedDestinationKinds
  action : proposal.action.val ∈ boundary.allowedActions

theorem EffectBoundary.allows_iff_covers {boundary : EffectBoundary} {proposal : EffectProposal} :
    boundary.Allows proposal.effectKind (.ofString proposal.destination.kind.val)
      (.ofString proposal.action.val) ↔ boundary.Covers proposal := by
  simp only [EffectBoundary.Allows, List.mem_map_of_injective PyString.ofString_injective]
  exact ⟨fun h => ⟨h.1, h.2.1, h.2.2⟩, fun h => ⟨h.effectKind, h.destination, h.action⟩⟩

/-- No key at any depth of the payload or the safe projection is an authority field. -/
def EffectProposal.NoAuthorityKey (proposal : EffectProposal) : Prop :=
  proposal.payload.anyKey isAuthorityField = false ∧
    proposal.safeProjection.anyKey isAuthorityField = false

/-- No key at any depth strips to an authority field. -/
def RawProposal.StripsToNoAuthority (raw : RawProposal) : Prop :=
  WireJson.anyKeyEntries (fun k => isAuthorityKey (PyString.strip k)) raw.payload = false ∧
    WireJson.anyKeyEntries (fun k => isAuthorityKey (PyString.strip k)) raw.safeProjection = false

/-- No stored key of a proposal that the response makes is an authority field. -/
def StripsToNoAuthority (request : IntelligenceRequest)
    (response : Except AdapterFailure HttpJsonResponse) : Prop :=
  ∀ r, response = .ok r → ∀ raw boundary, Proposes request r raw boundary →
    raw.StripsToNoAuthority

namespace HttpJsonIntelligence

variable {digests : ProposalDigests} {retries : ℕ} {request : IntelligenceRequest}
  {transport : ℕ → Except AdapterFailure HttpJsonResponse} {d : ReturnedDecision}

theorem decide_eq_ok : decide digests retries request transport = .ok d ↔
    ∃ reply, read retries request transport = .ok reply ∧
      answer digests request reply = .ok d := by
  unfold decide
  split
  · rename_i reply hread
    simp [hread]
  · rename_i failure hread
    simp [hread]

/-- A returned proposal is one that the response proposes, built on the request. -/
theorem exists_proposes {proposal : EffectProposal}
    (h : decide digests retries request transport = .ok d) (hproposal : d.proposal = some proposal) :
    ∃ (response : HttpJsonResponse) (raw : RawProposal) (boundary : EffectBoundary)
      (payload safeProjection : List (PyString × WireJson)),
      submit transport retries 0 = .ok response ∧ Proposes request response raw boundary ∧
      WireJson.fromMapping raw.payload = .ok payload ∧
      WireJson.fromMapping raw.safeProjection = .ok safeProjection ∧
      (raw.parts boundary payload safeProjection).build digests request = .ok proposal ∧
      d = request.withProposal (PyString.strip raw.rationale) proposal := by
  obtain ⟨reply, hread, hanswer⟩ := decide_eq_ok.mp h
  cases reply with
  | other outcome rationale hother =>
    obtain rfl := Except.ok.inj hanswer
    exact absurd hproposal (by simp [IntelligenceRequest.withoutProposal])
  | proposal parts =>
    simp only [answer, exceptBind_eq_ok, exceptPure_eq_ok] at hanswer
    obtain ⟨built, hbuild, rfl⟩ := hanswer
    obtain rfl := Option.some.inj hproposal
    obtain ⟨response, raw, boundary, payload, safeProjection, hresponse, hproposes, hpayload,
      hprojection, rfl⟩ := read_eq_proposal.mp hread
    exact ⟨response, raw, boundary, payload, safeProjection, hresponse, hproposes, hpayload,
      hprojection, hbuild, rfl⟩

/-- The identity of a returned decision comes from the request, the outcome and the
    boundary. -/
theorem identity_eq (h : decide digests retries request transport = .ok d) :
    ∃ boundary : Option EffectBoundary,
      (∀ b ∈ boundary, b ∈ request.mandate.effectBoundaries) ∧
      d.boundaryId = boundary.map EffectBoundary.boundaryId ∧
      d.identity = request.identity d.outcome boundary := by
  cases hproposal : d.proposal with
  | none =>
    obtain ⟨reply, _, hanswer⟩ := decide_eq_ok.mp h
    cases reply with
    | proposal parts =>
      simp only [answer, exceptBind_eq_ok, exceptPure_eq_ok] at hanswer
      obtain ⟨built, _, rfl⟩ := hanswer
      exact absurd hproposal (by simp [IntelligenceRequest.withProposal])
    | other outcome rationale hother =>
      obtain rfl := Except.ok.inj hanswer
      refine ⟨none, by simp, rfl, ?_⟩
      simp [ReturnedDecision.identity, IntelligenceRequest.identity,
        IntelligenceRequest.withoutProposal, hother]
  | some proposal =>
    obtain ⟨response, raw, boundary, payload, safeProjection, _, hproposes, _, _, hbuild, rfl⟩ :=
      exists_proposes h hproposal
    obtain ⟨kind, action, target, object, projection, _, _, _, _, _, _, _, _, rfl⟩ :=
      build_eq_ok.mp hbuild
    refine ⟨some boundary, ?_, rfl, ?_⟩
    · intro b hb
      obtain rfl := Option.some.inj hb
      exact (selected_allows hproposes.selects.unique).1
    · simp [ReturnedDecision.identity, IntelligenceRequest.identity,
        IntelligenceRequest.withProposal]
      rfl

/-- A returned proposal lies in exactly one boundary, which needs human approval. -/
theorem exists_unique_covers {proposal : EffectProposal}
    (h : decide digests retries request transport = .ok d) (hproposal : d.proposal = some proposal) :
    ∃ boundary ∈ request.mandate.effectBoundaries, boundary.Covers proposal ∧
      boundary.humanApprovalRequired = true ∧
      ∀ other ∈ request.mandate.effectBoundaries, other.Covers proposal → other = boundary := by
  obtain ⟨response, raw, boundary, payload, safeProjection, _, hproposes, _, _, hbuild, rfl⟩ :=
    exists_proposes h hproposal
  obtain ⟨kind, action, target, object, projection, hkind, _, haction, _, _, _, _, _, rfl⟩ :=
    build_eq_ok.mp hbuild
  have hunique := hproposes.selects.unique
  have hkind' : PyString.ofString kind.val = PyString.strip raw.destinationKind := hkind
  have haction' : PyString.ofString action.val = PyString.strip raw.action := haction
  rw [← hkind', ← haction'] at hunique
  obtain ⟨hmem, hallows⟩ := selected_allows hunique
  refine ⟨boundary, hmem, EffectBoundary.allows_iff_covers.mp hallows, hproposes.selects.approval,
    fun other hother hcovers => ?_⟩
  have hfilter : other ∈ request.mandate.effectBoundaries.filter (fun b =>
      Decidable.decide (b.Allows boundary.effectKind (.ofString kind.val) (.ofString action.val))) :=
    List.mem_filter.mpr
      ⟨hother, decide_eq_true (EffectBoundary.allows_iff_covers.mpr hcovers)⟩
  rw [hunique] at hfilter
  exact List.mem_singleton.mp hfilter

/-- The stored keys are the stripped keys. -/
theorem noAuthorityKey_iff {raw : RawProposal} {boundary : EffectBoundary}
    {payload safeProjection : List (PyString × WireJson)} {proposal : EffectProposal}
    (hpayload : WireJson.fromMapping raw.payload = .ok payload)
    (hprojection : WireJson.fromMapping raw.safeProjection = .ok safeProjection)
    (hbuild : (raw.parts boundary payload safeProjection).build digests request = .ok proposal) :
    proposal.NoAuthorityKey ↔ raw.StripsToNoAuthority := by
  obtain ⟨kind, action, target, object, projection, _, _, _, _, _, hobject, _, hprojectionObject,
    rfl⟩ := build_eq_ok.mp hbuild
  rw [RawProposal.StripsToNoAuthority,
    ← WireJson.anyKey_encodeObject isAuthorityKey_ofString hpayload hobject,
    ← WireJson.anyKey_encodeObject isAuthorityKey_ofString hprojection hprojectionObject]
  rfl

/-- The stored objects of an accepted response carry no authority field exactly when
    no key of it strips to one. -/
theorem stored_noAuthorityKey_iff (h : decide digests retries request transport = .ok d) :
    (∀ proposal, d.proposal = some proposal → proposal.NoAuthorityKey) ↔
      StripsToNoAuthority request (submit transport retries 0) := by
  constructor
  · intro hstored r hresponse raw boundary hproposes
    obtain ⟨payload, hpayload⟩ := hproposes.wellFormed.payload
    obtain ⟨safeProjection, hprojection⟩ := hproposes.wellFormed.safeProjection
    have hread := read_eq_proposal.mpr ⟨r, raw, boundary, payload, safeProjection, hresponse,
      hproposes, hpayload, hprojection, rfl⟩
    obtain ⟨reply, hreply, hanswer⟩ := decide_eq_ok.mp h
    obtain rfl := Except.ok.inj (hread.symm.trans hreply)
    simp only [answer, exceptBind_eq_ok, exceptPure_eq_ok] at hanswer
    obtain ⟨proposal, hbuild, rfl⟩ := hanswer
    exact (noAuthorityKey_iff hpayload hprojection hbuild).mp (hstored proposal rfl)
  · intro hstrips proposal hproposal
    obtain ⟨response, raw, boundary, payload, safeProjection, hresponse, hproposes, hpayload,
      hprojection, hbuild, _⟩ := exists_proposes h hproposal
    exact (noAuthorityKey_iff hpayload hprojection hbuild).mpr
      (hstrips response hresponse raw boundary hproposes)

end HttpJsonIntelligence

/-- A mandate has one boundary with an identifier. -/
theorem Mandate.boundary_unique {mandate : Mandate} {a b : EffectBoundary}
    (ha : a ∈ mandate.effectBoundaries) (hb : b ∈ mandate.effectBoundaries)
    (h : a.boundaryId = b.boundaryId) : a = b := by
  have hfilter : a ∈ mandate.effectBoundaries.filter
      (fun c => decide (c.boundaryId = b.boundaryId)) :=
    List.mem_filter.mpr ⟨ha, decide_eq_true h⟩
  rw [mandate.filter_boundaryId hb] at hfilter
  exact List.mem_singleton.mp hfilter

/-- Two accepted responses with the same outcome and the same boundary give the same
    identity, which is the one of the request; a proposal lies in exactly one boundary,
    which needs human approval; and its stored objects carry no authority field exactly
    when no key of the response strips to one. -/
theorem model_output_carries_no_authority (digests : ProposalDigests) (retries : ℕ)
    (request : IntelligenceRequest)
    (transport₁ transport₂ : ℕ → Except AdapterFailure HttpJsonResponse)
    (d₁ d₂ : ReturnedDecision)
    (h₁ : HttpJsonIntelligence.decide digests retries request transport₁ = .ok d₁)
    (h₂ : HttpJsonIntelligence.decide digests retries request transport₂ = .ok d₂) :
    (d₁.outcome = d₂.outcome → d₁.boundaryId = d₂.boundaryId → d₁.identity = d₂.identity) ∧
    (∃ boundary : Option EffectBoundary,
      (∀ b ∈ boundary, b ∈ request.mandate.effectBoundaries) ∧
      d₁.boundaryId = boundary.map EffectBoundary.boundaryId ∧
      d₁.identity = request.identity d₁.outcome boundary) ∧
    (∀ proposal, d₁.proposal = some proposal →
      ∃ boundary ∈ request.mandate.effectBoundaries, boundary.Covers proposal ∧
        boundary.humanApprovalRequired = true ∧
        ∀ other ∈ request.mandate.effectBoundaries, other.Covers proposal → other = boundary) ∧
    ((∀ proposal, d₁.proposal = some proposal → proposal.NoAuthorityKey) ↔
      StripsToNoAuthority request (submit transport₁ retries 0)) := by
  refine ⟨fun houtcome hboundary => ?_, HttpJsonIntelligence.identity_eq h₁,
    fun proposal hproposal => HttpJsonIntelligence.exists_unique_covers h₁ hproposal,
    HttpJsonIntelligence.stored_noAuthorityKey_iff h₁⟩
  obtain ⟨b₁, hmem₁, hid₁, hidentity₁⟩ := HttpJsonIntelligence.identity_eq h₁
  obtain ⟨b₂, hmem₂, hid₂, hidentity₂⟩ := HttpJsonIntelligence.identity_eq h₂
  have hsame : b₁.map EffectBoundary.boundaryId = b₂.map EffectBoundary.boundaryId :=
    hid₁.symm.trans (hboundary.trans hid₂)
  have hboundaries : b₁ = b₂ := by
    cases b₁ with
    | none => exact (Option.map_eq_none_iff.mp hsame.symm).symm
    | some a =>
      cases b₂ with
      | none => exact absurd hsame (by simp)
      | some b =>
        exact congrArg some (Mandate.boundary_unique (hmem₁ a rfl) (hmem₂ b rfl)
          (Option.some.inj hsame))
  rw [hidentity₁, hidentity₂, houtcome, hboundaries]

/-- Whether the adapter returned a proposal with an authority field in its payload. -/
def returnsAuthorityKey (x : Except Raised ReturnedDecision) : Bool :=
  match x with
  | .ok d => d.proposal.any fun proposal => proposal.payload.anyKey isAuthorityField
  | .error _ => false

/-- The outcome and the boundary of what the adapter returned. -/
def selection? (x : Except Raised ReturnedDecision) :
    Option (SemanticOutcome × Option StableId) :=
  match x with
  | .ok d => some (d.outcome, d.boundaryId)
  | .error _ => none

theorem selection?_eq_some {x : Except Raised ReturnedDecision}
    {selected : SemanticOutcome × Option StableId} (h : selection? x = some selected) :
    ∃ d, x = .ok d ∧ d.outcome = selected.1 ∧ d.boundaryId = selected.2 := by
  cases x with
  | error raised => exact absurd h (by simp [selection?])
  | ok d =>
    obtain rfl := Option.some.inj h
    exact ⟨d, rfl, rfl, rfl⟩

set_option maxRecDepth 8000 in
/-- Two responses inside the one boundary of the sample mandate have one identity. -/
theorem model_output_carries_no_authority_sample : ∃ d₁ d₂,
    HttpJsonIntelligence.decide sampleDigests 0 (requestFor sampleMandate)
      (fun _ => .ok (sampleResponse (.ofString "inbox") [wireField "body" .null])) = .ok d₁ ∧
    HttpJsonIntelligence.decide sampleDigests 0 (requestFor sampleMandate)
      (fun _ => .ok (sampleResponse (.ofString "archive") [wireField "title" .null])) = .ok d₂ ∧
    d₁.identity = d₂.identity := by
  have hselection : ∀ response ∈ [sampleResponse (.ofString "inbox") [wireField "body" .null],
      sampleResponse (.ofString "archive") [wireField "title" .null]],
      selection? (HttpJsonIntelligence.decide sampleDigests 0 (requestFor sampleMandate)
        fun _ => .ok response) = some (.proposal, some (stableId "boundary-1")) := by
    simp only [List.forall_mem_cons]
    refine ⟨?_, ?_, by simp⟩ <;> decide +kernel
  obtain ⟨d₁, h₁, houtcome₁, hboundary₁⟩ := selection?_eq_some (hselection _ List.mem_cons_self)
  obtain ⟨d₂, h₂, houtcome₂, hboundary₂⟩ := selection?_eq_some (hselection _
    (List.mem_cons_of_mem _ (List.mem_singleton_self _)))
  exact ⟨d₁, d₂, h₁, h₂, (model_output_carries_no_authority sampleDigests 0
    (requestFor sampleMandate) _ _ d₁ d₂ h₁ h₂).1 (houtcome₁.trans houtcome₂.symm)
      (hboundary₁.trans hboundary₂.symm)⟩

set_option maxRecDepth 8000 in
/-- A payload with the key `" role"` passes the filter and is stored with the key `role`. -/
theorem authority_key_stored : returnsAuthorityKey (HttpJsonIntelligence.decide sampleDigests 0
    (requestFor sampleMandate)
    fun _ => .ok (sampleResponse (.ofString "inbox") [wireField " role" (wireText "admin")])) =
      true := by
  decide +kernel

end DigitalColleagues
