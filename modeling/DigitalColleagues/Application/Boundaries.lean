import DigitalColleagues.Application.DraftService
import DigitalColleagues.Core.Intelligence

/-!
# Effect boundaries and their use

The two services besides the builder that write the mandate of a colleague, and
whether the effect boundaries they grant can be used: whether some proposal that
an intelligence adapter builds inside the boundary is authorized.

## Main definitions

- `InitialColleagueRequest.mandate`, `DeploymentCreationRequest.mandate` — the
  mandates that `create` and `create_draft` propose
- `EffectBoundary.UsableIn` — some proposal inside the boundary is authorized
- `EffectBoundary.Recognized` — the vocabulary that the policy knows
-/

namespace DigitalColleagues

/-- An object with one key. -/
def FrozenJsonObject.singleton (key : String) (value : Json) : FrozenJsonObject where
  entries := [(key, value)]
  sorted := by simp

section Unique

variable {edit : MandateEdit}
  (h : UniqueRecords ResponsibilityDefinition.responsibilityId edit.responsibilities ∧
    UniqueRecords CapabilityGrant.capabilityId edit.capabilities ∧
    UniqueRecords Constraint.constraintId edit.constraints ∧
    UniqueRecords EffectBoundary.boundaryId edit.effectBoundaries)

include h

theorem responsibilities_of_uniqueRecords :
    UniqueRecords ResponsibilityDefinition.responsibilityId edit.responsibilities := h.1

theorem capabilities_of_uniqueRecords :
    UniqueRecords CapabilityGrant.capabilityId edit.capabilities := h.2.1

theorem constraints_of_uniqueRecords :
    UniqueRecords Constraint.constraintId edit.constraints := h.2.2.1

theorem effectBoundaries_of_uniqueRecords :
    UniqueRecords EffectBoundary.boundaryId edit.effectBoundaries := h.2.2.2

end Unique

/-- The `Mandate` constructor. -/
def Mandate.make (mandateId : StableId) (edit : MandateEdit) (revision : ℕ) (issuedBy : Principal)
    (effectiveAt : Instant) : Outcome Mandate := do
  let mission ← requireText edit.mission "mission" 4096
  let serviceRelationship ← requireText edit.serviceRelationship "service_relationship" 4096
  if h : UniqueRecords ResponsibilityDefinition.responsibilityId edit.responsibilities ∧
      UniqueRecords CapabilityGrant.capabilityId edit.capabilities ∧
      UniqueRecords Constraint.constraintId edit.constraints ∧
      UniqueRecords EffectBoundary.boundaryId edit.effectBoundaries then
    if hissued : issuedBy.kind = .human then
      .ok
        { mandateId := mandateId
          mission := mission
          serviceRelationship := serviceRelationship
          responsibilities := edit.responsibilities
          capabilities := edit.capabilities
          constraints := edit.constraints
          workingContext := edit.workingContext
          effectBoundaries := edit.effectBoundaries
          revision := revision
          issuedBy := issuedBy
          effectiveAt := effectiveAt
          responsibilities_unique := responsibilities_of_uniqueRecords h
          capabilities_unique := capabilities_of_uniqueRecords h
          constraints_unique := constraints_of_uniqueRecords h
          effectBoundaries_unique := effectBoundaries_of_uniqueRecords h
          issued_by_human := hissued }
    else .error (.authorization "an authoritative Mandate must be issued by a human")
  else .error (.coreInvariant "identified collections must be non-empty and unique")

theorem Mandate.make_effectBoundaries {mandateId : StableId} {edit : MandateEdit} {revision : ℕ}
    {issuedBy : Principal} {effectiveAt : Instant} {mandate : Mandate}
    (h : Mandate.make mandateId edit revision issuedBy effectiveAt = .ok mandate) :
    mandate.effectBoundaries = edit.effectBoundaries := by
  simp only [Mandate.make, bind_eq_ok] at h
  obtain ⟨mission, _, serviceRelationship, _, h⟩ := h
  split at h
  · split at h
    · obtain rfl := Except.ok.inj h
      rfl
    · exact absurd h (by simp)
  · exact absurd h (by simp)

-- ════════════════════════════════════════════════════════════════════════
-- The initial colleague
-- ════════════════════════════════════════════════════════════════════════

/-- An accepted request; `effect_kind` names a kind of effect. -/
structure InitialColleagueRequest where
  displayName : String
  roleDescription : String
  serviceRelationship : String
  mission : String
  timezone : String
  workingContext : String
  workingHours : String
  workingStyle : String
  responsibilities : List String
  capabilities : List String
  constraints : List String
  effectKind : EffectKind
  destinationKind : StableId
  action : StableId
  effectConstraints : FrozenJsonObject
  idempotencyKey : StableId

namespace InitialColleagueRequest

variable (derive : String → List String → StableId) (request : InitialColleagueRequest)

/-- The one boundary of the initial mandate. -/
def boundary (colleagueId : StableId) : EffectBoundary where
  boundaryId := derive "boundary" [colleagueId.val, "initial"]
  effectKind := request.effectKind
  allowedDestinationKinds := [request.destinationKind.val]
  allowedActions := [request.action.val]
  constraints := request.effectConstraints
  humanApprovalRequired := true

def workingContextObject : FrozenJsonObject where
  entries :=
    [("initial_context", .str request.workingContext),
      ("initial_working_hours", .str request.workingHours),
      ("policy_enforcement", .str "not_implemented_p5"),
      ("timezone", .str request.timezone)]
  sorted := show List.Pairwise (· < ·)
    ["initial_context", "initial_working_hours", "policy_enforcement", "timezone"] by decide

/-- The mandate that `create` stores with the new colleague. -/
def mandate (author : Principal) (now : Instant) : Outcome Mandate := do
  let colleagueId := derive "colleague" [author.principalId.val, request.idempotencyKey.val]
  let responsibilities ← (request.responsibilities.zipIdx 1).mapM fun item => do
    let description ← requireText item.1 "description" 4096
    pure
      { responsibilityId := derive "responsibility" [colleagueId.val, toString item.2]
        description := description
        obligations := ["Advance the explicitly assigned finite work."]
        completionConditions := ["A typed reference ActionResult is recorded."] }
  let capabilities ← (request.capabilities.zipIdx 1).mapM fun item => do
    let description ← requireText item.1 "description" 4096
    pure ⟨derive "capability" [colleagueId.val, toString item.2], description⟩
  let constraints ← (request.constraints.zipIdx 1).mapM fun item => do
    let description ← requireText item.1 "description" 4096
    pure ⟨derive "constraint" [colleagueId.val, toString item.2], description⟩
  Mandate.make (derive "mandate" [colleagueId.val])
    { mission := request.mission
      serviceRelationship := request.serviceRelationship
      responsibilities := responsibilities
      capabilities := capabilities
      constraints := constraints
      workingContext := request.workingContextObject
      effectBoundaries := [request.boundary derive colleagueId] }
    1 author now

end InitialColleagueRequest

-- ════════════════════════════════════════════════════════════════════════
-- Deployments
-- ════════════════════════════════════════════════════════════════════════

/-- `ALLOWED_CAPABILITIES`. -/
def allowedCapabilities : List String :=
  ["read_work", "manage_work", "propose_reference_message", "propose_internal_record",
    "notify_human", "read_audit"]

/-- `effect_map`. -/
def effectMap (capability : String) : Option EffectKind :=
  if capability = "propose_reference_message" then some .referenceMessage
  else if capability = "propose_internal_record" then some .internalRecord
  else if capability = "notify_human" then some .notification
  else none

/-- An accepted request: no capability is granted twice. -/
structure DeploymentCreationRequest where
  deploymentId : StableId
  packageId : StableId
  packageVersion : String
  packageDigest : Digest
  displayName : String
  description : String
  mission : String
  serviceRelationship : String
  grantedCapabilities : List String
  timezone : String
  idempotencyKey : StableId
  grants_nodup : grantedCapabilities.Nodup := by decide

namespace DeploymentCreationRequest

variable (derive : String → List String → StableId) (request : DeploymentCreationRequest)

/-- The boundary of a package for one kind of effect. -/
def boundary (kind : EffectKind) : EffectBoundary where
  boundaryId := ⟨"package-" ++ kind.value, by cases kind <;> decide⟩
  effectKind := kind
  allowedDestinationKinds := ["reference"]
  allowedActions := ["propose"]
  constraints := .singleton "package_digest" (.str request.packageDigest.text)
  humanApprovalRequired := true

def workingContextObject : FrozenJsonObject where
  entries := [("package_digest", .str request.packageDigest.text), ("runtime_api", .str "1")]
  sorted := show List.Pairwise (· < ·) ["package_digest", "runtime_api"] by decide

/-- The mandate that `create_draft` proposes, for a trusted and installed package
    with the requested digest. -/
def mandate (author : Principal) (now : Instant) : Outcome Mandate := do
  let grants := request.grantedCapabilities
  require (grants ≠ [] ∧ ∀ value ∈ grants, value ∈ allowedCapabilities)
    (.permissionDenied "Admin grants must use the finite capability vocabulary")
  let effectKinds := grants.filterMap effectMap
  require (effectKinds ≠ [])
    (.permissionDenied "a deployment requires an explicit bounded effect boundary")
  let capabilities ← grants.mapM fun value => do
    let capabilityId ← requireStableId value "capability_id"
    pure ⟨capabilityId, "Admin-confirmed " ++ value ++ " grant."⟩
  Mandate.make (derive "mandate" [request.deploymentId.val])
    { mission := request.mission
      serviceRelationship := request.serviceRelationship
      responsibilities :=
        [{ responsibilityId := stableId "package-work"
           description := "Perform finite assigned work within the confirmed mandate."
           obligations := ["Respect exact namespace and policy."]
           completionConditions := ["Finite work reaches a terminal state."] }]
      capabilities := capabilities
      constraints :=
        [⟨stableId "package-boundary",
          "Package requests do not grant authority or bypass approval."⟩]
      workingContext := request.workingContextObject
      effectBoundaries := effectKinds.map request.boundary }
    1 author now

end DeploymentCreationRequest

-- ════════════════════════════════════════════════════════════════════════
-- The recognized vocabulary
-- ════════════════════════════════════════════════════════════════════════

/-- The constraints are one recognized value, and some allowed destination kind
    and some allowed action are stable identifiers. -/
def EffectBoundary.Recognized (boundary : EffectBoundary) : Prop :=
  (∃ network : Bool, boundary.constraints.entries = [("network", .bool network)]) ∧
  (∃ kind ∈ boundary.allowedDestinationKinds, isStableId kind = true) ∧
  ∃ action ∈ boundary.allowedActions, isStableId action = true

/-- Every recognized value is the one of `network`. -/
theorem typedConstraintValues_keys {o : FrozenJsonObject} {values : List (String × Bool)}
    (h : typedConstraintValues o = .ok values) : ∀ v ∈ values, v.1 = "network" := by
  simp only [typedConstraintValues, bind_eq_ok, require_eq_ok, exists_const] at h
  obtain ⟨_, h⟩ := h
  generalize o.entries = entries at h
  induction entries generalizing values with
  | nil =>
    obtain rfl := pure_eq_ok.mp h
    simp
  | cons e entries ih =>
    simp only [List.mapM_cons, bind_eq_ok, require_eq_ok, exists_const, pure_eq_ok] at h
    obtain ⟨v, ⟨hnetwork, hv⟩, vs, hvs, rfl⟩ := h
    split at hv
    · obtain rfl := Except.ok.inj hv
      exact List.forall_mem_cons.mpr ⟨hnetwork, ih hvs⟩
    · exact absurd hv (by simp)

/-- The policy reads exactly the objects whose only key is `network`. -/
theorem typedConstraintValues_eq_ok_iff {o : FrozenJsonObject} :
    (∃ values, typedConstraintValues o = .ok values) ↔
      ∃ network : Bool, o.entries = [("network", .bool network)] := by
  constructor
  · rintro ⟨values, h⟩
    have hentries := typedConstraintValues_entries h
    have hkeys := typedConstraintValues_keys h
    have hne : o.entries ≠ [] := by
      simp only [typedConstraintValues, bind_eq_ok, require_eq_ok, exists_const] at h
      exact h.1
    have hsorted := o.sorted
    rw [hentries, List.map_map] at hsorted
    match values with
    | [] => exact absurd hentries hne
    | [v] => exact ⟨v.2, by rw [hentries, ← hkeys v (by simp)]; rfl⟩
    | v :: w :: rest =>
      have hlt : v.1 < w.1 := (List.pairwise_cons.mp hsorted).1 w.1 (by simp)
      rw [hkeys v (by simp), hkeys w (by simp)] at hlt
      exact absurd hlt (lt_irrefl _)
  · rintro ⟨network, h⟩
    exact ⟨[("network", network)], by simp [typedConstraintValues, h, require, bind, Except.bind,
      pure, Except.pure]⟩

theorem authorizeConstraintParameters_self {o : FrozenJsonObject} :
    authorizeConstraintParameters o o = .ok () ↔
      ∃ network : Bool, o.entries = [("network", .bool network)] := by
  rw [← typedConstraintValues_eq_ok_iff]
  constructor
  · intro h
    simp only [authorizeConstraintParameters, bind_eq_ok] at h
    obtain ⟨values, hvalues, _⟩ := h
    exact ⟨values, hvalues⟩
  · rintro ⟨values, h⟩
    simp [authorizeConstraintParameters, h, require, bind, Except.bind]

/-- A boundary is the only one of its mandate with its identifier. -/
theorem Mandate.filter_boundaryId (mandate : Mandate) {boundary : EffectBoundary}
    (h : boundary ∈ mandate.effectBoundaries) :
    mandate.effectBoundaries.filter
      (fun b => decide (b.boundaryId = boundary.boundaryId)) = [boundary] := by
  have hnodup := mandate.effectBoundaries_unique.2
  generalize mandate.effectBoundaries = boundaries at h hnodup
  induction boundaries with
  | nil => exact absurd h (by simp)
  | cons b boundaries ih =>
    obtain ⟨hfresh, hnodup⟩ := List.nodup_cons.mp hnodup
    by_cases hb : b.boundaryId = boundary.boundaryId
    · have hrest : boundaries.filter (fun c => decide (c.boundaryId = boundary.boundaryId)) = [] := by
        rw [List.filter_eq_nil_iff]
        intro c hc hsame
        exact hfresh (List.mem_map.mpr ⟨c, hc, (of_decide_eq_true hsame).trans hb.symm⟩)
      have hself : boundary = b := by
        cases List.mem_cons.mp h with
        | inl hself => exact hself
        | inr hmem => exact absurd (List.mem_map.mpr ⟨boundary, hmem, hb.symm⟩) hfresh
      rw [List.filter_cons, if_pos (decide_eq_true hb), hrest, hself]
    · have hmem : boundary ∈ boundaries := by
        cases List.mem_cons.mp h with
        | inl hself => exact absurd (congrArg EffectBoundary.boundaryId hself.symm) hb
        | inr hmem => exact hmem
      rw [List.filter_cons, if_neg (by simp [hb])]
      exact ih hmem hnodup

-- ════════════════════════════════════════════════════════════════════════
-- Usable boundaries
-- ════════════════════════════════════════════════════════════════════════

/-- Some request about the mandate has a proposal of the adapters inside the
    boundary, with a destination, an action and two JSON objects that the
    constructors accept, which the policy authorizes. -/
def EffectBoundary.UsableIn (digests : ProposalDigests) (boundary : EffectBoundary)
    (mandate : Mandate) : Prop :=
  ∃ (request : IntelligenceRequest) (destination : EffectDestination) (action : StableId)
    (payload safeProjection : FrozenJsonObject),
    request.mandate = mandate ∧ request.modelPrincipal.kind = .model ∧
    requireText destination.target "destination target" 512 = .ok destination.target ∧
    payload.entries ≠ [] ∧ safeProjection.entries ≠ [] ∧
    destination.kind.val ∈ boundary.allowedDestinationKinds ∧
    action.val ∈ boundary.allowedActions ∧
    authorizeEffectProposal
      (request.proposal digests boundary destination action payload safeProjection) mandate
      mandate.revision = .ok ()

/-- A request about a mandate, with fixed identifiers. -/
def requestFor (mandate : Mandate) : IntelligenceRequest where
  requestId := stableId "request-1"
  wakeCycle :=
    { wakeCycleId := stableId "wake-1"
      state := .running
      triggerEventIds := [stableId "event-1"]
      agendaItemIds := [stableId "agenda-1"]
      actor := ⟨stableId "service-1", .service, [], 1, by decide, by decide⟩
      correlationId := stableId "correlation-1"
      causationId := some (stableId "event-1")
      occurredAt := 0
      revision := 1
      fencingToken := 1
      checkpointGeneration := 0
      triggerTimerOccurrenceIds := []
      policy := none }
  agendaItem :=
    { agendaItemId := stableId "agenda-1"
      wakeCycleId := stableId "wake-1"
      sourceEventId := some (stableId "event-1")
      workId := none
      title := "answer"
      state := .selected
      priority := 500
      dueAt := none
      actor := ⟨stableId "service-1", .service, [], 1, by decide, by decide⟩
      correlationId := stableId "correlation-1"
      causationId := stableId "wake-1"
      occurredAt := 0
      revision := 1
      generation := 1
      handledGeneration := 0
      causeIds := [stableId "event-1"]
      sourceTimerOccurrenceId := none
      policy := none
      valid := by decide }
  mandate := mandate
  modelPrincipal := ⟨stableId "model-1", .model, [], 1, by decide, by decide⟩
  decisionId := stableId "decision-1"
  proposalId := stableId "proposal-1"
  effectIdempotencyKey := stableId "effect-1"
  occurredAt := 1
  proposalValidUntil := 2
  policy := none

variable {digests : ProposalDigests} {mandate : Mandate} {boundary : EffectBoundary}

theorem EffectBoundary.UsableIn.recognized (h : boundary.UsableIn digests mandate) :
    boundary.Recognized := by
  obtain ⟨request, destination, action, payload, safeProjection, rfl, _, _, _, _, hkind, haction,
    hauthorized⟩ := h
  refine ⟨?_, ⟨_, hkind, destination.kind.2⟩, ⟨_, haction, action.2⟩⟩
  simp only [authorizeEffectProposal, bind_eq_ok, require_eq_ok, exists_const] at hauthorized
  obtain ⟨_, hauthorized⟩ := hauthorized
  split at hauthorized
  · rename_i found hfound
    simp only [bind_eq_ok, require_eq_ok, exists_const, IntelligenceRequest.proposal_constraints,
      IntelligenceRequest.constraints_parameters] at hauthorized
    obtain ⟨_, _, _, _, hparameters, _⟩ := hauthorized
    have hsame := authorizeConstraintParameters_eq_ok hparameters
    rw [← hsame] at hparameters
    exact authorizeConstraintParameters_self.mp hparameters
  · exact absurd hauthorized (by simp)

theorem EffectBoundary.Recognized.usableIn (h : boundary.Recognized)
    (hmem : boundary ∈ mandate.effectBoundaries)
    (happroval : boundary.humanApprovalRequired = true) : boundary.UsableIn digests mandate := by
  obtain ⟨hnetwork, ⟨kind, hkind, hkindId⟩, ⟨action, haction, hactionId⟩⟩ := h
  have htarget : requireText "target" "destination target" 512 = .ok "target" := by
    decide +kernel
  refine ⟨requestFor mandate, ⟨⟨kind, hkindId⟩, "target"⟩, ⟨action, hactionId⟩,
    .singleton "body" .null, .singleton "content_class" .null, rfl, rfl, htarget,
    List.cons_ne_nil _ _, List.cons_ne_nil _ _, hkind, haction, ?_⟩
  simp only [authorizeEffectProposal, bind_eq_ok, require_eq_ok, exists_const]
  refine ⟨trivial, ?_⟩
  have hfilter := mandate.filter_boundaryId hmem
  split
  · rename_i found hfound
    obtain rfl : boundary = found := List.singleton_inj.mp (hfilter.symm.trans hfound)
    simp only [bind_eq_ok, require_eq_ok, exists_const, happroval, if_true]
    exact ⟨rfl, hkind, haction, (), authorizeConstraintParameters_self.mpr hnetwork, rfl⟩
  · rename_i hother
    exact absurd hfilter (hother boundary)

/-- A boundary that needs approval is usable exactly when the policy knows its vocabulary. -/
theorem EffectBoundary.usableIn_iff (hmem : boundary ∈ mandate.effectBoundaries)
    (happroval : boundary.humanApprovalRequired = true) :
    boundary.UsableIn digests mandate ↔ boundary.Recognized :=
  ⟨fun h => h.recognized, fun h => h.usableIn hmem happroval⟩

/-- Every boundary of the mandate that needs approval is usable. -/
def Mandate.BoundariesUsable (digests : ProposalDigests) (mandate : Mandate) : Prop :=
  ∀ boundary ∈ mandate.effectBoundaries, boundary.humanApprovalRequired = true →
    boundary.UsableIn digests mandate

-- ════════════════════════════════════════════════════════════════════════
-- The three producers
-- ════════════════════════════════════════════════════════════════════════

theorem nextMandate_effectBoundaries {current : Mandate} {edit : MandateEdit} {author : Principal}
    {now : Instant} (h : nextMandate current edit author now = .ok mandate) :
    mandate.effectBoundaries = edit.effectBoundaries := by
  unfold nextMandate at h
  split at h
  · split at h
    · obtain rfl := Except.ok.inj h
      rfl
    · exact absurd h (by simp)
  · exact absurd h (by simp)

theorem InitialColleagueRequest.mandate_effectBoundaries
    {derive : String → List String → StableId} {request : InitialColleagueRequest}
    {author : Principal} {now : Instant} (h : request.mandate derive author now = .ok mandate) :
    mandate.effectBoundaries = [request.boundary derive
      (derive "colleague" [author.principalId.val, request.idempotencyKey.val])] := by
  simp only [InitialColleagueRequest.mandate, bind_eq_ok] at h
  obtain ⟨_, _, _, _, _, _, hmake⟩ := h
  exact Mandate.make_effectBoundaries hmake

/-- A draft of a deployment has a boundary for each granted kind of effect, and one at least. -/
theorem DeploymentCreationRequest.mandate_effectBoundaries
    {derive : String → List String → StableId} {request : DeploymentCreationRequest}
    {author : Principal} {now : Instant} (h : request.mandate derive author now = .ok mandate) :
    request.grantedCapabilities.filterMap effectMap ≠ [] ∧
      mandate.effectBoundaries =
        (request.grantedCapabilities.filterMap effectMap).map request.boundary := by
  simp only [DeploymentCreationRequest.mandate, bind_eq_ok, require_eq_ok, exists_const] at h
  obtain ⟨_, hkinds, _, _, hmake⟩ := h
  exact ⟨hkinds, Mandate.make_effectBoundaries hmake⟩

/-- A package digest is no recognized constraint. -/
theorem DeploymentCreationRequest.boundary_not_recognized (request : DeploymentCreationRequest)
    (kind : EffectKind) : ¬ (request.boundary kind).Recognized := by
  rintro ⟨⟨network, hentries⟩, _⟩
  simp [DeploymentCreationRequest.boundary, FrozenJsonObject.singleton] at hentries

theorem InitialColleagueRequest.boundary_recognized_iff
    (derive : String → List String → StableId) (request : InitialColleagueRequest)
    (colleagueId : StableId) :
    (request.boundary derive colleagueId).Recognized ↔
      ∃ network : Bool, request.effectConstraints.entries = [("network", .bool network)] := by
  constructor
  · exact fun h => h.1
  · intro h
    exact ⟨h, ⟨_, List.mem_singleton_self _, request.destinationKind.2⟩,
      ⟨_, List.mem_singleton_self _, request.action.2⟩⟩

theorem Mandate.boundariesUsable_iff :
    mandate.BoundariesUsable digests ↔ ∀ boundary ∈ mandate.effectBoundaries,
      boundary.humanApprovalRequired = true → boundary.Recognized := by
  constructor
  · intro h boundary hmem happroval
    exact (h boundary hmem happroval).recognized
  · intro h boundary hmem happroval
    exact (h boundary hmem happroval).usableIn hmem happroval

/-- Every boundary of a deployment needs approval and cites its package. -/
theorem DeploymentCreationRequest.not_boundariesUsable
    {derive : String → List String → StableId} {request : DeploymentCreationRequest}
    {author : Principal} {now : Instant} (h : request.mandate derive author now = .ok mandate) :
    ¬ mandate.BoundariesUsable digests := by
  obtain ⟨hkinds, hboundaries⟩ := mandate_effectBoundaries h
  obtain ⟨kind, hkind⟩ := List.exists_mem_of_ne_nil _ hkinds
  intro husable
  have hmem : request.boundary kind ∈ mandate.effectBoundaries := by
    rw [hboundaries]
    exact List.mem_map_of_mem hkind
  exact request.boundary_not_recognized kind (husable _ hmem rfl).recognized

/-- The boundaries of a mandate that need approval are usable exactly when each is
    given in the vocabulary of the policy: no mandate of a deployment is, the initial
    mandate is when its request constrains nothing but the network, and a mandate of
    the builder is when its edit says so. -/
theorem confirmed_boundaries_usable (digests : ProposalDigests)
    (derive : String → List String → StableId) (mandate : Mandate) :
    (mandate.BoundariesUsable digests ↔ ∀ boundary ∈ mandate.effectBoundaries,
      boundary.humanApprovalRequired = true → boundary.Recognized) ∧
    (∀ (request : DeploymentCreationRequest) (author : Principal) (now : Instant),
      request.mandate derive author now = .ok mandate → ¬ mandate.BoundariesUsable digests) ∧
    (∀ (request : InitialColleagueRequest) (author : Principal) (now : Instant),
      request.mandate derive author now = .ok mandate →
      (mandate.BoundariesUsable digests ↔
        ∃ network : Bool, request.effectConstraints.entries = [("network", .bool network)])) ∧
    ∀ (current : Mandate) (edit : MandateEdit) (author : Principal) (now : Instant),
      nextMandate current edit author now = .ok mandate →
      (mandate.BoundariesUsable digests ↔ ∀ boundary ∈ edit.effectBoundaries,
        boundary.humanApprovalRequired = true → boundary.Recognized) := by
  refine ⟨Mandate.boundariesUsable_iff, fun request author now h => request.not_boundariesUsable h,
    fun request author now h => ?_, fun current edit author now h => ?_⟩
  · rw [Mandate.boundariesUsable_iff, request.mandate_effectBoundaries h,
      ← request.boundary_recognized_iff derive
        (derive "colleague" [author.principalId.val, request.idempotencyKey.val])]
    simp [InitialColleagueRequest.boundary]
  · rw [Mandate.boundariesUsable_iff, nextMandate_effectBoundaries h]

/-- A package that may propose reference messages. -/
def samplePackageRequest : DeploymentCreationRequest where
  deploymentId := stableId "deployment-1"
  packageId := stableId "package-1"
  packageVersion := "1.0.0"
  packageDigest := 7
  displayName := "Assistant"
  description := "Answers."
  mission := "Answer questions."
  serviceRelationship := "Serves the tenant."
  grantedCapabilities := ["propose_reference_message"]
  timezone := "UTC"
  idempotencyKey := stableId "key-1"

/-- Whether an operation has a result. -/
def Outcome.succeeds {α : Type} (x : Outcome α) : Bool :=
  x.toOption.isSome

theorem Outcome.exists_of_succeeds {α : Type} {x : Outcome α} (h : x.succeeds = true) :
    ∃ a, x = .ok a := by
  obtain ⟨a, ha⟩ := Option.isSome_iff_exists.mp h
  exact ⟨a, toOption_eq_some.mp ha⟩

/-- The draft of a deployment with one granted effect has a boundary that needs
    approval and in which no proposal is authorized. -/
theorem not_every_boundary_usable : ∃ mandate,
    samplePackageRequest.mandate (fun _ _ => stableId "derived-1")
      (.human (stableId "admin-1") .tenantAdmin) 0 = .ok mandate ∧
    mandate.effectBoundaries.map (fun boundary => boundary.humanApprovalRequired) = [true] ∧
    ∀ digests, ¬ mandate.BoundariesUsable digests := by
  obtain ⟨mandate, h⟩ := Outcome.exists_of_succeeds (x := samplePackageRequest.mandate
    (fun _ _ => stableId "derived-1") (.human (stableId "admin-1") .tenantAdmin) 0)
    (by decide +kernel)
  refine ⟨mandate, h, ?_, fun digests => samplePackageRequest.not_boundariesUsable h⟩
  rw [(samplePackageRequest.mandate_effectBoundaries h).2]
  decide

end DigitalColleagues
