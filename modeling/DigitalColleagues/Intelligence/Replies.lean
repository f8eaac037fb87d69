import DigitalColleagues.Intelligence.Adapters

/-!
# Accepted replies

What a response says when it passes every check of `HttpJsonIntelligence`, in
terms of the document as it arrives.

## Main definitions

- `Accepts` — the checks that do not depend on the outcome
- `Proposes`, `Answers` — a reply with a proposal, and one without
-/

namespace DigitalColleagues

/-- The fields of `result` in a reply with a proposal, as they arrive. -/
structure RawProposal where
  effectKind : PyString
  destinationKind : PyString
  target : PyString
  action : PyString
  payload : List (PyString × WireJson)
  safeProjection : List (PyString × WireJson)
  rationale : PyString

/-- The document has exactly these fields. -/
def ExactFields (entries : List (PyString × WireJson)) (fields : List String) : Prop :=
  entries.map Prod.fst ⊆ fields.map PyString.ofString ∧
    fields.map PyString.ofString ⊆ entries.map Prod.fst

/-- Text that is not empty once stripped, and not longer than `maximum`. -/
def Bounded (text : PyString) (maximum : ℕ) : Prop :=
  PyString.strip text ≠ [] ∧ (PyString.strip text).length ≤ maximum

/-- The response is a JSON document of the protocol without authority fields, with this
    outcome and this result. -/
structure Accepts (request : IntelligenceRequest) (response : HttpJsonResponse)
    (document : List (PyString × WireJson)) (outcome : SemanticOutcome)
    (result : List (PyString × WireJson)) : Prop where
  model : request.modelPrincipal.kind = .model
  status : response.status = 200
  contentType : isJsonContentType response.contentType = true
  body : response.body = some (.object document)
  authority : containsAuthorityField document = false
  fields : ExactFields document ["protocol_version", "result_kind", "result"]
  protocol : getField document "protocol_version" = .str (.ofString "dc-http-json-v1")
  outcome : ∃ kind, getField document "result_kind" = .str kind ∧
    SemanticOutcome.ofValue? kind = some outcome
  result : getField document "result" = .object result

/-- The result has the fields of `raw`. -/
structure RawProposal.In (raw : RawProposal) (result : List (PyString × WireJson)) : Prop where
  fields : ExactFields result
    ["rationale", "effect_kind", "destination", "action", "payload", "safe_projection"]
  effectKind : getField result "effect_kind" = .str raw.effectKind
  destination : ∃ destination, getField result "destination" = .object destination ∧
    ExactFields destination ["kind", "target"] ∧
    getField destination "kind" = .str raw.destinationKind ∧
    getField destination "target" = .str raw.target
  action : getField result "action" = .str raw.action
  payload : getField result "payload" = .object raw.payload
  safeProjection : getField result "safe_projection" = .object raw.safeProjection
  rationale : getField result "rationale" = .str raw.rationale

/-- The boundary is the one that allows the effect, and it needs human approval. -/
structure RawProposal.Selects (raw : RawProposal) (request : IntelligenceRequest)
    (boundary : EffectBoundary) : Prop where
  effectKind : EffectKind.ofValue? (PyString.strip raw.effectKind) = some boundary.effectKind
  unique : request.mandate.effectBoundaries.filter (fun b => decide (b.Allows boundary.effectKind
    (PyString.strip raw.destinationKind) (PyString.strip raw.action))) = [boundary]
  approval : boundary.humanApprovalRequired = true

/-- The texts are bounded, and the two objects are not empty and can be frozen. -/
structure RawProposal.WellFormed (raw : RawProposal) : Prop where
  effectKind : Bounded raw.effectKind 128
  destinationKind : Bounded raw.destinationKind 128
  target : Bounded raw.target 512
  action : Bounded raw.action 128
  rationale : Bounded raw.rationale 2048
  payload_ne : raw.payload ≠ []
  safeProjection_ne : raw.safeProjection ≠ []
  payload : ∃ frozen, WireJson.fromMapping raw.payload = .ok frozen
  safeProjection : ∃ frozen, WireJson.fromMapping raw.safeProjection = .ok frozen

/-- The response is a reply that proposes `raw` inside `boundary`. -/
structure Proposes (request : IntelligenceRequest) (response : HttpJsonResponse)
    (raw : RawProposal) (boundary : EffectBoundary) : Prop where
  accepts : ∃ document result, Accepts request response document .proposal result ∧ raw.In result
  selects : raw.Selects request boundary
  wellFormed : raw.WellFormed

/-- The response is a reply with this outcome, which is no proposal, and this rationale. -/
structure Answers (request : IntelligenceRequest) (response : HttpJsonResponse)
    (outcome : SemanticOutcome) (rationale : PyString) : Prop where
  accepts : ∃ document result, Accepts request response document outcome result ∧
    ExactFields result ["rationale"] ∧ getField result "rationale" = .str rationale
  no_proposal : outcome ≠ .proposal
  bounded : Bounded rationale 2048

-- ════════════════════════════════════════════════════════════════════════
-- Reading
-- ════════════════════════════════════════════════════════════════════════

theorem requireExact_eq_ok {entries : List (PyString × WireJson)} {fields : List String}
    {resultClass : String} {u : Unit} :
    requireExact entries fields resultClass = .ok u ↔ ExactFields entries fields := by
  simp only [requireExact, ensure_eq_ok, ExactFields]

theorem boundedText_eq_ok {value : WireJson} {maximum : ℕ} {resultClass : String}
    {text : PyString} : boundedText value maximum resultClass = .ok text ↔
      ∃ raw, value = .str raw ∧ Bounded raw maximum ∧ PyString.strip raw = text := by
  simp only [boundedText, exceptBind_eq_ok, orInvalid_eq_ok, WireJson.str?_eq_some, ensure_eq_ok,
    exists_const, exceptPure_eq_ok, Bounded]

theorem selectBoundary_eq_ok {request : IntelligenceRequest} {effectKind : EffectKind}
    {destinationKind action : PyString} {boundary : EffectBoundary} :
    selectBoundary request effectKind destinationKind action = .ok boundary ↔
      request.mandate.effectBoundaries.filter
        (fun b => decide (b.Allows effectKind destinationKind action)) = [boundary] ∧
      boundary.humanApprovalRequired = true := by
  unfold selectBoundary
  split
  · rename_i b hb
    rw [hb]
    constructor
    · intro h
      split at h
      · rename_i happroval
        obtain rfl := Except.ok.inj h
        exact ⟨rfl, happroval⟩
      · exact absurd h (by simp)
    · rintro ⟨hsame, happroval⟩
      obtain rfl := List.singleton_inj.mp hsame
      rw [if_pos happroval]
  · rename_i hother
    exact ⟨fun h => absurd h (by simp), fun h => absurd h.1 (hother boundary)⟩

theorem freezeField_eq_ok {entries frozen : List (PyString × WireJson)} :
    freezeField entries = .ok frozen ↔ WireJson.fromMapping entries = .ok frozen := by
  unfold freezeField
  split <;> simp_all

theorem receive_eq_ok {response : HttpJsonResponse} {document : List (PyString × WireJson)} :
    receive response = .ok document ↔ response.status = 200 ∧
      isJsonContentType response.contentType = true ∧ response.body = some (.object document) := by
  simp only [receive, exceptBind_eq_ok, ensure_eq_ok, exists_const]
  constructor
  · rintro ⟨hstatus, htype, h⟩
    refine ⟨hstatus, htype, ?_⟩
    split at h
    · exact absurd h (by simp)
    · rename_i entries hbody
      obtain rfl := Except.ok.inj h
      exact hbody
    · exact absurd h (by simp)
  · rintro ⟨hstatus, htype, hbody⟩
    refine ⟨hstatus, htype, ?_⟩
    rw [hbody]

/-- The parts that are read of a proposal. -/
def RawProposal.parts (raw : RawProposal) (boundary : EffectBoundary)
    (payload safeProjection : List (PyString × WireJson)) : ProposalParts where
  boundary := boundary
  destinationKind := PyString.strip raw.destinationKind
  target := PyString.strip raw.target
  action := PyString.strip raw.action
  payload := payload
  safeProjection := safeProjection
  rationale := PyString.strip raw.rationale

/-- The boundary that is selected is one of the mandate and allows the effect. -/
theorem selected_allows {request : IntelligenceRequest} {effectKind : EffectKind}
    {destinationKind action : PyString} {boundary : EffectBoundary}
    (h : request.mandate.effectBoundaries.filter
      (fun b => decide (b.Allows effectKind destinationKind action)) = [boundary]) :
    boundary ∈ request.mandate.effectBoundaries ∧
      boundary.Allows effectKind destinationKind action := by
  have hself : boundary ∈ [boundary] := List.mem_singleton_self boundary
  rw [← h, List.mem_filter] at hself
  exact ⟨hself.1, of_decide_eq_true hself.2⟩

/-- `_proposal` gets to its first constructor on the well-formed proposals inside one
    boundary that needs approval. -/
theorem readProposal_eq_ok {request : IntelligenceRequest} {result : List (PyString × WireJson)}
    {parts : ProposalParts} : readProposal request result = .ok parts ↔
      ∃ (raw : RawProposal) (boundary : EffectBoundary)
        (payload safeProjection : List (PyString × WireJson)), raw.In result ∧
        raw.Selects request boundary ∧ raw.WellFormed ∧
        WireJson.fromMapping raw.payload = .ok payload ∧
        WireJson.fromMapping raw.safeProjection = .ok safeProjection ∧
        parts = raw.parts boundary payload safeProjection := by
  simp only [readProposal, exceptBind_eq_ok, requireExact_eq_ok, orInvalid_eq_ok,
    WireJson.object?_eq_some, boundedText_eq_ok, selectBoundary_eq_ok, ensure_eq_ok,
    freezeField_eq_ok, exists_const, exceptPure_eq_ok]
  constructor
  · rintro ⟨hfields, destination, hdestination, hdestinationFields, _, ⟨effectKind, heffectKind,
      heffectKindBounded, rfl⟩, _, ⟨destinationKind, hkind, hkindBounded, rfl⟩, _, ⟨target, htarget,
      htargetBounded, rfl⟩, _, ⟨action, haction, hactionBounded, rfl⟩, kind, hofValue, boundary,
      ⟨hunique, happroval⟩, payload, hpayload, projection, hprojection, ⟨hpayload_ne,
      hprojection_ne⟩, frozenPayload, hfrozenPayload, frozenProjection, hfrozenProjection, _,
      ⟨rationale, hrationale, hrationaleBounded, rfl⟩, rfl⟩
    have hboundaryKind : boundary.effectKind = kind := (selected_allows hunique).2.1
    refine ⟨⟨effectKind, destinationKind, target, action, payload, projection, rationale⟩, boundary,
      frozenPayload, frozenProjection,
      ⟨hfields, heffectKind, ⟨destination, hdestination, hdestinationFields, hkind, htarget⟩,
        haction, hpayload, hprojection, hrationale⟩,
      ⟨hboundaryKind ▸ hofValue, hboundaryKind ▸ hunique, happroval⟩,
      ⟨heffectKindBounded, hkindBounded, htargetBounded, hactionBounded, hrationaleBounded,
        hpayload_ne, hprojection_ne, ⟨_, hfrozenPayload⟩, ⟨_, hfrozenProjection⟩⟩,
      hfrozenPayload, hfrozenProjection, rfl⟩
  · rintro ⟨raw, boundary, payload, safeProjection, hin, hselects, hformed, hpayload, hprojection,
      rfl⟩
    obtain ⟨destination, hdestination, hdestinationFields, hkind, htarget⟩ := hin.destination
    exact ⟨hin.fields, destination, hdestination, hdestinationFields, _,
      ⟨_, hin.effectKind, hformed.effectKind, rfl⟩, _, ⟨_, hkind, hformed.destinationKind, rfl⟩, _,
      ⟨_, htarget, hformed.target, rfl⟩, _, ⟨_, hin.action, hformed.action, rfl⟩,
      boundary.effectKind, hselects.effectKind, boundary, ⟨hselects.unique, hselects.approval⟩, _,
      hin.payload, _, hin.safeProjection, ⟨hformed.payload_ne, hformed.safeProjection_ne⟩, payload,
      hpayload, safeProjection, hprojection, _, ⟨_, hin.rationale, hformed.rationale, rfl⟩, rfl⟩

namespace HttpJsonIntelligence

/-- The checks that do not depend on the outcome. -/
theorem read_eq_ok {retries : ℕ} {request : IntelligenceRequest}
    {transport : ℕ → Except AdapterFailure HttpJsonResponse} {reply : Reply} :
    read retries request transport = .ok reply ↔
      ∃ response document outcome result, submit transport retries 0 = .ok response ∧
        Accepts request response document outcome result ∧
        ((∃ parts, outcome = .proposal ∧ readProposal request result = .ok parts ∧
            reply = .proposal parts) ∨
          ∃ rationale, ∃ h : outcome ≠ .proposal, ExactFields result ["rationale"] ∧
            boundedText (getField result "rationale") 2048 "rationale" = .ok rationale ∧
            reply = .other outcome rationale h) := by
  simp only [read, readDocument, exceptBind_eq_ok, ensure_eq_ok, exists_const, receive_eq_ok,
    requireExact_eq_ok, orInvalid_eq_ok, WireJson.str?_eq_some, WireJson.object?_eq_some]
  constructor
  · rintro ⟨hmodel, response, hresponse, document, ⟨hstatus, htype, hbody⟩, hauthority, hfields,
      hprotocol, kind, hkind, result, hresult, outcome, houtcome, h⟩
    refine ⟨response, document, outcome, result, hresponse, ⟨hmodel, hstatus, htype, hbody,
      hauthority, hfields, hprotocol, ⟨kind, hkind, houtcome⟩, hresult⟩, ?_⟩
    split at h
    · rename_i hproposal
      simp only [exceptBind_eq_ok, exceptPure_eq_ok] at h
      obtain ⟨parts, hparts, rfl⟩ := h
      exact .inl ⟨parts, hproposal, hparts, rfl⟩
    · rename_i hother
      simp only [exceptBind_eq_ok, exceptPure_eq_ok, requireExact_eq_ok, exists_const] at h
      obtain ⟨hexact, rationale, hrationale, rfl⟩ := h
      exact .inr ⟨rationale, hother, hexact, hrationale, rfl⟩
  · rintro ⟨response, document, outcome, result, hresponse, haccepts, h⟩
    obtain ⟨kind, hkind, houtcome⟩ := haccepts.outcome
    refine ⟨haccepts.model, response, hresponse, document, ⟨haccepts.status, haccepts.contentType,
      haccepts.body⟩, haccepts.authority, haccepts.fields, haccepts.protocol, kind, hkind, result,
      haccepts.result, outcome, houtcome, ?_⟩
    rcases h with ⟨parts, hproposal, hparts, rfl⟩ | ⟨rationale, hother, hexact, hrationale, rfl⟩
    · rw [dif_pos hproposal, hparts]
      rfl
    · rw [dif_neg hother]
      simp only [exceptBind_eq_ok, exceptPure_eq_ok, requireExact_eq_ok, exists_const]
      exact ⟨hexact, rationale, hrationale, rfl⟩

/-- A reply with a proposal is read as its parts. -/
theorem read_eq_proposal {retries : ℕ} {request : IntelligenceRequest}
    {transport : ℕ → Except AdapterFailure HttpJsonResponse} {parts : ProposalParts} :
    read retries request transport = .ok (.proposal parts) ↔
      ∃ (response : HttpJsonResponse) (raw : RawProposal) (boundary : EffectBoundary)
        (payload safeProjection : List (PyString × WireJson)),
        submit transport retries 0 = .ok response ∧ Proposes request response raw boundary ∧
        WireJson.fromMapping raw.payload = .ok payload ∧
        WireJson.fromMapping raw.safeProjection = .ok safeProjection ∧
        parts = raw.parts boundary payload safeProjection := by
  rw [read_eq_ok]
  constructor
  · rintro ⟨response, document, outcome, result, hresponse, haccepts, h⟩
    rcases h with ⟨found, rfl, hparts, hsame⟩ | ⟨rationale, hother, _, _, hsame⟩
    · obtain rfl := Reply.proposal.inj hsame
      obtain ⟨raw, boundary, payload, safeProjection, hin, hselects, hformed, hpayload, hprojection,
        rfl⟩ := readProposal_eq_ok.mp hparts
      exact ⟨response, raw, boundary, payload, safeProjection, hresponse,
        ⟨⟨document, result, haccepts, hin⟩, hselects, hformed⟩, hpayload, hprojection, rfl⟩
    · exact absurd hsame (by simp)
  · rintro ⟨response, raw, boundary, payload, safeProjection, hresponse, hproposes, hpayload,
      hprojection, rfl⟩
    obtain ⟨document, result, haccepts, hin⟩ := hproposes.accepts
    exact ⟨response, document, .proposal, result, hresponse, haccepts, .inl ⟨_, rfl,
      readProposal_eq_ok.mpr ⟨raw, boundary, payload, safeProjection, hin, hproposes.selects,
        hproposes.wellFormed, hpayload, hprojection, rfl⟩, rfl⟩⟩

/-- A reply without a proposal is read as its outcome and its stripped rationale. -/
theorem read_eq_other {retries : ℕ} {request : IntelligenceRequest}
    {transport : ℕ → Except AdapterFailure HttpJsonResponse} {outcome : SemanticOutcome}
    {rationale : PyString} {h : outcome ≠ .proposal} :
    read retries request transport = .ok (.other outcome rationale h) ↔
      ∃ response raw, submit transport retries 0 = .ok response ∧
        Answers request response outcome raw ∧ rationale = PyString.strip raw := by
  rw [read_eq_ok]
  constructor
  · rintro ⟨response, document, found, result, hresponse, haccepts, hreply⟩
    rcases hreply with ⟨parts, _, _, hsame⟩ | ⟨text, hother, hexact, htext, hsame⟩
    · exact absurd hsame (by simp)
    · obtain ⟨rfl, rfl⟩ := Reply.other.inj hsame
      obtain ⟨raw, hraw, hbounded, rfl⟩ := boundedText_eq_ok.mp htext
      exact ⟨response, raw, hresponse, ⟨⟨document, result, haccepts, hexact, hraw⟩, h, hbounded⟩,
        rfl⟩
  · rintro ⟨response, raw, hresponse, hanswers, rfl⟩
    obtain ⟨document, result, haccepts, hexact, hraw⟩ := hanswers.accepts
    exact ⟨response, document, outcome, result, hresponse, haccepts, .inr ⟨_, h, hexact,
      boundedText_eq_ok.mpr ⟨raw, hraw, hanswers.bounded, rfl⟩, rfl⟩⟩

end HttpJsonIntelligence

end DigitalColleagues
