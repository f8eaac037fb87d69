import DigitalColleagues.Core.Intelligence
import DigitalColleagues.Core.Serialization
import DigitalColleagues.Core.WireJson
import DigitalColleagues.Store.Runtime

/-!
# The intelligence adapters

`DeterministicIntelligence` and `HttpJsonIntelligence`, from the transport's
answer to the decision they return, and what `WakeService.run` does with it.

## Main definitions

- `HttpJsonIntelligence.read` — the checks of a reply, all of which raise an
  `AdapterFailure`
- `HttpJsonIntelligence.decide`, `DeterministicIntelligence.decide` — the decisions
- `WakeService.handle` — the decision committed for a wake, or the claim released
-/

namespace DigitalColleagues

-- ════════════════════════════════════════════════════════════════════════
-- Failures
-- ════════════════════════════════════════════════════════════════════════

inductive AdapterFailureCategory
  | invalidConfiguration
  | invalidResponse
  | authorityInjection
  | oversizedRequest
  | oversizedResponse
  | timeout
  | dnsFailure
  | connectFailure
  | tlsFailure
  | disconnected
  | unauthorized
  | rateLimited
  | serverFailure
  | redirectRefused
  | httpFailure
deriving DecidableEq, Repr

def AdapterFailureCategory.value : AdapterFailureCategory → String
  | .invalidConfiguration => "invalid_configuration"
  | .invalidResponse => "invalid_response"
  | .authorityInjection => "authority_injection"
  | .oversizedRequest => "oversized_request"
  | .oversizedResponse => "oversized_response"
  | .timeout => "timeout"
  | .dnsFailure => "dns_failure"
  | .connectFailure => "connect_failure"
  | .tlsFailure => "tls_failure"
  | .disconnected => "disconnected"
  | .unauthorized => "unauthorized"
  | .rateLimited => "rate_limited"
  | .serverFailure => "server_failure"
  | .redirectRefused => "redirect_refused"
  | .httpFailure => "http_failure"

/-- An `ExternalAdapterError`. -/
structure AdapterFailure where
  category : AdapterFailureCategory
  resultClass : String
  afterSubmit : Bool
deriving DecidableEq, Repr

/-- What an adapter raises. -/
inductive Raised
  | adapter (failure : AdapterFailure)
  | core (failure : Failure)
  | valueError (message : String)
  | indexError
  | unicodeEncodeError
deriving DecidableEq, Repr

/-- `_invalid`. -/
def invalid (resultClass : String) (authority : Bool) : AdapterFailure :=
  ⟨if authority then .authorityInjection else .invalidResponse, resultClass, false⟩

/-- `if not c: raise e`. -/
def ensure {ε : Type} (c : Prop) [Decidable c] (e : ε) : Except ε Unit :=
  if c then .ok () else .error e

@[simp] theorem ensure_eq_ok {ε : Type} {c : Prop} [Decidable c] {e : ε} {u : Unit} :
    ensure c e = .ok u ↔ c := by
  unfold ensure
  split <;> simp_all

theorem exceptBind_eq_ok {ε α β : Type} {x : Except ε α} {f : α → Except ε β} {b : β} :
    (x >>= f) = .ok b ↔ ∃ a, x = .ok a ∧ f a = .ok b := by
  cases x <;> simp [bind, Except.bind]

theorem exceptPure_eq_ok {ε α : Type} {a b : α} : (pure a : Except ε α) = .ok b ↔ a = b := by
  simp [pure, Except.pure]

-- ════════════════════════════════════════════════════════════════════════
-- Decisions
-- ════════════════════════════════════════════════════════════════════════

/-- A `SemanticDecision` as an adapter returns it: its rationale is any string. -/
structure ReturnedDecision where
  outcome : SemanticOutcome
  decisionId : StableId
  wakeCycleId : StableId
  agendaItemId : StableId
  kind : DecisionKind
  rationale : PyString
  proposedEffectId : Option StableId
  actor : Principal
  correlationId : StableId
  occurredAt : Instant
  revision : ℕ
  policy : Option PolicyBinding
  proposal : Option EffectProposal
  requestId : StableId
  effect_iff : kind = .proposeEffect ↔ proposedEffectId.isSome
  proposal_iff : outcome = .proposal ↔ proposal.isSome

/-- The decision that a store can write: its rationale is proper text. -/
def ReturnedDecision.toSemanticDecision (d : ReturnedDecision) : Option SemanticDecision := do
  let rationale ← PyString.encode d.rationale
  pure
    { outcome := d.outcome
      decision :=
        { decisionId := d.decisionId
          wakeCycleId := d.wakeCycleId
          agendaItemId := d.agendaItemId
          kind := d.kind
          rationale := rationale
          proposedEffectId := d.proposedEffectId
          actor := d.actor
          correlationId := d.correlationId
          occurredAt := d.occurredAt
          revision := d.revision
          policy := d.policy
          effect_iff := d.effect_iff }
      proposal := d.proposal
      requestId := d.requestId
      proposal_iff := d.proposal_iff }

namespace IntelligenceRequest

variable (request : IntelligenceRequest)

/-- A decision that makes no proposal. -/
def withoutProposal (outcome : SemanticOutcome) (kind : DecisionKind) (rationale : PyString)
    (houtcome : outcome ≠ .proposal) (hkind : kind ≠ .proposeEffect) : ReturnedDecision where
  outcome := outcome
  decisionId := request.decisionId
  wakeCycleId := request.wakeCycle.wakeCycleId
  agendaItemId := request.agendaItem.agendaItemId
  kind := kind
  rationale := rationale
  proposedEffectId := none
  actor := request.modelPrincipal
  correlationId := request.agendaItem.correlationId
  occurredAt := request.occurredAt
  revision := 1
  policy := request.policy
  proposal := none
  requestId := request.requestId
  effect_iff := by simp [hkind]
  proposal_iff := by simp [houtcome]

/-- The decision that makes a proposal. -/
def withProposal (rationale : PyString) (proposal : EffectProposal) : ReturnedDecision where
  outcome := .proposal
  decisionId := request.decisionId
  wakeCycleId := request.wakeCycle.wakeCycleId
  agendaItemId := request.agendaItem.agendaItemId
  kind := .proposeEffect
  rationale := rationale
  proposedEffectId := some request.proposalId
  actor := request.modelPrincipal
  correlationId := request.agendaItem.correlationId
  occurredAt := request.occurredAt
  revision := 1
  policy := request.policy
  proposal := some proposal
  requestId := request.requestId
  effect_iff := by simp
  proposal_iff := by simp

end IntelligenceRequest

-- ════════════════════════════════════════════════════════════════════════
-- The constructors of a proposal
-- ════════════════════════════════════════════════════════════════════════

/-- `require_text` on a string as it arrives. -/
def requirePyText (value : PyString) (field : String) (maximum : ℕ) : Except Raised PyString := do
  ensure (PyString.strip value ≠ [] ∧ (PyString.strip value).length ≤ maximum)
    (.core (.coreInvariant (field ++ " must be non-empty and bounded")))
  pure (PyString.strip value)

/-- `require_stable_id` on a string as it arrives. -/
def requirePyStableId (value : PyString) (field : String) : Except Raised StableId :=
  match PyString.encode value with
  | some text =>
    if h : isStableId text = true then .ok ⟨text, h⟩
    else .error (.core (.coreInvariant (field ++ " must be an explicit stable string ID")))
  | none => .error (.core (.coreInvariant (field ++ " must be an explicit stable string ID")))

/-- `.encode("utf-8")`: what cannot be encoded has no digest. -/
def utf8 {α : Type} (encoded : Option α) : Except Raised α :=
  match encoded with
  | some a => .ok a
  | none => .error .unicodeEncodeError

/-- The parts of a proposal that a model chooses, with the boundary they lie in. -/
structure ProposalParts where
  boundary : EffectBoundary
  destinationKind : PyString
  target : PyString
  action : PyString
  payload : List (PyString × WireJson)
  safeProjection : List (PyString × WireJson)
  rationale : PyString

/-- The `EffectDestination` and `EffectProposal` constructors on the chosen parts; the
    two digests are taken over the UTF-8 encoding of the payload and of the other fields. -/
def ProposalParts.build (digests : ProposalDigests) (request : IntelligenceRequest)
    (parts : ProposalParts) : Except Raised EffectProposal := do
  let kind ← requirePyStableId parts.destinationKind "destination kind"
  let target ← requirePyText parts.target "destination target" 512
  let action ← requirePyStableId parts.action "effect action"
  ensure (parts.payload ≠ [])
    (.core (.coreInvariant "effect payload must be a non-empty immutable object"))
  ensure (parts.safeProjection ≠ [])
    (.core (.coreInvariant "effect safe projection must be non-empty and immutable"))
  let payload ← utf8 (WireJson.encodeObject parts.payload)
  let target ← utf8 (PyString.encode target)
  let safeProjection ← utf8 (WireJson.encodeObject parts.safeProjection)
  pure (request.proposal digests parts.boundary ⟨kind, target⟩ action payload safeProjection)

-- ════════════════════════════════════════════════════════════════════════
-- The deterministic adapter
-- ════════════════════════════════════════════════════════════════════════

/-- The first item of a list. -/
def firstItem {α : Type} (items : List α) : Except Raised α :=
  match items with
  | a :: _ => .ok a
  | [] => .error .indexError

/-- The parts that the deterministic adapter chooses. -/
def deterministicParts (request : IntelligenceRequest) (boundary : EffectBoundary)
    (destinationKind action : String) : ProposalParts where
  boundary := boundary
  destinationKind := .ofString destinationKind
  target := .ofString "synthetic-target"
  action := .ofString action
  payload := [(.ofString "body", .str (.ofString "Synthetic deterministic work update."))]
  safeProjection :=
    [(.ofString "content_class", .str (.ofString "synthetic_update")),
      (.ofString "work_id",
        match request.agendaItem.workId with
        | some workId => .str (.ofString workId)
        | none => .null)]
  rationale :=
    .ofString "Synthetic finite work deterministically requires one reference effect."

/-- `DeterministicIntelligence.decide`. -/
def DeterministicIntelligence.decide (digests : ProposalDigests) (request : IntelligenceRequest) :
    Except Raised ReturnedDecision := do
  ensure (request.modelPrincipal.kind = .model)
    (.valueError "deterministic intelligence requires a model principal")
  let boundary ← firstItem request.mandate.effectBoundaries
  let destinationKind ← firstItem boundary.allowedDestinationKinds
  let action ← firstItem boundary.allowedActions
  let parts := deterministicParts request boundary destinationKind action
  let proposal ← parts.build digests request
  pure (request.withProposal parts.rationale proposal)

-- ════════════════════════════════════════════════════════════════════════
-- The HTTP adapter: the transport
-- ════════════════════════════════════════════════════════════════════════

/-- What the transport returns; `body` is the parsed body, if it is JSON. -/
structure HttpJsonResponse where
  status : ℕ
  contentType : String
  body : Option WireJson

/-- `_response_failure`. -/
def responseFailure (status : ℕ) : AdapterFailure :=
  if status = 401 ∨ status = 403 then ⟨.unauthorized, "authorization_refused", true⟩
  else if status = 429 then ⟨.rateLimited, "rate_limited", true⟩
  else if 500 ≤ status ∧ status ≤ 599 then ⟨.serverFailure, "server_failure", true⟩
  else ⟨.httpFailure, "http_refused", true⟩

/-- Whether the media type is JSON; header values are Latin-1. -/
def isJsonContentType (contentType : String) : Bool :=
  (strip (String.ofList (contentType.toList.takeWhile (· ≠ ';')))).map Char.toLower =
    "application/json"

/-- A failure after which the request is submitted again. -/
def AdapterFailure.retryable (failure : AdapterFailure) : Bool :=
  !failure.afterSubmit && (failure.category == .connectFailure || failure.category == .dnsFailure)

/-- The submissions of `_post`: the `n`-th one gives `transport n`, and `retries` more
    may follow it. -/
def submit (transport : ℕ → Except AdapterFailure HttpJsonResponse) (retries n : ℕ) :
    Except AdapterFailure HttpJsonResponse :=
  match transport n, retries with
  | .ok response, _ => .ok response
  | .error failure, 0 => .error failure
  | .error failure, retries + 1 =>
    if failure.retryable then submit transport retries (n + 1) else .error failure

/-- The rest of `_post`, with `parse_json_object`. -/
def receive (response : HttpJsonResponse) :
    Except AdapterFailure (List (PyString × WireJson)) := do
  ensure (response.status = 200) (responseFailure response.status)
  ensure (isJsonContentType response.contentType) (invalid "invalid_content_type" false)
  match response.body with
  | none => .error (invalid "invalid_json" false)
  | some (.object entries) => .ok entries
  | some _ => .error (invalid "non_object_json" false)

-- ════════════════════════════════════════════════════════════════════════
-- The HTTP adapter: the checks of a reply
-- ════════════════════════════════════════════════════════════════════════

/-- `_AUTHORITY_FIELDS`. -/
def authorityFields : List String :=
  ["approval", "approval_decision_id", "callback", "constraints", "credential", "decision_id",
    "effect_idempotency_key", "endpoint", "idempotency_key", "mandate_id", "mandate_revision",
    "namespace", "occurred_at", "policy_id", "policy_revision", "principal", "principal_id",
    "proposal_id", "role", "roles", "schema_version", "tenant_id", "tool", "valid_until"]

def isAuthorityField (key : String) : Bool := authorityFields.contains key

/-- `key in _AUTHORITY_FIELDS`, for a key as it arrives. -/
def isAuthorityKey (key : PyString) : Bool := (authorityFields.map PyString.ofString).contains key

/-- `_contains_authority_field` of an object. -/
def containsAuthorityField (entries : List (PyString × WireJson)) : Bool :=
  WireJson.anyKeyEntries isAuthorityKey entries

/-- `_require_exact`. -/
def requireExact (entries : List (PyString × WireJson)) (fields : List String)
    (resultClass : String) : Except AdapterFailure Unit :=
  ensure (entries.map Prod.fst ⊆ fields.map PyString.ofString ∧
      fields.map PyString.ofString ⊆ entries.map Prod.fst)
    (invalid resultClass (containsAuthorityField entries))

/-- The value of a field that `_require_exact` found. -/
def getField (entries : List (PyString × WireJson)) (field : String) : WireJson :=
  ((entries.find? fun e => decide (e.1 = .ofString field)).map Prod.snd).getD .null

/-- The keys of a parsed object are exactly the given fields. -/
def hasFields (entries : List (PyString × WireJson)) (fields : List String) : Bool :=
  (entries.all fun e => (fields.map PyString.ofString).contains e.1) &&
    (fields.all fun field => (entries.map Prod.fst).contains (PyString.ofString field))

/-- `isinstance(value, str)`. -/
def WireJson.str? : WireJson → Option PyString
  | .str s => some s
  | _ => none

/-- `isinstance(value, dict)`. -/
def WireJson.object? : WireJson → Option (List (PyString × WireJson))
  | .object entries => some entries
  | _ => none

theorem WireJson.str?_eq_some {v : WireJson} {s : PyString} : v.str? = some s ↔ v = .str s := by
  cases v <;> simp [WireJson.str?]

theorem WireJson.object?_eq_some {v : WireJson} {entries : List (PyString × WireJson)} :
    v.object? = some entries ↔ v = .object entries := by
  cases v <;> simp [WireJson.object?]

/-- The value that is there, or the failure. -/
def orInvalid {α : Type} (o : Option α) (failure : AdapterFailure) : Except AdapterFailure α :=
  match o with
  | some a => .ok a
  | none => .error failure

@[simp] theorem orInvalid_eq_ok {α : Type} {o : Option α} {failure : AdapterFailure} {a : α} :
    orInvalid o failure = .ok a ↔ o = some a := by
  cases o <;> simp [orInvalid]

/-- `_bounded_text`. -/
def boundedText (value : WireJson) (maximum : ℕ) (resultClass : String) :
    Except AdapterFailure PyString := do
  let text ← orInvalid value.str? (invalid resultClass false)
  ensure (PyString.strip text ≠ [] ∧ (PyString.strip text).length ≤ maximum)
    (invalid resultClass false)
  pure (PyString.strip text)

def SemanticOutcome.value : SemanticOutcome → String
  | .proposal => "proposal"
  | .noOp => "no_op"
  | .wait => "wait"
  | .escalation => "escalation"

/-- `SemanticOutcome(value)`. -/
def SemanticOutcome.ofValue? (value : PyString) : Option SemanticOutcome :=
  [.proposal, .noOp, .wait, .escalation].find?
    fun outcome => decide (PyString.ofString outcome.value = value)

/-- `EffectKind(value)`. -/
def EffectKind.ofValue? (value : PyString) : Option EffectKind :=
  [.referenceMessage, .internalRecord, .notification].find?
    fun kind => decide (PyString.ofString kind.value = value)

/-- The boundary allows this kind of effect, destination and action. -/
def EffectBoundary.Allows (boundary : EffectBoundary) (effectKind : EffectKind)
    (destinationKind action : PyString) : Prop :=
  boundary.effectKind = effectKind ∧
  destinationKind ∈ boundary.allowedDestinationKinds.map PyString.ofString ∧
  action ∈ boundary.allowedActions.map PyString.ofString

instance (boundary : EffectBoundary) (effectKind : EffectKind) (destinationKind action : PyString) :
    Decidable (boundary.Allows effectKind destinationKind action) := by
  unfold EffectBoundary.Allows
  infer_instance

/-- The one boundary that allows the effect, when it needs human approval. -/
def selectBoundary (request : IntelligenceRequest) (effectKind : EffectKind)
    (destinationKind action : PyString) : Except AdapterFailure EffectBoundary :=
  match request.mandate.effectBoundaries.filter
      fun boundary => decide (boundary.Allows effectKind destinationKind action) with
  | [boundary] =>
    if boundary.humanApprovalRequired then .ok boundary else .error (invalid "outside_mandate" true)
  | _ => .error (invalid "outside_mandate" true)

/-- `FrozenJsonObject.from_mapping` of a field, which must be a non-empty object; every
    failure of it is translated. -/
def freezeField (entries : List (PyString × WireJson)) :
    Except AdapterFailure (List (PyString × WireJson)) :=
  match WireJson.fromMapping entries with
  | .ok frozen => .ok frozen
  | .error _ => .error (invalid "effect_json_shape" false)

/-- The checks of `_proposal`, up to its first constructor. -/
def readProposal (request : IntelligenceRequest) (result : List (PyString × WireJson)) :
    Except AdapterFailure ProposalParts := do
  requireExact result
    ["rationale", "effect_kind", "destination", "action", "payload", "safe_projection"]
    "proposal_fields"
  let destination ← orInvalid (getField result "destination").object?
    (invalid "destination_shape" false)
  requireExact destination ["kind", "target"] "destination_fields"
  let effectKindValue ← boundedText (getField result "effect_kind") 128 "effect_kind"
  let destinationKind ← boundedText (getField destination "kind") 128 "destination_kind"
  let target ← boundedText (getField destination "target") 512 "destination_target"
  let action ← boundedText (getField result "action") 128 "action"
  let effectKind ← orInvalid (EffectKind.ofValue? effectKindValue)
    (invalid "unknown_effect_kind" false)
  let boundary ← selectBoundary request effectKind destinationKind action
  let payload ← orInvalid (getField result "payload").object? (invalid "effect_payload_shape" false)
  let safeProjection ← orInvalid (getField result "safe_projection").object?
    (invalid "effect_payload_shape" false)
  ensure (payload ≠ [] ∧ safeProjection ≠ []) (invalid "effect_payload_shape" false)
  let frozenPayload ← freezeField payload
  let frozenProjection ← freezeField safeProjection
  let rationale ← boundedText (getField result "rationale") 2048 "rationale"
  pure ⟨boundary, destinationKind, target, action, frozenPayload, frozenProjection, rationale⟩

/-- A reply that passed every check. -/
inductive Reply
  | proposal (parts : ProposalParts)
  | other (outcome : SemanticOutcome) (rationale : PyString) (h : outcome ≠ .proposal)

namespace HttpJsonIntelligence

/-- The checks of `decide` on the response document. -/
def readDocument (request : IntelligenceRequest) (response : List (PyString × WireJson)) :
    Except AdapterFailure Reply := do
  ensure (containsAuthorityField response = false) (invalid "authority_field_refused" true)
  requireExact response ["protocol_version", "result_kind", "result"] "response_fields"
  ensure ((getField response "protocol_version").str? = some (.ofString "dc-http-json-v1"))
    (invalid "protocol_mismatch" false)
  let resultKind ← orInvalid (getField response "result_kind").str? (invalid "result_shape" false)
  let result ← orInvalid (getField response "result").object? (invalid "result_shape" false)
  let outcome ← orInvalid (SemanticOutcome.ofValue? resultKind) (invalid "unknown_outcome" false)
  if h : outcome = .proposal then do
    let parts ← readProposal request result
    pure (.proposal parts)
  else do
    requireExact result ["rationale"] "non_proposal_fields"
    let rationale ← boundedText (getField result "rationale") 2048 "rationale"
    pure (.other outcome rationale h)

/-- Everything that `decide` checks before it constructs a decision; the transport may
    be used `retries` times more when nothing was submitted. -/
def read (retries : ℕ) (request : IntelligenceRequest)
    (transport : ℕ → Except AdapterFailure HttpJsonResponse) : Except AdapterFailure Reply := do
  ensure (request.modelPrincipal.kind = .model) (invalid "model_principal_required" true)
  let response ← submit transport retries 0
  let document ← receive response
  readDocument request document

/-- The decision kind of an outcome that makes no proposal. -/
def decisionKind (outcome : SemanticOutcome) : DecisionKind :=
  if outcome = .noOp then .noAction else .deferItem

/-- The decision of a reply that passed every check. -/
def answer (digests : ProposalDigests) (request : IntelligenceRequest) :
    Reply → Except Raised ReturnedDecision
  | .proposal parts => do
    let proposal ← parts.build digests request
    pure (request.withProposal parts.rationale proposal)
  | .other outcome rationale h =>
    .ok (request.withoutProposal outcome (decisionKind outcome) rationale h
      (by unfold decisionKind; split <;> simp))

/-- `HttpJsonIntelligence.decide`. -/
def decide (digests : ProposalDigests) (retries : ℕ) (request : IntelligenceRequest)
    (transport : ℕ → Except AdapterFailure HttpJsonResponse) : Except Raised ReturnedDecision :=
  match read retries request transport with
  | .ok reply => answer digests request reply
  | .error failure => .error (.adapter failure)

end HttpJsonIntelligence

-- ════════════════════════════════════════════════════════════════════════
-- The wake
-- ════════════════════════════════════════════════════════════════════════

/-- What a wake does with its claim: it commits a decision, or releases the claim and
    raises again. -/
inductive WakeHandling
  | committed (semantic : SemanticDecision)
  | released (raised : Raised)

namespace IntelligenceRequest

variable (request : IntelligenceRequest)

/-- A decision of the wake itself. -/
def ownDecision (outcome : SemanticOutcome) (kind : DecisionKind) (rationale : String)
    (houtcome : outcome ≠ .proposal) (hkind : kind ≠ .proposeEffect) : SemanticDecision where
  outcome := outcome
  decision :=
    { decisionId := request.decisionId
      wakeCycleId := request.wakeCycle.wakeCycleId
      agendaItemId := request.agendaItem.agendaItemId
      kind := kind
      rationale := rationale
      proposedEffectId := none
      actor := request.modelPrincipal
      correlationId := request.agendaItem.correlationId
      occurredAt := request.occurredAt
      revision := 1
      policy := request.policy
      effect_iff := by simp [hkind] }
  proposal := none
  requestId := request.requestId
  proposal_iff := by simp [houtcome]

/-- `_deterministic_noop`. -/
def deterministicNoop : Option SemanticDecision :=
  if request.agendaItem.title.startsWith "noop:" then
    some (request.ownDecision .noOp .noAction
      "Deterministic application policy completed an explicit no-op." (by decide) (by decide))
  else none

/-- The decision that records an adapter failure; `safeDigest` is its diagnostic digest. -/
def failureDecision (safeDigest : AdapterFailureCategory → String → Digest)
    (failure : AdapterFailure) : SemanticDecision :=
  request.ownDecision .wait .deferItem
    ("Optional intelligence failure stopped after one bounded attempt: category=" ++
      failure.category.value ++ " digest=" ++
      (safeDigest failure.category failure.resultClass).text ++ ".") (by decide) (by decide)

end IntelligenceRequest

/-- The body of the loop of `WakeService.run` for one claimed generation, over what the
    intelligence does; a decision that cannot be encoded cannot be written. -/
def WakeService.handle (safeDigest : AdapterFailureCategory → String → Digest)
    (request : IntelligenceRequest) (decided : Except Raised ReturnedDecision) : WakeHandling :=
  match request.deterministicNoop with
  | some semantic => .committed semantic
  | none =>
    match decided with
    | .ok decision =>
      match decision.toSemanticDecision with
      | some semantic => .committed semantic
      | none => .released .unicodeEncodeError
    | .error (.adapter failure) => .committed (request.failureDecision safeDigest failure)
    | .error raised => .released raised

end DigitalColleagues
