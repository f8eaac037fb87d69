import DigitalColleagues.Lib.Transition
import DigitalColleagues.Runtime.Worker

/-!
# The HTTP channel

`HttpJsonChannel` over its bounded transport: the request of an effect, every point
at which the exchange with the provider can fail, the strict checks of an answer, and
the outcome that the dispatcher is told. The transport keeps a record of the requests
that were handed to the network.

## Main definitions

- `HttpJsonTransport.post` — one exchange, over everything the network can do
- `strictResponse` — the checks of an answer
- `HttpJsonChannel.apply`, `HttpJsonChannel.reconcile` — the two operations
- `channel` — the runs of one channel object
-/

namespace DigitalColleagues

-- ════════════════════════════════════════════════════════════════════════
-- The network
-- ════════════════════════════════════════════════════════════════════════

/-- The exceptions of the connection that the transport catches. -/
inductive NetworkError
  | timeout
  | addressInfo
  | tls
  | disconnected
  | other
deriving DecidableEq

/-- `_network_failure`. -/
def networkFailure (e : NetworkError) (afterSubmit : Bool) : AdapterFailure where
  category :=
    match e with
    | .timeout => .timeout
    | .addressInfo => .dnsFailure
    | .tls => .tlsFailure
    | .disconnected => if afterSubmit then .disconnected else .connectFailure
    | .other => .connectFailure
  resultClass := if afterSubmit then "post_submit_unknown" else "not_submitted"
  afterSubmit := afterSubmit

/-- What the clock and the connection do during one exchange. -/
structure Exchange where
  clock : ℕ → ℤ
  connect : Except NetworkError Unit
  sock : Bool
  request : Except NetworkError Unit
  response : Except NetworkError (ℕ × String)
  read1 : ℕ → ℕ → Except NetworkError (List UInt8)

structure HttpJsonSettings where
  totalTimeout : ℤ
  maximumRequestBytes : ℕ
  maximumResponseBytes : ℕ

/-- How often the clock was read, and whether the request was handed to the
    connection. -/
structure PostState where
  clockReads : ℕ
  submitted : Bool
deriving DecidableEq

abbrev Posting (α : Type) := Process PostState AdapterFailure α

/-- What the transport returns. -/
structure RawResponse where
  status : ℕ
  contentType : String
  body : List UInt8

namespace HttpJsonTransport

section Post

variable (settings : HttpJsonSettings) (x : Exchange)

/-- `time.monotonic()`. -/
def monotonic : Posting ℤ :=
  fun s => (.ok (x.clock s.clockReads), { s with clockReads := s.clockReads + 1 })

/-- `if not c: raise failure`. -/
def check (c : Prop) [Decidable c] (failure : AdapterFailure) : Posting Unit :=
  Process.lift (ensure c failure)

/-- A call of the connection, whose exceptions are translated. -/
def call {α : Type} (answer : Except NetworkError α) (afterSubmit : Bool) : Posting α :=
  match answer with
  | .ok a => pure a
  | .error e => Process.raise (networkFailure e afterSubmit)

/-- The request is handed to the connection. -/
def handOver : Posting Unit := fun s => (.ok (), { s with submitted := true })

/-- `remaining_timeout`. -/
def remainingTimeout (deadline : ℤ) : Posting Unit := do
  let now ← monotonic x
  check (now < deadline) ⟨.timeout, "total_deadline_exceeded", true⟩

/-- `remaining_timeout` where the connection keeps a socket. -/
def socketTimeout (deadline : ℤ) : Posting Unit :=
  if x.sock then remainingTimeout x deadline else pure ()

/-- The loop over the chunks of the body, of which `remaining` bytes may still come. A
    chunk is empty at the end only, so there are never more reads than bytes. -/
def readBody (deadline : ℤ) : ℕ → ℕ → ℕ → Posting (List UInt8)
  | 0, _, _ => pure []
  | fuel + 1, remaining, n =>
    if remaining = 0 then pure []
    else do
      remainingTimeout x deadline
      let bytes ← call (x.read1 n (min 8192 remaining)) true
      let chunk := bytes.take (min 8192 remaining)
      if chunk = [] then pure []
      else do
        let rest ← readBody deadline fuel (remaining - chunk.length) (n + 1)
        pure (chunk ++ rest)

/-- The answer of the provider, once the request is under way. -/
def receiveRaw (deadline : ℤ) : Posting RawResponse := do
  let (status, contentType) ← call x.response true
  check (¬(300 ≤ status ∧ status ≤ 399)) ⟨.redirectRefused, "redirect_refused", true⟩
  if status ≠ 200 then pure ⟨status, contentType, []⟩
  else do
    let limit := settings.maximumResponseBytes + 1
    let body ← readBody x deadline limit limit 0
    check (body.length ≤ settings.maximumResponseBytes)
      ⟨.oversizedResponse, "response_refused", true⟩
    pure ⟨status, contentType, body⟩

/-- `post`; there is no body when `canonical_json` cannot encode the document. -/
def post (body : Option (List UInt8)) : Posting RawResponse := do
  let body ← Process.lift (orInvalid body ⟨.invalidResponse, "non_json_value", false⟩)
  check (body.length ≤ settings.maximumRequestBytes) ⟨.oversizedRequest, "request_refused", false⟩
  let started ← monotonic x
  let deadline := started + settings.totalTimeout
  let _ ← monotonic x
  call x.connect false
  let now ← monotonic x
  check (now < deadline) ⟨.timeout, "not_submitted", false⟩
  socketTimeout x deadline
  handOver
  call x.request true
  socketTimeout x deadline
  receiveRaw settings x deadline

end Post

end HttpJsonTransport

-- ════════════════════════════════════════════════════════════════════════
-- Answers
-- ════════════════════════════════════════════════════════════════════════

/-- `ChannelOutcomeKind(value)`. -/
def ChannelOutcomeKind.ofValue? (value : PyString) : Option ChannelOutcomeKind :=
  [.succeeded, .knownNotExecuted, .retryableFailure, .permanentFailure, .ambiguous].find?
    fun kind => decide (PyString.ofString kind.value = value)

/-- `ReconciliationKind(value)`. -/
def ReconciliationKind.ofValue? (value : PyString) : Option ReconciliationKind :=
  [.confirmedApplied, .confirmedAbsent, .stillUnknown].find?
    fun kind => decide (PyString.ofString kind.value = value)

/-- `_CLASSIFICATION_BY_RESULT`, of the results of a dispatch. -/
def ChannelOutcomeKind.classification : ChannelOutcomeKind → String
  | .succeeded => "applied"
  | .knownNotExecuted => "not_executed"
  | .retryableFailure => "retryable"
  | .permanentFailure => "permanent"
  | .ambiguous => "unknown"

/-- `_CLASSIFICATION_BY_RESULT`, of the results of a reconciliation. -/
def ReconciliationKind.classification : ReconciliationKind → String
  | .confirmedApplied => "applied"
  | .confirmedAbsent => "absent"
  | .stillUnknown => "unknown"

/-- `parse_json_object`, of a body that `json.loads` has parsed. -/
def parseJsonObject (body : Option WireJson) : Except AdapterFailure (List (PyString × WireJson)) :=
  match body with
  | none => .error ⟨.invalidResponse, "invalid_json", false⟩
  | some (.object entries) => .ok entries
  | some _ => .error ⟨.invalidResponse, "non_object_json", false⟩

/-- A failure of the answer is one after the request was submitted. -/
def afterSubmission {α : Type} : Except AdapterFailure α → Except AdapterFailure α
  | .ok a => .ok a
  | .error failure => .error { failure with afterSubmit := true }

/-- `_strict_response`, for one of the two vocabularies of results. -/
def strictResponse {κ : Type} (ofValue? : PyString → Option κ) (classification : κ → String)
    (contentType : String) (body : Option WireJson) : Except AdapterFailure κ := do
  ensure (isJsonContentType contentType) ⟨.invalidResponse, "invalid_content_type", true⟩
  let response ← afterSubmission (parseJsonObject body)
  ensure (hasFields response ["protocol_version", "result_kind", "result"] ∧
      (getField response "protocol_version").str? = some (.ofString "dc-http-json-v1"))
    ⟨.invalidResponse, "response_fields", true⟩
  let resultKind ← orInvalid (getField response "result_kind").str?
    ⟨.invalidResponse, "result_shape", true⟩
  let result ← orInvalid (getField response "result").object?
    ⟨.invalidResponse, "result_shape", true⟩
  ensure (hasFields result ["classification"]) ⟨.authorityInjection, "result_fields", true⟩
  let text ← orInvalid (getField result "classification").str?
    ⟨.invalidResponse, "classification", true⟩
  let kind ← orInvalid (ofValue? resultKind) ⟨.invalidResponse, "unknown_result", true⟩
  ensure (text = .ofString (classification kind)) ⟨.invalidResponse, "classification", true⟩
  pure kind

-- ════════════════════════════════════════════════════════════════════════
-- The channel
-- ════════════════════════════════════════════════════════════════════════

/-- The settings of a channel and what it takes from the libraries: the encoded request
    documents, the parsed answers and the digests. -/
structure ChannelPorts where
  settings : HttpJsonSettings
  effectDocument : ChannelEffect → Option (List UInt8)
  reconciliationDocument : StableId → String → Option (List UInt8)
  parse : List UInt8 → Option WireJson
  outcomeDigest : String → String → String → Digest
  safeDigest : AdapterFailureCategory → String → Digest

theorem projection_sorted : List.Pairwise (· < ·)
    ["adapter", "classification", "protocol_version", "result"] := by decide

/-- `_projection`. -/
def channelProjection (kind classification : String) : FrozenJsonObject where
  entries :=
    [("adapter", .str "http_json_v1"), ("classification", .str classification),
      ("protocol_version", .str "dc-http-json-v1"), ("result", .str kind)]
  sorted := projection_sorted

/-- The kind of the outcome of a failure. -/
def AdapterFailure.outcomeKind (failure : AdapterFailure) : ChannelOutcomeKind :=
  if failure.afterSubmit = true ∧ failure.category ≠ .unauthorized then .ambiguous
  else if failure.category ∈ [.connectFailure, .dnsFailure, .rateLimited, .serverFailure,
      .tlsFailure] then .retryableFailure
  else .permanentFailure

/-- `_failure_outcome`. -/
def failureOutcome (ports : ChannelPorts) (failure : AdapterFailure) : ChannelOutcome where
  kind := failure.outcomeKind
  safeProjection := channelProjection failure.outcomeKind.value failure.category.value
  resultDigest := ports.safeDigest failure.category failure.resultClass

/-- A channel object; `submissions` are the requests that it handed to the network,
    under their idempotency key and with the digest they were bound to. -/
structure HttpJsonChannel where
  bindings : StableId → Option String
  callCount : ℕ
  reconciliationCount : ℕ
  submissions : List (StableId × String)

namespace HttpJsonChannel

def initial : HttpJsonChannel := ⟨fun _ => none, 0, 0, []⟩

/-- The key is bound, and the exchange may hand its request to the network. -/
def exchanged (c : HttpJsonChannel) (key : StableId) (binding : String) (submitted : Bool) :
    HttpJsonChannel :=
  { c with
    bindings := Function.update c.bindings key (some binding)
    submissions := c.submissions ++ if submitted then [(key, binding)] else [] }

/-- The answer to an exchange that returned; other statuses are failures. -/
def answer {κ : Type} (ports : ChannelPorts) (ofValue? : PyString → Option κ)
    (classification : κ → String) (response : RawResponse) : Except AdapterFailure κ := do
  ensure (response.status = 200) (responseFailure response.status)
  strictResponse ofValue? classification response.contentType (ports.parse response.body)

/-- One exchange with its answer, and whether the request was handed over. -/
def exchange {κ : Type} (ports : ChannelPorts) (x : Exchange) (ofValue? : PyString → Option κ)
    (classification : κ → String) (document : Option (List UInt8)) :
    Except AdapterFailure κ × Bool :=
  let (raw, state) := HttpJsonTransport.post ports.settings x document ⟨0, false⟩
  (raw >>= answer ports ofValue? classification, state.submitted)

/-- What the provider answered to a dispatch, in the exchange `x`. -/
def dispatched (ports : ChannelPorts) (x : Exchange) (effect : ChannelEffect) :
    Except AdapterFailure ChannelOutcomeKind × Bool :=
  exchange ports x ChannelOutcomeKind.ofValue? ChannelOutcomeKind.classification
    (ports.effectDocument effect)

/-- What the provider answered to a reconciliation, in the exchange `x`. -/
def reconciled (ports : ChannelPorts) (x : Exchange) (key : StableId) (binding : String) :
    Except AdapterFailure ReconciliationKind × Bool :=
  exchange ports x ReconciliationKind.ofValue? ReconciliationKind.classification
    (ports.reconciliationDocument key binding)

/-- An answer that promises a retry is taken as unknown. -/
def settledKind : ChannelOutcomeKind → ChannelOutcomeKind
  | .retryableFailure => .ambiguous
  | kind => kind

/-- The outcome of an answer. -/
def settledOutcome (ports : ChannelPorts) (binding : String) (kind : ChannelOutcomeKind) :
    ChannelOutcome :=
  let kind := settledKind kind
  ⟨kind, channelProjection kind.value kind.classification,
    ports.outcomeDigest binding kind.classification kind.value⟩

/-- The effect is bound as its attempt and its proposal say. -/
def Bound (effect : ChannelEffect) : Prop :=
  effect.effectIdempotencyKey = effect.proposal.constraints.idempotencyKey ∧
    effect.attempt.proposalId = effect.proposal.proposalId ∧
    effect.attempt.proposalRevision = effect.proposal.revision ∧
    effect.attempt.state = .started

instance (effect : ChannelEffect) : Decidable (Bound effect) := by
  unfold Bound
  infer_instance

/-- `apply`. -/
def apply (ports : ChannelPorts) (x : Exchange) (c : HttpJsonChannel) (effect : ChannelEffect) :
    ChannelOutcome × HttpJsonChannel :=
  let c := { c with callCount := c.callCount + 1 }
  let key := effect.effectIdempotencyKey
  let binding := effect.proposal.proposalDigest.text
  if ¬Bound effect then
    (failureOutcome ports ⟨.authorityInjection, "effect_binding_refused", false⟩, c)
  else if (c.bindings key).any fun existing => existing ≠ binding then
    (failureOutcome ports ⟨.authorityInjection, "idempotency_rebinding", false⟩, c)
  else
    let (answer, submitted) := dispatched ports x effect
    let c := c.exchanged key binding submitted
    match answer with
    | .ok kind => (settledOutcome ports binding kind, c)
    | .error failure => (failureOutcome ports failure, c)

/-- An outcome that leaves the effect unknown. -/
def stillUnknown (ports : ChannelPorts) (failure : AdapterFailure) (classification : String) :
    ReconciliationOutcome where
  kind := .stillUnknown
  safeProjection := channelProjection ReconciliationKind.stillUnknown.value classification
  resultDigest := ports.safeDigest failure.category failure.resultClass

/-- The text of a binding digest. -/
def isBindingDigest (text : String) : Bool := text.startsWith "sha256:" && text.length == 71

/-- `reconcile`. -/
def reconcile (ports : ChannelPorts) (x : Exchange) (c : HttpJsonChannel) (key : StableId)
    (bindingDigest : Option String) : ReconciliationOutcome × HttpJsonChannel :=
  let c := { c with reconciliationCount := c.reconciliationCount + 1 }
  match bindingDigest.filter isBindingDigest with
  | none =>
    (stillUnknown ports ⟨.invalidResponse, "binding_unavailable_after_restart", false⟩
      "binding_unavailable_after_restart", c)
  | some binding =>
    if (c.bindings key).any fun existing => existing ≠ binding then
      (stillUnknown ports ⟨.authorityInjection, "idempotency_rebinding", false⟩
        "idempotency_rebinding", c)
    else
      let (answer, submitted) := reconciled ports x key binding
      let c := c.exchanged key binding submitted
      match answer with
      | .ok kind =>
        (⟨kind, channelProjection kind.value kind.classification,
          ports.outcomeDigest binding kind.classification kind.value⟩, c)
      | .error failure => (stillUnknown ports failure failure.category.value, c)

end HttpJsonChannel

-- ════════════════════════════════════════════════════════════════════════
-- What an exchange ends with
-- ════════════════════════════════════════════════════════════════════════

namespace HttpJsonTransport

variable {α β : Type} {b : Bool} {s : PostState}

/-- The request was handed over or not, as `b` says; if it was, every failure says so,
    and no failure of the transport is one of authorization. -/
structure Safe (b : Bool) (r : Except AdapterFailure α) (t : PostState) : Prop where
  submitted : t.submitted = b
  afterSubmit : ∀ failure, r = .error failure → b = true → failure.afterSubmit = true
  category : ∀ failure, r = .error failure → failure.category ≠ .unauthorized

theorem safe_ok {a : α} {t : PostState} (h : t.submitted = b) :
    Safe b (.ok a : Except AdapterFailure α) t :=
  ⟨h, fun _ he => by simp at he, fun _ he => by simp at he⟩

theorem safe_error {failure : AdapterFailure} {t : PostState} (h : t.submitted = b)
    (hafter : b = true → failure.afterSubmit = true)
    (hcategory : failure.category ≠ .unauthorized) :
    Safe b (.error failure : Except AdapterFailure α) t := by
  refine ⟨h, fun f he => ?_, fun f he => ?_⟩
  · obtain rfl := Except.error.inj he
    exact hafter
  · obtain rfl := Except.error.inj he
    exact hcategory

theorem safe_bind {x : Posting α} {f : α → Posting β} (hx : x.Wp s (Safe b))
    (hf : ∀ a t, t.submitted = b → (f a).Wp t (Safe b)) : (x >>= f).Wp s (Safe b) := by
  refine hx.bind (fun a t ha => hf a t ha.submitted) fun e t he => ?_
  exact safe_error he.submitted (he.afterSubmit e rfl) (he.category e rfl)

theorem safe_monotonic {x : Exchange} (h : s.submitted = b) : (monotonic x).Wp s (Safe b) :=
  safe_ok (t := { s with clockReads := s.clockReads + 1 }) h

theorem safe_check {c : Prop} [Decidable c] {failure : AdapterFailure} (h : s.submitted = b)
    (hafter : b = true → failure.afterSubmit = true)
    (hcategory : failure.category ≠ .unauthorized) :
    (check c failure).Wp s (Safe b) := by
  refine Process.wp_lift ?_
  unfold ensure
  split
  · exact safe_ok h
  · exact safe_error h hafter hcategory

theorem networkFailure_category (e : NetworkError) (afterSubmit : Bool) :
    (networkFailure e afterSubmit).category ≠ .unauthorized := by
  cases e <;> cases afterSubmit <;> simp [networkFailure]

theorem safe_call {answer : Except NetworkError α} {afterSubmit : Bool} (h : s.submitted = b)
    (hafter : b = true → afterSubmit = true) : (call answer afterSubmit).Wp s (Safe b) := by
  unfold call
  split
  · exact Process.wp_pure (safe_ok h)
  · exact Process.wp_raise (safe_error h hafter (networkFailure_category _ _))

theorem safe_remainingTimeout {x : Exchange} {deadline : ℤ} (h : s.submitted = b) :
    (remainingTimeout x deadline).Wp s (Safe b) :=
  safe_bind (safe_monotonic h) fun _ _ ht => safe_check ht (fun _ => rfl) (by simp)

theorem safe_socketTimeout {x : Exchange} {deadline : ℤ} (h : s.submitted = b) :
    (socketTimeout x deadline).Wp s (Safe b) := by
  unfold socketTimeout
  split
  · exact safe_remainingTimeout h
  · exact Process.wp_pure (safe_ok h)

theorem safe_readBody {x : Exchange} {deadline : ℤ} (h : s.submitted = b) :
    ∀ fuel remaining n, (readBody x deadline fuel remaining n).Wp s (Safe b) := by
  intro fuel
  induction fuel generalizing s with
  | zero => exact fun _ _ => Process.wp_pure (safe_ok h)
  | succ fuel ih =>
    intro remaining n
    unfold readBody
    split
    · exact Process.wp_pure (safe_ok h)
    · refine safe_bind (safe_remainingTimeout h) fun _ t ht => ?_
      refine safe_bind (safe_call ht fun _ => rfl) fun bytes u hu => ?_
      dsimp only
      split
      · exact Process.wp_pure (safe_ok hu)
      · exact safe_bind (ih hu _ _) fun _ _ hv => Process.wp_pure (safe_ok hv)

theorem safe_receiveRaw {settings : HttpJsonSettings} {x : Exchange} {deadline : ℤ}
    (h : s.submitted = b) : (receiveRaw settings x deadline).Wp s (Safe b) := by
  refine safe_bind (safe_call h fun _ => rfl) fun answer t ht => ?_
  refine safe_bind (safe_check ht (fun _ => rfl) (by simp)) fun _ u hu => ?_
  split
  · exact Process.wp_pure (safe_ok hu)
  · refine safe_bind (safe_readBody hu _ _ _) fun body v hv => ?_
    exact safe_bind (safe_check hv (fun _ => rfl) (by simp)) fun _ _ hw =>
      Process.wp_pure (safe_ok hw)

/-- How an exchange ends: with a request that was handed over, or with a failure before
    that. -/
def Posted (r : Except AdapterFailure α) (t : PostState) : Prop :=
  Safe true r t ∨ Safe false r t ∧ ∃ failure, r = .error failure

theorem posted_bind {x : Posting α} {f : α → Posting β} (hx : x.Wp s (Safe false))
    (hf : ∀ a t, t.submitted = false → (f a).Wp t Posted) : (x >>= f).Wp s Posted := by
  refine hx.bind (fun a t ha => hf a t ha.submitted) fun e t he => .inr ⟨?_, e, rfl⟩
  exact safe_error he.submitted (he.afterSubmit e rfl) (he.category e rfl)

theorem posted_post (settings : HttpJsonSettings) (x : Exchange) (body : Option (List UInt8)) :
    (post settings x body).Wp ⟨0, false⟩ Posted := by
  have hbody : (Process.lift (orInvalid body ⟨.invalidResponse, "non_json_value", false⟩) :
      Posting (List UInt8)).Wp ⟨0, false⟩ (Safe false) := by
    cases body with
    | none => exact safe_error rfl (by simp) (by simp)
    | some bytes => exact safe_ok rfl
  refine posted_bind hbody fun bytes s hs => ?_
  refine posted_bind (safe_check hs (by simp) (by simp)) fun _ s hs => ?_
  refine posted_bind (safe_monotonic hs) fun started s hs => ?_
  refine posted_bind (safe_monotonic hs) fun _ s hs => ?_
  refine posted_bind (safe_call hs (by simp)) fun _ s hs => ?_
  refine posted_bind (safe_monotonic hs) fun now s hs => ?_
  refine posted_bind (safe_check hs (by simp) (by simp)) fun _ s hs => ?_
  refine posted_bind (safe_socketTimeout hs) fun _ s hs => ?_
  -- from here on the request is handed over
  have hsent : (handOver >>= fun _ => call x.request true >>= fun _ =>
      socketTimeout x (started + settings.totalTimeout) >>= fun _ =>
        receiveRaw settings x (started + settings.totalTimeout)).Wp s (Safe true) := by
    refine Process.Wp.bind (Q := Safe true) (safe_ok rfl) (fun _ t ht => ?_) fun e t he => ?_
    · refine safe_bind (safe_call ht.submitted fun _ => rfl) fun _ t ht => ?_
      exact safe_bind (safe_socketTimeout ht) fun _ t ht => safe_receiveRaw ht
    · exact safe_error he.submitted (he.afterSubmit e rfl) (he.category e rfl)
  exact hsent.mono fun _ _ h => .inl h

end HttpJsonTransport

-- ════════════════════════════════════════════════════════════════════════
-- Strict answers
-- ════════════════════════════════════════════════════════════════════════

section Strict

variable {α β κ : Type}

/-- What `strictResponse` asks of a parsed body. -/
structure StrictDocument (value classification : κ → String) (kind : κ)
    (response result : List (PyString × WireJson)) : Prop where
  fields : hasFields response ["protocol_version", "result_kind", "result"] = true
  protocol : getField response "protocol_version" = .str (.ofString "dc-http-json-v1")
  resultKind : getField response "result_kind" = .str (.ofString (value kind))
  resultObject : getField response "result" = .object result
  resultFields : hasFields result ["classification"] = true
  classified : getField result "classification" = .str (.ofString (classification kind))

/-- A body that says exactly one result. -/
def SaysStrictly (value classification : κ → String) (kind : κ) (body : Option WireJson) : Prop :=
  ∃ response result, body = some (.object response) ∧
    StrictDocument value classification kind response result

theorem afterSubmission_eq_ok {r : Except AdapterFailure α} {a : α} :
    afterSubmission r = .ok a ↔ r = .ok a := by
  cases r <;> simp [afterSubmission]

theorem parseJsonObject_eq_ok {body : Option WireJson} {entries : List (PyString × WireJson)} :
    parseJsonObject body = .ok entries ↔ body = some (.object entries) := by
  unfold parseJsonObject
  split <;> simp_all

theorem strictResponse_eq_ok {ofValue? : PyString → Option κ} {value classification : κ → String}
    (hvalue : ∀ text kind, ofValue? text = some kind ↔ text = .ofString (value kind))
    {contentType : String} {body : Option WireJson} {kind : κ} :
    strictResponse ofValue? classification contentType body = .ok kind ↔
      isJsonContentType contentType = true ∧ SaysStrictly value classification kind body := by
  simp only [strictResponse, exceptBind_eq_ok, ensure_eq_ok, afterSubmission_eq_ok,
    parseJsonObject_eq_ok, orInvalid_eq_ok, exceptPure_eq_ok, WireJson.str?_eq_some,
    WireJson.object?_eq_some, hvalue, exists_const]
  constructor
  · rintro ⟨hjson, response, rfl, ⟨hfields, hprotocol⟩, _, hkind, result, hresult, hresultFields,
      text, htext, _, rfl, htexts, rfl⟩
    subst htexts
    exact ⟨hjson, response, result, rfl, hfields, hprotocol, hkind, hresult, hresultFields, htext⟩
  · rintro ⟨hjson, response, result, rfl, h⟩
    exact ⟨hjson, response, rfl, ⟨h.fields, h.protocol⟩, _, h.resultKind, result, h.resultObject,
      h.resultFields, _, h.classified, kind, rfl, rfl, rfl⟩

/-- A failure of an answer: the request was submitted, and it was not refused for its
    authorization. -/
def Late (r : Except AdapterFailure α) : Prop :=
  ∀ failure, r = .error failure → failure.afterSubmit = true ∧ failure.category ≠ .unauthorized

theorem late_bind {r : Except AdapterFailure α} {f : α → Except AdapterFailure β} (hr : Late r)
    (hf : ∀ a, r = .ok a → Late (f a)) : Late (r >>= f) := by
  intro failure h
  cases r with
  | ok a => exact hf a rfl failure h
  | error e =>
    obtain rfl := Except.error.inj h
    exact hr e rfl

theorem late_ensure {c : Prop} [Decidable c] {failure : AdapterFailure}
    (hafter : failure.afterSubmit = true) (hcategory : failure.category ≠ .unauthorized) :
    Late (ensure c failure) := by
  intro f h
  unfold ensure at h
  split at h
  · simp at h
  · obtain rfl := Except.error.inj h
    exact ⟨hafter, hcategory⟩

theorem late_orInvalid {o : Option α} {failure : AdapterFailure}
    (hafter : failure.afterSubmit = true) (hcategory : failure.category ≠ .unauthorized) :
    Late (orInvalid o failure) := by
  intro f h
  cases o with
  | none =>
    obtain rfl := Except.error.inj h
    exact ⟨hafter, hcategory⟩
  | some a => simp [orInvalid] at h

theorem late_parseJsonObject (body : Option WireJson) :
    Late (afterSubmission (parseJsonObject body)) := by
  intro f h
  unfold parseJsonObject at h
  split at h
  · obtain rfl := Except.error.inj h
    exact ⟨rfl, by simp⟩
  · simp [afterSubmission] at h
  · obtain rfl := Except.error.inj h
    exact ⟨rfl, by simp⟩

theorem late_strictResponse (ofValue? : PyString → Option κ) (classification : κ → String)
    (contentType : String) (body : Option WireJson) :
    Late (strictResponse ofValue? classification contentType body) := by
  refine late_bind (late_ensure rfl (by simp)) fun _ _ => ?_
  refine late_bind (late_parseJsonObject body) fun _ _ => ?_
  refine late_bind (late_ensure rfl (by simp)) fun _ _ => ?_
  refine late_bind (late_orInvalid rfl (by simp)) fun _ _ => ?_
  refine late_bind (late_orInvalid rfl (by simp)) fun _ _ => ?_
  refine late_bind (late_ensure rfl (by simp)) fun _ _ => ?_
  refine late_bind (late_orInvalid rfl (by simp)) fun _ _ => ?_
  refine late_bind (late_orInvalid rfl (by simp)) fun _ _ => ?_
  refine late_bind (late_ensure rfl (by simp)) fun kind _ => ?_
  intro f h
  simp [pure, Except.pure] at h

theorem ChannelOutcomeKind.ofValue?_eq_some {text : PyString} {kind : ChannelOutcomeKind} :
    ofValue? text = some kind ↔ text = .ofString kind.value := by
  constructor
  · intro h
    unfold ofValue? at h
    have hkind := List.find?_some h
    exact (of_decide_eq_true hkind).symm
  · rintro rfl
    cases kind <;> simp [ofValue?, List.find?, PyString.ofString_injective.eq_iff, value]

theorem ReconciliationKind.ofValue?_eq_some {text : PyString} {kind : ReconciliationKind} :
    ofValue? text = some kind ↔ text = .ofString kind.value := by
  constructor
  · intro h
    unfold ofValue? at h
    have hkind := List.find?_some h
    exact (of_decide_eq_true hkind).symm
  · rintro rfl
    cases kind <;> simp [ofValue?, List.find?, PyString.ofString_injective.eq_iff, value]

end Strict

-- ════════════════════════════════════════════════════════════════════════
-- What an exchange establishes
-- ════════════════════════════════════════════════════════════════════════

/-- A request was handed over, and its answer was received within the bounds. -/
structure Received (settings : HttpJsonSettings) (x : Exchange) (response : RawResponse) :
    Prop where
  connect : x.connect = .ok ()
  request : x.request = .ok ()
  answered : x.response = .ok (response.status, response.contentType)
  bounded : response.body.length ≤ settings.maximumResponseBytes

/-- The provider refused the request for its authorization. -/
def Refused (x : Exchange) : Prop :=
  ∃ status contentType, x.response = .ok (status, contentType) ∧ (status = 401 ∨ status = 403)

/-- The provider answered with a body that says exactly `kind`. -/
def AnsweredStrictly {κ : Type} (ports : ChannelPorts) (x : Exchange)
    (value classification : κ → String) (kind : κ) : Prop :=
  ∃ response, Received ports.settings x response ∧ response.status = 200 ∧
    isJsonContentType response.contentType = true ∧
    SaysStrictly value classification kind (ports.parse response.body)

namespace HttpJsonTransport

variable {α : Type} {s t : PostState}

theorem call_eq_ok {answer : Except NetworkError α} {afterSubmit : Bool} {a : α} :
    call answer afterSubmit s = (.ok a, t) ↔ answer = .ok a ∧ s = t := by
  unfold call
  split <;> simp

theorem check_eq_ok {c : Prop} [Decidable c] {failure : AdapterFailure} {u : Unit} :
    check c failure s = (.ok u, t) ↔ c ∧ s = t := by
  simp [check, Prod.ext_iff]

theorem receiveRaw_eq_ok {settings : HttpJsonSettings} {x : Exchange} {deadline : ℤ}
    {response : RawResponse} (h : receiveRaw settings x deadline s = (.ok response, t)) :
    x.response = .ok (response.status, response.contentType) ∧
      response.body.length ≤ settings.maximumResponseBytes := by
  simp only [receiveRaw, Process.bind_eq_ok, call_eq_ok, check_eq_ok] at h
  obtain ⟨⟨status, contentType⟩, _, ⟨hresponse, _⟩, _, _, _, h⟩ := h
  split at h
  · obtain ⟨h, _⟩ := Prod.mk.inj h
    obtain rfl := Except.ok.inj h
    exact ⟨hresponse, Nat.zero_le _⟩
  · simp only [Process.bind_eq_ok, check_eq_ok] at h
    obtain ⟨body, _, _, _, _, ⟨hbody, _⟩, h⟩ := h
    obtain ⟨h, _⟩ := Prod.mk.inj h
    obtain rfl := Except.ok.inj h
    exact ⟨hresponse, hbody⟩

theorem post_eq_ok {settings : HttpJsonSettings} {x : Exchange} {body : Option (List UInt8)}
    {response : RawResponse} (h : post settings x body s = (.ok response, t)) :
    Received settings x response := by
  simp only [post, Process.bind_eq_ok, call_eq_ok, check_eq_ok] at h
  obtain ⟨_, _, _, _, _, _, _, _, _, _, _, _, _, _, ⟨hconnect, _⟩, _, _, _, _, _, _, _, _, _, _, _,
    _, _, _, ⟨hrequest, _⟩, _, _, _, h⟩ := h
  obtain ⟨hanswered, hbounded⟩ := receiveRaw_eq_ok h
  exact ⟨hconnect, hrequest, hanswered, hbounded⟩

end HttpJsonTransport

theorem late_responseFailure {status : ℕ} (h : ¬(status = 401 ∨ status = 403)) :
    (responseFailure status).category ≠ .unauthorized := by
  unfold responseFailure
  rw [if_neg h]
  split
  · simp
  · split <;> simp

theorem afterSubmit_responseFailure (status : ℕ) : (responseFailure status).afterSubmit = true := by
  unfold responseFailure
  split
  · rfl
  · split
    · rfl
    · split <;> rfl

namespace HttpJsonChannel

section Exchange

variable {κ : Type} {ports : ChannelPorts} {x : Exchange} {ofValue? : PyString → Option κ}
  {value classification : κ → String} {document : Option (List UInt8)} {submitted : Bool}

/-- An exchange that returns a result was handed over and answered with it. -/
theorem exchange_ok
    (hvalue : ∀ text kind, ofValue? text = some kind ↔ text = .ofString (value kind))
    {kind : κ} (h : exchange ports x ofValue? classification document = (.ok kind, submitted)) :
    submitted = true ∧ AnsweredStrictly ports x value classification kind := by
  have hposted := HttpJsonTransport.posted_post ports.settings x document
  unfold exchange at h
  unfold Process.Wp at hposted
  split at h
  rename_i raw state heq
  rw [heq] at hposted
  obtain ⟨h, hsubmitted⟩ := Prod.mk.inj h
  obtain ⟨response, rfl, hanswer⟩ := exceptBind_eq_ok.mp h
  simp only [answer, exceptBind_eq_ok, ensure_eq_ok, exists_const] at hanswer
  obtain ⟨hstatus, hstrict⟩ := hanswer
  obtain ⟨hjson, hsays⟩ := (strictResponse_eq_ok hvalue).mp hstrict
  have hreceived := HttpJsonTransport.post_eq_ok heq
  refine ⟨?_, response, hreceived, hstatus, hjson, hsays⟩
  rcases hposted with hsafe | ⟨_, failure, hfailure⟩
  · exact hsubmitted ▸ hsafe.submitted
  · simp at hfailure

/-- An exchange that fails with a request that was handed over says so, and it names
    the authorization only when the provider did. -/
theorem exchange_error {failure : AdapterFailure}
    (h : exchange ports x ofValue? classification document = (.error failure, submitted))
    (hsubmitted : submitted = true) :
    failure.afterSubmit = true ∧ (failure.category = .unauthorized → Refused x) := by
  have hposted := HttpJsonTransport.posted_post ports.settings x document
  unfold exchange at h
  unfold Process.Wp at hposted
  split at h
  rename_i raw state heq
  rw [heq] at hposted
  obtain ⟨h, hstate⟩ := Prod.mk.inj h
  have hsafe : HttpJsonTransport.Safe true raw state := by
    rcases hposted with hsafe | ⟨hsafe, _⟩
    · exact hsafe
    · have hfalse := hsafe.submitted.symm.trans (hstate.trans hsubmitted)
      simp at hfalse
  cases raw with
  | error e =>
    obtain rfl := Except.error.inj h
    exact ⟨hsafe.afterSubmit e rfl rfl, fun hcategory => absurd hcategory (hsafe.category e rfl)⟩
  | ok response =>
    have hreceived := HttpJsonTransport.post_eq_ok heq
    by_cases hstatus : response.status = 200
    · have hanswer : strictResponse ofValue? classification response.contentType
          (ports.parse response.body) = .error failure := by
        simpa [answer, bind, Except.bind, ensure, hstatus] using h
      obtain ⟨hafter, hcategory⟩ := late_strictResponse _ _ _ _ failure hanswer
      exact ⟨hafter, fun h => absurd h hcategory⟩
    · have hfailure : responseFailure response.status = failure := by
        simpa [answer, bind, Except.bind, ensure, hstatus] using h
      subst hfailure
      refine ⟨afterSubmit_responseFailure _, fun hcategory => ?_⟩
      by_contra hrefused
      exact late_responseFailure
        (fun hcodes => hrefused ⟨_, _, hreceived.answered, hcodes⟩) hcategory

end Exchange

-- ════════════════════════════════════════════════════════════════════════
-- Outcomes
-- ════════════════════════════════════════════════════════════════════════

variable {ports : ChannelPorts} {x : Exchange} {c : HttpJsonChannel}

/-- The key is not bound to anything else. -/
def Binds (c : HttpJsonChannel) (key : StableId) (binding : String) : Prop :=
  ∀ existing, c.bindings key = some existing → existing = binding

theorem any_ne_eq_true {binding : String} {o : Option String} :
    (o.any fun existing => existing ≠ binding) = true ↔ ∃ existing, o = some existing ∧
      existing ≠ binding := by
  cases o <;> simp

/-- An effect is refused before any exchange, or it is bound and exchanged. -/
theorem apply_cases (ports : ChannelPorts) (x : Exchange) (c : HttpJsonChannel)
    (effect : ChannelEffect) :
    ((apply ports x c effect).1.kind = .permanentFailure ∧
      (apply ports x c effect).2 = { c with callCount := c.callCount + 1 }) ∨
    ∃ answer submitted, dispatched ports x effect = (answer, submitted) ∧
      c.Binds effect.effectIdempotencyKey effect.proposal.proposalDigest.text ∧
      (apply ports x c effect).2 = { c with callCount := c.callCount + 1 }.exchanged
        effect.effectIdempotencyKey effect.proposal.proposalDigest.text submitted ∧
      (apply ports x c effect).1.kind = match answer with
        | .ok kind => settledKind kind
        | .error failure => failure.outcomeKind := by
  unfold apply
  dsimp only
  split
  · exact .inl ⟨rfl, rfl⟩
  · split
    · exact .inl ⟨rfl, rfl⟩
    · rename_i hrebound
      refine .inr ⟨(dispatched ports x effect).1, (dispatched ports x effect).2, rfl, ?_, ?_, ?_⟩
      · intro existing hexisting
        by_contra hne
        exact hrebound (any_ne_eq_true.mpr ⟨existing, hexisting, hne⟩)
      · split <;> rfl
      · split <;> simp [settledOutcome, failureOutcome, *]

/-- A reconciliation is refused before any exchange, or its key is bound and asked for. -/
theorem reconcile_cases (ports : ChannelPorts) (x : Exchange) (c : HttpJsonChannel)
    (key : StableId) (bindingDigest : Option String) :
    ((reconcile ports x c key bindingDigest).1.kind = .stillUnknown ∧
      (reconcile ports x c key bindingDigest).2 =
        { c with reconciliationCount := c.reconciliationCount + 1 }) ∨
    ∃ binding answer submitted, bindingDigest = some binding ∧
      reconciled ports x key binding = (answer, submitted) ∧ c.Binds key binding ∧
      (reconcile ports x c key bindingDigest).2 =
        { c with reconciliationCount := c.reconciliationCount + 1 }.exchanged key binding
          submitted ∧
      (reconcile ports x c key bindingDigest).1.kind = match answer with
        | .ok kind => kind
        | .error _ => .stillUnknown := by
  unfold reconcile
  dsimp only
  split
  · exact .inl ⟨rfl, rfl⟩
  · rename_i binding hbinding
    obtain ⟨hdigest, _⟩ := Option.filter_eq_some_iff.mp hbinding
    split
    · exact .inl ⟨rfl, rfl⟩
    · rename_i hrebound
      refine .inr ⟨binding, (reconciled ports x key binding).1, (reconciled ports x key binding).2,
        hdigest, rfl, ?_, ?_, ?_⟩
      · intro existing hexisting
        by_contra hne
        exact hrebound (any_ne_eq_true.mpr ⟨existing, hexisting, hne⟩)
      · split <;> rfl
      · split <;> simp [stillUnknown, *]

theorem outcomeKind_of_afterSubmit {failure : AdapterFailure} (h : failure.afterSubmit = true) :
    failure.outcomeKind = .ambiguous ∨
      failure.outcomeKind = .permanentFailure ∧ failure.category = .unauthorized := by
  unfold AdapterFailure.outcomeKind
  by_cases hcategory : failure.category = .unauthorized
  · exact .inr ⟨by simp [hcategory], hcategory⟩
  · exact .inl (if_pos ⟨h, hcategory⟩)

theorem outcomeKind_eq (failure : AdapterFailure) : failure.outcomeKind = .ambiguous ∨
    failure.outcomeKind = .retryableFailure ∨ failure.outcomeKind = .permanentFailure := by
  unfold AdapterFailure.outcomeKind
  split
  · exact .inl rfl
  · split
    · exact .inr (.inl rfl)
    · exact .inr (.inr rfl)

theorem ne_append_singleton {α : Type} (l : List α) (a : α) : l ≠ l ++ [a] :=
  fun h => by simpa using congrArg List.length h

/-- The provider answered a dispatch with exactly `kind`. -/
def AnsweredDispatch (ports : ChannelPorts) (x : Exchange) (kind : ChannelOutcomeKind) : Prop :=
  AnsweredStrictly ports x ChannelOutcomeKind.value ChannelOutcomeKind.classification kind

/-- The provider answered a reconciliation with exactly `kind`. -/
def AnsweredReconciliation (ports : ChannelPorts) (x : Exchange) (kind : ReconciliationKind) :
    Prop :=
  AnsweredStrictly ports x ReconciliationKind.value ReconciliationKind.classification kind

/-- The request under which an effect is submitted. -/
def requestOf (effect : ChannelEffect) : StableId × String :=
  (effect.effectIdempotencyKey, effect.proposal.proposalDigest.text)

/-- What the outcome of a dispatch rests on, where `sent` are the requests it handed over. -/
structure RestsOn (ports : ChannelPorts) (x : Exchange) (request : StableId × String)
    (sent : List (StableId × String)) (kind : ChannelOutcomeKind) : Prop where
  once : sent = [] ∨ sent = [request]
  retryable : kind = .retryableFailure → sent = []
  known : kind = .succeeded ∨ kind = .knownNotExecuted → sent = [request] ∧
    AnsweredDispatch ports x kind
  unanswered : sent ≠ [] → kind = .ambiguous ∨ AnsweredDispatch ports x kind ∨
    kind = .permanentFailure ∧ Refused x

/-- An answer gives the outcome it says, or an unknown one. -/
theorem restsOn_answer {request : StableId × String} {kind : ChannelOutcomeKind}
    (h : AnsweredDispatch ports x kind) :
    RestsOn ports x request [request] (settledKind kind) := by
  cases kind with
  | retryableFailure => exact ⟨.inr rfl, nofun, nofun, fun _ => .inl rfl⟩
  | succeeded => exact ⟨.inr rfl, nofun, fun _ => ⟨rfl, h⟩, fun _ => .inr (.inl h)⟩
  | knownNotExecuted => exact ⟨.inr rfl, nofun, fun _ => ⟨rfl, h⟩, fun _ => .inr (.inl h)⟩
  | permanentFailure => exact ⟨.inr rfl, nofun, nofun, fun _ => .inr (.inl h)⟩
  | ambiguous => exact ⟨.inr rfl, nofun, nofun, fun _ => .inl rfl⟩

/-- A failure gives no outcome that is known, and none to retry once it was sent. -/
theorem restsOn_failure {request : StableId × String} {failure : AdapterFailure} {submitted : Bool}
    (h : submitted = true → failure.afterSubmit = true ∧
      (failure.category = .unauthorized → Refused x)) :
    RestsOn ports x request (if submitted then [request] else []) failure.outcomeKind := by
  have hunknown :
      ¬(failure.outcomeKind = .succeeded ∨ failure.outcomeKind = .knownNotExecuted) := by
    rcases outcomeKind_eq failure with hk | hk | hk <;> simp [hk]
  cases submitted with
  | false =>
    exact ⟨.inl rfl, fun _ => rfl, fun hk => absurd hk hunknown, fun hsent => absurd rfl hsent⟩
  | true =>
    obtain ⟨hafter, hrefused⟩ := h rfl
    have hkind := outcomeKind_of_afterSubmit hafter
    refine ⟨.inr rfl, fun hk => ?_, fun hk => absurd hk hunknown, fun _ => ?_⟩
    · rcases hkind with hkind | ⟨hkind, _⟩
      · simp [hk] at hkind
      · simp [hk] at hkind
    · rcases hkind with hkind | ⟨hkind, hcategory⟩
      · exact .inl hkind
      · exact .inr (.inr ⟨hkind, hrefused hcategory⟩)

/-- **What a dispatch reports.** Whatever the network does: at most one request is handed
    over; a retry is asked for only if none was; a known outcome is what the provider
    said strictly; and after a request anything else is unknown, or refused. -/
theorem apply_rests_on_exchange (ports : ChannelPorts) (x : Exchange) (c : HttpJsonChannel)
    (effect : ChannelEffect) : ∃ sent,
    (apply ports x c effect).2.submissions = c.submissions ++ sent ∧
      RestsOn ports x (requestOf effect) sent (apply ports x c effect).1.kind := by
  obtain ⟨hkind, hstate⟩ | ⟨answer, submitted, hdispatched, _, hstate, hkind⟩ :=
    apply_cases ports x c effect
  · refine ⟨[], ?_, .inl rfl, fun _ => rfl, fun hk => ?_, fun h => absurd rfl h⟩
    · rw [hstate, List.append_nil]
    · rw [hkind] at hk
      simp at hk
  · refine ⟨if submitted then [requestOf effect] else [], by rw [hstate]; rfl, ?_⟩
    rw [hkind]
    cases answer with
    | ok kind =>
      obtain ⟨rfl, hanswered⟩ :=
        exchange_ok (fun _ _ => ChannelOutcomeKind.ofValue?_eq_some) hdispatched
      exact restsOn_answer hanswered
    | error failure => exact restsOn_failure (exchange_error hdispatched)

/-- **What a reconciliation reports.** An effect is confirmed as applied or absent only
    when the provider said so strictly, to a request for this key and digest. -/
theorem reconcile_rests_on_exchange (ports : ChannelPorts) (x : Exchange) (c : HttpJsonChannel)
    (key : StableId) (bindingDigest : Option String) :
    (reconcile ports x c key bindingDigest).1.kind = .stillUnknown ∨
      ∃ binding, bindingDigest = some binding ∧
        (reconcile ports x c key bindingDigest).2.submissions = c.submissions ++ [(key, binding)] ∧
        AnsweredReconciliation ports x (reconcile ports x c key bindingDigest).1.kind := by
  obtain ⟨hkind, _⟩ | ⟨binding, answer, submitted, hbinding, hreconciled, _, hstate, hkind⟩ :=
    reconcile_cases ports x c key bindingDigest
  · exact .inl hkind
  · cases answer with
    | ok kind =>
      obtain ⟨rfl, hanswered⟩ :=
        exchange_ok (fun _ _ => ReconciliationKind.ofValue?_eq_some) hreconciled
      refine .inr ⟨binding, hbinding, by rw [hstate]; rfl, ?_⟩
      rw [hkind]
      exact hanswered
    | error failure => exact .inl hkind

end HttpJsonChannel

/-- A call of a channel object, with what the network does during it. -/
inductive ChannelCall
  | apply (x : Exchange) (effect : ChannelEffect)
  | reconcile (x : Exchange) (key : StableId) (bindingDigest : Option String)

def HttpJsonChannel.after (ports : ChannelPorts) (c : HttpJsonChannel) :
    ChannelCall → HttpJsonChannel
  | .apply x effect => (apply ports x c effect).2
  | .reconcile x key bindingDigest => (reconcile ports x c key bindingDigest).2

/-- The runs of one channel object. -/
def channel (ports : ChannelPorts) : TransitionSystem HttpJsonChannel ChannelCall where
  init c := c = .initial
  step c call c' := c' = c.after ports call

namespace HttpJsonChannel

variable {c : HttpJsonChannel}

/-- Every request that was handed over has the digest its key is bound to, and there are
    no more requests than calls. -/
structure Accounted (c : HttpJsonChannel) : Prop where
  bound : ∀ request ∈ c.submissions, c.bindings request.1 = some request.2
  counted : c.submissions.length ≤ c.callCount + c.reconciliationCount

theorem accounted_initial : initial.Accounted := ⟨by simp [initial], Nat.zero_le _⟩

theorem Accounted.counts (h : c.Accounted) {calls reconciliations : ℕ}
    (hcalls : c.callCount ≤ calls) (hreconciliations : c.reconciliationCount ≤ reconciliations) :
    { c with callCount := calls, reconciliationCount := reconciliations }.Accounted :=
  ⟨h.bound, h.counted.trans (Nat.add_le_add hcalls hreconciliations)⟩

/-- An exchange under a key that is not bound to anything else. -/
theorem Accounted.exchanged (h : c.Accounted) {key : StableId} {binding : String}
    (hbinds : c.Binds key binding) (submitted : Bool)
    (hcounted : c.submissions.length < c.callCount + c.reconciliationCount) :
    (c.exchanged key binding submitted).Accounted := by
  have hkept : ∀ request ∈ c.submissions,
      Function.update c.bindings key (some binding) request.1 = some request.2 := by
    intro request hrequest
    have hbound := h.bound request hrequest
    by_cases hkey : request.1 = key
    · rw [hkey, Function.update_self, hbinds request.2 (hkey ▸ hbound)]
    · rw [Function.update_of_ne hkey, hbound]
  cases submitted with
  | false =>
    refine ⟨fun request hrequest => hkept request ?_, ?_⟩
    · simpa [HttpJsonChannel.exchanged] using hrequest
    · simpa [HttpJsonChannel.exchanged] using hcounted.le
  | true =>
    refine ⟨fun request hrequest => ?_, ?_⟩
    · rcases List.mem_append.mp hrequest with hrequest | hrequest
      · exact hkept request hrequest
      · obtain rfl := List.mem_singleton.mp hrequest
        exact Function.update_self ..
    · simpa [HttpJsonChannel.exchanged, Nat.succ_le_iff] using hcounted

theorem accounted_after {ports : ChannelPorts} (h : c.Accounted) (call : ChannelCall) :
    (c.after ports call).Accounted := by
  cases call with
  | apply x effect =>
    have hcalled : { c with callCount := c.callCount + 1 }.Accounted := h.counts (by omega) le_rfl
    obtain ⟨_, hstate⟩ | ⟨_, submitted, _, hbinds, hstate, _⟩ :=
      apply_cases ports x c effect
    · rw [after, hstate]
      exact hcalled
    · rw [after, hstate]
      exact hcalled.exchanged hbinds submitted (by have := h.counted; dsimp only; omega)
  | reconcile x key bindingDigest =>
    have hcalled : { c with reconciliationCount := c.reconciliationCount + 1 }.Accounted :=
      h.counts le_rfl (by omega)
    obtain ⟨_, hstate⟩ | ⟨binding, _, submitted, _, _, hbinds, hstate, _⟩ :=
      reconcile_cases ports x c key bindingDigest
    · rw [after, hstate]
      exact hcalled
    · rw [after, hstate]
      exact hcalled.exchanged hbinds submitted (by have := h.counted; dsimp only; omega)

theorem accounted_of_reachable {ports : ChannelPorts} (h : (channel ports).Reachable c) :
    c.Accounted :=
  h.invariant (fun _ hinit => hinit ▸ accounted_initial)
    fun _ call _ hc hstep => hstep ▸ accounted_after hc call

end HttpJsonChannel

/-- A body that says that the effect was applied. -/
def succeededBody : WireJson :=
  .object [(.ofString "protocol_version", .str (.ofString "dc-http-json-v1")),
    (.ofString "result_kind", .str (.ofString "succeeded")),
    (.ofString "result", .object [(.ofString "classification", .str (.ofString "applied"))])]

/-- Libraries for concrete runs: every answer has the same body. -/
def sampleChannelPorts : ChannelPorts where
  settings := ⟨1000, 1000, 1000⟩
  effectDocument _ := some []
  reconciliationDocument _ _ := some []
  parse _ := some succeededBody
  outcomeDigest _ _ _ := 0
  safeDigest _ _ := 0

/-- An exchange that the provider answers, if the connection is made. -/
def sampleExchange (connect : Except NetworkError Unit) : Exchange where
  clock n := n
  connect := connect
  sock := true
  request := .ok ()
  response := .ok (200, "application/json")
  read1 n _ := .ok (if n = 0 then [0] else [])

/-- An effect that a worker has started. -/
def sampleChannelEffect : ChannelEffect where
  proposal := sampleProposal
  attempt :=
    { effectAttemptId := stableId "attempt-1"
      proposalId := stableId "proposal-1"
      proposalRevision := 1
      approvalDecisionId := stableId "approval-1"
      attemptNumber := 1
      state := .started
      actor := sampleWorker
      correlationId := stableId "correlation-1"
      occurredAt := 40
      revision := 2 }
  effectIdempotencyKey := stableId "effect-1"

end DigitalColleagues
