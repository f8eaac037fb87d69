import DigitalColleagues.Studio.Moves

/-!
# Submission of triggers

`submit_trigger` of the two runtime controllers: the records it makes of a work
item and an idempotency key, and its transactions in their order.

## Main definitions

- `RuntimePorts`, `TriggerSubmission`, `SubmissionClock` — what a call depends on
- `P4RuntimeController.submitTrigger` — the ingestion
- `P5RuntimeController.submitTrigger` — the admission before it
-/

namespace DigitalColleagues

open Keyed

/-- The identifier and digest ports of the runtime. -/
structure RuntimePorts where
  derive : String → List String → StableId
  digest : String → StableId → Digest

/-- The arguments of `submit_trigger`. -/
structure TriggerSubmission where
  actor : Principal
  workId : StableId
  triggerClass : DurableTriggerKind
  deterministicNoop : Bool
  idempotencyKey : String

/-- What the clock shows at each point of a call. -/
structure SubmissionClock where
  admittedAt : Instant
  dueAt : Instant
  occurredAt : Instant

/-- `resolve_runtime_context`, as far as a submission uses it: the service principal. -/
def StudioTables.resolveRuntimeContext (ports : RuntimePorts) (s : StudioTables) :
    Outcome Principal := do
  let colleague ← orFail s.governance.store.colleague
    (.permissionDenied "runtime requires a colleague namespace")
  let model ← s.tenant.getPrincipal (ports.derive "model" [colleague.colleagueId.val])
  let service ← s.tenant.getPrincipal (ports.derive "service" [colleague.colleagueId.val])
  let mandate ← s.configuration.mandates.getRecord
    (ports.derive "mandate" [colleague.colleagueId.val])
  require (model.kind = .model ∧ service.kind = .service)
    (.permissionDenied "runtime principal kind binding was refused")
  let policy ← s.configuration.getActivePolicy
  require (∀ p ∈ policy, p.mandateId = mandate.mandateId ∧ p.mandateRevision = mandate.revision)
    (.permissionDenied "runtime Mandate/policy binding is stale")
  pure service

namespace TriggerSubmission

variable (ports : RuntimePorts) (r : TriggerSubmission)

/-- The identity of the event or of the timer occurrence. -/
def sourceId : StableId :=
  ports.derive (match r.triggerClass with | .event => "event" | .timer => "occurrence")
    [r.workId.val, r.idempotencyKey]

def correlationId : StableId := ports.derive "correlation" [(r.sourceId ports).val]

def safeProjection (work : FiniteWork) : FrozenJsonObject where
  entries :=
    [("priority", .int 700),
      ("title", .str ((if r.deterministicNoop then "noop:" else "wake:") ++ work.title)),
      ("work_id", .str work.workId.val)]
  sorted := by
    simp only [List.map_cons, List.map_nil]
    decide

/-- The event that a call submits. -/
def event (work : FiniteWork) (policy : Option PolicyBinding) (occurredAt : Instant) :
    InputEvent where
  eventId := r.sourceId ports
  eventType := stableId "work_assigned"
  state := .accepted
  safeProjection := r.safeProjection work
  payloadDigest := ports.digest "event-payload" work.workId
  actor := r.actor
  correlationId := r.correlationId ports
  causationId := some work.workId
  occurredAt := occurredAt
  revision := 1
  policy := policy

def eventTriggerId : StableId :=
  ports.derive "trigger" [(r.sourceId ports).val, r.idempotencyKey]

def timerId : StableId := ports.derive "timer" [r.workId.val]

/-- The timer occurrence that a call schedules. -/
def occurrence (work : FiniteWork) (service : Principal) (policy : Option PolicyBinding)
    (dueAt occurredAt : Instant) : TimerOccurrence where
  timerId := r.timerId ports
  occurrenceId := r.sourceId ports
  state := .scheduled
  dueAt := dueAt
  safeProjection := r.safeProjection work
  actor := service
  correlationId := r.correlationId ports
  causationId := some work.workId
  occurredAt := occurredAt
  revision := 1
  policy := policy

def timerTriggerId : StableId :=
  ports.derive "timer-trigger" [(r.timerId ports).val, (r.sourceId ports).val, r.idempotencyKey]

/-- The arguments of `admit_trigger`. -/
def admission (policy : ColleaguePolicy) (occurredAt : Instant) : AdmitTriggerCommand where
  policy := policy
  triggerClass := r.triggerClass
  sourceId := r.sourceId ports
  occurrenceKey := ports.derive "budget-occurrence" [r.workId.val, r.idempotencyKey]
  actor := r.actor
  correlationId := r.correlationId ports
  causationId := r.workId
  outcomeId := ports.derive "policy-outcome" [(r.sourceId ports).val, "pre-wake"]
  escalationId := ports.derive "escalation" [(r.sourceId ports).val]
  occurredAt := occurredAt

end TriggerSubmission

/-- `submit_trigger` of the deterministic runtime; the result is the correlation. -/
def P4RuntimeController.submitTrigger (ports : RuntimePorts) (s : RuntimeStore StudioTables)
    (r : TriggerSubmission) (policy : Option PolicyBinding) (clock : SubmissionClock) :
    Outcome (StableId × RuntimeStore StudioTables) := do
  requireAuthoritativeHumanRole r.actor [.tenantAdmin]
  let work ← orFail (s.rest.works.find? r.workId)
    (.notFound "namespaced durable record was not found")
  let service ← s.rest.resolveRuntimeContext ports
  match r.triggerClass with
  | .event => do
    require (r.idempotencyKey ≠ "") (.validation "event idempotency identity is required")
    let (_, agenda) ← s.agenda.ingestEvent (r.event ports work policy clock.occurredAt)
      r.idempotencyKey (r.eventTriggerId ports)
    pure (r.correlationId ports, { s with agenda := agenda })
  | .timer => do
    require (isStableId r.idempotencyKey = true)
      (.validation "idempotency_key must be an explicit stable string ID")
    let (_, agenda) ← s.agenda.ingestTimer
      (r.occurrence ports work service policy clock.dueAt clock.occurredAt)
      r.idempotencyKey (r.timerTriggerId ports)
    pure (r.correlationId ports, { s with agenda := agenda })

/-- The answer of a submission under a policy or without one. -/
structure SubmissionResponse where
  accepted : Bool
  correlationId : StableId
  policy : Option PolicyBinding
  admission : Option PolicyAdmission

/-- `submit_trigger` under the policy that was read. An ingestion that raises
    leaves the admission before it committed. -/
def P5RuntimeController.submitAdmitted (ports : RuntimePorts) (zones : TimeZones)
    (s : RuntimeStore StudioTables) (r : TriggerSubmission) (policy : ColleaguePolicy)
    (clock : SubmissionClock) :
    Outcome (Outcome SubmissionResponse × RuntimeStore StudioTables) := do
  let binding : PolicyBinding := ⟨policy.policyId, policy.revision⟩
  let (admission, admitted, configuration) ← admitTrigger zones s.rest.works s.effects.results
    s.rest.admission s.rest.configuration (r.admission ports policy clock.admittedAt)
  let rest := { s.rest with admission := admitted }.withConfiguration configuration
  let s := { s with rest := rest }
  if admission.accepted = true then
    match P4RuntimeController.submitTrigger ports s r (some binding) clock with
    | .ok (correlationId, s) => pure (.ok ⟨true, correlationId, some binding, some admission⟩, s)
    | .error e => pure (.error e, s)
  else pure (.ok ⟨false, r.correlationId ports, some binding, some admission⟩, s)

/-- `submit_trigger` of the governed runtime; a colleague without a policy is
    served as before. -/
def P5RuntimeController.submitTrigger (ports : RuntimePorts) (zones : TimeZones)
    (s : RuntimeStore StudioTables) (r : TriggerSubmission) (clock : SubmissionClock) :
    Outcome (Outcome SubmissionResponse × RuntimeStore StudioTables) := do
  let active ← s.rest.configuration.getActivePolicy
  match active with
  | none => do
    let (correlationId, s) ← P4RuntimeController.submitTrigger ports s r none clock
    pure (.ok ⟨true, correlationId, none, none⟩, s)
  | some policy => P5RuntimeController.submitAdmitted ports zones s r policy clock

-- ════════════════════════════════════════════════════════════════════════
-- Concrete calls
-- ════════════════════════════════════════════════════════════════════════

/-- Identifiers that spell out their kind and parts, for concrete runs; those of
    the runtime are the ones the sample colleague has. -/
def sampleRuntimePorts : RuntimePorts where
  derive kind parts :=
    if kind = "model" then stableId "model-1"
    else if kind = "service" then stableId "service-1"
    else if kind = "mandate" then stableId "mandate-1"
    else
      let text := "-".intercalate (kind :: parts)
      if h : isStableId text = true then ⟨text, h⟩ else stableId "unnamed"
  digest _ _ := 0

def sampleWork : FiniteWork := ⟨stableId "work-1", "answer", .ready⟩

/-- The submission of an event or a timer for the sample work item. -/
def sampleSubmission (triggerClass : DurableTriggerKind) : TriggerSubmission where
  actor := sampleAdmin
  workId := stableId "work-1"
  triggerClass := triggerClass
  deterministicNoop := false
  idempotencyKey := "key-1"

/-- The sample colleague with a policy and a work item. -/
def sampleAssigned : List (StudioState → StudioAction) :=
  samplePoliced .none ++ [fun _ => .assignWork sampleWork]

end DigitalColleagues
