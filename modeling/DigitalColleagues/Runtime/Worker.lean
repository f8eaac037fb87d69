import DigitalColleagues.Intelligence.Adapters
import DigitalColleagues.Lib.Process
import DigitalColleagues.Runtime.Discovery

/-!
# The worker

`P4RuntimeController.process_once` for one colleague and the loop of `run_once`
over all of them: materialization, the wake, one reconciliation and one dispatch,
each a sequence of transactions of the store. What commits before an exception
stays.

## Main definitions

- `Worker` — the store class and the ports a worker is built with
- `WakeService.materializeNext`, `WakeService.run` — the wake
- `DispatchService.reconcileOnce`, `DispatchService.dispatchOnce` — the effects
- `P4RuntimeController.processOnce`, `runOnce` — the worker loop
-/

namespace DigitalColleagues

/-- The authority that `service_context` resolves for a runtime. -/
structure ServiceRuntimeContext where
  modelPrincipal : Principal
  servicePrincipal : Principal
  mandateId : StableId
  mandateRevision : ℕ
  policy : Option PolicyBinding
deriving DecidableEq

/-- The effect handed to a channel. -/
structure ChannelEffect where
  proposal : EffectProposal
  attempt : EffectAttempt
  effectIdempotencyKey : StableId

/-- The store class of a worker and its ports. A port is told how often the
    clock was read before, so that it may answer differently each time; the
    intelligence and the authorizer may write the rest of the database. -/
structure Worker (ε : Type) where
  hooks : StoreHooks ε
  clock : ℕ → Instant
  derive : List String → StableId
  safeDigest : AdapterFailureCategory → String → Digest
  deploymentIsActive : ε → Bool
  resolveRuntimeContext : ε → Outcome ServiceRuntimeContext
  intelligence : ℕ → RuntimeStore ε → IntelligenceRequest → Except Raised ReturnedDecision × ε
  policyAuthorizer :
    ℕ → RuntimeStore ε → EffectProposal → HumanApprovalDecision → Except Raised Unit × ε
  channelApply : ℕ → ChannelEffect → Except Raised ChannelOutcome
  channelReconcile : ℕ → StableId → Digest → Except Raised ReconciliationOutcome

/-- The database of one colleague with the number of times the clock was read. -/
structure WorkerState (ε : Type) where
  runtime : RuntimeState ε
  clockReads : ℕ

/-- A procedure of the worker. -/
abbrev WorkerProcess (ε α : Type) := Process (WorkerState ε) Raised α

/-- A result of the store, as the worker sees it. -/
def Outcome.raised {α : Type} : Outcome α → Except Raised α
  | .ok a => .ok a
  | .error failure => .error (.core failure)

@[simp] theorem Outcome.raised_eq_ok {α : Type} {x : Outcome α} {a : α} :
    Outcome.raised x = .ok a ↔ x = .ok a := by
  cases x <;> simp [Outcome.raised]

def leaseDuration : ℤ := 30000000

def proposalValidity : ℤ := 3600000000

def reconciliationBackoff : ℤ := 2000000

-- ════════════════════════════════════════════════════════════════════════
-- Clock, store and ports
-- ════════════════════════════════════════════════════════════════════════

namespace Worker

variable {ε : Type} (w : Worker ε)

/-- `self._clock.now()`. -/
def now : WorkerProcess ε Instant :=
  fun s => (.ok (w.clock s.clockReads), { s with clockReads := s.clockReads + 1 })

/-- A read of the store. -/
def read {α : Type} (f : RuntimeStore ε → Outcome α) : WorkerProcess ε α :=
  fun s => (Outcome.raised (f s.runtime.store), s)

/-- A transaction of the store; `result` is what it returns when it commits. -/
def transact {α : Type} (action : RuntimeAction ε) (result : RuntimeState ε → Outcome α) :
    WorkerProcess ε α := fun s =>
  match s.runtime.exec w.hooks action with
  | .ok runtime => (Outcome.raised (result s.runtime), { s with runtime := runtime })
  | .error failure => (.error (.core failure), s)

/-- A transaction that returns nothing. -/
def execute (action : RuntimeAction ε) : WorkerProcess ε Unit :=
  w.transact action fun _ => .ok ()

/-- `if not c: raise e`. -/
def check (c : Prop) [Decidable c] (e : Failure) : WorkerProcess ε Unit :=
  Process.lift (Outcome.raised (require c e))

/-- A port that may write the rest of the database before it answers. -/
def callPort {α : Type} (port : ℕ → RuntimeStore ε → Except Raised α × ε) : WorkerProcess ε α :=
  fun s =>
    let answer := port s.clockReads s.runtime.store
    (w.execute (.environment answer.2) >>= fun _ => Process.lift answer.1) s

/-- A port outside the database. -/
def callChannel {α : Type} (channel : ℕ → Except Raised α) : WorkerProcess ε α :=
  fun s => (channel s.clockReads, s)

def getMandate (mandateId : StableId) : WorkerProcess ε Mandate :=
  read fun s => orFail (w.hooks.findMandate s.rest mandateId)
    (.notFound "namespaced durable record was not found")

def getWakeCycle (wakeCycleId : StableId) : WorkerProcess ε WakeCycle :=
  read fun s => s.agenda.wakeCycles.getRecord wakeCycleId

/-- `service_context`. -/
def serviceContext : WorkerProcess ε ServiceRuntimeContext :=
  read fun s => w.resolveRuntimeContext s.rest

def claimTrigger (owner : StableId) (now leaseUntil : Instant) :
    WorkerProcess ε (Option TriggerClaim) :=
  w.transact (.agenda (.claimTrigger owner now leaseUntil)) fun s =>
    .ok ((s.agenda.tables.claimTrigger owner now leaseUntil).map Prod.fst)

def claimAgenda (owner : StableId) (now leaseUntil : Instant) :
    WorkerProcess ε (Option AgendaClaim) :=
  w.transact (.agenda (.claimAgenda owner now leaseUntil)) fun s =>
    (s.agenda.tables.claimAgenda owner now leaseUntil).map Prod.fst

def claimOutbox (owner : StableId) (now leaseUntil : Instant) :
    WorkerProcess ε (Option OutboxClaim) :=
  w.transact (.effect (.claimOutbox owner now leaseUntil)) fun s =>
    .ok ((s.effects.tables.claimOutbox owner now leaseUntil).map Prod.fst)

def claimAmbiguous (owner : StableId) (now leaseUntil : Instant) :
    WorkerProcess ε (Option OutboxClaim) :=
  w.transact (.effect (.claimAmbiguous owner now leaseUntil)) fun s =>
    .ok ((s.effects.tables.claimAmbiguous owner now leaseUntil).map Prod.fst)

def loadDispatchBundle (claim : OutboxClaim) (mandateId : StableId) :
    WorkerProcess ε DispatchBundle :=
  w.transact (.loadDispatchBundle claim mandateId) fun s =>
    s.store.loadDispatchBundle w.hooks claim mandateId

def markDispatchStarted (claim : OutboxClaim) (occurredAt : Instant) :
    WorkerProcess ε EffectAttempt :=
  w.transact (.effect (.markDispatchStarted claim occurredAt)) fun s =>
    (s.effects.tables.markDispatchStarted claim occurredAt).map Prod.fst

def finalizeDispatch (claim : OutboxClaim) (outcome : ChannelOutcome) (fin : Finalization) :
    WorkerProcess ε ActionResult :=
  w.transact (.effect (.finalizeDispatch claim outcome fin)) fun s =>
    (s.effects.tables.finalizeDispatch claim outcome fin).map Prod.fst

def reconcileAmbiguous (claim : OutboxClaim) (outcome : ReconciliationOutcome)
    (fin : Finalization) (nextReconciliationAt : Instant) :
    WorkerProcess ε (Option ActionResult) :=
  w.transact (.effect (.reconcileAmbiguous claim outcome fin (some nextReconciliationAt))) fun s =>
    (s.effects.tables.reconcileAmbiguous claim outcome fin (some nextReconciliationAt)).map Prod.fst

end Worker

-- ════════════════════════════════════════════════════════════════════════
-- The wake
-- ════════════════════════════════════════════════════════════════════════

namespace WakeService

variable {ε : Type} (w : Worker ε) (context : ServiceRuntimeContext)

def ownerId : StableId := stableId "worker:p4-local"

/-- `materialize_next` on a claim. -/
def materializeClaim (claim : TriggerClaim) (now : Instant) : WorkerProcess ε Bool := do
  let wakeId := w.derive ["wake", claim.triggerId.val, toString claim.fencingToken]
  let agendaId :=
    match claim.sourceRecordType with
    | .inputEvent => w.derive ["agenda", claim.sourceId.val]
    | .timerOccurrence => w.derive ["agenda", "timer", claim.sourceId.val]
  w.execute (.agenda (.materializeAgenda claim wakeId agendaId context.servicePrincipal now))
  pure true

/-- `materialize_next`; whether a trigger was materialized. -/
def materializeNext : WorkerProcess ε Bool := do
  let now ← w.now
  match ← w.claimTrigger ownerId now (now + leaseDuration) with
  | none => pure false
  | some claim => materializeClaim w context claim now

/-- The request for a claimed generation; its validity is an hour. -/
def requestOf (claim : AgendaClaim) (wake : WakeCycle) (mandate : Mandate) (now : Instant) :
    IntelligenceRequest :=
  let requestId := w.derive ["request", claim.agendaItem.agendaItemId.val,
    toString claim.claimedGeneration]
  { requestId := requestId
    wakeCycle := wake
    agendaItem := claim.agendaItem
    mandate := mandate
    modelPrincipal := context.modelPrincipal
    decisionId := w.derive ["decision", requestId.val]
    proposalId := w.derive ["proposal", requestId.val]
    effectIdempotencyKey := w.derive ["effect", requestId.val]
    occurredAt := now
    proposalValidUntil := now + proposalValidity
    policy := wake.policy
    validity := Int.lt_add_of_pos_right now (by decide)
    policy_wake := rfl }

/-- A decision of the intelligence is committed unless it cannot be encoded. -/
def commitReturned (claim : AgendaClaim) (returned : ReturnedDecision) : WorkerProcess ε Unit :=
  match returned.toSemanticDecision with
  | some semantic => w.execute (.commitSemanticDecision claim semantic)
  | none => do
    let _ ← Worker.read fun s => s.agenda.requireAgendaClaim claim
    Process.raise .unicodeEncodeError

/-- The body of the `try` statement. -/
def decideItem (claim : AgendaClaim) (request : IntelligenceRequest) : WorkerProcess ε Unit :=
  match request.deterministicNoop with
  | some semantic => w.execute (.commitSemanticDecision claim semantic)
  | none => do
    let returned ← w.callPort fun n store => w.intelligence n store request
    commitReturned w claim returned

/-- The `except` clauses: an adapter failure is recorded, after anything else the
    claim is released and the exception raised again. -/
def recoverItem (claim : AgendaClaim) (request : IntelligenceRequest) :
    Raised → WorkerProcess ε Unit
  | .adapter failure =>
    w.execute (.commitSemanticDecision claim (request.failureDecision w.safeDigest failure))
  | raised => do
    w.execute (.agenda (.releaseAgenda claim))
    Process.raise raised

/-- One claimed generation, from its request to its decision. -/
def processItem (claim : AgendaClaim) (now : Instant) : WorkerProcess ε Unit := do
  let wake ← Worker.getWakeCycle claim.agendaItem.wakeCycleId
  let mandate ← w.getMandate context.mandateId
  let request := requestOf w context claim wake mandate now
  (decideItem w claim request).handle (recoverItem w claim request)

/-- The loop of `run`. A pass that does not raise selects one item and makes one
    decision, so the two bounds on a run are used up together. -/
def wakeLoop : ℕ → ℕ → WorkerProcess ε ℕ
  | 0, selected => pure selected
  | remaining + 1, selected => do
    let now ← w.now
    match ← w.claimAgenda ownerId now (now + leaseDuration) with
    | none => pure selected
    | some claim =>
      processItem w context claim now
      wakeLoop remaining (selected + 1)

def maxItems : ℕ := 4

structure WakeRunResult where
  selectedCount : ℕ
  decisionCount : ℕ
  pendingCount : ℕ
deriving DecidableEq

/-- `WakeService.run`. -/
def run : WorkerProcess ε WakeRunResult := do
  let selected ← wakeLoop w context maxItems 0
  let pending ← Worker.read fun s => .ok (s.agenda.agendaRuntime.rows.countP fun r =>
    decide (r.handledGeneration < r.generation))
  pure ⟨selected, selected, pending⟩

end WakeService

-- ════════════════════════════════════════════════════════════════════════
-- The effects
-- ════════════════════════════════════════════════════════════════════════

structure DispatchResult where
  dispatched : Bool
  outcome : Option ChannelOutcomeKind
  actionResultId : Option StableId
deriving DecidableEq

/-- The outcome that a reconciliation is reported as. -/
def ReconciliationKind.mapped : ReconciliationKind → ChannelOutcomeKind
  | .confirmedApplied => .succeeded
  | .confirmedAbsent => .knownNotExecuted
  | .stillUnknown => .ambiguous

namespace DispatchService

variable {ε : Type} (w : Worker ε) (context : ServiceRuntimeContext)

def ownerId : StableId := stableId "worker:p4-dispatch"

/-- The comparisons of `_validate_exact_effect` after the bundle is loaded. -/
def validateBundle (bundle : DispatchBundle) : WorkerProcess ε DispatchBundle := do
  let mandate ← w.getMandate context.mandateId
  Worker.check (bundle.proposal.mandate.map MandateBinding.mandateId = some mandate.mandateId)
    (.permissionDenied "proposal mandate identity is stale")
  Worker.check (bundle.proposal.mandate.map MandateBinding.mandateRevision = some mandate.revision)
    (.permissionDenied "proposal mandate revision is stale")
  Worker.check (bundle.effectIdempotencyKey = bundle.proposal.constraints.idempotencyKey)
    (.permissionDenied "effect idempotency identity drifted")
  Worker.check (bundle.approval.author = bundle.approver)
    (.permissionDenied "approval principal binding drifted")
  Process.lift (Outcome.raised
    (authorizeEffectProposal bundle.proposal mandate mandate.revision))
  let evaluatedAt ← w.now
  Process.lift (Outcome.raised
    (authorizeHumanApproval bundle.proposal bundle.approval evaluatedAt))
  w.callPort fun n store => w.policyAuthorizer n store bundle.proposal bundle.approval
  Worker.check (bundle.attempt.attemptNumber ≤ bundle.maximumAttempts)
    (.permissionDenied "effect attempt limit was exceeded")
  pure bundle

/-- `_validate_exact_effect`. -/
def validateExactEffect (claim : OutboxClaim) : WorkerProcess ε DispatchBundle := do
  let bundle ← w.loadDispatchBundle claim context.mandateId
  validateBundle w context bundle

/-- `_require_live_claim` at the present time. -/
def requireLiveClaim (claim : OutboxClaim) : WorkerProcess ε Instant := do
  let evaluatedAt ← w.now
  Worker.check (evaluatedAt ≤ claim.leaseUntil)
    (.conflict "outbox claim lease expired during provider I/O")
  pure evaluatedAt

/-- The identity of the next attempt, when a retry is allowed. -/
def nextAttemptId (claim : OutboxClaim) (bundle : DispatchBundle) (retry : Bool) :
    Option StableId :=
  if retry ∧ claim.attemptNumber < bundle.maximumAttempts then
    some (w.derive ["attempt", claim.proposalId.val, toString (claim.attemptNumber + 1)])
  else none

/-- `dispatch_once` on a claim. -/
def dispatchClaim (claim : OutboxClaim) (now : Instant) : WorkerProcess ε DispatchResult := do
  let bundle ← validateExactEffect w context claim
  let started ← w.markDispatchStarted claim now
  w.execute (.effect (.channelApply started))
  let outcome ← Worker.callChannel fun n =>
    w.channelApply n ⟨bundle.proposal, started, bundle.effectIdempotencyKey⟩
  let next := nextAttemptId w claim bundle
    (outcome.kind = .knownNotExecuted ∨ outcome.kind = .retryableFailure)
  let resultId := w.derive ["result", claim.effectAttemptId.val, outcome.kind.value]
  let occurredAt ← w.now
  let result ← w.finalizeDispatch claim outcome
    ⟨resultId, context.servicePrincipal, occurredAt, next⟩
  pure ⟨true, some outcome.kind, some result.actionResultId⟩

/-- `dispatch_once`. -/
def dispatchOnce : WorkerProcess ε DispatchResult := do
  let now ← w.now
  match ← w.claimOutbox ownerId now (now + leaseDuration) with
  | none => pure ⟨false, none, none⟩
  | some claim => dispatchClaim w context claim now

/-- The retry that a reconciliation authorizes; an absent effect is validated again
    after the provider has answered. -/
def reconciledRetry (claim : OutboxClaim) (outcome : ReconciliationOutcome) :
    WorkerProcess ε (Option StableId) :=
  match outcome.kind with
  | .confirmedAbsent => do
    let bundle ← validateExactEffect w context claim
    pure (nextAttemptId w claim bundle true)
  | _ => pure none

/-- `reconcile_once` on a claim. -/
def reconcileClaim (claim : OutboxClaim) : WorkerProcess ε DispatchResult := do
  let _ ← requireLiveClaim w claim
  let bundle ← validateExactEffect w context claim
  let _ ← requireLiveClaim w claim
  let outcome ← Worker.callChannel fun n =>
    w.channelReconcile n bundle.effectIdempotencyKey bundle.proposal.proposalDigest
  let _ ← requireLiveClaim w claim
  let next ← reconciledRetry w context claim outcome
  let finalizedAt ← requireLiveClaim w claim
  let resultId := w.derive ["result", claim.effectAttemptId.val, outcome.kind.value]
  let result ← w.reconcileAmbiguous claim outcome
    ⟨resultId, context.servicePrincipal, finalizedAt, next⟩ (finalizedAt + reconciliationBackoff)
  pure ⟨true, some outcome.kind.mapped, result.map ActionResult.actionResultId⟩

/-- `reconcile_once`. -/
def reconcileOnce : WorkerProcess ε DispatchResult := do
  let now ← w.now
  match ← w.claimAmbiguous ownerId now (now + leaseDuration) with
  | none => pure ⟨false, none, none⟩
  | some claim => reconcileClaim w context claim

end DispatchService

-- ════════════════════════════════════════════════════════════════════════
-- The cycle
-- ════════════════════════════════════════════════════════════════════════

/-- What `process_once` reports. -/
structure ProcessReport where
  triggerMaterialized : Bool
  wakeSelected : ℕ
  decisions : ℕ
  pending : ℕ
  reconciled : Bool
  reconciliationOutcome : Option ChannelOutcomeKind
  dispatched : Bool
  actionResultId : Option StableId
deriving DecidableEq

/-- `P4RuntimeController.process_once`. -/
def P4RuntimeController.processOnce {ε : Type} (w : Worker ε) (context : ServiceRuntimeContext) :
    WorkerProcess ε ProcessReport := do
  let durable ← w.serviceContext
  Worker.check (durable = context)
    (.permissionDenied "stale or rebound runtime context was refused")
  let materialized ← WakeService.materializeNext w context
  let result ← WakeService.run w context
  let reconciled ← DispatchService.reconcileOnce w context
  let dispatched ← DispatchService.dispatchOnce w context
  pure ⟨materialized, result.selectedCount, result.decisionCount, result.pendingCount,
    reconciled.dispatched, reconciled.outcome, dispatched.dispatched, dispatched.actionResultId⟩

-- ════════════════════════════════════════════════════════════════════════
-- The loop over the namespaces
-- ════════════════════════════════════════════════════════════════════════

/-- `ConflictError` with its two subclasses, and `PermissionDeniedError`. -/
def Failure.contained : Failure → Bool
  | .conflict _ | .staleConflict _ | .replayConflict _ | .permissionDenied _ => true
  | _ => false

/-- What `run_once` catches. -/
def Raised.contained : Raised → Bool
  | .core failure => failure.contained
  | _ => false

/-- The database as the worker loop sees it; `called` records for which namespaces
    `process_once` was called. -/
structure WorkerDatabase (ε : Type) where
  runtimes : StableId → RuntimeState ε
  clockReads : ℕ
  called : List StableId

/-- A procedure of the worker loop. -/
abbrev LoopProcess (ε α : Type) := Process (WorkerDatabase ε) Raised α

/-- A procedure on the part of one colleague. -/
def onColleague {ε α : Type} (ns : StableId) (x : WorkerProcess ε α) : LoopProcess ε α := fun db =>
  let done := x ⟨db.runtimes ns, db.clockReads⟩
  (done.1, { db with
    runtimes := Function.update db.runtimes ns done.2.runtime
    clockReads := done.2.clockReads })

section Loop

variable {ε : Type} (w : StableId → Worker ε)

/-- `runtime.controller.process_once(context)`. -/
def callProcessOnce (ns : StableId) (context : ServiceRuntimeContext) :
    LoopProcess ε ProcessReport := fun db =>
  onColleague ns (P4RuntimeController.processOnce (w ns) context)
    { db with called := db.called ++ [ns] }

/-- The `try` statement of the loop; how many namespaces it processed. -/
def tryNamespace (ns : StableId) : LoopProcess ε ℕ :=
  Process.handle
    (do
      let context ← onColleague ns (w ns).serviceContext
      let _ ← callProcessOnce w ns context
      pure 1)
    fun raised => if raised.contained then pure 0 else Process.raise raised

/-- The body of the loop: an inactive deployment is passed over. -/
def visitNamespace (ns : StableId) : LoopProcess ε ℕ := fun db =>
  if (w ns).deploymentIsActive (db.runtimes ns).rest then tryNamespace w ns db else (.ok 0, db)

/-- The loop over the listed namespaces. -/
def visitNamespaces : List StableId → ℕ → LoopProcess ε ℕ
  | [], processed => pure processed
  | ns :: rest, processed => do
    let count ← visitNamespace w ns
    visitNamespaces rest (processed + count)

/-- `pending_namespaces`, in the order of the namespaces. -/
def listPending (namespaces : List StableId) (db : WorkerDatabase ε) (now : Instant) :
    List StableId :=
  namespaces.filter fun ns => (db.runtimes ns).store.isPending now

/-- `run_once` on a database with the given colleague namespaces. -/
def runOnce (clock : ℕ → Instant) (namespaces : List StableId) : LoopProcess ε ℕ := fun db =>
  visitNamespaces w (listPending namespaces db (clock db.clockReads)) 0
    { db with clockReads := db.clockReads + 1 }

end Loop

-- ════════════════════════════════════════════════════════════════════════
-- Runs of the worker
-- ════════════════════════════════════════════════════════════════════════

namespace Worker

variable {ε α : Type} {w : Worker ε}

theorem check_eq_ok {c : Prop} [Decidable c] {e : Failure} {s t : WorkerState ε} {u : Unit} :
    check c e s = (.ok u, t) ↔ c ∧ t = s := by
  simp only [check, Process.lift_apply, Prod.mk.injEq, Outcome.raised_eq_ok, require_eq_ok]
  exact and_congr_right fun _ => eq_comm

theorem read_eq_ok {f : RuntimeStore ε → Outcome α} {s t : WorkerState ε} {a : α} :
    read f s = (.ok a, t) ↔ f s.runtime.store = .ok a ∧ t = s := by
  simp only [read, Prod.mk.injEq, Outcome.raised_eq_ok]
  exact and_congr_right fun _ => eq_comm

theorem transact_eq_ok {action : RuntimeAction ε} {result : RuntimeState ε → Outcome α}
    {s t : WorkerState ε} {a : α} :
    w.transact action result s = (.ok a, t) ↔
      ∃ runtime, s.runtime.exec w.hooks action = .ok runtime ∧ result s.runtime = .ok a ∧
        t = { s with runtime := runtime } := by
  unfold transact
  cases hexec : s.runtime.exec w.hooks action with
  | ok runtime =>
    simp only [Prod.mk.injEq, Outcome.raised_eq_ok, Except.ok.injEq, exists_eq_left']
    exact and_congr_right fun _ => eq_comm
  | error failure => simp

theorem now_eq_ok {s t : WorkerState ε} {now : Instant} :
    w.now s = (.ok now, t) ↔ now = w.clock s.clockReads ∧ t = ⟨s.runtime, s.clockReads + 1⟩ := by
  simp only [Worker.now, Prod.mk.injEq, Except.ok.injEq]
  exact and_congr eq_comm eq_comm

/-- A claim of a trigger finds nothing and changes nothing, or is handed out. -/
theorem claimTrigger_eq_ok {owner : StableId} {now leaseUntil : Instant} {s t : WorkerState ε}
    {claim : Option TriggerClaim} (h : w.claimTrigger owner now leaseUntil s = (.ok claim, t)) :
    (claim = none ∧ s.runtime.agenda.tables.claimTrigger owner now leaseUntil = none ∧ t = s) ∨
      ∃ issued tables, claim = some issued ∧
        s.runtime.agenda.tables.claimTrigger owner now leaseUntil = some (issued, tables) ∧
        t = ⟨{ s.runtime with agenda := { s.runtime.agenda with
          tables := tables
          triggerClaims := s.runtime.agenda.triggerClaims ++ [issued] } }, s.clockReads⟩ := by
  obtain ⟨runtime, hexec, hresult, rfl⟩ := transact_eq_ok.mp h
  simp only [RuntimeState.exec, AgendaSide.exec, bind_eq_ok, pure_eq_ok] at hexec
  obtain ⟨side, hside, rfl⟩ := hexec
  obtain rfl := Except.ok.inj hresult
  split at hside
  · rename_i hnone
    obtain rfl := Except.ok.inj hside
    exact .inl ⟨by rw [hnone, Option.map_none], hnone, rfl⟩
  · rename_i issued tables hclaim
    obtain rfl := Except.ok.inj hside
    exact .inr ⟨issued, tables, by rw [hclaim, Option.map_some], hclaim, rfl⟩

theorem claimAgenda_eq_ok {owner : StableId} {now leaseUntil : Instant} {s t : WorkerState ε}
    {claim : Option AgendaClaim} (h : w.claimAgenda owner now leaseUntil s = (.ok claim, t)) :
    (claim = none ∧ s.runtime.agenda.tables.nextAgenda now = none ∧ t = s) ∨
      ∃ issued tables, claim = some issued ∧
        s.runtime.agenda.tables.claimAgenda owner now leaseUntil = .ok (some issued, tables) ∧
        t = ⟨{ s.runtime with agenda := { s.runtime.agenda with
          tables := tables
          agendaClaims := s.runtime.agenda.agendaClaims ++ [issued] } }, s.clockReads⟩ := by
  obtain ⟨runtime, hexec, hresult, rfl⟩ := transact_eq_ok.mp h
  simp only [RuntimeState.exec, AgendaSide.exec, bind_eq_ok, pure_eq_ok, Prod.exists] at hexec
  obtain ⟨side, ⟨found, tables, hclaim, rfl⟩, rfl⟩ := hexec
  rw [hclaim] at hresult
  obtain rfl := Except.ok.inj hresult
  cases found with
  | none =>
    rcases AgendaTables.claimAgenda_eq_ok hclaim with ⟨hnone, _, rfl⟩ | ⟨_, _, _, _, _, _, _, _, h, _⟩
    · exact .inl ⟨rfl, hnone, by simp⟩
    · exact absurd h (by simp)
  | some issued => exact .inr ⟨issued, tables, rfl, hclaim, rfl⟩

theorem claimOutbox_eq_ok {owner : StableId} {now leaseUntil : Instant} {s t : WorkerState ε}
    {claim : Option OutboxClaim} (h : w.claimOutbox owner now leaseUntil s = (.ok claim, t)) :
    (claim = none ∧ s.runtime.effects.tables.claimOutbox owner now leaseUntil = none ∧ t = s) ∨
      ∃ issued tables, claim = some issued ∧
        s.runtime.effects.tables.claimOutbox owner now leaseUntil = some (issued, tables) ∧
        t = ⟨{ s.runtime with effects := { s.runtime.effects with
          tables := tables
          outboxClaims := s.runtime.effects.outboxClaims ++ [issued] } }, s.clockReads⟩ := by
  obtain ⟨runtime, hexec, hresult, rfl⟩ := transact_eq_ok.mp h
  simp only [RuntimeState.exec, EffectSide.exec, bind_eq_ok, pure_eq_ok] at hexec
  obtain ⟨side, hside, rfl⟩ := hexec
  obtain rfl := Except.ok.inj hresult
  split at hside
  · rename_i hnone
    obtain rfl := Except.ok.inj hside
    exact .inl ⟨by rw [hnone, Option.map_none], hnone, rfl⟩
  · rename_i issued tables hclaim
    obtain rfl := Except.ok.inj hside
    exact .inr ⟨issued, tables, by rw [hclaim, Option.map_some], hclaim, rfl⟩

theorem claimAmbiguous_eq_ok {owner : StableId} {now leaseUntil : Instant} {s t : WorkerState ε}
    {claim : Option OutboxClaim} (h : w.claimAmbiguous owner now leaseUntil s = (.ok claim, t)) :
    (claim = none ∧ s.runtime.effects.tables.claimAmbiguous owner now leaseUntil = none ∧ t = s) ∨
      ∃ issued tables, claim = some issued ∧
        s.runtime.effects.tables.claimAmbiguous owner now leaseUntil = some (issued, tables) ∧
        t = ⟨{ s.runtime with effects := { s.runtime.effects with
          tables := tables
          outboxClaims := s.runtime.effects.outboxClaims ++ [issued] } }, s.clockReads⟩ := by
  obtain ⟨runtime, hexec, hresult, rfl⟩ := transact_eq_ok.mp h
  simp only [RuntimeState.exec, EffectSide.exec, bind_eq_ok, pure_eq_ok] at hexec
  obtain ⟨side, hside, rfl⟩ := hexec
  obtain rfl := Except.ok.inj hresult
  split at hside
  · rename_i hnone
    obtain rfl := Except.ok.inj hside
    exact .inl ⟨by rw [hnone, Option.map_none], hnone, rfl⟩
  · rename_i issued tables hclaim
    obtain rfl := Except.ok.inj hside
    exact .inr ⟨issued, tables, by rw [hclaim, Option.map_some], hclaim, rfl⟩

-- ════════════════════════════════════════════════════════════════════════
-- Runs of the runtime
-- ════════════════════════════════════════════════════════════════════════

/-- A run of the runtime whose transactions meet a condition; the clock goes on. -/
structure Runs (w : Worker ε) (A : RuntimeState ε → RuntimeAction ε → Prop)
    (s t : WorkerState ε) : Prop where
  path : ∃ tr, ((runtime w.hooks).restrict A).Path s.runtime tr t.runtime
  clock : s.clockReads ≤ t.clockReads

section Runs

variable {A : RuntimeState ε → RuntimeAction ε → Prop} {s t : WorkerState ε}

instance : IsPreorder (WorkerState ε) (w.Runs A) where
  refl s := ⟨⟨[], .refl⟩, le_rfl⟩
  trans s t u hst htu := by
    obtain ⟨tr, htr⟩ := hst.path
    obtain ⟨tr', htr'⟩ := htu.path
    exact ⟨⟨tr ++ tr', htr.append htr'⟩, hst.clock.trans htu.clock⟩

theorem Runs.exists_path (h : w.Runs A s t) :
    ∃ tr, (runtime w.hooks).Path s.runtime tr t.runtime := by
  obtain ⟨tr, htr⟩ := h.path
  exact ⟨tr, htr.of_restrict⟩

theorem Runs.reachable (h : w.Runs A s t) (hs : (runtime w.hooks).Reachable s.runtime) :
    (runtime w.hooks).Reachable t.runtime := by
  obtain ⟨tr, htr⟩ := h.exists_path
  exact htr.reachable hs

/-- Every run of the procedure is a run of the runtime. -/
abbrev Follows (w : Worker ε) (A : RuntimeState ε → RuntimeAction ε → Prop)
    (x : WorkerProcess ε α) : Prop :=
  Process.Keeps (w.Runs A) x

theorem follows_now : w.Follows A w.now := fun _ => ⟨⟨[], .refl⟩, Nat.le_succ _⟩

theorem follows_read (f : RuntimeStore ε → Outcome α) : w.Follows A (read f) := fun s => refl_of _ s

theorem follows_check (c : Prop) [Decidable c] (e : Failure) : w.Follows A (check c e) :=
  Process.keeps_lift _

theorem follows_callChannel (channel : ℕ → Except Raised α) : w.Follows A (callChannel channel) :=
  fun s => refl_of _ s

/-- A transaction is one step of the runtime, or none. -/
theorem follows_transact {action : RuntimeAction ε} (h : ∀ s, A s action)
    (result : RuntimeState ε → Outcome α) : w.Follows A (w.transact action result) := by
  intro s
  unfold transact
  split
  · rename_i runtime hexec
    exact ⟨⟨_, .snoc .refl ⟨hexec, h _⟩⟩, le_rfl⟩
  · exact ⟨⟨[], .refl⟩, le_rfl⟩

theorem follows_callPort {port : ℕ → RuntimeStore ε → Except Raised α × ε}
    (h : ∀ n (s : RuntimeState ε), A s (.environment (port n s.store).2)) :
    w.Follows A (w.callPort port) := by
  intro s
  exact ⟨⟨_, .snoc .refl ⟨show _ = _ from rfl, h s.clockReads s.runtime⟩⟩, le_rfl⟩

end Runs

end Worker

open Worker

section Cycle

variable {ε : Type} {w : Worker ε} {context : ServiceRuntimeContext}
  {A : RuntimeState ε → RuntimeAction ε → Prop}

/-- A condition that the transactions of a wake meet. -/
structure Worker.WakeActions (w : Worker ε) (A : RuntimeState ε → RuntimeAction ε → Prop) :
    Prop where
  agenda : ∀ s action, A s (.agenda action)
  commit : ∀ s claim semantic, A s (.commitSemanticDecision claim semantic)
  intelligence : ∀ n s request, A s (.environment (w.intelligence n s.store request).2)

theorem WakeService.follows_materializeClaim (h : w.WakeActions A) (claim : TriggerClaim)
    (now : Instant) : w.Follows A (WakeService.materializeClaim w context claim now) :=
  (follows_transact (fun s => h.agenda s _) _).bind fun _ => Process.keeps_pure _

theorem WakeService.follows_materializeNext (h : w.WakeActions A) :
    w.Follows A (WakeService.materializeNext w context) := by
  refine follows_now.bind fun now => (follows_transact (fun s => h.agenda s _) _).bind
    fun claim => ?_
  cases claim with
  | none => exact Process.keeps_pure _
  | some claim => exact follows_materializeClaim h claim now

theorem WakeService.follows_processItem (h : w.WakeActions A) (claim : AgendaClaim)
    (now : Instant) : w.Follows A (WakeService.processItem w context claim now) := by
  refine (follows_read _).bind fun wake => (follows_read _).bind fun mandate => ?_
  refine Process.Keeps.handle ?_ fun raised => ?_
  · unfold decideItem
    split
    · exact follows_transact (fun s => h.commit s _ _) _
    · refine (follows_callPort fun n s => h.intelligence n s _).bind fun returned => ?_
      unfold commitReturned
      split
      · exact follows_transact (fun s => h.commit s _ _) _
      · exact (follows_read _).bind fun _ => Process.keeps_raise _
  · cases raised with
    | adapter failure => exact follows_transact (fun s => h.commit s _ _) _
    | _ => exact (follows_transact (fun s => h.agenda s _) _).bind fun _ => Process.keeps_raise _

theorem WakeService.follows_wakeLoop (h : w.WakeActions A) (remaining selected : ℕ) :
    w.Follows A (WakeService.wakeLoop w context remaining selected) := by
  induction remaining generalizing selected with
  | zero => exact Process.keeps_pure _
  | succ remaining ih =>
    refine follows_now.bind fun now => (follows_transact (fun s => h.agenda s _) _).bind
      fun claim => ?_
    cases claim with
    | none => exact Process.keeps_pure _
    | some claim => exact (follows_processItem h claim now).bind fun _ => ih _

theorem WakeService.follows_run (h : w.WakeActions A) : w.Follows A (WakeService.run w context) :=
  (follows_wakeLoop h _ _).bind fun _ => (follows_read _).bind fun _ => Process.keeps_pure _

theorem Worker.wakeActions_all (w : Worker ε) : w.WakeActions fun _ _ => True :=
  ⟨fun _ _ => trivial, fun _ _ _ => trivial, fun _ _ _ => trivial⟩

/-- A condition that the steps of a validation meet. -/
structure Worker.ValidationActions (w : Worker ε) (A : RuntimeState ε → RuntimeAction ε → Prop) :
    Prop where
  load : ∀ s claim mandateId, A s (.loadDispatchBundle claim mandateId)
  authorizer : ∀ n s proposal approval,
    A s (.environment (w.policyAuthorizer n s.store proposal approval).2)

/-- A condition that the transactions on effects meet. -/
structure Worker.EffectActions (w : Worker ε) (A : RuntimeState ε → RuntimeAction ε → Prop) :
    Prop extends w.ValidationActions A where
  effect : ∀ s action, A s (.effect action)

theorem Worker.effectActions_all (w : Worker ε) : w.EffectActions fun _ _ => True :=
  ⟨⟨fun _ _ _ => trivial, fun _ _ _ _ => trivial⟩, fun _ _ => trivial⟩

theorem DispatchService.follows_validateExactEffect (h : w.ValidationActions A) (claim : OutboxClaim) :
    w.Follows A (DispatchService.validateExactEffect w context claim) := by
  refine (follows_transact (fun s => h.load s _ _) _).bind fun bundle => ?_
  refine (follows_read _).bind fun mandate => (follows_check _ _).bind fun _ => ?_
  refine (follows_check _ _).bind fun _ => (follows_check _ _).bind fun _ => ?_
  refine (follows_check _ _).bind fun _ => (Process.keeps_lift _).bind fun _ => ?_
  refine follows_now.bind fun evaluatedAt => (Process.keeps_lift _).bind fun _ => ?_
  refine (follows_callPort fun n s => h.authorizer n s _ _).bind fun _ => ?_
  exact (follows_check _ _).bind fun _ => Process.keeps_pure _

theorem DispatchService.follows_requireLiveClaim (claim : OutboxClaim) :
    w.Follows A (DispatchService.requireLiveClaim w claim) :=
  follows_now.bind fun _ => (follows_check _ _).bind fun _ => Process.keeps_pure _

theorem DispatchService.follows_reconciledRetry (h : w.ValidationActions A) (claim : OutboxClaim)
    (outcome : ReconciliationOutcome) :
    w.Follows A (DispatchService.reconciledRetry w context claim outcome) := by
  unfold reconciledRetry
  cases outcome.kind with
  | confirmedAbsent => exact (follows_validateExactEffect h claim).bind fun _ => Process.keeps_pure _
  | _ => exact Process.keeps_pure _

theorem DispatchService.follows_dispatchClaim (h : w.EffectActions A) (claim : OutboxClaim)
    (now : Instant) : w.Follows A (DispatchService.dispatchClaim w context claim now) := by
  refine (follows_validateExactEffect h.toValidationActions claim).bind fun bundle => ?_
  refine (follows_transact (fun s => h.effect s _) _).bind fun started => ?_
  refine (follows_transact (fun s => h.effect s _) _).bind fun _ => ?_
  refine (follows_callChannel _).bind fun outcome => follows_now.bind fun occurredAt => ?_
  exact (follows_transact (fun s => h.effect s _) _).bind fun _ => Process.keeps_pure _

theorem DispatchService.follows_dispatchOnce (h : w.EffectActions A) :
    w.Follows A (DispatchService.dispatchOnce w context) := by
  refine follows_now.bind fun now => (follows_transact (fun s => h.effect s _) _).bind
    fun claim => ?_
  cases claim with
  | none => exact Process.keeps_pure _
  | some claim => exact follows_dispatchClaim h claim now

theorem DispatchService.follows_reconcileClaim (h : w.EffectActions A) (claim : OutboxClaim) :
    w.Follows A (DispatchService.reconcileClaim w context claim) := by
  refine (follows_requireLiveClaim claim).bind fun _ => ?_
  refine (follows_validateExactEffect h.toValidationActions claim).bind fun bundle => ?_
  refine (follows_requireLiveClaim claim).bind fun _ => (follows_callChannel _).bind fun _ => ?_
  refine (follows_requireLiveClaim claim).bind fun _ => ?_
  refine (follows_reconciledRetry h.toValidationActions claim _).bind fun next => ?_
  refine (follows_requireLiveClaim claim).bind fun _ => ?_
  exact (follows_transact (fun s => h.effect s _) _).bind fun _ => Process.keeps_pure _

theorem DispatchService.follows_reconcileOnce (h : w.EffectActions A) :
    w.Follows A (DispatchService.reconcileOnce w context) := by
  refine follows_now.bind fun now => (follows_transact (fun s => h.effect s _) _).bind
    fun claim => ?_
  cases claim with
  | none => exact Process.keeps_pure _
  | some claim => exact follows_reconcileClaim h claim

/-- A cycle of the worker is a run of the runtime, even when it raises. -/
theorem P4RuntimeController.follows_processOnce :
    w.Follows (fun _ _ => True) (P4RuntimeController.processOnce w context) := by
  refine (follows_read _).bind fun durable => (follows_check _ _).bind fun _ => ?_
  refine (WakeService.follows_materializeNext w.wakeActions_all).bind fun materialized => ?_
  refine (WakeService.follows_run w.wakeActions_all).bind fun result => ?_
  refine (DispatchService.follows_reconcileOnce w.effectActions_all).bind fun reconciled => ?_
  exact (DispatchService.follows_dispatchOnce w.effectActions_all).bind
    fun dispatched => Process.keeps_pure _

end Cycle

end DigitalColleagues
