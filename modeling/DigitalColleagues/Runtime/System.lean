import DigitalColleagues.Lib.Transition
import DigitalColleagues.Store.Runtime

/-!
# Runs of the runtime store

Any number of workers on one colleague, as an interleaving of the store's
transactions. A worker may use any claim that was ever handed out, however
stale; one that crashes simply takes no further step. A transaction that raises
rolls back and is no step.
-/

namespace DigitalColleagues

/-- The agenda tables and every claim handed out for them so far. -/
structure AgendaSide where
  tables : AgendaTables
  triggerClaims : List TriggerClaim
  agendaClaims : List AgendaClaim

/-- The effect tables, every claim handed out for them so far, and the started
    attempts whose worker has not called the channel yet. -/
structure EffectSide where
  tables : EffectTables
  outboxClaims : List OutboxClaim
  started : List EffectAttempt

inductive AgendaAction
  | ingestEvent (event : InputEvent) (idempotencyKey : String) (triggerId : StableId)
  | ingestTimer (occurrence : TimerOccurrence) (idempotencyKey : String) (triggerId : StableId)
  | claimTrigger (owner : StableId) (now leaseUntil : Instant)
  | materializeAgenda (claim : TriggerClaim) (wakeCycleId agendaItemId : StableId)
      (actor : Principal) (occurredAt : Instant)
  | claimAgenda (owner : StableId) (now leaseUntil : Instant)
  | releaseAgenda (claim : AgendaClaim)

inductive EffectAction
  | claimOutbox (owner : StableId) (now leaseUntil : Instant)
  | claimAmbiguous (owner : StableId) (now leaseUntil : Instant)
  | markDispatchStarted (claim : OutboxClaim) (occurredAt : Instant)
  | channelApply (attempt : EffectAttempt)
  | finalizeDispatch (claim : OutboxClaim) (outcome : ChannelOutcome) (fin : Finalization)
  | recoverExpiredDispatches (now : Instant) (resultActor : Principal) (resultId : StableId)
      (resultDigest : Digest)
  | reconcileAmbiguous (claim : OutboxClaim) (outcome : ReconciliationOutcome)
      (fin : Finalization) (nextReconciliationAt : Option Instant)

/-- A transaction or read of some worker, or a change of the rest of the database. -/
inductive RuntimeAction (ε : Type)
  | agenda (action : AgendaAction)
  | effect (action : EffectAction)
  | commitSemanticDecision (claim : AgendaClaim) (semantic : SemanticDecision)
  | commitApprovalAndAttempt (cmd : ApprovalCommand)
  | loadDispatchBundle (claim : OutboxClaim) (mandateId : StableId)
  | environment (rest : ε)

/-- A claim that was handed out at some time. -/
def requireIssued {α : Type} [DecidableEq α] (claim : α) (issued : List α) : Outcome Unit :=
  require (claim ∈ issued) (.persistence "claim was never issued")

def AgendaSide.exec (s : AgendaSide) : AgendaAction → Outcome AgendaSide
  | .ingestEvent event idempotencyKey triggerId => do
    let (_, tables) ← s.tables.ingestEvent event idempotencyKey triggerId
    pure { s with tables := tables }
  | .ingestTimer occurrence idempotencyKey triggerId => do
    let (_, tables) ← s.tables.ingestTimer occurrence idempotencyKey triggerId
    pure { s with tables := tables }
  | .claimTrigger owner now leaseUntil =>
    match s.tables.claimTrigger owner now leaseUntil with
    | none => .ok s
    | some (claim, tables) =>
      .ok { s with tables := tables, triggerClaims := s.triggerClaims ++ [claim] }
  | .materializeAgenda claim wakeCycleId agendaItemId actor occurredAt => do
    requireIssued claim s.triggerClaims
    let (_, tables) ← s.tables.materializeAgenda claim wakeCycleId agendaItemId actor occurredAt
    pure { s with tables := tables }
  | .claimAgenda owner now leaseUntil => do
    let (claim, tables) ← s.tables.claimAgenda owner now leaseUntil
    pure { s with tables := tables, agendaClaims := s.agendaClaims ++ claim.toList }
  | .releaseAgenda claim => do
    requireIssued claim s.agendaClaims
    let tables ← s.tables.releaseAgenda claim
    pure { s with tables := tables }

def EffectSide.exec (s : EffectSide) : EffectAction → Outcome EffectSide
  | .claimOutbox owner now leaseUntil =>
    match s.tables.claimOutbox owner now leaseUntil with
    | none => .ok s
    | some (claim, tables) =>
      .ok { s with tables := tables, outboxClaims := s.outboxClaims ++ [claim] }
  | .claimAmbiguous owner now leaseUntil =>
    match s.tables.claimAmbiguous owner now leaseUntil with
    | none => .ok s
    | some (claim, tables) =>
      .ok { s with tables := tables, outboxClaims := s.outboxClaims ++ [claim] }
  | .markDispatchStarted claim occurredAt => do
    requireIssued claim s.outboxClaims
    let (attempt, tables) ← s.tables.markDispatchStarted claim occurredAt
    pure { s with tables := tables, started := s.started ++ [attempt] }
  | .channelApply attempt => do
    requireIssued attempt s.started
    pure { s with started := s.started.erase attempt }
  | .finalizeDispatch claim outcome fin => do
    requireIssued claim s.outboxClaims
    let (_, tables) ← s.tables.finalizeDispatch claim outcome fin
    pure { s with tables := tables }
  | .recoverExpiredDispatches now resultActor resultId resultDigest => do
    let (_, tables) ← s.tables.recoverExpiredDispatches now resultActor resultId resultDigest
    pure { s with tables := tables }
  | .reconcileAmbiguous claim outcome fin nextReconciliationAt => do
    requireIssued claim s.outboxClaims
    let (_, tables) ← s.tables.reconcileAmbiguous claim outcome fin nextReconciliationAt
    pure { s with tables := tables }

/-- The state of a run: the store of one colleague and the claims in circulation. -/
structure RuntimeState (ε : Type) where
  agenda : AgendaSide
  effects : EffectSide
  rest : ε

namespace RuntimeState

variable {ε : Type} (hooks : StoreHooks ε)

/-- A store without triggers, agenda items or effects. -/
def initial (rest : ε) : RuntimeState ε := ⟨⟨.empty, [], []⟩, ⟨.empty, [], []⟩, rest⟩

def store (s : RuntimeState ε) : RuntimeStore ε := ⟨s.agenda.tables, s.effects.tables, s.rest⟩

def withStore (s : RuntimeState ε) (store : RuntimeStore ε) : RuntimeState ε :=
  ⟨{ s.agenda with tables := store.agenda }, { s.effects with tables := store.effects },
    store.rest⟩

def exec (s : RuntimeState ε) : RuntimeAction ε → Outcome (RuntimeState ε)
  | .agenda action => do
    let agenda ← s.agenda.exec action
    pure { s with agenda := agenda }
  | .effect action => do
    let effects ← s.effects.exec action
    pure { s with effects := effects }
  | .commitSemanticDecision claim semantic => do
    requireIssued claim s.agenda.agendaClaims
    let store ← s.store.commitSemanticDecision hooks claim semantic
    pure (s.withStore store)
  | .commitApprovalAndAttempt cmd => do
    let (_, store) ← s.store.commitApprovalAndAttempt hooks cmd
    pure (s.withStore store)
  | .loadDispatchBundle claim mandateId => do
    requireIssued claim s.effects.outboxClaims
    let _ ← s.store.loadDispatchBundle hooks claim mandateId
    pure s
  | .environment rest => .ok { s with rest := rest }

end RuntimeState

/-- The runtime of one colleague. -/
def runtime {ε : Type} (hooks : StoreHooks ε) :
    TransitionSystem (RuntimeState ε) (RuntimeAction ε) where
  init s := ∃ rest, s = .initial rest
  step s a t := s.exec hooks a = .ok t

/-- The runtimes of all colleague namespaces of a database. -/
def database {ε : Type} (hooks : StoreHooks ε) :
    TransitionSystem (StableId → RuntimeState ε) (StableId × RuntimeAction ε) :=
  (runtime hooks).indexed StableId

-- ════════════════════════════════════════════════════════════════════════
-- Concrete runs
-- ════════════════════════════════════════════════════════════════════════

/-- Whether a run succeeds with a trace and a final state that meet `p`. -/
def RuntimeState.runsTo {ε : Type} (hooks : StoreHooks ε) (s : RuntimeState ε)
    (as : List (RuntimeState ε → RuntimeAction ε))
    (p : List (Transition (RuntimeState ε) (RuntimeAction ε)) → RuntimeState ε → Bool) : Bool :=
  TransitionSystem.runsTo (RuntimeState.exec hooks) s as p

theorem RuntimeState.exists_path_of_runsTo {ε : Type} (hooks : StoreHooks ε) (s : RuntimeState ε)
    (as : List (RuntimeState ε → RuntimeAction ε))
    (p : List (Transition (RuntimeState ε) (RuntimeAction ε)) → RuntimeState ε → Bool)
    (h : s.runsTo hooks as p = true) :
    ∃ tr t, (runtime hooks).Path s tr t ∧ p tr t = true :=
  TransitionSystem.exists_path_of_runsTo (fun _ _ _ hs => hs) h

/-- A run of one colleague's store is a run of the database. -/
theorem exists_database_of_runsTo {ε : Type} (hooks : StoreHooks ε) (rest : ε)
    (as : List (RuntimeState ε → RuntimeAction ε)) (ns : StableId) (p : RuntimeState ε → Bool)
    (h : (RuntimeState.initial rest).runsTo hooks as (fun _ => p) = true) :
    ∃ db, (database hooks).Reachable db ∧ p (db ns) = true := by
  obtain ⟨tr, s, hpath, hp⟩ := RuntimeState.exists_path_of_runsTo _ _ _ _ h
  obtain ⟨db, hdb, rfl⟩ := hpath.exists_indexed ⟨rest, rfl⟩ ns
  exact ⟨db, hdb, hp⟩

def sampleColleague : StableId := stableId "colleague-1"

/-- A service principal, for concrete runs. -/
def sampleWorker : Principal where
  principalId := stableId "worker-1"
  kind := .service
  roles := []
  revision := 1
  roles_nodup := List.nodup_nil
  human_of_roles := no_roles .service

/-- An event that asks for its own priority, for concrete runs. -/
def sampleEvent (eventId eventType : StableId) (priority : ℤ) : InputEvent where
  eventId := eventId
  eventType := eventType
  state := .received
  safeProjection := ⟨[("priority", .int priority)], by simp⟩
  payloadDigest := 0
  actor := sampleWorker
  correlationId := eventId
  causationId := none
  occurredAt := 0
  revision := 1
  policy := none

/-- The claim that `sampleWorker` gets for a trigger claimed for the first time. -/
def sampleTriggerClaim (type : SourceRecordType) (triggerId sourceId : StableId) : TriggerClaim where
  triggerId := triggerId
  sourceRecordType := type
  sourceId := sourceId
  leaseOwner := sampleWorker.principalId
  leaseUntil := 100
  fencingToken := 1
  correlationId := sourceId
  causationId := sourceId

/-- An event ingested, claimed and materialized by `sampleWorker`. -/
def sampleMaterialization {ε : Type} (event : InputEvent)
    (triggerId wakeCycleId agendaItemId : StableId) :
    List (RuntimeState ε → RuntimeAction ε) :=
  [fun _ => .agenda (.ingestEvent event event.eventId.val triggerId),
    fun _ => .agenda (.claimTrigger sampleWorker.principalId 10 100),
    fun _ => .agenda (.materializeAgenda
      (sampleTriggerClaim .inputEvent triggerId event.eventId) wakeCycleId agendaItemId
      sampleWorker 10)]

/-- Two events of one type, materialized one after the other. -/
def twoEventsCoalesced {ε : Type} : List (RuntimeState ε → RuntimeAction ε) :=
  sampleMaterialization (sampleEvent (stableId "event-1") (stableId "message") 5)
      (stableId "trigger-1") (stableId "wake-1") (stableId "agenda-1") ++
    sampleMaterialization (sampleEvent (stableId "event-2") (stableId "message") 5)
      (stableId "trigger-2") (stableId "wake-2") (stableId "agenda-2")

def sampleClaimAgenda {ε : Type} (_ : RuntimeState ε) : RuntimeAction ε :=
  .agenda (.claimAgenda sampleWorker.principalId 10 100)

/-- A decision without an effect about the agenda item claimed last. -/
def sampleCommit {ε : Type} (decisionId : StableId) (s : RuntimeState ε) : RuntimeAction ε :=
  match s.agenda.agendaClaims.getLast? with
  | none => .environment s.rest
  | some claim => .commitSemanticDecision claim
    { outcome := .noOp
      decision :=
        { decisionId := decisionId
          wakeCycleId := claim.agendaItem.wakeCycleId
          agendaItemId := claim.agendaItem.agendaItemId
          kind := .noAction
          rationale := "nothing to do"
          proposedEffectId := none
          actor := sampleWorker
          correlationId := decisionId
          occurredAt := 20
          revision := 1
          policy := none }
      proposal := none
      requestId := decisionId }

/-- The human who approves, for concrete runs. -/
def sampleApprover : Principal where
  principalId := stableId "approver-1"
  kind := .human
  roles := [.colleagueUser]
  revision := 1

theorem offline_sorted :
    ([("network", Json.bool false)].map Prod.fst).Pairwise (· < ·) := by simp

/-- Parameters that deny the network, for concrete runs. -/
def offline : FrozenJsonObject := ⟨[("network", .bool false)], offline_sorted⟩

theorem sampleCapabilities_unique : UniqueRecords CapabilityGrant.capabilityId
    [⟨stableId "write", "write"⟩] := by decide

theorem sampleConstraints_unique : UniqueRecords Constraint.constraintId
    [⟨stableId "polite", "be polite"⟩] := by decide

/-- A mandate with one boundary, for concrete runs. -/
def sampleMandate : Mandate where
  mandateId := stableId "mandate-1"
  mission := "answer messages"
  serviceRelationship := "assistant"
  responsibilities := [⟨stableId "reply", "reply", [], []⟩]
  capabilities := [⟨stableId "write", "write"⟩]
  constraints := [⟨stableId "polite", "be polite"⟩]
  workingContext := .empty
  effectBoundaries := [{
    boundaryId := stableId "boundary-1"
    effectKind := .referenceMessage
    allowedDestinationKinds := ["channel"]
    allowedActions := ["send"]
    constraints := offline
    humanApprovalRequired := true }]
  revision := 1
  issuedBy := sampleApprover
  effectiveAt := 0
  capabilities_unique := sampleCapabilities_unique
  constraints_unique := sampleConstraints_unique

/-- A message that may be attempted twice, for concrete runs. -/
def sampleProposal : EffectProposal where
  proposalId := stableId "proposal-1"
  decisionId := stableId "decision-1"
  effectKind := .referenceMessage
  destination := ⟨stableId "channel", "inbox"⟩
  action := stableId "send"
  safeProjection := .empty
  constraints :=
    { boundaryId := stableId "boundary-1"
      idempotencyKey := stableId "effect-1"
      validUntil := 1000
      maximumAttempts := 2
      parameters := offline }
  state := .pendingApproval
  actor := sampleWorker
  correlationId := stableId "correlation-1"
  occurredAt := 20
  revision := 1
  mandate := some ⟨stableId "mandate-1", 1⟩
  policy := none
  payloadDigest := 0
  proposalDigest := 0
  payload := .empty
  expires := by decide

/-- A store that knows the approver and the mandate. -/
def sampleAuthority : AuthorityRecords where
  principals := ((Records.empty).insertRecord sampleApprover).toOption.getD .empty
  mandates := ((Records.empty).insertRecord sampleMandate).toOption.getD .empty

/-- The sample proposal, made about the agenda item claimed last. -/
def samplePropose {ε : Type} (s : RuntimeState ε) : RuntimeAction ε :=
  match s.agenda.agendaClaims.getLast? with
  | none => .environment s.rest
  | some claim => .commitSemanticDecision claim
    { outcome := .proposal
      decision :=
        { decisionId := stableId "decision-1"
          wakeCycleId := claim.agendaItem.wakeCycleId
          agendaItemId := claim.agendaItem.agendaItemId
          kind := .proposeEffect
          rationale := "a reply is due"
          proposedEffectId := some (stableId "proposal-1")
          actor := sampleWorker
          correlationId := stableId "correlation-1"
          occurredAt := 20
          revision := 1
          policy := none }
      proposal := some sampleProposal
      requestId := stableId "request-1" }

def sampleApproval : ApprovalCommand where
  mandateId := stableId "mandate-1"
  expectedMandateRevision := 1
  decision :=
    { approvalDecisionId := stableId "approval-1"
      proposalId := stableId "proposal-1"
      proposalRevision := 1
      proposalPayloadDigest := 0
      proposalDigest := 0
      choice := .approve
      author := sampleApprover
      idempotencyKey := stableId "approve-1"
      correlationId := stableId "correlation-1"
      occurredAt := 25
      validUntil := 900
      revision := 1 }
  effectAttemptId := stableId "attempt-1"
  outboxId := stableId "outbox-1"
  serviceActor := sampleWorker
  occurredAt := 30

/-- A proposal made about one event and approved. -/
def sampleApproved {ε : Type} : List (RuntimeState ε → RuntimeAction ε) :=
  sampleMaterialization (sampleEvent (stableId "event-1") (stableId "message") 5)
      (stableId "trigger-1") (stableId "wake-1") (stableId "agenda-1") ++
    [sampleClaimAgenda, samplePropose, fun _ => .commitApprovalAndAttempt sampleApproval]

/-- One dispatch at a given time, with its outcome and the retry asked for. -/
def sampleDispatch {ε : Type} (now : Instant) (kind : ChannelOutcomeKind) (resultId : StableId)
    (nextAttemptId : Option StableId) : List (RuntimeState ε → RuntimeAction ε) :=
  [fun _ => .effect (.claimOutbox sampleWorker.principalId now (now + 100)),
    fun s => match s.effects.outboxClaims.getLast? with
      | none => .environment s.rest
      | some claim => .effect (.markDispatchStarted claim now),
    fun s => match s.effects.started.getLast? with
      | none => .environment s.rest
      | some attempt => .effect (.channelApply attempt),
    fun s => match s.effects.outboxClaims.getLast? with
      | none => .environment s.rest
      | some claim => .effect (.finalizeDispatch claim ⟨kind, .empty, 0⟩
          ⟨resultId, sampleWorker, now + 1, nextAttemptId⟩)]

-- ════════════════════════════════════════════════════════════════════════
-- The agenda side of a step
-- ════════════════════════════════════════════════════════════════════════

/-- A condition on the row and the claim of every commit of a decision. -/
def CommitsWhen {ε : Type} (C : AgendaRow → AgendaClaim → Prop) (s : RuntimeState ε) :
    RuntimeAction ε → Prop
  | .commitSemanticDecision claim _ =>
    ∀ row, s.agenda.tables.requireAgendaClaim claim = .ok row → C row claim
  | _ => True

instance {ε : Type} (C : AgendaRow → AgendaClaim → Prop) [∀ row claim, Decidable (C row claim)]
    (s : RuntimeState ε) (a : RuntimeAction ε) : Decidable (CommitsWhen C s a) :=
  match a with
  | .commitSemanticDecision claim _ => inferInstanceAs (Decidable (∀ row,
      s.agenda.tables.requireAgendaClaim claim = .ok row → C row claim))
  | .agenda _ | .effect _ | .commitApprovalAndAttempt _ | .loadDispatchBundle _ _ | .environment _ =>
    inferInstanceAs (Decidable True)

theorem commitsWhen_true {ε : Type} (s : RuntimeState ε) (a : RuntimeAction ε) :
    CommitsWhen (fun _ _ => True) s a := by
  cases a <;> simp [CommitsWhen]

/-- What one step of a run does to the agenda side: nothing, a transaction on
    it, or the checkpoint of a decision that an issued claim owns. -/
inductive AgendaSide.Step (C : AgendaRow → AgendaClaim → Prop) : AgendaSide → AgendaSide → Prop
  | refl (s : AgendaSide) : Step C s s
  | exec {s t : AgendaSide} {a : AgendaAction} : s.exec a = .ok t → Step C s t
  | commit {s : AgendaSide} {claim : AgendaClaim} {row : AgendaRow} {decisions : Records Decision}
      {tables : AgendaTables} : claim ∈ s.agendaClaims →
      s.tables.requireAgendaClaim claim = .ok row → C row claim →
      { s.tables with decisions := decisions }.checkpointDecision claim row
        claim.agendaItem.wakeCycleId = .ok tables →
      Step C s { s with tables := tables }

theorem RuntimeState.agenda_step {ε : Type} {hooks : StoreHooks ε}
    {C : AgendaRow → AgendaClaim → Prop} {s t : RuntimeState ε} {a : RuntimeAction ε}
    (h : s.exec hooks a = .ok t) (hC : CommitsWhen C s a) :
    AgendaSide.Step C s.agenda t.agenda := by
  cases a with
  | agenda action =>
    simp only [exec, bind_eq_ok, pure_eq_ok] at h
    obtain ⟨agenda, hagenda, rfl⟩ := h
    exact .exec hagenda
  | effect action =>
    simp only [exec, bind_eq_ok, pure_eq_ok] at h
    obtain ⟨effects, _, rfl⟩ := h
    exact .refl _
  | commitSemanticDecision claim semantic =>
    simp only [exec, requireIssued, bind_eq_ok, require_eq_ok, pure_eq_ok, exists_const] at h
    obtain ⟨hissued, store, hstore, rfl⟩ := h
    obtain ⟨row, _, _, decisions, agenda, _, hrow, _, _, _, _, hagenda, rfl⟩ :=
      RuntimeStore.commitSemanticDecision_eq_ok hooks hstore
    exact .commit hissued hrow (hC row hrow) hagenda
  | commitApprovalAndAttempt cmd =>
    simp only [exec, bind_eq_ok, pure_eq_ok, Prod.exists,
      RuntimeStore.commitApprovalAndAttempt, Prod.mk.injEq] at h
    obtain ⟨_, _, ⟨_, _, _, _, _, rfl⟩, rfl⟩ := h
    exact .refl _
  | loadDispatchBundle claim mandateId =>
    simp only [exec, bind_eq_ok, pure_eq_ok] at h
    obtain ⟨_, _, _, _, rfl⟩ := h
    exact .refl _
  | environment rest =>
    obtain rfl := Except.ok.inj h
    exact .refl _

/-- An invariant of the agenda side is kept by every run whose commits meet the
    condition. -/
theorem agenda_preserved {ε : Type} {hooks : StoreHooks ε} {C : AgendaRow → AgendaClaim → Prop}
    {I : AgendaSide → Prop} (hI : ∀ s t, I s → AgendaSide.Step C s t → I t) :
    ((runtime hooks).restrict (CommitsWhen C)).Preserved fun s => I s.agenda :=
  fun s _ t hs hstep => hI s.agenda t.agenda hs (RuntimeState.agenda_step hstep.1 hstep.2)

theorem agenda_invariant_when {ε : Type} {hooks : StoreHooks ε}
    {C : AgendaRow → AgendaClaim → Prop} {I : AgendaSide → Prop} (hinit : I ⟨.empty, [], []⟩)
    (hI : ∀ s t, I s → AgendaSide.Step C s t → I t) {s : RuntimeState ε}
    (h : ((runtime hooks).restrict (CommitsWhen C)).Reachable s) : I s.agenda := by
  refine h.invariant (I := fun s => I s.agenda) ?_ (agenda_preserved hI)
  rintro _ ⟨rest, rfl⟩
  exact hinit

/-- An invariant of the agenda side holds in every reachable state. -/
theorem agenda_invariant {ε : Type} {hooks : StoreHooks ε} {I : AgendaSide → Prop}
    (hinit : I ⟨.empty, [], []⟩)
    (hI : ∀ s t, I s → AgendaSide.Step (fun _ _ => True) s t → I t) {s : RuntimeState ε}
    (h : (runtime hooks).Reachable s) : I s.agenda := by
  refine h.invariant (I := fun s => I s.agenda) ?_ fun s a t hs hstep =>
    hI s.agenda t.agenda hs (RuntimeState.agenda_step hstep (commitsWhen_true s a))
  rintro _ ⟨rest, rfl⟩
  exact hinit

end DigitalColleagues
