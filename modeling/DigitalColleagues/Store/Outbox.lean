import DigitalColleagues.Governance.Approvals
import DigitalColleagues.Lib.Text
import DigitalColleagues.Store.Triggers

/-!
# The outbox

Approval of an effect with its first attempt and outbox row, the leased claims
of the row, and the transitions of row and attempt through dispatch, recovery
and reconciliation.
-/

namespace DigitalColleagues

open Keyed

instance : DurableRecord EffectProposal where
  key p := p.proposalId
  immutable := true
  revision p := p.revision
  Public := EffectProposalContract
  publicData := EffectProposal.toEffectProposalContract

instance : DurableRecord HumanApprovalDecision where
  key := HumanApprovalDecision.approvalDecisionId
  immutable := true
  revision := HumanApprovalDecision.revision
  Public := HumanApprovalDecision
  publicData := id

instance : DurableRecord EffectAttempt where
  key := EffectAttempt.effectAttemptId
  immutable := false
  revision := EffectAttempt.revision
  Public := EffectAttempt
  publicData := id

instance : DurableRecord ActionResult where
  key := ActionResult.actionResultId
  immutable := true
  revision := ActionResult.revision
  Public := ActionResult
  publicData := id

-- ════════════════════════════════════════════════════════════════════════
-- Outcomes and rows
-- ════════════════════════════════════════════════════════════════════════

inductive ChannelOutcomeKind
  | succeeded
  | knownNotExecuted
  | retryableFailure
  | permanentFailure
  | ambiguous
deriving DecidableEq, Repr

/-- `outcome.kind.value`. -/
def ChannelOutcomeKind.value : ChannelOutcomeKind → String
  | .succeeded => "succeeded"
  | .knownNotExecuted => "known_not_executed"
  | .retryableFailure => "retryable_failure"
  | .permanentFailure => "permanent_failure"
  | .ambiguous => "ambiguous"

structure ChannelOutcome where
  kind : ChannelOutcomeKind
  safeProjection : FrozenJsonObject
  resultDigest : Digest

inductive ReconciliationKind
  | confirmedApplied
  | confirmedAbsent
  | stillUnknown
deriving DecidableEq, Repr

def ReconciliationKind.value : ReconciliationKind → String
  | .confirmedApplied => "confirmed_applied"
  | .confirmedAbsent => "confirmed_absent"
  | .stillUnknown => "still_unknown"

structure ReconciliationOutcome where
  kind : ReconciliationKind
  safeProjection : FrozenJsonObject
  resultDigest : Digest

inductive OutboxState
  | pending
  | claimed
  | dispatching
  | retry
  | ambiguous
  | ambiguousClaimed
  | completed
  | terminalFailed
deriving DecidableEq, Repr

/-- The text of `last_outcome`: the kind of the last outcome, or a count of
    reconciliations that left it unknown. -/
inductive LastOutcome
  | channel (kind : ChannelOutcomeKind)
  | reconciled (kind : ReconciliationKind)
  | stillUnknownWait (count : ℕ)
  | stillUnknownStopped (count : ℕ)
deriving DecidableEq, Repr

/-- What the column holds. -/
def LastOutcome.text : LastOutcome → String
  | .channel kind => kind.value
  | .reconciled kind => kind.value
  | .stillUnknownWait count => "still_unknown_wait" ++ ":" ++ count.repr
  | .stillUnknownStopped count => "still_unknown_stopped" ++ ":" ++ count.repr

/-- A row of `outbox`. -/
structure OutboxRow where
  outboxId : StableId
  proposalId : StableId
  approvalDecisionId : StableId
  effectAttemptId : StableId
  effectIdempotencyKey : StableId
  state : OutboxState
  attemptNumber : ℕ
  maximumAttempts : ℕ
  nextAttemptAt : Instant
  leaseOwner : Option StableId
  leaseUntil : Option Instant
  fencingToken : ℕ
  lastOutcome : Option LastOutcome
  actorPrincipalId : StableId
  correlationId : StableId
  causationId : StableId
  revision : ℕ
deriving DecidableEq

instance : Keyed OutboxRow StableId := ⟨OutboxRow.outboxId⟩

/-- The effect tables of one colleague, with the replay ledgers of the kinds
    `approval`, `proposal_approval` and `effect`. -/
structure EffectTables where
  proposals : Records EffectProposal
  approvals : Records HumanApprovalDecision
  attempts : Records EffectAttempt
  results : Records ActionResult
  approvalLedger : Table (LedgerRow StableId)
  proposalApprovalLedger : Table (LedgerRow (StableId × ℕ))
  effectLedger : Table (LedgerRow StableId)
  outbox : Table OutboxRow

def EffectTables.empty : EffectTables :=
  ⟨.empty, .empty, .empty, .empty, .empty, .empty, .empty, .empty⟩

-- ════════════════════════════════════════════════════════════════════════
-- Approval
-- ════════════════════════════════════════════════════════════════════════

/-- The arguments of `commit_approval_and_attempt` besides the decision. -/
structure ApprovalCommand where
  mandateId : StableId
  expectedMandateRevision : ℕ
  decision : HumanApprovalDecision
  effectAttemptId : StableId
  outboxId : StableId
  serviceActor : Principal
  occurredAt : Instant

/-- What approval reads and writes outside the effect tables: the mandate and
    principal records, and the binding a subclass stores. -/
structure ApprovalContext (β : Type) where
  findMandate : StableId → Option Mandate
  findPrincipal : StableId → Option Principal
  bindEffectApprovalAuthority : EffectProposal → HumanApprovalDecision → Principal → Outcome β

/-- The decision, its attempt when it approved, and whether it is new. -/
structure ApprovalResult where
  decision : HumanApprovalDecision
  attempt : Option EffectAttempt
  accepted : Bool

def firstAttempt (proposal : EffectProposal) (cmd : ApprovalCommand) : EffectAttempt where
  effectAttemptId := cmd.effectAttemptId
  proposalId := proposal.proposalId
  proposalRevision := proposal.revision
  approvalDecisionId := cmd.decision.approvalDecisionId
  attemptNumber := 1
  state := .planned
  actor := cmd.serviceActor
  correlationId := proposal.correlationId
  occurredAt := cmd.occurredAt
  revision := 1

def newOutboxRow (proposal : EffectProposal) (cmd : ApprovalCommand) : OutboxRow where
  outboxId := cmd.outboxId
  proposalId := proposal.proposalId
  approvalDecisionId := cmd.decision.approvalDecisionId
  effectAttemptId := cmd.effectAttemptId
  effectIdempotencyKey := proposal.constraints.idempotencyKey
  state := .pending
  attemptNumber := 1
  maximumAttempts := proposal.constraints.maximumAttempts
  nextAttemptAt := cmd.occurredAt
  leaseOwner := none
  leaseUntil := none
  fencingToken := 0
  lastOutcome := none
  actorPrincipalId := cmd.serviceActor.principalId
  correlationId := proposal.correlationId
  causationId := cmd.decision.approvalDecisionId
  revision := 1

/-- `replace(decision, choice=ApprovalChoice.APPROVE)`. -/
def HumanApprovalDecision.asApproval (d : HumanApprovalDecision) : HumanApprovalDecision :=
  { d with choice := .approve }

namespace EffectTables

/-- The attempt that the outbox row of a decision points at. -/
def attemptOfApproval (s : EffectTables) (approvalDecisionId : StableId) :
    Outcome (Option EffectAttempt) :=
  match s.outbox.rows.find? fun r => decide (r.approvalDecisionId = approvalDecisionId) with
  | none => .ok none
  | some row => do
    let attempt ← s.attempts.getRecord row.effectAttemptId
    pure (some attempt)

/-- The checks of a new decision before it is written. -/
def authorizeApproval {β : Type} (s : EffectTables) (ctx : ApprovalContext β)
    (cmd : ApprovalCommand) : Outcome (EffectProposal × β) := do
  let proposal ← s.proposals.getRecord cmd.decision.proposalId
  let mandate ← orFail (ctx.findMandate cmd.mandateId)
    (.notFound "namespaced durable record was not found")
  let approver ← orFail (ctx.findPrincipal cmd.decision.author.principalId)
    (.notFound "namespaced durable record was not found")
  require (approver = cmd.decision.author)
    (.permissionDenied "approval durable principal binding drifted")
  require (proposal.mandate.map MandateBinding.mandateId = some mandate.mandateId)
    (.permissionDenied "proposal names a different Mandate")
  require (proposal.mandate.map MandateBinding.mandateRevision = some mandate.revision)
    (.permissionDenied "proposal Mandate revision is stale")
  let bound ← ctx.bindEffectApprovalAuthority proposal cmd.decision approver
  authorizeEffectProposal proposal mandate cmd.expectedMandateRevision
  authorizeHumanApproval proposal cmd.decision.asApproval cmd.occurredAt
  pure (proposal, bound)

/-- The decision with its two ledger rows; the `proposal_approval` key is the
    proposal and its revision. -/
def insertDecision (s : EffectTables) (proposal : EffectProposal)
    (decision : HumanApprovalDecision) : Outcome EffectTables := do
  require (s.proposalApprovalLedger.find? (proposal.proposalId, proposal.revision)).isNone
    (.conflict "proposal revision already has a durable decision")
  let approvals ← s.approvals.insertRecord decision
  let approvalLedger ← orFail
    (s.approvalLedger.insert? ⟨decision.idempotencyKey, decision.approvalDecisionId⟩) .integrity
  let proposalApprovalLedger ← orFail
    (s.proposalApprovalLedger.insert?
      ⟨(proposal.proposalId, proposal.revision), decision.approvalDecisionId⟩) .integrity
  pure { s with approvals := approvals, approvalLedger := approvalLedger,
                proposalApprovalLedger := proposalApprovalLedger }

/-- The first attempt of an approved effect with its outbox and ledger rows. -/
def enqueueAttempt (s : EffectTables) (proposal : EffectProposal) (cmd : ApprovalCommand) :
    Outcome EffectTables := do
  let attempts ← s.attempts.insertRecord (firstAttempt proposal cmd)
  require (∀ r ∈ s.outbox.rows, r.effectIdempotencyKey ≠ proposal.constraints.idempotencyKey)
    (.conflict "effect replay or outbox identity conflict")
  let outbox ← orFail (s.outbox.insert? (newOutboxRow proposal cmd))
    (.conflict "effect replay or outbox identity conflict")
  let effectLedger ← orFail
    (s.effectLedger.insert? ⟨proposal.constraints.idempotencyKey, cmd.effectAttemptId⟩)
    (.conflict "effect replay or outbox identity conflict")
  pure { s with attempts := attempts, outbox := outbox, effectLedger := effectLedger }

/-- `commit_approval_and_attempt`: an idempotent replay, a recorded rejection,
    or an approval with its first attempt. -/
def commitApprovalAndAttempt {β : Type} (s : EffectTables) (ctx : ApprovalContext β)
    (cmd : ApprovalCommand) : Outcome (ApprovalResult × Option β × EffectTables) :=
  match s.approvalLedger.find? cmd.decision.idempotencyKey with
  | some replay => do
    let existing ← s.approvals.getRecord replay.recordId
    require (existing.approvalDecisionId = cmd.decision.approvalDecisionId ∧
        existing.proposalId = cmd.decision.proposalId ∧
        existing.proposalRevision = cmd.decision.proposalRevision ∧
        existing.proposalPayloadDigest = cmd.decision.proposalPayloadDigest ∧
        existing.proposalDigest = cmd.decision.proposalDigest ∧
        existing.choice = cmd.decision.choice ∧ existing.author = cmd.decision.author ∧
        existing.idempotencyKey = cmd.decision.idempotencyKey ∧
        existing.correlationId = cmd.decision.correlationId ∧
        existing.revision = cmd.decision.revision)
      (.conflict "approval idempotency replay drifted")
    let attempt ← s.attemptOfApproval cmd.decision.approvalDecisionId
    pure (⟨existing, attempt, false⟩, none, s)
  | none => do
    let (proposal, bound) ← s.authorizeApproval ctx cmd
    let decided ← s.insertDecision proposal cmd.decision
    match cmd.decision.choice with
    | .reject => pure (⟨cmd.decision, none, true⟩, some bound, decided)
    | .approve => do
      let enqueued ← decided.enqueueAttempt proposal cmd
      pure (⟨cmd.decision, some (firstAttempt proposal cmd), true⟩, some bound, enqueued)

theorem insertDecision_eq_ok {s t : EffectTables} {proposal : EffectProposal}
    {decision : HumanApprovalDecision} (h : s.insertDecision proposal decision = .ok t) :
    ∃ approvals approvalLedger proposalApprovalLedger,
      s.proposalApprovalLedger.find? (proposal.proposalId, proposal.revision) = none ∧
      s.approvals.insertRecord decision = .ok approvals ∧
      s.proposalApprovalLedger.insert?
        ⟨(proposal.proposalId, proposal.revision), decision.approvalDecisionId⟩ =
          some proposalApprovalLedger ∧
      t = { s with approvals := approvals, approvalLedger := approvalLedger,
                   proposalApprovalLedger := proposalApprovalLedger } := by
  simp only [insertDecision, bind_eq_ok, require_eq_ok, orFail_eq_ok, pure_eq_ok, exists_const,
    Option.isNone_iff_eq_none] at h
  obtain ⟨hfresh, approvals, happrovals, approvalLedger, _, proposalLedger, hledger, rfl⟩ := h
  exact ⟨approvals, approvalLedger, proposalLedger, hfresh, happrovals, hledger, rfl⟩

theorem enqueueAttempt_eq_ok {s t : EffectTables} {proposal : EffectProposal}
    {cmd : ApprovalCommand} (h : s.enqueueAttempt proposal cmd = .ok t) :
    ∃ attempts outbox effectLedger,
      s.attempts.insertRecord (firstAttempt proposal cmd) = .ok attempts ∧
      s.outbox.insert? (newOutboxRow proposal cmd) = some outbox ∧
      t = { s with attempts := attempts, outbox := outbox, effectLedger := effectLedger } := by
  simp only [enqueueAttempt, bind_eq_ok, require_eq_ok, orFail_eq_ok, pure_eq_ok,
    exists_const] at h
  obtain ⟨attempts, hattempts, _, outbox, houtbox, effectLedger, _, rfl⟩ := h
  exact ⟨attempts, outbox, effectLedger, hattempts, houtbox, rfl⟩

/-- A successful approval changed nothing, or recorded the decision, with an
    attempt when it approved. -/
theorem commitApprovalAndAttempt_eq_ok {β : Type} {s t : EffectTables} {ctx : ApprovalContext β}
    {cmd : ApprovalCommand} {result : ApprovalResult} {bound : Option β}
    (h : s.commitApprovalAndAttempt ctx cmd = .ok (result, bound, t)) :
    (result.accepted = false ∧ bound = none ∧ t = s) ∨
      ∃ proposal b decided, s.authorizeApproval ctx cmd = .ok (proposal, b) ∧ bound = some b ∧
        result.accepted = true ∧ s.insertDecision proposal cmd.decision = .ok decided ∧
        ((cmd.decision.choice = .reject ∧ t = decided) ∨
          (cmd.decision.choice = .approve ∧ decided.enqueueAttempt proposal cmd = .ok t)) := by
  unfold commitApprovalAndAttempt at h
  split at h
  · simp only [bind_eq_ok, pure_eq_ok, Prod.mk.injEq] at h
    obtain ⟨_, _, _, _, _, _, rfl, rfl, rfl⟩ := h
    exact .inl ⟨rfl, rfl, rfl⟩
  · simp only [bind_eq_ok, Prod.exists] at h
    obtain ⟨proposal, b, hauthorize, decided, hdecided, h⟩ := h
    split at h
    · rename_i hchoice
      simp only [pure_eq_ok, Prod.mk.injEq] at h
      obtain ⟨rfl, rfl, rfl⟩ := h
      exact .inr ⟨proposal, b, _, hauthorize, rfl, rfl, hdecided, .inl ⟨hchoice, rfl⟩⟩
    · rename_i hchoice
      simp only [bind_eq_ok, pure_eq_ok, Prod.mk.injEq] at h
      obtain ⟨_, henqueue, rfl, rfl, rfl⟩ := h
      exact .inr ⟨proposal, b, decided, hauthorize, rfl, rfl, hdecided, .inr ⟨hchoice, henqueue⟩⟩

/-- The substituted choice changes nothing that a decision is checked for. -/
theorem answeredBy_asApproval {proposal : EffectProposal} {decision : HumanApprovalDecision}
    (h : proposal.AnsweredBy decision.asApproval) : proposal.AnsweredBy decision :=
  ⟨⟨h.proposalId, h.proposalRevision, h.proposalPayloadDigest, h.proposalDigest⟩, h.human, h.role,
    h.correlationId, h.not_before, h.not_after⟩

/-- What the checks of a new decision found. -/
theorem authorizeApproval_eq_ok {β : Type} {s : EffectTables} {ctx : ApprovalContext β}
    {cmd : ApprovalCommand} {proposal : EffectProposal} {b : β}
    (h : s.authorizeApproval ctx cmd = .ok (proposal, b)) :
    s.proposals.find? proposal.proposalId = some proposal ∧ proposal.AnsweredBy cmd.decision ∧
      ctx.findPrincipal cmd.decision.author.principalId = some cmd.decision.author ∧
      ctx.bindEffectApprovalAuthority proposal cmd.decision cmd.decision.author = .ok b ∧
      ∃ mandate, ctx.findMandate cmd.mandateId = some mandate ∧
        proposal.mandate = some ⟨mandate.mandateId, mandate.revision⟩ ∧
        ∃! boundary, boundary ∈ mandate.effectBoundaries ∧ boundary.Contains proposal := by
  simp only [authorizeApproval, bind_eq_ok, Records.getRecord_eq_ok, orFail_eq_ok, require_eq_ok,
    exists_const, pure_eq_ok, Prod.mk.injEq] at h
  obtain ⟨found, hfind, mandate, hmandate, approver, happrover, rfl, hid, hrevision, bound, hbound,
    _, heffect, _, hhuman, rfl, rfl⟩ := h
  have hanswered := answeredBy_asApproval (authorizeHumanApproval_eq_ok hhuman)
  refine ⟨?_, hanswered, happrover, hbound, mandate, hmandate, ?_,
    authorizeEffectProposal_eq_ok heffect⟩
  · rwa [← hanswered.proposalId]
  · cases hm : found.mandate with
    | none =>
      rw [hm] at hid
      exact absurd hid (by simp)
    | some binding =>
      rw [hm] at hid hrevision
      rw [← Option.some.inj hid, ← Option.some.inj hrevision]

end EffectTables

-- ════════════════════════════════════════════════════════════════════════
-- Claims
-- ════════════════════════════════════════════════════════════════════════

structure OutboxClaim where
  outboxId : StableId
  proposalId : StableId
  approvalDecisionId : StableId
  effectAttemptId : StableId
  effectIdempotencyKey : StableId
  attemptNumber : ℕ
  leaseOwner : StableId
  leaseUntil : Instant
  fencingToken : ℕ
deriving DecidableEq

namespace OutboxRow

/-- `ORDER BY next_attempt_at, outbox_id`. -/
def rank (r : OutboxRow) : Instant ×ₗ StableId := toLex (r.nextAttemptAt, r.outboxId)

/-- Due, in a source state, unleased, within the attempt limit, and not stopped
    where stopped reconciliations are excluded. -/
def eligible (now : Instant) (sourceStates : List OutboxState) (excludeStopped : Bool)
    (r : OutboxRow) : Bool :=
  decide (r.state ∈ sourceStates) && decide (r.nextAttemptAt ≤ now) &&
    (r.leaseUntil.all fun t => decide (t < now)) &&
    decide (r.attemptNumber ≤ r.maximumAttempts) &&
    (!excludeStopped || match r.lastOutcome with
      | some (.stillUnknownStopped _) => false
      | _ => true)

def claim (r : OutboxRow) (targetState : OutboxState) (owner : StableId) (leaseUntil : Instant) :
    OutboxRow :=
  { r with
    state := targetState
    leaseOwner := some owner
    leaseUntil := some leaseUntil
    fencingToken := r.fencingToken + 1
    revision := r.revision + 1 }

/-- The claim handed out for the row as it was read. -/
def claimOf (r : OutboxRow) (owner : StableId) (leaseUntil : Instant) (fencingToken : ℕ) :
    OutboxClaim where
  outboxId := r.outboxId
  proposalId := r.proposalId
  approvalDecisionId := r.approvalDecisionId
  effectAttemptId := r.effectAttemptId
  effectIdempotencyKey := r.effectIdempotencyKey
  attemptNumber := r.attemptNumber
  leaseOwner := owner
  leaseUntil := leaseUntil
  fencingToken := fencingToken

def startDispatch (r : OutboxRow) : OutboxRow :=
  { r with
    state := .dispatching
    revision := r.revision + 1 }

/-- The row after an outcome, pointing at the attempt that is now current. -/
def settle (r : OutboxRow) (state : OutboxState) (current : EffectAttempt) (occurredAt : Instant)
    (outcome : LastOutcome) : OutboxRow :=
  { r with
    state := state
    effectAttemptId := current.effectAttemptId
    attemptNumber := current.attemptNumber
    nextAttemptAt := occurredAt
    leaseOwner := none
    leaseUntil := none
    lastOutcome := some outcome
    revision := r.revision + 1 }

/-- The row after a reconciliation that left the outcome unknown. -/
def keepAmbiguous (r : OutboxRow) (nextAttemptAt : Instant) (outcome : LastOutcome) : OutboxRow :=
  { r with
    state := .ambiguous
    leaseOwner := none
    leaseUntil := none
    nextAttemptAt := nextAttemptAt
    lastOutcome := some outcome
    revision := r.revision + 1 }

end OutboxRow

/-- The binding `_require_outbox_claim` compares, column by column. -/
def OutboxClaim.binds (claim : OutboxClaim) (row : OutboxRow) : Prop :=
  row.leaseOwner = some claim.leaseOwner ∧ row.leaseUntil = some claim.leaseUntil ∧
    row.fencingToken = claim.fencingToken ∧ row.proposalId = claim.proposalId ∧
    row.approvalDecisionId = claim.approvalDecisionId ∧
    row.effectAttemptId = claim.effectAttemptId ∧
    row.effectIdempotencyKey = claim.effectIdempotencyKey ∧
    row.attemptNumber = claim.attemptNumber

instance (claim : OutboxClaim) (row : OutboxRow) : Decidable (claim.binds row) := by
  unfold OutboxClaim.binds
  infer_instance

namespace EffectTables

/-- `_claim_outbox_state`. -/
def claimOutboxState (s : EffectTables) (owner : StableId) (now leaseUntil : Instant)
    (sourceStates : List OutboxState) (targetState : OutboxState) (excludeStopped : Bool) :
    Option (OutboxClaim × EffectTables) :=
  match s.outbox.selectMin (OutboxRow.eligible now sourceStates excludeStopped) OutboxRow.rank with
  | none => none
  | some row =>
    some (row.claimOf owner leaseUntil (row.fencingToken + 1),
      { s with outbox := s.outbox.replace (row.claim targetState owner leaseUntil) })

def claimOutbox (s : EffectTables) (owner : StableId) (now leaseUntil : Instant) :
    Option (OutboxClaim × EffectTables) :=
  s.claimOutboxState owner now leaseUntil [.pending, .retry, .claimed] .claimed false

def claimAmbiguous (s : EffectTables) (owner : StableId) (now leaseUntil : Instant) :
    Option (OutboxClaim × EffectTables) :=
  s.claimOutboxState owner now leaseUntil [.ambiguous, .ambiguousClaimed] .ambiguousClaimed true

/-- `_require_outbox_claim`; the lease is compared with a time only when one is given. -/
def requireOutboxClaim (s : EffectTables) (claim : OutboxClaim) (states : List OutboxState)
    (evaluatedAt : Option Instant) : Outcome OutboxRow := do
  let row ← orFail (s.outbox.find? claim.outboxId)
    (.conflict "stale or drifted outbox claim binding")
  require (row.state ∈ states ∧ claim.binds row)
    (.conflict "stale or drifted outbox claim binding")
  require (∀ t ∈ evaluatedAt, t ≤ claim.leaseUntil)
    (.conflict "outbox claim lease expired before finalization")
  pure row

/-- The row that the next claim takes: the first of the eligible rows. -/
structure NextEffect (s : EffectTables) (now : Instant) (sourceStates : List OutboxState)
    (excludeStopped : Bool) (row : OutboxRow) : Prop where
  mem : row ∈ s.outbox
  eligible : row.eligible now sourceStates excludeStopped = true
  first : ∀ other ∈ s.outbox, other.eligible now sourceStates excludeStopped = true →
    row.rank ≤ other.rank

theorem nextEffect_of_claim {s t : EffectTables} {owner : StableId} {now leaseUntil : Instant}
    {sourceStates : List OutboxState} {targetState : OutboxState} {excludeStopped : Bool}
    {claim : OutboxClaim}
    (h : s.claimOutboxState owner now leaseUntil sourceStates targetState excludeStopped =
      some (claim, t)) :
    ∃ row, s.NextEffect now sourceStates excludeStopped row ∧
      claim = row.claimOf owner leaseUntil (row.fencingToken + 1) ∧
      t = { s with outbox := s.outbox.replace (row.claim targetState owner leaseUntil) } := by
  unfold claimOutboxState at h
  split at h
  · exact absurd h (by simp)
  · rename_i row hrow
    obtain ⟨hmem, heligible⟩ := Table.selectMin_mem hrow
    simp only [Option.some.injEq, Prod.mk.injEq] at h
    exact ⟨row, ⟨hmem, heligible, fun other => Table.selectMin_le hrow⟩, h.1.symm, h.2.symm⟩

/-- A successful claim took an eligible row. -/
theorem claimOutboxState_eq_some {s t : EffectTables} {owner : StableId}
    {now leaseUntil : Instant} {sourceStates : List OutboxState} {targetState : OutboxState}
    {excludeStopped : Bool} {claim : OutboxClaim}
    (h : s.claimOutboxState owner now leaseUntil sourceStates targetState excludeStopped =
      some (claim, t)) :
    ∃ row, s.outbox.find? row.outboxId = some row ∧ row.state ∈ sourceStates ∧
      claim = row.claimOf owner leaseUntil (row.fencingToken + 1) ∧
      t = { s with outbox := s.outbox.replace (row.claim targetState owner leaseUntil) } := by
  obtain ⟨row, hnext, hclaim, htables⟩ := nextEffect_of_claim h
  have heligible := hnext.eligible
  simp only [OutboxRow.eligible, Bool.and_eq_true, decide_eq_true_eq] at heligible
  exact ⟨row, Table.find?_of_mem hnext.mem, heligible.1.1.1.1, hclaim, htables⟩

theorem requireOutboxClaim_eq_ok {s : EffectTables} {claim : OutboxClaim}
    {states : List OutboxState} {evaluatedAt : Option Instant} {row : OutboxRow}
    (h : s.requireOutboxClaim claim states evaluatedAt = .ok row) :
    s.outbox.find? row.outboxId = some row ∧ row.outboxId = claim.outboxId ∧
      row.state ∈ states ∧ claim.binds row := by
  simp only [requireOutboxClaim, bind_eq_ok, orFail_eq_ok, require_eq_ok, pure_eq_ok,
    exists_const] at h
  obtain ⟨row', hfind, ⟨hstate, hbinds⟩, _, rfl⟩ := h
  have hid : row'.outboxId = claim.outboxId := Table.key_of_find? hfind
  exact ⟨hid ▸ hfind, hid, hstate, hbinds⟩

end EffectTables

-- ════════════════════════════════════════════════════════════════════════
-- Dispatch
-- ════════════════════════════════════════════════════════════════════════

def startAttempt (attempt : EffectAttempt) (occurredAt : Instant) : EffectAttempt :=
  { attempt with
    state := .started
    occurredAt := occurredAt
    revision := attempt.revision + 1 }

def settleAttempt (attempt : EffectAttempt) (state : EffectAttemptState) (actor : Principal)
    (occurredAt : Instant) : EffectAttempt :=
  { attempt with
    state := state
    actor := actor
    occurredAt := occurredAt
    revision := attempt.revision + 1 }

/-- `_result_states`. -/
def resultStates : ChannelOutcomeKind → ActionResultState × EffectAttemptState × OutboxState
  | .succeeded => (.succeeded, .succeeded, .completed)
  | .knownNotExecuted => (.notExecuted, .failed, .terminalFailed)
  | .retryableFailure => (.retryableFailure, .failed, .terminalFailed)
  | .permanentFailure => (.permanentFailure, .failed, .terminalFailed)
  | .ambiguous => (.ambiguous, .ambiguous, .ambiguous)

/-- The attempt `_create_retry_attempt` inserts. -/
def retryAttempt (previous : EffectAttempt) (nextAttemptId : StableId) (actor : Principal)
    (occurredAt : Instant) : EffectAttempt where
  effectAttemptId := nextAttemptId
  proposalId := previous.proposalId
  proposalRevision := previous.proposalRevision
  approvalDecisionId := previous.approvalDecisionId
  attemptNumber := previous.attemptNumber + 1
  state := .planned
  actor := actor
  correlationId := previous.correlationId
  occurredAt := occurredAt
  revision := 1

def newResult (attempt : EffectAttempt) (actionResultId : StableId) (state : ActionResultState)
    (safeProjection : FrozenJsonObject) (resultDigest : Digest) (actor : Principal)
    (occurredAt : Instant) : ActionResult where
  actionResultId := actionResultId
  effectAttemptId := attempt.effectAttemptId
  state := state
  safeProjection := safeProjection
  resultDigest := resultDigest
  actor := actor
  correlationId := attempt.correlationId
  occurredAt := occurredAt
  revision := 1

/-- The caller's values for one outcome. -/
structure Finalization where
  actionResultId : StableId
  resultActor : Principal
  occurredAt : Instant
  nextAttemptId : Option StableId

/-- The retry attempt, when one is asked for: allowed by the outcome and within
    the attempt limit. -/
def createRetry (attempts : Records EffectAttempt) (row : OutboxRow) (attempt : EffectAttempt)
    (fin : Finalization) (retryable : Prop) [Decidable retryable] (limit : String) :
    Outcome (Option EffectAttempt × Records EffectAttempt) :=
  match fin.nextAttemptId with
  | none => .ok (none, attempts)
  | some nextAttemptId => do
    require retryable (.conflict "only confirmed-absent outcomes may be retried")
    require (attempt.attemptNumber < row.maximumAttempts) (.conflict limit)
    let retry := retryAttempt attempt nextAttemptId fin.resultActor fin.occurredAt
    let attempts ← attempts.insertRecord retry
    pure (some retry, attempts)

/-- Either no retry is asked for, or it was allowed and inserted. -/
theorem createRetry_eq_ok {attempts attempts' : Records EffectAttempt} {row : OutboxRow}
    {attempt : EffectAttempt} {fin : Finalization} {retryable : Prop} [Decidable retryable]
    {limit : String} {next : Option EffectAttempt}
    (h : createRetry attempts row attempt fin retryable limit = .ok (next, attempts')) :
    (next = none ∧ attempts' = attempts) ∨
      ∃ nextAttemptId retry, fin.nextAttemptId = some nextAttemptId ∧
        retry = retryAttempt attempt nextAttemptId fin.resultActor fin.occurredAt ∧
        next = some retry ∧ retryable ∧ attempt.attemptNumber < row.maximumAttempts ∧
        attempts.insertRecord retry = .ok attempts' := by
  unfold createRetry at h
  split at h
  · simp only [Except.ok.injEq, Prod.mk.injEq] at h
    exact .inl ⟨h.1.symm, h.2.symm⟩
  · rename_i nextAttemptId hasked
    simp only [bind_eq_ok, require_eq_ok, pure_eq_ok, exists_const, Prod.mk.injEq] at h
    obtain ⟨hretryable, hlimit, inserted, hinsert, rfl, rfl⟩ := h
    exact .inr ⟨nextAttemptId, _, hasked, rfl, rfl, hretryable, hlimit, hinsert⟩

/-- The state of the row after an outcome: a retry overrides the outcome's own. -/
def settledState (next : Option EffectAttempt) (state : OutboxState) : OutboxState :=
  if next.isSome then .retry else state

/-- The claim `recover_expired_dispatches` rebuilds from the row it found. -/
def recoveryClaim (row : OutboxRow) : Option OutboxClaim :=
  match row.leaseOwner, row.leaseUntil with
  | some owner, some leaseUntil => some (row.claimOf owner leaseUntil row.fencingToken)
  | _, _ => none

namespace EffectTables

/-- `mark_dispatch_started`. -/
def markDispatchStarted (s : EffectTables) (claim : OutboxClaim) (occurredAt : Instant) :
    Outcome (EffectAttempt × EffectTables) := do
  let row ← s.requireOutboxClaim claim [.claimed] none
  let attempt ← s.attempts.getRecord claim.effectAttemptId
  require (attempt.state = .planned) (.conflict "effect attempt is not dispatchable")
  let attempts ← s.attempts.updateRecord (startAttempt attempt occurredAt) attempt.revision
  pure (startAttempt attempt occurredAt,
    { s with attempts := attempts, outbox := s.outbox.replace row.startDispatch })

/-- `_finalize_dispatch_in_transaction`, which both callers use on dispatching rows. -/
def finalizeDispatch (s : EffectTables) (claim : OutboxClaim) (outcome : ChannelOutcome)
    (fin : Finalization) : Outcome (ActionResult × EffectTables) := do
  let row ← s.requireOutboxClaim claim [.dispatching] none
  let attempt ← s.attempts.getRecord claim.effectAttemptId
  require (attempt.state = .started)
    (.conflict "dispatch outcome does not follow a started attempt")
  let (resultState, attemptState, outboxState) := resultStates outcome.kind
  let attempts ← s.attempts.updateRecord
    (settleAttempt attempt attemptState fin.resultActor fin.occurredAt) attempt.revision
  let result := newResult attempt fin.actionResultId resultState outcome.safeProjection
    outcome.resultDigest fin.resultActor fin.occurredAt
  let results ← s.results.insertRecord result
  let (next, attempts) ← createRetry attempts row attempt fin
    (outcome.kind = .knownNotExecuted ∨ outcome.kind = .retryableFailure)
    "effect retry would exceed its attempt limit"
  pure (result,
    { s with
      attempts := attempts
      results := results
      outbox := s.outbox.replace
        { row.settle (settledState next outboxState) (next.getD attempt) fin.occurredAt
            (.channel outcome.kind) with
          actorPrincipalId := fin.resultActor.principalId } })

theorem markDispatchStarted_eq_ok {s t : EffectTables} {claim : OutboxClaim}
    {occurredAt : Instant} {started : EffectAttempt}
    (h : s.markDispatchStarted claim occurredAt = .ok (started, t)) :
    ∃ row attempt attempts, s.requireOutboxClaim claim [.claimed] none = .ok row ∧
      s.attempts.find? claim.effectAttemptId = some attempt ∧ attempt.state = .planned ∧
      s.attempts.updateRecord started attempt.revision = .ok attempts ∧
      started = startAttempt attempt occurredAt ∧
      t = { s with attempts := attempts, outbox := s.outbox.replace row.startDispatch } := by
  simp only [markDispatchStarted, bind_eq_ok, Records.getRecord_eq_ok, require_eq_ok, pure_eq_ok,
    exists_const, Prod.mk.injEq] at h
  obtain ⟨row, hrow, attempt, hattempt, hplanned, attempts, hattempts, rfl, rfl⟩ := h
  exact ⟨row, attempt, attempts, hrow, hattempt, hplanned, hattempts, rfl, rfl⟩

theorem finalizeDispatch_eq_ok {s t : EffectTables} {claim : OutboxClaim}
    {outcome : ChannelOutcome} {fin : Finalization} {result : ActionResult}
    (h : s.finalizeDispatch claim outcome fin = .ok (result, t)) :
    ∃ row attempt settled results next attempts,
      s.requireOutboxClaim claim [.dispatching] none = .ok row ∧
      s.attempts.find? claim.effectAttemptId = some attempt ∧ attempt.state = .started ∧
      s.attempts.updateRecord (settleAttempt attempt (resultStates outcome.kind).2.1
        fin.resultActor fin.occurredAt) attempt.revision = .ok settled ∧
      result = newResult attempt fin.actionResultId (resultStates outcome.kind).1
        outcome.safeProjection outcome.resultDigest fin.resultActor fin.occurredAt ∧
      s.results.insertRecord result = .ok results ∧
      createRetry settled row attempt fin
        (outcome.kind = .knownNotExecuted ∨ outcome.kind = .retryableFailure)
        "effect retry would exceed its attempt limit" = .ok (next, attempts) ∧
      t = { s with
        attempts := attempts
        results := results
        outbox := s.outbox.replace
          { row.settle (settledState next (resultStates outcome.kind).2.2) (next.getD attempt)
              fin.occurredAt (.channel outcome.kind) with
            actorPrincipalId := fin.resultActor.principalId } } := by
  simp only [finalizeDispatch, bind_eq_ok, Records.getRecord_eq_ok, require_eq_ok, pure_eq_ok,
    exists_const, Prod.mk.injEq, Prod.exists] at h
  obtain ⟨row, hrow, attempt, hattempt, hstarted, settled, hsettled, results, hresults, next,
    attempts, hretry, rfl, rfl⟩ := h
  exact ⟨row, attempt, settled, results, next, attempts, hrow, hattempt, hstarted, hsettled, rfl,
    hresults, hretry, rfl⟩

/-- `ORDER BY lease_until, outbox_id` among expired dispatching rows. -/
def nextExpiredDispatch (s : EffectTables) (now : Instant) : Option OutboxRow :=
  s.outbox.selectMin
    (fun r => decide (r.state = .dispatching) && r.leaseUntil.any fun t => decide (t < now))
    fun r => (toLex (r.leaseUntil.getD 0, r.outboxId) : Instant ×ₗ StableId)

/-- `recover_expired_dispatches`: one expired dispatch becomes ambiguous. The
    digest stands for that of the row's idempotency key. -/
def recoverExpiredDispatches (s : EffectTables) (now : Instant) (resultActor : Principal)
    (resultId : StableId) (resultDigest : Digest) : Outcome (ℕ × EffectTables) :=
  match s.nextExpiredDispatch now with
  | none => .ok (0, s)
  | some row => do
    let claim ← orFail (recoveryClaim row) (.coreInvariant "lease_owner must be an explicit stable string ID")
    let (_, s') ← s.finalizeDispatch claim
      ⟨.ambiguous, ⟨[("outcome", .str "restart_recovery_ambiguous")], by simp⟩, resultDigest⟩
      ⟨resultId, resultActor, now, none⟩
    pure (1, s')

/-- A recovery does nothing, or finalizes one dispatch as ambiguous without a retry. -/
theorem recoverExpiredDispatches_eq_ok {s t : EffectTables} {now : Instant}
    {resultActor : Principal} {resultId : StableId} {resultDigest : Digest} {count : ℕ}
    (h : s.recoverExpiredDispatches now resultActor resultId resultDigest = .ok (count, t)) :
    t = s ∨ ∃ claim outcome fin result, outcome.kind = .ambiguous ∧
      fin.resultActor = resultActor ∧ s.finalizeDispatch claim outcome fin = .ok (result, t) := by
  unfold recoverExpiredDispatches at h
  split at h
  · simp only [Except.ok.injEq, Prod.mk.injEq] at h
    exact .inl h.2.symm
  · simp only [bind_eq_ok, orFail_eq_ok, pure_eq_ok, Prod.exists, Prod.mk.injEq] at h
    obtain ⟨claim, _, result, t', hfinalize, _, rfl⟩ := h
    exact .inr ⟨claim, _, _, result, rfl, rfl, hfinalize⟩

end EffectTables

-- ════════════════════════════════════════════════════════════════════════
-- Reconciliation
-- ════════════════════════════════════════════════════════════════════════

def reconciliationMaxBackoff : ℤ := 30000000

def reconciliationMaxCalls : ℕ := 8

/-- `_reconciliation_count`. -/
def reconciliationCount : Option LastOutcome → ℕ
  | some (.stillUnknownWait count) => count
  | some (.stillUnknownStopped count) => count
  | _ => 0

/-- `_reconciliation_count` on the text of the column. Only numbers that the store
    wrote itself are read back. -/
def parseReconciliationCount (text : Option String) : ℕ :=
  match text.bind fun t => Text.rpartition ':' t.toList with
  | none => 0
  | some (before, count) =>
    if before = "still_unknown_wait".toList ∨ before = "still_unknown_stopped".toList then
      (Text.decimal? count).getD 0
    else 0

theorem parseReconciliationCount_counted {kind : String} (count : ℕ)
    (h : kind = "still_unknown_wait" ∨ kind = "still_unknown_stopped") :
    parseReconciliationCount (some (kind ++ ":" ++ count.repr)) = count := by
  have hparts : Text.rpartition ':' (kind ++ ":" ++ count.repr).toList =
      some (kind.toList, count.repr.toList) := by
    rw [String.toList_append, String.toList_append, List.append_assoc]
    exact Text.rpartition_append _ (Text.not_mem_repr count (by decide))
  simp only [parseReconciliationCount, Option.bind_some, hparts, Text.decimal?_repr,
    Option.getD_some]
  rw [if_pos]
  rcases h with rfl | rfl <;> simp

/-- The count that is read back from the column is the count that was stored. -/
theorem parseReconciliationCount_text (last : Option LastOutcome) :
    parseReconciliationCount (last.map LastOutcome.text) = reconciliationCount last := by
  cases last with
  | none => rfl
  | some outcome =>
    cases outcome with
    | channel kind => cases kind <;> decide
    | reconciled kind => cases kind <;> decide
    | stillUnknownWait count => exact parseReconciliationCount_counted count (.inl rfl)
    | stillUnknownStopped count => exact parseReconciliationCount_counted count (.inr rfl)

/-- `last_outcome LIKE 'still_unknown_stopped:%'`. -/
def isStoppedText (text : String) : Bool :=
  Text.like "still_unknown_stopped:%".toList text.toList

/-- The pattern of the claim query finds exactly the stopped rows. -/
theorem isStoppedText_text (outcome : LastOutcome) :
    isStoppedText outcome.text = true ↔ ∃ count, outcome = .stillUnknownStopped count := by
  cases outcome with
  | channel kind => cases kind <;> simp <;> decide
  | reconciled kind => cases kind <;> simp <;> decide
  | stillUnknownWait count =>
    have hkind : "still_unknown_wait".toList =
        "still_unknown_".toList ++ 'w' :: "ait".toList := by decide
    have hpattern : "still_unknown_stopped:%".toList =
        "still_unknown_".toList ++ 's' :: "topped:%".toList := by decide
    have hcommon : '%' ∉ "still_unknown_".toList := by decide
    have hfalse : isStoppedText (LastOutcome.stillUnknownWait count).text = false := by
      unfold isStoppedText LastOutcome.text
      rw [String.toList_append, String.toList_append, hkind, hpattern, List.append_assoc,
        List.append_assoc, Text.like_append hcommon]
      exact Text.like_cons_of_ne (by decide) (by decide) _ _
    simp [hfalse]
  | stillUnknownStopped count =>
    have hpattern : "still_unknown_stopped:%".toList =
        ("still_unknown_stopped".toList ++ ":".toList) ++ ['%'] := by decide
    have hcommon : '%' ∉ "still_unknown_stopped".toList ++ ":".toList := by decide
    unfold isStoppedText LastOutcome.text
    rw [String.toList_append, String.toList_append, hpattern, Text.like_append hcommon]
    exact iff_of_true (Text.like_percent _) ⟨count, rfl⟩

/-- The row a `STILL_UNKNOWN` outcome leaves: counted, backed off, and stopped
    at the budget. -/
def stillUnknown (row : OutboxRow) (occurredAt : Instant)
    (nextReconciliationAt : Option Instant) : Outcome OutboxRow := do
  let count := reconciliationCount row.lastOutcome + 1
  let budget := min row.maximumAttempts reconciliationMaxCalls
  let baseDelay := (nextReconciliationAt.map (· - occurredAt)).getD 0
  require (0 ≤ baseDelay ∧ baseDelay ≤ reconciliationMaxBackoff)
    (.conflict "reconciliation backoff is outside its durable bound")
  let delay := min (baseDelay * 2 ^ (count - 1)) reconciliationMaxBackoff
  pure (row.keepAmbiguous (occurredAt + delay)
    (if budget ≤ count then .stillUnknownStopped count else .stillUnknownWait count))

namespace EffectTables

/-- `reconcile_ambiguous`. -/
def reconcileAmbiguous (s : EffectTables) (claim : OutboxClaim) (outcome : ReconciliationOutcome)
    (fin : Finalization) (nextReconciliationAt : Option Instant) :
    Outcome (Option ActionResult × EffectTables) := do
  let row ← s.requireOutboxClaim claim [.ambiguousClaimed] (some fin.occurredAt)
  let attempt ← s.attempts.getRecord claim.effectAttemptId
  require (attempt.state = .ambiguous)
    (.conflict "reconciliation requires an ambiguous attempt")
  match outcome.kind with
  | .stillUnknown => do
    let unknown ← stillUnknown row fin.occurredAt nextReconciliationAt
    pure (none, { s with outbox := s.outbox.replace unknown })
  | .confirmedApplied => do
    let attempts ← s.attempts.updateRecord
      (settleAttempt attempt .succeeded fin.resultActor fin.occurredAt) attempt.revision
    let result := newResult attempt fin.actionResultId .succeeded outcome.safeProjection
      outcome.resultDigest fin.resultActor fin.occurredAt
    let results ← s.results.insertRecord result
    pure (some result,
      { s with
        attempts := attempts
        results := results
        outbox := s.outbox.replace
          (row.settle .completed attempt fin.occurredAt (.reconciled outcome.kind)) })
  | .confirmedAbsent => do
    let attempts ← s.attempts.updateRecord
      (settleAttempt attempt .failed fin.resultActor fin.occurredAt) attempt.revision
    let result := newResult attempt fin.actionResultId .notExecuted outcome.safeProjection
      outcome.resultDigest fin.resultActor fin.occurredAt
    let results ← s.results.insertRecord result
    let (next, attempts) ← createRetry attempts row attempt fin True
      "reconciled retry exceeds the attempt limit"
    pure (some result,
      { s with
        attempts := attempts
        results := results
        outbox := s.outbox.replace
          (row.settle (settledState next .terminalFailed) (next.getD attempt) fin.occurredAt
            (.reconciled outcome.kind)) })

/-- The result, the attempt and the row that a reconciliation which knows leaves. -/
def reconciledStates : ReconciliationKind → ActionResultState × EffectAttemptState × OutboxState
  | .confirmedApplied => (.succeeded, .succeeded, .completed)
  | .confirmedAbsent => (.notExecuted, .failed, .terminalFailed)
  | .stillUnknown => (.ambiguous, .ambiguous, .ambiguous)

/-- A reconciliation leaves the outcome unknown, or settles the attempt, with a
    retry at most when the effect is confirmed absent. -/
theorem reconcileAmbiguous_eq_ok {s t : EffectTables} {claim : OutboxClaim}
    {outcome : ReconciliationOutcome} {fin : Finalization}
    {nextReconciliationAt : Option Instant} {result : Option ActionResult}
    (h : s.reconcileAmbiguous claim outcome fin nextReconciliationAt = .ok (result, t)) :
    ∃ row attempt,
      s.requireOutboxClaim claim [.ambiguousClaimed] (some fin.occurredAt) = .ok row ∧
      s.attempts.find? claim.effectAttemptId = some attempt ∧ attempt.state = .ambiguous ∧
      ((∃ unknown, outcome.kind = .stillUnknown ∧
          stillUnknown row fin.occurredAt nextReconciliationAt = .ok unknown ∧
          t = { s with outbox := s.outbox.replace unknown }) ∨
        outcome.kind ≠ .stillUnknown ∧ ∃ settled settlement results next attempts,
          s.attempts.updateRecord (settleAttempt attempt (reconciledStates outcome.kind).2.1
            fin.resultActor fin.occurredAt) attempt.revision = .ok settled ∧
          settlement = newResult attempt fin.actionResultId (reconciledStates outcome.kind).1
            outcome.safeProjection outcome.resultDigest fin.resultActor fin.occurredAt ∧
          s.results.insertRecord settlement = .ok results ∧
          ((next = none ∧ attempts = settled) ∨
            ∃ nextAttemptId retry, fin.nextAttemptId = some nextAttemptId ∧
              retry = retryAttempt attempt nextAttemptId fin.resultActor fin.occurredAt ∧
              next = some retry ∧ outcome.kind = .confirmedAbsent ∧
              attempt.attemptNumber < row.maximumAttempts ∧
              settled.insertRecord retry = .ok attempts) ∧
          t = { s with
            attempts := attempts
            results := results
            outbox := s.outbox.replace
              (row.settle (settledState next (reconciledStates outcome.kind).2.2)
                (next.getD attempt) fin.occurredAt (.reconciled outcome.kind)) }) := by
  simp only [reconcileAmbiguous, bind_eq_ok, Records.getRecord_eq_ok, require_eq_ok,
    exists_const] at h
  obtain ⟨row, hrow, attempt, hattempt, hambiguous, h⟩ := h
  refine ⟨row, attempt, hrow, hattempt, hambiguous, ?_⟩
  split at h
  · rename_i hkind
    simp only [bind_eq_ok, pure_eq_ok, Prod.mk.injEq] at h
    obtain ⟨unknown, hunknown, _, rfl⟩ := h
    exact .inl ⟨unknown, hkind, hunknown, rfl⟩
  · rename_i hkind
    simp only [bind_eq_ok, pure_eq_ok, Prod.mk.injEq] at h
    obtain ⟨settled, hsettled, results, hresults, _, rfl⟩ := h
    rw [hkind]
    exact .inr ⟨by simp, settled, _, results, none, settled, hsettled, rfl, hresults,
      .inl ⟨rfl, rfl⟩, rfl⟩
  · rename_i hkind
    simp only [bind_eq_ok, pure_eq_ok, Prod.exists, Prod.mk.injEq] at h
    obtain ⟨settled, hsettled, results, hresults, next, attempts, hretry, _, rfl⟩ := h
    rw [hkind]
    refine .inr ⟨by simp, settled, _, results, next, attempts, hsettled, rfl, hresults, ?_, rfl⟩
    rcases createRetry_eq_ok hretry with hnone |
      ⟨id, retry, hasked, hretry, hnext, _, hlimit, hinsert⟩
    · exact .inl hnone
    · exact .inr ⟨id, retry, hasked, hretry, hnext, rfl, hlimit, hinsert⟩

theorem stillUnknown_eq_ok {row unknown : OutboxRow} {occurredAt : Instant}
    {nextReconciliationAt : Option Instant}
    (h : stillUnknown row occurredAt nextReconciliationAt = .ok unknown) :
    ∃ nextAttemptAt outcome, unknown = row.keepAmbiguous nextAttemptAt outcome := by
  simp only [stillUnknown, bind_eq_ok, require_eq_ok, pure_eq_ok, exists_const] at h
  exact ⟨_, _, h.2.symm⟩

end EffectTables

-- ════════════════════════════════════════════════════════════════════════
-- The dispatch bundle
-- ════════════════════════════════════════════════════════════════════════

/-- Everything a worker dispatches with. -/
structure DispatchBundle where
  proposal : EffectProposal
  approval : HumanApprovalDecision
  attempt : EffectAttempt
  approver : Principal
  effectIdempotencyKey : StableId
  maximumAttempts : ℕ

/-- `bindings_valid`: the row, the records and the claim name the same effect. -/
def bindingsValid (claim : OutboxClaim) (row : OutboxRow) (proposal : EffectProposal)
    (approval : HumanApprovalDecision) (attempt : EffectAttempt) (approver : Principal)
    (mandate : Mandate) : Prop :=
  row.proposalId = proposal.proposalId ∧ proposal.proposalId = attempt.proposalId ∧
    row.approvalDecisionId = approval.approvalDecisionId ∧
    approval.approvalDecisionId = attempt.approvalDecisionId ∧
    row.effectAttemptId = attempt.effectAttemptId ∧
    row.attemptNumber = attempt.attemptNumber ∧
    row.maximumAttempts = proposal.constraints.maximumAttempts ∧
    row.effectIdempotencyKey = proposal.constraints.idempotencyKey ∧
    attempt.proposalRevision = proposal.revision ∧
    approval.proposalId = proposal.proposalId ∧ approval.proposalRevision = proposal.revision ∧
    approval.proposalPayloadDigest = proposal.payloadDigest ∧
    approval.proposalDigest = proposal.proposalDigest ∧
    claim.proposalId = row.proposalId ∧ claim.approvalDecisionId = row.approvalDecisionId ∧
    claim.effectAttemptId = row.effectAttemptId ∧
    claim.effectIdempotencyKey = row.effectIdempotencyKey ∧
    claim.attemptNumber = row.attemptNumber ∧
    proposal.mandate = some ⟨mandate.mandateId, mandate.revision⟩ ∧
    approval.author = approver ∧ approval.author.kind = .human ∧
    attempt.actor.kind = .service ∧
    attempt.state = (if row.state = .claimed then .planned else .ambiguous) ∧
    proposal.correlationId = approval.correlationId ∧
    approval.correlationId = attempt.correlationId ∧ attempt.correlationId = row.correlationId ∧
    approval.causationId = proposal.proposalId ∧
    attempt.causationId = approval.approvalDecisionId ∧
    row.causationId = approval.approvalDecisionId ∧
    row.actorPrincipalId = attempt.actor.principalId

instance (claim : OutboxClaim) (row : OutboxRow) (proposal : EffectProposal)
    (approval : HumanApprovalDecision) (attempt : EffectAttempt) (approver : Principal)
    (mandate : Mandate) :
    Decidable (bindingsValid claim row proposal approval attempt approver mandate) := by
  unfold bindingsValid
  infer_instance

/-- `load_dispatch_bundle`, over the reads of mandates and principals. -/
def EffectTables.loadDispatchBundle (s : EffectTables) (findMandate : StableId → Option Mandate)
    (findPrincipal : StableId → Option Principal) (claim : OutboxClaim) (mandateId : StableId) :
    Outcome DispatchBundle := do
  let row ← s.requireOutboxClaim claim [.claimed, .ambiguousClaimed] none
  let proposal ← s.proposals.getRecord claim.proposalId
  let approval ← s.approvals.getRecord claim.approvalDecisionId
  let attempt ← s.attempts.getRecord claim.effectAttemptId
  let approver ← orFail (findPrincipal approval.author.principalId)
    (.notFound "namespaced durable record was not found")
  let mandate ← orFail (findMandate mandateId)
    (.notFound "namespaced durable record was not found")
  require (bindingsValid claim row proposal approval attempt approver mandate)
    (.permissionDenied "complete durable outbox effect binding drifted")
  pure ⟨proposal, approval, attempt, approver, row.effectIdempotencyKey, row.maximumAttempts⟩

/-- A bundle holds the records that its claim names, bound to one mandate. -/
theorem EffectTables.loadDispatchBundle_eq_ok {s : EffectTables}
    {findMandate : StableId → Option Mandate} {findPrincipal : StableId → Option Principal}
    {claim : OutboxClaim} {mandateId : StableId} {bundle : DispatchBundle}
    (h : s.loadDispatchBundle findMandate findPrincipal claim mandateId = .ok bundle) :
    ∃ row mandate, s.proposals.find? claim.proposalId = some bundle.proposal ∧
      s.approvals.find? claim.approvalDecisionId = some bundle.approval ∧
      findPrincipal bundle.approval.author.principalId = some bundle.approver ∧
      findMandate mandateId = some mandate ∧
      bindingsValid claim row bundle.proposal bundle.approval bundle.attempt bundle.approver
        mandate := by
  simp only [loadDispatchBundle, bind_eq_ok, Records.getRecord_eq_ok, orFail_eq_ok, require_eq_ok,
    pure_eq_ok, exists_const] at h
  obtain ⟨row, _, _, hproposal, _, happroval, _, _, _, happrover, mandate, hmandate, hvalid, rfl⟩ :=
    h
  exact ⟨row, mandate, hproposal, happroval, happrover, hmandate, hvalid⟩

end DigitalColleagues
