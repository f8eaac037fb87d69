import DigitalColleagues.Runtime.ExactApproval
import DigitalColleagues.Runtime.Fencing

/-!
# The outbox row and the records it names

An outbox row repeats columns of the proposal, the approval and the current
attempt, and a worker's bundle is refused when they differ. All transactions
write the row and the attempt alike except one: the retry after a
reconciliation leaves the row with the principal of the outcome before.

## Main definitions

- `OutboxRow.QueuedFor`, `EffectAttempt.MadeFor`, `OutboxRow.Current` — the
  columns a row, its proposal, its approval and its attempt share
- `EffectTables.Bound` — every row agrees with the records it names
- `RetriesAsRecorded` — a reconciliation is retried by the principal of the row
-/

namespace DigitalColleagues

open Keyed

/-- The columns that a row takes from the proposal and its approval. -/
structure OutboxRow.QueuedFor (row : OutboxRow) (proposal : EffectProposal)
    (approval : HumanApprovalDecision) : Prop where
  proposalId : row.proposalId = proposal.proposalId
  approvalDecisionId : row.approvalDecisionId = approval.approvalDecisionId
  maximumAttempts : row.maximumAttempts = proposal.constraints.maximumAttempts
  effectIdempotencyKey : row.effectIdempotencyKey = proposal.constraints.idempotencyKey
  correlationId : row.correlationId = proposal.correlationId
  causationId : row.causationId = approval.approvalDecisionId

/-- The fields that an attempt takes from the proposal and its approval. -/
structure EffectAttempt.MadeFor (attempt : EffectAttempt) (proposal : EffectProposal)
    (approval : HumanApprovalDecision) : Prop where
  proposalId : attempt.proposalId = proposal.proposalId
  proposalRevision : attempt.proposalRevision = proposal.revision
  approvalDecisionId : attempt.approvalDecisionId = approval.approvalDecisionId
  correlationId : attempt.correlationId = proposal.correlationId
  service : attempt.actor.kind = .service

/-- The columns that a row takes from its current attempt; a row that will not be
    claimed again may keep the principal of an earlier outcome. -/
structure OutboxRow.Current (row : OutboxRow) (attempt : EffectAttempt) : Prop where
  effectAttemptId : row.effectAttemptId = attempt.effectAttemptId
  attemptNumber : row.attemptNumber = attempt.attemptNumber
  state : attempt.state = row.state.attemptState
  actor : row.state ≠ .completed → row.state ≠ .terminalFailed →
    row.actorPrincipalId = attempt.actor.principalId

theorem OutboxRow.QueuedFor.settle {row : OutboxRow} {p : EffectProposal}
    {d : HumanApprovalDecision} (h : row.QueuedFor p d) (state : OutboxState)
    (current : EffectAttempt) (occurredAt : Instant) (outcome : LastOutcome)
    (actorPrincipalId : StableId) :
    OutboxRow.QueuedFor { row.settle state current occurredAt outcome with
      actorPrincipalId := actorPrincipalId } p d :=
  ⟨h.1, h.2, h.3, h.4, h.5, h.6⟩

namespace EffectTables

/-- The row agrees with the proposal, the approval and the attempt it names. -/
structure BoundRow (s : EffectTables) (row : OutboxRow) (proposal : EffectProposal)
    (approval : HumanApprovalDecision) (attempt : EffectAttempt) : Prop where
  proposed : s.proposals.find? row.proposalId = some proposal
  approved : s.approvals.find? row.approvalDecisionId = some approval
  attempted : s.attempts.find? row.effectAttemptId = some attempt
  answered : proposal.AnsweredBy approval
  queued : row.QueuedFor proposal approval
  made : attempt.MadeFor proposal approval
  current : row.Current attempt

/-- Every row agrees with its records. -/
def Bound (s : EffectTables) : Prop :=
  ∀ row ∈ s.outbox, ∃ proposal approval attempt, s.BoundRow row proposal approval attempt

variable {s t : EffectTables}

/-- Different rows have different current attempts. -/
theorem Tracked.effectAttemptId_ne (h : s.Tracked) {r x : OutboxRow} (hr : r ∈ s.outbox)
    (hx : x ∈ s.outbox) (hne : x.outboxId ≠ r.outboxId) :
    x.effectAttemptId ≠ r.effectAttemptId := by
  intro hsame
  obtain ⟨a, ha, happroval, _⟩ := (h.row r hr).current
  obtain ⟨b, hb, happroval', _⟩ := (h.row x hx).current
  rw [hsame, ha] at hb
  obtain rfl := Option.some.inj hb
  exact hne (congrArg OutboxRow.outboxId
    (h.unique x hx r hr (.inl (happroval'.symm.trans happroval))))

/-- One row is rewritten together with its current attempt; the other rows keep
    theirs. -/
theorem Bound.of_rewrite (h : s.Bound) (row row' : OutboxRow) (attempt' : EffectAttempt)
    (hrow : s.outbox.find? row.outboxId = some row) (hid : row'.outboxId = row.outboxId)
    (hqueued : ∀ p d, row.QueuedFor p d → row'.QueuedFor p d)
    (hmade : ∀ p d a, s.BoundRow row p d a → attempt'.MadeFor p d)
    (hcurrent : ∀ p d a, s.BoundRow row p d a → row'.Current attempt')
    (hattempt : t.attempts.find? attempt'.effectAttemptId = some attempt')
    (hothers : ∀ x ∈ s.outbox, x.outboxId ≠ row.outboxId → ∀ a,
      s.attempts.find? x.effectAttemptId = some a → t.attempts.find? x.effectAttemptId = some a)
    (hretains : s.Retains t) (houtbox : t.outbox = s.outbox.replace row') : t.Bound := by
  intro x hx
  rw [houtbox] at hx
  have hfind : s.outbox.find? (key row') = some row := by
    show s.outbox.find? row'.outboxId = some row
    rw [hid]
    exact hrow
  rcases (Table.mem_replace hfind).mp hx with rfl | ⟨hold, hne⟩
  · obtain ⟨p, d, a, hb⟩ := h row (Table.mem_of_find? hrow)
    have hqueued' := hqueued p d hb.queued
    have hcurrent' := hcurrent p d a hb
    refine ⟨p, d, attempt', ⟨?_, ?_, ?_, hb.answered, hqueued', hmade p d a hb, hcurrent'⟩⟩
    · rw [hqueued'.proposalId, ← hb.queued.proposalId]
      exact hretains.proposals _ _ hb.proposed
    · rw [hqueued'.approvalDecisionId, ← hb.queued.approvalDecisionId]
      exact hretains.approvals _ _ hb.approved
    · rw [hcurrent'.effectAttemptId]
      exact hattempt
  · obtain ⟨p, d, a, hb⟩ := h x hold
    have hother : x.outboxId ≠ row.outboxId := fun he => hne (he.trans hid.symm)
    exact ⟨p, d, a, hretains.proposals _ _ hb.proposed, hretains.approvals _ _ hb.approved,
      hothers x hold hother a hb.attempted, hb.answered, hb.queued, hb.made, hb.current⟩

/-- A row is rewritten and its attempt stays. -/
theorem Bound.of_row (h : s.Bound) (row row' : OutboxRow)
    (hrow : s.outbox.find? row.outboxId = some row) (hid : row'.outboxId = row.outboxId)
    (hqueued : ∀ p d, row.QueuedFor p d → row'.QueuedFor p d)
    (hcurrent : ∀ a, row.Current a → row'.Current a) (hattempts : t.attempts = s.attempts)
    (hretains : s.Retains t) (houtbox : t.outbox = s.outbox.replace row') : t.Bound := by
  obtain ⟨_, _, a, hb⟩ := h row (Table.mem_of_find? hrow)
  have hsame : ∀ p d b, s.BoundRow row p d b → b = a := fun p d b hb' =>
    Option.some.inj (hb'.attempted.symm.trans hb.attempted)
  refine h.of_rewrite row row' a hrow hid hqueued (fun p d b hb' => ?_) (fun p d b hb' => ?_) ?_
    (fun x _ _ b hx => hattempts ▸ hx) hretains houtbox
  · exact hsame p d b hb' ▸ hb'.made
  · exact hcurrent a hb.current
  · rw [hattempts, ← hb.current.effectAttemptId]
    exact hb.attempted

/-- A claim changes the state of the row within the states of its attempt. -/
theorem Bound.of_claim (h : s.Bound) {owner : StableId} {now leaseUntil : Instant}
    {sourceStates : List OutboxState} {targetState : OutboxState} {excludeStopped : Bool}
    {claim : OutboxClaim}
    (hclaim : s.claimOutboxState owner now leaseUntil sourceStates targetState excludeStopped =
      some (claim, t))
    (hstates : ∀ state ∈ sourceStates, targetState.attemptState = state.attemptState ∧
      state ≠ .completed ∧ state ≠ .terminalFailed) : t.Bound := by
  have hretains := (move_of_claim hclaim fun state hstate => (hstates state hstate).1).retains
  obtain ⟨row, hrow, hstate, _, rfl⟩ := claimOutboxState_eq_some hclaim
  obtain ⟨hattempt, hcompleted, hfailed⟩ := hstates _ hstate
  refine h.of_row row (row.claim targetState owner leaseUntil) hrow rfl (fun _ _ hq => ?_)
    (fun a hc => ?_) rfl hretains rfl
  · exact ⟨hq.1, hq.2, hq.3, hq.4, hq.5, hq.6⟩
  · exact ⟨hc.effectAttemptId, hc.attemptNumber, hc.state.trans hattempt.symm,
      fun _ _ => hc.actor hcompleted hfailed⟩

/-- The attempt of one row is revised in place. -/
theorem Bound.of_revision (h : s.Bound) (htracked : s.Tracked) (row row' : OutboxRow)
    (attempt' : EffectAttempt) {expected : ℕ}
    (hrow : s.outbox.find? row.outboxId = some row) (hid : row'.outboxId = row.outboxId)
    (hqueued : ∀ p d, row.QueuedFor p d → row'.QueuedFor p d)
    (hmade : ∀ p d a, s.BoundRow row p d a → attempt'.MadeFor p d)
    (hcurrent : ∀ p d a, s.BoundRow row p d a → row'.Current attempt')
    (hattempt : attempt'.effectAttemptId = row.effectAttemptId)
    (hupdate : s.attempts.updateRecord attempt' expected = .ok t.attempts)
    (hretains : s.Retains t) (houtbox : t.outbox = s.outbox.replace row') : t.Bound := by
  refine h.of_rewrite row row' attempt' hrow hid hqueued hmade hcurrent
    (Records.find?_updateRecord_self hupdate) (fun x hx hne a ha => ?_) hretains houtbox
  have hother := htracked.effectAttemptId_ne (Table.mem_of_find? hrow) hx hne
  refine (Records.find?_updateRecord_of_ne hupdate ?_).trans ha
  show x.effectAttemptId ≠ attempt'.effectAttemptId
  rw [hattempt]
  exact hother

theorem Bound.of_start (h : s.Bound) (htracked : s.Tracked) {claim : OutboxClaim}
    {occurredAt : Instant} {started : EffectAttempt}
    (hstart : s.markDispatchStarted claim occurredAt = .ok (started, t)) : t.Bound := by
  have hretains := (move_of_markDispatchStarted hstart).retains
  obtain ⟨row, attempt, attempts, hclaim, hattempt, _, hupdate, rfl, rfl⟩ :=
    markDispatchStarted_eq_ok hstart
  obtain ⟨hrow, _, hstate, hbinds⟩ := requireOutboxClaim_eq_ok hclaim
  have hnamed : row.effectAttemptId = claim.effectAttemptId := hbinds.2.2.2.2.2.1
  rw [← hnamed] at hattempt
  have hid : attempt.effectAttemptId = row.effectAttemptId := effectAttemptId_of_find? hattempt
  have hclaimed : row.state = .claimed := by simpa using hstate
  have hsame : ∀ p d a, s.BoundRow row p d a → a = attempt := fun p d a hb =>
    Option.some.inj (hb.attempted.symm.trans hattempt)
  refine h.of_revision htracked row row.startDispatch (startAttempt attempt occurredAt) hrow rfl
    (fun _ _ hq => ?_) (fun p d a hb => ?_) (fun p d a hb => ?_) hid hupdate hretains rfl
  · exact ⟨hq.1, hq.2, hq.3, hq.4, hq.5, hq.6⟩
  · obtain rfl := hsame p d a hb
    exact ⟨hb.made.1, hb.made.2, hb.made.3, hb.made.4, hb.made.5⟩
  · obtain rfl := hsame p d a hb
    exact ⟨hid.symm, hb.current.attemptNumber, rfl,
      fun _ _ => hb.current.actor (by simp [hclaimed]) (by simp [hclaimed])⟩

/-- An attempt is settled without a retry. -/
theorem Bound.of_settle (h : s.Bound) (htracked : s.Tracked) (row : OutboxRow)
    (attempt : EffectAttempt) {state : EffectAttemptState} {outboxState : OutboxState}
    {actor : Principal} {occurredAt : Instant} {outcome : LastOutcome}
    (actorPrincipalId : StableId)
    (hrow : s.outbox.find? row.outboxId = some row)
    (hattempt : s.attempts.find? row.effectAttemptId = some attempt)
    (hservice : actor.kind = .service) (hstate : outboxState.attemptState = state)
    (hactor : outboxState ≠ .completed → outboxState ≠ .terminalFailed →
      actorPrincipalId = actor.principalId)
    (hupdate : s.attempts.updateRecord (settleAttempt attempt state actor occurredAt)
      attempt.revision = .ok t.attempts)
    (hretains : s.Retains t)
    (houtbox : t.outbox = s.outbox.replace { row.settle outboxState attempt occurredAt outcome with
      actorPrincipalId := actorPrincipalId }) : t.Bound := by
  have hsame : ∀ p d a, s.BoundRow row p d a → a = attempt := fun p d a hb =>
    Option.some.inj (hb.attempted.symm.trans hattempt)
  refine h.of_revision htracked row { row.settle outboxState attempt occurredAt outcome with
      actorPrincipalId := actorPrincipalId } (settleAttempt attempt state actor occurredAt) hrow rfl
    (fun _ _ hq => hq.settle _ _ _ _ _) (fun p d a hb => ?_) (fun p d a hb => ?_)
    (effectAttemptId_of_find? (s := s) (a := attempt) hattempt) hupdate hretains houtbox
  · obtain rfl := hsame p d a hb
    exact ⟨hb.made.1, hb.made.2, hb.made.3, hb.made.4, hservice⟩
  · exact ⟨rfl, rfl, hstate.symm, hactor⟩

/-- An attempt is settled and the next one becomes current. -/
theorem Bound.of_retry (h : s.Bound) (htracked : s.Tracked) (row : OutboxRow)
    (attempt : EffectAttempt) (outcome : LastOutcome) {settled : Records EffectAttempt}
    {nextAttemptId : StableId} {actor : Principal} {occurredAt : Instant}
    (hrow : s.outbox.find? row.outboxId = some row)
    (hattempt : s.attempts.find? row.effectAttemptId = some attempt)
    (hservice : actor.kind = .service)
    (hupdate : s.attempts.updateRecord (settleAttempt attempt .failed actor occurredAt)
      attempt.revision = .ok settled)
    (hinsert : settled.insertRecord (retryAttempt attempt nextAttemptId actor occurredAt) =
      .ok t.attempts)
    (hretains : s.Retains t)
    (houtbox : t.outbox = s.outbox.replace
      { row.settle .retry (retryAttempt attempt nextAttemptId actor occurredAt) occurredAt
          outcome with actorPrincipalId := actor.principalId }) : t.Bound := by
  have hsame : ∀ p d a, s.BoundRow row p d a → a = attempt := fun p d a hb =>
    Option.some.inj (hb.attempted.symm.trans hattempt)
  refine h.of_rewrite row
    { row.settle .retry (retryAttempt attempt nextAttemptId actor occurredAt) occurredAt
        outcome with actorPrincipalId := actor.principalId }
    (retryAttempt attempt nextAttemptId actor occurredAt) hrow rfl
    (fun _ _ hq => hq.settle _ _ _ _ _) (fun p d a hb => ?_) (fun p d a hb => ?_)
    (Records.find?_insertRecord_self hinsert) (fun x hx hne a ha => ?_) hretains houtbox
  · obtain rfl := hsame p d a hb
    exact ⟨hb.made.1, hb.made.2, hb.made.3, hb.made.4, hservice⟩
  · exact ⟨rfl, rfl, rfl, fun _ _ => rfl⟩
  · refine Records.find?_insertRecord_of_some hinsert ?_
    refine (Records.find?_updateRecord_of_ne hupdate ?_).trans ha
    show x.effectAttemptId ≠ attempt.effectAttemptId
    rw [effectAttemptId_of_find? hattempt]
    exact htracked.effectAttemptId_ne (Table.mem_of_find? hrow) hx hne

theorem Bound.of_finalize (h : s.Bound) (htracked : s.Tracked) {claim : OutboxClaim}
    {outcome : ChannelOutcome} {fin : Finalization} {result : ActionResult}
    (hservice : fin.resultActor.kind = .service)
    (hfinalize : s.finalizeDispatch claim outcome fin = .ok (result, t)) : t.Bound := by
  have hretains := (move_of_finalizeDispatch hfinalize).retains
  obtain ⟨row, attempt, settled, results, next, attempts, hclaim, hattempt, _, hupdate, rfl, _,
    hretry, rfl⟩ := finalizeDispatch_eq_ok hfinalize
  obtain ⟨hrow, _, _, hbinds⟩ := requireOutboxClaim_eq_ok hclaim
  have hnamed : row.effectAttemptId = claim.effectAttemptId := hbinds.2.2.2.2.2.1
  rw [← hnamed] at hattempt
  rcases createRetry_eq_ok hretry with ⟨rfl, rfl⟩ |
    ⟨nextAttemptId, retry, _, rfl, rfl, hkind, _, hinsert⟩
  · refine h.of_settle htracked row attempt fin.resultActor.principalId hrow hattempt hservice ?_
      (fun _ _ => rfl) hupdate hretains rfl
    cases outcome.kind <;> rfl
  · have hfailed : (resultStates outcome.kind).2.1 = .failed := by
      rcases hkind with hkind | hkind <;> rw [hkind] <;> rfl
    rw [hfailed] at hupdate
    exact h.of_retry htracked row attempt _ hrow hattempt hservice hupdate hinsert hretains rfl

/-- A reconciliation keeps the principal of the row, so a retry has to be made by
    that principal. -/
theorem Bound.of_reconcile (h : s.Bound) (htracked : s.Tracked) {claim : OutboxClaim}
    {outcome : ReconciliationOutcome} {fin : Finalization}
    {nextReconciliationAt : Option Instant} {result : Option ActionResult}
    (hservice : fin.resultActor.kind = .service)
    (hretries : outcome.kind = .confirmedAbsent → fin.nextAttemptId ≠ none →
      ∀ row, s.outbox.find? claim.outboxId = some row →
        row.actorPrincipalId = fin.resultActor.principalId)
    (hreconcile : s.reconcileAmbiguous claim outcome fin nextReconciliationAt = .ok (result, t)) :
    t.Bound := by
  have hretains := (move_of_reconcileAmbiguous hreconcile).retains
  obtain ⟨row, attempt, hclaim, hattempt, _, hcase⟩ := reconcileAmbiguous_eq_ok hreconcile
  obtain ⟨hrow, hid, hstate, hbinds⟩ := requireOutboxClaim_eq_ok hclaim
  have hnamed : row.effectAttemptId = claim.effectAttemptId := hbinds.2.2.2.2.2.1
  have hambiguous : row.state = .ambiguousClaimed := by simpa using hstate
  rw [← hnamed] at hattempt
  rcases hcase with ⟨unknown, _, hunknown, rfl⟩ |
    ⟨hknown, settled, settlement, results, next, attempts, hupdate, rfl, _, hnext, rfl⟩
  · obtain ⟨nextAttemptAt, last, rfl⟩ := stillUnknown_eq_ok hunknown
    refine h.of_row row (row.keepAmbiguous nextAttemptAt last) hrow rfl (fun _ _ hq => ?_)
      (fun a hc => ?_) rfl hretains rfl
    · exact ⟨hq.1, hq.2, hq.3, hq.4, hq.5, hq.6⟩
    · exact ⟨hc.effectAttemptId, hc.attemptNumber, hc.state.trans (by rw [hambiguous]; rfl),
        fun _ _ => hc.actor (by simp [hambiguous]) (by simp [hambiguous])⟩
  · rcases hnext with ⟨rfl, rfl⟩ | ⟨nextAttemptId, retry, hasked, rfl, rfl, hkind, _, hinsert⟩
    · refine h.of_settle htracked row attempt row.actorPrincipalId hrow hattempt hservice ?_ ?_
        hupdate hretains rfl
      · cases outcome.kind <;> rfl
      · cases hkind : outcome.kind with
        | confirmedApplied => exact fun hne _ => absurd rfl hne
        | confirmedAbsent => exact fun _ hne => absurd rfl hne
        | stillUnknown => exact absurd hkind hknown
    · have hactor : row.actorPrincipalId = fin.resultActor.principalId :=
        hretries hkind (by simp [hasked]) row (hid ▸ hrow)
      have hfailed : (reconciledStates outcome.kind).2.1 = .failed := by rw [hkind]; rfl
      rw [hfailed] at hupdate
      refine h.of_retry htracked row attempt (.reconciled outcome.kind) hrow hattempt hservice
        hupdate hinsert hretains ?_
      rw [← hactor]
      rfl

/-- An approval stores its decision, its first attempt and its row alike. -/
theorem Bound.of_approve (h : s.Bound) {proposal : EffectProposal} {cmd : ApprovalCommand}
    {decided : EffectTables} (hproposal : s.proposals.find? proposal.proposalId = some proposal)
    (hanswered : proposal.AnsweredBy cmd.decision) (hservice : cmd.serviceActor.kind = .service)
    (hinsert : s.insertDecision proposal cmd.decision = .ok decided)
    (henqueue : decided.enqueueAttempt proposal cmd = .ok t) : t.Bound := by
  obtain ⟨approvals, _, _, _, happrovals, _, rfl⟩ := insertDecision_eq_ok hinsert
  obtain ⟨attempts, outbox, _, hattempts, houtbox, rfl⟩ := enqueueAttempt_eq_ok henqueue
  intro x hx
  rcases (Table.mem_insert houtbox).mp hx with hold | rfl
  · obtain ⟨p, d, a, hb⟩ := h x hold
    exact ⟨p, d, a, hb.proposed, Records.find?_insertRecord_of_some happrovals hb.approved,
      Records.find?_insertRecord_of_some hattempts hb.attempted, hb.answered, hb.queued, hb.made,
      hb.current⟩
  · refine ⟨proposal, cmd.decision, firstAttempt proposal cmd, hproposal,
      Records.find?_insertRecord_self happrovals, Records.find?_insertRecord_self hattempts,
      hanswered, ⟨rfl, rfl, rfl, rfl, rfl, rfl⟩, ⟨rfl, rfl, rfl, rfl, hservice⟩,
      ⟨rfl, rfl, rfl, fun _ _ => rfl⟩⟩

/-- New records leave the rows and what they name alone. -/
theorem Bound.of_retains (h : s.Bound) (hretains : s.Retains t)
    (hattempts : t.attempts = s.attempts) (houtbox : t.outbox = s.outbox) : t.Bound := by
  intro x hx
  rw [houtbox] at hx
  obtain ⟨p, d, a, hb⟩ := h x hx
  exact ⟨p, d, a, hretains.proposals _ _ hb.proposed, hretains.approvals _ _ hb.approved,
    hattempts ▸ hb.attempted, hb.answered, hb.queued, hb.made, hb.current⟩

end EffectTables

-- ════════════════════════════════════════════════════════════════════════
-- Runs
-- ════════════════════════════════════════════════════════════════════════

/-- Attempts are made and settled by services. -/
def RuntimeAction.Served {ε : Type} : RuntimeAction ε → Prop
  | .commitApprovalAndAttempt cmd => cmd.serviceActor.kind = .service
  | .effect (.finalizeDispatch _ _ fin) => fin.resultActor.kind = .service
  | .effect (.recoverExpiredDispatches _ resultActor _ _) => resultActor.kind = .service
  | .effect (.reconcileAmbiguous _ _ fin _) => fin.resultActor.kind = .service
  | _ => True

/-- A retry after a reconciliation is made by the principal that the row records. -/
def RetriesAsRecorded {ε : Type} (s : RuntimeState ε) : RuntimeAction ε → Prop
  | .effect (.reconcileAmbiguous claim outcome fin _) =>
    outcome.kind = .confirmedAbsent → fin.nextAttemptId ≠ none →
      ∀ row, s.effects.tables.outbox.find? claim.outboxId = some row →
        row.actorPrincipalId = fin.resultActor.principalId
  | _ => True

theorem EffectSide.bound_of_exec {ε : Type} {s : RuntimeState ε} {t : EffectSide}
    {a : EffectAction} (htracked : s.effects.tables.Tracked) (h : s.effects.tables.Bound)
    (hserved : (RuntimeAction.effect a : RuntimeAction ε).Served)
    (hretries : RetriesAsRecorded s (.effect a)) (hexec : s.effects.exec a = .ok t) :
    t.tables.Bound := by
  cases a with
  | claimOutbox owner now leaseUntil =>
    simp only [exec] at hexec
    split at hexec
    · obtain rfl := Except.ok.inj hexec
      exact h
    · rename_i hclaim
      obtain rfl := Except.ok.inj hexec
      exact h.of_claim hclaim (by simp [OutboxState.attemptState])
  | claimAmbiguous owner now leaseUntil =>
    simp only [exec] at hexec
    split at hexec
    · obtain rfl := Except.ok.inj hexec
      exact h
    · rename_i hclaim
      obtain rfl := Except.ok.inj hexec
      exact h.of_claim hclaim (by simp [OutboxState.attemptState])
  | markDispatchStarted claim occurredAt =>
    simp only [exec, bind_eq_ok, pure_eq_ok, Prod.exists] at hexec
    obtain ⟨_, _, _, _, hstart, rfl⟩ := hexec
    exact h.of_start htracked hstart
  | channelApply attempt =>
    simp only [exec, bind_eq_ok, pure_eq_ok] at hexec
    obtain ⟨_, _, rfl⟩ := hexec
    exact h
  | finalizeDispatch claim outcome fin =>
    simp only [exec, bind_eq_ok, pure_eq_ok, Prod.exists] at hexec
    obtain ⟨_, _, _, _, hfinalize, rfl⟩ := hexec
    exact h.of_finalize htracked hserved hfinalize
  | recoverExpiredDispatches now resultActor resultId resultDigest =>
    simp only [exec, bind_eq_ok, pure_eq_ok, Prod.exists] at hexec
    obtain ⟨_, _, hrecover, rfl⟩ := hexec
    rcases EffectTables.recoverExpiredDispatches_eq_ok hrecover with rfl |
      ⟨_, _, fin, _, _, hactor, hfinalize⟩
    · exact h
    · exact h.of_finalize htracked (by rw [hactor]; exact hserved) hfinalize
  | reconcileAmbiguous claim outcome fin nextReconciliationAt =>
    simp only [exec, bind_eq_ok, pure_eq_ok, Prod.exists] at hexec
    obtain ⟨_, _, _, _, hreconcile, rfl⟩ := hexec
    exact h.of_reconcile htracked hserved hretries hreconcile

theorem RuntimeState.bound_of_exec {ε : Type} {hooks : StoreHooks ε} {s t : RuntimeState ε}
    {a : RuntimeAction ε} (htracked : s.effects.tables.Tracked) (h : s.effects.tables.Bound)
    (hserved : a.Served) (hretries : RetriesAsRecorded s a) (hexec : s.exec hooks a = .ok t) :
    t.effects.tables.Bound := by
  have hretains := (RuntimeState.effects_move hexec).retains
  cases a with
  | agenda action =>
    simp only [exec, bind_eq_ok, pure_eq_ok] at hexec
    obtain ⟨_, _, rfl⟩ := hexec
    exact h
  | effect action =>
    simp only [exec, bind_eq_ok, pure_eq_ok] at hexec
    obtain ⟨_, heffects, rfl⟩ := hexec
    exact EffectSide.bound_of_exec htracked h hserved hretries heffects
  | commitSemanticDecision claim semantic =>
    simp only [exec, bind_eq_ok, pure_eq_ok] at hexec
    obtain ⟨_, _, store, hstore, rfl⟩ := hexec
    obtain ⟨_, _, _, _, _, _, _, _, _, _, _, _, rfl⟩ :=
      RuntimeStore.commitSemanticDecision_eq_ok hooks hstore
    exact h.of_retains hretains rfl rfl
  | commitApprovalAndAttempt cmd =>
    simp only [exec, RuntimeStore.commitApprovalAndAttempt, bind_eq_ok, pure_eq_ok, Prod.exists,
      Prod.mk.injEq] at hexec
    obtain ⟨_, _, ⟨_, _, effects, happroval, _, rfl⟩, rfl⟩ := hexec
    rcases EffectTables.commitApprovalAndAttempt_eq_ok happroval with ⟨_, _, rfl⟩ |
      ⟨proposal, b, decided, hauthorize, _, _, hdecided, ⟨_, rfl⟩ | ⟨_, henqueue⟩⟩
    · exact h
    · obtain ⟨_, _, _, _, _, _, rfl⟩ := EffectTables.insertDecision_eq_ok hdecided
      exact h.of_retains hretains rfl rfl
    · obtain ⟨hproposal, hanswered, _⟩ := EffectTables.authorizeApproval_eq_ok hauthorize
      exact h.of_approve hproposal hanswered hserved hdecided henqueue
  | loadDispatchBundle claim mandateId =>
    simp only [exec, bind_eq_ok, pure_eq_ok] at hexec
    obtain ⟨_, _, _, _, rfl⟩ := hexec
    exact h
  | environment rest =>
    obtain rfl := Except.ok.inj hexec
    exact h

/-- The claim still owns its row, and its dispatch has not started. -/
def OutboxClaim.Live (claim : OutboxClaim) (s : EffectTables) : Prop :=
  ∃ row, s.outbox.find? claim.outboxId = some row ∧
    (row.state = .claimed ∨ row.state = .ambiguousClaimed) ∧
    row.leaseOwner = some claim.leaseOwner ∧ row.fencingToken = claim.fencingToken

/-- A claim that owns a row which agrees with its records loads the bundle, when
    the mandate is the proposed one and the approver is unchanged. -/
theorem EffectTables.Bound.loads {s : EffectTables} (h : s.Bound) {claim : OutboxClaim}
    {row : OutboxRow} (hrow : s.outbox.find? claim.outboxId = some row)
    (hstate : row.state = .claimed ∨ row.state = .ambiguousClaimed) (hbinds : claim.binds row)
    {findMandate : StableId → Option Mandate} {findPrincipal : StableId → Option Principal}
    {mandateId : StableId}
    (hrecords : ∀ p d, s.proposals.find? row.proposalId = some p →
      s.approvals.find? row.approvalDecisionId = some d →
      findPrincipal d.author.principalId = some d.author ∧ ∃ mandate,
        findMandate mandateId = some mandate ∧
        p.mandate = some ⟨mandate.mandateId, mandate.revision⟩) :
    ∃ bundle, s.loadDispatchBundle findMandate findPrincipal claim mandateId = .ok bundle := by
  obtain ⟨p, d, a, hb⟩ := h row (Table.mem_of_find? hrow)
  obtain ⟨happrover, mandate, hmandate, hnamed⟩ := hrecords p d hb.proposed hb.approved
  obtain ⟨_, _, _, hproposal, happroval, hattempt, hkey, hnumber⟩ := id hbinds
  have hclaim : s.requireOutboxClaim claim [.claimed, .ambiguousClaimed] none = .ok row := by
    simp only [requireOutboxClaim, bind_eq_ok, orFail_eq_ok, require_eq_ok, pure_eq_ok,
      exists_const]
    exact ⟨row, hrow, ⟨by simpa using hstate, hbinds⟩, by simp, rfl⟩
  have hplanned : a.state = if row.state = .claimed then .planned else .ambiguous := by
    rw [hb.current.state]
    rcases hstate with hstate | hstate <;> rw [hstate] <;> rfl
  have hactor : row.actorPrincipalId = a.actor.principalId := by
    refine hb.current.actor ?_ ?_ <;> rcases hstate with hstate | hstate <;> simp [hstate]
  have hvalid : bindingsValid claim row p d a d.author mandate :=
    ⟨hb.queued.proposalId, hb.made.proposalId.symm, hb.queued.approvalDecisionId,
      hb.made.approvalDecisionId.symm, hb.current.effectAttemptId, hb.current.attemptNumber,
      hb.queued.maximumAttempts, hb.queued.effectIdempotencyKey, hb.made.proposalRevision,
      hb.answered.proposalId, hb.answered.proposalRevision, hb.answered.proposalPayloadDigest,
      hb.answered.proposalDigest, hproposal.symm, happroval.symm, hattempt.symm, hkey.symm,
      hnumber.symm, hnamed, rfl, hb.answered.human, hb.made.service, hplanned,
      hb.answered.correlationId.symm, hb.answered.correlationId.trans hb.made.correlationId.symm,
      hb.made.correlationId.trans hb.queued.correlationId.symm, hb.answered.proposalId,
      hb.made.approvalDecisionId, hb.queued.causationId, hactor⟩
  refine ⟨⟨p, d, a, d.author, row.effectIdempotencyKey, row.maximumAttempts⟩, ?_⟩
  simp only [loadDispatchBundle, bind_eq_ok, Records.getRecord_eq_ok, orFail_eq_ok, require_eq_ok,
    pure_eq_ok, exists_const]
  exact ⟨row, hclaim, p, hproposal ▸ hb.proposed, d, happroval ▸ hb.approved, a,
    hattempt ▸ hb.attempted, d.author, happrover, mandate, hmandate, hvalid, rfl⟩

section Runs

variable {ε : Type} {hooks : StoreHooks ε} {rest : ε} {s : RuntimeState ε}
  {tr : List (Transition (RuntimeState ε) (RuntimeAction ε))}

theorem bound_of_path (h : (runtime hooks).Path (.initial rest) tr s)
    (hsteps : ∀ e ∈ tr, e.action.Served ∧ RetriesAsRecorded e.source e.action) :
    s.effects.tables.Bound := by
  have hpreserved : ((runtime hooks).restrict fun s a => a.Served ∧ RetriesAsRecorded s a).Preserved
      fun s => s.effects.tables.Tracked ∧ s.effects.tables.Bound :=
    fun _ _ _ hs hstep => ⟨EffectTables.tracked_move hs.1 (RuntimeState.effects_move hstep.1),
      RuntimeState.bound_of_exec hs.1 hs.2 hstep.2.1 hstep.2.2 hstep.1⟩
  have hpath := h.restrict (C := fun s a => a.Served ∧ RetriesAsRecorded s a) hsteps
  exact (hpath.invariant (I := fun s => s.effects.tables.Tracked ∧ s.effects.tables.Bound)
    hpreserved ⟨EffectTables.tracked_empty, fun _ hr => absurd hr (Table.not_mem_empty _)⟩).2

/-- What is stored at one step of a run is stored at its end. -/
theorem retains_of_path (h : (runtime hooks).Path (.initial rest) tr s) :
    ∀ e ∈ tr, e.source.effects.tables.Retains s.effects.tables := by
  intro e he
  have hstep : e.source.effects.tables.Retains e.target.effects.tables :=
    (RuntimeState.effects_move (h.step_of_mem e he)).retains
  have hI : (runtime hooks).Preserved fun _ => True := fun _ _ _ _ _ => trivial
  refine ⟨fun id p hp => ?_, fun id d hd => ?_⟩
  · exact (h.pairwise (Q := fun s => s.effects.tables.proposals.find? id = some p) hI
      (fun _ _ _ _ hs hst => (RuntimeState.effects_move hst).retains.proposals id p hs)
      trivial).2 e he (hstep.proposals id p hp)
  · exact (h.pairwise (Q := fun s => s.effects.tables.approvals.find? id = some d) hI
      (fun _ _ _ _ hs hst => (RuntimeState.effects_move hst).retains.approvals id d hs)
      trivial).2 e he (hstep.approvals id d hd)

/-- A stored decision was recorded in the run. -/
theorem exists_recordsDecision (h : (runtime hooks).Path (.initial rest) tr s) {id : StableId}
    {decision : HumanApprovalDecision}
    (hdecision : s.effects.tables.approvals.find? id = some decision) :
    ∃ e ∈ tr, RecordsDecision decision e := by
  have hid : decision.approvalDecisionId = id := Records.key_of_find? hdecision
  obtain ⟨before, e, after, rfl, hsource, htarget, _⟩ := h.exists_last_rise
    (P := fun s => s.effects.tables.approvals.find? id = some decision)
    (by simp [RuntimeState.initial, EffectTables.empty]) hdecision
  refine ⟨e, by simp, ?_, hid ▸ htarget⟩
  rw [hid]
  cases hold : e.source.effects.tables.approvals.find? id with
  | none => rfl
  | some other =>
    have hkept := (RuntimeState.effects_move (h.step_of_mem e (by simp))).retains.approvals
      id other hold
    obtain rfl := Option.some.inj (hkept.symm.trans htarget)
    exact absurd hold hsource

/-- The state in which the approval of a claim was recorded, and what the approval
    was given for. -/
def ApprovedIn (e : Transition (RuntimeState ε) (RuntimeAction ε)) (cmd : ApprovalCommand)
    (claim : OutboxClaim) : Prop :=
  e.action = .commitApprovalAndAttempt cmd ∧ RecordsDecision cmd.decision e ∧
    cmd.decision.approvalDecisionId = claim.approvalDecisionId

/-- Mandate and approver are stored as they were. -/
def AuthorityKept (hooks : StoreHooks ε) (cmd : ApprovalCommand) (s t : RuntimeState ε) : Prop :=
  hooks.findMandate t.rest cmd.mandateId = hooks.findMandate s.rest cmd.mandateId ∧
    hooks.findPrincipal t.rest cmd.decision.author.principalId =
      hooks.findPrincipal s.rest cmd.decision.author.principalId

end Runs

/-- A reconciliation of the row claimed last: the effect is absent and is retried
    by `actor`. -/
def sampleAbsent (actor : Principal) (s : RuntimeState AuthorityRecords) :
    RuntimeAction AuthorityRecords :=
  match s.effects.outboxClaims.getLast? with
  | none => .environment s.rest
  | some claim => .effect (.reconcileAmbiguous claim ⟨.confirmedAbsent, .empty, 0⟩
      ⟨stableId "result-2", actor, 60, some (stableId "attempt-2")⟩ none)

/-- An ambiguous dispatch, reconciled and claimed again. -/
def reconciledBy (actor : Principal) :
    List (RuntimeState AuthorityRecords → RuntimeAction AuthorityRecords) :=
  sampleApproved ++ sampleDispatch 40 .ambiguous (stableId "result-1") none ++
    [fun _ => .effect (.claimAmbiguous sampleWorker.principalId 50 150), sampleAbsent actor,
      fun _ => .effect (.claimOutbox sampleWorker.principalId 200 300)]

/-- A second service, for concrete runs. -/
def sampleReconciler : Principal := { sampleWorker with principalId := stableId "worker-2" }

instance {ε : Type} (a : RuntimeAction ε) : Decidable a.Served := by
  unfold RuntimeAction.Served
  split <;> infer_instance

instance {ε : Type} (s : RuntimeState ε) (a : RuntimeAction ε) :
    Decidable (RetriesAsRecorded s a) := by
  unfold RetriesAsRecorded
  split <;> infer_instance

instance (claim : OutboxClaim) (s : EffectTables) : Decidable (claim.Live s) :=
  decidable_of_iff ((s.outbox.find? claim.outboxId).any fun row => decide
      ((row.state = .claimed ∨ row.state = .ambiguousClaimed) ∧
        row.leaseOwner = some claim.leaseOwner ∧ row.fencingToken = claim.fencingToken)) <| by
    simp [OutboxClaim.Live, Option.any_eq_true]

/-- The last claim of a run is live. -/
def lastClaimLive (s : RuntimeState AuthorityRecords) : Bool :=
  s.effects.outboxClaims.getLast?.any fun claim => decide (claim.Live s.effects.tables)

/-- The action is not a change of the rest of the database. -/
def keepsRest {ε : Type} : RuntimeAction ε → Bool
  | .environment _ => false
  | _ => true

/-- The base store leaves the authority records alone. -/
theorem rest_of_exec {s t : RuntimeState AuthorityRecords} {a : RuntimeAction AuthorityRecords}
    (ha : keepsRest a = true) (h : s.exec sqliteRuntimeStore a = .ok t) : t.rest = s.rest := by
  cases a with
  | agenda action =>
    simp only [RuntimeState.exec, bind_eq_ok, pure_eq_ok] at h
    obtain ⟨_, _, rfl⟩ := h
    rfl
  | effect action =>
    simp only [RuntimeState.exec, bind_eq_ok, pure_eq_ok] at h
    obtain ⟨_, _, rfl⟩ := h
    rfl
  | commitSemanticDecision claim semantic =>
    simp only [RuntimeState.exec, bind_eq_ok, pure_eq_ok] at h
    obtain ⟨_, _, store, hstore, rfl⟩ := h
    obtain ⟨_, _, _, _, _, _, _, hprepared, _, _, _, _, rfl⟩ :=
      RuntimeStore.commitSemanticDecision_eq_ok sqliteRuntimeStore hstore
    exact (Prod.mk.inj (Except.ok.inj hprepared)).2.symm
  | commitApprovalAndAttempt cmd =>
    simp only [RuntimeState.exec, RuntimeStore.commitApprovalAndAttempt, bind_eq_ok, pure_eq_ok,
      Prod.exists, Prod.mk.injEq] at h
    obtain ⟨_, _, ⟨_, bound, effects, happroval, _, rfl⟩, rfl⟩ := h
    rcases EffectTables.commitApprovalAndAttempt_eq_ok happroval with ⟨_, rfl, _⟩ |
      ⟨_, b, _, hauthorize, rfl, _⟩
    · rfl
    · exact (Except.ok.inj (EffectTables.authorizeApproval_eq_ok hauthorize).2.2.2.1).symm
  | loadDispatchBundle claim mandateId =>
    simp only [RuntimeState.exec, bind_eq_ok, pure_eq_ok] at h
    obtain ⟨_, _, _, _, rfl⟩ := h
    rfl
  | environment rest => exact absurd ha (by simp [keepsRest])

theorem authorityKept_of_keepsRest {rest : AuthorityRecords} {s : RuntimeState AuthorityRecords}
    {tr : List (Transition (RuntimeState AuthorityRecords) (RuntimeAction AuthorityRecords))}
    (h : (runtime sqliteRuntimeStore).Path (.initial rest) tr s)
    (hkeeps : ∀ e ∈ tr, keepsRest e.action = true) (cmd : ApprovalCommand) :
    ∀ e ∈ tr, AuthorityKept sqliteRuntimeStore cmd e.source s := by
  have hpreserved : ((runtime sqliteRuntimeStore).restrict fun _ a => keepsRest a = true).Preserved
      fun s => s.rest = rest := fun _ _ _ hs hstep => (rest_of_exec hstep.2 hstep.1).trans hs
  have hpath := h.restrict (C := fun _ a => keepsRest a = true) hkeeps
  have hend : s.rest = rest := hpath.invariant (I := fun s => s.rest = rest) hpreserved rfl
  intro e he
  have hsource : e.source.rest = rest :=
    hpath.invariant_source (I := fun s => s.rest = rest) hpreserved rfl e he
  exact ⟨by rw [hend, hsource], by rw [hend, hsource]⟩

/-- The claim is refused with the mandate of an approval. -/
def refusedAsApproved (s : RuntimeState AuthorityRecords) (claim : OutboxClaim) :
    RuntimeAction AuthorityRecords → Bool
  | .commitApprovalAndAttempt cmd =>
    !(s.store.loadDispatchBundle sqliteRuntimeStore claim cmd.mandateId).isOk
  | _ => true

/-- The last claim of a run is live and refused with the mandate of any approval. -/
def lastClaimRefused (s : RuntimeState AuthorityRecords)
    (actions : List (RuntimeAction AuthorityRecords)) : Bool :=
  s.effects.outboxClaims.getLast?.any fun claim =>
    decide (claim.Live s.effects.tables) && actions.all (refusedAsApproved s claim)

end DigitalColleagues
