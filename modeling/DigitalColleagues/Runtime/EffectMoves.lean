import DigitalColleagues.Runtime.System

/-!
# What a step can do to the effects

Every step of a run moves the effect tables in one of nine ways. A move that
settles an attempt is labelled with the outcome it records.
-/

namespace DigitalColleagues

open Keyed

/-- The state of the current attempt of a row in a given state. -/
def OutboxState.attemptState : OutboxState → EffectAttemptState
  | .pending | .claimed | .retry => .planned
  | .dispatching => .started
  | .ambiguous | .ambiguousClaimed => .ambiguous
  | .completed => .succeeded
  | .terminalFailed => .failed

/-- Outcomes after which the effect is known not to have happened. -/
def LastOutcome.notExecuted : LastOutcome → Bool
  | .channel .knownNotExecuted | .channel .retryableFailure | .reconciled .confirmedAbsent => true
  | _ => false

/-- The outcome an action records. -/
def RuntimeAction.outcome {ε : Type} : RuntimeAction ε → Option LastOutcome
  | .effect (.finalizeDispatch _ outcome _) => some (.channel outcome.kind)
  | .effect (.recoverExpiredDispatches _ _ _ _) => some (.channel .ambiguous)
  | .effect (.reconcileAmbiguous _ outcome _ _) => some (.reconciled outcome.kind)
  | _ => none

namespace EffectTables

/-- The moves of the effect tables, with what their transaction checked. -/
inductive Move (s : EffectTables) : Option LastOutcome → EffectTables → Prop
  | idle {o : Option LastOutcome} : Move s o s
  | propose {proposals : Records EffectProposal} {proposal : EffectProposal} :
      s.proposals.insertRecord proposal = .ok proposals →
      Move s none { s with proposals := proposals }
  | decide {proposal : EffectProposal} {decision : HumanApprovalDecision}
      {decided : EffectTables} :
      s.insertDecision proposal decision = .ok decided →
      s.proposals.find? proposal.proposalId = some proposal → proposal.AnsweredBy decision →
      Move s none decided
  | approve {proposal : EffectProposal} {cmd : ApprovalCommand} {decided t : EffectTables} :
      s.proposals.find? proposal.proposalId = some proposal →
      s.insertDecision proposal cmd.decision = .ok decided →
      decided.enqueueAttempt proposal cmd = .ok t → proposal.AnsweredBy cmd.decision →
      cmd.decision.choice = .approve → Move s none t
  | claim {row : OutboxRow} {target : OutboxState} {owner : StableId} {leaseUntil : Instant} :
      s.outbox.find? row.outboxId = some row →
      target.attemptState = row.state.attemptState →
      Move s none { s with outbox := s.outbox.replace (row.claim target owner leaseUntil) }
  | start {row : OutboxRow} {attempt : EffectAttempt} {attempts : Records EffectAttempt}
      {occurredAt : Instant} :
      s.outbox.find? row.outboxId = some row →
      s.attempts.find? row.effectAttemptId = some attempt → attempt.state = .planned →
      s.attempts.updateRecord (startAttempt attempt occurredAt) attempt.revision = .ok attempts →
      Move s none { s with attempts := attempts, outbox := s.outbox.replace row.startDispatch }
  | unknown {row : OutboxRow} {nextAttemptAt : Instant} {o : Option LastOutcome}
      {outcome : LastOutcome} :
      s.outbox.find? row.outboxId = some row → row.state = .ambiguousClaimed →
      Move s o { s with outbox := s.outbox.replace (row.keepAmbiguous nextAttemptAt outcome) }
  | settle {row : OutboxRow} {attempt : EffectAttempt} {state : EffectAttemptState}
      {outboxState : OutboxState} {actor : Principal} {occurredAt : Instant}
      {result : ActionResult} {attempts : Records EffectAttempt} {results : Records ActionResult}
      {o : LastOutcome} (actorPrincipalId : StableId) :
      s.outbox.find? row.outboxId = some row →
      s.attempts.find? row.effectAttemptId = some attempt →
      attempt.state = .started ∨ attempt.state = .ambiguous →
      state = .succeeded ∨ state = .failed ∨ state = .ambiguous →
      outboxState.attemptState = state →
      s.attempts.updateRecord (settleAttempt attempt state actor occurredAt) attempt.revision =
        .ok attempts →
      s.results.insertRecord result = .ok results →
      Move s (some o) { s with
        attempts := attempts
        results := results
        outbox := s.outbox.replace { row.settle outboxState attempt occurredAt o with
          actorPrincipalId := actorPrincipalId } }
  | retry {row : OutboxRow} {attempt : EffectAttempt} {nextAttemptId : StableId}
      {actor : Principal} {occurredAt : Instant} {result : ActionResult}
      {settled attempts : Records EffectAttempt} {results : Records ActionResult}
      {o : LastOutcome} (actorPrincipalId : StableId) :
      s.outbox.find? row.outboxId = some row →
      s.attempts.find? row.effectAttemptId = some attempt →
      attempt.state = .started ∨ attempt.state = .ambiguous →
      o.notExecuted = true → attempt.attemptNumber < row.maximumAttempts →
      s.attempts.updateRecord (settleAttempt attempt .failed actor occurredAt) attempt.revision =
        .ok settled →
      result.effectAttemptId = attempt.effectAttemptId →
      result.state = .notExecuted ∨ result.state = .retryableFailure →
      s.results.insertRecord result = .ok results →
      settled.insertRecord (retryAttempt attempt nextAttemptId actor occurredAt) = .ok attempts →
      Move s (some o) { s with
        attempts := attempts
        results := results
        outbox := s.outbox.replace
          { row.settle .retry (retryAttempt attempt nextAttemptId actor occurredAt) occurredAt o with
            actorPrincipalId := actorPrincipalId } }

theorem move_of_claim {s t : EffectTables} {owner : StableId} {now leaseUntil : Instant}
    {sourceStates : List OutboxState} {targetState : OutboxState} {excludeStopped : Bool}
    {claim : OutboxClaim}
    (h : s.claimOutboxState owner now leaseUntil sourceStates targetState excludeStopped =
      some (claim, t))
    (hstates : ∀ state ∈ sourceStates, targetState.attemptState = state.attemptState) :
    Move s none t := by
  obtain ⟨row, hrow, hstate, _, rfl⟩ := claimOutboxState_eq_some h
  exact .claim hrow (hstates _ hstate)

theorem move_of_markDispatchStarted {s t : EffectTables} {claim : OutboxClaim}
    {occurredAt : Instant} {started : EffectAttempt}
    (h : s.markDispatchStarted claim occurredAt = .ok (started, t)) : Move s none t := by
  obtain ⟨row, attempt, attempts, hrow, hattempt, hplanned, hattempts, rfl, rfl⟩ :=
    markDispatchStarted_eq_ok h
  obtain ⟨hfind, _, _, hbinds⟩ := requireOutboxClaim_eq_ok hrow
  have hcurrent : row.effectAttemptId = claim.effectAttemptId := hbinds.2.2.2.2.2.1
  exact .start hfind (hcurrent ▸ hattempt) hplanned hattempts

/-- A dispatch settles its attempt as the outcome says. -/
theorem move_of_finalizeDispatch {s t : EffectTables} {claim : OutboxClaim}
    {outcome : ChannelOutcome} {fin : Finalization} {result : ActionResult}
    (h : s.finalizeDispatch claim outcome fin = .ok (result, t)) :
    Move s (some (.channel outcome.kind)) t := by
  obtain ⟨row, attempt, settled, results, next, attempts, hrow, hattempt, hstarted, hsettled, rfl,
    hresults, hretry, rfl⟩ := finalizeDispatch_eq_ok h
  obtain ⟨hfind, _, _, hbinds⟩ := requireOutboxClaim_eq_ok hrow
  have hcurrent : row.effectAttemptId = claim.effectAttemptId := hbinds.2.2.2.2.2.1
  rw [← hcurrent] at hattempt
  rcases createRetry_eq_ok hretry with ⟨rfl, rfl⟩ |
    ⟨nextAttemptId, retry, _, rfl, rfl, hkind, hlimit, hinsert⟩
  · refine .settle _ hfind hattempt (.inl hstarted) ?_ ?_ hsettled hresults
    · cases outcome.kind <;> simp [resultStates]
    · cases outcome.kind <;> rfl
  · have hstates : resultStates outcome.kind = ((resultStates outcome.kind).1, .failed, .terminalFailed) := by
      rcases hkind with hkind | hkind <;> rw [hkind] <;> rfl
    rw [hstates] at hsettled
    refine .retry _ hfind hattempt (.inl hstarted) ?_ hlimit hsettled rfl ?_ hresults hinsert
    · rcases hkind with hkind | hkind <;> rw [hkind] <;> rfl
    · rcases hkind with hkind | hkind <;> rw [hkind]
      · exact .inl rfl
      · exact .inr rfl

/-- A reconciliation keeps the row ambiguous or settles its attempt. -/
theorem move_of_reconcileAmbiguous {s t : EffectTables} {claim : OutboxClaim}
    {outcome : ReconciliationOutcome} {fin : Finalization}
    {nextReconciliationAt : Option Instant} {result : Option ActionResult}
    (h : s.reconcileAmbiguous claim outcome fin nextReconciliationAt = .ok (result, t)) :
    Move s (some (.reconciled outcome.kind)) t := by
  obtain ⟨row, attempt, hrow, hattempt, hambiguous, hcase⟩ := reconcileAmbiguous_eq_ok h
  obtain ⟨hfind, _, hstate, hbinds⟩ := requireOutboxClaim_eq_ok hrow
  have hcurrent : row.effectAttemptId = claim.effectAttemptId := hbinds.2.2.2.2.2.1
  rw [← hcurrent] at hattempt
  rcases hcase with ⟨unknown, _, hunknown, rfl⟩ |
    ⟨_, settled, settlement, results, next, attempts, hsettled, rfl, hresults, hnext, rfl⟩
  · obtain ⟨nextAttemptAt, last, rfl⟩ := stillUnknown_eq_ok hunknown
    exact .unknown hfind (by simpa using hstate)
  · rcases hnext with ⟨rfl, rfl⟩ | ⟨nextAttemptId, retry, _, rfl, rfl, hkind, hlimit, hinsert⟩
    · refine .settle row.actorPrincipalId hfind hattempt (.inr hambiguous) ?_
        ?_ hsettled hresults
      · cases outcome.kind <;> simp [reconciledStates]
      · cases outcome.kind <;> rfl
    · rw [hkind] at hsettled hresults ⊢
      exact .retry row.actorPrincipalId hfind hattempt (.inr hambiguous) rfl
        hlimit hsettled rfl (.inl rfl) hresults hinsert

end EffectTables

theorem EffectSide.exec_move {s t : EffectSide} {a : EffectAction} {ε : Type}
    (h : s.exec a = .ok t) :
    EffectTables.Move s.tables (RuntimeAction.effect a : RuntimeAction ε).outcome t.tables := by
  cases a with
  | claimOutbox owner now leaseUntil =>
    simp only [exec] at h
    split at h
    · obtain rfl := Except.ok.inj h
      exact .idle
    · rename_i hclaim
      obtain rfl := Except.ok.inj h
      exact EffectTables.move_of_claim hclaim (by simp [OutboxState.attemptState])
  | claimAmbiguous owner now leaseUntil =>
    simp only [exec] at h
    split at h
    · obtain rfl := Except.ok.inj h
      exact .idle
    · rename_i hclaim
      obtain rfl := Except.ok.inj h
      exact EffectTables.move_of_claim hclaim (by simp [OutboxState.attemptState])
  | markDispatchStarted claim occurredAt =>
    simp only [exec, bind_eq_ok, pure_eq_ok, Prod.exists] at h
    obtain ⟨_, _, attempt, tables, hmark, rfl⟩ := h
    exact EffectTables.move_of_markDispatchStarted hmark
  | channelApply attempt =>
    simp only [exec, bind_eq_ok, pure_eq_ok] at h
    obtain ⟨_, _, rfl⟩ := h
    exact .idle
  | finalizeDispatch claim outcome fin =>
    simp only [exec, bind_eq_ok, pure_eq_ok, Prod.exists] at h
    obtain ⟨_, _, result, tables, hfinalize, rfl⟩ := h
    exact EffectTables.move_of_finalizeDispatch hfinalize
  | recoverExpiredDispatches now resultActor resultId resultDigest =>
    simp only [exec, bind_eq_ok, pure_eq_ok, Prod.exists] at h
    obtain ⟨count, tables, hrecover, rfl⟩ := h
    rcases EffectTables.recoverExpiredDispatches_eq_ok hrecover with rfl |
      ⟨claim, outcome, fin, result, hkind, _, hfinalize⟩
    · exact .idle
    · have hmove := EffectTables.move_of_finalizeDispatch hfinalize
      rwa [hkind] at hmove
  | reconcileAmbiguous claim outcome fin nextReconciliationAt =>
    simp only [exec, bind_eq_ok, pure_eq_ok, Prod.exists] at h
    obtain ⟨_, _, result, tables, hreconcile, rfl⟩ := h
    exact EffectTables.move_of_reconcileAmbiguous hreconcile

/-- Every step of a run is one of the moves. -/
theorem RuntimeState.effects_move {ε : Type} {hooks : StoreHooks ε} {s t : RuntimeState ε}
    {a : RuntimeAction ε} (h : s.exec hooks a = .ok t) :
    EffectTables.Move s.effects.tables a.outcome t.effects.tables := by
  cases a with
  | agenda action =>
    simp only [exec, bind_eq_ok, pure_eq_ok] at h
    obtain ⟨_, _, rfl⟩ := h
    exact .idle
  | effect action =>
    simp only [exec, bind_eq_ok, pure_eq_ok] at h
    obtain ⟨effects, heffects, rfl⟩ := h
    exact EffectSide.exec_move heffects
  | commitSemanticDecision claim semantic =>
    simp only [exec, bind_eq_ok, pure_eq_ok] at h
    obtain ⟨_, _, store, hstore, rfl⟩ := h
    obtain ⟨_, prepared, _, _, _, proposals, _, _, _, _, hproposals, _, rfl⟩ :=
      RuntimeStore.commitSemanticDecision_eq_ok hooks hstore
    unfold RuntimeStore.insertProposal at hproposals
    split at hproposals
    · obtain rfl := Except.ok.inj hproposals
      exact .idle
    · simp only [bind_eq_ok] at hproposals
      obtain ⟨_, _, hinsert⟩ := hproposals
      exact .propose hinsert
  | commitApprovalAndAttempt cmd =>
    simp only [exec, bind_eq_ok, pure_eq_ok, Prod.exists,
      RuntimeStore.commitApprovalAndAttempt, Prod.mk.injEq] at h
    obtain ⟨_, _, ⟨result, bound, effects, happroval, _, rfl⟩, rfl⟩ := h
    rcases EffectTables.commitApprovalAndAttempt_eq_ok happroval with ⟨_, _, rfl⟩ |
      ⟨proposal, b, decided, hauthorize, _, _, hdecided, ⟨_, rfl⟩ | ⟨hchoice, henqueue⟩⟩
    · exact .idle
    · obtain ⟨hfind, hanswered, _⟩ := EffectTables.authorizeApproval_eq_ok hauthorize
      exact .decide hdecided hfind hanswered
    · obtain ⟨hfind, hanswered, _⟩ := EffectTables.authorizeApproval_eq_ok hauthorize
      exact .approve hfind hdecided henqueue hanswered hchoice
  | loadDispatchBundle claim mandateId =>
    simp only [exec, bind_eq_ok, pure_eq_ok] at h
    obtain ⟨_, _, _, _, rfl⟩ := h
    exact .idle
  | environment rest =>
    obtain rfl := Except.ok.inj h
    exact .idle

-- ════════════════════════════════════════════════════════════════════════
-- Kept records
-- ════════════════════════════════════════════════════════════════════════

namespace EffectTables

/-- Proposals and decisions stay once they are stored. -/
structure Retains (s t : EffectTables) : Prop where
  proposals : ∀ id proposal, s.proposals.find? id = some proposal →
    t.proposals.find? id = some proposal
  approvals : ∀ id decision, s.approvals.find? id = some decision →
    t.approvals.find? id = some decision

theorem retains_of_insertDecision {s t : EffectTables} {proposal : EffectProposal}
    {decision : HumanApprovalDecision} (h : s.insertDecision proposal decision = .ok t) :
    s.Retains t := by
  obtain ⟨_, _, _, _, hinsert, _, rfl⟩ := insertDecision_eq_ok h
  exact ⟨fun _ _ h => h, fun _ _ h => Records.find?_insertRecord_of_some hinsert h⟩

theorem Move.retains {s t : EffectTables} {o : Option LastOutcome} (h : s.Move o t) :
    s.Retains t := by
  cases h with
  | propose hinsert =>
    exact ⟨fun _ _ h => Records.find?_insertRecord_of_some hinsert h, fun _ _ h => h⟩
  | decide hinsert => exact retains_of_insertDecision hinsert
  | approve _ hinsert henqueue =>
    obtain ⟨_, _, _, _, _, rfl⟩ := enqueueAttempt_eq_ok henqueue
    have hkept := retains_of_insertDecision hinsert
    exact ⟨hkept.proposals, hkept.approvals⟩
  | _ => exact ⟨fun _ _ h => h, fun _ _ h => h⟩

end EffectTables

end DigitalColleagues
