import Mathlib.Data.Finset.Card
import DigitalColleagues.Runtime.Recovery

/-!
# The order of dispatches

While a due row waits for its dispatch, other rows are claimed before it: those
that became due earlier. A row that a claim has moved ahead of the waiting one goes
behind it when its dispatch ends, but one whose dispatch was refused stays claimed
where it is, and comes first again when its lease runs out. Each call of
`dispatch_once` starts with one claim.

## Main definitions

- `takenRow`, `othersTaken` — the claims of a run, and those of other rows
- `Worker.authorizes` — the authority of a row is complete at a time
- `WaitsDue` — a row waits for its dispatch during a run
- `NoneLeftClaimed` — the condition under which nothing starves
-/

namespace DigitalColleagues

open EffectTables

-- ════════════════════════════════════════════════════════════════════════
-- Claims of a run
-- ════════════════════════════════════════════════════════════════════════

/-- The states that `claim_outbox` takes rows from. -/
def dispatchStates : List OutboxState := [.pending, .retry, .claimed]

/-- A row that `claim_outbox` can take. -/
def OutboxRow.dispatchable (r : OutboxRow) (now : Instant) : Bool :=
  r.eligible now dispatchStates false

/-- The time of a claim for a dispatch. -/
def claimTime {ε : Type} : RuntimeAction ε → Option Instant
  | .effect (.claimOutbox _ now _) => some now
  | _ => none

section Runs

variable {ε : Type}

/-- When the row is due that an action queues, or queues again. -/
def queuedAt : RuntimeAction ε → Option Instant
  | .commitApprovalAndAttempt cmd => some cmd.occurredAt
  | .effect (.finalizeDispatch _ _ fin) => some fin.occurredAt
  | .effect (.reconcileAmbiguous _ _ fin _) => some fin.occurredAt
  | _ => none

/-- The row that a transition claims for a dispatch. -/
def takenRow (e : Transition (RuntimeState ε) (RuntimeAction ε)) : Option OutboxRow :=
  (claimTime e.action).bind fun now =>
    e.source.effects.tables.outbox.selectMin (fun r => r.dispatchable now) OutboxRow.rank

/-- How often a run claims another row. -/
def othersTaken (x : OutboxRow) (tr : List (Transition (RuntimeState ε) (RuntimeAction ε))) : ℕ :=
  tr.countP fun e => (takenRow e).any fun r => decide (r.outboxId ≠ x.outboxId)

/-- The other rows that can be claimed at a time, with the retries they are allowed. -/
def allowance (s : EffectTables) (x : OutboxRow) (since : Instant) : ℕ :=
  s.outbox.sum fun r =>
    if r.outboxId ≠ x.outboxId ∧ r.dispatchable since = true then
      1 + (r.maximumAttempts - r.attemptNumber)
    else 0

/-- The state after a row was claimed. -/
def RuntimeState.claiming (s : RuntimeState ε) (x : OutboxRow) (owner : StableId)
    (leaseUntil : Instant) : RuntimeState ε :=
  { s with effects := { s.effects with
    tables := { s.effects.tables with
      outbox := s.effects.tables.outbox.replace (x.claim .claimed owner leaseUntil) }
    outboxClaims := s.effects.outboxClaims ++
      [x.claimOf owner leaseUntil (x.fencingToken + 1)] } }

/-- The complete authority of a row is current: `dispatch_once` would validate it, if it
    claimed the row now. -/
def Worker.authorizes (w : Worker ε) (context : ServiceRuntimeContext) (s : RuntimeState ε)
    (x : OutboxRow) (now : Instant) : Bool :=
  let leaseUntil := now + leaseDuration
  (DispatchService.validateExactEffect { w with clock := fun _ => now } context
    (x.claimOf DispatchService.ownerId leaseUntil (x.fencingToken + 1))
    ⟨s.claiming x DispatchService.ownerId leaseUntil, 0⟩).1.toOption.isSome

/-- A due row waits during a run: at each claim, at times that do not go back, it can
    be claimed and its authority is current, and none of the claims takes it. -/
structure WaitsDue (w : Worker ε) (context : ServiceRuntimeContext) (since : Instant)
    (x : OutboxRow) (s : RuntimeState ε)
    (tr : List (Transition (RuntimeState ε) (RuntimeAction ε))) : Prop where
  mem : x ∈ s.effects.tables.outbox
  due : x.dispatchable since = true
  since_le : ∀ e ∈ tr, ∀ now ∈ claimTime e.action, since ≤ now
  ordered : (tr.filterMap fun e => claimTime e.action).Pairwise (· ≤ ·)
  waits : ∀ e ∈ tr, ∀ now ∈ claimTime e.action,
    x ∈ e.source.effects.tables.outbox ∧ x.dispatchable now = true
  authorized : ∀ e ∈ tr, ∀ now ∈ claimTime e.action,
    w.authorizes context e.source x now = true
  unclaimed : ∀ e ∈ tr, takenRow e ≠ some x

/-- A transition meets the condition when no claim finds a row before the waiting one
    that a call left claimed since the run began, and what it queues, or queues again,
    is due after the waiting row. -/
structure NoneLeftClaimed (s : EffectTables) (since : Instant) (x : OutboxRow)
    (e : Transition (RuntimeState ε) (RuntimeAction ε)) : Prop where
  left : ∀ now ∈ claimTime e.action, ∀ r ∈ e.source.effects.tables.outbox,
    r.state = .claimed → r.dispatchable now = true → r.rank < x.rank →
      r ∈ s.outbox ∧ r.dispatchable since = true
  stamped : ∀ at' ∈ queuedAt e.action, x.nextAttemptAt < at'

end Runs

-- ════════════════════════════════════════════════════════════════════════
-- Rows keep their revision or raise it
-- ════════════════════════════════════════════════════════════════════════

/-- A later state of a row: the same, or one with a higher revision. -/
def OutboxRow.LaterRow (r r' : OutboxRow) : Prop := r' = r ∨ r.revision < r'.revision

theorem EffectTables.RowStep.laterRow {ε : Type} {s : EffectTables} {a : RuntimeAction ε}
    {r r' : OutboxRow} (h : s.RowStep r a r') : r.LaterRow r' := by
  cases h with
  | kept => exact .inl rfl
  | claimed => exact .inr (Nat.lt_succ_self _)
  | claimedAmbiguous => exact .inr (Nat.lt_succ_self _)
  | started => exact .inr (Nat.lt_succ_self _)
  | dispatched => exact .inr (Nat.lt_succ_self _)
  | leftUnknown _ _ _ _ hunknown =>
    obtain ⟨_, _, rfl⟩ := stillUnknown_eq_ok hunknown
    exact .inr (Nat.lt_succ_self _)
  | reconciled => exact .inr (Nat.lt_succ_self _)

theorem OutboxRow.LaterRow.trans {r r' r'' : OutboxRow} (h : r.LaterRow r') (h' : r'.LaterRow r'') :
    r.LaterRow r'' := by
  rcases h with rfl | h <;> rcases h' with rfl | h'
  · exact .inl rfl
  · exact .inr h'
  · exact .inr h
  · exact .inr (h.trans h')

variable {ε : Type} {hooks : StoreHooks ε} {s t : RuntimeState ε}
  {tr : List (Transition (RuntimeState ε) (RuntimeAction ε))}

theorem RuntimeState.laterRows_of_path (hs : s.effects.tables.Tracked)
    (h : (runtime hooks).Path s tr t) :
    s.effects.tables.outbox.Persists OutboxRow.LaterRow t.effects.tables.outbox := by
  induction h with
  | refl => exact Table.Persists.refl (fun _ => .inl rfl) _
  | snoc hpath hstep ih =>
    refine ih.trans (fun _ _ _ h h' => h.trans h') fun k r hr => ?_
    obtain ⟨r', hr', hmoved⟩ := exists_rowStep (hpath.invariant tracked_preserved hs) hstep hr
    exact ⟨r', hr', hmoved.laterRow⟩

-- ════════════════════════════════════════════════════════════════════════
-- What a step queues
-- ════════════════════════════════════════════════════════════════════════

/-- Waiting for a dispatch without a claim. -/
def OutboxRow.Queued (r : OutboxRow) : Prop := r.state = .pending ∨ r.state = .retry

namespace EffectTables

variable {s t : EffectTables}

theorem mem_of_mem_replace {row row' r : OutboxRow} (hr : r ∈ s.outbox.replace row')
    (hfind : s.outbox.find? row.outboxId = some row) (hid : row'.outboxId = row.outboxId) :
    r = row' ∨ r ∈ s.outbox := by
  rcases (Table.mem_replace (r := row') (hid ▸ hfind)).mp hr with rfl | ⟨hmem, _⟩
  · exact .inl rfl
  · exact .inr hmem

theorem queued_of_replace {row row' r : OutboxRow} (hr : r ∈ s.outbox.replace row')
    (hfind : s.outbox.find? row.outboxId = some row) (hid : row'.outboxId = row.outboxId)
    (hrow' : ¬row'.Queued) (hqueued : r.Queued) : r ∈ s.outbox := by
  rcases mem_of_mem_replace hr hfind hid with rfl | hmem
  · exact absurd hqueued hrow'
  · exact hmem

theorem queued_of_claim {owner : StableId} {now leaseUntil : Instant}
    {sourceStates : List OutboxState} {targetState : OutboxState} {excludeStopped : Bool}
    {claim : OutboxClaim} {r : OutboxRow}
    (h : s.claimOutboxState owner now leaseUntil sourceStates targetState excludeStopped =
      some (claim, t))
    (htarget : targetState ≠ .pending ∧ targetState ≠ .retry) (hr : r ∈ t.outbox)
    (hqueued : r.Queued) : r ∈ s.outbox := by
  obtain ⟨row, hfind, _, _, rfl⟩ := claimOutboxState_eq_some h
  refine queued_of_replace hr hfind rfl (fun hclaimed => ?_) hqueued
  rcases hclaimed with hstate | hstate
  · exact htarget.1 hstate
  · exact htarget.2 hstate

/-- A dispatch queues a retry at the time of its outcome, which is known. -/
theorem queued_of_finalizeDispatch {claim : OutboxClaim} {outcome : ChannelOutcome}
    {fin : Finalization} {result : ActionResult} {r : OutboxRow}
    (h : s.finalizeDispatch claim outcome fin = .ok (result, t)) (hr : r ∈ t.outbox)
    (hqueued : r.Queued) :
    r ∈ s.outbox ∨ r.nextAttemptAt = fin.occurredAt ∧ outcome.kind ≠ .ambiguous := by
  obtain ⟨row, attempt, settled, results, next, attempts, hrow, _, _, _, rfl, _, hretry, rfl⟩ :=
    finalizeDispatch_eq_ok h
  obtain ⟨hfind, _, _, _⟩ := requireOutboxClaim_eq_ok hrow
  rcases mem_of_mem_replace hr hfind rfl with rfl | hmem
  · refine .inr ⟨rfl, fun hkind => ?_⟩
    rcases createRetry_eq_ok hretry with ⟨rfl, _⟩ | ⟨_, _, _, _, rfl, hretryable, _⟩
    · simp [OutboxRow.Queued, OutboxRow.settle, settledState, hkind, resultStates] at hqueued
    · simp [hkind] at hretryable
  · exact .inl hmem

theorem queued_of_reconcileAmbiguous {claim : OutboxClaim} {outcome : ReconciliationOutcome}
    {fin : Finalization} {nextReconciliationAt : Option Instant} {result : Option ActionResult}
    {r : OutboxRow} (h : s.reconcileAmbiguous claim outcome fin nextReconciliationAt = .ok (result, t))
    (hr : r ∈ t.outbox) (hqueued : r.Queued) :
    r ∈ s.outbox ∨ r.nextAttemptAt = fin.occurredAt := by
  obtain ⟨row, attempt, hrow, _, _, hcase⟩ := reconcileAmbiguous_eq_ok h
  obtain ⟨hfind, _, _, _⟩ := requireOutboxClaim_eq_ok hrow
  rcases hcase with ⟨unknown, _, hunknown, rfl⟩ |
    ⟨_, settled, settlement, results, next, attempts, _, rfl, _, _, rfl⟩
  · obtain ⟨nextAttemptAt, last, rfl⟩ := stillUnknown_eq_ok hunknown
    have hkept : ¬(row.keepAmbiguous nextAttemptAt last).Queued := by
      simp [OutboxRow.Queued, OutboxRow.keepAmbiguous]
    exact .inl (queued_of_replace hr hfind rfl hkept hqueued)
  · rcases mem_of_mem_replace hr hfind rfl with rfl | hmem
    · exact .inr rfl
    · exact .inl hmem

end EffectTables

theorem EffectSide.queued_of_exec {s t : EffectSide} {a : EffectAction} {r : OutboxRow}
    (h : s.exec a = .ok t) (hr : r ∈ t.tables.outbox) (hqueued : r.Queued) :
    r ∈ s.tables.outbox ∨
      r.nextAttemptAt ∈ queuedAt (RuntimeAction.effect a : RuntimeAction ε) := by
  cases a with
  | claimOutbox owner now leaseUntil =>
    simp only [exec] at h
    split at h
    · obtain rfl := Except.ok.inj h
      exact .inl hr
    · rename_i hclaim
      obtain rfl := Except.ok.inj h
      exact .inl (EffectTables.queued_of_claim hclaim (by simp) hr hqueued)
  | claimAmbiguous owner now leaseUntil =>
    simp only [exec] at h
    split at h
    · obtain rfl := Except.ok.inj h
      exact .inl hr
    · rename_i hclaim
      obtain rfl := Except.ok.inj h
      exact .inl (EffectTables.queued_of_claim hclaim (by simp) hr hqueued)
  | markDispatchStarted claim occurredAt =>
    simp only [exec, bind_eq_ok, pure_eq_ok, Prod.exists] at h
    obtain ⟨_, _, attempt, tables, hmark, rfl⟩ := h
    obtain ⟨row, _, _, hrow, _, _, _, _, rfl⟩ := EffectTables.markDispatchStarted_eq_ok hmark
    obtain ⟨hfind, _, _, _⟩ := EffectTables.requireOutboxClaim_eq_ok hrow
    have hstarted : ¬row.startDispatch.Queued := by
      simp [OutboxRow.Queued, OutboxRow.startDispatch]
    exact .inl (EffectTables.queued_of_replace hr hfind rfl hstarted hqueued)
  | channelApply attempt =>
    simp only [exec, bind_eq_ok, pure_eq_ok] at h
    obtain ⟨_, _, rfl⟩ := h
    exact .inl hr
  | finalizeDispatch claim outcome fin =>
    simp only [exec, bind_eq_ok, pure_eq_ok, Prod.exists] at h
    obtain ⟨_, _, result, tables, hfinalize, rfl⟩ := h
    rcases EffectTables.queued_of_finalizeDispatch hfinalize hr hqueued with hmem | ⟨hat, _⟩
    · exact .inl hmem
    · exact .inr (congrArg some hat.symm)
  | recoverExpiredDispatches now resultActor resultId resultDigest =>
    simp only [exec, bind_eq_ok, pure_eq_ok, Prod.exists] at h
    obtain ⟨count, tables, hrecover, rfl⟩ := h
    rcases EffectTables.recoverExpiredDispatches_eq_ok hrecover with rfl |
      ⟨claim, outcome, fin, result, hkind, _, hfinalize⟩
    · exact .inl hr
    · rcases EffectTables.queued_of_finalizeDispatch hfinalize hr hqueued with hmem | ⟨_, hknown⟩
      · exact .inl hmem
      · exact absurd hkind hknown
  | reconcileAmbiguous claim outcome fin nextReconciliationAt =>
    simp only [exec, bind_eq_ok, pure_eq_ok, Prod.exists] at h
    obtain ⟨_, _, result, tables, hreconcile, rfl⟩ := h
    rcases EffectTables.queued_of_reconcileAmbiguous hreconcile hr hqueued with hmem | hat
    · exact .inl hmem
    · exact .inr (congrArg some hat.symm)

/-- What a step queues is due at the time of the action. -/
theorem RuntimeState.queued_of_exec {a : RuntimeAction ε} {r : OutboxRow}
    (h : s.exec hooks a = .ok t) (hr : r ∈ t.effects.tables.outbox) (hqueued : r.Queued) :
    r ∈ s.effects.tables.outbox ∨ r.nextAttemptAt ∈ queuedAt a := by
  cases a with
  | agenda action =>
    simp only [exec, bind_eq_ok, pure_eq_ok] at h
    obtain ⟨_, _, rfl⟩ := h
    exact .inl hr
  | effect action =>
    simp only [exec, bind_eq_ok, pure_eq_ok] at h
    obtain ⟨effects, heffects, rfl⟩ := h
    exact EffectSide.queued_of_exec heffects hr hqueued
  | commitSemanticDecision claim semantic =>
    simp only [exec, bind_eq_ok, pure_eq_ok] at h
    obtain ⟨_, _, store, hstore, rfl⟩ := h
    obtain ⟨_, prepared, _, _, _, proposals, _, _, _, _, hproposals, _, rfl⟩ :=
      RuntimeStore.commitSemanticDecision_eq_ok hooks hstore
    exact .inl hr
  | commitApprovalAndAttempt cmd =>
    simp only [exec, bind_eq_ok, pure_eq_ok, Prod.exists,
      RuntimeStore.commitApprovalAndAttempt, Prod.mk.injEq] at h
    obtain ⟨_, _, ⟨result, bound, effects, happroval, _, rfl⟩, rfl⟩ := h
    rcases EffectTables.commitApprovalAndAttempt_eq_ok happroval with ⟨_, _, rfl⟩ |
      ⟨proposal, b, decided, _, _, _, hdecided, ⟨_, rfl⟩ | ⟨_, henqueue⟩⟩
    · exact .inl hr
    · obtain ⟨_, _, _, _, _, _, rfl⟩ := EffectTables.insertDecision_eq_ok hdecided
      exact .inl hr
    · obtain ⟨_, _, _, _, _, _, rfl⟩ := EffectTables.insertDecision_eq_ok hdecided
      obtain ⟨_, outbox, _, _, hinsert, rfl⟩ := EffectTables.enqueueAttempt_eq_ok henqueue
      rcases (Table.mem_insert hinsert).mp hr with hmem | rfl
      · exact .inl hmem
      · exact .inr rfl
  | loadDispatchBundle claim mandateId =>
    simp only [exec, bind_eq_ok, pure_eq_ok] at h
    obtain ⟨_, _, _, _, rfl⟩ := h
    exact .inl hr
  | environment rest =>
    obtain rfl := Except.ok.inj h
    exact .inl hr

-- ════════════════════════════════════════════════════════════════════════
-- The rows before the waiting one
-- ════════════════════════════════════════════════════════════════════════

/-- A row can still be claimed before the waiting one: it is queued before it, or was
    claimable there when the run began and has not changed. -/
def OutboxRow.goesBefore (r : OutboxRow) (start : EffectTables) (since : Instant)
    (x : OutboxRow) : Bool :=
  decide (r.rank < x.rank) &&
    (decide (r.state = .pending ∨ r.state = .retry) ||
      (decide (start.outbox.find? r.outboxId = some r) && r.dispatchable since))

/-- The rows that can still be claimed before the waiting one. -/
def ahead (start : EffectTables) (since : Instant) (x : OutboxRow) (t : EffectTables) :
    Finset StableId :=
  (t.outbox.collect (fun r => r.goesBefore start since x) OutboxRow.outboxId).toFinset

section Ahead

variable {start : EffectTables} {since : Instant} {x : OutboxRow}

theorem OutboxRow.goesBefore_iff {r : OutboxRow} :
    r.goesBefore start since x = true ↔
      r.rank < x.rank ∧ (r.Queued ∨ r ∈ start.outbox ∧ r.dispatchable since = true) := by
  have hfind : start.outbox.find? r.outboxId = some r ↔ r ∈ start.outbox :=
    ⟨Table.mem_of_find?, Table.find?_of_mem⟩
  simp only [goesBefore, Queued, hfind, Bool.and_eq_true, Bool.or_eq_true, decide_eq_true_eq]

theorem mem_ahead {t : EffectTables} {id : StableId} :
    id ∈ ahead start since x t ↔
      ∃ r ∈ t.outbox, r.outboxId = id ∧ r.goesBefore start since x = true := by
  simp only [ahead, Table.collect, List.mem_toFinset, List.mem_map, List.mem_filter]
  constructor
  · rintro ⟨r, ⟨hr, hbefore⟩, rfl⟩
    exact ⟨r, hr, rfl, hbefore⟩
  · rintro ⟨r, hr, rfl, hbefore⟩
    exact ⟨r, ⟨hr, hbefore⟩, rfl⟩

theorem nextAttemptAt_le_of_rank_lt {r : OutboxRow} (h : r.rank < x.rank) :
    r.nextAttemptAt ≤ x.nextAttemptAt := by
  rcases Prod.Lex.lt_iff.mp h with hlt | ⟨heq, _⟩
  · exact Int.le_of_lt hlt
  · exact Int.le_of_eq heq

/-- A queued row has no lease, so it can be claimed as soon as it is due. -/
theorem dispatchable_of_queued {now : Instant} {r : OutboxRow} (hs : (runtime hooks).Reachable s)
    (hr : r ∈ s.effects.tables.outbox) (hqueued : r.Queued) (hdue : r.nextAttemptAt ≤ now) :
    r.dispatchable now = true := by
  have hbounded : r.attemptNumber ≤ r.maximumAttempts := ((tracked_of_reachable hs).row r hr).bounded
  have hleased := rowsLeased_of_reachable hs r hr
  have hfree : r.leaseUntil = none := by
    rcases hqueued with hstate | hstate <;> simp only [OutboxRow.Leased, hstate] at hleased <;>
      exact hleased.2
  refine OutboxRow.eligible_iff.mpr ⟨?_, hdue, by simp [hfree], hbounded, by simp⟩
  rcases hqueued with hstate | hstate <;> simp [dispatchStates, hstate]

/-- A row that is back as it was has never changed. -/
theorem OutboxRow.LaterRow.eq_of_back {r r' : OutboxRow} (h : r.LaterRow r') (h' : r'.LaterRow r) :
    r' = r := by
  rcases h with rfl | hlt
  · rfl
  · rcases h' with rfl | hlt'
    · rfl
    · exact absurd hlt (Nat.lt_asymm hlt')

/-- No step lets a row come before the waiting one. -/
theorem ahead_subset {a : RuntimeAction ε} (hs : s.effects.tables.Tracked)
    (hlater : start.outbox.Persists OutboxRow.LaterRow s.effects.tables.outbox)
    (hstep : s.exec hooks a = .ok t) (hstamped : ∀ at' ∈ queuedAt a, x.nextAttemptAt < at') :
    ahead start since x t.effects.tables ⊆ ahead start since x s.effects.tables := by
  intro id hid
  obtain ⟨r, hr, rfl, hbefore⟩ := mem_ahead.mp hid
  obtain ⟨hrank, hcase⟩ := OutboxRow.goesBefore_iff.mp hbefore
  refine mem_ahead.mpr ⟨r, ?_, rfl, hbefore⟩
  rcases hcase with hqueued | ⟨hmem, _⟩
  · rcases RuntimeState.queued_of_exec hstep hr hqueued with hold | hat
    · exact hold
    · exact absurd (hstamped _ hat) (Int.not_lt.mpr (nextAttemptAt_le_of_rank_lt hrank))
  · -- unchanged between its first and its last state, so also in the state between
    obtain ⟨r', hr', hfirst⟩ := hlater _ _ (Table.find?_of_mem hmem)
    obtain ⟨r'', hr'', hmoved⟩ := exists_rowStep hs hstep hr'
    obtain rfl := Option.some.inj ((Table.find?_of_mem hr).symm.trans hr'')
    rw [← hfirst.eq_of_back hmoved.laterRow]
    exact Table.mem_of_find? hr'

theorem claimTime_eq_some {a : RuntimeAction ε} {now : Instant} (h : claimTime a = some now) :
    ∃ owner leaseUntil, a = .effect (.claimOutbox owner now leaseUntil) := by
  unfold claimTime at h
  split at h
  · obtain rfl := Option.some.inj h
    exact ⟨_, _, rfl⟩
  · simp at h

/-- A claim leaves the row it takes claimed. -/
theorem target_of_takenRow {e : Transition (RuntimeState ε) (RuntimeAction ε)} {r : OutboxRow}
    (h : e.source.exec hooks e.action = .ok e.target) (hr : takenRow e = some r) :
    ∃ owner leaseUntil, e.target.effects.tables.outbox =
      e.source.effects.tables.outbox.replace (r.claim .claimed owner leaseUntil) := by
  obtain ⟨s, a, t⟩ := e
  obtain ⟨now, hnow, hmin⟩ := Option.bind_eq_some_iff.mp hr
  obtain ⟨owner, leaseUntil, rfl⟩ := claimTime_eq_some hnow
  have hfirst : s.effects.tables.outbox.selectMin
      (OutboxRow.eligible now [.pending, .retry, .claimed] false) OutboxRow.rank = some r := hmin
  have hclaim : s.effects.tables.claimOutbox owner now leaseUntil =
      some (r.claimOf owner leaseUntil (r.fencingToken + 1), { s.effects.tables with
        outbox := s.effects.tables.outbox.replace (r.claim .claimed owner leaseUntil) }) := by
    rw [EffectTables.claimOutbox, EffectTables.claimOutboxState, hfirst]
  simp only [RuntimeState.exec, EffectSide.exec, hclaim, bind_eq_ok, pure_eq_ok] at h
  obtain ⟨_, heffects, rfl⟩ := h
  obtain rfl := Except.ok.inj heffects
  exact ⟨owner, leaseUntil, rfl⟩

/-- A claim of another row takes one that came before the waiting one, for good. -/
theorem ahead_ssubset {e : Transition (RuntimeState ε) (RuntimeAction ε)} {r : OutboxRow}
    (hs : e.source.effects.tables.Tracked)
    (hlater : start.outbox.Persists OutboxRow.LaterRow e.source.effects.tables.outbox)
    (hstep : e.source.exec hooks e.action = .ok e.target)
    (hwaits : ∀ now ∈ claimTime e.action,
      x ∈ e.source.effects.tables.outbox ∧ x.dispatchable now = true)
    (hcondition : NoneLeftClaimed start since x e) (hr : takenRow e = some r)
    (hother : r.outboxId ≠ x.outboxId) :
    ahead start since x e.target.effects.tables ⊂ ahead start since x e.source.effects.tables := by
  obtain ⟨now, hnow, hmin⟩ := Option.bind_eq_some_iff.mp hr
  obtain ⟨hx, hdue⟩ := hwaits now hnow
  obtain ⟨hmem, hdispatchable⟩ := Table.selectMin_mem hmin
  have hrank : r.rank < x.rank := by
    refine lt_of_le_of_ne (Table.selectMin_le hmin hx hdue) fun heq => ?_
    exact hother (congrArg Prod.snd (toLex.injective heq))
  have hbefore : r.goesBefore start since x = true := by
    refine OutboxRow.goesBefore_iff.mpr ⟨hrank, ?_⟩
    have hstate := (OutboxRow.eligible_iff.mp hdispatchable).1
    simp only [dispatchStates, List.mem_cons, List.not_mem_nil, or_false] at hstate
    rcases hstate with hpending | hretry | hclaimed
    · exact .inl (.inl hpending)
    · exact .inl (.inr hretry)
    · exact .inr (hcondition.left now hnow r hmem hclaimed hdispatchable hrank)
  refine (ahead_subset hs hlater hstep hcondition.stamped).ssubset_of_mem_notMem
    (mem_ahead.mpr ⟨r, hmem, rfl, hbefore⟩) fun hid => ?_
  obtain ⟨r', hr', hid', hbefore'⟩ := mem_ahead.mp hid
  obtain ⟨owner, leaseUntil, htarget⟩ := target_of_takenRow hstep hr
  rw [htarget] at hr'
  have hfind : e.source.effects.tables.outbox.find? r.outboxId = some r := Table.find?_of_mem hmem
  rcases (Table.mem_replace (r := r.claim .claimed owner leaseUntil) hfind).mp hr' with
    rfl | ⟨_, hne⟩
  · obtain ⟨_, hqueued | ⟨hstart, _⟩⟩ := OutboxRow.goesBefore_iff.mp hbefore'
    · rcases hqueued with hstate | hstate <;> simp [OutboxRow.claim] at hstate
    · -- the start has the row of a later state
      obtain ⟨y, hy, hlaterRow⟩ := hlater _ _ (Table.find?_of_mem hstart)
      obtain rfl := Option.some.inj (hfind.symm.trans hy)
      rcases hlaterRow with heq | hlt
      · exact absurd (congrArg OutboxRow.revision heq) (Nat.ne_of_lt (Nat.lt_succ_self _))
      · exact absurd hlt (Nat.not_lt.mpr (Nat.le_succ _))
  · exact hne hid'

/-- Every claim of another row shortens what comes before the waiting one. -/
theorem othersTaken_add_ahead_le (hs : s.effects.tables.Tracked)
    (h : (runtime hooks).Path s tr t)
    (hwaits : ∀ e ∈ tr, ∀ now ∈ claimTime e.action,
      x ∈ e.source.effects.tables.outbox ∧ x.dispatchable now = true)
    (hcondition : ∀ e ∈ tr, NoneLeftClaimed s.effects.tables since x e) :
    othersTaken x tr + (ahead s.effects.tables since x t.effects.tables).card ≤
      (ahead s.effects.tables since x s.effects.tables).card := by
  induction h with
  | refl => simp [othersTaken]
  | @snoc u v a tr hpath hstep ih =>
    have hrest := ih (fun e he => hwaits e (List.mem_append_left _ he))
      fun e he => hcondition e (List.mem_append_left _ he)
    have hlast : (⟨u, a, v⟩ : Transition (RuntimeState ε) (RuntimeAction ε)) ∈ tr ++ [⟨u, a, v⟩] :=
      List.mem_append_right _ (List.mem_singleton_self _)
    have hu := hpath.invariant tracked_preserved hs
    have hlater := RuntimeState.laterRows_of_path hs hpath
    rw [othersTaken, List.countP_append, List.countP_singleton]
    by_cases htaken : ∃ r, takenRow (⟨u, a, v⟩ : Transition (RuntimeState ε) (RuntimeAction ε)) =
        some r ∧
        r.outboxId ≠ x.outboxId
    · obtain ⟨r, hr, hother⟩ := htaken
      have hlt : (ahead s.effects.tables since x v.effects.tables).card <
          (ahead s.effects.tables since x u.effects.tables).card :=
        Finset.card_lt_card (ahead_ssubset (e := ⟨u, a, v⟩) hu hlater hstep
          (hwaits _ hlast) (hcondition _ hlast) hr hother)
      rw [if_pos (by simp [hr, hother])]
      simp only [othersTaken] at hrest
      omega
    · have hle : (ahead s.effects.tables since x v.effects.tables).card ≤
          (ahead s.effects.tables since x u.effects.tables).card :=
        Finset.card_le_card (ahead_subset hu hlater hstep (hcondition _ hlast).stamped)
      have hnone : ¬((takenRow (⟨u, a, v⟩ : Transition (RuntimeState ε) (RuntimeAction ε))).any fun r =>
          decide (r.outboxId ≠ x.outboxId)) = true := by
        intro hany
        obtain ⟨r, hr, hother⟩ := (Option.any_eq_true _ _).mp hany
        exact htaken ⟨r, hr, of_decide_eq_true hother⟩
      rw [if_neg hnone]
      simp only [othersTaken] at hrest
      omega

/-- What comes before the waiting row when it becomes due can be claimed then. -/
theorem card_ahead_le (hs : (runtime hooks).Reachable s) (hx : x ∈ s.effects.tables.outbox)
    (hdue : x.dispatchable since = true) :
    (ahead s.effects.tables since x s.effects.tables).card ≤ allowance s.effects.tables x since := by
  set p : OutboxRow → Bool := fun r => decide (r.outboxId ≠ x.outboxId) && r.dispatchable since
  have hsubset : ahead s.effects.tables since x s.effects.tables ⊆
      (s.effects.tables.outbox.collect p OutboxRow.outboxId).toFinset := by
    intro id hid
    obtain ⟨r, hr, rfl, hbefore⟩ := mem_ahead.mp hid
    obtain ⟨hrank, hcase⟩ := OutboxRow.goesBefore_iff.mp hbefore
    have hother : r.outboxId ≠ x.outboxId := fun hid' => by
      obtain rfl := Table.eq_of_key_eq hr hx hid'
      exact lt_irrefl _ hrank
    have hdispatchable : r.dispatchable since = true := by
      rcases hcase with hqueued | ⟨_, hdispatchable⟩
      · exact dispatchable_of_queued hs hr hqueued
          ((nextAttemptAt_le_of_rank_lt hrank).trans (OutboxRow.eligible_iff.mp hdue).2.1)
      · exact hdispatchable
    exact List.mem_toFinset.mpr (Table.mem_collect hr (by simp [p, hother, hdispatchable]))
  calc
    _ ≤ (s.effects.tables.outbox.collect p OutboxRow.outboxId).toFinset.card :=
      Finset.card_le_card hsubset
    _ ≤ (s.effects.tables.outbox.collect p OutboxRow.outboxId).length := List.toFinset_card_le _
    _ = s.effects.tables.outbox.sum fun r => if p r then 1 else 0 :=
      (Table.sum_indicator _ p OutboxRow.outboxId).symm
    _ ≤ allowance s.effects.tables x since := by
      refine Table.sum_le_sum fun r _ => ?_
      simp only [p, Bool.and_eq_true, decide_eq_true_eq]
      split
      · exact Nat.le_add_right _ _
      · exact Nat.le_refl _

end Ahead

/-- **Starvation of dispatches**: a run in which no claim finds a row left claimed
    before the waiting one, and in which what is queued is due after it, claims other
    rows no more often than could be claimed when the waiting row became due, with the
    retries they were allowed. -/
theorem waiting_dispatch_bounded {w : Worker ε} {context : ServiceRuntimeContext} {since : Instant}
    {x : OutboxRow} (hs : (runtime w.hooks).Reachable s) (h : (runtime w.hooks).Path s tr t)
    (hwaits : WaitsDue w context since x s tr)
    (hcondition : ∀ e ∈ tr, NoneLeftClaimed s.effects.tables since x e) :
    othersTaken x tr ≤ allowance s.effects.tables x since := by
  have hrun := othersTaken_add_ahead_le (tracked_of_reachable hs) h hwaits.waits hcondition
  have hstart := card_ahead_le hs hwaits.mem hwaits.due
  omega

-- ════════════════════════════════════════════════════════════════════════
-- A row whose approval ran out
-- ════════════════════════════════════════════════════════════════════════

theorem lastingProposal_expires : (20 : Instant) < 1000000000 := by decide

theorem lastingApproval_valid : (31 : Instant) ≤ 1000000000 := by decide

/-- The second message, valid much longer than the first, for concrete runs. -/
def lastingProposal : EffectProposal := { secondProposal with
  constraints := { secondProposal.constraints with validUntil := 1000000000 }
  expires := lastingProposal_expires }

theorem lastingDecision_effect : DecisionKind.proposeEffect = .proposeEffect ↔
    (some (stableId "proposal-2")).isSome = true := by decide

theorem lastingDecision_proposal : SemanticOutcome.proposal = .proposal ↔
    (some lastingProposal).isSome = true := ⟨fun _ => rfl, fun _ => rfl⟩

def proposeLasting {ε : Type} (s : RuntimeState ε) : RuntimeAction ε :=
  match s.agenda.agendaClaims.getLast? with
  | none => .environment s.rest
  | some claim => .commitSemanticDecision claim
    { outcome := .proposal
      decision :=
        { decisionId := stableId "decision-2"
          wakeCycleId := claim.agendaItem.wakeCycleId
          agendaItemId := claim.agendaItem.agendaItemId
          kind := .proposeEffect
          rationale := "a reply is due"
          proposedEffectId := some (stableId "proposal-2")
          actor := sampleWorker
          correlationId := stableId "correlation-2"
          occurredAt := 20
          revision := 1
          policy := none
          effect_iff := lastingDecision_effect }
      proposal := some lastingProposal
      requestId := stableId "request-2"
      proposal_iff := lastingDecision_proposal }

/-- Two messages, approved one after the other; the first approval runs out at 900. -/
def bothWaiting {ε : Type} : List (RuntimeState ε → RuntimeAction ε) :=
  sampleApproved ++
    sampleMaterialization (sampleEvent (stableId "event-2") (stableId "note") 5)
      (stableId "trigger-2") (stableId "wake-2") (stableId "agenda-2") ++
    [sampleClaimAgenda, proposeLasting, fun _ =>
      .commitApprovalAndAttempt (secondApproval 31 1000000000 lastingApproval_valid)]

/-- The claims of calls of `dispatch_once` at the given times. -/
def dispatchClaims {ε : Type} (times : List Instant) : List (RuntimeState ε → RuntimeAction ε) :=
  times.map fun now _ =>
    .effect (.claimOutbox DispatchService.ownerId now (now + leaseDuration))

/-- What `WaitsDue` asks of one transition. -/
def waitsAt {ε : Type} (w : Worker ε) (context : ServiceRuntimeContext) (since : Instant)
    (x : OutboxRow) (e : Transition (RuntimeState ε) (RuntimeAction ε)) : Bool :=
  decide (takenRow e ≠ some x) && (claimTime e.action).all fun now =>
    decide (since ≤ now) && decide (e.source.effects.tables.outbox.find? x.outboxId = some x) &&
      x.dispatchable now && w.authorizes context e.source x now

theorem waitsDue_of_all {w : Worker ε} {context : ServiceRuntimeContext} {since : Instant}
    {x : OutboxRow} (hx : x ∈ s.effects.tables.outbox) (hdue : x.dispatchable since = true)
    (hordered : (tr.filterMap fun e => claimTime e.action).Pairwise (· ≤ ·))
    (hall : tr.all (waitsAt w context since x) = true) : WaitsDue w context since x s tr := by
  have hstep : ∀ e ∈ tr, takenRow e ≠ some x ∧ ∀ now ∈ claimTime e.action, since ≤ now ∧
      x ∈ e.source.effects.tables.outbox ∧ x.dispatchable now = true ∧
      w.authorizes context e.source x now = true := by
    intro e he
    have hwaits := List.all_eq_true.mp hall e he
    simp only [waitsAt, Bool.and_eq_true, decide_eq_true_eq] at hwaits
    refine ⟨hwaits.1, fun now hnow => ?_⟩
    rw [Option.mem_def.mp hnow, Option.all_some] at hwaits
    simp only [Bool.and_eq_true, decide_eq_true_eq] at hwaits
    exact ⟨hwaits.2.1.1.1, Table.mem_of_find? hwaits.2.1.1.2, hwaits.2.1.2, hwaits.2.2⟩
  exact
    { mem := hx
      due := hdue
      since_le := fun e he now hnow => ((hstep e he).2 now hnow).1
      ordered := hordered
      waits := fun e he now hnow =>
        ⟨((hstep e he).2 now hnow).2.1, ((hstep e he).2 now hnow).2.2.1⟩
      authorized := fun e he now hnow => ((hstep e he).2 now hnow).2.2.2
      unclaimed := fun e he => (hstep e he).1 }

/-- The second message waits during some claims, of which `p` holds. -/
def secondWaits (times : List Instant)
    (p : RuntimeState AuthorityRecords → OutboxRow →
      List (Transition (RuntimeState AuthorityRecords) (RuntimeAction AuthorityRecords)) → Bool)
    (s : RuntimeState AuthorityRecords) : Bool :=
  (s.effects.tables.outbox.find? (stableId "outbox-2")).any fun x =>
    x.dispatchable 31 && s.runsTo sqliteRuntimeStore (dispatchClaims times) fun tr _ =>
      decide ((tr.filterMap fun e => claimTime e.action).Pairwise (· ≤ ·)) &&
        tr.all (waitsAt (unreachableWorker 0) sampleContext 31 x) && p s x tr

theorem exists_secondWaits (times : List Instant)
    {p : RuntimeState AuthorityRecords → OutboxRow →
      List (Transition (RuntimeState AuthorityRecords) (RuntimeAction AuthorityRecords)) → Bool}
    (h : (RuntimeState.initial sampleAuthority).runsTo sqliteRuntimeStore bothWaiting
      (fun _ s => secondWaits times p s) = true) :
    ∃ (s t : RuntimeState AuthorityRecords)
      (tr : List (Transition (RuntimeState AuthorityRecords) (RuntimeAction AuthorityRecords)))
      (x : OutboxRow), (runtime sqliteRuntimeStore).Reachable s ∧
      (runtime sqliteRuntimeStore).Path s tr t ∧
      WaitsDue (unreachableWorker 0) sampleContext 31 x s tr ∧ p s x tr = true := by
  obtain ⟨_, s, hstart, hs⟩ := RuntimeState.exists_path_of_runsTo sqliteRuntimeStore _ _ _ h
  obtain ⟨x, hx, hruns⟩ := (Option.any_eq_true _ _).mp hs
  obtain ⟨hdue, hruns⟩ := Bool.and_eq_true_iff.mp hruns
  obtain ⟨tr, t, hpath, htr⟩ := RuntimeState.exists_path_of_runsTo sqliteRuntimeStore _ _ _ hruns
  simp only [Bool.and_eq_true, decide_eq_true_eq] at htr
  exact ⟨s, t, tr, x, hstart.reachable (.init ⟨_, rfl⟩), hpath,
    waitsDue_of_all (Table.mem_of_find? hx) hdue htr.1.1 htr.1.2, htr.2⟩

set_option maxRecDepth 8000 in
/-- The first message is claimed before the second, while its approval lasts. -/
theorem waiting_dispatch_bounded_once : ∃ (s t : RuntimeState AuthorityRecords)
    (tr : List (Transition (RuntimeState AuthorityRecords) (RuntimeAction AuthorityRecords)))
    (x : OutboxRow), (runtime sqliteRuntimeStore).Reachable s ∧
    (runtime sqliteRuntimeStore).Path s tr t ∧
    WaitsDue (unreachableWorker 0) sampleContext 31 x s tr ∧
    othersTaken x tr = 1 ∧ othersTaken x tr ≤ allowance s.effects.tables x 31 := by
  obtain ⟨s, t, tr, x, hs, hpath, hwaits, hp⟩ := exists_secondWaits [50]
    (p := fun _ x tr => decide (othersTaken x tr = 1) && tr.all fun e =>
      (e.source.effects.tables.outbox.rows.all fun r => decide (r.state ≠ .claimed)) &&
        (queuedAt e.action).isNone) (by decide +kernel)
  simp only [Bool.and_eq_true, decide_eq_true_eq, List.all_eq_true] at hp
  refine ⟨s, t, tr, x, hs, hpath, hwaits, hp.1,
    waiting_dispatch_bounded (w := unreachableWorker 0) hs hpath hwaits fun e he => ?_⟩
  obtain ⟨hfree, hqueued⟩ := hp.2 e he
  exact
    { left := fun now _ r hr hclaimed => absurd hclaimed (hfree r hr)
      stamped := fun at' hat => by
        rw [Option.isNone_iff_eq_none.mp hqueued] at hat
        simp at hat }

set_option maxRecDepth 8000 in
/-- After the first approval has run out, three calls in a row claim the first message
    again, each after the lease of the one before, while the second stays due. -/
theorem not_waiting_dispatch_bounded : ¬∀ (w : Worker AuthorityRecords)
    (context : ServiceRuntimeContext) (s t : RuntimeState AuthorityRecords)
    (tr : List (Transition (RuntimeState AuthorityRecords) (RuntimeAction AuthorityRecords)))
    (since : Instant) (x : OutboxRow), (runtime w.hooks).Reachable s →
    (runtime w.hooks).Path s tr t → WaitsDue w context since x s tr →
    othersTaken x tr ≤ allowance s.effects.tables x since := by
  intro h
  obtain ⟨s, t, tr, x, hs, hpath, hwaits, hp⟩ := exists_secondWaits
    [1000, 31000000, 62000000]
    (p := fun s x tr => decide (allowance s.effects.tables x 31 < othersTaken x tr))
    (by decide +kernel)
  have hle := h (unreachableWorker 0) sampleContext s t tr 31 x hs hpath hwaits
  exact absurd hle (Nat.not_le.mpr (of_decide_eq_true hp))

end DigitalColleagues
