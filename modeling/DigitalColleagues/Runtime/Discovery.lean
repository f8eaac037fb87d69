import DigitalColleagues.Runtime.System

/-!
# Discovery of durable work

The worker loop visits the namespaces that `pending_namespaces` lists. The list
is restated by hand from the claim operations and leaves out what a crashed
worker abandons: claimed triggers, claimed and dispatching outbox rows, and the
agenda as a whole.

## Main definitions

- `pendingNamespaces` — the namespaces the worker loop visits
- `EligibleWork` — an operation would find a row
- `Stranded`, `Listed` — the rows the list leaves out, and those it is made from

## Main results

- `eligibleWork_listed_iff` — when eligible work is discovered
- `eligibleWork_not_listed` — a claimed trigger after a crash
-/

namespace DigitalColleagues

variable {ε : Type}

-- ════════════════════════════════════════════════════════════════════════
-- The list
-- ════════════════════════════════════════════════════════════════════════

namespace OutboxRow

/-- The part of `pending_namespaces` on effects to dispatch. -/
def isDue (now : Instant) (r : OutboxRow) : Bool :=
  decide (r.state = .pending ∨ r.state = .retry) && decide (r.nextAttemptAt ≤ now)

/-- The part of `pending_namespaces` on effects to reconcile. -/
def isUnreconciled (now : Instant) (r : OutboxRow) : Bool :=
  decide (r.state = .ambiguous ∨ r.state = .ambiguousClaimed) && decide (r.nextAttemptAt ≤ now) &&
    (r.leaseUntil.all fun t => decide (t < now)) &&
    match r.lastOutcome with
    | some (.stillUnknownStopped _) => false
    | _ => true

end OutboxRow

/-- Whether `pending_namespaces` lists the namespace of a store. -/
def RuntimeStore.isPending (s : RuntimeStore ε) (now : Instant) : Bool :=
  (s.agenda.triggers.rows.any fun r => decide (r.state = .pending)) ||
    (s.agenda.timerTriggers.rows.any fun r => decide (r.state = .pending)) ||
    s.effects.outbox.rows.any (OutboxRow.isDue now) ||
    s.effects.outbox.rows.any (OutboxRow.isUnreconciled now)

/-- `pending_namespaces`. -/
def pendingNamespaces (db : StableId → RuntimeState ε) (now : Instant) : Set StableId :=
  {ns | (db ns).store.isPending now = true}

-- ════════════════════════════════════════════════════════════════════════
-- Rows
-- ════════════════════════════════════════════════════════════════════════

/-- One of the claim operations, or the recovery, would find a row. -/
inductive EligibleWork (s : RuntimeStore ε) (now : Instant) : Prop
  | trigger {owner : StableId} {leaseUntil : Instant} :
      s.agenda.claimTrigger owner now leaseUntil ≠ none → EligibleWork s now
  | agenda : s.agenda.nextAgenda now ≠ none → EligibleWork s now
  | outbox {owner : StableId} {leaseUntil : Instant} :
      s.effects.claimOutbox owner now leaseUntil ≠ none → EligibleWork s now
  | ambiguous {owner : StableId} {leaseUntil : Instant} :
      s.effects.claimAmbiguous owner now leaseUntil ≠ none → EligibleWork s now
  | dispatching : s.effects.nextExpiredDispatch now ≠ none → EligibleWork s now

/-- Eligible rows in a state that the list does not look at. -/
inductive Stranded (s : RuntimeStore ε) (now : Instant) : Prop
  | trigger {type : SourceRecordType} {row : TriggerRow} : row ∈ s.agenda.triggerTable type →
      row.state = .claimed → row.claimable now = true → Stranded s now
  | agenda {row : AgendaRow} : row ∈ s.agenda.agendaRuntime → row.claimable now = true →
      Stranded s now
  | claimed {row : OutboxRow} : row ∈ s.effects.outbox →
      row.eligible now [.claimed] false = true → Stranded s now
  | dispatching {row : OutboxRow} : row ∈ s.effects.outbox → row.state = .dispatching →
      (∃ t, row.leaseUntil = some t ∧ t < now) → Stranded s now

/-- Rows that put the namespace on the list. -/
inductive Listed (s : RuntimeStore ε) (now : Instant) : Prop
  | trigger {type : SourceRecordType} {row : TriggerRow} : row ∈ s.agenda.triggerTable type →
      row.state = .pending → Listed s now
  | due {row : OutboxRow} : row ∈ s.effects.outbox → row.isDue now = true → Listed s now
  | unreconciled {row : OutboxRow} : row ∈ s.effects.outbox → row.isUnreconciled now = true →
      Listed s now

theorem isPending_iff {s : RuntimeStore ε} {now : Instant} :
    s.isPending now = true ↔ Listed s now := by
  simp only [RuntimeStore.isPending, Bool.or_eq_true, List.any_eq_true, decide_eq_true_eq]
  constructor
  · rintro (((⟨row, hrow, hstate⟩ | ⟨row, hrow, hstate⟩) | ⟨row, hrow, hdue⟩) | ⟨row, hrow, hopen⟩)
    · exact .trigger (show row ∈ s.agenda.triggerTable .inputEvent from hrow) hstate
    · exact .trigger (show row ∈ s.agenda.triggerTable .timerOccurrence from hrow) hstate
    · exact .due hrow hdue
    · exact .unreconciled hrow hopen
  · intro h
    cases h with
    | @trigger type row hrow hstate =>
      cases type with
      | inputEvent => exact .inl (.inl (.inl ⟨row, hrow, hstate⟩))
      | timerOccurrence => exact .inl (.inl (.inr ⟨row, hrow, hstate⟩))
    | @due row hrow hdue => exact .inl (.inr ⟨row, hrow, hdue⟩)
    | @unreconciled row hrow hopen => exact .inr ⟨row, hrow, hopen⟩

-- ════════════════════════════════════════════════════════════════════════
-- What the operations find
-- ════════════════════════════════════════════════════════════════════════

theorem claimTrigger_ne_none {s : AgendaTables} {owner : StableId} {now leaseUntil : Instant} :
    s.claimTrigger owner now leaseUntil ≠ none ↔
      ∃ type, ∃ row ∈ s.triggerTable type, row.claimable now = true := by
  constructor
  · intro h
    obtain ⟨⟨claim, s'⟩, hclaim⟩ := Option.ne_none_iff_exists'.mp h
    obtain ⟨type, row, hrow, hclaimable, _⟩ := AgendaTables.claimTrigger_eq_some hclaim
    exact ⟨type, row, Table.mem_of_find? hrow, hclaimable⟩
  · rintro ⟨type, row, hrow, hclaimable⟩ hnone
    have hnext : s.nextTrigger now = none := by
      unfold AgendaTables.claimTrigger at hnone
      split at hnone
      · assumption
      · exact absurd hnone (by simp)
    have hboth : ∀ type, (s.triggerTable type).selectMin (TriggerRow.claimable now)
        TriggerRow.rank = none := by
      unfold AgendaTables.nextTrigger at hnext
      split at hnext
      · rename_i hevents htimers
        intro type
        cases type
        · exact hevents
        · exact htimers
      · exact absurd hnext (by simp)
      · exact absurd hnext (by simp)
      · split at hnext <;> exact absurd hnext (by simp)
    exact absurd hclaimable (by simp [Table.selectMin_eq_none.mp (hboth type) row hrow])

theorem claimOutboxState_ne_none {s : EffectTables} {owner : StableId} {now leaseUntil : Instant}
    {sourceStates : List OutboxState} {targetState : OutboxState} {excludeStopped : Bool} :
    s.claimOutboxState owner now leaseUntil sourceStates targetState excludeStopped ≠ none ↔
      ∃ row ∈ s.outbox, row.eligible now sourceStates excludeStopped = true := by
  have hselect : s.claimOutboxState owner now leaseUntil sourceStates targetState excludeStopped =
      none ↔ s.outbox.selectMin (OutboxRow.eligible now sourceStates excludeStopped)
        OutboxRow.rank = none := by
    unfold EffectTables.claimOutboxState
    split <;> simp_all
  rw [ne_eq, hselect, Table.selectMin_eq_none]
  push Not
  simp only [ne_eq, Bool.not_eq_false]

theorem nextAgenda_ne_none {s : AgendaTables} {now : Instant} :
    s.nextAgenda now ≠ none ↔ ∃ row ∈ s.agendaRuntime, row.claimable now = true := by
  rw [AgendaTables.nextAgenda, ne_eq, Table.selectMin_eq_none]
  push Not
  simp only [ne_eq, Bool.not_eq_false]

theorem nextExpiredDispatch_ne_none {s : EffectTables} {now : Instant} :
    s.nextExpiredDispatch now ≠ none ↔ ∃ row ∈ s.outbox, row.state = .dispatching ∧
      ∃ t, row.leaseUntil = some t ∧ t < now := by
  rw [EffectTables.nextExpiredDispatch, ne_eq, Table.selectMin_eq_none]
  push Not
  simp only [ne_eq, Bool.not_eq_false, Bool.and_eq_true, decide_eq_true_eq, Option.any_eq_true]

/-- A row that may be claimed for dispatch was abandoned or is on the list. -/
theorem stranded_or_listed_of_eligible {s : RuntimeStore ε} {now : Instant} {row : OutboxRow}
    (hrow : row ∈ s.effects.outbox)
    (h : row.eligible now [.pending, .retry, .claimed] false = true) :
    Stranded s now ∨ Listed s now := by
  by_cases hclaimed : row.state = .claimed
  · refine .inl (.claimed hrow ?_)
    simp only [OutboxRow.eligible, Bool.and_eq_true, decide_eq_true_eq] at h ⊢
    exact ⟨⟨⟨⟨by simp [hclaimed], h.1.1.1.2⟩, h.1.1.2⟩, h.1.2⟩, h.2⟩
  · refine .inr (.due hrow ?_)
    simp only [OutboxRow.eligible, Bool.and_eq_true, decide_eq_true_eq, List.mem_cons,
      List.not_mem_nil, or_false, hclaimed] at h
    simp only [OutboxRow.isDue, Bool.and_eq_true, decide_eq_true_eq]
    exact ⟨h.1.1.1.1, h.1.1.1.2⟩

/-- A row that may be claimed for reconciliation is on the list. -/
theorem isUnreconciled_of_eligible {now : Instant} {row : OutboxRow}
    (h : row.eligible now [.ambiguous, .ambiguousClaimed] true = true) :
    row.isUnreconciled now = true := by
  simp only [OutboxRow.eligible, Bool.and_eq_true, decide_eq_true_eq, List.mem_cons,
    List.not_mem_nil, or_false, Bool.not_true, Bool.false_or] at h
  simp only [OutboxRow.isUnreconciled, Bool.and_eq_true, decide_eq_true_eq]
  exact ⟨⟨⟨h.1.1.1.1, h.1.1.1.2⟩, h.1.1.2⟩, h.2⟩

/-- What is eligible was abandoned or is on the list. -/
theorem EligibleWork.stranded_or_listed {s : RuntimeStore ε} {now : Instant}
    (h : EligibleWork s now) : Stranded s now ∨ Listed s now := by
  cases h with
  | trigger h =>
    obtain ⟨type, row, hrow, hclaimable⟩ := claimTrigger_ne_none.mp h
    by_cases hpending : row.state = .pending
    · exact .inr (.trigger hrow hpending)
    · refine .inl (.trigger hrow ?_ hclaimable)
      simp only [TriggerRow.claimable, hpending, decide_false, Bool.false_or, Bool.and_eq_true,
        decide_eq_true_eq] at hclaimable
      exact hclaimable.2.1
  | agenda h =>
    obtain ⟨row, hrow, hclaimable⟩ := nextAgenda_ne_none.mp h
    exact .inl (.agenda hrow hclaimable)
  | outbox h =>
    obtain ⟨row, hrow, heligible⟩ := claimOutboxState_ne_none.mp h
    exact stranded_or_listed_of_eligible hrow heligible
  | ambiguous h =>
    obtain ⟨row, hrow, heligible⟩ := claimOutboxState_ne_none.mp h
    exact .inr (.unreconciled hrow (isUnreconciled_of_eligible heligible))
  | dispatching h =>
    obtain ⟨row, hrow, hstate, hlease⟩ := nextExpiredDispatch_ne_none.mp h
    exact .inl (.dispatching hrow hstate hlease)

/-- What was abandoned is eligible. -/
theorem Stranded.eligibleWork {s : RuntimeStore ε} {now : Instant} (h : Stranded s now) :
    EligibleWork s now := by
  cases h with
  | @trigger type row hrow _ hclaimable =>
    exact .trigger (show s.agenda.claimTrigger row.triggerId now now ≠ none from
      claimTrigger_ne_none.mpr ⟨type, row, hrow, hclaimable⟩)
  | @agenda row hrow hclaimable => exact .agenda (nextAgenda_ne_none.mpr ⟨row, hrow, hclaimable⟩)
  | @claimed row hrow heligible =>
    refine .outbox (show s.effects.claimOutbox row.outboxId now now ≠ none from
      claimOutboxState_ne_none.mpr ⟨row, hrow, ?_⟩)
    simp only [OutboxRow.eligible, Bool.and_eq_true, decide_eq_true_eq,
      List.mem_singleton] at heligible ⊢
    exact ⟨⟨⟨⟨by simp [heligible.1.1.1.1], heligible.1.1.1.2⟩, heligible.1.1.2⟩, heligible.1.2⟩,
      heligible.2⟩
  | @dispatching row hrow hstate hlease =>
    exact .dispatching (nextExpiredDispatch_ne_none.mpr ⟨row, hrow, hstate, hlease⟩)

/-- **Discovery of work.** In every state of a database the worker loop visits a
    namespace that has eligible work if and only if abandoned rows there, if
    there are any, have a listed one beside them. -/
theorem eligibleWork_listed_iff (db : StableId → RuntimeState ε) (ns : StableId) (now : Instant) :
    (EligibleWork (db ns).store now → ns ∈ pendingNamespaces db now) ↔
      (Stranded (db ns).store now → Listed (db ns).store now) := by
  have hlisted : ns ∈ pendingNamespaces db now ↔ Listed (db ns).store now := isPending_iff
  rw [hlisted]
  constructor
  · exact fun h hstranded => h hstranded.eligibleWork
  · intro h hwork
    rcases hwork.stranded_or_listed with hstranded | hlisted
    · exact h hstranded
    · exact hlisted

/-- A worker that stops after it claimed the only trigger of a colleague: the
    lease expires, and no later visit takes the trigger up again. -/
theorem eligibleWork_not_listed :
    ∃ db : StableId → RuntimeState AuthorityRecords,
      (database sqliteRuntimeStore).Reachable db ∧
      EligibleWork (db sampleColleague).store 200 ∧
      sampleColleague ∉ pendingNamespaces db 200 := by
  obtain ⟨db, hdb, hrun⟩ := exists_database_of_runsTo sqliteRuntimeStore .empty
    ((sampleMaterialization (sampleEvent (stableId "event-1") (stableId "message") 5)
      (stableId "trigger-1") (stableId "wake-1") (stableId "agenda-1")).take 2)
    sampleColleague
    (fun s => (s.store.agenda.claimTrigger sampleWorker.principalId 200 300).isSome &&
      !s.store.isPending 200) (by decide)
  simp only [Bool.and_eq_true, Bool.not_eq_true'] at hrun
  refine ⟨db, hdb, .trigger (Option.isSome_iff_ne_none.mp hrun.1), fun hlisted => ?_⟩
  exact Bool.false_ne_true (hrun.2.symm.trans hlisted)

end DigitalColleagues
