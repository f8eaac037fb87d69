import DigitalColleagues.Runtime.BoundedDispatch
import DigitalColleagues.Runtime.Fencing

/-!
# Bounded reconciliation

The number of times that a reconciliation left the outcome of an attempt unknown
is kept in the outbox row of the attempt, in the text of the last outcome. One
lemma says what a step can do to a row; from it, the count in the row is the
number of such results in the run, the wait doubles with each of them, and a row
whose budget is used up stays as it is.
-/

namespace DigitalColleagues

open Keyed

namespace OutboxRow

/-- The reconciliations of a row have used up their budget. -/
def stopped (r : OutboxRow) : Bool :=
  match r.lastOutcome with
  | some (.stillUnknownStopped _) => true
  | _ => false

/-- A row under reconciliation has budget left. -/
def Budgeted (r : OutboxRow) : Prop := r.state = .ambiguousClaimed → r.stopped = false

theorem eligible_iff {now : Instant} {sourceStates : List OutboxState} {excludeStopped : Bool}
    {r : OutboxRow} :
    r.eligible now sourceStates excludeStopped = true ↔
      r.state ∈ sourceStates ∧ r.nextAttemptAt ≤ now ∧ (∀ t ∈ r.leaseUntil, t < now) ∧
        r.attemptNumber ≤ r.maximumAttempts ∧ (excludeStopped = true → r.stopped = false) := by
  have hlease : (r.leaseUntil.all fun t => decide (t < now)) = true ↔
      ∀ t ∈ r.leaseUntil, t < now := by
    cases r.leaseUntil <;> simp
  have hstopped : r.eligible now sourceStates true = true ↔
      r.eligible now sourceStates false = true ∧ r.stopped = false := by
    simp only [eligible, stopped, Bool.and_eq_true]
    cases r.lastOutcome with
    | none => simp
    | some outcome => cases outcome <;> simp
  have hopen : r.eligible now sourceStates false = true ↔
      r.state ∈ sourceStates ∧ r.nextAttemptAt ≤ now ∧ (∀ t ∈ r.leaseUntil, t < now) ∧
        r.attemptNumber ≤ r.maximumAttempts := by
    simp only [eligible, Bool.and_eq_true, decide_eq_true_eq, hlease, and_assoc, Bool.not_false,
      Bool.true_or, and_true]
  cases excludeStopped with
  | false => simp [hopen]
  | true => simp [hstopped, hopen, and_assoc]

end OutboxRow

/-- The claim under which an action records that an outcome is still unknown. -/
def RuntimeAction.unknownClaim {ε : Type} : RuntimeAction ε → Option OutboxClaim
  | .effect (.reconcileAmbiguous claim outcome _ _) =>
    if outcome.kind = .stillUnknown then some claim else none
  | _ => none

/-- The attempt about which an action records that its outcome is still unknown. -/
def RuntimeAction.unknownAttempt {ε : Type} (a : RuntimeAction ε) : Option StableId :=
  a.unknownClaim.map OutboxClaim.effectAttemptId

/-- How often a run recorded that the outcome of an attempt is still unknown. -/
def unknowns {ε : Type} (id : StableId)
    (tr : List (Transition (RuntimeState ε) (RuntimeAction ε))) : ℕ :=
  tr.countP fun e => decide (e.action.unknownAttempt = some id)

/-- `min(maximum_attempts, _RECONCILIATION_MAX_CALLS)`. -/
def reconciliationBudget (maximumAttempts : ℕ) : ℕ := min maximumAttempts reconciliationMaxCalls

-- ════════════════════════════════════════════════════════════════════════
-- What a step does to a row
-- ════════════════════════════════════════════════════════════════════════

namespace EffectTables

/-- The attempt of a row after an outcome is the one before, or a new retry. -/
def Continued (s : EffectTables) (row : OutboxRow) (current : EffectAttempt) (state : OutboxState)
    (settled : OutboxState) (retryable : Prop) : Prop :=
  (current.effectAttemptId = row.effectAttemptId ∧ state = settled) ∨
    (s.attempts.find? current.effectAttemptId = none ∧ state = .retry ∧ retryable)

/-- Everything that one step can do to one outbox row. -/
inductive RowStep {ε : Type} (s : EffectTables) (row : OutboxRow) :
    RuntimeAction ε → OutboxRow → Prop
  | kept {a : RuntimeAction ε} : a.unknownAttempt ≠ some row.effectAttemptId → RowStep s row a row
  | claimed {a : RuntimeAction ε} (owner : StableId) (leaseUntil : Instant) :
      a.unknownAttempt = none → row.state.attemptState = .planned →
      RowStep s row a (row.claim .claimed owner leaseUntil)
  | claimedAmbiguous {a : RuntimeAction ε} (owner : StableId) (leaseUntil : Instant) :
      a.unknownAttempt = none → row.state.attemptState = .ambiguous → row.stopped = false →
      RowStep s row a (row.claim .ambiguousClaimed owner leaseUntil)
  | started {a : RuntimeAction ε} : a.unknownAttempt = none → row.state = .claimed →
      RowStep s row a row.startDispatch
  | dispatched {a : RuntimeAction ε} {kind : ChannelOutcomeKind} {state : OutboxState}
      {current : EffectAttempt} (occurredAt : Instant) (actorPrincipalId : StableId) :
      a.unknownAttempt = none → row.state = .dispatching →
      s.Continued row current state (resultStates kind).2.2
        (kind = .knownNotExecuted ∨ kind = .retryableFailure) →
      RowStep s row a { row.settle state current occurredAt (.channel kind) with
        actorPrincipalId := actorPrincipalId }
  | leftUnknown {row' : OutboxRow} {claim : OutboxClaim} {outcome : ReconciliationOutcome}
      {fin : Finalization} {nextReconciliationAt : Option Instant} :
      row.state = .ambiguousClaimed → claim.outboxId = row.outboxId → claim.binds row →
      outcome.kind = .stillUnknown →
      stillUnknown row fin.occurredAt nextReconciliationAt = .ok row' →
      RowStep s row (.effect (.reconcileAmbiguous claim outcome fin nextReconciliationAt)) row'
  | reconciled {claim : OutboxClaim} {outcome : ReconciliationOutcome} {fin : Finalization}
      {nextReconciliationAt : Option Instant} {state : OutboxState} {current : EffectAttempt} :
      row.state = .ambiguousClaimed → claim.outboxId = row.outboxId → claim.binds row →
      outcome.kind ≠ .stillUnknown →
      s.Continued row current state (reconciledStates outcome.kind).2.2
        (outcome.kind = .confirmedAbsent) →
      RowStep s row (.effect (.reconcileAmbiguous claim outcome fin nextReconciliationAt))
        (row.settle state current fin.occurredAt (.reconciled outcome.kind))

/-- A row that an approval has just queued. -/
structure NewRow (s : EffectTables) (row : OutboxRow) : Prop where
  state : row.state = .pending
  lease : row.leaseOwner = none ∧ row.leaseUntil = none
  lastOutcome : row.lastOutcome = none
  attempt : s.attempts.find? row.effectAttemptId = none

variable {s t : EffectTables} {ε : Type} {a : RuntimeAction ε}

/-- No two rows have one attempt. -/
theorem Tracked.eq_of_effectAttemptId (h : s.Tracked) {r r' : OutboxRow} (hr : r ∈ s.outbox)
    (hr' : r' ∈ s.outbox) (hid : r.effectAttemptId = r'.effectAttemptId) : r = r' := by
  obtain ⟨a, ha, happroval, _⟩ := (h.row r hr).current
  obtain ⟨a', ha', happroval', _⟩ := (h.row r' hr').current
  rw [hid] at ha
  obtain rfl := Option.some.inj (ha.symm.trans ha')
  exact h.unique r hr r' hr' (.inl (happroval.symm.trans happroval'))

/-- A step that replaces one row is a step of every row. -/
theorem rowStep_of_replace (hs : s.Tracked) {row new : OutboxRow}
    {id : StableId} {row' : OutboxRow} (hrow' : (s.outbox.replace new).find? id = some row')
    (hrow : s.outbox.find? row.outboxId = some row) (hid : new.outboxId = row.outboxId)
    (hstep : s.RowStep row a new)
    (hunknown : a.unknownAttempt = none ∨ a.unknownAttempt = some row.effectAttemptId) :
    ∃ old, s.outbox.find? id = some old ∧ s.RowStep old a row' := by
  by_cases hk : id = row.outboxId
  · subst hk
    have hself : (s.outbox.replace new).find? new.outboxId = some new :=
      Table.find?_replace_self (r := new) (hid ▸ hrow)
    rw [hid] at hself
    obtain rfl := Option.some.inj (hself.symm.trans hrow')
    exact ⟨row, hrow, hstep⟩
  · have hother : s.outbox.find? id = some row' :=
      (Table.find?_replace_of_ne (r := new) fun h => hk (h.trans hid)).symm.trans hrow'
    refine ⟨row', hother, .kept fun hsame => hk ?_⟩
    rcases hunknown with hnone | hsome
    · exact absurd (hnone.symm.trans hsame) (by simp)
    · have hattempt := Option.some.inj (hsome.symm.trans hsame)
      have heq := hs.eq_of_effectAttemptId (Table.mem_of_find? hrow) (Table.mem_of_find? hother)
        hattempt
      exact (Table.key_of_find? hother).symm.trans (congrArg OutboxRow.outboxId heq.symm)

/-- A retry inserted after its predecessor was settled has a new identity. -/
theorem not_found_of_retry {settled' retry : EffectAttempt} {n : ℕ}
    {settled attempts : Records EffectAttempt}
    (hupdate : s.attempts.updateRecord settled' n = .ok settled)
    (hinsert : settled.insertRecord retry = .ok attempts) :
    s.attempts.find? retry.effectAttemptId = none := by
  have hnone : settled.find? retry.effectAttemptId = none := Records.find?_of_insertRecord hinsert
  rw [Records.find?_updateRecord hupdate] at hnone
  split at hnone
  · exact absurd hnone (by simp)
  · exact hnone

theorem rowStep_of_claim (hs : s.Tracked) {owner : StableId} {now leaseUntil : Instant}
    {sourceStates : List OutboxState} {targetState : OutboxState} {excludeStopped : Bool}
    {claim : OutboxClaim}
    (h : s.claimOutboxState owner now leaseUntil sourceStates targetState excludeStopped =
      some (claim, t))
    (hnone : a.unknownAttempt = none)
    (hstep : ∀ row : OutboxRow, row.state ∈ sourceStates →
      (excludeStopped = true → row.stopped = false) →
      s.RowStep row a (row.claim targetState owner leaseUntil))
    {id : StableId} {row' : OutboxRow} (hrow' : t.outbox.find? id = some row') :
    ∃ row, s.outbox.find? id = some row ∧ s.RowStep row a row' := by
  obtain ⟨row, hnext, _, rfl⟩ := nextEffect_of_claim h
  obtain ⟨hstate, _, _, _, hstopped⟩ := OutboxRow.eligible_iff.mp hnext.eligible
  exact rowStep_of_replace hs hrow' (Table.find?_of_mem hnext.mem) rfl (hstep row hstate hstopped)
    (.inl hnone)

theorem rowStep_of_finalizeDispatch (hs : s.Tracked) {claim : OutboxClaim}
    {outcome : ChannelOutcome} {fin : Finalization} {result : ActionResult}
    (h : s.finalizeDispatch claim outcome fin = .ok (result, t)) (hnone : a.unknownAttempt = none)
    {id : StableId} {row' : OutboxRow} (hrow' : t.outbox.find? id = some row') :
    ∃ row, s.outbox.find? id = some row ∧ s.RowStep row a row' := by
  obtain ⟨row, attempt, settled, results, next, attempts, hrow, hattempt, _, hupdate, _, _, hretry,
    rfl⟩ := finalizeDispatch_eq_ok h
  obtain ⟨hfind, _, hstate, hbinds⟩ := requireOutboxClaim_eq_ok hrow
  have hcurrent : row.effectAttemptId = claim.effectAttemptId := hbinds.2.2.2.2.2.1
  have hid : attempt.effectAttemptId = row.effectAttemptId :=
    (effectAttemptId_of_find? hattempt).trans hcurrent.symm
  refine rowStep_of_replace hs hrow' hfind rfl
    (.dispatched _ _ hnone (by simpa using hstate) ?_) (.inl hnone)
  rcases createRetry_eq_ok hretry with ⟨rfl, _⟩ | ⟨_, retry, _, _, rfl, hretryable, _, hinsert⟩
  · exact .inl ⟨hid, rfl⟩
  · exact .inr ⟨not_found_of_retry hupdate hinsert, rfl, hretryable⟩

theorem rowStep_of_reconcileAmbiguous (hs : s.Tracked) {claim : OutboxClaim}
    {outcome : ReconciliationOutcome} {fin : Finalization}
    {nextReconciliationAt : Option Instant} {result : Option ActionResult}
    (h : s.reconcileAmbiguous claim outcome fin nextReconciliationAt = .ok (result, t))
    {id : StableId} {row' : OutboxRow} (hrow' : t.outbox.find? id = some row') :
    ∃ row, s.outbox.find? id = some row ∧ s.RowStep (ε := ε) row
      (.effect (.reconcileAmbiguous claim outcome fin nextReconciliationAt)) row' := by
  obtain ⟨row, attempt, hrow, hattempt, _, hcase⟩ := reconcileAmbiguous_eq_ok h
  obtain ⟨hfind, houtbox, hstate, hbinds⟩ := requireOutboxClaim_eq_ok hrow
  have hcurrent : row.effectAttemptId = claim.effectAttemptId := hbinds.2.2.2.2.2.1
  have hclaimed : row.state = .ambiguousClaimed := by simpa using hstate
  rcases hcase with ⟨unknown, hkind, hunknown, rfl⟩ |
    ⟨hkind, settled, _, results, next, attempts, hupdate, _, _, hnext, rfl⟩
  · have hkeeps : unknown.outboxId = row.outboxId := by
      obtain ⟨_, _, rfl⟩ := stillUnknown_eq_ok hunknown
      rfl
    refine rowStep_of_replace hs hrow' hfind hkeeps
      (.leftUnknown hclaimed houtbox.symm hbinds hkind hunknown) (.inr ?_)
    simp only [RuntimeAction.unknownAttempt, RuntimeAction.unknownClaim, if_pos hkind,
      Option.map_some, hcurrent]
  · have hid : attempt.effectAttemptId = row.effectAttemptId :=
      (effectAttemptId_of_find? hattempt).trans hcurrent.symm
    refine rowStep_of_replace hs hrow' hfind rfl
      (.reconciled hclaimed houtbox.symm hbinds hkind ?_) (.inl ?_)
    · rcases hnext with ⟨rfl, _⟩ | ⟨_, retry, _, _, rfl, habsent, _, hinsert⟩
      · exact .inl ⟨hid, rfl⟩
      · exact .inr ⟨not_found_of_retry hupdate hinsert, rfl, habsent⟩
    · simp only [RuntimeAction.unknownAttempt, RuntimeAction.unknownClaim, if_neg hkind,
        Option.map_none]

end EffectTables

/-- A step on the effect tables is a step of every row that is there afterwards. -/
theorem EffectSide.rowStep_of_exec {ε : Type} {s t : EffectSide} {a : EffectAction}
    (hs : s.tables.Tracked) (h : s.exec a = .ok t) {id : StableId} {row' : OutboxRow}
    (hrow' : t.tables.outbox.find? id = some row') :
    ∃ row, s.tables.outbox.find? id = some row ∧
      s.tables.RowStep (ε := ε) row (.effect a) row' := by
  cases a with
  | claimOutbox owner now leaseUntil =>
    simp only [exec] at h
    split at h
    · obtain rfl := Except.ok.inj h
      exact ⟨row', hrow', .kept (by simp [RuntimeAction.unknownAttempt, RuntimeAction.unknownClaim])⟩
    · rename_i hclaim
      obtain rfl := Except.ok.inj h
      refine EffectTables.rowStep_of_claim hs hclaim rfl (fun row hstate _ => ?_) hrow'
      refine .claimed owner leaseUntil rfl ?_
      rcases List.mem_cons.mp hstate with hstate | hstate
      · simp [hstate, OutboxState.attemptState]
      · rcases List.mem_pair.mp hstate with hstate | hstate <;>
          simp [hstate, OutboxState.attemptState]
  | claimAmbiguous owner now leaseUntil =>
    simp only [exec] at h
    split at h
    · obtain rfl := Except.ok.inj h
      exact ⟨row', hrow', .kept (by simp [RuntimeAction.unknownAttempt, RuntimeAction.unknownClaim])⟩
    · rename_i hclaim
      obtain rfl := Except.ok.inj h
      refine EffectTables.rowStep_of_claim hs hclaim rfl (fun row hstate hstopped => ?_) hrow'
      refine .claimedAmbiguous owner leaseUntil rfl ?_ (hstopped rfl)
      rcases List.mem_pair.mp hstate with hstate | hstate <;>
        simp [hstate, OutboxState.attemptState]
  | markDispatchStarted claim occurredAt =>
    simp only [exec, bind_eq_ok, pure_eq_ok, Prod.exists] at h
    obtain ⟨_, _, _, _, hstart, rfl⟩ := h
    obtain ⟨row, _, _, hrow, _, _, _, _, rfl⟩ := EffectTables.markDispatchStarted_eq_ok hstart
    obtain ⟨hfind, _, hstate, _⟩ := EffectTables.requireOutboxClaim_eq_ok hrow
    exact EffectTables.rowStep_of_replace hs hrow' hfind rfl
      (.started rfl (by simpa using hstate)) (.inl rfl)
  | channelApply attempt =>
    simp only [exec, bind_eq_ok, pure_eq_ok] at h
    obtain ⟨_, _, rfl⟩ := h
    exact ⟨row', hrow', .kept (by simp [RuntimeAction.unknownAttempt, RuntimeAction.unknownClaim])⟩
  | finalizeDispatch claim outcome fin =>
    simp only [exec, bind_eq_ok, pure_eq_ok, Prod.exists] at h
    obtain ⟨_, _, _, _, hfinalize, rfl⟩ := h
    exact EffectTables.rowStep_of_finalizeDispatch hs hfinalize rfl hrow'
  | recoverExpiredDispatches now resultActor resultId resultDigest =>
    simp only [exec, bind_eq_ok, pure_eq_ok, Prod.exists] at h
    obtain ⟨_, _, hrecover, rfl⟩ := h
    rcases EffectTables.recoverExpiredDispatches_eq_ok hrecover with hsame |
      ⟨claim, outcome, fin, result, _, _, hfinalize⟩
    · rw [hsame] at hrow'
      exact ⟨row', hrow', .kept (by simp [RuntimeAction.unknownAttempt, RuntimeAction.unknownClaim])⟩
    · exact EffectTables.rowStep_of_finalizeDispatch hs hfinalize rfl hrow'
  | reconcileAmbiguous claim outcome fin nextReconciliationAt =>
    simp only [exec, bind_eq_ok, pure_eq_ok, Prod.exists] at h
    obtain ⟨_, _, _, _, hreconcile, rfl⟩ := h
    exact EffectTables.rowStep_of_reconcileAmbiguous hs hreconcile hrow'

/-- A row after a step of a run is the one before, moved by the step, or is new. -/
theorem RuntimeState.rowStep_of_exec {ε : Type} {hooks : StoreHooks ε} {s t : RuntimeState ε}
    {a : RuntimeAction ε} (hs : s.effects.tables.Tracked) (h : s.exec hooks a = .ok t)
    {id : StableId} {row' : OutboxRow} (hrow' : t.effects.tables.outbox.find? id = some row') :
    (∃ row, s.effects.tables.outbox.find? id = some row ∧
      s.effects.tables.RowStep row a row') ∨
    s.effects.tables.outbox.find? id = none ∧ s.effects.tables.NewRow row' := by
  have hkept : t.effects.tables.outbox = s.effects.tables.outbox → a.unknownAttempt = none →
      ∃ row, s.effects.tables.outbox.find? id = some row ∧
        s.effects.tables.RowStep row a row' := fun hsame hnone =>
    ⟨row', hsame ▸ hrow', .kept (by simp [hnone])⟩
  cases a with
  | effect action =>
    simp only [exec, bind_eq_ok, pure_eq_ok] at h
    obtain ⟨_, heffects, rfl⟩ := h
    exact .inl (EffectSide.rowStep_of_exec hs heffects hrow')
  | agenda action =>
    simp only [exec, bind_eq_ok, pure_eq_ok] at h
    obtain ⟨_, _, rfl⟩ := h
    exact .inl (hkept rfl rfl)
  | commitSemanticDecision claim semantic =>
    simp only [exec, bind_eq_ok, pure_eq_ok] at h
    obtain ⟨_, _, store, hstore, rfl⟩ := h
    obtain ⟨_, _, _, _, _, _, _, _, _, _, _, _, rfl⟩ :=
      RuntimeStore.commitSemanticDecision_eq_ok hooks hstore
    exact .inl (hkept rfl rfl)
  | commitApprovalAndAttempt cmd =>
    simp only [exec, RuntimeStore.commitApprovalAndAttempt, bind_eq_ok, pure_eq_ok,
      Prod.exists, Prod.mk.injEq] at h
    obtain ⟨_, _, ⟨_, _, effects, hcommit, _, rfl⟩, rfl⟩ := h
    rcases EffectTables.commitApprovalAndAttempt_eq_ok hcommit with ⟨_, _, hsame⟩ |
      ⟨_, _, decided, _, _, _, hdecided, hchoice⟩
    · exact .inl (hkept (congrArg EffectTables.outbox hsame) rfl)
    · obtain ⟨_, _, _, _, _, _, rfl⟩ := EffectTables.insertDecision_eq_ok hdecided
      rcases hchoice with ⟨_, rfl⟩ | ⟨_, henqueue⟩
      · exact .inl (hkept rfl rfl)
      · obtain ⟨_, _, _, hattempts, hinsert, rfl⟩ := EffectTables.enqueueAttempt_eq_ok henqueue
        by_cases hid : id = cmd.outboxId
        · have hself := (Table.find?_insert hinsert id).trans (if_pos hid)
          obtain rfl := Option.some.inj (hself.symm.trans hrow')
          refine .inr ⟨?_, rfl, ⟨rfl, rfl⟩, rfl, Records.find?_of_insertRecord hattempts⟩
          exact hid ▸ (Table.insert?_eq_some.mp hinsert).1
        · have hold := (Table.find?_insert hinsert id).trans (if_neg hid)
          exact .inl ⟨row', hold.symm.trans hrow', .kept (by simp [RuntimeAction.unknownAttempt, RuntimeAction.unknownClaim])⟩
  | loadDispatchBundle claim mandateId =>
    simp only [exec, bind_eq_ok, pure_eq_ok] at h
    obtain ⟨_, _, _, _, rfl⟩ := h
    exact .inl (hkept rfl rfl)
  | environment rest =>
    obtain rfl := Except.ok.inj h
    exact .inl (hkept rfl rfl)

-- ════════════════════════════════════════════════════════════════════════
-- The count in the row
-- ════════════════════════════════════════════════════════════════════════

/-- The row of an attempt whose outcome was left unknown `n` times. -/
structure OutboxRow.Tallies (r : OutboxRow) (n : ℕ) : Prop where
  unused : r.state.attemptState = .planned ∨ r.state.attemptState = .started → n = 0
  counted : r.state.attemptState = .ambiguous → reconciliationCount r.lastOutcome = n
  stopped : r.state.attemptState = .ambiguous →
    (r.stopped = true ↔ reconciliationBudget r.maximumAttempts ≤ n)
  budgeted : r.Budgeted
  bounded : n ≤ reconciliationBudget r.maximumAttempts

namespace OutboxRow

variable {r : OutboxRow} {n : ℕ}

theorem tallies_of_unused (hstate : r.state.attemptState = .planned ∨
    r.state.attemptState = .started) : r.Tallies 0 where
  unused _ := rfl
  counted h := by rcases hstate with hstate | hstate <;> simp [hstate] at h
  stopped h := by rcases hstate with hstate | hstate <;> simp [hstate] at h
  budgeted h := by rcases hstate with hstate | hstate <;> simp [h, OutboxState.attemptState] at hstate
  bounded := Nat.zero_le _

/-- An attempt that has an outcome keeps its number. -/
theorem tallies_of_closed (hstate : r.state.attemptState = .succeeded ∨
    r.state.attemptState = .failed) (hn : n ≤ reconciliationBudget r.maximumAttempts) :
    r.Tallies n where
  unused h := by rcases hstate with hstate | hstate <;> simp [hstate] at h
  counted h := by rcases hstate with hstate | hstate <;> simp [hstate] at h
  stopped h := by rcases hstate with hstate | hstate <;> simp [hstate] at h
  budgeted h := by rcases hstate with hstate | hstate <;> simp [h, OutboxState.attemptState] at hstate
  bounded := hn

end OutboxRow

theorem reconciliationBudget_pos {maximumAttempts : ℕ} (h : 0 < maximumAttempts) :
    0 < reconciliationBudget maximumAttempts := by
  unfold reconciliationBudget reconciliationMaxCalls
  omega

/-- The row that a result of unknown outcome leaves. -/
theorem stillUnknown_spec {row row' : OutboxRow} {occurredAt : Instant}
    {nextReconciliationAt : Option Instant}
    (h : stillUnknown row occurredAt nextReconciliationAt = .ok row') :
    let count := reconciliationCount row.lastOutcome + 1
    let base := (nextReconciliationAt.map (· - occurredAt)).getD 0
    (0 ≤ base ∧ base ≤ reconciliationMaxBackoff) ∧
    row' = row.keepAmbiguous (occurredAt + min (base * 2 ^ (count - 1)) reconciliationMaxBackoff)
      (if reconciliationBudget row.maximumAttempts ≤ count then .stillUnknownStopped count
        else .stillUnknownWait count) := by
  simp only [stillUnknown, bind_eq_ok, require_eq_ok, pure_eq_ok, exists_const] at h
  exact ⟨h.1, h.2.symm⟩

namespace EffectTables

variable {s : EffectTables} {ε : Type} {a : RuntimeAction ε} {row row' : OutboxRow}

/-- One step takes the number of the row's attempt along. -/
theorem RowStep.tallies {n : ℕ} (h : s.RowStep row a row') (hrow : row.Tallies n)
    (hmax : 0 < row.maximumAttempts) :
    row'.effectAttemptId = row.effectAttemptId ∧
      row'.Tallies (n + if a.unknownAttempt = some row.effectAttemptId then 1 else 0) ∨
    s.attempts.find? row'.effectAttemptId = none ∧ row'.Tallies 0 := by
  cases h with
  | kept hkept => exact .inl ⟨rfl, by simpa [hkept] using hrow⟩
  | claimed owner leaseUntil hnone hstate =>
    have hzero : n = 0 := hrow.unused (.inl hstate)
    subst hzero
    exact .inl ⟨rfl, by simpa [hnone] using OutboxRow.tallies_of_unused (.inl rfl)⟩
  | claimedAmbiguous owner leaseUntil hnone hstate hopen =>
    refine .inl ⟨rfl, ?_⟩
    simp only [hnone, reduceCtorEq, if_false, Nat.add_zero]
    exact ⟨fun h => by simp [OutboxRow.claim, OutboxState.attemptState] at h,
      fun _ => hrow.counted hstate, fun _ => hrow.stopped hstate, fun _ => hopen, hrow.bounded⟩
  | started hnone hstate =>
    have hzero : n = 0 := hrow.unused (.inl (by rw [hstate]; rfl))
    subst hzero
    exact .inl ⟨rfl, by simpa [hnone] using OutboxRow.tallies_of_unused (.inr rfl)⟩
  | @dispatched _ kind state current occurredAt actorId hnone hstate hcurrent =>
    have hzero : n = 0 := hrow.unused (.inr (by rw [hstate]; rfl))
    subst hzero
    rcases hcurrent with ⟨hid, rfl⟩ | ⟨hnew, rfl, _⟩
    · refine .inl ⟨hid, ?_⟩
      simp only [hnone, reduceCtorEq, if_false, Nat.add_zero]
      by_cases hambiguous : kind = .ambiguous
      · subst hambiguous
        refine ⟨fun _ => rfl, fun _ => rfl, fun _ => ?_, fun h => by simp [OutboxRow.settle, resultStates] at h,
          Nat.zero_le _⟩
        have hpos := reconciliationBudget_pos hmax
        exact iff_of_false (by simp [OutboxRow.stopped, OutboxRow.settle]) (Nat.not_le_of_lt hpos)
      · refine OutboxRow.tallies_of_closed ?_ (Nat.zero_le _)
        cases kind with
        | ambiguous => exact absurd rfl hambiguous
        | succeeded => exact .inl rfl
        | knownNotExecuted => exact .inr rfl
        | retryableFailure => exact .inr rfl
        | permanentFailure => exact .inr rfl
    · exact .inr ⟨hnew, OutboxRow.tallies_of_unused (.inl rfl)⟩
  | @leftUnknown _ claim outcome fin next hstate _ hbinds hkind hunknown =>
    obtain ⟨_, rfl⟩ := stillUnknown_spec hunknown
    have hambiguous : row.state.attemptState = .ambiguous := by rw [hstate]; rfl
    have hcount := hrow.counted hambiguous
    have hcurrent : claim.effectAttemptId = row.effectAttemptId := hbinds.2.2.2.2.2.1.symm
    have hopen : ¬reconciliationBudget row.maximumAttempts ≤ n := by
      rw [← hrow.stopped hambiguous, hrow.budgeted hstate]
      simp
    refine .inl ⟨rfl, ?_⟩
    simp only [RuntimeAction.unknownAttempt, RuntimeAction.unknownClaim, hkind, if_true,
      Option.map_some, hcurrent, hcount]
    refine ⟨fun h => by simp [OutboxRow.keepAmbiguous, OutboxState.attemptState] at h, fun _ => ?_,
      fun _ => ?_, fun h => by simp [OutboxRow.keepAmbiguous] at h, ?_⟩
    · show reconciliationCount (some (if _ then _ else _)) = n + 1
      split <;> rfl
    · show OutboxRow.stopped (row.keepAmbiguous _ _) = true ↔
        reconciliationBudget row.maximumAttempts ≤ n + 1
      split <;> rename_i hbudget <;> simp [OutboxRow.stopped, OutboxRow.keepAmbiguous, hbudget]
    · show n + 1 ≤ reconciliationBudget row.maximumAttempts
      omega
  | @reconciled claim outcome fin next state current hstate _ _ hkind hcurrent =>
    rcases hcurrent with ⟨hid, rfl⟩ | ⟨hnew, rfl, _⟩
    · refine .inl ⟨hid, ?_⟩
      simp only [RuntimeAction.unknownAttempt, RuntimeAction.unknownClaim, if_neg hkind,
        Option.map_none, reduceCtorEq, if_false, Nat.add_zero]
      refine OutboxRow.tallies_of_closed ?_ hrow.bounded
      cases hsort : outcome.kind with
      | stillUnknown => exact absurd hsort hkind
      | confirmedApplied => exact .inl rfl
      | confirmedAbsent => exact .inr rfl
    · exact .inr ⟨hnew, OutboxRow.tallies_of_unused (.inl rfl)⟩

end EffectTables

/-- Every row has the number of its attempt, and no attempt is left unknown more
    often than the proposal's budget allows. -/
structure EffectTables.Tallied {ε : Type} (s : EffectTables)
    (tr : List (Transition (RuntimeState ε) (RuntimeAction ε))) : Prop where
  rows : ∀ r ∈ s.outbox, r.Tallies (unknowns r.effectAttemptId tr)
  missing : ∀ id, s.attempts.find? id = none → unknowns id tr = 0
  bounded : ∀ id a p, s.attempts.find? id = some a → s.proposals.find? a.proposalId = some p →
    unknowns id tr ≤ reconciliationBudget p.constraints.maximumAttempts

namespace EffectTables

variable {s : EffectTables}

theorem Tracked.maximumAttempts_pos (h : s.Tracked) {r : OutboxRow} (hr : r ∈ s.outbox) :
    0 < r.maximumAttempts := by
  have htracks := h.row r hr
  obtain ⟨a, ha, happroval, hnumber, _⟩ := htracks.current
  have hmem : a.attemptNumber ∈ s.attemptNumbers r.approvalDecisionId :=
    Table.mem_collect (Table.mem_of_find? ha) (decide_eq_true happroval)
  rw [htracks.numbered, List.mem_range'_1, hnumber] at hmem
  have := htracks.bounded
  omega

/-- The budget of a row is that of the proposal of its attempt. -/
theorem Tracked.maximumAttempts_eq (h : s.Tracked) {r : OutboxRow} (hr : r ∈ s.outbox)
    {a : EffectAttempt} {p : EffectProposal} (ha : s.attempts.find? r.effectAttemptId = some a)
    (hp : s.proposals.find? a.proposalId = some p) :
    r.maximumAttempts = p.constraints.maximumAttempts := by
  obtain ⟨c, hc, happroval, _⟩ := (h.row r hr).current
  obtain rfl := Option.some.inj (ha.symm.trans hc)
  obtain ⟨r', hr', happroval', hproposal⟩ := h.owned a (Table.mem_of_find? ha)
  obtain rfl := h.unique r hr r' hr' (.inl (happroval.symm.trans happroval'.symm))
  obtain ⟨p', hp', hmax, _⟩ := (h.row r hr).proposal
  rw [hproposal, hp] at hp'
  obtain rfl := Option.some.inj hp'
  exact hmax

end EffectTables

section Runs

variable {ε : Type} {hooks : StoreHooks ε} {s t : RuntimeState ε} {a : RuntimeAction ε}
  {tr : List (Transition (RuntimeState ε) (RuntimeAction ε))}

theorem unknowns_append (id : StableId) (s t : RuntimeState ε) (a : RuntimeAction ε) :
    unknowns id (tr ++ [⟨s, a, t⟩]) =
      unknowns id tr + if a.unknownAttempt = some id then 1 else 0 := by
  rw [unknowns, List.countP_append, List.countP_singleton]
  simp [unknowns]

theorem unknowns_le_append (id : StableId)
    (tr tr' : List (Transition (RuntimeState ε) (RuntimeAction ε))) :
    unknowns id tr ≤ unknowns id (tr ++ tr') := by
  rw [unknowns, unknowns, List.countP_append]
  exact Nat.le_add_right _ _

theorem unknownClaim_eq_some {claim : OutboxClaim} (h : a.unknownClaim = some claim) :
    ∃ outcome fin next, a = .effect (.reconcileAmbiguous claim outcome fin next) ∧
      outcome.kind = .stillUnknown := by
  unfold RuntimeAction.unknownClaim at h
  split at h
  · rename_i outcome fin next
    split at h
    · rename_i hkind
      obtain rfl := Option.some.inj h
      exact ⟨outcome, fin, next, rfl, hkind⟩
    · exact absurd h (by simp)
  · exact absurd h (by simp)

/-- A step that leaves an outcome unknown backs off the row of its claim. -/
theorem row_of_leftUnknown {claim : OutboxClaim} {outcome : ReconciliationOutcome}
    {fin : Finalization} {next : Option Instant} (hkind : outcome.kind = .stillUnknown)
    (h : s.exec hooks (.effect (.reconcileAmbiguous claim outcome fin next)) = .ok t) :
    ∃ row row', s.effects.tables.outbox.find? claim.outboxId = some row ∧
      t.effects.tables.outbox.find? claim.outboxId = some row' ∧
      row.state = .ambiguousClaimed ∧ row.effectAttemptId = claim.effectAttemptId ∧
      stillUnknown row fin.occurredAt next = .ok row' := by
  simp only [RuntimeState.exec, EffectSide.exec, bind_eq_ok, pure_eq_ok, Prod.exists] at h
  obtain ⟨_, ⟨_, _, _, _, hreconcile, rfl⟩, rfl⟩ := h
  obtain ⟨row, _, hrow, _, _, ⟨unknown, _, hunknown, rfl⟩ | ⟨hknown, _⟩⟩ :=
    EffectTables.reconcileAmbiguous_eq_ok hreconcile
  · obtain ⟨hfind, hid, hstate, hbinds⟩ := EffectTables.requireOutboxClaim_eq_ok hrow
    obtain ⟨_, hsame⟩ := stillUnknown_spec hunknown
    have hkey : unknown.outboxId = row.outboxId := by rw [hsame]; rfl
    refine ⟨row, unknown, hid ▸ hfind, ?_, by simpa using hstate, hbinds.2.2.2.2.2.1, hunknown⟩
    rw [← hid, ← hkey]
    exact Table.find?_replace_self (r := unknown) (hkey ▸ hfind)
  · exact absurd hkind hknown

/-- What a step records as unknown is the current attempt of a row, and stays it. -/
theorem row_of_unknownAttempt {id : StableId} (h : s.exec hooks a = .ok t)
    (ha : a.unknownAttempt = some id) :
    ∃ row ∈ s.effects.tables.outbox, ∃ row' ∈ t.effects.tables.outbox,
      row.effectAttemptId = id ∧ row'.effectAttemptId = id := by
  obtain ⟨claim, hclaim, rfl⟩ := Option.map_eq_some_iff.mp ha
  obtain ⟨outcome, fin, next, rfl, hkind⟩ := unknownClaim_eq_some hclaim
  obtain ⟨row, row', hrow, hrow', _, hid, hunknown⟩ := row_of_leftUnknown hkind h
  refine ⟨row, Table.mem_of_find? hrow, row', Table.mem_of_find? hrow', hid, ?_⟩
  obtain ⟨_, rfl⟩ := stillUnknown_spec hunknown
  exact hid

theorem tallied_step (hs : s.effects.tables.Tracked) (htally : s.effects.tables.Tallied tr)
    (h : s.exec hooks a = .ok t) : t.effects.tables.Tallied (tr ++ [⟨s, a, t⟩]) := by
  have hmove := RuntimeState.effects_move h
  have ht : t.effects.tables.Tracked := EffectTables.tracked_move hs hmove
  have hunknown : ∀ id, s.effects.tables.attempts.find? id = none → a.unknownAttempt ≠ some id := by
    intro id hnone ha
    obtain ⟨row, hrow, _, _, rfl, _⟩ := row_of_unknownAttempt h ha
    obtain ⟨c, hc, _⟩ := (hs.row row hrow).current
    exact absurd (hnone.symm.trans hc) (by simp)
  have hmissing : ∀ id, s.effects.tables.attempts.find? id = none →
      unknowns id (tr ++ [⟨s, a, t⟩]) = 0 := fun id hnone => by
    rw [unknowns_append, htally.missing id hnone, if_neg (hunknown id hnone)]
  have hrows : ∀ r ∈ t.effects.tables.outbox, r.Tallies (unknowns r.effectAttemptId
      (tr ++ [⟨s, a, t⟩])) := by
    intro r' hr'
    rcases RuntimeState.rowStep_of_exec hs h (Table.find?_of_mem hr') with
      ⟨row, hrow, hstep⟩ | ⟨_, hnew⟩
    · have hmem := Table.mem_of_find? hrow
      rcases hstep.tallies (htally.rows row hmem) (hs.maximumAttempts_pos hmem) with
        ⟨hid, hcounts⟩ | ⟨hnone, hcounts⟩
      · rw [hid, unknowns_append]
        exact hcounts
      · rw [hmissing _ hnone]
        exact hcounts
    · rw [hmissing _ hnew.attempt]
      exact OutboxRow.tallies_of_unused (.inl (by rw [hnew.state]; rfl))
  refine ⟨hrows, fun id hnone => ?_, fun id a' p' ha' hp' => ?_⟩
  · refine hmissing id ?_
    cases hfind : s.effects.tables.attempts.find? id with
    | none => rfl
    | some x =>
      obtain ⟨x', hx', _⟩ := EffectTables.attempt_move hmove hfind
      exact absurd (hnone.symm.trans hx') (by simp)
  · cases hfind : s.effects.tables.attempts.find? id with
    | none => simp [hmissing id hfind]
    | some x =>
      obtain ⟨x', hx', hsame, _⟩ := EffectTables.attempt_move hmove hfind
      obtain rfl := Option.some.inj (ha'.symm.trans hx')
      by_cases ha : a.unknownAttempt = some id
      · -- the attempt is current in some row, before and after
        obtain ⟨_, _, row', hmem, _, rfl⟩ := row_of_unknownAttempt h ha
        rw [← ht.maximumAttempts_eq hmem ha' hp']
        exact (hrows row' hmem).bounded
      · obtain ⟨r, hr, _, hproposal⟩ := hs.owned x (Table.mem_of_find? hfind)
        obtain ⟨p, hp, _⟩ := (hs.row r hr).proposal
        rw [hproposal, ← hsame.proposalId] at hp
        obtain rfl := Option.some.inj (hp'.symm.trans (hmove.retains.proposals _ _ hp))
        rw [unknowns_append, if_neg ha]
        exact htally.bounded id x p' hfind (hsame.proposalId ▸ hp)

/-- The counts in the rows are those of the run. -/
theorem tallied_of_path {rest : ε} (h : (runtime hooks).Path (.initial rest) tr s) :
    s.effects.tables.Tallied tr := by
  induction h with
  | refl =>
    exact ⟨fun r hr => absurd hr (Table.not_mem_empty r), fun _ _ => rfl,
      fun _ _ _ _ _ => Nat.zero_le _⟩
  | snoc hpath hstep ih =>
    exact tallied_step (tracked_of_reachable (hpath.reachable (.init ⟨rest, rfl⟩))) ih hstep

/-- A row under reconciliation has budget left in every reachable state. -/
theorem budgeted_of_reachable (h : (runtime hooks).Reachable s) :
    ∀ r ∈ s.effects.tables.outbox, r.Budgeted := by
  obtain ⟨_, tr, ⟨rest, rfl⟩, hpath⟩ := h.exists_path
  exact fun r hr => ((tallied_of_path hpath).rows r hr).budgeted

-- ════════════════════════════════════════════════════════════════════════
-- What follows a result of unknown outcome
-- ════════════════════════════════════════════════════════════════════════

/-- A row goes on as one of its steps. -/
theorem exists_rowStep (hs : s.effects.tables.Tracked) (h : s.exec hooks a = .ok t) {o : StableId}
    {row : OutboxRow} (hrow : s.effects.tables.outbox.find? o = some row) :
    ∃ row', t.effects.tables.outbox.find? o = some row' ∧
      s.effects.tables.RowStep row a row' := by
  obtain ⟨row', hrow', _⟩ := EffectTables.continues_move (RuntimeState.effects_move h) o hrow
  rcases RuntimeState.rowStep_of_exec hs h hrow' with ⟨x, hx, hstep⟩ | ⟨hnone, _⟩
  · obtain rfl := Option.some.inj (hrow.symm.trans hx)
    exact ⟨row', hrow', hstep⟩
  · exact absurd (hnone.symm.trans hrow) (by simp)

/-- A row whose budget is used up stays as it is. -/
theorem stopped_of_path (h : (runtime hooks).Path s tr t) (hs : s.effects.tables.Tracked)
    {o : StableId} {row : OutboxRow} (hrow : s.effects.tables.outbox.find? o = some row)
    (hstate : row.state = .ambiguous) (hstopped : row.stopped = true) :
    t.effects.tables.outbox.find? o = some row := by
  induction h with
  | refl => exact hrow
  | snoc hpath hstep ih =>
    obtain ⟨row', hrow', hmoved⟩ := exists_rowStep (hpath.invariant tracked_preserved hs) hstep ih
    cases hmoved with
    | kept => exact hrow'
    | claimed _ _ _ hplanned => simp [hstate, OutboxState.attemptState] at hplanned
    | claimedAmbiguous _ _ _ _ hopen => simp [hstopped] at hopen
    | started _ hclaimed => simp [hstate] at hclaimed
    | dispatched _ _ _ hdispatching => simp [hstate] at hdispatching
    | leftUnknown hclaimed => simp [hstate] at hclaimed
    | reconciled hclaimed => simp [hstate] at hclaimed

/-- The retry that a step created for a row whose effect it confirmed absent. -/
def absentRetry (o : StableId) (e : Transition (RuntimeState ε) (RuntimeAction ε)) :
    Option StableId :=
  match e.action with
  | .effect (.reconcileAmbiguous claim outcome _ _) =>
    if claim.outboxId = o ∧ outcome.kind = .confirmedAbsent then
      ((e.target.effects.tables.outbox.find? o).map OutboxRow.effectAttemptId).filter fun id =>
        (e.source.effects.tables.attempts.find? id).isNone
    else none
  | _ => none

/-- The row has an attempt that is ambiguous, or has its final outcome. -/
def OutboxRow.Past (row : OutboxRow) (id : StableId) : Prop :=
  row.effectAttemptId = id ∧
    (row.state.attemptState = .ambiguous ∨ row.state = .completed ∨ row.state = .terminalFailed)

theorem past_step {o id : StableId} {row row' : OutboxRow}
    (hstep : s.effects.tables.RowStep row a row') (hpast : row.Past id)
    (hid : row.outboxId = o) (hrow' : t.effects.tables.outbox.find? o = some row') :
    row'.Past id ∨ absentRetry o ⟨s, a, t⟩ = some row'.effectAttemptId := by
  obtain ⟨hattempt, hstate⟩ := hpast
  cases hstep with
  | kept => exact .inl ⟨hattempt, hstate⟩
  | claimed _ _ _ hplanned =>
    rcases hstate with h | h | h
    · exact absurd (h.symm.trans hplanned) (by simp)
    · simp [h, OutboxState.attemptState] at hplanned
    · simp [h, OutboxState.attemptState] at hplanned
  | claimedAmbiguous => exact .inl ⟨hattempt, .inl rfl⟩
  | started _ hclaimed =>
    rcases hstate with h | h | h <;> simp [hclaimed, OutboxState.attemptState] at h
  | dispatched _ _ _ hdispatching =>
    rcases hstate with h | h | h <;> simp [hdispatching, OutboxState.attemptState] at h
  | leftUnknown _ _ _ _ hunknown =>
    obtain ⟨_, rfl⟩ := stillUnknown_spec hunknown
    exact .inl ⟨hattempt, .inl rfl⟩
  | @reconciled claim outcome fin next state current _ hclaim _ hkind hcurrent =>
    rcases hcurrent with ⟨hsame, rfl⟩ | ⟨hnew, rfl, habsent⟩
    · refine .inl ⟨hsame.trans hattempt, .inr ?_⟩
      cases hsort : outcome.kind with
      | stillUnknown => exact absurd hsort hkind
      | confirmedApplied => exact .inl rfl
      | confirmedAbsent => exact .inr rfl
    · refine .inr ?_
      have hretry : (s.effects.tables.attempts.find? current.effectAttemptId).isNone = true := by
        simp [hnew]
      simp only [absentRetry, hclaim.trans hid, habsent, and_self, if_true, hrow', Option.map_some,
        OutboxRow.settle, Option.filter_some, hretry]

/-- A row leaves an ambiguous attempt for another one only by way of a retry after
    the effect was confirmed absent. -/
theorem retried_of_path {o id : StableId} (h : (runtime hooks).Path s tr t)
    (hs : s.effects.tables.Tracked) {row : OutboxRow}
    (hrow : s.effects.tables.outbox.find? o = some row) (hpast : row.Past id) :
    ∃ row', t.effects.tables.outbox.find? o = some row' ∧
      (row'.Past id ∨ ∃ e ∈ tr, absentRetry o e ≠ none) := by
  induction h with
  | refl => exact ⟨row, hrow, .inl hpast⟩
  | @snoc t u a tr hpath hstep ih =>
    obtain ⟨x, hx, hkept⟩ := ih
    obtain ⟨row', hrow', hmoved⟩ := exists_rowStep (hpath.invariant tracked_preserved hs) hstep hx
    refine ⟨row', hrow', ?_⟩
    rcases hkept with hkept | ⟨e, he, hretry⟩
    · rcases past_step hmoved hkept (Table.key_of_find? hx) hrow' with hkept | hretry
      · exact .inl hkept
      · exact .inr ⟨⟨t, a, u⟩, by simp, by simp [hretry]⟩
    · exact .inr ⟨e, List.mem_append_left _ he, hretry⟩

/-- The count that `_reconciliation_count` reads from the row. -/
def RuntimeState.storedCount (s : RuntimeState ε) (o : StableId) : ℕ :=
  parseReconciliationCount ((s.effects.tables.outbox.find? o).bind fun row =>
    row.lastOutcome.map LastOutcome.text)

theorem storedCount_eq {o : StableId} {row : OutboxRow}
    (h : s.effects.tables.outbox.find? o = some row) :
    s.storedCount o = reconciliationCount row.lastOutcome := by
  rw [RuntimeState.storedCount, h]
  exact parseReconciliationCount_text row.lastOutcome

/-- What a result of unknown outcome, the `k`-th about its attempt, leaves in the
    row: the wait is doubled each time, and the last result stops the row. -/
structure BacksOff (k : ℕ) (claim : OutboxClaim) (occurredAt : Instant) (base : ℤ)
    (row : OutboxRow) : Prop where
  attempt : row.effectAttemptId = claim.effectAttemptId
  state : row.state = .ambiguous
  inBudget : k ≤ reconciliationBudget row.maximumAttempts
  nextAttemptAt : row.nextAttemptAt =
    occurredAt + min (base * 2 ^ (k - 1)) reconciliationMaxBackoff
  stopped : row.stopped = true ↔ k = reconciliationBudget row.maximumAttempts

theorem backsOff_of_leftUnknown {rest : ε} (h : (runtime hooks).Path (.initial rest) tr s)
    {claim : OutboxClaim} {outcome : ReconciliationOutcome} {fin : Finalization}
    {next : Option Instant} (hkind : outcome.kind = .stillUnknown)
    (hstep : s.exec hooks (.effect (.reconcileAmbiguous claim outcome fin next)) = .ok t) :
    ∃ row, t.effects.tables.outbox.find? claim.outboxId = some row ∧
      BacksOff (unknowns claim.effectAttemptId tr + 1) claim fin.occurredAt
        ((next.map (· - fin.occurredAt)).getD 0) row ∧
      t.storedCount claim.outboxId = unknowns claim.effectAttemptId tr + 1 := by
  have hs := tracked_of_reachable (h.reachable (.init ⟨rest, rfl⟩))
  have htally := tallied_of_path h
  obtain ⟨row, row', hrow, hrow', hstate, hid, hunknown⟩ := row_of_leftUnknown hkind hstep
  have hambiguous : row.state.attemptState = .ambiguous := by rw [hstate]; rfl
  have hcount := (htally.rows row (Table.mem_of_find? hrow)).counted hambiguous
  have hafter := (tallied_step hs htally hstep).rows row' (Table.mem_of_find? hrow')
  obtain ⟨_, hunknown⟩ := stillUnknown_spec hunknown
  have hid' : row'.effectAttemptId = claim.effectAttemptId := by
    rw [hunknown]
    exact hid
  have hstate' : row'.state = .ambiguous := by
    rw [hunknown]
    rfl
  rw [hid', unknowns_append, if_pos (by
    simp [RuntimeAction.unknownAttempt, RuntimeAction.unknownClaim, hkind])] at hafter
  refine ⟨row', hrow', ⟨hid', hstate', hafter.bounded, ?_, ?_⟩, ?_⟩
  · rw [hunknown, hcount, hid]
    rfl
  · refine (hafter.stopped (by rw [hstate']; rfl)).trans ⟨fun hle => ?_, fun heq => heq.ge⟩
    exact le_antisymm hafter.bounded hle
  · rw [storedCount_eq hrow']
    exact hafter.counted (by rw [hstate']; rfl)

/-- **Bounded reconciliation.** In every run from an empty store: the outcome of an
    attempt is left unknown at most as often as its budget allows; the count in the
    row of an ambiguous attempt is the number of these results so far; the `k`-th of
    them backs off by the base delay doubled `k - 1` times, at most 30 s; after the
    last one the row stays as it is and is not claimed again; and the count starts
    anew only after the effect was confirmed absent and a retry was created. -/
theorem reconciliation_bounded {rest : ε} (h : (runtime hooks).Path (.initial rest) tr s) :
    (∀ id a p, s.effects.tables.attempts.find? id = some a →
      s.effects.tables.proposals.find? a.proposalId = some p →
      unknowns id tr ≤ min p.constraints.maximumAttempts 8) ∧
    (∀ row ∈ s.effects.tables.outbox, row.state = .ambiguous ∨ row.state = .ambiguousClaimed →
      s.storedCount row.outboxId = unknowns row.effectAttemptId tr) ∧
    (∀ before e after claim outcome fin next, tr = before ++ e :: after →
      e.action = .effect (.reconcileAmbiguous claim outcome fin next) →
      outcome.kind = .stillUnknown →
      ∃ row, e.target.effects.tables.outbox.find? claim.outboxId = some row ∧
        BacksOff (unknowns claim.effectAttemptId before + 1) claim fin.occurredAt
          ((next.map (· - fin.occurredAt)).getD 0) row ∧
        (row.stopped = true → s.effects.tables.outbox.find? claim.outboxId = some row ∧
          ∀ owner now leaseUntil issued tables,
            s.effects.tables.claimAmbiguous owner now leaseUntil = some (issued, tables) →
            issued.outboxId ≠ claim.outboxId)) ∧
    (∀ before e between e' after claim claim', tr = before ++ e :: (between ++ e' :: after) →
      e.action.unknownClaim = some claim → e'.action.unknownClaim = some claim' →
      claim'.outboxId = claim.outboxId →
      e'.target.storedCount claim.outboxId ≤ e.target.storedCount claim.outboxId →
      ∃ x ∈ between, absentRetry claim.outboxId x ≠ none) := by
  have hinit : (runtime hooks).init (.initial rest) := ⟨rest, rfl⟩
  have hs := tracked_of_reachable (h.reachable (.init hinit))
  have htally := tallied_of_path h
  refine ⟨htally.bounded, fun row hrow hstate => ?_, ?_, ?_⟩
  · have hfind : s.effects.tables.outbox.find? row.outboxId = some row := Table.find?_of_mem hrow
    rw [storedCount_eq hfind]
    refine (htally.rows row hrow).counted ?_
    rcases hstate with hstate | hstate <;> rw [hstate] <;> rfl
  · rintro before e after claim outcome fin next rfl haction hkind
    obtain ⟨hbefore, hstep, hafter⟩ := h.of_append_cons
    rw [haction] at hstep
    obtain ⟨row, hrow, hbacks, _⟩ := backsOff_of_leftUnknown hbefore hkind hstep
    refine ⟨row, hrow, hbacks, fun hstopped => ?_⟩
    have htarget := tracked_of_reachable ((hbefore.snoc hstep).reachable (.init hinit))
    have hstays := stopped_of_path hafter htarget hrow hbacks.state hstopped
    refine ⟨hstays, fun owner now leaseUntil issued tables hclaim hid => ?_⟩
    obtain ⟨other, hnext, rfl, _⟩ := EffectTables.nextEffect_of_claim hclaim
    have hopen := (OutboxRow.eligible_iff.mp hnext.eligible).2.2.2.2 rfl
    have hsame : other.outboxId = claim.outboxId := hid
    have hfind := Table.find?_of_mem hnext.mem
    rw [show Keyed.key other = claim.outboxId from hsame, hstays] at hfind
    obtain rfl := Option.some.inj hfind
    exact absurd (hopen.symm.trans hstopped) (by simp)
  · rintro before e between e' after claim claim' rfl hclaim hclaim' hsame hrestart
    obtain ⟨hbefore, hstep, hrest⟩ := h.of_append_cons
    obtain ⟨hbetween, hstep', _⟩ := hrest.of_append_cons
    obtain ⟨outcome, fin, next, haction, hkind⟩ := unknownClaim_eq_some hclaim
    obtain ⟨outcome', fin', next', haction', hkind'⟩ := unknownClaim_eq_some hclaim'
    rw [haction] at hstep
    rw [haction'] at hstep'
    have hmiddle := (hbefore.snoc hstep).append hbetween
    obtain ⟨row, hrow, hbacks, hcount⟩ := backsOff_of_leftUnknown hbefore hkind hstep
    obtain ⟨_, _, _, hcount'⟩ := backsOff_of_leftUnknown hmiddle hkind' hstep'
    obtain ⟨x, _, hx, _, _, hx', _⟩ := row_of_leftUnknown hkind' hstep'
    have htarget := tracked_of_reachable ((hbefore.snoc hstep).reachable (.init hinit))
    have hpast : row.Past claim.effectAttemptId :=
      ⟨hbacks.attempt, .inl (by rw [hbacks.state]; rfl)⟩
    obtain ⟨x', hfind, ⟨hkept, _⟩ | hretried⟩ := retried_of_path hbetween htarget hrow hpast
    · -- one attempt: its second count is larger
      obtain rfl := Option.some.inj (hfind.symm.trans (hsame ▸ hx))
      have hattempt : claim'.effectAttemptId = claim.effectAttemptId := hx'.symm.trans hkept
      rw [hsame, hattempt] at hcount'
      have hmore := unknowns_le_append claim.effectAttemptId
        (before ++ [⟨e.source, .effect (.reconcileAmbiguous claim outcome fin next), e.target⟩])
        between
      rw [unknowns_append, if_pos (by
        simp [RuntimeAction.unknownAttempt, RuntimeAction.unknownClaim, hkind])] at hmore
      omega
    · exact hretried

end Runs

-- ════════════════════════════════════════════════════════════════════════
-- A restart by way of a second retry
-- ════════════════════════════════════════════════════════════════════════

theorem thirdAttempt_pos : 0 < 3 := by decide

/-- A proposal with a third attempt allowed. -/
def EffectProposal.persistent (p : EffectProposal) : EffectProposal :=
  { p with
    constraints := { p.constraints with
      maximumAttempts := 3
      maximumAttempts_pos := thirdAttempt_pos } }

theorem proposal_iff_persistent (semantic : SemanticDecision) : semantic.outcome = .proposal ↔
    (semantic.proposal.map EffectProposal.persistent).isSome = true := by
  rw [Option.isSome_map]
  exact semantic.proposal_iff

/-- The sample decision about the agenda item claimed last, with a persistent proposal. -/
def samplePersistentPropose {ε : Type} (s : RuntimeState ε) : RuntimeAction ε :=
  match samplePropose s with
  | .commitSemanticDecision claim semantic => .commitSemanticDecision claim
    { semantic with
      proposal := semantic.proposal.map EffectProposal.persistent
      proposal_iff := proposal_iff_persistent semantic }
  | a => a

/-- A reconciliation of the ambiguous row at a given time. -/
def sampleReconcile {ε : Type} (now : Instant) (kind : ReconciliationKind) (resultId : StableId)
    (nextAttemptId : Option StableId) (nextReconciliationAt : Option Instant) :
    List (RuntimeState ε → RuntimeAction ε) :=
  [fun _ => .effect (.claimAmbiguous sampleWorker.principalId now (now + 100)),
    fun s => match s.effects.outboxClaims.getLast? with
      | none => .environment s.rest
      | some claim => .effect (.reconcileAmbiguous claim ⟨kind, .empty, 0⟩
          ⟨resultId, sampleWorker, now + 1, nextAttemptId⟩ nextReconciliationAt)]

/-- The first attempt is left unknown once and then confirmed absent; its retry
    fails and is retried in turn; the third attempt is left unknown. -/
def restartedAfterFailure : List (RuntimeState AuthorityRecords → RuntimeAction AuthorityRecords) :=
  sampleMaterialization (sampleEvent (stableId "event-1") (stableId "message") 5)
      (stableId "trigger-1") (stableId "wake-1") (stableId "agenda-1") ++
    [sampleClaimAgenda, samplePersistentPropose, fun _ => .commitApprovalAndAttempt sampleApproval] ++
    sampleDispatch 40 .ambiguous (stableId "result-1") none ++
    sampleReconcile 50 .stillUnknown (stableId "unused") none (some 56) ++
    sampleReconcile 60 .confirmedAbsent (stableId "result-2") (some (stableId "attempt-2")) none ++
    sampleDispatch 70 .retryableFailure (stableId "result-3") (some (stableId "attempt-3")) ++
    sampleDispatch 80 .ambiguous (stableId "result-4") none ++
    sampleReconcile 90 .stillUnknown (stableId "unused") none none

/-- The count of a row starts anew between two results of unknown outcome only if
    some retry created for it after the effect was confirmed absent was ambiguous. -/
def RestartsWithRetry {ε : Type} (o : StableId)
    (tr : List (Transition (RuntimeState ε) (RuntimeAction ε)))
    (e e' : Transition (RuntimeState ε) (RuntimeAction ε)) : Prop :=
  e.action.unknownClaim.map OutboxClaim.outboxId = some o →
    e'.action.unknownClaim.map OutboxClaim.outboxId = some o →
    e'.target.storedCount o ≤ e.target.storedCount o →
    ∃ x ∈ tr, ∃ id ∈ absentRetry o x, ∃ y ∈ tr,
      (y.source.effects.tables.attempts.find? id).map EffectAttempt.state = some .ambiguous

instance {ε : Type} (o : StableId) (tr : List (Transition (RuntimeState ε) (RuntimeAction ε)))
    (e e' : Transition (RuntimeState ε) (RuntimeAction ε)) :
    Decidable (RestartsWithRetry o tr e e') := by
  unfold RestartsWithRetry
  infer_instance

set_option maxRecDepth 8000 in
/-- The count also starts anew for a later retry, where the one that was created
    after the reconciliation was never ambiguous. -/
theorem restarted_without_ambiguous_retry :
    ¬∀ (tr : List (Transition (RuntimeState AuthorityRecords) (RuntimeAction AuthorityRecords)))
      (s : RuntimeState AuthorityRecords) (o : StableId),
      (runtime sqliteRuntimeStore).Path (.initial sampleAuthority) tr s →
      tr.Pairwise (RestartsWithRetry o tr) := by
  intro hall
  obtain ⟨tr, s, hpath, hp⟩ := RuntimeState.exists_path_of_runsTo sqliteRuntimeStore
    (.initial sampleAuthority) restartedAfterFailure
    (fun tr _ => !decide (tr.Pairwise (RestartsWithRetry (stableId "outbox-1") tr)))
    (by decide +kernel)
  simp only [Bool.not_eq_true', decide_eq_false_iff_not] at hp
  exact hp (hall tr s (stableId "outbox-1") hpath)

set_option maxRecDepth 8000 in
/-- In that run one result of unknown outcome is recorded for the first attempt. -/
theorem reconciliation_bounded_restarted : ∃ (tr : _) (s : RuntimeState AuthorityRecords),
    (runtime sqliteRuntimeStore).Path (.initial sampleAuthority) tr s ∧
    unknowns (stableId "attempt-1") tr = 1 ∧ 1 ≤ min 3 8 := by
  obtain ⟨tr, s, hpath, hp⟩ := RuntimeState.exists_path_of_runsTo sqliteRuntimeStore
    (.initial sampleAuthority) restartedAfterFailure
    (fun tr s => decide (unknowns (stableId "attempt-1") tr = 1) &&
      (s.effects.tables.attempts.find? (stableId "attempt-1")).any (fun a : EffectAttempt =>
        (s.effects.tables.proposals.find? a.proposalId).any fun p : EffectProposal =>
          decide (p.constraints.maximumAttempts = 3))) (by decide +kernel)
  simp only [Bool.and_eq_true, Option.any_eq_true, decide_eq_true_eq] at hp
  obtain ⟨hcount, a, ha, p, hproposal, hmax⟩ := hp
  have hbounded := (reconciliation_bounded hpath).1 (stableId "attempt-1") a p ha hproposal
  rw [hcount, hmax] at hbounded
  exact ⟨tr, s, hpath, hcount, hbounded⟩

end DigitalColleagues
