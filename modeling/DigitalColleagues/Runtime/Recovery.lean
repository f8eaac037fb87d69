import DigitalColleagues.Runtime.Quiescence
import DigitalColleagues.Runtime.Reconciliation

/-!
# Recovery of interrupted dispatches

A worker that crashes while it dispatches leaves a row whose lease runs out.
`recover_expired` takes the first such row and closes it as ambiguous, under a
result whose identity it derives from the clock.

## Main definitions

- `OutboxRow.Leased` — which rows have a lease
- `DispatchService.recoverExpired` — one recovery
- `EffectTables.RecoversRow` — what a recovery does
- `Drains` — recoveries that close all interrupted dispatches, one after the other

## Main results

- `rowsLeased_of_reachable` — a row has a lease exactly while something works on it
- `recovery_drains_iff` — recoveries drain exactly as long as their results are new
-/

namespace DigitalColleagues

-- ═══════════════════════════════════════════════════════════════════
-- Leases
-- ═══════════════════════════════════════════════════════════════════

/-- A row is leased exactly while it is claimed or dispatched. -/
def OutboxRow.Leased (r : OutboxRow) : Prop :=
  match r.state with
  | .claimed | .dispatching | .ambiguousClaimed => r.leaseOwner ≠ none ∧ r.leaseUntil ≠ none
  | .pending | .retry | .ambiguous | .completed | .terminalFailed =>
    r.leaseOwner = none ∧ r.leaseUntil = none

theorem OutboxRow.leased_settle {r : OutboxRow} {state : OutboxState} {current : EffectAttempt}
    {occurredAt : Instant} {outcome : LastOutcome} {actorPrincipalId : StableId}
    (h : state ≠ .claimed ∧ state ≠ .dispatching ∧ state ≠ .ambiguousClaimed) :
    ({ r.settle state current occurredAt outcome with
      actorPrincipalId := actorPrincipalId } : OutboxRow).Leased := by
  simp only [Leased, settle]
  cases state <;> simp_all

/-- Every step of a row gives or takes the lease with the state. -/
theorem EffectTables.RowStep.leased {ε : Type} {s : EffectTables} {row row' : OutboxRow}
    {a : RuntimeAction ε} (h : s.RowStep row a row') (hrow : row.Leased) : row'.Leased := by
  cases h with
  | kept => exact hrow
  | claimed => exact ⟨by simp [OutboxRow.claim], by simp [OutboxRow.claim]⟩
  | claimedAmbiguous => exact ⟨by simp [OutboxRow.claim], by simp [OutboxRow.claim]⟩
  | started _ hstate =>
    simp only [OutboxRow.Leased, hstate] at hrow
    exact hrow
  | @dispatched _ kind _ _ _ _ _ _ hcontinued =>
    refine OutboxRow.leased_settle ?_
    obtain ⟨_, rfl⟩ | ⟨_, rfl, _⟩ := hcontinued
    · cases kind <;> simp [resultStates]
    · simp
  | leftUnknown _ _ _ _ hunknown =>
    obtain ⟨_, _, rfl⟩ := EffectTables.stillUnknown_eq_ok hunknown
    exact ⟨rfl, rfl⟩
  | @reconciled _ outcome _ _ _ _ _ _ _ _ hcontinued =>
    refine OutboxRow.leased_settle (r := row) ?_
    obtain ⟨_, rfl⟩ | ⟨_, rfl, _⟩ := hcontinued
    · cases outcome.kind <;> simp [reconciledStates]
    · simp

theorem rowsLeased_of_reachable {ε : Type} {hooks : StoreHooks ε} {s : RuntimeState ε}
    (h : (runtime hooks).Reachable s) : ∀ r ∈ s.effects.tables.outbox, r.Leased := by
  refine (h.invariant (I := fun s => s.effects.tables.Tracked ∧
    ∀ r ∈ s.effects.tables.outbox, r.Leased) ?_ ?_).2
  · rintro _ ⟨rest, rfl⟩
    exact ⟨EffectTables.tracked_empty, fun r hr => absurd hr (Table.not_mem_empty r)⟩
  · rintro s a t ⟨hs, hleased⟩ hstep
    refine ⟨tracked_preserved s a t hs hstep, fun r hr => ?_⟩
    obtain ⟨row, hrow, hmove⟩ | ⟨_, hnew⟩ :=
      RuntimeState.rowStep_of_exec hs hstep (Table.find?_of_mem hr)
    · exact hmove.leased (hleased row (Table.mem_of_find? hrow))
    · simp only [OutboxRow.Leased, hnew.state]
      exact hnew.lease

-- ═══════════════════════════════════════════════════════════════════
-- One recovery
-- ═══════════════════════════════════════════════════════════════════

/-- An interrupted dispatch: its lease ran out before `now`. -/
def OutboxRow.expiredAt (now : Instant) (r : OutboxRow) : Bool :=
  decide (r.state = .dispatching) && r.leaseUntil.any fun t => decide (t < now)

namespace EffectTables

variable {s t : EffectTables}

/-- What a recovery of a row does: the row and its attempt become ambiguous, one result of
    the attempt is added, and everything else stays. -/
structure RecoversRow (s t : EffectTables) (row : OutboxRow) (attempt : EffectAttempt)
    (result : ActionResult) : Prop where
  dispatching : s.outbox.find? row.outboxId = some row ∧ row.state = .dispatching
  ambiguous : ∃ row', row'.outboxId = row.outboxId ∧ row'.state = .ambiguous ∧
    t.outbox = s.outbox.replace row'
  started : s.attempts.find? row.effectAttemptId = some attempt ∧ attempt.state = .started
  settled : ∃ attempt', attempt'.state = .ambiguous ∧ ∀ id, t.attempts.find? id =
    if id = row.effectAttemptId then some attempt' else s.attempts.find? id
  caused : result.effectAttemptId = row.effectAttemptId ∧ result.state = .ambiguous
  added : s.results.find? result.actionResultId = none ∧ ∀ id, t.results.find? id =
    if id = result.actionResultId then some result else s.results.find? id
  kept : t.proposals = s.proposals ∧ t.approvals = s.approvals ∧
    t.approvalLedger = s.approvalLedger ∧
    t.proposalApprovalLedger = s.proposalApprovalLedger ∧ t.effectLedger = s.effectLedger

/-- The interrupted dispatches. -/
def expiredCount (s : EffectTables) (now : Instant) : ℕ :=
  s.outbox.rows.countP (OutboxRow.expiredAt now)

theorem expiredCount_eq_sum (s : EffectTables) (now : Instant) :
    s.expiredCount now = s.outbox.sum fun r => if r.expiredAt now then 1 else 0 := by
  rw [Table.sum_indicator s.outbox (OutboxRow.expiredAt now) id, Table.collect, List.map_id,
    expiredCount, List.countP_eq_length_filter]

/-- A recovery leaves one interrupted dispatch less. -/
theorem RecoversRow.expiredCount {row : OutboxRow} {attempt : EffectAttempt}
    {result : ActionResult} (h : s.RecoversRow t row attempt result) {since : Instant}
    (hrow : row.expiredAt since = true) : s.expiredCount since = t.expiredCount since + 1 := by
  obtain ⟨row', hid, hstate, houtbox⟩ := h.ambiguous
  have hfind : s.outbox.find? row'.outboxId = some row := hid ▸ h.dispatching.1
  have hsum := Table.sum_replace (r := row') hfind fun r => if r.expiredAt since then 1 else 0
  have hnot : row'.expiredAt since = false := by simp [OutboxRow.expiredAt, hstate]
  rw [expiredCount_eq_sum, expiredCount_eq_sum, houtbox]
  simp only [hnot, hrow] at hsum
  simpa using hsum.symm

/-- A recovery takes a row whose lease ran out first. -/
theorem exists_nextExpiredDispatch {since now : Instant} (hle : since ≤ now)
    (h : s.expiredCount since ≠ 0) :
    ∃ row, s.nextExpiredDispatch now = some row ∧ row ∈ s.outbox ∧ row.expiredAt since = true := by
  obtain ⟨first, hfirst, hexpired⟩ := List.countP_pos_iff.mp (Nat.pos_of_ne_zero h)
  have hlease : ∀ {r : OutboxRow} {t : Instant}, r.expiredAt t = true ↔
      r.state = .dispatching ∧ ∃ l, r.leaseUntil = some l ∧ l < t := by
    intro r t
    simp [OutboxRow.expiredAt, Option.any_eq_true]
  obtain ⟨hstate, l, hl, hlt⟩ := hlease.mp hexpired
  cases hnext : s.nextExpiredDispatch now with
  | none =>
    have hnone := Table.selectMin_eq_none.mp hnext first hfirst
    exact absurd (hlease.mpr ⟨hstate, l, hl, hlt.trans_le hle⟩)
      (ne_of_eq_of_ne hnone Bool.false_ne_true)
  | some row =>
    obtain ⟨hmem, hrow⟩ := Table.selectMin_mem hnext
    obtain ⟨hstate', l', hl', _⟩ := hlease.mp hrow
    have hrank := Table.selectMin_le hnext hfirst (hlease.mpr ⟨hstate, l, hl, hlt.trans_le hle⟩)
    refine ⟨row, rfl, hmem, hlease.mpr ⟨hstate', l', hl', lt_of_le_of_lt ?_ hlt⟩⟩
    have hfst := Prod.Lex.monotone_fst _ _ hrank
    simpa [hl, hl'] using hfst

/-- The claim that a recovery rebuilds from an interrupted row is the one that holds it. -/
theorem exists_recoveryClaim {row : OutboxRow} (hrow : s.outbox.find? row.outboxId = some row)
    (hleased : row.Leased) (hstate : row.state = .dispatching) :
    ∃ claim, recoveryClaim row = some claim ∧ claim.effectAttemptId = row.effectAttemptId ∧
      s.requireOutboxClaim claim [.dispatching] none = .ok row := by
  simp only [OutboxRow.Leased, hstate] at hleased
  obtain ⟨owner, howner⟩ := Option.ne_none_iff_exists'.mp hleased.1
  obtain ⟨leaseUntil, huntil⟩ := Option.ne_none_iff_exists'.mp hleased.2
  refine ⟨row.claimOf owner leaseUntil row.fencingToken, ?_, rfl, ?_⟩
  · simp only [recoveryClaim, howner, huntil]
  · have hbinds : (row.claimOf owner leaseUntil row.fencingToken).binds row :=
      ⟨howner, huntil, rfl, rfl, rfl, rfl, rfl, rfl⟩
    have hfind : s.outbox.find? (row.claimOf owner leaseUntil row.fencingToken).outboxId =
        some row := hrow
    simp only [requireOutboxClaim, bind_eq_ok, orFail_eq_ok, require_eq_ok, pure_eq_ok,
      exists_const]
    exact ⟨row, hfind, ⟨by simp [hstate], hbinds⟩, by simp, rfl⟩

/-- A dispatch under way ends as ambiguous if its result is new. -/
theorem exists_finalizeDispatch {claim : OutboxClaim} {row : OutboxRow} {attempt : EffectAttempt}
    {outcome : ChannelOutcome} {fin : Finalization} (hkind : outcome.kind = .ambiguous)
    (hretry : fin.nextAttemptId = none) (hfind : s.outbox.find? row.outboxId = some row)
    (hstate : row.state = .dispatching) (hcurrent : claim.effectAttemptId = row.effectAttemptId)
    (hrequire : s.requireOutboxClaim claim [.dispatching] none = .ok row)
    (hattempt : s.attempts.find? row.effectAttemptId = some attempt)
    (hstarted : attempt.state = .started)
    (hfresh : s.results.find? fin.actionResultId = none) :
    ∃ t result, s.finalizeDispatch claim outcome fin = .ok (result, t) ∧
      result.actionResultId = fin.actionResultId ∧ s.RecoversRow t row attempt result := by
  have hid : attempt.effectAttemptId = row.effectAttemptId := effectAttemptId_of_find? hattempt
  have hkey : s.attempts.find? attempt.effectAttemptId = some attempt := hid ▸ hattempt
  let ended := settleAttempt attempt .ambiguous fin.resultActor fin.occurredAt
  let result := newResult attempt fin.actionResultId .ambiguous outcome.safeProjection
    outcome.resultDigest fin.resultActor fin.occurredAt
  obtain ⟨settled, hsettled⟩ : ∃ settled,
      s.attempts.updateRecord ended attempt.revision = .ok settled :=
    Records.exists_updateRecord rfl hkey rfl
  obtain ⟨results, hresults⟩ : ∃ results, s.results.insertRecord result = .ok results :=
    Records.exists_insertRecord hfresh
  let row' := { row.settle .ambiguous attempt fin.occurredAt (.channel .ambiguous) with
    actorPrincipalId := fin.resultActor.principalId }
  refine ⟨{ s with
    attempts := settled
    results := results
    outbox := s.outbox.replace row' }, result, ?_, rfl, ?_⟩
  · simp only [finalizeDispatch, bind_eq_ok, Records.getRecord_eq_ok, require_eq_ok, pure_eq_ok,
      exists_const, Prod.mk.injEq, Prod.exists, hkind]
    exact ⟨row, hrequire, attempt, hcurrent ▸ hattempt, hstarted, settled, hsettled, results,
      hresults, none, settled, by simp only [createRetry, hretry], rfl, rfl⟩
  · have hfindSettled : ∀ id, settled.find? id =
        if id = row.effectAttemptId then some ended else s.attempts.find? id := by
      intro id
      rw [Records.find?_updateRecord hsettled id, show Keyed.key ended = row.effectAttemptId from hid]
    exact {
      dispatching := ⟨hfind, hstate⟩
      ambiguous := ⟨row', rfl, rfl, rfl⟩
      started := ⟨hattempt, hstarted⟩
      settled := ⟨ended, rfl, hfindSettled⟩
      caused := ⟨hid, rfl⟩
      added := ⟨hfresh, Records.find?_insertRecord hresults⟩
      kept := ⟨rfl, rfl, rfl, rfl, rfl⟩ }

/-- A recovery that finds a row succeeds if its result is new, and fails otherwise. -/
theorem recoverExpiredDispatches_cases (hs : s.Tracked) (hleased : ∀ r ∈ s.outbox, r.Leased)
    {now : Instant} (actor : Principal) (resultId : StableId) (digest : Digest) {row : OutboxRow}
    (hnext : s.nextExpiredDispatch now = some row) :
    (s.results.find? resultId ≠ none ∧
      ∀ r, s.recoverExpiredDispatches now actor resultId digest ≠ .ok r) ∨
    ∃ t attempt result, s.recoverExpiredDispatches now actor resultId digest = .ok (1, t) ∧
      result.actionResultId = resultId ∧ s.RecoversRow t row attempt result := by
  obtain ⟨hmem, hrow⟩ := Table.selectMin_mem hnext
  have hstate : row.state = .dispatching := by
    simp only [Bool.and_eq_true, decide_eq_true_eq] at hrow
    exact hrow.1
  have hfind : s.outbox.find? row.outboxId = some row := Table.find?_of_mem hmem
  obtain ⟨claim, hclaim, hcurrent, hrequire⟩ :=
    exists_recoveryClaim hfind (hleased row hmem) hstate
  obtain ⟨attempt, hattempt, _, _, hstarted⟩ := (hs.row row hmem).current
  rw [hstate] at hstarted
  by_cases hfresh : s.results.find? resultId = none
  · let outcome : ChannelOutcome :=
      ⟨.ambiguous, ⟨[("outcome", .str "restart_recovery_ambiguous")], by simp⟩, digest⟩
    let fin : Finalization := ⟨resultId, actor, now, none⟩
    obtain ⟨t, result, hfinalize, hresult, hrecovers⟩ : ∃ t result,
        s.finalizeDispatch claim outcome fin = .ok (result, t) ∧
          result.actionResultId = fin.actionResultId ∧ s.RecoversRow t row attempt result :=
      exists_finalizeDispatch rfl rfl hfind hstate hcurrent hrequire hattempt hstarted hfresh
    refine .inr ⟨t, attempt, result, ?_, hresult, hrecovers⟩
    unfold recoverExpiredDispatches
    simp only [hnext, bind_eq_ok, orFail_eq_ok, pure_eq_ok, Prod.exists, Prod.mk.injEq]
    exact ⟨claim, hclaim, result, t, hfinalize, trivial, rfl⟩
  · refine .inl ⟨hfresh, ?_⟩
    rintro ⟨count, t⟩ h
    unfold recoverExpiredDispatches at h
    rw [hnext] at h
    simp only [bind_eq_ok, orFail_eq_ok, pure_eq_ok, Prod.exists, Prod.mk.injEq] at h
    obtain ⟨_, _, result, _, hfinalize, _, rfl⟩ := h
    obtain ⟨_, _, _, _, _, _, _, _, _, _, rfl, hinsert, _, _⟩ := finalizeDispatch_eq_ok hfinalize
    exact hfresh (Records.find?_of_insertRecord hinsert)

end EffectTables

-- ═══════════════════════════════════════════════════════════════════
-- Successive recoveries
-- ═══════════════════════════════════════════════════════════════════

/-- The parts of a recovery outside the store. -/
structure RecoveryPorts where
  isoformat : Instant → String
  digestText : String → Digest

namespace Worker

variable {ε : Type} (w : Worker ε) (ports : RecoveryPorts)

/-- The identity of the result of a recovery at `now`. -/
def recoveryResultId (now : Instant) : StableId :=
  w.derive ["result", "expired-dispatch", ports.isoformat now]

/-- The results of the next `n` recoveries are new, and are not the same. -/
def NewResults (n : ℕ) (s : RuntimeState ε) (reads : ℕ) : Prop :=
  ∀ i < n, s.effects.tables.results.find? (w.recoveryResultId ports (w.clock (reads + i))) = none ∧
    ∀ j < i, w.recoveryResultId ports (w.clock (reads + j)) ≠
      w.recoveryResultId ports (w.clock (reads + i))

end Worker

/-- The digest of the row that is recovered. -/
def RecoveryPorts.resultDigest (ports : RecoveryPorts) (tables : EffectTables) (now : Instant) :
    Digest :=
  match tables.nextExpiredDispatch now with
  | none => ports.digestText ""
  | some row => ports.digestText ("restart-recovery\x00" ++ row.effectIdempotencyKey.val)

section Drains

variable {ε : Type} (w : Worker ε) (context : ServiceRuntimeContext) (ports : RecoveryPorts)

/-- `recover_expired`. -/
def DispatchService.recoverExpired : WorkerProcess ε ℕ := do
  let now ← w.now
  let resultId := w.recoveryResultId ports now
  let digest ← Worker.read fun store => .ok (ports.resultDigest store.effects now)
  w.transact (.effect (.recoverExpiredDispatches now context.servicePrincipal resultId digest))
    fun s => (s.effects.tables.recoverExpiredDispatches now context.servicePrincipal resultId
      digest).map Prod.fst

/-- `n` recoveries succeed one after the other. Each closes one of the dispatches
    interrupted before `since` and changes nothing else, and the last leaves none of them. -/
inductive Drains (since : Instant) : ℕ → WorkerState ε → Prop
  | done {s : WorkerState ε} (none_left : s.runtime.effects.tables.expiredCount since = 0) :
    Drains since 0 s
  | next {n : ℕ} {s : WorkerState ε} {tables : EffectTables} {row : OutboxRow}
    {attempt : EffectAttempt} {result : ActionResult}
    (succeeds : DispatchService.recoverExpired w context ports s = (.ok 1,
      ⟨{ s.runtime with effects := { s.runtime.effects with tables := tables } },
        s.clockReads + 1⟩))
    (expired : row.expiredAt since = true)
    (recovers : s.runtime.effects.tables.RecoversRow tables row attempt result)
    (rest : Drains since n
      ⟨{ s.runtime with effects := { s.runtime.effects with tables := tables } },
        s.clockReads + 1⟩) :
    Drains since (n + 1) s

variable {w context ports}

/-- A recovery reads the clock once and is one transaction. -/
theorem recoverExpired_eq (s : RuntimeState ε) (reads : ℕ) :
    DispatchService.recoverExpired w context ports ⟨s, reads⟩ =
      match s.effects.tables.recoverExpiredDispatches (w.clock reads) context.servicePrincipal
        (w.recoveryResultId ports (w.clock reads))
        (ports.resultDigest s.effects.tables (w.clock reads)) with
      | .ok (count, tables) =>
        (.ok count, ⟨{ s with effects := { s.effects with tables := tables } }, reads + 1⟩)
      | .error failure => (.error (.core failure), ⟨s, reads + 1⟩) := by
  have hnow : w.now ⟨s, reads⟩ = (.ok (w.clock reads), ⟨s, reads + 1⟩) := rfl
  have hread : Worker.read (fun store => .ok (ports.resultDigest store.effects (w.clock reads)))
      ⟨s, reads + 1⟩ =
        (.ok (ports.resultDigest s.effects.tables (w.clock reads)), ⟨s, reads + 1⟩) := rfl
  rw [DispatchService.recoverExpired, Process.bind_of_ok hnow, Process.bind_of_ok hread]
  simp only [Worker.transact, RuntimeState.exec, EffectSide.exec]
  cases s.effects.tables.recoverExpiredDispatches (w.clock reads) context.servicePrincipal
    (w.recoveryResultId ports (w.clock reads))
    (ports.resultDigest s.effects.tables (w.clock reads)) with
  | error failure => rfl
  | ok r => rfl

/-- A recovery with an interrupted dispatch fails, or closes the first one. -/
theorem recoverExpired_cases {s : RuntimeState ε} {reads : ℕ} (hs : (runtime w.hooks).Reachable s)
    {since : Instant} (hle : since ≤ w.clock reads)
    (hleft : s.effects.tables.expiredCount since ≠ 0) :
    (s.effects.tables.results.find? (w.recoveryResultId ports (w.clock reads)) ≠ none ∧
      ∀ n, (DispatchService.recoverExpired w context ports ⟨s, reads⟩).1 ≠ .ok n) ∨
    ∃ tables row attempt result, DispatchService.recoverExpired w context ports ⟨s, reads⟩ =
        (.ok 1, ⟨{ s with effects := { s.effects with tables := tables } }, reads + 1⟩) ∧
      (runtime w.hooks).Reachable { s with effects := { s.effects with tables := tables } } ∧
      row.expiredAt since = true ∧
      result.actionResultId = w.recoveryResultId ports (w.clock reads) ∧
      s.effects.tables.RecoversRow tables row attempt result := by
  obtain ⟨row, hnext, _, hrow⟩ := EffectTables.exists_nextExpiredDispatch hle hleft
  rw [recoverExpired_eq]
  obtain ⟨hold, hfails⟩ | ⟨tables, attempt, result, hrecover, hresult, hrecovers⟩ :=
    EffectTables.recoverExpiredDispatches_cases (tracked_of_reachable hs)
      (rowsLeased_of_reachable hs) context.servicePrincipal
      (w.recoveryResultId ports (w.clock reads))
      (ports.resultDigest s.effects.tables (w.clock reads)) hnext
  · refine .inl ⟨hold, fun n => ?_⟩
    split
    · rename_i hrecover
      exact absurd hrecover (hfails _)
    · simp
  · refine .inr ⟨tables, row, attempt, result, ?_, ?_, hrow, hresult, hrecovers⟩
    · rw [hrecover]
    · refine hs.step (a := .effect (.recoverExpiredDispatches (w.clock reads)
        context.servicePrincipal (w.recoveryResultId ports (w.clock reads))
        (ports.resultDigest s.effects.tables (w.clock reads)))) ?_
      show RuntimeState.exec w.hooks s (.effect (.recoverExpiredDispatches (w.clock reads)
        context.servicePrincipal (w.recoveryResultId ports (w.clock reads))
        (ports.resultDigest s.effects.tables (w.clock reads)))) = .ok _
      simp only [RuntimeState.exec, EffectSide.exec, hrecover]
      rfl

/-- After a recovery, the next results are new if they were and are not its own. -/
theorem Worker.newResults_succ {s t : RuntimeState ε} {reads n : ℕ}
    (hnew : s.effects.tables.results.find? (w.recoveryResultId ports (w.clock reads)) = none)
    (hadded : ∀ id, t.effects.tables.results.find? id = none ↔
      id ≠ w.recoveryResultId ports (w.clock reads) ∧
        s.effects.tables.results.find? id = none) :
    w.NewResults ports (n + 1) s reads ↔ w.NewResults ports n t (reads + 1) := by
  have hshift : ∀ i, reads + 1 + i = reads + (i + 1) := fun i => by omega
  simp only [NewResults, hadded, hshift]
  constructor
  · intro h i hi
    obtain ⟨hold, hdiffer⟩ := h (i + 1) (by omega)
    exact ⟨⟨(hdiffer 0 i.succ_pos).symm, hold⟩, fun j hj => hdiffer (j + 1) (by omega)⟩
  · intro h i hi
    cases i with
    | zero => exact ⟨hnew, fun j hj => absurd hj j.not_lt_zero⟩
    | succ i =>
      obtain ⟨⟨hfirst, hold⟩, hdiffer⟩ := h i (by omega)
      refine ⟨hold, fun j hj => ?_⟩
      cases j with
      | zero => exact hfirst.symm
      | succ j => exact hdiffer j (by omega)

/-- Recoveries of all interrupted dispatches succeed exactly if their results are new. -/
theorem drains_iff {since : Instant} {n : ℕ} : ∀ {s : RuntimeState ε} {reads : ℕ},
    (runtime w.hooks).Reachable s → (∀ i, since ≤ w.clock (reads + i)) →
    s.effects.tables.expiredCount since = n →
    (Drains w context ports since n ⟨s, reads⟩ ↔ w.NewResults ports n s reads) := by
  induction n with
  | zero =>
    intro s reads _ _ hcount
    exact ⟨fun _ i hi => absurd hi (Nat.not_lt_zero i), fun _ => .done hcount⟩
  | succ n ih =>
    intro s reads hs hle hcount
    obtain ⟨hold, hfails⟩ | ⟨tables, row, attempt, result, hsucceeds, hs', hrow, hresult,
        hrecovers⟩ := @recoverExpired_cases ε w context ports s reads hs since (hle 0)
      (by omega)
    · constructor
      · rintro (_ | ⟨hsucceeds, _, _, _⟩)
        exact absurd (congrArg Prod.fst hsucceeds) (hfails 1)
      · exact fun hnew => absurd (hnew 0 n.succ_pos).1 hold
    · have hcount' := hrecovers.expiredCount hrow
      have hle' : ∀ i, since ≤ w.clock (reads + 1 + i) := fun i =>
        Nat.add_right_comm reads 1 i ▸ hle (i + 1)
      have hrest := ih hs' hle' (by simp only; omega)
      obtain ⟨hfresh, hadded⟩ := hrecovers.added
      rw [hresult] at hfresh
      rw [Worker.newResults_succ hfresh fun id => ?_, ← hrest]
      · constructor
        · rintro (_ | ⟨hsucceeds', _, _, hdrains⟩)
          rw [hsucceeds] at hsucceeds'
          cases hsucceeds'
          exact hdrains
        · exact fun hdrains => .next hsucceeds hrow hrecovers hdrains
      · rw [hadded, hresult]
        split <;> simp_all

/-- In every reachable state, at clock readings that never go back, the recoveries of all
    interrupted dispatches succeed exactly if the identities that the clock gives to their
    results differ and none of them is taken. -/
theorem recovery_drains_iff {s : RuntimeState ε} {reads : ℕ} (hs : (runtime w.hooks).Reachable s)
    (hclock : ∀ m n, m ≤ n → w.clock m ≤ w.clock n) :
    Drains w context ports (w.clock reads) (s.effects.tables.expiredCount (w.clock reads))
        ⟨s, reads⟩ ↔
      w.NewResults ports (s.effects.tables.expiredCount (w.clock reads)) s reads :=
  drains_iff hs (fun i => hclock reads (reads + i) (Nat.le_add_right reads i)) rfl

end Drains

-- ═══════════════════════════════════════════════════════════════════
-- Two interrupted dispatches
-- ═══════════════════════════════════════════════════════════════════

theorem secondProposal_expires : (20 : Instant) < 1000 := by decide

theorem secondProposal_attempts : (0 : ℕ) < 2 := by decide

theorem sampleApprover_human : sampleApprover.kind = .human := rfl

/-- A second message, with an approval and an outbox row of its own, for concrete runs. -/
def secondProposal : EffectProposal where
  proposalId := stableId "proposal-2"
  decisionId := stableId "decision-2"
  effectKind := .referenceMessage
  destination := ⟨stableId "channel", "inbox"⟩
  action := stableId "send"
  safeProjection := .empty
  constraints :=
    { boundaryId := stableId "boundary-1"
      idempotencyKey := stableId "effect-2"
      validUntil := 1000
      maximumAttempts := 2
      parameters := offline
      maximumAttempts_pos := secondProposal_attempts }
  state := .pendingApproval
  actor := sampleWorker
  correlationId := stableId "correlation-2"
  occurredAt := 20
  revision := 1
  mandate := some ⟨stableId "mandate-1", 1⟩
  policy := none
  payloadDigest := 0
  proposalDigest := 0
  payload := .empty
  expires := secondProposal_expires

/-- The second proposal, made about the agenda item claimed last. -/
def proposeSecond {ε : Type} (s : RuntimeState ε) : RuntimeAction ε :=
  match s.agenda.agendaClaims.getLast? with
  | none => .environment s.rest
  | some claim => .commitSemanticDecision claim
    { outcome := .proposal
      decision :=
        { decisionId := stableId "decision-2"
          wakeCycleId := claim.agendaItem.wakeCycleId
          agendaItemId := claim.agendaItem.agendaItemId
          kind := .proposeEffect
          rationale := "a reply is due"
          proposedEffectId := some (stableId "proposal-2")
          actor := sampleWorker
          correlationId := stableId "correlation-2"
          occurredAt := 20
          revision := 1
          policy := none }
      proposal := some secondProposal
      requestId := stableId "request-2" }

/-- An approval of the second proposal at a given time, which lasts until a given time. -/
def secondApproval (occurredAt validUntil : Instant) (h : occurredAt ≤ validUntil) :
    ApprovalCommand where
  mandateId := stableId "mandate-1"
  expectedMandateRevision := 1
  decision :=
    { approvalDecisionId := stableId "approval-2"
      proposalId := stableId "proposal-2"
      proposalRevision := 1
      proposalPayloadDigest := 0
      proposalDigest := 0
      choice := .approve
      author := sampleApprover
      idempotencyKey := stableId "approve-2"
      correlationId := stableId "correlation-2"
      occurredAt := occurredAt
      validUntil := validUntil
      revision := 1
      author_human := sampleApprover_human
      validity := h }
  effectAttemptId := stableId "attempt-2"
  outboxId := stableId "outbox-2"
  serviceActor := sampleWorker
  occurredAt := occurredAt

/-- Two messages, proposed one after the other and approved. -/
def bothApproved {ε : Type} (occurredAt validUntil : Instant) (h : occurredAt ≤ validUntil) :
    List (RuntimeState ε → RuntimeAction ε) :=
  sampleApproved ++
    sampleMaterialization (sampleEvent (stableId "event-2") (stableId "note") 5)
      (stableId "trigger-2") (stableId "wake-2") (stableId "agenda-2") ++
    [sampleClaimAgenda, proposeSecond,
      fun _ => .commitApprovalAndAttempt (secondApproval occurredAt validUntil h)]

theorem approval_lasts : (30 : Instant) ≤ 900 := by decide

/-- Both messages under way. -/
def bothDispatching {ε : Type} : List (RuntimeState ε → RuntimeAction ε) :=
  bothApproved 30 900 approval_lasts ++
    (sampleDispatch 40 .succeeded (stableId "result-1") none).take 2 ++
    (sampleDispatch 41 .succeeded (stableId "result-1") none).take 2

/-- Times in microseconds, for concrete recoveries. -/
def sampleRecoveryPorts : RecoveryPorts := ⟨fun now => toString now.toNat, fun _ => 0⟩

/-- A worker whose clock never stands still, for concrete recoveries. -/
def tickingWorker : Worker AuthorityRecords := { unreachableWorker 1000 with
  clock n := 1000 + n }

theorem tickingWorker_le (m n : ℕ) (h : m ≤ n) :
    tickingWorker.clock m ≤ tickingWorker.clock n := by
  show (1000 : ℤ) + m ≤ 1000 + n
  omega

set_option maxRecDepth 8000 in
theorem recovery_drains_two : ∃ s : RuntimeState AuthorityRecords,
    (runtime sqliteRuntimeStore).Reachable s ∧
    Drains tickingWorker sampleContext sampleRecoveryPorts 1000 2 ⟨s, 0⟩ := by
  obtain ⟨tr, s, hpath, hs⟩ := RuntimeState.exists_path_of_runsTo sqliteRuntimeStore
    (.initial sampleAuthority) bothDispatching
    (fun _ s => decide (s.effects.tables.expiredCount 1000 = 2) &&
      decide (s.effects.tables.results.find? (stableId "result-expired-dispatch-1000") = none) &&
      decide (s.effects.tables.results.find? (stableId "result-expired-dispatch-1001") = none))
    (by decide +kernel)
  simp only [Bool.and_eq_true, decide_eq_true_eq] at hs
  obtain ⟨⟨hcount, hfirst⟩, hsecond⟩ := hs
  have hreachable : (runtime tickingWorker.hooks).Reachable s := hpath.reachable (.init ⟨_, rfl⟩)
  have hzero : tickingWorker.recoveryResultId sampleRecoveryPorts (tickingWorker.clock 0) =
      stableId "result-expired-dispatch-1000" := by decide +kernel
  have hone : tickingWorker.recoveryResultId sampleRecoveryPorts (tickingWorker.clock 1) =
      stableId "result-expired-dispatch-1001" := by decide +kernel
  have hnew : tickingWorker.NewResults sampleRecoveryPorts 2 s 0 := by
    intro i hi
    obtain rfl | rfl : i = 0 ∨ i = 1 := by omega
    · exact ⟨hzero ▸ hfirst, fun j hj => absurd hj j.not_lt_zero⟩
    · refine ⟨hone ▸ hsecond, fun j hj => ?_⟩
      obtain rfl : j = 0 := by omega
      show tickingWorker.recoveryResultId sampleRecoveryPorts (tickingWorker.clock 0) ≠
        tickingWorker.recoveryResultId sampleRecoveryPorts (tickingWorker.clock 1)
      rw [hzero, hone]
      decide +kernel
  have hdrains := (@recovery_drains_iff _ tickingWorker sampleContext sampleRecoveryPorts s 0
    hreachable tickingWorker_le).mpr
  rw [show tickingWorker.clock 0 = 1000 from rfl, hcount] at hdrains
  exact ⟨s, hreachable, hdrains hnew⟩

set_option maxRecDepth 8000 in
/-- A clock that stands still: the second of two recoveries fails. -/
theorem not_recovery_drains : ¬∀ (w : Worker AuthorityRecords) (context : ServiceRuntimeContext)
    (ports : RecoveryPorts) (s : RuntimeState AuthorityRecords) (reads : ℕ),
    (runtime w.hooks).Reachable s → (∀ m n, m ≤ n → w.clock m ≤ w.clock n) →
    Drains w context ports (w.clock reads) (s.effects.tables.expiredCount (w.clock reads))
      ⟨s, reads⟩ := by
  intro h
  obtain ⟨tr, s, hpath, hs⟩ := RuntimeState.exists_path_of_runsTo sqliteRuntimeStore
    (.initial sampleAuthority) bothDispatching
    (fun _ s => decide (s.effects.tables.expiredCount 1000 = 2)) (by decide +kernel)
  have hcount : s.effects.tables.expiredCount 1000 = 2 := of_decide_eq_true hs
  have hreachable : (runtime (unreachableWorker 1000).hooks).Reachable s :=
    hpath.reachable (.init ⟨_, rfl⟩)
  have hdrains := h (unreachableWorker 1000) sampleContext sampleRecoveryPorts s 0 hreachable
    fun _ _ _ => le_rfl
  rw [show (unreachableWorker 1000).clock 0 = 1000 from rfl, hcount] at hdrains
  have hnew := (drains_iff hreachable (fun _ => le_rfl) hcount).mp hdrains
  exact (hnew 1 (by omega)).2 0 (by omega) rfl

end DigitalColleagues
