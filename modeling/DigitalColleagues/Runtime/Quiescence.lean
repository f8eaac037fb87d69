import DigitalColleagues.Runtime.Discovery
import DigitalColleagues.Runtime.Fencing
import DigitalColleagues.Runtime.Reconciliation
import DigitalColleagues.Runtime.Worker

/-!
# Quiescence of the worker

A cycle of the worker that leaves the store as it was claimed nothing: every
claim raises a token for good. What it passes over is what its claims do not
look at, the dispatches that a crashed worker left behind.

## Main definitions

- `WorkLeft` — rows with work left that is due
- `RuntimeStore.LeasesExpired` — no lease is running any more
- `AgendaTables.Leased` — which rows can be claimed again

## Main results

- `processOnce_eq_idle` — a cycle that finds nothing returns and changes nothing
- `quiescent_iff` — when a cycle that changed nothing leaves nothing to do
- `quiescent_with_work_left` — an abandoned dispatch
-/

namespace DigitalColleagues

open Keyed AgendaTables

-- ════════════════════════════════════════════════════════════════════════
-- Leases
-- ════════════════════════════════════════════════════════════════════════

/-- A claimed trigger has a lease that can run out. -/
def TriggerRow.Leased (row : TriggerRow) : Prop := row.state = .claimed → row.leaseUntil ≠ none

/-- A row that is not handled is pending or selected, and a selected one has a
    lease that can run out. -/
structure AgendaRow.Leased (row : AgendaRow) : Prop where
  lease : row.state = .selected → row.leaseUntil ≠ none
  unhandled : row.handledGeneration < row.generation → row.state = .pending ∨ row.state = .selected

structure AgendaTables.Leased (s : AgendaTables) : Prop where
  triggers : ∀ type, ∀ row ∈ s.triggerTable type, row.Leased
  agenda : ∀ row ∈ s.agendaRuntime, row.Leased

namespace AgendaRow

theorem leased_newRow (claim : TriggerClaim) (source : TriggerSource)
    (wakeCycleId agendaItemId : StableId) :
    (newRow claim source wakeCycleId agendaItemId).Leased :=
  ⟨fun h => absurd h (by simp [newRow]), fun _ => .inl rfl⟩

theorem leased_coalescedRow {row : AgendaRow} (h : row.Leased) (claim : TriggerClaim)
    (wakeCycleId : StableId) : (coalescedRow claim wakeCycleId row).Leased := by
  by_cases hselected : row.state = .selected
  · exact ⟨fun _ => h.lease hselected, fun _ => .inr (by simp [coalescedRow, coalescedState, hselected])⟩
  · have hpending : (coalescedRow claim wakeCycleId row).state = .pending := by
      simp [coalescedRow, coalescedState, hselected]
    exact ⟨fun hstate => absurd (hpending.symm.trans hstate) (by simp), fun _ => .inl hpending⟩

theorem leased_passOver {row : AgendaRow} (h : row.Leased) (selected : StableId) :
    (row.passOver selected).Leased := by
  unfold passOver
  split
  · exact ⟨h.lease, h.unhandled⟩
  · exact h

theorem leased_select (row : AgendaRow) (owner : StableId) (leaseUntil : Instant) :
    (row.select owner leaseUntil).Leased :=
  ⟨fun _ => by simp [select], fun _ => .inr rfl⟩

theorem leased_release (row : AgendaRow) : row.release.Leased :=
  ⟨fun h => absurd h (by simp [release]), fun _ => .inl rfl⟩

/-- The checkpoint of an older generation leaves the row pending, that of the
    present one leaves it handled. -/
theorem leased_checkpoint (row : AgendaRow) (claimedGeneration : ℕ) :
    (row.checkpoint claimedGeneration).Leased := by
  by_cases hlt : claimedGeneration < row.generation
  · have hpending : (row.checkpoint claimedGeneration).state = .pending := by
      simp [checkpoint, hlt]
    exact ⟨fun h => absurd (hpending.symm.trans h) (by simp), fun _ => .inl hpending⟩
  · refine ⟨fun h => absurd h (by simp [checkpoint, hlt]), fun hunhandled => ?_⟩
    have hmax : max row.handledGeneration claimedGeneration < row.generation := hunhandled
    omega

end AgendaRow

namespace AgendaTables.Leased

variable {s : AgendaTables}

theorem setTriggerTable (h : s.Leased) (type : SourceRecordType) {t : Table TriggerRow}
    (ht : ∀ row ∈ t, row.Leased) : (s.setTriggerTable type t).Leased := by
  refine ⟨fun type' row hrow => ?_, by simpa using h.agenda⟩
  by_cases htype : type' = type
  · subst htype
    rw [triggerTable_setTriggerTable_self] at hrow
    exact ht row hrow
  · rw [triggerTable_setTriggerTable_of_ne htype] at hrow
    exact h.triggers type' row hrow

theorem completeTrigger (h : s.Leased) (claim : TriggerClaim) (trigger : TriggerRow) :
    (s.completeTrigger claim trigger).Leased :=
  h.setTriggerTable claim.sourceRecordType (Table.forall_replace (h.triggers _)
    fun hstate => absurd hstate (by simp [TriggerRow.complete]))

end AgendaTables.Leased

theorem AgendaSide.leased_move {C : AgendaRow → AgendaClaim → Prop} {s t : AgendaSide}
    (h : s.tables.Leased) (hm : Move C s t) : t.tables.Leased := by
  cases hm with
  | idle => exact h
  | @ingest tables type trigger hruntime _ _ hpending _ hinsert hother =>
    refine ⟨fun type' row hrow => ?_, hruntime ▸ h.agenda⟩
    by_cases htype : type' = type
    · subst htype
      rcases (Table.mem_insert hinsert).mp hrow with hold | rfl
      · exact h.triggers type' row hold
      · exact fun hstate => absurd (hpending.symm.trans hstate) (by simp)
    · rw [hother type' htype] at hrow
      exact h.triggers type' row hrow
  | claimTrigger =>
    exact h.setTriggerTable _ (Table.forall_replace (h.triggers _) fun _ => by
      simp [TriggerRow.claim])
  | create _ _ _ _ _ _ hinsert =>
    apply Leased.completeTrigger
    refine ⟨h.triggers, fun row hrow => ?_⟩
    rcases (Table.mem_insert hinsert).mp hrow with hold | rfl
    · exact h.agenda row hold
    · exact AgendaRow.leased_newRow _ _ _ _
  | coalesce _ _ _ _ hcurrent =>
    apply Leased.completeTrigger
    exact ⟨h.triggers, Table.forall_replace h.agenda
      (AgendaRow.leased_coalescedRow (h.agenda _ (Table.mem_of_find? hcurrent)) _ _)⟩
  | @select selected _ _ _ owner _ leaseUntil =>
    have hpassed : ∀ row ∈ AgendaRow.passOverAll s.tables.agendaRuntime selected.agendaItemId,
        row.Leased := by
      intro row hrow
      obtain ⟨old, hold, rfl⟩ := Table.mem_update.mp hrow
      exact AgendaRow.leased_passOver (h.agenda old hold) _
    exact ⟨h.triggers, Table.forall_replace hpassed (selected.leased_select owner leaseUntil)⟩
  | @release _ row =>
    exact ⟨h.triggers, Table.forall_replace h.agenda row.leased_release⟩
  | @checkpoint claim row =>
    exact ⟨h.triggers, Table.forall_replace h.agenda (row.leased_checkpoint _)⟩

theorem leased_of_reachable {ε : Type} {hooks : StoreHooks ε} {s : RuntimeState ε}
    (h : (runtime hooks).Reachable s) : s.agenda.tables.Leased :=
  agenda_invariant (I := fun s => s.tables.Leased)
    ⟨fun type row hrow => by cases type <;> exact absurd hrow (Table.not_mem_empty row),
      fun row hrow => absurd hrow (Table.not_mem_empty row)⟩
    (fun _ _ hs hstep => AgendaSide.leased_move hs hstep.move) h

-- ════════════════════════════════════════════════════════════════════════
-- What a claim changes for good
-- ════════════════════════════════════════════════════════════════════════

/-- No token falls between two states of a run. -/
structure TokensRise {ε : Type} (s t : RuntimeState ε) : Prop where
  triggers : Rises s.agenda.tables.triggerTokens t.agenda.tables.triggerTokens
  agenda : Rises s.agenda.tables.agendaTokens t.agenda.tables.agendaTokens
  outbox : Rises s.effects.tables.outboxTokens t.effects.tables.outboxTokens

theorem tokensRise_of_path {ε : Type} {hooks : StoreHooks ε} {s t : RuntimeState ε}
    {tr : List (Transition (RuntimeState ε) (RuntimeAction ε))}
    (h : (runtime hooks).Path s tr t) : TokensRise s t := by
  refine h.rel (R := TokensRise) (fun s => ⟨.refl _, .refl _, .refl _⟩) ?_ ?_
  · exact fun s t u hst htu => ⟨hst.triggers.trans htu.triggers, hst.agenda.trans htu.agenda,
      hst.outbox.trans htu.outbox⟩
  · intro s a t hstep
    have hmove := (RuntimeState.agenda_step hstep (commitsWhen_true s a)).move
    exact ⟨AgendaSide.rises_triggerTokens hmove, AgendaSide.rises_agendaTokens hmove,
      EffectTables.rises_outboxTokens (RuntimeState.effects_move hstep)⟩

namespace AgendaTables

variable {s t u : AgendaTables}

theorem ne_of_claimTrigger {owner : StableId} {now leaseUntil : Instant} {claim : TriggerClaim}
    (h : s.claimTrigger owner now leaseUntil = some (claim, t))
    (hrises : Rises t.triggerTokens u.triggerTokens) : u ≠ s := by
  rintro rfl
  obtain ⟨type, row, hrow, _, _, rfl⟩ := claimTrigger_eq_some h
  have hnew : (u.setTriggerTable type ((u.triggerTable type).replace
      (row.claim owner leaseUntil))).triggerTokens (type, row.triggerId) =
        some (row.fencingToken + 1) := by
    refine triggerTokens_eq_some (r := row.claim owner leaseUntil) ?_
    rw [triggerTable_setTriggerTable_self]
    exact Table.find?_replace_self (r := row.claim owner leaseUntil) hrow
  exact hrises.ne_of_raised hnew (Nat.lt_succ_self _) (triggerTokens_eq_some hrow)

theorem ne_of_claimAgenda {owner : StableId} {now leaseUntil : Instant} {claim : AgendaClaim}
    (h : s.claimAgenda owner now leaseUntil = .ok (some claim, t))
    (hrises : Rises t.agendaTokens u.agendaTokens) : u ≠ s := by
  rintro rfl
  rcases claimAgenda_eq_ok h with ⟨_, hnone, _⟩ | ⟨row, _, _, _, hnext, _, _, _, _, rfl⟩
  · exact absurd hnone (by simp)
  · have hrow := Table.find?_of_mem (Table.selectMin_mem hnext).1
    have hpassed : (AgendaRow.passOverAll u.agendaRuntime row.agendaItemId).find?
        row.agendaItemId = some row := by
      rw [AgendaRow.find?_passOverAll, show u.agendaRuntime.find? row.agendaItemId = some row from
        hrow, Option.map_some, AgendaRow.passOver_self]
    have hnew := Table.find?_replace_self (r := row.select owner leaseUntil) hpassed
    exact hrises.ne_of_raised (agendaTokens_eq_some hnew) (Nat.lt_succ_self _)
      (agendaTokens_eq_some hrow)

end AgendaTables

theorem EffectTables.ne_of_claimOutboxState {s t u : EffectTables} {owner : StableId}
    {now leaseUntil : Instant} {sourceStates : List OutboxState} {targetState : OutboxState}
    {excludeStopped : Bool} {claim : OutboxClaim}
    (h : s.claimOutboxState owner now leaseUntil sourceStates targetState excludeStopped =
      some (claim, t)) (hrises : Rises t.outboxTokens u.outboxTokens) : u ≠ s := by
  rintro rfl
  obtain ⟨row, hrow, _, _, rfl⟩ := claimOutboxState_eq_some h
  have hnew := Table.find?_replace_self (r := row.claim targetState owner leaseUntil) hrow
  exact hrises.ne_of_raised (Table.tokenOf_eq_some hnew) (Nat.lt_succ_self _)
    (Table.tokenOf_eq_some hrow)

-- ════════════════════════════════════════════════════════════════════════
-- A cycle that changed nothing
-- ════════════════════════════════════════════════════════════════════════

section Cycle

variable {ε : Type} {w : Worker ε} {context : ServiceRuntimeContext} {s t : WorkerState ε}
  {u : RuntimeState ε} {tr : List (Transition (RuntimeState ε) (RuntimeAction ε))}

open Worker

/-- The four claims of a cycle that starts at the `n`-th reading of the clock. -/
structure FindsNothing (w : Worker ε) (s : RuntimeStore ε) (n : ℕ) : Prop where
  trigger : s.agenda.claimTrigger WakeService.ownerId (w.clock n) (w.clock n + leaseDuration) = none
  agenda : s.agenda.nextAgenda (w.clock (n + 1)) = none
  ambiguous : s.effects.claimAmbiguous DispatchService.ownerId (w.clock (n + 2))
    (w.clock (n + 2) + leaseDuration) = none
  outbox : s.effects.claimOutbox DispatchService.ownerId (w.clock (n + 3))
    (w.clock (n + 3) + leaseDuration) = none

instance (w : Worker ε) (s : RuntimeStore ε) (n : ℕ) : Decidable (FindsNothing w s n) :=
  decidable_of_iff
    (((s.agenda.claimTrigger WakeService.ownerId (w.clock n)
          (w.clock n + leaseDuration)).isNone ∧ s.agenda.nextAgenda (w.clock (n + 1)) = none) ∧
      (s.effects.claimAmbiguous DispatchService.ownerId (w.clock (n + 2))
          (w.clock (n + 2) + leaseDuration)).isNone ∧
      (s.effects.claimOutbox DispatchService.ownerId (w.clock (n + 3))
          (w.clock (n + 3) + leaseDuration)).isNone)
    (by
      simp only [Option.isNone_iff_eq_none]
      exact ⟨fun h => ⟨h.1.1, h.1.2, h.2.1, h.2.2⟩,
        fun h => ⟨⟨h.trigger, h.agenda⟩, h.ambiguous, h.outbox⟩⟩)

theorem materializeNext_unchanged {b : Bool}
    (h : WakeService.materializeNext w context s = (.ok b, t))
    (hpath : (runtime w.hooks).Path t.runtime tr u) (hsame : u.store = s.runtime.store) :
    s.runtime.agenda.tables.claimTrigger WakeService.ownerId (w.clock s.clockReads)
        (w.clock s.clockReads + leaseDuration) = none ∧
      b = false ∧ t = ⟨s.runtime, s.clockReads + 1⟩ := by
  unfold WakeService.materializeNext at h
  simp only [Process.bind_eq_ok, now_eq_ok] at h
  obtain ⟨_, _, ⟨rfl, rfl⟩, claim, v, hclaim, hrest⟩ := h
  rcases claimTrigger_eq_ok hclaim with ⟨rfl, hnone, rfl⟩ | ⟨issued, tables, rfl, hissued, rfl⟩
  · simp only [Process.pure_apply, Prod.mk.injEq, Except.ok.injEq] at hrest
    exact ⟨hnone, hrest.1.symm, hrest.2.symm⟩
  · obtain ⟨tr', htr'⟩ :=
      ((WakeService.follows_materializeClaim w.wakeActions_all _ _).of_eq hrest).exists_path
    have hrises := (tokensRise_of_path (htr'.append hpath)).triggers
    exact absurd (congrArg RuntimeStore.agenda hsame) (ne_of_claimTrigger hissued hrises)

theorem wakeLoop_unchanged {remaining selected n : ℕ}
    (h : WakeService.wakeLoop w context (remaining + 1) selected s = (.ok n, t))
    (hpath : (runtime w.hooks).Path t.runtime tr u) (hsame : u.store = s.runtime.store) :
    s.runtime.agenda.tables.nextAgenda (w.clock s.clockReads) = none ∧ n = selected ∧
      t = ⟨s.runtime, s.clockReads + 1⟩ := by
  unfold WakeService.wakeLoop at h
  simp only [Process.bind_eq_ok, now_eq_ok] at h
  obtain ⟨_, _, ⟨rfl, rfl⟩, claim, v, hclaim, hrest⟩ := h
  rcases claimAgenda_eq_ok hclaim with ⟨rfl, hnone, rfl⟩ | ⟨issued, tables, rfl, hissued, rfl⟩
  · simp only [Process.pure_apply, Prod.mk.injEq, Except.ok.injEq] at hrest
    exact ⟨hnone, hrest.1.symm, hrest.2.symm⟩
  · have hfollows : w.Follows (fun _ _ => True)
        (WakeService.processItem w context issued (w.clock s.clockReads) >>=
          fun _ => WakeService.wakeLoop w context remaining (selected + 1)) :=
      (WakeService.follows_processItem w.wakeActions_all _ _).bind fun _ =>
        WakeService.follows_wakeLoop w.wakeActions_all _ _
    obtain ⟨tr', htr'⟩ := (hfollows.of_eq hrest).exists_path
    have hrises := (tokensRise_of_path (htr'.append hpath)).agenda
    exact absurd (congrArg RuntimeStore.agenda hsame) (ne_of_claimAgenda hissued hrises)

theorem reconcileOnce_unchanged {result : DispatchResult}
    (h : DispatchService.reconcileOnce w context s = (.ok result, t))
    (hpath : (runtime w.hooks).Path t.runtime tr u) (hsame : u.store = s.runtime.store) :
    s.runtime.effects.tables.claimAmbiguous DispatchService.ownerId (w.clock s.clockReads)
        (w.clock s.clockReads + leaseDuration) = none ∧
      result = ⟨false, none, none⟩ ∧ t = ⟨s.runtime, s.clockReads + 1⟩ := by
  unfold DispatchService.reconcileOnce at h
  simp only [Process.bind_eq_ok, now_eq_ok] at h
  obtain ⟨_, _, ⟨rfl, rfl⟩, claim, v, hclaim, hrest⟩ := h
  rcases claimAmbiguous_eq_ok hclaim with ⟨rfl, hnone, rfl⟩ | ⟨issued, tables, rfl, hissued, rfl⟩
  · simp only [Process.pure_apply, Prod.mk.injEq, Except.ok.injEq] at hrest
    exact ⟨hnone, hrest.1.symm, hrest.2.symm⟩
  · obtain ⟨tr', htr'⟩ :=
      ((DispatchService.follows_reconcileClaim w.effectActions_all _).of_eq hrest).exists_path
    have hrises := (tokensRise_of_path (htr'.append hpath)).outbox
    exact absurd (congrArg RuntimeStore.effects hsame)
      (EffectTables.ne_of_claimOutboxState hissued hrises)

theorem dispatchOnce_unchanged {result : DispatchResult}
    (h : DispatchService.dispatchOnce w context s = (.ok result, t))
    (hsame : t.runtime.store = s.runtime.store) :
    s.runtime.effects.tables.claimOutbox DispatchService.ownerId (w.clock s.clockReads)
        (w.clock s.clockReads + leaseDuration) = none ∧
      result = ⟨false, none, none⟩ ∧ t = ⟨s.runtime, s.clockReads + 1⟩ := by
  unfold DispatchService.dispatchOnce at h
  simp only [Process.bind_eq_ok, now_eq_ok] at h
  obtain ⟨_, _, ⟨rfl, rfl⟩, claim, v, hclaim, hrest⟩ := h
  rcases claimOutbox_eq_ok hclaim with ⟨rfl, hnone, rfl⟩ | ⟨issued, tables, rfl, hissued, rfl⟩
  · simp only [Process.pure_apply, Prod.mk.injEq, Except.ok.injEq] at hrest
    exact ⟨hnone, hrest.1.symm, hrest.2.symm⟩
  · obtain ⟨tr', htr'⟩ :=
      ((DispatchService.follows_dispatchClaim w.effectActions_all _ _).of_eq hrest).exists_path
    have hrises := (tokensRise_of_path htr').outbox
    exact absurd (congrArg RuntimeStore.effects hsame)
      (EffectTables.ne_of_claimOutboxState hissued hrises)

/-- **Idle cycles**: a cycle that returns and leaves the store as it was is one
    whose context is current and whose claims find nothing. -/
theorem processOnce_unchanged {report : ProcessReport}
    (h : P4RuntimeController.processOnce w context s = (.ok report, t))
    (hsame : t.runtime.store = s.runtime.store) :
    w.resolveRuntimeContext s.runtime.rest = .ok context ∧
      FindsNothing w s.runtime.store s.clockReads := by
  simp only [P4RuntimeController.processOnce, Process.bind_eq_ok, serviceContext, read_eq_ok,
    check_eq_ok, WakeService.run, Process.pure_apply, Prod.mk.injEq] at h
  obtain ⟨_, _, ⟨hcontext, rfl⟩, _, _, ⟨rfl, rfl⟩, b, s₁, hmaterialize, run, s₂,
    ⟨n, _, hloop, pending, _, ⟨_, rfl⟩, _, rfl⟩, reconciled, s₃, hreconcile, dispatched, s₄,
    hdispatch, _, rfl⟩ := h
  obtain ⟨tr₄, htr₄⟩ :=
    ((DispatchService.follows_dispatchOnce w.effectActions_all).of_eq hdispatch).exists_path
  obtain ⟨tr₃, htr₃⟩ :=
    ((DispatchService.follows_reconcileOnce w.effectActions_all).of_eq hreconcile).exists_path
  obtain ⟨tr₂, htr₂⟩ :=
    ((WakeService.follows_wakeLoop w.wakeActions_all _ _).of_eq hloop).exists_path
  obtain ⟨htrigger, _, rfl⟩ := materializeNext_unchanged hmaterialize
    (htr₂.append (htr₃.append htr₄)) hsame
  obtain ⟨hagenda, _, rfl⟩ := wakeLoop_unchanged hloop (htr₃.append htr₄) hsame
  obtain ⟨hambiguous, _, rfl⟩ := reconcileOnce_unchanged hreconcile htr₄ hsame
  obtain ⟨houtbox, _, _⟩ := dispatchOnce_unchanged hdispatch hsame
  exact ⟨hcontext, htrigger, hagenda, hambiguous, houtbox⟩

theorem materializeNext_idle (h : s.runtime.agenda.tables.claimTrigger WakeService.ownerId
    (w.clock s.clockReads) (w.clock s.clockReads + leaseDuration) = none) :
    WakeService.materializeNext w context s = (.ok false, ⟨s.runtime, s.clockReads + 1⟩) := by
  have hclaim : w.claimTrigger WakeService.ownerId (w.clock s.clockReads)
      (w.clock s.clockReads + leaseDuration) ⟨s.runtime, s.clockReads + 1⟩ =
        (.ok none, ⟨s.runtime, s.clockReads + 1⟩) :=
    transact_eq_ok.mpr ⟨s.runtime, by simp [RuntimeState.exec, AgendaSide.exec, h],
      by simp [h], rfl⟩
  unfold WakeService.materializeNext
  rw [Process.bind_of_ok (now_eq_ok.mpr ⟨rfl, rfl⟩), Process.bind_of_ok hclaim]
  rfl

theorem wakeLoop_idle {remaining selected : ℕ}
    (h : s.runtime.agenda.tables.nextAgenda (w.clock s.clockReads) = none) :
    WakeService.wakeLoop w context (remaining + 1) selected s =
      (.ok selected, ⟨s.runtime, s.clockReads + 1⟩) := by
  have hnone : s.runtime.agenda.tables.claimAgenda WakeService.ownerId (w.clock s.clockReads)
      (w.clock s.clockReads + leaseDuration) = .ok (none, s.runtime.agenda.tables) := by
    simp [AgendaTables.claimAgenda, h]
  have hclaim : w.claimAgenda WakeService.ownerId (w.clock s.clockReads)
      (w.clock s.clockReads + leaseDuration) ⟨s.runtime, s.clockReads + 1⟩ =
        (.ok none, ⟨s.runtime, s.clockReads + 1⟩) :=
    transact_eq_ok.mpr ⟨s.runtime,
      by simp [RuntimeState.exec, AgendaSide.exec, hnone],
      by simp [hnone, Except.map], rfl⟩
  unfold WakeService.wakeLoop
  rw [Process.bind_of_ok (now_eq_ok.mpr ⟨rfl, rfl⟩), Process.bind_of_ok hclaim]
  rfl

theorem reconcileOnce_idle (h : s.runtime.effects.tables.claimAmbiguous DispatchService.ownerId
    (w.clock s.clockReads) (w.clock s.clockReads + leaseDuration) = none) :
    DispatchService.reconcileOnce w context s =
      (.ok ⟨false, none, none⟩, ⟨s.runtime, s.clockReads + 1⟩) := by
  have hclaim : w.claimAmbiguous DispatchService.ownerId (w.clock s.clockReads)
      (w.clock s.clockReads + leaseDuration) ⟨s.runtime, s.clockReads + 1⟩ =
        (.ok none, ⟨s.runtime, s.clockReads + 1⟩) :=
    transact_eq_ok.mpr ⟨s.runtime, by simp [RuntimeState.exec, EffectSide.exec, h],
      by simp [h], rfl⟩
  unfold DispatchService.reconcileOnce
  rw [Process.bind_of_ok (now_eq_ok.mpr ⟨rfl, rfl⟩), Process.bind_of_ok hclaim]
  rfl

theorem dispatchOnce_idle (h : s.runtime.effects.tables.claimOutbox DispatchService.ownerId
    (w.clock s.clockReads) (w.clock s.clockReads + leaseDuration) = none) :
    DispatchService.dispatchOnce w context s =
      (.ok ⟨false, none, none⟩, ⟨s.runtime, s.clockReads + 1⟩) := by
  have hclaim : w.claimOutbox DispatchService.ownerId (w.clock s.clockReads)
      (w.clock s.clockReads + leaseDuration) ⟨s.runtime, s.clockReads + 1⟩ =
        (.ok none, ⟨s.runtime, s.clockReads + 1⟩) :=
    transact_eq_ok.mpr ⟨s.runtime, by simp [RuntimeState.exec, EffectSide.exec, h],
      by simp [h], rfl⟩
  unfold DispatchService.dispatchOnce
  rw [Process.bind_of_ok (now_eq_ok.mpr ⟨rfl, rfl⟩), Process.bind_of_ok hclaim]
  rfl

/-- A cycle whose claims find nothing returns and leaves the runtime as it was. -/
theorem processOnce_idle (hcontext : w.resolveRuntimeContext s.runtime.rest = .ok context)
    (h : FindsNothing w s.runtime.store s.clockReads) :
    ∃ report, P4RuntimeController.processOnce w context s =
      (.ok report, ⟨s.runtime, s.clockReads + 4⟩) := by
  have hrun : ∃ result, WakeService.run w context ⟨s.runtime, s.clockReads + 1⟩ =
      (.ok result, ⟨s.runtime, s.clockReads + 2⟩) :=
    ⟨_, Process.bind_eq_ok.mpr ⟨0, _, wakeLoop_idle h.agenda,
      Process.bind_eq_ok.mpr ⟨_, _, read_eq_ok.mpr ⟨rfl, rfl⟩, rfl⟩⟩⟩
  obtain ⟨result, hrun⟩ := hrun
  have hreconcile : DispatchService.reconcileOnce w context ⟨s.runtime, s.clockReads + 2⟩ =
      (.ok ⟨false, none, none⟩, ⟨s.runtime, s.clockReads + 3⟩) := reconcileOnce_idle h.ambiguous
  have hdispatch : DispatchService.dispatchOnce w context ⟨s.runtime, s.clockReads + 3⟩ =
      (.ok ⟨false, none, none⟩, ⟨s.runtime, s.clockReads + 4⟩) := dispatchOnce_idle h.outbox
  refine ⟨⟨false, result.selectedCount, result.decisionCount, result.pendingCount, false, none,
    false, none⟩, ?_⟩
  refine Process.bind_eq_ok.mpr ⟨context, s, read_eq_ok.mpr ⟨hcontext, rfl⟩, ?_⟩
  refine Process.bind_eq_ok.mpr ⟨(), s, check_eq_ok.mpr ⟨rfl, rfl⟩, ?_⟩
  refine Process.bind_eq_ok.mpr ⟨false, _, materializeNext_idle h.trigger, ?_⟩
  refine Process.bind_eq_ok.mpr ⟨result, _, hrun, ?_⟩
  refine Process.bind_eq_ok.mpr ⟨_, _, hreconcile, ?_⟩
  exact Process.bind_eq_ok.mpr ⟨_, _, hdispatch, rfl⟩

end Cycle

-- ════════════════════════════════════════════════════════════════════════
-- What is left to do
-- ════════════════════════════════════════════════════════════════════════

section Left

variable {ε : Type}

/-- A row that is due and not finished, other than one whose reconciliations
    have used up their budget. -/
inductive WorkLeft (s : RuntimeStore ε) (now : Instant) : Prop
  | trigger {type : SourceRecordType} {row : TriggerRow} : row ∈ s.agenda.triggerTable type →
      row.state = .pending ∨ row.state = .claimed → row.dueAt ≤ now → WorkLeft s now
  | agenda {row : AgendaRow} : row ∈ s.agenda.agendaRuntime →
      row.handledGeneration < row.generation → WorkLeft s now
  | effect {row : OutboxRow} : row ∈ s.effects.outbox →
      row.state ∈ [.pending, .retry, .claimed, .dispatching, .ambiguous, .ambiguousClaimed] →
      row.nextAttemptAt ≤ now → ¬(row.state = .ambiguous ∧ row.stopped = true) → WorkLeft s now

/-- Every lease has run out. -/
structure RuntimeStore.LeasesExpired (s : RuntimeStore ε) (now : Instant) : Prop where
  triggers : ∀ type, ∀ row ∈ s.agenda.triggerTable type, ∀ t ∈ row.leaseUntil, t < now
  agenda : ∀ row ∈ s.agenda.agendaRuntime, ∀ t ∈ row.leaseUntil, t < now
  effects : ∀ row ∈ s.effects.outbox, ∀ t ∈ row.leaseUntil, t < now

instance (s : RuntimeStore ε) (now : Instant) : Decidable (s.LeasesExpired now) :=
  decidable_of_iff
    (((∀ row ∈ s.agenda.triggers.rows, ∀ t ∈ row.leaseUntil, t < now) ∧
        ∀ row ∈ s.agenda.timerTriggers.rows, ∀ t ∈ row.leaseUntil, t < now) ∧
      (∀ row ∈ s.agenda.agendaRuntime.rows, ∀ t ∈ row.leaseUntil, t < now) ∧
      ∀ row ∈ s.effects.outbox.rows, ∀ t ∈ row.leaseUntil, t < now)
    (by
      constructor
      · rintro ⟨⟨hevents, htimers⟩, hagenda, heffects⟩
        refine ⟨fun type => ?_, hagenda, heffects⟩
        cases type
        · exact hevents
        · exact htimers
      · exact fun h => ⟨⟨h.triggers .inputEvent, h.triggers .timerOccurrence⟩, h.agenda, h.effects⟩)

theorem TriggerRow.claimable_of_expired {row : TriggerRow} (h : row.Leased) {now now' : Instant}
    (hexpired : ∀ t ∈ row.leaseUntil, t < now) (hstate : row.state = .pending ∨ row.state = .claimed)
    (hdue : row.dueAt ≤ now) (hle : now ≤ now') : row.claimable now' = true := by
  simp only [claimable, Bool.and_eq_true, decide_eq_true_eq, Bool.or_eq_true, Option.any_eq_true]
  refine ⟨hdue.trans hle, hstate.imp_right fun hclaimed => ⟨hclaimed, ?_⟩⟩
  obtain ⟨t, ht⟩ := Option.ne_none_iff_exists'.mp (h hclaimed)
  exact ⟨t, ht, (hexpired t ht).trans_le hle⟩

theorem AgendaRow.claimable_of_expired {row : AgendaRow} (h : row.Leased) {now now' : Instant}
    (hexpired : ∀ t ∈ row.leaseUntil, t < now)
    (hunhandled : row.handledGeneration < row.generation) (hle : now ≤ now') :
    row.claimable now' = true := by
  simp only [claimable, Bool.and_eq_true, decide_eq_true_eq, Bool.or_eq_true, Option.any_eq_true]
  refine ⟨hunhandled, (h.unhandled hunhandled).imp_right fun hselected => ⟨hselected, ?_⟩⟩
  obtain ⟨t, ht⟩ := Option.ne_none_iff_exists'.mp (h.lease hselected)
  exact ⟨t, ht, (hexpired t ht).trans_le hle⟩

/-- A due row in a state that the worker claims from is found by its claim. -/
theorem OutboxRow.eligible_of_expired {row : OutboxRow} {now now' : Instant}
    (hexpired : ∀ t ∈ row.leaseUntil, t < now) (hbounded : row.attemptNumber ≤ row.maximumAttempts)
    (hbudget : row.Budgeted) (hdue : row.nextAttemptAt ≤ now) (hle : now ≤ now')
    (hopen : ¬(row.state = .ambiguous ∧ row.stopped = true)) :
    (row.state ∈ [.pending, .retry, .claimed] →
      row.eligible now' [.pending, .retry, .claimed] false = true) ∧
    (row.state ∈ [.ambiguous, .ambiguousClaimed] →
      row.eligible now' [.ambiguous, .ambiguousClaimed] true = true) := by
  have hlease : ∀ t ∈ row.leaseUntil, t < now' := fun t ht => (hexpired t ht).trans_le hle
  refine ⟨fun hstate => eligible_iff.mpr ⟨hstate, hdue.trans hle, hlease, hbounded, by simp⟩,
    fun hstate => eligible_iff.mpr ⟨hstate, hdue.trans hle, hlease, hbounded, fun _ => ?_⟩⟩
  rcases List.mem_pair.mp hstate with hambiguous | hclaimed
  · exact Bool.eq_false_iff.mpr fun hstopped => hopen ⟨hambiguous, hstopped⟩
  · exact hbudget hclaimed

/-- **Quiescence.** In every reachable state whose leases have all run out, a cycle
    of the worker that returns and changes no durable state leaves nothing to do if
    and only if no due row was abandoned during its dispatch. -/
theorem quiescent_iff {w : Worker ε} {context : ServiceRuntimeContext} {s t : WorkerState ε}
    (hreachable : (runtime w.hooks).Reachable s.runtime) {now : Instant}
    (hclock : ∀ n, now ≤ w.clock n) (hleases : s.runtime.store.LeasesExpired now)
    {report : ProcessReport} (hreturns : P4RuntimeController.processOnce w context s = (.ok report, t))
    (hsame : t.runtime.store = s.runtime.store) :
    ¬WorkLeft t.runtime.store now ↔
      ∀ row ∈ s.runtime.store.effects.outbox, row.state = .dispatching → now < row.nextAttemptAt := by
  obtain ⟨_, hnothing⟩ := processOnce_unchanged hreturns hsame
  rw [hsame]
  constructor
  · intro hleft row hrow hstate
    refine lt_of_not_ge fun hdue => hleft (.effect hrow (by simp [hstate]) hdue ?_)
    simp [hstate]
  · intro hdispatching hleft
    cases hleft with
    | @trigger type row hrow hstate hdue =>
      have hclaimable := TriggerRow.claimable_of_expired
        ((leased_of_reachable hreachable).triggers type row hrow) (hleases.triggers type row hrow)
        hstate hdue (hclock s.clockReads)
      exact claimTrigger_ne_none.mpr ⟨type, row, hrow, hclaimable⟩ hnothing.trigger
    | @agenda row hrow hunhandled =>
      have hclaimable := AgendaRow.claimable_of_expired
        ((leased_of_reachable hreachable).agenda row hrow) (hleases.agenda row hrow) hunhandled
        (hclock (s.clockReads + 1))
      exact nextAgenda_ne_none.mpr ⟨row, hrow, hclaimable⟩ hnothing.agenda
    | @effect row hrow hstate hdue hopen =>
      have heligible (n : ℕ) := OutboxRow.eligible_of_expired (hleases.effects row hrow)
        ((tracked_of_reachable hreachable).row row hrow).bounded
        (budgeted_of_reachable hreachable row hrow) hdue (hclock n) hopen
      by_cases hfound : row.state = .dispatching
      · exact absurd (hdispatching row hrow hfound) (not_lt_of_ge hdue)
      · by_cases hdispatch : row.state ∈ [.pending, .retry, .claimed]
        · exact claimOutboxState_ne_none.mpr ⟨row, hrow, (heligible _).1 hdispatch⟩ hnothing.outbox
        · refine claimOutboxState_ne_none.mpr ⟨row, hrow, (heligible _).2 ?_⟩ hnothing.ambiguous
          simp only [List.mem_cons, List.not_mem_nil, or_false] at hstate hdispatch ⊢
          tauto

end Left

-- ════════════════════════════════════════════════════════════════════════
-- Concrete cycles
-- ════════════════════════════════════════════════════════════════════════

def sampleContext : ServiceRuntimeContext where
  modelPrincipal := ⟨stableId "model-1", .model, [], 1, List.nodup_nil, no_roles .model⟩
  servicePrincipal := sampleWorker
  mandateId := stableId "mandate-1"
  mandateRevision := 1
  policy := none

/-- A worker at a fixed time whose providers are out of reach, for concrete cycles. -/
def unreachableWorker (now : Instant) : Worker AuthorityRecords where
  hooks := sqliteRuntimeStore
  clock _ := now
  derive parts :=
    if h : isStableId ("-".intercalate parts) = true then ⟨_, h⟩ else stableId "derived"
  safeDigest _ _ := 0
  deploymentIsActive _ := true
  resolveRuntimeContext _ := .ok sampleContext
  intelligence _ store _ := (.error (.adapter ⟨.timeout, "timeout", true⟩), store.rest)
  policyAuthorizer _ store _ _ := (.ok (), store.rest)
  channelApply _ _ := .ok ⟨.ambiguous, .empty, 0⟩
  channelReconcile _ _ _ := .ok ⟨.stillUnknown, .empty, 0⟩

/-- A cycle at time 1000 after the given run finds nothing, with all leases over. -/
def idleAfter (s : RuntimeState AuthorityRecords) : Bool :=
  decide (FindsNothing (unreachableWorker 1000) s.store 0) && decide (s.store.LeasesExpired 1000)

set_option maxRecDepth 8000 in
theorem quiescent_iff_dispatched : ∃ (s t : WorkerState AuthorityRecords) (report : ProcessReport),
    (runtime sqliteRuntimeStore).Reachable s.runtime ∧
    P4RuntimeController.processOnce (unreachableWorker 1000) sampleContext s = (.ok report, t) ∧
    t.runtime.store = s.runtime.store ∧ ¬WorkLeft t.runtime.store 1000 := by
  obtain ⟨tr, s, hpath, hs⟩ := RuntimeState.exists_path_of_runsTo sqliteRuntimeStore
    (.initial sampleAuthority)
    (sampleApproved ++ sampleDispatch 40 .succeeded (stableId "result-1") none)
    (fun _ s => idleAfter s && s.effects.tables.outbox.rows.all fun row =>
      decide (row.state ≠ .dispatching)) (by decide +kernel)
  simp only [idleAfter, Bool.and_eq_true, decide_eq_true_eq, List.all_eq_true] at hs
  obtain ⟨⟨hnothing, hleases⟩, hdispatching⟩ := hs
  have hreachable : (runtime (unreachableWorker 1000).hooks).Reachable s :=
    hpath.reachable (.init ⟨_, rfl⟩)
  have hidle : ∃ report, P4RuntimeController.processOnce (unreachableWorker 1000) sampleContext
      ⟨s, 0⟩ = (.ok report, ⟨s, 4⟩) := processOnce_idle rfl hnothing
  obtain ⟨report, hreturns⟩ := hidle
  refine ⟨⟨s, 0⟩, _, report, hreachable, hreturns, rfl, ?_⟩
  exact (quiescent_iff (s := ⟨s, 0⟩) hreachable (fun _ => le_rfl) hleases hreturns rfl).mpr
    fun row hrow hstate => absurd hstate (hdispatching row hrow)

set_option maxRecDepth 8000 in
/-- A worker that crashes while it dispatches: its lease runs out, the next cycle
    returns and changes nothing, and the effect is still neither done nor given up. -/
theorem quiescent_with_work_left :
    ∃ (s t : WorkerState AuthorityRecords) (report : ProcessReport),
      (runtime sqliteRuntimeStore).Reachable s.runtime ∧ s.runtime.store.LeasesExpired 1000 ∧
      P4RuntimeController.processOnce (unreachableWorker 1000) sampleContext s = (.ok report, t) ∧
      t.runtime.store = s.runtime.store ∧ WorkLeft t.runtime.store 1000 := by
  obtain ⟨tr, s, hpath, hs⟩ := RuntimeState.exists_path_of_runsTo sqliteRuntimeStore
    (.initial sampleAuthority)
    (sampleApproved ++ (sampleDispatch 40 .succeeded (stableId "result-1") none).take 2)
    (fun _ s => idleAfter s && s.effects.tables.outbox.rows.any fun row =>
      decide (row.state = .dispatching) && decide (row.nextAttemptAt ≤ 1000)) (by decide +kernel)
  simp only [idleAfter, Bool.and_eq_true, decide_eq_true_eq, List.any_eq_true] at hs
  obtain ⟨⟨hnothing, hleases⟩, row, hrow, hstate, hdue⟩ := hs
  have hidle : ∃ report, P4RuntimeController.processOnce (unreachableWorker 1000) sampleContext
      ⟨s, 0⟩ = (.ok report, ⟨s, 4⟩) := processOnce_idle rfl hnothing
  obtain ⟨report, hreturns⟩ := hidle
  refine ⟨⟨s, 0⟩, _, report, hpath.reachable (.init ⟨_, rfl⟩), hleases, hreturns, rfl, ?_⟩
  exact .effect hrow (by simp [hstate]) hdue (by simp [hstate])

end DigitalColleagues
