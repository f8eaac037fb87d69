import DigitalColleagues.Lib.Fencing
import DigitalColleagues.Runtime.AgendaSync
import DigitalColleagues.Runtime.EffectMoves

/-!
# Superseded claims

Triggers, agenda rows and outbox rows are claimed under a fencing token that
every claim raises and no other transaction lowers. A claim that was followed by
another one on its row is refused by every operation.

## Main definitions

- `AgendaTables.triggerTokens`, `AgendaTables.agendaTokens`,
  `EffectTables.outboxTokens` — the present tokens
- `AgendaRow.Continues` — what every step keeps of an agenda row
- `RuntimeState.ClaimsFenced` — the tokens of all claims handed out so far
- `RuntimeAction.claim?` — the claim that a transaction is made with
-/

namespace DigitalColleagues

open Keyed AgendaTables

/-- An operation that does not succeed raises. -/
theorem exists_error {α : Type} {x : Outcome α} (h : ∀ a, x ≠ .ok a) :
    ∃ failure, x = .error failure := by
  cases x with
  | ok a => exact absurd rfl (h a)
  | error failure => exact ⟨failure, rfl⟩

-- ════════════════════════════════════════════════════════════════════════
-- Tokens of triggers and agenda rows
-- ════════════════════════════════════════════════════════════════════════

/-- The trigger that a claim is on. -/
def TriggerClaim.resource (claim : TriggerClaim) : SourceRecordType × StableId :=
  (claim.sourceRecordType, claim.triggerId)

/-- The agenda item that a claim is on. -/
def AgendaClaim.resource (claim : AgendaClaim) : StableId := claim.agendaItem.agendaItemId

namespace AgendaTables

def triggerTokens (s : AgendaTables) (k : SourceRecordType × StableId) : Option ℕ :=
  (s.triggerTable k.1).tokenOf TriggerRow.fencingToken k.2

def agendaTokens (s : AgendaTables) : StableId → Option ℕ :=
  s.agendaRuntime.tokenOf AgendaRow.fencingToken

theorem triggerTokens_eq_some {s : AgendaTables} {type : SourceRecordType} {id : StableId}
    {r : TriggerRow} (h : (s.triggerTable type).find? id = some r) :
    s.triggerTokens (type, id) = some r.fencingToken :=
  Table.tokenOf_eq_some h

theorem agendaTokens_eq_some {s : AgendaTables} {id : StableId} {row : AgendaRow}
    (h : s.agendaRuntime.find? id = some row) : s.agendaTokens id = some row.fencingToken :=
  Table.tokenOf_eq_some h

/-- Tokens rise when they do so in one trigger table and the other stays. -/
theorem rises_triggerTokens {s t : AgendaTables} (type : SourceRecordType)
    (h : Rises ((s.triggerTable type).tokenOf TriggerRow.fencingToken)
      ((t.triggerTable type).tokenOf TriggerRow.fencingToken))
    (hother : ∀ type', type' ≠ type → t.triggerTable type' = s.triggerTable type') :
    Rises s.triggerTokens t.triggerTokens := by
  rintro ⟨type', id⟩ n hn
  by_cases htype : type' = type
  · subst htype
    exact h id n hn
  · refine ⟨n, ?_, le_rfl⟩
    rw [triggerTokens, hother type' htype]
    exact hn

/-- A trigger row written over keeps or raises its token. -/
theorem rises_setTriggerTable {s : AgendaTables} {type : SourceRecordType} (row row' : TriggerRow)
    (hrow : (s.triggerTable type).find? row'.triggerId = some row)
    (hle : row.fencingToken ≤ row'.fencingToken) :
    Rises s.triggerTokens
      (s.setTriggerTable type ((s.triggerTable type).replace row')).triggerTokens := by
  refine rises_triggerTokens type ?_ fun type' hne => triggerTable_setTriggerTable_of_ne hne
  rw [triggerTable_setTriggerTable_self]
  exact Table.rises_replace hrow hle

end AgendaTables

/-- What every step keeps of an agenda row: generations and the token never fall,
    and a row that is selected under the old token was so before, with nothing
    handled in between. -/
structure AgendaRow.Continues (row row' : AgendaRow) : Prop where
  generation : row.generation ≤ row'.generation
  handledGeneration : row.handledGeneration ≤ row'.handledGeneration
  fencingToken : row.fencingToken ≤ row'.fencingToken
  held : row'.fencingToken = row.fencingToken → row'.state = .selected →
    row.state = .selected ∧ row'.handledGeneration = row.handledGeneration

namespace AgendaRow

theorem Continues.refl (row : AgendaRow) : row.Continues row :=
  ⟨le_rfl, le_rfl, le_rfl, fun _ hstate => ⟨hstate, rfl⟩⟩

theorem continues_passOver (selected : StableId) (row : AgendaRow) :
    row.Continues (row.passOver selected) := by
  unfold passOver
  split
  · exact ⟨le_rfl, le_rfl, le_rfl, fun _ hstate => ⟨hstate, rfl⟩⟩
  · exact .refl row

theorem continues_select (row : AgendaRow) (owner : StableId) (leaseUntil : Instant) :
    row.Continues (row.select owner leaseUntil) :=
  ⟨le_rfl, le_rfl, Nat.le_succ _, fun htoken => absurd htoken (Nat.succ_ne_self _)⟩

theorem continues_release (row : AgendaRow) : row.Continues row.release :=
  ⟨le_rfl, le_rfl, le_rfl, fun _ hstate => absurd hstate (by simp [release])⟩

theorem continues_checkpoint (row : AgendaRow) (claimedGeneration : ℕ) :
    row.Continues (row.checkpoint claimedGeneration) := by
  refine ⟨le_rfl, le_max_left _ _, le_rfl, fun _ hstate => absurd hstate ?_⟩
  unfold checkpoint
  dsimp only
  split <;> simp

theorem continues_coalescedRow (claim : TriggerClaim) (wakeCycleId : StableId) (row : AgendaRow) :
    row.Continues (coalescedRow claim wakeCycleId row) := by
  refine ⟨Nat.le_succ _, le_rfl, le_rfl, fun _ hstate => ⟨?_, rfl⟩⟩
  have hcoalesced : coalescedState row = .selected := hstate
  unfold coalescedState at hcoalesced
  split at hcoalesced
  · assumption
  · exact absurd hcoalesced (by simp)

end AgendaRow

namespace AgendaSide

variable {C : AgendaRow → AgendaClaim → Prop} {s t : AgendaSide}

/-- A row written over by one that continues it; the others stay. -/
theorem continues_replace {rows : Table AgendaRow} {row row' : AgendaRow} (h : row.Continues row')
    (hid : row'.agendaItemId = row.agendaItemId) (hrow : rows.find? row.agendaItemId = some row)
    (id : StableId) {x : AgendaRow} (hx : rows.find? id = some x) :
    ∃ x', (rows.replace row').find? id = some x' ∧ x.Continues x' := by
  by_cases hk : id = row'.agendaItemId
  · subst hk
    rw [hid] at hx
    obtain rfl := Option.some.inj (hrow.symm.trans hx)
    exact ⟨row', Table.find?_replace_self (hid ▸ hrow), h⟩
  · exact ⟨x, (Table.find?_replace_of_ne hk).trans hx, .refl x⟩

/-- Every agenda row goes on. -/
theorem continues_move (hm : Move C s t) (id : StableId) {row : AgendaRow}
    (hrow : s.tables.agendaRuntime.find? id = some row) :
    ∃ row', t.tables.agendaRuntime.find? id = some row' ∧ row.Continues row' := by
  cases hm with
  | idle => exact ⟨row, hrow, .refl row⟩
  | ingest hruntime => exact ⟨row, hruntime ▸ hrow, .refl row⟩
  | claimTrigger => exact ⟨row, by simpa using hrow, .refl row⟩
  | create _ _ _ _ _ _ hinsert =>
    refine ⟨row, ?_, .refl row⟩
    simp only [completeTrigger, setTriggerTable_agendaRuntime]
    exact Table.find?_insert_of_some hinsert hrow
  | coalesce _ _ _ _ hcurrent =>
    simp only [completeTrigger, setTriggerTable_agendaRuntime]
    exact continues_replace (AgendaRow.continues_coalescedRow _ _ _) rfl hcurrent id hrow
  | @select selected _ _ _ owner _ leaseUntil _ hselected =>
    have hpassed : (AgendaRow.passOverAll s.tables.agendaRuntime selected.agendaItemId).find? id =
        some (row.passOver selected.agendaItemId) := by
      rw [AgendaRow.find?_passOverAll, hrow, Option.map_some]
    have hsource : (AgendaRow.passOverAll s.tables.agendaRuntime selected.agendaItemId).find?
        selected.agendaItemId = some selected := by
      rw [AgendaRow.find?_passOverAll, hselected, Option.map_some, AgendaRow.passOver_self]
    by_cases hid : id = selected.agendaItemId
    · subst hid
      obtain rfl := Option.some.inj (hrow.symm.trans hselected)
      exact ⟨row.select owner leaseUntil,
        Table.find?_replace_self (r := row.select owner leaseUntil) hsource,
        row.continues_select owner leaseUntil⟩
    · refine ⟨row.passOver selected.agendaItemId, ?_, row.continues_passOver _⟩
      exact (Table.find?_replace_of_ne (r := selected.select owner leaseUntil) hid).trans hpassed
  | release _ hclaim =>
    have hcurrent := Table.find?_of_mem (Table.mem_of_find? (requireAgendaClaim_eq_ok hclaim).1)
    exact continues_replace (AgendaRow.continues_release _) rfl hcurrent id hrow
  | checkpoint _ hclaim =>
    have hcurrent := Table.find?_of_mem (Table.mem_of_find? (requireAgendaClaim_eq_ok hclaim).1)
    exact continues_replace (AgendaRow.continues_checkpoint _ _) rfl hcurrent id hrow

theorem rises_agendaTokens (hm : Move C s t) :
    Rises s.tables.agendaTokens t.tables.agendaTokens := by
  intro id n hn
  obtain ⟨row, hrow, rfl⟩ := Option.map_eq_some_iff.mp hn
  obtain ⟨row', hrow', hcontinues⟩ := continues_move hm id hrow
  exact ⟨row'.fencingToken, agendaTokens_eq_some hrow', hcontinues.fencingToken⟩

/-- A completed trigger keeps its token. -/
theorem rises_completeTrigger {s tables : AgendaTables} {claim : TriggerClaim}
    {trigger : TriggerRow} (hsame : tables.triggerTable = s.triggerTable)
    (h : (s.triggerTable claim.sourceRecordType).find? claim.triggerId = some trigger) :
    Rises s.triggerTokens (tables.completeTrigger claim trigger).triggerTokens := by
  have htokens : s.triggerTokens = tables.triggerTokens := by
    funext k
    rw [triggerTokens, triggerTokens, hsame]
  have hid : trigger.triggerId = claim.triggerId := Table.key_of_find? h
  have hfind : (tables.triggerTable claim.sourceRecordType).find? trigger.complete.triggerId =
      some trigger := by
    rw [hsame, show trigger.complete.triggerId = claim.triggerId from hid]
    exact h
  rw [htokens]
  exact rises_setTriggerTable trigger trigger.complete hfind le_rfl

theorem rises_triggerTokens (hm : Move C s t) :
    Rises s.tables.triggerTokens t.tables.triggerTokens := by
  cases hm with
  | idle => exact .refl _
  | @ingest _ type _ _ _ _ _ _ hinsert hother =>
    exact AgendaTables.rises_triggerTokens type (Table.rises_insert hinsert) hother
  | @claimTrigger _ row owner leaseUntil hrow =>
    exact rises_setTriggerTable row (row.claim owner leaseUntil) hrow (Nat.le_succ _)
  | create _ htrigger =>
    exact rises_completeTrigger (funext fun type => by cases type <;> rfl) htrigger
  | coalesce _ htrigger =>
    exact rises_completeTrigger (funext fun type => by cases type <;> rfl) htrigger
  | select => exact .refl _
  | release => exact .refl _
  | checkpoint => exact .refl _

/-- The tokens of all claims that were handed out on this side. -/
structure ClaimsFenced (s : AgendaSide) : Prop where
  triggers : Fenced TriggerClaim.resource TriggerClaim.fencingToken s.tables.triggerTokens
    s.triggerClaims
  agenda : Fenced AgendaClaim.resource AgendaClaim.fencingToken s.tables.agendaTokens
    s.agendaClaims

theorem claimsFenced_move (h : s.ClaimsFenced) (hm : Move C s t) : t.ClaimsFenced := by
  have htriggers := h.triggers.mono (rises_triggerTokens hm)
  have hagenda := h.agenda.mono (rises_agendaTokens hm)
  have htriggersRise := rises_triggerTokens hm
  have hagendaRise := rises_agendaTokens hm
  cases hm with
  | @claimTrigger type row owner leaseUntil hrow =>
    refine ⟨h.triggers.issue htriggersRise (row.claimOf type owner leaseUntil)
      (triggerTokens_eq_some hrow) ?_ (Nat.lt_succ_self _), hagenda⟩
    refine Table.tokenOf_eq_some (r := row.claim owner leaseUntil) ?_
    show ((s.tables.setTriggerTable type _).triggerTable type).find? row.triggerId = _
    rw [triggerTable_setTriggerTable_self]
    exact Table.find?_replace_self (r := row.claim owner leaseUntil) hrow
  | @select row existing selected _ owner _ leaseUntil _ hrow hexisting hselected =>
    have hid : selected.agendaItemId = row.agendaItemId := by
      simp [hselected, agendaItemId_of_find? hexisting]
    have hsource : (AgendaRow.passOverAll s.tables.agendaRuntime row.agendaItemId).find?
        row.agendaItemId = some row := by
      rw [AgendaRow.find?_passOverAll, hrow, Option.map_some, AgendaRow.passOver_self]
    have hnew := Table.find?_replace_self (r := row.select owner leaseUntil) hsource
    refine ⟨htriggers, h.agenda.issue hagendaRise
      ⟨selected, owner, leaseUntil, row.fencingToken + 1, row.generation⟩ ?_ ?_
      (Nat.lt_succ_self row.fencingToken)⟩
    · rw [AgendaClaim.resource, hid]
      exact agendaTokens_eq_some hrow
    · rw [AgendaClaim.resource, hid]
      exact Table.tokenOf_eq_some hnew
  | _ => exact ⟨htriggers, hagenda⟩

end AgendaSide

-- ════════════════════════════════════════════════════════════════════════
-- Tokens of outbox rows
-- ════════════════════════════════════════════════════════════════════════

def EffectTables.outboxTokens (s : EffectTables) : StableId → Option ℕ :=
  s.outbox.tokenOf OutboxRow.fencingToken

/-- What every step keeps of an outbox row: the token never falls, and a row that
    is leased under the old token was so before, with the same binding. -/
structure OutboxRow.Continues (row row' : OutboxRow) : Prop where
  fencingToken : row.fencingToken ≤ row'.fencingToken
  held : row'.fencingToken = row.fencingToken → row'.leaseOwner ≠ none →
    row.leaseOwner ≠ none ∧ ∀ claim : OutboxClaim, claim.binds row → claim.binds row'

theorem OutboxRow.Continues.refl (row : OutboxRow) : row.Continues row :=
  ⟨le_rfl, fun _ howner => ⟨howner, fun _ hbinds => hbinds⟩⟩

namespace EffectTables

variable {s t : EffectTables}

theorem continues_replace (row row' : OutboxRow) (h : row.Continues row')
    (hid : row'.outboxId = row.outboxId) (hrow : s.outbox.find? row.outboxId = some row)
    (id : StableId) {x : OutboxRow} (hx : s.outbox.find? id = some x) :
    ∃ x', (s.outbox.replace row').find? id = some x' ∧ x.Continues x' := by
  by_cases hk : id = row'.outboxId
  · subst hk
    rw [hid] at hx
    obtain rfl := Option.some.inj (hrow.symm.trans hx)
    exact ⟨row', Table.find?_replace_self (hid ▸ hrow), h⟩
  · exact ⟨x, (Table.find?_replace_of_ne hk).trans hx, .refl x⟩

/-- Every outbox row goes on. -/
theorem continues_move {o : Option LastOutcome} (hm : Move s o t) (id : StableId)
    {row : OutboxRow} (hrow : s.outbox.find? id = some row) :
    ∃ row', t.outbox.find? id = some row' ∧ row.Continues row' := by
  cases hm with
  | idle => exact ⟨row, hrow, .refl row⟩
  | propose => exact ⟨row, hrow, .refl row⟩
  | decide hinsert =>
    obtain ⟨_, _, _, _, _, _, rfl⟩ := insertDecision_eq_ok hinsert
    exact ⟨row, hrow, .refl row⟩
  | approve _ hinsert henqueue =>
    obtain ⟨_, _, _, _, _, _, rfl⟩ := insertDecision_eq_ok hinsert
    obtain ⟨_, _, _, _, houtbox, rfl⟩ := enqueueAttempt_eq_ok henqueue
    exact ⟨row, Table.find?_insert_of_some houtbox hrow, .refl row⟩
  | @claim current target owner leaseUntil hcurrent =>
    refine continues_replace current (current.claim target owner leaseUntil)
      ⟨Nat.le_succ _, fun htoken => ?_⟩ rfl hcurrent id hrow
    exact absurd htoken (Nat.succ_ne_self _)
  | @start current _ _ _ hcurrent =>
    refine continues_replace current current.startDispatch
      ⟨le_rfl, fun _ howner => ⟨howner, fun _ hbinds => hbinds⟩⟩ rfl hcurrent id hrow
  | @unknown current nextAttemptAt _ outcome hcurrent =>
    refine continues_replace current (current.keepAmbiguous nextAttemptAt outcome)
      ⟨le_rfl, fun _ howner => absurd rfl howner⟩ rfl hcurrent id hrow
  | @settle current attempt _ outboxState _ occurredAt _ _ _ last actorPrincipalId hcurrent =>
    refine continues_replace current
      ({ current.settle outboxState attempt occurredAt last with
        actorPrincipalId := actorPrincipalId })
      ⟨le_rfl, fun _ howner => absurd rfl howner⟩ rfl hcurrent id hrow
  | @retry current attempt nextAttemptId actor occurredAt _ _ _ _ last actorPrincipalId hcurrent =>
    refine continues_replace current
      ({ current.settle .retry (retryAttempt attempt nextAttemptId actor occurredAt)
        occurredAt last with actorPrincipalId := actorPrincipalId })
      ⟨le_rfl, fun _ howner => absurd rfl howner⟩ rfl hcurrent id hrow

theorem rises_outboxTokens {o : Option LastOutcome} (hm : Move s o t) :
    Rises s.outboxTokens t.outboxTokens := by
  intro id n hn
  obtain ⟨row, hrow, rfl⟩ := Option.map_eq_some_iff.mp hn
  obtain ⟨row', hrow', hcontinues⟩ := continues_move hm id hrow
  exact ⟨row'.fencingToken, Table.tokenOf_eq_some hrow', hcontinues.fencingToken⟩

end EffectTables

namespace EffectSide

variable {s t : EffectSide}

/-- The tokens of all claims that were handed out on this side; a claim with the
    present token is bound to its row as long as the row is leased. -/
structure ClaimsFenced (s : EffectSide) : Prop where
  outbox : Fenced OutboxClaim.outboxId OutboxClaim.fencingToken s.tables.outboxTokens
    s.outboxClaims
  bound : ∀ claim ∈ s.outboxClaims, ∀ row, s.tables.outbox.find? claim.outboxId = some row →
    row.fencingToken = claim.fencingToken → row.leaseOwner ≠ none → claim.binds row

theorem ClaimsFenced.of_move {o : Option LastOutcome} (h : s.ClaimsFenced)
    (hm : s.tables.Move o t.tables) (hclaims : t.outboxClaims = s.outboxClaims) :
    t.ClaimsFenced where
  outbox := hclaims ▸ h.outbox.mono (EffectTables.rises_outboxTokens hm)
  bound claim hclaim row hrow htoken howner := by
    rw [hclaims] at hclaim
    obtain ⟨n, hn, hle⟩ := h.outbox.bounded claim hclaim
    obtain ⟨old, hold, rfl⟩ := Option.map_eq_some_iff.mp hn
    obtain ⟨row', hrow', hcontinues⟩ := EffectTables.continues_move hm _ hold
    obtain rfl := Option.some.inj (hrow.symm.trans hrow')
    have hsame : row.fencingToken = old.fencingToken :=
      le_antisymm (htoken ▸ hle) hcontinues.fencingToken
    obtain ⟨holder, hbinds⟩ := hcontinues.held hsame howner
    exact hbinds claim (h.bound claim hclaim old hold (hsame.symm.trans htoken) holder)

/-- A new claim is bound to the row that it was made of. -/
theorem ClaimsFenced.of_claim (h : s.ClaimsFenced) {owner : StableId} {now leaseUntil : Instant}
    {sourceStates : List OutboxState} {targetState : OutboxState} {excludeStopped : Bool}
    {claim : OutboxClaim} {tables : EffectTables}
    (hclaim : s.tables.claimOutboxState owner now leaseUntil sourceStates targetState
      excludeStopped = some (claim, tables))
    (hstates : ∀ state ∈ sourceStates, targetState.attemptState = state.attemptState) :
    ClaimsFenced { s with tables := tables, outboxClaims := s.outboxClaims ++ [claim] } := by
  have hm := EffectTables.move_of_claim hclaim hstates
  have hkept : ClaimsFenced { s with tables := tables } := h.of_move hm rfl
  obtain ⟨row, hrow, _, rfl, rfl⟩ := EffectTables.claimOutboxState_eq_some hclaim
  have hnew : (s.tables.outbox.replace (row.claim targetState owner leaseUntil)).find?
      row.outboxId = some (row.claim targetState owner leaseUntil) :=
    Table.find?_replace_self (r := row.claim targetState owner leaseUntil) hrow
  refine ⟨h.outbox.issue (EffectTables.rises_outboxTokens hm) _ (n := row.fencingToken) ?_ ?_
    (Nat.lt_succ_self _), fun c hc x hx htoken howner => ?_⟩
  · exact Table.tokenOf_eq_some hrow
  · exact Table.tokenOf_eq_some hnew
  · rcases List.mem_append.mp hc with hold | hc
    · exact hkept.bound c hold x hx htoken howner
    · obtain rfl := List.mem_singleton.mp hc
      obtain rfl := Option.some.inj (hnew.symm.trans hx)
      exact ⟨rfl, rfl, rfl, rfl, rfl, rfl, rfl, rfl⟩

theorem claimsFenced_exec {a : EffectAction} (h : s.ClaimsFenced) (hexec : s.exec a = .ok t) :
    t.ClaimsFenced := by
  have hm := EffectSide.exec_move (ε := Unit) hexec
  cases a with
  | claimOutbox owner now leaseUntil =>
    simp only [exec] at hexec
    split at hexec
    · obtain rfl := Except.ok.inj hexec
      exact h
    · rename_i hclaim
      obtain rfl := Except.ok.inj hexec
      exact h.of_claim hclaim (by simp [OutboxState.attemptState])
  | claimAmbiguous owner now leaseUntil =>
    simp only [exec] at hexec
    split at hexec
    · obtain rfl := Except.ok.inj hexec
      exact h
    · rename_i hclaim
      obtain rfl := Except.ok.inj hexec
      exact h.of_claim hclaim (by simp [OutboxState.attemptState])
  | markDispatchStarted claim occurredAt =>
    simp only [exec, bind_eq_ok, pure_eq_ok, Prod.exists] at hexec
    obtain ⟨_, _, _, _, _, rfl⟩ := hexec
    exact h.of_move hm rfl
  | channelApply attempt =>
    simp only [exec, bind_eq_ok, pure_eq_ok] at hexec
    obtain ⟨_, _, rfl⟩ := hexec
    exact h.of_move hm rfl
  | finalizeDispatch claim outcome fin =>
    simp only [exec, bind_eq_ok, pure_eq_ok, Prod.exists] at hexec
    obtain ⟨_, _, _, _, _, rfl⟩ := hexec
    exact h.of_move hm rfl
  | recoverExpiredDispatches now resultActor resultId resultDigest =>
    simp only [exec, bind_eq_ok, pure_eq_ok, Prod.exists] at hexec
    obtain ⟨_, _, _, rfl⟩ := hexec
    exact h.of_move hm rfl
  | reconcileAmbiguous claim outcome fin nextReconciliationAt =>
    simp only [exec, bind_eq_ok, pure_eq_ok, Prod.exists] at hexec
    obtain ⟨_, _, _, _, _, rfl⟩ := hexec
    exact h.of_move hm rfl

end EffectSide

-- ════════════════════════════════════════════════════════════════════════
-- Runs
-- ════════════════════════════════════════════════════════════════════════

/-- The tokens of all claims that were handed out. -/
structure RuntimeState.ClaimsFenced {ε : Type} (s : RuntimeState ε) : Prop where
  agenda : s.agenda.ClaimsFenced
  effects : s.effects.ClaimsFenced

section Runs

variable {ε : Type} {hooks : StoreHooks ε}

theorem claimsFenced_initial (rest : ε) : (RuntimeState.initial rest).ClaimsFenced :=
  ⟨⟨.nil _ _ _, .nil _ _ _⟩, .nil _ _ _, fun _ hc => absurd hc List.not_mem_nil⟩

theorem claimsFenced_of_exec {s t : RuntimeState ε} {a : RuntimeAction ε} (hs : s.ClaimsFenced)
    (h : s.exec hooks a = .ok t) : t.ClaimsFenced := by
  refine ⟨AgendaSide.claimsFenced_move hs.agenda
    (RuntimeState.agenda_step h (commitsWhen_true s a)).move, ?_⟩
  have hm := RuntimeState.effects_move h
  cases a with
  | effect action =>
    simp only [RuntimeState.exec, bind_eq_ok, pure_eq_ok] at h
    obtain ⟨_, heffects, rfl⟩ := h
    exact EffectSide.claimsFenced_exec hs.effects heffects
  | agenda action =>
    simp only [RuntimeState.exec, bind_eq_ok, pure_eq_ok] at h
    obtain ⟨_, _, rfl⟩ := h
    exact hs.effects
  | commitSemanticDecision claim semantic =>
    simp only [RuntimeState.exec, bind_eq_ok, pure_eq_ok] at h
    obtain ⟨_, _, _, _, rfl⟩ := h
    exact hs.effects.of_move hm rfl
  | commitApprovalAndAttempt cmd =>
    simp only [RuntimeState.exec, bind_eq_ok, pure_eq_ok] at h
    obtain ⟨_, _, rfl⟩ := h
    exact hs.effects.of_move hm rfl
  | loadDispatchBundle claim mandateId =>
    simp only [RuntimeState.exec, bind_eq_ok, pure_eq_ok] at h
    obtain ⟨_, _, _, _, rfl⟩ := h
    exact hs.effects
  | environment rest =>
    obtain rfl := Except.ok.inj h
    exact hs.effects

theorem claimsFenced_of_reachable {s : RuntimeState ε} (h : (runtime hooks).Reachable s) :
    s.ClaimsFenced := by
  have hpreserved : (runtime hooks).Preserved fun s => s.ClaimsFenced :=
    fun _ _ _ hs hstep => claimsFenced_of_exec hs hstep
  refine h.invariant (I := fun s => s.ClaimsFenced) ?_ hpreserved
  rintro _ ⟨rest, rfl⟩
  exact claimsFenced_initial rest

end Runs

-- ════════════════════════════════════════════════════════════════════════
-- Use of a superseded claim
-- ════════════════════════════════════════════════════════════════════════

/-- A claim of one of the three kinds. -/
inductive AnyClaim
  | trigger (claim : TriggerClaim)
  | agenda (claim : AgendaClaim)
  | outbox (claim : OutboxClaim)

/-- The claim that a transaction is made with. -/
def RuntimeAction.claim? {ε : Type} : RuntimeAction ε → Option AnyClaim
  | .agenda (.materializeAgenda claim _ _ _ _) => some (.trigger claim)
  | .agenda (.releaseAgenda claim) => some (.agenda claim)
  | .commitSemanticDecision claim _ => some (.agenda claim)
  | .effect (.markDispatchStarted claim _) => some (.outbox claim)
  | .effect (.finalizeDispatch claim _ _) => some (.outbox claim)
  | .effect (.reconcileAmbiguous claim _ _ _) => some (.outbox claim)
  | .loadDispatchBundle claim _ => some (.outbox claim)
  | _ => none

/-- The claim has the present token of its row. -/
def RuntimeState.Holds {ε : Type} (s : RuntimeState ε) : AnyClaim → Prop
  | .trigger claim => s.agenda.tables.triggerTokens claim.resource = some claim.fencingToken
  | .agenda claim => s.agenda.tables.agendaTokens claim.resource = some claim.fencingToken
  | .outbox claim => s.effects.tables.outboxTokens claim.outboxId = some claim.fencingToken

theorem AgendaTables.agendaTokens_of_require {s : AgendaTables} {claim : AgendaClaim}
    {row : AgendaRow} (h : s.requireAgendaClaim claim = .ok row) :
    s.agendaTokens claim.resource = some claim.fencingToken := by
  obtain ⟨hfind, _, _, htoken⟩ := requireAgendaClaim_eq_ok h
  rw [← htoken]
  exact agendaTokens_eq_some hfind

theorem EffectTables.outboxTokens_of_require {s : EffectTables} {claim : OutboxClaim}
    {states : List OutboxState} {evaluatedAt : Option Instant} {row : OutboxRow}
    (h : s.requireOutboxClaim claim states evaluatedAt = .ok row) :
    s.outboxTokens claim.outboxId = some claim.fencingToken := by
  obtain ⟨hfind, hid, _, hbinds⟩ := requireOutboxClaim_eq_ok h
  obtain ⟨_, _, htoken, _⟩ := hbinds
  rw [← htoken, ← hid]
  exact Table.tokenOf_eq_some hfind

/-- A transaction only succeeds with a claim that has the present token. -/
theorem RuntimeState.holds_of_exec {ε : Type} {hooks : StoreHooks ε} {s t : RuntimeState ε}
    {a : RuntimeAction ε} {claim : AnyClaim} (hclaim : a.claim? = some claim)
    (h : s.exec hooks a = .ok t) : s.Holds claim := by
  cases a with
  | agenda action =>
    simp only [exec, bind_eq_ok, pure_eq_ok] at h
    obtain ⟨_, hagenda, _⟩ := h
    cases action with
    | materializeAgenda used wakeCycleId agendaItemId actor occurredAt =>
      obtain rfl := Option.some.inj hclaim
      simp only [AgendaSide.exec, bind_eq_ok, pure_eq_ok, Prod.exists] at hagenda
      obtain ⟨_, _, _, _, _, hmaterialize, _⟩ := hagenda
      obtain ⟨trigger, _, _, _, _, hfind, ⟨_, _, htoken⟩, _⟩ := materializeAgenda_eq_ok hmaterialize
      show s.agenda.tables.triggerTokens used.resource = some used.fencingToken
      rw [← htoken]
      exact triggerTokens_eq_some hfind
    | releaseAgenda used =>
      obtain rfl := Option.some.inj hclaim
      simp only [AgendaSide.exec, AgendaTables.releaseAgenda, bind_eq_ok, pure_eq_ok] at hagenda
      obtain ⟨_, _, _, ⟨_, hrequire, _⟩, _⟩ := hagenda
      exact AgendaTables.agendaTokens_of_require hrequire
    | _ => exact absurd hclaim (by simp [RuntimeAction.claim?])
  | effect action =>
    simp only [exec, bind_eq_ok, pure_eq_ok] at h
    obtain ⟨_, heffects, _⟩ := h
    cases action with
    | markDispatchStarted used occurredAt =>
      obtain rfl := Option.some.inj hclaim
      simp only [EffectSide.exec, EffectTables.markDispatchStarted, bind_eq_ok, pure_eq_ok,
        Prod.exists] at heffects
      obtain ⟨_, _, _, _, ⟨_, hrequire, _⟩, _⟩ := heffects
      exact EffectTables.outboxTokens_of_require hrequire
    | finalizeDispatch used outcome fin =>
      obtain rfl := Option.some.inj hclaim
      simp only [EffectSide.exec, EffectTables.finalizeDispatch, bind_eq_ok, pure_eq_ok,
        Prod.exists] at heffects
      obtain ⟨_, _, _, _, ⟨_, hrequire, _⟩, _⟩ := heffects
      exact EffectTables.outboxTokens_of_require hrequire
    | reconcileAmbiguous used outcome fin nextReconciliationAt =>
      obtain rfl := Option.some.inj hclaim
      simp only [EffectSide.exec, EffectTables.reconcileAmbiguous, bind_eq_ok, pure_eq_ok,
        Prod.exists] at heffects
      obtain ⟨_, _, _, _, ⟨_, hrequire, _⟩, _⟩ := heffects
      exact EffectTables.outboxTokens_of_require hrequire
    | _ => exact absurd hclaim (by simp [RuntimeAction.claim?])
  | commitSemanticDecision used semantic =>
    obtain rfl := Option.some.inj hclaim
    simp only [exec, RuntimeStore.commitSemanticDecision, bind_eq_ok, pure_eq_ok] at h
    obtain ⟨_, _, _, ⟨_, hrequire, _⟩, _⟩ := h
    exact AgendaTables.agendaTokens_of_require hrequire
  | loadDispatchBundle used mandateId =>
    obtain rfl := Option.some.inj hclaim
    simp only [exec, RuntimeStore.loadDispatchBundle, EffectTables.loadDispatchBundle, bind_eq_ok,
      pure_eq_ok] at h
    obtain ⟨_, _, _, ⟨_, hrequire, _⟩, _⟩ := h
    exact EffectTables.outboxTokens_of_require hrequire
  | commitApprovalAndAttempt cmd => exact absurd hclaim (by simp [RuntimeAction.claim?])
  | environment rest => exact absurd hclaim (by simp [RuntimeAction.claim?])

/-- A transaction with a claim that has a token of the past raises. -/
theorem RuntimeState.exec_of_not_holds {ε : Type} {hooks : StoreHooks ε} {s : RuntimeState ε}
    (claim : AnyClaim) (hstale : ¬s.Holds claim) {a : RuntimeAction ε}
    (hclaim : a.claim? = some claim) : ∃ failure, s.exec hooks a = .error failure :=
  exists_error fun _ h => hstale (holds_of_exec hclaim h)

end DigitalColleagues
