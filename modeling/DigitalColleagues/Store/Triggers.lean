import DigitalColleagues.Store.Records
import Mathlib.Data.Prod.Lex

/-!
# Triggers

Ingestion of events and timer occurrences with their replay ledgers, and the
leased claim of the earliest due trigger over both trigger tables.
-/

namespace DigitalColleagues

open Keyed

instance : DurableRecord InputEvent where
  key := InputEvent.eventId
  immutable := true
  revision := InputEvent.revision
  Public := InputEvent
  publicData := id

instance : DurableRecord TimerOccurrence where
  key := TimerOccurrence.occurrenceId
  immutable := true
  revision := TimerOccurrence.revision
  Public := TimerOccurrence
  publicData := id

instance : DurableRecord WakeCycle where
  key := WakeCycle.wakeCycleId
  immutable := false
  revision := WakeCycle.revision
  Public := WakeCycle
  publicData := id

instance : DurableRecord AgendaItem where
  key item := item.agendaItemId
  immutable := false
  revision item := item.revision
  Public := AgendaItemFields
  publicData := AgendaItem.toAgendaItemFields

theorem agendaItemId_of_find? {rs : Records AgendaItem} {id : StableId} {item : AgendaItem}
    (h : rs.find? id = some item) : item.agendaItemId = id :=
  Records.key_of_find? h

theorem wakeCycleId_of_find? {rs : Records WakeCycle} {id : StableId} {wake : WakeCycle}
    (h : rs.find? id = some wake) : wake.wakeCycleId = id :=
  Records.key_of_find? h

instance : DurableRecord Decision where
  key := Decision.decisionId
  immutable := true
  revision := Decision.revision
  Public := Decision
  publicData := id

-- ════════════════════════════════════════════════════════════════════════
-- Tables
-- ════════════════════════════════════════════════════════════════════════

/-- A row of `replay_ledger`, within one `ledger_kind`. -/
structure LedgerRow (κ : Type) where
  idempotencyKey : κ
  recordId : StableId

instance {κ : Type} : Keyed (LedgerRow κ) κ := ⟨LedgerRow.idempotencyKey⟩

inductive TriggerState
  | pending
  | claimed
  | completed
deriving DecidableEq, Repr

/-- A row of `triggers` or `timer_triggers`; `sourceId` is its `event_id` or
    `occurrence_id`. -/
structure TriggerRow where
  triggerId : StableId
  sourceId : StableId
  dueAt : Instant
  state : TriggerState
  leaseOwner : Option StableId
  leaseUntil : Option Instant
  fencingToken : ℕ
  attemptCount : ℕ
  correlationId : StableId
  causationId : StableId
  revision : ℕ
deriving DecidableEq

instance : Keyed TriggerRow StableId := ⟨TriggerRow.triggerId⟩

/-- A row of `agenda_runtime`. -/
structure AgendaRow where
  agendaItemId : StableId
  sourceKey : String
  generation : ℕ
  handledGeneration : ℕ
  causeIds : List StableId
  state : AgendaItemState
  priority : ℤ
  dueAt : Option Instant
  leaseOwner : Option StableId
  leaseUntil : Option Instant
  fencingToken : ℕ
  starvationCount : ℕ
  currentWakeCycleId : StableId
  revision : ℕ
deriving DecidableEq

instance : Keyed AgendaRow StableId := ⟨AgendaRow.agendaItemId⟩

/-- The trigger and agenda tables of one colleague. -/
structure AgendaTables where
  inputEvents : Records InputEvent
  timerOccurrences : Records TimerOccurrence
  inputEventLedger : Table (LedgerRow String)
  timerOccurrenceLedger : Table (LedgerRow String)
  triggers : Table TriggerRow
  timerTriggers : Table TriggerRow
  wakeCycles : Records WakeCycle
  agendaItems : Records AgendaItem
  agendaRuntime : Table AgendaRow
  decisions : Records Decision

def AgendaTables.empty : AgendaTables :=
  ⟨.empty, .empty, .empty, .empty, .empty, .empty, .empty, .empty, .empty, .empty⟩

-- ════════════════════════════════════════════════════════════════════════
-- Ingestion
-- ════════════════════════════════════════════════════════════════════════

/-- What one ingestion leaves behind for its kind of source. -/
structure Ingested (ρ : Type) [DurableRecord ρ] where
  source : ρ
  accepted : Bool
  records : Records ρ
  ledger : Table (LedgerRow String)
  triggers : Table TriggerRow

/-- The shared body of `ingest_event` and `ingest_timer`: an idempotent replay,
    or the record, its ledger row and its pending trigger. -/
def ingestSource {ρ : Type} [DurableRecord ρ] (records : Records ρ)
    (ledger : Table (LedgerRow String)) (triggers : Table TriggerRow) (replayOf : ρ → ρ → Bool)
    (source : ρ) (idempotencyKey : String) (trigger : TriggerRow) (drifted conflict : String) :
    Outcome (Ingested ρ) :=
  match ledger.find? idempotencyKey with
  | some row => do
    let existing ← records.getRecord row.recordId
    require (replayOf source existing = true) (.conflict drifted)
    pure ⟨existing, false, records, ledger, triggers⟩
  | none => do
    let records ← records.insertRecord source
    let ledger ← orFail (ledger.insert? ⟨idempotencyKey, key source⟩) (.conflict conflict)
    require (∀ r ∈ triggers.rows, r.sourceId ≠ trigger.sourceId) (.conflict conflict)
    let triggers ← orFail (triggers.insert? trigger) (.conflict conflict)
    pure ⟨source, true, records, ledger, triggers⟩

def newTrigger (triggerId sourceId : StableId) (dueAt : Instant) (correlationId : StableId) :
    TriggerRow where
  triggerId := triggerId
  sourceId := sourceId
  dueAt := dueAt
  state := .pending
  leaseOwner := none
  leaseUntil := none
  fencingToken := 0
  attemptCount := 0
  correlationId := correlationId
  causationId := sourceId
  revision := 1

namespace AgendaTables

def ingestEvent (s : AgendaTables) (event : InputEvent) (idempotencyKey : String)
    (triggerId : StableId) : Outcome ((InputEvent × Bool) × AgendaTables) := do
  let done ← ingestSource s.inputEvents s.inputEventLedger s.triggers
    (fun new existing => { new with occurredAt := existing.occurredAt }.pyEq existing)
    event idempotencyKey
    (newTrigger triggerId event.eventId event.occurredAt event.correlationId)
    "input idempotency replay drifted" "input replay or trigger identity conflict"
  pure ((done.source, done.accepted),
    { s with inputEvents := done.records, inputEventLedger := done.ledger,
             triggers := done.triggers })

def ingestTimer (s : AgendaTables) (occurrence : TimerOccurrence) (idempotencyKey : String)
    (triggerId : StableId) : Outcome ((TimerOccurrence × Bool) × AgendaTables) := do
  let done ← ingestSource s.timerOccurrences s.timerOccurrenceLedger s.timerTriggers
    (fun new existing => { new with occurredAt := existing.occurredAt }.pyEq existing)
    occurrence idempotencyKey
    (newTrigger triggerId occurrence.occurrenceId occurrence.dueAt occurrence.correlationId)
    "timer occurrence replay drifted" "timer replay or trigger identity conflict"
  pure ((done.source, done.accepted),
    { s with timerOccurrences := done.records, timerOccurrenceLedger := done.ledger,
             timerTriggers := done.triggers })

end AgendaTables

/-- A successful ingestion is a replay that changes nothing, or it adds the
    record and one pending trigger with a fresh source. -/
theorem ingestSource_eq_ok {ρ : Type} [DurableRecord ρ] {records : Records ρ}
    {ledger : Table (LedgerRow String)} {triggers : Table TriggerRow} {replayOf : ρ → ρ → Bool}
    {source : ρ} {idempotencyKey : String} {trigger : TriggerRow} {drifted conflict : String}
    {done : Ingested ρ}
    (h : ingestSource records ledger triggers replayOf source idempotencyKey trigger
      drifted conflict = .ok done) :
    (done.records = records ∧ done.ledger = ledger ∧ done.triggers = triggers) ∨
      (records.insertRecord source = .ok done.records ∧
        (∀ r ∈ triggers, r.sourceId ≠ trigger.sourceId) ∧
        triggers.insert? trigger = some done.triggers) := by
  unfold ingestSource at h
  split at h
  · simp only [bind_eq_ok, require_eq_ok, pure_eq_ok] at h
    obtain ⟨existing, _, _, _, rfl⟩ := h
    exact .inl ⟨rfl, rfl, rfl⟩
  · simp only [bind_eq_ok, require_eq_ok, orFail_eq_ok, pure_eq_ok] at h
    obtain ⟨records', hr, ledger', _, _, hfresh, triggers', ht, rfl⟩ := h
    exact .inr ⟨hr, hfresh, ht⟩

-- ════════════════════════════════════════════════════════════════════════
-- Claims
-- ════════════════════════════════════════════════════════════════════════

inductive SourceRecordType
  | inputEvent
  | timerOccurrence
deriving DecidableEq, Repr

structure TriggerClaim where
  triggerId : StableId
  sourceRecordType : SourceRecordType
  sourceId : StableId
  leaseOwner : StableId
  leaseUntil : Instant
  fencingToken : ℕ
  correlationId : StableId
  causationId : StableId
deriving DecidableEq

namespace TriggerRow

/-- Due, and pending or held by an expired lease. -/
def claimable (now : Instant) (r : TriggerRow) : Bool :=
  decide (r.dueAt ≤ now) &&
    (decide (r.state = .pending) ||
      (decide (r.state = .claimed) && r.leaseUntil.any fun t => decide (t < now)))

/-- `ORDER BY due_at, trigger_id`. -/
def rank (r : TriggerRow) : Instant ×ₗ StableId := toLex (r.dueAt, r.triggerId)

def claim (r : TriggerRow) (owner : StableId) (leaseUntil : Instant) : TriggerRow :=
  { r with
    state := .claimed
    leaseOwner := some owner
    leaseUntil := some leaseUntil
    fencingToken := r.fencingToken + 1
    attemptCount := r.attemptCount + 1
    revision := r.revision + 1 }

def complete (r : TriggerRow) : TriggerRow :=
  { r with
    state := .completed
    leaseOwner := none
    leaseUntil := none
    revision := r.revision + 1 }

/-- The claim handed out for the row as it was read. -/
def claimOf (r : TriggerRow) (type : SourceRecordType) (owner : StableId)
    (leaseUntil : Instant) : TriggerClaim where
  triggerId := r.triggerId
  sourceRecordType := type
  sourceId := r.sourceId
  leaseOwner := owner
  leaseUntil := leaseUntil
  fencingToken := r.fencingToken + 1
  correlationId := r.correlationId
  causationId := r.causationId

end TriggerRow

namespace AgendaTables

/-- `trigger_table`: the table a claim's source type names. -/
def triggerTable (s : AgendaTables) : SourceRecordType → Table TriggerRow
  | .inputEvent => s.triggers
  | .timerOccurrence => s.timerTriggers

def setTriggerTable (s : AgendaTables) (type : SourceRecordType) (t : Table TriggerRow) :
    AgendaTables :=
  match type with
  | .inputEvent => { s with triggers := t }
  | .timerOccurrence => { s with timerTriggers := t }

/-- The earlier of the two candidates; an event goes before a timer on a tie. -/
def nextTrigger (s : AgendaTables) (now : Instant) : Option (SourceRecordType × TriggerRow) :=
  match s.triggers.selectMin (TriggerRow.claimable now) TriggerRow.rank,
      s.timerTriggers.selectMin (TriggerRow.claimable now) TriggerRow.rank with
  | none, none => none
  | some e, none => some (.inputEvent, e)
  | none, some t => some (.timerOccurrence, t)
  | some e, some t => if e.rank ≤ t.rank then some (.inputEvent, e) else some (.timerOccurrence, t)

def claimTrigger (s : AgendaTables) (owner : StableId) (now leaseUntil : Instant) :
    Option (TriggerClaim × AgendaTables) :=
  match s.nextTrigger now with
  | none => none
  | some (type, row) =>
    some (row.claimOf type owner leaseUntil,
      s.setTriggerTable type ((s.triggerTable type).replace (row.claim owner leaseUntil)))

@[simp] theorem triggerTable_setTriggerTable_self (s : AgendaTables) (type : SourceRecordType)
    (t : Table TriggerRow) : (s.setTriggerTable type t).triggerTable type = t := by
  cases type <;> rfl

theorem triggerTable_setTriggerTable_of_ne {s : AgendaTables} {type type' : SourceRecordType}
    {t : Table TriggerRow} (h : type' ≠ type) :
    (s.setTriggerTable type t).triggerTable type' = s.triggerTable type' := by
  cases type <;> cases type' <;> first | rfl | exact absurd rfl h

@[simp] theorem setTriggerTable_agendaRuntime (s : AgendaTables) (type : SourceRecordType)
    (t : Table TriggerRow) : (s.setTriggerTable type t).agendaRuntime = s.agendaRuntime := by
  cases type <;> rfl

@[simp] theorem setTriggerTable_agendaItems (s : AgendaTables) (type : SourceRecordType)
    (t : Table TriggerRow) : (s.setTriggerTable type t).agendaItems = s.agendaItems := by
  cases type <;> rfl

@[simp] theorem setTriggerTable_wakeCycles (s : AgendaTables) (type : SourceRecordType)
    (t : Table TriggerRow) : (s.setTriggerTable type t).wakeCycles = s.wakeCycles := by
  cases type <;> rfl

@[simp] theorem setTriggerTable_inputEvents (s : AgendaTables) (type : SourceRecordType)
    (t : Table TriggerRow) : (s.setTriggerTable type t).inputEvents = s.inputEvents := by
  cases type <;> rfl

@[simp] theorem setTriggerTable_timerOccurrences (s : AgendaTables) (type : SourceRecordType)
    (t : Table TriggerRow) :
    (s.setTriggerTable type t).timerOccurrences = s.timerOccurrences := by
  cases type <;> rfl

@[simp] theorem setTriggerTable_decisions (s : AgendaTables) (type : SourceRecordType)
    (t : Table TriggerRow) : (s.setTriggerTable type t).decisions = s.decisions := by
  cases type <;> rfl

/-- The selected trigger is a claimable row of its table. -/
theorem nextTrigger_mem {s : AgendaTables} {now : Instant} {type : SourceRecordType}
    {row : TriggerRow} (h : s.nextTrigger now = some (type, row)) :
    row ∈ s.triggerTable type ∧ row.claimable now = true := by
  unfold nextTrigger at h
  split at h
  · simp at h
  · rename_i e he _
    simp only [Option.some.injEq, Prod.mk.injEq] at h
    obtain ⟨rfl, rfl⟩ := h
    exact Table.selectMin_mem he
  · rename_i t _ ht
    simp only [Option.some.injEq, Prod.mk.injEq] at h
    obtain ⟨rfl, rfl⟩ := h
    exact Table.selectMin_mem ht
  · rename_i e t he ht
    split at h
    · simp only [Option.some.injEq, Prod.mk.injEq] at h
      obtain ⟨rfl, rfl⟩ := h
      exact Table.selectMin_mem he
    · simp only [Option.some.injEq, Prod.mk.injEq] at h
      obtain ⟨rfl, rfl⟩ := h
      exact Table.selectMin_mem ht

theorem claimTrigger_eq_some {s s' : AgendaTables} {owner : StableId} {now leaseUntil : Instant}
    {claim : TriggerClaim} (h : s.claimTrigger owner now leaseUntil = some (claim, s')) :
    ∃ type row, (s.triggerTable type).find? row.triggerId = some row ∧
      row.claimable now = true ∧ claim = row.claimOf type owner leaseUntil ∧
      s' = s.setTriggerTable type ((s.triggerTable type).replace (row.claim owner leaseUntil)) := by
  unfold claimTrigger at h
  split at h
  · simp at h
  · rename_i type row hnext
    simp only [Option.some.injEq, Prod.mk.injEq] at h
    obtain ⟨hmem, hclaimable⟩ := nextTrigger_mem hnext
    exact ⟨type, row, Table.find?_of_mem hmem, hclaimable, h.1.symm, h.2.symm⟩

end AgendaTables

/-- A claimable row is not completed. -/
theorem TriggerRow.state_of_claimable {r : TriggerRow} {now : Instant}
    (h : r.claimable now = true) : r.state ≠ .completed := by
  intro hs
  simp [TriggerRow.claimable, hs] at h

end DigitalColleagues
