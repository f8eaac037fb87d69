import DigitalColleagues.Store.Triggers

/-!
# The agenda

Materialization of a claimed trigger into a new or a coalesced agenda item,
the leased claim of the next item, its release, and the checkpoint a committed
decision leaves. Each operation has one lemma that says what a success did.
-/

namespace DigitalColleagues

open Keyed

-- ════════════════════════════════════════════════════════════════════════
-- Trigger sources
-- ════════════════════════════════════════════════════════════════════════

/-- What materialization reads from the event or the timer occurrence. -/
structure TriggerSource where
  sourceKey : String
  workId : Option String
  priority : ℤ
  title : String
  sourceEventId : Option StableId
  sourceTimerOccurrenceId : Option StableId
  correlationId : StableId
  policy : Option PolicyBinding

/-- `work_id`, when it is a non-empty string. -/
def projectedWorkId (projection : FrozenJsonObject) : Option String :=
  match projection.get "work_id" with
  | some (.str w) => if w = "" then none else some w
  | _ => none

/-- `priority`, when it is an integer and not a boolean. -/
def projectedPriority (projection : FrozenJsonObject) : ℤ :=
  match projection.get "priority" with
  | some (.int n) => n
  | _ => 100

def projectedTitle (projection : FrozenJsonObject) (default : String) : String :=
  match projection.get "title" with
  | some (.str t) => if strip t = "" then default else t
  | _ => default

/-- `_event_source_key`: events of one work coalesce, others by their type. -/
def eventSourceKey (event : InputEvent) : TriggerSource where
  sourceKey :=
    match projectedWorkId event.safeProjection with
    | some work => "work:" ++ work
    | none => "event:" ++ event.eventType.val
  workId := projectedWorkId event.safeProjection
  priority := projectedPriority event.safeProjection
  title := projectedTitle event.safeProjection "finite work update"
  sourceEventId := some event.eventId
  sourceTimerOccurrenceId := none
  correlationId := event.correlationId
  policy := event.policy

/-- `_timer_source_key`: occurrences of one timer coalesce. -/
def timerSourceKey (occurrence : TimerOccurrence) : TriggerSource where
  sourceKey := "timer:" ++ occurrence.timerId.val
  workId := projectedWorkId occurrence.safeProjection
  priority := projectedPriority occurrence.safeProjection
  title := projectedTitle occurrence.safeProjection "scheduled timer work"
  sourceEventId := none
  sourceTimerOccurrenceId := some occurrence.occurrenceId
  correlationId := occurrence.correlationId
  policy := occurrence.policy

namespace AgendaTables

def loadSource (s : AgendaTables) (claim : TriggerClaim) : Outcome TriggerSource :=
  match claim.sourceRecordType with
  | .inputEvent => do
    let event ← s.inputEvents.getRecord claim.sourceId
    pure (eventSourceKey event)
  | .timerOccurrence => do
    let occurrence ← s.timerOccurrences.getRecord claim.sourceId
    pure (timerSourceKey occurrence)

/-- Whether the record that a trigger of one kind names is stored. -/
def hasSource (s : AgendaTables) : SourceRecordType → StableId → Bool
  | .inputEvent, sourceId => (s.inputEvents.find? sourceId).isSome
  | .timerOccurrence, sourceId => (s.timerOccurrences.find? sourceId).isSome

-- ════════════════════════════════════════════════════════════════════════
-- Materialization
-- ════════════════════════════════════════════════════════════════════════

/-- The claimed row, if the claim still owns it. -/
def requireTriggerClaim (s : AgendaTables) (claim : TriggerClaim) : Outcome TriggerRow := do
  let trigger ← orFail ((s.triggerTable claim.sourceRecordType).find? claim.triggerId)
    (.conflict "stale trigger owner or fencing token")
  require (trigger.state = .claimed ∧ trigger.leaseOwner = some claim.leaseOwner ∧
      trigger.fencingToken = claim.fencingToken)
    (.conflict "stale trigger owner or fencing token")
  pure trigger

/-- The running wake of one materialization, checkpointed at its generation. -/
def newWake (claim : TriggerClaim) (source : TriggerSource) (wakeCycleId agendaItemId : StableId)
    (generation : ℕ) (actor : Principal) (occurredAt : Instant) : WakeCycle where
  wakeCycleId := wakeCycleId
  state := .running
  triggerEventIds := source.sourceEventId.toList
  agendaItemIds := [agendaItemId]
  actor := actor
  correlationId := source.correlationId
  causationId := some claim.sourceId
  occurredAt := occurredAt
  revision := 1
  fencingToken := claim.fencingToken
  checkpointGeneration := generation
  triggerTimerOccurrenceIds := source.sourceTimerOccurrenceId.toList
  policy := source.policy

/-- The item of a source key seen for the first time. -/
def newItem (claim : TriggerClaim) (source : TriggerSource) (wakeCycleId agendaItemId : StableId)
    (actor : Principal) (occurredAt : Instant) : AgendaItemFields where
  agendaItemId := agendaItemId
  wakeCycleId := wakeCycleId
  sourceEventId := source.sourceEventId
  workId := source.workId
  title := source.title
  state := .pending
  priority := source.priority
  dueAt := none
  actor := actor
  correlationId := source.correlationId
  causationId := wakeCycleId
  occurredAt := occurredAt
  revision := 1
  generation := 1
  handledGeneration := 0
  causeIds := [claim.sourceId]
  sourceTimerOccurrenceId := source.sourceTimerOccurrenceId
  policy := source.policy

def newRow (claim : TriggerClaim) (source : TriggerSource) (wakeCycleId agendaItemId : StableId) :
    AgendaRow where
  agendaItemId := agendaItemId
  sourceKey := source.sourceKey
  generation := 1
  handledGeneration := 0
  causeIds := [claim.sourceId]
  state := .pending
  priority := source.priority
  dueAt := none
  leaseOwner := none
  leaseUntil := none
  fencingToken := 0
  starvationCount := 0
  currentWakeCycleId := wakeCycleId
  revision := 1

/-- A selected row stays selected while it coalesces; any other becomes pending. -/
def coalescedState (row : AgendaRow) : AgendaItemState :=
  if row.state = .selected then .selected else .pending

/-- The existing item after one more cause. -/
def coalescedItem (claim : TriggerClaim) (source : TriggerSource) (wakeCycleId : StableId)
    (row : AgendaRow) (existing : AgendaItem) (actor : Principal) (occurredAt : Instant) :
    AgendaItemFields :=
  { existing.toAgendaItemFields with
    wakeCycleId := wakeCycleId
    sourceEventId := source.sourceEventId
    sourceTimerOccurrenceId := source.sourceTimerOccurrenceId
    state := coalescedState row
    actor := actor
    correlationId := source.correlationId
    causationId := wakeCycleId
    occurredAt := occurredAt
    revision := existing.revision + 1
    generation := row.generation + 1
    causeIds := row.causeIds ++ [claim.sourceId]
    policy := source.policy }

/-- The existing row after one more cause. -/
def coalescedRow (claim : TriggerClaim) (wakeCycleId : StableId) (row : AgendaRow) : AgendaRow :=
  { row with
    generation := row.generation + 1
    causeIds := row.causeIds ++ [claim.sourceId]
    state := coalescedState row
    currentWakeCycleId := wakeCycleId
    revision := row.revision + 1 }

/-- The row that events and timers of a source key coalesce into. -/
def rowOfSource (s : AgendaTables) (sourceKey : String) : Option AgendaRow :=
  s.agendaRuntime.rows.find? fun r => decide (r.sourceKey = sourceKey)

theorem find?_of_rowOfSource {s : AgendaTables} {sourceKey : String} {row : AgendaRow}
    (h : s.rowOfSource sourceKey = some row) :
    s.agendaRuntime.find? row.agendaItemId = some row :=
  Table.find?_of_mem (List.mem_of_find?_eq_some h)

theorem sourceKey_of_rowOfSource {s : AgendaTables} {sourceKey : String} {row : AgendaRow}
    (h : s.rowOfSource sourceKey = some row) : row.sourceKey = sourceKey := by
  have hrow := List.find?_some h
  exact of_decide_eq_true hrow

/-- `UPDATE … SET state = 'completed'` on the claimed trigger. -/
def completeTrigger (s : AgendaTables) (claim : TriggerClaim) (trigger : TriggerRow) :
    AgendaTables :=
  s.setTriggerTable claim.sourceRecordType
    ((s.triggerTable claim.sourceRecordType).replace trigger.complete)

/-- `materialize_agenda`. -/
def materializeAgenda (s : AgendaTables) (claim : TriggerClaim)
    (wakeCycleId agendaItemId : StableId) (actor : Principal) (occurredAt : Instant) :
    Outcome ((WakeCycle × AgendaItem) × AgendaTables) := do
  let trigger ← s.requireTriggerClaim claim
  let source ← s.loadSource claim
  match s.rowOfSource source.sourceKey with
  | none => do
    let wake := newWake claim source wakeCycleId agendaItemId 1 actor occurredAt
    let wakeCycles ← s.wakeCycles.insertRecord wake
    let item ← AgendaItem.make (newItem claim source wakeCycleId agendaItemId actor occurredAt)
    let agendaItems ← s.agendaItems.insertRecord item
    let agendaRuntime ← orFail
      (s.agendaRuntime.insert? (newRow claim source wakeCycleId agendaItemId)) .integrity
    pure ((wake, item),
      { s with wakeCycles := wakeCycles, agendaItems := agendaItems,
               agendaRuntime := agendaRuntime }.completeTrigger claim trigger)
  | some row => do
    require (row.causeIds ++ [claim.sourceId]).Nodup
      (.conflict "Agenda cause replay was not coalesced safely")
    let wake := newWake claim source wakeCycleId row.agendaItemId (row.generation + 1) actor
      occurredAt
    let wakeCycles ← s.wakeCycles.insertRecord wake
    let existing ← s.agendaItems.getRecord row.agendaItemId
    let item ← AgendaItem.make
      (coalescedItem claim source wakeCycleId row existing actor occurredAt)
    let agendaItems ← s.agendaItems.updateRecord item existing.revision
    pure ((wake, item),
      { s with wakeCycles := wakeCycles, agendaItems := agendaItems,
               agendaRuntime := s.agendaRuntime.replace (coalescedRow claim wakeCycleId row)
             }.completeTrigger claim trigger)

theorem requireTriggerClaim_eq_ok {s : AgendaTables} {claim : TriggerClaim} {trigger : TriggerRow}
    (h : s.requireTriggerClaim claim = .ok trigger) :
    (s.triggerTable claim.sourceRecordType).find? claim.triggerId = some trigger ∧
      trigger.state = .claimed ∧ trigger.leaseOwner = some claim.leaseOwner ∧
      trigger.fencingToken = claim.fencingToken := by
  simp only [requireTriggerClaim, bind_eq_ok, orFail_eq_ok, require_eq_ok, pure_eq_ok,
    exists_const] at h
  obtain ⟨trigger', hfind, hclaim, rfl⟩ := h
  exact ⟨hfind, hclaim⟩

/-- A successful materialization inserts a running wake and completes the
    claimed trigger, and either creates an item and its row or adds a cause to
    the existing ones. -/
theorem materializeAgenda_eq_ok {s s' : AgendaTables} {claim : TriggerClaim}
    {wakeCycleId agendaItemId : StableId} {actor : Principal} {occurredAt : Instant}
    {wake : WakeCycle} {item : AgendaItem}
    (h : s.materializeAgenda claim wakeCycleId agendaItemId actor occurredAt =
      .ok ((wake, item), s')) :
    ∃ trigger source wakeCycles agendaItems agendaRuntime,
      (s.triggerTable claim.sourceRecordType).find? claim.triggerId = some trigger ∧
      (trigger.state = .claimed ∧ trigger.leaseOwner = some claim.leaseOwner ∧
        trigger.fencingToken = claim.fencingToken) ∧
      s.loadSource claim = .ok source ∧ s.wakeCycles.insertRecord wake = .ok wakeCycles ∧
      s' = { s with wakeCycles := wakeCycles, agendaItems := agendaItems,
                    agendaRuntime := agendaRuntime }.completeTrigger claim trigger ∧
      ((s.rowOfSource source.sourceKey = none ∧
          wake = newWake claim source wakeCycleId agendaItemId 1 actor occurredAt ∧
          item.toAgendaItemFields =
            (newItem claim source wakeCycleId agendaItemId actor occurredAt).normalize ∧
          s.agendaItems.insertRecord item = .ok agendaItems ∧
          s.agendaRuntime.insert? (newRow claim source wakeCycleId agendaItemId) =
            some agendaRuntime) ∨
        ∃ row existing, s.rowOfSource source.sourceKey = some row ∧
          (row.causeIds ++ [claim.sourceId]).Nodup ∧
          wake = newWake claim source wakeCycleId row.agendaItemId (row.generation + 1) actor
            occurredAt ∧
          s.agendaItems.find? row.agendaItemId = some existing ∧
          item.toAgendaItemFields =
            (coalescedItem claim source wakeCycleId row existing actor occurredAt).normalize ∧
          s.agendaItems.updateRecord item existing.revision = .ok agendaItems ∧
          agendaRuntime = s.agendaRuntime.replace (coalescedRow claim wakeCycleId row)) := by
  simp only [materializeAgenda, bind_eq_ok] at h
  obtain ⟨trigger, htrigger, source, hsource, h⟩ := h
  obtain ⟨hfind, hclaim⟩ := requireTriggerClaim_eq_ok htrigger
  split at h
  · rename_i hrow
    simp only [bind_eq_ok, orFail_eq_ok, pure_eq_ok, Prod.mk.injEq] at h
    obtain ⟨wakeCycles, hwake, item', hitem, agendaItems, hitems, agendaRuntime, hruntime,
      ⟨rfl, rfl⟩, rfl⟩ := h
    exact ⟨trigger, source, wakeCycles, agendaItems, agendaRuntime, hfind, hclaim, hsource, hwake,
      rfl,
      .inl ⟨hrow, rfl, AgendaItem.make_eq_ok hitem, hitems, hruntime⟩⟩
  · rename_i row hrow
    simp only [bind_eq_ok, require_eq_ok, Records.getRecord_eq_ok, pure_eq_ok, Prod.mk.injEq,
      exists_const] at h
    obtain ⟨hnodup, wakeCycles, hwake, existing, hexisting, item', hitem, agendaItems, hitems,
      ⟨rfl, rfl⟩, rfl⟩ := h
    exact ⟨trigger, source, wakeCycles, agendaItems, _, hfind, hclaim, hsource, hwake, rfl,
      .inr ⟨row, existing, hrow, hnodup, rfl, hexisting, AgendaItem.make_eq_ok hitem, hitems, rfl⟩⟩

-- ════════════════════════════════════════════════════════════════════════
-- Claim
-- ════════════════════════════════════════════════════════════════════════

end AgendaTables

structure AgendaClaim where
  agendaItem : AgendaItem
  leaseOwner : StableId
  leaseUntil : Instant
  fencingToken : ℕ
  claimedGeneration : ℕ
deriving DecidableEq

namespace AgendaRow

/-- Unhandled, and pending or held by an expired lease. -/
def claimable (now : Instant) (r : AgendaRow) : Bool :=
  decide (r.handledGeneration < r.generation) &&
    (decide (r.state = .pending) ||
      (decide (r.state = .selected) && r.leaseUntil.any fun t => decide (t < now)))

/-- The order of `claim_agenda`: starvation, then priority, both descending,
    then the due time with `NULL` last, then the identifier. -/
def rank (r : AgendaRow) : ℤ ×ₗ ℤ ×ₗ ℕ ×ₗ Instant ×ₗ StableId :=
  toLex (-(r.starvationCount : ℤ), toLex (-r.priority,
    toLex (if r.dueAt.isNone then 1 else 0, toLex (r.dueAt.getD 0, r.agendaItemId))))

/-- The starvation count of a pending row goes up when another is selected. -/
def passOver (selected : StableId) (r : AgendaRow) : AgendaRow :=
  if r.handledGeneration < r.generation ∧ r.state = .pending ∧ r.agendaItemId ≠ selected then
    { r with starvationCount := r.starvationCount + 1 }
  else r

/-- The bulk update of `claim_agenda`. -/
def passOverAll (rows : Table AgendaRow) (selected : StableId) : Table AgendaRow :=
  rows.update (passOver selected) fun r => by
    show (r.passOver selected).agendaItemId = r.agendaItemId
    unfold passOver
    split <;> rfl

theorem find?_passOverAll (rows : Table AgendaRow) (selected id : StableId) :
    (passOverAll rows selected).find? id = (rows.find? id).map (passOver selected) :=
  Table.find?_update _ _ _ _

@[simp] theorem passOver_self (r : AgendaRow) : r.passOver r.agendaItemId = r := by
  simp [passOver]

def select (r : AgendaRow) (owner : StableId) (leaseUntil : Instant) : AgendaRow :=
  { r with
    state := .selected
    leaseOwner := some owner
    leaseUntil := some leaseUntil
    fencingToken := r.fencingToken + 1
    starvationCount := 0
    revision := r.revision + 1 }

def release (r : AgendaRow) : AgendaRow :=
  { r with
    state := .pending
    leaseOwner := none
    leaseUntil := none
    revision := r.revision + 1 }

/-- The row after the commit of a decision about a claimed generation. -/
def checkpoint (r : AgendaRow) (claimedGeneration : ℕ) : AgendaRow :=
  { r with
    handledGeneration := max r.handledGeneration claimedGeneration
    state := if claimedGeneration < r.generation then .pending else .completed
    leaseOwner := none
    leaseUntil := none
    revision := r.revision + 1 }

end AgendaRow

namespace AgendaTables

/-- The row `claim_agenda` selects. -/
def nextAgenda (s : AgendaTables) (now : Instant) : Option AgendaRow :=
  s.agendaRuntime.selectMin (AgendaRow.claimable now) AgendaRow.rank

/-- `claim_agenda`. -/
def claimAgenda (s : AgendaTables) (owner : StableId) (now leaseUntil : Instant) :
    Outcome (Option AgendaClaim × AgendaTables) :=
  match s.nextAgenda now with
  | none => .ok (none, s)
  | some row => do
    let passed := AgendaRow.passOverAll s.agendaRuntime row.agendaItemId
    let existing ← s.agendaItems.getRecord row.agendaItemId
    let selected ← AgendaItem.make
      { existing.toAgendaItemFields with state := .selected, revision := existing.revision + 1 }
    let agendaItems ← s.agendaItems.updateRecord selected existing.revision
    pure (some ⟨selected, owner, leaseUntil, row.fencingToken + 1, row.generation⟩,
      { s with agendaRuntime := passed.replace (row.select owner leaseUntil),
               agendaItems := agendaItems })

/-- A successful claim finds nothing, or selects the first claimable row. -/
theorem claimAgenda_eq_ok {s s' : AgendaTables} {owner : StableId} {now leaseUntil : Instant}
    {claim : Option AgendaClaim} (h : s.claimAgenda owner now leaseUntil = .ok (claim, s')) :
    (s.nextAgenda now = none ∧ claim = none ∧ s' = s) ∨
      ∃ row existing selected agendaItems, s.nextAgenda now = some row ∧
        s.agendaItems.find? row.agendaItemId = some existing ∧
        selected.toAgendaItemFields = AgendaItemFields.normalize { existing.toAgendaItemFields with
          state := .selected
          revision := existing.revision + 1 } ∧
        s.agendaItems.updateRecord selected existing.revision = .ok agendaItems ∧
        claim = some ⟨selected, owner, leaseUntil, row.fencingToken + 1, row.generation⟩ ∧
        s' = { s with
          agendaRuntime := (AgendaRow.passOverAll s.agendaRuntime row.agendaItemId).replace
            (row.select owner leaseUntil)
          agendaItems := agendaItems } := by
  unfold claimAgenda at h
  split at h
  · rename_i hnone
    simp only [Except.ok.injEq, Prod.mk.injEq] at h
    exact .inl ⟨hnone, h.1.symm, h.2.symm⟩
  · rename_i row hrow
    simp only [bind_eq_ok, Records.getRecord_eq_ok, pure_eq_ok, Prod.mk.injEq] at h
    obtain ⟨existing, hexisting, selected, hselected, agendaItems, hitems, rfl, rfl⟩ := h
    exact .inr ⟨row, existing, selected, agendaItems, hrow, hexisting,
      AgendaItem.make_eq_ok hselected, hitems, rfl, rfl⟩

-- ════════════════════════════════════════════════════════════════════════
-- Release and checkpoint
-- ════════════════════════════════════════════════════════════════════════

/-- `_require_agenda_claim`. -/
def requireAgendaClaim (s : AgendaTables) (claim : AgendaClaim) : Outcome AgendaRow := do
  let row ← orFail (s.agendaRuntime.find? claim.agendaItem.agendaItemId)
    (.conflict "stale Agenda owner or fencing token")
  require (row.state = .selected ∧ row.leaseOwner = some claim.leaseOwner ∧
      row.fencingToken = claim.fencingToken)
    (.conflict "stale Agenda owner or fencing token")
  pure row

theorem requireAgendaClaim_eq_ok {s : AgendaTables} {claim : AgendaClaim} {row : AgendaRow}
    (h : s.requireAgendaClaim claim = .ok row) :
    s.agendaRuntime.find? claim.agendaItem.agendaItemId = some row ∧ row.state = .selected ∧
      row.leaseOwner = some claim.leaseOwner ∧ row.fencingToken = claim.fencingToken := by
  simp only [requireAgendaClaim, bind_eq_ok, orFail_eq_ok, require_eq_ok, pure_eq_ok,
    exists_const] at h
  obtain ⟨row', hfind, hclaim, rfl⟩ := h
  exact ⟨hfind, hclaim⟩

/-- The item record after its row took a new state and handled generation. -/
def syncItem (current : AgendaItem) (row : AgendaRow) : AgendaItemFields :=
  { current.toAgendaItemFields with
    state := row.state
    revision := current.revision + 1
    generation := row.generation
    handledGeneration := row.handledGeneration }

/-- `release_agenda`. -/
def releaseAgenda (s : AgendaTables) (claim : AgendaClaim) : Outcome AgendaTables := do
  let row ← s.requireAgendaClaim claim
  let current ← s.agendaItems.getRecord claim.agendaItem.agendaItemId
  let released ← AgendaItem.make (syncItem current row.release)
  let agendaItems ← s.agendaItems.updateRecord released current.revision
  pure { s with agendaRuntime := s.agendaRuntime.replace row.release, agendaItems := agendaItems }

theorem releaseAgenda_eq_ok {s s' : AgendaTables} {claim : AgendaClaim}
    (h : s.releaseAgenda claim = .ok s') :
    ∃ row current released agendaItems, s.requireAgendaClaim claim = .ok row ∧
      s.agendaItems.find? claim.agendaItem.agendaItemId = some current ∧
      released.toAgendaItemFields = (syncItem current row.release).normalize ∧
      s.agendaItems.updateRecord released current.revision = .ok agendaItems ∧
      s' = { s with agendaRuntime := s.agendaRuntime.replace row.release,
                    agendaItems := agendaItems } := by
  simp only [releaseAgenda, bind_eq_ok, Records.getRecord_eq_ok, pure_eq_ok] at h
  obtain ⟨row, hrow, current, hcurrent, released, hreleased, agendaItems, hitems, rfl⟩ := h
  exact ⟨row, current, released, agendaItems, hrow, hcurrent, AgendaItem.make_eq_ok hreleased,
    hitems, rfl⟩

/-- The wake closed by the commit of its decision. -/
def finalizeWake (wake : WakeCycle) (claimedGeneration : ℕ) : WakeCycle :=
  { wake with
    state := .completed
    revision := wake.revision + 1
    checkpointGeneration := claimedGeneration }

/-- The part of `commit_semantic_decision` after the decision is inserted: the
    row, the item and the wake the decision names. -/
def checkpointDecision (s : AgendaTables) (claim : AgendaClaim) (row : AgendaRow)
    (wakeCycleId : StableId) : Outcome AgendaTables := do
  let current ← s.agendaItems.getRecord claim.agendaItem.agendaItemId
  let completed ← AgendaItem.make (syncItem current (row.checkpoint claim.claimedGeneration))
  let agendaItems ← s.agendaItems.updateRecord completed current.revision
  let wake ← s.wakeCycles.getRecord wakeCycleId
  let wakeCycles ← s.wakeCycles.updateRecord (finalizeWake wake claim.claimedGeneration)
    wake.revision
  pure { s with agendaRuntime := s.agendaRuntime.replace (row.checkpoint claim.claimedGeneration),
                agendaItems := agendaItems, wakeCycles := wakeCycles }

theorem checkpointDecision_eq_ok {s s' : AgendaTables} {claim : AgendaClaim} {row : AgendaRow}
    {wakeCycleId : StableId} (h : s.checkpointDecision claim row wakeCycleId = .ok s') :
    ∃ current completed agendaItems wake wakeCycles,
      s.agendaItems.find? claim.agendaItem.agendaItemId = some current ∧
      completed.toAgendaItemFields =
        (syncItem current (row.checkpoint claim.claimedGeneration)).normalize ∧
      s.agendaItems.updateRecord completed current.revision = .ok agendaItems ∧
      s.wakeCycles.find? wakeCycleId = some wake ∧
      s.wakeCycles.updateRecord (finalizeWake wake claim.claimedGeneration) wake.revision =
        .ok wakeCycles ∧
      s' = { s with
        agendaRuntime := s.agendaRuntime.replace (row.checkpoint claim.claimedGeneration)
        agendaItems := agendaItems
        wakeCycles := wakeCycles } := by
  simp only [checkpointDecision, bind_eq_ok, Records.getRecord_eq_ok, pure_eq_ok] at h
  obtain ⟨current, hcurrent, completed, hcompleted, agendaItems, hitems, wake, hwake, wakeCycles,
    hwakes, rfl⟩ := h
  exact ⟨current, completed, agendaItems, wake, wakeCycles, hcurrent,
    AgendaItem.make_eq_ok hcompleted, hitems, hwake, hwakes, rfl⟩

end AgendaTables

end DigitalColleagues
