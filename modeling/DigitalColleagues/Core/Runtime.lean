import DigitalColleagues.Core.Principals

/-!
# Events, wake cycles, agenda items and decisions

The causal records of one colleague. A record lives in the store of its
colleague, so it does not repeat the namespace.
-/

namespace DigitalColleagues

/-- A policy identity is complete or absent. -/
structure PolicyBinding where
  policyId : StableId
  policyRevision : ℕ
deriving DecidableEq

-- ════════════════════════════════════════════════════════════════════════
-- Trigger sources
-- ════════════════════════════════════════════════════════════════════════

inductive InputEventState
  | received
  | accepted
  | rejected
deriving DecidableEq

structure InputEvent where
  eventId : StableId
  eventType : StableId
  state : InputEventState
  safeProjection : FrozenJsonObject
  payloadDigest : Digest
  actor : Principal
  correlationId : StableId
  causationId : Option StableId
  occurredAt : Instant
  revision : ℕ
  policy : Option PolicyBinding

/-- `==` on input events. -/
def InputEvent.pyEq (a b : InputEvent) : Bool :=
  decide (a.eventId = b.eventId ∧ a.eventType = b.eventType ∧ a.state = b.state ∧
    a.payloadDigest = b.payloadDigest ∧ a.actor = b.actor ∧
    a.correlationId = b.correlationId ∧ a.causationId = b.causationId ∧
    a.occurredAt = b.occurredAt ∧ a.revision = b.revision ∧ a.policy = b.policy) &&
  a.safeProjection.pyEq b.safeProjection

inductive TimerOccurrenceState
  | scheduled
  | due
deriving DecidableEq

/-- One durable scheduled occurrence, distinct from an inbound event. -/
structure TimerOccurrence where
  timerId : StableId
  occurrenceId : StableId
  state : TimerOccurrenceState
  dueAt : Instant
  safeProjection : FrozenJsonObject
  actor : Principal
  correlationId : StableId
  causationId : Option StableId
  occurredAt : Instant
  revision : ℕ
  policy : Option PolicyBinding

/-- `==` on timer occurrences. -/
def TimerOccurrence.pyEq (a b : TimerOccurrence) : Bool :=
  decide (a.timerId = b.timerId ∧ a.occurrenceId = b.occurrenceId ∧ a.state = b.state ∧
    a.dueAt = b.dueAt ∧ a.actor = b.actor ∧ a.correlationId = b.correlationId ∧
    a.causationId = b.causationId ∧ a.occurredAt = b.occurredAt ∧ a.revision = b.revision ∧
    a.policy = b.policy) &&
  a.safeProjection.pyEq b.safeProjection

-- ════════════════════════════════════════════════════════════════════════
-- Wake cycles
-- ════════════════════════════════════════════════════════════════════════

inductive WakeCycleState
  | planned
  | running
  | completed
  | failed
  | cancelled
deriving DecidableEq, Repr

structure WakeCycle where
  wakeCycleId : StableId
  state : WakeCycleState
  triggerEventIds : List StableId
  agendaItemIds : List StableId
  actor : Principal
  correlationId : StableId
  causationId : Option StableId
  occurredAt : Instant
  revision : ℕ
  fencingToken : ℕ
  checkpointGeneration : ℕ
  triggerTimerOccurrenceIds : List StableId
  policy : Option PolicyBinding
deriving DecidableEq

-- ════════════════════════════════════════════════════════════════════════
-- Agenda items
-- ════════════════════════════════════════════════════════════════════════

inductive AgendaItemState
  | pending
  | selected
  | completed
  | deferred
  | cancelled
deriving DecidableEq, Repr

/-- The arguments of the `AgendaItem` constructor. -/
structure AgendaItemFields where
  agendaItemId : StableId
  wakeCycleId : StableId
  sourceEventId : Option StableId
  workId : Option String
  title : String
  state : AgendaItemState
  priority : ℤ
  dueAt : Option Instant
  actor : Principal
  correlationId : StableId
  causationId : StableId
  occurredAt : Instant
  revision : ℕ
  generation : ℕ
  handledGeneration : ℕ
  causeIds : List StableId
  sourceTimerOccurrenceId : Option StableId
  policy : Option PolicyBinding
deriving DecidableEq

namespace AgendaItemFields

/-- `source_event_id or source_timer_occurrence_id`. -/
def sourceId (f : AgendaItemFields) : Option StableId :=
  f.sourceEventId.or f.sourceTimerOccurrenceId

/-- What `__post_init__` stores: the stripped title, and the source as the
    only cause when no cause was given. -/
def normalize (f : AgendaItemFields) : AgendaItemFields :=
  { f with
    title := strip f.title
    causeIds := if f.causeIds = [] then f.sourceId.toList else f.causeIds }

@[simp] theorem normalize_agendaItemId (f : AgendaItemFields) :
    f.normalize.agendaItemId = f.agendaItemId := rfl

@[simp] theorem normalize_wakeCycleId (f : AgendaItemFields) :
    f.normalize.wakeCycleId = f.wakeCycleId := rfl

@[simp] theorem normalize_state (f : AgendaItemFields) : f.normalize.state = f.state := rfl

@[simp] theorem normalize_priority (f : AgendaItemFields) :
    f.normalize.priority = f.priority := rfl

@[simp] theorem normalize_generation (f : AgendaItemFields) :
    f.normalize.generation = f.generation := rfl

@[simp] theorem normalize_handledGeneration (f : AgendaItemFields) :
    f.normalize.handledGeneration = f.handledGeneration := rfl

/-- Rebuilding an item that has causes keeps them. -/
@[simp] theorem normalize_causeIds {f : AgendaItemFields} (h : f.causeIds ≠ []) :
    f.normalize.causeIds = f.causeIds := by
  simp [normalize, h]

/-- The checks of `__post_init__`, in its order, on the normalized fields. -/
def validate (f : AgendaItemFields) : Outcome Unit := do
  require (f.sourceEventId.isNone ≠ f.sourceTimerOccurrenceId.isNone)
    (.coreInvariant "Agenda must name exactly one event or timer source")
  require (∀ w ∈ f.workId, isStableId w = true)
    (.coreInvariant "work_id must be an explicit stable string ID")
  require (f.title ≠ "" ∧ f.title.length ≤ 4096)
    (.coreInvariant "title must be non-empty and bounded")
  require (0 ≤ f.priority ∧ f.priority ≤ 1000)
    (.coreInvariant "agenda priority must be an integer from 0 through 1000")
  require (f.causationId = f.wakeCycleId)
    (.coreInvariant "agenda item causation must name its wake cycle")
  require (1 ≤ f.generation) (.coreInvariant "generation must be a positive integer")
  require (f.handledGeneration ≤ f.generation)
    (.coreInvariant "handled_generation must be within the Agenda generation")
  require f.causeIds.Nodup (.coreInvariant "cause_ids must not contain duplicates")
  require (∀ i ∈ f.sourceId, i ∈ f.causeIds)
    (.coreInvariant "Agenda causes must retain the trigger source")

theorem validate_eq_ok {f : AgendaItemFields} {u : Unit} :
    f.validate = .ok u ↔ (f.sourceEventId.isNone ≠ f.sourceTimerOccurrenceId.isNone) ∧
      (∀ w ∈ f.workId, isStableId w = true) ∧ (f.title ≠ "" ∧ f.title.length ≤ 4096) ∧
      (0 ≤ f.priority ∧ f.priority ≤ 1000) ∧ f.causationId = f.wakeCycleId ∧ 1 ≤ f.generation ∧
      f.handledGeneration ≤ f.generation ∧ f.causeIds.Nodup ∧ ∀ i ∈ f.sourceId, i ∈ f.causeIds := by
  simp only [validate, bind_eq_ok, require_eq_ok, exists_const]

end AgendaItemFields

/-- An agenda item that its constructor accepted. -/
structure AgendaItem extends AgendaItemFields where
  valid : toAgendaItemFields.validate = .ok ()

namespace AgendaItem

instance : DecidableEq AgendaItem := fun a b =>
  decidable_of_iff (a.toAgendaItemFields = b.toAgendaItemFields) <| by
    cases a
    cases b
    simp

def make (f : AgendaItemFields) : Outcome AgendaItem :=
  match h : f.normalize.validate with
  | .ok () => .ok ⟨f.normalize, h⟩
  | .error e => .error e

theorem make_eq_ok {f : AgendaItemFields} {item : AgendaItem} (h : make f = .ok item) :
    item.toAgendaItemFields = f.normalize := by
  unfold make at h
  split at h
  · obtain rfl := Except.ok.inj h
    rfl
  · exact absurd h (by simp)

theorem make_eq_ok_iff {f : AgendaItemFields} :
    (∃ item, make f = .ok item) ↔ f.normalize.validate = .ok () := by
  unfold make
  split
  · rename_i h
    exact ⟨fun _ => h, fun _ => ⟨_, rfl⟩⟩
  · rename_i h
    simp [h]

/-- The checks of the constructor hold of every agenda item. -/
theorem checks (item : AgendaItem) :
    (item.sourceEventId.isNone ≠ item.sourceTimerOccurrenceId.isNone) ∧
      item.handledGeneration ≤ item.generation ∧ item.causeIds.Nodup ∧
      ∀ i ∈ item.sourceId, i ∈ item.causeIds := by
  obtain ⟨hone, _, _, _, _, _, hhandled, hnodup, hsource⟩ :=
    AgendaItemFields.validate_eq_ok.mp item.valid
  exact ⟨hone, hhandled, hnodup, hsource⟩

theorem handledGeneration_le (item : AgendaItem) : item.handledGeneration ≤ item.generation :=
  item.checks.2.1

theorem causeIds_nodup (item : AgendaItem) : item.causeIds.Nodup :=
  item.checks.2.2.1

theorem causeIds_ne_nil (item : AgendaItem) : item.causeIds ≠ [] := by
  obtain ⟨hone, _, _, hsource⟩ := item.checks
  intro hnil
  simp only [AgendaItemFields.sourceId, hnil, List.not_mem_nil, imp_false, Option.mem_def] at hsource
  cases he : item.sourceEventId with
  | some e => simp [he] at hsource
  | none =>
    cases ht : item.sourceTimerOccurrenceId with
    | some t => simp [he, ht] at hsource
    | none => simp [he, ht] at hone

end AgendaItem

-- ════════════════════════════════════════════════════════════════════════
-- Decisions
-- ════════════════════════════════════════════════════════════════════════

inductive DecisionKind
  | proposeEffect
  | completeItem
  | deferItem
  | noAction
deriving DecidableEq

/-- A decision about one agenda item; only an effect decision names an effect. -/
structure Decision where
  decisionId : StableId
  wakeCycleId : StableId
  agendaItemId : StableId
  kind : DecisionKind
  rationale : String
  proposedEffectId : Option StableId
  actor : Principal
  correlationId : StableId
  occurredAt : Instant
  revision : ℕ
  policy : Option PolicyBinding
  effect_iff : kind = .proposeEffect ↔ proposedEffectId.isSome := by decide
deriving DecidableEq

/-- Decision causation names its agenda item. -/
def Decision.causationId (d : Decision) : StableId := d.agendaItemId

end DigitalColleagues
