import DigitalColleagues.Core.Timestamps
import DigitalColleagues.Store.Agenda
import DigitalColleagues.Store.Outbox

/-!
# Claim queries over text

The queries of the claims as the database runs them, comparing and ordering the
text of their timestamp columns. On tables whose timestamps are datetimes they
select the rows that the comparison of the instants selects.
-/

namespace DigitalColleagues

open Keyed

-- ════════════════════════════════════════════════════════════════════════
-- Columns
-- ════════════════════════════════════════════════════════════════════════

/-- An instant that a datetime names. -/
def Dated (t : Instant) : Prop := ∃ a : UtcDatetime, a.instant = t

open Classical in
/-- What a timestamp column holds: the text of the datetime of its instant. -/
noncomputable def columnText (t : Instant) : String :=
  if h : Dated t then datetimeToZ h.choose else ""

theorem columnText_instant (a : UtcDatetime) : columnText a.instant = datetimeToZ a := by
  have h : Dated a.instant := ⟨a, rfl⟩
  rw [columnText, dif_pos h, UtcDatetime.instant_inj.mp h.choose_spec]

/-- Columns compare as their instants do. -/
theorem columnText_lt_iff {s t : Instant} (hs : Dated s) (ht : Dated t) :
    columnText s < columnText t ↔ s < t := by
  obtain ⟨a, rfl⟩ := hs
  obtain ⟨b, rfl⟩ := ht
  rw [columnText_instant, columnText_instant, datetimeToZ_lt_iff, UtcDatetime.instant_lt_iff]

theorem columnText_inj {s t : Instant} (hs : Dated s) (ht : Dated t) :
    columnText s = columnText t ↔ s = t := by
  refine ⟨fun h => ?_, fun h => by rw [h]⟩
  have hlt := (columnText_lt_iff hs ht).not.mp (h ▸ lt_irrefl _)
  have hgt := (columnText_lt_iff ht hs).not.mp (h ▸ lt_irrefl _)
  exact le_antisymm (not_lt.mp hgt) (not_lt.mp hlt)

section Bounds

variable {t : Instant} {now : UtcDatetime}

theorem columnText_lt_now (h : Dated t) : columnText t < datetimeToZ now ↔ t < now.instant := by
  rw [← columnText_instant, columnText_lt_iff h ⟨now, rfl⟩]

theorem columnText_le_now (h : Dated t) : columnText t ≤ datetimeToZ now ↔ t ≤ now.instant := by
  rw [← columnText_instant, ← not_lt, columnText_lt_iff ⟨now, rfl⟩ h, not_lt]

/-- A lease that expired by its text expired by its instant. -/
theorem expired_text_eq {lease : Option Instant} (h : ∀ t ∈ lease, Dated t) :
    (lease.any fun t => decide (columnText t < datetimeToZ now)) =
      lease.any fun t => decide (t < now.instant) := by
  cases lease with
  | none => rfl
  | some t => simp only [Option.any_some, columnText_lt_now (h t rfl)]

theorem free_text_eq {lease : Option Instant} (h : ∀ t ∈ lease, Dated t) :
    (lease.all fun t => decide (columnText t < datetimeToZ now)) =
      lease.all fun t => decide (t < now.instant) := by
  cases lease with
  | none => rfl
  | some t => simp only [Option.all_some, columnText_lt_now (h t rfl)]

end Bounds

/-- A rank by a column, then by what follows it in the order. -/
theorem rank_lt_iff {β : Type} [LinearOrder β] {s t : Instant} (hs : Dated s) (ht : Dated t)
    (x y : β) : toLex (columnText s, x) < toLex (columnText t, y) ↔ toLex (s, x) < toLex (t, y) := by
  simp only [Prod.Lex.toLex_lt_toLex, columnText_lt_iff hs ht, columnText_inj hs ht]

-- ════════════════════════════════════════════════════════════════════════
-- The outbox
-- ════════════════════════════════════════════════════════════════════════

namespace OutboxRow

/-- The timestamps of the row are datetimes. -/
def Dated (r : OutboxRow) : Prop :=
  DigitalColleagues.Dated r.nextAttemptAt ∧ ∀ t ∈ r.leaseUntil, DigitalColleagues.Dated t

/-- The `WHERE` of `_claim_outbox_state`. -/
noncomputable def eligibleText (now : UtcDatetime) (sourceStates : List OutboxState)
    (excludeStopped : Bool) (r : OutboxRow) : Bool :=
  decide (r.state ∈ sourceStates) && decide (columnText r.nextAttemptAt ≤ datetimeToZ now) &&
    (r.leaseUntil.all fun t => decide (columnText t < datetimeToZ now)) &&
    decide (r.attemptNumber ≤ r.maximumAttempts) &&
    (!excludeStopped || match r.lastOutcome with
      | some (.stillUnknownStopped _) => false
      | _ => true)

/-- `ORDER BY next_attempt_at, outbox_id`. -/
noncomputable def rankText (r : OutboxRow) : String ×ₗ StableId :=
  toLex (columnText r.nextAttemptAt, r.outboxId)

/-- The `WHERE` of `recover_expired_dispatches`. -/
noncomputable def expiredText (now : UtcDatetime) (r : OutboxRow) : Bool :=
  decide (r.state = .dispatching) &&
    r.leaseUntil.any fun t => decide (columnText t < datetimeToZ now)

/-- `ORDER BY lease_until, outbox_id`. -/
noncomputable def leaseRankText (r : OutboxRow) : String ×ₗ StableId :=
  toLex ((r.leaseUntil.map columnText).getD "", r.outboxId)

variable {r x : OutboxRow} {now : UtcDatetime}

theorem eligibleText_eq (h : r.Dated) (sourceStates : List OutboxState) (excludeStopped : Bool) :
    r.eligibleText now sourceStates excludeStopped =
      r.eligible now.instant sourceStates excludeStopped := by
  simp only [eligibleText, free_text_eq h.2, columnText_le_now h.1]
  rfl

theorem rankText_lt_iff (h : r.Dated) (hx : x.Dated) : r.rankText < x.rankText ↔ r.rank < x.rank :=
  rank_lt_iff h.1 hx.1 _ _

theorem expiredText_eq (h : r.Dated) : r.expiredText now =
    (decide (r.state = .dispatching) && r.leaseUntil.any fun t => decide (t < now.instant)) := by
  rw [expiredText, expired_text_eq h.2]

/-- Expired rows have a lease, so their order never compares a missing one. -/
theorem leaseRankText_lt_iff {t u : Instant} (h : r.Dated) (hx : x.Dated)
    (hr : r.leaseUntil = some t) (hu : x.leaseUntil = some u) :
    r.leaseRankText < x.leaseRankText ↔
      toLex (r.leaseUntil.getD 0, r.outboxId) < toLex (x.leaseUntil.getD 0, x.outboxId) := by
  rw [leaseRankText, leaseRankText, hr, hu]
  exact rank_lt_iff (h.2 t hr) (hx.2 u hu) _ _

end OutboxRow

namespace EffectTables

/-- Every timestamp of the outbox is a datetime. -/
def Dated (s : EffectTables) : Prop := ∀ r ∈ s.outbox, r.Dated

noncomputable def nextOutboxText (s : EffectTables) (now : UtcDatetime)
    (sourceStates : List OutboxState) (excludeStopped : Bool) : Option OutboxRow :=
  s.outbox.selectMin (OutboxRow.eligibleText now sourceStates excludeStopped) OutboxRow.rankText

noncomputable def nextExpiredDispatchText (s : EffectTables) (now : UtcDatetime) :
    Option OutboxRow :=
  s.outbox.selectMin (OutboxRow.expiredText now) OutboxRow.leaseRankText

variable {s : EffectTables} {now : UtcDatetime}

theorem nextOutboxText_eq (h : s.Dated) (sourceStates : List OutboxState)
    (excludeStopped : Bool) : s.nextOutboxText now sourceStates excludeStopped =
      s.outbox.selectMin (OutboxRow.eligible now.instant sourceStates excludeStopped)
        OutboxRow.rank :=
  Table.selectMin_congr (fun r hr => OutboxRow.eligibleText_eq (h r hr) _ _)
    fun r hr x hx _ _ => OutboxRow.rankText_lt_iff (h r hr) (h x hx)

theorem nextExpiredDispatchText_eq (h : s.Dated) :
    s.nextExpiredDispatchText now = s.nextExpiredDispatch now.instant := by
  refine Table.selectMin_congr (fun r hr => OutboxRow.expiredText_eq (h r hr)) ?_
  intro r hr x hx hexpired hexpired'
  rw [OutboxRow.expiredText_eq (h r hr), Bool.and_eq_true, Option.any_eq_true] at hexpired
  rw [OutboxRow.expiredText_eq (h x hx), Bool.and_eq_true, Option.any_eq_true] at hexpired'
  obtain ⟨-, t, ht, -⟩ := hexpired
  obtain ⟨-, u, hu, -⟩ := hexpired'
  exact OutboxRow.leaseRankText_lt_iff (h r hr) (h x hx) ht hu

end EffectTables

-- ════════════════════════════════════════════════════════════════════════
-- Triggers
-- ════════════════════════════════════════════════════════════════════════

namespace TriggerRow

def Dated (r : TriggerRow) : Prop :=
  DigitalColleagues.Dated r.dueAt ∧ ∀ t ∈ r.leaseUntil, DigitalColleagues.Dated t

/-- The `WHERE` of both queries of `claim_trigger`. -/
noncomputable def claimableText (now : UtcDatetime) (r : TriggerRow) : Bool :=
  decide (columnText r.dueAt ≤ datetimeToZ now) &&
    (decide (r.state = .pending) ||
      (decide (r.state = .claimed) &&
        r.leaseUntil.any fun t => decide (columnText t < datetimeToZ now)))

/-- `ORDER BY due_at, trigger_id`. -/
noncomputable def rankText (r : TriggerRow) : String ×ₗ StableId :=
  toLex (columnText r.dueAt, r.triggerId)

variable {r x : TriggerRow} {now : UtcDatetime}

theorem claimableText_eq (h : r.Dated) : r.claimableText now = r.claimable now.instant := by
  simp only [claimableText, claimable, expired_text_eq h.2, columnText_le_now h.1]

theorem rankText_lt_iff (h : r.Dated) (hx : x.Dated) : r.rankText < x.rankText ↔ r.rank < x.rank :=
  rank_lt_iff h.1 hx.1 _ _

end TriggerRow

-- ════════════════════════════════════════════════════════════════════════
-- The agenda
-- ════════════════════════════════════════════════════════════════════════

namespace AgendaRow

def Dated (r : AgendaRow) : Prop :=
  (∀ t ∈ r.dueAt, DigitalColleagues.Dated t) ∧ ∀ t ∈ r.leaseUntil, DigitalColleagues.Dated t

/-- The `WHERE` of `claim_agenda`. -/
noncomputable def claimableText (now : UtcDatetime) (r : AgendaRow) : Bool :=
  decide (r.handledGeneration < r.generation) &&
    (decide (r.state = .pending) ||
      (decide (r.state = .selected) &&
        r.leaseUntil.any fun t => decide (columnText t < datetimeToZ now)))

/-- The order of `claim_agenda`, with the text of the due time. -/
noncomputable def rankText (r : AgendaRow) : ℤ ×ₗ ℤ ×ₗ ℕ ×ₗ String ×ₗ StableId :=
  toLex (-(r.starvationCount : ℤ), toLex (-r.priority,
    toLex (if r.dueAt.isNone then 1 else 0,
      toLex ((r.dueAt.map columnText).getD "", r.agendaItemId))))

variable {r x : AgendaRow} {now : UtcDatetime}

theorem claimableText_eq (h : r.Dated) : r.claimableText now = r.claimable now.instant := by
  simp only [claimableText, claimable, expired_text_eq h.2]

/-- Due times are compared only when both rows have one or neither does. -/
theorem rankText_lt_iff (h : r.Dated) (hx : x.Dated) :
    r.rankText < x.rankText ↔ r.rank < x.rank := by
  unfold rankText rank
  cases hr : r.dueAt with
  | none =>
    cases hu : x.dueAt with
    | none => simp [Prod.Lex.toLex_lt_toLex]
    | some u => simp [Prod.Lex.toLex_lt_toLex]
  | some t =>
    cases hu : x.dueAt with
    | none => simp [Prod.Lex.toLex_lt_toLex]
    | some u =>
      have hdue := rank_lt_iff (h.1 t hr) (hx.1 u hu) r.agendaItemId x.agendaItemId
      simp only [Prod.Lex.toLex_lt_toLex] at hdue ⊢
      simp only [Option.map_some, Option.getD_some, Option.isNone_some, hdue]

end AgendaRow

namespace AgendaTables

/-- Every timestamp of the trigger and agenda tables is a datetime. -/
structure Dated (s : AgendaTables) : Prop where
  triggers : ∀ r ∈ s.triggers, r.Dated
  timerTriggers : ∀ r ∈ s.timerTriggers, r.Dated
  agendaRuntime : ∀ r ∈ s.agendaRuntime, r.Dated

/-- The selection of `claim_trigger`; the earlier text goes first. -/
noncomputable def nextTriggerText (s : AgendaTables) (now : UtcDatetime) :
    Option (SourceRecordType × TriggerRow) :=
  match s.triggers.selectMin (TriggerRow.claimableText now) TriggerRow.rankText,
      s.timerTriggers.selectMin (TriggerRow.claimableText now) TriggerRow.rankText with
  | none, none => none
  | some e, none => some (.inputEvent, e)
  | none, some t => some (.timerOccurrence, t)
  | some e, some t =>
    if e.rankText ≤ t.rankText then some (.inputEvent, e) else some (.timerOccurrence, t)

noncomputable def nextAgendaText (s : AgendaTables) (now : UtcDatetime) : Option AgendaRow :=
  s.agendaRuntime.selectMin (AgendaRow.claimableText now) AgendaRow.rankText

variable {s : AgendaTables} {now : UtcDatetime}

theorem selectTriggerText_eq {t : Table TriggerRow} (h : ∀ r ∈ t, r.Dated) :
    t.selectMin (TriggerRow.claimableText now) TriggerRow.rankText =
      t.selectMin (TriggerRow.claimable now.instant) TriggerRow.rank :=
  Table.selectMin_congr (fun r hr => TriggerRow.claimableText_eq (h r hr))
    fun r hr x hx _ _ => TriggerRow.rankText_lt_iff (h r hr) (h x hx)

theorem nextTriggerText_eq (h : s.Dated) : s.nextTriggerText now = s.nextTrigger now.instant := by
  rw [nextTriggerText, nextTrigger, selectTriggerText_eq h.triggers,
    selectTriggerText_eq h.timerTriggers]
  cases hevent : s.triggers.selectMin (TriggerRow.claimable now.instant) TriggerRow.rank with
  | none =>
    cases s.timerTriggers.selectMin (TriggerRow.claimable now.instant) TriggerRow.rank <;> rfl
  | some e =>
    cases htimer : s.timerTriggers.selectMin (TriggerRow.claimable now.instant)
        TriggerRow.rank with
    | none => rfl
    | some t =>
      have hrank : e.rankText ≤ t.rankText ↔ e.rank ≤ t.rank := by
        rw [← not_lt, ← not_lt, TriggerRow.rankText_lt_iff
          (h.timerTriggers t (Table.selectMin_mem htimer).1)
          (h.triggers e (Table.selectMin_mem hevent).1)]
      simp only [hrank]

theorem nextAgendaText_eq (h : s.Dated) : s.nextAgendaText now = s.nextAgenda now.instant :=
  Table.selectMin_congr (fun r hr => AgendaRow.claimableText_eq (h.agendaRuntime r hr))
    fun r hr x hx _ _ => AgendaRow.rankText_lt_iff (h.agendaRuntime r hr) (h.agendaRuntime x hx)

end AgendaTables

-- ════════════════════════════════════════════════════════════════════════
-- Stored timestamps
-- ════════════════════════════════════════════════════════════════════════

/-- Stored timestamps sort like the datetimes they are written from and these
    like their instants, they are read back as they were, and the claim queries
    over texts select what the comparison of the instants selects. -/
theorem timestamps_sort_like_instants :
    (∀ a b : UtcDatetime, (datetimeToZ a < datetimeToZ b ↔ a < b) ∧
      (a < b ↔ a.instant < b.instant)) ∧
    (∀ (otherForms : List Char → Option UtcDatetime) (a : UtcDatetime),
      datetimeFromZ otherForms (datetimeToZ a) = .ok a) ∧
    (∀ (s : EffectTables) (now : UtcDatetime), s.Dated →
      (∀ sourceStates excludeStopped, s.nextOutboxText now sourceStates excludeStopped =
        s.outbox.selectMin (OutboxRow.eligible now.instant sourceStates excludeStopped)
          OutboxRow.rank) ∧
      s.nextExpiredDispatchText now = s.nextExpiredDispatch now.instant) ∧
    ∀ (s : AgendaTables) (now : UtcDatetime), s.Dated →
      s.nextTriggerText now = s.nextTrigger now.instant ∧
      s.nextAgendaText now = s.nextAgenda now.instant := by
  refine ⟨fun a b => ?_, datetimeFromZ_datetimeToZ, fun s now h => ?_, fun s now h => ?_⟩
  · exact ⟨datetimeToZ_lt_iff, UtcDatetime.instant_lt_iff.symm⟩
  · exact ⟨EffectTables.nextOutboxText_eq h, EffectTables.nextExpiredDispatchText_eq h⟩
  · exact ⟨AgendaTables.nextTriggerText_eq h, AgendaTables.nextAgendaText_eq h⟩

theorem lastOfYear_valid : (UtcDatetime.make 1999 12 31 23 59 59 999999).isSome = true := by
  decide

/-- `1999-12-31T23:59:59.999999Z`. -/
def lastOfYear : UtcDatetime := (UtcDatetime.make 1999 12 31 23 59 59 999999).get lastOfYear_valid

theorem firstOfYear_valid : (UtcDatetime.make 2000 1 1 0 0 0 0).isSome = true := by decide

/-- The next microsecond. -/
def firstOfYear : UtcDatetime := (UtcDatetime.make 2000 1 1 0 0 0 0).get firstOfYear_valid

def dueOutboxRow (outboxId : StableId) (due : UtcDatetime) : OutboxRow where
  outboxId := outboxId
  proposalId := stableId "proposal:due"
  approvalDecisionId := stableId "approval:due"
  effectAttemptId := stableId "attempt:due"
  effectIdempotencyKey := stableId "effect:due"
  state := .pending
  attemptNumber := 1
  maximumAttempts := 1
  nextAttemptAt := due.instant
  leaseOwner := none
  leaseUntil := none
  fencingToken := 0
  lastOutcome := none
  actorPrincipalId := stableId "service:due"
  correlationId := stableId "correlation:due"
  causationId := stableId "approval:due"
  revision := 1

def dueTriggerRow (triggerId : StableId) (due : UtcDatetime) : TriggerRow where
  triggerId := triggerId
  sourceId := stableId "source:due"
  dueAt := due.instant
  state := .pending
  leaseOwner := none
  leaseUntil := none
  fencingToken := 0
  attemptCount := 0
  correlationId := stableId "correlation:due"
  causationId := stableId "source:due"
  revision := 1

def dueRows : List OutboxRow :=
  [dueOutboxRow (stableId "outbox:early-name") firstOfYear,
    dueOutboxRow (stableId "outbox:late-name") lastOfYear]

theorem dueRows_nodup : (dueRows.map Keyed.key).Nodup := by decide

def dueOutbox : EffectTables := { EffectTables.empty with outbox := ⟨dueRows, dueRows_nodup⟩ }

def dueEvents : List TriggerRow := [dueTriggerRow (stableId "trigger:event") firstOfYear]

def dueTimers : List TriggerRow := [dueTriggerRow (stableId "trigger:timer") lastOfYear]

theorem dueEvents_nodup : (dueEvents.map Keyed.key).Nodup := by decide

theorem dueTimers_nodup : (dueTimers.map Keyed.key).Nodup := by decide

def dueAgenda : AgendaTables :=
  { AgendaTables.empty with
    triggers := ⟨dueEvents, dueEvents_nodup⟩
    timerTriggers := ⟨dueTimers, dueTimers_nodup⟩ }

theorem dated_dueOutbox : dueOutbox.Dated := by
  intro r hr
  simp only [dueOutbox, dueRows, Table.mem_def, List.mem_cons, List.not_mem_nil, or_false] at hr
  obtain rfl | rfl := hr
  · exact ⟨⟨firstOfYear, rfl⟩, by simp [dueOutboxRow]⟩
  · exact ⟨⟨lastOfYear, rfl⟩, by simp [dueOutboxRow]⟩

theorem dated_dueAgenda : dueAgenda.Dated where
  triggers := by
    intro r hr
    obtain rfl := List.mem_singleton.mp hr
    exact ⟨⟨firstOfYear, rfl⟩, by simp [dueTriggerRow]⟩
  timerTriggers := by
    intro r hr
    obtain rfl := List.mem_singleton.mp hr
    exact ⟨⟨lastOfYear, rfl⟩, by simp [dueTriggerRow]⟩
  agendaRuntime := fun r hr => absurd hr (Table.not_mem_empty r)

/-- At the turn of the year both claims take the row due a microsecond earlier. -/
theorem timestamps_sort_at_year_end :
    (dueOutbox.nextOutboxText firstOfYear [.pending] false).map OutboxRow.outboxId =
      some (stableId "outbox:late-name") ∧
    (dueAgenda.nextTriggerText firstOfYear).map Prod.fst = some .timerOccurrence := by
  obtain ⟨-, -, houtbox, hagenda⟩ := timestamps_sort_like_instants
  rw [(houtbox dueOutbox firstOfYear dated_dueOutbox).1,
    (hagenda dueAgenda firstOfYear dated_dueAgenda).1]
  exact ⟨rfl, rfl⟩

end DigitalColleagues
