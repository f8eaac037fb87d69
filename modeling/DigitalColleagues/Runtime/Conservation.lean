import DigitalColleagues.Runtime.AgendaSync

/-!
# Triggers are conserved in the agenda

Every completed trigger is a cause of an agenda item and nothing else is. The
causes keep only the source identifier, so the account is by identifier over
both trigger tables.
-/

namespace DigitalColleagues

open Keyed AgendaTables

/-- How many triggers of a table are completed and name the source. -/
def completedCount (t : Table TriggerRow) (id : StableId) : ℕ :=
  t.sum fun r => if r.state = .completed ∧ r.sourceId = id then 1 else 0

namespace AgendaTables

/-- How often an identifier occurs among the causes of all agenda items. -/
def occurrences (s : AgendaTables) (id : StableId) : ℕ :=
  s.agendaRuntime.sum fun r => r.causeIds.count id

/-- How many triggers of both tables are completed and name the source. -/
def completed (s : AgendaTables) (id : StableId) : ℕ :=
  completedCount s.triggers id + completedCount s.timerTriggers id

end AgendaTables

/-- The account of causes, with what keeps it: sources are distinct within a
    table, generations count causes, and a claim names the source of its row. -/
structure AgendaSide.Conserved (s : AgendaSide) : Prop where
  balance : ∀ id, s.tables.occurrences id = s.tables.completed id
  distinct : ∀ type, ∀ r ∈ s.tables.triggerTable type, ∀ r' ∈ s.tables.triggerTable type,
    r.sourceId = r'.sourceId → r = r'
  counted : ∀ row ∈ s.tables.agendaRuntime, row.generation = row.causeIds.length
  claimed : ∀ claim ∈ s.triggerClaims, ∃ r,
    (s.tables.triggerTable claim.sourceRecordType).find? claim.triggerId = some r ∧
      r.sourceId = claim.sourceId

-- ════════════════════════════════════════════════════════════════════════
-- Trigger tables
-- ════════════════════════════════════════════════════════════════════════

theorem completed_setTriggerTable (s : AgendaTables) (type : SourceRecordType)
    (t : Table TriggerRow) (id : StableId) :
    (s.setTriggerTable type t).completed id + completedCount (s.triggerTable type) id =
      s.completed id + completedCount t id := by
  cases type <;> simp only [completed, setTriggerTable, triggerTable] <;> omega

theorem completed_congr {s t : AgendaTables}
    (h : ∀ type, s.triggerTable type = t.triggerTable type) (id : StableId) :
    s.completed id = t.completed id := by
  have he : s.triggers = t.triggers := h .inputEvent
  have ht : s.timerTriggers = t.timerTriggers := h .timerOccurrence
  simp only [completed, he, ht]

theorem completedCount_insert {t t' : Table TriggerRow} {r : TriggerRow}
    (h : t.insert? r = some t') (hr : r.state = .pending) (id : StableId) :
    completedCount t' id = completedCount t id := by
  simp [completedCount, Table.sum_insert h, hr]

/-- Writing over a trigger that was not completed adds at most that trigger. -/
theorem completedCount_replace {t : Table TriggerRow} {r r' : TriggerRow}
    (h : t.find? r'.triggerId = some r) (hr : r.state ≠ .completed) (id : StableId) :
    completedCount (t.replace r') id =
      completedCount t id + if r'.state = .completed ∧ r'.sourceId = id then 1 else 0 := by
  have hsum := Table.sum_replace (t := t) (r := r') h
    fun r => if r.state = .completed ∧ r.sourceId = id then 1 else 0
  simpa [completedCount, hr] using hsum

/-- Replacing a row by one with its source keeps the sources of a table distinct. -/
theorem distinct_replace {t : Table TriggerRow} {r r' : TriggerRow}
    (h : t.find? r'.triggerId = some r) (hsource : r'.sourceId = r.sourceId)
    (hd : ∀ x ∈ t, ∀ y ∈ t, x.sourceId = y.sourceId → x = y) :
    ∀ x ∈ t.replace r', ∀ y ∈ t.replace r', x.sourceId = y.sourceId → x = y := by
  have hr : r ∈ t := Table.mem_of_find? h
  have hk : r.triggerId = r'.triggerId := Table.key_of_find? h
  intro x hx y hy hxy
  rcases (Table.mem_replace h).mp hx with rfl | ⟨hx', hxk⟩ <;>
    rcases (Table.mem_replace h).mp hy with rfl | ⟨hy', hyk⟩
  · rfl
  · have := hd r hr y hy' (hsource ▸ hxy)
    subst this
    exact absurd hk hyk
  · have := hd x hx' r hr (hsource ▸ hxy)
    subst this
    exact absurd hk hxk
  · exact hd x hx' y hy' hxy

theorem find?_replace_sourceId {t : Table TriggerRow} {r r' : TriggerRow}
    (h : t.find? r'.triggerId = some r) (hsource : r'.sourceId = r.sourceId) {id source : StableId}
    (hx : ∃ x, t.find? id = some x ∧ x.sourceId = source) :
    ∃ x, (t.replace r').find? id = some x ∧ x.sourceId = source := by
  obtain ⟨x, hfind, rfl⟩ := hx
  by_cases hid : id = r'.triggerId
  · subst hid
    obtain rfl := Option.some.inj (h.symm.trans hfind)
    exact ⟨r', Table.find?_replace_self h, hsource⟩
  · exact ⟨x, (Table.find?_replace_of_ne hid).trans hfind, rfl⟩

namespace AgendaSide.Conserved

variable {s : AgendaSide}

/-- A trigger row that was not completed is written over by one with the same
    source: the account moves by that source if the new row is completed. -/
theorem triggers_replace (h : s.Conserved) (r' : TriggerRow) {type : SourceRecordType} {r : TriggerRow}
    (hfind : (s.tables.triggerTable type).find? r'.triggerId = some r)
    (hstate : r.state ≠ .completed) (hsource : r'.sourceId = r.sourceId) :
    let t := s.tables.setTriggerTable type ((s.tables.triggerTable type).replace r')
    (∀ id, t.completed id = s.tables.completed id +
      if r'.state = .completed ∧ r'.sourceId = id then 1 else 0) ∧
    (∀ type', ∀ x ∈ t.triggerTable type', ∀ y ∈ t.triggerTable type',
      x.sourceId = y.sourceId → x = y) ∧
    ∀ claim ∈ s.triggerClaims, ∃ x,
      (t.triggerTable claim.sourceRecordType).find? claim.triggerId = some x ∧
        x.sourceId = claim.sourceId := by
  intro t
  refine ⟨fun id => ?_, fun type' => ?_, fun claim hclaim => ?_⟩
  · have hset : t.completed id + _ = _ := completed_setTriggerTable s.tables type _ id
    rw [completedCount_replace hfind hstate] at hset
    omega
  · by_cases htype : type' = type
    · subst htype
      simp only [t, triggerTable_setTriggerTable_self]
      exact distinct_replace hfind hsource (h.distinct type')
    · simp only [t, triggerTable_setTriggerTable_of_ne htype]
      exact h.distinct type'
  · have hclaimed := h.claimed claim hclaim
    by_cases htype : claim.sourceRecordType = type
    · subst htype
      simp only [t, triggerTable_setTriggerTable_self]
      exact find?_replace_sourceId hfind hsource hclaimed
    · simp only [t, triggerTable_setTriggerTable_of_ne htype]
      exact hclaimed

/-- Rows rewritten without touching causes or generation keep the account. -/
theorem of_rows (h : s.Conserved) {tables : AgendaTables} {claims : List AgendaClaim}
    (htriggers : ∀ type, tables.triggerTable type = s.tables.triggerTable type)
    (hoccurrences : ∀ id, tables.occurrences id = s.tables.occurrences id)
    (hcounted : ∀ row ∈ tables.agendaRuntime, row.generation = row.causeIds.length) :
    AgendaSide.Conserved { s with tables := tables, agendaClaims := claims } where
  balance id := by
    rw [hoccurrences, h.balance]
    exact (completed_congr htriggers id).symm
  distinct type := by
    simp only [htriggers]
    exact h.distinct type
  counted := hcounted
  claimed claim hclaim := by
    simp only [htriggers]
    exact h.claimed claim hclaim

/-- Replacing a row by one with its causes and generation changes no account. -/
theorem rows_replace {t : Table AgendaRow} (row' : AgendaRow) {row : AgendaRow}
    (hfind : t.find? row'.agendaItemId = some row) (hcauses : row'.causeIds = row.causeIds)
    (hgeneration : row'.generation = row.generation)
    (hcounted : ∀ x ∈ t, x.generation = x.causeIds.length) :
    (∀ id, ((t.replace row').sum fun x => x.causeIds.count id) =
      t.sum fun x => x.causeIds.count id) ∧
    ∀ x ∈ t.replace row', x.generation = x.causeIds.length := by
  refine ⟨fun id => ?_, fun x hx => ?_⟩
  · have := Table.sum_replace (t := t) (r := row') hfind fun x => x.causeIds.count id
    rw [hcauses] at this
    omega
  · rcases (Table.mem_replace hfind).mp hx with rfl | ⟨hx, _⟩
    · rw [hcauses, hgeneration]
      exact hcounted row (Table.mem_of_find? hfind)
    · exact hcounted x hx

/-- A completed trigger and a new cause with its source balance each other. -/
theorem materialize (h : s.Conserved) {claim : TriggerClaim} {trigger : TriggerRow}
    {tables : AgendaTables} (hclaim : claim ∈ s.triggerClaims)
    (hfind : (s.tables.triggerTable claim.sourceRecordType).find? claim.triggerId = some trigger)
    (hstate : trigger.state = .claimed)
    (htriggers : ∀ type, tables.triggerTable type = s.tables.triggerTable type)
    (hoccurrences : ∀ id, tables.occurrences id =
      s.tables.occurrences id + if claim.sourceId = id then 1 else 0)
    (hcounted : ∀ row ∈ tables.agendaRuntime, row.generation = row.causeIds.length) :
    AgendaSide.Conserved { s with tables := tables.completeTrigger claim trigger } := by
  have hid : trigger.triggerId = claim.triggerId := Table.key_of_find? hfind
  have hsource : trigger.sourceId = claim.sourceId := by
    obtain ⟨r, hr, hrs⟩ := h.claimed claim hclaim
    obtain rfl := Option.some.inj (hfind.symm.trans hr)
    exact hrs
  have hfind' : (s.tables.triggerTable claim.sourceRecordType).find? trigger.complete.triggerId =
      some trigger := by
    rw [show trigger.complete.triggerId = claim.triggerId from hid]
    exact hfind
  have hnot : trigger.state ≠ .completed := by simp [hstate]
  obtain ⟨hcompleted, hdistinct, hclaimed⟩ := h.triggers_replace trigger.complete hfind' hnot rfl
  have he : tables.triggers = s.tables.triggers := htriggers .inputEvent
  have ht : tables.timerTriggers = s.tables.timerTriggers := htriggers .timerOccurrence
  have htable : ∀ type, (tables.completeTrigger claim trigger).triggerTable type =
      (s.tables.setTriggerTable claim.sourceRecordType
        ((s.tables.triggerTable claim.sourceRecordType).replace trigger.complete)).triggerTable
          type := by
    intro type
    simp only [completeTrigger, htriggers]
    cases hc : claim.sourceRecordType <;> cases type <;>
      simp [setTriggerTable, triggerTable, he, ht]
  refine ⟨fun id => ?_, fun type => ?_, ?_, fun claim' hclaim' => ?_⟩
  · rw [completed_congr htable, hcompleted, ← h.balance]
    have : (tables.completeTrigger claim trigger).occurrences id = tables.occurrences id := by
      simp [occurrences, completeTrigger]
    rw [this, hoccurrences]
    simp [TriggerRow.complete, hsource]
  · simp only [htable]
    exact hdistinct type
  · simpa [completeTrigger] using hcounted
  · simp only [htable]
    exact hclaimed claim' hclaim'

end AgendaSide.Conserved

theorem AgendaSide.conserved_move {C : AgendaRow → AgendaClaim → Prop} {s t : AgendaSide}
    (h : s.Conserved) (hm : Move C s t) : t.Conserved := by
  cases hm with
  | idle => exact h
  | @ingest tables type trigger hruntime _ _ hpending hfresh hinsert hother =>
    refine ⟨fun id => ?_, fun type' => ?_, ?_, fun claim hclaim => ?_⟩
    · have hsame : ∀ type', completedCount (tables.triggerTable type') id =
          completedCount (s.tables.triggerTable type') id := by
        intro type'
        by_cases htype : type' = type
        · subst htype
          exact completedCount_insert hinsert hpending id
        · rw [hother type' htype]
      have he := hsame .inputEvent
      have ht := hsame .timerOccurrence
      have := h.balance id
      simp only [triggerTable] at he ht
      simp only [occurrences, completed, hruntime] at this ⊢
      omega
    · by_cases htype : type' = type
      · subst htype
        intro x hx y hy hxy
        rcases (Table.mem_insert hinsert).mp hx with hx | rfl <;>
          rcases (Table.mem_insert hinsert).mp hy with hy | rfl
        · exact h.distinct type' x hx y hy hxy
        · exact absurd hxy (hfresh x hx)
        · exact absurd hxy.symm (hfresh y hy)
        · rfl
      · simp only [hother type' htype]
        exact h.distinct type'
    · simpa only [hruntime] using h.counted
    · obtain ⟨r, hr, hsource⟩ := h.claimed claim hclaim
      by_cases htype : claim.sourceRecordType = type
      · subst htype
        exact ⟨r, Table.find?_insert_of_some hinsert hr, hsource⟩
      · exact ⟨r, by rw [hother _ htype]; exact hr, hsource⟩
  | @claimTrigger type row owner leaseUntil hfind hstate =>
    obtain ⟨hcompleted, hdistinct, hclaimed⟩ :=
      h.triggers_replace (row.claim owner leaseUntil) hfind hstate rfl
    refine ⟨fun id => ?_, hdistinct, ?_, fun claim hclaim => ?_⟩
    · rw [hcompleted]
      simpa [occurrences, TriggerRow.claim] using h.balance id
    · simpa using h.counted
    · rcases List.mem_append.mp hclaim with hclaim | hclaim
      · exact hclaimed claim hclaim
      · obtain rfl := List.mem_singleton.mp hclaim
        simp only [TriggerRow.claimOf, triggerTable_setTriggerTable_self]
        exact ⟨row.claim owner leaseUntil, Table.find?_replace_self hfind, rfl⟩
  | @create claim trigger source wakeCycleId agendaItemId _ _ _ _ _ agendaRuntime hissued hfind
      hstate _ _ _ hruntime =>
    refine h.materialize hissued hfind hstate (fun type => by cases type <;> rfl) (fun id => ?_) ?_
    · simp only [occurrences, Table.sum_insert hruntime, newRow, List.count_singleton, beq_iff_eq]
    · intro row hrow
      rcases (Table.mem_insert hruntime).mp hrow with hrow | rfl
      · exact h.counted row hrow
      · rfl
  | @coalesce claim trigger source wakeCycleId _ _ row _ _ _ _ hissued hfind hstate _ hrow _ _ _
      _ =>
    have hrow' : s.tables.agendaRuntime.find? (coalescedRow claim wakeCycleId row).agendaItemId =
        some row := hrow
    refine h.materialize hissued hfind hstate (fun type => by cases type <;> rfl) (fun id => ?_) ?_
    · have := Table.sum_replace (t := s.tables.agendaRuntime)
        (r := coalescedRow claim wakeCycleId row) hrow' fun x => x.causeIds.count id
      simp only [coalescedRow, List.count_append, List.count_singleton, beq_iff_eq] at this
      simp only [occurrences, coalescedRow]
      omega
    · intro x hx
      rcases (Table.mem_replace hrow').mp hx with rfl | ⟨hx, _⟩
      · simp [coalescedRow, h.counted row (Table.mem_of_find? hrow)]
      · exact h.counted x hx
  | @select row _ _ _ owner _ leaseUntil _ hrow _ _ _ =>
    have hfind : (AgendaRow.passOverAll s.tables.agendaRuntime row.agendaItemId).find?
        (row.select owner leaseUntil).agendaItemId = some row := by
      rw [AgendaRow.find?_passOverAll, show (row.select owner leaseUntil).agendaItemId =
        row.agendaItemId from rfl, hrow, Option.map_some, AgendaRow.passOver_self]
    have hcounted : ∀ x ∈ AgendaRow.passOverAll s.tables.agendaRuntime row.agendaItemId,
        x.generation = x.causeIds.length := by
      intro x hx
      obtain ⟨y, hy, rfl⟩ := Table.mem_update.mp hx
      have := h.counted y hy
      unfold AgendaRow.passOver
      split <;> exact this
    obtain ⟨hsum, hall⟩ := Conserved.rows_replace (row.select owner leaseUntil) hfind rfl rfl hcounted
    refine h.of_rows (fun type => by cases type <;> rfl) (fun id => (hsum id).trans ?_) hall
    rw [AgendaRow.passOverAll, Table.sum_update]
    refine Table.sum_congr fun x _ => ?_
    unfold AgendaRow.passOver
    split <;> rfl
  | @release claim row _ _ _ _ hrow _ _ _ =>
    have hfind := Table.find?_of_mem (Table.mem_of_find? (requireAgendaClaim_eq_ok hrow).1)
    obtain ⟨hsum, hall⟩ := Conserved.rows_replace row.release hfind rfl rfl h.counted
    exact h.of_rows (fun type => by cases type <;> rfl) hsum hall
  | @checkpoint claim row _ _ _ _ _ _ _ hrow _ _ _ _ _ _ =>
    have hfind := Table.find?_of_mem (Table.mem_of_find? (requireAgendaClaim_eq_ok hrow).1)
    obtain ⟨hsum, hall⟩ := Conserved.rows_replace (row.checkpoint claim.claimedGeneration)
      hfind rfl rfl h.counted
    exact h.of_rows (fun type => by cases type <;> rfl) hsum hall

theorem conserved_empty : AgendaSide.Conserved ⟨.empty, [], []⟩ :=
  ⟨fun _ => rfl, fun type => by cases type <;> simp [triggerTable, AgendaTables.empty],
    by simp [AgendaTables.empty], by simp⟩

theorem conserved_of_reachable {ε : Type} {hooks : StoreHooks ε} {s : RuntimeState ε}
    (h : (runtime hooks).Reachable s) : s.agenda.Conserved :=
  agenda_invariant conserved_empty
    (fun _ _ hs hstep => AgendaSide.conserved_move hs hstep.move) h

-- ════════════════════════════════════════════════════════════════════════
-- The account of one trigger
-- ════════════════════════════════════════════════════════════════════════

/-- A completed trigger is once a cause of one agenda item and of no other; any
    other trigger is a cause of none. -/
def AgendaTables.AccountsFor (s : AgendaTables) (r : TriggerRow) : Prop :=
  (r.state = .completed → ∃ row ∈ s.agendaRuntime, row.causeIds.count r.sourceId = 1 ∧
      ∀ row' ∈ s.agendaRuntime, row' ≠ row → r.sourceId ∉ row'.causeIds) ∧
    (r.state ≠ .completed → ∀ row ∈ s.agendaRuntime, r.sourceId ∉ row.causeIds)

theorem completedCount_of_mem {t : Table TriggerRow} {r : TriggerRow} (hr : r ∈ t)
    (hd : ∀ x ∈ t, ∀ y ∈ t, x.sourceId = y.sourceId → x = y) :
    completedCount t r.sourceId = if r.state = .completed then 1 else 0 := by
  rw [completedCount, Table.sum_eq_add hr]
  have hrest : (t.sum fun x => if key x = key r then 0
      else if x.state = .completed ∧ x.sourceId = r.sourceId then 1 else 0) = t.sum fun _ => 0 := by
    refine Table.sum_congr fun x hx => ?_
    split
    · rfl
    · rename_i hk
      rw [if_neg]
      rintro ⟨_, hsource⟩
      exact hk (congrArg key (hd x hx r hr hsource))
  rw [hrest]
  simp [Table.sum]

theorem completedCount_of_not_mem {t : Table TriggerRow} {id : StableId}
    (h : ∀ x ∈ t, x.sourceId ≠ id) : completedCount t id = 0 := by
  rw [completedCount, Table.sum_congr (g := fun _ => 0)]
  · simp [Table.sum]
  · intro x hx
    simp [h x hx]

/-- A trigger whose identifier no trigger of the other kind uses is accounted for. -/
theorem AgendaSide.Conserved.accountsFor {s : AgendaSide} (h : s.Conserved)
    {type : SourceRecordType} {r : TriggerRow} (hr : r ∈ s.tables.triggerTable type)
    (hother : ∀ type', type' ≠ type → ∀ x ∈ s.tables.triggerTable type',
      x.sourceId ≠ r.sourceId) : s.tables.AccountsFor r := by
  have hown := completedCount_of_mem hr (h.distinct type)
  have htotal : s.tables.completed r.sourceId = if r.state = .completed then 1 else 0 := by
    cases type with
    | inputEvent =>
      have hnone := completedCount_of_not_mem (hother .timerOccurrence (by simp))
      simp only [triggerTable] at hown hnone
      rw [completed, hown, hnone]
      omega
    | timerOccurrence =>
      have hnone := completedCount_of_not_mem (hother .inputEvent (by simp))
      simp only [triggerTable] at hown hnone
      rw [completed, hown, hnone]
      omega
  have hsum := (h.balance r.sourceId).trans htotal
  refine ⟨fun hstate => ?_, fun hstate row hrow => ?_⟩
  · rw [if_pos hstate] at hsum
    obtain ⟨row, hrow, hone, hzero⟩ := Table.exists_of_sum_eq_one hsum
    exact ⟨row, hrow, hone, fun row' hrow' hne =>
      List.count_eq_zero.mp (hzero row' hrow' hne)⟩
  · rw [if_neg hstate] at hsum
    exact List.count_eq_zero.mp (Table.eq_zero_of_sum_eq_zero hsum row hrow)

/-- In every namespace of every reachable database: the causes of the agenda
    items are exactly the sources of the completed triggers, with multiplicity;
    a trigger whose identifier is not used by a trigger of the other kind is
    accounted for on its own; and generations count causes and bound what was
    handled. -/
theorem triggers_conserved {ε : Type} {hooks : StoreHooks ε} {db : StableId → RuntimeState ε}
    (h : (database hooks).Reachable db) (ns : StableId) :
    let s := (db ns).agenda.tables
    (∀ id, s.occurrences id = s.completed id) ∧
      (∀ type, ∀ r ∈ s.triggerTable type,
        (∀ type', type' ≠ type → ∀ x ∈ s.triggerTable type', x.sourceId ≠ r.sourceId) →
        s.AccountsFor r) ∧
      ∀ row ∈ s.agendaRuntime, row.generation = row.causeIds.length ∧ row.causeIds.Nodup ∧
        row.handledGeneration ≤ row.generation := by
  intro s
  have hc : (db ns).agenda.Conserved := conserved_of_reachable (h.component ns)
  have hsync : s.Synced := synced_of_reachable (h.component ns)
  refine ⟨hc.balance, fun type r hr hother => hc.accountsFor hr hother, fun row hrow => ?_⟩
  obtain ⟨item, _, hagrees⟩ := hsync.item_of_row (Table.find?_of_mem hrow)
  exact ⟨hc.counted row hrow, hagrees.causeIds ▸ item.causeIds_nodup,
    hsync.handledGeneration_le hrow⟩

theorem triggers_conserved_two_events :
    ∃ (db : StableId → RuntimeState AuthorityRecords) (r : TriggerRow),
      r ∈ (db sampleColleague).agenda.tables.triggers ∧ r.state = .completed ∧
      (db sampleColleague).agenda.tables.AccountsFor r := by
  obtain ⟨db, hdb, hp⟩ := exists_database_of_runsTo sqliteRuntimeStore .empty
    twoEventsCoalesced sampleColleague
    (fun s => (s.agenda.tables.triggers.find? (stableId "trigger-2")).any
        (fun r : TriggerRow => decide (r.state = .completed)) &&
      decide (s.agenda.tables.timerTriggers.rows = [])) (by decide)
  simp only [Bool.and_eq_true, Option.any_eq_true, decide_eq_true_eq] at hp
  obtain ⟨⟨r, hr, hstate⟩, htimers⟩ := hp
  refine ⟨db, r, Table.mem_of_find? hr, hstate, ?_⟩
  refine (triggers_conserved hdb sampleColleague).2.1 .inputEvent r (Table.mem_of_find? hr) ?_
  intro type' hne x hx
  cases type' with
  | inputEvent => exact absurd rfl hne
  | timerOccurrence =>
    have : x ∈ (db sampleColleague).agenda.tables.timerTriggers.rows := hx
    rw [htimers] at this
    simp at this

/-- An occurrence named like an event, ingested but never claimed. -/
def timerNamedLikeEvent {ε : Type} : List (RuntimeState ε → RuntimeAction ε) :=
  sampleMaterialization (sampleEvent (stableId "event-1") (stableId "message") 5)
      (stableId "trigger-1") (stableId "wake-1") (stableId "agenda-1") ++
    [fun _ => .agenda (.ingestTimer
      { timerId := stableId "timer-1"
        occurrenceId := stableId "event-1"
        state := .due
        dueAt := 0
        safeProjection := .empty
        actor := sampleWorker
        correlationId := stableId "event-1"
        causationId := none
        occurredAt := 0
        revision := 1
        policy := none } "key-1" (stableId "trigger-1"))]

/-- Events and occurrences draw their identifiers from one space only by
    convention: a pending occurrence can carry the identifier of a materialized
    event, so not every trigger is accounted for by its identifier alone. -/
theorem not_every_trigger_accounted_for :
    ¬ ∀ db : StableId → RuntimeState AuthorityRecords,
      (database sqliteRuntimeStore).Reachable db → ∀ ns type,
        ∀ r ∈ (db ns).agenda.tables.triggerTable type, (db ns).agenda.tables.AccountsFor r := by
  intro hall
  obtain ⟨db, hdb, hp⟩ := exists_database_of_runsTo sqliteRuntimeStore .empty
    timerNamedLikeEvent sampleColleague
    (fun s => (s.agenda.tables.timerTriggers.find? (stableId "trigger-1")).any
      fun r : TriggerRow => decide (r.state = .pending) &&
        (s.agenda.tables.agendaRuntime.find? (stableId "agenda-1")).any
          fun row : AgendaRow => decide (r.sourceId ∈ row.causeIds)) (by decide)
  simp only [Bool.and_eq_true, Option.any_eq_true, decide_eq_true_eq] at hp
  obtain ⟨r, hr, hstate, row, hrow, hmem⟩ := hp
  have hnone := (hall db hdb sampleColleague .timerOccurrence r (Table.mem_of_find? hr)).2
    (by simp [hstate])
  exact hnone row (Table.mem_of_find? hrow) hmem

end DigitalColleagues
