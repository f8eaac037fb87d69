import DigitalColleagues.Runtime.AgendaMoves

/-!
# The agenda row and the agenda item agree

`agenda_runtime` is written by one statement and the `AgendaItem` record by
another. They correspond one to one and carry the same scheduling data after
every transaction.
-/

namespace DigitalColleagues

open Keyed AgendaTables

/-- The scheduling data a row and an item share. -/
structure AgendaRow.Agrees (row : AgendaRow) (item : AgendaItemFields) : Prop where
  generation : item.generation = row.generation
  handledGeneration : item.handledGeneration = row.handledGeneration
  state : item.state = row.state
  priority : item.priority = row.priority
  causeIds : item.causeIds = row.causeIds
  wakeCycleId : item.wakeCycleId = row.currentWakeCycleId

theorem AgendaRow.Agrees.causeIds_ne_nil {row : AgendaRow} {item : AgendaItem}
    (h : row.Agrees item.toAgendaItemFields) : row.causeIds ≠ [] :=
  h.causeIds ▸ item.causeIds_ne_nil

/-- Copying the state and both generations of the new row restores agreement. -/
theorem AgendaRow.Agrees.sync {row new : AgendaRow} {item : AgendaItem}
    (h : row.Agrees item.toAgendaItemFields) (hpriority : new.priority = row.priority)
    (hcauses : new.causeIds = row.causeIds)
    (hwake : new.currentWakeCycleId = row.currentWakeCycleId) :
    new.Agrees (syncItem item new).normalize := by
  constructor <;>
    simp [syncItem, h.causeIds_ne_nil, h.priority, h.causeIds, h.wakeCycleId, hpriority, hcauses,
      hwake]

/-- Rows and items have the same identifiers, and agree at each of them. -/
def AgendaTables.Synced (s : AgendaTables) : Prop :=
  ∀ id, Option.Rel (fun (row : AgendaRow) (item : AgendaItem) => row.Agrees item.toAgendaItemFields)
    (s.agendaRuntime.find? id) (s.agendaItems.find? id)

namespace AgendaTables.Synced

variable {s t : AgendaTables}

theorem of_tables (h : s.Synced) (hruntime : t.agendaRuntime = s.agendaRuntime)
    (hitems : t.agendaItems = s.agendaItems) : t.Synced := by
  unfold Synced
  rw [hruntime, hitems]
  exact h

theorem item_of_row (h : s.Synced) {id : StableId} {row : AgendaRow}
    (hrow : s.agendaRuntime.find? id = some row) :
    ∃ item, s.agendaItems.find? id = some item ∧ row.Agrees item.toAgendaItemFields := by
  have hid := h id
  rw [hrow] at hid
  cases hitem : s.agendaItems.find? id with
  | none =>
    rw [hitem] at hid
    cases hid
  | some item =>
    rw [hitem] at hid
    cases hid with
    | some hagrees => exact ⟨item, rfl, hagrees⟩

theorem row_of_item (h : s.Synced) {id : StableId} {item : AgendaItem}
    (hitem : s.agendaItems.find? id = some item) :
    ∃ row, s.agendaRuntime.find? id = some row ∧ row.Agrees item.toAgendaItemFields := by
  have hid := h id
  rw [hitem] at hid
  cases hrow : s.agendaRuntime.find? id with
  | none =>
    rw [hrow] at hid
    cases hid
  | some row =>
    rw [hrow] at hid
    cases hid with
    | some hagrees => exact ⟨row, rfl, hagrees⟩

/-- The item found where its row was found is the one that agrees with it. -/
theorem agrees (h : s.Synced) {id : StableId} {row : AgendaRow} {item : AgendaItem}
    (hrow : s.agendaRuntime.find? id = some row) (hitem : s.agendaItems.find? id = some item) :
    row.Agrees item.toAgendaItemFields := by
  obtain ⟨item', hitem', hagrees⟩ := h.item_of_row hrow
  obtain rfl := Option.some.inj (hitem.symm.trans hitem')
  exact hagrees

/-- The record bounds the handled generation of the row too. -/
theorem handledGeneration_le (h : s.Synced) {row : AgendaRow} (hrow : row ∈ s.agendaRuntime) :
    row.handledGeneration ≤ row.generation := by
  obtain ⟨item, _, hagrees⟩ := h.item_of_row (Table.find?_of_mem hrow)
  rw [← hagrees.handledGeneration, ← hagrees.generation]
  exact item.handledGeneration_le

/-- One identifier got a new row and a new item that agree; nothing else moved. -/
theorem of_point (h : s.Synced) (id : StableId) (row : AgendaRow) (item : AgendaItem)
    (hrow : t.agendaRuntime.find? id = some row) (hitem : t.agendaItems.find? id = some item)
    (hagrees : row.Agrees item.toAgendaItemFields)
    (hrows : ∀ k, k ≠ id → t.agendaRuntime.find? k = s.agendaRuntime.find? k)
    (hitems : ∀ k, k ≠ id → t.agendaItems.find? k = s.agendaItems.find? k) : t.Synced := by
  intro k
  by_cases hk : k = id
  · subst hk
    rw [hrow, hitem]
    exact .some hagrees
  · rw [hrows k hk, hitems k hk]
    exact h k

/-- Passing over rows changes nothing that an item records. -/
theorem passOver (h : s.Synced) (selected : StableId) :
    { s with agendaRuntime := AgendaRow.passOverAll s.agendaRuntime selected }.Synced := by
  intro id
  have hid := h id
  simp only [AgendaRow.find?_passOverAll]
  cases hrow : s.agendaRuntime.find? id with
  | none =>
    rw [hrow] at hid
    simpa using hid
  | some row =>
    rw [hrow] at hid
    cases hitem : s.agendaItems.find? id with
    | none =>
      rw [hitem] at hid
      cases hid
    | some item =>
      rw [hitem] at hid
      cases hid with
      | some hagrees =>
        refine .some ?_
        obtain ⟨hg, hh, hs, hp, hc, hw⟩ := hagrees
        unfold AgendaRow.passOver
        split <;> exact ⟨hg, hh, hs, hp, hc, hw⟩

/-- A row and its item replaced together by an agreeing pair. -/
theorem replace (h : s.Synced) (row : AgendaRow) {o : AgendaRow} {item : AgendaItem} {expected : ℕ}
    {agendaItems : Records AgendaItem} (hold : s.agendaRuntime.find? row.agendaItemId = some o)
    (hkey : item.agendaItemId = row.agendaItemId)
    (hitems : s.agendaItems.updateRecord item expected = .ok agendaItems)
    (hagrees : row.Agrees item.toAgendaItemFields)
    (hruntime : t.agendaRuntime = s.agendaRuntime.replace row)
    (htable : t.agendaItems = agendaItems) : t.Synced := by
  refine h.of_point row.agendaItemId row item ?_ ?_ hagrees ?_ ?_
  · rw [hruntime]
    exact Table.find?_replace_self hold
  · rw [htable, ← hkey]
    exact Records.find?_updateRecord_self hitems
  · intro k hk
    rw [hruntime]
    exact Table.find?_replace_of_ne hk
  · intro k hk
    rw [htable]
    refine Records.find?_updateRecord_of_ne hitems ?_
    show k ≠ item.agendaItemId
    rw [hkey]
    exact hk

end AgendaTables.Synced

theorem AgendaSide.synced_move {C : AgendaRow → AgendaClaim → Prop} {s t : AgendaSide}
    (h : s.tables.Synced) (hm : Move C s t) :
    t.tables.Synced := by
  cases hm with
  | idle => exact h
  | ingest hruntime hitems _ _ _ _ _ => exact h.of_tables hruntime hitems
  | claimTrigger _ _ => exact h.of_tables (by simp) (by simp)
  | @create claim trigger source wakeCycleId agendaItemId actor occurredAt item wakeCycles
      agendaItems agendaRuntime _ _ _ _ hitem hitems hruntime =>
    have hid : item.agendaItemId = agendaItemId := by simp [hitem, newItem]
    refine h.of_point agendaItemId (newRow claim source wakeCycleId agendaItemId) item ?_ ?_ ?_ ?_ ?_
    · simp [completeTrigger, Table.find?_insert hruntime, key, newRow]
    · simp only [completeTrigger, setTriggerTable_agendaItems]
      exact hid ▸ Records.find?_insertRecord_self hitems
    · rw [hitem]
      constructor <;> simp [newItem, newRow]
    · intro k hk
      simp [completeTrigger, Table.find?_insert hruntime, key, newRow, hk]
    · intro k hk
      simp only [completeTrigger, setTriggerTable_agendaItems]
      rw [Records.find?_insertRecord hitems, if_neg]
      exact fun he => hk (he.trans hid)
  | @coalesce claim trigger source wakeCycleId actor occurredAt row existing item wakeCycles
      agendaItems _ _ _ _ hrow _ hexisting hitem hitems =>
    have hagrees := h.agrees hrow hexisting
    have hid : item.agendaItemId = row.agendaItemId := by
      simp [hitem, coalescedItem, agendaItemId_of_find? hexisting]
    refine h.replace (coalescedRow claim wakeCycleId row) hrow hid hitems ?_
      (by simp [completeTrigger]) (by simp [completeTrigger])
    rw [hitem]
    constructor <;>
      simp [coalescedItem, coalescedRow, hagrees.handledGeneration, hagrees.priority]
  | @select row existing selected agendaItems owner now leaseUntil _ hrow hexisting hselected
      hitems =>
    have hagrees := h.agrees hrow hexisting
    have hid : selected.agendaItemId = row.agendaItemId := by
      simp [hselected, agendaItemId_of_find? hexisting]
    refine AgendaTables.Synced.replace (s := { s.tables with
      agendaRuntime := AgendaRow.passOverAll s.tables.agendaRuntime row.agendaItemId })
      (h.passOver row.agendaItemId) (row.select owner leaseUntil) (o := row) ?_ hid hitems ?_ rfl rfl
    · show (AgendaRow.passOverAll s.tables.agendaRuntime row.agendaItemId).find?
        row.agendaItemId = some row
      rw [AgendaRow.find?_passOverAll, hrow, Option.map_some, AgendaRow.passOver_self]
    · rw [hselected]
      constructor <;>
        simp [AgendaRow.select, hagrees.causeIds_ne_nil, hagrees.generation,
          hagrees.handledGeneration, hagrees.priority, hagrees.causeIds, hagrees.wakeCycleId]
  | @release claim row current released agendaItems _ hrow hcurrent hreleased hitems =>
    have hfind := Table.find?_of_mem (Table.mem_of_find? (requireAgendaClaim_eq_ok hrow).1)
    have hagrees := h.agrees hfind hcurrent
    have hid : released.agendaItemId = row.agendaItemId := by
      simp [hreleased, syncItem, agendaItemId_of_find? hcurrent]
    refine h.replace row.release hfind hid hitems ?_ rfl rfl
    rw [hreleased]
    exact hagrees.sync rfl rfl rfl
  | @checkpoint claim row current completed agendaItems decisions wake wakeCycles _ hrow _
      hcurrent hcompleted hitems _ _ =>
    have hfind := Table.find?_of_mem (Table.mem_of_find? (requireAgendaClaim_eq_ok hrow).1)
    have hagrees := h.agrees hfind hcurrent
    have hid : completed.agendaItemId = row.agendaItemId := by
      simp [hcompleted, syncItem, agendaItemId_of_find? hcurrent]
    refine h.replace (row.checkpoint claim.claimedGeneration) hfind hid hitems ?_ rfl rfl
    rw [hcompleted]
    exact hagrees.sync rfl rfl rfl

theorem synced_of_reachable {ε : Type} {hooks : StoreHooks ε} {s : RuntimeState ε}
    (h : (runtime hooks).Reachable s) : s.agenda.tables.Synced :=
  agenda_invariant (I := fun a => a.tables.Synced) (fun _ => .none)
    (fun _ _ hs hstep => AgendaSide.synced_move hs hstep.move) h

/-- In every namespace of every reachable database, `agenda_runtime` and the
    agenda items have the same identifiers, and each row agrees with its item
    and with the item's latest audit row. -/
theorem agenda_row_agrees_with_record {ε : Type} {hooks : StoreHooks ε}
    {db : StableId → RuntimeState ε} (h : (database hooks).Reachable db) (ns : StableId) :
    let s := (db ns).agenda.tables
    (∀ id, (s.agendaRuntime.find? id).isSome = (s.agendaItems.find? id).isSome) ∧
      ∀ id row item, s.agendaRuntime.find? id = some row → s.agendaItems.find? id = some item →
        row.Agrees item.toAgendaItemFields ∧
          ∃ audit, s.agendaItems.latestAudit id = some audit ∧
            audit.recordRevision = item.revision ∧ row.Agrees audit.safeProjection := by
  intro s
  have hs : s.Synced := synced_of_reachable (h.component ns)
  refine ⟨fun id => ?_, fun id row item hrow hitem => ?_⟩
  · cases hrow : s.agendaRuntime.find? id with
    | some row =>
      obtain ⟨item, hitem, _⟩ := hs.item_of_row hrow
      rw [hitem]
      rfl
    | none =>
      cases hitem : s.agendaItems.find? id with
      | none => rfl
      | some item =>
        obtain ⟨row, hrow', _⟩ := hs.row_of_item hitem
        rw [hrow] at hrow'
        exact absurd hrow' (by simp)
  · have hagrees := hs.agrees hrow hitem
    exact ⟨hagrees, auditRecord item, Records.latestAudit_eq hitem, rfl, hagrees⟩

/-- A second event coalesces into the item while it is selected. -/
def coalescedWhileSelected {ε : Type} : List (RuntimeState ε → RuntimeAction ε) :=
  sampleMaterialization (sampleEvent (stableId "event-1") (stableId "message") 5)
      (stableId "trigger-1") (stableId "wake-1") (stableId "agenda-1") ++
    [sampleClaimAgenda] ++
    sampleMaterialization (sampleEvent (stableId "event-2") (stableId "message") 5)
      (stableId "trigger-2") (stableId "wake-2") (stableId "agenda-2")

theorem agenda_row_agrees_with_record_coalesced :
    ∃ (db : StableId → RuntimeState AuthorityRecords) (row : AgendaRow) (item : AgendaItem),
      (db sampleColleague).agenda.tables.agendaRuntime.find? (stableId "agenda-1") =
        some row ∧
      row.generation = 2 ∧ row.state = .selected ∧ row.Agrees item.toAgendaItemFields := by
  obtain ⟨db, hdb, hp⟩ := exists_database_of_runsTo sqliteRuntimeStore .empty
    coalescedWhileSelected sampleColleague
    (fun s => (s.agenda.tables.agendaRuntime.find? (stableId "agenda-1")).any
      fun r : AgendaRow => decide (r.generation = 2 ∧ r.state = .selected)) (by decide)
  obtain ⟨row, hrow, hfacts⟩ := Option.any_eq_true _ _ |>.mp hp
  obtain ⟨item, hitem⟩ := Option.isSome_iff_exists.mp
    ((agenda_row_agrees_with_record hdb sampleColleague).1 (stableId "agenda-1") ▸
      Option.isSome_iff_exists.mpr ⟨row, hrow⟩)
  obtain ⟨hgeneration, hstate⟩ := of_decide_eq_true hfacts
  exact ⟨db, row, item, hrow, hgeneration, hstate,
    ((agenda_row_agrees_with_record hdb sampleColleague).2 _ row item hrow hitem).1⟩

end DigitalColleagues
