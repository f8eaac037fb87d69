import DigitalColleagues.Runtime.System

/-!
# What a step can do to the agenda

Every step of a run moves the agenda side in one of eight ways. The invariants
of the agenda are proved over these moves.
-/

namespace DigitalColleagues

open Keyed AgendaTables

namespace AgendaSide

/-- The moves of the agenda side, with everything their transaction checked;
    a commit meets the condition `C`. -/
inductive Move (C : AgendaRow → AgendaClaim → Prop) (s : AgendaSide) : AgendaSide → Prop
  | idle : Move C s s
  | ingest {tables : AgendaTables} {type : SourceRecordType} {trigger : TriggerRow} :
      tables.agendaRuntime = s.tables.agendaRuntime →
      tables.agendaItems = s.tables.agendaItems →
      tables.wakeCycles = s.tables.wakeCycles →
      trigger.state = .pending →
      (∀ r ∈ s.tables.triggerTable type, r.sourceId ≠ trigger.sourceId) →
      (s.tables.triggerTable type).insert? trigger = some (tables.triggerTable type) →
      (∀ type', type' ≠ type → tables.triggerTable type' = s.tables.triggerTable type') →
      (∀ type' id, s.tables.hasSource type' id = true → tables.hasSource type' id = true) →
      tables.hasSource type trigger.sourceId = true →
      Move C s { s with tables := tables }
  | claimTrigger {type : SourceRecordType} {row : TriggerRow} {owner : StableId}
      {leaseUntil : Instant} :
      (s.tables.triggerTable type).find? row.triggerId = some row →
      row.state ≠ .completed →
      Move C s { s with
        tables := s.tables.setTriggerTable type
          ((s.tables.triggerTable type).replace (row.claim owner leaseUntil))
        triggerClaims := s.triggerClaims ++ [row.claimOf type owner leaseUntil] }
  | create {claim : TriggerClaim} {trigger : TriggerRow} {source : TriggerSource}
      {wakeCycleId agendaItemId : StableId} {actor : Principal} {occurredAt : Instant}
      {item : AgendaItem} {wakeCycles : Records WakeCycle} {agendaItems : Records AgendaItem}
      {agendaRuntime : Table AgendaRow} :
      claim ∈ s.triggerClaims →
      (s.tables.triggerTable claim.sourceRecordType).find? claim.triggerId = some trigger →
      trigger.state = .claimed →
      s.tables.wakeCycles.insertRecord
        (newWake claim source wakeCycleId agendaItemId 1 actor occurredAt) = .ok wakeCycles →
      item.toAgendaItemFields =
        (newItem claim source wakeCycleId agendaItemId actor occurredAt).normalize →
      s.tables.agendaItems.insertRecord item = .ok agendaItems →
      s.tables.agendaRuntime.insert? (newRow claim source wakeCycleId agendaItemId) =
        some agendaRuntime →
      s.tables.loadSource claim = .ok source →
      Move C s { s with
        tables := { s.tables with wakeCycles := wakeCycles, agendaItems := agendaItems,
                                  agendaRuntime := agendaRuntime }.completeTrigger claim trigger }
  | coalesce {claim : TriggerClaim} {trigger : TriggerRow} {source : TriggerSource}
      {wakeCycleId : StableId} {actor : Principal} {occurredAt : Instant} {row : AgendaRow}
      {existing item : AgendaItem} {wakeCycles : Records WakeCycle}
      {agendaItems : Records AgendaItem} :
      claim ∈ s.triggerClaims →
      (s.tables.triggerTable claim.sourceRecordType).find? claim.triggerId = some trigger →
      trigger.state = .claimed →
      s.tables.wakeCycles.insertRecord
        (newWake claim source wakeCycleId row.agendaItemId (row.generation + 1) actor
          occurredAt) = .ok wakeCycles →
      s.tables.agendaRuntime.find? row.agendaItemId = some row →
      (row.causeIds ++ [claim.sourceId]).Nodup →
      s.tables.agendaItems.find? row.agendaItemId = some existing →
      item.toAgendaItemFields =
        (coalescedItem claim source wakeCycleId row existing actor occurredAt).normalize →
      s.tables.agendaItems.updateRecord item existing.revision = .ok agendaItems →
      s.tables.loadSource claim = .ok source → row.sourceKey = source.sourceKey →
      Move C s { s with
        tables := { s.tables with
          wakeCycles := wakeCycles
          agendaItems := agendaItems
          agendaRuntime := s.tables.agendaRuntime.replace (coalescedRow claim wakeCycleId row)
          }.completeTrigger claim trigger }
  | select {row : AgendaRow} {existing selected : AgendaItem} {agendaItems : Records AgendaItem}
      {owner : StableId} {now leaseUntil : Instant} :
      s.tables.nextAgenda now = some row →
      s.tables.agendaRuntime.find? row.agendaItemId = some row →
      s.tables.agendaItems.find? row.agendaItemId = some existing →
      selected.toAgendaItemFields = AgendaItemFields.normalize { existing.toAgendaItemFields with
        state := .selected
        revision := existing.revision + 1 } →
      s.tables.agendaItems.updateRecord selected existing.revision = .ok agendaItems →
      Move C s { s with
        tables := { s.tables with
          agendaRuntime := (AgendaRow.passOverAll s.tables.agendaRuntime row.agendaItemId).replace
            (row.select owner leaseUntil)
          agendaItems := agendaItems }
        agendaClaims := s.agendaClaims ++
          [⟨selected, owner, leaseUntil, row.fencingToken + 1, row.generation⟩] }
  | release {claim : AgendaClaim} {row : AgendaRow} {current released : AgendaItem}
      {agendaItems : Records AgendaItem} :
      claim ∈ s.agendaClaims →
      s.tables.requireAgendaClaim claim = .ok row →
      s.tables.agendaItems.find? row.agendaItemId = some current →
      released.toAgendaItemFields = (syncItem current row.release).normalize →
      s.tables.agendaItems.updateRecord released current.revision = .ok agendaItems →
      Move C s { s with
        tables := { s.tables with agendaRuntime := s.tables.agendaRuntime.replace row.release
                                  agendaItems := agendaItems } }
  | checkpoint {claim : AgendaClaim} {row : AgendaRow} {current completed : AgendaItem}
      {agendaItems : Records AgendaItem} {decisions : Records Decision} {wake : WakeCycle}
      {wakeCycles : Records WakeCycle} :
      claim ∈ s.agendaClaims →
      s.tables.requireAgendaClaim claim = .ok row →
      C row claim →
      s.tables.agendaItems.find? row.agendaItemId = some current →
      completed.toAgendaItemFields =
        (syncItem current (row.checkpoint claim.claimedGeneration)).normalize →
      s.tables.agendaItems.updateRecord completed current.revision = .ok agendaItems →
      s.tables.wakeCycles.find? claim.agendaItem.wakeCycleId = some wake →
      s.tables.wakeCycles.updateRecord (finalizeWake wake claim.claimedGeneration) wake.revision =
        .ok wakeCycles →
      Move C s { s with
        tables := { s.tables with
          decisions := decisions
          agendaRuntime := s.tables.agendaRuntime.replace (row.checkpoint claim.claimedGeneration)
          agendaItems := agendaItems
          wakeCycles := wakeCycles } }

variable {C : AgendaRow → AgendaClaim → Prop}

theorem move_of_ingest {ρ : Type} [DurableRecord ρ] {records : Records ρ}
    {ledger : Table (LedgerRow String)} {triggers : Table TriggerRow} {replayOf : ρ → ρ → Bool}
    {source : ρ} {idempotencyKey drifted conflict : String} {trigger : TriggerRow}
    {done : Ingested ρ} {s : AgendaSide} {tables : AgendaTables} (type : SourceRecordType)
    (h : ingestSource records ledger triggers replayOf source idempotencyKey trigger
      drifted conflict = .ok done)
    (hreplay : done.records = records ∧ done.ledger = ledger ∧ done.triggers = triggers →
      tables = s.tables)
    (hruntime : tables.agendaRuntime = s.tables.agendaRuntime)
    (hitems : tables.agendaItems = s.tables.agendaItems)
    (hwakes : tables.wakeCycles = s.tables.wakeCycles) (hpending : trigger.state = .pending)
    (htriggers : s.tables.triggerTable type = triggers)
    (hdone : tables.triggerTable type = done.triggers)
    (hother : ∀ type', type' ≠ type → tables.triggerTable type' = s.tables.triggerTable type')
    (hsources : records.insertRecord source = .ok done.records →
      (∀ type' id, s.tables.hasSource type' id = true → tables.hasSource type' id = true) ∧
        tables.hasSource type trigger.sourceId = true) :
    Move C s { s with tables := tables } := by
  rcases ingestSource_eq_ok h with hsame | ⟨hrecords, hfresh, hinsert⟩
  · rw [hreplay hsame]
    exact .idle
  · subst htriggers
    obtain ⟨hkeep, hnew⟩ := hsources hrecords
    refine .ingest hruntime hitems hwakes hpending hfresh ?_ hother hkeep hnew
    rw [hdone]
    exact hinsert

theorem isSome_of_insertRecord {ρ : Type} [DurableRecord ρ] {rs rs' : Records ρ} {r : ρ}
    {id : StableId} (h : rs.insertRecord r = .ok rs') (hid : (rs.find? id).isSome = true) :
    (rs'.find? id).isSome = true := by
  obtain ⟨x, hx⟩ := Option.isSome_iff_exists.mp hid
  rw [Records.find?_insertRecord_of_some h hx]
  rfl

theorem isSome_of_insertRecord_self {ρ : Type} [DurableRecord ρ] {rs rs' : Records ρ} {r : ρ}
    (h : rs.insertRecord r = .ok rs') : (rs'.find? (key r)).isSome = true := by
  rw [Records.find?_insertRecord_self h]
  rfl

theorem exec_move {s t : AgendaSide} {a : AgendaAction} (h : s.exec a = .ok t) : Move C s t := by
  cases a with
  | ingestEvent event idempotencyKey triggerId =>
    simp only [exec, AgendaTables.ingestEvent, bind_eq_ok, pure_eq_ok, Prod.exists,
      Prod.mk.injEq] at h
    obtain ⟨_, _, tables, ⟨done, hdone, _, rfl⟩, rfl⟩ := h
    refine move_of_ingest .inputEvent hdone ?_ rfl rfl rfl rfl rfl rfl ?_ ?_
    · rintro ⟨hr, hl, ht⟩
      rw [hr, hl, ht]
    · intro type' hne
      cases type' with
      | inputEvent => exact absurd rfl hne
      | timerOccurrence => rfl
    · intro hrecords
      refine ⟨fun type' id hid => ?_, isSome_of_insertRecord_self hrecords⟩
      cases type' with
      | inputEvent => exact isSome_of_insertRecord hrecords hid
      | timerOccurrence => exact hid
  | ingestTimer occurrence idempotencyKey triggerId =>
    simp only [exec, AgendaTables.ingestTimer, bind_eq_ok, pure_eq_ok, Prod.exists,
      Prod.mk.injEq] at h
    obtain ⟨_, _, tables, ⟨done, hdone, _, rfl⟩, rfl⟩ := h
    refine move_of_ingest .timerOccurrence hdone ?_ rfl rfl rfl rfl rfl rfl ?_ ?_
    · rintro ⟨hr, hl, ht⟩
      rw [hr, hl, ht]
    · intro type' hne
      cases type' with
      | inputEvent => rfl
      | timerOccurrence => exact absurd rfl hne
    · intro hrecords
      refine ⟨fun type' id hid => ?_, isSome_of_insertRecord_self hrecords⟩
      cases type' with
      | inputEvent => exact hid
      | timerOccurrence => exact isSome_of_insertRecord hrecords hid
  | claimTrigger owner now leaseUntil =>
    simp only [exec] at h
    split at h
    · obtain rfl := Except.ok.inj h
      exact .idle
    · rename_i claim tables hclaim
      obtain rfl := Except.ok.inj h
      obtain ⟨type, row, hfind, hclaimable, rfl, rfl⟩ := AgendaTables.claimTrigger_eq_some hclaim
      exact .claimTrigger hfind (TriggerRow.state_of_claimable hclaimable)
  | materializeAgenda claim wakeCycleId agendaItemId actor occurredAt =>
    simp only [exec, requireIssued, bind_eq_ok, require_eq_ok, pure_eq_ok, Prod.exists,
      exists_const] at h
    obtain ⟨hissued, wake, item, tables, hmat, rfl⟩ := h
    obtain ⟨trigger, source, wakeCycles, agendaItems, agendaRuntime, hfind, ⟨hstate, _⟩, hsource,
      hwake, rfl, hcase⟩ := AgendaTables.materializeAgenda_eq_ok hmat
    rcases hcase with ⟨_, rfl, hitem, hitems, hruntime⟩ |
      ⟨row, existing, hrow, hnodup, rfl, hexisting, hitem, hitems, rfl⟩
    · exact .create hissued hfind hstate hwake hitem hitems hruntime hsource
    · exact .coalesce hissued hfind hstate hwake (AgendaTables.find?_of_rowOfSource hrow) hnodup
        hexisting hitem hitems hsource (AgendaTables.sourceKey_of_rowOfSource hrow)
  | claimAgenda owner now leaseUntil =>
    simp only [exec, bind_eq_ok, pure_eq_ok, Prod.exists] at h
    obtain ⟨claim, tables, hclaim, rfl⟩ := h
    rcases AgendaTables.claimAgenda_eq_ok hclaim with ⟨_, rfl, rfl⟩ |
      ⟨row, existing, selected, agendaItems, hnext, hexisting, hselected, hitems, rfl, rfl⟩
    · simpa using Move.idle (C := C) (s := s)
    · exact .select hnext (Table.find?_of_mem (Table.selectMin_mem hnext).1) hexisting hselected
        hitems
  | releaseAgenda claim =>
    simp only [exec, requireIssued, bind_eq_ok, require_eq_ok, pure_eq_ok, exists_const] at h
    obtain ⟨hissued, tables, hrelease, rfl⟩ := h
    obtain ⟨row, current, released, agendaItems, hrow, hcurrent, hreleased, hitems, rfl⟩ :=
      AgendaTables.releaseAgenda_eq_ok hrelease
    have hid : row.agendaItemId = claim.agendaItem.agendaItemId :=
      Table.key_of_find? (AgendaTables.requireAgendaClaim_eq_ok hrow).1
    exact .release hissued hrow (hid ▸ hcurrent) hreleased hitems

/-- Every step of a run is one of the moves. -/
theorem Step.move {s t : AgendaSide} (h : Step C s t) : Move C s t := by
  cases h with
  | refl => exact .idle
  | exec h => exact exec_move h
  | @commit claim row decisions tables hissued hrow hC hcheckpoint =>
    obtain ⟨current, completed, agendaItems, wake, wakeCycles, hcurrent, hcompleted, hitems, hwake,
      hwakes, rfl⟩ := AgendaTables.checkpointDecision_eq_ok hcheckpoint
    have hid : row.agendaItemId = claim.agendaItem.agendaItemId :=
      Table.key_of_find? (AgendaTables.requireAgendaClaim_eq_ok hrow).1
    exact .checkpoint hissued hrow hC (hid ▸ hcurrent) hcompleted hitems hwake hwakes

end AgendaSide

end DigitalColleagues
