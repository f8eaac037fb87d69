import DigitalColleagues.Runtime.Conservation

/-!
# Which triggers can be materialized

Ingestion checks the envelope of an event or an occurrence. A new agenda item
also needs a work identifier, a title and a priority that its constructor
accepts, and these come from the free-form projection. A trigger that coalesces
into an existing item uses none of them.

## Main definitions

- `TriggerSource.Fits` — a projection that an agenda item accepts
- `AgendaSide.Sourced` — triggers and causes have their sources

## Main results

- `materializeAgenda_ok_iff` — exactly when a live claim materializes
- `poison_trigger` — an accepted event that never does
-/

namespace DigitalColleagues

open Keyed AgendaTables

/-- The projected values that the constructor of an agenda item accepts. -/
structure TriggerSource.Fits (source : TriggerSource) : Prop where
  workId : ∀ w ∈ source.workId, isStableId w = true
  title : (strip source.title).length ≤ 4096
  priority : 0 ≤ source.priority ∧ source.priority ≤ 1000

/-- The kind of the sources that a source key coalesces. -/
def SourceRecordType.ofKey (sourceKey : String) : SourceRecordType :=
  if sourceKey.toList.head? = some 't' then .timerOccurrence else .inputEvent

/-- What the source of a claim always says. -/
structure TriggerSource.LoadedFor (source : TriggerSource) (claim : TriggerClaim) : Prop where
  one : source.sourceEventId.isNone ≠ source.sourceTimerOccurrenceId.isNone
  sourceId : source.sourceEventId.or source.sourceTimerOccurrenceId = some claim.sourceId
  title : strip source.title ≠ ""
  key : SourceRecordType.ofKey source.sourceKey = claim.sourceRecordType

/-- Triggers name stored sources; the causes of a row are completed triggers of
    the kind its key coalesces; and stored titles are stripped. -/
structure AgendaSide.Sourced (s : AgendaSide) : Prop where
  source : ∀ type, ∀ r ∈ s.tables.triggerTable type, s.tables.hasSource type r.sourceId = true
  cause : ∀ row ∈ s.tables.agendaRuntime, ∀ id ∈ row.causeIds,
    ∃ r ∈ s.tables.triggerTable (.ofKey row.sourceKey), r.sourceId = id ∧ r.state = .completed
  title : ∀ id item, s.tables.agendaItems.find? id = some item → strip item.title = item.title

-- ════════════════════════════════════════════════════════════════════════
-- Sources
-- ════════════════════════════════════════════════════════════════════════

theorem strip_projectedTitle {projection : FrozenJsonObject} {default : String}
    (h : strip default ≠ "") : strip (projectedTitle projection default) ≠ "" := by
  unfold projectedTitle
  split
  · split
    · exact h
    · assumption
  · exact h

theorem exists_loadSource (s : AgendaTables) (claim : TriggerClaim)
    (h : s.hasSource claim.sourceRecordType claim.sourceId = true) :
    ∃ source, s.loadSource claim = .ok source := by
  unfold hasSource at h
  split at h
  · rename_i htype
    obtain ⟨event, hevent⟩ := Option.isSome_iff_exists.mp h
    refine ⟨eventSourceKey event, ?_⟩
    simp only [loadSource, htype, bind_eq_ok, Records.getRecord_eq_ok, pure_eq_ok]
    exact ⟨event, hevent, rfl⟩
  · rename_i htype
    obtain ⟨occurrence, hoccurrence⟩ := Option.isSome_iff_exists.mp h
    refine ⟨timerSourceKey occurrence, ?_⟩
    simp only [loadSource, htype, bind_eq_ok, Records.getRecord_eq_ok, pure_eq_ok]
    exact ⟨occurrence, hoccurrence, rfl⟩

theorem loadedFor_of_loadSource {s : AgendaTables} {claim : TriggerClaim} {source : TriggerSource}
    (h : s.loadSource claim = .ok source) : source.LoadedFor claim := by
  unfold loadSource at h
  split at h
  · rename_i htype
    simp only [bind_eq_ok, Records.getRecord_eq_ok, pure_eq_ok] at h
    obtain ⟨event, hevent, rfl⟩ := h
    have hid : event.eventId = claim.sourceId := Records.key_of_find? hevent
    refine ⟨by simp [eventSourceKey], by simp [eventSourceKey, hid],
      strip_projectedTitle (by decide), ?_⟩
    rw [htype]
    unfold eventSourceKey SourceRecordType.ofKey
    rw [if_neg]
    dsimp only
    split <;> simp [String.toList_append]
  · rename_i htype
    simp only [bind_eq_ok, Records.getRecord_eq_ok, pure_eq_ok] at h
    obtain ⟨occurrence, hoccurrence, rfl⟩ := h
    have hid : occurrence.occurrenceId = claim.sourceId := Records.key_of_find? hoccurrence
    refine ⟨by simp [timerSourceKey], by simp [timerSourceKey, hid],
      strip_projectedTitle (by decide), ?_⟩
    rw [htype]
    unfold timerSourceKey SourceRecordType.ofKey
    rw [if_pos]
    simp [String.toList_append]

-- ════════════════════════════════════════════════════════════════════════
-- Triggers and causes keep their sources
-- ════════════════════════════════════════════════════════════════════════

/-- A cause that a row had before, or the source of a completed trigger. -/
def AgendaSide.CauseKnown (s : AgendaSide) (tables : AgendaTables) (row : AgendaRow)
    (id : StableId) : Prop :=
  (∃ old ∈ s.tables.agendaRuntime, old.sourceKey = row.sourceKey ∧ id ∈ old.causeIds) ∨
    ∃ r ∈ tables.triggerTable (.ofKey row.sourceKey), r.sourceId = id ∧ r.state = .completed

theorem title_of_normalize {item : AgendaItem} {f : AgendaItemFields}
    (h : item.toAgendaItemFields = f.normalize) : strip item.title = item.title := by
  rw [h]
  exact strip_strip f.title

/-- A trigger that is not completed is written over by one with its source. -/
theorem triggerTable_replace {s : AgendaTables} {type : SourceRecordType} {r r' : TriggerRow}
    (hfind : (s.triggerTable type).find? r'.triggerId = some r) (hstate : r.state ≠ .completed)
    (hsource : r'.sourceId = r.sourceId) :
    let t := s.setTriggerTable type ((s.triggerTable type).replace r')
    (∀ type', ∀ x ∈ t.triggerTable type', ∃ y ∈ s.triggerTable type', y.sourceId = x.sourceId) ∧
      (∀ type', ∀ x ∈ s.triggerTable type', x.state = .completed → x ∈ t.triggerTable type') ∧
      r' ∈ t.triggerTable type := by
  intro t
  have hmem {x : TriggerRow} := Table.mem_replace (t := s.triggerTable type) (y := x) hfind
  refine ⟨fun type' x hx => ?_, fun type' x hx hcompleted => ?_, ?_⟩
  · by_cases htype : type' = type
    · subst htype
      simp only [t, triggerTable_setTriggerTable_self] at hx
      rcases hmem.mp hx with rfl | ⟨hx, _⟩
      · exact ⟨r, Table.mem_of_find? hfind, hsource.symm⟩
      · exact ⟨x, hx, rfl⟩
    · simp only [t, triggerTable_setTriggerTable_of_ne htype] at hx
      exact ⟨x, hx, rfl⟩
  · by_cases htype : type' = type
    · subst htype
      simp only [t, triggerTable_setTriggerTable_self]
      refine hmem.mpr (.inr ⟨hx, fun hkey => hstate ?_⟩)
      have hxr : x = r := Table.eq_of_key_eq hx (Table.mem_of_find? hfind)
        (hkey.trans (Table.key_of_find? hfind).symm)
      exact hxr ▸ hcompleted
    · simp only [t, triggerTable_setTriggerTable_of_ne htype]
      exact hx
  · simp only [t, triggerTable_setTriggerTable_self]
    exact hmem.mpr (.inl rfl)

theorem hasSource_setTriggerTable (s : AgendaTables) (type type' : SourceRecordType)
    (t : Table TriggerRow) (id : StableId) :
    (s.setTriggerTable type t).hasSource type' id = s.hasSource type' id := by
  cases type <;> cases type' <;> rfl

namespace AgendaSide.Sourced

variable {s : AgendaSide}

/-- New tables whose triggers, causes and titles are all accounted for. -/
theorem of_tables (h : s.Sourced) {tables : AgendaTables} {triggerClaims : List TriggerClaim}
    {agendaClaims : List AgendaClaim}
    (hsource : ∀ type, ∀ r ∈ tables.triggerTable type, tables.hasSource type r.sourceId = true)
    (hcompleted : ∀ type, ∀ r ∈ s.tables.triggerTable type, r.state = .completed →
      r ∈ tables.triggerTable type)
    (hcause : ∀ row ∈ tables.agendaRuntime, ∀ id ∈ row.causeIds, s.CauseKnown tables row id)
    (htitle : ∀ id item, tables.agendaItems.find? id = some item → strip item.title = item.title) :
    AgendaSide.Sourced ⟨tables, triggerClaims, agendaClaims⟩ where
  source := hsource
  cause row hrow id hid := by
    rcases hcause row hrow id hid with ⟨old, hold, hkey, hid⟩ | hknown
    · obtain ⟨r, hr, hrs, hstate⟩ := h.cause old hold id hid
      rw [hkey] at hr
      exact ⟨r, hcompleted _ r hr hstate, hrs, hstate⟩
    · exact hknown
  title := htitle

theorem title_insert (h : s.Sourced) {item : AgendaItem} {f : AgendaItemFields}
    {agendaItems : Records AgendaItem} (hitem : item.toAgendaItemFields = f.normalize)
    (hinsert : s.tables.agendaItems.insertRecord item = .ok agendaItems) :
    ∀ id x, agendaItems.find? id = some x → strip x.title = x.title := by
  intro id x hx
  rw [Records.find?_insertRecord hinsert] at hx
  split at hx
  · obtain rfl := Option.some.inj hx
    exact title_of_normalize hitem
  · exact h.title id x hx

theorem title_update (h : s.Sourced) {item : AgendaItem} {f : AgendaItemFields} {n : ℕ}
    {agendaItems : Records AgendaItem} (hitem : item.toAgendaItemFields = f.normalize)
    (hupdate : s.tables.agendaItems.updateRecord item n = .ok agendaItems) :
    ∀ id x, agendaItems.find? id = some x → strip x.title = x.title := by
  intro id x hx
  rw [Records.find?_updateRecord hupdate] at hx
  split at hx
  · obtain rfl := Option.some.inj hx
    exact title_of_normalize hitem
  · exact h.title id x hx

/-- A row replaced by one with its key and causes has no new cause. -/
theorem cause_replace {rows : Table AgendaRow} {tables : AgendaTables} {row r : AgendaRow}
    (hfind : rows.find? r.agendaItemId = some row) (hkey : row.sourceKey = r.sourceKey)
    (hcauses : row.causeIds = r.causeIds)
    (hrows : ∀ x ∈ rows, ∀ id ∈ x.causeIds, s.CauseKnown tables x id) :
    ∀ x ∈ rows.replace r, ∀ id ∈ x.causeIds, s.CauseKnown tables x id := by
  intro x hx id hid
  rcases (Table.mem_replace hfind).mp hx with rfl | ⟨hx, _⟩
  · have hold := hrows row (Table.mem_of_find? hfind) id (hcauses ▸ hid)
    unfold CauseKnown at hold ⊢
    rwa [hkey] at hold
  · exact hrows x hx id hid

theorem cause_self (tables : AgendaTables) :
    ∀ x ∈ s.tables.agendaRuntime, ∀ id ∈ x.causeIds, s.CauseKnown tables x id :=
  fun x hx _ hid => .inl ⟨x, hx, rfl, hid⟩

/-- A claimed trigger is completed, and its source is the one new cause. -/
theorem complete (h : s.Sourced) (hc : s.Conserved) {claim : TriggerClaim} {trigger : TriggerRow}
    {tables : AgendaTables} (hissued : claim ∈ s.triggerClaims)
    (hfind : (s.tables.triggerTable claim.sourceRecordType).find? claim.triggerId = some trigger)
    (hstate : trigger.state = .claimed)
    (htriggers : ∀ type, tables.triggerTable type = s.tables.triggerTable type)
    (hsources : ∀ type id, tables.hasSource type id = s.tables.hasSource type id)
    (hcause : ∀ row ∈ tables.agendaRuntime, ∀ id ∈ row.causeIds,
      (∃ old ∈ s.tables.agendaRuntime, old.sourceKey = row.sourceKey ∧ id ∈ old.causeIds) ∨
        (id = claim.sourceId ∧ SourceRecordType.ofKey row.sourceKey = claim.sourceRecordType))
    (htitle : ∀ id item, tables.agendaItems.find? id = some item → strip item.title = item.title) :
    AgendaSide.Sourced { s with tables := tables.completeTrigger claim trigger } := by
  have hsame : trigger.sourceId = claim.sourceId := by
    obtain ⟨r, hr, hrs⟩ := hc.claimed claim hissued
    obtain rfl := Option.some.inj (hfind.symm.trans hr)
    exact hrs
  have hid : trigger.complete.triggerId = claim.triggerId := Table.key_of_find? hfind
  rw [← hid, ← htriggers] at hfind
  obtain ⟨hold, hkeep, hnew⟩ := triggerTable_replace hfind (by simp [hstate]) rfl
  refine h.of_tables (fun type r hr => ?_) (fun type r hr hcompleted => ?_) ?_ ?_
  · obtain ⟨y, hy, hyr⟩ := hold type r hr
    rw [completeTrigger, hasSource_setTriggerTable, hsources, ← hyr]
    exact h.source type y (htriggers type ▸ hy)
  · exact hkeep type r ((htriggers type).symm ▸ hr) hcompleted
  · intro row hrow id hid
    have hrow : row ∈ tables.agendaRuntime := by simpa [completeTrigger] using hrow
    rcases hcause row hrow id hid with hold | ⟨rfl, hkey⟩
    · exact .inl hold
    · rw [← hkey] at hnew
      exact .inr ⟨trigger.complete, by rw [completeTrigger, ← hkey]; exact hnew, hsame, rfl⟩
  · simpa [completeTrigger] using htitle

end AgendaSide.Sourced

theorem AgendaSide.sourced_move {C : AgendaRow → AgendaClaim → Prop} {s t : AgendaSide}
    (hc : s.Conserved) (h : s.Sourced) (hm : Move C s t) : t.Sourced := by
  cases hm with
  | idle => exact h
  | @ingest tables type trigger hruntime hitems _ _ _ hinsert hother hkeep hnew =>
    refine h.of_tables (fun type' r hr => ?_) (fun type' r hr _ => ?_) ?_ ?_
    · by_cases htype : type' = type
      · subst htype
        rcases (Table.mem_insert hinsert).mp hr with hr | rfl
        · exact hkeep type' _ (h.source type' r hr)
        · exact hnew
      · rw [hother type' htype] at hr
        exact hkeep type' _ (h.source type' r hr)
    · by_cases htype : type' = type
      · subst htype
        exact (Table.mem_insert hinsert).mpr (.inl hr)
      · rw [hother type' htype]
        exact hr
    · rw [hruntime]
      exact Sourced.cause_self tables
    · rw [hitems]
      exact h.title
  | @claimTrigger type row owner leaseUntil hfind hstate =>
    have hclaimed : (s.tables.triggerTable type).find? (row.claim owner leaseUntil).triggerId =
      some row := hfind
    obtain ⟨hold, hkeep, _⟩ := triggerTable_replace hclaimed hstate rfl
    refine h.of_tables (fun type' r hr => ?_) hkeep ?_ (by simpa using h.title)
    · obtain ⟨y, hy, hyr⟩ := hold type' r hr
      rw [hasSource_setTriggerTable, ← hyr]
      exact h.source type' y hy
    · rw [setTriggerTable_agendaRuntime]
      exact Sourced.cause_self _
  | @create claim trigger source wakeCycleId agendaItemId _ _ _ _ _ agendaRuntime hissued hfind
      hstate _ hitem hitems hruntime hsource =>
    refine h.complete hc hissued hfind hstate (fun type => by cases type <;> rfl)
      (fun type _ => by cases type <;> rfl) (fun row hrow id hid => ?_) (h.title_insert hitem hitems)
    rcases (Table.mem_insert hruntime).mp hrow with hrow | rfl
    · exact .inl ⟨row, hrow, rfl, hid⟩
    · exact .inr ⟨List.mem_singleton.mp hid, (loadedFor_of_loadSource hsource).key⟩
  | @coalesce claim trigger source wakeCycleId _ _ row _ _ _ _ hissued hfind hstate _ hrow _ _ hitem
      hitems hsource hkey =>
    refine h.complete hc hissued hfind hstate (fun type => by cases type <;> rfl)
      (fun type _ => by cases type <;> rfl) (fun x hx id hid => ?_) (h.title_update hitem hitems)
    have hrow' : s.tables.agendaRuntime.find? (coalescedRow claim wakeCycleId row).agendaItemId =
        some row := hrow
    rcases (Table.mem_replace hrow').mp hx with rfl | ⟨hx, _⟩
    · rcases List.mem_append.mp hid with hid | hid
      · exact .inl ⟨row, Table.mem_of_find? hrow, rfl, hid⟩
      · refine .inr ⟨List.mem_singleton.mp hid, ?_⟩
        rw [show (coalescedRow claim wakeCycleId row).sourceKey = source.sourceKey from hkey]
        exact (loadedFor_of_loadSource hsource).key
    · exact .inl ⟨x, hx, rfl, hid⟩
  | @select row _ _ _ owner _ leaseUntil _ hrow _ hselected hitems =>
    refine h.of_tables h.source (fun _ _ hr _ => hr) ?_ (h.title_update hselected hitems)
    have hfind : (AgendaRow.passOverAll s.tables.agendaRuntime row.agendaItemId).find?
        (row.select owner leaseUntil).agendaItemId = some row := by
      rw [AgendaRow.find?_passOverAll, show (row.select owner leaseUntil).agendaItemId =
        row.agendaItemId from rfl, hrow, Option.map_some, AgendaRow.passOver_self]
    refine Sourced.cause_replace hfind rfl rfl fun x hx id hid => ?_
    obtain ⟨y, hy, rfl⟩ := Table.mem_update.mp hx
    refine .inl ⟨y, hy, ?_, ?_⟩
    · unfold AgendaRow.passOver
      split <;> rfl
    · unfold AgendaRow.passOver at hid
      split at hid <;> exact hid
  | @release claim row _ _ _ _ hrow _ hreleased hitems =>
    have hfind := Table.find?_of_mem (Table.mem_of_find? (requireAgendaClaim_eq_ok hrow).1)
    exact h.of_tables h.source (fun _ _ hr _ => hr)
      (Sourced.cause_replace (r := row.release) hfind rfl rfl (Sourced.cause_self _))
      (h.title_update hreleased hitems)
  | @checkpoint claim row _ _ _ _ _ _ _ hrow _ _ hcompleted hitems _ _ =>
    have hfind := Table.find?_of_mem (Table.mem_of_find? (requireAgendaClaim_eq_ok hrow).1)
    exact h.of_tables h.source (fun _ _ hr _ => hr)
      (Sourced.cause_replace (r := row.checkpoint claim.claimedGeneration) hfind rfl rfl
        (Sourced.cause_self _)) (h.title_update hcompleted hitems)

theorem sourced_of_reachable {ε : Type} {hooks : StoreHooks ε} {s : RuntimeState ε}
    (h : (runtime hooks).Reachable s) : s.agenda.Sourced := by
  have hempty : AgendaSide.Sourced ⟨.empty, [], []⟩ := by
    refine ⟨fun type r hr => ?_, fun row hrow => ?_, fun id item hitem => ?_⟩
    · cases type <;> exact absurd hr (Table.not_mem_empty r)
    · exact absurd hrow (Table.not_mem_empty row)
    · exact absurd hitem (by simp [AgendaTables.empty])
  exact (agenda_invariant (I := fun s => s.Conserved ∧ s.Sourced) ⟨conserved_empty, hempty⟩
    (fun _ _ hs hstep => ⟨AgendaSide.conserved_move hs.1 hstep.move,
      AgendaSide.sourced_move hs.1 hs.2 hstep.move⟩) h).2

-- ════════════════════════════════════════════════════════════════════════
-- Materialization of a live claim
-- ════════════════════════════════════════════════════════════════════════

/-- The claim that was just handed out owns its trigger. -/
theorem requireTriggerClaim_of_claimTrigger {s s' : AgendaTables} {owner : StableId}
    {now leaseUntil : Instant} {claim : TriggerClaim}
    (h : s.claimTrigger owner now leaseUntil = some (claim, s')) :
    ∃ trigger, s'.requireTriggerClaim claim = .ok trigger := by
  obtain ⟨type, row, hfind, _, rfl, rfl⟩ := claimTrigger_eq_some h
  refine ⟨row.claim owner leaseUntil, ?_⟩
  simp only [requireTriggerClaim, bind_eq_ok, orFail_eq_ok, require_eq_ok, pure_eq_ok,
    exists_const]
  refine ⟨row.claim owner leaseUntil, ?_, ⟨rfl, rfl, rfl⟩, rfl⟩
  show ((s.setTriggerTable type _).triggerTable type).find? row.triggerId = _
  rw [triggerTable_setTriggerTable_self]
  exact Table.find?_replace_self (r := row.claim owner leaseUntil) hfind

/-- A new item needs a projection that fits, and nothing else. -/
theorem newItem_ok_iff {claim : TriggerClaim} {source : TriggerSource}
    (hloaded : source.LoadedFor claim) (wakeCycleId agendaItemId : StableId) (actor : Principal)
    (occurredAt : Instant) :
    (∃ item, AgendaItem.make (newItem claim source wakeCycleId agendaItemId actor occurredAt) =
      .ok item) ↔ source.Fits := by
  rw [AgendaItem.make_eq_ok_iff, AgendaItemFields.validate_eq_ok]
  constructor
  · rintro ⟨_, hwork, ⟨_, htitle⟩, hpriority, _⟩
    exact ⟨hwork, htitle, hpriority⟩
  · intro hfits
    refine ⟨hloaded.one, hfits.workId, ⟨hloaded.title, hfits.title⟩, hfits.priority, rfl, le_rfl,
      Nat.zero_le 1, ?_, fun i hi => ?_⟩
    · simp [newItem, AgendaItemFields.normalize]
    · have hi : i = claim.sourceId := Option.some.inj (hi.symm.trans hloaded.sourceId)
      simp [newItem, AgendaItemFields.normalize, hi]

/-- One more cause never makes an existing item invalid. -/
theorem coalescedItem_ok {claim : TriggerClaim} {source : TriggerSource}
    (hloaded : source.LoadedFor claim) {row : AgendaRow} {existing : AgendaItem}
    (hagrees : row.Agrees existing.toAgendaItemFields)
    (htitle : strip existing.title = existing.title)
    (hnodup : (row.causeIds ++ [claim.sourceId]).Nodup) (wakeCycleId : StableId)
    (actor : Principal) (occurredAt : Instant) :
    ∃ item, AgendaItem.make
      (coalescedItem claim source wakeCycleId row existing actor occurredAt) = .ok item := by
  obtain ⟨_, hwork, hold, hpriority, _⟩ := AgendaItemFields.validate_eq_ok.mp existing.valid
  have hhandled := existing.handledGeneration_le
  rw [hagrees.generation] at hhandled
  have hcauses : (coalescedItem claim source wakeCycleId row existing actor
      occurredAt).normalize.causeIds = row.causeIds ++ [claim.sourceId] :=
    AgendaItemFields.normalize_causeIds (by simp [coalescedItem])
  rw [AgendaItem.make_eq_ok_iff, AgendaItemFields.validate_eq_ok]
  refine ⟨hloaded.one, hwork, ?_, hpriority, rfl, Nat.le_add_left 1 row.generation,
    Nat.le_succ_of_le hhandled, ?_, fun i hi => ?_⟩
  · show strip existing.title ≠ "" ∧ (strip existing.title).length ≤ 4096
    rw [htitle]
    exact hold
  · rw [hcauses]
    exact hnodup
  · have hi : i = claim.sourceId := Option.some.inj (hi.symm.trans hloaded.sourceId)
    rw [hcauses, hi]
    exact List.mem_append_right _ (List.mem_singleton_self _)

/-- A trigger of a new source key needs a valid item. -/
theorem materializeAgenda_new_ok_iff {s : AgendaTables} {claim : TriggerClaim}
    {trigger : TriggerRow} {source : TriggerSource} {wakeCycleId agendaItemId : StableId}
    {actor : Principal} {occurredAt : Instant} (hlive : s.requireTriggerClaim claim = .ok trigger)
    (hload : s.loadSource claim = .ok source) (hnone : s.rowOfSource source.sourceKey = none)
    (hwake : s.wakeCycles.find? wakeCycleId = none)
    (hitem : s.agendaItems.find? agendaItemId = none)
    (hrow : s.agendaRuntime.find? agendaItemId = none) :
    (∃ done, s.materializeAgenda claim wakeCycleId agendaItemId actor occurredAt = .ok done) ↔
      ∃ item, AgendaItem.make (newItem claim source wakeCycleId agendaItemId actor occurredAt) =
        .ok item := by
  constructor
  · rintro ⟨done, hdone⟩
    simp only [materializeAgenda, bind_eq_ok] at hdone
    obtain ⟨_, _, source', hload', hdone⟩ := hdone
    obtain rfl := Except.ok.inj (hload'.symm.trans hload)
    simp only [hnone, bind_eq_ok] at hdone
    obtain ⟨_, _, item, hmake, _⟩ := hdone
    exact ⟨item, hmake⟩
  · rintro ⟨item, hmake⟩
    have hid : item.agendaItemId = agendaItemId := by simp [AgendaItem.make_eq_ok hmake, newItem]
    obtain ⟨wakeCycles, hwakes⟩ := Records.exists_insertRecord
      (r := newWake claim source wakeCycleId agendaItemId 1 actor occurredAt) hwake
    have hfresh : s.agendaItems.find? (key item) = none := by
      rw [show key item = agendaItemId from hid]
      exact hitem
    obtain ⟨agendaItems, hitems⟩ := Records.exists_insertRecord hfresh
    have hinsert : s.agendaRuntime.insert? (newRow claim source wakeCycleId agendaItemId) ≠ none := by
      rw [ne_eq, Table.insert?_eq_none, not_exists]
      intro x hx
      exact absurd (hrow.symm.trans hx) (by simp)
    obtain ⟨agendaRuntime, hruntime⟩ := Option.ne_none_iff_exists'.mp hinsert
    simp only [materializeAgenda, bind, Except.bind, hlive, hload, hnone, hwakes, hmake, hitems,
      hruntime, orFail]
    exact ⟨_, rfl⟩

/-- A trigger of a known source key coalesces. -/
theorem materializeAgenda_coalesced_ok {s : AgendaTables} {claim : TriggerClaim}
    {trigger : TriggerRow} {source : TriggerSource} {row : AgendaRow} {existing item : AgendaItem}
    {wakeCycleId agendaItemId : StableId} {actor : Principal} {occurredAt : Instant}
    (hlive : s.requireTriggerClaim claim = .ok trigger) (hload : s.loadSource claim = .ok source)
    (hrow : s.rowOfSource source.sourceKey = some row)
    (hnodup : (row.causeIds ++ [claim.sourceId]).Nodup)
    (hwake : s.wakeCycles.find? wakeCycleId = none)
    (hexisting : s.agendaItems.find? row.agendaItemId = some existing)
    (hmake : AgendaItem.make (coalescedItem claim source wakeCycleId row existing actor
      occurredAt) = .ok item) :
    ∃ done, s.materializeAgenda claim wakeCycleId agendaItemId actor occurredAt = .ok done := by
  have hid : item.agendaItemId = row.agendaItemId := by
    simp [AgendaItem.make_eq_ok hmake, coalescedItem, agendaItemId_of_find? hexisting]
  have hrevision : item.revision = existing.revision + 1 := by
    rw [AgendaItem.make_eq_ok hmake]
    rfl
  obtain ⟨wakeCycles, hwakes⟩ := Records.exists_insertRecord
    (r := newWake claim source wakeCycleId row.agendaItemId (row.generation + 1) actor occurredAt)
    hwake
  have hstored : s.agendaItems.find? (key item) = some existing := by
    rw [show key item = row.agendaItemId from hid]
    exact hexisting
  obtain ⟨agendaItems, hitems⟩ : ∃ rs, s.agendaItems.updateRecord item existing.revision = .ok rs :=
    Records.exists_updateRecord rfl hstored hrevision
  have hrecord : s.agendaItems.getRecord row.agendaItemId = .ok existing :=
    Records.getRecord_eq_ok.mpr hexisting
  simp only [materializeAgenda, bind, Except.bind, hlive, hload, hrow, require, if_pos hnodup,
    hwakes, hrecord, hmake, hitems]
  exact ⟨_, rfl⟩

section LiveClaims

variable {ε : Type} {hooks : StoreHooks ε}

/-- The source of a trigger that is still claimed is not yet a cause. -/
theorem nodup_causeIds {s : AgendaSide} (hc : s.Conserved) (hs : s.Sourced)
    (hsync : s.tables.Synced) {claim : TriggerClaim} {trigger : TriggerRow} {row : AgendaRow}
    (hfind : (s.tables.triggerTable claim.sourceRecordType).find? claim.triggerId = some trigger)
    (hstate : trigger.state = .claimed) (hsource : trigger.sourceId = claim.sourceId)
    (hrow : row ∈ s.tables.agendaRuntime)
    (hkey : SourceRecordType.ofKey row.sourceKey = claim.sourceRecordType) :
    (row.causeIds ++ [claim.sourceId]).Nodup := by
  obtain ⟨item, _, hagrees⟩ := hsync.item_of_row (Table.find?_of_mem hrow)
  refine List.nodup_append.mpr ⟨hagrees.causeIds ▸ item.causeIds_nodup, List.nodup_singleton _, ?_⟩
  rintro id hid _ hmem rfl
  obtain rfl := List.mem_singleton.mp hmem
  obtain ⟨r, hr, hrs, hcompleted⟩ := hs.cause row hrow _ hid
  rw [hkey] at hr
  have hsame := hc.distinct _ r hr trigger (Table.mem_of_find? hfind) (hrs.trans hsource.symm)
  rw [hsame, hstate] at hcompleted
  exact absurd hcompleted (by simp)

/-- **Materialization of a live claim.** In every reachable state, a claim that
    owns its trigger materializes under fresh identifiers if and only if its
    source coalesces into an existing item or its projection fits. -/
theorem materializeAgenda_ok_iff {db : StableId → RuntimeState ε}
    (h : (database hooks).Reachable db) (ns : StableId) {claim : TriggerClaim}
    {trigger : TriggerRow} (hissued : claim ∈ (db ns).agenda.triggerClaims)
    (hlive : (db ns).agenda.tables.requireTriggerClaim claim = .ok trigger)
    {wakeCycleId agendaItemId : StableId}
    (hwake : (db ns).agenda.tables.wakeCycles.find? wakeCycleId = none)
    (hitem : (db ns).agenda.tables.agendaItems.find? agendaItemId = none) (actor : Principal)
    (occurredAt : Instant) :
    let s := (db ns).agenda.tables
    ∃ source, s.loadSource claim = .ok source ∧
      ((∃ done, s.materializeAgenda claim wakeCycleId agendaItemId actor occurredAt = .ok done) ↔
        (s.rowOfSource source.sourceKey).isSome = true ∨ source.Fits) := by
  intro s
  have hc : (db ns).agenda.Conserved := conserved_of_reachable (h.component ns)
  have hs : (db ns).agenda.Sourced := sourced_of_reachable (h.component ns)
  have hsync : s.Synced := synced_of_reachable (h.component ns)
  obtain ⟨hfind, hstate, _⟩ := requireTriggerClaim_eq_ok hlive
  have hsource : trigger.sourceId = claim.sourceId := by
    obtain ⟨r, hr, hrs⟩ := hc.claimed claim hissued
    obtain rfl := Option.some.inj (hfind.symm.trans hr)
    exact hrs
  obtain ⟨source, hload⟩ := exists_loadSource s claim
    (hsource ▸ hs.source _ trigger (Table.mem_of_find? hfind))
  have hloaded := loadedFor_of_loadSource hload
  refine ⟨source, hload, ?_⟩
  cases hrow : s.rowOfSource source.sourceKey with
  | none =>
    have hfree : s.agendaRuntime.find? agendaItemId = none := by
      by_contra hne
      obtain ⟨row, hfound⟩ := Option.ne_none_iff_exists'.mp hne
      obtain ⟨item, hstored, _⟩ := hsync.item_of_row hfound
      exact absurd (hitem.symm.trans hstored) (by simp)
    rw [materializeAgenda_new_ok_iff hlive hload hrow hwake hitem hfree, newItem_ok_iff hloaded]
    simp
  | some row =>
    have hmem := find?_of_rowOfSource hrow
    have hkey := sourceKey_of_rowOfSource hrow
    have hnodup := nodup_causeIds hc hs hsync hfind hstate hsource (Table.mem_of_find? hmem)
      (hkey ▸ hloaded.key)
    obtain ⟨existing, hexisting, hagrees⟩ := hsync.item_of_row hmem
    obtain ⟨item, hmake⟩ := coalescedItem_ok hloaded hagrees (hs.title _ _ hexisting) hnodup
      wakeCycleId actor occurredAt
    have hdone : ∃ done, s.materializeAgenda claim wakeCycleId agendaItemId actor occurredAt =
        .ok done := materializeAgenda_coalesced_ok hlive hload hrow hnodup hwake hexisting hmake
    exact ⟨fun _ => .inl rfl, fun _ => hdone⟩

end LiveClaims

/-- An event ingested and claimed, but not materialized. -/
def sampleClaimed {ε : Type} : List (RuntimeState ε → RuntimeAction ε) :=
  (sampleMaterialization (sampleEvent (stableId "event-1") (stableId "message") 5)
    (stableId "trigger-1") (stableId "wake-1") (stableId "agenda-1")).take 2

theorem materializeAgenda_ok_iff_claimed :
    ∃ (db : StableId → RuntimeState AuthorityRecords) (claim : TriggerClaim)
      (source : TriggerSource), (database sqliteRuntimeStore).Reachable db ∧
      claim ∈ (db sampleColleague).agenda.triggerClaims ∧
      (db sampleColleague).agenda.tables.loadSource claim = .ok source ∧
      ((∃ done, (db sampleColleague).agenda.tables.materializeAgenda claim (stableId "wake-1")
          (stableId "agenda-1") sampleWorker 10 = .ok done) ↔
        ((db sampleColleague).agenda.tables.rowOfSource source.sourceKey).isSome = true ∨
          source.Fits) := by
  let claim := sampleTriggerClaim .inputEvent (stableId "trigger-1") (stableId "event-1")
  obtain ⟨db, hdb, hrun⟩ := exists_database_of_runsTo sqliteRuntimeStore .empty sampleClaimed
    sampleColleague
    (fun s => decide (claim ∈ s.agenda.triggerClaims) &&
      (s.agenda.tables.requireTriggerClaim claim).toOption.isSome &&
      decide (s.agenda.tables.wakeCycles.find? (stableId "wake-1") = none) &&
      decide (s.agenda.tables.agendaItems.find? (stableId "agenda-1") = none)) (by decide)
  simp only [Bool.and_eq_true, decide_eq_true_eq] at hrun
  obtain ⟨⟨⟨hissued, hlive⟩, hwake⟩, hitem⟩ := hrun
  obtain ⟨trigger, hlive⟩ := Option.isSome_iff_exists.mp hlive
  obtain ⟨source, hload, hiff⟩ := materializeAgenda_ok_iff hdb sampleColleague hissued
    (toOption_eq_some.mp hlive) hwake hitem sampleWorker 10
  exact ⟨db, claim, source, hdb, hissued, hload, hiff⟩

/-- Whether the next claim of a trigger cannot be materialized under two fresh
    identifiers. -/
def nextClaimFails (s : AgendaTables) (wakeCycleId agendaItemId : StableId) : Bool :=
  match s.claimTrigger sampleWorker.principalId 10 100 with
  | none => false
  | some (claim, tables) =>
    decide (tables.wakeCycles.find? wakeCycleId = none) &&
      decide (tables.agendaItems.find? agendaItemId = none) &&
      (tables.materializeAgenda claim wakeCycleId agendaItemId sampleWorker 10).toOption.isNone

/-- An event may ask for any priority, also one that no agenda item can have:
    its trigger is claimed and cannot be materialized. -/
theorem poison_trigger :
    ∃ db : StableId → RuntimeState AuthorityRecords,
      (database sqliteRuntimeStore).Reachable db ∧ ∃ claim tables,
        (db sampleColleague).agenda.tables.claimTrigger sampleWorker.principalId 10 100 =
          some (claim, tables) ∧
        tables.wakeCycles.find? (stableId "wake-1") = none ∧
        tables.agendaItems.find? (stableId "agenda-1") = none ∧
        ∀ done, tables.materializeAgenda claim (stableId "wake-1") (stableId "agenda-1")
          sampleWorker 10 ≠ .ok done := by
  obtain ⟨db, hdb, hrun⟩ := exists_database_of_runsTo sqliteRuntimeStore .empty
    [fun _ => .agenda (.ingestEvent (sampleEvent (stableId "event-1") (stableId "message") 5000)
      "key-1" (stableId "trigger-1"))]
    sampleColleague
    (fun s => nextClaimFails s.agenda.tables (stableId "wake-1") (stableId "agenda-1")) (by decide)
  unfold nextClaimFails at hrun
  split at hrun
  · exact absurd hrun (by simp)
  · rename_i claim tables hclaim
    simp only [Bool.and_eq_true, decide_eq_true_eq, Option.isNone_iff_eq_none] at hrun
    obtain ⟨⟨hwake, hitem⟩, hfails⟩ := hrun
    refine ⟨db, hdb, claim, tables, hclaim, hwake, hitem, fun done hdone => ?_⟩
    rw [hdone] at hfails
    exact absurd hfails (by simp [Except.toOption])

end DigitalColleagues
