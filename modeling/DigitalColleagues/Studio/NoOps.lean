import DigitalColleagues.Runtime.Materialization
import DigitalColleagues.Runtime.Quiescence
import DigitalColleagues.Studio.Admitted

/-!
# Requested no-ops

A submission writes its no-op flag into the title of its source. The agenda item
takes the title of the source it was created for and keeps it, whatever
coalesces into it later, and the wake reads the flag from there.

## Main definitions

- `AgendaTables.SubmittedWith` — the flag that a stored source was submitted with
- `AgendaTables.Titled` — items are titled after their first cause
- `WakeService.CompletesAsNoop` — a claim is completed without the intelligence

## Main results

- `completes_as_noop_iff` — when exactly the no-op of a claim is the requested one
- `real_trigger_skipped` — a real trigger that is completed as a no-op
-/

namespace DigitalColleagues

open Keyed AgendaTables

-- ════════════════════════════════════════════════════════════════════════
-- Sources
-- ════════════════════════════════════════════════════════════════════════

namespace AgendaTables

/-- What a stored source is materialized from. -/
def sourceOf (s : AgendaTables) : SourceRecordType → StableId → Option TriggerSource
  | .inputEvent, id => (s.inputEvents.find? id).map eventSourceKey
  | .timerOccurrence, id => (s.timerOccurrences.find? id).map timerSourceKey

theorem sourceOf_of_loadSource {s : AgendaTables} {claim : TriggerClaim} {source : TriggerSource}
    (h : s.loadSource claim = .ok source) :
    s.sourceOf claim.sourceRecordType claim.sourceId = some source := by
  unfold loadSource at h
  split at h
  · rename_i htype
    simp only [bind_eq_ok, Records.getRecord_eq_ok, pure_eq_ok] at h
    obtain ⟨event, hevent, rfl⟩ := h
    rw [htype, sourceOf, hevent, Option.map_some]
  · rename_i htype
    simp only [bind_eq_ok, Records.getRecord_eq_ok, pure_eq_ok] at h
    obtain ⟨occurrence, hoccurrence, rfl⟩ := h
    rw [htype, sourceOf, hoccurrence, Option.map_some]

theorem isSome_sourceOf {s : AgendaTables} {type : SourceRecordType} {id : StableId}
    (h : s.hasSource type id = true) : (s.sourceOf type id).isSome = true := by
  cases type <;> rwa [sourceOf, Option.isSome_map]

/-- Stored sources stay. -/
structure KeepsSources (s t : AgendaTables) : Prop where
  event : ∀ id event, s.inputEvents.find? id = some event → t.inputEvents.find? id = some event
  timer : ∀ id occurrence, s.timerOccurrences.find? id = some occurrence →
    t.timerOccurrences.find? id = some occurrence

theorem KeepsSources.of_same {s t : AgendaTables} (h : s.SameSources t) : s.KeepsSources t := by
  constructor
  · rw [h.inputEvents]
    exact fun _ _ hevent => hevent
  · rw [h.timerOccurrences]
    exact fun _ _ hoccurrence => hoccurrence

theorem KeepsSources.sourceOf {s t : AgendaTables} (h : s.KeepsSources t) {type : SourceRecordType}
    {id : StableId} {source : TriggerSource} (hs : s.sourceOf type id = some source) :
    t.sourceOf type id = some source := by
  cases type with
  | inputEvent =>
    obtain ⟨event, hevent, rfl⟩ := Option.map_eq_some_iff.mp hs
    exact Option.map_eq_some_iff.mpr ⟨event, h.event id event hevent, rfl⟩
  | timerOccurrence =>
    obtain ⟨occurrence, hoccurrence, rfl⟩ := Option.map_eq_some_iff.mp hs
    exact Option.map_eq_some_iff.mpr ⟨occurrence, h.timer id occurrence hoccurrence, rfl⟩

end AgendaTables

/-- The ingestion of an event adds at most that event. -/
theorem AgendaSide.sources_of_ingestEvent {s t : AgendaSide} {event : InputEvent}
    {idempotencyKey : String} {triggerId : StableId}
    (h : s.exec (.ingestEvent event idempotencyKey triggerId) = .ok t) :
    t.tables.timerOccurrences = s.tables.timerOccurrences ∧
      (t.tables.inputEvents = s.tables.inputEvents ∨
        s.tables.inputEvents.insertRecord event = .ok t.tables.inputEvents) := by
  simp only [exec, AgendaTables.ingestEvent, bind_eq_ok, pure_eq_ok, Prod.exists,
    Prod.mk.injEq] at h
  obtain ⟨_, _, _, ⟨done, hdone, _, rfl⟩, rfl⟩ := h
  exact ⟨rfl, (ingestSource_eq_ok hdone).imp And.left And.left⟩

/-- The ingestion of an occurrence adds at most that occurrence. -/
theorem AgendaSide.sources_of_ingestTimer {s t : AgendaSide} {occurrence : TimerOccurrence}
    {idempotencyKey : String} {triggerId : StableId}
    (h : s.exec (.ingestTimer occurrence idempotencyKey triggerId) = .ok t) :
    t.tables.inputEvents = s.tables.inputEvents ∧
      (t.tables.timerOccurrences = s.tables.timerOccurrences ∨
        s.tables.timerOccurrences.insertRecord occurrence = .ok t.tables.timerOccurrences) := by
  simp only [exec, AgendaTables.ingestTimer, bind_eq_ok, pure_eq_ok, Prod.exists,
    Prod.mk.injEq] at h
  obtain ⟨_, _, _, ⟨done, hdone, _, rfl⟩, rfl⟩ := h
  exact ⟨rfl, (ingestSource_eq_ok hdone).imp And.left And.left⟩

/-- The records after an ingestion keep what they had, and what is new is the source. -/
theorem find?_of_ingested {ρ : Type} [DurableRecord ρ] {records records' : Records ρ} {source : ρ}
    (h : records' = records ∨ records.insertRecord source = .ok records') (id : StableId) (r : ρ) :
    (records.find? id = some r → records'.find? id = some r) ∧
      (records'.find? id = some r → records.find? id = some r ∨ r = source) := by
  rcases h with rfl | hinsert
  · exact ⟨fun hr => hr, .inl⟩
  · refine ⟨fun hr => Records.find?_insertRecord_of_some hinsert hr, fun hr => ?_⟩
    rw [Records.find?_insertRecord hinsert] at hr
    split at hr
    · exact .inr (Option.some.inj hr).symm
    · exact .inl hr

theorem keepsSources_of_runtime {ε : Type} {hooks : StoreHooks ε} {s t : RuntimeState ε}
    {a : RuntimeAction ε} (h : (runtime hooks).step s a t) :
    s.agenda.tables.KeepsSources t.agenda.tables := by
  by_cases ha : a.ingests
  · cases a with
    | agenda action =>
      have hexec : s.exec hooks (.agenda action) = .ok t := h
      simp only [RuntimeState.exec, bind_eq_ok, pure_eq_ok] at hexec
      obtain ⟨agenda, hagenda, rfl⟩ := hexec
      cases action with
      | ingestEvent event =>
        obtain ⟨htimers, hevents⟩ := AgendaSide.sources_of_ingestEvent hagenda
        exact ⟨fun id e he => (find?_of_ingested hevents id e).1 he,
          fun id o ho => htimers ▸ ho⟩
      | ingestTimer occurrence =>
        obtain ⟨hevents, htimers⟩ := AgendaSide.sources_of_ingestTimer hagenda
        exact ⟨fun id e he => hevents ▸ he,
          fun id o ho => (find?_of_ingested htimers id o).1 ho⟩
      | _ => exact absurd ha not_false
    | _ => exact absurd ha not_false
  · exact .of_same (sameSources_of_runtime h ha)

-- ════════════════════════════════════════════════════════════════════════
-- Items keep their first title
-- ════════════════════════════════════════════════════════════════════════

namespace AgendaTables

/-- The source of the first cause of a row. -/
def firstSource (s : AgendaTables) (row : AgendaRow) : Option TriggerSource :=
  row.causeIds.head?.bind (s.sourceOf (.ofKey row.sourceKey))

/-- An item has the title of the first cause of its row. -/
def Titled (s : AgendaTables) : Prop :=
  ∀ id row item, s.agendaRuntime.find? id = some row → s.agendaItems.find? id = some item →
    ∃ source, s.firstSource row = some source ∧ item.title = strip source.title

theorem firstSource_mono {s t : AgendaTables} (hsources : s.KeepsSources t) {row row' : AgendaRow}
    {source : TriggerSource} (hkey : row'.sourceKey = row.sourceKey)
    (hcauses : row.causeIds <+: row'.causeIds) (h : s.firstSource row = some source) :
    t.firstSource row' = some source := by
  obtain ⟨first, hfirst, hsource⟩ := Option.bind_eq_some_iff.mp h
  refine Option.bind_eq_some_iff.mpr ⟨first, ?_, ?_⟩
  · obtain ⟨rest, hrest⟩ := hcauses
    rw [← hrest, List.head?_append, hfirst, Option.some_or]
  · rw [hkey]
    exact hsources.sourceOf hsource

namespace Titled

variable {s t : AgendaTables}

theorem of_tables (h : s.Titled) (hsources : s.KeepsSources t)
    (hruntime : t.agendaRuntime = s.agendaRuntime) (hitems : t.agendaItems = s.agendaItems) :
    t.Titled := by
  intro id row item hrow hitem
  rw [hruntime] at hrow
  rw [hitems] at hitem
  obtain ⟨source, hsource, htitle⟩ := h id row item hrow hitem
  exact ⟨source, firstSource_mono hsources rfl (List.prefix_refl _) hsource, htitle⟩

theorem passOver (h : s.Titled) (selected : StableId) :
    { s with agendaRuntime := AgendaRow.passOverAll s.agendaRuntime selected }.Titled := by
  intro id row item hrow hitem
  have hpassed : (AgendaRow.passOverAll s.agendaRuntime selected).find? id = some row := hrow
  rw [AgendaRow.find?_passOverAll] at hpassed
  obtain ⟨old, hold, rfl⟩ := Option.map_eq_some_iff.mp hpassed
  obtain ⟨source, hsource, htitle⟩ := h id old item hold hitem
  refine ⟨source, firstSource_mono ⟨fun _ _ he => he, fun _ _ ho => ho⟩ ?_ ?_ hsource, htitle⟩
  · unfold AgendaRow.passOver
    split <;> rfl
  · unfold AgendaRow.passOver
    split <;> exact List.prefix_refl _

/-- A row may gain causes and its item may change in all but the title. -/
theorem replace (h : s.Titled) (hsources : s.KeepsSources t) (row' : AgendaRow) {row : AgendaRow}
    {existing item : AgendaItem} {expected : ℕ} {agendaItems : Records AgendaItem}
    (hrow : s.agendaRuntime.find? row'.agendaItemId = some row)
    (hexisting : s.agendaItems.find? row'.agendaItemId = some existing)
    (hkey : row'.sourceKey = row.sourceKey) (hcauses : row.causeIds <+: row'.causeIds)
    (htitle : item.title = strip existing.title)
    (hid : item.agendaItemId = row'.agendaItemId)
    (hitems : s.agendaItems.updateRecord item expected = .ok agendaItems)
    (hruntime : t.agendaRuntime = s.agendaRuntime.replace row')
    (htable : t.agendaItems = agendaItems) : t.Titled := by
  intro id x y hx hy
  rw [hruntime] at hx
  rw [htable] at hy
  by_cases hself : id = row'.agendaItemId
  · subst hself
    have hx' := (Table.find?_replace_self hrow).symm.trans hx
    have hself : agendaItems.find? item.agendaItemId = some item :=
      Records.find?_updateRecord_self hitems
    have hy' := (hid ▸ hself).symm.trans hy
    obtain rfl := Option.some.inj hx'
    obtain rfl := Option.some.inj hy'
    obtain ⟨source, hsource, hold⟩ := h _ row existing hrow hexisting
    refine ⟨source, firstSource_mono hsources hkey hcauses hsource, ?_⟩
    rw [htitle, hold, strip_strip]
  · rw [Table.find?_replace_of_ne hself] at hx
    have hne : id ≠ key item := fun he => hself (he.trans hid)
    rw [Records.find?_updateRecord_of_ne hitems hne] at hy
    obtain ⟨source, hsource, hold⟩ := h id x y hx hy
    exact ⟨source, firstSource_mono hsources rfl (List.prefix_refl _) hsource, hold⟩

end Titled

end AgendaTables

theorem AgendaSide.titled_move {C : AgendaRow → AgendaClaim → Prop} {s t : AgendaSide}
    (h : s.tables.Titled) (hsources : s.tables.KeepsSources t.tables) (hm : Move C s t) :
    t.tables.Titled := by
  cases hm with
  | idle => exact h
  | ingest hruntime hitems _ _ _ _ _ => exact h.of_tables hsources hruntime hitems
  | claimTrigger _ _ => exact h.of_tables hsources (by simp) (by simp)
  | @create claim trigger source wakeCycleId agendaItemId actor occurredAt item wakeCycles
      agendaItems agendaRuntime _ _ _ _ hitem hitems hruntime hsource =>
    have hid : item.agendaItemId = agendaItemId := by simp [hitem, newItem]
    intro id x y hx hy
    simp only [completeTrigger, setTriggerTable_agendaRuntime, Table.find?_insert hruntime] at hx
    simp only [completeTrigger, setTriggerTable_agendaItems, Records.find?_insertRecord hitems] at hy
    have hkey : key (newRow claim source wakeCycleId agendaItemId) = agendaItemId := rfl
    have hkey' : key item = agendaItemId := hid
    rw [hkey] at hx
    rw [hkey'] at hy
    by_cases hself : id = agendaItemId
    · rw [if_pos hself] at hx hy
      obtain rfl := Option.some.inj hx
      obtain rfl := Option.some.inj hy
      refine ⟨source, ?_, by rw [hitem]; rfl⟩
      have hfirst := hsources.sourceOf (sourceOf_of_loadSource hsource)
      rw [← (loadedFor_of_loadSource hsource).key] at hfirst
      exact hfirst
    · rw [if_neg hself] at hx hy
      obtain ⟨first, hfirst, htitle⟩ := h id x y hx hy
      exact ⟨first, firstSource_mono hsources rfl (List.prefix_refl _) hfirst, htitle⟩
  | @coalesce claim trigger source wakeCycleId actor occurredAt row existing item wakeCycles
      agendaItems _ _ _ _ hrow _ hexisting hitem hitems =>
    have hid : item.agendaItemId = row.agendaItemId := by
      simp [hitem, coalescedItem, agendaItemId_of_find? hexisting]
    exact h.replace hsources (coalescedRow claim wakeCycleId row) hrow hexisting rfl
      (List.prefix_append _ _) (by rw [hitem]; rfl) hid hitems (by simp [completeTrigger])
      (by simp [completeTrigger])
  | @select row existing selected agendaItems owner now leaseUntil _ hrow hexisting hselected
      hitems =>
    have hid : selected.agendaItemId = row.agendaItemId := by
      simp [hselected, agendaItemId_of_find? hexisting]
    have hpassed : (AgendaRow.passOverAll s.tables.agendaRuntime row.agendaItemId).find?
        row.agendaItemId = some row := by
      rw [AgendaRow.find?_passOverAll, hrow, Option.map_some, AgendaRow.passOver_self]
    exact Titled.replace (s := { s.tables with
      agendaRuntime := AgendaRow.passOverAll s.tables.agendaRuntime row.agendaItemId })
      (h.passOver row.agendaItemId) ⟨hsources.event, hsources.timer⟩ (row.select owner leaseUntil)
      hpassed hexisting rfl (List.prefix_refl _) (by rw [hselected]; rfl) hid hitems rfl rfl
  | @release claim row current released agendaItems _ hrow hcurrent hreleased hitems =>
    have hfind := Table.find?_of_mem (Table.mem_of_find? (requireAgendaClaim_eq_ok hrow).1)
    have hid : released.agendaItemId = row.agendaItemId := by
      simp [hreleased, syncItem, agendaItemId_of_find? hcurrent]
    exact h.replace hsources row.release hfind hcurrent rfl (List.prefix_refl _)
      (by rw [hreleased]; rfl) hid hitems rfl rfl
  | @checkpoint claim row current completed agendaItems decisions wake wakeCycles _ hrow _
      hcurrent hcompleted hitems _ _ =>
    have hfind := Table.find?_of_mem (Table.mem_of_find? (requireAgendaClaim_eq_ok hrow).1)
    have hid : completed.agendaItemId = row.agendaItemId := by
      simp [hcompleted, syncItem, agendaItemId_of_find? hcurrent]
    exact h.replace hsources (row.checkpoint claim.claimedGeneration) hfind hcurrent rfl
      (List.prefix_refl _) (by rw [hcompleted]; rfl) hid hitems rfl rfl

theorem titled_of_reachable {ε : Type} {hooks : StoreHooks ε} {s : RuntimeState ε}
    (h : (runtime hooks).Reachable s) : s.agenda.tables.Titled := by
  refine h.invariant (I := fun s : RuntimeState ε => s.agenda.tables.Titled) ?_ fun s a t hs hstep => ?_
  · rintro _ ⟨rest, rfl⟩ id row item hrow
    exact absurd hrow (by simp [RuntimeState.initial, AgendaTables.empty])
  · exact AgendaSide.titled_move hs (keepsSources_of_runtime hstep)
      (RuntimeState.agenda_step hstep (commitsWhen_true s a)).move

-- ════════════════════════════════════════════════════════════════════════
-- Sources of submissions
-- ════════════════════════════════════════════════════════════════════════

/-- Sources are ingested as calls of `submit_trigger` do it. -/
def RuntimeAction.Submits {ε : Type} (rports : RuntimePorts) : RuntimeAction ε → Prop
  | .agenda (.ingestEvent event _ _) => ∃ r work policy now,
      event = TriggerSubmission.event rports r work policy now
  | .agenda (.ingestTimer occurrence _ _) => ∃ r work service policy dueAt now,
      occurrence = TriggerSubmission.occurrence rports r work service policy dueAt now
  | _ => True

/-- What calls of `submit_trigger` do to the whole store, they do to its runtime. -/
theorem StudioState.submits_runtimeAction {rports : RuntimePorts} {a : StudioAction}
    (h : DigitalColleagues.Submits rports a) (t : StudioState) (dispatches : List Dispatch)
    {s : StudioState} {ports : GovernancePorts} {zones : TimeZones}
    (hexec : s.exec ports zones a = .ok t) : (runtimeAction t dispatches a).Submits rports := by
  cases a with
  | ingestEvent event =>
    obtain ⟨r, work, policy, now, rfl, _⟩ := h
    exact ⟨r, work, policy, now, rfl⟩
  | ingestTimer occurrence =>
    obtain ⟨r, work, service, policy, dueAt, now, rfl, _⟩ := h
    exact ⟨r, work, service, policy, dueAt, now, rfl⟩
  | agenda action =>
    cases action with
    | ingestEvent => exact absurd hexec (by simp [exec, execAgenda, otherwise])
    | ingestTimer => exact absurd hexec (by simp [exec, execAgenda, otherwise])
    | _ => trivial
  | startDispatch i occurredAt =>
    rw [runtimeAction]
    split <;> trivial
  | _ => trivial

theorem submitting_runtime_of_studio {rports : RuntimePorts} {ports : GovernancePorts}
    {zones : TimeZones} {s : StudioState}
    (h : ((studio ports zones).restrict fun _ a => DigitalColleagues.Submits rports a).Reachable s) :
    ((runtime studioHooks).restrict fun _ a => a.Submits rports).Reachable s.runtime := by
  induction h with
  | init h0 =>
    obtain rfl := h0
    exact .init ⟨_, rfl⟩
  | step _ hstep ih =>
    exact ih.step ⟨StudioState.runtime_of_exec hstep.1,
      StudioState.submits_runtimeAction hstep.2 _ _ hstep.1⟩

/-- The source stored under an identifier was made by a submission with the flag. -/
inductive AgendaTables.SubmittedWith (rports : RuntimePorts) (s : AgendaTables) :
    SourceRecordType → StableId → Bool → Prop
  | event {id : StableId} (r : TriggerSubmission) (work : FiniteWork)
      (policy : Option PolicyBinding) (now : Instant) :
      s.inputEvents.find? id = some (r.event rports work policy now) →
      SubmittedWith rports s .inputEvent id r.deterministicNoop
  | timer {id : StableId} (r : TriggerSubmission) (work : FiniteWork) (service : Principal)
      (policy : Option PolicyBinding) (dueAt now : Instant) :
      s.timerOccurrences.find? id = some (r.occurrence rports work service policy dueAt now) →
      SubmittedWith rports s .timerOccurrence id r.deterministicNoop

/-- Every stored source was submitted. -/
def AgendaTables.AllSubmitted (rports : RuntimePorts) (s : AgendaTables) : Prop :=
  ∀ type id, (s.sourceOf type id).isSome = true → ∃ noop, s.SubmittedWith rports type id noop

theorem AgendaTables.KeepsSources.submittedWith {rports : RuntimePorts} {s t : AgendaTables}
    (h : s.KeepsSources t) {type : SourceRecordType} {id : StableId} {noop : Bool}
    (hs : s.SubmittedWith rports type id noop) : t.SubmittedWith rports type id noop := by
  cases hs with
  | event r work policy now hfind => exact .event r work policy now (h.event _ _ hfind)
  | timer r work service policy dueAt now hfind =>
    exact .timer r work service policy dueAt now (h.timer _ _ hfind)

/-- A step stores no source that was not submitted. -/
theorem allSubmitted_of_runtime {ε : Type} {hooks : StoreHooks ε} {rports : RuntimePorts}
    {s t : RuntimeState ε} {a : RuntimeAction ε} (hs : s.agenda.tables.AllSubmitted rports)
    (h : (runtime hooks).step s a t) (ha : a.Submits rports) :
    t.agenda.tables.AllSubmitted rports := by
  have hkept := keepsSources_of_runtime h
  have hold {type : SourceRecordType} {id : StableId}
      (hsome : (s.agenda.tables.sourceOf type id).isSome = true) :
      ∃ noop, t.agenda.tables.SubmittedWith rports type id noop :=
    (hs type id hsome).imp fun _ => hkept.submittedWith
  intro type id hsome
  by_cases hingests : a.ingests
  · cases a with
    | agenda action =>
      have hexec : s.exec hooks (.agenda action) = .ok t := h
      simp only [RuntimeState.exec, bind_eq_ok, pure_eq_ok] at hexec
      obtain ⟨agenda, hagenda, rfl⟩ := hexec
      cases action with
      | ingestEvent event =>
        obtain ⟨htimers, hevents⟩ := AgendaSide.sources_of_ingestEvent hagenda
        cases type with
        | inputEvent =>
          obtain ⟨source, hsource⟩ := Option.isSome_iff_exists.mp hsome
          obtain ⟨e, he, _⟩ := Option.map_eq_some_iff.mp hsource
          rcases (find?_of_ingested hevents id e).2 he with hfound | rfl
          · exact hold (by rw [sourceOf, hfound]; rfl)
          · obtain ⟨r, work, policy, now, rfl⟩ := ha
            exact ⟨_, .event r work policy now he⟩
        | timerOccurrence => exact hold (by rw [sourceOf, ← htimers]; exact hsome)
      | ingestTimer occurrence =>
        obtain ⟨hevents, htimers⟩ := AgendaSide.sources_of_ingestTimer hagenda
        cases type with
        | inputEvent => exact hold (by rw [sourceOf, ← hevents]; exact hsome)
        | timerOccurrence =>
          obtain ⟨source, hsource⟩ := Option.isSome_iff_exists.mp hsome
          obtain ⟨o, ho, _⟩ := Option.map_eq_some_iff.mp hsource
          rcases (find?_of_ingested htimers id o).2 ho with hfound | rfl
          · exact hold (by rw [sourceOf, hfound]; rfl)
          · obtain ⟨r, work, service, policy, dueAt, now, rfl⟩ := ha
            exact ⟨_, .timer r work service policy dueAt now ho⟩
      | _ => exact absurd hingests not_false
    | _ => exact absurd hingests not_false
  · have hsame := sameSources_of_runtime h hingests
    refine hold ?_
    cases type with
    | inputEvent => rwa [sourceOf, ← hsame.inputEvents]
    | timerOccurrence => rwa [sourceOf, ← hsame.timerOccurrences]

theorem allSubmitted_of_reachable {ε : Type} {hooks : StoreHooks ε} {rports : RuntimePorts}
    {s : RuntimeState ε}
    (h : ((runtime hooks).restrict fun _ a => a.Submits rports).Reachable s) :
    s.agenda.tables.AllSubmitted rports := by
  refine h.invariant (I := fun s : RuntimeState ε => s.agenda.tables.AllSubmitted rports) ?_ ?_
  · rintro _ ⟨rest, rfl⟩ type id hsome
    cases type <;> exact absurd hsome (by simp [RuntimeState.initial, AgendaTables.empty, sourceOf])
  · exact fun s a t hs hstep => allSubmitted_of_runtime hs hstep.1 hstep.2

-- ════════════════════════════════════════════════════════════════════════
-- The flag in the title
-- ════════════════════════════════════════════════════════════════════════

/-- Stripping keeps a prefix that neither starts nor ends with a space. -/
theorem prefix_strip {p : List Char} {c d : Char} (t : List Char) (hp : p = c :: p.tail)
    (hp' : p = p.dropLast ++ [d]) (hc : isSpace c = false) (hd : isSpace d = false) :
    p <+: (strip (String.ofList (p ++ t))).toList := by
  have hstart : (p ++ t).dropWhile isSpace = p ++ t := by
    rw [hp, List.cons_append, List.dropWhile_cons_of_neg (by simp [hc])]
  have hend : p.reverse.dropWhile isSpace = p.reverse := by
    rw [hp', List.reverse_append, List.reverse_singleton, List.singleton_append,
      List.dropWhile_cons_of_neg (by simp [hd])]
  rw [strip, String.toList_ofList, String.toList_ofList, hstart, List.reverse_append,
    List.dropWhile_append, hend]
  split
  · rw [List.reverse_reverse]
  · rw [List.reverse_append, List.reverse_reverse]
    exact List.prefix_append _ _

theorem prefix_strip_flag (noop : Bool) (title : String) :
    (if noop then "noop:" else "wake:").toList <+:
      (strip ((if noop then "noop:" else "wake:") ++ title)).toList := by
  have happend (p : String) : p ++ title = String.ofList (p.toList ++ title.toList) := by
    rw [← String.toList_append, String.ofList_toList]
  rw [happend]
  cases noop with
  | true => exact prefix_strip title.toList (c := 'n') (d := ':') rfl rfl (by decide) (by decide)
  | false => exact prefix_strip title.toList (c := 'w') (d := ':') rfl rfl (by decide) (by decide)

theorem prefix_iff_flag {noop : Bool} {l : List Char}
    (h : (if noop then "noop:" else "wake:").toList <+: l) : "noop:".toList <+: l ↔ noop = true := by
  cases noop with
  | true => exact ⟨fun _ => rfl, fun _ => h⟩
  | false =>
    refine ⟨fun hprefix => ?_, fun hfalse => absurd hfalse Bool.false_ne_true⟩
    have hsame : "noop:".toList = "wake:".toList :=
      (List.prefix_of_prefix_length_le hprefix h le_rfl).eq_of_length rfl
    exact absurd hsame (by decide)

/-- The title of a submitted source tells its flag. -/
theorem startsWith_title (r : TriggerSubmission) (work : FiniteWork)
    (default : String) :
    (strip (projectedTitle (r.safeProjection work) default)).startsWith "noop:" =
      r.deterministicNoop := by
  have hget : (r.safeProjection work).get "title" =
      some (.str ((if r.deterministicNoop then "noop:" else "wake:") ++ work.title)) := by
    simp [FrozenJsonObject.get, TriggerSubmission.safeProjection]
  have hflag := prefix_strip_flag r.deterministicNoop work.title
  have hne : strip ((if r.deterministicNoop then "noop:" else "wake:") ++ work.title) ≠ "" := by
    intro hempty
    rw [hempty] at hflag
    cases hnoop : r.deterministicNoop <;> simp [hnoop] at hflag
  rw [projectedTitle, hget]
  dsimp only
  rw [if_neg hne, Bool.eq_iff_iff, String.startsWith_string_iff]
  exact prefix_iff_flag hflag

/-- The title that a stored source gives its item tells the flag of its submission. -/
theorem AgendaTables.SubmittedWith.title {rports : RuntimePorts} {s : AgendaTables}
    {type : SourceRecordType} {id : StableId} {noop : Bool} {source : TriggerSource}
    (h : s.SubmittedWith rports type id noop) (hsource : s.sourceOf type id = some source) :
    (strip source.title).startsWith "noop:" = noop := by
  cases h with
  | event r work policy now hfind =>
    rw [sourceOf, hfind, Option.map_some] at hsource
    obtain rfl := Option.some.inj hsource
    have htitle : (eventSourceKey (r.event rports work policy now)).title =
        projectedTitle (r.safeProjection work) "finite work update" := by
      rw [eventSourceKey, TriggerSubmission.event]
    rw [htitle]
    exact startsWith_title r work _
  | timer r work service policy dueAt now hfind =>
    rw [sourceOf, hfind, Option.map_some] at hsource
    obtain rfl := Option.some.inj hsource
    have htitle : (timerSourceKey (r.occurrence rports work service policy dueAt now)).title =
        projectedTitle (r.safeProjection work) "scheduled timer work" := by
      rw [timerSourceKey, TriggerSubmission.occurrence]
    rw [htitle]
    exact startsWith_title r work _

theorem AgendaTables.SubmittedWith.isSome {rports : RuntimePorts} {s : AgendaTables}
    {type : SourceRecordType} {id : StableId} {noop : Bool}
    (h : s.SubmittedWith rports type id noop) : (s.sourceOf type id).isSome = true := by
  cases h with
  | event r work policy now hfind => rw [sourceOf, hfind]; rfl
  | timer r work service policy dueAt now hfind => rw [sourceOf, hfind]; rfl

/-- A stored source has one flag. -/
theorem AgendaTables.SubmittedWith.unique {rports : RuntimePorts} {s : AgendaTables}
    {type : SourceRecordType} {id : StableId} {noop noop' : Bool}
    (h : s.SubmittedWith rports type id noop) (h' : s.SubmittedWith rports type id noop') :
    noop = noop' := by
  obtain ⟨source, hsource⟩ := Option.isSome_iff_exists.mp h.isSome
  exact (h.title hsource).symm.trans (h'.title hsource)

-- ════════════════════════════════════════════════════════════════════════
-- What a claim is completed as
-- ════════════════════════════════════════════════════════════════════════

namespace WakeService

variable {ε : Type} {w : Worker ε} {claim : AgendaClaim} {request : IntelligenceRequest}

/-- A claim is completed by a no-op of the wake itself: whatever the intelligence
    is, the decision that is committed is the same. -/
def CompletesAsNoop (w : Worker ε) (claim : AgendaClaim) (request : IntelligenceRequest) : Prop :=
  ∃ semantic : SemanticDecision, semantic.outcome = .noOp ∧ ∀ intelligence,
    decideItem { w with intelligence := intelligence } claim request =
      w.execute (.commitSemanticDecision claim semantic)

/-- An intelligence that raises the same thing every time. -/
def raising (raised : Raised) :
    ℕ → RuntimeStore ε → IntelligenceRequest → Except Raised ReturnedDecision × ε :=
  fun _ store _ => (.error raised, store.rest)

theorem decideItem_raising (hnoop : request.deterministicNoop = none) (raised : Raised)
    (s : WorkerState ε) :
    (decideItem { w with intelligence := raising raised } claim request s).1 = .error raised := by
  simp only [decideItem, hnoop, Process.bind_eq]
  rfl

/-- The title of the item decides. -/
theorem completesAsNoop_iff (s : WorkerState ε) :
    CompletesAsNoop w claim request ↔ request.agendaItem.title.startsWith "noop:" = true := by
  cases hnoop : request.deterministicNoop with
  | some semantic =>
    have hstarts : request.agendaItem.title.startsWith "noop:" = true := by
      by_contra hne
      exact absurd (hnoop.symm.trans (if_neg hne)) (by simp)
    refine ⟨fun _ => hstarts, fun _ => ⟨semantic, ?_, fun intelligence => ?_⟩⟩
    · obtain rfl := Option.some.inj (hnoop.symm.trans (if_pos hstarts))
      rfl
    · simp only [decideItem, hnoop]
      rfl
  | none =>
    constructor
    · rintro ⟨semantic, _, hsame⟩
      have hcore := congrFun (hsame (raising .indexError)) s
      have hother := congrFun (hsame (raising .unicodeEncodeError)) s
      have hequal := congrArg Prod.fst (hcore.trans hother.symm)
      rw [decideItem_raising hnoop, decideItem_raising hnoop] at hequal
      exact absurd hequal (by simp)
    · intro hstarts
      exact absurd (hnoop.symm.trans (if_pos hstarts)) (by simp)

end WakeService

/-- **No-ops.** A claim is completed as a no-op exactly when all its pending causes
    were submitted as no-ops, if and only if the first cause that the item ever had
    was submitted as a no-op exactly when all the pending ones were. -/
theorem completes_as_noop_iff {ε : Type} {hooks : StoreHooks ε} {rports : RuntimePorts}
    {s : RuntimeState ε}
    (h : ((runtime hooks).restrict fun _ a => a.Submits rports).Reachable s) {owner : StableId}
    {now leaseUntil : Instant} {claim : AgendaClaim} {tables : AgendaTables}
    (hclaim : s.agenda.tables.claimAgenda owner now leaseUntil = .ok (some claim, tables)) :
    ∃ row first, s.agenda.tables.agendaRuntime.find? claim.agendaItem.agendaItemId = some row ∧
      row.causeIds.length = claim.claimedGeneration ∧ row.causeIds.head? = some first ∧
      let submitted := s.agenda.tables.SubmittedWith rports (.ofKey row.sourceKey)
      let pending := row.causeIds.drop row.handledGeneration
      (∀ id ∈ row.causeIds, ∃! noop, submitted id noop) ∧
        ∀ (w : Worker ε) context wake mandate occurredAt,
          ((WakeService.CompletesAsNoop w claim
              (WakeService.requestOf w context claim wake mandate occurredAt) ↔
                ∀ id ∈ pending, submitted id true) ↔
            (submitted first true ↔ ∀ id ∈ pending, submitted id true)) := by
  have hreachable := h.of_restrict
  have hsubmitted := allSubmitted_of_reachable h
  rcases claimAgenda_eq_ok hclaim with ⟨_, hnone, _⟩ |
    ⟨row, existing, selected, agendaItems, hnext, hexisting, hselected, _, hsome, _⟩
  · exact absurd hnone (by simp)
  · obtain rfl := Option.some.inj hsome
    have hmem := (Table.selectMin_mem hnext).1
    have hid : selected.agendaItemId = row.agendaItemId := by
      simp [hselected, agendaItemId_of_find? hexisting]
    have hrow : s.agenda.tables.agendaRuntime.find? selected.agendaItemId = some row :=
      hid ▸ Table.find?_of_mem hmem
    obtain ⟨source, hsource, htitle⟩ := titled_of_reachable hreachable _ row existing
      (Table.find?_of_mem hmem) hexisting
    obtain ⟨first, hfirst, hfirstSource⟩ := Option.bind_eq_some_iff.mp hsource
    have hcounted := (conserved_of_reachable hreachable).counted row hmem
    have hcause {id : StableId} (hid : id ∈ row.causeIds) :
        ∃ noop, s.agenda.tables.SubmittedWith rports (.ofKey row.sourceKey) id noop := by
      have hsourced := sourced_of_reachable hreachable
      obtain ⟨trigger, htrigger, rfl, _⟩ := hsourced.cause row hmem id hid
      exact hsubmitted _ _ (isSome_sourceOf (hsourced.source _ trigger htrigger))
    refine ⟨row, first, hrow, hcounted.symm, hfirst, fun id hid => ?_,
      fun w context wake mandate occurredAt => ?_⟩
    · obtain ⟨noop, hnoop⟩ := hcause hid
      exact ⟨noop, hnoop, fun other hother => hother.unique hnoop⟩
    · obtain ⟨noop, hnoop⟩ := hcause (List.mem_of_mem_head? hfirst)
      have hselectedTitle : selected.title = strip source.title := by
        rw [show selected.title = strip existing.title by rw [hselected]; rfl, htitle, strip_strip]
      have hflag : WakeService.CompletesAsNoop w
          ⟨selected, owner, leaseUntil, row.fencingToken + 1, row.generation⟩
          (WakeService.requestOf w context
            ⟨selected, owner, leaseUntil, row.fencingToken + 1, row.generation⟩ wake mandate
            occurredAt) ↔
            s.agenda.tables.SubmittedWith rports (.ofKey row.sourceKey) first true := by
        rw [WakeService.completesAsNoop_iff ⟨s, 0⟩]
        show selected.title.startsWith "noop:" = true ↔ _
        rw [hselectedTitle, hnoop.title hfirstSource]
        exact ⟨fun htrue => htrue ▸ hnoop, fun htrue => hnoop.unique htrue⟩
      rw [hflag]

-- ════════════════════════════════════════════════════════════════════════
-- A no-op and a real trigger on one work
-- ════════════════════════════════════════════════════════════════════════

/-- The submission of an event for the sample work with a flag and a key. -/
def sampleFlagged (noop : Bool) (idempotencyKey : String) : TriggerSubmission :=
  { sampleSubmission .event with deterministicNoop := noop, idempotencyKey := idempotencyKey }

/-- A submission that is claimed and materialized. -/
def sampleMaterialized {ε : Type} (r : TriggerSubmission) (wakeCycleId : StableId) :
    List (RuntimeState ε → RuntimeAction ε) :=
  [fun _ => .agenda (.ingestEvent (r.event sampleRuntimePorts sampleWork none 0) r.idempotencyKey
      (r.eventTriggerId sampleRuntimePorts)),
    fun _ => .agenda (.claimTrigger sampleWorker.principalId 10 100),
    fun s => match s.agenda.triggerClaims.getLast? with
      | none => .environment s.rest
      | some claim => .agenda (.materializeAgenda claim wakeCycleId (stableId "agenda-1")
          sampleWorker 10)]

theorem submits_sampleMaterialized {ε : Type} (r : TriggerSubmission) (wakeCycleId : StableId) :
    ∀ a ∈ sampleMaterialized r wakeCycleId, ∀ s : RuntimeState ε,
      (a s).Submits sampleRuntimePorts := by
  intro a ha s
  simp only [sampleMaterialized, List.mem_cons, List.not_mem_nil, or_false] at ha
  rcases ha with rfl | rfl | rfl
  · exact ⟨r, sampleWork, none, 0, rfl⟩
  · trivial
  · dsimp only
    split <;> trivial

/-- A requested no-op and then a real trigger on the same work. -/
def noopThenReal {ε : Type} : List (RuntimeState ε → RuntimeAction ε) :=
  sampleMaterialized (sampleFlagged true "key-1") (stableId "wake-1") ++
    sampleMaterialized (sampleFlagged false "key-2") (stableId "wake-2")

/-- The wake of the first submission. -/
def sampleWake : WakeCycle :=
  newWake (sampleTriggerClaim .inputEvent (stableId "trigger-1") (stableId "event-1"))
    (eventSourceKey (sampleEvent (stableId "event-1") (stableId "message") 5)) (stableId "wake-1")
    (stableId "agenda-1") 1 sampleWorker 10

/-- The request that a worker makes for a claim. -/
def sampleRequest (claim : AgendaClaim) : IntelligenceRequest :=
  WakeService.requestOf (unreachableWorker 10) sampleContext claim sampleWake sampleMandate 10

theorem exists_claimed_run (as : List (RuntimeState AuthorityRecords → RuntimeAction AuthorityRecords))
    (p : RuntimeState AuthorityRecords → AgendaClaim → Bool)
    (has : ∀ a ∈ as, ∀ s, (a s).Submits sampleRuntimePorts)
    (h : (RuntimeState.initial AuthorityRecords.empty).runsTo sqliteRuntimeStore as
      (fun _ s => match s.agenda.tables.claimAgenda sampleWorker.principalId 10 100 with
        | .ok (some claim, _) => p s claim
        | _ => false) = true) :
    ∃ s claim tables, ((runtime sqliteRuntimeStore).restrict fun _ a =>
        a.Submits sampleRuntimePorts).Reachable s ∧
      s.agenda.tables.claimAgenda sampleWorker.principalId 10 100 = .ok (some claim, tables) ∧
      p s claim = true := by
  obtain ⟨tr, s, hpath, hp⟩ := TransitionSystem.exists_restricted_path_of_runsTo
    (T := runtime sqliteRuntimeStore) (C := fun _ a => a.Submits sampleRuntimePorts)
    (fun _ _ _ hs => hs) has h
  split at hp
  · rename_i claim tables hclaim
    exact ⟨s, claim, tables, hpath.reachable (.init ⟨_, rfl⟩), hclaim, hp⟩
  · exact absurd hp (by simp)

set_option maxRecDepth 8000 in
theorem completes_as_noop_iff_requested :
    ∃ s claim tables row first, ((runtime sqliteRuntimeStore).restrict fun _ a =>
        a.Submits sampleRuntimePorts).Reachable s ∧
      s.agenda.tables.claimAgenda sampleWorker.principalId 10 100 = .ok (some claim, tables) ∧
      s.agenda.tables.agendaRuntime.find? claim.agendaItem.agendaItemId = some row ∧
      row.causeIds.head? = some first ∧
      let submitted := s.agenda.tables.SubmittedWith sampleRuntimePorts (.ofKey row.sourceKey)
      let pending := row.causeIds.drop row.handledGeneration
      ((WakeService.CompletesAsNoop (unreachableWorker 10) claim (sampleRequest claim) ↔
          ∀ id ∈ pending, submitted id true) ↔
        (submitted first true ↔ ∀ id ∈ pending, submitted id true)) := by
  obtain ⟨s, claim, tables, hreachable, hclaim, _⟩ := exists_claimed_run
    (sampleMaterialized (sampleFlagged true "key-1") (stableId "wake-1")) (fun _ _ => true)
    (submits_sampleMaterialized _ _) (by decide +kernel)
  obtain ⟨row, first, hrow, _, hfirst, _, hiff⟩ := completes_as_noop_iff hreachable hclaim
  exact ⟨s, claim, tables, row, first, hreachable, hclaim, hrow, hfirst,
    hiff (unreachableWorker 10) sampleContext sampleWake sampleMandate 10⟩

/-- A claim with a no-op title and a real cause that is pending. -/
def skipsReal {ε : Type} (s : RuntimeState ε) (claim : AgendaClaim) : Bool :=
  let real := (sampleFlagged false "key-2").sourceId sampleRuntimePorts
  claim.agendaItem.title.startsWith "noop:" &&
    (s.agenda.tables.sourceOf .inputEvent real).any
      (fun source : TriggerSource => !(strip source.title).startsWith "noop:") &&
    (s.agenda.tables.agendaRuntime.find? claim.agendaItem.agendaItemId).any fun row : AgendaRow =>
      decide (real ∈ row.causeIds.drop row.handledGeneration) &&
        decide (SourceRecordType.ofKey row.sourceKey = .inputEvent)

set_option maxRecDepth 8000 in
/-- A real trigger that coalesces with an earlier no-op is completed without the
    intelligence. -/
theorem real_trigger_skipped :
    ¬∀ s claim tables row, ((runtime sqliteRuntimeStore).restrict fun _ a =>
        a.Submits sampleRuntimePorts).Reachable s →
      s.agenda.tables.claimAgenda sampleWorker.principalId 10 100 = .ok (some claim, tables) →
      s.agenda.tables.agendaRuntime.find? claim.agendaItem.agendaItemId = some row →
      (WakeService.CompletesAsNoop (unreachableWorker 10) claim (sampleRequest claim) ↔
        ∀ id ∈ row.causeIds.drop row.handledGeneration,
          s.agenda.tables.SubmittedWith sampleRuntimePorts (.ofKey row.sourceKey) id true) := by
  intro hall
  obtain ⟨s, claim, tables, hreachable, hclaim, hp⟩ := exists_claimed_run noopThenReal
    skipsReal (fun a ha => (List.mem_append.mp ha).elim (submits_sampleMaterialized _ _ a)
      (submits_sampleMaterialized _ _ a)) (by decide +kernel)
  simp only [skipsReal, Bool.and_eq_true, decide_eq_true_eq, Option.any_eq_true,
    Bool.not_eq_true'] at hp
  obtain ⟨⟨hnoop, source, hsource, hreal⟩, row, hrow, hpending, htype⟩ := hp
  have hskipped : WakeService.CompletesAsNoop (unreachableWorker 10) claim (sampleRequest claim) :=
    (WakeService.completesAsNoop_iff ⟨s, 0⟩).mpr hnoop
  have hflag := (hall s claim tables row hreachable hclaim hrow).mp hskipped _ hpending
  rw [htype] at hflag
  exact absurd ((hflag.title hsource).symm.trans hreal) (by decide)

end DigitalColleagues
