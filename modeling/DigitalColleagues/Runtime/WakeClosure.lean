import DigitalColleagues.Runtime.AgendaSync

/-!
# Closing wake cycles

Every materialization inserts a running wake for its generation; a commit closes
the wake its claim names and no other. When every commit handles exactly one
generation, that closes all of them. A commit that handles several generations
at once leaves the wakes of the earlier ones running.
-/

namespace DigitalColleagues

open Keyed AgendaTables

/-- The commit handles exactly the next unhandled generation of its item. -/
def HandlesOneGeneration (row : AgendaRow) (claim : AgendaClaim) : Prop :=
  claim.claimedGeneration = row.handledGeneration + 1

/-- Every wake belongs to one generation of one item and is closed once that
    generation is handled; a row and a claim name the wake of their generation. -/
structure AgendaSide.WakesTracked (s : AgendaSide) : Prop where
  wake : ∀ wid w, s.tables.wakeCycles.find? wid = some w → ∃ row,
    s.tables.agendaRuntime.find? row.agendaItemId = some row ∧
      w.agendaItemIds = [row.agendaItemId] ∧ w.checkpointGeneration ≤ row.generation ∧
      (w.checkpointGeneration ≤ row.handledGeneration → w.state = .completed)
  unique : ∀ wid w wid' w', s.tables.wakeCycles.find? wid = some w →
    s.tables.wakeCycles.find? wid' = some w' → w.agendaItemIds = w'.agendaItemIds →
    w.checkpointGeneration = w'.checkpointGeneration → wid = wid'
  current : ∀ id row, s.tables.agendaRuntime.find? id = some row → ∃ w,
    s.tables.wakeCycles.find? row.currentWakeCycleId = some w ∧ w.agendaItemIds = [id] ∧
      w.checkpointGeneration = row.generation
  claimed : ∀ claim ∈ s.agendaClaims, ∃ w,
    s.tables.wakeCycles.find? claim.agendaItem.wakeCycleId = some w ∧
      w.agendaItemIds = [claim.agendaItem.agendaItemId] ∧
      w.checkpointGeneration = claim.claimedGeneration

namespace AgendaSide.WakesTracked

variable {s : AgendaSide}

/-- Rows and wakes rewritten in place: a row keeps its identity, generation and
    current wake, a wake its item and generation, and a wake of a generation
    that counts as handled afterwards is closed. A new claim names the current
    wake of its row. -/
theorem of_maps (h : s.WakesTracked) {tables : AgendaTables} {claims : List AgendaClaim}
    {f : WakeCycle → WakeCycle} {g : AgendaRow → AgendaRow}
    (hwakes : ∀ wid, tables.wakeCycles.find? wid = (s.tables.wakeCycles.find? wid).map f)
    (hrows : ∀ id, tables.agendaRuntime.find? id = (s.tables.agendaRuntime.find? id).map g)
    (hf : ∀ wid w, s.tables.wakeCycles.find? wid = some w →
      (f w).agendaItemIds = w.agendaItemIds ∧ (f w).checkpointGeneration = w.checkpointGeneration)
    (hg : ∀ id row, s.tables.agendaRuntime.find? id = some row →
      (g row).agendaItemId = row.agendaItemId ∧ (g row).generation = row.generation ∧
        (g row).currentWakeCycleId = row.currentWakeCycleId)
    (hclosed : ∀ wid w row, s.tables.wakeCycles.find? wid = some w →
      s.tables.agendaRuntime.find? row.agendaItemId = some row →
      w.agendaItemIds = [row.agendaItemId] → w.checkpointGeneration ≤ (g row).handledGeneration →
      (w.checkpointGeneration ≤ row.handledGeneration → w.state = .completed) →
      (f w).state = .completed)
    (hclaims : ∀ claim ∈ claims, claim ∈ s.agendaClaims ∨ ∃ row,
      s.tables.agendaRuntime.find? claim.agendaItem.agendaItemId = some row ∧
        claim.agendaItem.wakeCycleId = row.currentWakeCycleId ∧
        claim.claimedGeneration = row.generation) :
    WakesTracked { s with tables := tables, agendaClaims := claims } where
  wake wid w hw := by
    rw [hwakes] at hw
    obtain ⟨old, hold, rfl⟩ := Option.map_eq_some_iff.mp hw
    obtain ⟨row, hrow, hitem, hle, hdone⟩ := h.wake wid old hold
    obtain ⟨hid, hgeneration, _⟩ := hg _ row hrow
    obtain ⟨hitems, hgen⟩ := hf wid old hold
    refine ⟨g row, ?_, ?_, ?_, fun hhandled => ?_⟩
    · rw [hid, hrows, hrow, Option.map_some]
    · rw [hitems, hid, hitem]
    · rw [hgen, hgeneration]
      exact hle
    · exact hclosed wid old row hold hrow hitem (hgen ▸ hhandled) hdone
  unique wid w wid' w' hw hw' hitems hgen := by
    rw [hwakes] at hw hw'
    obtain ⟨old, hold, rfl⟩ := Option.map_eq_some_iff.mp hw
    obtain ⟨old', hold', rfl⟩ := Option.map_eq_some_iff.mp hw'
    obtain ⟨hi, hc⟩ := hf wid old hold
    obtain ⟨hi', hc'⟩ := hf wid' old' hold'
    exact h.unique wid old wid' old' hold hold' (by rw [← hi, ← hi', hitems])
      (by rw [← hc, ← hc', hgen])
  current id row hrow := by
    rw [hrows] at hrow
    obtain ⟨old, hold, rfl⟩ := Option.map_eq_some_iff.mp hrow
    obtain ⟨w, hw, hitem, hgen⟩ := h.current id old hold
    obtain ⟨_, hgeneration, hcurrent⟩ := hg id old hold
    obtain ⟨hi, hc⟩ := hf _ w hw
    refine ⟨f w, ?_, hi.trans hitem, ?_⟩
    · rw [hcurrent, hwakes, hw, Option.map_some]
    · rw [hc, hgen, hgeneration]
  claimed claim hclaim := by
    rcases hclaims claim hclaim with hold | ⟨row, hrow, hwake, hgeneration⟩
    · obtain ⟨w, hw, hitem, hgen⟩ := h.claimed claim hold
      obtain ⟨hi, hc⟩ := hf _ w hw
      exact ⟨f w, by rw [hwakes, hw, Option.map_some], hi.trans hitem, hc.trans hgen⟩
    · obtain ⟨w, hw, hitem, hgen⟩ := h.current _ row hrow
      obtain ⟨hi, hc⟩ := hf _ w hw
      exact ⟨f w, by rw [hwake, hwakes, hw, Option.map_some], hi.trans hitem,
        hc.trans (hgen.trans hgeneration.symm)⟩

/-- Rows rewritten in place while the wakes stay as they are. -/
theorem of_rows (h : s.WakesTracked) {tables : AgendaTables} {claims : List AgendaClaim}
    {g : AgendaRow → AgendaRow} (hwakes : tables.wakeCycles = s.tables.wakeCycles)
    (hrows : ∀ id, tables.agendaRuntime.find? id = (s.tables.agendaRuntime.find? id).map g)
    (hg : ∀ id row, s.tables.agendaRuntime.find? id = some row →
      (g row).agendaItemId = row.agendaItemId ∧ (g row).generation = row.generation ∧
        (g row).currentWakeCycleId = row.currentWakeCycleId ∧
        (g row).handledGeneration = row.handledGeneration)
    (hclaims : ∀ claim ∈ claims, claim ∈ s.agendaClaims ∨ ∃ row,
      s.tables.agendaRuntime.find? claim.agendaItem.agendaItemId = some row ∧
        claim.agendaItem.wakeCycleId = row.currentWakeCycleId ∧
        claim.claimedGeneration = row.generation) :
    WakesTracked { s with tables := tables, agendaClaims := claims } := by
  refine h.of_maps (f := id) (fun wid => ?_) hrows (fun _ _ _ => ⟨rfl, rfl⟩)
    (fun id row hrow => ?_) (fun wid w row _ hrow _ hle hdone => ?_) hclaims
  · rw [hwakes, Option.map_id]
    rfl
  · obtain ⟨hid, hgeneration, hcurrent, _⟩ := hg id row hrow
    exact ⟨hid, hgeneration, hcurrent⟩
  · rw [(hg _ row hrow).2.2.2] at hle
    exact hdone hle

theorem of_tables (h : s.WakesTracked) {tables : AgendaTables} {claims : List TriggerClaim}
    (hwakes : tables.wakeCycles = s.tables.wakeCycles)
    (hruntime : tables.agendaRuntime = s.tables.agendaRuntime) :
    WakesTracked { s with tables := tables, triggerClaims := claims } := by
  obtain ⟨h1, h2, h3, h4⟩ := h
  constructor <;> simp only [hwakes, hruntime] <;> assumption

/-- A new wake, for a generation that its item reaches with the same step. -/
theorem insert_wake (h : s.WakesTracked) (row : AgendaRow) {tables : AgendaTables}
    {wake : WakeCycle} {wakeCycles : Records WakeCycle}
    (hinsert : s.tables.wakeCycles.insertRecord wake = .ok wakeCycles)
    (hwakes : tables.wakeCycles = wakeCycles)
    (hitem : wake.agendaItemIds = [row.agendaItemId])
    (hcheckpoint : wake.checkpointGeneration = row.generation)
    (hcurrent : row.currentWakeCycleId = wake.wakeCycleId)
    (hunhandled : row.handledGeneration < row.generation)
    (hrow : tables.agendaRuntime.find? row.agendaItemId = some row)
    (hothers : ∀ id, id ≠ row.agendaItemId →
      tables.agendaRuntime.find? id = s.tables.agendaRuntime.find? id)
    (hold : ∀ old, s.tables.agendaRuntime.find? row.agendaItemId = some old →
      row.generation = old.generation + 1 ∧ row.handledGeneration = old.handledGeneration) :
    WakesTracked { s with tables := tables } where
  wake wid w hw := by
    rw [hwakes, Records.find?_insertRecord hinsert] at hw
    split at hw
    · obtain rfl := Option.some.inj hw
      exact ⟨row, hrow, hitem, by omega, fun hle => absurd hle (by omega)⟩
    · obtain ⟨row', hrow', hitem', hle, hclosed⟩ := h.wake wid w hw
      by_cases hid : row'.agendaItemId = row.agendaItemId
      · rw [hid] at hrow'
        obtain ⟨hgen, hhandled⟩ := hold row' hrow'
        exact ⟨row, hrow, by rw [hitem', hid], by omega, fun hw' => hclosed (by omega)⟩
      · exact ⟨row', (hothers _ hid).trans hrow', hitem', hle, hclosed⟩
  unique wid w wid' w' hw hw' hitems hgen := by
    have hfresh : ∀ wid w, s.tables.wakeCycles.find? wid = some w →
        w.agendaItemIds = [row.agendaItemId] → w.checkpointGeneration ≠ row.generation := by
      intro wid w hw hwitem hwgen
      obtain ⟨row', hrow', hitem', hle, _⟩ := h.wake wid w hw
      have hid : row'.agendaItemId = row.agendaItemId := by
        simpa [hitem'] using hwitem
      rw [hid] at hrow'
      have := (hold row' hrow').1
      omega
    rw [hwakes, Records.find?_insertRecord hinsert] at hw hw'
    split at hw <;> split at hw'
    · rename_i h1 h2
      rw [h1, h2]
    · obtain rfl := Option.some.inj hw
      exact absurd (hgen.symm.trans hcheckpoint) (hfresh wid' w' hw' (hitems.symm.trans hitem))
    · obtain rfl := Option.some.inj hw'
      exact absurd (hgen.trans hcheckpoint) (hfresh wid w hw (hitems.trans hitem))
    · exact h.unique wid w wid' w' hw hw' hitems hgen
  current id row' hrow' := by
    rw [hwakes]
    by_cases hid : id = row.agendaItemId
    · subst hid
      obtain rfl := Option.some.inj (hrow.symm.trans hrow')
      exact ⟨wake, hcurrent ▸ Records.find?_insertRecord_self hinsert, hitem, hcheckpoint⟩
    · rw [hothers id hid] at hrow'
      obtain ⟨w, hw, hwitem, hwgen⟩ := h.current id row' hrow'
      exact ⟨w, Records.find?_insertRecord_of_some hinsert hw, hwitem, hwgen⟩
  claimed claim hclaim := by
    rw [hwakes]
    obtain ⟨w, hw, hwitem, hwgen⟩ := h.claimed claim hclaim
    exact ⟨w, Records.find?_insertRecord_of_some hinsert hw, hwitem, hwgen⟩

/-- The commit of the next generation closes the one wake of that generation. -/
theorem close_wake (h : s.WakesTracked) {tables : AgendaTables} {claim : AgendaClaim}
    {row : AgendaRow} {wake : WakeCycle} {wakeCycles : Records WakeCycle}
    (hclaim : claim ∈ s.agendaClaims)
    (hrow : s.tables.agendaRuntime.find? claim.agendaItem.agendaItemId = some row)
    (hone : HandlesOneGeneration row claim)
    (hwake : s.tables.wakeCycles.find? claim.agendaItem.wakeCycleId = some wake)
    (hupdate : s.tables.wakeCycles.updateRecord (finalizeWake wake claim.claimedGeneration)
      wake.revision = .ok wakeCycles)
    (hwakes : tables.wakeCycles = wakeCycles)
    (hruntime : tables.agendaRuntime =
      s.tables.agendaRuntime.replace (row.checkpoint claim.claimedGeneration)) :
    WakesTracked { s with tables := tables } := by
  have hid : row.agendaItemId = claim.agendaItem.agendaItemId := Table.key_of_find? hrow
  obtain ⟨w₀, hw₀, hwitem, hwgen⟩ := h.claimed claim hclaim
  obtain rfl := Option.some.inj (hwake.symm.trans hw₀)
  have hwid : ∀ wid w, s.tables.wakeCycles.find? wid = some w →
      w.wakeCycleId = wake.wakeCycleId → w = wake := by
    intro wid w hw he
    rw [← wakeCycleId_of_find? hw, he, wakeCycleId_of_find? hwake, hwake] at hw
    exact (Option.some.inj hw).symm
  have hrid : ∀ id row', s.tables.agendaRuntime.find? id = some row' →
      row'.agendaItemId = row.agendaItemId → row' = row := fun id row' hrow' he =>
    Table.eq_of_key_eq (Table.mem_of_find? hrow') (Table.mem_of_find? hrow) he
  refine h.of_maps
    (f := fun w => if w.wakeCycleId = wake.wakeCycleId
      then finalizeWake wake claim.claimedGeneration else w)
    (g := fun r => if r.agendaItemId = row.agendaItemId
      then row.checkpoint claim.claimedGeneration else r)
    (fun wid => ?_) (fun id => ?_) (fun wid w hw => ?_) (fun id row' hrow' => ?_)
    (fun wid w row' hw hrow' hitem hle hdone => ?_) (fun _ => .inl)
  · rw [hwakes]
    exact Records.find?_updateRecord_eq_map hupdate wid
  · rw [hruntime]
    exact Table.find?_replace_eq_map _ _ id
  · split
    · rename_i he
      rw [hwid wid w hw he]
      exact ⟨rfl, hwgen.symm⟩
    · exact ⟨rfl, rfl⟩
  · split
    · rename_i he
      rw [hrid id row' hrow' he]
      exact ⟨rfl, rfl, rfl⟩
    · exact ⟨rfl, rfl, rfl⟩
  · split
    · rfl
    · rename_i hne
      split at hle
      · -- the generation just handled has only the wake that was closed
        rename_i he
        obtain rfl := hrid _ row' hrow' he
        have hle' : w.checkpointGeneration ≤ max row'.handledGeneration claim.claimedGeneration :=
          hle
        rw [hone] at hle'
        have hlast : w.checkpointGeneration ≠ row'.handledGeneration + 1 := by
          intro hlast
          have hsame := h.unique wid w _ wake hw hwake (by rw [hitem, hwitem, hid])
            (hlast.trans (hone.symm.trans hwgen.symm))
          subst hsame
          obtain rfl := Option.some.inj (hw.symm.trans hwake)
          exact hne rfl
        exact hdone (by omega)
      · exact hdone hle

end AgendaSide.WakesTracked

theorem AgendaSide.wakesTracked_move {s t : AgendaSide} (hsync : s.tables.Synced)
    (h : s.WakesTracked) (hm : Move HandlesOneGeneration s t) : t.WakesTracked := by
  cases hm with
  | idle => exact h
  | ingest hruntime _ hwakes _ _ _ _ => exact h.of_tables hwakes hruntime
  | claimTrigger _ _ => exact h.of_tables (by simp) (by simp)
  | @create claim _ source wakeCycleId agendaItemId _ _ _ wakeCycles _ _ _ _ _ hwake _ _ hruntime =>
    have hnone := (Table.insert?_eq_some.mp hruntime).1
    refine h.insert_wake (newRow claim source wakeCycleId agendaItemId) hwake
      (by simp [completeTrigger]) rfl rfl rfl Nat.one_pos ?_ ?_ ?_
    · simp [completeTrigger, Table.find?_insert hruntime, key]
    · intro id hid
      simp only [completeTrigger, setTriggerTable_agendaRuntime]
      exact (Table.find?_insert hruntime id).trans (if_neg hid)
    · intro old hold
      exact absurd (hnone.symm.trans hold) (by simp)
  | @coalesce claim _ source wakeCycleId _ _ row _ _ wakeCycles _ _ _ _ hwake hrow _ _ _ _ =>
    have hle := hsync.handledGeneration_le (Table.mem_of_find? hrow)
    refine h.insert_wake (coalescedRow claim wakeCycleId row) hwake
      (by simp [completeTrigger]) rfl rfl rfl (Nat.lt_succ_of_le hle) ?_ ?_ ?_
    · simp only [completeTrigger, setTriggerTable_agendaRuntime]
      exact Table.find?_replace_self (r := coalescedRow claim wakeCycleId row) hrow
    · intro id hid
      simp only [completeTrigger, setTriggerTable_agendaRuntime]
      exact Table.find?_replace_of_ne hid
    · intro old hold
      obtain rfl := Option.some.inj (hrow.symm.trans hold)
      exact ⟨rfl, rfl⟩
  | @select row existing selected agendaItems owner now leaseUntil _ hrow hexisting hselected _ =>
    have hagrees := hsync.agrees hrow hexisting
    refine h.of_rows (g := fun r => if (r.passOver row.agendaItemId).agendaItemId =
      row.agendaItemId then row.select owner leaseUntil else r.passOver row.agendaItemId) rfl
      (fun id => ?_) (fun id row' hrow' => ?_) (fun claim hclaim => ?_)
    · rw [Table.find?_replace_eq_map, AgendaRow.find?_passOverAll, Option.map_map]
      rfl
    · have hpassed : (row'.passOver row.agendaItemId).agendaItemId = row'.agendaItemId ∧
          (row'.passOver row.agendaItemId).generation = row'.generation ∧
          (row'.passOver row.agendaItemId).currentWakeCycleId = row'.currentWakeCycleId ∧
          (row'.passOver row.agendaItemId).handledGeneration = row'.handledGeneration := by
        unfold AgendaRow.passOver
        split <;> exact ⟨rfl, rfl, rfl, rfl⟩
      split
      · rename_i he
        have : row' = row := Table.eq_of_key_eq (Table.mem_of_find? hrow')
          (Table.mem_of_find? hrow) (hpassed.1.symm.trans he)
        subst this
        exact ⟨rfl, rfl, rfl, rfl⟩
      · exact hpassed
    · rcases List.mem_append.mp hclaim with hclaim | hclaim
      · exact .inl hclaim
      · obtain rfl := List.mem_singleton.mp hclaim
        refine .inr ⟨row, ?_, ?_, rfl⟩
        · simpa [hselected, agendaItemId_of_find? hexisting] using hrow
        · simpa [hselected] using hagrees.wakeCycleId
  | @release claim row _ _ _ _ hrow _ _ _ =>
    refine h.of_rows (g := fun r => if r.agendaItemId = row.agendaItemId then row.release else r)
      rfl (fun id => Table.find?_replace_eq_map _ _ id) (fun id row' hrow' => ?_) fun _ => .inl
    split
    · rename_i he
      have : row' = row := Table.eq_of_key_eq (Table.mem_of_find? hrow')
        (Table.mem_of_find? (requireAgendaClaim_eq_ok hrow).1) he
      subst this
      exact ⟨rfl, rfl, rfl, rfl⟩
    · exact ⟨rfl, rfl, rfl, rfl⟩
  | @checkpoint claim row _ _ _ _ wake wakeCycles hissued hrow hone _ _ _ hwake hwakes =>
    exact h.close_wake hissued (requireAgendaClaim_eq_ok hrow).1 hone hwake hwakes rfl rfl

/-- In every run whose commits handle one generation each, every wake of an item
    that is fully handled is closed, in every namespace. -/
theorem wakes_closed_of_one_generation_commits {ε : Type} {hooks : StoreHooks ε}
    {db : StableId → RuntimeState ε}
    (h : (((runtime hooks).restrict (CommitsWhen HandlesOneGeneration)).indexed
      StableId).Reachable db) (ns : StableId) :
    let s := (db ns).agenda.tables
    ∀ row ∈ s.agendaRuntime, row.handledGeneration = row.generation →
      ∀ wid w, s.wakeCycles.find? wid = some w → row.agendaItemId ∈ w.agendaItemIds →
        w.state = .completed := by
  intro s row hrow hhandled wid w hw hitem
  have hinv : (db ns).agenda.tables.Synced ∧ (db ns).agenda.WakesTracked := by
    refine agenda_invariant_when (I := fun a => a.tables.Synced ∧ a.WakesTracked)
      (C := HandlesOneGeneration) ?_ ?_ (h.component ns)
    · exact ⟨fun _ => .none, by simp [AgendaTables.empty], by simp [AgendaTables.empty],
        by simp [AgendaTables.empty], by simp⟩
    · intro a b hab hstep
      exact ⟨AgendaSide.synced_move hab.1 hstep.move,
        AgendaSide.wakesTracked_move hab.1 hab.2 hstep.move⟩
  obtain ⟨row', hrow', hitem', hle, hclosed⟩ := hinv.2.wake wid w hw
  have hsame : row = row' := by
    refine Table.eq_of_key_eq hrow (Table.mem_of_find? hrow') ?_
    rw [hitem', List.mem_singleton] at hitem
    exact hitem
  subst hsame
  exact hclosed (hhandled ▸ hle)

/-- Two events for one item, each handled before the next is materialized. -/
def eventsHandledOneByOne : List (RuntimeState AuthorityRecords → RuntimeAction AuthorityRecords) :=
  sampleMaterialization (sampleEvent (stableId "event-1") (stableId "message") 5)
      (stableId "trigger-1") (stableId "wake-1") (stableId "agenda-1") ++
    [sampleClaimAgenda, sampleCommit (stableId "decision-1")] ++
    sampleMaterialization (sampleEvent (stableId "event-2") (stableId "message") 5)
      (stableId "trigger-2") (stableId "wake-2") (stableId "agenda-2") ++
    [sampleClaimAgenda, sampleCommit (stableId "decision-2")]

instance (row : AgendaRow) (claim : AgendaClaim) : Decidable (HandlesOneGeneration row claim) :=
  inferInstanceAs (Decidable (_ = _))

set_option maxRecDepth 4000 in
theorem wakes_closed_of_one_generation_commits_two_events :
    ∃ (db : StableId → RuntimeState AuthorityRecords) (row : AgendaRow) (w : WakeCycle),
      row ∈ (db sampleColleague).agenda.tables.agendaRuntime ∧
      row.generation = 2 ∧ row.handledGeneration = 2 ∧
      (db sampleColleague).agenda.tables.wakeCycles.find? (stableId "wake-1") = some w ∧
      w.state = .completed := by
  obtain ⟨tr, s, hpath, hp⟩ := RuntimeState.exists_path_of_runsTo sqliteRuntimeStore
    (.initial .empty) eventsHandledOneByOne
    (fun tr s => (tr.all fun e => decide (CommitsWhen HandlesOneGeneration e.source e.action)) &&
      (s.agenda.tables.agendaRuntime.find? (stableId "agenda-1")).any fun row : AgendaRow =>
        decide (row.generation = 2 ∧ row.handledGeneration = 2) &&
        (s.agenda.tables.wakeCycles.find? (stableId "wake-1")).any fun w : WakeCycle =>
          decide (row.agendaItemId ∈ w.agendaItemIds)) (by decide)
  simp only [Bool.and_eq_true, List.all_eq_true, Option.any_eq_true, decide_eq_true_eq] at hp
  obtain ⟨hcommits, row, hrow, ⟨hgeneration, hhandled⟩, w, hw, hitem⟩ := hp
  obtain ⟨db, hdb, rfl⟩ := (hpath.restrict hcommits).exists_indexed ⟨.empty, rfl⟩ sampleColleague
  have hmem := Table.mem_of_find? hrow
  exact ⟨db, row, w, hmem, hgeneration, hhandled, hw,
    wakes_closed_of_one_generation_commits hdb sampleColleague row hmem
      (hhandled.trans hgeneration.symm) (stableId "wake-1") w hw hitem⟩

/-- Two events coalesced before the item is claimed, then handled by one commit. -/
def eventsHandledTogether : List (RuntimeState AuthorityRecords → RuntimeAction AuthorityRecords) :=
  twoEventsCoalesced ++ [sampleClaimAgenda, sampleCommit (stableId "decision-1")]

/-- A commit that handles two generations leaves the wake of the first running. -/
theorem not_every_wake_closed :
    ¬ ∀ db : StableId → RuntimeState AuthorityRecords,
      (database sqliteRuntimeStore).Reachable db → ∀ ns,
        ∀ row ∈ (db ns).agenda.tables.agendaRuntime, row.handledGeneration = row.generation →
          ∀ wid w, (db ns).agenda.tables.wakeCycles.find? wid = some w →
            row.agendaItemId ∈ w.agendaItemIds → w.state = .completed := by
  intro hall
  obtain ⟨db, hdb, hp⟩ := exists_database_of_runsTo sqliteRuntimeStore .empty
    eventsHandledTogether sampleColleague
    (fun s => (s.agenda.tables.agendaRuntime.find? (stableId "agenda-1")).any
      fun row : AgendaRow => decide (row.handledGeneration = row.generation) &&
        (s.agenda.tables.wakeCycles.find? (stableId "wake-1")).any fun w : WakeCycle =>
          decide (row.agendaItemId ∈ w.agendaItemIds) && decide (w.state = .running)) (by decide)
  simp only [Bool.and_eq_true, Option.any_eq_true, decide_eq_true_eq] at hp
  obtain ⟨row, hrow, hhandled, w, hw, hitem, hstate⟩ := hp
  have hclosed := hall db hdb sampleColleague row (Table.mem_of_find? hrow) hhandled _ w hw hitem
  rw [hstate] at hclosed
  exact absurd hclosed (by decide)

end DigitalColleagues
