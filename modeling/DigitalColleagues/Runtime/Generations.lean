import DigitalColleagues.Runtime.Fencing
import Mathlib.Data.List.Pairwise

/-!
# One decision for each generation

The wake cycle that a decision names belongs to one generation of one agenda
item. A claim is issued for a generation that is not handled yet, and its commit
handles that generation, so no two decisions are committed for one of them.

## Main definitions

- `AgendaTables.WakeOf` — the generation that a wake cycle was started for
- `AgendaSide.Generations` — wakes, rows and claims name the same generations
- `CommittedBy` — the step that stored a decision, and the claim it used
-/

namespace DigitalColleagues

open Keyed AgendaTables

/-- A wake cycle that was started for one generation of one item. -/
def AgendaTables.WakeOf (s : AgendaTables) (wakeCycleId agendaItemId : StableId)
    (generation : ℕ) : Prop :=
  ∃ w, s.wakeCycles.find? wakeCycleId = some w ∧ w.agendaItemIds = [agendaItemId] ∧
    w.checkpointGeneration = generation

theorem AgendaTables.WakeOf.generation_unique {s : AgendaTables} {wid item item' : StableId}
    {g g' : ℕ} (h : s.WakeOf wid item g) (h' : s.WakeOf wid item' g') : g = g' := by
  obtain ⟨w, hw, _, rfl⟩ := h
  obtain ⟨w', hw', _, rfl⟩ := h'
  obtain rfl := Option.some.inj (hw.symm.trans hw')
  rfl

/-- Rows and claims name the wake of their generation, and a claim with the
    present token of a selected row is for a generation not handled yet. -/
structure AgendaSide.Generations (s : AgendaSide) : Prop where
  current : ∀ id row, s.tables.agendaRuntime.find? id = some row →
    s.tables.WakeOf row.currentWakeCycleId id row.generation
  claimed : ∀ claim ∈ s.agendaClaims,
    s.tables.WakeOf claim.agendaItem.wakeCycleId claim.resource claim.claimedGeneration
  live : ∀ claim ∈ s.agendaClaims, ∀ row,
    s.tables.agendaRuntime.find? claim.resource = some row → row.state = .selected →
    row.fencingToken = claim.fencingToken → row.handledGeneration < claim.claimedGeneration

namespace AgendaSide

variable {C : AgendaRow → AgendaClaim → Prop} {s t : AgendaSide}

-- ════════════════════════════════════════════════════════════════════════
-- Wakes
-- ════════════════════════════════════════════════════════════════════════

theorem wakeOf_insert {s : AgendaTables} {wake : WakeCycle} {wakeCycles : Records WakeCycle}
    (h : s.wakeCycles.insertRecord wake = .ok wakeCycles) {t : AgendaTables}
    (ht : t.wakeCycles = wakeCycles) {wid item : StableId} {g : ℕ} (hw : s.WakeOf wid item g) :
    t.WakeOf wid item g := by
  obtain ⟨w, hfind, hitem, hgen⟩ := hw
  refine ⟨w, ?_, hitem, hgen⟩
  rw [ht]
  exact Records.find?_insertRecord_of_some h hfind

theorem wakeOf_inserted {s : AgendaTables} {wake : WakeCycle} {wakeCycles : Records WakeCycle}
    (h : s.wakeCycles.insertRecord wake = .ok wakeCycles) {t : AgendaTables}
    (ht : t.wakeCycles = wakeCycles) {item : StableId} (hitem : wake.agendaItemIds = [item]) :
    t.WakeOf wake.wakeCycleId item wake.checkpointGeneration := by
  refine ⟨wake, ?_, hitem, rfl⟩
  rw [ht]
  exact Records.find?_insertRecord_self h

/-- A wake stays with its generation: the commit closes it at the generation it
    was started for. -/
theorem wakeOf_move (h : s.Generations) (hm : Move C s t) {wid item : StableId} {g : ℕ}
    (hw : s.tables.WakeOf wid item g) : t.tables.WakeOf wid item g := by
  cases hm with
  | idle => exact hw
  | ingest _ _ hwakes =>
    obtain ⟨w, hfind, hrest⟩ := hw
    exact ⟨w, hwakes ▸ hfind, hrest⟩
  | claimTrigger =>
    obtain ⟨w, hfind, hrest⟩ := hw
    exact ⟨w, by simpa using hfind, hrest⟩
  | create _ _ _ hwake => exact wakeOf_insert hwake (by simp [completeTrigger]) hw
  | coalesce _ _ _ hwake => exact wakeOf_insert hwake (by simp [completeTrigger]) hw
  | select => exact hw
  | release => exact hw
  | @checkpoint claim _ _ _ _ _ wake wakeCycles hissued _ _ _ _ _ hwake hwakes =>
    obtain ⟨w, hfind, hitem, hgen⟩ := hw
    by_cases hid : wid = wake.wakeCycleId
    · have hown : wid = claim.agendaItem.wakeCycleId :=
        hid.trans (wakeCycleId_of_find? hwake)
      subst hown
      obtain rfl := Option.some.inj (hwake.symm.trans hfind)
      obtain ⟨w', hw', _, hgen'⟩ := h.claimed claim hissued
      obtain rfl := Option.some.inj (hwake.symm.trans hw')
      refine ⟨finalizeWake wake claim.claimedGeneration, ?_, hitem, hgen'.symm.trans hgen⟩
      show wakeCycles.find? claim.agendaItem.wakeCycleId = _
      rw [hid]
      exact Records.find?_updateRecord_self hwakes
    · refine ⟨w, ?_, hitem, hgen⟩
      exact (Records.find?_updateRecord_of_ne hwakes hid).trans hfind

-- ════════════════════════════════════════════════════════════════════════
-- Rows and claims
-- ════════════════════════════════════════════════════════════════════════

/-- A row that keeps its generation and wake keeps naming the wake of it. -/
theorem current_replace (h : s.Generations) {tables : AgendaTables} (row row' : AgendaRow)
    (hwakes : ∀ wid item g, s.tables.WakeOf wid item g → tables.WakeOf wid item g)
    (hrow : s.tables.agendaRuntime.find? row.agendaItemId = some row)
    (hid : row'.agendaItemId = row.agendaItemId) (hgeneration : row'.generation = row.generation)
    (hwake : row'.currentWakeCycleId = row.currentWakeCycleId) (id : StableId) {x : AgendaRow}
    (hx : (s.tables.agendaRuntime.replace row').find? id = some x) :
    tables.WakeOf x.currentWakeCycleId id x.generation := by
  by_cases hk : id = row'.agendaItemId
  · subst hk
    have hold : s.tables.agendaRuntime.find? (key row') = some row := by
      show s.tables.agendaRuntime.find? row'.agendaItemId = some row
      rw [hid]
      exact hrow
    obtain rfl := Option.some.inj ((Table.find?_replace_self hold).symm.trans hx)
    rw [hwake, hgeneration, hid]
    exact hwakes _ _ _ (h.current _ row hrow)
  · exact hwakes _ _ _ (h.current _ x ((Table.find?_replace_of_ne hk).symm.trans hx))

theorem current_passOverAll (h : s.Generations) (selected id : StableId) {x : AgendaRow}
    (hx : (AgendaRow.passOverAll s.tables.agendaRuntime selected).find? id = some x) :
    s.tables.WakeOf x.currentWakeCycleId id x.generation := by
  rw [AgendaRow.find?_passOverAll] at hx
  obtain ⟨old, hold, rfl⟩ := Option.map_eq_some_iff.mp hx
  have hkept : (old.passOver selected).currentWakeCycleId = old.currentWakeCycleId ∧
      (old.passOver selected).generation = old.generation := by
    unfold AgendaRow.passOver
    split <;> exact ⟨rfl, rfl⟩
  rw [hkept.1, hkept.2]
  exact h.current id old hold

/-- Every row goes on naming the wake of its generation. -/
theorem current_move (h : s.Generations) (hm : Move C s t) (id : StableId) {x : AgendaRow}
    (hx : t.tables.agendaRuntime.find? id = some x) :
    t.tables.WakeOf x.currentWakeCycleId id x.generation := by
  have hwakes : ∀ wid item g, s.tables.WakeOf wid item g → t.tables.WakeOf wid item g :=
    fun _ _ _ => wakeOf_move h hm
  cases hm with
  | idle => exact h.current id x hx
  | ingest hruntime => exact hwakes _ _ _ (h.current id x (hruntime ▸ hx))
  | claimTrigger => exact hwakes _ _ _ (h.current id x (by simpa using hx))
  | @create claim _ source wakeCycleId agendaItemId _ _ _ wakeCycles _ _ _ _ _ hwake _ _ hruntime =>
    simp only [completeTrigger, setTriggerTable_agendaRuntime] at hx
    rw [Table.find?_insert hruntime] at hx
    split at hx
    · rename_i hid
      obtain rfl := Option.some.inj hx
      subst hid
      exact wakeOf_inserted hwake (by simp [completeTrigger]) rfl
    · exact hwakes _ _ _ (h.current id x hx)
  | @coalesce claim _ source wakeCycleId _ _ row _ _ wakeCycles _ _ _ _ hwake hrow =>
    simp only [completeTrigger, setTriggerTable_agendaRuntime] at hx
    by_cases hid : id = row.agendaItemId
    · subst hid
      have hnew := Table.find?_replace_self (r := coalescedRow claim wakeCycleId row) hrow
      obtain rfl := Option.some.inj (hnew.symm.trans hx)
      exact wakeOf_inserted hwake (by simp [completeTrigger]) rfl
    · have hold := Table.find?_replace_of_ne (r := coalescedRow claim wakeCycleId row)
        (t := s.tables.agendaRuntime) hid
      exact hwakes _ _ _ (h.current id x (hold.symm.trans hx))
  | @select row _ _ _ owner _ leaseUntil _ hrow =>
    by_cases hid : id = row.agendaItemId
    · subst hid
      have hsource : (AgendaRow.passOverAll s.tables.agendaRuntime row.agendaItemId).find?
          row.agendaItemId = some row := by
        rw [AgendaRow.find?_passOverAll, hrow, Option.map_some, AgendaRow.passOver_self]
      have hnew := Table.find?_replace_self (r := row.select owner leaseUntil) hsource
      obtain rfl := Option.some.inj (hnew.symm.trans hx)
      exact hwakes _ _ _ (h.current _ row hrow)
    · have hold := Table.find?_replace_of_ne (r := row.select owner leaseUntil)
        (t := AgendaRow.passOverAll s.tables.agendaRuntime row.agendaItemId) hid
      exact hwakes _ _ _ (current_passOverAll h row.agendaItemId id (hold.symm.trans hx))
  | @release _ row _ _ _ _ hclaim =>
    have hrow := Table.find?_of_mem (Table.mem_of_find? (requireAgendaClaim_eq_ok hclaim).1)
    exact current_replace h row row.release hwakes hrow rfl rfl rfl id hx
  | @checkpoint claim row _ _ _ _ _ _ _ hclaim =>
    have hrow := Table.find?_of_mem (Table.mem_of_find? (requireAgendaClaim_eq_ok hclaim).1)
    exact current_replace h row (row.checkpoint claim.claimedGeneration) hwakes hrow rfl rfl rfl
      id hx

/-- A claim of a selected row with the present token is for a generation that is
    not handled yet, also after the step. -/
theorem live_move (h : s.Generations) (hfenced : s.ClaimsFenced) (hm : Move C s t)
    {claim : AgendaClaim} (hclaim : claim ∈ s.agendaClaims) {row : AgendaRow}
    (hrow : t.tables.agendaRuntime.find? claim.resource = some row)
    (hstate : row.state = .selected) (htoken : row.fencingToken = claim.fencingToken) :
    row.handledGeneration < claim.claimedGeneration := by
  obtain ⟨n, hn, hle⟩ := hfenced.agenda.bounded claim hclaim
  obtain ⟨old, hold, rfl⟩ := Option.map_eq_some_iff.mp hn
  obtain ⟨row', hrow', hcontinues⟩ := continues_move hm _ hold
  obtain rfl := Option.some.inj (hrow.symm.trans hrow')
  have hsame : row.fencingToken = old.fencingToken :=
    le_antisymm (htoken ▸ hle) hcontinues.fencingToken
  obtain ⟨hselected, hhandled⟩ := hcontinues.held hsame hstate
  rw [hhandled]
  exact h.live claim hclaim old hold hselected (hsame.symm.trans htoken)

theorem generations_move (hsync : s.tables.Synced) (hfenced : s.ClaimsFenced)
    (h : s.Generations) (hm : Move C s t) : t.Generations := by
  have hcurrent : ∀ id x, t.tables.agendaRuntime.find? id = some x →
      t.tables.WakeOf x.currentWakeCycleId id x.generation := fun id _ => current_move h hm id
  have hclaimed : ∀ claim ∈ s.agendaClaims,
      t.tables.WakeOf claim.agendaItem.wakeCycleId claim.resource claim.claimedGeneration :=
    fun claim hclaim => wakeOf_move h hm (h.claimed claim hclaim)
  have hlive : ∀ claim ∈ s.agendaClaims, ∀ row,
      t.tables.agendaRuntime.find? claim.resource = some row → row.state = .selected →
      row.fencingToken = claim.fencingToken → row.handledGeneration < claim.claimedGeneration :=
    fun _ hclaim _ => live_move h hfenced hm hclaim
  cases hm with
  | @select row existing selected _ owner _ leaseUntil hnext hrow hexisting hselected =>
    have hid : selected.agendaItemId = row.agendaItemId := by
      simp [hselected, agendaItemId_of_find? hexisting]
    have hwake : selected.wakeCycleId = row.currentWakeCycleId := by
      simpa [hselected] using (hsync.agrees hrow hexisting).wakeCycleId
    have hsource : (AgendaRow.passOverAll s.tables.agendaRuntime row.agendaItemId).find?
        row.agendaItemId = some row := by
      rw [AgendaRow.find?_passOverAll, hrow, Option.map_some, AgendaRow.passOver_self]
    have hnew := Table.find?_replace_self (r := row.select owner leaseUntil) hsource
    refine ⟨hcurrent, fun claim hclaim => ?_, fun claim hclaim x hx hstate htoken => ?_⟩
    · rcases List.mem_append.mp hclaim with hclaim | hclaim
      · exact hclaimed claim hclaim
      · obtain rfl := List.mem_singleton.mp hclaim
        show WakeOf _ selected.wakeCycleId selected.agendaItemId row.generation
        rw [hwake, hid]
        exact hcurrent row.agendaItemId (row.select owner leaseUntil) hnew
    · rcases List.mem_append.mp hclaim with hclaim | hclaim
      · exact hlive claim hclaim x hx hstate htoken
      · obtain rfl := List.mem_singleton.mp hclaim
        rw [AgendaClaim.resource, hid] at hx
        obtain rfl := Option.some.inj (hnew.symm.trans hx)
        have hclaimable := (Table.selectMin_mem hnext).2
        simp only [AgendaRow.claimable, Bool.and_eq_true, decide_eq_true_eq] at hclaimable
        exact hclaimable.1
  | _ => exact ⟨hcurrent, hclaimed, hlive⟩

end AgendaSide

-- ════════════════════════════════════════════════════════════════════════
-- Commits
-- ════════════════════════════════════════════════════════════════════════

/-- The step stores the decision, as the store class prepared it, with a claim. -/
def CommittedBy {ε : Type} (hooks : StoreHooks ε)
    (e : Transition (RuntimeState ε) (RuntimeAction ε)) (claim : AgendaClaim) (d : Decision) :
    Prop :=
  ∃ semantic prepared rest, e.action = .commitSemanticDecision claim semantic ∧
    hooks.prepareSemanticDecision e.source.store claim semantic = .ok (prepared, rest) ∧
    d = prepared.decision

/-- The generation of an item, or a later one, is handled. -/
def AgendaTables.Handled (s : AgendaTables) (agendaItemId : StableId) (generation : ℕ) : Prop :=
  ∃ row, s.agendaRuntime.find? agendaItemId = some row ∧ generation ≤ row.handledGeneration

section Runs

variable {ε : Type} {hooks : StoreHooks ε} {s t : RuntimeState ε}

theorem generations_of_reachable (h : (runtime hooks).Reachable s) :
    s.agenda.tables.Synced ∧ s.agenda.ClaimsFenced ∧ s.agenda.Generations := by
  refine agenda_invariant
    (I := fun a => a.tables.Synced ∧ a.ClaimsFenced ∧ a.Generations) ?_ ?_ h
  · exact ⟨fun _ => .none, ⟨.nil _ _ _, .nil _ _ _⟩,
      ⟨by simp [AgendaTables.empty], by simp, by simp⟩⟩
  · rintro a b ⟨hsync, hfenced, hgenerations⟩ hstep
    exact ⟨AgendaSide.synced_move hsync hstep.move, AgendaSide.claimsFenced_move hfenced hstep.move,
      AgendaSide.generations_move hsync hfenced hgenerations hstep.move⟩

/-- Every agenda row goes on in a step of a run. -/
theorem RuntimeState.agenda_continues {a : RuntimeAction ε} (h : s.exec hooks a = .ok t)
    {id : StableId} {row : AgendaRow} (hrow : s.agenda.tables.agendaRuntime.find? id = some row) :
    ∃ row', t.agenda.tables.agendaRuntime.find? id = some row' ∧ row.Continues row' :=
  AgendaSide.continues_move (RuntimeState.agenda_step h (commitsWhen_true s a)).move id hrow

theorem RuntimeState.handled_of_exec {a : RuntimeAction ε} (h : s.exec hooks a = .ok t)
    {item : StableId} {g : ℕ} (hs : s.agenda.tables.Handled item g) :
    t.agenda.tables.Handled item g := by
  obtain ⟨row, hrow, hle⟩ := hs
  obtain ⟨row', hrow', hcontinues⟩ := agenda_continues h hrow
  exact ⟨row', hrow', hle.trans hcontinues.handledGeneration⟩

/-- A commit handles the generation of its claim, which was not handled before. -/
theorem RuntimeState.handles_of_commit (hs : s.agenda.Generations) {claim : AgendaClaim}
    {semantic : SemanticDecision}
    (h : s.exec hooks (.commitSemanticDecision claim semantic) = .ok t) :
    ¬s.agenda.tables.Handled claim.resource claim.claimedGeneration ∧
      t.agenda.tables.Handled claim.resource claim.claimedGeneration := by
  simp only [exec, requireIssued, bind_eq_ok, require_eq_ok, pure_eq_ok, exists_const] at h
  obtain ⟨hissued, store, hstore, rfl⟩ := h
  obtain ⟨row, _, _, _, agenda, _, hclaim, _, _, _, _, hagenda, rfl⟩ :=
    RuntimeStore.commitSemanticDecision_eq_ok hooks hstore
  obtain ⟨hrow, hstate, _, htoken⟩ := requireAgendaClaim_eq_ok hclaim
  constructor
  · rintro ⟨x, hx, hle⟩
    obtain rfl := Option.some.inj (hrow.symm.trans hx)
    exact absurd (hs.live claim hissued row hrow hstate htoken) (Nat.not_lt.mpr hle)
  · obtain ⟨_, _, _, _, _, _, _, _, _, _, rfl⟩ := checkpointDecision_eq_ok hagenda
    have hid : row.agendaItemId = claim.resource := Table.key_of_find? hrow
    refine ⟨row.checkpoint claim.claimedGeneration, ?_, le_max_right _ _⟩
    have hfind := Table.find?_of_mem (Table.mem_of_find? hrow)
    rw [← hid]
    exact Table.find?_replace_self (r := row.checkpoint claim.claimedGeneration) hfind

/-- A step leaves the decisions alone, or commits the one it stores. -/
theorem RuntimeState.decisions_of_exec {a : RuntimeAction ε} (h : s.exec hooks a = .ok t) :
    t.agenda.tables.decisions = s.agenda.tables.decisions ∨
      ∃ claim d, CommittedBy hooks ⟨s, a, t⟩ claim d ∧
        s.agenda.tables.decisions.insertRecord d = .ok t.agenda.tables.decisions := by
  cases a with
  | agenda action =>
    refine .inl ?_
    simp only [exec, bind_eq_ok, pure_eq_ok] at h
    obtain ⟨agenda, hagenda, rfl⟩ := h
    cases action with
    | ingestEvent event idempotencyKey triggerId =>
      simp only [AgendaSide.exec, AgendaTables.ingestEvent, bind_eq_ok, pure_eq_ok, Prod.exists,
        Prod.mk.injEq] at hagenda
      obtain ⟨_, _, _, ⟨_, _, _, rfl⟩, rfl⟩ := hagenda
      rfl
    | ingestTimer occurrence idempotencyKey triggerId =>
      simp only [AgendaSide.exec, AgendaTables.ingestTimer, bind_eq_ok, pure_eq_ok, Prod.exists,
        Prod.mk.injEq] at hagenda
      obtain ⟨_, _, _, ⟨_, _, _, rfl⟩, rfl⟩ := hagenda
      rfl
    | claimTrigger owner now leaseUntil =>
      simp only [AgendaSide.exec] at hagenda
      split at hagenda
      · obtain rfl := Except.ok.inj hagenda
        rfl
      · rename_i hclaim
        obtain ⟨_, _, _, _, _, rfl⟩ := claimTrigger_eq_some hclaim
        obtain rfl := Except.ok.inj hagenda
        simp
    | materializeAgenda claim wakeCycleId agendaItemId actor occurredAt =>
      simp only [AgendaSide.exec, bind_eq_ok, pure_eq_ok, Prod.exists] at hagenda
      obtain ⟨_, _, _, _, _, hmaterialize, rfl⟩ := hagenda
      obtain ⟨_, _, _, _, _, _, _, _, _, rfl, _⟩ := materializeAgenda_eq_ok hmaterialize
      simp [completeTrigger]
    | claimAgenda owner now leaseUntil =>
      simp only [AgendaSide.exec, bind_eq_ok, pure_eq_ok, Prod.exists] at hagenda
      obtain ⟨_, _, hclaim, rfl⟩ := hagenda
      rcases claimAgenda_eq_ok hclaim with ⟨_, _, rfl⟩ | ⟨_, _, _, _, _, _, _, _, _, rfl⟩ <;> rfl
    | releaseAgenda claim =>
      simp only [AgendaSide.exec, bind_eq_ok, pure_eq_ok] at hagenda
      obtain ⟨_, _, _, hrelease, rfl⟩ := hagenda
      obtain ⟨_, _, _, _, _, _, _, _, rfl⟩ := releaseAgenda_eq_ok hrelease
      rfl
  | effect action =>
    simp only [exec, bind_eq_ok, pure_eq_ok] at h
    obtain ⟨_, _, rfl⟩ := h
    exact .inl rfl
  | commitSemanticDecision claim semantic =>
    simp only [exec, bind_eq_ok, pure_eq_ok] at h
    obtain ⟨_, _, store, hstore, rfl⟩ := h
    obtain ⟨_, prepared, rest, decisions, _, _, _, hprepared, _, hdecisions, _, hagenda, rfl⟩ :=
      RuntimeStore.commitSemanticDecision_eq_ok hooks hstore
    obtain ⟨_, _, _, _, _, _, _, _, _, _, rfl⟩ := checkpointDecision_eq_ok hagenda
    exact .inr ⟨claim, prepared.decision, ⟨semantic, prepared, rest, rfl, hprepared, rfl⟩,
      hdecisions⟩
  | commitApprovalAndAttempt cmd =>
    simp only [exec, RuntimeStore.commitApprovalAndAttempt, bind_eq_ok, pure_eq_ok, Prod.exists,
      Prod.mk.injEq] at h
    obtain ⟨_, _, ⟨_, _, _, _, _, rfl⟩, rfl⟩ := h
    exact .inl rfl
  | loadDispatchBundle claim mandateId =>
    simp only [exec, bind_eq_ok, pure_eq_ok] at h
    obtain ⟨_, _, _, _, rfl⟩ := h
    exact .inl rfl
  | environment rest =>
    obtain rfl := Except.ok.inj h
    exact .inl rfl

/-- A decision is committed for the item and the wake of the claim. -/
theorem CommittedBy.names {e : Transition (RuntimeState ε) (RuntimeAction ε)}
    {claim : AgendaClaim} {d : Decision} (h : CommittedBy hooks e claim d)
    (hstep : e.source.exec hooks e.action = .ok e.target) :
    claim ∈ e.source.agenda.agendaClaims ∧ d.agendaItemId = claim.resource ∧
      d.wakeCycleId = claim.agendaItem.wakeCycleId := by
  obtain ⟨semantic, prepared, rest, haction, hprepared, rfl⟩ := h
  simp only [haction, RuntimeState.exec, RuntimeStore.commitSemanticDecision, requireIssued,
    bind_eq_ok, require_eq_ok, pure_eq_ok, exists_const, Prod.exists] at hstep
  obtain ⟨hissued, _, ⟨_, _, prepared', rest', hprepared', hitem, hwake, _⟩, _⟩ := hstep
  obtain ⟨rfl, rfl⟩ := Prod.mk.inj (Except.ok.inj (hprepared.symm.trans hprepared'))
  exact ⟨hissued, hitem, hwake⟩

variable {rest : ε} {tr : List (Transition (RuntimeState ε) (RuntimeAction ε))}

theorem reachable_source (h : (runtime hooks).Path (.initial rest) tr s) :
    ∀ e ∈ tr, (runtime hooks).Reachable e.source := by
  have hpreserved : (runtime hooks).Preserved fun s => (runtime hooks).Reachable s :=
    fun _ _ _ hs hstep => hs.step hstep
  exact h.invariant_source (I := fun s => (runtime hooks).Reachable s) hpreserved
    (.init ⟨rest, rfl⟩)

/-- Of two commits on one item the later one is for a higher generation. -/
theorem commits_increase (h : (runtime hooks).Path (.initial rest) tr s) :
    tr.Pairwise fun e e' => ∀ claim d claim' d', CommittedBy hooks e claim d →
      CommittedBy hooks e' claim' d' → claim.resource = claim'.resource →
      claim.claimedGeneration < claim'.claimedGeneration := by
  refine List.pairwise_iff_forall_sublist.mpr fun {e e'} hsub claim d claim' d' hc hc' hsame => ?_
  have he : e ∈ tr := hsub.subset (by simp)
  have he' : e' ∈ tr := hsub.subset (by simp)
  obtain ⟨semantic, _, _, haction, _⟩ := hc
  obtain ⟨semantic', _, _, haction', _⟩ := hc'
  have hstep := h.step_of_mem e he
  have hstep' := h.step_of_mem e' he'
  rw [haction] at hstep
  rw [haction'] at hstep'
  have hhandled := (RuntimeState.handles_of_commit
    (generations_of_reachable (reachable_source h e he)).2.2 hstep).2
  have hfresh := (RuntimeState.handles_of_commit
    (generations_of_reachable (reachable_source h e' he')).2.2 hstep').1
  have hkept := (h.pairwise (I := fun _ => True)
    (Q := fun s => s.agenda.tables.Handled claim.resource claim.claimedGeneration)
    (fun _ _ _ _ _ => trivial) (fun _ _ _ _ hs hst => RuntimeState.handled_of_exec hst hs)
    trivial).1
  obtain ⟨row, hrow, hle⟩ := List.pairwise_iff_forall_sublist.mp hkept hsub hhandled
  by_contra hnot
  exact hfresh ⟨row, hsame ▸ hrow, (Nat.not_lt.mp hnot).trans hle⟩

/-- Every stored decision was committed in the run. -/
theorem exists_committedBy (h : (runtime hooks).Path (.initial rest) tr s) {id : StableId}
    {d : Decision} (hd : s.agenda.tables.decisions.find? id = some d) :
    ∃ e ∈ tr, ∃ claim, CommittedBy hooks e claim d := by
  obtain ⟨before, e, after, rfl, hsource, htarget, _⟩ := h.exists_last_rise
    (P := fun s => s.agenda.tables.decisions.find? id = some d)
    (by simp [RuntimeState.initial, AgendaTables.empty]) hd
  have hstep : e.source.exec hooks e.action = .ok e.target := h.step_of_mem e (by simp)
  refine ⟨e, by simp, ?_⟩
  rcases RuntimeState.decisions_of_exec hstep with hsame | ⟨claim, d', hcommit, hinsert⟩
  · rw [hsame] at htarget
    exact absurd htarget hsource
  · rw [Records.find?_insertRecord hinsert] at htarget
    split at htarget
    · obtain rfl := Option.some.inj htarget
      exact ⟨claim, hcommit⟩
    · exact absurd htarget hsource

/-- The wake of a committed decision is one of the claimed generation. -/
theorem wakeOf_committed (h : (runtime hooks).Path (.initial rest) tr s)
    {e : Transition (RuntimeState ε) (RuntimeAction ε)} (he : e ∈ tr) {claim : AgendaClaim}
    {d : Decision} (hcommit : CommittedBy hooks e claim d) :
    s.agenda.tables.WakeOf d.wakeCycleId d.agendaItemId claim.claimedGeneration := by
  have hkept : ∀ s a t, (runtime hooks).Reachable s →
      s.agenda.tables.WakeOf d.wakeCycleId d.agendaItemId claim.claimedGeneration →
      s.exec hooks a = .ok t →
      t.agenda.tables.WakeOf d.wakeCycleId d.agendaItemId claim.claimedGeneration :=
    fun s a t hs hw hst => AgendaSide.wakeOf_move (generations_of_reachable hs).2.2
      (RuntimeState.agenda_step hst (commitsWhen_true s a)).move hw
  have hreachable := reachable_source h e he
  have hstep : e.source.exec hooks e.action = .ok e.target := h.step_of_mem e he
  obtain ⟨hissued, hitem, hwake⟩ := hcommit.names hstep
  have hsource : e.source.agenda.tables.WakeOf d.wakeCycleId d.agendaItemId
      claim.claimedGeneration := by
    rw [hitem, hwake]
    exact (generations_of_reachable hreachable).2.2.claimed claim hissued
  exact (h.pairwise (I := fun s => (runtime hooks).Reachable s)
    (Q := fun s => s.agenda.tables.WakeOf d.wakeCycleId d.agendaItemId claim.claimedGeneration)
    (fun _ _ _ hs hst => hs.step hst) hkept (.init ⟨rest, rfl⟩)).2 e he
    (hkept _ _ _ hreachable hsource hstep)

/-- Commits on one item are for different generations. -/
def CommitsApart (hooks : StoreHooks ε) (e e' : Transition (RuntimeState ε) (RuntimeAction ε)) :
    Prop :=
  ∀ claim d claim' d', CommittedBy hooks e claim d → CommittedBy hooks e' claim' d' →
    claim.resource = claim'.resource → claim.claimedGeneration ≠ claim'.claimedGeneration

instance : Std.Symm (CommitsApart hooks) where
  symm _ _ h claim d claim' d' hc hc' hr := (h claim' d' claim d hc' hc hr.symm).symm

/-- At most one decision is committed for a generation of an item. -/
theorem decision_unique (h : (runtime hooks).Path (.initial rest) tr s) {id id' : StableId}
    {d d' : Decision} (hd : s.agenda.tables.decisions.find? id = some d)
    (hd' : s.agenda.tables.decisions.find? id' = some d') {g : ℕ}
    (hitem : d'.agendaItemId = d.agendaItemId)
    (hw : s.agenda.tables.WakeOf d.wakeCycleId d.agendaItemId g)
    (hw' : s.agenda.tables.WakeOf d'.wakeCycleId d'.agendaItemId g) : d' = d := by
  obtain ⟨e, he, claim, hcommit⟩ := exists_committedBy h hd
  obtain ⟨e', he', claim', hcommit'⟩ := exists_committedBy h hd'
  have hgeneration := (wakeOf_committed h he hcommit).generation_unique hw
  have hgeneration' := (wakeOf_committed h he' hcommit').generation_unique hw'
  have hresource : claim.resource = claim'.resource := by
    rw [← (hcommit.names (h.step_of_mem e he)).2.1, ← hitem]
    exact (hcommit'.names (h.step_of_mem e' he')).2.1
  have hsame : e = e' := by
    by_contra hne
    have hapart : tr.Pairwise (CommitsApart hooks) := (commits_increase h).imp
      fun hlt claim d claim' d' hc hc' hr => (hlt claim d claim' d' hc hc' hr).ne
    exact hapart.forall he he' hne claim d claim' d' hcommit hcommit' hresource
      (hgeneration.trans hgeneration'.symm)
  subst hsame
  obtain ⟨semantic, prepared, _, haction, hprepared, rfl⟩ := hcommit
  obtain ⟨semantic', prepared', _, haction', hprepared', rfl⟩ := hcommit'
  obtain ⟨rfl, rfl⟩ := RuntimeAction.commitSemanticDecision.inj (haction.symm.trans haction')
  obtain ⟨rfl, _⟩ := Prod.mk.inj (Except.ok.inj (hprepared.symm.trans hprepared'))
  rfl

/-- After any run of any number of workers on one colleague: a claim that was
    followed by another on its row has a lower token and is refused by every
    transaction made with it; handled generations never fall; and a generation of
    an agenda item gets at most one decision, committed by a claim of just that
    generation. -/
theorem superseded_claims_refused (h : (runtime hooks).Path (.initial rest) tr s) :
    (∀ c c', [c, c'].Sublist s.agenda.triggerClaims → c.resource = c'.resource →
      c.fencingToken < c'.fencingToken ∧ ∀ a : RuntimeAction ε, a.claim? = some (.trigger c) →
        ∃ failure, s.exec hooks a = .error failure) ∧
    (∀ c c', [c, c'].Sublist s.agenda.agendaClaims → c.resource = c'.resource →
      c.fencingToken < c'.fencingToken ∧ ∀ a : RuntimeAction ε, a.claim? = some (.agenda c) →
        ∃ failure, s.exec hooks a = .error failure) ∧
    (∀ c c', [c, c'].Sublist s.effects.outboxClaims → c.outboxId = c'.outboxId →
      c.fencingToken < c'.fencingToken ∧ ∀ a : RuntimeAction ε, a.claim? = some (.outbox c) →
        ∃ failure, s.exec hooks a = .error failure) ∧
    (∀ a t, s.exec hooks a = .ok t →
      ∀ id row, s.agenda.tables.agendaRuntime.find? id = some row → ∃ row',
        t.agenda.tables.agendaRuntime.find? id = some row' ∧
          row.handledGeneration ≤ row'.handledGeneration) ∧
    (tr.Pairwise fun e e' => ∀ claim d claim' d', CommittedBy hooks e claim d →
      CommittedBy hooks e' claim' d' → claim.resource = claim'.resource →
      claim.claimedGeneration < claim'.claimedGeneration) ∧
    ∀ id d, s.agenda.tables.decisions.find? id = some d → ∃ g,
      s.agenda.tables.WakeOf d.wakeCycleId d.agendaItemId g ∧
      (∃ e ∈ tr, ∃ claim, CommittedBy hooks e claim d) ∧
      (∀ e ∈ tr, ∀ claim, CommittedBy hooks e claim d →
        claim.resource = d.agendaItemId ∧ claim.claimedGeneration = g) ∧
      ∀ id' d', s.agenda.tables.decisions.find? id' = some d' →
        d'.agendaItemId = d.agendaItemId →
        s.agenda.tables.WakeOf d'.wakeCycleId d'.agendaItemId g → d' = d := by
  have hfenced := claimsFenced_of_reachable (h.reachable (.init ⟨rest, rfl⟩))
  refine ⟨fun c c' hsub hsame => ?_, fun c c' hsub hsame => ?_, fun c c' hsub hsame => ?_,
    fun a t hexec id row hrow => ?_, commits_increase h, fun id d hd => ?_⟩
  · exact ⟨hfenced.agenda.triggers.lt_of_sublist hsub hsame, fun a ha =>
      RuntimeState.exec_of_not_holds (.trigger c) (hfenced.agenda.triggers.stale hsub hsame) ha⟩
  · exact ⟨hfenced.agenda.agenda.lt_of_sublist hsub hsame, fun a ha =>
      RuntimeState.exec_of_not_holds (.agenda c) (hfenced.agenda.agenda.stale hsub hsame) ha⟩
  · exact ⟨hfenced.effects.outbox.lt_of_sublist hsub hsame, fun a ha =>
      RuntimeState.exec_of_not_holds (.outbox c) (hfenced.effects.outbox.stale hsub hsame) ha⟩
  · obtain ⟨row', hrow', hcontinues⟩ := RuntimeState.agenda_continues hexec hrow
    exact ⟨row', hrow', hcontinues.handledGeneration⟩
  · obtain ⟨e, he, claim, hcommit⟩ := exists_committedBy h hd
    have hwake := wakeOf_committed h he hcommit
    refine ⟨claim.claimedGeneration, hwake, ⟨e, he, claim, hcommit⟩, ?_, ?_⟩
    · intro e' he' claim' hcommit'
      exact ⟨(hcommit'.names (h.step_of_mem e' he')).2.1.symm,
        (wakeOf_committed h he' hcommit').generation_unique hwake⟩
    · intro id' d' hd' hitem hwake'
      exact decision_unique h hd hd' hitem hwake hwake'

/-- A trigger whose first claim expires is claimed again under the same name. -/
def triggerClaimedTwice : List (RuntimeState AuthorityRecords → RuntimeAction AuthorityRecords) :=
  [fun _ => .agenda (.ingestEvent
      (sampleEvent (stableId "event-1") (stableId "message") 5) "event-1" (stableId "trigger-1")),
    fun _ => .agenda (.claimTrigger sampleWorker.principalId 10 100),
    fun _ => .agenda (.claimTrigger sampleWorker.principalId 200 300)]

set_option maxRecDepth 8000 in
theorem superseded_claims_refused_trigger :
    ∃ (s : RuntimeState AuthorityRecords) (c c' : TriggerClaim),
      s.agenda.triggerClaims = [c, c'] ∧ c.leaseOwner = c'.leaseOwner ∧
        ∃ failure, s.exec sqliteRuntimeStore (.agenda (.materializeAgenda c (stableId "wake-1")
          (stableId "agenda-1") sampleWorker 210)) = .error failure := by
  let first : TriggerClaim := sampleTriggerClaim .inputEvent (stableId "trigger-1")
    (stableId "event-1")
  let second : TriggerClaim := { first with leaseUntil := 300, fencingToken := 2 }
  obtain ⟨tr, s, hpath, hp⟩ := RuntimeState.exists_path_of_runsTo sqliteRuntimeStore
    (.initial .empty) triggerClaimedTwice
    (fun _ s => decide (s.agenda.triggerClaims = [first, second])) (by decide +kernel)
  have hclaims := of_decide_eq_true hp
  obtain ⟨htriggers, _⟩ := superseded_claims_refused hpath
  exact ⟨s, first, second, hclaims, rfl,
    (htriggers first second (hclaims ▸ List.Sublist.refl _) rfl).2 _ rfl⟩

end Runs

end DigitalColleagues
