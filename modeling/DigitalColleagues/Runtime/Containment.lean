import DigitalColleagues.Runtime.BoundedDispatch
import DigitalColleagues.Runtime.Generations
import DigitalColleagues.Runtime.Materialization
import DigitalColleagues.Runtime.Worker

/-!
# What the transactions of a worker raise

In a reachable state the transactions that a worker makes with the claim it was
just handed raise conflicts and refusals only: every record they read is there,
and every record they write over is valid at its next revision. The two
exceptions are the projection of a new agenda item and the records of the rest
of the database.

## Main definitions

- `Outcome.Caught` — raises conflicts and refusals only
- `AgendaTables.LiveItem` — the row of a claim is still at its generation

## Main results

- `materializeAgenda_contained`, `commitSemanticDecision_contained` — the agenda
- `loadDispatchBundle_contained`, `finalizeDispatch_contained` — the effects
-/

namespace DigitalColleagues

open Keyed AgendaTables DurableRecord

-- ════════════════════════════════════════════════════════════════════════
-- Outcomes
-- ════════════════════════════════════════════════════════════════════════

/-- Everything the operation raises is contained by the worker loop. -/
def Outcome.Caught {α : Type} (x : Outcome α) : Prop :=
  ∀ failure, x = .error failure → failure.contained = true

namespace Outcome

variable {α β : Type}

theorem contained_ok (a : α) : Caught (.ok a) := fun _ h => absurd h (by simp)

theorem contained_of_exists {x : Outcome α} (h : ∃ a, x = .ok a) : Caught x := by
  obtain ⟨a, rfl⟩ := h
  exact contained_ok a

theorem contained_error {failure : Failure} (h : failure.contained = true) :
    Caught (.error failure : Outcome α) := fun _ he => Except.error.inj he ▸ h

theorem Caught.bind {x : Outcome α} {f : α → Outcome β} (hx : Caught x)
    (hf : ∀ a, x = .ok a → Caught (f a)) : Caught (x >>= f) := by
  cases x with
  | ok a => exact hf a rfl
  | error failure =>
    intro other h
    obtain rfl : failure = other := Except.error.inj h
    exact hx failure rfl

theorem contained_require {c : Prop} [Decidable c] {failure : Failure}
    (h : failure.contained = true) : Caught (require c failure) := by
  unfold require
  split
  · exact contained_ok _
  · exact contained_error h

theorem contained_orFail {o : Option α} {failure : Failure} (h : failure.contained = true) :
    Caught (orFail o failure) := by
  cases o with
  | none => exact contained_error h
  | some a => exact contained_ok a

end Outcome

open Outcome

section Records

variable {ρ : Type} [DurableRecord ρ] {rs : Records ρ}

theorem Records.contained_getRecord {id : StableId} {r : ρ} (h : rs.find? id = some r) :
    Caught (rs.getRecord id) :=
  contained_of_exists ⟨r, Records.getRecord_eq_ok.mpr h⟩

/-- A taken identity is a conflict. -/
theorem Records.contained_insertRecord (r : ρ) : Caught (rs.insertRecord r) := by
  intro failure h
  unfold insertRecord at h
  split at h
  · exact Except.error.inj h ▸ rfl
  · split at h
    · exact Except.error.inj h ▸ rfl
    · exact absurd h (by simp)

theorem Records.contained_updateRecord {r old : ρ} (hmutable : immutable ρ = false)
    (hold : rs.find? (key r) = some old) (hrevision : revision r = revision old + 1) :
    Caught (rs.updateRecord r (revision old)) :=
  contained_of_exists (Records.exists_updateRecord hmutable hold hrevision)

end Records

-- ════════════════════════════════════════════════════════════════════════
-- The agenda
-- ════════════════════════════════════════════════════════════════════════

/-- A stored item with a new state and generations in their bounds is valid. -/
theorem exists_make {item : AgendaItem} (htitle : strip item.title = item.title)
    (state : AgendaItemState) (revision : ℕ) {generation handledGeneration : ℕ}
    (hpositive : 1 ≤ generation) (hle : handledGeneration ≤ generation) :
    ∃ made, AgendaItem.make { item.toAgendaItemFields with
      state := state
      revision := revision
      generation := generation
      handledGeneration := handledGeneration } = .ok made := by
  obtain ⟨hone, hwork, htext, hpriority, hcausation, _, _, hnodup, hsource⟩ :=
    AgendaItemFields.validate_eq_ok.mp item.valid
  have hcauses := item.causeIds_ne_nil
  rw [AgendaItem.make_eq_ok_iff, AgendaItemFields.validate_eq_ok]
  refine ⟨hone, hwork, ?_, hpriority, hcausation, hpositive, hle, ?_, ?_⟩
  · show strip item.title ≠ "" ∧ (strip item.title).length ≤ 4096
    rw [htitle]
    exact htext
  · simpa [AgendaItemFields.normalize, hcauses] using hnodup
  · simpa [AgendaItemFields.normalize, hcauses, AgendaItemFields.sourceId] using hsource

theorem generation_pos (item : AgendaItem) : 1 ≤ item.generation := by
  obtain ⟨_, _, _, _, _, hpositive, _⟩ := AgendaItemFields.validate_eq_ok.mp item.valid
  exact hpositive

namespace AgendaTables

variable {s : AgendaTables}

/-- The row of a claim is still at the generation that was claimed. -/
def LiveItem (s : AgendaTables) (claim : AgendaClaim) : Prop :=
  ∃ row, s.agendaRuntime.find? claim.resource = some row ∧ row.generation = claim.claimedGeneration

theorem contained_requireAgendaClaim (claim : AgendaClaim) : Caught (s.requireAgendaClaim claim) :=
  (contained_orFail rfl).bind fun _ _ => (contained_require rfl).bind fun _ _ => contained_ok _

theorem claimAgenda_contained (hsync : s.Synced)
    (htitle : ∀ id item, s.agendaItems.find? id = some item → strip item.title = item.title)
    (owner : StableId) (now leaseUntil : Instant) :
    Caught (s.claimAgenda owner now leaseUntil) := by
  unfold claimAgenda
  split
  · exact contained_ok _
  · rename_i row hrow
    obtain ⟨existing, hexisting, _⟩ :=
      hsync.item_of_row (Table.find?_of_mem (Table.selectMin_mem hrow).1)
    refine (Records.contained_getRecord hexisting).bind fun item hitem => ?_
    obtain rfl := Option.some.inj (hexisting.symm.trans (Records.getRecord_eq_ok.mp hitem))
    have hmake := exists_make (htitle _ _ hexisting) .selected (existing.revision + 1)
      (generation_pos existing) existing.handledGeneration_le
    refine (contained_of_exists hmake).bind fun selected hselected => ?_
    have hfields := AgendaItem.make_eq_ok hselected
    refine (Records.contained_updateRecord rfl ?_ ?_).bind fun _ _ => contained_ok _
    · show s.agendaItems.find? selected.agendaItemId = some existing
      rw [hfields]
      exact agendaItemId_of_find? hexisting ▸ hexisting
    · show selected.revision = existing.revision + 1
      rw [hfields]
      rfl

/-- The record of a claimed row can follow the row. -/
theorem syncItem_contained {α : Type} {claim : AgendaClaim} {item : AgendaItem} (row : AgendaRow)
    (hitem : s.agendaItems.find? claim.resource = some item)
    (htitle : strip item.title = item.title) (hpositive : 1 ≤ row.generation)
    (hle : row.handledGeneration ≤ row.generation) {f : Records AgendaItem → Outcome α}
    (hf : ∀ agendaItems, Caught (f agendaItems)) :
    Caught (do
      let current ← s.agendaItems.getRecord claim.resource
      let synced ← AgendaItem.make (syncItem current row)
      let agendaItems ← s.agendaItems.updateRecord synced current.revision
      f agendaItems) := by
  refine (Records.contained_getRecord hitem).bind fun current hcurrent => ?_
  obtain rfl := Option.some.inj (hitem.symm.trans (Records.getRecord_eq_ok.mp hcurrent))
  refine (contained_of_exists (exists_make htitle _ _ hpositive hle)).bind fun synced hsynced => ?_
  have hfields := AgendaItem.make_eq_ok hsynced
  refine (Records.contained_updateRecord rfl ?_ ?_).bind fun agendaItems _ => hf agendaItems
  · show s.agendaItems.find? synced.agendaItemId = some item
    rw [hfields]
    exact agendaItemId_of_find? hitem ▸ hitem
  · show synced.revision = item.revision + 1
    rw [hfields]
    rfl

/-- What a claim needs of the tables for its release and its checkpoint. -/
structure Releasable (s : AgendaTables) (claim : AgendaClaim) : Prop where
  synced : s.Synced
  title : ∀ id item, s.agendaItems.find? id = some item → strip item.title = item.title
  live : s.LiveItem claim

theorem Releasable.row {claim : AgendaClaim} {row : AgendaRow} (h : s.Releasable claim)
    (hrow : s.requireAgendaClaim claim = .ok row) :
    ∃ item, s.agendaItems.find? claim.resource = some item ∧ strip item.title = item.title ∧
      1 ≤ row.generation ∧ row.handledGeneration ≤ row.generation ∧
      row.generation = claim.claimedGeneration := by
  have hfind : s.agendaRuntime.find? claim.resource = some row := (requireAgendaClaim_eq_ok hrow).1
  obtain ⟨item, hitem, hagrees⟩ := h.synced.item_of_row hfind
  obtain ⟨live, hlive, hgeneration⟩ := h.live
  obtain rfl := Option.some.inj (hfind.symm.trans hlive)
  exact ⟨item, hitem, h.title _ _ hitem, hagrees.generation ▸ generation_pos item,
    h.synced.handledGeneration_le (Table.mem_of_find? hfind), hgeneration⟩

theorem releaseAgenda_contained {claim : AgendaClaim} (h : s.Releasable claim) :
    Caught (s.releaseAgenda claim) := by
  refine (contained_requireAgendaClaim claim).bind fun row hrow => ?_
  obtain ⟨item, hitem, htitle, hpositive, hle, _⟩ := h.row hrow
  exact syncItem_contained row.release hitem htitle hpositive hle fun _ => contained_ok _

theorem checkpointDecision_contained {claim : AgendaClaim} {row : AgendaRow}
    {decisions : Records Decision} {wake : WakeCycle} (h : s.Releasable claim)
    (hrow : s.requireAgendaClaim claim = .ok row)
    (hwake : s.wakeCycles.find? claim.agendaItem.wakeCycleId = some wake) :
    Caught ({ s with decisions := decisions }.checkpointDecision claim row
      claim.agendaItem.wakeCycleId) := by
  obtain ⟨item, hitem, htitle, hpositive, hle, hgeneration⟩ := h.row hrow
  have hbound : (row.checkpoint claim.claimedGeneration).handledGeneration ≤ row.generation :=
    max_le hle hgeneration.ge
  refine syncItem_contained (s := { s with decisions := decisions })
    (row.checkpoint claim.claimedGeneration) hitem htitle hpositive hbound fun _ => ?_
  refine (Records.contained_getRecord hwake).bind fun current hcurrent => ?_
  obtain rfl := Option.some.inj (hwake.symm.trans (Records.getRecord_eq_ok.mp hcurrent))
  have hid : wake.wakeCycleId = claim.agendaItem.wakeCycleId := wakeCycleId_of_find? hwake
  refine (Records.contained_updateRecord rfl ?_ rfl).bind fun _ _ => contained_ok _
  show s.wakeCycles.find? wake.wakeCycleId = some wake
  rw [hid]
  exact hwake

/-- The source of a trigger coalesces into an existing item, or fits a new one. -/
def Materializable (s : AgendaTables) (source : TriggerSource) : Prop :=
  (s.rowOfSource source.sourceKey).isSome = true ∨ source.Fits

end AgendaTables

/-- A live claim on a materializable source raises at most a conflict, whatever
    identifiers it is materialized under. -/
theorem materializeAgenda_contained {ε : Type} {hooks : StoreHooks ε} {s : RuntimeState ε}
    (hreachable : (runtime hooks).Reachable s) {claim : TriggerClaim} {trigger : TriggerRow}
    (hissued : claim ∈ s.agenda.triggerClaims)
    (hlive : s.agenda.tables.requireTriggerClaim claim = .ok trigger)
    (hfits : ∀ source, s.agenda.tables.loadSource claim = .ok source →
      s.agenda.tables.Materializable source)
    (wakeCycleId agendaItemId : StableId) (actor : Principal) (occurredAt : Instant) :
    Caught (s.agenda.tables.materializeAgenda claim wakeCycleId agendaItemId actor
      occurredAt) := by
  have hc := conserved_of_reachable hreachable
  have hs := sourced_of_reachable hreachable
  have hsync := synced_of_reachable hreachable
  obtain ⟨hfind, hstate, _⟩ := requireTriggerClaim_eq_ok hlive
  have hsource : trigger.sourceId = claim.sourceId := by
    obtain ⟨r, hr, hrs⟩ := hc.claimed claim hissued
    obtain rfl := Option.some.inj (hfind.symm.trans hr)
    exact hrs
  have hload := exists_loadSource s.agenda.tables claim
    (hsource ▸ hs.source _ trigger (Table.mem_of_find? hfind))
  refine (contained_of_exists ⟨trigger, hlive⟩).bind fun found hfound => ?_
  obtain rfl := Except.ok.inj (hlive.symm.trans hfound)
  refine (contained_of_exists hload).bind fun source hloaded => ?_
  have hfor := loadedFor_of_loadSource hloaded
  split
  · -- A new item: the row is as fresh as the record that was inserted before it.
    rename_i hnone
    have hsourceFits : source.Fits := (hfits source hloaded).resolve_left (by simp [hnone])
    refine (Records.contained_insertRecord _).bind fun _ _ => ?_
    refine (contained_of_exists ((newItem_ok_iff hfor _ _ _ _).mpr hsourceFits)).bind
      fun item hmake => ?_
    refine (Records.contained_insertRecord _).bind fun agendaItems hitems => ?_
    have hid : item.agendaItemId = agendaItemId := by simp [AgendaItem.make_eq_ok hmake, newItem]
    have hfresh : s.agenda.tables.agendaRuntime.find? agendaItemId = none := by
      by_contra hne
      obtain ⟨row, hrow⟩ := Option.ne_none_iff_exists'.mp hne
      obtain ⟨stored, hstored, _⟩ := hsync.item_of_row hrow
      have habsent : s.agenda.tables.agendaItems.find? item.agendaItemId = none :=
        Records.find?_of_insertRecord hitems
      rw [hid, hstored] at habsent
      exact absurd habsent (by simp)
    have hinsert : s.agenda.tables.agendaRuntime.insert?
        (newRow claim source wakeCycleId agendaItemId) ≠ none := by
      rw [ne_eq, Table.insert?_eq_none, not_exists]
      intro x hx
      exact absurd (hfresh.symm.trans hx) (by simp)
    obtain ⟨agendaRuntime, hruntime⟩ := Option.ne_none_iff_exists'.mp hinsert
    refine (contained_of_exists ⟨agendaRuntime, ?_⟩).bind fun _ _ => contained_ok _
    rw [hruntime]
    rfl
  · rename_i row hrow
    have hmem := find?_of_rowOfSource hrow
    have hnodup := nodup_causeIds hc hs hsync hfind hstate hsource (Table.mem_of_find? hmem)
      (sourceKey_of_rowOfSource hrow ▸ hfor.key)
    obtain ⟨existing, hexisting, hagrees⟩ := hsync.item_of_row hmem
    refine (contained_require rfl).bind fun _ _ => ?_
    refine (Records.contained_insertRecord _).bind fun _ _ => ?_
    refine (Records.contained_getRecord hexisting).bind fun current hcurrent => ?_
    obtain rfl := Option.some.inj (hexisting.symm.trans (Records.getRecord_eq_ok.mp hcurrent))
    have hmake := coalescedItem_ok hfor hagrees (hs.title _ _ hexisting) hnodup wakeCycleId actor
      occurredAt
    refine (contained_of_exists hmake).bind fun item hitem => ?_
    have hfields := AgendaItem.make_eq_ok hitem
    refine (Records.contained_updateRecord rfl ?_ ?_).bind fun _ _ => contained_ok _
    · show s.agenda.tables.agendaItems.find? item.agendaItemId = some existing
      rw [hfields]
      exact agendaItemId_of_find? hexisting ▸ hexisting
    · show item.revision = existing.revision + 1
      rw [hfields]
      rfl

-- ════════════════════════════════════════════════════════════════════════
-- The decision
-- ════════════════════════════════════════════════════════════════════════

namespace RuntimeStore

variable {ε : Type} {hooks : StoreHooks ε} {s : RuntimeStore ε}

/-- A decision about a claim whose wake is stored raises what the store class raises
    when it prepares it, and conflicts. -/
theorem commitSemanticDecision_contained {claim : AgendaClaim} {semantic : SemanticDecision}
    {wake : WakeCycle} (h : s.agenda.Releasable claim)
    (hwake : s.agenda.wakeCycles.find? claim.agendaItem.wakeCycleId = some wake)
    (hprepare : Caught (hooks.prepareSemanticDecision s claim semantic)) :
    Caught (s.commitSemanticDecision hooks claim semantic) := by
  refine (contained_requireAgendaClaim claim).bind fun row hrow => ?_
  refine hprepare.bind fun prepared _ => ?_
  refine (contained_require rfl).bind fun _ _ => ?_
  by_cases hcites : prepared.1.decision.wakeCycleId = claim.agendaItem.wakeCycleId
  · refine (contained_require rfl).bind fun _ _ => ?_
    refine (Records.contained_insertRecord _).bind fun decisions _ => ?_
    refine Caught.bind ?_ fun proposals _ => ?_
    · unfold insertProposal
      split
      · exact contained_ok _
      · exact (contained_require rfl).bind fun _ _ => Records.contained_insertRecord _
    · rw [hcites]
      exact (checkpointDecision_contained h hrow hwake).bind fun _ _ => contained_ok _
  · intro failure hfailure
    simp only [require, if_neg hcites] at hfailure
    obtain rfl := Except.error.inj hfailure
    rfl

end RuntimeStore

-- ════════════════════════════════════════════════════════════════════════
-- The effects
-- ════════════════════════════════════════════════════════════════════════

namespace EffectTables

variable {s : EffectTables} {claim : OutboxClaim}

theorem contained_requireOutboxClaim (claim : OutboxClaim) (states : List OutboxState)
    (evaluatedAt : Option Instant) : Caught (s.requireOutboxClaim claim states evaluatedAt) :=
  (contained_orFail rfl).bind fun _ _ => (contained_require rfl).bind fun _ _ =>
    (contained_require rfl).bind fun _ _ => contained_ok _

/-- The records of a tracked row are stored. -/
theorem Tracked.records (h : s.Tracked) {states : List OutboxState} {evaluatedAt : Option Instant}
    {row : OutboxRow} (hrow : s.requireOutboxClaim claim states evaluatedAt = .ok row) :
    (∃ p, s.proposals.find? claim.proposalId = some p) ∧
      (∃ d, s.approvals.find? claim.approvalDecisionId = some d) ∧
      ∃ a, s.attempts.find? claim.effectAttemptId = some a := by
  obtain ⟨hfind, _, _, _, _, _, hproposal, happroval, hattempt, _⟩ := requireOutboxClaim_eq_ok hrow
  obtain ⟨⟨p, hp, _⟩, happroved, _, _, ⟨a, ha, _⟩, _⟩ := h.row row (Table.mem_of_find? hfind)
  refine ⟨⟨p, hproposal ▸ hp⟩, ?_, a, hattempt ▸ ha⟩
  rw [← happroval]
  exact Option.ne_none_iff_exists'.mp happroved

theorem updateAttempt_contained {a : EffectAttempt} (a' : EffectAttempt)
    (ha : s.attempts.find? claim.effectAttemptId = some a)
    (hid : a'.effectAttemptId = a.effectAttemptId) (hrevision : a'.revision = a.revision + 1) :
    Caught (s.attempts.updateRecord a' a.revision) := by
  refine Records.contained_updateRecord rfl ?_ hrevision
  show s.attempts.find? a'.effectAttemptId = some a
  rw [hid, effectAttemptId_of_find? ha]
  exact ha

theorem createRetry_contained {attempts : Records EffectAttempt} {row : OutboxRow}
    {attempt : EffectAttempt} {fin : Finalization} {retryable : Prop} [Decidable retryable]
    {limit : String} : Caught (createRetry attempts row attempt fin retryable limit) := by
  unfold createRetry
  split
  · exact contained_ok _
  · exact (contained_require rfl).bind fun _ _ => (contained_require rfl).bind fun _ _ =>
      (Records.contained_insertRecord _).bind fun _ _ => contained_ok _

theorem markDispatchStarted_contained (h : s.Tracked) (occurredAt : Instant) :
    Caught (s.markDispatchStarted claim occurredAt) := by
  refine (contained_requireOutboxClaim _ _ _).bind fun row hrow => ?_
  obtain ⟨_, _, a, ha⟩ := h.records hrow
  refine (Records.contained_getRecord ha).bind fun attempt hattempt => ?_
  obtain rfl := Option.some.inj (ha.symm.trans (Records.getRecord_eq_ok.mp hattempt))
  refine (contained_require rfl).bind fun _ _ => ?_
  exact (updateAttempt_contained (startAttempt a occurredAt) ha rfl rfl).bind
    fun _ _ => contained_ok _

theorem finalizeDispatch_contained (h : s.Tracked) (outcome : ChannelOutcome)
    (fin : Finalization) : Caught (s.finalizeDispatch claim outcome fin) := by
  refine (contained_requireOutboxClaim _ _ _).bind fun row hrow => ?_
  obtain ⟨_, _, a, ha⟩ := h.records hrow
  refine (Records.contained_getRecord ha).bind fun attempt hattempt => ?_
  obtain rfl := Option.some.inj (ha.symm.trans (Records.getRecord_eq_ok.mp hattempt))
  refine (contained_require rfl).bind fun _ _ => ?_
  refine (updateAttempt_contained (settleAttempt a _ _ _) ha rfl rfl).bind fun _ _ => ?_
  refine (Records.contained_insertRecord _).bind fun _ _ => ?_
  exact createRetry_contained.bind fun _ _ => contained_ok _

theorem reconcileAmbiguous_contained (h : s.Tracked) (outcome : ReconciliationOutcome)
    (fin : Finalization) (nextReconciliationAt : Option Instant) :
    Caught (s.reconcileAmbiguous claim outcome fin nextReconciliationAt) := by
  refine (contained_requireOutboxClaim _ _ _).bind fun row hrow => ?_
  obtain ⟨_, _, a, ha⟩ := h.records hrow
  refine (Records.contained_getRecord ha).bind fun attempt hattempt => ?_
  obtain rfl := Option.some.inj (ha.symm.trans (Records.getRecord_eq_ok.mp hattempt))
  refine (contained_require rfl).bind fun _ _ => ?_
  split
  · refine Caught.bind ?_ fun _ _ => contained_ok _
    exact (contained_require rfl).bind fun _ _ => contained_ok _
  · refine (updateAttempt_contained (settleAttempt a _ _ _) ha rfl rfl).bind fun _ _ => ?_
    exact (Records.contained_insertRecord _).bind fun _ _ => contained_ok _
  · refine (updateAttempt_contained (settleAttempt a _ _ _) ha rfl rfl).bind fun _ _ => ?_
    refine (Records.contained_insertRecord _).bind fun _ _ => ?_
    exact createRetry_contained.bind fun _ _ => contained_ok _

theorem loadDispatchBundle_contained (h : s.Tracked) {findMandate : StableId → Option Mandate}
    {findPrincipal : StableId → Option Principal} {mandateId : StableId}
    (hmandate : findMandate mandateId ≠ none)
    (happrover : ∀ approval, s.approvals.find? claim.approvalDecisionId = some approval →
      findPrincipal approval.author.principalId ≠ none) :
    Caught (s.loadDispatchBundle findMandate findPrincipal claim mandateId) := by
  refine (contained_requireOutboxClaim _ _ _).bind fun row hrow => ?_
  obtain ⟨⟨p, hp⟩, ⟨d, hd⟩, a, ha⟩ := h.records hrow
  refine (Records.contained_getRecord hp).bind fun _ _ => ?_
  refine (Records.contained_getRecord hd).bind fun approval hfound => ?_
  refine (Records.contained_getRecord ha).bind fun _ _ => ?_
  obtain ⟨approver, hprincipal⟩ :=
    Option.ne_none_iff_exists'.mp (happrover approval (Records.getRecord_eq_ok.mp hfound))
  obtain ⟨mandate, hmandate⟩ := Option.ne_none_iff_exists'.mp hmandate
  refine (contained_of_exists ⟨approver, orFail_eq_ok.mpr hprincipal⟩).bind fun _ _ => ?_
  refine (contained_of_exists ⟨mandate, orFail_eq_ok.mpr hmandate⟩).bind fun _ _ => ?_
  exact (contained_require rfl).bind fun _ _ => contained_ok _

end EffectTables

end DigitalColleagues
