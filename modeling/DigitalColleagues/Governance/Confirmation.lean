import Mathlib.Data.List.Dedup
import DigitalColleagues.Governance.Lineage

/-!
# Which confirmations two persons stand behind

The stored diff decides whether a confirmation needs an approved change; the
contents decide whether it writes a mandate or a policy. They part where a draft
only puts the records of a mandate, or the members of a policy's sets, in
another order.

## Main definitions

- `SameAuthority` — a draft whose diff shows no change of authority
- `ReordersAuthority` — a draft that changes the order of authority only
- `UsesApproval` — a step that consumes the approval of a draft
-/

namespace DigitalColleagues

open PublicContract

-- ════════════════════════════════════════════════════════════════════════
-- What the diff shows
-- ════════════════════════════════════════════════════════════════════════

/-- The same records under the same identifiers, in any order. -/
structure SameRecords {α : Type} [PublicContract α] (identifier : α → StableId)
    (before after : List α) : Prop where
  kept : ∀ r ∈ before, ∃ r' ∈ after, identifier r' = identifier r ∧ pyEq r r' = true
  known : ∀ r' ∈ after, ∃ r ∈ before, identifier r = identifier r'

/-- The same values of every policy field, the members of sets in any order. -/
structure SamePolicyValues (old new : ColleaguePolicy) : Prop where
  timezone : pyEq old.timezone new.timezone = true
  weeklyWindows : pyEq old.weeklyWindows new.weeklyWindows = true
  proactivity : old.proactivity = new.proactivity
  notification : old.notification = new.notification
  interruption : old.interruption = new.interruption
  outsideHours : old.outsideHours = new.outsideHours
  failureLimit : old.failureLimit = new.failureLimit
  runState : old.runState = new.runState
  allowedTriggers : ∀ v, v ∈ old.allowedTriggers ↔ v ∈ new.allowedTriggers
  stopConditions : ∀ v, v ∈ old.stopConditions ↔ v ∈ new.stopConditions
  escalationConditions : ∀ v, v ∈ old.escalationConditions ↔ v ∈ new.escalationConditions
  wakeBudget : pyEq old.wakeBudget new.wakeBudget = true

/-- The draft keeps mandate and policy, up to the order of identified records and
    of sets, and asks for no resume. -/
structure SameAuthority (base : BaseValues) (draft : ColleagueDraft) : Prop where
  mission : pyEq base.mandate.mission draft.proposedMandate.mission = true
  serviceRelationship : pyEq base.mandate.serviceRelationship
    draft.proposedMandate.serviceRelationship = true
  workingContext : pyEq base.mandate.workingContext draft.proposedMandate.workingContext = true
  responsibilities : SameRecords ResponsibilityDefinition.responsibilityId
    base.mandate.responsibilities draft.proposedMandate.responsibilities
  capabilities : SameRecords CapabilityGrant.capabilityId base.mandate.capabilities
    draft.proposedMandate.capabilities
  constraints : SameRecords Constraint.constraintId base.mandate.constraints
    draft.proposedMandate.constraints
  effectBoundaries : SameRecords EffectBoundary.boundaryId base.mandate.effectBoundaries
    draft.proposedMandate.effectBoundaries
  policy : ∃ old, base.policy = some old ∧ SamePolicyValues old draft.proposedPolicy
  resume : BuilderTables.draftRequestsExplicitResume draft = false

/-- The draft keeps all authority but its order, and changes that. -/
def ReordersAuthority (base : BaseValues) (draft : ColleagueDraft) : Prop :=
  SameAuthority base draft ∧ ¬(sameMandateContent base.mandate draft.proposedMandate = true ∧
    BuilderTables.policyChanges base.policy draft = false)

/-- No item of a diff shows a change of mandate or policy. -/
def KeepsAuthority (items : List DraftDiffItem) : Prop :=
  ∀ item ∈ items, item.diffSection = .mandate ∨ item.diffSection = .policy →
    item.classification = .unchanged

@[simp] theorem keepsAuthority_nil : KeepsAuthority [] := fun _ h => absurd h (by simp)

@[simp] theorem keepsAuthority_cons {item : DraftDiffItem} {items : List DraftDiffItem} :
    KeepsAuthority (item :: items) ↔
      (item.diffSection = .mandate ∨ item.diffSection = .policy → item.classification = .unchanged) ∧
        KeepsAuthority items :=
  List.forall_mem_cons

@[simp] theorem keepsAuthority_append {items items' : List DraftDiffItem} :
    KeepsAuthority (items ++ items') ↔ KeepsAuthority items ∧ KeepsAuthority items' :=
  List.forall_mem_append

theorem authorityChanged_eq_false {draft : ColleagueDraft} :
    TenantTables.authorityChanged draft = false ↔ KeepsAuthority draft.diff := by
  simp only [TenantTables.authorityChanged, List.any_eq_false, decide_eq_true_eq, not_and,
    not_not, KeepsAuthority]

@[simp] theorem diffItem_diffSection {diffSection : DiffSection} {path : String}
    {before after : Json} {authoritative : Bool} {c : Option DiffClassification} :
    (diffItem diffSection path before after authoritative c).diffSection = diffSection := rfl

@[simp] theorem diffItem_unchanged_none {diffSection : DiffSection} {path : String}
    {before after : Json} {authoritative : Bool} :
    (diffItem diffSection path before after authoritative none).classification = .unchanged ↔
      before.pyEq after = true := by
  simp only [diffItem, Option.getD_none]
  split
  · simp_all
  · simp_all

@[simp] theorem diffItem_unchanged_some {diffSection : DiffSection} {path : String}
    {before after : Json} {authoritative : Bool} {c : DiffClassification} :
    (diffItem diffSection path before after authoritative (some c)).classification = .unchanged ↔
      c = .unchanged := Iff.rfl

-- ════════════════════════════════════════════════════════════════════════
-- Identified collections
-- ════════════════════════════════════════════════════════════════════════

theorem lookup_recordMap_eq_none {α : Type} [PublicContract α] {identifier : α → StableId}
    {records : List α} {id : StableId} :
    (recordMap identifier records).lookup id = none ↔ ∀ r ∈ records, identifier r ≠ id := by
  rw [recordMap, List.lookup_eq_none_iff]
  simp only [List.forall_mem_map, bne_iff_ne, ne_comm]

theorem lookup_recordMap {α : Type} [PublicContract α] {identifier : α → StableId}
    {records : List α} (hunique : (records.map identifier).Nodup) {r : α} (hr : r ∈ records) :
    (recordMap identifier records).lookup (identifier r) = some (publicData r) := by
  induction records with
  | nil => exact absurd hr (by simp)
  | cons x xs ih =>
    simp only [List.map_cons, List.nodup_cons] at hunique
    rw [recordMap, List.map_cons, List.lookup_cons]
    rcases List.mem_cons.mp hr with rfl | hr
    · rw [beq_self_eq_true]
    · have hne : (identifier r == identifier x) = false :=
        beq_eq_false_iff_ne.mpr fun he => hunique.1 (he ▸ List.mem_map_of_mem hr)
      rw [hne]
      exact ih hunique.2 hr

/-- A record under an identifier is what the mapping has there. -/
theorem exists_of_lookup_recordMap {α : Type} [PublicContract α] {identifier : α → StableId}
    {records : List α} (hunique : (records.map identifier).Nodup) {id : StableId} {value : Json}
    (h : (recordMap identifier records).lookup id = some value) :
    ∃ r ∈ records, identifier r = id ∧ publicData r = value := by
  have hsome : ¬∀ r ∈ records, identifier r ≠ id := fun hnone => by
    rw [lookup_recordMap_eq_none.mpr hnone] at h
    exact absurd h (by simp)
  push Not at hsome
  obtain ⟨r, hr, rfl⟩ := hsome
  rw [lookup_recordMap hunique hr] at h
  exact ⟨r, hr, rfl, Option.some.inj h⟩

theorem classifyRecord_unchanged {old new : Option Json} :
    classifyRecord old new = .unchanged ↔
      ∃ a b, old = some a ∧ new = some b ∧ a.pyEq b = true := by
  cases old with
  | none => simp [classifyRecord]
  | some a =>
    cases new with
    | none => simp [classifyRecord]
    | some b =>
      by_cases h : a.pyEq b = true
      · simp [classifyRecord, h]
      · simp [classifyRecord, h]

/-- The items of a collection show no change when its records stay. -/
theorem keepsAuthority_collectionDiff {α : Type} [PublicContract α] {path : String}
    {identifier : α → StableId} {before after : List α}
    (hbefore : UniqueRecords identifier before) (hafter : UniqueRecords identifier after) :
    KeepsAuthority (collectionDiff path identifier before after) ↔
      SameRecords identifier before after := by
  have hitems : KeepsAuthority (collectionDiff path identifier before after) ↔
      ∀ r, r ∈ before ∨ r ∈ after →
        classifyRecord ((recordMap identifier before).lookup (identifier r))
          ((recordMap identifier after).lookup (identifier r)) = .unchanged := by
    simp only [KeepsAuthority, collectionDiff, List.forall_mem_map, List.mem_insertionSort,
      List.mem_dedup, List.mem_append, diffItem_diffSection, true_or, true_implies,
      diffItem_unchanged_some]
  rw [hitems]
  constructor
  · intro h
    refine ⟨fun r hr => ?_, fun r' hr' => ?_⟩
    · obtain ⟨a, b, ha, hb, heq⟩ := classifyRecord_unchanged.mp (h r (.inl hr))
      rw [lookup_recordMap hbefore.2 hr] at ha
      obtain ⟨r', hr', hid, rfl⟩ := exists_of_lookup_recordMap hafter.2 hb
      obtain rfl := Option.some.inj ha
      exact ⟨r', hr', hid, by rwa [← pyEq_publicData]⟩
    · obtain ⟨a, b, ha, _, _⟩ := classifyRecord_unchanged.mp (h r' (.inr hr'))
      obtain ⟨r, hr, hid, _⟩ := exists_of_lookup_recordMap hbefore.2 ha
      exact ⟨r, hr, hid⟩
  · intro h r hr
    have hold : ∃ x ∈ before, identifier x = identifier r := by
      rcases hr with hr | hr
      · exact ⟨r, hr, rfl⟩
      · exact h.known r hr
    obtain ⟨x, hx, hid⟩ := hold
    obtain ⟨y, hy, hid', heq⟩ := h.kept x hx
    refine classifyRecord_unchanged.mpr ⟨publicData x, publicData y, ?_, ?_, ?_⟩
    · rw [← hid]
      exact lookup_recordMap hbefore.2 hx
    · rw [← hid, ← hid']
      exact lookup_recordMap hafter.2 hy
    · rwa [pyEq_publicData]

-- ════════════════════════════════════════════════════════════════════════
-- The whole diff
-- ════════════════════════════════════════════════════════════════════════

theorem keepsAuthority_profileDiff (active proposed : Profile) :
    KeepsAuthority (profileDiff active proposed) := by
  simp [profileDiff]

theorem keepsAuthority_mandateDiff {active proposed : Mandate} :
    KeepsAuthority (mandateDiff active proposed) ↔
      pyEq active.mission proposed.mission = true ∧
      pyEq active.serviceRelationship proposed.serviceRelationship = true ∧
      pyEq active.workingContext proposed.workingContext = true ∧
      SameRecords ResponsibilityDefinition.responsibilityId active.responsibilities
        proposed.responsibilities ∧
      SameRecords CapabilityGrant.capabilityId active.capabilities proposed.capabilities ∧
      SameRecords Constraint.constraintId active.constraints proposed.constraints ∧
      SameRecords EffectBoundary.boundaryId active.effectBoundaries proposed.effectBoundaries := by
  simp [mandateDiff, pyEq_publicData,
    keepsAuthority_collectionDiff active.responsibilities_unique proposed.responsibilities_unique,
    keepsAuthority_collectionDiff active.capabilities_unique proposed.capabilities_unique,
    keepsAuthority_collectionDiff active.constraints_unique proposed.constraints_unique,
    keepsAuthority_collectionDiff active.effectBoundaries_unique proposed.effectBoundaries_unique]

theorem classifySet_unchanged {before after : List String} :
    classifySet before after = .unchanged ↔ before ⊆ after ∧ after ⊆ before := by
  unfold classifySet
  split
  · simp_all
  · split
    · simp_all
    · split <;> simp_all

theorem reversed_unchanged {c : DiffClassification} : reversed c = .unchanged ↔ c = .unchanged := by
  cases c <;> simp [reversed]

/-- A set-valued field shows no change when it has the same members. -/
theorem setValues_unchanged {β : Type} {value : β → String} (hvalue : Function.Injective value)
    {field : ColleaguePolicy → List β} {old new : ColleaguePolicy} :
    classifySet (setValues value field (some old)) (setValues value field (some new)) = .unchanged ↔
      ∀ v, v ∈ field old ↔ v ∈ field new := by
  rw [classifySet_unchanged]
  simp only [setValues, Option.elim_some, List.map_subset_iff _ hvalue]
  exact ⟨fun h v => ⟨fun hv => h.1 hv, fun hv => h.2 hv⟩,
    fun h => ⟨fun v hv => (h v).mp hv, fun v hv => (h v).mpr hv⟩⟩

/-- A two-valued field shows no change when it stays. -/
theorem directedChange_unchanged {β : Type} [DecidableEq β] [PublicContract β] {wide : β}
    {field : ColleaguePolicy → β} {path : String} {old new : ColleaguePolicy} :
    (policyItem path field (some old) new (directedChange wide field (some old) new)).classification
      = .unchanged ↔ field old = field new := by
  by_cases h : field old = field new
  · simp [policyItem, directedChange, h, pyEq_publicData]
  · have hchange : (if field new = wide then DiffClassification.expanded else .narrowed) ≠
        .unchanged := by
      split <;> simp
    simp [policyItem, directedChange, h, hchange]

/-- A wake budget shows no change when it stays. -/
theorem budgetChange_unchanged {path : String} {old new : ColleaguePolicy} :
    (policyItem path ColleaguePolicy.wakeBudget (some old) new
      (budgetChange (some old) new)).classification = .unchanged ↔
      pyEq old.wakeBudget new.wakeBudget = true := by
  by_cases h : old.wakeBudget.period = new.wakeBudget.period ∧
      old.wakeBudget.limit ≠ new.wakeBudget.limit
  · have hchange : (if old.wakeBudget.limit < new.wakeBudget.limit then
        DiffClassification.expanded else .narrowed) ≠ .unchanged := by
      split <;> simp
    have hne : pyEq old.wakeBudget new.wakeBudget ≠ true := fun he => by
      simp only [pyEq, Bool.and_eq_true, beq_iff_eq] at he
      exact h.2 he.1
    simp [policyItem, budgetChange, h, hchange, hne]
  · simp only [policyItem, budgetChange, if_neg h, diffItem_unchanged_none, Option.map_some,
      Option.getD_some, pyEq_publicData]

/-- A plain field shows no change when it stays. -/
theorem policyItem_unchanged {β : Type} [PublicContract β] {path : String}
    {field : ColleaguePolicy → β} {old new : ColleaguePolicy} :
    (policyItem path field (some old) new none).classification = .unchanged ↔
      pyEq (field old) (field new) = true := by
  simp [policyItem, pyEq_publicData]

theorem policySetItem_unchanged {β : Type} {path : String} {value : β → String}
    {field : ColleaguePolicy → List β} {active : Option ColleaguePolicy} {new : ColleaguePolicy}
    {orient : DiffClassification → DiffClassification} :
    (policySetItem path value field active new orient).classification = .unchanged ↔
      orient (classifySet (setValues value field active) (setValues value field (some new))) =
        .unchanged := Iff.rfl

theorem policyItem_diffSection {β : Type} [PublicContract β] {path : String}
    {field : ColleaguePolicy → β} {active : Option ColleaguePolicy} {new : ColleaguePolicy}
    {c : Option DiffClassification} : (policyItem path field active new c).diffSection = .policy :=
  rfl

theorem policySetItem_diffSection {β : Type} {path : String} {value : β → String}
    {field : ColleaguePolicy → List β} {active : Option ColleaguePolicy} {new : ColleaguePolicy}
    {orient : DiffClassification → DiffClassification} :
    (policySetItem path value field active new orient).diffSection = .policy := rfl

theorem keepsAuthority_policyDiff {old new : ColleaguePolicy} :
    KeepsAuthority (policyDiff (some old) new) ↔ SamePolicyValues old new := by
  have htriggers : Function.Injective DurableTriggerKind.value := fun a b => by
    cases a <;> cases b <;> decide
  have hconditions : Function.Injective EscalationCondition.value := fun a b => by
    cases a <;> cases b <;> decide
  simp only [policyDiff, keepsAuthority_cons, keepsAuthority_nil, policyItem_diffSection,
    policySetItem_diffSection, or_true, true_implies, policyItem_unchanged,
    directedChange_unchanged, budgetChange_unchanged, policySetItem_unchanged, id,
    reversed_unchanged, setValues_unchanged htriggers, setValues_unchanged hconditions,
    setValues_unchanged StopCondition.value_injective, and_true]
  simp only [pyEq]
  constructor
  · rintro ⟨h₁, h₂, h₃, h₄, h₅, h₆, h₇, h₈, h₉, h₁₀, h₁₁, h₁₂⟩
    exact ⟨h₁, h₂, h₃, by simpa using h₄, by simpa using h₅, by simpa using h₆, by simpa using h₇,
      h₈, h₉, h₁₀, h₁₁, h₁₂⟩
  · intro h
    exact ⟨h.timezone, h.weeklyWindows, h.proactivity, by simpa using h.notification,
      by simpa using h.interruption, by simpa using h.outsideHours, by simpa using h.failureLimit,
      h.runState, h.allowedTriggers, h.stopConditions, h.escalationConditions, h.wakeBudget⟩

/-- A first policy shows its triggers. -/
theorem not_keepsAuthority_policyDiff_none {new : ColleaguePolicy} :
    ¬KeepsAuthority (policyDiff none new) := by
  intro h
  have hitem := h (policySetItem "allowed_triggers" DurableTriggerKind.value
    ColleaguePolicy.allowedTriggers none new id) (by simp [policyDiff]) (.inr rfl)
  rw [policySetItem_unchanged, id, classifySet_unchanged] at hitem
  have hnil := List.subset_nil.mp hitem.2
  exact new.allowedTriggers_ne_nil (List.map_eq_nil_iff.mp hnil)

/-- Only a resume has the path of one. -/
theorem path_ne_of_mem_buildDraftDiff {activeProfile proposedProfile : Profile}
    {activeMandate proposedMandate : Mandate} {activePolicy : Option ColleaguePolicy}
    {proposedPolicy : ColleaguePolicy} {item : DraftDiffItem}
    (h : item ∈ buildDraftDiff activeProfile activeMandate activePolicy proposedProfile
      proposedMandate proposedPolicy) :
    ¬(item.diffSection = .policy ∧ item.path = "explicit_resume") := by
  rintro ⟨hsection, hpath⟩
  rw [buildDraftDiff, List.append_assoc, List.mem_append, List.mem_append] at h
  rcases h with h | h | h
  · simp only [profileDiff, List.mem_cons, List.not_mem_nil, or_false] at h
    rcases h with rfl | rfl | rfl <;> exact absurd hsection (by simp)
  · have hmandate : item.diffSection = .mandate := by
      simp only [mandateDiff, collectionDiff, List.mem_append, List.mem_cons, List.not_mem_nil,
        or_false, List.mem_map] at h
      rcases h with ((((rfl | rfl | rfl) | ⟨_, _, rfl⟩) | ⟨_, _, rfl⟩) | ⟨_, _, rfl⟩) | ⟨_, _, rfl⟩ <;>
        rfl
    exact absurd (hmandate.symm.trans hsection) (by simp)
  · have hpaths : item.path ∈ (policyDiff activePolicy proposedPolicy).map DraftDiffItem.path :=
      List.mem_map_of_mem h
    rw [hpath] at hpaths
    exact absurd hpaths (by simp [policyDiff, policyItem, policySetItem, diffItem])

/-- A draft asks for a resume when the item is in its diff. -/
theorem draftRequestsExplicitResume_of_diff {draft : ColleagueDraft}
    {activeProfile : Profile} {activeMandate : Mandate} {activePolicy : Option ColleaguePolicy}
    {resume : List DraftDiffItem} (hresume : resume = [] ∨ resume = [explicitResumeItem])
    (hdiff : draft.diff = buildDraftDiff activeProfile activeMandate activePolicy
      draft.proposedProfile draft.proposedMandate draft.proposedPolicy ++ resume) :
    BuilderTables.draftRequestsExplicitResume draft = true ↔ resume = [explicitResumeItem] := by
  rw [BuilderTables.draftRequestsExplicitResume, hdiff, List.any_append, Bool.or_eq_true]
  have hdraft : ((buildDraftDiff activeProfile activeMandate activePolicy draft.proposedProfile
      draft.proposedMandate draft.proposedPolicy).any fun item =>
        decide (item.diffSection = .policy ∧ item.path = "explicit_resume" ∧
          item.classification = .expanded) && item.after.pyEq (.bool true)) = false := by
    rw [List.any_eq_false]
    intro item hitem hresume
    rw [Bool.and_eq_true, decide_eq_true_eq] at hresume
    exact path_ne_of_mem_buildDraftDiff hitem ⟨hresume.1.1, hresume.1.2.1⟩
  rw [hdraft]
  rcases hresume with rfl | rfl
  · simp
  · simp [explicitResumeItem, diffItem, Json.pyEq, Json.number?]

/-- The stored diff shows no change of authority exactly when the draft keeps it
    up to order. -/
theorem authorityChanged_eq_false_iff {ports : GovernancePorts} {policyId : StableId}
    {draft : ColleagueDraft} {base : BaseValues} (h : BuiltFrom ports policyId draft base) :
    TenantTables.authorityChanged draft = false ↔ SameAuthority base draft := by
  obtain ⟨resume, hresume, hdiff⟩ := h.diff
  have hitems : KeepsAuthority resume ↔
      BuilderTables.draftRequestsExplicitResume draft = false := by
    rw [← Bool.not_eq_true, draftRequestsExplicitResume_of_diff hresume hdiff]
    rcases hresume with rfl | rfl
    · simp
    · simp [explicitResumeItem]
  rw [authorityChanged_eq_false, hdiff, keepsAuthority_append, buildDraftDiff,
    keepsAuthority_append, keepsAuthority_append, keepsAuthority_mandateDiff, hitems]
  constructor
  · rintro ⟨⟨⟨_, h₁, h₂, h₃, h₄, h₅, h₆, h₇⟩, hpolicy⟩, hnone⟩
    refine ⟨h₁, h₂, h₃, h₄, h₅, h₆, h₇, ?_, hnone⟩
    cases hbase : base.policy with
    | none =>
      rw [hbase] at hpolicy
      exact absurd hpolicy not_keepsAuthority_policyDiff_none
    | some old =>
      rw [hbase, keepsAuthority_policyDiff] at hpolicy
      exact ⟨old, rfl, hpolicy⟩
  · intro hsame
    obtain ⟨old, hbase, hpolicy⟩ := hsame.policy
    refine ⟨⟨⟨keepsAuthority_profileDiff _ _, hsame.mission, hsame.serviceRelationship,
      hsame.workingContext, hsame.responsibilities, hsame.capabilities, hsame.constraints,
      hsame.effectBoundaries⟩, ?_⟩, hsame.resume⟩
    rw [hbase, keepsAuthority_policyDiff]
    exact hpolicy

-- ════════════════════════════════════════════════════════════════════════
-- Confirmations of a run
-- ════════════════════════════════════════════════════════════════════════

/-- The revision of the mandate or of the policy rises. -/
def BaseRevisions.AuthorityRises (r r' : BaseRevisions) : Prop :=
  r.mandate < r'.mandate ∨ r.policy < r'.policy

/-- A step that consumes one approved change, the one that binds the draft. -/
structure UsesApproval (e : GovernanceStep) (colleagueId : StableId) (draft : ColleagueDraft)
    (p : ChangeProposal) (d : ChangeDecision) : Prop where
  applies : AppliesChange e p d
  only : ∀ p' d', AppliesChange e p' d' → p' = p ∧ d' = d
  ns : p.ns = .colleague colleagueId
  changeKind : p.changeKind = .draft
  targetId : p.targetId = draft.draftId
  targetRevision : p.targetRevision = draft.revision
  canonicalDigest : p.canonicalDigest = draft.canonicalDigest
  baseRevisions : p.baseRevisions = draft.baseRevisions

/-- A step that consumes one change consumes no other one. -/
theorem AppliesChange.eq_of_consume {e : GovernanceStep} {p p' : ChangeProposal}
    {d d' : ChangeDecision} {occurredAt : Instant} (h : AppliesChange e p d)
    (hconsume : e.target.authority = e.source.authority.consume p d occurredAt)
    (h' : AppliesChange e p' d') : p' = p ∧ d' = d := by
  have hkey : Keyed.key d = (p.ns, d.decisionId) := Table.key_of_find? h.approved.findDecision
  have hrises := h'.consumed
  simp only [Transition.rises, onAuthority, AuthorityTables.decisionConsumed, Bool.and_eq_true,
    Bool.not_eq_true', hconsume, AuthorityTables.consume] at hrises
  obtain ⟨hsource, htarget⟩ := hrises
  by_cases hid : (p'.ns, d'.decisionId) = (p.ns, d.decisionId)
  · have hd : d' = d := Option.some.inj
      (h'.approved.findDecision.symm.trans (hid ▸ h.approved.findDecision))
    have hproposal : (p'.ns, p'.proposalId) = (p.ns, p.proposalId) := by
      rw [← h'.approved.proposalId, ← h.approved.proposalId, hd, (Prod.mk.inj hid).1]
    exact ⟨Option.some.inj (h'.stored.symm.trans (hproposal ▸ h.stored)), hd⟩
  · rw [Table.holds, Table.find?_replace_of_ne] at htarget
    · exact absurd (htarget.symm.trans hsource) (by simp)
    · exact fun he => hid (he.trans hkey)

/-- A confirmation raises revisions of authority when it changes their contents. -/
theorem Replaces.authorityRises_iff {draft : ColleagueDraft} {base next : BaseValues}
    (h : Replaces draft base next) : base.revisions.AuthorityRises next.revisions ↔
      ¬(sameMandateContent base.mandate draft.proposedMandate = true ∧
        BuilderTables.policyChanges base.policy draft = false) := by
  obtain ⟨p, hp, hkept, hwritten⟩ := h.policy
  have hmandate : base.revisions.mandate < next.revisions.mandate ↔
      ¬sameMandateContent base.mandate draft.proposedMandate = true := by
    show base.mandate.revision < next.mandate.revision ↔ _
    rw [h.mandateRevision]
    split
    · simp_all
    · simp_all
  have hpolicy : base.revisions.policy < next.revisions.policy ↔
      ¬BuilderTables.policyChanges base.policy draft = false := by
    show base.policy.elim 0 ColleaguePolicy.revision < next.policy.elim 0 ColleaguePolicy.revision ↔ _
    rw [hp]
    cases hchanged : BuilderTables.policyChanges base.policy draft with
    | true =>
      have hrevision := (hwritten hchanged).2.1
      simp [hrevision]
    | false => simp [hkept hchanged]
  rw [BaseRevisions.AuthorityRises, hmandate, hpolicy, not_and_or]

section Runs

variable {ports : GovernancePorts}

/-- Where mandates are stored there is an active configuration. -/
theorem exists_active_of_path {t : GovernanceState} {tr : List GovernanceStep}
    (h : (governance ports).Path .initial tr t) {e : GovernanceStep} (he : e ∈ tr)
    (hmandates : e.source.configuration.mandates.domain.rows ≠ []) :
    Lineage ports e.source ∧ ∃ base, e.source.configuration.Active base := by
  obtain ⟨before, after, rfl⟩ := List.append_of_mem he
  have hlineage : Lineage ports e.source :=
    lineage_of_reachable (h.of_append_cons.1.reachable (.init rfl))
  refine ⟨hlineage, ?_⟩
  cases hc : e.source.store.colleague with
  | none =>
    rw [GovernanceState.configuration, hc] at hmandates
    exact absurd rfl hmandates
  | some c =>
    obtain ⟨base, hbase⟩ := hlineage.configured c hc
    exact ⟨base, by rw [GovernanceState.configuration, hc]; exact hbase.active⟩

/-- What a confirmation consumes when the draft's diff shows a change of authority. -/
theorem UsesApproval.of_authorize {e : GovernanceStep} {colleagueId : StableId}
    {draft : ColleagueDraft} {actor : Principal} {changeDecisionId : Option StableId}
    {occurredAt : Instant} (h : e.source.store.tenant.authorizeDraftConfirmation colleagueId draft
      actor changeDecisionId occurredAt = .ok e.target.store.tenant) :
    (∃ p d, UsesApproval e colleagueId draft p d) ↔
      TenantTables.authorityChanged draft = true := by
  rcases AuthorityTables.authorizeDraftConfirmation_eq_ok h with ⟨hkeeps, hsame⟩ |
    ⟨hchanged, p, d, hp, hns, hkind, htarget, hrevision, hdigest, hbase, happroved, hs'⟩
  · refine ⟨?_, fun hchanged => absurd (hchanged.symm.trans hkeeps) (by simp)⟩
    rintro ⟨p, d, huses⟩
    -- nothing is consumed where no approval is asked for
    have hrises := huses.applies.consumed
    have htables : e.target.authority = e.source.authority := by
      rw [GovernanceState.authority, hsame, GovernanceState.authority]
    simp [Transition.rises, onAuthority, htables] at hrises
  · refine ⟨fun _ => hchanged, fun _ => ⟨p, d, ?_⟩⟩
    have hconsume : e.target.authority = e.source.authority.consume p d occurredAt := by
      rw [GovernanceState.authority, hs']
      rfl
    have happlies : AppliesChange e p d :=
      .of_consume occurredAt hp happroved (by rw [hconsume]) (by rw [hconsume])
    exact ⟨happlies, fun p' d' h' => happlies.eq_of_consume hconsume h', hns, hkind, htarget,
      hrevision, hdigest, hbase⟩

/-- A step keeps the configuration, or it confirms a draft; then an approval stands
    behind what it changes of authority, if the draft does more than reorder it. -/
theorem confirmation_of_step {e : GovernanceStep} {base : BaseValues}
    (h : e.source.exec ports e.action = .ok e.target) (hs : Lineage ports e.source)
    (hbase : e.source.configuration.Active base) :
    ∃ next, e.target.configuration.Active next ∧
      (next = base ∨
        ∃ colleagueId cmd draft, e.action = .confirmDraft colleagueId cmd ∧
          draft ∈ e.source.configuration.drafts ∧ ConfirmedAs ports cmd draft base next ∧
          ((base.revisions.AuthorityRises next.revisions →
              ∃ p d, UsesApproval e colleagueId draft p d) ↔
            ¬ReordersAuthority base draft)) := by
  cases hc : e.source.store.colleague with
  | none =>
    have hrows := hbase.profiles
    rw [GovernanceState.configuration, hc] at hrows
    exact absurd hrows (by simp [BuilderTables.empty, Records.empty, Table.empty])
  | some c =>
    obtain ⟨u, hu, hcase⟩ := configurationStep_of_exec h hs hc
    have hsource : e.source.configuration = c.tables := by
      rw [GovernanceState.configuration, hc]
      rfl
    have htarget : e.target.configuration = u := by
      rw [GovernanceState.configuration, hu]
      rfl
    rw [hsource] at hbase ⊢
    rw [htarget]
    rcases hcase with hdrafts | ⟨cmd, draft, base', next, haction, hconfigured, hbuilt, hconfirm,
      htenant⟩
    · refine ⟨base, ?_, .inl rfl⟩
      rw [hdrafts.frame]
      exact ⟨hbase.profiles, hbase.mandates, hbase.policies⟩
    · obtain rfl := hbase.unique hconfigured.active
      refine ⟨next, hconfirm.target, .inr ⟨c.colleagueId, cmd, draft, haction,
        Table.mem_of_find? hconfirm.stored, Replaces.confirmedAs hconfirm hconfigured hbuilt, ?_⟩⟩
      rw [UsesApproval.of_authorize htenant, hconfirm.replaces.authorityRises_iff,
        ReordersAuthority, ← authorityChanged_eq_false_iff hbuilt,
        ← Bool.not_eq_false (TenantTables.authorityChanged draft)]
      tauto

/-- **Approved confirmations.** In every run a step keeps the configuration, or it
    confirms a draft. When it raises the revision of the mandate or the policy, it
    consumes exactly one approved change, made for this draft by two active
    Admins, unless all the draft changes of authority is its order; and no
    decision is consumed twice. -/
theorem confirmations_use_approvals {db₀ db : StableId → GovernanceState}
    {tr : List (Transition _ (StableId × GovernanceAction))} (hinit : (tenants ports).init db₀)
    (hpath : (tenants ports).Path db₀ tr db) (tenantId : StableId) :
    (∀ e ∈ TransitionSystem.componentTrace tenantId tr, ∀ base,
      e.source.configuration.Active base →
      ∃ next, e.target.configuration.Active next ∧
        (next = base ∨
          ∃ colleagueId cmd draft, e.action = .confirmDraft colleagueId cmd ∧
            draft ∈ e.source.configuration.drafts ∧ ConfirmedAs ports cmd draft base next ∧
            ((base.revisions.AuthorityRises next.revisions →
                ∃ p d, UsesApproval e colleagueId draft p d) ↔
              ¬ReordersAuthority base draft))) ∧
    ∀ id, (TransitionSystem.componentTrace tenantId tr).countP
      (Transition.rises (onAuthority (AuthorityTables.decisionConsumed id))) ≤ 1 := by
  have hrun := hpath.component tenantId
  rw [show db₀ tenantId = .initial from hinit tenantId] at hrun
  refine ⟨fun e he base hbase => ?_, fun id =>
    countP_rises_le_one (fun _ _ _ hmove => hmove.decisionConsumed) hrun⟩
  obtain ⟨before, after, hsplit⟩ := List.append_of_mem he
  rw [hsplit] at hrun
  obtain ⟨hbefore, hstep, _⟩ := hrun.of_append_cons
  exact confirmation_of_step hstep (lineage_of_reachable (hbefore.reachable (.init rfl))) hbase

end Runs

/-- The configuration gets its first policy. -/
def firstPolicyStep (e : GovernanceStep) : Bool :=
  decide (e.source.configuration.mandates.domain.rows.map Mandate.revision = [1] ∧
    e.source.configuration.policies.domain.rows.map ColleaguePolicy.revision = [] ∧
    e.target.configuration.policies.domain.rows.map ColleaguePolicy.revision = [1])

theorem confirmations_use_approvals_first_policy :
    ∃ (db₀ db : StableId → GovernanceState)
      (tr : List (Transition _ (StableId × GovernanceAction))),
      (tenants samplePorts).init db₀ ∧ (tenants samplePorts).Path db₀ tr db ∧
      (∃ e ∈ TransitionSystem.componentTrace sampleTenant tr, ∃ base next colleagueId draft p d,
        e.source.configuration.Active base ∧ e.target.configuration.Active next ∧
        base.revisions.AuthorityRises next.revisions ∧ UsesApproval e colleagueId draft p d) ∧
      ∀ id, (TransitionSystem.componentTrace sampleTenant tr).countP
        (Transition.rises (onAuthority (AuthorityTables.decisionConsumed id))) ≤ 1 := by
  obtain ⟨tr, t, hpath, hp⟩ := exists_governance_path samplePorts sampleFirstPolicy
    (fun tr _ => tr.any firstPolicyStep) (by decide +kernel)
  rw [List.any_eq_true] at hp
  obtain ⟨e, he, hfirst⟩ := hp
  obtain ⟨hmandates, hsource, htarget⟩ := of_decide_eq_true hfirst
  let db₀ : StableId → GovernanceState := fun _ => .initial
  have hrun : (tenants samplePorts).Path db₀ _ _ := hpath.lift (s := db₀) (i := sampleTenant)
  have hmem := (TransitionSystem.componentTrace_lift db₀ sampleTenant tr).symm ▸ he
  obtain ⟨_, base, hbase⟩ := exists_active_of_path hpath he fun hnil => by
    simp [hnil] at hmandates
  obtain ⟨hsteps, hcount⟩ := confirmations_use_approvals (fun _ => rfl) hrun sampleTenant
  obtain ⟨next, hnext, hcase⟩ := hsteps e hmem base hbase
  rw [hbase.policies] at hsource
  rw [hnext.policies] at htarget
  have hnone : base.policy = none := by
    cases hpolicy : base.policy <;> simp_all
  have hrise : base.revisions.AuthorityRises next.revisions := by
    right
    show base.policy.elim 0 ColleaguePolicy.revision < next.policy.elim 0 ColleaguePolicy.revision
    rw [hnone]
    cases hpolicy : next.policy with
    | none => simp [hpolicy] at htarget
    | some p => simp_all
  rcases hcase with rfl | ⟨colleagueId, cmd, draft, _, _, _, huses⟩
  · exact absurd hrise (by simp [BaseRevisions.AuthorityRises])
  · obtain ⟨p, d, hd⟩ := huses.mpr (fun hreorders => by
      obtain ⟨old, hold, _⟩ := hreorders.1.policy
      exact absurd (hnone.symm.trans hold) (by simp)) hrise
    exact ⟨_, _, _, fun _ => rfl, hrun, ⟨e, hmem, base, next, colleagueId, draft, p, d, hbase,
      hnext, hrise, hd⟩, hcount⟩

-- ════════════════════════════════════════════════════════════════════════
-- A reordering confirmation
-- ════════════════════════════════════════════════════════════════════════

/-- The edit that renames the sample colleague and puts its responsibilities in
    another order. -/
def sampleReorder : DraftUpdateRequest where
  profile := ⟨"helper", sampleProfile.description, sampleProfile.presentation⟩
  mandate := { sampleAssistantMandate.edit with
    responsibilities := sampleAssistantMandate.responsibilities.reverse }
  policy := .none
  expectedDraftRevision := 1

/-- A draft with that edit, reviewed and confirmed with no approval. -/
def sampleReordering : List (GovernanceState → GovernanceAction) :=
  sampleFirstPolicy ++
    [fun _ => .read sampleAssistant .policy, fun _ => .read sampleAssistant .runState,
      fun _ => .builder sampleAssistant (.createDraft ⟨0, 0, 1⟩ sampleAdmin (stableId "draft-2")
        (stableId "correlation-2") 200),
      fun _ => .read sampleAssistant (.draft (stableId "draft-2")),
      fun _ => .builder sampleAssistant (.updateDraft ⟨0, 0, 1⟩ 0 0 sampleAdmin sampleReorder 205),
      fun _ => .builder sampleAssistant (.reviewDraft (stableId "draft-2") 2 sampleAdmin 210),
      fun _ => .confirmDraft sampleAssistant
        (sampleConfirm (stableId "draft-2") 2 ⟨1, 1, 1⟩ none 220)]

/-- The mandate rises from its first revision, and no decision is there to use. -/
def risesUnapproved (e : GovernanceStep) : Bool :=
  decide (e.source.configuration.mandates.domain.rows.map Mandate.revision = [1] ∧
      e.target.configuration.mandates.domain.rows.map Mandate.revision = [2]) &&
    e.source.authority.changeDecisions.rows.all fun d => d.consumedAt.isSome

theorem not_usesApproval_of_risesUnapproved {e : GovernanceStep} {colleagueId : StableId}
    {draft : ColleagueDraft} {p : ChangeProposal} {d : ChangeDecision}
    (h : risesUnapproved e = true) : ¬UsesApproval e colleagueId draft p d := by
  intro huses
  simp only [risesUnapproved, Bool.and_eq_true, List.all_eq_true] at h
  have hused := h.2 d (Table.mem_of_find? huses.applies.approved.findDecision)
  rw [huses.applies.approved.fresh] at hused
  exact absurd hused (by simp)

set_option maxRecDepth 8000 in
/-- A confirmation raises the mandate with no approval behind it. -/
theorem confirmations_use_approvals_reordering :
    ¬∀ (db₀ db : StableId → GovernanceState)
      (tr : List (Transition _ (StableId × GovernanceAction))),
      (tenants samplePorts).init db₀ → (tenants samplePorts).Path db₀ tr db →
      ∀ e ∈ TransitionSystem.componentTrace sampleTenant tr, ∀ base next,
        e.source.configuration.Active base → e.target.configuration.Active next →
        base.revisions.AuthorityRises next.revisions →
        ∃ colleagueId cmd draft p d, e.action = .confirmDraft colleagueId cmd ∧
          UsesApproval e colleagueId draft p d := by
  intro hclaim
  obtain ⟨tr, t, hpath, hp⟩ := exists_governance_path samplePorts sampleReordering
    (fun tr _ => tr.any risesUnapproved) (by decide +kernel)
  rw [List.any_eq_true] at hp
  obtain ⟨e, he, hrises⟩ := hp
  let db₀ : StableId → GovernanceState := fun _ => .initial
  have hrun : (tenants samplePorts).Path db₀ _ _ := hpath.lift (s := db₀) (i := sampleTenant)
  have hmem := (TransitionSystem.componentTrace_lift db₀ sampleTenant tr).symm ▸ he
  have hbefore := hrises
  simp only [risesUnapproved, Bool.and_eq_true, decide_eq_true_eq] at hbefore
  obtain ⟨⟨hsource, htarget⟩, _⟩ := hbefore
  obtain ⟨hlineage, base, hbase⟩ := exists_active_of_path hpath he fun hnil => by
    simp [hnil] at hsource
  obtain ⟨next, hnext, _⟩ := confirmation_of_step (hpath.step_of_mem e he) hlineage hbase
  rw [hbase.mandates] at hsource
  rw [hnext.mandates] at htarget
  have hrise : base.revisions.AuthorityRises next.revisions := by
    left
    show base.mandate.revision < next.mandate.revision
    simp_all
  obtain ⟨_, _, _, p, d, _, huses⟩ := hclaim _ _ _ (fun _ => rfl) hrun e hmem base next hbase hnext
    hrise
  exact not_usesApproval_of_risesUnapproved hrises huses

end DigitalColleagues
