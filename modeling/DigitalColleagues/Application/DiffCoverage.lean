import DigitalColleagues.Governance.Confirmation

/-!
# What a reviewed diff covers

The diff compares identified collections by identifier and set-valued policy
fields as sets, and leaves out the mandate that a policy names. A confirmation
compares tuples. Each comparison has its own notion of sameness, and they agree
exactly where nothing was reordered and no mandate was rebound.

## Main definitions

- `Mandate.SameUpToOrder` — sameness of mandates in a diff
- `Mandate.SameOrder`, `ColleaguePolicy.SameUnshown` — what a diff does not show
- `DiffCovers` — the diff and the confirmation report the same changes

## Main results

- `diffCovers_iff` — exactly when they do
- `reordered_unseen` — a change that a diff does not show
-/

namespace DigitalColleagues

open PublicContract

-- ════════════════════════════════════════════════════════════════════════
-- Sameness in a diff
-- ════════════════════════════════════════════════════════════════════════

/-- Mandates that differ in nothing but the order of their collections. -/
structure Mandate.SameUpToOrder (left right : Mandate) : Prop where
  mission : pyEq left.mission right.mission = true
  serviceRelationship : pyEq left.serviceRelationship right.serviceRelationship = true
  workingContext : pyEq left.workingContext right.workingContext = true
  responsibilities : SameRecords ResponsibilityDefinition.responsibilityId left.responsibilities
    right.responsibilities
  capabilities : SameRecords CapabilityGrant.capabilityId left.capabilities right.capabilities
  constraints : SameRecords Constraint.constraintId left.constraints right.constraints
  effectBoundaries : SameRecords EffectBoundary.boundaryId left.effectBoundaries
    right.effectBoundaries

/-- The collections of two mandates agree in order too. -/
structure Mandate.SameOrder (left right : Mandate) : Prop where
  responsibilities : pyEq left.responsibilities right.responsibilities = true
  capabilities : pyEq left.capabilities right.capabilities = true
  constraints : pyEq left.constraints right.constraints = true
  effectBoundaries : pyEq left.effectBoundaries right.effectBoundaries = true

/-- Policies that agree in what a diff does not show: the mandate they name, and
    the order of the set-valued fields. -/
structure ColleaguePolicy.SameUnshown (left right : ColleaguePolicy) : Prop where
  mandateId : left.mandateId = right.mandateId
  mandateRevision : left.mandateRevision = right.mandateRevision
  allowedTriggers : left.allowedTriggers = right.allowedTriggers
  stopConditions : left.stopConditions = right.stopConditions
  escalationConditions : left.escalationConditions = right.escalationConditions

/-- Enumerations compare as they are. -/
theorem pyEqList_eq_true_iff {β : Type} [PublicContract β]
    (hβ : ∀ a b : β, pyEq a b = true ↔ a = b) {l l' : List β} :
    pyEq l l' = true ↔ l = l' := by
  show pyEqList l l' = true ↔ l = l'
  induction l generalizing l' with
  | nil => cases l' <;> simp [pyEqList]
  | cons a l ih =>
    cases l' with
    | nil => simp [pyEqList]
    | cons b l' => simp [pyEqList, hβ, ih]

-- ════════════════════════════════════════════════════════════════════════
-- What each section shows
-- ════════════════════════════════════════════════════════════════════════

theorem section_of_mem_profileDiff {active proposed : Profile} {item : DraftDiffItem}
    (h : item ∈ profileDiff active proposed) : item.diffSection = .profile := by
  simp only [profileDiff, List.mem_cons, List.not_mem_nil, or_false] at h
  rcases h with rfl | rfl | rfl <;> rfl

/-- Every item of a collection belongs to the mandate and has authority. -/
theorem section_of_mem_collectionDiff {α : Type} [PublicContract α] {path : String}
    {identifier : α → StableId} {before after : List α} {item : DraftDiffItem}
    (h : item ∈ collectionDiff path identifier before after) :
    item.diffSection = .mandate ∧ item.authoritative = true := by
  obtain ⟨_, _, rfl⟩ := List.mem_map.mp h
  exact ⟨rfl, rfl⟩

theorem section_of_mem_mandateDiff {active proposed : Mandate} {item : DraftDiffItem}
    (h : item ∈ mandateDiff active proposed) :
    item.diffSection = .mandate ∧ item.authoritative = true := by
  simp only [mandateDiff, List.mem_append] at h
  rcases h with (((h | h) | h) | h) | h
  · simp only [List.mem_cons, List.not_mem_nil, or_false] at h
    rcases h with rfl | rfl | rfl <;> exact ⟨rfl, rfl⟩
  all_goals exact section_of_mem_collectionDiff h

theorem section_of_mem_policyDiff {active : Option ColleaguePolicy} {proposed : ColleaguePolicy}
    {item : DraftDiffItem} (h : item ∈ policyDiff active proposed) :
    item.diffSection = .policy ∧ item.authoritative = true := by
  simp only [policyDiff, List.mem_cons, List.not_mem_nil, or_false] at h
  rcases h with rfl | rfl | rfl | rfl | rfl | rfl | rfl | rfl | rfl | rfl | rfl | rfl <;>
    exact ⟨rfl, rfl⟩

/-- Where every item is about authority, keeping it is showing nothing. -/
theorem unchanged_iff_keepsAuthority {items : List DraftDiffItem}
    (h : ∀ item ∈ items, item.diffSection = .mandate ∨ item.diffSection = .policy) :
    (∀ item ∈ items, item.classification = .unchanged) ↔ KeepsAuthority items :=
  forall₂_congr fun item hitem => (imp_iff_right (h item hitem)).symm

theorem profileDiff_unchanged_iff {active proposed : Profile} :
    (∀ item ∈ profileDiff active proposed, item.classification = .unchanged) ↔
      sameProfileContent active proposed = true := by
  simp [profileDiff, sameProfileContent, pyEq_publicData, and_assoc]

theorem mandateDiff_unchanged_iff {active proposed : Mandate} :
    (∀ item ∈ mandateDiff active proposed, item.classification = .unchanged) ↔
      active.SameUpToOrder proposed := by
  rw [unchanged_iff_keepsAuthority fun item h => .inl (section_of_mem_mandateDiff h).1,
    keepsAuthority_mandateDiff]
  constructor
  · rintro ⟨hm, hs, hw, hr, hc, hk, hb⟩
    exact ⟨hm, hs, hw, hr, hc, hk, hb⟩
  · rintro ⟨hm, hs, hw, hr, hc, hk, hb⟩
    exact ⟨hm, hs, hw, hr, hc, hk, hb⟩

theorem policyDiff_unchanged_iff {old proposed : ColleaguePolicy} :
    (∀ item ∈ policyDiff (some old) proposed, item.classification = .unchanged) ↔
      SamePolicyValues old proposed := by
  rw [unchanged_iff_keepsAuthority fun item h => .inr (section_of_mem_policyDiff h).1,
    keepsAuthority_policyDiff]

/-- A first policy shows as a change. -/
theorem policyDiff_none_changed (proposed : ColleaguePolicy) :
    ¬∀ item ∈ policyDiff none proposed, item.classification = .unchanged := by
  rw [unchanged_iff_keepsAuthority fun item h => .inr (section_of_mem_policyDiff h).1]
  exact not_keepsAuthority_policyDiff_none

/-- Records that compare equal one by one are the same records. -/
theorem SameRecords.of_pyEqList {α : Type} [PublicContract α] {identifier : α → StableId}
    (hid : ∀ a b : α, pyEq a b = true → identifier b = identifier a) {before after : List α}
    (h : pyEqList before after = true) : SameRecords identifier before after := by
  induction before generalizing after with
  | nil =>
    cases after with
    | nil => exact ⟨by simp, by simp⟩
    | cons b after => exact absurd h (by simp [pyEqList])
  | cons a before ih =>
    cases after with
    | nil => exact absurd h (by simp [pyEqList])
    | cons b after =>
      rw [pyEqList, Bool.and_eq_true] at h
      have hrest := ih h.2
      refine ⟨fun x hx => ?_, fun y hy => ?_⟩
      · rcases List.mem_cons.mp hx with rfl | hx
        · exact ⟨b, List.mem_cons_self, hid x b h.1, h.1⟩
        · obtain ⟨y, hy, hxy⟩ := hrest.kept x hx
          exact ⟨y, List.mem_cons_of_mem _ hy, hxy⟩
      · rcases List.mem_cons.mp hy with rfl | hy
        · exact ⟨a, List.mem_cons_self, (hid a y h.1).symm⟩
        · obtain ⟨x, hx, hxy⟩ := hrest.known y hy
          exact ⟨x, List.mem_cons_of_mem _ hx, hxy⟩

theorem sameMandateContent_iff {left right : Mandate} :
    sameMandateContent left right = true ↔
      left.SameUpToOrder right ∧ left.SameOrder right := by
  simp only [sameMandateContent, Bool.and_eq_true]
  constructor
  · rintro ⟨⟨⟨⟨⟨⟨hm, hs⟩, hr⟩, hc⟩, hk⟩, hw⟩, hb⟩
    refine ⟨⟨hm, hs, hw, .of_pyEqList ?_ hr, .of_pyEqList ?_ hc, .of_pyEqList ?_ hk,
      .of_pyEqList ?_ hb⟩, hr, hc, hk, hb⟩
    all_goals
      intro a b hab
      simp only [pyEq, Bool.and_eq_true, beq_iff_eq] at hab
      exact Subtype.ext hab.1.symm
  · rintro ⟨⟨hm, hs, hw, _, _, _, _⟩, hr, hc, hk, hb⟩
    exact ⟨⟨⟨⟨⟨⟨hm, hs⟩, hr⟩, hc⟩, hk⟩, hw⟩, hb⟩

theorem samePolicyContent_iff {old proposed : ColleaguePolicy} :
    samePolicyContent old proposed = true ↔
      SamePolicyValues old proposed ∧ old.SameUnshown proposed := by
  have htriggers : pyEq old.allowedTriggers proposed.allowedTriggers = true ↔
      old.allowedTriggers = proposed.allowedTriggers :=
    pyEqList_eq_true_iff fun a b => by cases a <;> cases b <;> decide
  have hstops : pyEq old.stopConditions proposed.stopConditions = true ↔
      old.stopConditions = proposed.stopConditions :=
    pyEqList_eq_true_iff fun a b => by cases a <;> cases b <;> decide
  have hescalations : pyEq old.escalationConditions proposed.escalationConditions = true ↔
      old.escalationConditions = proposed.escalationConditions :=
    pyEqList_eq_true_iff fun a b => by cases a <;> cases b <;> decide
  simp only [samePolicyContent, Bool.and_eq_true, htriggers, hstops, hescalations]
  constructor
  · rintro ⟨⟨⟨⟨⟨⟨⟨⟨⟨⟨⟨⟨⟨hid, hrev⟩, htz⟩, hww⟩, hat⟩, hpr⟩, hno⟩, hin⟩, hwb⟩, hou⟩, hst⟩, hes⟩, hfa⟩, hru⟩
    exact ⟨⟨htz, hww, of_decide_eq_true hpr, of_decide_eq_true hno,
      of_decide_eq_true hin, of_decide_eq_true hou, eq_of_beq hfa, of_decide_eq_true hru,
      fun _ => by rw [hat], fun _ => by rw [hst], fun _ => by rw [hes], hwb⟩,
      Subtype.ext (eq_of_beq hid), eq_of_beq hrev, hat, hst, hes⟩
  · rintro ⟨h, hid, hrev, hat, hst, hes⟩
    refine ⟨⟨⟨⟨⟨⟨⟨⟨⟨⟨⟨⟨⟨?_, beq_iff_eq.mpr hrev⟩, h.timezone⟩, h.weeklyWindows⟩,
      hat⟩, decide_eq_true h.proactivity⟩, decide_eq_true h.notification⟩,
      decide_eq_true h.interruption⟩, h.wakeBudget⟩, decide_eq_true h.outsideHours⟩, hst⟩, hes⟩,
      beq_iff_eq.mpr h.failureLimit⟩, decide_eq_true h.runState⟩
    rw [hid]
    exact pyEq_refl _

-- ════════════════════════════════════════════════════════════════════════
-- Sections of the whole diff
-- ════════════════════════════════════════════════════════════════════════

/-- A part of a diff shows a change. -/
def ShowsChange (diff : List DraftDiffItem) (part : DiffSection) : Prop :=
  ∃ item ∈ diff, item.diffSection = part ∧ item.classification ≠ .unchanged

section Whole

variable {active : BaseValues} {profile : Profile} {mandate : Mandate} {policy : ColleaguePolicy}

/-- The diff of the active configuration and a proposed one. -/
def BaseValues.diff (active : BaseValues) (profile : Profile) (mandate : Mandate)
    (policy : ColleaguePolicy) : List DraftDiffItem :=
  buildDraftDiff active.profile active.mandate active.policy profile mandate policy

theorem showsChange_iff {whole part : List DraftDiffItem} {s : DiffSection}
    (h : ∀ item, item ∈ whole ∧ item.diffSection = s ↔ item ∈ part) :
    ShowsChange whole s ↔ ¬∀ item ∈ part, item.classification = .unchanged := by
  simp only [ShowsChange, ← h, not_forall, exists_prop, and_assoc]

theorem mem_diff_profile (item : DraftDiffItem) :
    item ∈ active.diff profile mandate policy ∧ item.diffSection = .profile ↔
      item ∈ profileDiff active.profile profile := by
  simp only [BaseValues.diff, buildDraftDiff, List.mem_append]
  constructor
  · rintro ⟨(h | h) | h, hpart⟩
    · exact h
    · exact absurd ((section_of_mem_mandateDiff h).1.symm.trans hpart) (by simp)
    · exact absurd ((section_of_mem_policyDiff h).1.symm.trans hpart) (by simp)
  · exact fun h => ⟨.inl (.inl h), section_of_mem_profileDiff h⟩

theorem mem_diff_mandate (item : DraftDiffItem) :
    item ∈ active.diff profile mandate policy ∧ item.diffSection = .mandate ↔
      item ∈ mandateDiff active.mandate mandate := by
  simp only [BaseValues.diff, buildDraftDiff, List.mem_append]
  constructor
  · rintro ⟨(h | h) | h, hpart⟩
    · exact absurd ((section_of_mem_profileDiff h).symm.trans hpart) (by simp)
    · exact h
    · exact absurd ((section_of_mem_policyDiff h).1.symm.trans hpart) (by simp)
  · exact fun h => ⟨.inl (.inr h), (section_of_mem_mandateDiff h).1⟩

theorem mem_diff_policy (item : DraftDiffItem) :
    item ∈ active.diff profile mandate policy ∧ item.diffSection = .policy ↔
      item ∈ policyDiff active.policy policy := by
  simp only [BaseValues.diff, buildDraftDiff, List.mem_append]
  constructor
  · rintro ⟨(h | h) | h, hpart⟩
    · exact absurd ((section_of_mem_profileDiff h).symm.trans hpart) (by simp)
    · exact absurd ((section_of_mem_mandateDiff h).1.symm.trans hpart) (by simp)
    · exact h
  · exact fun h => ⟨.inr h, (section_of_mem_policyDiff h).1⟩

/-- `_mandate_content`, which the builder compares. -/
def mandateContent (mandate : Mandate) : Json :=
  .object [("mission", publicData mandate.mission),
    ("service_relationship", publicData mandate.serviceRelationship),
    ("responsibilities", publicData mandate.responsibilities),
    ("capabilities", publicData mandate.capabilities),
    ("constraints", publicData mandate.constraints),
    ("working_context", publicData mandate.workingContext),
    ("effect_boundaries", publicData mandate.effectBoundaries)]

theorem mandateContent_pyEq (left right : Mandate) :
    (mandateContent left).pyEq (mandateContent right) = sameMandateContent left right := by
  simp [mandateContent, Json.pyEq, Json.pyEqEntries, pyEq_publicData, sameMandateContent,
    Bool.and_assoc]

/-- The diff shows a change of a record exactly where a confirmation finds one, with
    authority outside the profile, and the builder finds the same. -/
structure DiffCovers (active : BaseValues) (profile : Profile) (mandate : Mandate)
    (policy : ColleaguePolicy) : Prop where
  profileCovered : ShowsChange (active.diff profile mandate policy) .profile ↔
    sameProfileContent active.profile profile = false
  mandateCovered : ShowsChange (active.diff profile mandate policy) .mandate ↔
    sameMandateContent active.mandate mandate = false
  policyCovered : ShowsChange (active.diff profile mandate policy) .policy ↔
    ∀ old ∈ active.policy, samePolicyContent old policy = false
  authoritative : ∀ item ∈ active.diff profile mandate policy, item.diffSection ≠ .profile →
    item.classification ≠ .unchanged → item.authoritative = true
  builder : (mandateContent active.mandate).pyEq (mandateContent mandate) =
    sameMandateContent active.mandate mandate

/-- A change that is shown or not, against a comparison that asks for more. -/
theorem shows_iff_differs {shows shown unshown : Prop} {same : Bool} (hshows : shows ↔ ¬shown)
    (hsame : same = true ↔ shown ∧ unshown) : (shows ↔ same = false) ↔ (shown → unshown) := by
  rw [← Bool.not_eq_true, hshows, hsame]
  tauto

theorem authoritative_of_mem {item : DraftDiffItem}
    (h : item ∈ active.diff profile mandate policy) (hpart : item.diffSection ≠ .profile) :
    item.authoritative = true := by
  simp only [BaseValues.diff, buildDraftDiff, List.mem_append] at h
  rcases h with (h | h) | h
  · exact absurd (section_of_mem_profileDiff h) hpart
  · exact (section_of_mem_mandateDiff h).2
  · exact (section_of_mem_policyDiff h).2

/-- **Coverage.** The diff and the confirmation report the same changes if and only
    if no collection of the mandate was merely reordered, and no policy differs in
    the order of its sets or in the mandate it names alone. -/
theorem diffCovers_iff (active : BaseValues) (profile : Profile) (mandate : Mandate)
    (policy : ColleaguePolicy) : DiffCovers active profile mandate policy ↔
      (active.mandate.SameUpToOrder mandate → active.mandate.SameOrder mandate) ∧
        ∀ old ∈ active.policy, SamePolicyValues old policy → old.SameUnshown policy := by
  have hmandate : (ShowsChange (active.diff profile mandate policy) .mandate ↔
      sameMandateContent active.mandate mandate = false) ↔
      (active.mandate.SameUpToOrder mandate → active.mandate.SameOrder mandate) :=
    shows_iff_differs ((showsChange_iff mem_diff_mandate).trans
      (not_congr mandateDiff_unchanged_iff)) sameMandateContent_iff
  have hpolicy : (ShowsChange (active.diff profile mandate policy) .policy ↔
      ∀ old ∈ active.policy, samePolicyContent old policy = false) ↔
      ∀ old ∈ active.policy, SamePolicyValues old policy → old.SameUnshown policy := by
    have hshows := showsChange_iff (@mem_diff_policy active profile mandate policy)
    cases hactive : active.policy with
    | none =>
      rw [hactive] at hshows
      simp [hshows.mpr (policyDiff_none_changed policy)]
    | some old =>
      rw [hactive] at hshows
      have hold := shows_iff_differs (hshows.trans (not_congr policyDiff_unchanged_iff))
        (@samePolicyContent_iff old policy)
      simpa using hold
  constructor
  · intro h
    exact ⟨hmandate.mp h.mandateCovered, hpolicy.mp h.policyCovered⟩
  · rintro ⟨hm, hp⟩
    refine ⟨?_, hmandate.mpr hm, hpolicy.mpr hp, fun item h hpart _ => authoritative_of_mem h hpart,
      mandateContent_pyEq _ _⟩
    rw [showsChange_iff mem_diff_profile, profileDiff_unchanged_iff, Bool.not_eq_true]

end Whole

-- ════════════════════════════════════════════════════════════════════════
-- A mandate that is only reordered
-- ════════════════════════════════════════════════════════════════════════

def sampleConfiguration : BaseValues := ⟨sampleProfile, sampleAssistantMandate, none⟩

/-- The responsibilities of the sample mandate the other way round. -/
def reorderingRequest : DraftUpdateRequest where
  profile := sampleProfile.edit
  mandate := { sampleAssistantMandate.edit with
    responsibilities := sampleAssistantMandate.responsibilities.reverse }
  policy := .none
  expectedDraftRevision := 1

/-- A draft that the builder creates and updates. -/
def reorderedDraft : Outcome (ColleagueDraft × ColleagueDraft) := do
  let existing ← createdDraft (fun _ => 0) (stableId "policy-1") sampleConfiguration sampleAdmin
    (stableId "draft-1") (stableId "correlation-1") 110
  let draft ← updatedDraft (fun _ => 0) (stableId "policy-1") sampleConfiguration none existing
    sampleAdmin reorderingRequest 120
  pure (existing, draft)

set_option maxRecDepth 8000 in
/-- The builder proposes a mandate with its responsibilities reordered: the diff
    shows no change of the mandate, and the confirmation writes a new revision. -/
theorem reordered_unseen :
    ¬∀ (digest : ColleagueDraftFields → Digest) (policyId : StableId) (base : BaseValues)
        (runtimeState : Option PolicyRunState) (existing : ColleagueDraft) (author : Principal)
        (request : DraftUpdateRequest) (now : Instant) (draft : ColleagueDraft),
      updatedDraft digest policyId base runtimeState existing author request now = .ok draft →
      DiffCovers base draft.proposedProfile draft.proposedMandate draft.proposedPolicy := by
  intro hall
  have hrun : (reorderedDraft.toOption.any fun d =>
      ((mandateDiff sampleConfiguration.mandate d.2.proposedMandate).all fun item =>
        decide (item.classification = .unchanged)) &&
      !sameMandateContent sampleConfiguration.mandate d.2.proposedMandate) = true := by
    decide +kernel
  obtain ⟨⟨existing, draft⟩, hdraft, hfacts⟩ := Option.any_eq_true _ _ |>.mp hrun
  simp only [Bool.and_eq_true, List.all_eq_true, decide_eq_true_eq, Bool.not_eq_true'] at hfacts
  obtain ⟨hunchanged, hdiffers⟩ := hfacts
  have hbuilt := toOption_eq_some.mp hdraft
  simp only [reorderedDraft, bind_eq_ok, pure_eq_ok, Prod.mk.injEq] at hbuilt
  obtain ⟨_, _, _, hupdated, rfl, rfl⟩ := hbuilt
  have hshown := (hall _ _ _ _ _ _ _ _ _ hupdated).mandateCovered.mpr hdiffers
  exact (showsChange_iff mem_diff_mandate).mp hshown hunchanged

end DigitalColleagues
