import DigitalColleagues.Core.Serialization

/-!
# The diff a reviewer sees

`build_draft_diff` and the builder's own values: which fields of profile,
mandate and policy a draft changes, and in which direction.
-/

namespace DigitalColleagues

open PublicContract

-- ════════════════════════════════════════════════════════════════════════
-- Items
-- ════════════════════════════════════════════════════════════════════════

/-- `_item`. -/
def diffItem (diffSection : DiffSection) (path : String) (before after : Json)
    (authoritative : Bool) (classification : Option DiffClassification) : DraftDiffItem where
  diffSection := diffSection
  path := path
  classification := classification.getD (if before.pyEq after then .unchanged else .changed)
  before := before
  after := after
  authoritative := authoritative

/-- `_classify_set`. -/
def classifySet (before after : List String) : DiffClassification :=
  if before ⊆ after ∧ after ⊆ before then .unchanged
  else if before ⊆ after then .expanded
  else if after ⊆ before then .narrowed
  else .changed

/-- The records of an identified collection as a mapping from their identifiers. -/
def recordMap {α : Type} [PublicContract α] (identifier : α → StableId) (records : List α) :
    List (StableId × Json) :=
  records.map fun r => (identifier r, publicData r)

/-- How an identified record differs between two mappings. -/
def classifyRecord (old new : Option Json) : DiffClassification :=
  match old, new with
  | none, _ => .added
  | some _, none => .removed
  | some old, some new => if old.pyEq new then .unchanged else .changed

/-- `_collection_diff`: one item for each identifier, in order. -/
def collectionDiff {α : Type} [PublicContract α] (path : String) (identifier : α → StableId)
    (before after : List α) : List DraftDiffItem :=
  let previous := recordMap identifier before
  let proposed := recordMap identifier after
  (((before ++ after).map identifier).dedup.insertionSort fun a b => a.val ≤ b.val).map fun id =>
    diffItem .mandate (path ++ "." ++ id.val) ((previous.lookup id).getD .null)
      ((proposed.lookup id).getD .null) true
      (some (classifyRecord (previous.lookup id) (proposed.lookup id)))

/-- The item of a policy field; a missing policy has no value for it. -/
def policyItem {β : Type} [PublicContract β] (path : String) (field : ColleaguePolicy → β)
    (active : Option ColleaguePolicy) (proposed : ColleaguePolicy)
    (classification : Option DiffClassification) : DraftDiffItem :=
  diffItem .policy path ((active.map fun p => publicData (field p)).getD .null)
    (publicData (field proposed)) true classification

/-- The direction of a two-valued field, once there was another value. -/
def directedChange {β : Type} [DecidableEq β] (wide : β) (field : ColleaguePolicy → β)
    (active : Option ColleaguePolicy) (proposed : ColleaguePolicy) : Option DiffClassification :=
  match active with
  | none => none
  | some old =>
    if field old = field proposed then none
    else some (if field proposed = wide then .expanded else .narrowed)

/-- The texts of a set-valued policy field. -/
def setValues {β : Type} (value : β → String) (field : ColleaguePolicy → List β)
    (policy : Option ColleaguePolicy) : List String :=
  (policy.elim [] field).map value

/-- The item of a set-valued policy field, compared as a set. -/
def policySetItem {β : Type} (path : String) (value : β → String)
    (field : ColleaguePolicy → List β) (active : Option ColleaguePolicy)
    (proposed : ColleaguePolicy) (orient : DiffClassification → DiffClassification) :
    DraftDiffItem :=
  let old := setValues value field active
  let new := setValues value field (some proposed)
  diffItem .policy path (publicData old) (publicData new) true (some (orient (classifySet old new)))

/-- More stop conditions narrow a policy. -/
def reversed : DiffClassification → DiffClassification
  | .expanded => .narrowed
  | .narrowed => .expanded
  | c => c

/-- The direction of a wake budget of an unchanged period. -/
def budgetChange (active : Option ColleaguePolicy) (proposed : ColleaguePolicy) :
    Option DiffClassification :=
  match active with
  | none => none
  | some old =>
    if old.wakeBudget.period = proposed.wakeBudget.period ∧
        old.wakeBudget.limit ≠ proposed.wakeBudget.limit then
      some (if old.wakeBudget.limit < proposed.wakeBudget.limit then .expanded else .narrowed)
    else none

-- ════════════════════════════════════════════════════════════════════════
-- The whole diff
-- ════════════════════════════════════════════════════════════════════════

def profileDiff (active proposed : Profile) : List DraftDiffItem :=
  [diffItem .profile "display_name" (publicData active.displayName)
      (publicData proposed.displayName) false none,
    diffItem .profile "description" (publicData active.description)
      (publicData proposed.description) false none,
    diffItem .profile "presentation" (publicData active.presentation)
      (publicData proposed.presentation) false none]

def mandateDiff (active proposed : Mandate) : List DraftDiffItem :=
  [diffItem .mandate "mission" (publicData active.mission) (publicData proposed.mission) true none,
    diffItem .mandate "service_relationship" (publicData active.serviceRelationship)
      (publicData proposed.serviceRelationship) true none,
    diffItem .mandate "working_context" (publicData active.workingContext)
      (publicData proposed.workingContext) true none] ++
  collectionDiff "responsibilities" ResponsibilityDefinition.responsibilityId
    active.responsibilities proposed.responsibilities ++
  collectionDiff "capabilities" CapabilityGrant.capabilityId
    active.capabilities proposed.capabilities ++
  collectionDiff "constraints" Constraint.constraintId active.constraints proposed.constraints ++
  collectionDiff "effect_boundaries" EffectBoundary.boundaryId
    active.effectBoundaries proposed.effectBoundaries

def policyDiff (active : Option ColleaguePolicy) (proposed : ColleaguePolicy) :
    List DraftDiffItem :=
  [policyItem "timezone" ColleaguePolicy.timezone active proposed none,
    policyItem "weekly_windows" ColleaguePolicy.weeklyWindows active proposed none,
    policyItem "proactivity" ColleaguePolicy.proactivity active proposed
      (directedChange .bounded ColleaguePolicy.proactivity active proposed),
    policyItem "notification" ColleaguePolicy.notification active proposed none,
    policyItem "interruption" ColleaguePolicy.interruption active proposed none,
    policyItem "outside_hours" ColleaguePolicy.outsideHours active proposed none,
    policyItem "failure_limit" ColleaguePolicy.failureLimit active proposed none,
    policyItem "run_state" ColleaguePolicy.runState active proposed
      (directedChange .active ColleaguePolicy.runState active proposed),
    policySetItem "allowed_triggers" DurableTriggerKind.value ColleaguePolicy.allowedTriggers
      active proposed id,
    policySetItem "stop_conditions" StopCondition.value ColleaguePolicy.stopConditions
      active proposed reversed,
    policySetItem "escalation_conditions" EscalationCondition.value
      ColleaguePolicy.escalationConditions active proposed id,
    policyItem "wake_budget" ColleaguePolicy.wakeBudget active proposed
      (budgetChange active proposed)]

/-- `build_draft_diff`. -/
def buildDraftDiff (activeProfile : Profile) (activeMandate : Mandate)
    (activePolicy : Option ColleaguePolicy) (proposedProfile : Profile)
    (proposedMandate : Mandate) (proposedPolicy : ColleaguePolicy) : List DraftDiffItem :=
  profileDiff activeProfile proposedProfile ++ mandateDiff activeMandate proposedMandate ++
    policyDiff activePolicy proposedPolicy

-- ════════════════════════════════════════════════════════════════════════
-- Contents that a confirmation compares
-- ════════════════════════════════════════════════════════════════════════

/-- `_same_profile_content`. -/
def sameProfileContent (left right : Profile) : Bool :=
  pyEq left.displayName right.displayName && pyEq left.description right.description &&
    pyEq left.presentation right.presentation

/-- `_same_mandate_content`. -/
def sameMandateContent (left right : Mandate) : Bool :=
  pyEq left.mission right.mission && pyEq left.serviceRelationship right.serviceRelationship &&
    pyEq left.responsibilities right.responsibilities &&
    pyEq left.capabilities right.capabilities && pyEq left.constraints right.constraints &&
    pyEq left.workingContext right.workingContext &&
    pyEq left.effectBoundaries right.effectBoundaries

/-- `_same_policy_content`. -/
def samePolicyContent (left right : ColleaguePolicy) : Bool :=
  pyEq left.mandateId right.mandateId && pyEq left.mandateRevision right.mandateRevision &&
    pyEq left.timezone right.timezone && pyEq left.weeklyWindows right.weeklyWindows &&
    pyEq left.allowedTriggers right.allowedTriggers && pyEq left.proactivity right.proactivity &&
    pyEq left.notification right.notification && pyEq left.interruption right.interruption &&
    pyEq left.wakeBudget right.wakeBudget && pyEq left.outsideHours right.outsideHours &&
    pyEq left.stopConditions right.stopConditions &&
    pyEq left.escalationConditions right.escalationConditions &&
    pyEq left.failureLimit right.failureLimit && pyEq left.runState right.runState

end DigitalColleagues
