import DigitalColleagues.Governance.Approvals
import DigitalColleagues.Store.Builder

/-!
# The revisioned builder

`RevisionedColleagueBuilderService`: the drafts that its `create` and `update`
build from the configuration they read and from the edits they are given.

## Main definitions

- `policyFromEdit` — the proposed policy with its explicit defaults
- `createdDraft`, `updatedDraft` — the drafts handed to the store
-/

namespace DigitalColleagues

open PublicContract

-- ════════════════════════════════════════════════════════════════════════
-- Edits
-- ════════════════════════════════════════════════════════════════════════

structure ProfileEdit where
  displayName : String
  description : String
  presentation : FrozenJsonObject

structure MandateEdit where
  mission : String
  serviceRelationship : String
  responsibilities : List ResponsibilityDefinition
  capabilities : List CapabilityGrant
  constraints : List Constraint
  workingContext : FrozenJsonObject
  effectBoundaries : List EffectBoundary

/-- A policy edit; a field that is not supplied keeps its value or its default. -/
structure PolicyEdit where
  timezone : Option String
  weeklyWindows : Option (List WeeklyWindow)
  allowedTriggers : Option (List DurableTriggerKind)
  proactivity : Option ProactivityMode
  notification : Option NotificationMode
  interruption : Option InterruptionMode
  wakeLimit : Option ℕ
  wakePeriod : Option WakeBudgetPeriod
  outsideHours : Option OutsideHoursOutcome
  stopConditions : Option (List StopCondition)
  escalationConditions : Option (List EscalationCondition)
  failureLimit : Option ℕ
  runState : Option PolicyRunState
  explicitResume : Bool
  resume_active : explicitResume = true → runState = some .active := by decide

/-- No edit at all. -/
def PolicyEdit.none : PolicyEdit where
  timezone := .none
  weeklyWindows := .none
  allowedTriggers := .none
  proactivity := .none
  notification := .none
  interruption := .none
  wakeLimit := .none
  wakePeriod := .none
  outsideHours := .none
  stopConditions := .none
  escalationConditions := .none
  failureLimit := .none
  runState := .none
  explicitResume := false

structure DraftUpdateRequest where
  profile : ProfileEdit
  mandate : MandateEdit
  policy : PolicyEdit
  expectedDraftRevision : ℕ

-- ════════════════════════════════════════════════════════════════════════
-- Policy values and their defaults
-- ════════════════════════════════════════════════════════════════════════

/-- The values of a policy that an edit may choose. -/
structure PolicyValues where
  timezone : String
  weeklyWindows : List WeeklyWindow
  allowedTriggers : List DurableTriggerKind
  proactivity : ProactivityMode
  notification : NotificationMode
  interruption : InterruptionMode
  wakeLimit : ℕ
  wakePeriod : WakeBudgetPeriod
  outsideHours : OutsideHoursOutcome
  stopConditions : List StopCondition
  escalationConditions : List EscalationCondition
  failureLimit : ℕ
  runState : PolicyRunState

/-- `_default_windows`: every day, all day. -/
def defaultWindows : List WeeklyWindow :=
  [⟨.monday, 0, 1440, by decide, by decide, by decide, by decide⟩,
    ⟨.tuesday, 0, 1440, by decide, by decide, by decide, by decide⟩,
    ⟨.wednesday, 0, 1440, by decide, by decide, by decide, by decide⟩,
    ⟨.thursday, 0, 1440, by decide, by decide, by decide, by decide⟩,
    ⟨.friday, 0, 1440, by decide, by decide, by decide, by decide⟩,
    ⟨.saturday, 0, 1440, by decide, by decide, by decide, by decide⟩,
    ⟨.sunday, 0, 1440, by decide, by decide, by decide, by decide⟩]

/-- `_POLICY_DEFAULTS`. -/
def policyDefaults : PolicyValues where
  timezone := "UTC"
  weeklyWindows := defaultWindows
  allowedTriggers := [.event, .timer]
  proactivity := .bounded
  notification := .enabled
  interruption := .workingHoursOnly
  wakeLimit := 24
  wakePeriod := .day
  outsideHours := .defer
  stopConditions := [.adminStop]
  escalationConditions := [.blockedWork]
  failureLimit := 3
  runState := .active

/-- `_policy_edit_values`. -/
def policyEditValues (policy : ColleaguePolicy) : PolicyValues where
  timezone := policy.timezone
  weeklyWindows := policy.weeklyWindows
  allowedTriggers := policy.allowedTriggers
  proactivity := policy.proactivity
  notification := policy.notification
  interruption := policy.interruption
  wakeLimit := policy.wakeBudget.limit
  wakePeriod := policy.wakeBudget.period
  outsideHours := policy.outsideHours
  stopConditions := policy.stopConditions
  escalationConditions := policy.escalationConditions
  failureLimit := policy.failureLimit
  runState := policy.runState

/-- The supplied values, and the others from `base`. -/
def PolicyEdit.select (edit : PolicyEdit) (base : PolicyValues) : PolicyValues where
  timezone := edit.timezone.getD base.timezone
  weeklyWindows := edit.weeklyWindows.getD base.weeklyWindows
  allowedTriggers := edit.allowedTriggers.getD base.allowedTriggers
  proactivity := edit.proactivity.getD base.proactivity
  notification := edit.notification.getD base.notification
  interruption := edit.interruption.getD base.interruption
  wakeLimit := edit.wakeLimit.getD base.wakeLimit
  wakePeriod := edit.wakePeriod.getD base.wakePeriod
  outsideHours := edit.outsideHours.getD base.outsideHours
  stopConditions := edit.stopConditions.getD base.stopConditions
  escalationConditions := edit.escalationConditions.getD base.escalationConditions
  failureLimit := edit.failureLimit.getD base.failureLimit
  runState := edit.runState.getD base.runState

/-- `_explicit_default`. -/
def explicitDefault {α : Type} [PublicContract α] (path : String) (value : α) : ExplicitDefault :=
  ⟨"policy." ++ path, publicData value⟩

/-- The values as explicit defaults, in the order of `_POLICY_DEFAULTS`. -/
def PolicyValues.explicitDefaults (v : PolicyValues) : List ExplicitDefault :=
  [explicitDefault "timezone" v.timezone,
    explicitDefault "weekly_windows" v.weeklyWindows,
    explicitDefault "allowed_triggers" v.allowedTriggers,
    explicitDefault "proactivity" v.proactivity,
    explicitDefault "notification" v.notification,
    explicitDefault "interruption" v.interruption,
    explicitDefault "wake_limit" v.wakeLimit,
    explicitDefault "wake_period" v.wakePeriod,
    explicitDefault "outside_hours" v.outsideHours,
    explicitDefault "stop_conditions" v.stopConditions,
    explicitDefault "escalation_conditions" v.escalationConditions,
    explicitDefault "failure_limit" v.failureLimit,
    explicitDefault "run_state" v.runState]

/-- Which fields an edit leaves open, in the same order. -/
def PolicyEdit.unsupplied (edit : PolicyEdit) : List Bool :=
  [edit.timezone.isNone, edit.weeklyWindows.isNone, edit.allowedTriggers.isNone,
    edit.proactivity.isNone, edit.notification.isNone, edit.interruption.isNone,
    edit.wakeLimit.isNone, edit.wakePeriod.isNone, edit.outsideHours.isNone,
    edit.stopConditions.isNone, edit.escalationConditions.isNone, edit.failureLimit.isNone,
    edit.runState.isNone]

/-- The defaults that a first policy takes because an edit does not choose. -/
def PolicyEdit.generatedDefaults (edit : PolicyEdit) (active : Option ColleaguePolicy) :
    List ExplicitDefault :=
  match active with
  | some _ => []
  | .none => ((edit.unsupplied.zip policyDefaults.explicitDefaults).filter Prod.fst).map Prod.snd

/-- What `_policy_from_edit` is told besides the edit. -/
structure PolicyContext where
  policyId : StableId
  revision : ℕ
  mandateId : StableId
  mandateRevision : ℕ
  actor : Principal
  occurredAt : Instant

/-- The `ColleaguePolicy` constructor. -/
def makePolicy (context : PolicyContext) (v : PolicyValues) : Outcome ColleaguePolicy :=
  if hlimit : 1 ≤ v.wakeLimit ∧ v.wakeLimit ≤ 10000 then
    if h : ValidWindows v.weeklyWindows ∧ v.allowedTriggers ≠ [] ∧ v.allowedTriggers.Nodup ∧
        v.stopConditions.Nodup ∧ v.escalationConditions.Nodup ∧
        (1 ≤ v.failureLimit ∧ v.failureLimit ≤ 100) ∧ context.actor.kind = .human then
      .ok
        { policyId := context.policyId
          mandateId := context.mandateId
          mandateRevision := context.mandateRevision
          timezone := v.timezone
          weeklyWindows := v.weeklyWindows
          allowedTriggers := v.allowedTriggers
          proactivity := v.proactivity
          notification := v.notification
          interruption := v.interruption
          wakeBudget := ⟨v.wakeLimit, v.wakePeriod, hlimit.1, hlimit.2⟩
          outsideHours := v.outsideHours
          stopConditions := v.stopConditions
          escalationConditions := v.escalationConditions
          failureLimit := v.failureLimit
          runState := v.runState
          revision := context.revision
          issuedBy := context.actor
          effectiveAt := context.occurredAt
          windows_valid := h.1
          allowedTriggers_ne_nil := h.2.1
          allowedTriggers_nodup := h.2.2.1
          stopConditions_nodup := h.2.2.2.1
          escalationConditions_nodup := h.2.2.2.2.1
          failureLimit_bounds := h.2.2.2.2.2.1
          issued_by_human := h.2.2.2.2.2.2 }
    else .error (.coreInvariant "colleague policy was refused")
  else .error (.coreInvariant "wake budget limit must be between 1 and 10000")

/-- `_policy_from_edit`. -/
def policyFromEdit (context : PolicyContext) (edit : PolicyEdit)
    (active : Option ColleaguePolicy) : Outcome (ColleaguePolicy × List ExplicitDefault) := do
  let policy ← makePolicy context
    (edit.select (active.elim policyDefaults policyEditValues))
  pure (policy, edit.generatedDefaults active)

/-- `_retain_matching_defaults`: the defaults that the proposed policy still has. -/
def retainMatchingDefaults (existing : ColleagueDraft) (proposed : ColleaguePolicy)
    (generated : List ExplicitDefault) : List ExplicitDefault :=
  (policyEditValues proposed).explicitDefaults.filterMap fun value =>
    ((generated ++ existing.explicitDefaults).find? fun item => item.path == value.path).filter
      fun item => item.value.pyEq value.value

-- ════════════════════════════════════════════════════════════════════════
-- Proposed records
-- ════════════════════════════════════════════════════════════════════════

/-- The constructor of a `Mandate` that follows another one. -/
def nextMandate (mandate : Mandate) (edit : MandateEdit) (author : Principal) (now : Instant) :
    Outcome Mandate :=
  if h : UniqueRecords ResponsibilityDefinition.responsibilityId edit.responsibilities ∧
      UniqueRecords CapabilityGrant.capabilityId edit.capabilities ∧
      UniqueRecords Constraint.constraintId edit.constraints ∧
      UniqueRecords EffectBoundary.boundaryId edit.effectBoundaries then
    if hissued : author.kind = .human then
      .ok
        { mandateId := mandate.mandateId
          mission := edit.mission
          serviceRelationship := edit.serviceRelationship
          responsibilities := edit.responsibilities
          capabilities := edit.capabilities
          constraints := edit.constraints
          workingContext := edit.workingContext
          effectBoundaries := edit.effectBoundaries
          revision := mandate.revision + 1
          issuedBy := author
          effectiveAt := now
          responsibilities_unique := h.1
          capabilities_unique := h.2.1
          constraints_unique := h.2.2.1
          effectBoundaries_unique := h.2.2.2
          issued_by_human := hissued }
    else .error (.authorization "an authoritative Mandate must be issued by a human")
  else .error (.coreInvariant "identified collections must be non-empty and unique")

/-- The profile that follows another one. -/
def nextProfile (profile : Profile) (edit : ProfileEdit) (author : Principal) (now : Instant) :
    Profile where
  profileId := profile.profileId
  displayName := edit.displayName
  description := edit.description
  presentation := edit.presentation
  revision := profile.revision + 1
  updatedBy := author
  updatedAt := now

/-- The content of a profile, as an edit that changes nothing. -/
def Profile.edit (profile : Profile) : ProfileEdit :=
  ⟨profile.displayName, profile.description, profile.presentation⟩

/-- The content of a mandate, as an edit that changes nothing. -/
def Mandate.edit (mandate : Mandate) : MandateEdit :=
  ⟨mandate.mission, mandate.serviceRelationship, mandate.responsibilities, mandate.capabilities,
    mandate.constraints, mandate.workingContext, mandate.effectBoundaries⟩

/-- Another revision of a policy with the same content. -/
def nextPolicy (policy : ColleaguePolicy) (author : Principal) (now : Instant) :
    Outcome ColleaguePolicy :=
  if hissued : author.kind = .human then
    .ok { policy with
      revision := policy.revision + 1
      issuedBy := author
      effectiveAt := now
      issued_by_human := hissued }
  else .error (.authorization "authoritative colleague policy must be issued by a human")

-- ════════════════════════════════════════════════════════════════════════
-- Drafts
-- ════════════════════════════════════════════════════════════════════════

/-- `_with_digest`. -/
def withDigest (digest : ColleagueDraftFields → Digest) (f : ColleagueDraftFields) :
    Outcome ColleagueDraft :=
  ColleagueDraft.make { f with canonicalDigest := digest { f with canonicalDigest := 0 } }

/-- The configuration that a service read, each record on its own. -/
structure BaseValues where
  profile : Profile
  mandate : Mandate
  policy : Option ColleaguePolicy

/-- The revisions of what was read. -/
def BaseValues.revisions (base : BaseValues) : BaseRevisions :=
  ⟨base.profile.revision, base.mandate.revision, base.policy.elim 0 ColleaguePolicy.revision⟩

/-- `_require_admin` of the service. -/
def requireDraftAdmin (author : Principal) : Outcome Unit := do
  require (author.kind = .human)
    (.permissionDenied "colleague draft requires a HUMAN principal")
  requireAuthoritativeHumanRole author [.tenantAdmin]

/-- The policy that a new draft starts from. -/
def initialProposedPolicy (policyId : StableId) (base : BaseValues) (author : Principal)
    (now : Instant) : Outcome (ColleaguePolicy × List ExplicitDefault) :=
  match base.policy with
  | none => policyFromEdit
      ⟨policyId, 1, base.mandate.mandateId, base.mandate.revision, author, now⟩ .none none
  | some policy => do
    let proposed ← nextPolicy policy author now
    pure (proposed, [])

/-- The draft that `create` builds. -/
def createdDraft (digest : ColleagueDraftFields → Digest) (policyId : StableId)
    (base : BaseValues) (author : Principal) (draftId correlationId : StableId) (now : Instant) :
    Outcome ColleagueDraft := do
  requireDraftAdmin author
  let profile := nextProfile base.profile base.profile.edit author now
  let mandate ← nextMandate base.mandate base.mandate.edit author now
  let (policy, defaults) ← initialProposedPolicy policyId base author now
  withDigest digest
    { draftId := draftId
      revision := 1
      baseProfileId := base.profile.profileId
      baseMandateId := base.mandate.mandateId
      basePolicyId := base.policy.map ColleaguePolicy.policyId
      baseRevisions := base.revisions
      proposedProfile := profile
      proposedMandate := mandate
      proposedPolicy := policy
      explicitDefaults := defaults
      diff := buildDraftDiff base.profile base.mandate base.policy profile mandate policy
      canonicalDigest := 0
      state := .draft
      author := author
      createdAt := now
      updatedAt := now
      correlationId := correlationId
      causationId := base.mandate.mandateId }

/-- The item of an explicit request to resume. -/
def explicitResumeItem : DraftDiffItem :=
  diffItem .policy "explicit_resume" (.bool false) (.bool true) true (some .expanded)

/-- The items that an edit adds to the diff; only a stopped colleague resumes. -/
def resumeItems (edit : PolicyEdit) (runtimeState : Option PolicyRunState) :
    Outcome (List DraftDiffItem) :=
  if edit.explicitResume = true then do
    require (runtimeState = some .stopped)
      (.validation "explicit resume requires a durable stopped runtime")
    pure [explicitResumeItem]
  else .ok []

/-- The draft that `update` builds; its author stays. -/
def updatedDraft (digest : ColleagueDraftFields → Digest) (policyId : StableId)
    (base : BaseValues) (runtimeState : Option PolicyRunState) (existing : ColleagueDraft)
    (author : Principal) (request : DraftUpdateRequest) (now : Instant) :
    Outcome ColleagueDraft := do
  requireDraftAdmin author
  require (existing.revision = request.expectedDraftRevision)
    (.staleConflict "draft revision is stale")
  require (existing.state = .draft ∨ existing.state = .reviewable)
    (.staleConflict "terminal colleague draft cannot be updated")
  let profile := nextProfile base.profile request.profile author now
  let mandate ← nextMandate base.mandate request.mandate author now
  let (policy, generated) ← policyFromEdit
    { policyId := base.policy.elim policyId ColleaguePolicy.policyId
      revision := base.policy.elim 0 ColleaguePolicy.revision + 1
      mandateId := base.mandate.mandateId
      mandateRevision := if sameMandateContent base.mandate mandate then base.mandate.revision
        else mandate.revision
      actor := author
      occurredAt := now } request.policy base.policy
  let resume ← resumeItems request.policy runtimeState
  withDigest digest
    { existing.toColleagueDraftFields with
      revision := existing.revision + 1
      proposedProfile := profile
      proposedMandate := mandate
      proposedPolicy := policy
      explicitDefaults := retainMatchingDefaults existing policy generated
      diff := buildDraftDiff base.profile base.mandate base.policy profile mandate policy ++ resume
      canonicalDigest := 0
      state := .draft
      updatedAt := now }

end DigitalColleagues
