import DigitalColleagues.Core.DraftDiff
import DigitalColleagues.Store.Changes

/-!
# Drafts and the active configuration of one colleague

The revisioned profile, mandate and policy of a colleague, its drafts, its
durable run state, and the confirmation that turns a reviewed draft into the
next configuration.

## Main definitions

- `BuilderTables` — the tables
- `BuilderTables.createDraft`, `BuilderTables.updateDraft`, `BuilderTables.transitionDraft`
- `confirmDraft` — the confirmation, in one transaction with the governance tables
-/

namespace DigitalColleagues

open PublicContract

-- ════════════════════════════════════════════════════════════════════════
-- Rows
-- ════════════════════════════════════════════════════════════════════════

structure RunStateRow where
  policyId : StableId
  policyRevision : ℕ
  state : PolicyRunState
  reason : String
  actorPrincipalId : StableId
  correlationId : StableId
  causationId : StableId
  updatedAt : Instant
  revision : ℕ
deriving DecidableEq

/-- The identity of a policy outcome: given by a caller, or derived from the
    draft or the decision it is about. -/
inductive OutcomeId
  | given (outcomeId : StableId)
  | explicitResume (draftId : StableId) (draftRevision : ℕ)
  | stoppedProposal (decisionId : StableId)
deriving DecidableEq

structure PolicyEnforcementRecord where
  outcomeId : OutcomeId
  policyId : StableId
  policyRevision : ℕ
  mandateId : StableId
  mandateRevision : ℕ
  stage : PolicyStage
  outcome : PolicyOutcomeKind
  triggerClass : Option DurableTriggerKind
  sourceId : Option StableId
  actorPrincipalId : StableId
  correlationId : StableId
  causationId : StableId
  occurredAt : Instant
deriving DecidableEq

/-- An outcome that lets a trigger wake the colleague. -/
def PolicyEnforcementRecord.admits (record : PolicyEnforcementRecord) : Prop :=
  record.stage = .preWake ∧ record.outcome = .allowed

instance (record : PolicyEnforcementRecord) : Decidable record.admits :=
  inferInstanceAs (Decidable (_ ∧ _))

structure ConfirmationResult where
  draftId : StableId
  draftRevision : ℕ
  profileRevision : ℕ
  mandateRevision : ℕ
  policyRevision : ℕ
  canonicalDigest : Digest
deriving DecidableEq

structure DraftConfirmation where
  confirmationId : StableId
  idempotencyKey : StableId
  requestDigest : Digest
  result : ConfirmationResult
  actorPrincipalId : StableId
  occurredAt : Instant
deriving DecidableEq

instance : DurableRecord ColleaguePolicy where
  key := ColleaguePolicy.policyId
  immutable := false
  revision := ColleaguePolicy.revision
  Public := ColleaguePolicy
  publicData := id

instance : Keyed ColleagueDraft StableId := ⟨fun d => d.draftId⟩

instance : Keyed PolicyEnforcementRecord OutcomeId := ⟨PolicyEnforcementRecord.outcomeId⟩

instance : Keyed DraftConfirmation StableId := ⟨DraftConfirmation.confirmationId⟩

/-- The configuration tables of one colleague. -/
structure BuilderTables where
  profiles : Records Profile
  mandates : Records Mandate
  policies : Records ColleaguePolicy
  drafts : Table ColleagueDraft
  confirmations : Table DraftConfirmation
  runState : Option RunStateRow
  policyOutcomes : Table PolicyEnforcementRecord

namespace BuilderTables

def empty : BuilderTables := ⟨.empty, .empty, .empty, .empty, .empty, none, .empty⟩

-- ════════════════════════════════════════════════════════════════════════
-- The active configuration
-- ════════════════════════════════════════════════════════════════════════

/-- `active_configuration`. -/
def activeConfiguration (s : BuilderTables) : Outcome (Profile × Mandate) :=
  match s.profiles.domain.rows, s.mandates.domain.rows with
  | [profile], [mandate] => .ok (profile, mandate)
  | _, _ => .error (.notFound "active colleague configuration is incomplete")

/-- `get_active_policy`. -/
def getActivePolicy (s : BuilderTables) : Outcome (Option ColleaguePolicy) :=
  match s.policies.domain.rows with
  | [] => .ok none
  | [policy] => .ok (some policy)
  | _ => .error (.conflict "multiple active colleague policies were refused")

/-- `get_runtime_policy_state`. -/
def runtimePolicyState (s : BuilderTables) :
    Outcome (Option ColleaguePolicy × Option PolicyRunState) := do
  let policy ← s.getActivePolicy
  match s.runState with
  | some row => pure (policy, some row.state)
  | none => pure (policy, policy.map ColleaguePolicy.runState)

/-- `_current_revisions`. -/
def currentRevisions (s : BuilderTables) (draft : ColleagueDraft) : Outcome BaseRevisions := do
  let profile ← s.profiles.getRecord draft.proposedProfile.profileId
  let mandate ← s.mandates.getRecord draft.proposedMandate.mandateId
  pure
    { profile := profile.revision
      mandate := mandate.revision
      policy := (s.policies.find? draft.proposedPolicy.policyId).elim 0 ColleaguePolicy.revision }

/-- The profile and the mandate a colleague starts with. -/
def insertConfiguration (s : BuilderTables) (profile : Profile) (mandate : Mandate) :
    Outcome BuilderTables := do
  let profiles ← s.profiles.insertRecord profile
  let mandates ← s.mandates.insertRecord mandate
  pure { s with profiles := profiles, mandates := mandates }

-- ════════════════════════════════════════════════════════════════════════
-- Drafts
-- ════════════════════════════════════════════════════════════════════════

/-- A draft in another state. -/
def draftIn (draft : ColleagueDraft) (state : DraftLifecycle) (occurredAt : Instant) :
    Outcome ColleagueDraft :=
  ColleagueDraft.make
    { draft.toColleagueDraftFields with state := state, updatedAt := occurredAt }

def writeDraft (s : BuilderTables) (draft : ColleagueDraft) : BuilderTables :=
  { s with drafts := s.drafts.replace draft }

/-- `_mark_stale`. -/
def markStale (s : BuilderTables) (draft : ColleagueDraft) (occurredAt : Instant) :
    Outcome BuilderTables := do
  let stale ← draftIn draft .stale occurredAt
  pure (s.writeDraft stale)

def draftNotFound : Failure := .notFound "namespaced colleague draft was not found"

def staleBase : Failure := .staleConflict "draft base revisions are stale"

def getDraft (s : BuilderTables) (draftId : StableId) : Outcome ColleagueDraft :=
  orFail (s.drafts.find? draftId) draftNotFound

/-- `_require_admin` of the governed store. -/
def requireAdmin (tenant : TenantTables) (actor : Principal) : Outcome Unit := do
  let _ ← tenant.requireCurrentMembership actor .manageDraft .tenant
  pure ()

/-- `create_draft`. -/
def createDraft (tenant : TenantTables) (s : BuilderTables) (draft : ColleagueDraft) :
    Outcome (ColleagueDraft × BuilderTables) := do
  requireAdmin tenant draft.author
  match s.drafts.find? draft.draftId with
  | some existing => pure (existing, s)
  | none =>
    let current ← s.currentRevisions draft
    require (current = draft.baseRevisions) staleBase
    let drafts ← orFail (s.drafts.insert? draft) .integrity
    pure (draft, { s with drafts := drafts })

/-- `update_draft`. A draft whose base is gone is marked stale, and then the
    update raises. -/
def updateDraft (tenant : TenantTables) (s : BuilderTables) (draft : ColleagueDraft)
    (expectedRevision : ℕ) : Outcome (Outcome ColleagueDraft × BuilderTables) := do
  requireAdmin tenant draft.author
  let existing ← s.getDraft draft.draftId
  require (existing.revision = expectedRevision ∧ draft.revision = expectedRevision + 1)
    (.staleConflict "draft optimistic revision conflict")
  require (existing.state = .draft ∨ existing.state = .reviewable)
    (.staleConflict "terminal colleague draft cannot be updated")
  require (existing.baseRevisions = draft.baseRevisions)
    (.staleConflict "draft base identity cannot be rebound")
  let current ← s.currentRevisions existing
  if current = existing.baseRevisions then pure (.ok draft, s.writeDraft draft)
  else
    let s ← s.markStale existing draft.updatedAt
    pure (.error staleBase, s)

/-- `review_draft`. -/
def reviewDraft (tenant : TenantTables) (s : BuilderTables) (draftId : StableId)
    (expectedRevision : ℕ) (actor : Principal) (occurredAt : Instant) :
    Outcome (Outcome ColleagueDraft × BuilderTables) := do
  requireAdmin tenant actor
  let draft ← s.getDraft draftId
  require (draft.revision = expectedRevision) (.staleConflict "draft optimistic revision conflict")
  require (draft.state = .draft)
    (.staleConflict "only an editable draft can become reviewable")
  let current ← s.currentRevisions draft
  if current = draft.baseRevisions then
    require (∃ item ∈ draft.diff, item.classification ≠ .unchanged)
      (.validation "review requires at least one explicit change")
    let reviewed ← draftIn draft .reviewable occurredAt
    pure (.ok reviewed, s.writeDraft reviewed)
  else
    let s ← s.markStale draft occurredAt
    pure (.error staleBase, s)

/-- `cancel_draft`. -/
def cancelDraft (tenant : TenantTables) (s : BuilderTables) (draftId : StableId)
    (expectedRevision : ℕ) (actor : Principal) (occurredAt : Instant) :
    Outcome (ColleagueDraft × BuilderTables) := do
  requireAdmin tenant actor
  let draft ← s.getDraft draftId
  require (draft.revision = expectedRevision) (.staleConflict "draft optimistic revision conflict")
  require (draft.state = .draft ∨ draft.state = .reviewable)
    (.staleConflict "terminal colleague draft cannot transition")
  let cancelled ← draftIn draft .cancelled occurredAt
  pure (cancelled, s.writeDraft cancelled)

-- ════════════════════════════════════════════════════════════════════════
-- Run state
-- ════════════════════════════════════════════════════════════════════════

/-- `_upsert_run_state`. -/
def upsertRunState (s : BuilderTables) (policy : ColleaguePolicy) (actor : Principal)
    (correlationId causationId : StableId) (occurredAt : Instant) (reason : String) :
    BuilderTables :=
  let row : RunStateRow :=
    { policyId := policy.policyId
      policyRevision := policy.revision
      state := policy.runState
      reason := reason
      actorPrincipalId := actor.principalId
      correlationId := correlationId
      causationId := causationId
      updatedAt := occurredAt
      revision := s.runState.elim 1 fun row => row.revision + 1 }
  { s with runState := some row }

/-- `_insert_policy_outcome`. -/
def insertPolicyOutcome (s : BuilderTables) (record : PolicyEnforcementRecord) :
    Outcome BuilderTables :=
  match s.policyOutcomes.find? record.outcomeId with
  | some existing => do
    require (existing = record) (.conflict "policy outcome identity was rebound")
    pure s
  | none => do
    let policyOutcomes ← orFail (s.policyOutcomes.insert? record) .integrity
    pure { s with policyOutcomes := policyOutcomes }

theorem insertPolicyOutcome_eq_ok {s t : BuilderTables} {record : PolicyEnforcementRecord}
    (h : s.insertPolicyOutcome record = .ok t) :
    s.policyOutcomes.find? record.outcomeId = some record ∧ t = s ∨
      ∃ outcomes, s.policyOutcomes.insert? record = some outcomes ∧
        t = { s with policyOutcomes := outcomes } := by
  unfold insertPolicyOutcome at h
  split at h
  · rename_i existing hexisting
    simp only [bind_eq_ok, require_eq_ok, pure_eq_ok, exists_const] at h
    obtain ⟨rfl, rfl⟩ := h
    exact .inl ⟨hexisting, rfl⟩
  · simp only [bind_eq_ok, orFail_eq_ok, pure_eq_ok] at h
    obtain ⟨outcomes, hinsert, rfl⟩ := h
    exact .inr ⟨outcomes, hinsert, rfl⟩

/-- The outcomes that admitted a trigger, in their order. -/
def admissions (s : BuilderTables) : List PolicyEnforcementRecord :=
  s.policyOutcomes.rows.filter fun r => decide r.admits

/-- Other outcomes leave the admissions alone. -/
theorem admissions_insertPolicyOutcome {s t : BuilderTables} {record : PolicyEnforcementRecord}
    (h : s.insertPolicyOutcome record = .ok t) (hrecord : ¬record.admits) :
    t.admissions = s.admissions := by
  rcases insertPolicyOutcome_eq_ok h with ⟨_, rfl⟩ | ⟨outcomes, hinsert, rfl⟩
  · rfl
  · have hrows : outcomes.rows = s.policyOutcomes.rows ++ [record] :=
      (Table.insert?_eq_some.mp hinsert).2
    simp [admissions, hrows, hrecord]

/-- `_explicit_resume_change`: what a proposed policy revises about the reason
    for which the colleague was stopped. -/
def explicitResumeChange (reason : String) (current proposed : ColleaguePolicy) :
    Option String :=
  if current.runState = .stopped ∧ proposed.runState = .active then
    some "admin_run_state_activated"
  else if proposed.runState ≠ .active then none
  else if reason = "budget_exhausted" then
    if .budgetExhausted ∈ current.stopConditions ∧ .budgetExhausted ∉ proposed.stopConditions then
      some "budget_stop_condition_removed"
    else if current.wakeBudget.period ≠ proposed.wakeBudget.period then
      some "wake_budget_period_changed"
    else if current.wakeBudget.limit < proposed.wakeBudget.limit then
      some "wake_budget_limit_increased"
    else none
  else if reason = "outside_hours_stop" then
    if proposed.outsideHours ≠ .stop then some "outside_hours_stop_removed"
    else if current.timezone ≠ proposed.timezone ∨
        current.weeklyWindows ≠ proposed.weeklyWindows then
      some "working_hours_changed"
    else none
  else if reason = "repeated_failure_stop" then
    if .repeatedFailure ∈ current.stopConditions ∧ .repeatedFailure ∉ proposed.stopConditions then
      some "repeated_failure_stop_condition_removed"
    else if current.failureLimit < proposed.failureLimit then some "failure_limit_increased"
    else none
  else if reason = "finite_work_terminal_stop" then
    if .finiteWorkTerminal ∈ current.stopConditions ∧
        .finiteWorkTerminal ∉ proposed.stopConditions then
      some "finite_work_stop_condition_removed"
    else none
  else none

/-- `_draft_requests_explicit_resume`. -/
def draftRequestsExplicitResume (draft : ColleagueDraft) : Bool :=
  draft.diff.any fun item =>
    decide (item.diffSection = .policy ∧ item.path = "explicit_resume" ∧
      item.classification = .expanded) && item.after.pyEq (.bool true)

-- ════════════════════════════════════════════════════════════════════════
-- Confirmation
-- ════════════════════════════════════════════════════════════════════════

/-- What a confirmation found and what it made of it. -/
structure AppliedConfiguration where
  currentPolicy : Option ColleaguePolicy
  profile : Profile
  mandate : Mandate
  policy : ColleaguePolicy
  policyChanged : Bool

/-- The next profile, when a draft changes its content. -/
def applyProfile (s : BuilderTables) (current : Profile) (draft : ColleagueDraft)
    (actor : Principal) (occurredAt : Instant) : Outcome (Profile × BuilderTables) :=
  if sameProfileContent current draft.proposedProfile then .ok (current, s)
  else do
    let applied := { draft.proposedProfile with
      revision := current.revision + 1
      updatedBy := actor
      updatedAt := occurredAt }
    let profiles ← s.profiles.updateRecord applied current.revision
    pure (applied, { s with profiles := profiles })

/-- The next mandate, when a draft changes its content. -/
def applyMandate (s : BuilderTables) (current : Mandate) (draft : ColleagueDraft)
    (actor : Principal) (occurredAt : Instant) : Outcome (Mandate × BuilderTables) :=
  if sameMandateContent current draft.proposedMandate then .ok (current, s)
  else if hissued : actor.kind = .human then do
    let applied := { draft.proposedMandate with
      revision := current.revision + 1
      issuedBy := actor
      effectiveAt := occurredAt
      issued_by_human := hissued }
    let mandates ← s.mandates.updateRecord applied current.revision
    pure (applied, { s with mandates := mandates })
  else .error (.authorization "an authoritative Mandate must be issued by a human")

/-- Whether a draft changes the content of the policy; a first policy always does. -/
def policyChanges (current : Option ColleaguePolicy) (draft : ColleagueDraft) : Bool :=
  match current with
  | none => true
  | some policy => !samePolicyContent policy draft.proposedPolicy

/-- The next policy, bound to the applied mandate. -/
def applyPolicy (s : BuilderTables) (current : Option ColleaguePolicy) (mandate : Mandate)
    (draft : ColleagueDraft) (actor : Principal) (occurredAt : Instant) :
    Outcome (ColleaguePolicy × BuilderTables) :=
  if hissued : actor.kind = .human then do
    let proposed := { draft.proposedPolicy with
      mandateId := mandate.mandateId
      mandateRevision := mandate.revision
      revision := current.elim 0 ColleaguePolicy.revision + 1
      issuedBy := actor
      effectiveAt := occurredAt
      issued_by_human := hissued }
    let policies ← match current with
      | none => s.policies.insertRecord proposed
      | some policy => s.policies.updateRecord proposed policy.revision
    pure (proposed, { s with policies := policies })
  else .error (.authorization "authoritative colleague policy must be issued by a human")

/-- The records a confirmation writes. -/
def applyConfiguration (s : BuilderTables) (draft : ColleagueDraft) (actor : Principal)
    (occurredAt : Instant) : Outcome (AppliedConfiguration × BuilderTables) := do
  let currentProfile ← s.profiles.getRecord draft.proposedProfile.profileId
  let currentMandate ← s.mandates.getRecord draft.proposedMandate.mandateId
  let currentPolicy ← s.getActivePolicy
  let policyChanged := policyChanges currentPolicy draft
  require (¬(sameProfileContent currentProfile draft.proposedProfile = true ∧
      sameMandateContent currentMandate draft.proposedMandate = true ∧ policyChanged = false))
    (.validation "confirmation requires an explicit change")
  let (profile, s) ← s.applyProfile currentProfile draft actor occurredAt
  let (mandate, s) ← s.applyMandate currentMandate draft actor occurredAt
  let (policy, s) ←
    match policyChanged, currentPolicy with
    | false, some policy => pure (policy, s)
    | _, _ => s.applyPolicy currentPolicy mandate draft actor occurredAt
  pure (⟨currentPolicy, profile, mandate, policy, policyChanged⟩, s)

/-- `_record_explicit_resume`. -/
def recordExplicitResume (s : BuilderTables) (draft : ColleagueDraft) (policy : ColleaguePolicy)
    (actor : Principal) (occurredAt : Instant) : Outcome BuilderTables :=
  s.insertPolicyOutcome
    { outcomeId := .explicitResume draft.draftId draft.revision
      policyId := policy.policyId
      policyRevision := policy.revision
      mandateId := policy.mandateId
      mandateRevision := policy.mandateRevision
      stage := .stop
      outcome := .explicitResume
      triggerClass := none
      sourceId := some draft.draftId
      actorPrincipalId := actor.principalId
      correlationId := draft.correlationId
      causationId := draft.draftId
      occurredAt := occurredAt }

/-- The run state after a confirmation. A stopped colleague stays stopped unless
    the draft asks to resume and revises what stopped it. -/
def confirmRunState (s : BuilderTables) (draft : ColleagueDraft) (applied : AppliedConfiguration)
    (actor : Principal) (occurredAt : Instant) : Outcome BuilderTables :=
  let upsert (policy : ColleaguePolicy) (reason : String) : BuilderTables :=
    s.upsertRunState policy actor draft.correlationId draft.draftId occurredAt reason
  match s.runState with
  | none => .ok (upsert applied.policy
      (if applied.policy.runState = .stopped then "explicit_admin_stop" else "policy_initialized"))
  | some run =>
    match run.state with
    | .stopped => do
      let current ← orFail applied.currentPolicy
        (.conflict "durable stopped state has no active policy")
      let resumeChange := explicitResumeChange run.reason current applied.policy
      let resumeRequested := draftRequestsExplicitResume draft
      require (¬(resumeRequested = true ∧ resumeChange = none))
        (.validation "explicit resume must revise the applicable stop policy")
      if resumeRequested = true ∧ resumeChange ≠ none ∧ applied.policyChanged = true then
        (upsert applied.policy "explicit_resume").recordExplicitResume draft applied.policy actor
          occurredAt
      else if applied.policyChanged = true then
        pure (upsert { applied.policy with runState := .stopped } run.reason)
      else pure s
    | .active =>
      if applied.policyChanged = true then
        .ok (upsert applied.policy
          (if applied.policy.runState = .stopped then "explicit_admin_stop"
            else "policy_revision_confirmed"))
      else .ok s

end BuilderTables

/-- The arguments of `confirm_draft`. -/
structure ConfirmDraftCommand where
  draftId : StableId
  expectedDraftRevision : ℕ
  expectedBaseRevisions : BaseRevisions
  expectedCanonicalDigest : Digest
  actor : Principal
  idempotencyKey : StableId
  requestDigest : Digest
  confirmationId : StableId
  occurredAt : Instant
  changeDecisionId : Option StableId

/-- The confirmation of a draft whose base is current. -/
def confirmCurrentDraft (tenant : TenantTables) (s : BuilderTables) (colleagueId : StableId)
    (draft : ColleagueDraft) (cmd : ConfirmDraftCommand) :
    Outcome (ConfirmationResult × TenantTables × BuilderTables) := do
  let tenant ← tenant.authorizeDraftConfirmation colleagueId draft cmd.actor cmd.changeDecisionId
    cmd.occurredAt
  let (applied, s) ← s.applyConfiguration draft cmd.actor cmd.occurredAt
  let confirmed ← BuilderTables.draftIn draft .confirmed cmd.occurredAt
  let s ← (s.writeDraft confirmed).confirmRunState draft applied cmd.actor cmd.occurredAt
  let result : ConfirmationResult :=
    { draftId := draft.draftId
      draftRevision := draft.revision
      profileRevision := applied.profile.revision
      mandateRevision := applied.mandate.revision
      policyRevision := applied.policy.revision
      canonicalDigest := draft.canonicalDigest }
  let confirmations ← orFail (s.confirmations.insert?
    { confirmationId := cmd.confirmationId
      idempotencyKey := cmd.idempotencyKey
      requestDigest := cmd.requestDigest
      result := result
      actorPrincipalId := cmd.actor.principalId
      occurredAt := cmd.occurredAt }) .integrity
  pure (result, tenant, { s with confirmations := confirmations })

/-- `confirm_draft` of the governed store. A draft whose base is gone is marked
    stale, and then the confirmation raises. -/
def confirmDraft (tenant : TenantTables) (s : BuilderTables) (colleagueId : StableId)
    (cmd : ConfirmDraftCommand) :
    Outcome (Outcome ConfirmationResult × TenantTables × BuilderTables) := do
  BuilderTables.requireAdmin tenant cmd.actor
  match s.confirmations.rows.find? fun c => decide (c.idempotencyKey = cmd.idempotencyKey) with
  | some replay =>
    require (replay.requestDigest = cmd.requestDigest)
      (.replayConflict "confirmation idempotency key was rebound")
    pure (.ok replay.result, tenant, s)
  | none =>
    let draft ← s.getDraft cmd.draftId
    require (draft.revision = cmd.expectedDraftRevision ∧
        draft.baseRevisions = cmd.expectedBaseRevisions ∧
        draft.canonicalDigest = cmd.expectedCanonicalDigest)
      (.staleConflict "exact draft confirmation binding is stale")
    require (draft.state = .reviewable)
      (.staleConflict "only an exact reviewable draft can be confirmed")
    let current ← s.currentRevisions draft
    if current = cmd.expectedBaseRevisions then
      let (result, tenant, s) ← confirmCurrentDraft tenant s colleagueId draft cmd
      pure (.ok result, tenant, s)
    else
      let s ← s.markStale draft cmd.occurredAt
      pure (.error BuilderTables.staleBase, tenant, s)

end DigitalColleagues
