import DigitalColleagues.Core.Authority
import DigitalColleagues.Core.Governance
import DigitalColleagues.Core.Policy

/-!
# Colleague drafts

A draft proposes the next profile, mandate and policy of a colleague over exact
base revisions, and carries the diff a reviewer sees.
-/

namespace DigitalColleagues

inductive DraftLifecycle
  | draft
  | reviewable
  | confirmed
  | cancelled
  | stale
deriving DecidableEq

inductive DiffSection
  | profile
  | mandate
  | policy
deriving DecidableEq

inductive DiffClassification
  | added
  | removed
  | changed
  | narrowed
  | expanded
  | unchanged
deriving DecidableEq

/-- A default that was taken because nothing else was chosen. -/
structure ExplicitDefault where
  path : String
  value : Json

/-- One reviewed change; the values are public data. -/
structure DraftDiffItem where
  diffSection : DiffSection
  path : String
  classification : DiffClassification
  before : Json
  after : Json
  authoritative : Bool

/-- The arguments of the `ColleagueDraft` constructor. -/
structure ColleagueDraftFields where
  draftId : StableId
  revision : ℕ
  baseProfileId : StableId
  baseMandateId : StableId
  basePolicyId : Option StableId
  baseRevisions : BaseRevisions
  proposedProfile : Profile
  proposedMandate : Mandate
  proposedPolicy : ColleaguePolicy
  explicitDefaults : List ExplicitDefault
  diff : List DraftDiffItem
  canonicalDigest : Digest
  state : DraftLifecycle
  author : Principal
  createdAt : Instant
  updatedAt : Instant
  correlationId : StableId
  causationId : StableId

/-- The checks of the constructor, in its order. -/
def ColleagueDraftFields.validate (f : ColleagueDraftFields) : Outcome Unit := do
  match f.basePolicyId with
  | none =>
    require (f.baseRevisions.policy = 0)
      (.coreInvariant "missing base policy ID requires revision zero")
  | some _ =>
    require (f.baseRevisions.policy ≠ 0)
      (.coreInvariant "a base policy ID requires a positive revision")
  require (f.proposedProfile.profileId = f.baseProfileId)
    (.coreInvariant "proposed Profile must retain its base identity")
  require (f.proposedMandate.mandateId = f.baseMandateId)
    (.coreInvariant "proposed Mandate must retain its base identity")
  require (∀ policyId ∈ f.basePolicyId, f.proposedPolicy.policyId = policyId)
    (.coreInvariant "proposed policy must retain its base identity")
  require (f.proposedProfile.revision = f.baseRevisions.profile + 1)
    (.coreInvariant "proposed Profile revision must follow its base")
  require (f.proposedMandate.revision = f.baseRevisions.mandate + 1)
    (.coreInvariant "proposed Mandate revision must follow its base")
  require (f.proposedPolicy.revision = f.baseRevisions.policy + 1)
    (.coreInvariant "proposed policy revision must follow its base")
  require (f.diff.isEmpty = false) (.coreInvariant "draft diff must contain typed records")
  require (f.explicitDefaults.map ExplicitDefault.path).Nodup
    (.coreInvariant "explicit default paths must be unique")
  require (f.diff.map fun item => (item.diffSection, item.path)).Nodup
    (.coreInvariant "draft diff paths must be unique within each section")
  require (f.author.kind = .human) (.authorization "a colleague draft requires a human author")
  require (f.createdAt ≤ f.updatedAt) (.coreInvariant "draft update cannot precede creation")

/-- A draft that its constructor accepted. -/
structure ColleagueDraft extends ColleagueDraftFields where
  valid : toColleagueDraftFields.validate = .ok ()

namespace ColleagueDraft

def make (f : ColleagueDraftFields) : Outcome ColleagueDraft :=
  match h : f.validate with
  | .ok () => .ok ⟨f, h⟩
  | .error e => .error e

theorem make_eq_ok {f : ColleagueDraftFields} {draft : ColleagueDraft} (h : make f = .ok draft) :
    draft.toColleagueDraftFields = f := by
  unfold make at h
  split at h
  · obtain rfl := Except.ok.inj h
    rfl
  · exact absurd h (by simp)

/-- The proposed records follow their bases by one revision and keep their identities. -/
theorem checks (draft : ColleagueDraft) :
    draft.proposedProfile.profileId = draft.baseProfileId ∧
    draft.proposedMandate.mandateId = draft.baseMandateId ∧
    (∀ policyId ∈ draft.basePolicyId, draft.proposedPolicy.policyId = policyId) ∧
    draft.proposedProfile.revision = draft.baseRevisions.profile + 1 ∧
    draft.proposedMandate.revision = draft.baseRevisions.mandate + 1 ∧
    draft.proposedPolicy.revision = draft.baseRevisions.policy + 1 := by
  have h := draft.valid
  simp only [ColleagueDraftFields.validate] at h
  split at h <;>
  · simp only [bind_eq_ok, require_eq_ok, exists_const] at h
    tauto

end ColleagueDraft

end DigitalColleagues
