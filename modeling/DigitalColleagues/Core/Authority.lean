import DigitalColleagues.Core.Principals

/-!
# Profiles and mandates

The descriptive profile and the revisioned authoritative mandate of one
colleague. The four collections of a mandate are non-empty and have unique
identifiers.
-/

namespace DigitalColleagues

/-- Descriptive presentation data; never an authority source. -/
structure Profile where
  profileId : StableId
  displayName : String
  description : String
  presentation : FrozenJsonObject
  revision : ℕ
  updatedBy : Principal
  updatedAt : Instant

structure ResponsibilityDefinition where
  responsibilityId : StableId
  description : String
  obligations : List String
  completionConditions : List String
deriving DecidableEq

structure CapabilityGrant where
  capabilityId : StableId
  description : String
deriving DecidableEq

structure Constraint where
  constraintId : StableId
  description : String
deriving DecidableEq

inductive EffectKind
  | referenceMessage
  | internalRecord
  | notification
deriving DecidableEq

structure EffectBoundary where
  boundaryId : StableId
  effectKind : EffectKind
  allowedDestinationKinds : List String
  allowedActions : List String
  constraints : FrozenJsonObject
  humanApprovalRequired : Bool

/-- `_freeze_unique_records`: not empty, and no identifier twice. -/
def UniqueRecords {α : Type} (identifier : α → StableId) (records : List α) : Prop :=
  records ≠ [] ∧ (records.map identifier).Nodup

instance {α : Type} (identifier : α → StableId) (records : List α) :
    Decidable (UniqueRecords identifier records) :=
  decidable_of_iff (records.isEmpty = false ∧ (records.map identifier).Nodup) <| by
    simp [UniqueRecords]

/-- The sole authoritative colleague grant. -/
structure Mandate where
  mandateId : StableId
  mission : String
  serviceRelationship : String
  responsibilities : List ResponsibilityDefinition
  capabilities : List CapabilityGrant
  constraints : List Constraint
  workingContext : FrozenJsonObject
  effectBoundaries : List EffectBoundary
  revision : ℕ
  issuedBy : Principal
  effectiveAt : Instant
  responsibilities_unique :
    UniqueRecords ResponsibilityDefinition.responsibilityId responsibilities := by decide
  capabilities_unique : UniqueRecords CapabilityGrant.capabilityId capabilities := by decide
  constraints_unique : UniqueRecords Constraint.constraintId constraints := by decide
  effectBoundaries_unique : UniqueRecords EffectBoundary.boundaryId effectBoundaries := by decide
  issued_by_human : issuedBy.kind = .human := by decide

end DigitalColleagues
