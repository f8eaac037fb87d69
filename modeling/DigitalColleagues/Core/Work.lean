import DigitalColleagues.Core.Common

/-!
# Finite work

The work items that a trigger names as its cause.
-/

namespace DigitalColleagues

inductive WorkState
  | planned
  | ready
  | inProgress
  | blocked
  | completed
  | cancelled
deriving DecidableEq, Repr

/-- A work item, as far as triggers read it. -/
structure FiniteWork where
  workId : StableId
  title : String
  state : WorkState
deriving DecidableEq

end DigitalColleagues
