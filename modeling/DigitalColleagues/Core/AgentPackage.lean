import DigitalColleagues.Core.Workflow
import DigitalColleagues.Lib.Text

/-!
# Agent packages

An immutable package: what it is called, what it asks for and the finite
workflow it describes. Nothing in it is executable.

## Main definitions

- `isCanonicalVersion` — the pattern of a version
- `AgentPackage` — a package
- `PackageVersion` — the exact identity of a package
-/

namespace DigitalColleagues

/-- The kinds of place a package comes from; the second is `LOCAL`. -/
inductive PackageSource
  | officialBuiltin
  | localFile
  | githubRelease
deriving DecidableEq

def PackageSource.value : PackageSource → String
  | .officialBuiltin => "official_builtin"
  | .localFile => "local"
  | .githubRelease => "github_release"

structure LocalizedDisplay where
  name : String
  summary : String
deriving DecidableEq

-- ════════════════════════════════════════════════════════════════════════
-- Versions
-- ════════════════════════════════════════════════════════════════════════

/-- `0|[1-9][0-9]{0,8}`. -/
def isVersionNumber (digits : List Char) : Bool :=
  digits == ['0'] ||
    (digits.all Char.isDigit && digits.head? != some '0' && 0 < digits.length &&
      digits.length ≤ 9)

/-- `_VERSION`: three numbers between dots. -/
def isCanonicalVersion (version : String) : Bool :=
  let parts := version.toList.splitOn '.'
  parts.length == 3 && parts.all isVersionNumber

theorem isDigit_of_isVersionNumber {digits : List Char} (h : isVersionNumber digits = true) :
    ∀ c ∈ digits, c.isDigit = true := by
  simp only [isVersionNumber, Bool.or_eq_true, beq_iff_eq, Bool.and_eq_true, List.all_eq_true] at h
  rcases h with rfl | ⟨⟨⟨hdigits, _⟩, _⟩, _⟩
  · intro c hc
    rw [List.mem_singleton.mp hc]
    rfl
  · exact hdigits

/-- A version has digits and dots only. -/
theorem isDigit_of_isCanonicalVersion {version : String} (h : isCanonicalVersion version = true)
    {c : Char} (hc : c ∈ version.toList) : c = '.' ∨ c.isDigit = true := by
  simp only [isCanonicalVersion, Bool.and_eq_true, List.all_eq_true] at h
  rw [← @List.intercalate_splitOn _ version.toList _ _ '.'] at hc
  refine (Text.mem_intercalate hc).imp_right ?_
  rintro ⟨part, hpart, hc⟩
  exact isDigit_of_isVersionNumber (h.2 part hpart) c hc

-- ════════════════════════════════════════════════════════════════════════
-- Packages
-- ════════════════════════════════════════════════════════════════════════

/-- `AgentPackage`, in the fields that its canonical JSON has. -/
structure AgentPackage where
  packageId : StableId
  version : String
  displayEnUs : LocalizedDisplay
  displayZhTw : LocalizedDisplay
  promptEnUs : String
  promptZhTw : String
  requestedCapabilities : List String
  workflow : DeclarativeWorkflow
  contentDigest : Digest
  version_canonical : isCanonicalVersion version = true
deriving DecidableEq

/-- The exact identity of a package: `package_id`, `package_version` and
    `package_digest`. -/
@[ext]
structure PackageVersion where
  packageId : StableId
  version : String
  digest : Digest
deriving DecidableEq

end DigitalColleagues
