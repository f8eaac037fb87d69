import DigitalColleagues.Deployments.Rows

/-!
# The trail of the causal audit

Every new revision of a package, of a draft and of a deployment is due to one
step, which writes one audit row about it in the name of its actor. Two kinds of
step do not: the creation of an initial colleague, and the confirmation of a draft
as far as the draft goes.

## Main definitions

- `AuditedRecord` — what the audit is about
- `HostAction.Silent` — the steps that write no audit row of a record
- `RecordStep` — what a step does to a record and to its audit
-/

namespace DigitalColleagues

open DeploymentTables

-- ════════════════════════════════════════════════════════════════════════
-- Records
-- ════════════════════════════════════════════════════════════════════════

/-- The records that the audit is about. -/
inductive AuditedRecord
  | package (tenantId : StableId) (version : PackageVersion)
  | draft (tenantId deploymentId draftId : StableId)
  | deployment (tenantId deploymentId : StableId)

/-- The package digest that a projection shows. -/
def AuditProjection.packageDigest : AuditProjection → Option Digest
  | .registered packageDigest _ => some packageDigest
  | .package packageDigest => some packageDigest
  | _ => none

namespace AuditedRecord

/-- The revision of a record, 0 for one that is not there. -/
def revision (s : DeploymentTables) : AuditedRecord → ℕ
  | .package tenantId version => s.packages.valueAt (fun r => r.revision) (tenantId, version)
  | .draft tenantId deploymentId draftId =>
    s.drafts.valueAt (fun r => r.revision) (tenantId, deploymentId, draftId)
  | .deployment tenantId deploymentId =>
    s.deployments.valueAt (fun r => r.revision) (tenantId, deploymentId)

/-- An audit entry names a record. The identifier of a package has no digest in it,
    which only the projection shows. -/
def Named (e : AuditEntry) : AuditedRecord → Prop
  | .package tenantId version =>
    e.recordType = .agentPackage ∧ e.tenantId = tenantId ∧ e.ns = .tenant ∧
      e.recordId = version.packageId.val ++ ":" ++ version.version ∧
      isCanonicalVersion version.version = true ∧
      e.projection.packageDigest = some version.digest
  | .draft tenantId deploymentId draftId =>
    e.recordType = .deploymentDraft ∧ e.tenantId = tenantId ∧ e.ns = .colleague deploymentId ∧
      e.recordId = draftId.val
  | .deployment tenantId deploymentId =>
    e.recordType = .colleagueDeployment ∧ e.tenantId = tenantId ∧ e.ns = .colleague deploymentId ∧
      e.recordId = deploymentId.val

/-- An audit entry is about a change of a record, and not about a refusal. -/
def Changed (e : AuditEntry) (x : AuditedRecord) : Prop :=
  x.Named e ∧ e.result ≠ TransitionCommand.limitReached

end AuditedRecord

open AuditedRecord

/-- A version has no colon, so the last one ends the identifier of the package. -/
theorem packageText_inj {packageId packageId' version version' : String}
    (h : isCanonicalVersion version = true) (h' : isCanonicalVersion version' = true)
    (heq : packageId ++ ":" ++ version = packageId' ++ ":" ++ version') :
    packageId = packageId' ∧ version = version' := by
  have hfree : ∀ v : String, isCanonicalVersion v = true → ':' ∉ v.toList := by
    intro v hv hmem
    rcases isDigit_of_isCanonicalVersion hv hmem with hdot | hdigit
    · exact absurd hdot (by decide)
    · exact absurd hdigit (by decide)
  have hlists := congrArg (fun t : String => Text.rpartition ':' t.toList) heq
  simp only [String.toList_append, List.append_assoc] at hlists
  rw [show ":".toList = [':'] from rfl, List.singleton_append, List.singleton_append,
    Text.rpartition_append _ (hfree _ h), Text.rpartition_append _ (hfree _ h')] at hlists
  obtain ⟨hid, hversion⟩ := Prod.mk.inj (Option.some.inj hlists)
  exact ⟨String.toList_injective hid, String.toList_injective hversion⟩

/-- An audit entry names one record at most. -/
theorem named_unique {e : AuditEntry} {x y : AuditedRecord} (hx : x.Named e) (hy : y.Named e) :
    x = y := by
  cases x with
  | package tenantId version =>
    cases y with
    | package tenantId' version' =>
      obtain ⟨_, rfl, _, hid, hcanonical, hdigest⟩ := hx
      obtain ⟨_, rfl, _, hid', hcanonical', hdigest'⟩ := hy
      obtain ⟨hpackage, hversion⟩ := packageText_inj hcanonical hcanonical' (hid.symm.trans hid')
      have hsame : version = version' := PackageVersion.ext (Subtype.ext hpackage) hversion
        (Option.some.inj (hdigest.symm.trans hdigest'))
      rw [hsame]
    | draft => exact absurd (hx.1.symm.trans hy.1) (by simp)
    | deployment => exact absurd (hx.1.symm.trans hy.1) (by simp)
  | draft tenantId deploymentId draftId =>
    cases y with
    | package => exact absurd (hx.1.symm.trans hy.1) (by simp)
    | draft tenantId' deploymentId' draftId' =>
      obtain ⟨_, rfl, hns, hid⟩ := hx
      obtain ⟨_, rfl, hns', hid'⟩ := hy
      obtain rfl := Namespace.colleague.inj (hns.symm.trans hns')
      obtain rfl := Subtype.ext (hid.symm.trans hid')
      rfl
    | deployment => exact absurd (hx.1.symm.trans hy.1) (by simp)
  | deployment tenantId deploymentId =>
    cases y with
    | package => exact absurd (hx.1.symm.trans hy.1) (by simp)
    | draft => exact absurd (hx.1.symm.trans hy.1) (by simp)
    | deployment tenantId' deploymentId' =>
      obtain ⟨_, rfl, hns, _⟩ := hx
      obtain ⟨_, rfl, hns', _⟩ := hy
      obtain rfl := Namespace.colleague.inj (hns.symm.trans hns')
      rfl

-- ════════════════════════════════════════════════════════════════════════
-- One record in one step
-- ════════════════════════════════════════════════════════════════════════

/-- Who takes an action on packages and deployments. -/
def HostAction.actor : HostAction → Option StableId
  | .createInitialColleague ctx _ => some ctx.actor.principalId
  | .call ctx _ _ => some ctx.actor.principalId
  | _ => none

/-- The actions that write no audit row about a record that they change. -/
def HostAction.Silent : HostAction → AuditedRecord → Prop
  | .createInitialColleague _ _, _ => True
  | .call _ (.confirm _ _ _) _, .draft _ _ _ => True
  | _, _ => False

/-- What a step does to a record and to the audit rows about it. -/
inductive RecordStep (s t : DeploymentTables) (a : HostAction) (x : AuditedRecord) : Prop
  | quiet (same : x.revision t = x.revision s)
      (none : ∀ e ∈ t.audits, x.Changed e.toAuditEntry → e ∈ s.audits)
  | silent (silent : a.Silent x) (next : x.revision t = x.revision s + 1)
      (none : ∀ e ∈ t.audits, x.Changed e.toAuditEntry → e ∈ s.audits)
  | audited (row : CausalAudit) (heard : ¬a.Silent x) (next : x.revision t = x.revision s + 1)
      (mem : row ∈ t.audits) (changed : x.Changed row.toAuditEntry)
      (revision : row.recordRevision = x.revision t)
      (actor : a.actor = some row.actorPrincipalId)
      (unique : ∀ e ∈ t.audits, x.Changed e.toAuditEntry → e ∈ s.audits ∨ e = row)

section Steps

variable {s t : DeploymentTables} {a : HostAction} {x y : AuditedRecord} {row : CausalAudit}

/-- A step that writes no audit row. -/
theorem recordStep_of_same (haudits : t.audits = s.audits)
    (h : x.revision t = x.revision s ∨ a.Silent x ∧ x.revision t = x.revision s + 1) :
    RecordStep s t a x := by
  rcases h with hsame | ⟨hsilent, hnext⟩
  · exact .quiet hsame fun e he _ => haudits ▸ he
  · exact .silent hsilent hnext fun e he _ => haudits ▸ he

/-- A step that writes one audit row, about a record that it changes. -/
theorem recordStep_of_insert (haudits : s.audits.insert? row = some t.audits)
    (hchanged : y.Changed row.toAuditEntry) (heard : ¬a.Silent y)
    (hnext : y.revision t = y.revision s + 1) (hrevision : row.recordRevision = y.revision t)
    (hactor : a.actor = some row.actorPrincipalId)
    (hrest : x ≠ y → x.revision t = x.revision s ∨
      a.Silent x ∧ x.revision t = x.revision s + 1) : RecordStep s t a x := by
  by_cases hxy : x = y
  · subst hxy
    exact .audited row heard hnext ((Table.mem_insert haudits).mpr (.inr rfl)) hchanged hrevision
      hactor fun e he _ => (Table.mem_insert haudits).mp he
  · have hnone : ∀ e ∈ t.audits, x.Changed e.toAuditEntry → e ∈ s.audits := by
      intro e he hx
      rcases (Table.mem_insert haudits).mp he with he | rfl
      · exact he
      · exact absurd (named_unique hx.1 hchanged.1) hxy
    rcases hrest hxy with hsame | ⟨hsilent, hnext⟩
    · exact .quiet hsame hnone
    · exact .silent hsilent hnext hnone

/-- A step that writes one audit row, about a refusal. -/
theorem recordStep_of_refusal (haudits : s.audits.insert? row = some t.audits)
    (hresult : row.result = TransitionCommand.limitReached) (hsame : x.revision t = x.revision s) :
    RecordStep s t a x := by
  refine .quiet hsame fun e he hx => ?_
  rcases (Table.mem_insert haudits).mp he with he | rfl
  · exact he
  · exact absurd hresult hx.2

end Steps

end DigitalColleagues
