import DigitalColleagues.Deployments.Activation
import DigitalColleagues.Deployments.Persistence

/-!
# The lifecycle table of deployments

Transitions follow the lifecycle table, a revocation blocks active deployments,
and a confirmed upgrade or rollback makes a deployment a draft again. Nothing but
such a confirmation moves a retired deployment, and a deployment that was blocked
because its package was revoked is never active with that package again.

## Main results

- `lifecycle_follows_table` — the laws
- `retired_deployment_rebound` — a retired deployment that becomes a draft again
-/

namespace DigitalColleagues

open DeploymentTables

-- ════════════════════════════════════════════════════════════════════════
-- One step
-- ════════════════════════════════════════════════════════════════════════

/-- The action is the revocation of a package. -/
def HostAction.Revokes (a : HostAction) : Prop :=
  ∃ ctx version expectedRevision idempotencyKey looks,
    a = .call ctx (.package .revoke version expectedRevision idempotencyKey) looks

/-- The action confirms an upgrade or rollback draft of a deployment, and is not known
    to the replay ledger. -/
def ConfirmsRebinding (s : HostState) (a : HostAction) (k : StableId × StableId) : Prop :=
  ∃ ctx deploymentId draftId request looks row,
    a = .call ctx (.confirm deploymentId draftId request) looks ∧
    k = (ctx.tenantId, deploymentId) ∧
    s.tables.deployments.replays.find? ((Call.confirm deploymentId draftId request).replayKey ctx) =
      none ∧
    s.tables.deployments.drafts.find? (ctx.tenantId, deploymentId, draftId) = some row ∧
    row.kind ≠ .create

/-- The changes that the lifecycle of a deployment may take. -/
inductive LawfulChange (s : HostState) (a : HostAction) (k : StableId × StableId) :
    DeploymentLifecycle → DeploymentLifecycle → Prop
  | table {old new : DeploymentLifecycle} (h : new ∈ allowedLifecycleTransitions old) :
      LawfulChange s a k old new
  | revocation (h : a.Revokes) : LawfulChange s a k .active .blocked
  | rebinding {old : DeploymentLifecycle} (h : ConfirmsRebinding s a k) (hold : old ≠ .retired) :
      LawfulChange s a k old .draft

/-- A retired deployment is found at a key. -/
def Retired (s : DeploymentTables) (k : StableId × StableId) : Prop :=
  ∃ row, s.deployments.find? k = some row ∧ row.lifecycle = .retired

/-- Nothing can be reached from the retired state. -/
theorem not_mem_allowed_retired (lifecycle : DeploymentLifecycle) :
    lifecycle ∉ allowedLifecycleTransitions .retired :=
  List.not_mem_nil

/-- The kind of a draft is what it was when a call looked at it. -/
theorem confirmsRebinding_of_confirms {ports : HostPorts} {s : HostState} (hs : PastExtended s)
    {ctx : CallContext} {deploymentId draftId : StableId} {request : ExactDraftConfirmation}
    {looks : List ℕ} {draft : DeploymentDraft} {row : DeploymentDraftRow}
    (h : Confirms ports s ctx deploymentId draftId request looks draft row)
    (hkind : draft.kind ≠ .create) :
    ConfirmsRebinding s (.call ctx (.confirm deploymentId draftId request) looks)
      (ctx.tenantId, deploymentId) := by
  obtain ⟨message, hbound⟩ := h.bound
  obtain ⟨old, hold, hfields, _⟩ := boundDraft_eq_ok hbound
  obtain ⟨new, hnew, hcontinues⟩ := (look_extends hs looks 1).drafts _ _ hold
  obtain rfl := Option.some.inj (h.found.symm.trans hnew)
  refine ⟨ctx, deploymentId, draftId, request, looks, row, rfl, rfl, h.fresh, h.found, ?_⟩
  obtain ⟨⟨_, _, _, hrow⟩, _⟩ := hcontinues
  rw [hrow]
  rwa [hfields] at hkind

section Steps

variable {ports : HostPorts} {s : HostState} {a : HostAction} {t : HostTables}
  {k : StableId × StableId} {old new : DeploymentRow}

/-- What a step does to the lifecycle of a deployment that is there. -/
theorem DeploymentStep.lawful (hs : PastExtended s)
    (hold : s.tables.deployments.deployments.find? k = some old)
    (h : DeploymentStep ports s a t (some old) (some new))
    (hlaw : ¬(ConfirmsRebinding s a k ∧ Retired s.tables.deployments k)) :
    (old.lifecycle ≠ new.lifecycle → LawfulChange s a k old.lifecycle new.lifecycle) ∧
      (old.lifecycle = .retired → new = old) := by
  cases h with
  | same => exact ⟨fun hne => absurd rfl hne, fun _ => rfl⟩
  | blocked seen fields bound =>
    have hactive : old.lifecycle = .active := (of_decide_eq_true (List.mem_filter.mp bound).2).2.2
    rw [hactive]
    exact ⟨fun _ => .revocation ⟨_, _, _, _, _, rfl⟩, fun h => absurd h (by simp)⟩
  | rebound confirms kind key base well =>
    have hconfirms := confirmsRebinding_of_confirms hs confirms kind
    rw [← key, Table.key_of_find? hold] at hconfirms
    have hnot : old.lifecycle ≠ .retired := fun h => hlaw ⟨hconfirms, old, hold, h⟩
    exact ⟨fun _ => .rebinding hconfirms hnot, fun h => absurd h hnot⟩
  | transitioned parsed starts well checked free =>
    refine ⟨fun _ => .table starts.allowed, fun h => ?_⟩
    have hallowed := starts.allowed
    rw [h] at hallowed
    exact absurd hallowed (not_mem_allowed_retired _)

/-- A confirmation that the replay ledger does not know makes a deployment a draft. -/
theorem draft_of_confirmsRebinding (hs : PastExtended s) (h : HostMove ports s a t)
    (hconfirms : ConfirmsRebinding s a k)
    (hold : s.tables.deployments.deployments.find? k = some old) :
    ∃ new, t.deployments.deployments.find? k = some new ∧ new.lifecycle = .draft := by
  obtain ⟨ctx, deploymentId, draftId, request, looks, row, rfl, rfl, hnone, _, _⟩ := hconfirms
  cases h with
  | idle same elsewhere => exact elsewhere.elim
  | replayed requested recorded =>
    rcases recorded with ⟨row, hrow, _⟩ | ⟨row, hrow, _⟩
    · have hkept := (look_extends hs looks 1).replays _ _ hrow
      exact absurd (hnone.symm.trans hkept) (by simp)
    · exact absurd (hnone.symm.trans hrow) (by simp)
  | call requested authority fresh effect =>
    cases effect with
    | @confirmed _ _ _ _ draft deployment _ _ d bound effect =>
      obtain ⟨htenant, hdeployment, _⟩ := boundDraft_key bound
      have hbinds := effect.binds
      show ∃ new, d.deployments.find? _ = some new ∧ _
      generalize d.deployments = deployments, deployment.toDeploymentFields = fields at hbinds
      cases hbinds with
      | created kind absent base colleague well insert =>
        rw [htenant, hdeployment] at absent
        exact absurd (absent.symm.trans hold) (by simp)
      | @rebound row kind found base readable well =>
        rw [htenant, hdeployment] at found
        obtain rfl := Option.some.inj (hold.symm.trans found)
        let moved := inactiveRow (reboundDeployment draft old.toDeploymentFields) draft.author
        have hfound := Table.find?_of_mem (Table.mem_of_find? hold)
        refine ⟨moved, ?_, rfl⟩
        rw [← Table.key_of_find? hold]
        exact Table.find?_replace_self (r := moved) hfound

theorem lawful_iff_of_move (hs : PastExtended s) (h : HostMove ports s a t)
    (hold : s.tables.deployments.deployments.find? k = some old) :
    ∃ new, t.deployments.deployments.find? k = some new ∧
      (((old.lifecycle ≠ new.lifecycle → LawfulChange s a k old.lifecycle new.lifecycle) ∧
        (old.lifecycle = .retired → new = old)) ↔
      ¬(ConfirmsRebinding s a k ∧ Retired s.tables.deployments k)) := by
  obtain ⟨new, hnew, _⟩ := persists_deployments h k old hold
  refine ⟨new, hnew, ?_, fun hlaw => ?_⟩
  · rintro ⟨_, hfinal⟩ ⟨hconfirms, row, hrow, hretired⟩
    obtain rfl := Option.some.inj (hold.symm.trans hrow)
    obtain ⟨moved, hmoved, hdraft⟩ := draft_of_confirmsRebinding hs h hconfirms hold
    obtain rfl := Option.some.inj (hnew.symm.trans hmoved)
    rw [hfinal hretired, hretired] at hdraft
    exact absurd hdraft (by simp)
  · have hstep := deploymentStep_of_move h k
    rw [hold, hnew] at hstep
    exact hstep.lawful hs hold hlaw

end Steps

-- ════════════════════════════════════════════════════════════════════════
-- Blocked for good
-- ════════════════════════════════════════════════════════════════════════

/-- Packages that share a digest are the same version of the same package. -/
def HostPorts.Identifies (ports : HostPorts) (digest : Digest) : Prop :=
  ∀ p q, ports.packageDigest p = digest → ports.packageDigest q = digest →
    p.packageId = q.packageId ∧ p.version = q.version

/-- A deployment whose package was revoked, and which is not active with the digest of
    that package. -/
structure BarredFrom (s : DeploymentTables) (k : StableId × StableId) (version : PackageVersion) :
    Prop where
  revoked : Revoked s (k.1, version)
  inactive : ∃ row, s.deployments.find? k = some row ∧
    (row.lifecycle = .active → row.package.digest ≠ version.digest)

section Barred

variable {ports : HostPorts} {s : HostState} {a : HostAction} {t : HostTables}
  {k : StableId × StableId}

/-- A row that is read back as a package is about a package with its digest. -/
theorem PackageRow.digest_of_wellFormed {row : PackageRow} {tenantId : StableId}
    {version : PackageVersion} (hwell : row.WellFormed ports.packageDigest)
    (hkey : Keyed.key row = (tenantId, version)) :
    ports.packageDigest row.package = version.digest ∧
      row.package.packageId = version.packageId ∧ row.package.version = version.version := by
  obtain ⟨_, rfl⟩ := Prod.mk.inj hkey
  exact ⟨hwell.bound, rfl, rfl⟩

/-- A revocation that blocks a deployment bars it from its package. -/
theorem barred_of_revocation (h : HostMove ports s a t) (hrevokes : a.Revokes)
    {old new : DeploymentRow} (hold : s.tables.deployments.deployments.find? k = some old)
    (hnew : t.deployments.deployments.find? k = some new) (hactive : old.lifecycle = .active)
    (hblocked : new.lifecycle = .blocked) :
    BarredFrom t.deployments k old.package ∧
      ∃ p, ports.packageDigest p = old.package.digest ∧ p.packageId = old.package.packageId ∧
        p.version = old.package.version := by
  have hmoved : ∀ row, row = old → new = row → False := by
    rintro _ rfl rfl
    rw [hactive] at hblocked
    exact absurd hblocked (by simp)
  obtain ⟨ctx, version, expectedRevision, idempotencyKey, looks, rfl⟩ := hrevokes
  cases h with
  | idle same elsewhere => exact elsewhere.elim
  | replayed requested recorded =>
    exact (hmoved old rfl (Option.some.inj (hnew.symm.trans hold))).elim
  | call requested authority fresh effect =>
    cases effect with
    | @changed _ _ _ _ _ record row d seen fields well effect =>
      have hdeployment := effect.deployments k
      rw [hold, Option.map_some] at hdeployment
      have hnew' := Option.some.inj (hnew.symm.trans hdeployment)
      split at hnew'
      · rename_i hbound
        obtain ⟨htenant, hpackage, _⟩ := of_decide_eq_true (List.mem_filter.mp hbound).2
        have hk : (k.1, old.package) = (record.tenantId, record.version) := by
          rw [← Table.key_of_find? hold, ← htenant, ← hpackage]
          rfl
        have hfound := effect.found
        rw [← hk] at hfound
        obtain ⟨current, hcurrent⟩ := effect.readable
        obtain ⟨_, hwell⟩ := packageFromRow_eq_ok hcurrent
        refine ⟨⟨⟨changedPackageRow record row, ?_, effect.allowed.2.1⟩, new, hnew,
          fun h => absurd (hblocked.symm.trans h) (by simp)⟩,
          row.package, PackageRow.digest_of_wellFormed hwell (Table.key_of_find? hfound)⟩
        show d.packages.find? _ = _
        have hrow := Table.find?_of_mem (Table.mem_of_find? hfound)
        rw [effect.packages, ← Table.key_of_find? hfound]
        exact Table.find?_replace_self (r := changedPackageRow record row) hrow
      · exact (hmoved old rfl hnew').elim

/-- A deployment that is barred from a package stays so. -/
theorem barred_of_move {version : PackageVersion} (h : HostMove ports s a t)
    (hunique : ∀ p, ports.packageDigest p = version.digest →
      p.packageId = version.packageId ∧ p.version = version.version)
    (hbarred : BarredFrom s.tables.deployments k version) :
    BarredFrom t.deployments k version := by
  obtain ⟨hrevoked, old, hold, hinactive⟩ := hbarred
  obtain ⟨new, hnew, _⟩ := persists_deployments h k old hold
  refine ⟨revoked_of_move h hrevoked, new, hnew, ?_⟩
  have hstep := deploymentStep_of_move h k
  rw [hold, hnew] at hstep
  cases hstep with
  | same => exact hinactive
  | blocked => exact fun h => absurd h (by simp [blockedRow])
  | rebound => exact fun h => absurd h (by simp [inactiveRow, reboundDeployment])
  | transitioned parsed starts well checked free =>
    -- the package of an activation runs, and the revoked one does not
    intro hactive hdigest
    obtain ⟨package, hpackage, hwell, hruns⟩ := starts.package
    obtain ⟨hbound, hid, hversion⟩ :=
      PackageRow.digest_of_wellFormed hwell (Table.key_of_find? hpackage)
    obtain ⟨hid', hversion'⟩ := hunique package.package (hbound.trans hdigest)
    have hsame : old.package = version :=
      PackageVersion.ext (hid.symm.trans hid') (hversion.symm.trans hversion') hdigest
    obtain ⟨revoked, hfound, hstate⟩ := hrevoked
    have htenant := (Prod.mk.inj (Table.key_of_find? starts.found)).1
    have hkey := congrArg Prod.fst (Table.key_of_find? hold)
    rw [hsame, ← htenant] at hpackage
    rw [← hkey] at hfound
    obtain rfl := Option.some.inj (hpackage.symm.trans hfound)
    have htrust := (hruns hactive).1
    rw [hstate] at htrust
    exact absurd htrust (by simp)

theorem barred_of_path {version : PackageVersion} {s t : HostState}
    {tr : List (Transition HostState HostAction)}
    (hunique : ∀ p, ports.packageDigest p = version.digest →
      p.packageId = version.packageId ∧ p.version = version.version)
    (h : (host ports).Path s tr t) (hbarred : BarredFrom s.tables.deployments k version) :
    BarredFrom t.tables.deployments k version := by
  refine h.invariant (I := fun s => BarredFrom s.tables.deployments k version) ?_ hbarred
  exact fun s a t hs hstep => barred_of_move (hostMove_of_exec hstep) hunique hs

end Barred

-- ════════════════════════════════════════════════════════════════════════
-- The laws
-- ════════════════════════════════════════════════════════════════════════

/-- **The lifecycle follows its table** and what is retired stays, at every step but the
    confirmation of an upgrade or rollback of a retired deployment; and no run makes a
    deployment that a revocation blocked active with that package again. -/
theorem lifecycle_follows_table (ports : HostPorts) :
    (∀ s a t k old, (host ports).Reachable s → (host ports).step s a t →
      s.tables.deployments.deployments.find? k = some old →
      ∃ new, t.tables.deployments.deployments.find? k = some new ∧
        (((old.lifecycle ≠ new.lifecycle → LawfulChange s a k old.lifecycle new.lifecycle) ∧
          (old.lifecycle = .retired → new = old)) ↔
        ¬(ConfirmsRebinding s a k ∧ Retired s.tables.deployments k))) ∧
    (∀ s a t k old new, (host ports).step s a t → a.Revokes →
      s.tables.deployments.deployments.find? k = some old →
      t.tables.deployments.deployments.find? k = some new →
      old.lifecycle = .active → new.lifecycle = .blocked →
      ports.Identifies old.package.digest →
      ∀ u tr, (host ports).Path t tr u → ∀ row,
        u.tables.deployments.deployments.find? k = some row →
        row.lifecycle = .active → row.package.digest ≠ old.package.digest) := by
  constructor
  · intro s a t k old hs hstep hold
    exact lawful_iff_of_move (pastExtended_of_reachable hs) (hostMove_of_exec hstep) hold
  · intro s a t k old new hstep hrevokes hold hnew hactive hblocked hidentifies u tr hpath row hrow
    obtain ⟨hbarred, p, hp, hid, hversion⟩ :=
      barred_of_revocation (hostMove_of_exec hstep) hrevokes hold hnew hactive hblocked
    have hunique : ∀ q, ports.packageDigest q = old.package.digest →
        q.packageId = old.package.packageId ∧ q.version = old.package.version := by
      intro q hq
      obtain ⟨hqid, hqversion⟩ := hidentifies q p hq hp
      exact ⟨hqid.trans hid, hqversion.trans hversion⟩
    obtain ⟨_, row', hrow', hinactive⟩ := barred_of_path hunique hpath hbarred
    obtain rfl := Option.some.inj (hrow.symm.trans hrow')
    exact hinactive

/-- What a step does to the lifecycle of the sample deployment. -/
def stepsLifecycle (ports : HostPorts) (s : HostState) (a : HostAction) (k : StableId × StableId)
    (old new : DeploymentLifecycle) : Bool :=
  match s.exec ports a with
  | .ok t =>
    (s.tables.deployments.deployments.find? k).any (fun row => row.lifecycle = old) &&
      (t.tables.deployments.deployments.find? k).any fun row => row.lifecycle = new
  | .error _ => false

theorem exists_of_stepsLifecycle {ports : HostPorts} {s : HostState} {a : HostAction}
    {k : StableId × StableId} {old new : DeploymentLifecycle}
    (h : stepsLifecycle ports s a k old new = true) :
    ∃ t row row', (host ports).step s a t ∧
      s.tables.deployments.deployments.find? k = some row ∧ row.lifecycle = old ∧
      t.tables.deployments.deployments.find? k = some row' ∧ row'.lifecycle = new := by
  unfold stepsLifecycle at h
  split at h
  · rename_i t hexec
    simp only [Bool.and_eq_true, Option.any_eq_true, decide_eq_true_eq] at h
    obtain ⟨⟨row, hrow, hold⟩, row', hrow', hnew⟩ := h
    exact ⟨t, row, row', hexec, hrow, hold, hrow', hnew⟩
  · exact absurd h (by simp)

/-- A deployment that is retired, and an upgrade of it that is reviewed. -/
def sampleRetiredUpgrade : List (HostState → HostAction) :=
  sampleDeployed ++ [sampleTransition 70 "retired" 1 7 "key-1"] ++
    sampleInstalled [0] legacyVersion 80 "key-2" ++
    (sampleUpgrade legacyVersion 2 90 "key-2").dropLast

def sampleUpgradeConfirmation : HostAction :=
  .call (sampleCaller 92) (.confirm (stableId "deployment-1") (sampleRebindingId "key-2")
    ⟨2, 12, sampleId "key-2"⟩) []

set_option maxRecDepth 8000 in
/-- A retired deployment becomes a draft. -/
theorem retired_deployment_rebound : ∃ s a t k old new, (host sampleHostPorts).Reachable s ∧
    (host sampleHostPorts).step s a t ∧ s.tables.deployments.deployments.find? k = some old ∧
    old.lifecycle = .retired ∧ t.tables.deployments.deployments.find? k = some new ∧
    new.lifecycle = .draft := by
  obtain ⟨tr, s, hpath, hs⟩ := exists_host_path sampleHostPorts sampleRetiredUpgrade
    (fun _ s => stepsLifecycle sampleHostPorts s sampleUpgradeConfirmation
      (sampleTenant, stableId "deployment-1") .retired .draft) (by decide +kernel)
  obtain ⟨t, old, new, hstep, hold, hretired, hnew, hdraft⟩ := exists_of_stepsLifecycle hs
  exact ⟨s, _, t, _, old, new, hpath.reachable (.init rfl), hstep, hold, hretired, hnew, hdraft⟩

theorem identifies_legacy : sampleHostPorts.Identifies legacyPackageDigest := by
  have hlegacy : ∀ p, sampleHostPorts.packageDigest p = legacyPackageDigest →
      p = legacyPackage := by
    intro p hp
    by_contra hne
    have hp : (if p = legacyPackage then legacyPackageDigest else 7) = legacyPackageDigest := hp
    rw [if_neg hne] at hp
    exact absurd hp (by decide)
  intro p q hp hq
  rw [hlegacy p hp, hlegacy q hq]
  exact ⟨rfl, rfl⟩

def sampleRevocation : HostAction :=
  .call (sampleCaller 50) (.package .revoke legacyVersion 1 (sampleId "key-3")) []

set_option maxRecDepth 8000 in
/-- The revocation of the legacy package blocks the initial colleague, for good. -/
theorem lifecycle_follows_table_sample : ∃ s t k, (host sampleHostPorts).Reachable s ∧
    (host sampleHostPorts).step s sampleRevocation t ∧
    ∀ u tr, (host sampleHostPorts).Path t tr u → ∀ row,
      u.tables.deployments.deployments.find? k = some row → row.lifecycle = .active →
        row.package.digest ≠ legacyPackageDigest := by
  obtain ⟨tr, s, hpath, hs⟩ := exists_host_path sampleHostPorts
    (sampleHostBootstrap ++ [sampleInitialColleague 40])
    (fun _ s => s.tables.deployments.deployments.rows.any fun row : DeploymentRow =>
      decide (row.package.digest = legacyPackageDigest) &&
        (decide (s.tables.deployments.deployments.find? (Keyed.key row) = some row) &&
          stepsLifecycle sampleHostPorts s sampleRevocation (Keyed.key row) .active .blocked))
    (by decide +kernel)
  simp only [List.any_eq_true, Bool.and_eq_true, decide_eq_true_eq] at hs
  obtain ⟨row, _, hdigest, hfound, hs⟩ := hs
  obtain ⟨t, old, new, hstep, hold, hactive, hnew, hblocked⟩ := exists_of_stepsLifecycle hs
  obtain rfl := Option.some.inj (hold.symm.trans hfound)
  refine ⟨s, t, Keyed.key old, hpath.reachable (.init rfl), hstep, ?_⟩
  rw [← hdigest]
  exact (lifecycle_follows_table sampleHostPorts).2 s _ t _ old new hstep ⟨_, _, _, _, _, rfl⟩ hold
    hnew hactive hblocked (hdigest.symm ▸ identifies_legacy)

end DigitalColleagues
