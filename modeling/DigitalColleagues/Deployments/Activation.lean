import DigitalColleagues.Deployments.Rows

/-!
# Active deployments are bounded and trusted

The active deployments of a host hold distinct slots of ten, so they are ten at
most. A package that was revoked stays revoked, and its revocation leaves no
active deployment of it. An active deployment is bound to a package that runs,
as long as no initial colleague is created over a legacy package that does not.

## Main results

- `active_bounded_and_trusted` — the four laws
- `legacy_package_unchecked` — an active deployment of an untrusted package
-/

namespace DigitalColleagues

open DeploymentTables

-- ════════════════════════════════════════════════════════════════════════
-- Slots
-- ════════════════════════════════════════════════════════════════════════

/-- Two rows do not hold the same slot. -/
def DeploymentRow.Apart (row other : DeploymentRow) : Prop :=
  row.activeSlot = none ∨ other.activeSlot ≠ row.activeSlot

theorem DeploymentRow.Apart.symm {row other : DeploymentRow} (h : row.Apart other) :
    other.Apart row := by
  rcases h with hnone | hne
  · by_cases hother : other.activeSlot = none
    · exact .inl hother
    · exact .inr fun he => hother (he.symm.trans hnone)
  · exact .inr (Ne.symm hne)

/-- Every row meets the constraints of the table, and no two rows share a slot. -/
structure SlotsHeld (deployments : Table DeploymentRow) : Prop where
  checked : ∀ row ∈ deployments, row.Checked
  distinct : ∀ row ∈ deployments, ∀ other ∈ deployments, Keyed.key other ≠ Keyed.key row →
    row.Apart other

theorem inactiveRow_checked {fields : DeploymentFields} {actor : Principal}
    (hwell : fields.WellFormed) (hinactive : fields.lifecycle ≠ .active) :
    (inactiveRow fields actor).Checked := by
  refine ⟨fun n hn => absurd hn (by simp [inactiveRow]), ?_, hwell.legacy⟩
  simp only [inactiveRow, Option.isSome_none, Bool.false_eq_true, iff_false]
  exact hinactive

theorem blockedRow_checked {record : PackageRecord} {actor : Principal} {row : DeploymentRow}
    (h : row.Checked) : (blockedRow record actor row).Checked := by
  refine ⟨fun n hn => absurd hn (by simp [blockedRow]), ?_, h.legacy⟩
  simp [blockedRow]

namespace SlotsHeld

variable {deployments deployments' : Table DeploymentRow} {row : DeploymentRow}

theorem empty : SlotsHeld .empty :=
  ⟨fun row h => absurd h (Table.not_mem_empty row), fun row h => absurd h (Table.not_mem_empty row)⟩

/-- A new row that holds a free slot, or none. -/
theorem insert (h : SlotsHeld deployments) (hchecked : row.Checked)
    (hfree : ∀ other ∈ deployments, Keyed.key other ≠ Keyed.key row → row.Apart other)
    (hinsert : deployments.insert? row = some deployments') : SlotsHeld deployments' := by
  constructor
  · intro r hr
    rcases (Table.mem_insert hinsert).mp hr with hr | rfl
    · exact h.checked r hr
    · exact hchecked
  · intro r hr other hother hne
    rcases (Table.mem_insert hinsert).mp hr with hr | rfl <;>
      rcases (Table.mem_insert hinsert).mp hother with hother | rfl
    · exact h.distinct r hr other hother hne
    · exact (hfree r hr (Ne.symm hne)).symm
    · exact hfree other hother hne
    · exact absurd rfl hne

/-- A row moved to a free slot, or to none. -/
theorem replace {old : DeploymentRow} (h : SlotsHeld deployments) (hchecked : row.Checked)
    (hfree : ∀ other ∈ deployments, Keyed.key other ≠ Keyed.key row → row.Apart other)
    (hold : old ∈ deployments) (hkey : Keyed.key old = Keyed.key row) :
    SlotsHeld (deployments.replace row) := by
  have hfound : deployments.find? (Keyed.key row) = some old := hkey ▸ Table.find?_of_mem hold
  constructor
  · intro r hr
    rcases (Table.mem_replace hfound).mp hr with rfl | ⟨hold, _⟩
    · exact hchecked
    · exact h.checked r hold
  · intro r hr other hother hne
    rcases (Table.mem_replace hfound).mp hr with rfl | ⟨hr', hrkey⟩ <;>
      rcases (Table.mem_replace hfound).mp hother with rfl | ⟨hother', hokey⟩
    · exact absurd rfl hne
    · exact hfree other hother' hokey
    · exact (hfree r hr' hrkey).symm
    · exact h.distinct r hr' other hother' hne

/-- Rows that gave their slots back. -/
theorem block {p : DeploymentRow → Prop} [DecidablePred p] {record : PackageRecord}
    {actor : Principal} (h : SlotsHeld deployments)
    (hfind : ∀ k, deployments'.find? k = (deployments.find? k).map fun r =>
      if p r then blockedRow record actor r else r) : SlotsHeld deployments' := by
  have hback : ∀ r ∈ deployments', ∃ old ∈ deployments, Keyed.key old = Keyed.key r ∧
      (r = blockedRow record actor old ∨ r = old) := by
    intro r hr
    have hr := Table.find?_of_mem hr
    rw [hfind] at hr
    obtain ⟨old, hold, rfl⟩ := Option.map_eq_some_iff.mp hr
    refine ⟨old, Table.mem_of_find? hold, Table.key_of_find? hold, ?_⟩
    split
    · exact .inl rfl
    · exact .inr rfl
  constructor
  · intro r hr
    obtain ⟨old, hold, _, rfl | rfl⟩ := hback r hr
    · exact blockedRow_checked (h.checked old hold)
    · exact h.checked r hold
  · intro r hr other hother hne
    obtain ⟨old, hold, hkey, rfl | rfl⟩ := hback r hr
    · exact .inl rfl
    · obtain ⟨old', hold', hkey', rfl | rfl⟩ := hback other hother
      · exact DeploymentRow.Apart.symm (.inl rfl)
      · exact h.distinct r hold other hold' hne

end SlotsHeld

/-- The active deployments of a host: ten at most, each with a slot of its own. -/
structure BoundedActive (s : DeploymentTables) : Prop where
  count : s.activeCount ≤ 10
  present : ∀ row ∈ s.deployments, row.lifecycle = .active ↔ row.activeSlot.isSome = true
  range : ∀ row ∈ s.deployments, ∀ n ∈ row.activeSlot, 1 ≤ n ∧ n ≤ 10
  distinct : ∀ row ∈ s.deployments, ∀ other ∈ s.deployments, row.activeSlot.isSome = true →
    other.activeSlot = row.activeSlot → other = row

/-- Distinct slots of ten are ten at most. -/
theorem SlotsHeld.bounded {s : DeploymentTables} (h : SlotsHeld s.deployments) :
    BoundedActive s := by
  have hdistinct : ∀ row ∈ s.deployments, ∀ other ∈ s.deployments, row.activeSlot.isSome = true →
      other.activeSlot = row.activeSlot → other = row := by
    intro row hrow other hother hsome heq
    by_contra hne
    have hkey : Keyed.key other ≠ Keyed.key row := fun he =>
      hne (Table.eq_of_key_eq hother hrow he)
    rcases h.distinct row hrow other hother hkey with hnone | hapart
    · rw [hnone] at hsome
      exact absurd hsome (by simp)
    · exact hapart heq
  refine ⟨?_, fun row hrow => (h.checked row hrow).active,
    fun row hrow => (h.checked row hrow).slot, hdistinct⟩
  have hmem : ∀ row ∈ s.activeRows, row ∈ s.deployments ∧ row.activeSlot.isSome = true := by
    intro row hrow
    obtain ⟨hrow, hactive⟩ := List.mem_filter.mp hrow
    exact ⟨hrow, (h.checked row hrow).active.mp (of_decide_eq_true hactive)⟩
  have hnodup : (s.activeRows.map DeploymentRow.activeSlot).Nodup := by
    refine List.Nodup.map_on (fun row hrow other hother heq => ?_) ?_
    · exact hdistinct other (hmem other hother).1 row (hmem row hrow).1 (hmem other hother).2 heq
    · exact (List.Nodup.of_map _ s.deployments.nodup).filter _
  have hsub : s.activeRows.map DeploymentRow.activeSlot ⊆ (List.range' 1 10).map some := by
    intro slot hslot
    obtain ⟨row, hrow, rfl⟩ := List.mem_map.mp hslot
    obtain ⟨n, hn⟩ := Option.isSome_iff_exists.mp (hmem row hrow).2
    obtain ⟨hlow, hhigh⟩ := (h.checked row (hmem row hrow).1).slot n hn
    rw [hn]
    exact List.mem_map.mpr ⟨n, List.mem_range'_1.mpr ⟨hlow, by omega⟩, rfl⟩
  have hlength := (List.subperm_of_subset hnodup hsub).length_le
  simpa [DeploymentTables.activeCount] using hlength

theorem slotsHeld_of_move {ports : HostPorts} {s : HostState} {a : HostAction} {t : HostTables}
    (h : SlotsHeld s.tables.deployments.deployments) (hmove : HostMove ports s a t) :
    SlotsHeld t.deployments.deployments := by
  cases hmove with
  | idle same elsewhere => rwa [same]
  | replayed requested recorded => exact h
  | initial command effect => exact h.insert effect.checked effect.free effect.insert
  | call requested authority fresh effect =>
    cases effect with
    | registered inspected fields actor well effect => rwa [effect.deployments]
    | changed seen fields well effect => exact h.block effect.deployments
    | created made effect => rwa [effect.deployments]
    | rebinding read made effect => rwa [effect.deployments]
    | reviewed bound effect => rwa [effect.deployments]
    | @confirmed _ _ _ _ draft deployment _ _ d bound effect =>
      have hbinds := effect.binds
      show SlotsHeld d.deployments
      generalize d.deployments = deployments, deployment.toDeploymentFields = fields at hbinds
      cases hbinds with
      | created kind absent base colleague well insert =>
        exact h.insert (inactiveRow_checked well (by simp [createdDeployment]))
          (fun _ _ _ => .inl rfl) insert
      | rebound kind found base readable well =>
        exact h.replace (inactiveRow_checked well (by simp [reboundDeployment]))
          (fun _ _ _ => .inl rfl) (Table.mem_of_find? found) rfl
    | transitioned parsed starts effect =>
      cases effect with
      | refused => exact h
      | applied hslot well actor checked free =>
        exact h.replace checked free (Table.mem_of_find? starts.found) rfl

-- ════════════════════════════════════════════════════════════════════════
-- Revoked packages
-- ════════════════════════════════════════════════════════════════════════

/-- A package that is found revoked. -/
def Revoked (s : DeploymentTables) (k : StableId × PackageVersion) : Prop :=
  ∃ package, s.packages.find? k = some package ∧ package.trustState = .revoked

/-- No active deployment is bound to a package. -/
def NoneActive (s : DeploymentTables) (k : StableId × PackageVersion) : Prop :=
  ∀ row ∈ s.deployments, (row.tenantId, row.package) = k → row.lifecycle ≠ .active

/-- No action applies to a revoked package. -/
theorem PackageAction.not_allows_of_revoked {action : PackageAction}
    {current next : PackageFields} (h : current.trustState = .revoked) :
    ¬action.Allows current next := by
  cases action <;> simp [PackageAction.Allows, h]

/-- A package becomes revoked by a revocation only. -/
theorem PackageAction.eq_revoke_of_allows {action : PackageAction} {current next : PackageFields}
    (h : action.Allows current next) (hnext : next.trustState = .revoked) : action = .revoke := by
  cases action with
  | revoke => rfl
  | trust =>
    rw [h.2.1] at hnext
    exact absurd hnext (by simp)
  | install =>
    rw [h.2.2.1] at hnext
    exact absurd hnext (by simp)

section Packages

variable {ports : HostPorts} {s : HostState} {a : HostAction} {t : HostTables}

theorem revoked_of_move (h : HostMove ports s a t) {k : StableId × PackageVersion}
    (hrevoked : Revoked s.tables.deployments k) : Revoked t.deployments k := by
  obtain ⟨package, hpackage, hstate⟩ := hrevoked
  have hstep := packageStep_of_move h k
  rw [hpackage] at hstep
  generalize hfound : t.deployments.packages.find? k = o at hstep
  cases hstep with
  | same => exact ⟨package, hfound, hstate⟩
  | changed seen fields effect =>
    exact absurd effect.allowed (PackageAction.not_allows_of_revoked hstate)

/-- The revocation of a package leaves no active deployment of it. -/
theorem noneActive_of_revoke {record : PackageRecord} {actor : Principal} {tenant : TenantTables}
    {d d' : DeploymentTables} {key : ReplayKey} {digest : Digest} {row : PackageRow}
    (effect : ChangesPackage ports.toDeploymentPorts tenant d d' record actor .revoke key digest
      row) : NoneActive d' (record.tenantId, record.version) := by
  intro r hr hbound hactive
  have hfind := Table.find?_of_mem hr
  rw [effect.deployments] at hfind
  obtain ⟨old, hold, hr'⟩ := Option.map_eq_some_iff.mp hfind
  split at hr'
  · rw [← hr'] at hactive
    exact absurd hactive (by simp [blockedRow])
  · rename_i hnot
    subst hr'
    obtain ⟨htenant, hpackage⟩ := Prod.mk.inj hbound
    refine hnot (List.mem_filter.mpr ⟨Table.mem_of_find? hold, ?_⟩)
    exact decide_eq_true ⟨htenant, hpackage, hactive⟩

theorem noneActive_of_move (h : HostMove ports s a t) {k : StableId × PackageVersion}
    (hbefore : ¬Revoked s.tables.deployments k) (hafter : Revoked t.deployments k) :
    NoneActive t.deployments k := by
  obtain ⟨package, hpackage, hstate⟩ := hafter
  have hstep := packageStep_of_move h k
  rw [hpackage] at hstep
  generalize hfound : s.tables.deployments.packages.find? k = o at hstep
  generalize hnew : some package = new at hstep
  cases hstep with
  | same => exact absurd ⟨package, hfound.trans hnew.symm, hstate⟩ hbefore
  | preserved command =>
    obtain rfl := Option.some.inj hnew
    exact absurd hstate (by simp [legacyPackageRow])
  | registered fields actor well =>
    obtain rfl := Option.some.inj hnew
    simp only [newPackageRow] at hstate
    rw [fields] at hstate
    exact absurd hstate (by simp [P11PackageService.registeredFields])
  | changed seen fields effect =>
    obtain rfl := Option.some.inj hnew
    obtain rfl := PackageAction.eq_revoke_of_allows effect.allowed hstate
    have hrow := Table.key_of_find? effect.found
    have hkey := (Table.key_of_find? hfound).symm.trans hrow
    rw [hkey]
    exact noneActive_of_revoke effect

end Packages

-- ════════════════════════════════════════════════════════════════════════
-- Trusted packages
-- ════════════════════════════════════════════════════════════════════════

/-- Every active deployment is bound to a package that runs. -/
def ActiveTrusted (s : DeploymentTables) : Prop :=
  ∀ row ∈ s.deployments, row.lifecycle = .active →
    ∃ package, s.packages.find? (row.tenantId, row.package) = some package ∧ package.Runs

/-- An initial colleague is created over no legacy package, or over one that runs. -/
def FindsLegacyRunning (s : HostState) : HostAction → Prop
  | .createInitialColleague ctx _ => ∀ package,
      s.tables.deployments.packages.find? (ctx.tenantId, legacyVersion) = some package →
        package.Runs
  | _ => True

theorem InitialColleagueService.command_tenantId {ports : HostPorts} {ctx : CallContext}
    {request : InitialColleagueRequest} {cmd : InitialColleagueCommand}
    (h : InitialColleagueService.command ports ctx request = .ok cmd) :
    cmd.tenantId = ctx.tenantId := by
  simp only [InitialColleagueService.command, bind_eq_ok, pure_eq_ok] at h
  obtain ⟨_, _, _, _, rfl⟩ := h
  rfl

theorem legacyPackageRow_runs (tenantId correlationId causationId : StableId)
    (occurredAt : Instant) :
    (legacyPackageRow tenantId correlationId causationId occurredAt).Runs :=
  ⟨.inr rfl, rfl⟩

/-- A package that runs can only be revoked. -/
theorem PackageAction.eq_revoke_of_runs {action : PackageAction} {current next : PackageFields}
    (h : action.Allows current next) (hruns : current.Runs) : action = .revoke := by
  obtain ⟨htrust, hinstall⟩ := hruns
  cases action with
  | revoke => rfl
  | trust =>
    rw [h.1] at htrust
    exact absurd htrust (by simp)
  | install =>
    rw [h.2.1] at hinstall
    exact absurd hinstall (by simp)

section Trust

variable {ports : HostPorts} {s : HostState} {a : HostAction} {t : HostTables}

/-- A package of an active deployment runs on after a step. -/
theorem runs_of_move (h : HostMove ports s a t) {k : StableId × PackageVersion}
    {package : PackageRow} (hpackage : s.tables.deployments.packages.find? k = some package)
    (hruns : package.Runs) {row : DeploymentRow} (hrow : row ∈ t.deployments.deployments)
    (hkey : (row.tenantId, row.package) = k) (hactive : row.lifecycle = .active) :
    ∃ package, t.deployments.packages.find? k = some package ∧ package.Runs := by
  have hstep := packageStep_of_move h k
  rw [hpackage] at hstep
  generalize hfound : t.deployments.packages.find? k = o at hstep
  cases hstep with
  | same => exact ⟨package, rfl, hruns⟩
  | changed seen fields effect =>
    obtain rfl := PackageAction.eq_revoke_of_runs effect.allowed hruns
    have hnone := noneActive_of_revoke effect
    have hfoundKey := (Table.key_of_find? hpackage).symm.trans (Table.key_of_find? effect.found)
    exact absurd hactive (hnone row hrow (hkey.trans hfoundKey))

theorem activeTrusted_of_move (h : HostMove ports s a t)
    (htrusted : ActiveTrusted s.tables.deployments) (hlegacy : FindsLegacyRunning s a) :
    ActiveTrusted t.deployments := by
  intro row hrow hactive
  have hfind := Table.find?_of_mem hrow
  have hstep := deploymentStep_of_move h (Keyed.key row)
  rw [hfind] at hstep
  generalize hold : s.tables.deployments.deployments.find? (Keyed.key row) = o at hstep
  generalize hnew : some row = new at hstep
  cases hstep with
  | same =>
    obtain ⟨package, hpackage, hruns⟩ :=
      htrusted row (Table.mem_of_find? (hold.trans hnew.symm)) hactive
    exact runs_of_move h hpackage hruns hrow rfl hactive
  | initial command effect tables =>
    obtain rfl := Option.some.inj hnew
    have htenant := InitialColleagueService.command_tenantId command
    rcases effect.packages with hinsert | ⟨hsame, hsome⟩
    · rw [tables]
      exact ⟨_, (Table.find?_insert hinsert _).trans (if_pos rfl), legacyPackageRow_runs ..⟩
    · obtain ⟨package, hpackage⟩ := Option.isSome_iff_exists.mp hsome
      rw [tables, hsame]
      exact ⟨package, hpackage, hlegacy package (htenant ▸ hpackage)⟩
  | blocked seen fields bound =>
    obtain rfl := Option.some.inj hnew
    exact absurd hactive (by simp [blockedRow])
  | created confirms kind well =>
    obtain rfl := Option.some.inj hnew
    exact absurd hactive (by simp [inactiveRow, createdDeployment])
  | rebound confirms kind key base well =>
    obtain rfl := Option.some.inj hnew
    exact absurd hactive (by simp [inactiveRow, reboundDeployment])
  | transitioned parsed starts well checked free =>
    obtain rfl := Option.some.inj hnew
    obtain ⟨package, hpackage, _, hruns⟩ := starts.package
    have htenant := (Prod.mk.inj (Table.key_of_find? starts.found)).1
    rw [← htenant] at hpackage
    exact runs_of_move h hpackage (hruns hactive) hrow rfl hactive

/-- An initial colleague over a legacy package that does not run is active all the
    same. -/
theorem findsLegacyRunning_of_move (h : HostMove ports s a t)
    (htrusted : ActiveTrusted t.deployments) : FindsLegacyRunning s a := by
  cases h with
  | idle same elsewhere =>
    cases a with
    | createInitialColleague ctx request => exact elsewhere.elim
    | _ => trivial
  | @initial ctx request cmd store d slot command effect =>
    intro package hpackage
    have htenant := InitialColleagueService.command_tenantId command
    rcases effect.packages with hinsert | ⟨hsame, _⟩
    · have hnone := (Table.insert?_eq_some.mp hinsert).1
      rw [← htenant] at hpackage
      exact absurd (hnone.symm.trans hpackage) (by simp)
    · obtain ⟨found, hfound, hruns⟩ := htrusted (initialDeploymentRow cmd slot)
        ((Table.mem_insert effect.insert).mpr (.inr rfl)) rfl
      have hkey : s.tables.deployments.packages.find? (cmd.tenantId, legacyVersion) = some found :=
        hsame ▸ hfound
      rw [htenant] at hkey
      obtain rfl := Option.some.inj (hkey.symm.trans hpackage)
      exact hruns
  | call requested authority fresh effect => trivial
  | replayed requested recorded => trivial

end Trust

-- ════════════════════════════════════════════════════════════════════════
-- Runs
-- ════════════════════════════════════════════════════════════════════════

theorem bounded_of_reachable {ports : HostPorts} {s : HostState} (h : (host ports).Reachable s) :
    BoundedActive s.tables.deployments := by
  have hheld : SlotsHeld s.tables.deployments.deployments := by
    refine TransitionSystem.Reachable.invariant
      (I := fun s => SlotsHeld s.tables.deployments.deployments) ?_ ?_ h
    · rintro s rfl
      exact .empty
    · intro s a t hs hstep
      exact slotsHeld_of_move hs (hostMove_of_exec hstep)
  exact hheld.bounded

theorem activeTrusted_of_reachable {ports : HostPorts} {s : HostState}
    (h : ((host ports).restrict FindsLegacyRunning).Reachable s) :
    ActiveTrusted s.tables.deployments := by
  refine TransitionSystem.Reachable.invariant (I := fun s => ActiveTrusted s.tables.deployments)
    ?_ ?_ h
  · rintro s rfl row hrow
    exact absurd hrow (Table.not_mem_empty row)
  · intro s a t hs hstep
    exact activeTrusted_of_move (hostMove_of_exec hstep.1) hs hstep.2

/-- **Active deployments are bounded**, revocation is final and blocks, and active
    deployments are bound to packages that run exactly as long as no initial
    colleague finds a legacy package that does not. -/
theorem active_bounded_and_trusted (ports : HostPorts) :
    (∀ s, (host ports).Reachable s → BoundedActive s.tables.deployments) ∧
    (∀ s a t k, (host ports).step s a t →
      (Revoked s.tables.deployments k → Revoked t.tables.deployments k) ∧
      (¬Revoked s.tables.deployments k → Revoked t.tables.deployments k →
        NoneActive t.tables.deployments k)) ∧
    (∀ s a t, ActiveTrusted s.tables.deployments → (host ports).step s a t →
      (ActiveTrusted t.tables.deployments ↔ FindsLegacyRunning s a)) ∧
    (∀ s, ((host ports).restrict FindsLegacyRunning).Reachable s →
      ActiveTrusted s.tables.deployments) := by
  refine ⟨fun s => bounded_of_reachable, fun s a t k hstep => ?_, fun s a t hs hstep => ?_,
    fun s => activeTrusted_of_reachable⟩
  · have hmove := hostMove_of_exec hstep
    exact ⟨revoked_of_move hmove, noneActive_of_move hmove⟩
  · have hmove := hostMove_of_exec hstep
    exact ⟨findsLegacyRunning_of_move hmove, activeTrusted_of_move hmove hs⟩

/-- Someone registers the legacy package, and nobody trusts it. -/
def sampleLegacyRegistration : List (HostState → HostAction) :=
  sampleHostBootstrap ++
    [sampleCall 30 (.register (sampleRegistration [0]) (stableId "key-1")),
      sampleInitialColleague 40]

set_option maxRecDepth 8000 in
/-- The initial colleague is active, although its package is neither trusted nor
    installed. -/
theorem legacy_package_unchecked : ∃ s, (host sampleHostPorts).Reachable s ∧
    ¬ActiveTrusted s.tables.deployments := by
  obtain ⟨tr, s, hpath, hs⟩ := exists_host_path sampleHostPorts sampleLegacyRegistration
    (fun _ s => s.tables.deployments.deployments.rows.any fun row =>
      decide (row.lifecycle = .active) &&
        (s.tables.deployments.packages.find? (row.tenantId, row.package)).all
          fun package : PackageRow =>
            !decide package.toPackageFields.Runs) (by decide +kernel)
  refine ⟨s, hpath.reachable (.init rfl), fun htrusted => ?_⟩
  simp only [List.any_eq_true, Bool.and_eq_true, decide_eq_true_eq, Option.all_eq_true,
    Bool.not_eq_true', decide_eq_false_iff_not] at hs
  obtain ⟨row, hrow, hactive, hnone⟩ := hs
  obtain ⟨package, hpackage, hruns⟩ := htrusted row hrow hactive
  exact hnone package hpackage hruns

set_option maxRecDepth 8000 in
/-- An initial colleague without any legacy package before it, and the bound there. -/
theorem active_bounded_and_trusted_sample : ∃ s, (host sampleHostPorts).Reachable s ∧
    s.tables.deployments.activeCount = 1 ∧ BoundedActive s.tables.deployments := by
  obtain ⟨tr, s, hpath, hs⟩ := exists_host_path sampleHostPorts
    (sampleHostBootstrap ++ [sampleInitialColleague 40])
    (fun _ s => decide (s.tables.deployments.activeCount = 1)) (by decide +kernel)
  have hreachable : (host sampleHostPorts).Reachable s := hpath.reachable (.init rfl)
  exact ⟨s, hreachable, of_decide_eq_true hs,
    (active_bounded_and_trusted sampleHostPorts).1 s hreachable⟩

end DigitalColleagues
