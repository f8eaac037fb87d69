import DigitalColleagues.Deployments.AuditTrail

/-!
# The law of the causal audit

The revisions of packages, drafts and deployments count the changes of a record, and
over any run the audit has at most one row for a revision: exactly one, written in the
step that made the revision and in the name of its actor, unless that step is one of
the silent ones.

## Main results

- `recordStep_of_move` — one record in one step
- `revisions_audited` — every revision that a run made
-/

namespace DigitalColleagues

open DeploymentTables AuditedRecord

-- ════════════════════════════════════════════════════════════════════════
-- Records that a step leaves as they are
-- ════════════════════════════════════════════════════════════════════════

section Revisions

variable {s t : DeploymentTables} {x : AuditedRecord}

theorem revision_of_same (hpackages : t.packages = s.packages) (hdrafts : t.drafts = s.drafts)
    (hdeployments : t.deployments = s.deployments) : x.revision t = x.revision s := by
  cases x <;> simp only [AuditedRecord.revision, hpackages, hdrafts, hdeployments]

/-- Only one package is new. -/
theorem revision_of_insert_package {row : PackageRow}
    (hpackages : s.packages.insert? row = some t.packages) (hdrafts : t.drafts = s.drafts)
    (hdeployments : t.deployments = s.deployments) (hx : x ≠ .package row.tenantId row.version) :
    x.revision t = x.revision s := by
  cases x with
  | package tenantId version =>
    refine (Table.valueAt_insert hpackages _ _).trans (if_neg fun hkey => hx ?_)
    obtain ⟨rfl, rfl⟩ := Prod.mk.inj hkey
    rfl
  | draft => simp only [AuditedRecord.revision, hdrafts]
  | deployment => simp only [AuditedRecord.revision, hdeployments]

/-- Only one draft is new. -/
theorem revision_of_insert_draft {row : DeploymentDraftRow} (hpackages : t.packages = s.packages)
    (hdrafts : s.drafts.insert? row = some t.drafts) (hdeployments : t.deployments = s.deployments)
    (hx : x ≠ .draft row.tenantId row.deploymentId row.draftId) : x.revision t = x.revision s := by
  cases x with
  | package => simp only [AuditedRecord.revision, hpackages]
  | draft tenantId deploymentId draftId =>
    refine (Table.valueAt_insert hdrafts _ _).trans (if_neg fun hkey => hx ?_)
    obtain ⟨rfl, rfl, rfl⟩ : tenantId = _ ∧ deploymentId = _ ∧ draftId = _ := by
      simpa only [Keyed.key, Prod.mk.injEq] using hkey
    rfl
  | deployment => simp only [AuditedRecord.revision, hdeployments]

/-- Only one draft is another. -/
theorem revision_of_replace_draft {row old : DeploymentDraftRow}
    (hpackages : t.packages = s.packages) (hfound : s.drafts.find? (Keyed.key row) = some old)
    (hdrafts : t.drafts = s.drafts.replace row) (hdeployments : t.deployments = s.deployments)
    (hx : x ≠ .draft row.tenantId row.deploymentId row.draftId) : x.revision t = x.revision s := by
  cases x with
  | package => simp only [AuditedRecord.revision, hpackages]
  | draft tenantId deploymentId draftId =>
    simp only [AuditedRecord.revision, hdrafts]
    refine (Table.valueAt_replace hfound _ _).trans (if_neg fun hkey => hx ?_)
    obtain ⟨rfl, rfl, rfl⟩ : tenantId = _ ∧ deploymentId = _ ∧ draftId = _ := by
      simpa only [Keyed.key, Prod.mk.injEq] using hkey
    rfl
  | deployment => simp only [AuditedRecord.revision, hdeployments]

/-- Only one deployment is another. -/
theorem revision_of_replace_deployment {row old : DeploymentRow}
    (hpackages : t.packages = s.packages) (hdrafts : t.drafts = s.drafts)
    (hfound : s.deployments.find? (Keyed.key row) = some old)
    (hdeployments : t.deployments = s.deployments.replace row)
    (hx : x ≠ .deployment row.tenantId row.deploymentId) : x.revision t = x.revision s := by
  cases x with
  | package => simp only [AuditedRecord.revision, hpackages]
  | draft => simp only [AuditedRecord.revision, hdrafts]
  | deployment tenantId deploymentId =>
    simp only [AuditedRecord.revision, hdeployments]
    refine (Table.valueAt_replace hfound _ _).trans (if_neg fun hkey => hx ?_)
    obtain ⟨rfl, rfl⟩ := Prod.mk.inj hkey
    rfl

end Revisions

section Tables

variable {ρ κ : Type} [DecidableEq κ] [Keyed ρ κ] {t t' : Table ρ} {r x : ρ} {f : ρ → ℕ}

theorem valueAt_inserted (h : t.insert? r = some t') (f : ρ → ℕ) :
    t'.valueAt f (Keyed.key r) = f r := by
  rw [Table.valueAt_insert h, if_pos rfl]

theorem valueAt_replaced (h : t.find? (Keyed.key r) = some x) (f : ρ → ℕ) :
    (t.replace r).valueAt f (Keyed.key r) = f r := by
  rw [Table.valueAt_replace h, if_pos rfl]

/-- The value of a new row counts from 0. -/
theorem valueAt_new (h : t.insert? r = some t') (hf : f r = 1) :
    t'.valueAt f (Keyed.key r) = t.valueAt f (Keyed.key r) + 1 := by
  rw [valueAt_inserted h, Table.valueAt_of_insert h, hf]

theorem valueAt_next (h : t.find? (Keyed.key r) = some x) (hf : f r = f x + 1) :
    (t.replace r).valueAt f (Keyed.key r) = t.valueAt f (Keyed.key r) + 1 := by
  rw [valueAt_replaced h, Table.valueAt_of_find? h, hf]

end Tables

-- ════════════════════════════════════════════════════════════════════════
-- One step
-- ════════════════════════════════════════════════════════════════════════

section Moves

variable {ports : HostPorts} {s : HostState} {a : HostAction} {t : HostTables}

theorem recordStep_of_initial {ctx : CallContext} {request : InitialColleagueRequest}
    {cmd : InitialColleagueCommand} {store store' : TenantStore} {d d' : DeploymentTables}
    {slot : ℕ} (h : CreatesInitial store store' d d' cmd slot) (x : AuditedRecord) :
    RecordStep d d' (.createInitialColleague ctx request) x := by
  refine recordStep_of_same h.audits ?_
  cases x with
  | package tenantId version =>
    rcases h.packages with hinsert | ⟨hsame, _⟩
    · simp only [AuditedRecord.revision]
      by_cases hkey : (tenantId, version) = Keyed.key (legacyPackageRow cmd.tenantId
          cmd.correlationId cmd.profile.profileId cmd.occurredAt)
      · rw [hkey]
        exact .inr ⟨trivial, valueAt_new hinsert rfl⟩
      · exact .inl ((Table.valueAt_insert hinsert _ _).trans (if_neg hkey))
    · simp only [AuditedRecord.revision, hsame, true_or]
  | draft => simp only [AuditedRecord.revision, h.drafts, true_or]
  | deployment tenantId deploymentId =>
    simp only [AuditedRecord.revision]
    by_cases hkey : (tenantId, deploymentId) = Keyed.key (initialDeploymentRow cmd slot)
    · rw [hkey]
      exact .inr ⟨trivial, valueAt_new h.insert rfl⟩
    · exact .inl ((Table.valueAt_insert h.insert _ _).trans (if_neg hkey))

theorem target_value_ne_limitReached (target : DeploymentLifecycle) :
    target.value ≠ TransitionCommand.limitReached := by
  cases target <;> decide

theorem recordStep_of_transition {ctx : CallContext} {deploymentId : StableId}
    {request : ExactLifecycleRequest} {target : DeploymentLifecycle} {looks : List ℕ}
    {d d' : DeploymentTables} {row : DeploymentRow} {result : LifecycleTransitionResult}
    (starts : d.StartsTransition ports.packageDigest
      (P11DeploymentService.command ports ctx deploymentId request target) row)
    (h : TransitionEffect ports.toDeploymentPorts d
      (P11DeploymentService.command ports ctx deploymentId request target) row result d')
    (x : AuditedRecord) :
    RecordStep d d' (.call ctx (.transition deploymentId request) looks) x := by
  cases h with
  | refused reached full haudits hreplays hresult =>
    refine recordStep_of_refusal haudits rfl ?_
    cases x <;> rfl
  | @applied slot _ _ hslot well actor checked free haudits hreplays hresult =>
    have hkey := Table.key_of_find? starts.found
    have hfound : d.deployments.find? (Keyed.key ((P11DeploymentService.command ports ctx
        deploymentId request target).row row.toDeploymentFields slot)) = some row :=
      hkey ▸ starts.found
    refine recordStep_of_insert (y := .deployment row.tenantId row.deploymentId) haudits
      ⟨⟨rfl, ?_, ?_, ?_⟩, target_value_ne_limitReached target⟩ id ?_ ?_ rfl fun hx => .inl ?_
    · exact (Prod.mk.inj hkey).1.symm
    · exact congrArg Namespace.colleague (Prod.mk.inj hkey).2.symm
    · exact congrArg Subtype.val (Prod.mk.inj hkey).2.symm
    · exact valueAt_next hfound rfl
    · exact (valueAt_replaced hfound fun r => r.revision).symm
    · exact revision_of_replace_deployment rfl rfl hfound rfl hx

theorem recordStep_of_reviews {ctx : CallContext} {d d' : DeploymentTables}
    {draft : DeploymentDraft} {expectedRevision : ℕ} {key : ReplayKey} {digest : Digest}
    {row : DeploymentDraftRow}
    (h : ReviewsDraft ports.toDeploymentPorts d d' draft expectedRevision key digest row)
    (hauthor : draft.author = ctx.actor)
    (heard : ¬a.Silent (.draft row.tenantId row.deploymentId row.draftId))
    (hactor : a.actor = some ctx.actor.principalId) (x : AuditedRecord) : RecordStep d d' a x := by
  have hkey := Table.key_of_find? h.found
  obtain ⟨htenant, hdeployment, hdraft⟩ : row.tenantId = draft.tenantId ∧
      row.deploymentId = draft.deploymentId ∧ row.draftId = draft.draftId := by
    simpa only [Keyed.key, Prod.mk.injEq] using hkey
  have hfound : d.drafts.find? (Keyed.key (movedDraftRow draft .reviewed row)) = some row :=
    hkey ▸ h.found
  have hnext : d'.drafts.valueAt (fun r => r.revision) (Keyed.key row) =
      d.drafts.valueAt (fun r => r.revision) (Keyed.key row) + 1 := by
    rw [h.drafts]
    exact valueAt_next hfound rfl
  have hrevision : d'.drafts.valueAt (fun r => r.revision) (Keyed.key row) = row.revision + 1 := by
    rw [h.drafts]
    exact valueAt_replaced hfound fun r => r.revision
  refine recordStep_of_insert (y := .draft row.tenantId row.deploymentId row.draftId) h.audits
    ⟨⟨rfl, htenant.symm, congrArg Namespace.colleague hdeployment.symm,
      congrArg Subtype.val hdraft.symm⟩,
      show "reviewed" ≠ TransitionCommand.limitReached by decide⟩ heard hnext ?_ ?_
    fun hx => .inl ?_
  · exact (congrArg (· + 1) h.revision.symm).trans hrevision.symm
  · rw [hactor, ← hauthor]
    rfl
  · exact revision_of_replace_draft h.packages hfound h.drafts h.deployments hx

/-- What the binding of a deployment does to the revisions of deployments. -/
theorem valueAt_of_binds {store store' : TenantStore} {d : DeploymentTables}
    {draft : DeploymentDraft} {model service : Principal} {fields : DeploymentFields}
    {deployments : Table DeploymentRow}
    (h : BindsDeployment store d draft model service fields store' deployments) :
    deployments.valueAt (fun r => r.revision) (fields.tenantId, fields.deploymentId) =
        fields.revision ∧
      fields.revision =
        d.deployments.valueAt (fun r => r.revision) (fields.tenantId, fields.deploymentId) + 1 ∧
      ∀ k ≠ (fields.tenantId, fields.deploymentId),
        deployments.valueAt (fun r => r.revision) k =
          d.deployments.valueAt (fun r => r.revision) k := by
  cases h with
  | created kind absent base colleague well insert =>
    refine ⟨valueAt_inserted insert fun r => r.revision, ?_, fun k hk => ?_⟩
    · exact congrArg (· + 1) (Table.valueAt_of_insert insert fun r => r.revision).symm
    · exact (Table.valueAt_insert insert _ k).trans (if_neg hk)
  | @rebound row kind found base readable well =>
    have hkey := Table.key_of_find? found
    have hfound : d.deployments.find? (Keyed.key (inactiveRow
        (reboundDeployment draft row.toDeploymentFields) draft.author)) = some row := hkey ▸ found
    refine ⟨valueAt_replaced hfound fun r => r.revision, ?_, fun k hk => ?_⟩
    · exact congrArg (· + 1) (Table.valueAt_of_find? hfound (f := fun r => r.revision)).symm
    · exact (Table.valueAt_replace hfound _ k).trans (if_neg hk)

theorem recordStep_of_confirms {ctx : CallContext} {deploymentId draftId : StableId}
    {request : ExactDraftConfirmation} {looks : List ℕ} {store store' : TenantStore}
    {d d' : DeploymentTables} {draft : DeploymentDraft} {expectedRevision : ℕ} {key : ReplayKey}
    {digest : Digest} {model service : Principal} {deployment : ColleagueDeployment}
    {row : DeploymentDraftRow}
    (h : ConfirmsDraft ports.toDeploymentPorts store store' d d' draft expectedRevision key digest
      model service deployment row) (hauthor : draft.author = ctx.actor) (x : AuditedRecord) :
    RecordStep d d' (.call ctx (.confirm deploymentId draftId request) looks) x := by
  obtain ⟨hrevision, hnext, hrest⟩ := valueAt_of_binds h.binds
  refine recordStep_of_insert (y := .deployment deployment.tenantId deployment.deploymentId)
    h.audits ⟨⟨rfl, rfl, rfl, rfl⟩, show "draft" ≠ TransitionCommand.limitReached by decide⟩ id
    (hrevision.trans hnext) hrevision.symm ?_ fun hx => ?_
  · rw [HostAction.actor, ← hauthor]
    rfl
  cases x with
  | package => exact .inl (by simp only [AuditedRecord.revision, h.packages])
  | draft tenantId deploymentId draftId =>
    have hkey := Table.key_of_find? h.found
    have hfound : d.drafts.find? (Keyed.key (movedDraftRow draft .confirmed row)) = some row :=
      hkey ▸ h.found
    simp only [AuditedRecord.revision, h.drafts]
    by_cases hk : (tenantId, deploymentId, draftId) = Keyed.key row
    · rw [hk]
      exact .inr ⟨trivial, valueAt_next hfound rfl⟩
    · exact .inl ((Table.valueAt_replace hfound _ _).trans (if_neg hk))
  | deployment tenantId deploymentId =>
    refine .inl (hrest _ fun hk => hx ?_)
    obtain ⟨rfl, rfl⟩ := Prod.mk.inj hk
    rfl

theorem changed_result_ne_limitReached (record : PackageRecord) (action : PackageAction)
    (actor : Principal) :
    (changedEntry record actor action).result ≠ TransitionCommand.limitReached := by
  simp only [changedEntry]
  split
  · decide
  · cases record.trustState <;> decide

theorem recordStep_of_insertsDraft {ctx : CallContext} {d d' : DeploymentTables}
    {draft : DeploymentDraft} {key : ReplayKey} {digest : Digest}
    (h : InsertsDraft ports.toDeploymentPorts d d' draft key digest)
    (hrevision : draft.revision = 1) (hauthor : draft.author = ctx.actor)
    (heard : ¬a.Silent (.draft draft.tenantId draft.deploymentId draft.draftId))
    (hactor : a.actor = some ctx.actor.principalId) (x : AuditedRecord) : RecordStep d d' a x := by
  refine recordStep_of_insert
    (y := .draft draft.tenantId draft.deploymentId draft.draftId) h.audits
    ⟨⟨rfl, rfl, rfl, rfl⟩, show "draft" ≠ TransitionCommand.limitReached by decide⟩ heard
    (valueAt_new h.drafts hrevision) (valueAt_inserted h.drafts fun r => r.revision).symm ?_
    fun hx => .inl ?_
  · rw [hactor, ← hauthor]
    rfl
  · exact revision_of_insert_draft h.packages h.drafts h.deployments hx

theorem recordStep_of_changes {ctx : CallContext} {action : PackageAction}
    {version : PackageVersion} {expectedRevision : ℕ} {idempotencyKey : StableId} {looks : List ℕ}
    {tenant : TenantTables} {d d' : DeploymentTables} {record : PackageRecord} {row : PackageRow}
    {key : ReplayKey} {digest : Digest}
    (h : ChangesPackage ports.toDeploymentPorts tenant d d' record ctx.actor action key digest row)
    (x : AuditedRecord) :
    RecordStep d d' (.call ctx (.package action version expectedRevision idempotencyKey) looks)
      x := by
  have hmem : ∀ e, e ∈ d'.audits ↔ e ∈ d.audits ∨
      (∃ r ∈ d.blockedBy record action,
        blockedAudit ports.toDeploymentPorts record ctx.actor r = e) ∨
      e = ⟨changedEntry record ctx.actor action,
        ports.auditId (changedEntry record ctx.actor action).text⟩ := by
    intro e
    simp only [Table.mem_def, h.audits, List.mem_append, List.mem_map, List.mem_singleton,
      or_assoc]
  have hblocked : ∀ r ∈ d.blockedBy record action,
      d.deployments.find? (r.tenantId, r.deploymentId) = some r ∧ r.tenantId = record.tenantId := by
    intro r hr
    unfold blockedBy at hr
    split at hr
    · have hr := List.mem_filter.mp hr
      exact ⟨Table.find?_of_mem hr.1, (of_decide_eq_true hr.2).1⟩
    · exact absurd hr List.not_mem_nil
  cases x with
  | package tenantId version' =>
    have hkey := Table.key_of_find? h.found
    have hfound : d.packages.find? (Keyed.key (changedPackageRow record row)) = some row :=
      hkey ▸ h.found
    -- no row about a blocked deployment names a package
    have hnone : ∀ e ∈ d'.audits, (AuditedRecord.package tenantId version').Changed e.toAuditEntry →
        e ∈ d.audits ∨ e = ⟨changedEntry record ctx.actor action,
          ports.auditId (changedEntry record ctx.actor action).text⟩ := by
      intro e he hx
      rcases (hmem e).mp he with hold | ⟨r, _, rfl⟩ | hnew
      · exact .inl hold
      · exact absurd hx.1.1 (by simp [blockedAudit, blockedEntry])
      · exact .inr hnew
    by_cases hx : (tenantId, version') = (record.tenantId, record.version)
    · obtain ⟨rfl, rfl⟩ := Prod.mk.inj hx
      have hrevision : d'.packages.valueAt (fun r => r.revision) (record.tenantId, record.version) =
          record.revision := by
        rw [h.packages, ← hkey]
        exact valueAt_replaced hfound fun r => r.revision
      refine .audited _ id ?_ ((hmem _).mpr (.inr (.inr rfl)))
        ⟨⟨rfl, rfl, rfl, rfl, record.package.version_canonical, rfl⟩, ?_⟩ hrevision.symm rfl hnone
      · refine hrevision.trans (h.revision.trans ?_)
        exact congrArg (· + 1) (Table.valueAt_of_find? h.found (f := fun r => r.revision)).symm
      · exact changed_result_ne_limitReached record action ctx.actor
    · refine .quiet ?_ fun e he hchanged => (hnone e he hchanged).resolve_right ?_
      · simp only [AuditedRecord.revision, h.packages]
        refine (Table.valueAt_replace hfound _ _).trans (if_neg ?_)
        rwa [show Keyed.key (changedPackageRow record row) = Keyed.key row from rfl, hkey]
      · rintro rfl
        have hnamed : (AuditedRecord.package record.tenantId record.version).Named
            (changedEntry record ctx.actor action) :=
          ⟨rfl, rfl, rfl, rfl, record.package.version_canonical, rfl⟩
        obtain ⟨rfl, rfl⟩ := AuditedRecord.package.inj (named_unique hchanged.1 hnamed)
        exact hx rfl
  | draft tenantId deploymentId draftId =>
    refine .quiet (by simp only [AuditedRecord.revision, h.drafts]) fun e he hx => ?_
    rcases (hmem e).mp he with hold | ⟨r, _, rfl⟩ | rfl
    · exact hold
    · exact absurd hx.1.1 (by simp [blockedAudit, blockedEntry])
    · exact absurd hx.1.1 (by simp [changedEntry])
  | deployment tenantId deploymentId =>
    -- the rows about this deployment are those of the blocked row at its key
    have hnew : ∀ e ∈ d'.audits,
        (AuditedRecord.deployment tenantId deploymentId).Changed e.toAuditEntry →
          e ∈ d.audits ∨ ∃ r ∈ d.blockedBy record action,
            (tenantId, deploymentId) = (r.tenantId, r.deploymentId) ∧
              e = blockedAudit ports.toDeploymentPorts record ctx.actor r := by
      intro e he hx
      rcases (hmem e).mp he with hold | ⟨r, hr, rfl⟩ | rfl
      · exact .inl hold
      · have hnamed : (AuditedRecord.deployment r.tenantId r.deploymentId).Named
            (blockedEntry record ctx.actor r) := ⟨rfl, (hblocked r hr).2.symm, rfl, rfl⟩
        obtain ⟨rfl, rfl⟩ := AuditedRecord.deployment.inj (named_unique hx.1 hnamed)
        exact .inr ⟨r, hr, rfl, rfl⟩
      · exact absurd hx.1.1 (by simp [changedEntry])
    by_cases hx : ∃ r ∈ d.blockedBy record action,
        (tenantId, deploymentId) = (r.tenantId, r.deploymentId)
    · obtain ⟨r, hr, hkey⟩ := hx
      obtain ⟨rfl, rfl⟩ := Prod.mk.inj hkey
      obtain ⟨hfound, htenant⟩ := hblocked r hr
      have hrevision : d'.deployments.valueAt (fun r => r.revision) (r.tenantId, r.deploymentId) =
          r.revision + 1 := by
        rw [Table.valueAt, h.deployments, hfound, Option.map_some, if_pos hr, Option.elim_some]
        rfl
      refine .audited _ id ?_ ((hmem _).mpr (.inr (.inl ⟨r, hr, rfl⟩)))
        ⟨⟨rfl, htenant.symm, rfl, rfl⟩, show "blocked" ≠ TransitionCommand.limitReached by decide⟩
        hrevision.symm rfl fun e he hchanged => ?_
      · refine hrevision.trans ?_
        exact congrArg (· + 1) (Table.valueAt_of_find? hfound (f := fun r => r.revision)).symm
      · refine (hnew e he hchanged).imp_right ?_
        rintro ⟨r', hr', hkey', rfl⟩
        have hfound' := (hblocked r' hr').1
        rw [← hkey', hfound] at hfound'
        rw [Option.some.inj hfound']
    · refine .quiet ?_ fun e he hchanged => (hnew e he hchanged).resolve_right ?_
      · simp only [AuditedRecord.revision, Table.valueAt, h.deployments]
        cases hfound : d.deployments.find? (tenantId, deploymentId) with
        | none => rfl
        | some r =>
          have hr : r ∉ d.blockedBy record action := fun hr =>
            hx ⟨r, hr, (Table.key_of_find? hfound).symm⟩
          rw [Option.map_some, if_neg hr]
      · rintro ⟨r, hr, hkey, -⟩
        exact hx ⟨r, hr, hkey⟩

/-- What a step does to a record and to the audit rows about it. -/
theorem recordStep_of_move (h : HostMove ports s a t) (x : AuditedRecord) :
    RecordStep s.tables.deployments t.deployments a x := by
  cases h with
  | idle same elsewhere =>
    rw [same]
    exact recordStep_of_same rfl (.inl rfl)
  | replayed requested recorded => exact recordStep_of_same rfl (.inl rfl)
  | initial command effect => exact recordStep_of_initial effect x
  | call requested authority fresh effect =>
    cases effect with
    | @registered _ _ _ _ record _ inspected fields actor well effect =>
      have hrevision : record.revision = 1 := by rw [fields, P11PackageService.registeredFields]
      refine recordStep_of_insert (y := .package record.tenantId record.version) effect.audits
        ⟨⟨rfl, rfl, rfl, rfl, record.package.version_canonical, rfl⟩,
          show "untrusted" ≠ TransitionCommand.limitReached by decide⟩ id
        (valueAt_new effect.packages hrevision)
        (valueAt_inserted effect.packages fun r => r.revision).symm ?_ fun hx => .inl ?_
      · rw [HostAction.actor, ← actor]
        rfl
      · exact revision_of_insert_package effect.packages effect.drafts effect.deployments hx
    | changed seen fields well effect => exact recordStep_of_changes effect x
    | created made effect =>
      exact recordStep_of_insertsDraft effect (freshDraft_of_creationDraft made).revision
        (freshDraft_of_creationDraft made).author (by simp [HostAction.Silent]) rfl x
    | rebinding read made effect =>
      exact recordStep_of_insertsDraft effect (freshDraft_of_rebindingDraftOf made).revision
        (freshDraft_of_rebindingDraftOf made).author (by simp [HostAction.Silent]) rfl x
    | reviewed bound effect =>
      obtain ⟨_, _, _, hauthor, _⟩ := boundDraft_eq_ok bound
      exact recordStep_of_reviews effect hauthor (by simp [HostAction.Silent]) rfl x
    | confirmed bound effect =>
      obtain ⟨_, _, _, hauthor, _⟩ := boundDraft_eq_ok bound
      exact recordStep_of_confirms effect hauthor x
    | transitioned parsed starts effect => exact recordStep_of_transition starts effect x

/-- No step removes an audit row. -/
theorem audits_of_move (h : HostMove ports s a t) {e : CausalAudit}
    (he : e ∈ s.tables.deployments.audits) : e ∈ t.deployments.audits := by
  cases h with
  | idle same elsewhere => rwa [same]
  | replayed requested recorded => exact he
  | initial command effect => rwa [effect.audits]
  | call requested authority fresh effect =>
    cases effect with
    | registered inspected fields actor well effect =>
      exact (Table.mem_insert effect.audits).mpr (.inl he)
    | changed seen fields well effect =>
      rw [Table.mem_def, effect.audits, List.append_assoc]
      exact List.mem_append_left _ he
    | created made effect => exact (Table.mem_insert effect.audits).mpr (.inl he)
    | rebinding read made effect => exact (Table.mem_insert effect.audits).mpr (.inl he)
    | reviewed bound effect => exact (Table.mem_insert effect.audits).mpr (.inl he)
    | confirmed bound effect => exact (Table.mem_insert effect.audits).mpr (.inl he)
    | transitioned parsed starts effect =>
      cases effect with
      | refused target full haudits hreplays hresult =>
        exact (Table.mem_insert haudits).mpr (.inl he)
      | applied hslot well actor checked free haudits hreplays hresult =>
        exact (Table.mem_insert haudits).mpr (.inl he)

end Moves

-- ════════════════════════════════════════════════════════════════════════
-- Runs
-- ════════════════════════════════════════════════════════════════════════

/-- The audit of a record at the end of a run from the beginning. -/
structure RevisionsAudited (tr : List (Transition HostState HostAction)) (t : DeploymentTables)
    (x : AuditedRecord) : Prop where
  bounded : ∀ e ∈ t.audits, x.Changed e.toAuditEntry → e.recordRevision ≤ x.revision t
  unique : ∀ e ∈ t.audits, ∀ e' ∈ t.audits, x.Changed e.toAuditEntry → x.Changed e'.toAuditEntry →
    e.recordRevision = e'.recordRevision → e = e'
  made : ∀ r, 1 ≤ r → r ≤ x.revision t → ∃ step ∈ tr,
    x.revision step.source.tables.deployments + 1 = r ∧
    x.revision step.target.tables.deployments = r ∧
    (step.action.Silent x ∧ (∀ e ∈ t.audits, x.Changed e.toAuditEntry → e.recordRevision ≠ r) ∨
      ¬step.action.Silent x ∧ ∃ row ∈ t.audits, x.Changed row.toAuditEntry ∧
        row.recordRevision = r ∧ step.action.actor = some row.actorPrincipalId)

section Runs

variable {ports : HostPorts} {x : AuditedRecord}

theorem RevisionsAudited.snoc {s t : HostState} {a : HostAction}
    {tr : List (Transition HostState HostAction)}
    (h : RevisionsAudited tr s.tables.deployments x)
    (hstep : RecordStep s.tables.deployments t.tables.deployments a x)
    (hgrow : ∀ e ∈ s.tables.deployments.audits, e ∈ t.tables.deployments.audits) :
    RevisionsAudited (tr ++ [⟨s, a, t⟩]) t.tables.deployments x := by
  -- the revisions that the run had made before
  have hbefore : ∀ r, 1 ≤ r → r ≤ x.revision s.tables.deployments →
      (∀ e ∈ t.tables.deployments.audits, x.Changed e.toAuditEntry → e.recordRevision = r →
        e ∈ s.tables.deployments.audits) →
      ∃ step ∈ tr ++ [⟨s, a, t⟩],
        x.revision step.source.tables.deployments + 1 = r ∧
        x.revision step.target.tables.deployments = r ∧
        (step.action.Silent x ∧ (∀ e ∈ t.tables.deployments.audits, x.Changed e.toAuditEntry →
            e.recordRevision ≠ r) ∨
          ¬step.action.Silent x ∧ ∃ row ∈ t.tables.deployments.audits,
            x.Changed row.toAuditEntry ∧ row.recordRevision = r ∧
              step.action.actor = some row.actorPrincipalId) := by
    intro r hpos hle hold
    obtain ⟨step, hmem, hsource, htarget, hrows⟩ := h.made r hpos hle
    refine ⟨step, List.mem_append_left _ hmem, hsource, htarget, ?_⟩
    rcases hrows with ⟨hsilent, hnone⟩ | ⟨heard, row, hrow, hchanged, hrevision, hactor⟩
    · exact .inl ⟨hsilent, fun e he hx hr => hnone e (hold e he hx hr) hx hr⟩
    · exact .inr ⟨heard, row, hgrow row hrow, hchanged, hrevision, hactor⟩
  have hlast : (⟨s, a, t⟩ : Transition HostState HostAction) ∈ tr ++ [⟨s, a, t⟩] :=
    List.mem_append_right _ (List.mem_singleton_self _)
  cases hstep with
  | quiet same none =>
    refine ⟨fun e he hx => ?_, fun e he e' he' hx hx' => ?_, fun r hpos hle => ?_⟩
    · rw [same]
      exact h.bounded e (none e he hx) hx
    · exact h.unique e (none e he hx) e' (none e' he' hx') hx hx'
    · exact hbefore r hpos (same ▸ hle) fun e he hx _ => none e he hx
  | silent silent next none =>
    refine ⟨fun e he hx => ?_, fun e he e' he' hx hx' => ?_, fun r hpos hle => ?_⟩
    · have hbound := h.bounded e (none e he hx) hx
      omega
    · exact h.unique e (none e he hx) e' (none e' he' hx') hx hx'
    · rcases Nat.lt_or_ge (x.revision s.tables.deployments) r with hlt | hge
      · have hr : r = x.revision s.tables.deployments + 1 := by omega
        refine ⟨_, hlast, hr.symm, next.trans hr.symm, .inl ⟨silent, fun e he hx => ?_⟩⟩
        have hbound := h.bounded e (none e he hx) hx
        omega
      · exact hbefore r hpos hge fun e he hx _ => none e he hx
  | audited row heard next mem changed revision actor unique =>
    have hold : ∀ e ∈ t.tables.deployments.audits, x.Changed e.toAuditEntry →
        e.recordRevision ≤ x.revision s.tables.deployments → e ∈ s.tables.deployments.audits := by
      intro e he hx hle
      refine (unique e he hx).resolve_right ?_
      rintro rfl
      omega
    refine ⟨fun e he hx => ?_, fun e he e' he' hx hx' hr => ?_, fun r hpos hle => ?_⟩
    · rcases unique e he hx with he | rfl
      · have hbound := h.bounded e he hx
        omega
      · exact revision.le
    · rcases unique e he hx with hs | rfl <;> rcases unique e' he' hx' with hs' | rfl
      · exact h.unique e hs e' hs' hx hx' hr
      · have hbound := h.bounded e hs hx
        omega
      · have hbound := h.bounded e' hs' hx'
        omega
      · rfl
    · rcases Nat.lt_or_ge (x.revision s.tables.deployments) r with hlt | hge
      · have hr : r = x.revision s.tables.deployments + 1 := by omega
        exact ⟨_, hlast, hr.symm, next.trans hr.symm,
          .inr ⟨heard, row, mem, changed, revision.trans (next.trans hr.symm), actor⟩⟩
      · exact hbefore r hpos hge fun e he hx hr => hold e he hx (hr ▸ hge)

end Runs

end DigitalColleagues
