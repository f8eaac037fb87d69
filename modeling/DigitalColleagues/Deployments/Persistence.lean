import DigitalColleagues.Deployments.Rows

/-!
# What stays of the deployment tables

No step removes a row, and a row that a step moves keeps what it is about. What
a call read at an earlier time is therefore still there, in its present state.

## Main results

- `extends_of_move` — a step only extends the tables
- `look_extends` — so do all steps since a transaction of a call
-/

namespace DigitalColleagues

open DeploymentTables

-- ════════════════════════════════════════════════════════════════════════
-- Rows that go on
-- ════════════════════════════════════════════════════════════════════════

/-- A package row and a later state of it. -/
structure PackageRow.Continues (r r' : PackageRow) : Prop where
  fields : ∃ trustState installState updatedAt correlationId causationId revision,
    r' = { r with
      trustState := trustState
      installState := installState
      updatedAt := updatedAt
      correlationId := correlationId
      causationId := causationId
      revision := revision }
  revision : r.revision ≤ r'.revision

/-- A draft row and a later state of it. -/
structure DeploymentDraftRow.Continues (r r' : DeploymentDraftRow) : Prop where
  fields : ∃ state revision updatedAt,
    r' = { r with state := state, revision := revision, updatedAt := updatedAt }
  revision : r.revision ≤ r'.revision

/-- A deployment row and a later state of it, with the configuration that it had. -/
structure DeploymentRow.Continues (r r' : DeploymentRow) : Prop where
  profile : r'.profile = r.profile
  mandate : r'.mandate = r.mandate
  policy : r'.policy = r.policy
  legacyManual : r'.legacyManual = r.legacyManual
  legacyPolicyUnconfirmed : r'.legacyPolicyUnconfirmed = r.legacyPolicyUnconfirmed
  createdAt : r'.createdAt = r.createdAt
  revision : r.revision ≤ r'.revision

theorem PackageRow.Continues.refl (r : PackageRow) : r.Continues r :=
  ⟨⟨_, _, _, _, _, _, rfl⟩, le_rfl⟩

theorem PackageRow.Continues.trans {r r' r'' : PackageRow} (h : r.Continues r')
    (h' : r'.Continues r'') : r.Continues r'' := by
  obtain ⟨⟨_, _, _, _, _, _, rfl⟩, hle⟩ := h
  obtain ⟨⟨_, _, _, _, _, _, rfl⟩, hle'⟩ := h'
  exact ⟨⟨_, _, _, _, _, _, rfl⟩, hle.trans hle'⟩

theorem DeploymentDraftRow.Continues.refl (r : DeploymentDraftRow) : r.Continues r :=
  ⟨⟨_, _, _, rfl⟩, le_rfl⟩

theorem DeploymentDraftRow.Continues.trans {r r' r'' : DeploymentDraftRow} (h : r.Continues r')
    (h' : r'.Continues r'') : r.Continues r'' := by
  obtain ⟨⟨_, _, _, rfl⟩, hle⟩ := h
  obtain ⟨⟨_, _, _, rfl⟩, hle'⟩ := h'
  exact ⟨⟨_, _, _, rfl⟩, hle.trans hle'⟩

theorem DeploymentRow.Continues.refl (r : DeploymentRow) : r.Continues r :=
  ⟨rfl, rfl, rfl, rfl, rfl, rfl, le_rfl⟩

theorem DeploymentRow.Continues.trans {r r' r'' : DeploymentRow} (h : r.Continues r')
    (h' : r'.Continues r'') : r.Continues r'' where
  profile := h'.profile.trans h.profile
  mandate := h'.mandate.trans h.mandate
  policy := h'.policy.trans h.policy
  legacyManual := h'.legacyManual.trans h.legacyManual
  legacyPolicyUnconfirmed := h'.legacyPolicyUnconfirmed.trans h.legacyPolicyUnconfirmed
  createdAt := h'.createdAt.trans h.createdAt
  revision := h.revision.trans h'.revision

/-- The tables of deployments and a later state of them. -/
structure DeploymentTables.Extends (s t : DeploymentTables) : Prop where
  packages : s.packages.Persists PackageRow.Continues t.packages
  drafts : s.drafts.Persists DeploymentDraftRow.Continues t.drafts
  deployments : s.deployments.Persists DeploymentRow.Continues t.deployments
  history : s.history.Within t.history
  replays : s.replays.Within t.replays

theorem DeploymentTables.Extends.refl (s : DeploymentTables) : s.Extends s :=
  ⟨.refl .refl _, .refl .refl _, .refl .refl _, .refl _, .refl _⟩

theorem DeploymentTables.Extends.trans {s t u : DeploymentTables} (h : s.Extends t)
    (h' : t.Extends u) : s.Extends u where
  packages := h.packages.trans (fun _ _ _ => .trans) h'.packages
  drafts := h.drafts.trans (fun _ _ _ => .trans) h'.drafts
  deployments := h.deployments.trans (fun _ _ _ => .trans) h'.deployments
  history := h.history.trans h'.history
  replays := h.replays.trans h'.replays

-- ════════════════════════════════════════════════════════════════════════
-- Steps
-- ════════════════════════════════════════════════════════════════════════

section Steps

variable {ports : HostPorts} {s : HostState} {a : HostAction} {t : HostTables}

theorem PackageStep.continues {row : PackageRow} {o : Option PackageRow}
    (h : PackageStep ports s a t (some row) o) : ∃ row', o = some row' ∧ row.Continues row' := by
  cases h with
  | same => exact ⟨row, rfl, .refl row⟩
  | changed seen fields effect =>
    exact ⟨_, rfl, ⟨_, _, _, _, _, _, rfl⟩, (Nat.le_succ _).trans_eq effect.revision.symm⟩

theorem DraftRowStep.continues {row : DeploymentDraftRow} {o : Option DeploymentDraftRow}
    (h : DraftRowStep ports s a t (some row) o) :
    ∃ row', o = some row' ∧ row.Continues row' := by
  cases h with
  | same => exact ⟨row, rfl, .refl row⟩
  | reviewed => exact ⟨_, rfl, ⟨_, _, _, rfl⟩, Nat.le_succ _⟩
  | confirmed => exact ⟨_, rfl, ⟨_, _, _, rfl⟩, Nat.le_succ _⟩

theorem DeploymentStep.continues {row : DeploymentRow} {o : Option DeploymentRow}
    (h : DeploymentStep ports s a t (some row) o) : ∃ row', o = some row' ∧ row.Continues row' := by
  cases h with
  | same => exact ⟨row, rfl, .refl row⟩
  | blocked => exact ⟨_, rfl, rfl, rfl, rfl, rfl, rfl, rfl, Nat.le_succ _⟩
  | rebound => exact ⟨_, rfl, rfl, rfl, rfl, rfl, rfl, rfl, Nat.le_succ _⟩
  | transitioned => exact ⟨_, rfl, rfl, rfl, rfl, rfl, rfl, rfl, Nat.le_succ _⟩

theorem persists_packages (h : HostMove ports s a t) :
    s.tables.deployments.packages.Persists PackageRow.Continues t.deployments.packages := by
  intro k row hrow
  have hstep := packageStep_of_move h k
  rw [hrow] at hstep
  exact hstep.continues

theorem persists_drafts (h : HostMove ports s a t) :
    s.tables.deployments.drafts.Persists DeploymentDraftRow.Continues t.deployments.drafts := by
  intro k row hrow
  have hstep := draftRowStep_of_move h k
  rw [hrow] at hstep
  exact hstep.continues

theorem persists_deployments (h : HostMove ports s a t) :
    s.tables.deployments.deployments.Persists DeploymentRow.Continues
      t.deployments.deployments := by
  intro k row hrow
  have hstep := deploymentStep_of_move h k
  rw [hrow] at hstep
  exact hstep.continues

/-- The accepted packages and the replay ledger only grow. -/
theorem within_of_move (h : HostMove ports s a t) :
    s.tables.deployments.history.Within t.deployments.history ∧
      s.tables.deployments.replays.Within t.deployments.replays := by
  cases h with
  | idle same elsewhere =>
    rw [same]
    exact ⟨.refl _, .refl _⟩
  | replayed requested recorded => exact ⟨.refl _, .refl _⟩
  | initial command effect =>
    rw [effect.replays]
    exact ⟨effect.history, .refl _⟩
  | call requested authority fresh effect =>
    cases effect with
    | registered inspected fields actor well effect =>
      rw [effect.history]
      exact ⟨.refl _, Table.within_insert effect.replays⟩
    | changed seen fields well effect =>
      rw [effect.history]
      exact ⟨.refl _, Table.within_insert effect.replays⟩
    | created made effect =>
      rw [effect.history]
      exact ⟨.refl _, Table.within_insert effect.replays⟩
    | rebinding read made effect =>
      rw [effect.history]
      exact ⟨.refl _, Table.within_insert effect.replays⟩
    | reviewed bound effect =>
      rw [effect.history]
      exact ⟨.refl _, Table.within_insert effect.replays⟩
    | confirmed bound effect => exact ⟨effect.history, Table.within_insert effect.replays⟩
    | transitioned parsed starts effect =>
      cases effect with
      | refused target full haudits hreplays => exact ⟨.refl _, Table.within_insert hreplays⟩
      | applied hslot well actor checked free haudits hreplays =>
        exact ⟨.refl _, Table.within_insert hreplays⟩

theorem extends_of_move (h : HostMove ports s a t) : s.tables.deployments.Extends t.deployments :=
  ⟨persists_packages h, persists_drafts h, persists_deployments h, (within_of_move h).1,
    (within_of_move h).2⟩

end Steps

-- ════════════════════════════════════════════════════════════════════════
-- Runs
-- ════════════════════════════════════════════════════════════════════════

theorem HostState.past_of_exec {ports : HostPorts} {s t : HostState} {a : HostAction}
    (h : s.exec ports a = .ok t) : t.past = s.past ++ [s.tables] ∨
      t.past = s.past ∧ t.tables = s.tables := by
  cases a <;> simp only [HostState.exec, bind_eq_ok, Prod.exists, pure_eq_ok] at h
  case tenant =>
    obtain ⟨_, _, rfl⟩ := h
    exact .inl rfl
  case read =>
    obtain ⟨_, _, rfl⟩ := h
    exact .inr ⟨rfl, rfl⟩
  case builder =>
    obtain ⟨_, _, rfl⟩ := h
    exact .inl rfl
  case confirmDraft =>
    obtain ⟨_, _, _, _, rfl⟩ := h
    exact .inl rfl
  case createInitialColleague =>
    obtain ⟨_, _, rfl⟩ := h
    exact .inl rfl
  case call =>
    obtain ⟨_, _, _, rfl⟩ := h
    exact .inl rfl

/-- The tables extend all earlier ones. -/
def PastExtended (s : HostState) : Prop :=
  ∀ p ∈ s.past, p.deployments.Extends s.tables.deployments

theorem pastExtended_of_exec {ports : HostPorts} {s t : HostState} {a : HostAction}
    (hs : PastExtended s) (h : s.exec ports a = .ok t) : PastExtended t := by
  have hextends := extends_of_move (hostMove_of_exec h)
  rcases HostState.past_of_exec h with hpast | ⟨hpast, htables⟩
  · intro p hp
    rw [hpast] at hp
    rcases List.mem_append.mp hp with hp | hp
    · exact (hs p hp).trans hextends
    · rw [List.mem_singleton.mp hp]
      exact hextends
  · intro p hp
    rw [hpast] at hp
    rw [htables]
    exact hs p hp

theorem pastExtended_of_reachable {ports : HostPorts} {s : HostState}
    (h : (host ports).Reachable s) : PastExtended s := by
  refine TransitionSystem.Reachable.invariant (I := PastExtended) ?_ ?_ h
  · rintro s rfl p hp
    exact absurd hp List.not_mem_nil
  · exact fun s a t hs hstep => pastExtended_of_exec hs hstep

/-- What a transaction of a call met is still there. -/
theorem look_extends {s : HostState} (h : PastExtended s) (looks : List ℕ) (i : ℕ) :
    (s.look looks i).deployments.Extends s.tables.deployments := by
  unfold HostState.look
  cases hfound : (looks[i]?).bind fun n => s.past[n]? with
  | none => exact .refl _
  | some p =>
    obtain ⟨n, _, hn⟩ := Option.bind_eq_some_iff.mp hfound
    exact h p (List.mem_of_getElem? hn)

/-- A run extends the tables. -/
theorem extends_of_path {ports : HostPorts} {s t : HostState}
    {tr : List (Transition HostState HostAction)} (h : (host ports).Path s tr t) :
    s.tables.deployments.Extends t.tables.deployments :=
  h.rel (R := fun s t => s.tables.deployments.Extends t.tables.deployments) (fun _ => .refl _)
    (fun _ _ _ => .trans) fun _ _ _ hstep => extends_of_move (hostMove_of_exec hstep)

end DigitalColleagues
