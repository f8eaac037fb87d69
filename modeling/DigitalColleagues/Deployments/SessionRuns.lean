import DigitalColleagues.Deployments.Selection

/-!
# Sessions over whole runs

A change of authority ends the sessions before it for good, and an accepted
session carries the authority of its moment. A selection stays in its session
exactly when no other session of the principal has used its key.

## Main definitions

- `AuthorityTables.CarriedBy` — a session with the present authority
- `StaysInSession` — what a selection may return and change

## Main results

- `sessions_end_with_authority`
- `selection_stays_in_session_iff`
-/

namespace DigitalColleagues

-- ════════════════════════════════════════════════════════════════════════
-- The end of sessions
-- ════════════════════════════════════════════════════════════════════════

/-- A session carries the present roles and revisions of an active membership. -/
structure AuthorityTables.CarriedBy (s : AuthorityTables) (session : AuthenticatedSession) :
    Prop where
  principal : s.principals.find? session.principal.principalId = some session.principal
  membership : ∃ row, s.memberships.find? session.principal.principalId = some row ∧
    row.status = .active ∧ session.roleRevision = row.roleRevision ∧
    session.membershipRevision = row.membershipRevision ∧ session.principal.roles = row.roles

theorem TenantTables.Accepts.carriedBy {s : TenantTables} {credentialDigest : Digest}
    {evaluatedAt : Instant} {session : AuthenticatedSession} {membership : Membership}
    (h : s.Accepts credentialDigest evaluatedAt session membership) :
    s.toAuthorityTables.CarriedBy session := by
  obtain ⟨row, hrow, hfields⟩ := h.durable
  refine ⟨h.principal, row, hrow, ?_⟩
  rw [hfields]
  exact ⟨h.active, h.roleRevision, h.membershipRevision, h.roles⟩

namespace SelectionState

variable {ports : HostPorts} {s t u : SelectionState}

theorem distinctCredentials_of_reachable (h : (selection ports).Reachable s)
    (tenantId : StableId) : DistinctCredentials (s.tenant tenantId).sessions := by
  refine h.invariant (I := fun s => ∀ tenantId, DistinctCredentials (s.tenant tenantId).sessions)
    ?_ ?_ tenantId
  · intro s hs tenantId r hr
    rw [show s = .initial from hs] at hr
    exact absurd hr (Table.not_mem_empty r)
  · intro s a t hI hst tenantId
    exact (sessionStep_of_exec hst tenantId).distinct (hI tenantId)

theorem ended_of_exec {tenantId principalId : StableId} {action : TenantAction}
    (h : s.exec ports (.host (.tenant tenantId action)) = .ok t)
    (hends : (s.tenant tenantId).EndsSessions principalId action) :
    TenantTables.Ended principalId (s.tenant tenantId).sessions (t.tenant tenantId).sessions := by
  simp only [exec, HostState.exec, bind_eq_ok, pure_eq_ok] at h
  obtain ⟨host, ⟨tenant, htenant, rfl⟩, rfl⟩ := h
  have hended := TenantTables.ended_of_exec htenant hends
  show TenantTables.Ended principalId _
    ((s.host.tables.withTenant tenantId tenant).tenant tenantId).sessions
  rw [HostTables.withTenant, HostTables.tenant_withStore, if_pos rfl]
  exact hended

/-- A credential whose session is over is refused from then on. -/
theorem refused_of_ended {tenantId principalId : StableId} {before : Table SessionRow}
    {tr : List (Transition SelectionState SelectionAction)}
    (ht : (selection ports).Reachable t)
    (hended : TenantTables.Ended principalId before (t.tenant tenantId).sessions)
    (hpath : (selection ports).Path t tr u) {row : SessionRow} (hrow : row ∈ before)
    (hid : row.principalId = principalId) (evaluatedAt : Instant)
    (x : AuthenticatedSession × Membership) :
    (u.tenant tenantId).governedSession row.credentialDigest evaluatedAt ≠ .ok x := by
  intro haccepted
  have hlater := hended.step (sessionStep_of_path hpath tenantId)
  obtain ⟨row', hrow', hdigest, hrevoked⟩ := hlater row hrow hid
  have hdistinct := distinctCredentials_of_reachable (hpath.reachable ht) tenantId
  rw [← hdigest] at haccepted
  exact TenantTables.not_accepts_of_revoked hdistinct hrow' hrevoked
    (TenantTables.governedSession_eq_ok haccepted)

/-- **Old sessions die with a change of authority**: after an approved change of the
    membership of a principal or its recovery no earlier credential of the principal is
    ever accepted again; and whenever a session is accepted, it carries the present
    authority of its principal. -/
theorem sessions_end_with_authority (ports : HostPorts) :
    (∀ (s t u : SelectionState) (tr : List (Transition SelectionState SelectionAction))
      (tenantId principalId : StableId) (action : TenantAction),
      (selection ports).Reachable s →
      (selection ports).step s (.host (.tenant tenantId action)) t →
      (s.tenant tenantId).EndsSessions principalId action →
      (selection ports).Path t tr u →
      ∀ row ∈ (s.tenant tenantId).sessions, row.principalId = principalId →
        ∀ evaluatedAt x,
          (u.tenant tenantId).governedSession row.credentialDigest evaluatedAt ≠ .ok x) ∧
    ∀ (s : SelectionState), (selection ports).Reachable s →
      ∀ (tenantId : StableId) (credentialDigest : Digest) (evaluatedAt : Instant)
        (session : AuthenticatedSession) (membership : Membership),
        (s.tenant tenantId).governedSession credentialDigest evaluatedAt =
          .ok (session, membership) →
        (s.tenant tenantId).toAuthorityTables.CarriedBy session := by
  constructor
  · intro s t u tr tenantId principalId action hs hst hends hpath row hrow hid evaluatedAt x
    exact refused_of_ended (hs.step hst) (ended_of_exec hst hends) hpath hrow hid evaluatedAt x
  · intro s _ tenantId credentialDigest evaluatedAt session membership h
    exact (TenantTables.governedSession_eq_ok h).carriedBy

-- ════════════════════════════════════════════════════════════════════════
-- Whose record a replay row keeps
-- ════════════════════════════════════════════════════════════════════════

/-- The row at a key is that of a session. -/
def HeldAt (sessions : Table SessionRow) (k : StableId × StableId)
    (session : AuthenticatedSession) : Prop :=
  ∃ row, sessions.find? k = some row ∧ row.credentialDigest = session.credentialDigest ∧
    row.csrfDigest = session.csrfDigest

theorem HeldAt.step {sessions sessions' : Table SessionRow} {k : StableId × StableId}
    {session : AuthenticatedSession} (h : HeldAt sessions k session)
    (hstep : SessionStep sessions sessions') : HeldAt sessions' k session := by
  obtain ⟨row, hrow, hdigest, hcsrf⟩ := h
  obtain ⟨row', hrow', hcontinues⟩ := hstep.persists k row hrow
  exact ⟨row', hrow', hcontinues.credentialDigest.trans hdigest,
    hcontinues.csrfDigest.trans hcsrf⟩

theorem HeldAt.unique {sessions : Table SessionRow} {k : StableId × StableId}
    {session session' : AuthenticatedSession} (h : HeldAt sessions k session)
    (h' : HeldAt sessions k session') :
    session.credentialDigest = session'.credentialDigest ∧
      session.csrfDigest = session'.csrfDigest := by
  obtain ⟨row, hrow, hdigest, hcsrf⟩ := h
  obtain ⟨row', hrow', hdigest', hcsrf'⟩ := h'
  obtain rfl := Option.some.inj (hrow.symm.trans hrow')
  exact ⟨hdigest.symm.trans hdigest', hcsrf.symm.trans hcsrf'⟩

/-- The sessions of the callers and the records of the ledger are those of rows. -/
structure Owned (s : SelectionState) : Prop where
  accepted : ∀ x ∈ s.accepted,
    HeldAt (s.tenant x.1).sessions (x.2.principal.principalId, x.2.sessionId) x.2
  recorded : ∀ tenantId, ∀ r ∈ s.replays tenantId, r.result.sessionId = r.sessionId ∧
    HeldAt (s.tenant tenantId).sessions (r.principalId, r.sessionId) r.result

theorem Owned.command (h : s.Owned) {i : ℕ} {colleagueId idempotencyKey : StableId}
    {requestDigest : Digest} {occurredAt : Instant} {cmd : SelectionCommand}
    (hcmd : s.command i colleagueId idempotencyKey requestDigest occurredAt = .ok cmd) :
    HeldAt (s.tenant cmd.tenantId).sessions cmd.rowKey cmd.session := by
  simp only [SelectionState.command, caller, bind_eq_ok, orFail_eq_ok, pure_eq_ok,
    Prod.exists] at hcmd
  obtain ⟨tenantId, session, hcaller, rfl⟩ := hcmd
  exact h.accepted _ (List.mem_of_getElem? hcaller)

/-- A caller was authenticated with a session whose row is there. -/
theorem accepted_of_exec {a : SelectionAction} (h : s.exec ports a = .ok t) :
    ∀ x ∈ t.accepted, x ∈ s.accepted ∨
      HeldAt (s.tenant x.1).sessions (x.2.principal.principalId, x.2.sessionId) x.2 := by
  intro x hx
  cases a with
  | authenticate tenantId credentialDigest evaluatedAt =>
    simp only [exec, bind_eq_ok, pure_eq_ok, Prod.exists] at h
    obtain ⟨session, membership, haccepted, rfl⟩ := h
    rcases List.mem_append.mp hx with hx | hx
    · exact .inl hx
    · obtain rfl := List.mem_singleton.mp hx
      obtain ⟨row, hrow, hfields, hid, _⟩ :=
        (TenantTables.governedSession_eq_ok haccepted).open_row
      have hkey : Keyed.key row = (session.principal.principalId, session.sessionId) :=
        Prod.ext hid (congrArg SessionFields.sessionId hfields)
      refine .inr ⟨row, hkey ▸ Table.find?_of_mem hrow, ?_, ?_⟩
      · exact congrArg SessionFields.credentialDigest hfields
      · exact congrArg SessionFields.csrfDigest hfields
  | host action =>
    simp only [exec, bind_eq_ok, pure_eq_ok] at h
    obtain ⟨_, _, rfl⟩ := h
    exact .inl hx
  | createInitialColleague cmd =>
    simp only [exec, bind_eq_ok, pure_eq_ok] at h
    obtain ⟨_, _, rfl⟩ := h
    exact .inl hx
  | setActiveColleague accepted colleagueId =>
    simp only [exec, bind_eq_ok, pure_eq_ok, Prod.exists] at h
    obtain ⟨_, _, _, _, _, rfl⟩ := h
    exact .inl hx
  | setActiveColleagueReplay store accepted colleagueId idempotencyKey requestDigest occurredAt =>
    simp only [exec, bind_eq_ok, pure_eq_ok, Prod.exists] at h
    obtain ⟨_, _, _, _, _, rfl⟩ := h
    exact .inl hx

/-- A replay row is an old one or the one of a new selection. -/
theorem replays_of_selected {cmd : SelectionCommand} {returned : AuthenticatedSession}
    {v w : SelectionTables} (h : Selected v cmd returned w) {tenantId : StableId}
    {r : MutationReplay AuthenticatedSession} (hr : r ∈ w.replays tenantId) :
    r ∈ v.replays tenantId ∨ tenantId = cmd.tenantId ∧ r = cmd.replay := by
  cases h with
  | replayed => exact .inl hr
  | performed _ insert ledger _ =>
    rw [ledger] at hr
    by_cases hid : tenantId = cmd.tenantId
    · rw [hid, Function.update_self] at hr
      rcases (Table.mem_insert insert).mp hr with hr | hr
      · exact .inl (hid ▸ hr)
      · exact .inr ⟨hid, hr⟩
    · rw [Function.update_of_ne hid] at hr
      exact .inl hr

theorem owned_of_reachable (h : (selection ports).Reachable s) : s.Owned := by
  refine h.invariant ?_ ?_
  · intro s hs
    rw [show s = .initial from hs]
    exact ⟨fun _ hx => absurd hx (by simp [initial]),
      fun _ r hr => absurd hr (Table.not_mem_empty r)⟩
  · intro s a t hs hst
    have hstep := sessionStep_of_exec hst
    constructor
    · intro x hx
      rcases accepted_of_exec hst x hx with hx | hheld
      · exact (hs.accepted x hx).step (hstep x.1)
      · exact hheld.step (hstep x.1)
    · intro tenantId r hr
      have hkept : r ∈ s.replays tenantId → r.result.sessionId = r.sessionId ∧
          HeldAt (t.tenant tenantId).sessions (r.principalId, r.sessionId) r.result := by
        intro hr
        obtain ⟨hid, hheld⟩ := hs.recorded tenantId r hr
        exact ⟨hid, hheld.step (hstep tenantId)⟩
      rcases cases_of_exec hst with
        ⟨_, _, _, _, _, _, cmd, _, tables, _, hcmd, hselected, rfl⟩ | ⟨heq, _⟩
      · rcases replays_of_selected hselected hr with hr | ⟨rfl, rfl⟩
        · exact hkept hr
        · exact ⟨rfl, (hs.command hcmd).step (hstep _)⟩
      · rw [heq] at hr
        exact hkept hr

-- ════════════════════════════════════════════════════════════════════════
-- Selections
-- ════════════════════════════════════════════════════════════════════════

/-- A transition is a selection with the key of a command in its session. -/
def SelectsWith (cmd : SelectionCommand) (e : Transition SelectionState SelectionAction) : Prop :=
  ∃ store i colleagueId idempotencyKey requestDigest occurredAt cmd',
    e.action = .setActiveColleagueReplay store i colleagueId idempotencyKey requestDigest
      occurredAt ∧
    e.source.command i colleagueId idempotencyKey requestDigest occurredAt = .ok cmd' ∧
    cmd.SameKey cmd'

/-- Every replay row stems from a selection of the run. -/
theorem selectsWith_of_path {tr : List (Transition SelectionState SelectionAction)}
    (h : (selection ports).Path .initial tr s) {tenantId : StableId}
    {r : MutationReplay AuthenticatedSession} (hr : r ∈ s.replays tenantId)
    {cmd : SelectionCommand} (htenant : cmd.tenantId = tenantId)
    (hrow : cmd.rowKey = (r.principalId, r.sessionId))
    (hkey : cmd.idempotencyKey = r.idempotencyKey) : ∃ e ∈ tr, SelectsWith cmd e := by
  generalize hinit : SelectionState.initial = s₀ at h
  induction h with
  | refl =>
    rw [← hinit] at hr
    exact absurd hr (Table.not_mem_empty r)
  | @snoc t u a tr _ ht ih =>
    have hbefore : r ∈ t.replays tenantId →
        ∃ e ∈ tr ++ [⟨t, a, u⟩], SelectsWith cmd e := by
      intro hr
      obtain ⟨e, he, hselects⟩ := ih hr
      exact ⟨e, List.mem_append_left _ he, hselects⟩
    rcases cases_of_exec ht with
      ⟨store, i, c, k, d, at_, cmd', _, tables, ha, hcmd, hselected, rfl⟩ | ⟨heq, _⟩
    · rcases replays_of_selected hselected hr with hr | ⟨rfl, rfl⟩
      · exact hbefore hr
      · refine ⟨_, List.mem_append_right _ (List.mem_singleton.mpr rfl), ?_⟩
        exact ⟨store, i, c, k, d, at_, cmd', ha, hcmd, htenant.symm, hrow.symm, hkey.symm⟩
    · rw [heq] at hr
      exact hbefore hr

/-- What a successful selection must be: its answer is the record of its own session;
    the first one with a key in a session gives that session its colleague, and no
    other one; and from then on its repetitions get the same answer and change
    nothing, as long as there is authority for them. -/
structure StaysInSession (ports : HostPorts)
    (tr : List (Transition SelectionState SelectionAction)) (s : SelectionState)
    (cmd : SelectionCommand) (returned : AuthenticatedSession) (t : SelectionState) : Prop where
  sessionId : returned.sessionId = cmd.session.sessionId
  credentialDigest : returned.credentialDigest = cmd.session.credentialDigest
  csrfDigest : returned.csrfDigest = cmd.session.csrfDigest
  first : (∀ e ∈ tr, ¬SelectsWith cmd e) →
    (∃ row, (t.tenant cmd.tenantId).sessions.find? cmd.rowKey = some row ∧
      row.activeColleagueId = some cmd.colleagueId) ∧
    ∀ tenantId k, (tenantId, k) ≠ (cmd.tenantId, cmd.rowKey) →
      (t.tenant tenantId).sessions.find? k = (s.tenant tenantId).sessions.find? k
  repeated : ∀ tr' u, (selection ports).Path t tr' u → ∀ (store : StoreVersion) cmd',
    cmd.Repeats cmd' → store.setActiveColleagueReplay ports.auditId u.tables cmd' =
      ((u.tenant cmd'.tenantId).requireCurrentMembership cmd'.session.principal store.action
        (.colleague cmd'.colleagueId)).map fun _ => (returned, u.tables)

/-- The recorded answer to a command is the answer to its repetitions. -/
theorem repeated_of_recorded {cmd : SelectionCommand}
    {replay : MutationReplay AuthenticatedSession}
    (hreplay : (t.replays cmd.tenantId).find? cmd.replayKey = some replay)
    (hdigest : replay.requestDigest = cmd.requestDigest)
    {tr : List (Transition SelectionState SelectionAction)}
    (hpath : (selection ports).Path t tr u) (store : StoreVersion) {cmd' : SelectionCommand}
    (hrepeats : cmd.Repeats cmd') :
    store.setActiveColleagueReplay ports.auditId u.tables cmd' =
      ((u.tenant cmd'.tenantId).requireCurrentMembership cmd'.session.principal store.action
        (.colleague cmd'.colleagueId)).map fun _ => (replay.result, u.tables) := by
  have hprincipal : cmd'.session.principal.principalId = cmd.session.principal.principalId :=
    congrArg Prod.fst hrepeats.rowKey
  have hkey : cmd'.replayKey = cmd.replayKey := Prod.ext hprincipal hrepeats.idempotencyKey
  refine setActiveColleagueReplay_of_recorded store ?_ (hdigest.trans hrepeats.requestDigest.symm)
  rw [hrepeats.tenantId, hkey]
  exact replays_of_path hpath cmd.tenantId _ _ hreplay

/-- The condition of a selection: its key was not used in another session. -/
def KeyIsOwn (s : SelectionState) (cmd : SelectionCommand) : Prop :=
  ∀ replay, (s.replays cmd.tenantId).find? cmd.replayKey = some replay →
    replay.sessionId = cmd.session.sessionId

/-- **Selection stays in its session** exactly when the ledger has no row under its key
    that another session of the principal put there. -/
theorem selection_stays_in_session_iff
    {tr : List (Transition SelectionState SelectionAction)} {i : ℕ}
    {colleagueId idempotencyKey : StableId} {requestDigest : Digest} {occurredAt : Instant}
    {cmd : SelectionCommand} {store : StoreVersion} {returned : AuthenticatedSession}
    {v : SelectionTables} (hpath : (selection ports).Path .initial tr s)
    (hcmd : s.command i colleagueId idempotencyKey requestDigest occurredAt = .ok cmd)
    (hselect : store.setActiveColleagueReplay ports.auditId s.tables cmd = .ok (returned, v)) :
    StaysInSession ports tr s cmd returned (s.write v) ↔ KeyIsOwn s cmd := by
  have howned := owned_of_reachable (hpath.reachable (.init rfl))
  have hheld := howned.command hcmd
  constructor
  · intro hstays replay hreplay
    have hreturned : returned = replay.result := by
      cases selected_of_setActiveColleagueReplay hselect with
      | replayed recorded _ =>
        rw [Option.some.inj (hreplay.symm.trans recorded)]
      | performed _ insert _ _ =>
        have hnone := (Table.insert?_eq_some.mp insert).1
        exact absurd (hreplay.symm.trans hnone) (by simp)
    rw [← (howned.recorded _ replay (Table.mem_of_find? hreplay)).1, ← hreturned]
    exact hstays.sessionId
  · intro hown
    cases selected_of_setActiveColleagueReplay hselect with
    | @replayed replay recorded digest =>
      have hmem := Table.mem_of_find? recorded
      obtain ⟨hid, hheld'⟩ := howned.recorded _ replay hmem
      have hsession := hown replay recorded
      have hkey : (replay.principalId, replay.idempotencyKey) = cmd.replayKey :=
        Table.key_of_find? recorded
      have hrow : cmd.rowKey = (replay.principalId, replay.sessionId) :=
        Prod.ext (congrArg Prod.fst hkey).symm hsession.symm
      obtain ⟨hdigest, hcsrf⟩ := hheld'.unique (hrow ▸ hheld)
      have hrecorded : ((s.write s.tables).replays cmd.tenantId).find? cmd.replayKey =
          some replay := recorded
      exact
        { sessionId := hid.trans hsession
          credentialDigest := hdigest
          csrfDigest := hcsrf
          first := by
            intro hnone
            obtain ⟨e, he, hselects⟩ :=
              selectsWith_of_path hpath hmem rfl hrow (congrArg Prod.snd hkey).symm
            exact absurd hselects (hnone e he)
          repeated := fun _ _ hpath' store' cmd' hrepeats =>
            repeated_of_recorded hrecorded digest hpath' store' hrepeats }
    | @performed row replays v found insert ledger sessions =>
      have hrecorded : ((s.write v).replays cmd.tenantId).find? cmd.replayKey = some cmd.replay := by
        show (v.replays cmd.tenantId).find? _ = _
        rw [ledger, Function.update_self]
        exact (Table.find?_insert insert _).trans (if_pos rfl)
      have hrowKey : Keyed.key (selectedRow row cmd.colleagueId) = cmd.rowKey := by
        have hkey := Table.key_of_find? found
        exact hkey
      exact
        { sessionId := rfl
          credentialDigest := rfl
          csrfDigest := rfl
          first := by
            intro _
            constructor
            · refine ⟨selectedRow row cmd.colleagueId, ?_, rfl⟩
              show (v.host.tenant cmd.tenantId).sessions.find? _ = _
              rw [sessions, if_pos rfl, ← hrowKey]
              exact Table.find?_replace_self (hrowKey ▸ found)
            · intro tenantId k hk
              show (v.host.tenant tenantId).sessions.find? k = _
              rw [sessions]
              split
              · rename_i hid
                rw [hid] at hk ⊢
                refine Table.find?_replace_of_ne fun he => hk ?_
                rw [he, hrowKey]
              · rfl
          repeated := fun _ _ hpath' store' cmd' hrepeats =>
            repeated_of_recorded hrecorded rfl hpath' store' hrepeats }

-- ════════════════════════════════════════════════════════════════════════
-- Concrete runs
-- ════════════════════════════════════════════════════════════════════════

theorem exists_selection_path (ports : HostPorts) (as : List (SelectionState → SelectionAction))
    (p : List (Transition SelectionState SelectionAction) → SelectionState → Bool)
    (h : TransitionSystem.runsTo (SelectionState.exec ports) .initial as p = true) :
    ∃ tr s, (selection ports).Path .initial tr s ∧ p tr s = true :=
  TransitionSystem.exists_path_of_runsTo (fun _ _ _ hs => hs) h

def sampleColleagueId : StableId :=
  InitialColleagueService.colleagueId sampleHostPorts (sampleCaller 30) sampleInitialRequest

/-- The first Admin with an initial colleague, authenticated with its first session. -/
def sampleAuthenticated : List (SelectionState → SelectionAction) :=
  (sampleHostBootstrap ++ [sampleInitialColleague 30]).map (fun a s => .host (a s.host)) ++
    [fun _ => .authenticate sampleTenant 1 40]

theorem sampleRecovery_expires : (50 : Instant) < 150 := by decide

theorem sampleRecovery_scopes : ColleagueScopes.all.WellFormed false := by decide

/-- A recovery of the first Admin. -/
def sampleRecovery : GovernanceCredential where
  credentialId := stableId "recovery-1"
  kind := .recovery firstAdmin 1 1
  state := .authorized
  colleagueIds := .all
  issuedByPrincipalId := firstAdmin
  issuedAt := 50
  expiresAt := 150
  correlationId := stableId "recovery-1"
  causationId := firstAdmin
  tokenDigest := none
  retrievedAt := none
  consumedAt := none
  revokedAt := none
  consumedPrincipalId := none
  revision := 1
  expires := sampleRecovery_expires
  scopes := sampleRecovery_scopes

def sampleTenantAction (action : TenantAction) : SelectionAction :=
  .host (.tenant sampleTenant action)

/-- The session that the recovery starts. -/
def sampleSecondSession : AuthenticatedSession :=
  sessionOf (sampleSession (stableId "session-2") 2) (.human firstAdmin .tenantAdmin)

def sampleConsumesRecovery : TenantAction := .consumeRecovery 9 sampleSecondSession 70

/-- A recovery that is ready for its use. -/
def sampleRetrieved : List (SelectionState → SelectionAction) :=
  [fun s => match (s.tenant sampleTenant).membershipForPrincipal firstAdmin with
    | .ok m => sampleTenantAction (.authorizeRecovery sampleRecovery m)
    | .error _ => .authenticate sampleTenant 1 50,
    fun _ => sampleTenantAction (.claimCredentialSecret (stableId "recovery-1") 9 60)]

/-- The credential of the first session is the first Admin's, and after the recovery the
    one of the second session is accepted. -/
def sampleRecovers (s : SelectionState) : Bool :=
  match (s.tenant sampleTenant).governedSession 1 65,
    s.exec sampleHostPorts (sampleTenantAction sampleConsumesRecovery) with
  | .ok (session, _), .ok t => decide (session.principal.principalId = firstAdmin) &&
    ((t.tenant sampleTenant).governedSession 2 80).toOption.isSome
  | _, _ => false

/-- A recovery of the first Admin: its first session was accepted until then, and its
    second one is accepted afterwards. -/
theorem sessions_end_with_authority_recovery : ∃ s t before x,
    (selection sampleHostPorts).Reachable s ∧
    (s.tenant sampleTenant).governedSession 1 65 = .ok before ∧
    (selection sampleHostPorts).step s (sampleTenantAction sampleConsumesRecovery) t ∧
    (∀ evaluatedAt y, (t.tenant sampleTenant).governedSession 1 evaluatedAt ≠ .ok y) ∧
    (t.tenant sampleTenant).governedSession 2 80 = .ok x ∧
    (t.tenant sampleTenant).toAuthorityTables.CarriedBy x.1 := by
  obtain ⟨tr, s, hpath, hp⟩ := exists_selection_path sampleHostPorts
    (sampleAuthenticated ++ sampleRetrieved) (fun _ s => sampleRecovers s) (by decide +kernel)
  simp only [sampleRecovers] at hp
  split at hp
  · rename_i session membership t hsession ht
    obtain ⟨hadmin, hsecond⟩ := Bool.and_eq_true_iff.mp hp
    obtain ⟨x, hx⟩ := Option.isSome_iff_exists.mp hsecond
    have hs : (selection sampleHostPorts).Reachable s := hpath.reachable (.init rfl)
    have haccepted := TenantTables.governedSession_eq_ok hsession
    obtain ⟨row, hrow, hfields, hid, _⟩ := haccepted.open_row
    obtain ⟨hends, hcarried⟩ := sessions_end_with_authority sampleHostPorts
    have hrefused := hends s t t [] sampleTenant firstAdmin _ hs ht rfl .refl row hrow
      (hid.trans (of_decide_eq_true hadmin))
    rw [show row.credentialDigest = 1 by rw [← haccepted.credentialDigest, ← hfields]] at hrefused
    have hx := toOption_eq_some.mp hx
    exact ⟨s, t, _, x, hs, hsession, ht, hrefused, hx,
      hcarried t (hs.step ht) sampleTenant 2 80 x.1 x.2 hx⟩
  · exact absurd hp (by simp)

/-- A selection of the colleague with one key, by an authenticated caller. -/
def sampleSelects (i : ℕ) (occurredAt : Instant) : SelectionState → SelectionAction :=
  fun _ => .setActiveColleagueReplay .p11 i sampleColleagueId (stableId "key-1") 5 occurredAt

/-- What a caller's selection is and returns. -/
def sampleAnswer (s : SelectionState) (i : ℕ) (occurredAt : Instant) :
    Outcome (SelectionCommand × AuthenticatedSession × SelectionTables) := do
  let cmd ← s.command i sampleColleagueId (stableId "key-1") 5 occurredAt
  let answer ← StoreVersion.p11.setActiveColleagueReplay sampleHostPorts.auditId s.tables cmd
  pure (cmd, answer)

/-- The answer to a caller's selection meets a condition. -/
def sampleAnswers (s : SelectionState) (i : ℕ) (occurredAt : Instant)
    (q : SelectionCommand → AuthenticatedSession → Bool) : Bool :=
  match sampleAnswer s i occurredAt with
  | .ok (cmd, returned, _) => q cmd returned
  | .error _ => false

theorem exists_of_sampleAnswers {i : ℕ} {occurredAt : Instant}
    {q : SelectionCommand → AuthenticatedSession → Bool}
    (h : sampleAnswers s i occurredAt q = true) :
    ∃ cmd returned v, s.command i sampleColleagueId (stableId "key-1") 5 occurredAt = .ok cmd ∧
      StoreVersion.p11.setActiveColleagueReplay sampleHostPorts.auditId s.tables cmd =
        .ok (returned, v) ∧ q cmd returned = true := by
  unfold sampleAnswers at h
  split at h
  · rename_i cmd returned v hanswer
    simp only [sampleAnswer, bind_eq_ok, pure_eq_ok, Prod.mk.injEq] at hanswer
    obtain ⟨_, hcmd, _, hselect, rfl, rfl⟩ := hanswer
    exact ⟨_, returned, v, hcmd, hselect, h⟩
  · exact absurd h (by simp)

/-- The first selection of a session stays in it. -/
theorem selection_stays_in_session_first : ∃ tr s i cmd returned v,
    (selection sampleHostPorts).Path .initial tr s ∧
    s.command i sampleColleagueId (stableId "key-1") 5 41 = .ok cmd ∧
    StoreVersion.p11.setActiveColleagueReplay sampleHostPorts.auditId s.tables cmd =
      .ok (returned, v) ∧
    StaysInSession sampleHostPorts tr s cmd returned (s.write v) := by
  obtain ⟨tr, s, hpath, hp⟩ := exists_selection_path sampleHostPorts sampleAuthenticated
    (fun _ s => sampleAnswers s 0 41 fun cmd _ =>
      ((s.replays cmd.tenantId).find? cmd.replayKey).isNone)
    (by decide +kernel)
  obtain ⟨cmd, returned, v, hcmd, hselect, hnone⟩ := exists_of_sampleAnswers hp
  refine ⟨tr, s, 0, cmd, returned, v, hpath, hcmd, hselect,
    (selection_stays_in_session_iff hpath hcmd hselect).mpr fun replay hreplay => ?_⟩
  rw [hreplay] at hnone
  exact absurd hnone (by simp)

/-- A key used again after a recovery returns the record of the session before it, and
    the new session keeps its colleague. -/
theorem not_selection_stays_in_session : ¬∀ (ports : HostPorts)
    (tr : List (Transition SelectionState SelectionAction)) (s : SelectionState) (i : ℕ)
    (colleagueId idempotencyKey : StableId) (requestDigest : Digest) (occurredAt : Instant)
    (cmd : SelectionCommand) (store : StoreVersion) (returned : AuthenticatedSession)
    (v : SelectionTables),
    (selection ports).Path .initial tr s →
    s.command i colleagueId idempotencyKey requestDigest occurredAt = .ok cmd →
    store.setActiveColleagueReplay ports.auditId s.tables cmd = .ok (returned, v) →
    StaysInSession ports tr s cmd returned (s.write v) := by
  intro hall
  obtain ⟨tr, s, hpath, hp⟩ := exists_selection_path sampleHostPorts
    (sampleAuthenticated ++ [sampleSelects 0 41] ++ sampleRetrieved ++
      [fun _ => sampleTenantAction sampleConsumesRecovery, fun _ => .authenticate sampleTenant 2 80])
    (fun _ s => sampleAnswers s 1 81 fun cmd returned =>
      decide (returned.sessionId ≠ cmd.session.sessionId))
    (by decide +kernel)
  obtain ⟨cmd, returned, v, hcmd, hselect, hother⟩ := exists_of_sampleAnswers hp
  have hstays := hall _ tr s 1 _ _ _ _ cmd .p11 returned v hpath hcmd hselect
  exact (of_decide_eq_true hother) hstays.sessionId

end SelectionState

end DigitalColleagues
