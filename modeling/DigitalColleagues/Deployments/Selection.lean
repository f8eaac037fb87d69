import DigitalColleagues.Deployments.Moves
import DigitalColleagues.Governance.Sessions

/-!
# The selection of a colleague

The colleague that a session works with, in the store without deployments and in
the one with them. Both keep their replay rows in one ledger, under the principal
and the idempotency key. A caller hands in the session it was authenticated with,
however long ago.

## Main definitions

- `P6Store.setActiveColleagueReplay`, `P11Store.setActiveColleagueReplay`
- `SelectionAction`, `selection` — the system of a host and its sessions
- `StaysInSession` — what a selection must do to its own session only
-/

namespace DigitalColleagues

-- ════════════════════════════════════════════════════════════════════════
-- Transactions
-- ════════════════════════════════════════════════════════════════════════

/-- The arguments of a selection, and the tenant of its session. -/
structure SelectionCommand where
  tenantId : StableId
  session : AuthenticatedSession
  colleagueId : StableId
  idempotencyKey : StableId
  requestDigest : Digest
  occurredAt : Instant

namespace SelectionCommand

variable (cmd : SelectionCommand)

/-- The key of the session's row. -/
def rowKey : StableId × StableId := (cmd.session.principal.principalId, cmd.session.sessionId)

/-- The key of the replay row, which does not name the session. -/
def replayKey : StableId × StableId := (cmd.session.principal.principalId, cmd.idempotencyKey)

/-- The session with its new colleague. -/
def updated : AuthenticatedSession :=
  { cmd.session with
    activeColleagueId := some cmd.colleagueId
    revision := cmd.session.revision + 1 }

def replay : MutationReplay AuthenticatedSession :=
  ⟨cmd.session.principal.principalId, cmd.session.sessionId, cmd.idempotencyKey,
    cmd.requestDigest, cmd.updated⟩

/-- Two commands with one key in one session. -/
structure SameKey (cmd' : SelectionCommand) : Prop where
  tenantId : cmd'.tenantId = cmd.tenantId
  rowKey : cmd'.rowKey = cmd.rowKey
  idempotencyKey : cmd'.idempotencyKey = cmd.idempotencyKey

/-- A repetition of a command; the record of the session may be a newer one. -/
structure Repeats (cmd' : SelectionCommand) : Prop extends cmd.SameKey cmd' where
  colleagueId : cmd'.colleagueId = cmd.colleagueId
  requestDigest : cmd'.requestDigest = cmd.requestDigest

end SelectionCommand

/-- The row of a session with another colleague. -/
def selectedRow (row : SessionRow) (colleagueId : StableId) : SessionRow :=
  { row with
    activeColleagueId := some colleagueId
    revision := row.revision + 1 }

/-- The host with other sessions of a tenant. -/
def HostTables.withSessions (s : HostTables) (tenantId : StableId) (sessions : Table SessionRow) :
    HostTables :=
  s.withTenant tenantId { s.tenant tenantId with sessions := sessions }

/-- A profile is recorded in a colleague's namespace. -/
def HostTables.hasProfile (s : HostTables) (tenantId colleagueId : StableId) : Bool :=
  !(s.configuration tenantId colleagueId).profiles.domain.rows.isEmpty

/-- The tables of a host with the replay rows of the selections of each tenant. -/
structure SelectionTables where
  host : HostTables
  replays : StableId → Table (MutationReplay AuthenticatedSession)

namespace SelectionTables

/-- What both stores do. They differ in the action they ask authority for, in the
    record they look for and in what they do with it. -/
def select {α : Type} (s : SelectionTables) (cmd : SelectionCommand)
    (action : AuthorizationAction) (refused : Failure) (locate : Outcome α)
    (record : α → HostTables → Outcome HostTables) :
    Outcome (AuthenticatedSession × SelectionTables) := do
  let tenant := s.host.tenant cmd.tenantId
  let membership ← tenant.requireCurrentMembership cmd.session.principal action
    (.colleague cmd.colleagueId)
  match (s.replays cmd.tenantId).find? cmd.replayKey with
  | some replay =>
    require (replay.requestDigest = cmd.requestDigest)
      (.replayConflict "active colleague idempotency key was rebound")
    pure (replay.result, s)
  | none =>
    let row ← orFail ((tenant.sessions.find? cmd.rowKey).filter fun row =>
      decide (row.revokedAt = none)) refused
    let current ← tenant.sessionFromRow row
    require (current = cmd.session ∧ cmd.session.roleRevision = membership.roleRevision ∧
      cmd.session.membershipRevision = membership.membershipRevision) refused
    let target ← locate
    let replays ← orFail ((s.replays cmd.tenantId).insert? cmd.replay) .integrity
    let host ← record target (s.host.withSessions cmd.tenantId
      (tenant.sessions.replace (selectedRow row cmd.colleagueId)))
    pure (cmd.updated, ⟨host, Function.update s.replays cmd.tenantId replays⟩)

end SelectionTables

/-- `set_active_colleague_replay`, before there were deployments. -/
def P6Store.setActiveColleagueReplay (s : SelectionTables) (cmd : SelectionCommand) :
    Outcome (AuthenticatedSession × SelectionTables) :=
  s.select cmd .readColleague (.permissionDenied "session namespace binding was refused")
    (require (s.host.hasProfile cmd.tenantId cmd.colleagueId = true)
      (.notFound "active colleague namespace was not found"))
    fun _ host => .ok host

namespace P11Store

/-- The audit entry of a selection. -/
def selectedEntry (cmd : SelectionCommand) (deployment : ColleagueDeployment) : AuditEntry where
  recordType := .colleagueDeployment
  recordId := deployment.deploymentId.val
  recordRevision := deployment.revision
  action := "deployment_selected"
  result := deployment.lifecycle.value
  actorPrincipalId := cmd.session.principal.principalId
  causationId := cmd.idempotencyKey
  tenantId := cmd.tenantId
  ns := .colleague cmd.colleagueId
  actorKind := cmd.session.principal.kind
  correlationId := cmd.session.sessionId
  occurredAt := cmd.occurredAt
  projection := .selected deployment.lifecycle deployment.package.digest

/-- `set_active_colleague_replay`. -/
def setActiveColleagueReplay (auditId : String → StableId) (s : SelectionTables)
    (cmd : SelectionCommand) : Outcome (AuthenticatedSession × SelectionTables) :=
  s.select cmd .selectDeployment (.permissionDenied "session deployment binding was refused")
    (s.host.getDeployment cmd.tenantId cmd.colleagueId)
    fun deployment host => do
      let deployments ← host.deployments.audit auditId (selectedEntry cmd deployment)
      pure { host with deployments := deployments }

end P11Store

/-- The two stores. -/
inductive StoreVersion
  | p6
  | p11

namespace StoreVersion

def action : StoreVersion → AuthorizationAction
  | .p6 => .readColleague
  | .p11 => .selectDeployment

def setActiveColleagueReplay (auditId : String → StableId) :
    StoreVersion → SelectionTables → SelectionCommand →
      Outcome (AuthenticatedSession × SelectionTables)
  | .p6 => P6Store.setActiveColleagueReplay
  | .p11 => P11Store.setActiveColleagueReplay auditId

end StoreVersion

/-- `set_active_colleague`, which asks for no authority and keeps no replay row. -/
def HostTables.setActiveColleague (s : HostTables) (tenantId : StableId)
    (session : AuthenticatedSession) (colleagueId : StableId) : Outcome HostTables := do
  require (s.hasProfile tenantId colleagueId = true)
    (.notFound "active colleague namespace was not found")
  let stale : Failure := .conflict "session namespace binding is stale"
  let sessions := (s.tenant tenantId).sessions
  let row ← orFail (sessions.find? (session.principal.principalId, session.sessionId)) stale
  require (row.revision = session.revision) stale
  pure (s.withSessions tenantId (sessions.replace (selectedRow row colleagueId)))

-- ════════════════════════════════════════════════════════════════════════
-- The system
-- ════════════════════════════════════════════════════════════════════════

/-- A host, the replay rows of its selections, and the sessions its callers were
    authenticated with so far. -/
structure SelectionState where
  host : HostState
  replays : StableId → Table (MutationReplay AuthenticatedSession)
  accepted : List (StableId × AuthenticatedSession)

inductive SelectionAction
  | host (action : HostAction)
  | createInitialColleague (cmd : InitialColleagueCommand)
  | authenticate (tenantId : StableId) (credentialDigest : Digest) (evaluatedAt : Instant)
  | setActiveColleague (accepted : ℕ) (colleagueId : StableId)
  | setActiveColleagueReplay (store : StoreVersion) (accepted : ℕ)
      (colleagueId idempotencyKey : StableId) (requestDigest : Digest) (occurredAt : Instant)

namespace SelectionState

def initial : SelectionState := ⟨.initial, fun _ => .empty, []⟩

def tables (s : SelectionState) : SelectionTables := ⟨s.host.tables, s.replays⟩

def tenant (s : SelectionState) (tenantId : StableId) : TenantTables :=
  s.host.tables.tenant tenantId

/-- The state after a transaction. -/
def write (s : SelectionState) (t : SelectionTables) : SelectionState :=
  { s with host := s.host.advance t.host, replays := t.replays }

/-- A session that a caller was authenticated with. -/
def caller (s : SelectionState) (i : ℕ) : Outcome (StableId × AuthenticatedSession) :=
  orFail s.accepted[i]? (.permissionDenied "authenticated session was refused")

/-- The command of a caller. -/
def command (s : SelectionState) (i : ℕ) (colleagueId idempotencyKey : StableId)
    (requestDigest : Digest) (occurredAt : Instant) : Outcome SelectionCommand := do
  let (tenantId, session) ← s.caller i
  pure ⟨tenantId, session, colleagueId, idempotencyKey, requestDigest, occurredAt⟩

def exec (ports : HostPorts) (s : SelectionState) : SelectionAction → Outcome SelectionState
  | .host action => do
    let host ← s.host.exec ports action
    pure { s with host := host }
  | .createInitialColleague cmd => do
    let store ← (s.host.tables.tenants cmd.tenantId).insertInitialColleague cmd
    pure { s with host := s.host.advance (s.host.tables.withStore cmd.tenantId store) }
  | .authenticate tenantId credentialDigest evaluatedAt => do
    let (session, _) ← (s.tenant tenantId).governedSession credentialDigest evaluatedAt
    pure { s with accepted := s.accepted ++ [(tenantId, session)] }
  | .setActiveColleague accepted colleagueId => do
    let (tenantId, session) ← s.caller accepted
    let tables ← s.host.tables.setActiveColleague tenantId session colleagueId
    pure { s with host := s.host.advance tables }
  | .setActiveColleagueReplay store accepted colleagueId idempotencyKey requestDigest
      occurredAt => do
    let cmd ← s.command accepted colleagueId idempotencyKey requestDigest occurredAt
    let (_, tables) ← store.setActiveColleagueReplay ports.auditId s.tables cmd
    pure (s.write tables)

end SelectionState

/-- A host with the sessions of its callers. -/
def selection (ports : HostPorts) : TransitionSystem SelectionState SelectionAction where
  init s := s = .initial
  step s a t := s.exec ports a = .ok t

-- ════════════════════════════════════════════════════════════════════════
-- What a selection does
-- ════════════════════════════════════════════════════════════════════════

theorem HostTables.tenant_withStore (s : HostTables) (tenantId other : StableId)
    (store : TenantStore) : (s.withStore tenantId store).tenant other =
      if other = tenantId then store.tenant else s.tenant other := by
  dsimp only [HostTables.tenant, HostTables.withStore]
  by_cases hother : other = tenantId
  · rw [if_pos hother, hother, Function.update_self]
  · rw [if_neg hother, Function.update_of_ne hother]

/-- The sessions of a tenant, after a write of the sessions of one. -/
theorem HostTables.sessions_withSessions (s : HostTables) (tenantId other : StableId)
    (sessions : Table SessionRow) : ((s.withSessions tenantId sessions).tenant other).sessions =
      if other = tenantId then sessions else (s.tenant other).sessions := by
  dsimp only [HostTables.withSessions, HostTables.withTenant]
  rw [HostTables.tenant_withStore]
  split <;> rfl

/-- What a selection does that succeeds: it finds its key in the ledger and does
    nothing, or it changes the row of its session and records that. -/
inductive Selected (s : SelectionTables) (cmd : SelectionCommand) :
    AuthenticatedSession → SelectionTables → Prop
  | replayed {replay : MutationReplay AuthenticatedSession}
      (recorded : (s.replays cmd.tenantId).find? cmd.replayKey = some replay)
      (digest : replay.requestDigest = cmd.requestDigest) : Selected s cmd replay.result s
  | performed {row : SessionRow} {replays : Table (MutationReplay AuthenticatedSession)}
      {t : SelectionTables}
      (found : (s.host.tenant cmd.tenantId).sessions.find? cmd.rowKey = some row)
      (insert : (s.replays cmd.tenantId).insert? cmd.replay = some replays)
      (ledger : t.replays = Function.update s.replays cmd.tenantId replays)
      (sessions : ∀ tenantId, (t.host.tenant tenantId).sessions =
        if tenantId = cmd.tenantId then
          (s.host.tenant tenantId).sessions.replace (selectedRow row cmd.colleagueId)
        else (s.host.tenant tenantId).sessions) :
      Selected s cmd cmd.updated t

theorem selected_of_select {α : Type} {s t : SelectionTables} {cmd : SelectionCommand}
    {action : AuthorizationAction} {refused : Failure} {locate : Outcome α}
    {record : α → HostTables → Outcome HostTables} {returned : AuthenticatedSession}
    (hrecord : ∀ a host host', record a host = .ok host' →
      ∀ tenantId, host'.tenant tenantId = host.tenant tenantId)
    (h : s.select cmd action refused locate record = .ok (returned, t)) :
    Selected s cmd returned t := by
  simp only [SelectionTables.select, bind_eq_ok] at h
  obtain ⟨m, _, h⟩ := h
  split at h
  · rename_i replay hreplay
    simp only [bind_eq_ok, require_eq_ok, pure_eq_ok, exists_const, Prod.mk.injEq] at h
    obtain ⟨hdigest, rfl, rfl⟩ := h
    exact .replayed hreplay hdigest
  · simp only [bind_eq_ok, require_eq_ok, orFail_eq_ok, pure_eq_ok, exists_const, Prod.mk.injEq,
      Option.filter_eq_some_iff] at h
    obtain ⟨row, ⟨hrow, _⟩, _, _, _, a, _, replays, hinsert, host, hhost, rfl, rfl⟩ := h
    refine .performed hrow hinsert rfl fun tenantId => ?_
    dsimp only
    rw [hrecord a _ _ hhost tenantId, HostTables.sessions_withSessions]
    split
    · rename_i heq
      rw [heq]
    · rfl

theorem selected_of_setActiveColleagueReplay {auditId : String → StableId} {store : StoreVersion}
    {s t : SelectionTables} {cmd : SelectionCommand} {returned : AuthenticatedSession}
    (h : store.setActiveColleagueReplay auditId s cmd = .ok (returned, t)) :
    Selected s cmd returned t := by
  cases store with
  | p6 =>
    simp only [StoreVersion.setActiveColleagueReplay, P6Store.setActiveColleagueReplay] at h
    refine selected_of_select ?_ h
    intro _ host host' hhost tenantId
    rw [Except.ok.inj hhost]
  | p11 =>
    simp only [StoreVersion.setActiveColleagueReplay, P11Store.setActiveColleagueReplay] at h
    refine selected_of_select ?_ h
    intro _ host host' hhost tenantId
    simp only [bind_eq_ok, pure_eq_ok] at hhost
    obtain ⟨_, _, rfl⟩ := hhost
    rfl

/-- A command in the ledger gets the recorded answer, if there is authority for it. -/
theorem setActiveColleagueReplay_of_recorded {auditId : String → StableId} (store : StoreVersion)
    {s : SelectionTables} {cmd : SelectionCommand} {replay : MutationReplay AuthenticatedSession}
    (hreplay : (s.replays cmd.tenantId).find? cmd.replayKey = some replay)
    (hdigest : replay.requestDigest = cmd.requestDigest) :
    store.setActiveColleagueReplay auditId s cmd =
      ((s.host.tenant cmd.tenantId).requireCurrentMembership cmd.session.principal store.action
        (.colleague cmd.colleagueId)).map fun _ => (replay.result, s) := by
  cases store <;>
  · simp only [StoreVersion.setActiveColleagueReplay, P6Store.setActiveColleagueReplay,
      P11Store.setActiveColleagueReplay, SelectionTables.select, StoreVersion.action, hreplay,
      hdigest, require, if_true]
    cases (s.host.tenant cmd.tenantId).requireCurrentMembership _ _ _ <;> rfl

-- ════════════════════════════════════════════════════════════════════════
-- Steps
-- ════════════════════════════════════════════════════════════════════════

theorem sessions_of_insertInitialColleague {s t : TenantStore} {cmd : InitialColleagueCommand}
    (h : s.insertInitialColleague cmd = .ok t) : t.tenant.sessions = s.tenant.sessions := by
  simp only [TenantStore.insertInitialColleague, bind_eq_ok, require_eq_ok, pure_eq_ok,
    exists_const] at h
  obtain ⟨_, _, _, _, _, tenant, htenant, _, _, rfl⟩ := h
  rw [TenantStore.tenant_writeConfiguration]
  exact TenantTables.sessions_of_insertRuntimePrincipals htenant

theorem sessions_of_insertDraftColleague {s t : TenantStore} {draft : DeploymentDraft}
    {modelPrincipal servicePrincipal : Principal}
    (h : s.insertDraftColleague draft modelPrincipal servicePrincipal = .ok t) :
    t.tenant.sessions = s.tenant.sessions := by
  simp only [TenantStore.insertDraftColleague, bind_eq_ok, pure_eq_ok] at h
  obtain ⟨_, hmodel, _, hservice, _, _, _, _, rfl⟩ := h
  obtain ⟨_, _, _, rfl⟩ := TenantTables.insertPrincipal_eq_ok hmodel
  obtain ⟨_, _, _, rfl⟩ := TenantTables.insertPrincipal_eq_ok hservice
  rw [TenantStore.tenant_writeConfiguration]

/-- A write to the store of one tenant that keeps its sessions. -/
theorem sessions_withStore {s : HostTables} {tenantId : StableId} {store : TenantStore}
    (h : store.tenant.sessions = (s.tenant tenantId).sessions) (other : StableId) :
    ((s.withStore tenantId store).tenant other).sessions = (s.tenant other).sessions := by
  rw [HostTables.tenant_withStore]
  split
  · rename_i heq
    rw [heq, h]
  · rfl

/-- What a call does to no session. -/
theorem sessions_of_callEffect {ports : HostPorts} {ctx : CallContext} {looks : ℕ → HostTables}
    {s t : HostTables} {digest : Digest} {call : Call} {answer : CallAnswer}
    (h : CallEffect ports ctx looks s digest call answer t) (tenantId : StableId) :
    (t.tenant tenantId).sessions = (s.tenant tenantId).sessions := by
  cases h with
  | @confirmed _ _ _ _ _ deployment _ store d _ effect =>
    have hstore : store.tenant.sessions = (s.tenant ctx.tenantId).sessions := by
      have hbinds := effect.binds
      generalize d.deployments = deployments, deployment.toDeploymentFields = fields at hbinds
      cases hbinds with
      | created _ _ _ colleague => exact sessions_of_insertDraftColleague colleague
      | rebound => rfl
    exact sessions_withStore hstore tenantId
  | _ => rfl

/-- What a step of the host may do to the sessions of a tenant. -/
theorem sessionStep_of_hostExec {ports : HostPorts} {s t : HostState} {a : HostAction}
    (h : s.exec ports a = .ok t) (tenantId : StableId) :
    SessionStep (s.tables.tenant tenantId).sessions (t.tables.tenant tenantId).sessions := by
  cases a with
  | tenant owner action =>
    simp only [HostState.exec, bind_eq_ok, pure_eq_ok] at h
    obtain ⟨tenant, htenant, rfl⟩ := h
    dsimp only [HostState.advance, HostTables.withTenant]
    rw [HostTables.tenant_withStore]
    split
    · rename_i heq
      rw [heq]
      exact TenantTables.sessionStep_of_exec htenant
    · exact .refl _
  | read owner colleagueId read =>
    simp only [HostState.exec, bind_eq_ok, pure_eq_ok] at h
    obtain ⟨_, _, rfl⟩ := h
    exact .refl _
  | builder owner colleagueId action =>
    simp only [HostState.exec, bind_eq_ok, pure_eq_ok] at h
    obtain ⟨tables, _, rfl⟩ := h
    refine .of_eq (sessions_withStore ?_ tenantId)
    rw [TenantStore.tenant_writeConfiguration]
    rfl
  | confirmDraft owner colleagueId cmd =>
    simp only [HostState.exec, bind_eq_ok, Prod.exists, pure_eq_ok] at h
    obtain ⟨_, tenant, tables, hconfirm, rfl⟩ := h
    have hsessions := sessions_of_confirmDraft hconfirm
    refine .of_eq ((sessions_withStore ?_ tenantId).trans (sessions_withStore ?_ tenantId))
    · rw [TenantStore.tenant_writeConfiguration]
      rfl
    · exact hsessions
  | createInitialColleague ctx request =>
    have hmove := hostMove_of_exec h
    generalize t.tables = tables at hmove ⊢
    cases hmove with
    | idle _ elsewhere => exact elsewhere.elim
    | @initial _ _ cmd store _ _ command effect =>
      have hstore := sessions_of_insertInitialColleague effect.colleague
      exact .of_eq (sessions_withStore hstore tenantId)
  | call ctx call looks =>
    have hmove := hostMove_of_exec h
    generalize t.tables = tables at hmove ⊢
    cases hmove with
    | idle _ elsewhere => exact elsewhere.elim
    | call _ _ _ effect => exact .of_eq (sessions_of_callEffect effect tenantId)
    | replayed _ _ => exact .refl _

/-- Another colleague is all that changes in the row of a session. -/
theorem sessionStep_of_selectedRow {sessions : Table SessionRow} {k : StableId × StableId}
    {row : SessionRow} (h : sessions.find? k = some row) (colleagueId : StableId) :
    SessionStep sessions (sessions.replace (selectedRow row colleagueId)) := by
  have hkey := Table.key_of_find? h
  obtain rfl : Keyed.key (selectedRow row colleagueId) = k := hkey
  exact .replace h ⟨rfl, rfl, rfl, rfl, rfl, rfl, Nat.le_succ _, fun _ => rfl⟩

/-- The sessions of a tenant after a selection. -/
theorem sessionStep_of_selected {s t : SelectionTables} {cmd : SelectionCommand}
    {returned : AuthenticatedSession} (h : Selected s cmd returned t) (tenantId : StableId) :
    SessionStep (s.host.tenant tenantId).sessions (t.host.tenant tenantId).sessions := by
  cases h with
  | replayed => exact .refl _
  | @performed row _ _ found _ _ sessions =>
    rw [sessions]
    split
    · rename_i heq
      rw [heq]
      exact sessionStep_of_selectedRow found _
    · exact .refl _

theorem sessionStep_of_setActiveColleague {s t : HostTables} {owner colleagueId : StableId}
    {session : AuthenticatedSession} (h : s.setActiveColleague owner session colleagueId = .ok t)
    (tenantId : StableId) :
    SessionStep (s.tenant tenantId).sessions (t.tenant tenantId).sessions := by
  simp only [HostTables.setActiveColleague, bind_eq_ok, require_eq_ok, orFail_eq_ok, pure_eq_ok,
    exists_const] at h
  obtain ⟨_, row, hrow, _, rfl⟩ := h
  rw [HostTables.sessions_withSessions]
  split
  · rename_i heq
    rw [heq]
    exact sessionStep_of_selectedRow hrow _
  · exact .refl _

namespace SelectionState

variable {ports : HostPorts} {s t u : SelectionState}

/-- The steps that are no selection with a key keep the ledger. -/
theorem cases_of_exec {a : SelectionAction} (h : s.exec ports a = .ok t) :
    (∃ store i colleagueId idempotencyKey requestDigest occurredAt cmd returned tables,
      a = .setActiveColleagueReplay store i colleagueId idempotencyKey requestDigest occurredAt ∧
      s.command i colleagueId idempotencyKey requestDigest occurredAt = .ok cmd ∧
      Selected s.tables cmd returned tables ∧ t = s.write tables) ∨
    t.replays = s.replays ∧
      ∀ tenantId, SessionStep (s.tenant tenantId).sessions (t.tenant tenantId).sessions := by
  cases a with
  | host action =>
    simp only [exec, bind_eq_ok, pure_eq_ok] at h
    obtain ⟨host, hhost, rfl⟩ := h
    exact .inr ⟨rfl, sessionStep_of_hostExec hhost⟩
  | createInitialColleague cmd =>
    simp only [exec, bind_eq_ok, pure_eq_ok] at h
    obtain ⟨store, hstore, rfl⟩ := h
    have hsessions := sessions_of_insertInitialColleague hstore
    exact .inr ⟨rfl, fun tenantId => .of_eq (sessions_withStore hsessions tenantId)⟩
  | authenticate tenantId credentialDigest evaluatedAt =>
    simp only [exec, bind_eq_ok, pure_eq_ok, Prod.exists] at h
    obtain ⟨_, _, _, rfl⟩ := h
    exact .inr ⟨rfl, fun _ => .refl _⟩
  | setActiveColleague accepted colleagueId =>
    simp only [exec, bind_eq_ok, pure_eq_ok, Prod.exists] at h
    obtain ⟨_, _, _, tables, htables, rfl⟩ := h
    exact .inr ⟨rfl, sessionStep_of_setActiveColleague htables⟩
  | setActiveColleagueReplay store accepted colleagueId idempotencyKey requestDigest occurredAt =>
    simp only [exec, bind_eq_ok, pure_eq_ok, Prod.exists] at h
    obtain ⟨cmd, hcmd, returned, tables, htables, rfl⟩ := h
    exact .inl ⟨store, accepted, colleagueId, idempotencyKey, requestDigest, occurredAt, cmd,
      returned, tables, rfl, hcmd, selected_of_setActiveColleagueReplay htables, rfl⟩

theorem sessionStep_of_exec {a : SelectionAction} (h : s.exec ports a = .ok t)
    (tenantId : StableId) :
    SessionStep (s.tenant tenantId).sessions (t.tenant tenantId).sessions := by
  rcases cases_of_exec h with ⟨_, _, _, _, _, _, cmd, _, tables, _, _, hselected, rfl⟩ | ⟨_, hstep⟩
  · exact sessionStep_of_selected hselected tenantId
  · exact hstep tenantId

/-- A replay row stays as it is. -/
theorem replays_of_exec {a : SelectionAction} (h : s.exec ports a = .ok t) (tenantId : StableId) :
    (s.replays tenantId).Within (t.replays tenantId) := by
  rcases cases_of_exec h with ⟨_, _, _, _, _, _, cmd, _, tables, _, _, hselected, rfl⟩ | ⟨heq, _⟩
  · cases hselected with
    | replayed => exact .refl _
    | performed _ insert ledger _ =>
      show Table.Within _ (tables.replays tenantId)
      rw [ledger]
      by_cases hid : tenantId = cmd.tenantId
      · rw [hid, Function.update_self]
        exact Table.within_insert insert
      · rw [Function.update_of_ne hid]
        exact .refl _
  · rw [heq]
    exact .refl _

theorem sessionStep_of_path {tr : List (Transition SelectionState SelectionAction)}
    (h : (selection ports).Path s tr t) (tenantId : StableId) :
    SessionStep (s.tenant tenantId).sessions (t.tenant tenantId).sessions :=
  h.rel (R := fun s t => SessionStep (s.tenant tenantId).sessions (t.tenant tenantId).sessions)
    (fun _ => .refl _) (fun _ _ _ => .trans) fun _ _ _ hst => sessionStep_of_exec hst tenantId

theorem replays_of_path {tr : List (Transition SelectionState SelectionAction)}
    (h : (selection ports).Path s tr t) (tenantId : StableId) :
    (s.replays tenantId).Within (t.replays tenantId) :=
  h.rel (R := fun s t => (s.replays tenantId).Within (t.replays tenantId))
    (fun _ => .refl _) (fun _ _ _ => .trans) fun _ _ _ hst => replays_of_exec hst tenantId

end SelectionState

end DigitalColleagues
