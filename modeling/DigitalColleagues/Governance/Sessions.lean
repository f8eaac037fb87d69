import DigitalColleagues.Governance.Moves

/-!
# Sessions

What the row of a session keeps for good, what the transactions of a tenant do to
the sessions, and which sessions are accepted.

## Main definitions

- `SessionRow.Continues`, `SessionStep` — what may happen to the sessions
- `TenantTables.governedSession` — the acceptance of a session
- `TenantTables.EndsSessions` — the actions after which a principal starts anew
-/

namespace DigitalColleagues

-- ════════════════════════════════════════════════════════════════════════
-- Rows
-- ════════════════════════════════════════════════════════════════════════

/-- A later row of the same session: it may select another colleague, and its
    revocation is final. -/
structure SessionRow.Continues (r r' : SessionRow) : Prop where
  credentialDigest : r'.credentialDigest = r.credentialDigest
  csrfDigest : r'.csrfDigest = r.csrfDigest
  createdAt : r'.createdAt = r.createdAt
  expiresAt : r'.expiresAt = r.expiresAt
  roleRevision : r'.roleRevision = r.roleRevision
  membershipRevision : r'.membershipRevision = r.membershipRevision
  revision : r.revision ≤ r'.revision
  revoked : r.revokedAt.isSome = true → r'.revokedAt = r.revokedAt

namespace SessionRow.Continues

theorem refl (r : SessionRow) : r.Continues r :=
  ⟨rfl, rfl, rfl, rfl, rfl, rfl, le_rfl, fun _ => rfl⟩

theorem trans {r r' r'' : SessionRow} (h : r.Continues r') (h' : r'.Continues r'') :
    r.Continues r'' where
  credentialDigest := h'.credentialDigest.trans h.credentialDigest
  csrfDigest := h'.csrfDigest.trans h.csrfDigest
  createdAt := h'.createdAt.trans h.createdAt
  expiresAt := h'.expiresAt.trans h.expiresAt
  roleRevision := h'.roleRevision.trans h.roleRevision
  membershipRevision := h'.membershipRevision.trans h.membershipRevision
  revision := h.revision.trans h'.revision
  revoked hr := by
    have hr' := h.revoked hr
    exact (h'.revoked (by rw [hr', hr])).trans hr'

end SessionRow.Continues

/-- The unique index on the credential digest. -/
def DistinctCredentials (sessions : Table SessionRow) : Prop :=
  ∀ r ∈ sessions, ∀ r' ∈ sessions, r.credentialDigest = r'.credentialDigest → r = r'

/-- What may happen to the sessions of a tenant: none is lost, each continues, and
    no credential becomes that of two sessions. -/
structure SessionStep (sessions sessions' : Table SessionRow) : Prop where
  persists : sessions.Persists SessionRow.Continues sessions'
  distinct : DistinctCredentials sessions → DistinctCredentials sessions'

namespace SessionStep

variable {t u v : Table SessionRow}

theorem refl (t : Table SessionRow) : SessionStep t t :=
  ⟨Table.Persists.refl SessionRow.Continues.refl t, fun h => h⟩

theorem of_eq (h : u = t) : SessionStep t u := h ▸ refl t

theorem trans (h : SessionStep t u) (h' : SessionStep u v) : SessionStep t v :=
  ⟨h.persists.trans (fun _ _ _ hr hr' => hr.trans hr') h'.persists,
    fun ht => h'.distinct (h.distinct ht)⟩

/-- A new session has a new credential. -/
theorem insert {r : SessionRow} (hinsert : t.insert? r = some u)
    (hfresh : ∀ x ∈ t, x.credentialDigest ≠ r.credentialDigest) : SessionStep t u where
  persists k x hx := ⟨x, Table.find?_insert_of_some hinsert hx, .refl x⟩
  distinct ht := by
    intro x hx y hy hxy
    rcases (Table.mem_insert hinsert).mp hx with hx | hx <;>
      rcases (Table.mem_insert hinsert).mp hy with hy | hy
    · exact ht x hx y hy hxy
    · rw [hy] at hxy
      exact absurd hxy (hfresh x hx)
    · rw [hx] at hxy
      exact absurd hxy.symm (hfresh y hy)
    · rw [hx, hy]

theorem update (f : SessionRow → SessionRow) (hkey : ∀ r, Keyed.key (f r) = Keyed.key r)
    (hcontinues : ∀ r : SessionRow, r.Continues (f r)) : SessionStep t (t.update f hkey) where
  persists k x hx := by
    refine ⟨f x, ?_, hcontinues x⟩
    rw [Table.find?_update, hx]
    rfl
  distinct ht := by
    intro x hx y hy hxy
    obtain ⟨x₀, hx₀, rfl⟩ := Table.mem_update.mp hx
    obtain ⟨y₀, hy₀, rfl⟩ := Table.mem_update.mp hy
    rw [(hcontinues x₀).credentialDigest, (hcontinues y₀).credentialDigest] at hxy
    rw [ht x₀ hx₀ y₀ hy₀ hxy]

theorem replace {r r' : SessionRow} (hfind : t.find? (Keyed.key r') = some r)
    (hcontinues : r.Continues r') : SessionStep t (t.replace r') where
  persists k x hx := by
    by_cases hk : k = Keyed.key r'
    · rw [hk] at hx ⊢
      obtain rfl := Option.some.inj (hfind.symm.trans hx)
      exact ⟨r', Table.find?_replace_self hfind, hcontinues⟩
    · exact ⟨x, (Table.find?_replace_of_ne hk).trans hx, .refl x⟩
  distinct ht := by
    have hr : r ∈ t := Table.mem_of_find? hfind
    have hkey : Keyed.key r = Keyed.key r' := Table.key_of_find? hfind
    -- a row that is not the new one has another credential than it
    have hother : ∀ x ∈ t, Keyed.key x ≠ Keyed.key r' → x.credentialDigest ≠ r'.credentialDigest := by
      intro x hx hne he
      rw [hcontinues.credentialDigest] at he
      rw [ht x hx r hr he, hkey] at hne
      exact hne rfl
    intro x hx y hy hxy
    rcases (Table.mem_replace hfind).mp hx with hx | ⟨hx, hxkey⟩ <;>
      rcases (Table.mem_replace hfind).mp hy with hy | ⟨hy, hykey⟩
    · rw [hx, hy]
    · rw [hx] at hxy
      exact absurd hxy.symm (hother y hy hykey)
    · rw [hy] at hxy
      exact absurd hxy (hother x hx hxkey)
    · exact ht x hx y hy hxy

end SessionStep

-- ════════════════════════════════════════════════════════════════════════
-- Acceptance
-- ════════════════════════════════════════════════════════════════════════

namespace TenantTables

/-- `governed_session`: an open session of an active membership, at its revisions. -/
def governedSession (s : TenantTables) (credentialDigest : Digest) (evaluatedAt : Instant) :
    Outcome (AuthenticatedSession × Membership) := do
  let refused : Failure := .permissionDenied "authenticated session was refused"
  let row ← orFail (s.sessions.rows.find? fun row =>
    decide (row.credentialDigest = credentialDigest ∧ row.revokedAt = none)) refused
  let session ← s.sessionFromRow row
  require (evaluatedAt < session.expiresAt) refused
  let membership ← s.membershipForPrincipal session.principal.principalId
  require (membership.status = .active ∧ session.roleRevision = membership.roleRevision ∧
      session.membershipRevision = membership.membershipRevision ∧
      session.principal.roles = membership.roles ∧
      session.principal.revision = membership.roleRevision) refused
  require (∀ colleagueId ∈ session.activeColleagueId,
      membership.allowsNamespace (.colleague colleagueId) = true) refused
  pure (session, membership)

/-- What an accepted session is at that moment: the open row of its credential,
    with the present principal and its active membership at the present revisions. -/
structure Accepts (s : TenantTables) (credentialDigest : Digest) (evaluatedAt : Instant)
    (session : AuthenticatedSession) (membership : Membership) : Prop where
  open_row : ∃ row ∈ s.sessions, row.toSessionFields = session.toSessionFields ∧
    row.principalId = session.principal.principalId ∧ row.revokedAt = none
  credentialDigest : session.credentialDigest = credentialDigest
  lasts : evaluatedAt < session.expiresAt
  principal : s.principals.find? session.principal.principalId = some session.principal
  durable : ∃ row, s.memberships.find? session.principal.principalId = some row ∧
    row.toMembershipFields = membership.toMembershipFields
  active : membership.status = .active
  roleRevision : session.roleRevision = membership.roleRevision
  membershipRevision : session.membershipRevision = membership.membershipRevision
  roles : session.principal.roles = membership.roles
  principalRevision : session.principal.revision = membership.roleRevision

theorem governedSession_eq_ok {s : TenantTables} {credentialDigest : Digest}
    {evaluatedAt : Instant} {session : AuthenticatedSession} {membership : Membership}
    (h : s.governedSession credentialDigest evaluatedAt = .ok (session, membership)) :
    s.Accepts credentialDigest evaluatedAt session membership := by
  simp only [governedSession, sessionFromRow, bind_eq_ok, orFail_eq_ok, require_eq_ok,
    pure_eq_ok, exists_const, Prod.mk.injEq] at h
  obtain ⟨row, hrow, _, ⟨principal, hprincipal, rfl⟩, hlasts, m, hm,
    ⟨hactive, hrole, hmember, hroles, hrevision⟩, _, rfl, rfl⟩ := h
  have hfound := List.find?_some hrow
  simp only [decide_eq_true_eq] at hfound
  obtain ⟨hdigest, hopen⟩ := hfound
  have hid : principal.principalId = row.principalId :=
    Table.key_of_find? (orFail_eq_ok.mp hprincipal)
  obtain ⟨mrow, hmrow, hfields⟩ := membershipForPrincipal_eq_ok hm
  exact
    { open_row := ⟨row, List.mem_of_find?_eq_some hrow, rfl, hid.symm, hopen⟩
      credentialDigest := hdigest
      lasts := hlasts
      principal := find?_of_getPrincipal hprincipal
      durable := ⟨mrow, hmrow, hfields.symm⟩
      active := hactive
      roleRevision := hrole
      membershipRevision := hmember
      roles := hroles
      principalRevision := hrevision }

/-- The credential of a revoked session is not accepted. -/
theorem not_accepts_of_revoked {s : TenantTables} (hdistinct : DistinctCredentials s.sessions)
    {row : SessionRow} (hrow : row ∈ s.sessions) (hrevoked : row.revokedAt.isSome = true)
    {evaluatedAt : Instant} {session : AuthenticatedSession} {membership : Membership} :
    ¬s.Accepts row.credentialDigest evaluatedAt session membership := by
  intro h
  obtain ⟨row', hrow', hfields, _, hopen⟩ := h.open_row
  have hdigest : row'.credentialDigest = row.credentialDigest := by
    rw [← h.credentialDigest, ← hfields]
  rw [hdistinct row' hrow' row hrow hdigest] at hopen
  rw [hopen] at hrevoked
  exact absurd hrevoked (by simp)

-- ════════════════════════════════════════════════════════════════════════
-- Transactions
-- ════════════════════════════════════════════════════════════════════════

/-- A new session has a new credential. -/
theorem sessionStep_of_insertGovernedSession {s t : TenantTables} {session : AuthenticatedSession}
    (h : s.insertGovernedSession session = .ok t) : SessionStep s.sessions t.sessions := by
  simp only [insertGovernedSession, bind_eq_ok, require_eq_ok, orFail_eq_ok, pure_eq_ok,
    exists_const] at h
  obtain ⟨hfresh, sessions, hinsert, rfl⟩ := h
  exact .insert hinsert hfresh

/-- The sessions of a principal are over. -/
def Ended (principalId : StableId) (sessions sessions' : Table SessionRow) : Prop :=
  ∀ row ∈ sessions, row.principalId = principalId →
    ∃ row' ∈ sessions', row'.credentialDigest = row.credentialDigest ∧
      row'.revokedAt.isSome = true

theorem sessionStep_of_revokeSessions (s : TenantTables) (principalId : StableId)
    (occurredAt : Instant) (reason : String) :
    SessionStep s.sessions (s.revokeSessions principalId occurredAt reason).sessions := by
  dsimp only [revokeSessions]
  refine SessionStep.update _ _ fun row => ?_
  split
  · rename_i hopen
    refine ⟨rfl, rfl, rfl, rfl, rfl, rfl, Nat.le_succ _, fun hrevoked => ?_⟩
    rw [hopen.2] at hrevoked
    exact absurd hrevoked (by simp)
  · exact .refl row

theorem ended_of_revokeSessions (s : TenantTables) (principalId : StableId)
    (occurredAt : Instant) (reason : String) :
    Ended principalId s.sessions (s.revokeSessions principalId occurredAt reason).sessions := by
  intro row hrow hid
  dsimp only [revokeSessions]
  refine ⟨_, Table.mem_update.mpr ⟨row, hrow, rfl⟩, ?_⟩
  by_cases hopen : row.revokedAt = none
  · rw [if_pos ⟨hid, hopen⟩]
    exact ⟨rfl, rfl⟩
  · rw [if_neg fun h => hopen h.2]
    exact ⟨rfl, Option.isSome_iff_ne_none.mpr hopen⟩

/-- Sessions that are over stay over. -/
theorem Ended.step {principalId : StableId} {t u v : Table SessionRow}
    (h : Ended principalId t u) (hstep : SessionStep u v) : Ended principalId t v := by
  intro row hrow hid
  obtain ⟨row', hrow', hdigest, hrevoked⟩ := h row hrow hid
  obtain ⟨row'', hrow'', hcontinues⟩ := hstep.persists _ _ (Table.find?_of_mem hrow')
  refine ⟨row'', Table.mem_of_find? hrow'', hcontinues.credentialDigest.trans hdigest, ?_⟩
  rw [hcontinues.revoked hrevoked]
  exact hrevoked

/-- The actions after which a principal needs a new session: an approved change of its
    membership, unless the replay ledger answers it, and its recovery. -/
def EndsSessions (s : TenantTables) (principalId : StableId) : TenantAction → Prop
  | .applyMembershipChange proposal _ session idempotencyKey _ _ =>
    proposal.targetId = principalId ∧
      s.membershipReplays.find? (session.principal.principalId, idempotencyKey) = none
  | .consumeRecovery _ session _ => session.principal.principalId = principalId
  | _ => False

theorem sessions_of_consumeChangeRows {s t : TenantTables} {proposal : ChangeProposal}
    {decision : ChangeDecision} {occurredAt : Instant}
    (h : s.consumeChangeRows proposal decision occurredAt = .ok t) : t.sessions = s.sessions := by
  simp only [consumeChangeRows, bind_eq_ok, require_eq_ok, orFail_eq_ok, pure_eq_ok,
    exists_const] at h
  obtain ⟨_, _, _, _, _, _, rfl⟩ := h
  rfl

theorem sessions_of_consumeAdminEnrollmentAuthority {digest : GovernanceChange → Digest}
    {s t : TenantTables} {decisionId : StableId} {role : HumanRole} {scopes : ColleagueScopes}
    {actor : Principal} {occurredAt : Instant}
    (h : s.consumeAdminEnrollmentAuthority digest decisionId role scopes actor occurredAt =
      .ok t) : t.sessions = s.sessions := by
  obtain ⟨_, _, _, _, _, _, rfl⟩ :=
    AuthorityTables.consumeAdminEnrollmentAuthority_eq_ok h
  rfl

theorem sessions_of_authorizeIssuance {digest : GovernanceChange → Digest} {s t : TenantTables}
    {credential : GovernanceCredential} {role : HumanRole} {bootstrap : Bool}
    {decisionId : Option StableId} {issuer : Principal}
    (h : s.authorizeIssuance digest credential role bootstrap decisionId issuer = .ok t) :
    t.sessions = s.sessions := by
  simp only [authorizeIssuance] at h
  split at h
  · simp only [openBootstrapTransition, bind_eq_ok, require_eq_ok, orFail_eq_ok, pure_eq_ok,
      exists_const] at h
    obtain ⟨_, _, _, rfl⟩ := h
    rfl
  · split at h
    · simp only [bind_eq_ok, orFail_eq_ok] at h
      obtain ⟨_, _, h⟩ := h
      exact sessions_of_consumeAdminEnrollmentAuthority h
    · obtain rfl := Except.ok.inj h
      rfl

theorem sessions_of_writeMembershipChange {s t : TenantTables} {target updated : Membership}
    {proposal : ChangeProposal} {role : HumanRole} {status : MembershipStatus}
    {decisionId : StableId} {occurredAt : Instant}
    (h : s.writeMembershipChange target proposal role status decisionId occurredAt =
      .ok (updated, t)) : t.sessions = s.sessions := by
  simp only [writeMembershipChange, updateRole, bind_eq_ok, require_eq_ok, pure_eq_ok,
    exists_const, Prod.mk.injEq] at h
  obtain ⟨_, _, _, _, _, s₁, hwrite, _, _, _, rfl⟩ := h
  split at hwrite
  · obtain ⟨_, rfl⟩ := updatePrincipal_eq_ok hwrite
    rfl
  · obtain rfl := Except.ok.inj hwrite
    rfl

/-- What an approved membership change does to the sessions, unless it is a replay. -/
theorem sessions_of_applyMembershipChange {digest : GovernanceChange → Digest}
    {s t : TenantTables} {proposal : ChangeProposal} {decisionId : StableId}
    {session : AuthenticatedSession} {idempotencyKey : StableId} {requestDigest : Digest}
    {occurredAt : Instant} {updated : Membership}
    (h : s.applyMembershipChange digest proposal decisionId session idempotencyKey requestDigest
      occurredAt = .ok (updated, t)) :
    t = s ∧ s.membershipReplays.find? (session.principal.principalId, idempotencyKey) ≠ none ∨
      t.sessions = (s.revokeSessions proposal.targetId occurredAt
        "membership_revision_changed").sessions := by
  simp only [applyMembershipChange, bind_eq_ok] at h
  obtain ⟨_, _, _, _, h⟩ := h
  split at h
  · rename_i replay hreplay
    simp only [bind_eq_ok, require_eq_ok, pure_eq_ok, exists_const, Prod.mk.injEq] at h
    obtain ⟨_, _, rfl⟩ := h
    exact .inl ⟨rfl, by rw [hreplay]; exact Option.some_ne_none _⟩
  · simp only [bind_eq_ok, require_eq_ok, orFail_eq_ok, pure_eq_ok, exists_const, Prod.exists,
      Prod.mk.injEq] at h
    obtain ⟨_, _, _, target, htarget, _, _, _, _, _, _, s₁, hwrite, s₂, hconsume, _, _, _, _,
      rfl⟩ := h
    obtain ⟨row, hrow, hfields⟩ := membershipForPrincipal_eq_ok htarget
    have hid : target.principalId = proposal.targetId := by
      rw [show target.principalId = row.principalId from
        congrArg MembershipFields.principalId hfields]
      exact Table.key_of_find? hrow
    refine .inr ?_
    dsimp only
    rw [sessions_of_consumeChangeRows hconsume, hid]
    dsimp only [revokeSessions]
    rw [sessions_of_writeMembershipChange hwrite]

/-- A recovery ends the sessions of its principal and starts a new one. -/
theorem sessions_of_consumeRecovery {s t : TenantTables} {tokenDigest : Digest}
    {session : AuthenticatedSession} {occurredAt : Instant} {consumed : GovernanceCredential}
    (h : s.consumeRecovery tokenDigest session occurredAt = .ok (consumed, t)) :
    ∃ u, (s.revokeSessions session.principal.principalId occurredAt
      "recovery_rotation").insertGovernedSession session = .ok u ∧ t.sessions = u.sessions := by
  simp only [consumeRecovery, bind_eq_ok, orFail_eq_ok] at h
  obtain ⟨c, _, h⟩ := h
  split at h
  · exact absurd h (by simp)
  · simp only [bind_eq_ok, require_eq_ok, pure_eq_ok, exists_const, Prod.mk.injEq] at h
    obtain ⟨_, _, _, principal, _, ⟨_, _, _, _, hprincipal, _⟩, u, hinsert, _, rfl⟩ := h
    rw [← hprincipal] at hinsert
    exact ⟨u, hinsert, rfl⟩

-- ════════════════════════════════════════════════════════════════════════
-- Every action
-- ════════════════════════════════════════════════════════════════════════

theorem sessionStep_of_exec {ports : GovernancePorts}
    {findDraft : Namespace → StableId → Option ColleagueDraft} {s t : TenantTables}
    {a : TenantAction} (h : s.exec ports findDraft a = .ok t) :
    SessionStep s.sessions t.sessions := by
  cases a with
  | createBootstrap record =>
    simp only [exec, createBootstrap, bind_eq_ok, pure_eq_ok, Prod.exists] at h
    obtain ⟨_, s₁, h, rfl⟩ := h
    split at h
    · obtain ⟨_, rfl⟩ := Prod.mk.inj (Except.ok.inj h)
      exact .refl _
    · simp only [bind_eq_ok, pure_eq_ok, Prod.mk.injEq] at h
      obtain ⟨_, _, _, _, _, rfl⟩ := h
      exact .refl _
  | claimBootstrapRetrieval tokenDigest occurredAt =>
    simp only [exec, claimBootstrapRetrieval, bind_eq_ok, pure_eq_ok] at h
    obtain ⟨_, _, _, _, _, _, rfl⟩ := h
    exact .refl _
  | consumeBootstrap tokenDigest principalId session occurredAt =>
    simp only [exec, consumeBootstrap, bind_eq_ok, pure_eq_ok, Prod.exists, Prod.mk.injEq,
      require_eq_ok, orFail_eq_ok, exists_const] at h
    obtain ⟨_, _, ⟨_, _, _, _, _, _, _, s₁, hprincipal, _, _, _, _, _, _, _, s₂, hsession, _, rfl⟩,
      rfl⟩ := h
    obtain ⟨_, _, _, rfl⟩ := insertPrincipal_eq_ok hprincipal
    have hstep := sessionStep_of_insertGovernedSession hsession
    exact hstep
  | authorizeEnrollment credential issuerMembership =>
    simp only [exec, authorizeEnrollment, bind_eq_ok, pure_eq_ok, Prod.exists] at h
    obtain ⟨_, s₁, h, rfl⟩ := h
    split at h
    · exact absurd h (by simp)
    · simp only [bind_eq_ok, require_eq_ok, exists_const] at h
      obtain ⟨_, _, _, _, _, h⟩ := h
      split at h
      · simp only [bind_eq_ok, require_eq_ok, pure_eq_ok, exists_const, Prod.mk.injEq] at h
        obtain ⟨_, _, rfl⟩ := h
        exact .refl _
      · simp only [bind_eq_ok, pure_eq_ok, Prod.mk.injEq] at h
        obtain ⟨s₂, hissue, s₃, hinsert, _, rfl⟩ := h
        obtain ⟨_, _, _, _, _, _, _, _, _, rfl⟩ :=
          AuthorityTables.insertCredential_eq_ok hinsert
        have heq := sessions_of_authorizeIssuance hissue
        exact .of_eq heq
  | authorizeRecovery credential issuerMembership =>
    simp only [exec, authorizeRecovery, bind_eq_ok, pure_eq_ok, Prod.exists] at h
    obtain ⟨_, s₁, h, rfl⟩ := h
    split at h
    · exact absurd h (by simp)
    · simp only [bind_eq_ok, require_eq_ok, exists_const] at h
      obtain ⟨_, _, _, _, _, _, _, _, _, h⟩ := h
      split at h
      · rename_i s₂ hinsert
        obtain ⟨_, rfl⟩ := Prod.mk.inj (Except.ok.inj h)
        obtain ⟨_, _, _, _, _, _, _, _, _, rfl⟩ :=
          AuthorityTables.insertCredential_eq_ok hinsert
        exact .refl _
      · simp only [bind_eq_ok, require_eq_ok, orFail_eq_ok, pure_eq_ok, exists_const,
          Prod.mk.injEq] at h
        obtain ⟨_, _, _, _, rfl⟩ := h
        exact .refl _
  | claimCredentialSecret credentialId tokenDigest occurredAt =>
    simp only [exec, claimCredentialSecret, bind_eq_ok, require_eq_ok, orFail_eq_ok, pure_eq_ok,
      exists_const, Prod.exists] at h
    obtain ⟨_, _, ⟨_, _, _, _, _, h⟩, rfl⟩ := h
    split at h
    · simp only [pure_eq_ok, Prod.mk.injEq] at h
      obtain ⟨_, rfl⟩ := h
      exact .refl _
    · simp only [bind_eq_ok, require_eq_ok, pure_eq_ok, exists_const, Prod.mk.injEq] at h
      obtain ⟨_, _, _, rfl⟩ := h
      exact .refl _
  | expireCredential credential occurredAt =>
    simp only [exec, expireCredential, bind_eq_ok, require_eq_ok, pure_eq_ok, exists_const,
      Prod.exists, Prod.mk.injEq] at h
    obtain ⟨_, _, ⟨_, _, _, _, _, rfl⟩, rfl⟩ := h
    exact .refl _
  | revokeCredential session credentialId idempotencyKey requestDigest occurredAt =>
    simp only [exec, revokeCredential, bind_eq_ok, pure_eq_ok, Prod.exists] at h
    obtain ⟨_, s₁, ⟨_, _, h⟩, rfl⟩ := h
    split at h
    · simp only [bind_eq_ok, require_eq_ok, pure_eq_ok, exists_const, Prod.mk.injEq] at h
      obtain ⟨_, _, rfl⟩ := h
      exact .refl _
    · simp only [bind_eq_ok, require_eq_ok, orFail_eq_ok, pure_eq_ok, exists_const,
        Prod.mk.injEq] at h
      obtain ⟨_, _, _, _, _, _, _, _, _, _, _, rfl⟩ := h
      exact .refl _
  | consumeEnrollment tokenDigest principalId role membership session occurredAt =>
    simp only [exec, consumeEnrollment, bind_eq_ok, require_eq_ok, orFail_eq_ok, pure_eq_ok,
      exists_const, Prod.exists] at h
    obtain ⟨_, s₁, ⟨_, _, _, _, h⟩, rfl⟩ := h
    split at h
    · exact absurd h (by simp)
    · simp only [bind_eq_ok, require_eq_ok, orFail_eq_ok, toOption_eq_some, pure_eq_ok,
        exists_const, Prod.mk.injEq] at h
      obtain ⟨_, _, _, _, _, _, _, hprincipal, _, _, s₂, hsession, _, rfl⟩ := h
      obtain ⟨_, _, _, rfl⟩ := insertPrincipal_eq_ok hprincipal
      have hstep := sessionStep_of_insertGovernedSession hsession
      exact hstep
  | consumeRecovery tokenDigest session occurredAt =>
    simp only [exec, bind_eq_ok, pure_eq_ok, Prod.exists] at h
    obtain ⟨_, _, h, rfl⟩ := h
    obtain ⟨u, hinsert, heq⟩ := sessions_of_consumeRecovery h
    rw [heq]
    exact (sessionStep_of_revokeSessions ..).trans (sessionStep_of_insertGovernedSession hinsert)
  | createChangeProposal proposal =>
    simp only [exec, createChangeProposal, bind_eq_ok, require_eq_ok, pure_eq_ok, exists_const,
      Prod.exists] at h
    obtain ⟨_, s₁, ⟨_, _, _, _, _, h⟩, rfl⟩ := h
    split at h
    · simp only [bind_eq_ok, require_eq_ok, pure_eq_ok, exists_const, Prod.mk.injEq] at h
      obtain ⟨_, _, rfl⟩ := h
      exact .refl _
    · simp only [bind_eq_ok, orFail_eq_ok, pure_eq_ok, Prod.mk.injEq] at h
      obtain ⟨_, _, _, _, _, rfl⟩ := h
      exact .refl _
  | decideChange proposal decision =>
    simp only [exec, decideChange, bind_eq_ok, require_eq_ok, orFail_eq_ok, pure_eq_ok,
      exists_const, Prod.exists] at h
    obtain ⟨_, s₁, ⟨_, _, _, _, _, _, _, h⟩, rfl⟩ := h
    split at h
    · simp only [bind_eq_ok, require_eq_ok, pure_eq_ok, exists_const, Prod.mk.injEq] at h
      obtain ⟨_, _, rfl⟩ := h
      exact .refl _
    · simp only [bind_eq_ok, require_eq_ok, exists_const] at h
      obtain ⟨_, _, _, h⟩ := h
      split at h
      · simp only [pure_eq_ok, Prod.mk.injEq] at h
        obtain ⟨_, rfl⟩ := h
        exact .refl _
      · simp only [bind_eq_ok, require_eq_ok, orFail_eq_ok, pure_eq_ok, exists_const,
          Prod.mk.injEq] at h
        obtain ⟨_, _, _, _, rfl⟩ := h
        exact .refl _
  | expireChangeProposal proposal actor occurredAt =>
    simp only [exec, expireChangeProposal, bind_eq_ok, require_eq_ok, orFail_eq_ok, pure_eq_ok,
      exists_const, Prod.exists, Prod.mk.injEq] at h
    obtain ⟨_, _, ⟨_, _, _, _, _, _, _, rfl⟩, rfl⟩ := h
    exact .refl _
  | markChangeProposalStale proposal actor =>
    simp only [exec, markChangeProposalStale, bind_eq_ok, require_eq_ok, pure_eq_ok,
      exists_const, Prod.exists, Prod.mk.injEq] at h
    obtain ⟨_, _, ⟨_, _, _, _, _, rfl⟩, rfl⟩ := h
    exact .refl _
  | applyMembershipChange proposal decisionId session idempotencyKey requestDigest occurredAt =>
    simp only [exec, bind_eq_ok, pure_eq_ok, Prod.exists] at h
    obtain ⟨_, _, h, rfl⟩ := h
    rcases sessions_of_applyMembershipChange h with ⟨rfl, _⟩ | heq
    · exact .refl _
    · rw [heq]
      exact sessionStep_of_revokeSessions ..
  | consumeAdminEnrollmentChange decisionId role colleagueIds actor occurredAt =>
    exact .of_eq (sessions_of_consumeAdminEnrollmentAuthority h)

/-- After an action that ends the sessions of a principal they are over. -/
theorem ended_of_exec {ports : GovernancePorts}
    {findDraft : Namespace → StableId → Option ColleagueDraft} {s t : TenantTables}
    {a : TenantAction} {principalId : StableId} (h : s.exec ports findDraft a = .ok t)
    (hends : s.EndsSessions principalId a) : Ended principalId s.sessions t.sessions := by
  cases a with
  | consumeRecovery tokenDigest session occurredAt =>
    simp only [exec, bind_eq_ok, pure_eq_ok, Prod.exists] at h
    obtain ⟨_, _, h, rfl⟩ := h
    obtain ⟨u, hinsert, heq⟩ := sessions_of_consumeRecovery h
    have hid : session.principal.principalId = principalId := hends
    rw [heq, ← hid]
    have hended := ended_of_revokeSessions s session.principal.principalId occurredAt
      "recovery_rotation"
    exact hended.step (sessionStep_of_insertGovernedSession hinsert)
  | applyMembershipChange proposal decisionId session idempotencyKey requestDigest occurredAt =>
    simp only [exec, bind_eq_ok, pure_eq_ok, Prod.exists] at h
    obtain ⟨_, _, h, rfl⟩ := h
    obtain ⟨hid, hfresh⟩ := hends
    rcases sessions_of_applyMembershipChange h with ⟨_, hreplay⟩ | heq
    · exact absurd hfresh hreplay
    · rw [heq, ← hid]
      exact ended_of_revokeSessions _ _ _ _
  | _ => exact hends.elim

theorem sessions_of_insertRuntimePrincipals {s t : TenantTables} {ps : List Principal}
    (h : ps.foldlM insertRuntimePrincipal s = .ok t) : t.sessions = s.sessions := by
  obtain ⟨_, _, rfl, _⟩ := AuthorityTables.insertRuntimePrincipals_eq_ok h
  rfl

end TenantTables

theorem sessions_of_confirmDraft {tenant tenant' : TenantTables} {s s' : BuilderTables}
    {colleagueId : StableId} {cmd : ConfirmDraftCommand} {r : Outcome ConfirmationResult}
    (h : confirmDraft tenant s colleagueId cmd = .ok (r, tenant', s')) :
    tenant'.sessions = tenant.sessions := by
  rcases AuthorityTables.tenant_of_confirmDraft h with rfl | ⟨draft, hdraft⟩
  · rfl
  · rcases AuthorityTables.authorizeDraftConfirmation_eq_ok hdraft with
      ⟨_, rfl⟩ | ⟨_, _, _, _, _, _, _, _, _, _, _, rfl⟩ <;> rfl

end DigitalColleagues
