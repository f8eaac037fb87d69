import DigitalColleagues.Governance.Moves

/-!
# Where Admin authority comes from

Every active Admin of a tenant was made by the bootstrap, by the second-Admin
transition, or through an approved change of two other Admins, and nothing on
the way is used twice.

## Main definitions

- `AppliesChange` — a step that uses an approved change
- `AdminOrigin` — the step that made an active Admin, and what it rests on

## Main results

- `admin_provenance` — the origin of every active Admin of a run
-/

namespace DigitalColleagues

open Keyed TenantTables

-- ════════════════════════════════════════════════════════════════════════
-- Properties of the authority tables
-- ════════════════════════════════════════════════════════════════════════

/-- An active membership with the role of Tenant Admin. -/
def MembershipRow.isActiveAdmin (row : MembershipRow) : Bool :=
  decide (row.status = .active ∧ .tenantAdmin ∈ row.roles)

namespace AuthorityTables

def activeAdmin (principalId : StableId) (s : AuthorityTables) : Bool :=
  s.memberships.holds principalId MembershipRow.isActiveAdmin

def decisionConsumed (id : Namespace × StableId) (s : AuthorityTables) : Bool :=
  s.changeDecisions.holds id fun d => d.consumedAt.isSome

def credentialConsumed (credentialId : StableId) (s : AuthorityTables) : Bool :=
  s.credentials.holds credentialId fun c => decide (c.state = .consumed)

def bootstrapped (s : AuthorityTables) : Bool := s.bootstrapTransition.isSome

def transitionConsumed (s : AuthorityTables) : Bool :=
  s.bootstrapTransition.any fun t => decide (t.state = .consumed)

/-- A credential of one kind. -/
def credentialOfKind (credentialId : StableId) (kind : CredentialKind) (s : AuthorityTables) :
    Bool :=
  s.credentials.holds credentialId fun c => decide (c.kind = kind)

-- ════════════════════════════════════════════════════════════════════════
-- What a move keeps
-- ════════════════════════════════════════════════════════════════════════

theorem decisionConsumed_consume {s : AuthorityTables} {id : Namespace × StableId}
    {p : ChangeProposal} {d : ChangeDecision} {occurredAt : Instant}
    (h : s.decisionConsumed id = true) : (s.consume p d occurredAt).decisionConsumed id = true :=
  Table.holds_replace (fun _ => rfl) h

theorem Issues.decisionConsumed {s s' : AuthorityTables} {c : GovernanceCredential}
    {id : Namespace × StableId} (h : s.Issues c s') (hs : s.decisionConsumed id = true) :
    s'.decisionConsumed id = true := by
  cases h with
  | ordinary => exact hs
  | transition => exact hs
  | approved => exact decisionConsumed_consume hs

/-- A consumed decision stays consumed. -/
theorem Move.decisionConsumed {s t : AuthorityTables} {a : GovernanceAction}
    {id : Namespace × StableId} (h : s.Move a t) (hs : s.decisionConsumed id = true) :
    t.decisionConsumed id = true := by
  cases h with
  | idle => exact hs
  | registerRuntime => exact hs
  | bootstrap => exact hs
  | issue _ hissues => exact hissues.decisionConsumed hs
  | setCredential => exact hs
  | enroll => exact hs
  | recover => exact hs
  | propose => exact hs
  | decide _ _ _ hinsert => exact Table.holds_insert hinsert hs
  | close => exact hs
  | consume => exact decisionConsumed_consume hs
  | change => exact decisionConsumed_consume (s := { s with principals := _, memberships := _ }) hs

theorem Issues.credentials {s s' : AuthorityTables} {c : GovernanceCredential}
    (h : s.Issues c s') : s'.credentials = s.credentials := by
  cases h <;> rfl

theorem Issues.memberships {s s' : AuthorityTables} {c : GovernanceCredential}
    (h : s.Issues c s') : s'.memberships = s.memberships := by
  cases h <;> rfl

/-- A consumed credential stays consumed. -/
theorem Move.credentialConsumed {s t : AuthorityTables} {a : GovernanceAction} {id : StableId}
    (h : s.Move a t) (hs : s.credentialConsumed id = true) : t.credentialConsumed id = true := by
  cases h with
  | idle => exact hs
  | registerRuntime => exact hs
  | bootstrap => exact hs
  | issue _ hissues _ _ hinsert => exact Table.holds_insert hinsert hs
  | @setCredential _ c c' hfind hopen hid =>
    refine Table.holds_replace (fun hkey => ?_) hs
    obtain ⟨x, hx, hconsumed⟩ := Table.holds_eq_true.mp hs
    have hkey : id = c.credentialId := hkey.trans hid
    rw [hkey] at hx
    obtain rfl := Option.some.inj (hx.symm.trans hfind)
    exact absurd (of_decide_eq_true hconsumed) hopen
  | enroll => exact Table.holds_replace (fun _ => rfl) hs
  | recover => exact Table.holds_replace (fun _ => rfl) hs
  | propose => exact hs
  | decide => exact hs
  | close => exact hs
  | consume => exact hs
  | change => exact hs

/-- A credential never changes its kind. -/
theorem Move.credentialOfKind {s t : AuthorityTables} {a : GovernanceAction} {id : StableId}
    {kind : CredentialKind} (h : s.Move a t) (hs : s.credentialOfKind id kind = true) :
    t.credentialOfKind id kind = true := by
  have hreplace {c c' : GovernanceCredential} (hfind : s.credentials.find? c.credentialId = some c)
      (hid : c'.credentialId = c.credentialId) (hkind : c'.kind = c.kind) :
      (s.credentials.replace c').holds id (fun c => Decidable.decide (c.kind = kind)) = true := by
    refine Table.holds_replace (fun hkey => ?_) hs
    obtain ⟨x, hx, hk⟩ := Table.holds_eq_true.mp hs
    have hkey : id = c.credentialId := hkey.trans hid
    rw [hkey] at hx
    obtain rfl := Option.some.inj (hx.symm.trans hfind)
    exact decide_eq_true (hkind.trans (of_decide_eq_true hk))
  cases h with
  | idle => exact hs
  | registerRuntime => exact hs
  | bootstrap => exact hs
  | issue _ hissues _ _ hinsert => exact Table.holds_insert hinsert hs
  | setCredential hfind _ hid hkind => exact hreplace hfind hid hkind
  | enroll hfind => exact hreplace hfind rfl rfl
  | recover hfind => exact hreplace hfind rfl rfl
  | propose => exact hs
  | decide => exact hs
  | close => exact hs
  | consume => exact hs
  | change => exact hs

theorem Move.bootstrapped {s t : AuthorityTables} {a : GovernanceAction} (h : s.Move a t)
    (hs : s.bootstrapped = true) : t.bootstrapped = true := by
  cases h with
  | bootstrap => rfl
  | issue _ hissues =>
    cases hissues with
    | ordinary => exact hs
    | transition => rfl
    | approved => exact hs
  | enroll =>
    simp only [AuthorityTables.bootstrapped] at hs ⊢
    split <;> simp [hs]
  | _ => exact hs

theorem Move.transitionConsumed {s t : AuthorityTables} {a : GovernanceAction} (h : s.Move a t)
    (hs : s.transitionConsumed = true) : t.transitionConsumed = true := by
  obtain ⟨x, hx, hconsumed⟩ := (Option.any_eq_true ..).mp hs
  have hconsumed : x.state = .consumed := of_decide_eq_true hconsumed
  cases h with
  | bootstrap _ hnone => exact absurd (hx.symm.trans hnone) (by simp)
  | issue _ hissues =>
    cases hissues with
    | ordinary => exact hs
    | transition _ _ ht havailable =>
      obtain rfl := Option.some.inj (hx.symm.trans ht)
      exact absurd (hconsumed.symm.trans havailable) (by simp)
    | approved => exact hs
  | enroll =>
    simp only [AuthorityTables.transitionConsumed, hx]
    split <;> simp [closeTransition, hconsumed]
  | _ => exact hs

/-- A new credential was issued; its kind says for what action. -/
theorem Move.issuance {s t : AuthorityTables} {a : GovernanceAction} {id : StableId}
    {kind : CredentialKind} (h : s.Move a t) (hs : s.credentialOfKind id kind = false)
    (ht : t.credentialOfKind id kind = true) :
    ∃ c s' credentials, c.credentialId = id ∧ c.kind = kind ∧
      (c.kind.purpose = .enrollment → ∃ m c', a = .tenant (.authorizeEnrollment c' m) ∧
        c'.credentialId = c.credentialId) ∧
      s.Issues c s' ∧ t = { s' with credentials := credentials } := by
  have hreplace {c c' : GovernanceCredential} (hfind : s.credentials.find? c.credentialId = some c)
      (hid : c'.credentialId = c.credentialId) (hkind : c'.kind = c.kind)
      (hheld : (s.credentials.replace c').holds id
        (fun c => Decidable.decide (c.kind = kind)) = true) : False := by
    rcases Table.holds_of_holds_replace hheld with hheld | ⟨rfl, hkind'⟩
    · exact absurd (hs.symm.trans hheld) (by simp)
    · have hfind' : s.credentials.find? (key c') = some c := by
        rw [show key c' = c.credentialId from hid]
        exact hfind
      have hheld : s.credentialOfKind (key c') kind = true := Table.holds_eq_true.mpr
        ⟨c, hfind', decide_eq_true (hkind.symm.trans (of_decide_eq_true hkind'))⟩
      exact absurd (hs.symm.trans hheld) (by simp)
  cases h with
  | @issue _ c s' credentials haction hissues _ _ hinsert =>
    rcases Table.holds_of_holds_insert hinsert ht with hheld | ⟨hid, hkind⟩
    · exact absurd (hs.symm.trans hheld) (by simp)
    · exact ⟨c, s', credentials, hid.symm, of_decide_eq_true hkind, haction, hissues, rfl⟩
  | setCredential hfind _ hid hkind => exact absurd ht (hreplace hfind hid hkind)
  | enroll hfind => exact absurd ht (hreplace hfind rfl rfl)
  | recover hfind => exact absurd ht (hreplace hfind rfl rfl)
  | _ => exact absurd (hs.symm.trans ht) (by simp)

/-- The use of a credential is recorded with its time. -/
theorem Move.consumption {s t : AuthorityTables} {a : GovernanceAction} {id : StableId}
    (h : s.Move a t) (hs : s.credentialConsumed id = false)
    (ht : t.credentialConsumed id = true) :
    ∃ c c' occurredAt, s.credentials.find? id = some c ∧ c.state = .retrieved ∧
      t.credentials.find? id = some c' ∧ c'.consumedAt = some occurredAt ∧
      occurredAt < c.expiresAt := by
  have hreplace {c : GovernanceCredential} {principalId : StableId} {occurredAt : Instant}
      (hfind : s.credentials.find? c.credentialId = some c) (hretrieved : c.state = .retrieved)
      (hexpires : occurredAt < c.expiresAt)
      (hheld : (s.credentials.replace (consumedBy c principalId occurredAt)).holds id
        (fun c => Decidable.decide (c.state = .consumed)) = true) :
      ∃ c₁ c₂ at', s.credentials.find? id = some c₁ ∧ c₁.state = .retrieved ∧
        (s.credentials.replace (consumedBy c principalId occurredAt)).find? id = some c₂ ∧
        c₂.consumedAt = some at' ∧ at' < c₁.expiresAt := by
    rcases Table.holds_of_holds_replace hheld with hheld | ⟨rfl, _⟩
    · exact absurd (hs.symm.trans hheld) (by simp)
    · exact ⟨c, consumedBy c principalId occurredAt, occurredAt, hfind, hretrieved,
        Table.find?_replace_self hfind, rfl, hexpires⟩
  cases h with
  | issue _ hissues hopen _ hinsert =>
    rcases Table.holds_of_holds_insert hinsert ht with hheld | ⟨_, hconsumed⟩
    · exact absurd (hs.symm.trans hheld) (by simp)
    · exact absurd (of_decide_eq_true hconsumed) hopen
  | setCredential _ _ _ _ _ hopen =>
    rcases Table.holds_of_holds_replace ht with hheld | ⟨_, hconsumed⟩
    · exact absurd (hs.symm.trans hheld) (by simp)
    · exact absurd (of_decide_eq_true hconsumed) hopen
  | enroll hfind _ hretrieved hexpires => exact hreplace hfind hretrieved hexpires ht
  | recover hfind _ hretrieved hexpires => exact hreplace hfind hretrieved hexpires ht
  | _ => exact absurd (hs.symm.trans ht) (by simp)

/-- How a move makes a principal an active Admin. -/
inductive Grant (s : AuthorityTables) (a : GovernanceAction) (t : AuthorityTables)
    (id : StableId) : Prop
  | bootstrap {tokenDigest : Digest} {session : SessionFields} {occurredAt : Instant} :
      a = .tenant (.consumeBootstrap tokenDigest id session occurredAt) →
      s.bootstrapped = false → t.bootstrapped = true → Grant s a t id
  | enrollment {tokenDigest : Digest} {m : Membership} {session : SessionFields}
      {occurredAt : Instant} {c : GovernanceCredential} {bootstrap : Bool}
      {decisionId : Option StableId} :
      a = .tenant (.consumeEnrollment tokenDigest id .tenantAdmin m session occurredAt) →
      s.credentials.find? c.credentialId = some c →
      c.kind = .enrollment .tenantAdmin bootstrap decisionId →
      s.credentialConsumed c.credentialId = false → t.credentialConsumed c.credentialId = true →
      (bootstrap = true → s.transitionConsumed = false ∧ t.transitionConsumed = true) →
      Grant s a t id
  | change {p : ChangeProposal} {d : ChangeDecision} {decisionId : StableId}
      {session : AuthenticatedSession} {idempotencyKey : StableId} {requestDigest : Digest}
      {occurredAt : Instant} :
      a = .tenant (.applyMembershipChange p decisionId session idempotencyKey requestDigest
        occurredAt) →
      p.changeKind = .membership → p.targetId = id → p.proposedRole = some .tenantAdmin →
      p.proposedStatus = some .active → p ∈ s.changeProposals → s.ApprovedBy p d →
      t.changeProposals = (s.consume p d occurredAt).changeProposals →
      t.changeDecisions = (s.consume p d occurredAt).changeDecisions → Grant s a t id

theorem Move.grant {s t : AuthorityTables} {a : GovernanceAction} {id : StableId} (h : s.Move a t)
    (hs : s.activeAdmin id = false) (ht : t.activeAdmin id = true) : Grant s a t id := by
  have hnot : ¬(s.memberships.holds id MembershipRow.isActiveAdmin = true) :=
    Bool.eq_false_iff.mp hs
  cases h with
  | bootstrap _ hnone _ hid _ _ _ _ _ _ hinsert =>
    rcases Table.holds_of_holds_insert hinsert ht with hheld | ⟨hkey, _⟩
    · exact absurd hheld hnot
    · obtain rfl : id = _ := hkey.trans hid
      exact .bootstrap rfl (by simp [AuthorityTables.bootstrapped, hnone]) rfl
  | @enroll _ _ role m _ occurredAt c bootstrap _ _ _ hfind hkind hretrieved _ htransition _ hid
      hroles _ _ _ _ hinsert =>
    rcases Table.holds_of_holds_insert hinsert ht with hheld | ⟨hkey, hadmin⟩
    · exact absurd hheld hnot
    · obtain rfl : id = _ := hkey.trans hid
      have hadmin : HumanRole.tenantAdmin ∈ m.roles := (of_decide_eq_true hadmin).2
      rw [hroles, List.mem_singleton] at hadmin
      subst hadmin
      have hused : (s.credentials.replace (consumedBy c id occurredAt)).find? c.credentialId =
          some (consumedBy c id occurredAt) := Table.find?_replace_self hfind
      refine .enrollment rfl hfind hkind ?_ ?_ fun hbootstrap => ?_
      · simp [AuthorityTables.credentialConsumed, Table.holds, hfind, hretrieved]
      · exact Table.holds_eq_true.mpr ⟨_, hused, decide_eq_true rfl⟩
      · obtain ⟨t', ht', havailable, _⟩ := htransition hbootstrap
        simp [AuthorityTables.transitionConsumed, hbootstrap, ht', havailable, closeTransition]
  | issue _ hissues =>
    rw [AuthorityTables.activeAdmin, hissues.memberships] at ht
    exact absurd ht hnot
  | @change p _ _ _ _ _ d role status _ row hkind hp happroved hrole hstatus hwrite =>
    rcases Table.holds_of_holds_replace ht with hheld | ⟨hkey, hadmin⟩
    · exact absurd hheld hnot
    · obtain ⟨hactive, hadmin⟩ := of_decide_eq_true hadmin
      rw [hwrite.rowRoles, List.mem_singleton] at hadmin
      rw [hwrite.rowStatus] at hactive
      exact .change rfl hkind (hwrite.rowId.symm.trans hkey.symm) (hadmin ▸ hrole)
        (hactive ▸ hstatus) hp happroved rfl rfl
  | _ => exact absurd ht hnot

end AuthorityTables

-- ════════════════════════════════════════════════════════════════════════
-- Origins
-- ════════════════════════════════════════════════════════════════════════

def GovernanceState.authority (s : GovernanceState) : AuthorityTables :=
  s.store.tenant.toAuthorityTables

/-- A step of a run of one tenant. -/
abbrev GovernanceStep := Transition GovernanceState GovernanceAction

/-- A property of the authority tables, on states. -/
def onAuthority (P : AuthorityTables → Bool) (s : GovernanceState) : Bool := P s.authority

/-- A step that uses an approved change: proposer and approver are two active
    Admins at the revisions they acted with, and both rows are used up. -/
structure AppliesChange (e : GovernanceStep) (p : ChangeProposal) (d : ChangeDecision) : Prop where
  stored : e.source.authority.changeProposals.find? (p.ns, p.proposalId) = some p
  approved : e.source.authority.ApprovedBy p d
  applied : ∃ p', e.target.authority.changeProposals.find? (p.ns, p.proposalId) = some p' ∧
    p'.state = .applied
  consumed : e.rises (onAuthority (AuthorityTables.decisionConsumed (p.ns, d.decisionId))) = true

/-- The step that made a principal an active Admin, after the steps `before`. -/
inductive AdminOrigin (before : List GovernanceStep) (e : GovernanceStep)
    (principalId : StableId) : Prop
  | bootstrap {tokenDigest : Digest} {session : SessionFields} {occurredAt : Instant} :
      e.action = .tenant (.consumeBootstrap tokenDigest principalId session occurredAt) →
      e.rises (onAuthority AuthorityTables.bootstrapped) = true →
      AdminOrigin before e principalId
  | secondAdmin {tokenDigest : Digest} {m : Membership} {session : SessionFields}
      {occurredAt : Instant} :
      e.action = .tenant
        (.consumeEnrollment tokenDigest principalId .tenantAdmin m session occurredAt) →
      e.rises (onAuthority AuthorityTables.transitionConsumed) = true →
      AdminOrigin before e principalId
  | enrolled {tokenDigest : Digest} {m issuer : Membership} {session : SessionFields}
      {occurredAt : Instant} {credential : GovernanceCredential} {issue : GovernanceStep}
      {p : ChangeProposal} {d : ChangeDecision} :
      e.action = .tenant
        (.consumeEnrollment tokenDigest principalId .tenantAdmin m session occurredAt) →
      e.rises (onAuthority
        (AuthorityTables.credentialConsumed credential.credentialId)) = true →
      issue ∈ before → issue.action = .tenant (.authorizeEnrollment credential issuer) →
      p.changeKind = .adminEnrollment → AppliesChange issue p d →
      AdminOrigin before e principalId
  | changed {p : ChangeProposal} {d : ChangeDecision} {decisionId : StableId}
      {session : AuthenticatedSession} {idempotencyKey : StableId} {requestDigest : Digest}
      {occurredAt : Instant} :
      e.action = .tenant (.applyMembershipChange p decisionId session idempotencyKey requestDigest
        occurredAt) →
      p.changeKind = .membership → p.targetId = principalId →
      p.proposedRole = some .tenantAdmin → p.proposedStatus = some .active →
      AppliesChange e p d → AdminOrigin before e principalId

/-- The consumption of an approved change of the tables before it. -/
theorem AppliesChange.of_consume {e : GovernanceStep} {p : ChangeProposal} {d : ChangeDecision}
    (occurredAt : Instant) (hp : p ∈ e.source.authority.changeProposals)
    (happroved : e.source.authority.ApprovedBy p d)
    (hproposals : e.target.authority.changeProposals =
      (e.source.authority.consume p d occurredAt).changeProposals)
    (hdecisions : e.target.authority.changeDecisions =
      (e.source.authority.consume p d occurredAt).changeDecisions) : AppliesChange e p d := by
  have hfind : e.source.authority.changeProposals.find? (p.ns, p.proposalId) = some p :=
    Table.find?_of_mem hp
  have hfresh : e.source.authority.decisionConsumed (p.ns, d.decisionId) = false := by
    simp [AuthorityTables.decisionConsumed, Table.holds, happroved.findDecision, happroved.fresh]
  let used : ChangeDecision :=
    { d with consumedAt := some occurredAt, revision := d.revision + 1 }
  have hkeyd : key d = (p.ns, d.decisionId) := Table.key_of_find? happroved.findDecision
  have hkey : key used = (p.ns, d.decisionId) := hkeyd
  have hreplaced : (e.source.authority.changeDecisions.replace used).find? (p.ns, d.decisionId) =
      some used := by
    rw [← hkey]
    exact Table.find?_replace_self (hkey ▸ happroved.findDecision)
  refine ⟨hfind, happroved, ?_, ?_⟩
  · rw [hproposals]
    exact ⟨_, Table.find?_replace_self hfind, rfl⟩
  · have hused : e.target.authority.decisionConsumed (p.ns, d.decisionId) = true := by
      rw [AuthorityTables.decisionConsumed, hdecisions, Table.holds_eq_true]
      exact ⟨used, hreplaced, rfl⟩
    simp [Transition.rises, onAuthority, hfresh, hused]

section Runs

variable {ports : GovernancePorts}

theorem move_of_mem {s t : GovernanceState} {tr : List GovernanceStep}
    (h : (governance ports).Path s tr t) {e : GovernanceStep} (he : e ∈ tr) :
    e.source.authority.Move e.action e.target.authority :=
  AuthorityTables.move_of_exec (h.step_of_mem e he)

/-- A property of the authority tables that moves keep is kept by every run. -/
theorem preserved_onAuthority {P : AuthorityTables → Bool}
    (hP : ∀ s a t, AuthorityTables.Move s a t → P s = true → P t = true) :
    (governance ports).Preserved fun s => onAuthority P s = true :=
  fun _ _ _ hs hstep => hP _ _ _ (AuthorityTables.move_of_exec hstep) hs

theorem countP_rises_le_one {P : AuthorityTables → Bool}
    (hP : ∀ s a t, AuthorityTables.Move s a t → P s = true → P t = true)
    {s t : GovernanceState} {tr : List GovernanceStep} (h : (governance ports).Path s tr t) :
    tr.countP (Transition.rises (onAuthority P)) ≤ 1 :=
  h.countP_rises_le_one fun _ _ _ hstep hs => preserved_onAuthority hP _ _ _ hs hstep

/-- An Admin enrollment credential that is not the bootstrap one was issued by an
    earlier step, for an approved change. -/
theorem exists_issue_of_path {s : GovernanceState} {tr : List GovernanceStep}
    (h : (governance ports).Path .initial tr s) {c : GovernanceCredential}
    {decisionId : Option StableId}
    (hfind : s.authority.credentials.find? c.credentialId = some c)
    (hkind : c.kind = .enrollment .tenantAdmin false decisionId) :
    ∃ issue ∈ tr, ∃ credential issuer p d, credential.credentialId = c.credentialId ∧
      issue.action = .tenant (.authorizeEnrollment credential issuer) ∧
      p.changeKind = .adminEnrollment ∧ AppliesChange issue p d := by
  let P (s : GovernanceState) : Prop :=
    onAuthority (AuthorityTables.credentialOfKind c.credentialId c.kind) s = true
  have hend : P s := Table.holds_eq_true.mpr ⟨c, hfind, decide_eq_true rfl⟩
  have hstart : ¬P .initial := Bool.false_ne_true
  obtain ⟨before, issue, after, rfl, hsource, htarget, _⟩ := h.exists_last_rise hstart hend
  have hmem : issue ∈ before ++ issue :: after := by simp
  obtain ⟨x, s', credentials, hid, hxkind, haction, hissues, ht⟩ :=
    (move_of_mem h hmem).issuance (Bool.eq_false_of_not_eq_true hsource) htarget
  have hxkind := hxkind.trans hkind
  obtain ⟨issuer, credential, ha, hcredential⟩ := haction (by rw [hxkind]; rfl)
  cases hissues with
  | ordinary hne => exact absurd hxkind (hne _ _)
  | transition hxkind' => exact absurd (hxkind.symm.trans hxkind') (by simp)
  | @approved p d _ _ hp hchange _ happroved =>
    refine ⟨issue, hmem, credential, issuer, p, d, hcredential.trans hid, ha, hchange, ?_⟩
    exact .of_consume x.issuedAt hp happroved (by rw [ht]) (by rw [ht])

/-- The origin of an Admin that a step of a run makes active. -/
theorem adminOrigin_of_step {t : GovernanceState} {before after : List GovernanceStep}
    {e : GovernanceStep} (h : (governance ports).Path .initial (before ++ e :: after) t)
    {id : StableId} (hsource : e.source.authority.activeAdmin id = false)
    (htarget : e.target.authority.activeAdmin id = true) : AdminOrigin before e id := by
  cases (move_of_mem h (e := e) (by simp)).grant hsource htarget with
  | bootstrap ha hbefore hafter =>
    exact .bootstrap ha (by simp [Transition.rises, onAuthority, hbefore, hafter])
  | @enrollment _ _ _ _ c bootstrap _ ha hfind hkind hunused hused htransition =>
    cases hbootstrap : bootstrap with
    | true =>
      obtain ⟨hopen, hclosed⟩ := htransition hbootstrap
      exact .secondAdmin ha (by simp [Transition.rises, onAuthority, hopen, hclosed])
    | false =>
      rw [hbootstrap] at hkind
      obtain ⟨issue, hissue, credential, issuer, p, d, hid, haction, hchange, happlies⟩ :=
        exists_issue_of_path h.of_append_cons.1 hfind hkind
      refine .enrolled ha ?_ hissue haction hchange happlies
      simp [Transition.rises, onAuthority, hid, hunused, hused]
  | change ha hkind hid hrole hstatus hp happroved hproposals hdecisions =>
    exact .changed ha hkind hid hrole hstatus (.of_consume _ hp happroved hproposals hdecisions)

/-- **Provenance of Admin authority.** Every active Admin of a tenant was made
    active, for the last time, by the one bootstrap, by the one second-Admin
    transition, or through a change that two other active Admins stood behind;
    decisions and credentials are used at most once, and credentials only after
    their retrieval and before their expiry. -/
theorem admin_provenance {db₀ db : StableId → GovernanceState}
    {tr : List (Transition (StableId → GovernanceState) (StableId × GovernanceAction))}
    (h₀ : (tenants ports).init db₀) (h : (tenants ports).Path db₀ tr db) (tenantId : StableId) :
    let steps := TransitionSystem.componentTrace tenantId tr
    (∀ id, (db tenantId).authority.activeAdmin id = true →
      ∃ before e after, steps = before ++ e :: after ∧
        e.source.authority.activeAdmin id = false ∧
        (∀ e' ∈ after, e'.source.authority.activeAdmin id = true) ∧ AdminOrigin before e id) ∧
    steps.countP (Transition.rises (onAuthority AuthorityTables.bootstrapped)) ≤ 1 ∧
    steps.countP (Transition.rises (onAuthority AuthorityTables.transitionConsumed)) ≤ 1 ∧
    (∀ id, steps.countP
      (Transition.rises (onAuthority (AuthorityTables.decisionConsumed id))) ≤ 1) ∧
    (∀ id, steps.countP
      (Transition.rises (onAuthority (AuthorityTables.credentialConsumed id))) ≤ 1) ∧
    ∀ e ∈ steps, ∀ id, e.rises (onAuthority (AuthorityTables.credentialConsumed id)) = true →
      ∃ c c' occurredAt, e.source.authority.credentials.find? id = some c ∧
        c.state = .retrieved ∧ e.target.authority.credentials.find? id = some c' ∧
        c'.consumedAt = some occurredAt ∧ occurredAt < c.expiresAt := by
  intro steps
  have hpath : (governance ports).Path (db₀ tenantId) steps (db tenantId) := h.component tenantId
  rw [h₀ tenantId] at hpath
  refine ⟨fun id hid => ?_, ?_, ?_, fun id => ?_, fun id => ?_, fun e he id hrises => ?_⟩
  · obtain ⟨before, e, after, hsteps, hsource, htarget, hafter⟩ := hpath.exists_last_rise
      (P := fun s => s.authority.activeAdmin id = true) Bool.false_ne_true hid
    have hsource := Bool.eq_false_of_not_eq_true hsource
    rw [hsteps] at hpath
    exact ⟨before, e, after, hsteps, hsource, hafter, adminOrigin_of_step hpath hsource htarget⟩
  · exact countP_rises_le_one (fun _ _ _ hmove => hmove.bootstrapped) hpath
  · exact countP_rises_le_one (fun _ _ _ hmove => hmove.transitionConsumed) hpath
  · exact countP_rises_le_one (fun _ _ _ hmove => hmove.decisionConsumed) hpath
  · exact countP_rises_le_one (fun _ _ _ hmove => hmove.credentialConsumed) hpath
  · simp only [Transition.rises, Bool.and_eq_true, Bool.not_eq_true'] at hrises
    exact (move_of_mem hpath he).consumption hrises.1 hrises.2

end Runs

/-- A third Admin, enrolled through a change that both Admins stood behind. -/
def sampleThirdAdmin : List (GovernanceState → GovernanceAction) :=
  sampleTwoAdmins ++
    sampleApprovedChange (sampleChange (stableId "change-1") .adminEnrollment
      (stableId "enrollment-3") .all (by decide) (by decide)) (stableId "decision-1") ++
    sampleEnrollment
      (sampleCredential (stableId "credential-3") false (some (stableId "decision-1")) 120
        (by decide)) 3 thirdAdmin 120

theorem admin_provenance_third :
    ∃ (db₀ db : StableId → GovernanceState)
      (tr : List (Transition _ (StableId × GovernanceAction))),
      (tenants samplePorts).init db₀ ∧ (tenants samplePorts).Path db₀ tr db ∧
      (db sampleTenant).authority.activeAdmin thirdAdmin = true ∧
      ∃ before e after, TransitionSystem.componentTrace sampleTenant tr = before ++ e :: after ∧
        AdminOrigin before e thirdAdmin := by
  obtain ⟨tr, s, hpath, hthird⟩ := exists_governance_path samplePorts sampleThirdAdmin
    (fun _ s => s.authority.activeAdmin thirdAdmin) (by decide)
  let db₀ : StableId → GovernanceState := fun _ => .initial
  have hrun := hpath.lift (s := db₀) (i := sampleTenant)
  have hadmin : (Function.update db₀ sampleTenant s sampleTenant).authority.activeAdmin
      thirdAdmin = true := by
    rw [Function.update_self]
    exact hthird
  obtain ⟨before, e, after, hsteps, _, _, horigin⟩ :=
    (admin_provenance (fun _ => rfl) hrun sampleTenant).1 thirdAdmin hadmin
  exact ⟨db₀, _, _, fun _ => rfl, hrun, hadmin, before, e, after, hsteps, horigin⟩

end DigitalColleagues
