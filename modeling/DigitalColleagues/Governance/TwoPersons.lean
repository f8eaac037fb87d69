import DigitalColleagues.Governance.Provenance

/-!
# Two-person governance

After the second-Admin transition two Admins with the scope of the whole tenant
remain, provided that no membership change takes such an Admin away while only
two are left. The store counts the active Admins instead, whatever their scope.

## Main definitions

- `AuthorityTables.Staffed` — the invariant of the authority tables
- `AuthorityTables.KeepsTwoAdmins` — the condition on a membership change
- `TwoPersonGovernance` — two Admins who may take any action on the tenant

## Main results

- `two_person_governance` — every run whose changes meet the condition
- `two_person_governance_lost` — a run in which an Admin is narrowed
-/

namespace DigitalColleagues

open Keyed TenantTables

/-- An active Admin with the scope of the whole tenant. -/
def MembershipRow.governsTenant (row : MembershipRow) : Bool :=
  decide (row.status = .active ∧ row.roles = [.tenantAdmin] ∧ row.colleagueIds = .all)

namespace AuthorityTables

def tenantAdminCount (s : AuthorityTables) : ℕ :=
  s.memberships.sum fun row => if row.governsTenant then 1 else 0

/-- A membership that agrees with its principal and was issued by a human. -/
structure Seated (s : AuthorityTables) (row : MembershipRow) : Prop where
  principal : ∃ p, s.principals.find? row.principalId = some p ∧ p.kind = .human ∧
    row.roles = p.roles ∧ row.roleRevision = p.revision
  role : ∃ role, row.roles = [role]
  issuer : ∃ p, s.principals.find? row.issuedByPrincipalId = some p ∧ p.kind = .human
  valid : row.validate = .ok ()

/-- What a credential that makes an Admin says. -/
structure AdminCredential (s : AuthorityTables) (c : GovernanceCredential) (role : HumanRole)
    (bootstrap : Bool) : Prop where
  role : role = .tenantAdmin
  scopes : c.colleagueIds = .all
  transition : bootstrap = false → s.transitionConsumed = true

/-- One Admin before the second-Admin transition, two with the scope of the
    tenant after it. -/
structure Staffed (s : AuthorityTables) : Prop where
  seated : ∀ row ∈ s.memberships, s.Seated row
  credential : ∀ c ∈ s.credentials, ∀ role bootstrap decisionId,
    c.kind = .enrollment role bootstrap decisionId → bootstrap = true ∨ role = .tenantAdmin →
    s.AdminCredential c role bootstrap
  proposal : ∀ p ∈ s.changeProposals, p.changeKind = .adminEnrollment →
    p.proposedColleagueIds = .all
  before : s.transitionConsumed = false → s.adminCount ≤ 1 ∧ s.tenantAdminCount = s.adminCount
  after : s.transitionConsumed = true → 2 ≤ s.tenantAdminCount

/-- An approved membership change that takes an Admin from the tenant leaves two
    others. -/
def KeepsTwoAdmins (s : AuthorityTables) : GovernanceAction → Prop
  | .tenant (.applyMembershipChange p ..) =>
    s.changeProposals.find? (key p) = some p → p.state = .approved →
    s.memberships.holds p.targetId MembershipRow.governsTenant = true →
    ¬(p.proposedRole = some .tenantAdmin ∧ p.proposedStatus = some .active ∧
      p.proposedColleagueIds = .all) → 2 < s.tenantAdminCount
  | _ => True

instance (s : AuthorityTables) : DecidablePred s.KeepsTwoAdmins := fun a => by
  unfold KeepsTwoAdmins
  split <;> infer_instance

-- ════════════════════════════════════════════════════════════════════════
-- Counting Admins
-- ════════════════════════════════════════════════════════════════════════

theorem tenantAdminCount_le (s : AuthorityTables) : s.tenantAdminCount ≤ s.adminCount := by
  refine Table.sum_le_sum fun row _ => ?_
  by_cases h : row.governsTenant = true
  · have hrow := of_decide_eq_true h
    rw [if_pos h, if_pos ⟨hrow.1, hrow.2.1⟩]
  · rw [if_neg h]
    exact Nat.zero_le _

/-- An approval takes two Admins. -/
theorem Staffed.two_le_adminCount {s : AuthorityTables} (hs : s.Staffed) {p : ChangeProposal}
    {d : ChangeDecision} (h : s.ApprovedBy p d) : 2 ≤ s.adminCount := by
  have hadmin {id : StableId} {roleRevision membershipRevision : ℕ} {principal : Principal}
      {row : MembershipRow} (hat : s.AdminAt id roleRevision membershipRevision principal row) :
      row ∈ s.memberships ∧ row.principalId = id ∧ row.status = .active ∧
        row.roles = [.tenantAdmin] := by
    have hmem := Table.mem_of_find? hat.findRow
    have hid : row.principalId = id := Table.key_of_find? hat.findRow
    obtain ⟨q, hq, _, hroles, _⟩ := (hs.seated row hmem).principal
    obtain ⟨role, hrole⟩ := (hs.seated row hmem).role
    rw [hid] at hq
    obtain rfl := Option.some.inj (hq.symm.trans hat.findPrincipal)
    have hrole' : HumanRole.tenantAdmin ∈ q.roles := hat.admin
    rw [← hroles, hrole, List.mem_singleton] at hrole'
    exact ⟨hmem, hid, hat.active, hrole'.symm ▸ hrole⟩
  obtain ⟨_, row₁, hat₁⟩ := h.proposer
  obtain ⟨_, row₂, hat₂⟩ := h.approver
  obtain ⟨hmem₁, hid₁, hrow₁⟩ := hadmin hat₁
  obtain ⟨hmem₂, hid₂, hrow₂⟩ := hadmin hat₂
  refine Table.two_le_sum_of_ne hmem₁ hmem₂ (fun he => h.distinct ?_) hrow₁ hrow₂
  exact hid₁.symm.trans (he.trans hid₂)

theorem Staffed.transitionConsumed {s : AuthorityTables} (hs : s.Staffed) {p : ChangeProposal}
    {d : ChangeDecision} (h : s.ApprovedBy p d) : s.transitionConsumed = true := by
  by_contra hopen
  have hone := (hs.before (Bool.eq_false_of_not_eq_true hopen)).1
  have htwo := hs.two_le_adminCount h
  omega

/-- Without humans there is no Admin. -/
theorem Staffed.adminCount_eq_zero {s : AuthorityTables} (hs : s.Staffed)
    (h : ∀ p ∈ s.principals, p.kind ≠ .human) : s.adminCount = 0 := by
  have hnone : ∀ row ∈ s.memberships, False := by
    intro row hrow
    obtain ⟨p, hp, hhuman, _⟩ := (hs.seated row hrow).principal
    exact h p (Table.mem_of_find? hp) hhuman
  have hzero : s.adminCount = s.memberships.sum fun _ => 0 :=
    Table.sum_congr fun row hrow => (hnone row hrow).elim
  rw [hzero]
  simp [Table.sum]

-- ════════════════════════════════════════════════════════════════════════
-- What a move keeps
-- ════════════════════════════════════════════════════════════════════════

theorem Seated.mono {s t : AuthorityTables} {row : MembershipRow} (h : s.Seated row)
    (hkeep : ∀ id p, s.principals.find? id = some p → t.principals.find? id = some p) :
    t.Seated row := by
  obtain ⟨p, hp, hrow⟩ := h.principal
  obtain ⟨q, hq, hhuman⟩ := h.issuer
  exact ⟨⟨p, hkeep _ _ hp, hrow⟩, h.role, ⟨q, hkeep _ _ hq, hhuman⟩, h.valid⟩

theorem AdminCredential.mono {s t : AuthorityTables} {c c' : GovernanceCredential}
    {role : HumanRole} {bootstrap : Bool} (h : s.AdminCredential c role bootstrap)
    (hscopes : c'.colleagueIds = c.colleagueIds)
    (ht : s.transitionConsumed = true → t.transitionConsumed = true) :
    t.AdminCredential c' role bootstrap :=
  ⟨h.role, hscopes.trans h.scopes, fun hb => ht (h.transition hb)⟩

/-- A move that leaves principals, memberships and the transition as they are. -/
theorem Staffed.of_eq {s t : AuthorityTables} (hs : s.Staffed)
    (hprincipals : t.principals = s.principals) (hmemberships : t.memberships = s.memberships)
    (htransition : t.transitionConsumed = s.transitionConsumed)
    (hcredential : ∀ c ∈ t.credentials, ∀ role bootstrap decisionId,
      c.kind = .enrollment role bootstrap decisionId → bootstrap = true ∨ role = .tenantAdmin →
      s.AdminCredential c role bootstrap)
    (hproposal : ∀ p ∈ t.changeProposals, p.changeKind = .adminEnrollment →
      p.proposedColleagueIds = .all) : t.Staffed where
  seated row hrow := by
    rw [hmemberships] at hrow
    exact (hs.seated row hrow).mono fun _ _ hp => hprincipals ▸ hp
  credential c hc role bootstrap decisionId hkind hadmin :=
    (hcredential c hc role bootstrap decisionId hkind hadmin).mono rfl (htransition ▸ ·)
  proposal := hproposal
  before hopen := by
    rw [adminCount, tenantAdminCount, hmemberships]
    exact hs.before (htransition ▸ hopen)
  after hconsumed := by
    rw [tenantAdminCount, hmemberships]
    exact hs.after (htransition ▸ hconsumed)

/-- A stored credential replaced by one of its kind and scope. -/
theorem Staffed.credential_replace {s : AuthorityTables} (hs : s.Staffed)
    {c c' : GovernanceCredential} (hfind : s.credentials.find? c.credentialId = some c)
    (hid : c'.credentialId = c.credentialId) (hkind : c'.kind = c.kind)
    (hscopes : c'.colleagueIds = c.colleagueIds) :
    ∀ x ∈ s.credentials.replace c', ∀ role bootstrap decisionId,
      x.kind = .enrollment role bootstrap decisionId → bootstrap = true ∨ role = .tenantAdmin →
      s.AdminCredential x role bootstrap := by
  intro x hx role bootstrap decisionId hxkind hadmin
  have hfind' : s.credentials.find? (key c') = some c := by
    rw [show key c' = c.credentialId from hid]
    exact hfind
  rcases (Table.mem_replace hfind').mp hx with rfl | ⟨hx, _⟩
  · exact (hs.credential c (Table.mem_of_find? hfind) role bootstrap decisionId
      (hkind.symm.trans hxkind) hadmin).mono hscopes id
  · exact hs.credential x hx role bootstrap decisionId hxkind hadmin

/-- A stored proposal replaced by one of its kind and scope. -/
theorem Staffed.proposal_replace {s : AuthorityTables} (hs : s.Staffed) {p p' : ChangeProposal}
    (hp : p ∈ s.changeProposals) (hkey : key p' = key p) (hkind : p'.changeKind = p.changeKind)
    (hscopes : p'.proposedColleagueIds = p.proposedColleagueIds) :
    ∀ x ∈ s.changeProposals.replace p', x.changeKind = .adminEnrollment →
      x.proposedColleagueIds = .all := by
  intro x hx hxkind
  rcases (Table.mem_replace (hkey ▸ Table.find?_of_mem hp)).mp hx with rfl | ⟨hx, _⟩
  · exact hscopes.trans (hs.proposal p hp (hkind.symm.trans hxkind))
  · exact hs.proposal x hx hxkind

theorem Staffed.consume {s : AuthorityTables} (hs : s.Staffed) {p : ChangeProposal}
    (d : ChangeDecision) (hp : p ∈ s.changeProposals) (occurredAt : Instant) :
    (s.consume p d occurredAt).Staffed :=
  hs.of_eq rfl rfl rfl hs.credential (hs.proposal_replace hp rfl rfl rfl)

/-- A new human with a membership of its role. -/
theorem Staffed.seated_insert {s t : AuthorityTables} (hs : s.Staffed) {id : StableId}
    {role : HumanRole} {row : MembershipRow}
    (hprincipals : s.principals.insert? (.human id role) = some t.principals)
    (hinsert : s.memberships.insert? row = some t.memberships)
    (hid : row.principalId = id) (hroles : row.roles = [role]) (hrevision : row.roleRevision = 1)
    (hissuer : ∃ p, t.principals.find? row.issuedByPrincipalId = some p ∧ p.kind = .human)
    (hvalid : row.validate = .ok ()) : ∀ x ∈ t.memberships, t.Seated x := by
  intro x hx
  rcases (Table.mem_insert hinsert).mp hx with hx | rfl
  · exact (hs.seated x hx).mono fun _ _ hp => Table.find?_insert_of_some hprincipals hp
  · have hfind : t.principals.find? x.principalId = some (.human id role) := by
      rw [Table.find?_insert hprincipals, hid]
      exact if_pos rfl
    exact ⟨⟨_, hfind, rfl, hroles, hrevision⟩, ⟨_, hroles⟩, hissuer, hvalid⟩

/-- A new membership of an Admin of the tenant counts. -/
theorem count_insert_admin {s t : AuthorityTables} {row : MembershipRow}
    (hinsert : s.memberships.insert? row = some t.memberships) (hactive : row.status = .active)
    (hroles : row.roles = [.tenantAdmin]) (hscopes : row.colleagueIds = .all) :
    t.adminCount = s.adminCount + 1 ∧ t.tenantAdminCount = s.tenantAdminCount + 1 := by
  have hgoverns : row.governsTenant = true := decide_eq_true ⟨hactive, hroles, hscopes⟩
  constructor
  · rw [adminCount, Table.sum_insert hinsert, if_pos ⟨hactive, hroles⟩]
    rfl
  · rw [tenantAdminCount, Table.sum_insert hinsert, if_pos hgoverns]
    rfl

/-- A new membership of another role does not count. -/
theorem count_insert_other {s t : AuthorityTables} {row : MembershipRow}
    (hinsert : s.memberships.insert? row = some t.memberships)
    (hroles : row.roles ≠ [.tenantAdmin]) :
    t.adminCount = s.adminCount ∧ t.tenantAdminCount = s.tenantAdminCount := by
  have hgoverns : ¬(row.governsTenant = true) := fun h => hroles (of_decide_eq_true h).2.1
  constructor
  · rw [adminCount, Table.sum_insert hinsert, if_neg fun h => hroles h.2]
    rfl
  · rw [tenantAdminCount, Table.sum_insert hinsert, if_neg hgoverns]
    rfl

/-- The first membership, of the bootstrapped Admin. -/
theorem Staffed.bootstrap {s : AuthorityTables} (hs : s.Staffed) {id : StableId}
    {row : MembershipRow} {principals : Table Principal} {memberships : Table MembershipRow}
    (hhumans : ∀ p ∈ s.principals, p.kind ≠ .human) (hnone : s.bootstrapTransition = none)
    (hprincipals : s.principals.insert? (.human id .tenantAdmin) = some principals)
    (hid : row.principalId = id) (hroles : row.roles = [.tenantAdmin])
    (hscopes : row.colleagueIds = .all) (hactive : row.status = .active)
    (hrevision : row.roleRevision = 1) (hissuer : row.issuedByPrincipalId = id)
    (hvalid : row.validate = .ok ()) (hinsert : s.memberships.insert? row = some memberships) :
    Staffed { s with
      principals := principals
      memberships := memberships
      bootstrapTransition := some ⟨.available, none, none, id, 1⟩ } := by
  have hopen : s.transitionConsumed = false := by
    rw [AuthorityTables.transitionConsumed, hnone]
    rfl
  have hfirst : principals.find? id = some (.human id .tenantAdmin) := by
    rw [Table.find?_insert hprincipals]
    exact if_pos rfl
  have hnew : ∃ p, principals.find? row.issuedByPrincipalId = some p ∧ p.kind = .human :=
    ⟨_, hissuer.symm ▸ hfirst, rfl⟩
  refine
    { seated := hs.seated_insert hprincipals hinsert hid hroles hrevision hnew hvalid
      credential := fun c hc role bootstrap decisionId hkind hadmin => ?_
      proposal := hs.proposal
      before := fun _ => ?_
      after := fun h => absurd h Bool.false_ne_true }
  · exact (hs.credential c hc role bootstrap decisionId hkind hadmin).mono rfl
      fun h => absurd (hopen.symm.trans h) Bool.false_ne_true
  · obtain ⟨hcount, htenant⟩ := count_insert_admin hinsert hactive hroles hscopes
      (t := { s with
        principals := principals
        memberships := memberships
        bootstrapTransition := some ⟨.available, none, none, id, 1⟩ })
    have hzero := hs.adminCount_eq_zero hhumans
    have hsame := (hs.before hopen).2
    omega

/-- The issue of a credential. -/
theorem Staffed.issue {s s' : AuthorityTables} (hs : s.Staffed) {c : GovernanceCredential}
    {credentials : Table GovernanceCredential} (h : s.Issues c s')
    (hinsert : s.credentials.insert? c = some credentials) :
    Staffed { s' with credentials := credentials } := by
  have hcredential (hc : ∀ role bootstrap decisionId, c.kind = .enrollment role bootstrap decisionId →
      bootstrap = true ∨ role = .tenantAdmin → s.AdminCredential c role bootstrap) :
      ∀ x ∈ credentials, ∀ role bootstrap decisionId,
        x.kind = .enrollment role bootstrap decisionId → bootstrap = true ∨ role = .tenantAdmin →
        s.AdminCredential x role bootstrap := by
    intro x hx
    rcases (Table.mem_insert hinsert).mp hx with hx | rfl
    · exact hs.credential x hx
    · exact hc
  cases h with
  | ordinary hother hbootstrap =>
    refine hs.of_eq rfl rfl rfl (hcredential fun role bootstrap decisionId hkind hadmin => ?_)
      hs.proposal
    rw [hkind] at hbootstrap
    rcases hadmin with rfl | rfl
    · exact absurd hbootstrap.symm Bool.false_ne_true
    · exact absurd hkind (hother _ _)
  | @transition t _ hkind hscopes ht havailable =>
    refine hs.of_eq rfl rfl ?_ (hcredential fun role bootstrap decisionId hkind' _ => ?_)
      hs.proposal
    · simp [AuthorityTables.transitionConsumed, ht]
    · obtain ⟨rfl, rfl, _⟩ := CredentialKind.enrollment.inj (hkind.symm.trans hkind')
      exact ⟨rfl, hscopes, fun h => absurd h.symm Bool.false_ne_true⟩
  | @approved p d _ hkind hp hchange hscopes happroved =>
    refine hs.of_eq rfl rfl rfl (hcredential fun role bootstrap decisionId hkind' _ => ?_)
      (hs.consume d hp c.issuedAt).proposal
    obtain ⟨rfl, rfl, _⟩ := CredentialKind.enrollment.inj (hkind.symm.trans hkind')
    exact ⟨rfl, hscopes ▸ hs.proposal p hp hchange, fun _ => hs.transitionConsumed happroved⟩

/-- The enrollment of a new human. -/
theorem Staffed.enroll {s : AuthorityTables} (hs : s.Staffed) {id : StableId} {role : HumanRole}
    {m : Membership} {occurredAt : Instant} {c : GovernanceCredential} {bootstrap : Bool}
    {decisionId : Option StableId} {principals : Table Principal}
    {memberships : Table MembershipRow}
    (hfind : s.credentials.find? c.credentialId = some c)
    (hkind : c.kind = .enrollment role bootstrap decisionId)
    (htransition : bootstrap = true → ∃ t, s.bootstrapTransition = some t ∧ t.state = .available ∧
      s.adminCount = 1)
    (hprincipals : s.principals.insert? (.human id role) = some principals)
    (hid : m.principalId = id) (hroles : m.roles = [role])
    (hscopes : m.colleagueIds = c.colleagueIds) (hactive : m.status = .active)
    (hrevision : m.roleRevision = 1)
    (hissuer : s.principals.find? m.issuedBy.principalId = some m.issuedBy)
    (hinsert : s.memberships.insert? m.row = some memberships) :
    Staffed { s with
      principals := principals
      memberships := memberships
      credentials := s.credentials.replace (consumedBy c id occurredAt)
      bootstrapTransition :=
        if bootstrap then s.bootstrapTransition.map fun t => closeTransition t id
        else s.bootstrapTransition } := by
  let t : AuthorityTables := { s with
    principals := principals
    memberships := memberships
    credentials := s.credentials.replace (consumedBy c id occurredAt)
    bootstrapTransition :=
      if bootstrap then s.bootstrapTransition.map fun t => closeTransition t id
      else s.bootstrapTransition }
  have hconsumed : t.transitionConsumed = (bootstrap || s.transitionConsumed) := by
    cases bootstrap with
    | false => rfl
    | true =>
      obtain ⟨x, hx, _⟩ := htransition rfl
      simp [t, AuthorityTables.transitionConsumed, hx, closeTransition]
  have hseated : ∀ x ∈ t.memberships, t.Seated x :=
    hs.seated_insert hprincipals hinsert hid hroles hrevision
      ⟨m.issuedBy, Table.find?_insert_of_some hprincipals hissuer, m.issued_by_human⟩ m.valid
  have hadmin := hs.credential c (Table.mem_of_find? hfind) role bootstrap decisionId hkind
  refine
    { seated := hseated
      credential := fun x hx role' bootstrap' decisionId' hxkind hxadmin => ?_
      proposal := hs.proposal
      before := fun hopen => ?_
      after := fun hclosed => ?_ }
  · have hid : (consumedBy c id occurredAt).credentialId = c.credentialId := rfl
    refine (hs.credential_replace hfind hid rfl rfl x hx role' bootstrap' decisionId' hxkind
      hxadmin).mono rfl fun h => ?_
    rw [hconsumed, h, Bool.or_true]
  · -- The transition is open, so this is no Admin.
    have hopen : bootstrap = false ∧ s.transitionConsumed = false := by
      rw [← Bool.or_eq_false_iff, ← hconsumed]
      exact hopen
    have hother : m.row.roles ≠ [.tenantAdmin] := fun he => by
      have hrole : role = .tenantAdmin := List.singleton_inj.mp (hroles.symm.trans he)
      have htransition := (hadmin (.inr hrole)).transition hopen.1
      exact Bool.false_ne_true (hopen.2.symm.trans htransition)
    obtain ⟨hcount, htenant⟩ := count_insert_other (t := t) hinsert hother
    have hbefore := hs.before hopen.2
    rw [← hcount, ← htenant] at hbefore
    exact hbefore
  · show 2 ≤ t.tenantAdminCount
    by_cases hmakes : bootstrap = true ∨ role = .tenantAdmin
    · obtain ⟨hrole, hall, htransition'⟩ := hadmin hmakes
      obtain ⟨_, htenant⟩ := count_insert_admin (t := t) hinsert hactive (hrole ▸ hroles)
        (hscopes.trans hall)
      rw [htenant]
      by_cases hclosed' : s.transitionConsumed = true
      · have := hs.after hclosed'
        omega
      · have hopen := Bool.eq_false_of_not_eq_true hclosed'
        have hbootstrap : bootstrap = true := by
          by_contra hb
          exact hclosed' (htransition' (Bool.eq_false_of_not_eq_true hb))
        obtain ⟨_, _, _, hone⟩ := htransition hbootstrap
        have := (hs.before hopen).2
        omega
    · have hmakes := not_or.mp hmakes
      have hother : m.row.roles ≠ [.tenantAdmin] := fun he =>
        hmakes.2 (List.singleton_inj.mp (hroles.symm.trans he))
      obtain ⟨_, htenant⟩ := count_insert_other (t := t) hinsert hother
      rw [htenant]
      refine hs.after ?_
      have hclosed : (bootstrap || s.transitionConsumed) = true := hconsumed ▸ hclosed
      exact (Bool.or_eq_true_iff.mp hclosed).resolve_left hmakes.1

/-- The write of an approved membership change. -/
theorem Staffed.change {s : AuthorityTables} (hs : s.Staffed) {p : ChangeProposal}
    {d : ChangeDecision} {role : HumanRole} {status : MembershipStatus} {principal : Principal}
    {row : MembershipRow} (happroved : s.ApprovedBy p d)
    (hwrite : s.MembershipWrite p.targetId role status p.proposedColleagueIds principal row)
    (hkeeps : s.memberships.holds p.targetId MembershipRow.governsTenant = true →
      ¬(role = .tenantAdmin ∧ status = .active ∧ p.proposedColleagueIds = .all) →
      2 < s.tenantAdminCount) :
    Staffed { s with
      principals := s.principals.replace principal
      memberships := s.memberships.replace row } := by
  obtain ⟨oldPrincipal, oldRow, hprincipal, hrow, _, hrevision⟩ := hwrite.old
  have hkeyRow : key row = p.targetId := hwrite.rowId
  have hkeyPrincipal : key principal = p.targetId := hwrite.principalId_eq
  have hrow' : s.memberships.find? (key row) = some oldRow := hkeyRow.symm ▸ hrow
  have hprincipal' : s.principals.find? (key principal) = some oldPrincipal :=
    hkeyPrincipal.symm ▸ hprincipal
  -- A human that is looked up is still found, with a new record if it is the target.
  have hhuman {id : StableId} (h : ∃ q, s.principals.find? id = some q ∧ q.kind = .human) :
      ∃ q, (s.principals.replace principal).find? id = some q ∧ q.kind = .human := by
    obtain ⟨q, hq, hkind⟩ := h
    by_cases hid : id = key principal
    · subst hid
      exact ⟨principal, Table.find?_replace_self hprincipal', hwrite.human⟩
    · exact ⟨q, (Table.find?_replace_of_ne hid).trans hq, hkind⟩
  have hconsumed := hs.transitionConsumed happroved
  refine
    { seated := fun x hx => ?_
      credential := fun c hc role' bootstrap decisionId hkind hadmin =>
        (hs.credential c hc role' bootstrap decisionId hkind hadmin).mono rfl fun h => h
      proposal := hs.proposal
      before := fun hopen => absurd (hconsumed.symm.trans hopen) (by simp)
      after := fun _ => ?_ }
  · rcases (Table.mem_replace hrow').mp hx with rfl | ⟨hx, hne⟩
    · have hold := hs.seated oldRow (Table.mem_of_find? hrow)
      obtain ⟨q, hq, _, _, hq'⟩ := hold.principal
      rw [show oldRow.principalId = p.targetId from Table.key_of_find? hrow, hprincipal] at hq
      obtain rfl := Option.some.inj hq
      refine ⟨⟨principal, ?_, hwrite.human, hwrite.rowRoles.trans hwrite.roles.symm,
        (hrevision hq'.symm).symm⟩, ⟨_, hwrite.rowRoles⟩, hhuman hwrite.rowIssuer, hwrite.rowValid⟩
      show (s.principals.replace principal).find? x.principalId = some principal
      rw [hwrite.rowId, ← hkeyPrincipal]
      exact Table.find?_replace_self hprincipal'
    · have hold := hs.seated x hx
      obtain ⟨q, hq, hqrow⟩ := hold.principal
      have hid : x.principalId ≠ key principal := fun he =>
        hne (he.trans (hkeyPrincipal.trans hkeyRow.symm))
      exact ⟨⟨q, (Table.find?_replace_of_ne hid).trans hq, hqrow⟩, hold.role, hhuman hold.issuer,
        hold.valid⟩
  · have hsum := Table.sum_replace hrow' fun row => if row.governsTenant then 1 else 0
    have hafter := hs.after hconsumed
    rw [tenantAdminCount] at hafter
    show 2 ≤ (s.memberships.replace row).sum fun row => if row.governsTenant then 1 else 0
    by_cases hnew : row.governsTenant = true
    · rw [if_pos hnew] at hsum
      split at hsum <;> omega
    · rw [if_neg hnew] at hsum
      by_cases hold : oldRow.governsTenant = true
      · have hlost : ¬(role = .tenantAdmin ∧ status = .active ∧
            p.proposedColleagueIds = .all) := by
          rintro ⟨rfl, rfl, hall⟩
          exact hnew (decide_eq_true
            ⟨hwrite.rowStatus, hwrite.rowRoles, hwrite.rowScopes.trans hall⟩)
        have hthree := hkeeps (Table.holds_eq_true.mpr ⟨oldRow, hrow, hold⟩) hlost
        rw [tenantAdminCount] at hthree
        rw [if_pos hold] at hsum
        omega
      · rw [if_neg hold] at hsum
        omega

/-- Every move keeps the invariant, provided that a change keeps two Admins. -/
theorem Move.staffed {s t : AuthorityTables} {a : GovernanceAction} (h : s.Move a t)
    (hs : s.Staffed) (hkeeps : s.KeepsTwoAdmins a) : t.Staffed := by
  cases h with
  | idle => exact hs
  | registerRuntime hkeep hnew =>
    exact
      { seated := fun row hrow => (hs.seated row hrow).mono hkeep
        credential := fun c hc role bootstrap decisionId hkind hadmin =>
          (hs.credential c hc role bootstrap decisionId hkind hadmin).mono rfl fun h => h
        proposal := hs.proposal
        before := hs.before
        after := hs.after }
  | bootstrap hhumans hnone hprincipals hid hroles hscopes hactive hrevision hissuer hvalid
      hinsert =>
    exact hs.bootstrap hhumans hnone hprincipals hid hroles hscopes hactive hrevision hissuer
      hvalid hinsert
  | issue _ hissues _ _ hinsert => exact hs.issue hissues hinsert
  | setCredential hfind _ hid hkind hscopes =>
    exact hs.of_eq rfl rfl rfl (hs.credential_replace hfind hid hkind hscopes) hs.proposal
  | enroll hfind hkind _ _ htransition hprincipals hid hroles hscopes hactive hrevision hissuer
      hinsert =>
    exact hs.enroll hfind hkind htransition hprincipals hid hroles hscopes hactive hrevision
      hissuer hinsert
  | recover hfind =>
    exact hs.of_eq rfl rfl rfl (hs.credential_replace hfind rfl rfl rfl) hs.proposal
  | propose _ hscopes hinsert =>
    refine hs.of_eq rfl rfl rfl hs.credential fun p hp hkind => ?_
    rcases (Table.mem_insert hinsert).mp hp with hp | rfl
    · exact hs.proposal p hp hkind
    · exact hscopes hkind
  | decide hfind hset =>
    refine hs.of_eq rfl rfl rfl hs.credential ?_
    exact hs.proposal_replace (Table.mem_of_find? hfind) (by rw [hset]; rfl) (by rw [hset])
      (by rw [hset])
  | close hfind hset =>
    refine hs.of_eq rfl rfl rfl hs.credential ?_
    exact hs.proposal_replace (Table.mem_of_find? hfind) (by rw [hset]; rfl) (by rw [hset])
      (by rw [hset])
  | @consume _ p d occurredAt hp _ => exact hs.consume d hp occurredAt
  | @change p _ _ _ _ occurredAt d role status principal row _ hp happroved hrole hstatus hwrite =>
    refine (hs.change happroved hwrite fun hgoverns hlost => ?_).consume d hp occurredAt
    refine hkeeps (Table.find?_of_mem hp) happroved.approved hgoverns ?_
    rintro ⟨hrole', hstatus', hall⟩
    exact hlost ⟨Option.some.inj (hrole.symm.trans hrole'),
      Option.some.inj (hstatus.symm.trans hstatus'), hall⟩

end AuthorityTables

-- ════════════════════════════════════════════════════════════════════════
-- Two Admins of the tenant
-- ════════════════════════════════════════════════════════════════════════

/-- A principal who may take any action on the tenant right now, as an Admin. -/
def GovernsTenant (s : TenantTables) (admin : Principal) : Prop :=
  ∀ action, ∃ m, s.requireCurrentMembership admin action .tenant = .ok m ∧
    m.status = .active ∧ .tenantAdmin ∈ m.roles ∧ m.allowsNamespace .tenant = true

/-- Two principals, of whom one may propose a change of the tenant and the other
    decide it. -/
def TwoPersonGovernance (s : TenantTables) : Prop :=
  ∃ admin₁ admin₂, admin₁.principalId ≠ admin₂.principalId ∧ GovernsTenant s admin₁ ∧
    GovernsTenant s admin₂

theorem governsTenant_of_row {s : TenantTables} {row : MembershipRow} (hrow : row ∈ s.memberships)
    (hseated : s.Seated row) (hgoverns : row.governsTenant = true) :
    ∃ admin, admin.principalId = row.principalId ∧ GovernsTenant s admin := by
  obtain ⟨hactive, hroles, hscopes⟩ := of_decide_eq_true hgoverns
  obtain ⟨admin, hadmin, hhuman, hadminRoles, hrevision⟩ := hseated.principal
  obtain ⟨issuer, hissuer, hissuerHuman⟩ := hseated.issuer
  have hid : admin.principalId = row.principalId := Table.key_of_find? hadmin
  have hfind : s.memberships.find? admin.principalId = some row := by
    rw [hid]
    exact Table.find?_of_mem hrow
  have hall : row.allowsNamespace .tenant = true := by
    simp [MembershipFields.allowsNamespace, hactive, hscopes]
  refine ⟨admin, hid, fun action => ?_⟩
  have hauthorized : authorizeAction admin row.toMembershipFields action .tenant = .ok () := by
    refine authorizeAction_eq_ok.mpr ⟨hhuman, hid, hactive, ⟨hadminRoles, hrevision⟩, hall, ?_⟩
    exact ⟨.tenantAdmin, by rw [hroles]; exact List.mem_singleton_self _, rfl⟩
  let m : Membership := ⟨row.toMembershipFields, issuer, hseated.valid, hissuerHuman⟩
  have hm : s.membershipForPrincipal admin.principalId = .ok m := by
    simp only [membershipForPrincipal, membershipRow, membershipFromRow, getPrincipal, bind_eq_ok,
      orFail_eq_ok]
    refine ⟨row, hfind, issuer, hissuer, ?_⟩
    unfold Membership.make
    split
    · rename_i hinvalid
      exact absurd (hinvalid.symm.trans hseated.valid) (by simp)
    · rw [dif_pos hissuerHuman]
  refine ⟨m, ?_, hactive, ?_, hall⟩
  · simp only [requireCurrentMembership, getPrincipal, bind_eq_ok, orFail_eq_ok, require_eq_ok,
      exists_const]
    refine ⟨admin, hid ▸ hadmin, m, hm, rfl, ?_⟩
    rw [show m.toMembershipFields = row.toMembershipFields from rfl, hauthorized]
    rfl
  · show HumanRole.tenantAdmin ∈ row.roles
    rw [hroles]
    exact List.mem_singleton_self _

theorem AuthorityTables.Staffed.twoPersonGovernance {s : TenantTables}
    (hs : s.toAuthorityTables.Staffed) (hconsumed : s.transitionConsumed = true) :
    TwoPersonGovernance s := by
  obtain ⟨row₁, hrow₁, row₂, hrow₂, hne, hgoverns₁, hgoverns₂⟩ :=
    Table.exists_ne_of_two_le_sum (hs.after hconsumed)
  obtain ⟨admin₁, hid₁, hadmin₁⟩ := governsTenant_of_row hrow₁ (hs.seated row₁ hrow₁) hgoverns₁
  obtain ⟨admin₂, hid₂, hadmin₂⟩ := governsTenant_of_row hrow₂ (hs.seated row₂ hrow₂) hgoverns₂
  exact ⟨admin₁, admin₂, fun he => hne (hid₁.symm.trans (he.trans hid₂)), hadmin₁, hadmin₂⟩

section Runs

variable {ports : GovernancePorts}

theorem staffed_initial : GovernanceState.initial.authority.Staffed where
  seated row hrow := absurd hrow (Table.not_mem_empty row)
  credential c hc := absurd hc (Table.not_mem_empty c)
  proposal p hp := absurd hp (Table.not_mem_empty p)
  before _ := ⟨Nat.zero_le 1, rfl⟩
  after h := absurd h Bool.false_ne_true

theorem preserved_staffed :
    ((governance ports).restrict fun s a => s.authority.KeepsTwoAdmins a).Preserved
      fun s => s.authority.Staffed :=
  fun _ _ _ hs hstep => (AuthorityTables.move_of_exec hstep.1).staffed hs hstep.2

/-- **Two-person governance.** In every run whose membership changes take an
    Admin from the tenant only while two others remain, two Admins can govern
    the tenant ever after the second-Admin transition. -/
theorem two_person_governance {db₀ db : StableId → GovernanceState}
    {tr : List (Transition (StableId → GovernanceState) (StableId × GovernanceAction))}
    (h₀ : (tenants ports).init db₀) (h : (tenants ports).Path db₀ tr db) (tenantId : StableId)
    (hkeeps : ∀ e ∈ TransitionSystem.componentTrace tenantId tr,
      e.source.authority.KeepsTwoAdmins e.action)
    (hconsumed : (db tenantId).authority.transitionConsumed = true) :
    TwoPersonGovernance (db tenantId).store.tenant := by
  have hpath := (h.component tenantId).restrict
    (C := fun s a => s.authority.KeepsTwoAdmins a) hkeeps
  rw [h₀ tenantId] at hpath
  exact (hpath.invariant preserved_staffed staffed_initial).twoPersonGovernance hconsumed

end Runs

/-- A change of the second Admin that the two Admins stand behind. -/
def sampleNarrowing (scopes : ColleagueScopes)
    (hscopes : scopes.WellFormed (decide (ChangeKind.membership = .draft))) :
    List (GovernanceState → GovernanceAction) :=
  let proposal := sampleChange (stableId "change-1") .membership secondAdmin scopes (by decide)
    hscopes
  sampleTwoAdmins ++ sampleApprovedChange proposal (stableId "decision-1") ++
    [fun s => sampleOk
      (do
        let p ← orFail (s.store.tenant.changeProposals.find? (.tenant, stableId "change-1"))
          .integrity
        let row ← orFail (s.store.tenant.sessions.find? (firstAdmin, stableId "session-1"))
          .integrity
        let session ← s.store.tenant.sessionFromRow row
        pure (p, session))
      fun x => .applyMembershipChange x.1 (stableId "decision-1") x.2 (stableId "apply-1") 0 200]

theorem two_person_governance_kept :
    ∃ (db₀ db : StableId → GovernanceState)
      (tr : List (Transition _ (StableId × GovernanceAction))),
      (tenants samplePorts).init db₀ ∧ (tenants samplePorts).Path db₀ tr db ∧
      (∀ e ∈ TransitionSystem.componentTrace sampleTenant tr,
        e.source.authority.KeepsTwoAdmins e.action) ∧
      (db sampleTenant).authority.transitionConsumed = true ∧
      TwoPersonGovernance (db sampleTenant).store.tenant := by
  obtain ⟨tr, s, hpath, hrun⟩ := exists_governance_path samplePorts
    (sampleNarrowing .all (by decide))
    (fun tr s => tr.all (fun e => decide (e.source.authority.KeepsTwoAdmins e.action)) &&
      s.authority.transitionConsumed) (by decide)
  simp only [Bool.and_eq_true, List.all_eq_true, decide_eq_true_eq] at hrun
  let db₀ : StableId → GovernanceState := fun _ => .initial
  have hlift := hpath.lift (s := db₀) (i := sampleTenant)
  have hkeeps : ∀ e ∈ TransitionSystem.componentTrace sampleTenant
      (tr.map (TransitionSystem.liftTransition db₀ sampleTenant)),
      e.source.authority.KeepsTwoAdmins e.action := by
    rw [TransitionSystem.componentTrace_lift]
    exact hrun.1
  have hconsumed : (Function.update db₀ sampleTenant s sampleTenant).authority.transitionConsumed =
      true := by
    rw [Function.update_self]
    exact hrun.2
  exact ⟨db₀, _, _, fun _ => rfl, hlift, hkeeps, hconsumed,
    two_person_governance (fun _ => rfl) hlift sampleTenant hkeeps hconsumed⟩

/-- Two Admins may narrow one of them to a colleague: the change leaves two
    active Admins, and one who can still act on the tenant. -/
theorem two_person_governance_lost :
    ∃ db : StableId → GovernanceState, (tenants samplePorts).Reachable db ∧
      (db sampleTenant).authority.transitionConsumed = true ∧
      (db sampleTenant).authority.adminCount = 2 ∧
      ¬TwoPersonGovernance (db sampleTenant).store.tenant := by
  obtain ⟨tr, s, hpath, hrun⟩ := exists_governance_path samplePorts
    (sampleNarrowing (.only [stableId "colleague-1"]) (by decide))
    (fun _ s => s.authority.transitionConsumed && decide (s.authority.adminCount = 2) &&
      s.authority.memberships.rows.all fun row =>
        decide (row.colleagueIds = .all → row.principalId = firstAdmin)) (by decide)
  simp only [Bool.and_eq_true, List.all_eq_true, decide_eq_true_eq] at hrun
  obtain ⟨⟨hconsumed, hcount⟩, hrows⟩ := hrun
  obtain ⟨db, hreachable, hdb⟩ := hpath.exists_indexed rfl sampleTenant
  refine ⟨db, hreachable, ?_⟩
  rw [hdb]
  refine ⟨hconsumed, hcount, ?_⟩
  have hfirst {admin : Principal} (h : GovernsTenant s.store.tenant admin) :
      admin.principalId = firstAdmin := by
    obtain ⟨m, hm, hactive, _, hns⟩ := h .proposeChange
    obtain ⟨row, hrow, hfields⟩ := (requireCurrentMembership_eq_ok hm).row
    have hall : row.colleagueIds = .all := by
      rw [show row.colleagueIds = m.colleagueIds from congrArg MembershipFields.colleagueIds hfields]
      simpa [MembershipFields.allowsNamespace, hactive] using hns
    rw [← hrows row (Table.mem_of_find? hrow) hall]
    exact (Table.key_of_find? hrow).symm
  rintro ⟨admin₁, admin₂, hne, hadmin₁, hadmin₂⟩
  exact hne ((hfirst hadmin₁).trans (hfirst hadmin₂).symm)

end DigitalColleagues
