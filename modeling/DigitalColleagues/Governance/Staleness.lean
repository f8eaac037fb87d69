import DigitalColleagues.Application.ChangeService
import DigitalColleagues.Governance.Proposals

/-!
# When a change proposal goes stale

`apply_draft` takes every `StaleConflictError` of a confirmation as proof that the
proposal's target moved. Three of its sources prove that; the fourth says only
that the given decision is about another draft.

## Main definitions

- `GovernanceStore.Moved` — the target of a proposal is not what it is bound to
- `ChangeApplication.StaleOnlyIfMoved`, `StaleMembershipOnlyIfMoved` — what a call
  may do to proposals
- `P6ChangeService.TakesForeignDecision`, `P6ChangeService.LeavesStaleDraft` — the
  calls that do something else

## Main results

- `stale_only_if_moved_iff` — the calls that keep to it
- `not_stale_only_if_moved` — a decision about one draft makes the proposal of
  another stale
-/

namespace DigitalColleagues

open Keyed TenantTables

-- ════════════════════════════════════════════════════════════════════════
-- Where stale conflicts come from
-- ════════════════════════════════════════════════════════════════════════

/-- `StaleConflictError`. -/
def Failure.isStale : Failure → Bool
  | .staleConflict _ => true
  | _ => false

/-- A computation that does not raise `StaleConflictError`. -/
def NeverStale {α : Type} (x : Outcome α) : Prop := ∀ e, x = .error e → e.isStale = false

section NeverStale

variable {α β : Type}

theorem neverStale_ok (a : α) : NeverStale (.ok a) := fun _ h => absurd h (by simp)

theorem neverStale_error {e : Failure} (h : e.isStale = false) :
    NeverStale (.error e : Outcome α) := by
  intro e' he
  rwa [← Except.error.inj he]

theorem neverStale_require {c : Prop} [Decidable c] {e : Failure} (h : e.isStale = false) :
    NeverStale (require c e) := by
  unfold require
  split
  · exact neverStale_ok _
  · exact neverStale_error h

theorem neverStale_orFail {o : Option α} {e : Failure} (h : e.isStale = false) :
    NeverStale (orFail o e) := by
  unfold orFail
  split
  · exact neverStale_ok _
  · exact neverStale_error h

theorem bind_of_eq_ok {x : Outcome α} {f : α → Outcome β} {a : α} (h : x = .ok a) :
    (x >>= f) = f a := by
  rw [h]
  rfl

theorem require_of {c : Prop} [Decidable c] {e : Failure} (h : c) : require c e = .ok () :=
  require_eq_ok.mpr h

theorem NeverStale.bind {x : Outcome α} {f : α → Outcome β} (hx : NeverStale x)
    (hf : ∀ a, x = .ok a → NeverStale (f a)) : NeverStale (x >>= f) := by
  intro e he
  cases hxe : x with
  | error e' =>
    rw [hxe] at he
    obtain rfl := Except.error.inj he
    exact hx e' hxe
  | ok a =>
    rw [hxe] at he
    exact hf a hxe e he

/-- A stale conflict of a sequence that its rest cannot raise is of its first part. -/
theorem eq_error_of_bind {x : Outcome α} {f : α → Outcome β} {e : Failure}
    (h : (x >>= f) = .error e) (he : e.isStale = true) (hf : ∀ a, x = .ok a → NeverStale (f a)) :
    x = .error e := by
  cases hx : x with
  | error e' =>
    rw [hx] at h
    exact congrArg Except.error (Except.error.inj h)
  | ok a =>
    rw [hx] at h
    exact absurd he (by simp [hf a hx e h])

/-- A stale conflict of a sequence that its first part cannot raise is of the rest. -/
theorem NeverStale.exists_of_bind {x : Outcome α} {f : α → Outcome β} {e : Failure}
    (hx : NeverStale x) (he : e.isStale = true) (h : (x >>= f) = .error e) :
    ∃ a, x = .ok a ∧ f a = .error e := by
  cases hxe : x with
  | error e' =>
    rw [hxe] at h
    obtain rfl := Except.error.inj h
    exact absurd he (by simp [hx e' hxe])
  | ok a =>
    rw [hxe] at h
    exact ⟨a, rfl, h⟩

end NeverStale

section Confirmation

variable {s : TenantTables} {u : BuilderTables}

theorem neverStale_validateMembership (f : MembershipFields) : NeverStale f.validate := by
  unfold MembershipFields.validate
  refine (neverStale_require rfl).bind fun _ _ => ?_
  split
  all_goals
    repeat refine (neverStale_require rfl).bind fun _ _ => ?_
    exact neverStale_require rfl

theorem neverStale_membershipForPrincipal (principalId : StableId) :
    NeverStale (s.membershipForPrincipal principalId) := by
  refine (neverStale_orFail rfl).bind fun row _ => (neverStale_orFail rfl).bind fun issuer _ => ?_
  unfold Membership.make
  split
  · rename_i e he
    exact neverStale_error (neverStale_validateMembership _ e he)
  · split
    · exact neverStale_ok _
    · exact neverStale_error rfl

theorem neverStale_requireCurrentMembership (actor : Principal) (action : AuthorizationAction)
    (ns : Namespace) : NeverStale (s.requireCurrentMembership actor action ns) := by
  refine (neverStale_orFail rfl).bind fun _ _ =>
    (neverStale_membershipForPrincipal _).bind fun _ _ =>
      (neverStale_require rfl).bind fun _ _ => ?_
  split
  · exact neverStale_ok _
  · exact neverStale_error rfl

theorem neverStale_validatedChangeApproval (p : ChangeProposal) (decisionId : StableId)
    (actor : Principal) (occurredAt : Instant) :
    NeverStale (s.validatedChangeApproval p decisionId actor occurredAt) := by
  refine (neverStale_requireCurrentMembership _ _ _).bind fun _ _ =>
    (neverStale_require rfl).bind fun _ _ => (neverStale_orFail rfl).bind fun _ _ =>
      (neverStale_require rfl).bind fun _ _ => (neverStale_orFail rfl).bind fun _ _ =>
        (neverStale_membershipForPrincipal _).bind fun _ _ =>
          (neverStale_orFail rfl).bind fun _ _ =>
            (neverStale_membershipForPrincipal _).bind fun _ _ =>
              (neverStale_require rfl).bind fun _ _ => neverStale_ok _

theorem neverStale_consumeChangeRows (p : ChangeProposal) (d : ChangeDecision)
    (occurredAt : Instant) : NeverStale (s.consumeChangeRows p d occurredAt) := by
  refine (neverStale_orFail rfl).bind fun _ _ => (neverStale_orFail rfl).bind fun _ _ =>
    (neverStale_require rfl).bind fun _ _ => (neverStale_require rfl).bind fun _ _ =>
      neverStale_ok _

theorem neverStale_insertRecord {ρ : Type} [DurableRecord ρ] (rs : Records ρ) (r : ρ) :
    NeverStale (rs.insertRecord r) := by
  unfold Records.insertRecord
  split
  · exact neverStale_error rfl
  · split
    · exact neverStale_error rfl
    · exact neverStale_ok _

theorem neverStale_updateRecord {ρ : Type} [DurableRecord ρ] (rs : Records ρ) (r : ρ) (n : ℕ) :
    NeverStale (rs.updateRecord r n) := by
  unfold Records.updateRecord
  split
  · exact neverStale_error rfl
  · split
    · split
      · exact neverStale_error rfl
      · split
        · split
          · exact neverStale_error rfl
          · exact neverStale_ok _
        · exact neverStale_error rfl
    · exact neverStale_error rfl

namespace BuilderTables

theorem neverStale_applyPolicy (current : Option ColleaguePolicy) (mandate : Mandate)
    (draft : ColleagueDraft) (actor : Principal) (occurredAt : Instant) :
    NeverStale (u.applyPolicy current mandate draft actor occurredAt) := by
  unfold applyPolicy
  split
  · cases current with
    | none => exact (neverStale_insertRecord _ _).bind fun _ _ => neverStale_ok _
    | some policy => exact (neverStale_updateRecord _ _ _).bind fun _ _ => neverStale_ok _
  · exact neverStale_error rfl

theorem neverStale_applyConfiguration (draft : ColleagueDraft) (actor : Principal)
    (occurredAt : Instant) : NeverStale (u.applyConfiguration draft actor occurredAt) := by
  have hpolicy : NeverStale u.getActivePolicy := by
    unfold getActivePolicy
    split
    · exact neverStale_ok _
    · exact neverStale_ok _
    · exact neverStale_error rfl
  have hprofile (current : Profile) : NeverStale (u.applyProfile current draft actor occurredAt) := by
    unfold applyProfile
    split
    · exact neverStale_ok _
    · exact (neverStale_updateRecord _ _ _).bind fun _ _ => neverStale_ok _
  have hmandate (v : BuilderTables) (current : Mandate) :
      NeverStale (v.applyMandate current draft actor occurredAt) := by
    unfold applyMandate
    split
    · exact neverStale_ok _
    · split
      · exact (neverStale_updateRecord _ _ _).bind fun _ _ => neverStale_ok _
      · exact neverStale_error rfl
  refine (neverStale_orFail rfl).bind fun _ _ => (neverStale_orFail rfl).bind fun _ _ =>
    hpolicy.bind fun current _ => (neverStale_require rfl).bind fun _ _ =>
      (hprofile _).bind fun _ _ => (hmandate _ _).bind fun r _ => ?_
  obtain ⟨mandate, v⟩ := r
  dsimp only
  split
  · exact neverStale_ok _
  · exact (neverStale_applyPolicy _ _ _ _ _).bind fun _ _ => neverStale_ok _

theorem neverStale_draftIn (draft : ColleagueDraft) (state : DraftLifecycle) (occurredAt : Instant) :
    NeverStale (draftIn draft state occurredAt) := by
  have hvalidate (f : ColleagueDraftFields) : NeverStale f.validate := by
    unfold ColleagueDraftFields.validate
    split
    all_goals
      repeat refine (neverStale_require rfl).bind fun _ _ => ?_
      exact neverStale_require rfl
  unfold draftIn ColleagueDraft.make
  split
  · exact neverStale_ok _
  · rename_i e he
    exact neverStale_error (hvalidate _ e he)

theorem neverStale_confirmRunState (draft : ColleagueDraft) (applied : AppliedConfiguration)
    (actor : Principal) (occurredAt : Instant) :
    NeverStale (u.confirmRunState draft applied actor occurredAt) := by
  unfold confirmRunState
  split
  · exact neverStale_ok _
  · split
    · refine (neverStale_orFail rfl).bind fun _ _ => (neverStale_require rfl).bind fun _ _ => ?_
      split
      · unfold recordExplicitResume insertPolicyOutcome
        split
        · exact (neverStale_require rfl).bind fun _ _ => neverStale_ok _
        · exact (neverStale_orFail rfl).bind fun _ _ => neverStale_ok _
      · split
        · exact neverStale_ok _
        · exact neverStale_ok _
    · split
      · exact neverStale_ok _
      · exact neverStale_ok _

end BuilderTables

/-- A proposal is about a draft exactly as it stands. -/
def ChangeProposal.Binds (p : ChangeProposal) (d : ColleagueDraft) : Prop :=
  p.changeKind = .draft ∧ p.targetId = d.draftId ∧ p.targetRevision = d.revision ∧
    p.canonicalDigest = d.canonicalDigest ∧ p.baseRevisions = d.baseRevisions

instance instDecidableChangeBinds (p : ChangeProposal) (d : ColleagueDraft) :
    Decidable (p.Binds d) :=
  inferInstanceAs (Decidable (_ ∧ _))

/-- The decision given for a draft is about another one. -/
def AuthorityTables.DecidedElsewhere (s : AuthorityTables) (colleagueId decisionId : StableId)
    (d : ColleagueDraft) : Prop :=
  ∃ q, (s.changeProposals.rows.find? fun p =>
      decide (p.ns = .colleague colleagueId ∧ p.decisionId = some decisionId)) = some q ∧ ¬q.Binds d

/-- Among the checks of a current draft, one can raise a stale conflict: that the
    proposal of the decision is about the draft. -/
theorem confirmCurrentDraft_eq_stale {colleagueId : StableId} {draft : ColleagueDraft}
    {cmd : ConfirmDraftCommand} {e : Failure} (he : e.isStale = true)
    (h : confirmCurrentDraft s u colleagueId draft cmd = .error e) :
    authorityChanged draft = true ∧ ∃ decisionId, cmd.changeDecisionId = some decisionId ∧
      s.DecidedElsewhere colleagueId decisionId draft := by
  have hauthorize := eq_error_of_bind h he fun _ _ =>
    (BuilderTables.neverStale_applyConfiguration _ _ _).bind fun _ _ =>
      (BuilderTables.neverStale_draftIn _ _ _).bind fun _ _ =>
        (BuilderTables.neverStale_confirmRunState _ _ _ _).bind fun _ _ =>
          (neverStale_orFail rfl).bind fun _ _ => neverStale_ok _
  unfold authorizeDraftConfirmation at hauthorize
  split at hauthorize
  · rename_i hauthority
    obtain ⟨decisionId, hdecision, hauthorize⟩ :=
      (neverStale_orFail rfl).exists_of_bind he hauthorize
    obtain ⟨q, hq, hauthorize⟩ := (neverStale_orFail rfl).exists_of_bind he hauthorize
    refine ⟨hauthority, decisionId, orFail_eq_ok.mp hdecision, q, orFail_eq_ok.mp hq, ?_⟩
    intro hbinds
    have hrest : NeverStale (do
        require (q.Binds draft)
          (.staleConflict "authority change approval does not bind this draft")
        let decision ← s.validatedChangeApproval q decisionId cmd.actor cmd.occurredAt
        s.consumeChangeRows q decision cmd.occurredAt) := by
      rw [require, if_pos hbinds]
      exact (neverStale_validatedChangeApproval _ _ _ _).bind fun _ _ =>
        neverStale_consumeChangeRows _ _ _
    exact absurd he (by simp [hrest e hauthorize])
  · have hnever : NeverStale (do
        let _ ← s.requireCurrentMembership cmd.actor .applyChange (.colleague colleagueId)
        require (cmd.changeDecisionId = none)
          (.permissionDenied "Profile-only change cannot consume unrelated approval")
        pure s) :=
      (neverStale_requireCurrentMembership _ _ _).bind fun _ _ =>
        (neverStale_require rfl).bind fun _ _ => neverStale_ok _
    exact absurd he (by simp [hnever e hauthorize])

/-- No confirmation under the key of the command is recorded. -/
def BuilderTables.Fresh (u : BuilderTables) (cmd : ConfirmDraftCommand) : Prop :=
  (u.confirmations.rows.find? fun c => decide (c.idempotencyKey = cmd.idempotencyKey)) = none

/-- The draft of a command, exactly as the command names it. -/
structure ConfirmDraftCommand.Names (cmd : ConfirmDraftCommand) (d : ColleagueDraft) : Prop where
  revision : d.revision = cmd.expectedDraftRevision
  baseRevisions : d.baseRevisions = cmd.expectedBaseRevisions
  canonicalDigest : d.canonicalDigest = cmd.expectedCanonicalDigest
  reviewable : d.state = .reviewable

variable {colleagueId : StableId} {cmd : ConfirmDraftCommand}

/-- A stale conflict that rolls a confirmation back. -/
theorem confirmDraft_eq_stale {e : Failure} (he : e.isStale = true)
    (h : confirmDraft s u colleagueId cmd = .error e) :
    BuilderTables.requireAdmin s cmd.actor = .ok () ∧ u.Fresh cmd ∧
      ∃ d, u.drafts.find? cmd.draftId = some d ∧ (cmd.Names d →
        u.currentRevisions d = .ok cmd.expectedBaseRevisions ∧ authorityChanged d = true ∧
        ∃ decisionId, cmd.changeDecisionId = some decisionId ∧
          s.DecidedElsewhere colleagueId decisionId d) := by
  have hadmin : NeverStale (BuilderTables.requireAdmin s cmd.actor) :=
    (neverStale_requireCurrentMembership _ _ _).bind fun _ _ => neverStale_ok _
  obtain ⟨_, hadmin, h⟩ := hadmin.exists_of_bind he h
  refine ⟨hadmin, ?_⟩
  split at h
  · have hreplay := (neverStale_require rfl).exists_of_bind he h
    obtain ⟨_, _, hreplay⟩ := hreplay
    exact absurd hreplay (by simp [pure, Except.pure])
  · rename_i hfresh
    obtain ⟨d, hd, h⟩ := (neverStale_orFail rfl).exists_of_bind he h
    refine ⟨hfresh, d, orFail_eq_ok.mp hd, fun hnames => ?_⟩
    rw [bind_of_eq_ok (require_of
      ⟨hnames.revision, hnames.baseRevisions, hnames.canonicalDigest⟩),
      bind_of_eq_ok (require_of hnames.reviewable)] at h
    have hcurrent : NeverStale (u.currentRevisions d) :=
      (neverStale_orFail rfl).bind fun _ _ => (neverStale_orFail rfl).bind fun _ _ => neverStale_ok _
    obtain ⟨current, hcurrent, h⟩ := hcurrent.exists_of_bind he h
    split at h
    · rename_i hsame
      have hconfirm := eq_error_of_bind h he fun _ _ => neverStale_ok _
      rw [hcurrent, hsame]
      exact ⟨rfl, confirmCurrentDraft_eq_stale he hconfirm⟩
    · have hmark : NeverStale (u.markStale d cmd.occurredAt) :=
        (BuilderTables.neverStale_draftIn _ _ _).bind fun _ _ => neverStale_ok _
      obtain ⟨_, _, h⟩ := hmark.exists_of_bind he h
      exact absurd h (by simp [pure, Except.pure])

/-- A decision about another draft is a stale conflict. -/
theorem confirmDraft_of_decidedElsewhere {d : ColleagueDraft} {decisionId : StableId}
    (hadmin : BuilderTables.requireAdmin s cmd.actor = .ok ()) (hfresh : u.Fresh cmd)
    (hd : u.drafts.find? cmd.draftId = some d) (hnames : cmd.Names d)
    (hcurrent : u.currentRevisions d = .ok cmd.expectedBaseRevisions)
    (hauthority : authorityChanged d = true) (hdecision : cmd.changeDecisionId = some decisionId)
    (helsewhere : s.DecidedElsewhere colleagueId decisionId d) :
    confirmDraft s u colleagueId cmd =
      .error (.staleConflict "authority change approval does not bind this draft") := by
  obtain ⟨q, hq, hbinds⟩ := helsewhere
  unfold ChangeProposal.Binds at hbinds
  rw [confirmDraft, bind_of_eq_ok hadmin]
  unfold BuilderTables.Fresh at hfresh
  rw [hfresh]
  dsimp only
  rw [bind_of_eq_ok (show u.getDraft cmd.draftId = .ok d from orFail_eq_ok.mpr hd),
    bind_of_eq_ok (require_of
      ⟨hnames.revision, hnames.baseRevisions, hnames.canonicalDigest⟩),
    bind_of_eq_ok (require_of hnames.reviewable), bind_of_eq_ok hcurrent, if_pos rfl,
    confirmCurrentDraft, authorizeDraftConfirmation, if_pos hauthority,
    bind_of_eq_ok (orFail_eq_ok.mpr hdecision), bind_of_eq_ok (orFail_eq_ok.mpr hq), require,
    if_neg hbinds]
  rfl

/-- What a confirmation commits that then raises: the draft is stale, as its base
    has moved. -/
theorem confirmDraft_eq_ok_error {r : Failure} {s' : TenantTables} {v : BuilderTables} :
    confirmDraft s u colleagueId cmd = .ok (.error r, s', v) ↔
      BuilderTables.requireAdmin s cmd.actor = .ok () ∧ u.Fresh cmd ∧
      r = BuilderTables.staleBase ∧ s' = s ∧
      ∃ d, u.drafts.find? cmd.draftId = some d ∧ cmd.Names d ∧
        (∃ current, u.currentRevisions d = .ok current ∧ current ≠ cmd.expectedBaseRevisions) ∧
        ∃ stale, BuilderTables.draftIn d .stale cmd.occurredAt = .ok stale ∧
          v = u.writeDraft stale := by
  constructor
  · intro h
    simp only [confirmDraft, bind_eq_ok] at h
    obtain ⟨_, hadmin, h⟩ := h
    refine ⟨hadmin, ?_⟩
    split at h
    · simp only [bind_eq_ok, pure_eq_ok, Prod.mk.injEq, reduceCtorEq, false_and, and_false,
        exists_false] at h
    · rename_i hfresh
      simp only [BuilderTables.getDraft, bind_eq_ok, require_eq_ok, orFail_eq_ok,
        exists_const] at h
      obtain ⟨d, hd, ⟨hrevision, hbase, hdigest⟩, hreviewable, current, hcurrent, h⟩ := h
      split at h
      · simp only [bind_eq_ok, pure_eq_ok, Prod.mk.injEq, reduceCtorEq, false_and, and_false,
          exists_false] at h
      · rename_i hmoved
        simp only [BuilderTables.markStale, bind_eq_ok, pure_eq_ok, Prod.mk.injEq,
          Except.error.injEq] at h
        obtain ⟨_, ⟨stale, hstale, rfl⟩, rfl, rfl, rfl⟩ := h
        exact ⟨hfresh, rfl, rfl, d, hd, ⟨hrevision, hbase, hdigest, hreviewable⟩,
          ⟨current, hcurrent, hmoved⟩, stale, hstale, rfl⟩
  · rintro ⟨hadmin, hfresh, rfl, rfl, d, hd, hnames, ⟨current, hcurrent, hmoved⟩, stale, hstale, rfl⟩
    have hmark : u.markStale d cmd.occurredAt = .ok (u.writeDraft stale) := bind_of_eq_ok hstale
    rw [confirmDraft, bind_of_eq_ok hadmin]
    unfold BuilderTables.Fresh at hfresh
    rw [hfresh]
    dsimp only
    rw [bind_of_eq_ok (show u.getDraft cmd.draftId = .ok d from orFail_eq_ok.mpr hd),
      bind_of_eq_ok (require_of
        ⟨hnames.revision, hnames.baseRevisions, hnames.canonicalDigest⟩),
      bind_of_eq_ok (require_of hnames.reviewable), bind_of_eq_ok hcurrent, if_neg hmoved,
      bind_of_eq_ok hmark]
    rfl

end Confirmation

-- ════════════════════════════════════════════════════════════════════════
-- Targets and proposals
-- ════════════════════════════════════════════════════════════════════════

namespace GovernanceStore

/-- The draft of a proposal, reviewable at the bound revision and digest. -/
def Bound (s : GovernanceStore) (p : ChangeProposal) (d : ColleagueDraft) : Prop :=
  s.findDraft p.ns p.targetId = some d ∧ d.state = .reviewable ∧
    d.revision = p.targetRevision ∧ d.canonicalDigest = p.canonicalDigest

/-- The active configuration of a colleague is at the given revisions. -/
def At (s : GovernanceStore) (ns : Namespace) (revisions : BaseRevisions) : Prop :=
  ∃ colleagueId base, ns = .colleague colleagueId ∧ (s.tables colleagueId).Active base ∧
    base.revisions = revisions

/-- The target of a proposal is not what the proposal is bound to. -/
def Moved (s : GovernanceStore) (p : ChangeProposal) : Prop :=
  if p.changeKind = .draft then
    (∀ d, ¬s.Bound p d) ∨ ∃ revisions, s.At p.ns revisions ∧ revisions ≠ p.baseRevisions
  else ∃ m, s.tenant.membershipForPrincipal p.targetId = .ok m ∧
    m.membershipRevision ≠ p.targetRevision

/-- A stored proposal that is not stale becomes so. -/
def GoesStale (s t : GovernanceStore) (p : ChangeProposal) : Prop :=
  p ∈ s.tenant.changeProposals ∧ p.state ≠ .stale ∧
    ∃ q ∈ t.tenant.changeProposals, key q = key p ∧ q.state = .stale

theorem not_goesStale_of_eq {s t : GovernanceStore}
    (h : t.tenant.changeProposals = s.tenant.changeProposals) (p : ChangeProposal) :
    ¬s.GoesStale t p := by
  rintro ⟨hp, hstate, q, hq, hkey, hstale⟩
  rw [h] at hq
  exact hstate (Table.eq_of_key_eq hq hp hkey ▸ hstale)

/-- The use of a proposal makes none stale. -/
theorem not_goesStale_of_consumes {s t : GovernanceStore}
    (h : s.tenant.Consumes t.tenant.toAuthorityTables) (p : ChangeProposal) :
    ¬s.GoesStale t p := by
  obtain h | ⟨used, hused, d, occurredAt, h⟩ := h
  · exact not_goesStale_of_eq h p
  · rintro ⟨hp, hstate, q, hq, hkey, hstale⟩
    rw [h] at hq
    let used' : ChangeProposal := { used with
      state := .applied
      consumedAt := some occurredAt
      revision := used.revision + 1 }
    have hfind : s.tenant.changeProposals.find? (key used') = some used := Table.find?_of_mem hused
    obtain rfl | ⟨hq, -⟩ := (Table.mem_replace hfind).mp hq
    · exact absurd hstale (by simp)
    · exact hstate (Table.eq_of_key_eq hq hp hkey ▸ hstale)

end GovernanceStore

open GovernanceStore

namespace P6ChangeService

variable {ports : ChangePorts} {looks : ℕ → GovernanceStore}
  {others : GovernanceStore → GovernanceStore} {request : ApplyRequest} {s t : GovernanceStore}
  {p : ChangeProposal}

/-- The store lets the caller mark the proposal: it is as the caller read it and
    not yet closed, and the caller may apply changes. -/
def Marks (request : ApplyRequest) (p : ChangeProposal) (s : GovernanceStore) : Prop :=
  (∃ m, s.tenant.requireCurrentMembership request.session.principal .applyChange p.ns = .ok m) ∧
    s.tenant.changeProposals.find? (p.ns, p.proposalId) = some p ∧
    (p.state = .pending ∨ p.state = .approved)

/-- A proposal marked stale. -/
def marked (p : ChangeProposal) : ChangeProposal :=
  { p with state := .stale, revision := p.revision + 1 }

theorem markStale_eq_ok : markStale request p s = .ok t ↔ Marks request p s ∧
    t = { s with tenant := { s.tenant with
      changeProposals := s.tenant.changeProposals.replace (marked p) } } := by
  simp only [markStale, bind_eq_ok, pure_eq_ok, Prod.exists, markChangeProposalStale_eq_ok, Marks,
    marked]
  constructor
  · rintro ⟨_, _, ⟨hm, hfind, hstate, rfl, rfl⟩, rfl⟩
    exact ⟨⟨hm, hfind, hstate⟩, rfl⟩
  · rintro ⟨⟨hm, hfind, hstate⟩, rfl⟩
    exact ⟨_, _, ⟨hm, hfind, hstate, rfl, rfl⟩, rfl⟩

theorem exists_markStale (h : Marks request p s) : ∃ t, markStale request p s = .ok t :=
  ⟨_, markStale_eq_ok.mpr ⟨h, rfl⟩⟩

/-- Marking makes the one proposal stale. -/
theorem goesStale_of_markStale (h : markStale request p s = .ok t) {q : ChangeProposal} :
    s.GoesStale t q ↔ q = p := by
  obtain ⟨⟨-, hfind, hstate⟩, rfl⟩ := markStale_eq_ok.mp h
  have hp : p ∈ s.tenant.changeProposals := Table.mem_of_find? hfind
  have hfind : s.tenant.changeProposals.find? (key (marked p)) = some p := hfind
  constructor
  · rintro ⟨hq, hqstate, x, hx, hkey, hstale⟩
    obtain rfl | ⟨hx, -⟩ := (Table.mem_replace hfind).mp hx
    · exact Table.eq_of_key_eq hq hp hkey.symm
    · exact absurd (Table.eq_of_key_eq hx hq hkey ▸ hstale) hqstate
  · rintro rfl
    have hopen : q.state ≠ .stale := by
      rcases hstate with hstate | hstate
      · simp [hstate]
      · simp [hstate]
    exact ⟨hp, hopen, marked q, (Table.mem_replace hfind).mpr (.inl rfl), rfl, rfl⟩

end P6ChangeService

-- ════════════════════════════════════════════════════════════════════════
-- Calls
-- ════════════════════════════════════════════════════════════════════════

/-- What a call on the store `s` may do: it makes a proposal stale only if its
    target has moved, and one that fails otherwise leaves everything as it was. -/
structure ChangeApplication.StaleOnlyIfMoved {α : Type} (a : ChangeApplication α)
    (s : GovernanceStore) (others : GovernanceStore → GovernanceStore) : Prop where
  applying : ∀ p, s.GoesStale a.applied p → s.Moved p
  marking : ∀ p, (others a.applied).GoesStale a.marked p → s.Moved p
  unchanged : ∀ e, a.result = .error e → (∀ p, ¬s.GoesStale a.applied p) →
    (∀ p, ¬(others a.applied).GoesStale a.marked p) →
    a.applied = s ∧ a.marked = others a.applied

/-- The same of a call with one transaction, which met the target in `look`. -/
structure StaleMembershipOnlyIfMoved (look s : GovernanceStore)
    (r : Outcome Membership × GovernanceStore) : Prop where
  marking : ∀ p, s.GoesStale r.2 p → look.Moved p
  unchanged : ∀ e, r.1 = .error e → (∀ p, ¬s.GoesStale r.2 p) → r.2 = s

namespace P6ChangeService

variable (ports : ChangePorts) (looks : ℕ → GovernanceStore)
  (others : GovernanceStore → GovernanceStore) (request : ApplyRequest) (s : GovernanceStore)

/-- The call gets as far as the draft of a proposal that it read. -/
structure Confirms (colleagueId : StableId) (p : ChangeProposal) : Prop where
  proposal : draftProposal looks request = .ok (colleagueId, p)
  authorized : authorizeConfirmation looks request colleagueId = .ok ()
  admin : BuilderTables.requireAdmin s.tenant request.session.principal = .ok ()
  fresh : (s.tables colleagueId).Fresh (confirmCommand ports request p)

/-- A call whose proposal fits its draft and the active configuration; but the
    given decision is about another draft, and the proposal can be marked. -/
def TakesForeignDecision : Prop :=
  ∃ colleagueId p d, Confirms ports looks request s colleagueId p ∧ s.Bound p d ∧
    s.At p.ns p.baseRevisions ∧ authorityChanged d = true ∧
    s.tenant.DecidedElsewhere colleagueId request.decisionId d ∧ Marks request p (others s)

/-- A call that finds the configuration moved and writes its draft as stale, but
    then cannot mark the proposal. -/
def LeavesStaleDraft : Prop :=
  ∃ colleagueId p d stale revisions, Confirms ports looks request s colleagueId p ∧
    s.Bound p d ∧ s.At p.ns revisions ∧ revisions ≠ p.baseRevisions ∧
    BuilderTables.draftIn d .stale request.now = .ok stale ∧
    ¬Marks request p
      (others (s.withTables colleagueId ((s.tables colleagueId).writeDraft stale)))

variable {ports looks others request s}

-- ════════════════════════════════════════════════════════════════════════
-- What a call does
-- ════════════════════════════════════════════════════════════════════════

/-- A call that writes nothing. -/
theorem staleOnlyIfMoved_of_same {α : Type} (r : Outcome α) :
    (⟨r, s, others s⟩ : ChangeApplication α).StaleOnlyIfMoved s others where
  applying p hp := absurd hp (not_goesStale_of_eq rfl p)
  marking p hp := absurd hp (not_goesStale_of_eq rfl p)
  unchanged _ _ _ _ := ⟨rfl, rfl⟩

/-- A call that marks a proposal whose target has moved. -/
theorem staleOnlyIfMoved_of_marked {α : Type} {applied : GovernanceStore} (r : Outcome α)
    (hnone : ∀ q, ¬s.GoesStale applied q) (ht : markStale request p (others applied) = .ok t)
    (hmoved : s.Moved p) : (⟨r, applied, t⟩ : ChangeApplication α).StaleOnlyIfMoved s others where
  applying q hq := absurd hq (hnone q)
  marking q hq := by
    obtain rfl := (goesStale_of_markStale ht).mp hq
    exact hmoved
  unchanged _ _ _ hnone := absurd ((goesStale_of_markStale ht).mpr rfl) (hnone p)

theorem markAndRaise_of_not_stale {α : Type} {e : Failure} (he : e.isStale = false) :
    markAndRaise others request p e s = (⟨.error e, s, others s⟩ : ChangeApplication α) := by
  unfold markAndRaise
  split
  · exact absurd he (by simp [Failure.isStale])
  · rfl

theorem markAndRaise_of_marked {α : Type} {e : Failure} (he : e.isStale = true)
    (h : markStale request p (others s) = .ok t) :
    markAndRaise others request p e s = (⟨.error e, s, t⟩ : ChangeApplication α) := by
  cases e with
  | staleConflict message => simp only [markAndRaise, h]
  | _ => exact absurd he (by simp [Failure.isStale])

theorem markAndRaise_of_not_marks {α : Type} {e : Failure}
    (hmarks : ¬Marks request p (others s)) :
    ∃ e', markAndRaise others request p e s = (⟨.error e', s, others s⟩ : ChangeApplication α) := by
  unfold markAndRaise
  split
  · split
    · rename_i t ht
      exact absurd (markStale_eq_ok.mp ht).1 hmarks
    · exact ⟨_, rfl⟩
  · exact ⟨_, rfl⟩

theorem draftProposal_eq_ok {colleagueId : StableId}
    (h : draftProposal looks request = .ok (colleagueId, p)) :
    p.ns = .colleague colleagueId ∧ p.changeKind = .draft ∧
      p ∈ (looks 1).tenant.changeProposals := by
  simp only [draftProposal, getChangeProposal, bind_eq_ok, orFail_eq_ok, require_eq_ok, pure_eq_ok,
    exists_const, Prod.mk.injEq] at h
  obtain ⟨_, _, _, _, proposal, hfind, hkind, rfl, rfl⟩ := h
  exact ⟨congrArg Prod.fst (Table.key_of_find? hfind), hkind, Table.mem_of_find? hfind⟩

section

variable {colleagueId : StableId} (hproposal : draftProposal looks request = .ok (colleagueId, p))
  (hauthorized : authorizeConfirmation looks request colleagueId = .ok ())

include hproposal hauthorized

theorem applyDraft_of_error {e : Failure} (h : confirmDraft s.tenant (s.tables colleagueId)
    colleagueId (confirmCommand ports request p) = .error e) :
    applyDraft ports looks others request s = markAndRaise others request p e s := by
  simp only [applyDraft, hproposal, hauthorized, h]

theorem applyDraft_of_raised {e : Failure} {tenant : TenantTables} {tables : BuilderTables}
    (h : confirmDraft s.tenant (s.tables colleagueId) colleagueId
      (confirmCommand ports request p) = .ok (.error e, tenant, tables)) :
    applyDraft ports looks others request s = markAndRaise others request p e
      ({ s with tenant := tenant }.withTables colleagueId tables) := by
  simp only [applyDraft, hproposal, hauthorized, h]

theorem applyDraft_of_ok {confirmation : ConfirmationResult} {tenant : TenantTables}
    {tables : BuilderTables} (h : confirmDraft s.tenant (s.tables colleagueId) colleagueId
      (confirmCommand ports request p) = .ok (.ok confirmation, tenant, tables)) :
    applyDraft ports looks others request s =
      ⟨.ok confirmation, { s with tenant := tenant }.withTables colleagueId tables,
        others ({ s with tenant := tenant }.withTables colleagueId tables)⟩ := by
  simp only [applyDraft, hproposal, hauthorized, h]

end

/-- What a run guarantees of the proposal of a call in the store it finds. -/
structure Grounded (s : GovernanceStore) (colleagueId : StableId) (p : ChangeProposal) : Prop where
  ns : p.ns = .colleague colleagueId
  kind : p.changeKind = .draft
  founded : ∃ d, (s.tables colleagueId).drafts.find? p.targetId = some d ∧
    d.baseRevisions = p.baseRevisions
  current : ∀ d ∈ (s.tables colleagueId).drafts, ∃ base, (s.tables colleagueId).Active base ∧
    (s.tables colleagueId).currentRevisions d = .ok base.revisions

theorem Grounded.bound_iff {colleagueId : StableId} (h : Grounded s colleagueId p)
    {d : ColleagueDraft} (hd : (s.tables colleagueId).drafts.find? p.targetId = some d) :
    s.Bound p d ↔ (confirmCommand ports request p).Names d := by
  obtain ⟨d', hd', hbase⟩ := h.founded
  obtain rfl := Option.some.inj (hd'.symm.trans hd)
  constructor
  · rintro ⟨_, hstate, hrevision, hdigest⟩
    exact ⟨hrevision, hbase, hdigest, hstate⟩
  · intro hnames
    refine ⟨?_, hnames.reviewable, hnames.revision, hnames.canonicalDigest⟩
    rw [h.ns]
    exact hd

theorem Grounded.find?_of_bound {colleagueId : StableId} (h : Grounded s colleagueId p)
    {d : ColleagueDraft} (hd : s.Bound p d) :
    (s.tables colleagueId).drafts.find? p.targetId = some d := by
  have hfind := hd.1
  rw [h.ns] at hfind
  exact hfind

/-- The active configuration is at the revisions that a confirmation compares. -/
theorem Grounded.at_iff {colleagueId : StableId} (h : Grounded s colleagueId p)
    {d : ColleagueDraft} (hd : (s.tables colleagueId).drafts.find? p.targetId = some d)
    {revisions : BaseRevisions} :
    s.At p.ns revisions ↔ (s.tables colleagueId).currentRevisions d = .ok revisions := by
  obtain ⟨base, hactive, hcurrent⟩ := h.current d (Table.mem_of_find? hd)
  rw [hcurrent]
  constructor
  · rintro ⟨colleagueId', base', hns, hactive', rfl⟩
    obtain rfl := Namespace.colleague.inj (h.ns.symm.trans hns)
    rw [hactive.unique hactive']
  · intro hrevisions
    exact ⟨colleagueId, base, h.ns, hactive, Except.ok.inj hrevisions⟩

theorem Grounded.not_moved {colleagueId : StableId} (h : Grounded s colleagueId p)
    {d : ColleagueDraft} (hd : s.Bound p d) (hat : s.At p.ns p.baseRevisions) : ¬s.Moved p := by
  rw [Moved, if_pos h.kind]
  rintro (hnone | ⟨revisions, hrevisions, hne⟩)
  · exact hnone d hd
  · have hfind := h.find?_of_bound hd
    have hsame := ((h.at_iff hfind).mp hrevisions).symm.trans ((h.at_iff hfind).mp hat)
    exact hne (Except.ok.inj hsame)

/-- The two kinds of calls break the rule. -/
theorem not_staleOnlyIfMoved_of_takesForeignDecision
    (hgrounded : ∀ {colleagueId p}, draftProposal looks request = .ok (colleagueId, p) →
      Grounded s colleagueId p)
    (h : TakesForeignDecision ports looks others request s) :
    ¬(applyDraft ports looks others request s).StaleOnlyIfMoved s others := by
  obtain ⟨colleagueId, p, d, hconfirms, hbound, hat, hauthority, helsewhere, hmarks⟩ := h
  have hg := hgrounded hconfirms.proposal
  have hfind := hg.find?_of_bound hbound
  have herror := confirmDraft_of_decidedElsewhere hconfirms.admin hconfirms.fresh hfind
    ((hg.bound_iff hfind).mp hbound) ((hg.at_iff hfind).mp hat) hauthority rfl helsewhere
  obtain ⟨t, ht⟩ := exists_markStale hmarks
  rw [applyDraft_of_error hconfirms.proposal hconfirms.authorized herror,
    markAndRaise_of_marked rfl ht]
  intro hrule
  exact hg.not_moved hbound hat (hrule.marking p ((goesStale_of_markStale ht).mpr rfl))

/-- A draft written into the tables of its colleague is found there. -/
theorem findDraft_withTables {colleagueId draftId : StableId} {d : ColleagueDraft}
    (hd : (s.tables colleagueId).drafts.find? draftId = some d) (tables : BuilderTables) :
    (s.withTables colleagueId tables).findDraft (.colleague colleagueId) draftId =
      tables.drafts.find? draftId := by
  cases hc : s.colleague with
  | none =>
    rw [GovernanceStore.tables, hc] at hd
    exact absurd hd (by simp [BuilderTables.empty])
  | some c =>
    by_cases hid : c.colleagueId = colleagueId
    · rw [findDraft, tables_eq (withTables_eq hc colleagueId tables)]
      simp only [hid, if_true]
    · rw [tables_eq hc, if_neg hid] at hd
      exact absurd hd (by simp [BuilderTables.empty])

theorem not_staleOnlyIfMoved_of_leavesStaleDraft
    (hgrounded : ∀ {colleagueId p}, draftProposal looks request = .ok (colleagueId, p) →
      Grounded s colleagueId p)
    (h : LeavesStaleDraft ports looks others request s) :
    ¬(applyDraft ports looks others request s).StaleOnlyIfMoved s others := by
  obtain ⟨colleagueId, p, d, stale, revisions, hconfirms, hbound, hat, hmoved, hstale, hmarks⟩ := h
  have hg := hgrounded hconfirms.proposal
  have hfind := hg.find?_of_bound hbound
  have hraised : confirmDraft s.tenant (s.tables colleagueId) colleagueId
      (confirmCommand ports request p) = .ok (.error BuilderTables.staleBase, s.tenant,
        (s.tables colleagueId).writeDraft stale) :=
    confirmDraft_eq_ok_error.mpr ⟨hconfirms.admin, hconfirms.fresh, rfl, rfl, d, hfind,
      (hg.bound_iff hfind).mp hbound, ⟨revisions, (hg.at_iff hfind).mp hat, hmoved⟩, stale, hstale,
      rfl⟩
  rw [applyDraft_of_raised hconfirms.proposal hconfirms.authorized hraised]
  obtain ⟨e, hraise⟩ := markAndRaise_of_not_marks hmarks
  rw [hraise]
  intro hrule
  have hsame := (hrule.unchanged e rfl (not_goesStale_of_eq rfl) (not_goesStale_of_eq rfl)).1
  obtain ⟨hstate, hstaleState, hid⟩ := BuilderTables.draftIn_eq_ok hstale
  have hkey : stale.draftId = p.targetId := hid.trans (Table.key_of_find? hfind)
  have hstored : (s.withTables colleagueId ((s.tables colleagueId).writeDraft stale)).findDraft
      (.colleague colleagueId) p.targetId = some stale := by
    rw [findDraft_withTables hfind, ← hkey]
    exact Table.find?_replace_self (hkey ▸ hfind)
  have hold : s.findDraft (.colleague colleagueId) p.targetId = some d := hfind
  rw [show s.withTables colleagueId _ = s from hsame] at hstored
  obtain rfl := Option.some.inj (hold.symm.trans hstored)
  exact absurd (hbound.2.1.symm.trans hstaleState) (by simp)

/-- Every other call keeps to it. -/
theorem staleOnlyIfMoved_of_not
    (hgrounded : ∀ {colleagueId p}, draftProposal looks request = .ok (colleagueId, p) →
      Grounded s colleagueId p)
    (hforeign : ¬TakesForeignDecision ports looks others request s)
    (hdraft : ¬LeavesStaleDraft ports looks others request s) :
    (applyDraft ports looks others request s).StaleOnlyIfMoved s others := by
  cases hproposal : draftProposal looks request with
  | error e =>
    simp only [applyDraft, hproposal]
    exact staleOnlyIfMoved_of_same _
  | ok read =>
    obtain ⟨colleagueId, p⟩ := read
    cases hauthorized : authorizeConfirmation looks request colleagueId with
    | error e =>
      simp only [applyDraft, hproposal, hauthorized]
      exact staleOnlyIfMoved_of_same _
    | ok _ =>
      have hg := hgrounded hproposal
      cases hconfirm : confirmDraft s.tenant (s.tables colleagueId) colleagueId
          (confirmCommand ports request p) with
      | error e =>
        rw [applyDraft_of_error hproposal hauthorized hconfirm]
        cases he : e.isStale with
        | false =>
          rw [markAndRaise_of_not_stale he]
          exact staleOnlyIfMoved_of_same _
        | true =>
          by_cases hmarks : Marks request p (others s)
          · obtain ⟨t, ht⟩ := exists_markStale hmarks
            rw [markAndRaise_of_marked he ht]
            refine staleOnlyIfMoved_of_marked _ (not_goesStale_of_eq rfl) ht ?_
            rw [Moved, if_pos hg.kind]
            refine .inl fun d hbound => hforeign ?_
            have hfind := hg.find?_of_bound hbound
            obtain ⟨hadmin, hfresh, d', hd', hrest⟩ := confirmDraft_eq_stale he hconfirm
            obtain rfl := Option.some.inj (hd'.symm.trans hfind)
            obtain ⟨hcurrent, hauthority, decisionId, hdecision, helsewhere⟩ :=
              hrest ((hg.bound_iff hfind).mp hbound)
            obtain rfl := Option.some.inj hdecision
            exact ⟨colleagueId, p, _, ⟨hproposal, hauthorized, hadmin, hfresh⟩, hbound,
              (hg.at_iff hfind).mpr hcurrent, hauthority, helsewhere, hmarks⟩
          · obtain ⟨e', hraise⟩ := markAndRaise_of_not_marks hmarks
            rw [hraise]
            exact staleOnlyIfMoved_of_same _
      | ok done =>
        obtain ⟨r, tenant, tables⟩ := done
        cases r with
        | error e =>
          rw [applyDraft_of_raised hproposal hauthorized hconfirm]
          obtain ⟨hadmin, hfresh, rfl, rfl, d, hfind, hnames, ⟨revisions, hcurrent, hmoved⟩, stale,
            hstale, rfl⟩ := confirmDraft_eq_ok_error.mp hconfirm
          have hat := (hg.at_iff hfind).mpr hcurrent
          by_cases hmarks : Marks request p
              (others (s.withTables colleagueId ((s.tables colleagueId).writeDraft stale)))
          · obtain ⟨t, ht⟩ := exists_markStale hmarks
            rw [markAndRaise_of_marked rfl ht]
            refine staleOnlyIfMoved_of_marked _ (not_goesStale_of_eq rfl) ht ?_
            rw [Moved, if_pos hg.kind]
            exact .inr ⟨revisions, hat, hmoved⟩
          · exact absurd ⟨colleagueId, p, d, stale, revisions,
              ⟨hproposal, hauthorized, hadmin, hfresh⟩, (hg.bound_iff hfind).mpr hnames, hat, hmoved,
              hstale, hmarks⟩ hdraft
        | ok confirmation =>
          rw [applyDraft_of_ok hproposal hauthorized hconfirm]
          have hconsumes := consumes_of_confirmDraft hconfirm
          exact
            { applying := fun q hq => absurd hq (not_goesStale_of_consumes hconsumes q)
              marking := fun q hq => absurd hq (not_goesStale_of_eq rfl q)
              unchanged := fun e he => absurd he (by simp) }

/-- In a run, the draft of a proposal that was read stays where it is, over the
    bound revisions. -/
theorem grounded_of_path {read found : GovernanceState}
    (hread : (governance ports.toGovernancePorts).Reachable read)
    {tr : List (Transition _ GovernanceAction)}
    (hpath : (governance ports.toGovernancePorts).Path read tr found)
    (hlook : looks 1 = read.store) {colleagueId : StableId}
    (hproposal : draftProposal looks request = .ok (colleagueId, p)) :
    Grounded found.store colleagueId p := by
  obtain ⟨hns, hkind, hp⟩ := draftProposal_eq_ok hproposal
  rw [hlook] at hp
  have hfounded := (founded_of_reachable hread hp).of_path hread hpath
  rw [GovernanceState.Founded, if_pos hkind, hns] at hfounded
  have hlineage : Lineage ports.toGovernancePorts found :=
    lineage_of_reachable (hpath.reachable hread)
  refine ⟨hns, hkind, hfounded, fun d hd => ?_⟩
  cases hc : found.store.colleague with
  | none =>
    rw [GovernanceStore.tables, hc] at hd
    exact absurd hd (Table.not_mem_empty d)
  | some c =>
    rw [tables_eq hc] at hd ⊢
    by_cases hid : c.colleagueId = colleagueId
    · rw [if_pos hid] at hd ⊢
      obtain ⟨base, hbase⟩ := hlineage.configured c hc
      exact ⟨base, hbase.active, hbase.currentRevisions (hlineage.sourced c hc) hd⟩
    · rw [if_neg hid] at hd
      exact absurd hd (Table.not_mem_empty d)

/-- A membership change is marked only over another membership revision, as its
    digest is the one of the change it was made for. -/
theorem staleMembershipOnlyIfMoved (hdigest : ∀ p ∈ (looks 1).tenant.changeProposals,
      p.changeKind ≠ .draft → ports.changeDigest p.change = p.canonicalDigest) :
    StaleMembershipOnlyIfMoved (looks 2) s (applyMembership ports looks request s) := by
  have of_same (r : Outcome Membership) : StaleMembershipOnlyIfMoved (looks 2) s (r, s) :=
    ⟨fun p hp => absurd hp (not_goesStale_of_eq rfl p), fun _ _ _ => rfl⟩
  unfold applyMembership
  split
  · exact of_same _
  · rename_i p hproposal
    split
    · exact of_same _
    · rename_i t ht
      refine ⟨fun q hq => ?_, fun _ _ hnone => absurd ((goesStale_of_markStale ht).mpr rfl) (hnone p)⟩
      obtain rfl := (goesStale_of_markStale ht).mp hq
      simp only [membershipProposal, getChangeProposal, bind_eq_ok, orFail_eq_ok, pure_eq_ok,
        Prod.mk.injEq] at hproposal
      obtain ⟨_, _, proposal, hfind, target, htarget, rfl, hstale⟩ := hproposal
      obtain ⟨_, hstale⟩ := of_decide_eq_true hstale
      have hns : proposal.ns = .tenant := congrArg Prod.fst (Table.key_of_find? hfind)
      have hkind : proposal.changeKind ≠ .draft := by
        intro hkind
        have hcolleague := proposal.ns_of_kind
        rw [if_pos hkind, hns] at hcolleague
        exact absurd hcolleague (by decide)
      obtain ⟨row, hrow, hfields⟩ := membershipForPrincipal_eq_ok htarget
      have hid : target.principalId = proposal.targetId :=
        (congrArg MembershipFields.principalId hfields).trans (Table.key_of_find? hrow)
      rw [Moved, if_neg hkind]
      refine ⟨target, htarget, fun hsame => ?_⟩
      rw [hid, hsame] at hstale
      exact hstale.elim (absurd rfl) (absurd (hdigest _ (Table.mem_of_find? hfind) hkind))
  · split
    · exact of_same _
    · rename_i hchange
      have hconsumes := consumes_of_applyMembershipChange hchange
      exact ⟨fun q hq => absurd hq (not_goesStale_of_consumes hconsumes q),
        fun _ he => absurd he (by simp)⟩

end P6ChangeService

/-- When a proposal goes stale. Whatever others do while a call reads and between
    its two transactions: an application of a draft makes its proposal stale only
    if the target has moved, and otherwise fails without a trace, exactly unless
    it is given a decision about another draft, or cannot mark the proposal of a
    draft that it has written as stale. An application of a membership change
    keeps to this always. -/
theorem stale_only_if_moved_iff {ports : ChangePorts} {read found : StableId → GovernanceState}
    (hread : (tenants ports.toGovernancePorts).Reachable read)
    {tr : List (Transition _ (StableId × GovernanceAction))}
    (hpath : (tenants ports.toGovernancePorts).Path read tr found) (tenantId : StableId)
    {looks : ℕ → GovernanceStore} (hlook : looks 1 = (read tenantId).store)
    (others : GovernanceStore → GovernanceStore) (request : ApplyRequest) :
    ((P6ChangeService.applyDraft ports looks others request (found tenantId).store).StaleOnlyIfMoved
        (found tenantId).store others ↔
      ¬P6ChangeService.TakesForeignDecision ports looks others request (found tenantId).store ∧
        ¬P6ChangeService.LeavesStaleDraft ports looks others request (found tenantId).store) ∧
    StaleMembershipOnlyIfMoved (looks 2) (found tenantId).store
      (P6ChangeService.applyMembership ports looks request (found tenantId).store) := by
  have hread := hread.component tenantId
  have hrun := hpath.component tenantId
  have hgrounded {colleagueId : StableId} {p : ChangeProposal}
      (hproposal : P6ChangeService.draftProposal looks request = .ok (colleagueId, p)) :=
    P6ChangeService.grounded_of_path hread hrun hlook hproposal
  refine ⟨⟨fun hrule => ⟨fun hforeign => ?_, fun hdraft => ?_⟩, fun h => ?_⟩, ?_⟩
  · exact P6ChangeService.not_staleOnlyIfMoved_of_takesForeignDecision hgrounded hforeign hrule
  · exact P6ChangeService.not_staleOnlyIfMoved_of_leavesStaleDraft hgrounded hdraft hrule
  · exact P6ChangeService.staleOnlyIfMoved_of_not hgrounded h.1 h.2
  · refine P6ChangeService.staleMembershipOnlyIfMoved fun p hp hkind => ?_
    rw [hlook] at hp
    have hfounded := founded_of_reachable hread hp
    rwa [GovernanceState.Founded, if_neg hkind] at hfounded

-- ════════════════════════════════════════════════════════════════════════
-- A concrete run
-- ════════════════════════════════════════════════════════════════════════

/-- Ports with constant digests, for concrete runs. -/
def sampleChangePorts : ChangePorts :=
  { samplePorts with
    confirmationDigest := fun _ => 0
    textDigest := fun _ _ => 0
    derive := fun _ _ => stableId "derived" }

/-- Two reviewed drafts of one colleague; the change of the first is approved, the
    one of the second is pending. -/
def sampleTwoChanges : List (GovernanceState → GovernanceAction) :=
  sampleReadColleague ++
    [fun _ => .builder sampleAssistant (.createDraft ⟨0, 0, 0⟩ sampleAdmin (stableId "draft-1")
        (stableId "correlation-1") 100),
      fun _ => .builder sampleAssistant (.reviewDraft (stableId "draft-1") 1 sampleAdmin 105),
      fun _ => .builder sampleAssistant (.createDraft ⟨0, 0, 0⟩ sampleAdmin (stableId "draft-2")
        (stableId "correlation-2") 100),
      fun _ => .builder sampleAssistant (.reviewDraft (stableId "draft-2") 1 sampleAdmin 105)] ++
    sampleApprovedChange (sampleDraftChange (stableId "change-1") (stableId "draft-1") 1 ⟨1, 1, 0⟩)
      (stableId "decision-1") ++
    [fun _ => .tenant (.createChangeProposal
        (sampleDraftChange (stableId "change-2") (stableId "draft-2") 1 ⟨1, 1, 0⟩))]

/-- The second change, applied with the decision about the first one. -/
def sampleApply : ApplyRequest where
  session := sessionOf { sampleSession (stableId "session-1") 1 with
    activeColleagueId := some sampleAssistant } sampleAdmin
  proposalId := stableId "change-2"
  decisionId := stableId "decision-1"
  idempotencyKey := stableId "apply-2"
  now := 120

/-- What the call finds. -/
def sampleMismatch (s : GovernanceStore) : Bool :=
  let change := sampleDraftChange (stableId "change-2") (stableId "draft-2") 1 ⟨1, 1, 0⟩
  let tables := s.tables sampleAssistant
  decide (P6ChangeService.draftProposal (fun _ => s) sampleApply = .ok (sampleAssistant, change)) &&
  decide (P6ChangeService.authorizeConfirmation (fun _ => s) sampleApply sampleAssistant = .ok ()) &&
  decide (BuilderTables.requireAdmin s.tenant sampleAdmin = .ok ()) &&
  (tables.confirmations.rows.find? fun c =>
    decide (c.idempotencyKey = sampleApply.idempotencyKey)).isNone &&
  (s.findDraft change.ns change.targetId).any (fun d =>
    decide (d.state = .reviewable ∧ d.revision = 1 ∧ d.canonicalDigest = 0 ∧
      tables.currentRevisions d = .ok ⟨1, 1, 0⟩) && authorityChanged d &&
    (s.tenant.changeProposals.rows.find? fun p => decide (p.ns = .colleague sampleAssistant ∧
      p.decisionId = some sampleApply.decisionId)).any fun q => !decide (q.Binds d)) &&
  (s.tenant.requireCurrentMembership sampleAdmin .applyChange change.ns).isOk &&
  decide (s.tenant.changeProposals.find? (change.ns, change.proposalId) = some change)

theorem exists_mismatch : ∃ tr s,
    (governance sampleChangePorts.toGovernancePorts).Path .initial tr s ∧
      sampleMismatch s.store = true :=
  exists_governance_path samplePorts sampleTwoChanges (fun _ s => sampleMismatch s.store)
    (by decide +kernel)

theorem takesForeignDecision_of_mismatch {s : GovernanceState}
    (hs : (governance sampleChangePorts.toGovernancePorts).Reachable s)
    (h : sampleMismatch s.store = true) :
    P6ChangeService.TakesForeignDecision sampleChangePorts (fun _ => s.store) id sampleApply
      s.store := by
  simp only [sampleMismatch, Bool.and_eq_true, decide_eq_true_eq, Option.any_eq_true,
    Option.isNone_iff_eq_none, Bool.not_eq_true', decide_eq_false_iff_not] at h
  obtain ⟨⟨⟨⟨⟨⟨hproposal, hauthorized⟩, hadmin⟩, hfresh⟩, d, hd, ⟨⟨hstate, hrevision, hdigest,
    hcurrent⟩, hauthority⟩, q, hq, hbinds⟩, hmember⟩, hstored⟩ := h
  have hg : P6ChangeService.Grounded s.store sampleAssistant _ :=
    P6ChangeService.grounded_of_path hs .refl rfl hproposal
  have hbound : s.store.Bound
      (sampleDraftChange (stableId "change-2") (stableId "draft-2") 1 ⟨1, 1, 0⟩) d :=
    ⟨hd, hstate, hrevision, hdigest⟩
  have hmembership : ∃ m, s.store.tenant.requireCurrentMembership sampleAdmin .applyChange
      (.colleague sampleAssistant) = .ok m := by
    cases hm : s.store.tenant.requireCurrentMembership sampleAdmin .applyChange
        (.colleague sampleAssistant) with
    | ok m => exact ⟨m, rfl⟩
    | error e =>
      rw [show (sampleDraftChange (stableId "change-2") (stableId "draft-2") 1 ⟨1, 1, 0⟩).ns =
        .colleague sampleAssistant from rfl, hm] at hmember
      exact absurd hmember (by simp [Except.isOk, Except.toBool])
  exact ⟨sampleAssistant, _, d, ⟨hproposal, hauthorized, hadmin, hfresh⟩, hbound,
    (hg.at_iff (hg.find?_of_bound hbound)).mpr hcurrent, hauthority, ⟨q, hq, hbinds⟩,
    ⟨hmembership, hstored, .inl rfl⟩⟩

/-- A decision that is about one draft makes the proposal of another one stale,
    though nothing has moved. -/
theorem not_stale_only_if_moved : ¬∀ (ports : ChangePorts) (found : StableId → GovernanceState),
    (tenants ports.toGovernancePorts).Reachable found → ∀ tenantId request,
    (P6ChangeService.applyDraft ports (fun _ => (found tenantId).store) id request
      (found tenantId).store).StaleOnlyIfMoved (found tenantId).store id := by
  intro hrule
  obtain ⟨tr, s, hpath, hmismatch⟩ := exists_mismatch
  obtain ⟨db, hdb, rfl⟩ := exists_tenants_reachable hpath
  have hs := hpath.reachable (.init rfl)
  refine P6ChangeService.not_staleOnlyIfMoved_of_takesForeignDecision
    (fun hproposal => ?_) (takesForeignDecision_of_mismatch hs hmismatch)
    (hrule sampleChangePorts db hdb sampleTenant sampleApply)
  exact P6ChangeService.grounded_of_path hs .refl rfl hproposal

theorem stale_only_if_moved_mismatch : ∃ found : StableId → GovernanceState,
    (tenants samplePorts).Reachable found ∧
    ¬(P6ChangeService.applyDraft sampleChangePorts (fun _ => (found sampleTenant).store) id
      sampleApply (found sampleTenant).store).StaleOnlyIfMoved (found sampleTenant).store id := by
  obtain ⟨tr, s, hpath, hmismatch⟩ := exists_mismatch
  obtain ⟨db, hdb, rfl⟩ := exists_tenants_reachable hpath
  refine ⟨db, hdb, fun hrule => ?_⟩
  have hiff := (@stale_only_if_moved_iff sampleChangePorts db db hdb [] .refl sampleTenant
    (fun _ => (db sampleTenant).store) rfl id sampleApply).1
  exact (hiff.mp hrule).1
    (takesForeignDecision_of_mismatch (hpath.reachable (.init rfl)) hmismatch)

end DigitalColleagues
