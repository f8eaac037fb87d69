import DigitalColleagues.Runtime.BoundedDispatch

/-!
# Approvals of exact effects

A decision is recorded with a ledger row of the proposal revision it answers, so
that revision is answered once. An attempt is made for a decision that approved,
and its retries keep citing that decision.
-/

namespace DigitalColleagues

open Keyed

namespace EffectTables

variable {s t : EffectTables}

-- ════════════════════════════════════════════════════════════════════════
-- Decisions and what cites them
-- ════════════════════════════════════════════════════════════════════════

/-- Decisions answer stored proposals and hold the ledger row of their proposal
    revision; attempts cite decisions that approved. -/
structure Decided (s : EffectTables) : Prop where
  answers : ∀ d ∈ s.approvals.domain, ∃ p, s.proposals.find? d.proposalId = some p ∧
    p.AnsweredBy d
  ledger : ∀ d ∈ s.approvals.domain, ∃ row,
    s.proposalApprovalLedger.find? (d.proposalId, d.proposalRevision) = some row ∧
      row.recordId = d.approvalDecisionId
  attempt : ∀ a ∈ s.attempts.domain, ∃ d ∈ s.approvals.domain,
    d.approvalDecisionId = a.approvalDecisionId ∧ d.choice = .approve ∧
      d.proposalId = a.proposalId ∧ d.proposalRevision = a.proposalRevision

/-- Two decisions about one proposal revision are the same. -/
theorem Decided.eq_of_revision (h : s.Decided) {d d' : HumanApprovalDecision}
    (hd : d ∈ s.approvals.domain) (hd' : d' ∈ s.approvals.domain)
    (hid : d.proposalId = d'.proposalId) (hrevision : d.proposalRevision = d'.proposalRevision) :
    d = d' := by
  obtain ⟨row, hrow, hkey⟩ := h.ledger d hd
  obtain ⟨row', hrow', hkey'⟩ := h.ledger d' hd'
  rw [hid, hrevision, hrow'] at hrow
  obtain rfl := Option.some.inj hrow
  exact Table.eq_of_key_eq hd hd' (hkey.symm.trans hkey')

/-- Decisions about one proposal are about the same revision of it. -/
theorem Decided.eq_of_proposal (h : s.Decided) {d d' : HumanApprovalDecision}
    (hd : d ∈ s.approvals.domain) (hd' : d' ∈ s.approvals.domain)
    (hid : d.proposalId = d'.proposalId) : d = d' := by
  obtain ⟨p, hp, hanswered⟩ := h.answers d hd
  obtain ⟨p', hp', hanswered'⟩ := h.answers d' hd'
  rw [hid, hp'] at hp
  obtain rfl := Option.some.inj hp
  exact h.eq_of_revision hd hd' hid
    (hanswered.proposalRevision.trans hanswered'.proposalRevision.symm)

theorem decided_empty : EffectTables.empty.Decided :=
  ⟨fun d hd => absurd hd (Table.not_mem_empty d), fun d hd => absurd hd (Table.not_mem_empty d),
    fun a ha => absurd ha (Table.not_mem_empty a)⟩

/-- A step that records no decision keeps them, when every attempt cites what an
    attempt cited before. -/
theorem Decided.of_frame (h : s.Decided)
    (hproposals : ∀ id p, s.proposals.find? id = some p → t.proposals.find? id = some p)
    (happrovals : t.approvals = s.approvals)
    (hledger : t.proposalApprovalLedger = s.proposalApprovalLedger)
    (hattempts : ∀ a ∈ t.attempts.domain, ∃ b ∈ s.attempts.domain,
      b.approvalDecisionId = a.approvalDecisionId ∧ b.proposalId = a.proposalId ∧
        b.proposalRevision = a.proposalRevision) : t.Decided where
  answers d hd := by
    rw [happrovals] at hd
    obtain ⟨p, hp, hanswered⟩ := h.answers d hd
    exact ⟨p, hproposals _ p hp, hanswered⟩
  ledger := by
    rw [happrovals, hledger]
    exact h.ledger
  attempt a ha := by
    obtain ⟨b, hb, hdecision, hproposal, hrevision⟩ := hattempts a ha
    obtain ⟨d, hd, hid, hchoice, hp, hr⟩ := h.attempt b hb
    rw [happrovals]
    exact ⟨d, hd, hid.trans hdecision, hchoice, hp.trans hproposal, hr.trans hrevision⟩

/-- An update of an attempt that keeps what it cites. -/
theorem cites_of_updateRecord {attempts : Records EffectAttempt} {id : StableId}
    {attempt a' : EffectAttempt} {n : ℕ} (hattempt : s.attempts.find? id = some attempt)
    (hupdate : s.attempts.updateRecord a' n = .ok attempts)
    (hdecision : attempt.approvalDecisionId = a'.approvalDecisionId)
    (hproposal : attempt.proposalId = a'.proposalId)
    (hrevision : attempt.proposalRevision = a'.proposalRevision) :
    ∀ a ∈ attempts.domain, ∃ b ∈ s.attempts.domain,
      b.approvalDecisionId = a.approvalDecisionId ∧ b.proposalId = a.proposalId ∧
        b.proposalRevision = a.proposalRevision := by
  intro a ha
  obtain ⟨_, ⟨old, hold, _⟩, hdomain⟩ := Records.updateRecord_eq_ok hupdate
  rw [hdomain] at ha
  rcases (Table.mem_replace hold).mp ha with he | ⟨ha, _⟩
  · rw [he]
    exact ⟨attempt, Table.mem_of_find? hattempt, hdecision, hproposal, hrevision⟩
  · exact ⟨a, ha, rfl, rfl, rfl⟩

/-- A recorded decision answers a revision that had none. -/
theorem Decided.of_insertDecision (h : s.Decided) {proposal : EffectProposal}
    {decision : HumanApprovalDecision} (hinsert : s.insertDecision proposal decision = .ok t)
    (hproposal : s.proposals.find? proposal.proposalId = some proposal)
    (hanswered : proposal.AnsweredBy decision) : t.Decided := by
  obtain ⟨approvals, approvalLedger, ledger, _, happrovals, hledger, rfl⟩ :=
    insertDecision_eq_ok hinsert
  have hmem := fun d => Table.mem_insert (x := d) (Records.insert?_of_insertRecord happrovals)
  refine ⟨fun d hd => ?_, fun d hd => ?_, fun a ha => ?_⟩
  · rcases (hmem d).mp hd with hd | rfl
    · exact h.answers d hd
    · exact ⟨proposal, by rwa [hanswered.proposalId], hanswered⟩
  · rcases (hmem d).mp hd with hd | rfl
    · obtain ⟨row, hrow, hkey⟩ := h.ledger d hd
      exact ⟨row, Table.find?_insert_of_some hledger hrow, hkey⟩
    · refine ⟨⟨(proposal.proposalId, proposal.revision), d.approvalDecisionId⟩, ?_, rfl⟩
      rw [hanswered.proposalId, hanswered.proposalRevision]
      exact (Table.find?_insert hledger _).trans (if_pos rfl)
  · obtain ⟨d, hd, hcites⟩ := h.attempt a ha
    exact ⟨d, (hmem d).mpr (.inl hd), hcites⟩

/-- A first attempt cites the decision that was just recorded. -/
theorem Decided.of_enqueueAttempt (h : s.Decided) {proposal : EffectProposal}
    {cmd : ApprovalCommand} (henqueue : s.enqueueAttempt proposal cmd = .ok t)
    (hdecision : cmd.decision ∈ s.approvals.domain) (hchoice : cmd.decision.choice = .approve)
    (hanswered : proposal.AnsweredBy cmd.decision) : t.Decided := by
  obtain ⟨attempts, outbox, effectLedger, hattempts, _, rfl⟩ := enqueueAttempt_eq_ok henqueue
  refine ⟨h.answers, h.ledger, fun a ha => ?_⟩
  rcases (Table.mem_insert (Records.insert?_of_insertRecord hattempts)).mp ha with ha | rfl
  · exact h.attempt a ha
  · exact ⟨cmd.decision, hdecision, rfl, hchoice, hanswered.proposalId,
      hanswered.proposalRevision⟩

/-- Every move keeps decisions and attempts in this relation. -/
theorem decided_move {o : Option LastOutcome} (h : s.Decided) (hm : Move s o t) : t.Decided := by
  have hsame : ∀ a ∈ s.attempts.domain, ∃ b ∈ s.attempts.domain,
      b.approvalDecisionId = a.approvalDecisionId ∧ b.proposalId = a.proposalId ∧
        b.proposalRevision = a.proposalRevision := fun a ha => ⟨a, ha, rfl, rfl, rfl⟩
  cases hm with
  | idle => exact h
  | propose hinsert =>
    exact h.of_frame (fun _ _ hp => Records.find?_insertRecord_of_some hinsert hp) rfl rfl hsame
  | decide hinsert hproposal hanswered => exact h.of_insertDecision hinsert hproposal hanswered
  | approve hproposal hinsert henqueue hanswered hchoice =>
    refine (h.of_insertDecision hinsert hproposal hanswered).of_enqueueAttempt henqueue ?_ hchoice
      hanswered
    obtain ⟨_, _, _, _, happrovals, _, rfl⟩ := insertDecision_eq_ok hinsert
    exact (Table.mem_insert (Records.insert?_of_insertRecord happrovals)).mpr (.inr rfl)
  | claim => exact h.of_frame (fun _ _ hp => hp) rfl rfl hsame
  | start _ hattempt _ hupdate =>
    exact h.of_frame (fun _ _ hp => hp) rfl rfl
      (cites_of_updateRecord hattempt hupdate rfl rfl rfl)
  | unknown => exact h.of_frame (fun _ _ hp => hp) rfl rfl hsame
  | settle _ _ hattempt _ _ _ hupdate _ =>
    exact h.of_frame (fun _ _ hp => hp) rfl rfl
      (cites_of_updateRecord hattempt hupdate rfl rfl rfl)
  | retry _ _ hattempt _ _ _ hupdate _ _ _ hinsert =>
    refine h.of_frame (fun _ _ hp => hp) rfl rfl fun a ha => ?_
    rcases (Table.mem_insert (Records.insert?_of_insertRecord hinsert)).mp ha with ha | rfl
    · exact cites_of_updateRecord hattempt hupdate rfl rfl rfl a ha
    · exact ⟨_, Table.mem_of_find? hattempt, rfl, rfl, rfl⟩

-- ════════════════════════════════════════════════════════════════════════
-- Exactness
-- ════════════════════════════════════════════════════════════════════════

/-- Each attempt has one decision about its exact proposal revision, which
    approved it; a revision has one decision and one outbox row, and a rejected
    proposal has no attempt. -/
structure ApprovedExactly (s : EffectTables) : Prop where
  attempt : ∀ a ∈ s.attempts.domain, ∃ proposal decision,
    s.proposals.find? a.proposalId = some proposal ∧ proposal.revision = a.proposalRevision ∧
    decision ∈ s.approvals.domain ∧ decision.approvalDecisionId = a.approvalDecisionId ∧
    decision.choice = .approve ∧ proposal.AnsweredBy decision ∧
    ∀ other ∈ s.approvals.domain, other.Cites proposal → other = decision
  decision : ∀ d ∈ s.approvals.domain, ∀ d' ∈ s.approvals.domain, d.proposalId = d'.proposalId →
    d.proposalRevision = d'.proposalRevision → d = d'
  outbox : ∀ r ∈ s.outbox, ∀ r' ∈ s.outbox, r.proposalId = r'.proposalId → r = r'
  rejected : ∀ d ∈ s.approvals.domain, d.choice = .reject →
    ∀ a ∈ s.attempts.domain, a.proposalId ≠ d.proposalId

theorem Decided.approvedExactly (h : s.Decided) (htracked : s.Tracked) : s.ApprovedExactly where
  attempt a ha := by
    obtain ⟨decision, hdecision, hid, hchoice, hproposalId, hrevision⟩ := h.attempt a ha
    obtain ⟨proposal, hproposal, hanswered⟩ := h.answers decision hdecision
    refine ⟨proposal, decision, hproposalId ▸ hproposal,
      hanswered.proposalRevision.symm.trans hrevision, hdecision, hid, hchoice, hanswered,
      fun other hother hcites => ?_⟩
    exact h.eq_of_revision hother hdecision (hcites.proposalId.trans hanswered.proposalId.symm)
      (hcites.proposalRevision.trans hanswered.proposalRevision.symm)
  decision _ hd _ hd' := h.eq_of_revision hd hd'
  outbox r hr r' hr' hproposal := htracked.unique r hr r' hr' (.inr hproposal)
  rejected d hd hreject a ha hproposal := by
    obtain ⟨d', hd', _, hchoice, hproposalId, _⟩ := h.attempt a ha
    have heq : d' = d := h.eq_of_proposal hd' hd (hproposalId.trans hproposal)
    rw [heq, hreject] at hchoice
    exact absurd hchoice (by simp)

end EffectTables

-- ════════════════════════════════════════════════════════════════════════
-- Runs
-- ════════════════════════════════════════════════════════════════════════

section Runs

variable {ε : Type} {hooks : StoreHooks ε}

/-- A step that records a decision. -/
def RecordsDecision (decision : HumanApprovalDecision)
    (e : Transition (RuntimeState ε) (RuntimeAction ε)) : Prop :=
  e.source.effects.tables.approvals.find? decision.approvalDecisionId = none ∧
    e.target.effects.tables.approvals.find? decision.approvalDecisionId = some decision

instance (decision : HumanApprovalDecision) (e : Transition (RuntimeState ε) (RuntimeAction ε)) :
    Decidable (RecordsDecision decision e) := inferInstanceAs (Decidable (_ ∧ _))

/-- The proposal answered in a step lies inside exactly one boundary of the
    mandate revision it names, as the mandate is stored at that step. -/
def WithinMandate (hooks : StoreHooks ε) (decision : HumanApprovalDecision)
    (e : Transition (RuntimeState ε) (RuntimeAction ε)) : Prop :=
  ∃ proposal mandate mandateId,
    e.source.effects.tables.proposals.find? decision.proposalId = some proposal ∧
    proposal.AnsweredBy decision ∧ hooks.findMandate e.source.rest mandateId = some mandate ∧
    proposal.mandate = some ⟨mandate.mandateId, mandate.revision⟩ ∧
    ∃! boundary, boundary ∈ mandate.effectBoundaries ∧ boundary.Contains proposal

theorem decided_of_reachable {s : RuntimeState ε} (h : (runtime hooks).Reachable s) :
    s.effects.tables.Decided := by
  have hpreserved : (runtime hooks).Preserved fun s => s.effects.tables.Decided :=
    fun _ _ _ hs hstep => EffectTables.decided_move hs (RuntimeState.effects_move hstep)
  refine h.invariant (I := fun s => s.effects.tables.Decided) ?_ hpreserved
  rintro _ ⟨rest, rfl⟩
  exact EffectTables.decided_empty

theorem EffectTables.approvals_of_finalizeDispatch {s t : EffectTables} {claim : OutboxClaim}
    {outcome : ChannelOutcome} {fin : Finalization} {result : ActionResult}
    (h : s.finalizeDispatch claim outcome fin = .ok (result, t)) : t.approvals = s.approvals := by
  obtain ⟨_, _, _, _, _, _, _, _, _, _, _, _, _, rfl⟩ := finalizeDispatch_eq_ok h
  rfl

/-- Outside the approval operation no decision appears. -/
theorem EffectSide.approvals_of_exec {s t : EffectSide} {a : EffectAction}
    (h : s.exec a = .ok t) : t.tables.approvals = s.tables.approvals := by
  cases a with
  | claimOutbox owner now leaseUntil =>
    simp only [exec] at h
    split at h
    · obtain rfl := Except.ok.inj h
      rfl
    · rename_i hclaim
      obtain rfl := Except.ok.inj h
      obtain ⟨_, _, _, _, rfl⟩ := EffectTables.claimOutboxState_eq_some hclaim
      rfl
  | claimAmbiguous owner now leaseUntil =>
    simp only [exec] at h
    split at h
    · obtain rfl := Except.ok.inj h
      rfl
    · rename_i hclaim
      obtain rfl := Except.ok.inj h
      obtain ⟨_, _, _, _, rfl⟩ := EffectTables.claimOutboxState_eq_some hclaim
      rfl
  | markDispatchStarted claim occurredAt =>
    simp only [exec, bind_eq_ok, pure_eq_ok, Prod.exists] at h
    obtain ⟨_, _, _, _, hmark, rfl⟩ := h
    obtain ⟨_, _, _, _, _, _, _, _, rfl⟩ := EffectTables.markDispatchStarted_eq_ok hmark
    rfl
  | channelApply attempt =>
    simp only [exec, bind_eq_ok, pure_eq_ok] at h
    obtain ⟨_, _, rfl⟩ := h
    rfl
  | finalizeDispatch claim outcome fin =>
    simp only [exec, bind_eq_ok, pure_eq_ok, Prod.exists] at h
    obtain ⟨_, _, _, _, hfinalize, rfl⟩ := h
    exact EffectTables.approvals_of_finalizeDispatch hfinalize
  | recoverExpiredDispatches now resultActor resultId resultDigest =>
    simp only [exec, bind_eq_ok, pure_eq_ok, Prod.exists] at h
    obtain ⟨_, _, hrecover, rfl⟩ := h
    rcases EffectTables.recoverExpiredDispatches_eq_ok hrecover with rfl |
      ⟨_, _, _, _, _, _, hfinalize⟩
    · rfl
    · exact EffectTables.approvals_of_finalizeDispatch hfinalize
  | reconcileAmbiguous claim outcome fin nextReconciliationAt =>
    simp only [exec, bind_eq_ok, pure_eq_ok, Prod.exists] at h
    obtain ⟨_, _, _, _, hreconcile, rfl⟩ := h
    obtain ⟨_, _, _, _, _, hcase⟩ := EffectTables.reconcileAmbiguous_eq_ok hreconcile
    rcases hcase with ⟨_, _, _, rfl⟩ | ⟨_, _, _, _, _, _, _, _, _, _, rfl⟩ <;> rfl

/-- Only the approval operation records a decision: the one it authorized. -/
theorem approval_of_recordsDecision {s t : RuntimeState ε} {a : RuntimeAction ε}
    (h : s.exec hooks a = .ok t) {decision : HumanApprovalDecision}
    (hrecords : RecordsDecision decision ⟨s, a, t⟩) :
    ∃ cmd proposal bound, a = .commitApprovalAndAttempt cmd ∧ cmd.decision = decision ∧
      s.effects.tables.authorizeApproval
        { findMandate := hooks.findMandate s.rest
          findPrincipal := hooks.findPrincipal s.rest
          bindEffectApprovalAuthority := hooks.bindEffectApprovalAuthority s.rest cmd.occurredAt }
        cmd = .ok (proposal, bound) := by
  obtain ⟨hnone, hsome⟩ := hrecords
  have hkept : t.effects.tables.approvals ≠ s.effects.tables.approvals := fun he => by
    rw [he] at hsome
    exact absurd (hnone.symm.trans hsome) (by simp)
  cases a with
  | agenda action =>
    simp only [RuntimeState.exec, bind_eq_ok, pure_eq_ok] at h
    obtain ⟨_, _, rfl⟩ := h
    exact absurd rfl hkept
  | effect action =>
    simp only [RuntimeState.exec, bind_eq_ok, pure_eq_ok] at h
    obtain ⟨_, heffects, rfl⟩ := h
    exact absurd (EffectSide.approvals_of_exec heffects) hkept
  | commitSemanticDecision claim semantic =>
    simp only [RuntimeState.exec, bind_eq_ok, pure_eq_ok] at h
    obtain ⟨_, _, store, hstore, rfl⟩ := h
    obtain ⟨_, _, _, _, _, _, _, _, _, _, _, _, rfl⟩ :=
      RuntimeStore.commitSemanticDecision_eq_ok hooks hstore
    exact absurd rfl hkept
  | commitApprovalAndAttempt cmd =>
    simp only [RuntimeState.exec, bind_eq_ok, pure_eq_ok, Prod.exists,
      RuntimeStore.commitApprovalAndAttempt, Prod.mk.injEq] at h
    obtain ⟨_, _, ⟨_, _, effects, happroval, _, rfl⟩, rfl⟩ := h
    rcases EffectTables.commitApprovalAndAttempt_eq_ok happroval with ⟨_, _, rfl⟩ |
      ⟨proposal, b, decided, hauthorize, _, _, hdecided, hcase⟩
    · exact absurd rfl hkept
    · -- the decision that appeared is the one that was authorized
      have happrovals : effects.approvals = decided.approvals := by
        rcases hcase with ⟨_, rfl⟩ | ⟨_, henqueue⟩
        · rfl
        · obtain ⟨_, _, _, _, _, rfl⟩ := EffectTables.enqueueAttempt_eq_ok henqueue
          rfl
      obtain ⟨approvals, _, _, _, hinsert, _, rfl⟩ := EffectTables.insertDecision_eq_ok hdecided
      have hfind : effects.approvals.find? decision.approvalDecisionId = some decision := hsome
      rw [happrovals, Records.find?_insertRecord hinsert] at hfind
      split at hfind
      · exact ⟨cmd, proposal, b, rfl, Option.some.inj hfind, hauthorize⟩
      · exact absurd (hnone.symm.trans hfind) (by simp)
  | loadDispatchBundle claim mandateId =>
    simp only [RuntimeState.exec, bind_eq_ok, pure_eq_ok] at h
    obtain ⟨_, _, _, _, rfl⟩ := h
    exact absurd rfl hkept
  | environment rest =>
    obtain rfl := Except.ok.inj h
    exact absurd rfl hkept

/-- The decision recorded was found to be inside its mandate. -/
theorem withinMandate_of_recordsDecision {s t : RuntimeState ε} {a : RuntimeAction ε}
    (h : s.exec hooks a = .ok t) {decision : HumanApprovalDecision}
    (hrecords : RecordsDecision decision ⟨s, a, t⟩) : WithinMandate hooks decision ⟨s, a, t⟩ := by
  obtain ⟨cmd, proposal, _, rfl, rfl, hauthorize⟩ := approval_of_recordsDecision h hrecords
  obtain ⟨hproposal, hanswered, _, _, mandate, hmandate, hnamed, hboundary⟩ :=
    EffectTables.authorizeApproval_eq_ok hauthorize
  refine ⟨proposal, mandate, cmd.mandateId, ?_, hanswered, hmandate, hnamed, hboundary⟩
  rw [hanswered.proposalId]
  exact hproposal

end Runs

end DigitalColleagues
