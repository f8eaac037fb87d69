import DigitalColleagues.Runtime.EffectMoves

/-!
# Bounded execution of an approved effect

Each outbox row owns the attempts of one approval, numbered from one up to the
current attempt. The state of the row fixes the state of the current attempt;
every earlier attempt failed without having been executed. A run can start each
attempt once, so the channel is called at most as often as the proposal allows.
-/

namespace DigitalColleagues

open Keyed

namespace EffectTables

-- ════════════════════════════════════════════════════════════════════════
-- The attempts of a row
-- ════════════════════════════════════════════════════════════════════════

/-- The numbers of the attempts of an approval, in the order of their creation. -/
def attemptNumbers (s : EffectTables) (approvalDecisionId : StableId) : List ℕ :=
  s.attempts.domain.collect (fun a => decide (a.approvalDecisionId = approvalDecisionId))
    EffectAttempt.attemptNumber

/-- An attempt is recorded as failed without having been executed. -/
def FailedUnexecuted (s : EffectTables) (a : EffectAttempt) : Prop :=
  a.state = .failed ∧ ∃ result ∈ s.results.domain,
    result.effectAttemptId = a.effectAttemptId ∧
      (result.state = .notExecuted ∨ result.state = .retryableFailure)

/-- The row belongs to the one decision about its proposal, and its attempts are
    those of that decision. -/
structure TracksRow (s : EffectTables) (r : OutboxRow) : Prop where
  proposal : ∃ p, s.proposals.find? r.proposalId = some p ∧
    r.maximumAttempts = p.constraints.maximumAttempts ∧
    s.proposalApprovalLedger.find? (r.proposalId, p.revision) ≠ none
  approved : s.approvals.find? r.approvalDecisionId ≠ none
  numbered : s.attemptNumbers r.approvalDecisionId = List.range' 1 r.attemptNumber
  bounded : r.attemptNumber ≤ r.maximumAttempts
  current : ∃ a, s.attempts.find? r.effectAttemptId = some a ∧
    a.approvalDecisionId = r.approvalDecisionId ∧ a.attemptNumber = r.attemptNumber ∧
    a.state = r.state.attemptState
  earlier : ∀ a ∈ s.attempts.domain, a.approvalDecisionId = r.approvalDecisionId →
    a.attemptNumber < r.attemptNumber → s.FailedUnexecuted a

/-- Every row is tracked, every attempt has a row, and neither an approval nor a
    proposal has two. -/
structure Tracked (s : EffectTables) : Prop where
  row : ∀ r ∈ s.outbox, s.TracksRow r
  owned : ∀ a ∈ s.attempts.domain, ∃ r ∈ s.outbox,
    r.approvalDecisionId = a.approvalDecisionId ∧ r.proposalId = a.proposalId
  unique : ∀ r ∈ s.outbox, ∀ r' ∈ s.outbox,
    r.approvalDecisionId = r'.approvalDecisionId ∨ r.proposalId = r'.proposalId → r = r'

end EffectTables

/-- Rows for the same attempt of the same effect. -/
structure OutboxRow.SameAttempt (r r' : OutboxRow) : Prop where
  outboxId : r'.outboxId = r.outboxId
  proposalId : r'.proposalId = r.proposalId
  approvalDecisionId : r'.approvalDecisionId = r.approvalDecisionId
  maximumAttempts : r'.maximumAttempts = r.maximumAttempts
  effectAttemptId : r'.effectAttemptId = r.effectAttemptId
  attemptNumber : r'.attemptNumber = r.attemptNumber

/-- Revisions of the same attempt. -/
structure EffectAttempt.SameAttempt (a a' : EffectAttempt) : Prop where
  effectAttemptId : a'.effectAttemptId = a.effectAttemptId
  proposalId : a'.proposalId = a.proposalId
  approvalDecisionId : a'.approvalDecisionId = a.approvalDecisionId
  attemptNumber : a'.attemptNumber = a.attemptNumber

theorem EffectAttempt.SameAttempt.refl (a : EffectAttempt) : a.SameAttempt a := ⟨rfl, rfl, rfl, rfl⟩

namespace EffectTables

variable {s t : EffectTables}

theorem effectAttemptId_of_find? {id : StableId} {a : EffectAttempt}
    (h : s.attempts.find? id = some a) : a.effectAttemptId = id :=
  Records.key_of_find? h

/-- Two attempts of one tracked row with the same number are the same. -/
theorem TracksRow.eq_of_attemptNumber {r : OutboxRow} (h : s.TracksRow r) {a a' : EffectAttempt}
    (ha : a ∈ s.attempts.domain) (ha' : a' ∈ s.attempts.domain)
    (hr : a.approvalDecisionId = r.approvalDecisionId)
    (hr' : a'.approvalDecisionId = r.approvalDecisionId)
    (hnumber : a.attemptNumber = a'.attemptNumber) : a = a' := by
  have hnodup : (s.attemptNumbers r.approvalDecisionId).Nodup := by
    rw [h.numbered]
    exact List.nodup_range'
  exact Table.eq_of_collect_nodup hnodup ha ha' (decide_eq_true hr) (decide_eq_true hr') hnumber

theorem TracksRow.attemptNumber_le {r : OutboxRow} (h : s.TracksRow r) {a : EffectAttempt}
    (ha : a ∈ s.attempts.domain) (hr : a.approvalDecisionId = r.approvalDecisionId) :
    a.attemptNumber ≤ r.attemptNumber := by
  have hmem : a.attemptNumber ∈ s.attemptNumbers r.approvalDecisionId :=
    Table.mem_collect ha (decide_eq_true hr)
  rw [h.numbered, List.mem_range'_1] at hmem
  omega

/-- An attempt of a tracked row is the current one or failed unexecuted. -/
theorem TracksRow.current_or_failed {r : OutboxRow} (h : s.TracksRow r) {a : EffectAttempt}
    (ha : a ∈ s.attempts.domain) (hr : a.approvalDecisionId = r.approvalDecisionId) :
    (a.effectAttemptId = r.effectAttemptId ∧ a.state = r.state.attemptState) ∨
      s.FailedUnexecuted a := by
  rcases Nat.lt_or_eq_of_le (h.attemptNumber_le ha hr) with hlt | heq
  · exact .inr (h.earlier a ha hr hlt)
  · obtain ⟨c, hc, hcr, hcn, hcs⟩ := h.current
    obtain rfl := h.eq_of_attemptNumber ha (Table.mem_of_find? hc) hr hcr (heq.trans hcn.symm)
    exact .inl ⟨effectAttemptId_of_find? hc, hcs⟩

-- ════════════════════════════════════════════════════════════════════════
-- Preservation
-- ════════════════════════════════════════════════════════════════════════

/-- New proposals and decisions leave rows and attempts alone. -/
theorem Tracked.of_frame (h : s.Tracked) (hattempts : t.attempts = s.attempts)
    (hresults : t.results = s.results) (houtbox : t.outbox = s.outbox)
    (hproposals : ∀ id p, s.proposals.find? id = some p → t.proposals.find? id = some p)
    (happrovals : ∀ id, s.approvals.find? id ≠ none → t.approvals.find? id ≠ none)
    (hledger : ∀ k, s.proposalApprovalLedger.find? k ≠ none →
      t.proposalApprovalLedger.find? k ≠ none) : t.Tracked where
  row r hr := by
    rw [houtbox] at hr
    have hrow := h.row r hr
    obtain ⟨p, hp, hmax, hl⟩ := hrow.proposal
    refine ⟨⟨p, hproposals _ p hp, hmax, hledger _ hl⟩, happrovals _ hrow.approved, ?_,
      hrow.bounded, ?_, ?_⟩
    · rw [attemptNumbers, hattempts]
      exact hrow.numbered
    · rw [hattempts]
      exact hrow.current
    · rw [hattempts]
      intro a ha hd hlt
      obtain ⟨hfailed, hresult⟩ := hrow.earlier a ha hd hlt
      exact ⟨hfailed, by rw [hresults]; exact hresult⟩
  owned := by
    rw [hattempts, houtbox]
    exact h.owned
  unique := by
    rw [houtbox]
    exact h.unique

/-- A row and its current attempt move together; the other rows own none of
    what changed. -/
theorem Tracked.of_update (h : s.Tracked) (r' : OutboxRow) (a' : EffectAttempt) {r : OutboxRow}
    {a : EffectAttempt}
    (hr : s.outbox.find? r.outboxId = some r) (ha : s.attempts.find? r.effectAttemptId = some a)
    (hsame : r.SameAttempt r') (hattempt : a.SameAttempt a')
    (hstate : a'.state = r'.state.attemptState) (hproposals : t.proposals = s.proposals)
    (happrovals : t.approvals = s.approvals)
    (hledger : t.proposalApprovalLedger = s.proposalApprovalLedger)
    (hattempts : t.attempts.domain = s.attempts.domain.replace a')
    (hresults : ∀ x ∈ s.results.domain, x ∈ t.results.domain)
    (houtbox : t.outbox = s.outbox.replace r') : t.Tracked := by
  have hmem : r ∈ s.outbox := Table.mem_of_find? hr
  have hrow := h.row r hmem
  have ha' : s.attempts.domain.find? (key a') = some a := by
    show s.attempts.find? a'.effectAttemptId = some a
    rw [hattempt.effectAttemptId, effectAttemptId_of_find? ha, ha]
  have hr' : s.outbox.find? (key r') = some r := by
    show s.outbox.find? r'.outboxId = some r
    rw [hsame.outboxId, hr]
  have hnumber : a.approvalDecisionId = r.approvalDecisionId ∧
      a.attemptNumber = r.attemptNumber := by
    obtain ⟨c, hc, hcr, hcn, _⟩ := hrow.current
    obtain rfl := Option.some.inj (ha.symm.trans hc)
    exact ⟨hcr, hcn⟩
  have hnumbers : ∀ d, t.attemptNumbers d = s.attemptNumbers d := fun d => by
    rw [attemptNumbers, hattempts]
    exact Table.collect_replace ha' (by rw [hattempt.approvalDecisionId]) hattempt.attemptNumber
  have hfailed : ∀ x, s.FailedUnexecuted x → t.FailedUnexecuted x := by
    rintro x ⟨hx, result, hresult, hid⟩
    exact ⟨hx, result, hresults _ hresult, hid⟩
  have hrows : ∀ x ∈ t.outbox, x = r' ∨ (x ∈ s.outbox ∧ x.outboxId ≠ r.outboxId) := by
    intro x hx
    rw [houtbox] at hx
    rcases (Table.mem_replace hr').mp hx with rfl | ⟨hx, hne⟩
    · exact .inl rfl
    · exact .inr ⟨hx, fun he => hne (he.trans hsame.outboxId.symm)⟩
  refine ⟨fun x hx => ?_, fun x hx => ?_, fun x hx y hy hxy => ?_⟩
  · rcases hrows x hx with rfl | ⟨hx, hne⟩
    · -- the row that moved
      refine ⟨?_, ?_, ?_, ?_, ⟨a', ?_, ?_, ?_, hstate⟩, fun y hy hyd hlt => ?_⟩
      · rw [hsame.proposalId, hsame.maximumAttempts, hproposals, hledger]
        exact hrow.proposal
      · rw [hsame.approvalDecisionId, happrovals]
        exact hrow.approved
      · rw [hsame.approvalDecisionId, hsame.attemptNumber, hnumbers]
        exact hrow.numbered
      · rw [hsame.attemptNumber, hsame.maximumAttempts]
        exact hrow.bounded
      · rw [hsame.effectAttemptId, Records.find?, hattempts, ← effectAttemptId_of_find? ha,
          ← hattempt.effectAttemptId]
        exact Table.find?_replace_self ha'
      · rw [hattempt.approvalDecisionId, hsame.approvalDecisionId, hnumber.1]
      · rw [hattempt.attemptNumber, hsame.attemptNumber, hnumber.2]
      · rw [hattempts] at hy
        rw [hsame.approvalDecisionId] at hyd
        rw [hsame.attemptNumber] at hlt
        rcases (Table.mem_replace ha').mp hy with rfl | ⟨hy, _⟩
        · rw [hattempt.attemptNumber, hnumber.2] at hlt
          exact absurd hlt (Nat.lt_irrefl _)
        · exact hfailed y (hrow.earlier y hy hyd hlt)
    · -- another row: its attempts have another approval
      have hother := h.row x hx
      have hdistinct : x.approvalDecisionId ≠ r.approvalDecisionId := fun he =>
        hne (congrArg OutboxRow.outboxId (h.unique x hx r hmem (.inl he)))
      obtain ⟨c, hc, hcr, hcn, hcs⟩ := hother.current
      refine ⟨?_, ?_, ?_, hother.bounded, ⟨c, ?_, hcr, hcn, hcs⟩, fun y hy hyd hlt => ?_⟩
      · rw [hproposals, hledger]
        exact hother.proposal
      · rw [happrovals]
        exact hother.approved
      · rw [hnumbers]
        exact hother.numbered
      · rw [Records.find?, hattempts, Table.find?_replace_of_ne]
        · exact hc
        · intro he
          have : x.effectAttemptId = a'.effectAttemptId := he
          rw [hattempt.effectAttemptId, effectAttemptId_of_find? ha] at this
          rw [this, ha] at hc
          obtain rfl := Option.some.inj hc
          exact hdistinct (hcr.symm.trans hnumber.1)
      · rw [hattempts] at hy
        rcases (Table.mem_replace ha').mp hy with rfl | ⟨hy, _⟩
        · rw [hattempt.approvalDecisionId, hnumber.1] at hyd
          exact absurd hyd.symm hdistinct
        · exact hfailed y (hother.earlier y hy hyd hlt)
  · have hold : ∃ y ∈ s.attempts.domain, y.approvalDecisionId = x.approvalDecisionId ∧
        y.proposalId = x.proposalId := by
      rw [hattempts] at hx
      rcases (Table.mem_replace ha').mp hx with rfl | ⟨hx, _⟩
      · exact ⟨a, Table.mem_of_find? ha, hattempt.approvalDecisionId.symm,
          hattempt.proposalId.symm⟩
      · exact ⟨x, hx, rfl, rfl⟩
    obtain ⟨y, hy, hyd, hyp⟩ := hold
    obtain ⟨q, hq, hqd, hqp⟩ := h.owned y hy
    rw [houtbox]
    by_cases he : q = r
    · subst he
      exact ⟨r', (Table.mem_replace hr').mpr (.inl rfl), by
        rw [hsame.approvalDecisionId, hqd, hyd], by rw [hsame.proposalId, hqp, hyp]⟩
    · refine ⟨q, (Table.mem_replace hr').mpr (.inr ⟨hq, fun hk => he ?_⟩), hqd.trans hyd,
        hqp.trans hyp⟩
      exact Table.eq_of_key_eq hq hmem (hk.trans hsame.outboxId)
  · have hback : ∀ z ∈ t.outbox, ∃ w ∈ s.outbox, w.outboxId = z.outboxId ∧
        w.approvalDecisionId = z.approvalDecisionId ∧ w.proposalId = z.proposalId := by
      intro z hz
      rcases hrows z hz with rfl | ⟨hz, _⟩
      · exact ⟨r, hmem, hsame.outboxId.symm, hsame.approvalDecisionId.symm,
          hsame.proposalId.symm⟩
      · exact ⟨z, hz, rfl, rfl, rfl⟩
    obtain ⟨x₀, hx₀, hxo, hxd, hxp⟩ := hback x hx
    obtain ⟨y₀, hy₀, hyo, hyd, hyp⟩ := hback y hy
    have heq : x₀ = y₀ := h.unique x₀ hx₀ y₀ hy₀ (by rwa [hxd, hyd, hxp, hyp])
    exact Table.eq_of_key_eq hx hy (by rw [← show x₀.outboxId = key x from hxo, heq]; exact hyo)

theorem attemptNumbers_insertRecord {next : EffectAttempt}
    (h : s.attempts.insertRecord next = .ok t.attempts) (d : StableId) :
    t.attemptNumbers d =
      s.attemptNumbers d ++ if next.approvalDecisionId = d then [next.attemptNumber] else [] := by
  rw [attemptNumbers, Table.collect_insert (Records.insert?_of_insertRecord h)]
  simp only [decide_eq_true_eq, attemptNumbers]

/-- A failed row takes up its next attempt. -/
theorem Tracked.of_retry (h : s.Tracked) (r r' : OutboxRow) (next : EffectAttempt)
    {a : EffectAttempt}
    (hr : s.outbox.find? r.outboxId = some r) (ha : s.attempts.find? r.effectAttemptId = some a)
    (hfailed : s.FailedUnexecuted a) (hlimit : r.attemptNumber < r.maximumAttempts)
    (hrow : r'.outboxId = r.outboxId ∧ r'.proposalId = r.proposalId ∧
      r'.approvalDecisionId = r.approvalDecisionId ∧ r'.maximumAttempts = r.maximumAttempts ∧
      r'.effectAttemptId = next.effectAttemptId ∧ r'.attemptNumber = r.attemptNumber + 1)
    (hnext : next.proposalId = a.proposalId ∧ next.approvalDecisionId = a.approvalDecisionId ∧
      next.attemptNumber = a.attemptNumber + 1)
    (hstate : next.state = r'.state.attemptState) (hproposals : t.proposals = s.proposals)
    (happrovals : t.approvals = s.approvals)
    (hledger : t.proposalApprovalLedger = s.proposalApprovalLedger)
    (hattempts : s.attempts.insertRecord next = .ok t.attempts)
    (hresults : t.results = s.results) (houtbox : t.outbox = s.outbox.replace r') :
    t.Tracked := by
  obtain ⟨hid, hproposal, happroval, hmax, hcurrent, hsucc⟩ := hrow
  have hmem : r ∈ s.outbox := Table.mem_of_find? hr
  have htracks := h.row r hmem
  have hr' : s.outbox.find? (key r') = some r := by
    show s.outbox.find? r'.outboxId = some r
    rw [hid, hr]
  have hinsert := Records.insert?_of_insertRecord hattempts
  have hnumber : a.approvalDecisionId = r.approvalDecisionId ∧
      a.attemptNumber = r.attemptNumber := by
    obtain ⟨c, hc, hcr, hcn, _⟩ := htracks.current
    obtain rfl := Option.some.inj (ha.symm.trans hc)
    exact ⟨hcr, hcn⟩
  have hnumbers := attemptNumbers_insertRecord hattempts
  have hfailed' : ∀ x, s.FailedUnexecuted x → t.FailedUnexecuted x := by
    intro x hx
    rwa [FailedUnexecuted, hresults]
  refine ⟨fun x hx => ?_, fun x hx => ?_, fun x hx y hy hxy => ?_⟩
  · rw [houtbox] at hx
    rcases (Table.mem_replace hr').mp hx with rfl | ⟨hx, hne⟩
    · refine ⟨?_, ?_, ?_, ?_, ⟨next, ?_, ?_, ?_, hstate⟩, fun y hy hyd hlt => ?_⟩
      · rw [hproposal, hmax, hproposals, hledger]
        exact htracks.proposal
      · rw [happroval, happrovals]
        exact htracks.approved
      · rw [hnumbers, happroval, if_pos (hnext.2.1.trans hnumber.1), htracks.numbered, hnext.2.2,
          hnumber.2, hsucc, List.range'_1_concat, Nat.add_comm 1]
      · omega
      · rw [hcurrent]
        exact Records.find?_insertRecord_self hattempts
      · rw [hnext.2.1, happroval, hnumber.1]
      · rw [hnext.2.2, hsucc, hnumber.2]
      · rw [happroval] at hyd
        rw [hsucc] at hlt
        rcases (Table.mem_insert hinsert).mp hy with hy | rfl
        · rcases Nat.lt_or_eq_of_le (htracks.attemptNumber_le hy hyd) with hlt' | heq
          · exact hfailed' y (htracks.earlier y hy hyd hlt')
          · obtain rfl := htracks.eq_of_attemptNumber hy (Table.mem_of_find? ha) hyd hnumber.1
              (heq.trans hnumber.2.symm)
            exact hfailed' y hfailed
        · rw [hnext.2.2, hnumber.2] at hlt
          exact absurd hlt (Nat.lt_irrefl _)
    · have hother := h.row x hx
      have hdistinct : x.approvalDecisionId ≠ r.approvalDecisionId := fun he =>
        hne ((congrArg OutboxRow.outboxId (h.unique x hx r hmem (.inl he))).trans hid.symm)
      obtain ⟨c, hc, hcr, hcn, hcs⟩ := hother.current
      refine ⟨?_, ?_, ?_, hother.bounded,
        ⟨c, Records.find?_insertRecord_of_some hattempts hc, hcr, hcn, hcs⟩,
        fun y hy hyd hlt => ?_⟩
      · rw [hproposals, hledger]
        exact hother.proposal
      · rw [happrovals]
        exact hother.approved
      · rw [hnumbers, if_neg fun he => hdistinct (he.symm.trans (hnext.2.1.trans hnumber.1)),
          List.append_nil]
        exact hother.numbered
      · rcases (Table.mem_insert hinsert).mp hy with hy | rfl
        · exact hfailed' y (hother.earlier y hy hyd hlt)
        · rw [hnext.2.1, hnumber.1] at hyd
          exact absurd hyd.symm hdistinct
  · have hold : ∃ y ∈ s.attempts.domain, y.approvalDecisionId = x.approvalDecisionId ∧
        y.proposalId = x.proposalId := by
      rcases (Table.mem_insert hinsert).mp hx with hx | rfl
      · exact ⟨x, hx, rfl, rfl⟩
      · exact ⟨a, Table.mem_of_find? ha, hnext.2.1.symm, hnext.1.symm⟩
    obtain ⟨y, hy, hyd, hyp⟩ := hold
    obtain ⟨q, hq, hqd, hqp⟩ := h.owned y hy
    rw [houtbox]
    by_cases he : q = r
    · subst he
      exact ⟨r', (Table.mem_replace hr').mpr (.inl rfl), by rw [happroval, hqd, hyd],
        by rw [hproposal, hqp, hyp]⟩
    · refine ⟨q, (Table.mem_replace hr').mpr (.inr ⟨hq, fun hk => he ?_⟩), hqd.trans hyd,
        hqp.trans hyp⟩
      exact Table.eq_of_key_eq hq hmem (hk.trans hid)
  · have hback : ∀ z ∈ t.outbox, ∃ w ∈ s.outbox, w.outboxId = z.outboxId ∧
        w.approvalDecisionId = z.approvalDecisionId ∧ w.proposalId = z.proposalId := by
      intro z hz
      rw [houtbox] at hz
      rcases (Table.mem_replace hr').mp hz with rfl | ⟨hz, _⟩
      · exact ⟨r, hmem, hid.symm, happroval.symm, hproposal.symm⟩
      · exact ⟨z, hz, rfl, rfl, rfl⟩
    obtain ⟨x₀, hx₀, hxo, hxd, hxp⟩ := hback x hx
    obtain ⟨y₀, hy₀, hyo, hyd, hyp⟩ := hback y hy
    have heq : x₀ = y₀ := h.unique x₀ hx₀ y₀ hy₀ (by rwa [hxd, hyd, hxp, hyp])
    exact Table.eq_of_key_eq hx hy (by rw [← show x₀.outboxId = key x from hxo, heq]; exact hyo)

/-- The first attempt of a newly approved proposal. -/
theorem Tracked.of_approve (h : s.Tracked) {proposal : EffectProposal} {cmd : ApprovalCommand}
    (hfresh : ∀ r ∈ s.outbox, r.approvalDecisionId ≠ cmd.decision.approvalDecisionId ∧
      r.proposalId ≠ proposal.proposalId)
    (hproposal : s.proposals.find? proposal.proposalId = some proposal)
    (happroved : s.approvals.find? cmd.decision.approvalDecisionId ≠ none)
    (hledger : s.proposalApprovalLedger.find? (proposal.proposalId, proposal.revision) ≠ none)
    (henqueue : s.enqueueAttempt proposal cmd = .ok t) : t.Tracked := by
  obtain ⟨attempts, outbox, effectLedger, hattempts, houtbox, rfl⟩ := enqueueAttempt_eq_ok henqueue
  have hinsert := Records.insert?_of_insertRecord hattempts
  have hnumbers := attemptNumbers_insertRecord (t := ⟨s.proposals, s.approvals, attempts, s.results,
    s.approvalLedger, s.proposalApprovalLedger, effectLedger, outbox⟩) hattempts
  have hid : (firstAttempt proposal cmd).approvalDecisionId = cmd.decision.approvalDecisionId := rfl
  rw [hid] at hnumbers
  have hnone : s.attemptNumbers cmd.decision.approvalDecisionId = [] := by
    rw [attemptNumbers, Table.collect, List.map_eq_nil_iff, List.filter_eq_nil_iff]
    intro a ha hd
    obtain ⟨r, hr, hra, _⟩ := h.owned a ha
    exact (hfresh r hr).1 (hra.trans (of_decide_eq_true hd))
  refine ⟨fun x hx => ?_, fun x hx => ?_, fun x hx y hy hxy => ?_⟩
  · rcases (Table.mem_insert houtbox).mp hx with hx | rfl
    · have hrow := h.row x hx
      obtain ⟨c, hc, hcs⟩ := hrow.current
      refine ⟨hrow.proposal, hrow.approved, ?_, hrow.bounded,
        ⟨c, Records.find?_insertRecord_of_some hattempts hc, hcs⟩, fun y hy hyd hlt => ?_⟩
      · rw [hnumbers, if_neg (Ne.symm (hfresh x hx).1), List.append_nil]
        exact hrow.numbered
      · rcases (Table.mem_insert hinsert).mp hy with hy | rfl
        · exact hrow.earlier y hy hyd hlt
        · exact absurd hyd.symm (hfresh x hx).1
    · refine ⟨⟨proposal, hproposal, rfl, hledger⟩, happroved, ?_,
        proposal.constraints.maximumAttempts_pos,
        ⟨_, Records.find?_insertRecord_self hattempts, rfl, rfl, rfl⟩, fun y hy hyd hlt => ?_⟩
      · rw [show (newOutboxRow proposal cmd).approvalDecisionId =
          cmd.decision.approvalDecisionId from rfl, hnumbers, if_pos rfl, hnone]
        rfl
      · rcases (Table.mem_insert hinsert).mp hy with hy | rfl
        · obtain ⟨r, hr, hra, _⟩ := h.owned y hy
          exact absurd (hra.trans hyd) (hfresh r hr).1
        · exact absurd hlt (Nat.lt_irrefl _)
  · rcases (Table.mem_insert hinsert).mp hx with hx | rfl
    · obtain ⟨r, hr, hrx⟩ := h.owned x hx
      exact ⟨r, (Table.mem_insert houtbox).mpr (.inl hr), hrx⟩
    · exact ⟨_, (Table.mem_insert houtbox).mpr (.inr rfl), rfl, rfl⟩
  · rcases (Table.mem_insert houtbox).mp hx with hx | rfl <;>
      rcases (Table.mem_insert houtbox).mp hy with hy | rfl
    · exact h.unique x hx y hy hxy
    · exact absurd hxy (not_or.mpr (hfresh x hx))
    · exact absurd hxy (not_or.mpr ⟨Ne.symm (hfresh y hy).1, Ne.symm (hfresh y hy).2⟩)
    · rfl

theorem tracked_empty : EffectTables.empty.Tracked :=
  ⟨by simp [EffectTables.empty], fun a ha => absurd ha (Table.not_mem_empty a),
    by simp [EffectTables.empty]⟩

/-- A recorded decision names a proposal that had none before. -/
theorem insertDecision_tracked (h : s.Tracked) {proposal : EffectProposal}
    {decision : HumanApprovalDecision} (hinsert : s.insertDecision proposal decision = .ok t) :
    t.Tracked ∧ t.proposals = s.proposals ∧ t.outbox = s.outbox ∧
      (s.proposals.find? proposal.proposalId = some proposal → ∀ r ∈ s.outbox,
        r.approvalDecisionId ≠ decision.approvalDecisionId ∧
          r.proposalId ≠ proposal.proposalId) ∧
      t.approvals.find? decision.approvalDecisionId ≠ none ∧
      t.proposalApprovalLedger.find? (proposal.proposalId, proposal.revision) ≠ none := by
  obtain ⟨approvals, approvalLedger, ledger, hfresh, happrovals, hledger, rfl⟩ :=
    insertDecision_eq_ok hinsert
  refine ⟨h.of_frame rfl rfl rfl (fun _ _ hp => hp) (fun id hid => ?_) (fun k hk => ?_), rfl, rfl,
    fun hp r hr => ⟨fun he => ?_, fun he => ?_⟩, ?_, ?_⟩
  · obtain ⟨d, hd⟩ := Option.ne_none_iff_exists'.mp hid
    exact Option.ne_none_iff_exists'.mpr ⟨d, Records.find?_insertRecord_of_some happrovals hd⟩
  · obtain ⟨d, hd⟩ := Option.ne_none_iff_exists'.mp hk
    exact Option.ne_none_iff_exists'.mpr ⟨d, Table.find?_insert_of_some hledger hd⟩
  · exact (h.row r hr).approved (he ▸ Records.find?_of_insertRecord happrovals)
  · obtain ⟨p, hp', _, hl⟩ := (h.row r hr).proposal
    rw [he, hp] at hp'
    obtain rfl := Option.some.inj hp'
    exact hl (he ▸ hfresh)
  · have hself : approvals.find? decision.approvalDecisionId = some decision :=
      Records.find?_insertRecord_self happrovals
    exact Option.ne_none_iff_exists'.mpr ⟨decision, hself⟩
  · exact Option.ne_none_iff_exists'.mpr ⟨_, (Table.find?_insert hledger _).trans (if_pos rfl)⟩

/-- Every move keeps rows and attempts together. -/
theorem tracked_move {o : Option LastOutcome} (h : s.Tracked) (hm : Move s o t) : t.Tracked := by
  cases hm with
  | idle => exact h
  | propose hinsert =>
    exact h.of_frame rfl rfl rfl (fun _ _ hp => Records.find?_insertRecord_of_some hinsert hp)
      (fun _ hid => hid) (fun _ hk => hk)
  | decide hinsert => exact (insertDecision_tracked h hinsert).1
  | @approve proposal cmd decided _ hproposal hinsert henqueue =>
    obtain ⟨hdecided, hproposals, houtbox, hfresh, happroved, hledger⟩ :=
      insertDecision_tracked h hinsert
    exact hdecided.of_approve (houtbox ▸ hfresh hproposal) (hproposals ▸ hproposal) happroved
      hledger henqueue
  | @claim row target owner leaseUntil hrow hstate =>
    obtain ⟨a, ha, _, _, has⟩ := (h.row row (Table.mem_of_find? hrow)).current
    exact h.of_update (row.claim target owner leaseUntil) a hrow ha
      ⟨rfl, rfl, rfl, rfl, rfl, rfl⟩ (.refl a) (has.trans hstate.symm) rfl rfl rfl
      (Table.replace_self (Table.mem_of_find? ha)).symm (fun _ hx => hx) rfl
  | @start row attempt attempts occurredAt hrow hattempt _ hupdate =>
    exact h.of_update row.startDispatch (startAttempt attempt occurredAt) hrow
      hattempt ⟨rfl, rfl, rfl, rfl, rfl, rfl⟩ ⟨rfl, rfl, rfl, rfl⟩ rfl rfl rfl rfl
      (Records.updateRecord_eq_ok hupdate).2.2 (fun _ hx => hx) rfl
  | @unknown row nextAttemptAt _ outcome hrow hstate =>
    obtain ⟨a, ha, _, _, has⟩ := (h.row row (Table.mem_of_find? hrow)).current
    rw [hstate] at has
    exact h.of_update (row.keepAmbiguous nextAttemptAt outcome) a hrow ha
      ⟨rfl, rfl, rfl, rfl, rfl, rfl⟩ (.refl a) has rfl rfl rfl
      (Table.replace_self (Table.mem_of_find? ha)).symm (fun _ hx => hx) rfl
  | @settle row attempt state outboxState actor occurredAt result attempts results o' actorId hrow
      hattempt _ _ hstate hupdate hresult =>
    have hnumber := (h.row row (Table.mem_of_find? hrow)).current
    obtain ⟨c, hc, _, hcn, _⟩ := hnumber
    obtain rfl := Option.some.inj (hattempt.symm.trans hc)
    have hid := effectAttemptId_of_find? hattempt
    exact h.of_update
      { row.settle outboxState attempt occurredAt o' with actorPrincipalId := actorId }
      (settleAttempt attempt state actor occurredAt) hrow hattempt ⟨rfl, rfl, rfl, rfl, hid, hcn⟩ ⟨rfl, rfl, rfl, rfl⟩ hstate.symm rfl rfl rfl
      (Records.updateRecord_eq_ok hupdate).2.2
      (fun _ hx => (Table.mem_insert (Records.insert?_of_insertRecord hresult)).mpr (.inl hx)) rfl
  | @retry row attempt nextAttemptId actor occurredAt result settled attempts results o' actorId
      hrow hattempt _ _ hlimit hupdate hresultId hresultState hresult hinsert =>
    obtain ⟨c, hc, hcr, hcn, _⟩ := (h.row row (Table.mem_of_find? hrow)).current
    obtain rfl := Option.some.inj (hattempt.symm.trans hc)
    have hid := effectAttemptId_of_find? hattempt
    have hresults := Records.insert?_of_insertRecord hresult
    -- first the attempt fails, then its row takes up the next one
    have hsettled : Tracked { s with
        attempts := settled
        results := results
        outbox := s.outbox.replace (row.settle .terminalFailed attempt occurredAt o') } :=
      h.of_update (row.settle .terminalFailed attempt occurredAt o')
        (settleAttempt attempt .failed actor occurredAt) hrow hattempt
        ⟨rfl, rfl, rfl, rfl, hid, hcn⟩ ⟨rfl, rfl, rfl, rfl⟩ rfl rfl rfl rfl
        (Records.updateRecord_eq_ok hupdate).2.2
        (fun _ hx => (Table.mem_insert hresults).mpr (.inl hx)) rfl
    have hfind : (s.outbox.replace (row.settle .terminalFailed attempt occurredAt o')).find?
        row.outboxId = some (row.settle .terminalFailed attempt occurredAt o') :=
      Table.find?_replace_self (r := row.settle .terminalFailed attempt occurredAt o') hrow
    have hfailed : settled.find? attempt.effectAttemptId =
        some (settleAttempt attempt .failed actor occurredAt) :=
      Records.find?_updateRecord_self hupdate
    refine hsettled.of_retry (row.settle .terminalFailed attempt occurredAt o')
      { row.settle .retry (retryAttempt attempt nextAttemptId actor occurredAt) occurredAt o'
        with actorPrincipalId := actorId }
      (retryAttempt attempt nextAttemptId actor occurredAt) hfind hfailed
      ⟨rfl, result, (Table.mem_insert hresults).mpr (.inr rfl), hresultId, hresultState⟩ hlimit
      ⟨rfl, rfl, rfl, rfl, rfl, rfl⟩ ⟨rfl, rfl, rfl⟩ rfl rfl rfl rfl hinsert rfl ?_
    exact (Table.replace_replace s.outbox (r := row.settle .terminalFailed attempt occurredAt o')
      (x := { row.settle .retry (retryAttempt attempt nextAttemptId actor occurredAt) occurredAt o'
        with actorPrincipalId := actorId }) rfl).symm

-- ════════════════════════════════════════════════════════════════════════
-- The life of an attempt
-- ════════════════════════════════════════════════════════════════════════

/-- An attempt stays as it is, is started once, or is settled after its start. -/
def Advances (a a' : EffectAttempt) : Prop :=
  a' = a ∨ (a.state = .planned ∧ a'.state = .started) ∨
    ((a.state = .started ∨ a.state = .ambiguous) ∧
      (a'.state = .succeeded ∨ a'.state = .failed ∨ a'.state = .ambiguous))

theorem attempt_move {o : Option LastOutcome} (hm : Move s o t) {id : StableId}
    {a : EffectAttempt} (ha : s.attempts.find? id = some a) :
    ∃ a', t.attempts.find? id = some a' ∧ a.SameAttempt a' ∧ Advances a a' := by
  have hkey : ∀ {x : EffectAttempt}, a.SameAttempt x → key x = id := fun hx =>
    hx.effectAttemptId.trans (effectAttemptId_of_find? ha)
  have hsame : ∃ a', s.attempts.find? id = some a' ∧ a.SameAttempt a' ∧ Advances a a' :=
    ⟨a, ha, .refl a, .inl rfl⟩
  -- an update of the attempt of some row, which may be this one
  have hupdated : ∀ {attempt a' : EffectAttempt} {row : OutboxRow} {attempts : Records EffectAttempt}
      {n : ℕ}, s.attempts.find? row.effectAttemptId = some attempt →
      s.attempts.updateRecord a' n = .ok attempts → attempt.SameAttempt a' →
      Advances attempt a' →
      ∃ a', attempts.find? id = some a' ∧ a.SameAttempt a' ∧ Advances a a' := by
    intro attempt a' row attempts n hattempt hupdate hsame' hadvances
    rw [Records.find?_updateRecord hupdate]
    split
    · rename_i hid
      have hid' : id = row.effectAttemptId := by
        rw [hid, ← effectAttemptId_of_find? hattempt]
        exact hsame'.effectAttemptId
      rw [hid', hattempt] at ha
      obtain rfl := Option.some.inj ha
      exact ⟨a', rfl, hsame', hadvances⟩
    · exact hsame
  cases hm with
  | idle => exact hsame
  | propose _ => exact hsame
  | decide hinsert =>
    obtain ⟨_, _, _, _, _, _, rfl⟩ := insertDecision_eq_ok hinsert
    exact hsame
  | approve _ hinsert henqueue =>
    obtain ⟨_, _, _, _, _, _, rfl⟩ := insertDecision_eq_ok hinsert
    obtain ⟨_, _, _, hattempts, _, rfl⟩ := enqueueAttempt_eq_ok henqueue
    exact ⟨a, Records.find?_insertRecord_of_some hattempts ha, .refl a, .inl rfl⟩
  | claim _ _ => exact hsame
  | start _ hattempt hplanned hupdate =>
    exact hupdated hattempt hupdate ⟨rfl, rfl, rfl, rfl⟩ (.inr (.inl ⟨hplanned, rfl⟩))
  | unknown _ _ => exact hsame
  | settle _ _ hattempt hstarted hstate _ hupdate _ =>
    exact hupdated hattempt hupdate ⟨rfl, rfl, rfl, rfl⟩ (.inr (.inr ⟨hstarted, hstate⟩))
  | retry _ _ hattempt hstarted _ _ hupdate _ _ _ hinsert =>
    obtain ⟨a', ha', hsame', hadvances⟩ := hupdated hattempt hupdate ⟨rfl, rfl, rfl, rfl⟩
      (.inr (.inr ⟨hstarted, .inr (.inl rfl)⟩))
    exact ⟨a', Records.find?_insertRecord_of_some hinsert ha', hsame', hadvances⟩

/-- A new attempt is the first of its approval, or follows one that this very
    step recorded as not executed. -/
theorem created_move {o : Option LastOutcome} (hm : Move s o t) {id : StableId}
    {a : EffectAttempt} (hnone : s.attempts.find? id = none)
    (ha : t.attempts.find? id = some a) :
    a.state = .planned ∧ (a.attemptNumber = 1 ∨ ∃ outcome, o = some outcome ∧
      outcome.notExecuted = true ∧ ∃ previous,
        t.attempts.find? previous.effectAttemptId = some previous ∧
        previous.approvalDecisionId = a.approvalDecisionId ∧
        a.attemptNumber = previous.attemptNumber + 1 ∧ previous.state = .failed) := by
  have hold : ∀ {x : EffectAttempt}, s.attempts.find? id ≠ some x := fun he => by
    rw [hnone] at he
    exact absurd he (by simp)
  -- an update of an attempt that was there creates none
  have hupdated : ∀ {attempt a' : EffectAttempt} {row : OutboxRow} {attempts : Records EffectAttempt}
      {n : ℕ}, s.attempts.find? row.effectAttemptId = some attempt →
      s.attempts.updateRecord a' n = .ok attempts →
      a'.effectAttemptId = attempt.effectAttemptId → attempts.find? id = none := by
    intro attempt a' row attempts n hattempt hupdate hid
    rw [Records.find?_updateRecord hupdate]
    split
    · rename_i he
      have he' : id = row.effectAttemptId := by
        rw [he, ← effectAttemptId_of_find? hattempt]
        exact hid
      rw [he', hattempt] at hnone
      exact absurd hnone (by simp)
    · exact hnone
  cases hm with
  | idle => exact absurd ha hold
  | propose _ => exact absurd ha hold
  | decide hinsert =>
    obtain ⟨_, _, _, _, _, _, rfl⟩ := insertDecision_eq_ok hinsert
    exact absurd ha hold
  | approve _ hinsert henqueue =>
    obtain ⟨_, _, _, _, _, _, rfl⟩ := insertDecision_eq_ok hinsert
    obtain ⟨_, _, _, hattempts, _, rfl⟩ := enqueueAttempt_eq_ok henqueue
    rw [Records.find?_insertRecord hattempts] at ha
    split at ha
    · obtain rfl := Option.some.inj ha
      exact ⟨rfl, .inl rfl⟩
    · exact absurd ha hold
  | claim _ _ => exact absurd ha hold
  | start _ hattempt _ hupdate =>
    exact absurd ((hupdated hattempt hupdate rfl).symm.trans ha) (by simp)
  | unknown _ _ => exact absurd ha hold
  | settle _ _ hattempt _ _ _ hupdate _ =>
    exact absurd ((hupdated hattempt hupdate rfl).symm.trans ha) (by simp)
  | @retry row attempt nextAttemptId actor occurredAt result settled attempts results outcome _
      hrow hattempt _ houtcome _ hupdate _ _ _ hinsert =>
    have ha' := ha
    rw [Records.find?_insertRecord hinsert] at ha'
    split at ha'
    · obtain rfl := Option.some.inj ha'
      have hfailed : settled.find? attempt.effectAttemptId =
          some (settleAttempt attempt .failed actor occurredAt) :=
        Records.find?_updateRecord_self hupdate
      exact ⟨rfl, .inr ⟨outcome, rfl, houtcome, settleAttempt attempt .failed actor occurredAt,
        Records.find?_insertRecord_of_some hinsert hfailed, rfl, rfl, rfl⟩⟩
    · exact absurd ((hupdated hattempt hupdate rfl).symm.trans ha') (by simp)

/-- Some attempt of the proposal is recorded as succeeded. -/
def Succeeded (s : EffectTables) (proposalId : StableId) : Prop :=
  ∃ id a, s.attempts.find? id = some a ∧ a.proposalId = proposalId ∧ a.state = .succeeded

theorem succeeded_move {o : Option LastOutcome} (hm : Move s o t) {proposalId : StableId}
    (h : s.Succeeded proposalId) : t.Succeeded proposalId := by
  obtain ⟨id, a, ha, hp, hstate⟩ := h
  obtain ⟨a', ha', hsame, hadvances⟩ := attempt_move hm ha
  refine ⟨id, a', ha', hsame.proposalId.trans hp, ?_⟩
  rcases hadvances with rfl | ⟨hplanned, _⟩ | ⟨hstarted, _⟩
  · exact hstate
  · rw [hstate] at hplanned
    exact absurd hplanned (by simp)
  · rw [hstate] at hstarted
    exact absurd hstarted (by simp)

/-- A proposal with a succeeded attempt has none that could be started. -/
theorem Tracked.not_planned_of_succeeded (h : s.Tracked) {proposalId : StableId}
    (hsucceeded : s.Succeeded proposalId) {id : StableId} {a : EffectAttempt}
    (ha : s.attempts.find? id = some a) (hp : a.proposalId = proposalId) :
    a.state ≠ .planned := by
  obtain ⟨id', b, hb, hbp, hbs⟩ := hsucceeded
  have hamem : a ∈ s.attempts.domain := Table.mem_of_find? ha
  have hbmem : b ∈ s.attempts.domain := Table.mem_of_find? hb
  obtain ⟨r, hr, hra, hrp⟩ := h.owned a hamem
  obtain ⟨r', hr', hrb, hrp'⟩ := h.owned b hbmem
  obtain rfl : r = r' := h.unique r hr r' hr' (.inr (by rw [hrp, hrp', hp, hbp]))
  have hrow := h.row r hr
  rcases hrow.current_or_failed hbmem hrb.symm with ⟨_, hcurrent⟩ | ⟨hfailed, _⟩
  · rcases hrow.current_or_failed hamem hra.symm with ⟨_, hstate⟩ | ⟨hfailed, _⟩
    · rw [hstate, ← hcurrent, hbs]
      simp
    · rw [hfailed]
      simp
  · rw [hbs] at hfailed
    exact absurd hfailed (by simp)

/-- The number of attempts of a proposal that have been started. -/
def startedAttempts (s : EffectTables) (proposalId : StableId) : ℕ :=
  s.attempts.domain.sum fun a => if a.proposalId = proposalId ∧ a.state ≠ .planned then 1 else 0

/-- The attempts of a proposal are those of its one row. -/
theorem Tracked.startedAttempts_le (h : s.Tracked) {p : EffectProposal}
    (hp : s.proposals.find? p.proposalId = some p) :
    s.startedAttempts p.proposalId ≤ p.constraints.maximumAttempts := by
  by_cases hany : ∃ a ∈ s.attempts.domain, a.proposalId = p.proposalId
  · obtain ⟨a, ha, hap⟩ := hany
    obtain ⟨r, hr, _, hrp⟩ := h.owned a ha
    have hrow := h.row r hr
    obtain ⟨p', hp', hmax, _⟩ := hrow.proposal
    rw [hrp, hap, hp] at hp'
    obtain rfl := Option.some.inj hp'
    calc s.startedAttempts p.proposalId
        ≤ s.attempts.domain.sum fun a =>
            if decide (a.approvalDecisionId = r.approvalDecisionId) then 1 else 0 := by
          refine Table.sum_le_sum fun x hx => ?_
          split
          · rename_i hxp
            obtain ⟨q, hq, hqd, hqp⟩ := h.owned x hx
            obtain rfl : q = r := h.unique q hq r hr (.inr (by rw [hqp, hrp, hxp.1, hap]))
            simp [hqd]
          · exact Nat.zero_le _
      _ = (s.attemptNumbers r.approvalDecisionId).length := Table.sum_indicator ..
      _ = r.attemptNumber := by rw [hrow.numbered, List.length_range']
      _ ≤ p.constraints.maximumAttempts := hmax ▸ hrow.bounded
  · have hzero : s.startedAttempts p.proposalId = 0 := by
      rw [startedAttempts, Table.sum_congr (g := fun _ => 0)]
      · simp [Table.sum]
      · intro a ha
        exact if_neg fun hap => hany ⟨a, ha, hap.1⟩
    omega

theorem Advances.started {a a' : EffectAttempt} (h : Advances a a') (ha : a.state ≠ .planned) :
    a'.state ≠ .planned := by
  rcases h with rfl | ⟨hplanned, _⟩ | ⟨_, hstate⟩
  · exact ha
  · exact absurd hplanned ha
  · rcases hstate with hs | hs | hs <;> rw [hs] <;> simp

theorem startedAttempts_update (proposalId : StableId) {attempt a' : EffectAttempt}
    {attempts : Records EffectAttempt} {id : StableId} {n : ℕ} (hattempt : s.attempts.find? id = some attempt)
    (hupdate : s.attempts.updateRecord a' n = .ok attempts) (hsame : attempt.SameAttempt a')
    (hadvances : Advances attempt a') :
    s.startedAttempts proposalId ≤ attempts.domain.sum fun a =>
      if a.proposalId = proposalId ∧ a.state ≠ .planned then 1 else 0 := by
  have hfind : s.attempts.domain.find? (key a') = some attempt := by
    show s.attempts.find? a'.effectAttemptId = some attempt
    rw [hsame.effectAttemptId, effectAttemptId_of_find? hattempt, hattempt]
  have hsum := Table.sum_replace hfind fun a : EffectAttempt =>
    if a.proposalId = proposalId ∧ a.state ≠ .planned then 1 else 0
  rw [(Records.updateRecord_eq_ok hupdate).2.2]
  have hle : (if attempt.proposalId = proposalId ∧ attempt.state ≠ .planned then 1 else 0) ≤
      if a'.proposalId = proposalId ∧ a'.state ≠ .planned then 1 else 0 := by
    split
    · rename_i h
      rw [if_pos ⟨hsame.proposalId.trans h.1, hadvances.started h.2⟩]
    · exact Nat.zero_le _
  unfold startedAttempts
  omega

/-- Attempts are never removed and never planned again. -/
theorem startedAttempts_move {o : Option LastOutcome} (hm : Move s o t) (proposalId : StableId) :
    s.startedAttempts proposalId ≤ t.startedAttempts proposalId := by
  cases hm with
  | idle => exact le_rfl
  | propose _ => exact le_rfl
  | decide hinsert =>
    obtain ⟨_, _, _, _, _, _, rfl⟩ := insertDecision_eq_ok hinsert
    exact le_rfl
  | approve _ hinsert henqueue =>
    obtain ⟨_, _, _, _, _, _, rfl⟩ := insertDecision_eq_ok hinsert
    obtain ⟨_, _, _, hattempts, _, rfl⟩ := enqueueAttempt_eq_ok henqueue
    unfold startedAttempts
    rw [Table.sum_insert (Records.insert?_of_insertRecord hattempts)]
    exact Nat.le_add_right _ _
  | claim _ _ => exact le_rfl
  | start _ hattempt hplanned hupdate =>
    exact startedAttempts_update proposalId hattempt hupdate ⟨rfl, rfl, rfl, rfl⟩ (.inr (.inl ⟨hplanned, rfl⟩))
  | unknown _ _ => exact le_rfl
  | settle _ _ hattempt hstarted hstate _ hupdate _ =>
    exact startedAttempts_update proposalId hattempt hupdate ⟨rfl, rfl, rfl, rfl⟩
      (.inr (.inr ⟨hstarted, hstate⟩))
  | retry _ _ hattempt hstarted _ _ hupdate _ _ _ hinsert =>
    refine (startedAttempts_update proposalId hattempt hupdate
      ⟨rfl, rfl, rfl, rfl⟩ (.inr (.inr ⟨hstarted, .inr (.inl rfl)⟩))).trans ?_
    unfold startedAttempts
    rw [Table.sum_insert (Records.insert?_of_insertRecord hinsert)]
    exact Nat.le_add_right _ _

/-- A dispatch start adds a started attempt to its proposal. -/
theorem startedAttempts_markDispatchStarted {claim : OutboxClaim} {occurredAt : Instant}
    {started : EffectAttempt} (h : s.markDispatchStarted claim occurredAt = .ok (started, t)) :
    s.startedAttempts started.proposalId + 1 ≤ t.startedAttempts started.proposalId := by
  obtain ⟨row, attempt, attempts, _, hattempt, hplanned, hupdate, rfl, rfl⟩ :=
    markDispatchStarted_eq_ok h
  have hfind : s.attempts.domain.find? (key (startAttempt attempt occurredAt)) = some attempt := by
    show s.attempts.find? attempt.effectAttemptId = some attempt
    rw [effectAttemptId_of_find? hattempt, hattempt]
  have hsum := Table.sum_replace hfind fun a : EffectAttempt =>
    if a.proposalId = attempt.proposalId ∧ a.state ≠ .planned then 1 else 0
  rw [if_neg fun h => h.2 hplanned, if_pos ⟨rfl, by simp [startAttempt]⟩,
    ← (Records.updateRecord_eq_ok hupdate).2.2] at hsum
  exact hsum.ge

end EffectTables

-- ════════════════════════════════════════════════════════════════════════
-- Runs
-- ════════════════════════════════════════════════════════════════════════

open EffectTables

/-- What an action does to the started attempts whose worker is about to call
    the channel. -/
theorem EffectSide.exec_started {s t : EffectSide} {a : EffectAction} (h : s.exec a = .ok t) :
    (∃ claim occurredAt attempt,
      s.tables.markDispatchStarted claim occurredAt = .ok (attempt, t.tables) ∧
      t.started = s.started ++ [attempt] ∧ ∀ x, a ≠ .channelApply x) ∨
    (∃ attempt ∈ s.started, a = .channelApply attempt ∧ t.tables = s.tables ∧
      t.started = s.started.erase attempt) ∨
    (t.started = s.started ∧ ∀ x, a ≠ .channelApply x) := by
  cases a with
  | markDispatchStarted claim occurredAt =>
    simp only [exec, bind_eq_ok, pure_eq_ok, Prod.exists] at h
    obtain ⟨_, _, attempt, tables, hmark, rfl⟩ := h
    exact .inl ⟨claim, occurredAt, attempt, hmark, rfl, by simp⟩
  | channelApply attempt =>
    simp only [exec, requireIssued, bind_eq_ok, require_eq_ok, pure_eq_ok, exists_const] at h
    obtain ⟨hmem, rfl⟩ := h
    exact .inr (.inl ⟨attempt, hmem, rfl, rfl, rfl⟩)
  | claimOutbox owner now leaseUntil =>
    simp only [exec] at h
    split at h <;> obtain rfl := Except.ok.inj h <;> exact .inr (.inr ⟨rfl, by simp⟩)
  | claimAmbiguous owner now leaseUntil =>
    simp only [exec] at h
    split at h <;> obtain rfl := Except.ok.inj h <;> exact .inr (.inr ⟨rfl, by simp⟩)
  | finalizeDispatch claim outcome fin =>
    simp only [exec, bind_eq_ok, pure_eq_ok, Prod.exists] at h
    obtain ⟨_, _, _, _, _, rfl⟩ := h
    exact .inr (.inr ⟨rfl, by simp⟩)
  | recoverExpiredDispatches now resultActor resultId resultDigest =>
    simp only [exec, bind_eq_ok, pure_eq_ok, Prod.exists] at h
    obtain ⟨_, _, _, rfl⟩ := h
    exact .inr (.inr ⟨rfl, by simp⟩)
  | reconcileAmbiguous claim outcome fin nextReconciliationAt =>
    simp only [exec, bind_eq_ok, pure_eq_ok, Prod.exists] at h
    obtain ⟨_, _, _, _, _, rfl⟩ := h
    exact .inr (.inr ⟨rfl, by simp⟩)

/-- A step in which an attempt goes from planned to started. -/
def startsAttempt {ε : Type} (id : StableId) (e : Transition (RuntimeState ε) (RuntimeAction ε)) :
    Bool :=
  ((e.source.effects.tables.attempts.find? id).any fun a => decide (a.state = .planned)) &&
    (e.target.effects.tables.attempts.find? id).any fun a => decide (a.state = .started)

/-- A call of `Channel.apply` for a proposal. -/
def appliesEffect {ε : Type} (proposalId : StableId)
    (e : Transition (RuntimeState ε) (RuntimeAction ε)) : Bool :=
  match e.action with
  | .effect (.channelApply attempt) => decide (attempt.proposalId = proposalId)
  | _ => false

theorem appliesEffect_eq_false {ε : Type} {proposalId : StableId} {s t : RuntimeState ε}
    {a : EffectAction} (h : ∀ x, a ≠ .channelApply x) :
    appliesEffect proposalId ⟨s, .effect a, t⟩ = false := by
  unfold appliesEffect
  split
  · rename_i x hx
    exact absurd (RuntimeAction.effect.inj hx) (h x)
  · rfl

/-- A step in which some attempt of a proposal is started. -/
def StartsEffect {ε : Type} (proposalId : StableId)
    (e : Transition (RuntimeState ε) (RuntimeAction ε)) : Prop :=
  ∃ id a, e.source.effects.tables.attempts.find? id = some a ∧ a.proposalId = proposalId ∧
    startsAttempt id e = true

/-- Each attempt the step creates is the first of its approval, or follows one
    that the very step recorded as failed and not executed. -/
def RetriesUnexecuted {ε : Type} (e : Transition (RuntimeState ε) (RuntimeAction ε)) : Prop :=
  ∀ id a, e.source.effects.tables.attempts.find? id = none →
    e.target.effects.tables.attempts.find? id = some a →
    a.attemptNumber = 1 ∨ ∃ outcome, e.action.outcome = some outcome ∧
      outcome.notExecuted = true ∧ ∃ previous,
        e.target.effects.tables.attempts.find? previous.effectAttemptId = some previous ∧
        previous.approvalDecisionId = a.approvalDecisionId ∧
        a.attemptNumber = previous.attemptNumber + 1 ∧ previous.state = .failed

section Runs

variable {ε : Type} {hooks : StoreHooks ε}

theorem tracked_preserved : (runtime hooks).Preserved fun s => s.effects.tables.Tracked :=
  fun _ _ _ hs hstep => tracked_move hs (RuntimeState.effects_move hstep)

theorem tracked_of_reachable {s : RuntimeState ε} (h : (runtime hooks).Reachable s) :
    s.effects.tables.Tracked := by
  refine h.invariant (I := fun s => s.effects.tables.Tracked) ?_ tracked_preserved
  rintro _ ⟨rest, rfl⟩
  exact tracked_empty

/-- An attempt that is planned, or may still be created, can be started. -/
def startable (s : EffectTables) (id : StableId) : ℕ :=
  match s.attempts.find? id with
  | some a => if a.state = .planned then 1 else 0
  | none => 1

theorem countP_startsAttempt_le {s t : RuntimeState ε}
    {tr : List (Transition (RuntimeState ε) (RuntimeAction ε))} (h : (runtime hooks).Path s tr t)
    (id : StableId) : tr.countP (startsAttempt id) ≤ 1 := by
  have hcount := h.countP_le (I := fun _ => True) (p := startsAttempt id)
    (μ := fun s => startable s.effects.tables id) (fun _ _ _ _ _ => trivial) ?_ ?_ trivial
  · have hstart : startable s.effects.tables id ≤ 1 := by
      unfold startable
      split
      · split <;> simp
      · exact le_rfl
    omega
  · intro s a t _ _ hp
    simp only [startsAttempt, Bool.and_eq_true, Option.any_eq_true, decide_eq_true_eq] at hp
    obtain ⟨⟨x, hx, hplanned⟩, y, hy, hstarted⟩ := hp
    simp [startable, hx, hplanned, hy, hstarted]
  · intro s a t _ hstep
    have hmove := RuntimeState.effects_move hstep
    unfold startable
    split
    · rename_i y hy
      split
      · rename_i hplanned
        split
        · rename_i x hx
          obtain ⟨x', hx', _, hadvances⟩ := attempt_move hmove hx
          obtain rfl := Option.some.inj (hx'.symm.trans hy)
          rw [if_pos]
          by_contra hne
          exact hadvances.started hne hplanned
        · exact le_rfl
      · exact Nat.zero_le _
    · rename_i hy
      split
      · rename_i x hx
        obtain ⟨x', hx', _⟩ := attempt_move hmove hx
        exact absurd (hx'.symm.trans hy) (by simp)
      · exact le_rfl

/-- The channel is called at most once for each started attempt of a proposal. -/
theorem countP_appliesEffect_le {s t : RuntimeState ε}
    {tr : List (Transition (RuntimeState ε) (RuntimeAction ε))} (h : (runtime hooks).Path s tr t)
    (proposalId : StableId) (hs : s.effects.started = []) :
    tr.countP (appliesEffect proposalId) ≤ t.effects.tables.startedAttempts proposalId := by
  have hcount := h.countP_balance (I := fun _ => True) (p := appliesEffect proposalId)
    (μ := fun s => s.effects.started.countP fun a => decide (a.proposalId = proposalId))
    (κ := fun s => s.effects.tables.startedAttempts proposalId) (fun _ _ _ _ _ => trivial) ?_
    trivial
  · simp only [hs, List.countP_nil] at hcount
    omega
  · intro s a t _ hstep
    have hmono := startedAttempts_move (RuntimeState.effects_move hstep) proposalId
    have hexec : s.exec hooks a = .ok t := hstep
    cases a with
    | effect action =>
      simp only [RuntimeState.exec, bind_eq_ok, pure_eq_ok] at hexec
      obtain ⟨effects, heffects, rfl⟩ := hexec
      rcases EffectSide.exec_started heffects with ⟨claim, at', attempt, hmark, hstarted, hne⟩ |
        ⟨attempt, hmem, rfl, htables, hstarted⟩ | ⟨hstarted, hne⟩
      · have hsome := startedAttempts_markDispatchStarted hmark
        simp only [appliesEffect_eq_false hne, hstarted, List.countP_append, List.countP_singleton]
        by_cases hp : attempt.proposalId = proposalId
        · subst hp
          simp
          omega
        · simp [hp]
          omega
      · simp only [appliesEffect, htables, hstarted, List.countP_erase]
        have hpos : attempt.proposalId = proposalId →
            0 < s.effects.started.countP fun a => decide (a.proposalId = proposalId) :=
          fun hp => List.countP_pos_iff.mpr ⟨attempt, hmem, decide_eq_true hp⟩
        by_cases hp : attempt.proposalId = proposalId
        · have := hpos hp
          simp [hp, hmem]
          omega
        · simp [hp]
      · simp only [appliesEffect_eq_false hne, hstarted]
        simpa using hmono
    | agenda action =>
      simp only [RuntimeState.exec, bind_eq_ok, pure_eq_ok] at hexec
      obtain ⟨_, _, rfl⟩ := hexec
      simp [appliesEffect]
    | commitSemanticDecision claim semantic =>
      simp only [RuntimeState.exec, bind_eq_ok, pure_eq_ok] at hexec
      obtain ⟨_, _, _, _, rfl⟩ := hexec
      simpa [appliesEffect, RuntimeState.withStore] using hmono
    | commitApprovalAndAttempt cmd =>
      simp only [RuntimeState.exec, bind_eq_ok, pure_eq_ok] at hexec
      obtain ⟨_, _, rfl⟩ := hexec
      simpa [appliesEffect, RuntimeState.withStore] using hmono
    | loadDispatchBundle claim mandateId =>
      simp only [RuntimeState.exec, bind_eq_ok, pure_eq_ok] at hexec
      obtain ⟨_, _, _, _, rfl⟩ := hexec
      simp [appliesEffect]
    | environment rest =>
      obtain rfl := Except.ok.inj hexec
      simp [appliesEffect]

/-- After a success no attempt of the proposal is started. -/
theorem not_startsEffect_after_success {s t : RuntimeState ε}
    {tr : List (Transition (RuntimeState ε) (RuntimeAction ε))} (h : (runtime hooks).Path s tr t)
    (hs : s.effects.tables.Tracked) (proposalId : StableId) :
    tr.Pairwise fun e e' =>
      e.target.effects.tables.Succeeded proposalId → ¬StartsEffect proposalId e' := by
  have hpair := (h.pairwise (Q := fun s => s.effects.tables.Succeeded proposalId)
    tracked_preserved (fun _ _ _ _ hq hstep => succeeded_move (RuntimeState.effects_move hstep) hq)
    hs).1
  refine hpair.imp_of_mem fun {e e'} _ he' hlater hsucceeded => ?_
  rintro ⟨id, a, ha, hp, hstart⟩
  have htracked : e'.source.effects.tables.Tracked := h.invariant_source tracked_preserved hs e' he'
  simp only [startsAttempt, ha, Option.any_some, Bool.and_eq_true, decide_eq_true_eq] at hstart
  exact htracked.not_planned_of_succeeded (hlater hsucceeded) ha hp hstart.1

/-- **Bounded execution.** In every run from an empty database and every
    namespace: the attempts of a row are numbered from one to at most the limit
    of its proposal, each but the last failed unexecuted; no attempt is started
    twice; a retry follows an attempt that is known not to have been executed;
    nothing is started after a success; and the channel is called at most as
    often as the proposal allows. -/
theorem approved_effects_execute_boundedly {db₀ db : StableId → RuntimeState ε}
    {tr : List (Transition (StableId → RuntimeState ε) (StableId × RuntimeAction ε))}
    (h₀ : (database hooks).init db₀) (h : (database hooks).Path db₀ tr db) (ns : StableId) :
    let s := (db ns).effects.tables
    let steps := TransitionSystem.componentTrace ns tr
    (∀ row ∈ s.outbox, ∃ proposal n, s.proposals.find? row.proposalId = some proposal ∧
      s.attemptNumbers row.approvalDecisionId = List.range' 1 n ∧
      n ≤ proposal.constraints.maximumAttempts) ∧
    (∀ row ∈ s.outbox, ∀ a ∈ s.attempts.domain, a.approvalDecisionId = row.approvalDecisionId →
      a.attemptNumber < row.attemptNumber → s.FailedUnexecuted a) ∧
    (∀ id, steps.countP (startsAttempt id) ≤ 1) ∧
    (∀ e ∈ steps, RetriesUnexecuted e) ∧
    (∀ proposalId, steps.Pairwise fun e e' =>
      e.target.effects.tables.Succeeded proposalId → ¬StartsEffect proposalId e') ∧
    (∀ proposal, s.proposals.find? proposal.proposalId = some proposal →
      steps.countP (appliesEffect proposal.proposalId) ≤
        proposal.constraints.maximumAttempts) := by
  intro s steps
  have hpath : (runtime hooks).Path (db₀ ns) steps (db ns) := TransitionSystem.Path.component h ns
  obtain ⟨rest, hrest⟩ := h₀ ns
  have hinit : (db₀ ns).effects.tables.Tracked := by
    rw [hrest]
    exact tracked_empty
  have hs : s.Tracked := hpath.invariant tracked_preserved hinit
  refine ⟨fun row hrow => ?_, fun row hrow a ha hr hlt => (hs.row row hrow).earlier a ha hr hlt,
    countP_startsAttempt_le hpath, fun e he id a hnone ha => ?_,
    not_startsEffect_after_success hpath hinit, fun proposal hproposal => ?_⟩
  · have htracks := hs.row row hrow
    obtain ⟨proposal, hproposal, hmax, _⟩ := htracks.proposal
    exact ⟨proposal, row.attemptNumber, hproposal, htracks.numbered, hmax ▸ htracks.bounded⟩
  · exact (created_move (RuntimeState.effects_move (hpath.step_of_mem e he)) hnone ha).2
  · have hempty : (db₀ ns).effects.started = [] := by
      rw [hrest]
      rfl
    exact (countP_appliesEffect_le hpath _ hempty).trans (hs.startedAttempts_le hproposal)

end Runs

/-- An approved effect that fails once and succeeds on its second attempt. -/
def retriedOnce : List (RuntimeState AuthorityRecords → RuntimeAction AuthorityRecords) :=
  sampleApproved ++
    sampleDispatch 40 .retryableFailure (stableId "result-1") (some (stableId "attempt-2")) ++
    sampleDispatch 50 .succeeded (stableId "result-2") none

set_option maxRecDepth 8000 in
theorem approved_effects_execute_boundedly_retried :
    ∃ (db₀ db : StableId → RuntimeState AuthorityRecords)
      (tr : List (Transition _ (StableId × RuntimeAction AuthorityRecords)))
      (row : OutboxRow),
      (database sqliteRuntimeStore).init db₀ ∧ (database sqliteRuntimeStore).Path db₀ tr db ∧
      row ∈ (db sampleColleague).effects.tables.outbox ∧ row.attemptNumber = 2 ∧
      (∃ n ≤ sampleProposal.constraints.maximumAttempts,
        (db sampleColleague).effects.tables.attemptNumbers row.approvalDecisionId =
          List.range' 1 n) ∧
      2 = (TransitionSystem.componentTrace sampleColleague tr).countP
        (appliesEffect sampleProposal.proposalId) := by
  obtain ⟨tr, t, hpath, hp⟩ := RuntimeState.exists_path_of_runsTo sqliteRuntimeStore
    (.initial sampleAuthority) retriedOnce (fun tr s =>
      (s.effects.tables.outbox.find? (stableId "outbox-1")).any (fun row : OutboxRow =>
        decide (row.attemptNumber = 2 ∧ row.proposalId = sampleProposal.proposalId)) &&
      (s.effects.tables.proposals.find? sampleProposal.proposalId).any (fun p : EffectProposal =>
        decide (p.constraints.maximumAttempts = sampleProposal.constraints.maximumAttempts)) &&
      decide (tr.countP (appliesEffect sampleProposal.proposalId) = 2)) (by decide)
  simp only [Bool.and_eq_true, Option.any_eq_true, decide_eq_true_eq] at hp
  obtain ⟨⟨⟨row, hrow, hnumber, hproposal⟩, p, hfind, hmax⟩, hcount⟩ := hp
  let db₀ : StableId → RuntimeState AuthorityRecords := fun _ => .initial sampleAuthority
  have hrun : (database sqliteRuntimeStore).Path db₀ _ _ :=
    hpath.lift (s := db₀) (i := sampleColleague)
  have hend : Function.update db₀ sampleColleague t sampleColleague = t := Function.update_self ..
  have hbounded := approved_effects_execute_boundedly (fun _ => ⟨sampleAuthority, rfl⟩) hrun
    sampleColleague
  rw [hend] at hbounded
  obtain ⟨p', n, hp', hnumbers, hle⟩ := hbounded.1 row (Table.mem_of_find? hrow)
  rw [hproposal] at hp'
  obtain rfl := Option.some.inj (hfind.symm.trans hp')
  refine ⟨db₀, _, _, row, fun _ => ⟨sampleAuthority, rfl⟩, hrun, ?_, hnumber, ?_, ?_⟩
  · rw [hend]
    exact Table.mem_of_find? hrow
  · rw [hend]
    exact ⟨n, hmax ▸ hle, hnumbers⟩
  · rw [TransitionSystem.componentTrace_lift]
    exact hcount.symm

end DigitalColleagues
