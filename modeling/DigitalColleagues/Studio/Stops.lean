import DigitalColleagues.Runtime.EffectMoves
import DigitalColleagues.Studio.Admitted

/-!
# Uses of effects while the colleague is stopped

A proposal is stored in the transaction that reads the run state. Approvals and
dispatches read it in a transaction of their own, so that a stop can fall
between this check and the write it guards.

## Main definitions

- `EffectTables.Quiet` — no new proposal, approving decision or started attempt
- `StudioState.UseUnderWay` — a use between its check and its write
- `StopsIdle`, `ApprovesBound` — the conditions on a step
-/

namespace DigitalColleagues

open Keyed

-- ════════════════════════════════════════════════════════════════════════
-- Steps that use no effect
-- ════════════════════════════════════════════════════════════════════════

namespace EffectTables

/-- Nothing is proposed, approved or started from one state to the next. -/
structure Quiet (s t : EffectTables) : Prop where
  proposals : t.proposals = s.proposals
  approvals : ∀ id decision, t.approvals.find? id = some decision → decision.choice = .approve →
    s.approvals.find? id = some decision
  attempts : ∀ id attempt, t.attempts.find? id = some attempt → attempt.state = .started →
    s.attempts.find? id = some attempt

theorem Quiet.refl (s : EffectTables) : s.Quiet s :=
  ⟨rfl, fun _ _ h _ => h, fun _ _ h _ => h⟩

/-- An attempt that is settled is not started any more. -/
theorem started_of_settled {attempts settled : Records EffectAttempt} {attempt : EffectAttempt}
    {state : EffectAttemptState} {actor : Principal} {occurredAt : Instant} {revision : ℕ}
    (h : attempts.updateRecord (settleAttempt attempt state actor occurredAt) revision =
      .ok settled) (hstate : state ≠ .started) {id : StableId} {found : EffectAttempt}
    (hfound : settled.find? id = some found) (hstarted : found.state = .started) :
    attempts.find? id = some found := by
  rw [Records.find?_updateRecord h] at hfound
  split at hfound
  · obtain rfl := Option.some.inj hfound
    exact absurd hstarted hstate
  · exact hfound

/-- A retry is planned, not started. -/
theorem started_of_retried {settled attempts : Records EffectAttempt} {previous : EffectAttempt}
    {nextAttemptId : StableId} {actor : Principal} {occurredAt : Instant}
    (h : settled.insertRecord (retryAttempt previous nextAttemptId actor occurredAt) = .ok attempts)
    {id : StableId} {found : EffectAttempt} (hfound : attempts.find? id = some found)
    (hstarted : found.state = .started) : settled.find? id = some found := by
  rw [Records.find?_insertRecord h] at hfound
  split at hfound
  · obtain rfl := Option.some.inj hfound
    exact absurd hstarted (by simp [retryAttempt])
  · exact hfound

/-- Recording an outcome uses no effect anew. -/
theorem Move.quiet {s t : EffectTables} {o : LastOutcome} (h : s.Move (some o) t) : s.Quiet t := by
  cases h with
  | idle => exact .refl _
  | unknown => exact ⟨rfl, fun _ _ h _ => h, fun _ _ h _ => h⟩
  | settle _ _ _ _ hstate _ hattempts =>
    refine ⟨rfl, fun _ _ h _ => h, fun id attempt hfound hstarted => ?_⟩
    refine started_of_settled hattempts ?_ hfound hstarted
    rcases hstate with rfl | rfl | rfl <;> simp
  | retry _ _ _ _ _ _ hsettled _ _ _ hretry =>
    refine ⟨rfl, fun _ _ h _ => h, fun id attempt hfound hstarted => ?_⟩
    exact started_of_settled hsettled (by simp) (started_of_retried hretry hfound hstarted) hstarted

theorem quiet_of_claim {s t : EffectTables} {owner : StableId} {now leaseUntil : Instant}
    {sourceStates : List OutboxState} {targetState : OutboxState} {excludeStopped : Bool}
    {claim : OutboxClaim}
    (h : s.claimOutboxState owner now leaseUntil sourceStates targetState excludeStopped =
      some (claim, t)) : s.Quiet t := by
  obtain ⟨_, _, _, _, rfl⟩ := claimOutboxState_eq_some h
  exact ⟨rfl, fun _ _ h _ => h, fun _ _ h _ => h⟩

end EffectTables

/-- Only the start of a dispatch starts an attempt. -/
theorem EffectSide.quiet_of_exec {s t : EffectSide} {a : EffectAction} (h : s.exec a = .ok t)
    (ha : ∀ claim occurredAt, a ≠ .markDispatchStarted claim occurredAt) :
    s.tables.Quiet t.tables := by
  cases a with
  | markDispatchStarted claim occurredAt => exact absurd rfl (ha claim occurredAt)
  | claimOutbox owner now leaseUntil =>
    simp only [exec] at h
    split at h
    · obtain rfl := Except.ok.inj h
      exact .refl _
    · rename_i hclaim
      obtain rfl := Except.ok.inj h
      exact EffectTables.quiet_of_claim hclaim
  | claimAmbiguous owner now leaseUntil =>
    simp only [exec] at h
    split at h
    · obtain rfl := Except.ok.inj h
      exact .refl _
    · rename_i hclaim
      obtain rfl := Except.ok.inj h
      exact EffectTables.quiet_of_claim hclaim
  | channelApply attempt =>
    simp only [exec, bind_eq_ok, pure_eq_ok] at h
    obtain ⟨_, _, rfl⟩ := h
    exact .refl _
  | finalizeDispatch claim outcome fin =>
    have hmove := EffectSide.exec_move (ε := Unit) h
    exact hmove.quiet
  | recoverExpiredDispatches now resultActor resultId resultDigest =>
    have hmove := EffectSide.exec_move (ε := Unit) h
    exact hmove.quiet
  | reconcileAmbiguous claim outcome fin nextReconciliationAt =>
    have hmove := EffectSide.exec_move (ε := Unit) h
    exact hmove.quiet

/-- A rejection approves nothing. -/
theorem EffectTables.quiet_of_insertDecision {s t : EffectTables} {proposal : EffectProposal}
    {decision : HumanApprovalDecision} (h : s.insertDecision proposal decision = .ok t)
    (hchoice : decision.choice ≠ .approve) : s.Quiet t := by
  obtain ⟨approvals, _, _, _, hinsert, _, rfl⟩ := insertDecision_eq_ok h
  refine ⟨rfl, fun id found hfound happroved => ?_, fun _ _ h _ => h⟩
  have hfind : approvals.find? id = some found := hfound
  rw [Records.find?_insertRecord hinsert] at hfind
  split at hfind
  · obtain rfl := Option.some.inj hfind
    exact absurd happroved hchoice
  · exact hfind

/-- A step of the runtime other than a proposal, an approval and a start is quiet. -/
theorem quiet_of_runtime {ε : Type} {hooks : StoreHooks ε} {s t : RuntimeState ε}
    {a : RuntimeAction ε} (h : s.exec hooks a = .ok t)
    (hproposes : ∀ claim semantic, a = .commitSemanticDecision claim semantic →
      t.effects.tables.proposals = s.effects.tables.proposals)
    (happroves : ∀ cmd, a = .commitApprovalAndAttempt cmd → cmd.decision.choice ≠ .approve)
    (hstarts : ∀ claim occurredAt, a ≠ .effect (.markDispatchStarted claim occurredAt)) :
    s.effects.tables.Quiet t.effects.tables := by
  cases a with
  | agenda action =>
    simp only [RuntimeState.exec, bind_eq_ok, pure_eq_ok] at h
    obtain ⟨_, _, rfl⟩ := h
    exact .refl _
  | effect action =>
    simp only [RuntimeState.exec, bind_eq_ok, pure_eq_ok] at h
    obtain ⟨effects, heffects, rfl⟩ := h
    refine EffectSide.quiet_of_exec heffects fun claim occurredAt heq => ?_
    exact hstarts claim occurredAt (by rw [heq])
  | commitSemanticDecision claim semantic =>
    have hproposals := hproposes claim semantic rfl
    simp only [RuntimeState.exec, bind_eq_ok, pure_eq_ok] at h
    obtain ⟨_, _, store, hstore, rfl⟩ := h
    obtain ⟨_, _, _, _, _, _, _, _, _, _, _, _, rfl⟩ :=
      RuntimeStore.commitSemanticDecision_eq_ok hooks hstore
    exact ⟨hproposals, fun _ _ h _ => h, fun _ _ h _ => h⟩
  | commitApprovalAndAttempt cmd =>
    simp only [RuntimeState.exec, bind_eq_ok, pure_eq_ok, Prod.exists,
      RuntimeStore.commitApprovalAndAttempt, Prod.mk.injEq] at h
    obtain ⟨_, _, ⟨_, _, effects, happroval, _, rfl⟩, rfl⟩ := h
    rcases EffectTables.commitApprovalAndAttempt_eq_ok happroval with ⟨_, _, rfl⟩ |
      ⟨proposal, b, decided, _, _, _, hdecided, ⟨_, rfl⟩ | ⟨hchoice, _⟩⟩
    · exact .refl _
    · exact EffectTables.quiet_of_insertDecision hdecided (happroves cmd rfl)
    · exact absurd hchoice (happroves cmd rfl)
  | loadDispatchBundle claim mandateId =>
    simp only [RuntimeState.exec, bind_eq_ok, pure_eq_ok] at h
    obtain ⟨_, _, _, _, rfl⟩ := h
    exact .refl _
  | environment rest =>
    obtain rfl := Except.ok.inj h
    exact .refl _

-- ════════════════════════════════════════════════════════════════════════
-- Stopped colleagues have a policy
-- ════════════════════════════════════════════════════════════════════════

variable {ports : GovernancePorts} {zones : TimeZones}

/-- A durable run state belongs to a policy. -/
def BuilderTables.Governed (s : BuilderTables) : Prop :=
  s.runState ≠ none → s.getActivePolicy ≠ .ok none

namespace BuilderTables

theorem Governed.sameDrafting {s t : BuilderTables} (h : s.Governed) (hsame : s.SameDrafting t)
    (hrun : t.runState = s.runState) : t.Governed := by
  intro hrow
  rw [hsame.getActivePolicy]
  exact h (hrun ▸ hrow)

theorem runState_insertPolicyOutcome {s t : BuilderTables} {record : PolicyEnforcementRecord}
    (h : s.insertPolicyOutcome record = .ok t) : t.runState = s.runState := by
  rcases insertPolicyOutcome_eq_ok h with ⟨_, rfl⟩ | ⟨_, _, rfl⟩
  · rfl
  · rfl

theorem Governed.insertPolicyOutcome {s t : BuilderTables} {record : PolicyEnforcementRecord}
    (h : s.Governed) (hinsert : s.insertPolicyOutcome record = .ok t) : t.Governed :=
  h.sameDrafting (.of_insertPolicyOutcome hinsert) (runState_insertPolicyOutcome hinsert)

/-- Admission stops a colleague only under its active policy. -/
theorem Governed.admits {s t : AdmissionTables} {builder recorded : BuilderTables}
    {cmd : AdmitTriggerCommand} {admission : PolicyAdmission} (h : builder.Governed)
    (hadmits : AdmitsTrigger s builder cmd admission t recorded) : recorded.Governed := by
  cases hadmits with
  | replayed => exact h
  | @refused outcome _ inserted _ _ _ _ _ hactive hinsert =>
    have hsame := (SameDrafting.of_insertPolicyOutcome hinsert).stopFor cmd outcome
    cases hstops : stopReason cmd.policy outcome with
    | none =>
      refine h.sameDrafting hsame ?_
      rw [BuilderTables.stopFor, hstops]
      exact runState_insertPolicyOutcome hinsert
    | some reason =>
      intro _
      rw [hsame.getActivePolicy, (hactive (by simp [hstops])).1]
      simp
  | accepted haccepts => exact h.insertPolicyOutcome haccepts.records

end BuilderTables

theorem governed_withConfiguration {s : StudioTables} {tables : BuilderTables}
    (hs : s.configuration.Governed) (ht : tables.Governed) :
    (s.withConfiguration tables).configuration.Governed := by
  cases hc : s.governance.store.colleague with
  | none =>
    rw [StudioTables.withConfiguration_of_none hc]
    exact hs
  | some c =>
    rw [StudioTables.configuration_withConfiguration hc]
    exact ht

theorem governed_of_governance {s t : GovernanceState} {action : GovernanceAction}
    (h : s.exec ports action = .ok t) (hs : Lineage ports s)
    (hgoverned : s.configuration.Governed) : t.configuration.Governed := by
  cases hc : s.store.colleague with
  | none =>
    cases ht : t.store.colleague with
    | none =>
      rw [GovernanceState.configuration, ht]
      exact fun hrow => absurd rfl hrow
    | some c =>
      obtain ⟨profile, mandate, htables⟩ := colleague_of_exec h hc ht
      simp only [BuilderTables.insertConfiguration, bind_eq_ok, pure_eq_ok] at htables
      obtain ⟨_, _, _, _, htables⟩ := htables
      rw [GovernanceState.configuration, ht, Option.elim_some, ← htables]
      exact fun hrow => absurd rfl hrow
  | some c =>
    obtain ⟨u, hu, hcase⟩ := configurationStep_of_exec h hs hc
    have hsource : s.configuration = c.tables := by rw [GovernanceState.configuration, hc]; rfl
    have htarget : t.configuration = u := by rw [GovernanceState.configuration, hu]; rfl
    rw [htarget]
    rw [hsource] at hgoverned
    rcases hcase with hdrafts | ⟨_, _, _, _, _, _, _, hconfirm, _⟩
    · rw [hdrafts.frame]
      exact hgoverned
    · obtain ⟨_, _, _, _, hpolicy, _⟩ := hconfirm.runState
      intro _
      rw [hconfirm.target.getActivePolicy, hpolicy]
      simp

theorem governed_of_reachable {s : StudioState} (h : (studio ports zones).Reachable s) :
    s.configuration.Governed := by
  let kept (s : StudioState) : Prop :=
    Lineage ports s.tables.governance ∧ s.configuration.Governed
  have hboth : kept s := by
    refine h.invariant ?_ ?_
    · rintro _ rfl
      exact ⟨lineage_initial ports, fun hrow => absurd rfl hrow⟩
    · rintro s a t ⟨hlineage, hgoverned⟩ hstep
      have hmove := StudioState.move_of_exec hstep
      refine ⟨hmove.lineage hlineage, ?_⟩
      obtain ⟨tables, ht⟩ : ∃ tables, t.tables = tables := ⟨_, rfl⟩
      have htarget : t.configuration = tables.configuration := by rw [StudioState.configuration, ht]
      rw [ht] at hmove
      rw [htarget]
      cases hmove with
      | frame hgovernance =>
        rw [StudioTables.configuration, hgovernance]
        exact hgoverned
      | governance hexec => exact governed_of_governance hexec hlineage hgoverned
      | admitted hadmit =>
        exact governed_withConfiguration hgoverned (hgoverned.admits (admitTrigger_eq_ok hadmit))
      | record _ hinsert =>
        exact governed_withConfiguration hgoverned (hgoverned.insertPolicyOutcome hinsert)
  exact hboth.2

/-- A stopped colleague is governed by a policy that is stopped, or by none that
    can be read. -/
theorem stopped_of_durableState {s : StudioState} (h : (studio ports zones).Reachable s)
    (hs : s.durableState = some .stopped) {active : Option ColleaguePolicy}
    (hactive : s.configuration.getActivePolicy = .ok active) :
    ∃ policy, active = some policy ∧ s.configuration.stopped policy := by
  have hrow : s.configuration.runState ≠ none := by
    intro hnone
    rw [StudioState.durableState, hnone] at hs
    exact absurd hs (by simp)
  cases active with
  | none => exact absurd hactive (governed_of_reachable h hrow)
  | some policy => exact ⟨policy, rfl, .inr hs⟩

-- ════════════════════════════════════════════════════════════════════════
-- Uses between their check and their write
-- ════════════════════════════════════════════════════════════════════════

/-- How many of its reads a dispatch has behind it: the bundle, the Mandate, the
    policy, its run state, the binding of the approval, the approver, their membership. -/
@[simp] def DispatchPhase.reads : DispatchPhase → ℕ
  | .loaded => 1
  | .mandateChecked => 2
  | .policyRead _ => 3
  | .policyChecked => 4
  | .bindingRead _ => 5
  | .principalRead _ _ => 6
  | .approvalChecked => 7

/-- A human is about to approve, or a dispatch is about to start, and neither
    looks at the run state again. -/
def StudioState.UseUnderWay (s : StudioState) : Prop :=
  (∃ review ∈ s.reviews, review.choice = .approve ∧ review.policy = none) ∨
    ∃ dispatch ∈ s.dispatches, 4 ≤ dispatch.phase.reads

instance (s : StudioState) : Decidable s.UseUnderWay :=
  inferInstanceAs (Decidable (_ ∨ _))

/-- A step stops the colleague only when no use is under way. -/
def StopsIdle (e : StudioStep) : Prop :=
  e.source.durableState ≠ some .stopped → e.target.durableState = some .stopped →
    ¬e.source.UseUnderWay

instance (e : StudioStep) : Decidable (StopsIdle e) := by
  unfold StopsIdle
  infer_instance

/-- An action takes up a proposal without a policy for approval; none is checked
    before it. -/
def StudioState.ApprovesUnbound (s : StudioState) : StudioAction → Prop
  | .reviewProposal proposalId .approve =>
    ∃ proposal ∈ s.runtime.effects.tables.proposals.find? proposalId, proposal.policy = none
  | _ => False

instance (s : StudioState) (a : StudioAction) : Decidable (s.ApprovesUnbound a) := by
  unfold StudioState.ApprovesUnbound
  split <;> infer_instance

/-- No proposal without a policy is taken up for approval while the colleague is stopped. -/
def ApprovesBound (e : StudioStep) : Prop :=
  e.source.durableState = some .stopped → ¬e.source.ApprovesUnbound e.action

instance (e : StudioStep) : Decidable (ApprovesBound e) := by
  unfold ApprovesBound
  infer_instance

/-- While the colleague is stopped no policy is found running. -/
theorem not_stopped_of_requireRunning {s : StudioState} {active : ColleaguePolicy}
    (h : s.tables.requireRunning active = .ok ()) : s.durableState ≠ some .stopped := by
  intro hstopped
  rw [StudioTables.requireRunning, require_eq_ok] at h
  exact h (.inr hstopped)

/-- While the colleague is stopped it has a policy. -/
theorem not_stopped_of_requireBoundPolicy {s : StudioState}
    (hreachable : (studio ports zones).Reachable s) {proposal : EffectProposal}
    (h : s.tables.requireBoundPolicy proposal = .ok none) : s.durableState ≠ some .stopped := by
  intro hstopped
  simp only [StudioTables.requireBoundPolicy, bind_eq_ok] at h
  obtain ⟨active, hactive, h⟩ := h
  obtain ⟨policy, rfl, _⟩ := stopped_of_durableState hreachable hstopped hactive
  simp only [bind_eq_ok, pure_eq_ok] at h
  obtain ⟨_, _, _, _, h⟩ := h
  cases h

/-- A proposal with a policy is bound to one. -/
theorem requireBoundPolicy_ne_none {s : StudioTables} {proposal : EffectProposal}
    (hpolicy : proposal.policy ≠ none) : s.requireBoundPolicy proposal ≠ .ok none := by
  intro h
  simp only [StudioTables.requireBoundPolicy, bind_eq_ok] at h
  obtain ⟨active, _, h⟩ := h
  cases active with
  | none =>
    simp only [bind_eq_ok, require_eq_ok, exists_const] at h
    exact hpolicy h.1
  | some policy =>
    simp only [bind_eq_ok, pure_eq_ok] at h
    obtain ⟨_, _, _, _, h⟩ := h
    cases h

/-- A use that is under way was so before, or the step began it: it found the
    colleague running, or it reviews a proposal without a policy. -/
theorem useUnderWay_of_step {s t : StudioState} (hreachable : (studio ports zones).Reachable s)
    {a : StudioAction} (h : s.exec ports zones a = .ok t) (ht : t.UseUnderWay) :
    s.UseUnderWay ∨ a.reads ∧ (s.durableState ≠ some .stopped ∨ s.ApprovesUnbound a) := by
  cases StudioState.proceeds_of_exec h with
  | frame _ hreviews hdispatches =>
    rw [StudioState.UseUnderWay, hreviews, hdispatches] at ht
    exact .inl ht
  | admitted _ _ _ _ hreviews hdispatches =>
    rw [StudioState.UseUnderWay, hreviews, hdispatches] at ht
    exact .inl ht
  | @review proposalId choice proposal policy hproposal hcheck _ hreviews hdispatches =>
    rw [StudioState.UseUnderWay, hreviews, hdispatches] at ht
    rcases ht with ⟨review, hreview, hready⟩ | hdispatch
    · rcases List.mem_append.mp hreview with hold | hnew
      · exact .inl (.inl ⟨review, hold, hready⟩)
      · obtain rfl := List.mem_singleton.mp hnew
        obtain ⟨rfl, rfl⟩ : choice = .approve ∧ policy = none := hready
        by_cases hpolicy : proposal.policy = none
        · exact .inr ⟨trivial, .inr ⟨proposal, hproposal, hpolicy⟩⟩
        · exact absurd (hcheck hpolicy) (requireBoundPolicy_ne_none hpolicy)
    · exact .inl (.inr hdispatch)
  | reviewed _ _ hcheck =>
    exact .inr ⟨trivial, .inl (not_stopped_of_requireRunning hcheck)⟩
  | decide _ hreviews hdispatches =>
    rw [StudioState.UseUnderWay, hreviews, hdispatches] at ht
    refine .inl (ht.imp_left fun ⟨review, hreview, hready⟩ => ?_)
    exact ⟨review, List.mem_of_mem_eraseIdx hreview, hready⟩
  | load _ _ hreviews hdispatches =>
    rw [StudioState.UseUnderWay, hreviews, hdispatches] at ht
    refine .inl (ht.imp_right fun ⟨dispatch, hdispatch, hphase⟩ => ?_)
    rcases List.mem_append.mp hdispatch with hold | hnew
    · exact ⟨dispatch, hold, hphase⟩
    · obtain rfl := List.mem_singleton.mp hnew
      exact absurd hphase (by simp)
  | validate _ _ _ _ _ hreviews hdispatches =>
    rw [StudioState.UseUnderWay, hreviews, hdispatches] at ht
    refine .inl (ht.imp_right fun ⟨dispatch, hdispatch, hphase⟩ => ?_)
    rcases List.mem_or_eq_of_mem_set hdispatch with hold | rfl
    · exact ⟨dispatch, hold, hphase⟩
    · exact absurd hphase (by simp)
  | @authorizePolicy _ _ active _ _ hcheck _ hreviews hdispatches =>
    cases active with
    | none => exact .inr ⟨trivial, .inl (not_stopped_of_requireBoundPolicy hreachable hcheck)⟩
    | some policy =>
      rw [StudioState.UseUnderWay, hreviews, hdispatches] at ht
      refine .inl (ht.imp_right fun ⟨dispatch, hdispatch, hphase⟩ => ?_)
      rcases List.mem_or_eq_of_mem_set hdispatch with hold | rfl
      · exact ⟨dispatch, hold, hphase⟩
      · exact absurd hphase (by simp)
  | authorizeRunState _ _ hcheck =>
    exact .inr ⟨trivial, .inl (not_stopped_of_requireRunning hcheck)⟩
  | authorizeBinding hdispatch hphase =>
    exact .inl (.inr ⟨_, List.mem_of_getElem? hdispatch, by simp [hphase]⟩)
  | authorizePrincipal hdispatch hphase =>
    exact .inl (.inr ⟨_, List.mem_of_getElem? hdispatch, by simp [hphase]⟩)
  | authorizeMembership hdispatch hphase =>
    exact .inl (.inr ⟨_, List.mem_of_getElem? hdispatch, by simp [hphase]⟩)
  | close _ hreviews hdispatches =>
    rw [StudioState.UseUnderWay, hreviews, hdispatches] at ht
    refine .inl (ht.imp_right fun ⟨dispatch, hdispatch, hphase⟩ => ?_)
    exact ⟨dispatch, List.mem_of_mem_eraseIdx hdispatch, hphase⟩

/-- In a run whose stops find nothing under way, nothing is under way while the
    colleague is stopped. -/
theorem idle_of_path {s : StudioState} {tr : List StudioStep}
    (h : (studio ports zones).Path .initial tr s) (hstops : ∀ e ∈ tr, StopsIdle e)
    (hbound : ∀ e ∈ tr, ApprovesBound e) (hs : s.durableState = some .stopped) :
    ¬s.UseUnderWay := by
  induction h with
  | refl => exact nomatch (show none = some PolicyRunState.stopped from hs)
  | @snoc t u a tr hpath hstep ih =>
    intro huse
    have hreachable : (studio ports zones).Reachable t := hpath.reachable (.init rfl)
    by_cases ht : t.durableState = some .stopped
    · have hidle := ih (fun e he => hstops e (by simp [he])) (fun e he => hbound e (by simp [he])) ht
      rcases useUnderWay_of_step hreachable hstep huse with hbefore | ⟨_, hrunning | hunbound⟩
      · exact hidle hbefore
      · exact hrunning ht
      · exact hbound ⟨t, a, u⟩ (by simp) ht hunbound
    · rcases useUnderWay_of_step hreachable hstep huse with hbefore | ⟨hreads, _⟩
      · exact hstops ⟨t, a, u⟩ (by simp) ht hs hbefore
      · -- a read stops nobody
        have hruntime := StudioState.runtime_of_reads hreads hstep
        rw [StudioState.durableState, StudioState.configuration, StudioState.tables, hruntime] at hs
        exact ht hs

/-- While the colleague is stopped only a use that is under way is carried out. -/
theorem quiet_of_stopped {s t : StudioState} {a : StudioAction}
    (hreachable : (studio ports zones).Reachable s) (h : s.exec ports zones a = .ok t)
    (hs : s.durableState = some .stopped) (hidle : ¬s.UseUnderWay) :
    s.runtime.effects.tables.Quiet t.runtime.effects.tables := by
  have hruntime := StudioState.runtime_of_exec h
  cases a with
  | commitSemanticDecision claim semantic =>
    have hexec : s.runtime.exec studioHooks (.commitSemanticDecision claim semantic) =
      .ok t.runtime := hruntime
    refine quiet_of_runtime hexec (fun _ _ _ => ?_) (by simp) (by simp)
    simp only [RuntimeState.exec, bind_eq_ok, pure_eq_ok] at hexec
    obtain ⟨_, _, store, hstore, ht⟩ := hexec
    obtain ⟨_, prepared, _, _, _, proposals, _, hprepared, _, _, hproposals, _, rfl⟩ :=
      RuntimeStore.commitSemanticDecision_eq_ok studioHooks hstore
    obtain ⟨active, hactive, hcase⟩ := StudioTables.prepareSemanticDecision_eq_ok claim hprepared
    obtain ⟨policy, rfl, hpolicy⟩ := stopped_of_durableState hreachable hs hactive
    rcases hcase with ⟨hrunning, _⟩ | ⟨_, _, _, hnone, _⟩
    · exact absurd hpolicy (hrunning policy rfl)
    · rw [RuntimeStore.insertProposal, hnone] at hproposals
      rw [← ht]
      exact (Except.ok.inj hproposals).symm
  | commitApproval i cmd =>
    simp only [StudioState.exec, StudioState.process, bind_eq_ok, orFail_eq_ok, require_eq_ok,
      exists_const] at h
    obtain ⟨review, hreview, hready, ⟨_, hchoice⟩, _⟩ := h
    refine quiet_of_runtime hruntime (by simp [StudioState.runtimeAction]) ?_
      (by simp [StudioState.runtimeAction])
    intro cmd' heq happroves
    obtain rfl := RuntimeAction.commitApprovalAndAttempt.inj heq
    exact hidle (.inl ⟨review, List.mem_of_getElem? hreview, hchoice ▸ happroves, hready⟩)
  | startDispatch i occurredAt =>
    simp only [StudioState.exec, StudioState.process, bind_eq_ok, orFail_eq_ok, require_eq_ok,
      exists_const] at h
    obtain ⟨dispatch, hdispatch, hphase, _⟩ := h
    exact absurd (.inr ⟨dispatch, List.mem_of_getElem? hdispatch, by simp [hphase]⟩) hidle
  | effect action =>
    obtain ⟨_, hnot⟩ := StudioState.execEffect_eq_ok h
    refine quiet_of_runtime hruntime (by simp [StudioState.runtimeAction])
      (by simp [StudioState.runtimeAction]) fun claim occurredAt heq => ?_
    exact hnot claim occurredAt (RuntimeAction.effect.inj heq)
  | _ =>
    exact quiet_of_runtime hruntime (by simp [StudioState.runtimeAction])
      (by simp [StudioState.runtimeAction]) (by simp [StudioState.runtimeAction])

/-- In a run whose stops find no use under way, and which takes up no proposal
    without a policy while it is stopped, no step of a stopped colleague stores a
    proposal, records an approving decision or starts an attempt. -/
theorem stop_effective {s : StudioState} {tr : List StudioStep}
    (h : (studio ports zones).Path .initial tr s) (hstops : ∀ e ∈ tr, StopsIdle e)
    (hbound : ∀ e ∈ tr, ApprovesBound e) : ∀ e ∈ tr, e.source.durableState = some .stopped →
      e.source.runtime.effects.tables.Quiet e.target.runtime.effects.tables := by
  intro e he hstopped
  obtain ⟨before, after, rfl⟩ := List.mem_iff_append.mp he
  obtain ⟨hbefore, hstep, _⟩ := h.of_append_cons
  have hidle := idle_of_path hbefore (fun x hx => hstops x (by simp [hx]))
    (fun x hx => hbound x (by simp [hx])) hstopped
  exact quiet_of_stopped (hbefore.reachable (.init rfl)) hstep hstopped hidle

-- ════════════════════════════════════════════════════════════════════════
-- Stops between a check and its write
-- ════════════════════════════════════════════════════════════════════════

/-- The sample trigger ingested and materialized, and its agenda item claimed. -/
def samplePursued : List (StudioState → StudioAction) :=
  [sampleIngestion 210, fun _ => .agenda (.claimTrigger sampleWorker.principalId 220 900),
    fun s => match s.runtime.agenda.triggerClaims.getLast? with
      | none => .abandonReview 0
      | some claim => .agenda (.materializeAgenda claim (stableId "wake-1") (stableId "agenda-1")
          sampleWorker 230),
    fun _ => .agenda (.claimAgenda sampleWorker.principalId 240 900)]

theorem sampleProposes_effect : DecisionKind.proposeEffect = .proposeEffect ↔
    (some (stableId "proposal-1")).isSome := by decide

/-- The sample proposal bound to the active policy, about the item claimed last. -/
def sampleProposes (s : StudioState) : StudioAction :=
  let policy := s.activePolicy.map fun p => ⟨p.policyId, p.revision⟩
  match s.runtime.agenda.agendaClaims.getLast? with
  | none => .abandonReview 0
  | some claim => .commitSemanticDecision claim
    { outcome := .proposal
      decision :=
        { decisionId := stableId "decision-1"
          wakeCycleId := claim.agendaItem.wakeCycleId
          agendaItemId := claim.agendaItem.agendaItemId
          kind := .proposeEffect
          rationale := "a reply is due"
          proposedEffectId := some (stableId "proposal-1")
          actor := sampleModel
          correlationId := stableId "correlation-1"
          occurredAt := 250
          revision := 1
          policy := policy
          effect_iff := sampleProposes_effect }
      proposal := some { sampleProposal with policy := policy }
      requestId := stableId "request-1"
      proposal_iff := by simp }

theorem sampleAdmin_human : sampleAdmin.kind = .human := by decide

/-- The approval of the sample proposal by the first Admin. -/
def sampleApproves : ApprovalCommand :=
  { sampleApproval with
    decision := { sampleApproval.decision with
      author := sampleAdmin
      author_human := sampleAdmin_human } }

/-- A proposal under a policy with one wake a day. -/
def sampleProposed : List (StudioState → StudioAction) :=
  sampleBudgeted 1 ++ [fun _ => .assignWork sampleWork, sampleAdmission 200] ++ samplePursued ++
    [sampleProposes]

/-- The budget stops the colleague between the review of a proposal and its approval. -/
def sampleOvertaken : List (StudioState → StudioAction) :=
  sampleProposed ++
    [fun _ => .reviewProposal (stableId "proposal-1") .approve, fun _ => .reviewRunState 0,
      sampleAdmit (stableId "event-2") 260, fun _ => .commitApproval 0 sampleApproves]

/-- A first policy stops the colleague before a proposal without one is approved. -/
def sampleUnbound : List (StudioState → StudioAction) :=
  sampleGoverned sampleEmployed ++ [fun _ => .assignWork sampleWork] ++ samplePursued ++
    [sampleProposes] ++ sampleGoverned (sampleRevision 1 (stableId "draft-1") stopEdit) ++
    [fun _ => .reviewProposal (stableId "proposal-1") .approve,
      fun _ => .commitApproval 0 sampleApproves]

/-- The budget stops the colleague before a decision with a proposal is committed. -/
def sampleRefused : List (StudioState → StudioAction) :=
  sampleBudgeted 1 ++ [fun _ => .assignWork sampleWork, sampleAdmission 200] ++ samplePursued ++
    [sampleAdmit (stableId "event-2") 260, sampleProposes]

/-- A step approves the sample proposal while the colleague is stopped. -/
def approvesStopped (e : StudioStep) : Bool :=
  let id := sampleApproves.decision.approvalDecisionId
  decide (e.source.durableState = some .stopped) &&
    (e.source.runtime.effects.tables.approvals.find? id).isNone &&
    (e.target.runtime.effects.tables.approvals.find? id).any fun d => decide (d.choice = .approve)

theorem not_quiet_of_approvesStopped {e : StudioStep} (h : approvesStopped e = true) :
    e.source.durableState = some .stopped ∧
      ¬e.source.runtime.effects.tables.Quiet e.target.runtime.effects.tables := by
  simp only [approvesStopped, Bool.and_eq_true, decide_eq_true_eq, Option.isNone_iff_eq_none,
    Option.any_eq_true] at h
  obtain ⟨⟨hstopped, hnone⟩, decision, hfound, happroves⟩ := h
  refine ⟨hstopped, fun hquiet => ?_⟩
  exact absurd (hnone.symm.trans (hquiet.approvals _ decision hfound happroves)) (by simp)

set_option maxRecDepth 8000 in
theorem stop_effective_refused :
    ∃ tr s, (studio samplePorts sampleZones).Path .initial tr s ∧
      ∃ e ∈ tr, e.source.durableState = some .stopped ∧
        e.source.runtime.effects.tables.Quiet e.target.runtime.effects.tables := by
  obtain ⟨tr, s, hpath, hp⟩ := exists_studio_path samplePorts sampleZones sampleRefused
    (fun tr _ => tr.all (fun e => decide (StopsIdle e) && decide (ApprovesBound e)) &&
      tr.any fun e => decide (e.source.durableState = some .stopped)) (by decide +kernel)
  simp only [Bool.and_eq_true, List.all_eq_true, List.any_eq_true, decide_eq_true_eq] at hp
  obtain ⟨hheeds, e, he, hstopped⟩ := hp
  exact ⟨tr, s, hpath, e, he, hstopped, stop_effective hpath (fun x hx => (hheeds x hx).1)
    (fun x hx => (hheeds x hx).2) e he hstopped⟩

set_option maxRecDepth 8000 in
/-- An approving decision can be recorded for a stopped colleague: after a stop
    that found its review under way, and for a proposal without a policy. -/
theorem stop_effective_overtaken :
    (¬∀ tr s, (studio samplePorts sampleZones).Path .initial tr s →
      (∀ e ∈ tr, ApprovesBound e) → ∀ e ∈ tr, e.source.durableState = some .stopped →
        e.source.runtime.effects.tables.Quiet e.target.runtime.effects.tables) ∧
    ¬∀ tr s, (studio samplePorts sampleZones).Path .initial tr s →
      (∀ e ∈ tr, StopsIdle e) → ∀ e ∈ tr, e.source.durableState = some .stopped →
        e.source.runtime.effects.tables.Quiet e.target.runtime.effects.tables := by
  constructor
  · intro hclaim
    obtain ⟨tr, s, hpath, hp⟩ := exists_studio_path samplePorts sampleZones sampleOvertaken
      (fun tr _ => tr.all (fun e => decide (ApprovesBound e)) && tr.any approvesStopped)
      (by decide +kernel)
    simp only [Bool.and_eq_true, List.all_eq_true, List.any_eq_true, decide_eq_true_eq] at hp
    obtain ⟨hbound, e, he, happroves⟩ := hp
    obtain ⟨hstopped, hnot⟩ := not_quiet_of_approvesStopped happroves
    exact hnot (hclaim tr s hpath hbound e he hstopped)
  · intro hclaim
    obtain ⟨tr, s, hpath, hp⟩ := exists_studio_path samplePorts sampleZones sampleUnbound
      (fun tr _ => tr.all (fun e => decide (StopsIdle e)) && tr.any approvesStopped)
      (by decide +kernel)
    simp only [Bool.and_eq_true, List.all_eq_true, List.any_eq_true, decide_eq_true_eq] at hp
    obtain ⟨hstops, e, he, happroves⟩ := hp
    obtain ⟨hstopped, hnot⟩ := not_quiet_of_approvesStopped happroves
    exact hnot (hclaim tr s hpath hstops e he hstopped)

end DigitalColleagues
