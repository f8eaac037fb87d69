import DigitalColleagues.Studio.Budget

/-!
# What a step can do to the processes under way

Besides the store a state knows the triggers that were admitted, the reviews of
proposals and the dispatches between their first read and their last write. A
step moves one of them at most.

## Main definitions

- `StudioState.Proceeds` — the moves of the processes, with what they checked
-/

namespace DigitalColleagues

open Keyed

variable {ports : GovernancePorts} {zones : TimeZones}

namespace StudioState

/-- The moves of the processes under way, with what their step checked. -/
inductive Proceeds (zones : TimeZones) (s t : StudioState) : StudioAction → Prop
  | frame {a : StudioAction} : t.admitted = s.admitted → t.reviews = s.reviews →
      t.dispatches = s.dispatches → Proceeds zones s t a
  | admitted {cmd : AdmitTriggerCommand} {admission : PolicyAdmission} {admitted : AdmissionTables}
      {configuration : BuilderTables} : s.admissionOf zones cmd = .ok (admission, admitted, configuration) →
      admission.accepted = true →
      t.tables = { s.tables with admission := admitted }.withConfiguration configuration →
      t.admitted = s.admitted ++ [cmd] → t.reviews = s.reviews → t.dispatches = s.dispatches →
      Proceeds zones s t (.admitTrigger cmd)
  | review {proposalId : StableId} {choice : ApprovalChoice} {proposal : EffectProposal}
      {policy : Option ColleaguePolicy} :
      s.runtime.effects.tables.proposals.find? proposalId = some proposal →
      (proposal.policy ≠ none → s.tables.requireBoundPolicy proposal = .ok policy) →
      t.admitted = s.admitted → t.reviews = s.reviews ++ [⟨proposal, choice, policy⟩] →
      t.dispatches = s.dispatches → Proceeds zones s t (.reviewProposal proposalId choice)
  | reviewed {i : ℕ} {review : Review} {active : ColleaguePolicy} :
      s.reviews[i]? = some review → review.policy = some active →
      s.tables.requireRunning active = .ok () → t.admitted = s.admitted →
      t.reviews = s.reviews.set i { review with policy := none } →
      t.dispatches = s.dispatches → Proceeds zones s t (.reviewRunState i)
  | decide {a : StudioAction} {i : ℕ} : t.admitted = s.admitted →
      t.reviews = s.reviews.eraseIdx i → t.dispatches = s.dispatches → Proceeds zones s t a
  | load {claim : OutboxClaim} {mandateId : StableId} {bundle : DispatchBundle} :
      s.runtime.store.loadDispatchBundle studioHooks claim mandateId = .ok bundle →
      t.admitted = s.admitted → t.reviews = s.reviews →
      t.dispatches = s.dispatches ++ [⟨claim, bundle, .loaded⟩] →
      Proceeds zones s t (.loadDispatch claim mandateId)
  | validate {i : ℕ} {mandateId : StableId} {evaluatedAt : Instant} {dispatch : Dispatch}
      {mandate : Mandate} : s.dispatches[i]? = some dispatch → dispatch.phase = .loaded →
      s.configuration.mandates.find? mandateId = some mandate →
      dispatch.bundle.validate mandate evaluatedAt = .ok () → t.admitted = s.admitted →
      t.reviews = s.reviews →
      t.dispatches = s.dispatches.set i { dispatch with phase := .mandateChecked } →
      Proceeds zones s t (.validateDispatch i mandateId evaluatedAt)
  | authorizePolicy {i : ℕ} {dispatch : Dispatch} {active : Option ColleaguePolicy} :
      s.dispatches[i]? = some dispatch → dispatch.phase = .mandateChecked →
      s.tables.requireBoundPolicy dispatch.bundle.proposal = .ok active →
      t.admitted = s.admitted → t.reviews = s.reviews →
      t.dispatches = s.dispatches.set i
        { dispatch with phase := active.elim .policyChecked .policyRead } →
      Proceeds zones s t (.authorizePolicy i)
  | authorizeRunState {i : ℕ} {dispatch : Dispatch} {active : ColleaguePolicy} :
      s.dispatches[i]? = some dispatch → dispatch.phase = .policyRead active →
      s.tables.requireRunning active = .ok () → t.admitted = s.admitted → t.reviews = s.reviews →
      t.dispatches = s.dispatches.set i { dispatch with phase := .policyChecked } →
      Proceeds zones s t (.authorizeRunState i)
  | authorizeBinding {i : ℕ} {evaluatedAt : Instant} {dispatch : Dispatch}
      {binding : EffectApprovalBinding} :
      s.dispatches[i]? = some dispatch → dispatch.phase = .policyChecked →
      s.tables.requireApprovalBinding dispatch.bundle.approval.approvalDecisionId evaluatedAt =
        .ok binding →
      t.admitted = s.admitted → t.reviews = s.reviews →
      t.dispatches = s.dispatches.set i { dispatch with phase := .bindingRead binding } →
      Proceeds zones s t (.authorizeBinding i evaluatedAt)
  | authorizePrincipal {i : ℕ} {dispatch : Dispatch} {binding : EffectApprovalBinding}
      {principal : Principal} :
      s.dispatches[i]? = some dispatch → dispatch.phase = .bindingRead binding →
      s.tables.tenant.getPrincipal binding.principalId = .ok principal →
      t.admitted = s.admitted → t.reviews = s.reviews →
      t.dispatches = s.dispatches.set i
        { dispatch with phase := .principalRead binding principal } →
      Proceeds zones s t (.authorizePrincipal i)
  | authorizeMembership {i : ℕ} {dispatch : Dispatch} {binding : EffectApprovalBinding}
      {principal : Principal} :
      s.dispatches[i]? = some dispatch → dispatch.phase = .principalRead binding principal →
      s.tables.requireCurrentApprover binding principal = .ok () →
      t.admitted = s.admitted → t.reviews = s.reviews →
      t.dispatches = s.dispatches.set i { dispatch with phase := .approvalChecked } →
      Proceeds zones s t (.authorizeMembership i)
  | close {a : StudioAction} {i : ℕ} : t.admitted = s.admitted → t.reviews = s.reviews →
      t.dispatches = s.dispatches.eraseIdx i → Proceeds zones s t a

theorem Proceeds.of_execRuntime {s t : StudioState} {action : RuntimeAction StudioTables}
    (h : s.execRuntime action = .ok t) (a : StudioAction) : s.Proceeds zones t a := by
  obtain ⟨-, ht⟩ := execRuntime_eq_ok h
  exact .frame (by rw [ht]) (by rw [ht]) (by rw [ht])

/-- Every step moves the processes under way in one of these ways. -/
theorem proceeds_of_exec {s t : StudioState} {a : StudioAction}
    (h : s.exec ports zones a = .ok t) : s.Proceeds zones t a := by
  cases a with
  | governance action =>
    simp only [exec, bind_eq_ok, pure_eq_ok] at h
    obtain ⟨_, _, rfl⟩ := h
    exact .frame rfl rfl rfl
  | assignWork work =>
    simp only [exec, pure_eq_ok] at h
    subst h
    exact .frame rfl rfl rfl
  | admitTrigger cmd =>
    simp only [exec, bind_eq_ok, pure_eq_ok, Prod.exists] at h
    obtain ⟨admission, _, _, hadmit, rfl⟩ := h
    by_cases haccepted : admission.accepted = true
    · exact .admitted hadmit haccepted rfl (if_pos haccepted) rfl rfl
    · exact .frame (if_neg haccepted) rfl rfl
  | ingestEvent event idempotencyKey triggerId =>
    simp only [exec, bind_eq_ok, require_eq_ok, exists_const] at h
    exact .of_execRuntime h.2 _
  | ingestTimer occurrence idempotencyKey triggerId =>
    simp only [exec, bind_eq_ok, require_eq_ok, exists_const] at h
    exact .of_execRuntime h.2 _
  | agenda action => exact .of_execRuntime (execAgenda_eq_ok h) _
  | recordPolicyOutcome record =>
    simp only [exec, bind_eq_ok, require_eq_ok, exists_const, pure_eq_ok] at h
    obtain ⟨_, _, _, rfl⟩ := h
    exact .frame rfl rfl rfl
  | commitSemanticDecision claim semantic => exact .of_execRuntime h _
  | reviewProposal proposalId choice =>
    simp only [exec, Records.getRecord, bind_eq_ok, orFail_eq_ok] at h
    obtain ⟨proposal, hproposal, h⟩ := h
    split at h
    · simp only [bind_eq_ok, pure_eq_ok] at h
      obtain ⟨_, hcheck, rfl⟩ := h
      exact .review hproposal (fun _ => hcheck) rfl rfl rfl
    · rename_i hpolicy
      simp only [bind_eq_ok, pure_eq_ok] at h
      obtain ⟨_, _, rfl⟩ := h
      exact .review hproposal (fun hne => absurd hne hpolicy) rfl rfl rfl
  | reviewRunState i =>
    simp only [exec, process, bind_eq_ok, orFail_eq_ok, pure_eq_ok] at h
    obtain ⟨review, hreview, active, hactive, _, hcheck, rfl⟩ := h
    exact .reviewed hreview hactive hcheck rfl rfl rfl
  | commitApproval i cmd =>
    simp only [exec, bind_eq_ok, require_eq_ok, exists_const, pure_eq_ok] at h
    obtain ⟨_, _, _, _, u, hu, rfl⟩ := h
    obtain ⟨-, hframe⟩ := execRuntime_eq_ok hu
    exact .decide (by rw [hframe]) (by rw [hframe]) (by rw [hframe])
  | abandonReview i =>
    obtain rfl := Except.ok.inj h
    exact .decide rfl rfl rfl
  | effect action => exact .of_execRuntime (execEffect_eq_ok h).1 _
  | loadDispatch claim mandateId =>
    simp only [exec, bind_eq_ok, pure_eq_ok] at h
    obtain ⟨_, _, bundle, hbundle, rfl⟩ := h
    exact .load hbundle rfl rfl rfl
  | validateDispatch i mandateId evaluatedAt =>
    simp only [exec, process, Records.getRecord, bind_eq_ok, orFail_eq_ok, require_eq_ok,
      exists_const, pure_eq_ok] at h
    obtain ⟨dispatch, hdispatch, hphase, mandate, hmandate, _, hvalid, rfl⟩ := h
    exact .validate hdispatch hphase hmandate hvalid rfl rfl rfl
  | authorizePolicy i =>
    simp only [exec, process, bind_eq_ok, orFail_eq_ok, require_eq_ok, exists_const,
      pure_eq_ok] at h
    obtain ⟨dispatch, hdispatch, hphase, _, hcheck, rfl⟩ := h
    exact .authorizePolicy hdispatch hphase hcheck rfl rfl rfl
  | authorizeRunState i =>
    simp only [exec, process, bind_eq_ok, orFail_eq_ok] at h
    obtain ⟨dispatch, hdispatch, h⟩ := h
    split at h
    · rename_i hphase
      simp only [bind_eq_ok, pure_eq_ok] at h
      obtain ⟨_, hcheck, rfl⟩ := h
      exact .authorizeRunState hdispatch hphase hcheck rfl rfl rfl
    · cases h
  | authorizeBinding i evaluatedAt =>
    simp only [exec, process, bind_eq_ok, orFail_eq_ok, require_eq_ok, exists_const,
      pure_eq_ok] at h
    obtain ⟨dispatch, hdispatch, hphase, _, hcheck, rfl⟩ := h
    exact .authorizeBinding hdispatch hphase hcheck rfl rfl rfl
  | authorizePrincipal i =>
    simp only [exec, process, bind_eq_ok, orFail_eq_ok] at h
    obtain ⟨dispatch, hdispatch, h⟩ := h
    split at h
    · rename_i hphase
      simp only [bind_eq_ok, pure_eq_ok] at h
      obtain ⟨_, hprincipal, rfl⟩ := h
      exact .authorizePrincipal hdispatch hphase hprincipal rfl rfl rfl
    · cases h
  | authorizeMembership i =>
    simp only [exec, process, bind_eq_ok, orFail_eq_ok] at h
    obtain ⟨dispatch, hdispatch, h⟩ := h
    split at h
    · rename_i hphase
      simp only [bind_eq_ok, pure_eq_ok] at h
      obtain ⟨_, hcheck, _, _, rfl⟩ := h
      exact .authorizeMembership hdispatch hphase hcheck rfl rfl rfl
    · cases h
  | startDispatch i occurredAt =>
    simp only [exec, bind_eq_ok, require_eq_ok, exists_const, pure_eq_ok] at h
    obtain ⟨_, _, _, u, hu, rfl⟩ := h
    obtain ⟨-, hframe⟩ := execRuntime_eq_ok hu
    exact .close (by rw [hframe]) (by rw [hframe]) (by rw [hframe])
  | abandonDispatch i =>
    obtain rfl := Except.ok.inj h
    exact .close rfl rfl rfl

end StudioState

end DigitalColleagues
