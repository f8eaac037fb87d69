import DigitalColleagues.Runtime.Containment
import DigitalColleagues.Runtime.Quiescence

/-!
# Isolation of the colleagues

The worker loop goes on after a conflict or a refusal. What a cycle can raise
besides comes from its records: a trigger whose projection fits no item, or an
effect that is not in force any more when its turn comes.

## Main definitions

- `Worker.TypedPorts` — ports that answer, or fail as their types say
- `RuntimeStore.InForce` — the records of an effect still authorize it
- `Worker.Undisturbed` — what the next cycle picks up is in order

## Main results

- `processOnce_contained` — an undisturbed cycle raises conflicts and refusals only
- `runOnce_calls_all` — the loop comes to every active namespace
- `runOnce_stopped` — an expired approval stops it
-/

namespace DigitalColleagues

open Keyed AgendaTables DurableRecord Outcome

-- ════════════════════════════════════════════════════════════════════════
-- Ports
-- ════════════════════════════════════════════════════════════════════════

section Ports

variable {ε : Type}

/-- The mandates and the principals are the same. -/
structure StoreHooks.SameAuthority (hooks : StoreHooks ε) (rest rest' : ε) : Prop where
  mandate : hooks.findMandate rest' = hooks.findMandate rest
  principal : hooks.findPrincipal rest' = hooks.findPrincipal rest

namespace StoreHooks.SameAuthority

variable {hooks : StoreHooks ε} {a b c : ε}

theorem refl (a : ε) : hooks.SameAuthority a a := ⟨Eq.refl _, Eq.refl _⟩

theorem trans (h : hooks.SameAuthority a b) (h' : hooks.SameAuthority b c) :
    hooks.SameAuthority a c :=
  ⟨h'.mandate.trans h.mandate, h'.principal.trans h.principal⟩

end StoreHooks.SameAuthority

/-- Ports that answer as their types say. They write neither mandates nor
    principals; the intelligence fails with an adapter failure, and a refusal of the
    store class or of the authorizer is one that the loop catches. -/
structure Worker.TypedPorts (w : Worker ε) : Prop where
  intelligence : ∀ n store request,
    w.hooks.SameAuthority store.rest (w.intelligence n store request).2
  failure : ∀ n store request raised, (w.intelligence n store request).1 = .error raised →
    raised.contained = true ∨ ∃ failure, raised = .adapter failure
  encodable : ∀ n store request returned, (w.intelligence n store request).1 = .ok returned →
    returned.toSemanticDecision ≠ none
  prepares : ∀ store claim semantic,
    Caught (w.hooks.prepareSemanticDecision store claim semantic)
  prepared : ∀ store claim semantic prepared,
    w.hooks.prepareSemanticDecision store claim semantic = .ok prepared →
    w.hooks.SameAuthority store.rest prepared.2
  authorizer : ∀ n store proposal approval,
    w.hooks.SameAuthority store.rest (w.policyAuthorizer n store proposal approval).2
  refusal : ∀ n store proposal approval raised,
    (w.policyAuthorizer n store proposal approval).1 = .error raised → raised.contained = true
  channelApply : ∀ n effect, ∃ outcome, w.channelApply n effect = .ok outcome
  channelReconcile : ∀ n key digest, ∃ outcome, w.channelReconcile n key digest = .ok outcome

end Ports

-- ════════════════════════════════════════════════════════════════════════
-- Contained procedures
-- ════════════════════════════════════════════════════════════════════════

namespace Worker

variable {ε α β : Type} {w : Worker ε} {s t : WorkerState ε}

/-- What the procedure raises is caught by the worker loop. -/
abbrev Contained (x : WorkerProcess ε α) (s : WorkerState ε) : Prop :=
  Process.RaisesOnly (fun raised => Raised.contained raised = true) x s

theorem raised_contained {x : Outcome α} (h : x.Caught) {raised : Raised}
    (he : x.raised = .error raised) : raised.contained = true := by
  cases x with
  | ok a => exact absurd he (by simp [Outcome.raised])
  | error failure =>
    obtain rfl := Except.error.inj he
    exact h failure rfl

theorem contained_now : Contained w.now s := Process.raisesOnly_of_ok rfl

theorem contained_read {f : RuntimeStore ε → Outcome α} (h : (f s.runtime.store).Caught) :
    Contained (read f) s :=
  fun _ _ he => raised_contained h (Prod.mk.inj he).1

theorem contained_check {c : Prop} [Decidable c] {e : Failure} (h : e.contained = true) :
    Contained (check c e) s :=
  Process.raisesOnly_lift (fun _ he => raised_contained (contained_require h) he) s

theorem contained_transact {action : RuntimeAction ε} {result : RuntimeState ε → Outcome α}
    (hexec : (s.runtime.exec w.hooks action).Caught) (hresult : (result s.runtime).Caught) :
    Contained (w.transact action result) s := by
  intro raised t he
  unfold transact at he
  split at he
  · exact raised_contained hresult (Prod.mk.inj he).1
  · rename_i failure hfailure
    obtain rfl := Except.error.inj (Prod.mk.inj he).1
    exact hexec failure hfailure

theorem contained_execute {action : RuntimeAction ε}
    (h : (s.runtime.exec w.hooks action).Caught) : Contained (w.execute action) s :=
  contained_transact h (contained_ok _)

/-- A transaction that returns nothing raises what its step does, and nothing happened. -/
theorem execute_eq_error {action : RuntimeAction ε} {raised : Raised}
    (h : w.execute action s = (.error raised, t)) :
    t = s ∧ ∃ failure, s.runtime.exec w.hooks action = .error failure ∧ raised = .core failure := by
  unfold execute transact at h
  split at h
  · exact absurd h (by simp [Outcome.raised])
  · rename_i failure hfailure
    obtain ⟨hraised, rfl⟩ := Prod.mk.inj h
    exact ⟨rfl, failure, hfailure, (Except.error.inj hraised).symm⟩

/-- A port answers after what it wrote is committed. -/
theorem callPort_eq (port : ℕ → RuntimeStore ε → Except Raised α × ε) (s : WorkerState ε) :
    w.callPort port s = ((port s.clockReads s.runtime.store).1,
      ⟨{ s.runtime with rest := (port s.clockReads s.runtime.store).2 }, s.clockReads⟩) := rfl

theorem contained_callPort {port : ℕ → RuntimeStore ε → Except Raised α × ε}
    (h : ∀ raised, (port s.clockReads s.runtime.store).1 = .error raised →
      raised.contained = true) : Contained (w.callPort port) s :=
  fun raised _ he => h raised (Prod.mk.inj he).1

theorem contained_callChannel {channel : ℕ → Except Raised α}
    (h : ∃ answer, channel s.clockReads = .ok answer) : Contained (callChannel channel) s := by
  obtain ⟨answer, h⟩ := h
  exact Process.raisesOnly_of_ok (show callChannel channel s = (.ok answer, s) by
    rw [callChannel, h])

/-- A claim just handed out was issued. -/
theorem contained_requireIssued {γ : Type} [DecidableEq γ] {claim : γ} {issued : List γ}
    (h : claim ∈ issued) : (requireIssued claim issued).Caught :=
  contained_of_exists ⟨(), require_eq_ok.mpr h⟩

end Worker

-- ════════════════════════════════════════════════════════════════════════
-- The wake
-- ════════════════════════════════════════════════════════════════════════

/-- A claim whose generation can be decided or given back. -/
structure AgendaSide.Held (s : AgendaSide) (claim : AgendaClaim) : Prop where
  issued : claim ∈ s.agendaClaims
  releasable : s.tables.Releasable claim
  wake : ∃ wake, s.tables.wakeCycles.find? claim.agendaItem.wakeCycleId = some wake

section Wake

variable {ε : Type} {w : Worker ε} {context : ServiceRuntimeContext} {s t : WorkerState ε}

/-- A row that was just claimed is live. -/
theorem liveItem_of_claimAgenda {s t : AgendaTables} {owner : StableId} {now leaseUntil : Instant}
    {claim : AgendaClaim} (h : s.claimAgenda owner now leaseUntil = .ok (some claim, t)) :
    t.LiveItem claim := by
  rcases AgendaTables.claimAgenda_eq_ok h with ⟨_, hnone, _⟩ |
    ⟨row, existing, selected, _, hrow, hexisting, hselected, _, hclaim, rfl⟩
  · exact absurd hnone (by simp)
  · obtain rfl := Option.some.inj hclaim
    have hid : selected.agendaItemId = row.agendaItemId := by
      rw [hselected]
      exact agendaItemId_of_find? hexisting
    have hfind := Table.find?_of_mem (Table.selectMin_mem hrow).1
    refine ⟨row.select owner leaseUntil, ?_, rfl⟩
    show ((AgendaRow.passOverAll s.agendaRuntime row.agendaItemId).replace _).find?
      selected.agendaItemId = _
    rw [hid]
    refine Table.find?_replace_self (x := row) ?_
    show (AgendaRow.passOverAll s.agendaRuntime row.agendaItemId).find? row.agendaItemId = _
    rw [AgendaRow.find?_passOverAll]
    show (s.agendaRuntime.find? (key row)).map _ = _
    rw [hfind]
    simp

theorem held_of_claimAgenda {owner : StableId} {now leaseUntil : Instant} {claim : AgendaClaim}
    (hreachable : (runtime w.hooks).Reachable s.runtime)
    (h : w.claimAgenda owner now leaseUntil s = (.ok (some claim), t)) :
    t.runtime.agenda.Held claim := by
  have hclaimed : (runtime w.hooks).Reachable t.runtime :=
    ((Worker.follows_transact (A := fun _ _ => True) (fun _ => trivial) _).of_eq h).reachable
      hreachable
  rcases Worker.claimAgenda_eq_ok h with ⟨hnone, _⟩ | ⟨issued, tables, hissued, hclaim, rfl⟩
  · exact absurd hnone (by simp)
  · obtain rfl := Option.some.inj hissued
    have hmem : claim ∈ s.runtime.agenda.agendaClaims ++ [claim] := by simp
    obtain ⟨wake, hwake, _⟩ := (generations_of_reachable hclaimed).2.2.claimed claim hmem
    exact ⟨hmem, ⟨synced_of_reachable hclaimed, (sourced_of_reachable hclaimed).title,
      liveItem_of_claimAgenda hclaim⟩, wake, hwake⟩

theorem contained_commit {claim : AgendaClaim} {semantic : SemanticDecision}
    (hports : w.TypedPorts) (h : s.runtime.agenda.Held claim) :
    Worker.Contained (w.execute (.commitSemanticDecision claim semantic)) s := by
  obtain ⟨wake, hwake⟩ := h.wake
  refine Worker.contained_execute ?_
  refine (Worker.contained_requireIssued h.issued).bind fun _ _ => ?_
  exact (RuntimeStore.commitSemanticDecision_contained (s := s.runtime.store) h.releasable hwake
    (hports.prepares _ _ _)).bind fun _ _ => contained_ok _

theorem contained_release {claim : AgendaClaim} (h : s.runtime.agenda.Held claim) :
    Worker.Contained (w.execute (.agenda (.releaseAgenda claim))) s := by
  refine Worker.contained_execute (Caught.bind ?_ fun _ _ => contained_ok _)
  refine (Worker.contained_requireIssued h.issued).bind fun _ _ => ?_
  exact (releaseAgenda_contained h.releasable).bind fun _ _ => contained_ok _

/-- The steps of a wake write neither mandates nor principals. -/
def WakeStep (hooks : StoreHooks ε) (s : RuntimeState ε) : RuntimeAction ε → Prop
  | .agenda _ | .commitSemanticDecision _ _ => True
  | .environment rest => hooks.SameAuthority s.rest rest
  | _ => False

theorem Worker.TypedPorts.wakeActions (hports : w.TypedPorts) :
    w.WakeActions (WakeStep w.hooks) :=
  ⟨fun _ _ => trivial, fun _ _ _ => trivial, fun n s request =>
    hports.intelligence n s.store request⟩

/-- What a wake leaves as it is: the effects other than new proposals, and the
    authority over them. -/
structure KeepsEffects (hooks : StoreHooks ε) (s t : RuntimeState ε) : Prop where
  authority : hooks.SameAuthority s.rest t.rest
  outbox : t.effects.tables.outbox = s.effects.tables.outbox
  approvals : t.effects.tables.approvals = s.effects.tables.approvals
  proposals : ∀ id proposal, s.effects.tables.proposals.find? id = some proposal →
    t.effects.tables.proposals.find? id = some proposal

theorem KeepsEffects.refl (hooks : StoreHooks ε) (s : RuntimeState ε) : KeepsEffects hooks s s :=
  ⟨.refl _, rfl, rfl, fun _ _ h => h⟩

theorem KeepsEffects.trans {hooks : StoreHooks ε} {s t u : RuntimeState ε}
    (h : KeepsEffects hooks s t) (h' : KeepsEffects hooks t u) : KeepsEffects hooks s u :=
  ⟨h.authority.trans h'.authority, h'.outbox.trans h.outbox, h'.approvals.trans h.approvals,
    fun id p hp => h'.proposals id p (h.proposals id p hp)⟩

theorem keepsEffects_of_step (hports : w.TypedPorts) {s t : RuntimeState ε} {a : RuntimeAction ε}
    (h : ((runtime w.hooks).restrict (WakeStep w.hooks)).step s a t) :
    KeepsEffects w.hooks s t := by
  obtain ⟨hexec, hstep⟩ := h
  replace hexec : s.exec w.hooks a = .ok t := hexec
  cases a with
  | agenda action =>
    simp only [RuntimeState.exec, bind_eq_ok, pure_eq_ok] at hexec
    obtain ⟨_, _, rfl⟩ := hexec
    exact ⟨.refl _, rfl, rfl, fun _ _ h => h⟩
  | commitSemanticDecision claim semantic =>
    simp only [RuntimeState.exec, bind_eq_ok, pure_eq_ok] at hexec
    obtain ⟨_, _, store, hstore, rfl⟩ := hexec
    obtain ⟨_, prepared, rest, _, _, proposals, _, hprepared, _, _, hproposals, _, rfl⟩ :=
      RuntimeStore.commitSemanticDecision_eq_ok w.hooks hstore
    refine ⟨hports.prepared _ _ _ _ hprepared, rfl, rfl, fun id p hp => ?_⟩
    show proposals.find? id = some p
    unfold RuntimeStore.insertProposal at hproposals
    split at hproposals
    · obtain rfl := Except.ok.inj hproposals
      exact hp
    · simp only [bind_eq_ok, require_eq_ok, exists_const] at hproposals
      exact Records.find?_insertRecord_of_some hproposals.2 hp
  | environment rest =>
    obtain rfl := Except.ok.inj hexec
    exact ⟨hstep, rfl, rfl, fun _ _ h => h⟩
  | effect _ => exact hstep.elim
  | commitApprovalAndAttempt _ => exact hstep.elim
  | loadDispatchBundle _ _ => exact hstep.elim

theorem keepsEffects_of_path (hports : w.TypedPorts) {s t : RuntimeState ε}
    {tr : List (Transition (RuntimeState ε) (RuntimeAction ε))}
    (h : ((runtime w.hooks).restrict (WakeStep w.hooks)).Path s tr t) :
    KeepsEffects w.hooks s t := by
  induction h with
  | refl => exact .refl _ _
  | snoc _ hstep ih => exact ih.trans (keepsEffects_of_step hports hstep)

theorem keepsEffects_of_runs (hports : w.TypedPorts)
    (h : w.Runs (WakeStep w.hooks) s t) : KeepsEffects w.hooks s.runtime t.runtime := by
  obtain ⟨_, hpath⟩ := h.path
  exact keepsEffects_of_path hports hpath

namespace WakeService

/-- What the body of the `try` statement raises is an adapter failure or one that the
    loop catches, and the agenda is as it was. -/
theorem decideItem_eq_error {claim : AgendaClaim} {request : IntelligenceRequest}
    {raised : Raised} (hports : w.TypedPorts) (hheld : s.runtime.agenda.Held claim)
    (h : decideItem w claim request s = (.error raised, t)) :
    (raised.contained = true ∨ ∃ failure, raised = .adapter failure) ∧
      t.runtime.agenda = s.runtime.agenda := by
  cases hnoop : request.deterministicNoop with
  | some semantic =>
    simp only [decideItem, hnoop] at h
    obtain ⟨rfl, _⟩ := Worker.execute_eq_error h
    exact ⟨.inl (contained_commit hports hheld _ _ h), rfl⟩
  | none =>
    simp only [decideItem, hnoop, Process.bind_eq, Worker.callPort_eq] at h
    split at h
    · rename_i returned u hcall
      obtain ⟨hreturned, rfl⟩ := Prod.mk.inj hcall
      cases hsemantic : returned.toSemanticDecision with
      | none => exact absurd hsemantic (hports.encodable _ _ _ _ hreturned)
      | some semantic =>
        simp only [commitReturned, hsemantic] at h
        obtain ⟨rfl, _⟩ := Worker.execute_eq_error h
        refine ⟨.inl (contained_commit hports ?_ _ _ h), rfl⟩
        exact hheld
    · rename_i e u hcall
      obtain ⟨hraised, rfl⟩ := Prod.mk.inj hcall
      obtain ⟨he, rfl⟩ := Prod.mk.inj h
      obtain rfl := Except.error.inj he
      exact ⟨hports.failure _ _ _ _ hraised, rfl⟩

theorem processItem_contained {claim : AgendaClaim} (hports : w.TypedPorts)
    (hheld : s.runtime.agenda.Held claim)
    (hmandate : w.hooks.findMandate s.runtime.rest context.mandateId ≠ none) (now : Instant) :
    Worker.Contained (processItem w context claim now) s := by
  obtain ⟨wake, hwake⟩ := hheld.wake
  obtain ⟨mandate, hmandate⟩ := Option.ne_none_iff_exists'.mp hmandate
  refine Process.RaisesOnly.bind (Worker.contained_read (Records.contained_getRecord hwake))
    fun _ t ht => ?_
  obtain ⟨_, rfl⟩ := Worker.read_eq_ok.mp ht
  refine Process.RaisesOnly.bind
    (Worker.contained_read (contained_of_exists ⟨mandate, orFail_eq_ok.mpr hmandate⟩))
    fun _ t ht => ?_
  obtain ⟨_, rfl⟩ := Worker.read_eq_ok.mp ht
  refine Process.raisesOnly_handle fun raised u hraised => ?_
  obtain ⟨hkind, hagenda⟩ := decideItem_eq_error hports hheld hraised
  have hstill : u.runtime.agenda.Held claim := hagenda ▸ hheld
  cases raised with
  | adapter failure => exact contained_commit hports hstill
  | _ =>
    refine Process.RaisesOnly.bind (contained_release hstill) fun _ v _ => ?_
    exact Process.raisesOnly_raise (E := fun raised => Raised.contained raised = true)
      (hkind.resolve_right (by simp)) v

/-- A wake raises conflicts and refusals only. -/
theorem wakeLoop_contained (hports : w.TypedPorts)
    (hreachable : (runtime w.hooks).Reachable s.runtime)
    (hmandate : w.hooks.findMandate s.runtime.rest context.mandateId ≠ none)
    (remaining selected : ℕ) : Worker.Contained (wakeLoop w context remaining selected) s := by
  induction remaining generalizing selected s with
  | zero => exact Process.raisesOnly_pure _ _
  | succ remaining ih =>
    refine Process.RaisesOnly.bind Worker.contained_now fun now t ht => ?_
    obtain ⟨_, rfl⟩ := Worker.now_eq_ok.mp ht
    refine Process.RaisesOnly.bind ?_ fun claim u hclaim => ?_
    · have hclaims : (s.runtime.agenda.tables.claimAgenda ownerId now
          (now + leaseDuration)).Caught :=
        claimAgenda_contained (synced_of_reachable hreachable)
          (sourced_of_reachable hreachable).title _ _ _
      refine Worker.contained_transact ?_ ?_
      · exact Caught.bind (hclaims.bind fun _ _ => contained_ok _) fun _ _ => contained_ok _
      · exact hclaims.bind fun _ _ => contained_ok _
    · cases claim with
      | none => exact Process.raisesOnly_pure _ _
      | some claim =>
        have hfollows : w.Follows (WakeStep w.hooks)
            (w.claimAgenda ownerId now (now + leaseDuration)) :=
          Worker.follows_transact (fun _ => trivial) _
        have hruns := hfollows.of_eq hclaim
        have hheld : u.runtime.agenda.Held claim := by
          refine held_of_claimAgenda ?_ hclaim
          exact hreachable
        have hkept := (keepsEffects_of_runs hports hruns).authority.mandate
        replace hmandate : w.hooks.findMandate u.runtime.rest context.mandateId ≠ none := by
          rw [hkept]
          exact hmandate
        refine Process.RaisesOnly.bind (processItem_contained hports hheld hmandate now)
          fun _ v hitem => ?_
        have hdone := (follows_processItem hports.wakeActions claim now).of_eq hitem
        refine ih ?_ ?_ _
        · exact hdone.reachable (hruns.reachable hreachable)
        · rw [(keepsEffects_of_runs hports hdone).authority.mandate]
          exact hmandate

theorem run_contained (hports : w.TypedPorts) (hreachable : (runtime w.hooks).Reachable s.runtime)
    (hmandate : w.hooks.findMandate s.runtime.rest context.mandateId ≠ none) :
    Worker.Contained (run w context) s := by
  refine Process.RaisesOnly.bind (wakeLoop_contained hports hreachable hmandate _ _) fun _ t _ => ?_
  exact Process.RaisesOnly.bind (Worker.contained_read (contained_ok _)) fun _ u _ =>
    Process.raisesOnly_pure _ u

/-- The materialization raises conflicts only when the next trigger fits an item. -/
theorem materializeNext_contained (hreachable : (runtime w.hooks).Reachable s.runtime)
    (hfits : ∀ claim tables, s.runtime.agenda.tables.claimTrigger ownerId (w.clock s.clockReads)
        (w.clock s.clockReads + leaseDuration) = some (claim, tables) →
      ∀ source, s.runtime.agenda.tables.loadSource claim = .ok source →
        s.runtime.agenda.tables.Materializable source) :
    Worker.Contained (materializeNext w context) s := by
  refine Process.RaisesOnly.bind Worker.contained_now fun now t ht => ?_
  obtain ⟨rfl, rfl⟩ := Worker.now_eq_ok.mp ht
  refine Process.RaisesOnly.bind ?_ fun claim u hclaim => ?_
  · refine Worker.contained_transact (Caught.bind ?_ fun _ _ => contained_ok _) (contained_ok _)
    simp only [AgendaSide.exec]
    split <;> exact contained_ok _
  · have hclaimed : (runtime w.hooks).Reachable u.runtime :=
      ((Worker.follows_transact (A := fun _ _ => True) (fun _ => trivial) _).of_eq
        hclaim).reachable hreachable
    rcases Worker.claimTrigger_eq_ok hclaim with ⟨rfl, _⟩ | ⟨issued, tables, rfl, hissued, rfl⟩
    · exact Process.raisesOnly_pure _ _
    · have hmem : issued ∈ s.runtime.agenda.triggerClaims ++ [issued] := by simp
      obtain ⟨trigger, hlive⟩ := requireTriggerClaim_of_claimTrigger hissued
      obtain ⟨type, row, _, _, _, htables⟩ := claimTrigger_eq_some hissued
      have hsame : ∀ source, tables.loadSource issued = .ok source →
          tables.Materializable source := by
        intro source hsource
        have hfit := hfits issued tables hissued source
        subst htables
        cases type <;> exact hfit hsource
      refine Process.RaisesOnly.bind (Worker.contained_execute ?_) fun _ v _ =>
        Process.raisesOnly_pure _ v
      refine Caught.bind ?_ fun _ _ => contained_ok _
      refine (Worker.contained_requireIssued hmem).bind fun _ _ => ?_
      exact (materializeAgenda_contained hclaimed hmem hlive hsame _ _ _ _).bind
        fun _ _ => contained_ok _

end WakeService

end Wake

-- ════════════════════════════════════════════════════════════════════════
-- The effects
-- ════════════════════════════════════════════════════════════════════════

/-- The records of an effect are in force at a time: its approver is known, and
    neither authority check fails that the comparisons before it let through. -/
structure RuntimeStore.InForce {ε : Type} (hooks : StoreHooks ε) (s : RuntimeStore ε)
    (mandateId proposalId approvalDecisionId : StableId) (now : Instant) : Prop where
  approver : ∀ approval, s.effects.approvals.find? approvalDecisionId = some approval →
    hooks.findPrincipal s.rest approval.author.principalId ≠ none
  authorized : ∀ proposal approval mandate,
    s.effects.proposals.find? proposalId = some proposal →
    s.effects.approvals.find? approvalDecisionId = some approval →
    hooks.findMandate s.rest mandateId = some mandate →
    proposal.mandate = some ⟨mandate.mandateId, mandate.revision⟩ →
    hooks.findPrincipal s.rest approval.author.principalId = some approval.author →
    authorizeEffectProposal proposal mandate mandate.revision = .ok () ∧
      authorizeHumanApproval proposal approval now = .ok ()

/-- A claim on an effect that stays in force. -/
structure Worker.Dispatchable {ε : Type} (w : Worker ε) (context : ServiceRuntimeContext)
    (s : RuntimeState ε) (claim : OutboxClaim) (first : ℕ) : Prop where
  reachable : (runtime w.hooks).Reachable s
  issued : claim ∈ s.effects.outboxClaims
  mandate : w.hooks.findMandate s.rest context.mandateId ≠ none
  inForce : ∀ n, first ≤ n → s.store.InForce w.hooks context.mandateId claim.proposalId
    claim.approvalDecisionId (w.clock n)

section Effects

variable {ε : Type} {w : Worker ε} {context : ServiceRuntimeContext} {s t : WorkerState ε}

/-- The steps of a validation: reads, and whatever the authorizer writes. -/
def ConsultStep (hooks : StoreHooks ε) (s : RuntimeState ε) : RuntimeAction ε → Prop
  | .loadDispatchBundle _ _ => True
  | .environment rest => hooks.SameAuthority s.rest rest
  | _ => False

theorem Worker.TypedPorts.validationActions (hports : w.TypedPorts) :
    w.ValidationActions (ConsultStep w.hooks) :=
  ⟨fun _ _ _ => trivial, fun n s proposal approval =>
    hports.authorizer n s.store proposal approval⟩

theorem consulted_of_path {hooks : StoreHooks ε} {s t : RuntimeState ε}
    {tr : List (Transition (RuntimeState ε) (RuntimeAction ε))}
    (h : ((runtime hooks).restrict (ConsultStep hooks)).Path s tr t) :
    hooks.SameAuthority s.rest t.rest ∧ t.effects = s.effects := by
  induction h with
  | refl => exact ⟨.refl _, rfl⟩
  | @snoc t u a _ _ hstep ih =>
    obtain ⟨hexec, hconsult⟩ := hstep
    replace hexec : t.exec hooks a = .ok u := hexec
    cases a with
    | loadDispatchBundle claim mandateId =>
      simp only [RuntimeState.exec, bind_eq_ok, pure_eq_ok] at hexec
      obtain ⟨_, _, _, _, rfl⟩ := hexec
      exact ih
    | environment rest =>
      obtain rfl := Except.ok.inj hexec
      exact ⟨ih.1.trans hconsult, ih.2⟩
    | agenda _ => exact hconsult.elim
    | effect _ => exact hconsult.elim
    | commitSemanticDecision _ _ => exact hconsult.elim
    | commitApprovalAndAttempt _ => exact hconsult.elim

theorem RuntimeStore.InForce.of_same {hooks : StoreHooks ε} {s t : RuntimeStore ε}
    {mandateId proposalId approvalDecisionId : StableId} {now : Instant}
    (h : s.InForce hooks mandateId proposalId approvalDecisionId now)
    (hauthority : hooks.SameAuthority s.rest t.rest)
    (hproposal : t.effects.proposals.find? proposalId = s.effects.proposals.find? proposalId)
    (happrovals : t.effects.approvals = s.effects.approvals) :
    t.InForce hooks mandateId proposalId approvalDecisionId now := by
  constructor
  · rw [happrovals, hauthority.principal]
    exact h.approver
  · rw [happrovals, hproposal, hauthority.principal, hauthority.mandate]
    exact h.authorized

/-- Validations leave a claim as it is. -/
theorem Worker.Dispatchable.of_runs {claim : OutboxClaim} {first : ℕ}
    (h : w.Dispatchable context s.runtime claim first) (hruns : w.Runs (ConsultStep w.hooks) s t) :
    w.Dispatchable context t.runtime claim first := by
  obtain ⟨_, hpath⟩ := hruns.path
  obtain ⟨hauthority, heffects⟩ := consulted_of_path hpath
  refine ⟨hruns.reachable h.reachable, heffects ▸ h.issued, ?_, fun n hn => ?_⟩
  · rw [hauthority.mandate]
    exact h.mandate
  · refine (h.inForce n hn).of_same hauthority ?_ ?_
    · show t.runtime.effects.tables.proposals.find? _ = _
      rw [heffects]
      rfl
    · show t.runtime.effects.tables.approvals = _
      rw [heffects]
      rfl

namespace DispatchService

theorem validateBundle_contained {claim : OutboxClaim} {first : ℕ} {bundle : DispatchBundle}
    (hports : w.TypedPorts) (h : w.Dispatchable context s.runtime claim first)
    (hfirst : first ≤ s.clockReads)
    (hload : s.runtime.store.loadDispatchBundle w.hooks claim context.mandateId = .ok bundle) :
    Worker.Contained (validateBundle w context bundle) s := by
  obtain ⟨row, mandate, hproposal, happroval, happrover, hmandate, hvalid⟩ :=
    EffectTables.loadDispatchBundle_eq_ok hload
  have hbound : bundle.proposal.mandate = some ⟨mandate.mandateId, mandate.revision⟩ := by
    simp only [bindingsValid] at hvalid
    tauto
  have hauthor : bundle.approval.author = bundle.approver := by
    simp only [bindingsValid] at hvalid
    tauto
  obtain ⟨hauthorized, happroved⟩ := (h.inForce s.clockReads hfirst).authorized _ _ _ hproposal
    happroval hmandate hbound (by rw [hauthor] at happrover ⊢; exact happrover)
  refine Process.RaisesOnly.bind
    (Worker.contained_read (contained_of_exists ⟨mandate, orFail_eq_ok.mpr hmandate⟩))
    fun found t ht => ?_
  obtain ⟨hfound, rfl⟩ := Worker.read_eq_ok.mp ht
  obtain rfl := Option.some.inj (hmandate.symm.trans (orFail_eq_ok.mp hfound))
  refine Process.RaisesOnly.bind (Worker.contained_check rfl) fun _ t ht => ?_
  obtain ⟨_, rfl⟩ := Worker.check_eq_ok.mp ht
  refine Process.RaisesOnly.bind (Worker.contained_check rfl) fun _ t ht => ?_
  obtain ⟨_, rfl⟩ := Worker.check_eq_ok.mp ht
  refine Process.RaisesOnly.bind (Worker.contained_check rfl) fun _ t ht => ?_
  obtain ⟨_, rfl⟩ := Worker.check_eq_ok.mp ht
  refine Process.RaisesOnly.bind (Worker.contained_check rfl) fun _ t ht => ?_
  obtain ⟨_, rfl⟩ := Worker.check_eq_ok.mp ht
  rw [hauthorized]
  refine Process.RaisesOnly.bind (Process.raisesOnly_of_ok rfl) fun _ t ht => ?_
  obtain ⟨_, rfl⟩ := Prod.mk.inj ht
  refine Process.RaisesOnly.bind Worker.contained_now fun evaluatedAt t ht => ?_
  obtain ⟨rfl, rfl⟩ := Worker.now_eq_ok.mp ht
  rw [happroved]
  refine Process.RaisesOnly.bind (Process.raisesOnly_of_ok rfl) fun _ t ht => ?_
  obtain ⟨_, rfl⟩ := Prod.mk.inj ht
  refine Process.RaisesOnly.bind (Worker.contained_callPort (hports.refusal _ _ _ _))
    fun _ t _ => ?_
  exact Process.RaisesOnly.bind (Worker.contained_check rfl) fun _ u _ => Process.raisesOnly_pure _ u

theorem validateExactEffect_contained {claim : OutboxClaim} {first : ℕ} (hports : w.TypedPorts)
    (h : w.Dispatchable context s.runtime claim first) (hfirst : first ≤ s.clockReads) :
    Worker.Contained (validateExactEffect w context claim) s := by
  have hload : (s.runtime.store.loadDispatchBundle w.hooks claim context.mandateId).Caught :=
    EffectTables.loadDispatchBundle_contained (tracked_of_reachable h.reachable) h.mandate
      (h.inForce first le_rfl).approver
  refine Process.RaisesOnly.bind (Worker.contained_transact ?_ hload) fun bundle t ht => ?_
  · exact (Worker.contained_requireIssued h.issued).bind fun _ _ =>
      hload.bind fun _ _ => contained_ok _
  · obtain ⟨runtime, hexec, hbundle, rfl⟩ := Worker.transact_eq_ok.mp ht
    simp only [RuntimeState.exec, bind_eq_ok, pure_eq_ok] at hexec
    obtain ⟨_, _, _, _, rfl⟩ := hexec
    exact validateBundle_contained hports h hfirst hbundle

/-- A validation, or a reading of the clock or of a channel, before the rest. -/
theorem bind_contained {α β : Type} {claim : OutboxClaim} {first : ℕ} {x : WorkerProcess ε α}
    {f : α → WorkerProcess ε β} (h : w.Dispatchable context s.runtime claim first)
    (hfirst : first ≤ s.clockReads) (hfollows : w.Follows (ConsultStep w.hooks) x)
    (hx : Worker.Contained x s)
    (hf : ∀ a t, w.Dispatchable context t.runtime claim first → first ≤ t.clockReads →
      Worker.Contained (f a) t) : Worker.Contained (x >>= f) s :=
  hx.bind fun a t ht => hf a t (h.of_runs (hfollows.of_eq ht))
    (hfirst.trans (hfollows.of_eq ht).clock)

theorem requireLiveClaim_contained (claim : OutboxClaim) :
    Worker.Contained (requireLiveClaim w claim) s :=
  Process.RaisesOnly.bind Worker.contained_now fun _ _ _ =>
    Process.RaisesOnly.bind (Worker.contained_check rfl) fun _ t _ => Process.raisesOnly_pure _ t

theorem dispatchClaim_contained {claim : OutboxClaim} {first : ℕ} (hports : w.TypedPorts)
    (h : w.Dispatchable context s.runtime claim first) (hfirst : first ≤ s.clockReads)
    (now : Instant) : Worker.Contained (dispatchClaim w context claim now) s := by
  refine bind_contained h hfirst (follows_validateExactEffect hports.validationActions claim)
    (validateExactEffect_contained hports h hfirst) fun bundle t ht _ => ?_
  have hmark : (t.runtime.effects.tables.markDispatchStarted claim now).Caught :=
    EffectTables.markDispatchStarted_contained (tracked_of_reachable ht.reachable) now
  refine Process.RaisesOnly.bind (Worker.contained_transact ?_ ?_) fun started u hu => ?_
  · refine Caught.bind ?_ fun _ _ => contained_ok _
    exact (Worker.contained_requireIssued ht.issued).bind fun _ _ =>
      hmark.bind fun _ _ => contained_ok _
  · exact hmark.bind fun _ _ => contained_ok _
  obtain ⟨after, hexec, hstarted, rfl⟩ := Worker.transact_eq_ok.mp hu
  have hreachable : (runtime w.hooks).Reachable after := ht.reachable.step hexec
  simp only [RuntimeState.exec, EffectSide.exec, bind_eq_ok, pure_eq_ok, Prod.exists] at hexec
  obtain ⟨effects, ⟨_, _, attempt, tables, hdone, rfl⟩, rfl⟩ := hexec
  obtain rfl : attempt = started := by
    rw [hdone] at hstarted
    exact Except.ok.inj hstarted
  refine Process.RaisesOnly.bind (Worker.contained_execute ?_) fun _ v hv => ?_
  · refine Caught.bind ?_ fun _ _ => contained_ok _
    exact (Worker.contained_requireIssued (by simp)).bind fun _ _ => contained_ok _
  obtain ⟨called, hexec, _, rfl⟩ := Worker.transact_eq_ok.mp hv
  replace hreachable : (runtime w.hooks).Reachable called := hreachable.step hexec
  simp only [RuntimeState.exec, EffectSide.exec, bind_eq_ok, pure_eq_ok] at hexec
  obtain ⟨effects, ⟨_, _, rfl⟩, rfl⟩ := hexec
  refine Process.RaisesOnly.bind (Worker.contained_callChannel (hports.channelApply _ _))
    fun outcome x hx => ?_
  obtain ⟨_, rfl⟩ := Prod.mk.inj hx
  refine Process.RaisesOnly.bind Worker.contained_now fun occurredAt y hy => ?_
  obtain ⟨_, rfl⟩ := Worker.now_eq_ok.mp hy
  refine Process.RaisesOnly.bind (Worker.contained_transact ?_ ?_) fun _ z _ =>
    Process.raisesOnly_pure _ z
  · refine Caught.bind ?_ fun _ _ => contained_ok _
    refine (Worker.contained_requireIssued ht.issued).bind fun _ _ => ?_
    exact (EffectTables.finalizeDispatch_contained (tracked_of_reachable hreachable) _ _).bind
      fun _ _ => contained_ok _
  · exact (EffectTables.finalizeDispatch_contained (tracked_of_reachable hreachable) _ _).bind
      fun _ _ => contained_ok _

theorem reconciledRetry_contained {claim : OutboxClaim} {first : ℕ} (hports : w.TypedPorts)
    (h : w.Dispatchable context s.runtime claim first) (hfirst : first ≤ s.clockReads)
    (outcome : ReconciliationOutcome) :
    Worker.Contained (reconciledRetry w context claim outcome) s := by
  unfold reconciledRetry
  cases outcome.kind with
  | confirmedAbsent =>
    exact (validateExactEffect_contained hports h hfirst).bind fun _ t _ =>
      Process.raisesOnly_pure _ t
  | _ => exact Process.raisesOnly_pure _ s

theorem reconcileClaim_contained {claim : OutboxClaim} {first : ℕ} (hports : w.TypedPorts)
    (h : w.Dispatchable context s.runtime claim first) (hfirst : first ≤ s.clockReads) :
    Worker.Contained (reconcileClaim w context claim) s := by
  have hvalidation := hports.validationActions
  refine bind_contained h hfirst (follows_requireLiveClaim claim)
    (requireLiveClaim_contained claim) fun _ t ht hfirst => ?_
  refine bind_contained ht hfirst (follows_validateExactEffect hvalidation claim)
    (validateExactEffect_contained hports ht hfirst) fun bundle t ht hfirst => ?_
  refine bind_contained ht hfirst (follows_requireLiveClaim claim)
    (requireLiveClaim_contained claim) fun _ t ht hfirst => ?_
  refine bind_contained ht hfirst (Worker.follows_callChannel _)
    (Worker.contained_callChannel (hports.channelReconcile _ _ _)) fun outcome t ht hfirst => ?_
  refine bind_contained ht hfirst (follows_requireLiveClaim claim)
    (requireLiveClaim_contained claim) fun _ t ht hfirst => ?_
  refine bind_contained ht hfirst (follows_reconciledRetry hvalidation claim outcome)
    (reconciledRetry_contained hports ht hfirst outcome) fun next t ht hfirst => ?_
  refine bind_contained ht hfirst (follows_requireLiveClaim claim)
    (requireLiveClaim_contained claim) fun finalizedAt t ht hfirst => ?_
  have hreconcile (fin : Finalization) (nextAt : Option Instant) :
      (t.runtime.effects.tables.reconcileAmbiguous claim outcome fin nextAt).Caught :=
    EffectTables.reconcileAmbiguous_contained (tracked_of_reachable ht.reachable) outcome fin nextAt
  refine Process.RaisesOnly.bind (Worker.contained_transact ?_ ?_) fun _ z _ =>
    Process.raisesOnly_pure _ z
  · refine Caught.bind ?_ fun _ _ => contained_ok _
    exact (Worker.contained_requireIssued ht.issued).bind fun _ _ =>
      (hreconcile _ _).bind fun _ _ => contained_ok _
  · exact (hreconcile _ _).bind fun _ _ => contained_ok _

/-- The claim that was just taken on an effect in force. -/
theorem dispatchable_of_claim {s t : RuntimeState ε} {first : ℕ} {claim : OutboxClaim}
    {tables : EffectTables} {owner : StableId} {now leaseUntil : Instant}
    {sourceStates : List OutboxState} {targetState : OutboxState} {excludeStopped : Bool}
    (hreachable : (runtime w.hooks).Reachable t)
    (hmandate : w.hooks.findMandate s.rest context.mandateId ≠ none)
    (hinForce : ∀ row, s.effects.tables.NextEffect now sourceStates excludeStopped row →
      ∀ n, first ≤ n → s.store.InForce w.hooks context.mandateId row.proposalId
        row.approvalDecisionId (w.clock n))
    (hclaim : s.effects.tables.claimOutboxState owner now leaseUntil sourceStates targetState
      excludeStopped = some (claim, tables))
    (ht : t = { s with effects := { s.effects with
      tables := tables
      outboxClaims := s.effects.outboxClaims ++ [claim] } }) :
    w.Dispatchable context t claim first := by
  obtain ⟨row, hnext, rfl, rfl⟩ := EffectTables.nextEffect_of_claim hclaim
  subst ht
  refine ⟨hreachable, by simp, hmandate, fun n hn => ?_⟩
  exact (hinForce row hnext n hn).of_same (.refl _) rfl rfl

theorem dispatchOnce_contained {first : ℕ} (hports : w.TypedPorts)
    (hreachable : (runtime w.hooks).Reachable s.runtime) (hfirst : first ≤ s.clockReads)
    (hmandate : w.hooks.findMandate s.runtime.rest context.mandateId ≠ none)
    (hinForce : ∀ row, s.runtime.effects.tables.NextEffect (w.clock s.clockReads)
        [.pending, .retry, .claimed] false row →
      ∀ n, first ≤ n → s.runtime.store.InForce w.hooks context.mandateId row.proposalId
        row.approvalDecisionId (w.clock n)) :
    Worker.Contained (dispatchOnce w context) s := by
  refine Process.RaisesOnly.bind Worker.contained_now fun now t ht => ?_
  obtain ⟨rfl, rfl⟩ := Worker.now_eq_ok.mp ht
  refine Process.RaisesOnly.bind ?_ fun claim u hclaim => ?_
  · refine Worker.contained_transact (Caught.bind ?_ fun _ _ => contained_ok _) (contained_ok _)
    simp only [EffectSide.exec]
    split <;> exact contained_ok _
  · have hfollows : w.Follows (fun _ _ => True) (w.claimOutbox ownerId (w.clock s.clockReads)
        (w.clock s.clockReads + leaseDuration)) := Worker.follows_transact (fun _ => trivial) _
    have hclaimed := (hfollows.of_eq hclaim).reachable hreachable
    rcases Worker.claimOutbox_eq_ok hclaim with ⟨rfl, _⟩ | ⟨issued, tables, rfl, hissued, rfl⟩
    · exact Process.raisesOnly_pure _ _
    · exact dispatchClaim_contained hports
        (dispatchable_of_claim hclaimed hmandate hinForce hissued rfl) (Nat.le_succ_of_le hfirst) _

theorem reconcileOnce_contained {first : ℕ} (hports : w.TypedPorts)
    (hreachable : (runtime w.hooks).Reachable s.runtime) (hfirst : first ≤ s.clockReads)
    (hmandate : w.hooks.findMandate s.runtime.rest context.mandateId ≠ none)
    (hinForce : ∀ row, s.runtime.effects.tables.NextEffect (w.clock s.clockReads)
        [.ambiguous, .ambiguousClaimed] true row →
      ∀ n, first ≤ n → s.runtime.store.InForce w.hooks context.mandateId row.proposalId
        row.approvalDecisionId (w.clock n)) :
    Worker.Contained (reconcileOnce w context) s := by
  refine Process.RaisesOnly.bind Worker.contained_now fun now t ht => ?_
  obtain ⟨rfl, rfl⟩ := Worker.now_eq_ok.mp ht
  refine Process.RaisesOnly.bind ?_ fun claim u hclaim => ?_
  · refine Worker.contained_transact (Caught.bind ?_ fun _ _ => contained_ok _) (contained_ok _)
    simp only [EffectSide.exec]
    split <;> exact contained_ok _
  · have hfollows : w.Follows (fun _ _ => True) (w.claimAmbiguous ownerId (w.clock s.clockReads)
        (w.clock s.clockReads + leaseDuration)) := Worker.follows_transact (fun _ => trivial) _
    have hclaimed := (hfollows.of_eq hclaim).reachable hreachable
    rcases Worker.claimAmbiguous_eq_ok hclaim with ⟨rfl, _⟩ | ⟨issued, tables, rfl, hissued, rfl⟩
    · exact Process.raisesOnly_pure _ _
    · exact reconcileClaim_contained hports
        (dispatchable_of_claim hclaimed hmandate hinForce hissued rfl) (Nat.le_succ_of_le hfirst)

/-- A reconciliation that returns is a validation followed by its transaction. -/
theorem reconcileClaim_eq_ok {claim : OutboxClaim} {result : DispatchResult}
    (hports : w.TypedPorts) (h : reconcileClaim w context claim s = (.ok result, t)) :
    ∃ u outcome fin nextAt settled, w.Runs (ConsultStep w.hooks) s u ∧
      u.runtime.effects.tables.reconcileAmbiguous claim outcome fin nextAt =
        .ok (settled, t.runtime.effects.tables) ∧
      t.runtime.rest = u.runtime.rest := by
  have hvalidation := hports.validationActions
  simp only [reconcileClaim, Process.bind_eq_ok, Process.pure_apply, Prod.mk.injEq] at h
  obtain ⟨_, s₁, h₁, bundle, s₂, h₂, _, s₃, h₃, outcome, s₄, h₄, _, s₅, h₅, next, s₆, h₆,
    finalizedAt, u, h₇, _, _, h₈, _, rfl⟩ := h
  have r₁ := (follows_requireLiveClaim (A := ConsultStep w.hooks) claim).of_eq h₁
  have r₂ := (follows_validateExactEffect hvalidation claim).of_eq h₂
  have r₃ := (follows_requireLiveClaim (A := ConsultStep w.hooks) claim).of_eq h₃
  have r₄ : w.Runs (ConsultStep w.hooks) s₃ s₄ := (Worker.follows_callChannel _).of_eq h₄
  have r₅ := (follows_requireLiveClaim (A := ConsultStep w.hooks) claim).of_eq h₅
  have r₆ := (follows_reconciledRetry hvalidation claim outcome).of_eq h₆
  have r₇ := (follows_requireLiveClaim (A := ConsultStep w.hooks) claim).of_eq h₇
  have hruns := trans_of _ r₁ (trans_of _ r₂ (trans_of _ r₃ (trans_of _ r₄ (trans_of _ r₅
    (trans_of _ r₆ r₇)))))
  obtain ⟨after, hexec, _, rfl⟩ := Worker.transact_eq_ok.mp h₈
  simp only [RuntimeState.exec, EffectSide.exec, bind_eq_ok, pure_eq_ok, Prod.exists] at hexec
  obtain ⟨effects, ⟨_, _, settled, tables, hdone, rfl⟩, rfl⟩ := hexec
  exact ⟨u, outcome, _, _, settled, hruns, hdone, rfl⟩

/-- What a reconciliation leaves for the dispatch after it: the proposals, the
    approvals, and every row but the one it was for. -/
structure Reconciled (hooks : StoreHooks ε) (s t : RuntimeState ε) (row : OutboxRow) : Prop where
  authority : hooks.SameAuthority s.rest t.rest
  approvals : t.effects.tables.approvals = s.effects.tables.approvals
  proposals : t.effects.tables.proposals = s.effects.tables.proposals
  others : ∀ x, x.outboxId ≠ row.outboxId →
    (x ∈ t.effects.tables.outbox ↔ x ∈ s.effects.tables.outbox)
  same : ∀ x ∈ t.effects.tables.outbox, x.outboxId = row.outboxId →
    x.proposalId = row.proposalId ∧ x.approvalDecisionId = row.approvalDecisionId

theorem reconciled_of_claim {s t u : RuntimeState ε} {row : OutboxRow} {owner : StableId}
    {leaseUntil : Instant} {outcome : ReconciliationOutcome} {fin : Finalization}
    {nextAt : Option Instant} {settled : Option ActionResult} {hooks : StoreHooks ε}
    (hrow : row ∈ s.effects.tables.outbox) (hauthority : hooks.SameAuthority s.rest u.rest)
    (hclaimed : u.effects.tables = { s.effects.tables with
      outbox := s.effects.tables.outbox.replace (row.claim .ambiguousClaimed owner leaseUntil) })
    (hdone : u.effects.tables.reconcileAmbiguous
      (row.claimOf owner leaseUntil (row.fencingToken + 1)) outcome fin nextAt =
        .ok (settled, t.effects.tables))
    (hrest : t.rest = u.rest) : Reconciled hooks s t row := by
  have hfind : s.effects.tables.outbox.find? (key (row.claim .ambiguousClaimed owner leaseUntil)) =
      some row := Table.find?_of_mem hrow
  obtain ⟨claimed, attempt, hclaim, _, _, hcase⟩ := EffectTables.reconcileAmbiguous_eq_ok hdone
  obtain ⟨hstill, hid, _, hbinds⟩ := EffectTables.requireOutboxClaim_eq_ok hclaim
  have hproposal : claimed.proposalId = row.proposalId := hbinds.2.2.2.1
  have happroval : claimed.approvalDecisionId = row.approvalDecisionId := hbinds.2.2.2.2.1
  have hwritten : ∃ written : OutboxRow, written.outboxId = claimed.outboxId ∧
      written.proposalId = claimed.proposalId ∧
      written.approvalDecisionId = claimed.approvalDecisionId ∧
      t.effects.tables.outbox = u.effects.tables.outbox.replace written ∧
      t.effects.tables.proposals = u.effects.tables.proposals ∧
      t.effects.tables.approvals = u.effects.tables.approvals := by
    rcases hcase with ⟨unknown, _, hunknown, htables⟩ | ⟨_, _, _, _, _, _, _, _, _, _, htables⟩
    · obtain ⟨_, _, rfl⟩ := EffectTables.stillUnknown_eq_ok hunknown
      rw [htables]
      exact ⟨claimed.keepAmbiguous _ _, rfl, rfl, rfl, rfl, rfl, rfl⟩
    · rw [htables]
      exact ⟨claimed.settle _ _ _ _, rfl, rfl, rfl, rfl, rfl, rfl⟩
  obtain ⟨written, hwid, hwproposal, hwapproval, houtbox, hproposals, happrovals⟩ := hwritten
  have hmem (x : OutboxRow) : x ∈ t.effects.tables.outbox ↔
      x = written ∨ (x ∈ s.effects.tables.outbox ∧ x.outboxId ≠ row.outboxId) := by
    have hwritten : u.effects.tables.outbox.find? (key written) = some claimed := by
      show u.effects.tables.outbox.find? written.outboxId = some claimed
      rw [hwid]
      exact hstill
    rw [houtbox, Table.mem_replace hwritten, hclaimed, Table.mem_replace hfind]
    show x = written ∨ (x = _ ∨ x ∈ s.effects.tables.outbox ∧ x.outboxId ≠ row.outboxId) ∧
      x.outboxId ≠ written.outboxId ↔ _
    have hsame : written.outboxId = row.outboxId := hwid.trans hid
    rw [hsame]
    constructor
    · rintro (hx | ⟨rfl | hx, hne⟩)
      · exact .inl hx
      · exact absurd rfl hne
      · exact .inr hx
    · rintro (hx | hx)
      · exact .inl hx
      · exact .inr ⟨.inr hx, hx.2⟩
  refine ⟨hrest ▸ hauthority, ?_, ?_, fun x hx => ?_, fun x hx hxid => ?_⟩
  · rw [happrovals, hclaimed]
  · rw [hproposals, hclaimed]
  · rw [hmem]
    refine ⟨fun h => ?_, fun h => .inr ⟨h, hx⟩⟩
    rcases h with rfl | ⟨h, _⟩
    · exact absurd (hwid.trans hid) hx
    · exact h
  · rcases (hmem x).mp hx with rfl | ⟨_, hne⟩
    · exact ⟨hwproposal.trans hproposal, hwapproval.trans happroval⟩
    · exact absurd hxid hne

theorem reconcileOnce_eq_ok {result : DispatchResult} (hports : w.TypedPorts)
    (h : reconcileOnce w context s = (.ok result, t)) :
    t.runtime = s.runtime ∨ ∃ row, s.runtime.effects.tables.NextEffect (w.clock s.clockReads)
      [.ambiguous, .ambiguousClaimed] true row ∧ Reconciled w.hooks s.runtime t.runtime row := by
  unfold reconcileOnce at h
  simp only [Process.bind_eq_ok, Worker.now_eq_ok] at h
  obtain ⟨_, _, ⟨rfl, rfl⟩, claim, v, hclaim, hrest⟩ := h
  rcases Worker.claimAmbiguous_eq_ok hclaim with ⟨rfl, _, rfl⟩ | ⟨issued, tables, rfl, hissued, rfl⟩
  · obtain ⟨_, rfl⟩ := Prod.mk.inj hrest
    exact .inl rfl
  · obtain ⟨row, hnext, rfl, rfl⟩ := EffectTables.nextEffect_of_claim hissued
    obtain ⟨u, outcome, fin, nextAt, settled, hruns, hdone, hrest⟩ := reconcileClaim_eq_ok hports hrest
    obtain ⟨_, hpath⟩ := hruns.path
    obtain ⟨hauthority, heffects⟩ := consulted_of_path hpath
    exact .inr ⟨row, hnext, reconciled_of_claim hnext.mem hauthority (by rw [heffects]) hdone hrest⟩

end DispatchService

end Effects

-- ════════════════════════════════════════════════════════════════════════
-- The cycle
-- ════════════════════════════════════════════════════════════════════════

/-- What the next cycle of a colleague picks up is in order, at every reading of the
    clock from `first` on: its context resolves and its mandate is stored, the next
    trigger fits an item, and the effects that are next for a dispatch or for a
    reconciliation are in force. -/
structure Worker.Undisturbed {ε : Type} (w : Worker ε) (context : ServiceRuntimeContext)
    (s : RuntimeStore ε) (first : ℕ) : Prop where
  resolved : w.resolveRuntimeContext s.rest = .ok context
  mandate : w.hooks.findMandate s.rest context.mandateId ≠ none
  trigger : ∀ n, first ≤ n → ∀ claim tables,
    s.agenda.claimTrigger WakeService.ownerId (w.clock n) (w.clock n + leaseDuration) =
      some (claim, tables) →
    ∀ source, s.agenda.loadSource claim = .ok source → s.agenda.Materializable source
  effects : ∀ n, first ≤ n → ∀ row,
    s.effects.NextEffect (w.clock n) [.pending, .retry, .claimed] false row ∨
      s.effects.NextEffect (w.clock n) [.ambiguous, .ambiguousClaimed] true row →
    ∀ m, first ≤ m → s.InForce w.hooks context.mandateId row.proposalId row.approvalDecisionId
      (w.clock m)

section Cycle

variable {ε : Type} {w : Worker ε} {context : ServiceRuntimeContext} {s t : WorkerState ε}
  {first : ℕ}

/-- The effects that were in force before a wake are in force after it. -/
theorem inForce_of_keepsEffects {s t : RuntimeState ε} {row : OutboxRow} {mandateId : StableId}
    {now : Instant} (hreachable : (runtime w.hooks).Reachable s) (h : KeepsEffects w.hooks s t)
    (hrow : row ∈ s.effects.tables.outbox)
    (hinForce : s.store.InForce w.hooks mandateId row.proposalId row.approvalDecisionId now) :
    t.store.InForce w.hooks mandateId row.proposalId row.approvalDecisionId now := by
  obtain ⟨⟨proposal, hproposal, _⟩, _⟩ := (tracked_of_reachable hreachable).row row hrow
  refine hinForce.of_same h.authority ?_ h.approvals
  show t.effects.tables.proposals.find? row.proposalId = s.effects.tables.proposals.find? _
  rw [hproposal, h.proposals _ _ hproposal]

theorem nextEffect_of_outbox {s t : EffectTables} (h : t.outbox = s.outbox) {now : Instant}
    {sourceStates : List OutboxState} {excludeStopped : Bool} {row : OutboxRow}
    (hnext : t.NextEffect now sourceStates excludeStopped row) :
    s.NextEffect now sourceStates excludeStopped row :=
  ⟨h ▸ hnext.mem, hnext.eligible, h ▸ hnext.first⟩

/-- The row that is next after a reconciliation was next before it, or is the one
    that was reconciled. -/
theorem DispatchService.Reconciled.nextEffect {hooks : StoreHooks ε} {s t : RuntimeState ε}
    {row x : OutboxRow} {now now' : Instant} (h : Reconciled hooks s t row)
    (hrow : s.effects.tables.NextEffect now' [.ambiguous, .ambiguousClaimed] true row)
    (hnext : t.effects.tables.NextEffect now [.pending, .retry, .claimed] false x) :
    s.effects.tables.NextEffect now [.pending, .retry, .claimed] false x ∨
      x.proposalId = row.proposalId ∧ x.approvalDecisionId = row.approvalDecisionId := by
  by_cases hid : x.outboxId = row.outboxId
  · exact .inr (h.same x hnext.mem hid)
  · refine .inl ⟨(h.others x hid).mp hnext.mem, hnext.eligible, fun y hy heligible => ?_⟩
    refine hnext.first y ((h.others y fun hyid => ?_).mpr hy) heligible
    -- The reconciled row was ambiguous, and no row is eligible for both.
    obtain rfl : y = row := Table.eq_of_key_eq hy hrow.mem hyid
    have hambiguous := hrow.eligible
    simp only [OutboxRow.eligible, Bool.and_eq_true, decide_eq_true_eq] at heligible hambiguous
    have hstate := heligible.1.1.1.1
    have hstate' := hambiguous.1.1.1.1
    simp only [List.mem_cons, List.not_mem_nil, or_false] at hstate hstate'
    rcases hstate' with h' | h' <;> simp [h'] at hstate

/-- **A cycle of an undisturbed colleague** raises conflicts and refusals only. -/
theorem processOnce_contained (hports : w.TypedPorts)
    (hreachable : (runtime w.hooks).Reachable s.runtime) (hfirst : first ≤ s.clockReads)
    (h : w.Undisturbed context s.runtime.store first) :
    Worker.Contained (P4RuntimeController.processOnce w context) s := by
  refine Process.RaisesOnly.bind
    (Worker.contained_read (contained_of_exists ⟨context, h.resolved⟩)) fun durable s₀ h₀ => ?_
  obtain ⟨_, rfl⟩ := Worker.read_eq_ok.mp h₀
  refine Process.RaisesOnly.bind (Worker.contained_check rfl) fun _ s₀ h₀ => ?_
  obtain ⟨_, rfl⟩ := Worker.check_eq_ok.mp h₀
  refine Process.RaisesOnly.bind
    (WakeService.materializeNext_contained hreachable (h.trigger _ hfirst)) fun _ s₁ h₁ => ?_
  have r₁ := (WakeService.follows_materializeNext hports.wakeActions).of_eq h₁
  have hmandate₁ : w.hooks.findMandate s₁.runtime.rest context.mandateId ≠ none := by
    rw [(keepsEffects_of_runs hports r₁).authority.mandate]
    exact h.mandate
  refine Process.RaisesOnly.bind
    (WakeService.run_contained hports (r₁.reachable hreachable) hmandate₁) fun _ s₂ h₂ => ?_
  have r₂ := trans_of _ r₁ ((WakeService.follows_run hports.wakeActions).of_eq h₂)
  have hkept := keepsEffects_of_runs hports r₂
  have hmandate₂ : w.hooks.findMandate s₂.runtime.rest context.mandateId ≠ none := by
    rw [hkept.authority.mandate]
    exact h.mandate
  have hfirst₂ : first ≤ s₂.clockReads := hfirst.trans r₂.clock
  have hambiguous : ∀ row, s₂.runtime.effects.tables.NextEffect (w.clock s₂.clockReads)
      [.ambiguous, .ambiguousClaimed] true row → ∀ n, first ≤ n →
      s₂.runtime.store.InForce w.hooks context.mandateId row.proposalId row.approvalDecisionId
        (w.clock n) := by
    intro row hrow n hn
    have hbefore := nextEffect_of_outbox hkept.outbox hrow
    exact inForce_of_keepsEffects hreachable hkept hbefore.mem
      (h.effects _ hfirst₂ row (.inr hbefore) n hn)
  refine Process.RaisesOnly.bind (DispatchService.reconcileOnce_contained hports
    (r₂.reachable hreachable) hfirst₂ hmandate₂ hambiguous) fun _ s₃ h₃ => ?_
  have r₃ := (DispatchService.follows_reconcileOnce w.effectActions_all).of_eq h₃
  have hfirst₃ : first ≤ s₃.clockReads := hfirst₂.trans r₃.clock
  have hpending : ∀ row, s₂.runtime.effects.tables.NextEffect (w.clock s₃.clockReads)
      [.pending, .retry, .claimed] false row → ∀ n, first ≤ n →
      s₂.runtime.store.InForce w.hooks context.mandateId row.proposalId row.approvalDecisionId
        (w.clock n) := by
    intro row hrow n hn
    have hbefore := nextEffect_of_outbox hkept.outbox hrow
    exact inForce_of_keepsEffects hreachable hkept hbefore.mem
      (h.effects _ hfirst₃ row (.inl hbefore) n hn)
  refine Process.RaisesOnly.bind ?_ fun _ s₄ _ => Process.raisesOnly_pure _ s₄
  rcases DispatchService.reconcileOnce_eq_ok hports h₃ with hsame | ⟨row, hrow, hreconciled⟩
  · refine DispatchService.dispatchOnce_contained hports
      (r₃.reachable (r₂.reachable hreachable)) hfirst₃ (hsame ▸ hmandate₂) ?_
    rw [hsame]
    exact hpending
  · refine DispatchService.dispatchOnce_contained hports
      (r₃.reachable (r₂.reachable hreachable)) hfirst₃ ?_ fun x hx n hn => ?_
    · rw [hreconciled.authority.mandate]
      exact hmandate₂
    · have hbefore : s₂.runtime.store.InForce w.hooks context.mandateId x.proposalId
          x.approvalDecisionId (w.clock n) := by
        rcases hreconciled.nextEffect hrow hx with hsame | ⟨hproposal, happroval⟩
        · exact hpending x hsame n hn
        · rw [hproposal, happroval]
          exact hambiguous row hrow n hn
      refine hbefore.of_same hreconciled.authority ?_ hreconciled.approvals
      show s₃.runtime.effects.tables.proposals.find? _ = _
      rw [hreconciled.proposals]
      rfl

end Cycle

-- ════════════════════════════════════════════════════════════════════════
-- The loop
-- ════════════════════════════════════════════════════════════════════════

section Loop

variable {ε : Type} {w : StableId → Worker ε} {db : WorkerDatabase ε} {ns : StableId} {first : ℕ}

/-- Whether the deployment of a colleague is active. -/
def WorkerDatabase.active (w : StableId → Worker ε) (db : WorkerDatabase ε) (ns : StableId) : Bool :=
  (w ns).deploymentIsActive (db.runtimes ns).rest

/-- The turn of an undisturbed colleague calls it, returns, and leaves the others alone. -/
theorem visitNamespace_active {context : ServiceRuntimeContext} (hports : (w ns).TypedPorts)
    (hreachable : (runtime (w ns).hooks).Reachable (db.runtimes ns))
    (hfirst : first ≤ db.clockReads) (hactive : db.active w ns = true)
    (h : (w ns).Undisturbed context (db.runtimes ns).store first) :
    ∃ count runtime clockReads, visitNamespace w ns db =
        (.ok count, ⟨Function.update db.runtimes ns runtime, clockReads, db.called ++ [ns]⟩) ∧
      db.clockReads ≤ clockReads := by
  have hcontained := processOnce_contained (s := ⟨db.runtimes ns, db.clockReads⟩) hports hreachable
    hfirst h
  have hresolve : onColleague ns (w ns).serviceContext db = (.ok context, db) := by
    simp only [onColleague, Worker.serviceContext, Worker.read, Function.update_eq_self]
    have hresolved : (w ns).resolveRuntimeContext (db.runtimes ns).rest = .ok context := h.resolved
    simp [RuntimeState.store, hresolved, Outcome.raised]
  have hvisit : visitNamespace w ns db = tryNamespace w ns db := if_pos hactive
  rw [hvisit, tryNamespace, Process.handle, Process.bind_of_ok hresolve]
  cases hcycle : P4RuntimeController.processOnce (w ns) context ⟨db.runtimes ns, db.clockReads⟩ with
  | mk answer t =>
    have hclock : db.clockReads ≤ t.clockReads :=
      (P4RuntimeController.follows_processOnce.of_eq hcycle).clock
    have hcall : callProcessOnce w ns context db =
        (answer, ⟨Function.update db.runtimes ns t.runtime, t.clockReads, db.called ++ [ns]⟩) := by
      simp only [callProcessOnce, onColleague, hcycle]
    cases answer with
    | ok report =>
      rw [Process.bind_of_ok hcall]
      exact ⟨1, t.runtime, t.clockReads, rfl, hclock⟩
    | error raised =>
      rw [Process.bind_eq, hcall]
      have hraised : raised.contained = true := hcontained raised t hcycle
      simp only [hraised, if_true]
      exact ⟨0, t.runtime, t.clockReads, rfl, hclock⟩

/-- The loop calls every active namespace of the list, in its order. -/
theorem visitNamespaces_calls (hports : ∀ ns, (w ns).TypedPorts) {pending : List StableId}
    (hnodup : pending.Nodup) (processed : ℕ) (hfirst : first ≤ db.clockReads)
    (hreachable : ∀ ns ∈ pending, (runtime (w ns).hooks).Reachable (db.runtimes ns))
    (h : ∀ ns ∈ pending, db.active w ns = true →
      ∃ context, (w ns).Undisturbed context (db.runtimes ns).store first) :
    ∃ count db', visitNamespaces w pending processed db = (.ok count, db') ∧
      db'.called = db.called ++ pending.filter (db.active w) := by
  induction pending generalizing db processed with
  | nil => exact ⟨processed, db, rfl, by simp⟩
  | cons ns rest ih =>
    obtain ⟨hnew, hrest⟩ := List.nodup_cons.mp hnodup
    by_cases hactive : db.active w ns = true
    · obtain ⟨context, hundisturbed⟩ := h ns List.mem_cons_self hactive
      obtain ⟨count, after, clockReads, hvisit, hclock⟩ := visitNamespace_active (hports ns)
        (hreachable ns List.mem_cons_self) hfirst hactive hundisturbed
      let visited : WorkerDatabase ε :=
        ⟨Function.update db.runtimes ns after, clockReads, db.called ++ [ns]⟩
      have hothers : ∀ other ∈ rest, visited.runtimes other = db.runtimes other := by
        intro other hother
        refine Function.update_of_ne (fun heq => hnew ?_) _ _
        rw [← heq]
        exact hother
      have hsame : ∀ other ∈ rest, visited.active w other = db.active w other := by
        intro other hother
        simp only [WorkerDatabase.active, hothers other hother]
      have hreachable' : ∀ other ∈ rest,
          (runtime (w other).hooks).Reachable (visited.runtimes other) := by
        intro other hother
        rw [hothers other hother]
        exact hreachable other (List.mem_cons_of_mem ns hother)
      have hundisturbed' : ∀ other ∈ rest, visited.active w other = true →
          ∃ context, (w other).Undisturbed context (visited.runtimes other).store first := by
        intro other hother hactive'
        rw [hothers other hother]
        exact h other (List.mem_cons_of_mem ns hother) (hsame other hother ▸ hactive')
      obtain ⟨total, db', hvisits, hcalled⟩ :=
        ih hrest (processed + count) (hfirst.trans hclock) hreachable' hundisturbed'
      refine ⟨total, db', ?_, ?_⟩
      · rw [visitNamespaces, Process.bind_of_ok hvisit]
        exact hvisits
      · rw [hcalled, List.filter_cons_of_pos hactive, List.filter_congr hsame]
        simp [visited]
    · have hvisit : visitNamespace w ns db = (.ok 0, db) := if_neg hactive
      obtain ⟨total, db', hvisits, hcalled⟩ := ih hrest (processed + 0) hfirst
        (fun other hother => hreachable other (List.mem_cons_of_mem ns hother))
        (fun other hother => h other (List.mem_cons_of_mem ns hother))
      refine ⟨total, db', ?_, ?_⟩
      · rw [visitNamespaces, Process.bind_of_ok hvisit]
        exact hvisits
      · rw [hcalled, List.filter_cons_of_neg hactive]

end Loop

-- ════════════════════════════════════════════════════════════════════════
-- Concrete passes
-- ════════════════════════════════════════════════════════════════════════

theorem typedPorts_unreachable (now : Instant) : (unreachableWorker now).TypedPorts where
  intelligence _ store _ := .refl store.rest
  failure _ _ _ _ h := .inr ⟨_, (Except.error.inj h).symm⟩
  encodable _ _ _ _ h := absurd h (by simp [unreachableWorker])
  prepares _ _ _ := contained_ok _
  prepared store _ _ _ h := Except.ok.inj h ▸ .refl store.rest
  authorizer _ store _ _ := .refl store.rest
  refusal _ _ _ _ _ h := absurd h (by simp [unreachableWorker])
  channelApply _ _ := ⟨_, rfl⟩
  channelReconcile _ _ _ := ⟨_, rfl⟩

/-- No effects, a mandate, and a next trigger that fits an item. -/
def inOrder (now : Instant) (s : RuntimeState AuthorityRecords) : Bool :=
  s.effects.tables.outbox.rows.isEmpty &&
    (s.rest.mandates.find? sampleContext.mandateId).isSome && s.store.isPending now &&
    match s.agenda.tables.claimTrigger WakeService.ownerId now (now + leaseDuration) with
    | none => true
    | some (claim, _) =>
      match s.agenda.tables.loadSource claim with
      | .error _ => true
      | .ok source => decide (∀ w ∈ source.workId, isStableId w = true) &&
        decide ((strip source.title).length ≤ 4096) &&
        decide (0 ≤ source.priority ∧ source.priority ≤ 1000)

theorem undisturbed_of_inOrder {now : Instant} {s : RuntimeState AuthorityRecords}
    (h : inOrder now s = true) (first : ℕ) :
    (unreachableWorker now).Undisturbed sampleContext s.store first := by
  simp only [inOrder, Bool.and_eq_true, List.isEmpty_iff, Option.isSome_iff_ne_none] at h
  obtain ⟨⟨⟨hempty, hmandate⟩, _⟩, htrigger⟩ := h
  refine ⟨rfl, hmandate, fun n _ claim tables hclaim source hsource => .inr ?_, ?_⟩
  · replace hclaim : s.agenda.tables.claimTrigger WakeService.ownerId now (now + leaseDuration) =
      some (claim, tables) := hclaim
    replace hsource : s.agenda.tables.loadSource claim = .ok source := hsource
    simp only [hclaim, hsource, Bool.and_eq_true, decide_eq_true_eq] at htrigger
    exact ⟨htrigger.1.1, htrigger.1.2, htrigger.2⟩
  · intro n _ row hrow
    have hmem : row ∈ s.effects.tables.outbox.rows := hrow.elim (·.mem) (·.mem)
    rw [hempty] at hmem
    exact absurd hmem (by simp)

/-- A pass over two colleagues with the given runtime that stops at the first. -/
def stopsAtFirst (now : Instant) (s : RuntimeState AuthorityRecords) : Bool :=
  s.store.isPending now &&
    match runOnce (fun _ => unreachableWorker now) (fun _ => now)
      [stableId "colleague-1", stableId "colleague-2"] ⟨fun _ => s, 0, []⟩ with
    | (.error (.core (.authorization _)), db) => decide (db.called = [stableId "colleague-1"])
    | _ => false

end DigitalColleagues
