import DigitalColleagues.Deployments.System
import DigitalColleagues.Runtime.System

/-!
# Only active deployments act

`P11RuntimeController` asks once, in a read of its own, whether a deployment is
active, and then lets the retained controller run as many transactions as the call
takes. A host, the runtimes of its colleagues and the calls in progress run
interleaved.

## Main definitions

- `ControllerCall.performs` — the transactions of a call
- `ControlledState.exec`, `controlled` — the system
- `Uninterrupted` — the condition under which only active deployments act
-/

namespace DigitalColleagues

open DeploymentTables

-- ════════════════════════════════════════════════════════════════════════
-- Calls
-- ════════════════════════════════════════════════════════════════════════

/-- The entry points of `P11RuntimeController`. -/
inductive ControllerCall
  | serviceContext
  | submitTrigger
  | processOnce
  | decideProposal
deriving DecidableEq

def AgendaAction.ingestsTrigger : AgendaAction → Bool
  | .ingestEvent _ _ _ => true
  | .ingestTimer _ _ _ => true
  | _ => false

def EffectAction.recovers : EffectAction → Bool
  | .recoverExpiredDispatches _ _ _ _ => true
  | _ => false

/-- The transactions that a call may make, in the namespace that its check was
    about. The routes read the proposal that is decided in the namespace of the
    session. -/
def ControllerCall.performs {ε : Type} : ControllerCall → RuntimeAction ε → Bool
  | .serviceContext, _ => false
  | .submitTrigger, .agenda action => action.ingestsTrigger
  | .submitTrigger, .environment _ => true
  | .submitTrigger, _ => false
  | .processOnce, .agenda action => !action.ingestsTrigger
  | .processOnce, .effect action => !action.recovers
  | .processOnce, .commitApprovalAndAttempt _ => false
  | .processOnce, _ => true
  | .decideProposal, .commitApprovalAndAttempt _ => true
  | .decideProposal, .environment _ => true
  | .decideProposal, _ => false

/-- A call in progress. -/
structure OpenCall where
  tenantId : StableId
  colleagueId : StableId
  call : ControllerCall
deriving DecidableEq

-- ════════════════════════════════════════════════════════════════════════
-- The system
-- ════════════════════════════════════════════════════════════════════════

/-- A host, the runtimes of its colleagues, and the calls in progress. -/
structure ControlledState (ε : Type) where
  host : HostState
  runtimes : StableId → StableId → RuntimeState ε
  calls : List OpenCall

inductive ControlledAction (ε : Type)
  | host (action : HostAction)
  | enter (call : OpenCall)
  | inner (call : OpenCall) (action : RuntimeAction ε)
  | leave (call : OpenCall)

namespace ControlledState

variable {ε : Type}

def initial (rest : ε) : ControlledState ε := ⟨.initial, fun _ _ => .initial rest, []⟩

/-- `_require_active`. -/
def requireActive (s : ControlledState ε) (call : OpenCall) : Outcome Unit := do
  let active ← deploymentIsActive (s.host.tables.tenant call.tenantId) s.host.tables.deployments
    call.tenantId call.colleagueId
  require (active = true) (.permissionDenied "deployment is not active")

/-- The state with another runtime of a colleague. -/
def withRuntime (s : ControlledState ε) (tenantId colleagueId : StableId)
    (runtime : RuntimeState ε) : ControlledState ε :=
  { s with
    runtimes := Function.update s.runtimes tenantId
      (Function.update (s.runtimes tenantId) colleagueId runtime) }

def exec (ports : HostPorts) (hooks : StoreHooks ε) (s : ControlledState ε) :
    ControlledAction ε → Outcome (ControlledState ε)
  | .host action => do
    let host ← s.host.exec ports action
    pure { s with host := host }
  | .enter call => do
    s.requireActive call
    pure { s with calls := s.calls ++ [call] }
  | .inner call action => do
    require (call ∈ s.calls ∧ call.call.performs action = true)
      (.persistence "call is not in progress")
    let runtime ← (s.runtimes call.tenantId call.colleagueId).exec hooks action
    pure (s.withRuntime call.tenantId call.colleagueId runtime)
  | .leave call => .ok { s with calls := s.calls.erase call }

/-- The lifecycle of a deployment is active. -/
def Active (s : ControlledState ε) (tenantId colleagueId : StableId) : Prop :=
  ∃ row, s.host.tables.deployments.deployments.find? (tenantId, colleagueId) = some row ∧
    row.lifecycle = .active

end ControlledState

/-- A host with the runtimes of its colleagues behind the controller. -/
def controlled {ε : Type} (ports : HostPorts) (hooks : StoreHooks ε) :
    TransitionSystem (ControlledState ε) (ControlledAction ε) where
  init s := ∃ rest, s = .initial rest
  step s a t := s.exec ports hooks a = .ok t

-- ════════════════════════════════════════════════════════════════════════
-- The law
-- ════════════════════════════════════════════════════════════════════════

section Law

variable {ε : Type}

/-- A transaction that ingests a trigger, commits a decision, records an approval or
    starts an attempt. -/
def RuntimeAction.acts : RuntimeAction ε → Bool
  | .agenda action => action.ingestsTrigger
  | .effect (.markDispatchStarted _ _) => true
  | .commitSemanticDecision _ _ => true
  | .commitApprovalAndAttempt cmd => decide (cmd.decision.choice = .approve)
  | _ => false

/-- Where a transition acts, the deployment is active. -/
def ActsActive (e : Transition (ControlledState ε) (ControlledAction ε)) : Prop :=
  ∀ call action, e.action = .inner call action → action.acts = true →
    e.source.Active call.tenantId call.colleagueId

/-- No deployment stops being active while a call for it is in progress. -/
def Uninterrupted (e : Transition (ControlledState ε) (ControlledAction ε)) : Prop :=
  ∀ call ∈ e.source.calls, e.source.Active call.tenantId call.colleagueId →
    e.target.Active call.tenantId call.colleagueId

/-- Every call in progress is for an active deployment. -/
def ControlledState.CallsActive (s : ControlledState ε) : Prop :=
  ∀ call ∈ s.calls, s.Active call.tenantId call.colleagueId

variable {ports : HostPorts} {hooks : StoreHooks ε} {s t : ControlledState ε}
  {a : ControlledAction ε} {tr : List (Transition (ControlledState ε) (ControlledAction ε))}

/-- The check of a call reads the lifecycle. -/
theorem ControlledState.active_of_requireActive {call : OpenCall}
    (h : s.requireActive call = .ok ()) : s.Active call.tenantId call.colleagueId := by
  simp only [requireActive, bind_eq_ok, require_eq_ok] at h
  obtain ⟨active, hactive, rfl, _⟩ := h
  unfold deploymentIsActive at hactive
  split at hactive
  · rename_i deployment hdeployment
    obtain ⟨row, hrow, hfields, _⟩ := getDeployment_eq_ok hdeployment
    have hlifecycle : deployment.lifecycle = .active := of_decide_eq_true (Except.ok.inj hactive)
    exact ⟨row, hrow, hfields ▸ hlifecycle⟩
  · exact absurd (Except.ok.inj hactive) (by simp)
  · exact absurd hactive (by simp)

/-- A transition that is not interrupted keeps every call in progress active. -/
theorem callsActive_step (hstep : (controlled ports hooks).step s a t) (hs : s.CallsActive)
    (h : Uninterrupted ⟨s, a, t⟩) : t.CallsActive := by
  have hkept : ∀ call ∈ s.calls, t.Active call.tenantId call.colleagueId :=
    fun call hcall => h call hcall (hs call hcall)
  cases a with
  | host action =>
    simp only [controlled, ControlledState.exec, bind_eq_ok, pure_eq_ok] at hstep
    obtain ⟨_, _, rfl⟩ := hstep
    exact hkept
  | enter call =>
    simp only [controlled, ControlledState.exec, bind_eq_ok, pure_eq_ok] at hstep
    obtain ⟨_, hactive, rfl⟩ := hstep
    intro other hother
    rcases List.mem_append.mp hother with hother | hother
    · exact hkept other hother
    · obtain rfl := List.mem_singleton.mp hother
      exact ControlledState.active_of_requireActive hactive
  | inner call action =>
    simp only [controlled, ControlledState.exec, bind_eq_ok, pure_eq_ok] at hstep
    obtain ⟨_, _, _, _, rfl⟩ := hstep
    exact hkept
  | leave call =>
    obtain rfl := Except.ok.inj hstep
    exact fun other hother => hkept other (List.mem_of_mem_erase hother)

theorem callsActive_of_path (hpath : (controlled ports hooks).Path s tr t) (hs : s.CallsActive)
    (h : ∀ e ∈ tr, Uninterrupted e) : t.CallsActive := by
  induction hpath with
  | refl => exact hs
  | snoc _ hstep ih =>
    have hbefore := ih fun e he => h e (List.mem_append_left _ he)
    exact callsActive_step hstep hbefore (h _ (List.mem_append_right _ (List.mem_singleton_self _)))

/-- What acts belongs to a call in progress. -/
theorem actsActive_of_step (hstep : (controlled ports hooks).step s a t) (hs : s.CallsActive) :
    ActsActive ⟨s, a, t⟩ := by
  rintro call action rfl _
  simp only [controlled, ControlledState.exec, bind_eq_ok, require_eq_ok] at hstep
  obtain ⟨_, ⟨hcall, _⟩, _⟩ := hstep
  exact hs call hcall

/-- **Only active deployments act**: in every run that interrupts no call, whatever
    ingests, decides, approves or starts an effect finds its deployment active. -/
theorem only_active_deployments_act {rest : ε}
    (hpath : (controlled ports hooks).Path (.initial rest) tr t)
    (h : ∀ e ∈ tr, Uninterrupted e) : ∀ e ∈ tr, ActsActive e := by
  induction hpath with
  | refl => simp
  | @snoc u v a tr hbefore hstep ih =>
    have hrest : ∀ e ∈ tr, Uninterrupted e := fun e he => h e (List.mem_append_left _ he)
    have hinitial : (ControlledState.initial rest).CallsActive := fun call hcall => by
      simp [ControlledState.initial] at hcall
    intro e he
    rcases List.mem_append.mp he with he | he
    · exact ih hrest e he
    · obtain rfl := List.mem_singleton.mp he
      exact actsActive_of_step hstep (callsActive_of_path hbefore hinitial hrest)

end Law

-- ════════════════════════════════════════════════════════════════════════
-- A pause during a call
-- ════════════════════════════════════════════════════════════════════════

def sampleOpenCall : OpenCall := ⟨sampleTenant, stableId "deployment-1", .submitTrigger⟩

/-- A host action as an action of the system. -/
def onHost (a : HostState → HostAction) (s : ControlledState AuthorityRecords) :
    ControlledAction AuthorityRecords := .host (a s.host)

/-- The sample deployment, active, and a call for it. -/
def sampleEntered : List (ControlledState AuthorityRecords → ControlledAction AuthorityRecords) :=
  (sampleDeployed ++ [sampleTransition 70 "active" 1 7 "key-1"]).map onHost ++
    [fun _ => .enter sampleOpenCall]

def sampleLateIngestion : ControlledState AuthorityRecords → ControlledAction AuthorityRecords :=
  fun _ => .inner sampleOpenCall
    (.agenda (.ingestEvent (sampleEvent (stableId "event-1") (stableId "message") 5) "event-1"
      (stableId "trigger-1")))

/-- The lifecycle of the sample deployment. -/
def sampleLifecycle (s : ControlledState AuthorityRecords) : Option DeploymentLifecycle :=
  (s.host.tables.deployments.deployments.find? (sampleTenant, stableId "deployment-1")).map
    fun row => row.lifecycle

theorem active_iff_sampleLifecycle {s : ControlledState AuthorityRecords} :
    s.Active sampleOpenCall.tenantId sampleOpenCall.colleagueId ↔
      sampleLifecycle s = some .active := by
  rw [sampleLifecycle, Option.map_eq_some_iff]
  rfl

/-- Whether a transition of the sample call acts, in the given lifecycle. -/
def actsIn (lifecycle : DeploymentLifecycle)
    (e : Transition (ControlledState AuthorityRecords) (ControlledAction AuthorityRecords)) : Bool :=
  match e.action with
  | .inner call action => decide (call = sampleOpenCall) && action.acts &&
      decide (sampleLifecycle e.source = some lifecycle)
  | _ => false

theorem exists_of_actsIn {lifecycle : DeploymentLifecycle}
    {e : Transition (ControlledState AuthorityRecords) (ControlledAction AuthorityRecords)}
    (h : actsIn lifecycle e = true) :
    ∃ action, e.action = .inner sampleOpenCall action ∧ action.acts = true ∧
      sampleLifecycle e.source = some lifecycle := by
  unfold actsIn at h
  split at h
  · rename_i call action haction
    simp only [Bool.and_eq_true, decide_eq_true_eq] at h
    obtain ⟨⟨rfl, hacts⟩, hlifecycle⟩ := h
    exact ⟨action, haction, hacts, hlifecycle⟩
  · simp at h

theorem exists_controlled_path
    (as : List (ControlledState AuthorityRecords → ControlledAction AuthorityRecords))
    (p : List (Transition (ControlledState AuthorityRecords) (ControlledAction AuthorityRecords)) →
      ControlledState AuthorityRecords → Bool)
    (h : TransitionSystem.runsTo (ControlledState.exec sampleHostPorts sqliteRuntimeStore)
      (.initial sampleAuthority) as p = true) :
    ∃ tr t, (controlled sampleHostPorts sqliteRuntimeStore).Path (.initial sampleAuthority) tr t ∧
      p tr t = true :=
  TransitionSystem.exists_path_of_runsTo (fun _ _ _ hs => hs) h

set_option maxRecDepth 8000 in
/-- A trigger that is submitted for an active deployment. -/
theorem only_active_deployments_act_submitted : ∃ tr t,
    (controlled sampleHostPorts sqliteRuntimeStore).Path (.initial sampleAuthority) tr t ∧
    (∃ e ∈ tr, actsIn .active e = true) ∧ ∀ e ∈ tr, ActsActive e := by
  obtain ⟨tr, t, hpath, hp⟩ := exists_controlled_path (sampleEntered ++ [sampleLateIngestion])
    (fun tr _ => tr.any (actsIn .active) && tr.all fun e => e.source.calls.all fun call =>
      decide (call = sampleOpenCall) && decide (sampleLifecycle e.target = some .active))
    (by decide +kernel)
  simp only [Bool.and_eq_true, List.any_eq_true, List.all_eq_true, decide_eq_true_eq] at hp
  refine ⟨tr, t, hpath, hp.1, only_active_deployments_act hpath fun e he call hcall _ => ?_⟩
  obtain ⟨rfl, hlifecycle⟩ := hp.2 e he call hcall
  exact active_iff_sampleLifecycle.mpr hlifecycle

set_option maxRecDepth 8000 in
/-- The deployment is paused between the check of a call and its transaction, which
    ingests a trigger all the same. -/
theorem not_only_active_deployments_act : ¬∀ tr t,
    (controlled sampleHostPorts sqliteRuntimeStore).Path (.initial sampleAuthority) tr t →
    ∀ e ∈ tr, ActsActive e := by
  intro h
  obtain ⟨tr, t, hpath, hp⟩ := exists_controlled_path
    (sampleEntered ++ [onHost (sampleTransition 72 "paused" 2 7 "key-2"), sampleLateIngestion])
    (fun tr _ => tr.any (actsIn .paused)) (by decide +kernel)
  obtain ⟨e, he, hacts⟩ := List.any_eq_true.mp hp
  obtain ⟨action, haction, hacts, hpaused⟩ := exists_of_actsIn hacts
  have hactive := active_iff_sampleLifecycle.mp (h tr t hpath e he _ action haction hacts)
  exact absurd (hpaused.symm.trans hactive) (by decide)

end DigitalColleagues
