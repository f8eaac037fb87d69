import DigitalColleagues.Channel.HttpJson
import DigitalColleagues.Runtime.BoundedDispatch
import DigitalColleagues.Runtime.Quiescence

/-!
# Workers with HTTP channels

Any number of workers on one store, each with its own channel object. What a worker
finalizes is what its channel reported to it; what the network does in an exchange is
arbitrary. A worker that restarts goes on with another channel object.

## Main definitions

- `ProvidedState`, `ProvidedState.exec` — the store, the channels and what the workers hold
- `provided` — the runs
- `ProvidedState.Rests` — what the stored results rest on
-/

namespace DigitalColleagues

open EffectTables

-- ════════════════════════════════════════════════════════════════════════
-- The runs
-- ════════════════════════════════════════════════════════════════════════

/-- A dispatch that a worker made for its claim, with the requests that it handed over. -/
structure MadeDispatch where
  claim : OutboxClaim
  effect : ChannelEffect
  exchange : Exchange
  outcome : ChannelOutcome
  sent : List (StableId × String)

/-- A reconciliation that a worker made for its claim. -/
structure MadeReconciliation where
  claim : OutboxClaim
  exchange : Exchange
  outcome : ReconciliationOutcome
  sent : List (StableId × String)

/-- A bundle that a worker loaded for its claim. -/
structure LoadedBundle where
  claim : OutboxClaim
  bundle : DispatchBundle

/-- The store of one colleague, the channel objects, and what the workers hold. -/
structure ProvidedState (ε : Type) where
  runtime : RuntimeState ε
  channels : ℕ → HttpJsonChannel
  loaded : List LoadedBundle
  dispatches : List MadeDispatch
  reconciliations : List MadeReconciliation

/-- The steps of the workers; a number names what a worker holds, or a channel. -/
inductive ProvidedAction (ε : Type)
  | store (action : RuntimeAction ε)
  | load (claim : OutboxClaim) (mandateId : StableId)
  | apply (loaded : ℕ) (attempt : EffectAttempt) (channel : ℕ) (x : Exchange)
  | finalize (dispatch : ℕ) (fin : Finalization)
  | ask (loaded : ℕ) (channel : ℕ) (x : Exchange)
  | reconcile (reconciliation : ℕ) (fin : Finalization) (nextReconciliationAt : Option Instant)

/-- A transaction that does not depend on a channel. -/
def RuntimeAction.withoutChannel {ε : Type} : RuntimeAction ε → Bool
  | .effect (.channelApply _) => false
  | .effect (.finalizeDispatch _ _ _) => false
  | .effect (.reconcileAmbiguous _ _ _ _) => false
  | _ => true

def notHeld : Failure := .persistence "worker does not hold this record"

namespace ProvidedState

variable {ε : Type}

def initial (rest : ε) : ProvidedState ε := ⟨.initial rest, fun _ => .initial, [], [], []⟩

def exec (hooks : StoreHooks ε) (ports : ChannelPorts) (s : ProvidedState ε) :
    ProvidedAction ε → Outcome (ProvidedState ε)
  | .store action => do
    require (action.withoutChannel = true) notHeld
    let runtime ← s.runtime.exec hooks action
    pure { s with runtime := runtime }
  | .load claim mandateId => do
    let runtime ← s.runtime.exec hooks (.loadDispatchBundle claim mandateId)
    let bundle ← s.runtime.store.loadDispatchBundle hooks claim mandateId
    pure { s with runtime := runtime, loaded := s.loaded ++ [⟨claim, bundle⟩] }
  | .apply n attempt i x => do
    let held ← orFail s.loaded[n]? notHeld
    require (attempt.effectAttemptId = held.claim.effectAttemptId) notHeld
    let runtime ← s.runtime.exec hooks (.effect (.channelApply attempt))
    let effect := ⟨held.bundle.proposal, attempt, held.bundle.effectIdempotencyKey⟩
    let (outcome, c) := (s.channels i).apply ports x effect
    pure { s with
      runtime := runtime
      channels := Function.update s.channels i c
      dispatches := s.dispatches ++ [⟨held.claim, effect, x, outcome,
        c.submissions.drop (s.channels i).submissions.length⟩] }
  | .finalize n fin => do
    let made ← orFail s.dispatches[n]? notHeld
    let runtime ← s.runtime.exec hooks (.effect (.finalizeDispatch made.claim made.outcome fin))
    pure { s with runtime := runtime }
  | .ask n i x => do
    let held ← orFail s.loaded[n]? notHeld
    let (outcome, c) := (s.channels i).reconcile ports x held.bundle.effectIdempotencyKey
      (some held.bundle.proposal.proposalDigest.text)
    pure { s with
      channels := Function.update s.channels i c
      reconciliations := s.reconciliations ++ [⟨held.claim, x, outcome,
        c.submissions.drop (s.channels i).submissions.length⟩] }
  | .reconcile n fin nextReconciliationAt => do
    let made ← orFail s.reconciliations[n]? notHeld
    let runtime ← s.runtime.exec hooks
      (.effect (.reconcileAmbiguous made.claim made.outcome fin nextReconciliationAt))
    pure { s with runtime := runtime }

end ProvidedState

/-- The runs of any number of workers with HTTP channels on one colleague. -/
def provided {ε : Type} (hooks : StoreHooks ε) (ports : ChannelPorts) :
    TransitionSystem (ProvidedState ε) (ProvidedAction ε) where
  init s := ∃ rest, s = .initial rest
  step s a t := s.exec hooks ports a = .ok t

-- ════════════════════════════════════════════════════════════════════════
-- What a transaction settles
-- ════════════════════════════════════════════════════════════════════════

/-- What the new result of a transaction says. -/
def RuntimeAction.Settles {ε : Type} (result : ActionResult) : RuntimeAction ε → Prop
  | .effect (.finalizeDispatch claim outcome _) =>
    result.effectAttemptId = claim.effectAttemptId ∧ result.state = (resultStates outcome.kind).1
  | .effect (.recoverExpiredDispatches _ _ _ _) => result.state = .ambiguous
  | .effect (.reconcileAmbiguous claim outcome _ _) =>
    result.effectAttemptId = claim.effectAttemptId ∧ outcome.kind ≠ .stillUnknown ∧
      result.state = (reconciledStates outcome.kind).1
  | _ => False

namespace EffectTables

variable {s t : EffectTables} {result : ActionResult}

theorem results_of_move {o : Option LastOutcome} (h : s.Move o t) (ho : o = none) :
    t.results = s.results := by
  cases h with
  | idle => rfl
  | propose => rfl
  | decide hinsert =>
    obtain ⟨_, _, _, _, _, _, rfl⟩ := insertDecision_eq_ok hinsert
    rfl
  | approve _ hinsert henqueue =>
    obtain ⟨_, _, _, _, _, _, rfl⟩ := insertDecision_eq_ok hinsert
    obtain ⟨_, _, _, _, _, rfl⟩ := enqueueAttempt_eq_ok henqueue
    rfl
  | claim => rfl
  | start => rfl
  | unknown => rfl
  | settle => simp at ho
  | retry => simp at ho

theorem mem_of_insertRecord {results : Records ActionResult} {new : ActionResult}
    (h : s.results.insertRecord new = .ok results) (hr : result ∈ results.domain) :
    result ∈ s.results.domain ∨ result = new :=
  (Table.mem_insert (Records.insert?_of_insertRecord h)).mp hr

theorem mem_of_finalizeDispatch {claim : OutboxClaim} {outcome : ChannelOutcome}
    {fin : Finalization} {new : ActionResult}
    (h : s.finalizeDispatch claim outcome fin = .ok (new, t)) (hr : result ∈ t.results.domain) :
    result ∈ s.results.domain ∨ result.effectAttemptId = claim.effectAttemptId ∧
      result.state = (resultStates outcome.kind).1 := by
  obtain ⟨_, attempt, _, results, _, attempts, _, hattempt, _, _, rfl, hinsert, _, rfl⟩ :=
    finalizeDispatch_eq_ok h
  rcases mem_of_insertRecord hinsert hr with hold | rfl
  · exact .inl hold
  · exact .inr ⟨effectAttemptId_of_find? hattempt, rfl⟩

theorem mem_of_reconcileAmbiguous {claim : OutboxClaim} {outcome : ReconciliationOutcome}
    {fin : Finalization} {next : Option Instant} {new : Option ActionResult}
    (h : s.reconcileAmbiguous claim outcome fin next = .ok (new, t))
    (hr : result ∈ t.results.domain) :
    result ∈ s.results.domain ∨ result.effectAttemptId = claim.effectAttemptId ∧
      outcome.kind ≠ .stillUnknown ∧ result.state = (reconciledStates outcome.kind).1 := by
  obtain ⟨row, attempt, _, hattempt, _, ⟨_, _, _, rfl⟩ |
    ⟨hkind, settled, _, results, _, attempts, _, rfl, hinsert, _, rfl⟩⟩ :=
    reconcileAmbiguous_eq_ok h
  · exact .inl hr
  · rcases mem_of_insertRecord hinsert hr with hold | rfl
    · exact .inl hold
    · exact .inr ⟨effectAttemptId_of_find? hattempt, hkind, rfl⟩

end EffectTables

section Runtime

variable {ε : Type} {hooks : StoreHooks ε} {s t : RuntimeState ε} {a : RuntimeAction ε}

/-- Every result in the store was there before, or is the one that the action settles. -/
theorem RuntimeState.mem_results_of_exec (h : s.exec hooks a = .ok t) {result : ActionResult}
    (hr : result ∈ t.effects.tables.results.domain) :
    result ∈ s.effects.tables.results.domain ∨ a.Settles result := by
  by_cases hnone : a.outcome = none
  · rw [results_of_move (RuntimeState.effects_move h) hnone] at hr
    exact .inl hr
  · cases a with
    | effect action =>
      simp only [exec, bind_eq_ok, pure_eq_ok] at h
      obtain ⟨effects, heffects, rfl⟩ := h
      cases action with
      | finalizeDispatch claim outcome fin =>
        simp only [EffectSide.exec, bind_eq_ok, pure_eq_ok, Prod.exists] at heffects
        obtain ⟨_, _, _, tables, hfinalize, rfl⟩ := heffects
        exact mem_of_finalizeDispatch hfinalize hr
      | recoverExpiredDispatches now resultActor resultId resultDigest =>
        simp only [EffectSide.exec, bind_eq_ok, pure_eq_ok, Prod.exists] at heffects
        obtain ⟨_, tables, hrecover, rfl⟩ := heffects
        rcases recoverExpiredDispatches_eq_ok hrecover with rfl |
          ⟨claim, outcome, fin, _, hkind, _, hfinalize⟩
        · exact .inl hr
        · rcases mem_of_finalizeDispatch hfinalize hr with hold | ⟨_, hstate⟩
          · exact .inl hold
          · exact .inr (by rw [hkind] at hstate; exact hstate)
      | reconcileAmbiguous claim outcome fin next =>
        simp only [EffectSide.exec, bind_eq_ok, pure_eq_ok, Prod.exists] at heffects
        obtain ⟨_, _, _, tables, hreconcile, rfl⟩ := heffects
        exact mem_of_reconcileAmbiguous hreconcile hr
      | _ => exact absurd rfl hnone
    | _ => exact absurd rfl hnone

end Runtime

-- ════════════════════════════════════════════════════════════════════════
-- One exchange for an attempt
-- ════════════════════════════════════════════════════════════════════════

namespace EffectTables

variable {s t : EffectTables}

/-- What can be started later can be started now. -/
theorem startable_of_move {o : Option LastOutcome} (h : s.Move o t) (id : StableId) :
    startable t id ≤ startable s id := by
  cases hs : s.attempts.find? id with
  | none =>
    rw [startable, startable, hs]
    split
    · split
      · exact le_rfl
      · exact Nat.zero_le _
    · exact le_rfl
  | some a =>
    obtain ⟨a', ha', _, hadvances⟩ := attempt_move h hs
    rw [startable, startable, hs, ha']
    dsimp only
    by_cases hplanned : a.state = .planned
    · rw [if_pos hplanned]
      split <;> simp
    · rw [if_neg (hadvances.started hplanned)]
      exact Nat.zero_le _

theorem effectAttemptId_of_markDispatchStarted {claim : OutboxClaim} {occurredAt : Instant}
    {started : EffectAttempt} (h : s.markDispatchStarted claim occurredAt = .ok (started, t)) :
    started.effectAttemptId = claim.effectAttemptId := by
  obtain ⟨_, attempt, _, _, hattempt, _, _, rfl, _⟩ := markDispatchStarted_eq_ok h
  show attempt.effectAttemptId = _
  exact effectAttemptId_of_find? hattempt

theorem startable_of_markDispatchStarted {claim : OutboxClaim} {occurredAt : Instant}
    {started : EffectAttempt} (h : s.markDispatchStarted claim occurredAt = .ok (started, t)) :
    startable s started.effectAttemptId = 1 ∧ startable t started.effectAttemptId = 0 := by
  have hid := effectAttemptId_of_markDispatchStarted h
  obtain ⟨row, attempt, attempts, _, hattempt, hplanned, hupdate, rfl, rfl⟩ :=
    markDispatchStarted_eq_ok h
  have hnew : attempts.find? claim.effectAttemptId = some (startAttempt attempt occurredAt) := by
    rw [← hid]
    exact Records.find?_updateRecord_self hupdate
  rw [hid]
  constructor
  · simp [startable, hattempt, hplanned]
  · simp [startable, hnew, startAttempt]

end EffectTables

/-- How often a worker may still call its channel for an attempt. -/
def RuntimeState.callable {ε : Type} (s : RuntimeState ε) (id : StableId) : ℕ :=
  s.effects.started.countP (fun a => decide (a.effectAttemptId = id)) +
    startable s.effects.tables id

/-- The attempt that an action calls the channel for. -/
def RuntimeAction.appliedAttempt {ε : Type} : RuntimeAction ε → Option StableId
  | .effect (.channelApply attempt) => some attempt.effectAttemptId
  | _ => none

section Callable

variable {ε : Type} {hooks : StoreHooks ε} {s t : RuntimeState ε} {a : RuntimeAction ε}

theorem RuntimeState.callable_initial (rest : ε) (id : StableId) :
    (RuntimeState.initial rest).callable id = 1 := rfl

/-- A step that starts no attempt and calls no channel. -/
theorem RuntimeState.callable_of_started (h : s.exec hooks a = .ok t)
    (hnone : a.appliedAttempt = none) (hstarted : t.effects.started = s.effects.started)
    (id : StableId) :
    t.callable id + (if a.appliedAttempt = some id then 1 else 0) ≤ s.callable id := by
  have hle := startable_of_move (RuntimeState.effects_move h) id
  rw [callable, callable, hstarted, hnone]
  simp
  omega

theorem EffectAction.appliedAttempt_eq_none {action : EffectAction}
    (h : ∀ x, action ≠ .channelApply x) :
    (RuntimeAction.effect action : RuntimeAction ε).appliedAttempt = none := by
  cases action with
  | channelApply attempt => exact absurd rfl (h attempt)
  | _ => rfl

/-- A step raises for no attempt how often the channel may be called, and a call
    lowers it. -/
theorem RuntimeState.callable_of_exec (h : s.exec hooks a = .ok t) (id : StableId) :
    t.callable id + (if a.appliedAttempt = some id then 1 else 0) ≤ s.callable id := by
  have hexec := h
  cases a with
  | effect action =>
    simp only [exec, bind_eq_ok, pure_eq_ok] at hexec
    obtain ⟨effects, heffects, rfl⟩ := hexec
    rcases EffectSide.exec_started heffects with ⟨_, _, attempt, hmark, hstarted, hne⟩ |
      ⟨attempt, hmem, rfl, htables, hstarted⟩ | ⟨hstarted, hne⟩
    · have hmove := startable_of_move (RuntimeState.effects_move h) id
      obtain ⟨hbefore, hafter⟩ := startable_of_markDispatchStarted hmark
      rw [callable, callable, EffectAction.appliedAttempt_eq_none hne, hstarted, List.countP_append,
        List.countP_singleton]
      by_cases hid : attempt.effectAttemptId = id
      · subst hid
        simp
        omega
      · simp [hid]
        omega
    · rw [callable, callable, htables, hstarted, List.countP_erase]
      by_cases hid : attempt.effectAttemptId = id
      · have hpos : 0 < s.effects.started.countP fun a => decide (a.effectAttemptId = id) :=
          List.countP_pos_iff.mpr ⟨attempt, hmem, decide_eq_true hid⟩
        have happly : (RuntimeAction.effect (.channelApply attempt) :
            RuntimeAction ε).appliedAttempt = some id := congrArg some hid
        rw [if_pos happly, if_pos ⟨hmem, decide_eq_true hid⟩]
        omega
      · simp [RuntimeAction.appliedAttempt, hid]
    · exact callable_of_started h (EffectAction.appliedAttempt_eq_none hne) hstarted id
  | agenda action =>
    simp only [exec, bind_eq_ok, pure_eq_ok] at hexec
    obtain ⟨_, _, rfl⟩ := hexec
    exact callable_of_started h rfl rfl id
  | commitSemanticDecision claim semantic =>
    simp only [exec, bind_eq_ok, pure_eq_ok] at hexec
    obtain ⟨_, _, _, _, rfl⟩ := hexec
    exact callable_of_started h rfl rfl id
  | commitApprovalAndAttempt cmd =>
    simp only [exec, bind_eq_ok, pure_eq_ok] at hexec
    obtain ⟨_, _, rfl⟩ := hexec
    exact callable_of_started h rfl rfl id
  | loadDispatchBundle claim mandateId =>
    simp only [exec, bind_eq_ok, pure_eq_ok] at hexec
    obtain ⟨_, _, _, _, rfl⟩ := hexec
    exact callable_of_started h rfl rfl id
  | environment rest =>
    obtain rfl := Except.ok.inj hexec
    exact callable_of_started h rfl rfl id

end Callable

-- ════════════════════════════════════════════════════════════════════════
-- What the stored results rest on
-- ════════════════════════════════════════════════════════════════════════

/-- The request belongs to the effect of a stored attempt. -/
def EffectTables.RequestOf (s : EffectTables) (id : StableId) (request : StableId × String) :
    Prop :=
  ∃ a p, s.attempts.find? id = some a ∧ s.proposals.find? a.proposalId = some p ∧
    request = (p.constraints.idempotencyKey, p.proposalDigest.text)

theorem EffectTables.RequestOf.of_move {s t : EffectTables} {o : Option LastOutcome} {id : StableId}
    {request : StableId × String} (h : s.RequestOf id request) (hm : s.Move o t) :
    t.RequestOf id request := by
  obtain ⟨a, p, ha, hp, hrequest⟩ := h
  obtain ⟨a', ha', hsame, _⟩ := attempt_move hm ha
  exact ⟨a', p, ha', hsame.proposalId ▸ hm.retains.proposals _ _ hp, hrequest⟩

/-- The request of a loaded bundle. -/
def DispatchBundle.request (bundle : DispatchBundle) : StableId × String :=
  (bundle.effectIdempotencyKey, bundle.proposal.proposalDigest.text)

/-- A bundle is loaded with the request of its claim's attempt. -/
theorem EffectTables.requestOf_of_load {s : EffectTables} {findMandate : StableId → Option Mandate}
    {findPrincipal : StableId → Option Principal} {claim : OutboxClaim} {mandateId : StableId}
    {bundle : DispatchBundle}
    (h : s.loadDispatchBundle findMandate findPrincipal claim mandateId = .ok bundle) :
    s.RequestOf claim.effectAttemptId bundle.request := by
  simp only [loadDispatchBundle, bind_eq_ok, Records.getRecord_eq_ok, orFail_eq_ok, require_eq_ok,
    pure_eq_ok, exists_const] at h
  obtain ⟨row, _, proposal, hproposal, _, _, attempt, hattempt, _, _, _, _, hvalid, rfl⟩ := h
  unfold bindingsValid at hvalid
  have hid : proposal.proposalId = claim.proposalId := Records.key_of_find? hproposal
  refine ⟨attempt, proposal, hattempt, ?_, ?_⟩
  · rw [← hvalid.2.1, hid]
    exact hproposal
  · simp only [DispatchBundle.request, Prod.mk.injEq, and_true]
    grind

/-- What a worker was told about its dispatch is what the exchange established. -/
structure MadeDispatch.Rests (ports : ChannelPorts) (s : EffectTables) (made : MadeDispatch) :
    Prop where
  request : s.RequestOf made.claim.effectAttemptId (HttpJsonChannel.requestOf made.effect)
  outcome : HttpJsonChannel.RestsOn ports made.exchange (HttpJsonChannel.requestOf made.effect)
    made.sent made.outcome.kind

/-- What a worker was told about its reconciliation is unknown, or what the provider
    answered to the request of the effect. -/
def MadeReconciliation.Rests (ports : ChannelPorts) (s : EffectTables)
    (made : MadeReconciliation) : Prop :=
  made.outcome.kind = .stillUnknown ∨ ∃ request,
    s.RequestOf made.claim.effectAttemptId request ∧ made.sent = [request] ∧
      HttpJsonChannel.AnsweredReconciliation ports made.exchange made.outcome.kind

namespace ProvidedState

variable {ε : Type} {hooks : StoreHooks ε} {ports : ChannelPorts} {s t : ProvidedState ε}

def tables (s : ProvidedState ε) : EffectTables := s.runtime.effects.tables

/-- A result says what some worker was told, or nothing. -/
def Backs (s : ProvidedState ε) (result : ActionResult) : Prop :=
  result.state = .ambiguous ∨
  (∃ made ∈ s.dispatches, result.effectAttemptId = made.claim.effectAttemptId ∧
    result.state = (resultStates made.outcome.kind).1) ∨
  ∃ made ∈ s.reconciliations, result.effectAttemptId = made.claim.effectAttemptId ∧
    made.outcome.kind ≠ .stillUnknown ∧ result.state = (reconciledStates made.outcome.kind).1

/-- What the workers hold and what the store says rests on the exchanges. -/
structure Rests (ports : ChannelPorts) (s : ProvidedState ε) : Prop where
  loaded : ∀ held ∈ s.loaded, s.tables.RequestOf held.claim.effectAttemptId held.bundle.request
  dispatches : ∀ made ∈ s.dispatches, made.Rests ports s.tables
  reconciliations : ∀ made ∈ s.reconciliations, made.Rests ports s.tables
  results : ∀ result ∈ s.tables.results.domain, s.Backs result

theorem rests_initial (rest : ε) : (initial rest).Rests ports :=
  ⟨by simp [initial], by simp [initial], by simp [initial],
    fun result hresult => absurd hresult (Table.not_mem_empty result)⟩

theorem Backs.mono {result : ActionResult} (h : s.Backs result)
    (hdispatches : s.dispatches ⊆ t.dispatches)
    (hreconciliations : s.reconciliations ⊆ t.reconciliations) : t.Backs result := by
  rcases h with h | ⟨made, hmade, h⟩ | ⟨made, hmade, h⟩
  · exact .inl h
  · exact .inr (.inl ⟨made, hdispatches hmade, h⟩)
  · exact .inr (.inr ⟨made, hreconciliations hmade, h⟩)

/-- A transaction whose new result is backed. -/
theorem Rests.of_exec (h : s.Rests ports) {action : RuntimeAction ε} {runtime : RuntimeState ε}
    (hexec : s.runtime.exec hooks action = .ok runtime)
    (hsettles : ∀ result, action.Settles result → s.Backs result) :
    { s with runtime := runtime }.Rests ports := by
  have hmove := RuntimeState.effects_move hexec
  refine ⟨fun held hheld => (h.loaded held hheld).of_move hmove, fun made hmade => ?_,
    fun made hmade => ?_, fun result hresult => ?_⟩
  · have hmade := h.dispatches made hmade
    exact ⟨hmade.request.of_move hmove, hmade.outcome⟩
  · rcases h.reconciliations made hmade with hunknown | ⟨request, hrequest, hsent, hanswered⟩
    · exact .inl hunknown
    · exact .inr ⟨request, hrequest.of_move hmove, hsent, hanswered⟩
  · rcases RuntimeState.mem_results_of_exec hexec hresult with hold | hsettled
    · exact h.results result hold
    · exact hsettles result hsettled

theorem drop_append_eq {α : Type} {l l' sent : List α} (h : l' = l ++ sent) :
    l'.drop l.length = sent := by
  rw [h, List.drop_left]

theorem rests_of_exec {a : ProvidedAction ε} (h : s.Rests ports)
    (hexec : s.exec hooks ports a = .ok t) : t.Rests ports := by
  cases a with
  | store action =>
    simp only [exec, bind_eq_ok, require_eq_ok, pure_eq_ok, exists_const] at hexec
    obtain ⟨hwithout, runtime, hruntime, rfl⟩ := hexec
    refine h.of_exec hruntime fun result hsettles => .inl ?_
    unfold RuntimeAction.Settles at hsettles
    split at hsettles
    · simp [RuntimeAction.withoutChannel] at hwithout
    · exact hsettles
    · simp [RuntimeAction.withoutChannel] at hwithout
    · exact hsettles.elim
  | load claim mandateId =>
    simp only [exec, bind_eq_ok, pure_eq_ok] at hexec
    obtain ⟨runtime, hruntime, bundle, hbundle, rfl⟩ := hexec
    have hmoved := h.of_exec hruntime fun _ hsettles => hsettles.elim
    refine ⟨fun held hheld => ?_, hmoved.dispatches, hmoved.reconciliations, hmoved.results⟩
    rcases List.mem_append.mp hheld with hheld | hheld
    · exact hmoved.loaded held hheld
    · obtain rfl := List.mem_singleton.mp hheld
      exact (requestOf_of_load hbundle).of_move (RuntimeState.effects_move hruntime)
  | apply n attempt i x =>
    simp only [exec, bind_eq_ok, orFail_eq_ok, require_eq_ok, pure_eq_ok, exists_const] at hexec
    obtain ⟨held, hheld, _, runtime, hruntime, rfl⟩ := hexec
    have hmoved := h.of_exec hruntime fun _ hsettles => hsettles.elim
    obtain ⟨sent, hsent, hrests⟩ := HttpJsonChannel.apply_rests_on_exchange ports x (s.channels i)
      ⟨held.bundle.proposal, attempt, held.bundle.effectIdempotencyKey⟩
    refine ⟨hmoved.loaded, fun made hmade => ?_, hmoved.reconciliations, fun result hresult => ?_⟩
    · rcases List.mem_append.mp hmade with hmade | hmade
      · exact hmoved.dispatches made hmade
      · obtain rfl := List.mem_singleton.mp hmade
        refine ⟨hmoved.loaded held (List.mem_of_getElem? hheld), ?_⟩
        rw [drop_append_eq hsent]
        exact hrests
    · exact (hmoved.results result hresult).mono (List.subset_append_left ..) (List.Subset.refl _)
  | finalize n fin =>
    simp only [exec, bind_eq_ok, orFail_eq_ok, pure_eq_ok] at hexec
    obtain ⟨made, hmade, runtime, hruntime, rfl⟩ := hexec
    exact h.of_exec hruntime fun result hsettles =>
      .inr (.inl ⟨made, List.mem_of_getElem? hmade, hsettles⟩)
  | ask n i x =>
    simp only [exec, bind_eq_ok, orFail_eq_ok, pure_eq_ok] at hexec
    obtain ⟨held, hheld, rfl⟩ := hexec
    have hrests := HttpJsonChannel.reconcile_rests_on_exchange ports x (s.channels i)
      held.bundle.effectIdempotencyKey (some held.bundle.proposal.proposalDigest.text)
    refine ⟨h.loaded, h.dispatches, fun made hmade => ?_, fun result hresult => ?_⟩
    · rcases List.mem_append.mp hmade with hmade | hmade
      · exact h.reconciliations made hmade
      · obtain rfl := List.mem_singleton.mp hmade
        rcases hrests with hunknown | ⟨binding, hbinding, hsent, hanswered⟩
        · exact .inl hunknown
        · obtain rfl := Option.some.inj hbinding
          have hrequest := h.loaded held (List.mem_of_getElem? hheld)
          exact .inr ⟨_, hrequest, drop_append_eq hsent, hanswered⟩
    · exact (h.results result hresult).mono (List.Subset.refl _) (List.subset_append_left ..)
  | reconcile n fin next =>
    simp only [exec, bind_eq_ok, orFail_eq_ok, pure_eq_ok] at hexec
    obtain ⟨made, hmade, runtime, hruntime, rfl⟩ := hexec
    exact h.of_exec hruntime fun result hsettles =>
      .inr (.inr ⟨made, List.mem_of_getElem? hmade, hsettles⟩)

theorem rests_of_reachable (h : (provided hooks ports).Reachable s) : s.Rests ports := by
  refine h.invariant (I := Rests ports) ?_ fun _ _ _ hs hstep => rests_of_exec hs hstep
  rintro _ ⟨rest, rfl⟩
  exact rests_initial rest

/-- How often the channel was called for an attempt. -/
def calls (s : ProvidedState ε) (id : StableId) : ℕ :=
  s.dispatches.countP fun made => decide (made.claim.effectAttemptId = id)

/-- The channel was called for an attempt, or may be called, once in all. -/
def Once (s : ProvidedState ε) : Prop := ∀ id, s.calls id + s.runtime.callable id ≤ 1

theorem once_initial (rest : ε) : (initial rest).Once := by
  intro id
  simp [initial, calls, RuntimeState.callable_initial]

theorem Once.of_exec (h : s.Once) {action : RuntimeAction ε} {runtime : RuntimeState ε}
    (hexec : s.runtime.exec hooks action = .ok runtime) :
    { s with runtime := runtime }.Once := by
  intro id
  have hs := h id
  have hcallable := RuntimeState.callable_of_exec hexec id
  show s.calls id + runtime.callable id ≤ 1
  omega

theorem once_of_exec {a : ProvidedAction ε} (h : s.Once) (hexec : s.exec hooks ports a = .ok t) :
    t.Once := by
  cases a with
  | store action =>
    simp only [exec, bind_eq_ok, require_eq_ok, pure_eq_ok, exists_const] at hexec
    obtain ⟨_, runtime, hruntime, rfl⟩ := hexec
    exact h.of_exec hruntime
  | load claim mandateId =>
    simp only [exec, bind_eq_ok, pure_eq_ok] at hexec
    obtain ⟨runtime, hruntime, _, _, rfl⟩ := hexec
    exact h.of_exec hruntime
  | apply n attempt i x =>
    simp only [exec, bind_eq_ok, orFail_eq_ok, require_eq_ok, pure_eq_ok, exists_const] at hexec
    obtain ⟨held, hheld, hattempt, runtime, hruntime, rfl⟩ := hexec
    intro id
    have hs := h id
    have hcallable := RuntimeState.callable_of_exec hruntime id
    simp only [RuntimeAction.appliedAttempt, Option.some.injEq, hattempt] at hcallable
    simp only [calls, List.countP_append, List.countP_singleton, decide_eq_true_eq] at hs ⊢
    omega
  | finalize n fin =>
    simp only [exec, bind_eq_ok, orFail_eq_ok, pure_eq_ok] at hexec
    obtain ⟨_, _, runtime, hruntime, rfl⟩ := hexec
    exact h.of_exec hruntime
  | ask n i x =>
    simp only [exec, bind_eq_ok, orFail_eq_ok, pure_eq_ok] at hexec
    obtain ⟨_, _, rfl⟩ := hexec
    exact h
  | reconcile n fin next =>
    simp only [exec, bind_eq_ok, orFail_eq_ok, pure_eq_ok] at hexec
    obtain ⟨_, _, runtime, hruntime, rfl⟩ := hexec
    exact h.of_exec hruntime

theorem once_of_reachable (h : (provided hooks ports).Reachable s) : s.Once := by
  refine h.invariant (I := Once) ?_ fun _ _ _ hs hstep => once_of_exec hs hstep
  rintro _ ⟨rest, rfl⟩
  exact once_initial rest

/-- The store of a run is the store of a run of the runtime. -/
theorem runtime_of_reachable (h : (provided hooks ports).Reachable s) :
    (DigitalColleagues.runtime hooks).Reachable s.runtime := by
  induction h with
  | init hinit =>
    obtain ⟨rest, rfl⟩ := hinit
    exact .init ⟨rest, rfl⟩
  | @step s t a _ hstep ih =>
    have hexec : s.exec hooks ports a = .ok t := hstep
    cases a with
    | store action =>
      simp only [exec, bind_eq_ok, require_eq_ok, pure_eq_ok, exists_const] at hexec
      obtain ⟨_, runtime, hruntime, rfl⟩ := hexec
      exact ih.step hruntime
    | load claim mandateId =>
      simp only [exec, bind_eq_ok, pure_eq_ok] at hexec
      obtain ⟨runtime, hruntime, _, _, rfl⟩ := hexec
      exact ih.step hruntime
    | apply n attempt i x =>
      simp only [exec, bind_eq_ok, orFail_eq_ok, require_eq_ok, pure_eq_ok, exists_const] at hexec
      obtain ⟨_, _, _, runtime, hruntime, rfl⟩ := hexec
      exact ih.step hruntime
    | finalize n fin =>
      simp only [exec, bind_eq_ok, orFail_eq_ok, pure_eq_ok] at hexec
      obtain ⟨_, _, runtime, hruntime, rfl⟩ := hexec
      exact ih.step hruntime
    | ask n i x =>
      simp only [exec, bind_eq_ok, orFail_eq_ok, pure_eq_ok] at hexec
      obtain ⟨_, _, rfl⟩ := hexec
      exact ih
    | reconcile n fin next =>
      simp only [exec, bind_eq_ok, orFail_eq_ok, pure_eq_ok] at hexec
      obtain ⟨_, _, runtime, hruntime, rfl⟩ := hexec
      exact ih.step hruntime

-- ════════════════════════════════════════════════════════════════════════
-- Retries and successes
-- ════════════════════════════════════════════════════════════════════════

/-- The provider answered to the request of an attempt's effect that it is executed as
    `kind` says, or confirmed it later. -/
def Answered (s : ProvidedState ε) (ports : ChannelPorts) (id : StableId)
    (kind : ChannelOutcomeKind) (confirmed : ReconciliationKind) : Prop :=
  ∃ request, s.tables.RequestOf id request ∧
    ((∃ made ∈ s.dispatches, made.claim.effectAttemptId = id ∧ made.sent = [request] ∧
      HttpJsonChannel.AnsweredDispatch ports made.exchange kind) ∨
    ∃ made ∈ s.reconciliations, made.claim.effectAttemptId = id ∧ made.sent = [request] ∧
      HttpJsonChannel.AnsweredReconciliation ports made.exchange confirmed)

/-- No dispatch of an attempt handed a request to the network. -/
def NothingSent (s : ProvidedState ε) (id : StableId) : Prop :=
  ∀ made ∈ s.dispatches, made.claim.effectAttemptId = id → made.sent = []

theorem eq_of_countP_le_one {α : Type} {p : α → Bool} {l : List α} (h : l.countP p ≤ 1) {a b : α}
    (ha : a ∈ l) (hb : b ∈ l) (hpa : p a = true) (hpb : p b = true) : a = b := by
  induction l with
  | nil => simp at ha
  | cons x l ih =>
    have hpos : ∀ y ∈ l, p y = true → 0 < l.countP p :=
      fun y hy hpy => List.countP_pos_iff.mpr ⟨y, hy, hpy⟩
    obtain rfl | ha' := List.mem_cons.mp ha
    · obtain rfl | hb' := List.mem_cons.mp hb
      · rfl
      · have := hpos b hb' hpb
        rw [List.countP_cons_of_pos hpa] at h
        omega
    · obtain rfl | hb' := List.mem_cons.mp hb
      · have := hpos a ha' hpa
        rw [List.countP_cons_of_pos hpb] at h
        omega
      · exact ih ((List.sublist_cons_self x l).countP_le.trans h) ha' hb'

theorem Once.unique (h : s.Once) {made made' : MadeDispatch} (hmade : made ∈ s.dispatches)
    (hmade' : made' ∈ s.dispatches)
    (hid : made'.claim.effectAttemptId = made.claim.effectAttemptId) : made' = made := by
  have hcalls : s.calls made.claim.effectAttemptId ≤ 1 := by
    have hs := h made.claim.effectAttemptId
    omega
  exact eq_of_countP_le_one hcalls hmade' hmade (decide_eq_true hid) (decide_eq_true rfl)

/-- A result of a state that only one answer gives. -/
theorem Rests.answered (h : s.Rests ports) {result : ActionResult} {kind : ChannelOutcomeKind}
    {confirmed : ReconciliationKind} (hresult : result ∈ s.tables.results.domain)
    (hstate : result.state ≠ .ambiguous)
    (hknown : kind = .succeeded ∨ kind = .knownNotExecuted)
    (hdispatch : ∀ k, result.state = (resultStates k).1 → k = kind)
    (hreconciliation : ∀ k, result.state = (reconciledStates k).1 → k = confirmed) :
    s.Answered ports result.effectAttemptId kind confirmed := by
  rcases h.results result hresult with hambiguous | ⟨made, hmade, hid, hkind⟩ |
    ⟨made, hmade, hid, hsettled, hkind⟩
  · exact absurd hambiguous hstate
  · have hrests := h.dispatches made hmade
    obtain rfl := hdispatch _ hkind
    obtain ⟨hsent, hanswered⟩ := hrests.outcome.known hknown
    rw [hid]
    exact ⟨_, hrests.request, .inl ⟨made, hmade, rfl, hsent, hanswered⟩⟩
  · obtain rfl := hreconciliation _ hkind
    rcases h.reconciliations made hmade with hunknown | ⟨request, hrequest, hsent, hanswered⟩
    · exact absurd hunknown hsettled
    · rw [hid]
      exact ⟨request, hrequest, .inr ⟨made, hmade, rfl, hsent, hanswered⟩⟩

theorem Rests.succeeded (h : s.Rests ports) {result : ActionResult}
    (hresult : result ∈ s.tables.results.domain) (hstate : result.state = .succeeded) :
    s.Answered ports result.effectAttemptId .succeeded .confirmedApplied := by
  refine h.answered hresult (by simp [hstate]) (.inl rfl) (fun k hk => ?_) fun k hk => ?_
  · cases k <;> simp [hstate, resultStates] at hk ⊢
  · cases k <;> simp [hstate, reconciledStates] at hk ⊢

theorem Rests.notExecuted (h : s.Rests ports) {result : ActionResult}
    (hresult : result ∈ s.tables.results.domain) (hstate : result.state = .notExecuted) :
    s.Answered ports result.effectAttemptId .knownNotExecuted .confirmedAbsent := by
  refine h.answered hresult (by simp [hstate]) (.inr rfl) (fun k hk => ?_) fun k hk => ?_
  · cases k <;> simp [hstate, resultStates] at hk ⊢
  · cases k <;> simp [hstate, reconciledStates] at hk ⊢

theorem Rests.retryable (h : s.Rests ports) (honce : s.Once) {result : ActionResult}
    (hresult : result ∈ s.tables.results.domain) (hstate : result.state = .retryableFailure) :
    s.NothingSent result.effectAttemptId := by
  rcases h.results result hresult with hambiguous | ⟨made, hmade, hid, hkind⟩ |
    ⟨made, hmade, hid, hknown, hkind⟩
  · rw [hstate] at hambiguous
    simp at hambiguous
  · have houtcome : made.outcome.kind = .retryableFailure := by
      rw [hstate] at hkind
      cases hk : made.outcome.kind <;> simp [hk, resultStates] at hkind ⊢
    intro made' hmade' hid'
    rw [honce.unique hmade hmade' (hid'.trans hid)]
    exact (h.dispatches made hmade).outcome.retryable houtcome
  · rw [hstate] at hkind
    cases hk : made.outcome.kind <;> simp [hk, reconciledStates] at hkind

end ProvidedState

/-- One dispatch over the first channel, with what the worker holds as its `n`-th. -/
def sampleProvided {ε : Type} (n : ℕ) (now : Instant) (x : Exchange) (resultId : StableId)
    (nextAttemptId : Option StableId) : List (ProvidedState ε → ProvidedAction ε) :=
  [fun _ => .store (.effect (.claimOutbox sampleWorker.principalId now (now + 100))),
    fun s => match s.runtime.effects.outboxClaims.getLast? with
      | none => .store (.environment s.runtime.rest)
      | some claim => .load claim (stableId "mandate-1"),
    fun s => match s.runtime.effects.outboxClaims.getLast? with
      | none => .store (.environment s.runtime.rest)
      | some claim => .store (.effect (.markDispatchStarted claim now)),
    fun s => match s.runtime.effects.started.getLast? with
      | none => .store (.environment s.runtime.rest)
      | some attempt => .apply n attempt 0 x,
    fun _ => .finalize n ⟨resultId, sampleWorker, now + 1, nextAttemptId⟩]

/-- A connection that is refused, and a second attempt that succeeds. -/
def connectedOnRetry : List (ProvidedState AuthorityRecords → ProvidedAction AuthorityRecords) :=
  sampleApproved.map (fun a s => .store (a s.runtime)) ++
    sampleProvided 0 40 (sampleExchange (.error .other)) (stableId "result-1")
      (some (stableId "attempt-2")) ++
    sampleProvided 1 50 (sampleExchange (.ok ())) (stableId "result-2") none

/-- The second attempt is the row's, and its result says that it succeeded. -/
def succeededOnRetry (s : ProvidedState AuthorityRecords) : Bool :=
  (s.tables.results.find? (stableId "result-2")).any (fun r : ActionResult =>
      decide (r.effectAttemptId = stableId "attempt-2" ∧ r.state = .succeeded)) &&
    (s.tables.attempts.find? (stableId "attempt-1")).any (fun a : EffectAttempt =>
      decide (a.approvalDecisionId = stableId "approval-1" ∧ a.attemptNumber = 1)) &&
    (s.tables.outbox.find? (stableId "outbox-1")).any fun row : OutboxRow =>
      decide (row.approvalDecisionId = stableId "approval-1" ∧ row.attemptNumber = 2)

theorem ProvidedState.exists_reachable_of_runsTo {ε : Type} (hooks : StoreHooks ε)
    (ports : ChannelPorts) (rest : ε) (as : List (ProvidedState ε → ProvidedAction ε))
    (p : ProvidedState ε → Bool)
    (h : TransitionSystem.runsTo (ProvidedState.exec hooks ports) (.initial rest) as
      (fun _ => p) = true) :
    ∃ s, (provided hooks ports).Reachable s ∧ p s = true := by
  obtain ⟨tr, s, hpath, hp⟩ := TransitionSystem.exists_path_of_runsTo
    (T := provided hooks ports) (fun _ _ _ hs => hs) h
  exact ⟨s, hpath.reachable (.init ⟨rest, rfl⟩), hp⟩

section Workers

variable {ε α β : Type} {w : Worker ε} {context : ServiceRuntimeContext} {ports : ChannelPorts}
  {net : ℕ → Exchange} {u v : ProvidedState ε}

/-- The channel of a worker is a channel object over the network `net`. -/
structure Worker.CallsChannel (w : Worker ε) (ports : ChannelPorts) (net : ℕ → Exchange)
    (c : HttpJsonChannel) : Prop where
  apply : ∀ n effect, w.channelApply n effect = .ok (c.apply ports (net n) effect).1
  reconcile : ∀ n key digest, w.channelReconcile n key digest =
    .ok (c.reconcile ports (net n) key (some digest.text)).1

/-- Whatever the procedure does in the store of `u` is a run from `u`, at whose end `P`
    holds if the procedure returns. -/
def Worker.Provides (w : Worker ε) (ports : ChannelPorts) (u : ProvidedState ε)
    (x : WorkerProcess ε α) (P : α → ProvidedState ε → Prop) : Prop :=
  ∀ s, s.runtime = u.runtime → x.Wp s fun r t => ∃ tr v, (provided w.hooks ports).Path u tr v ∧
    v.runtime = t.runtime ∧ ∀ a, r = .ok a → P a v

namespace Worker

variable {P : α → ProvidedState ε → Prop} {R : β → ProvidedState ε → Prop}

theorem provides_pure {a : α} (h : P a u) : w.Provides ports u (pure a) P := by
  intro s hs
  refine Process.wp_pure ⟨[], u, .refl, hs.symm, fun b hb => ?_⟩
  obtain rfl := Except.ok.inj hb
  exact h

theorem Provides.bind {x : WorkerProcess ε α} {f : α → WorkerProcess ε β}
    (hx : w.Provides ports u x P) (hf : ∀ a v, P a v → w.Provides ports v (f a) R) :
    w.Provides ports u (x >>= f) R := by
  intro s hs
  refine (hx s hs).bind (fun a t h => ?_) fun e t h => ?_
  · obtain ⟨tr, v, hpath, hv, hP⟩ := h
    refine (hf a v (hP a rfl) t hv.symm).mono fun r t' h' => ?_
    obtain ⟨tr', v', hpath', hv', hR⟩ := h'
    exact ⟨tr ++ tr', v', hpath.append hpath', hv', hR⟩
  · obtain ⟨tr, v, hpath, hv, _⟩ := h
    exact ⟨tr, v, hpath, hv, fun _ he => by simp at he⟩

theorem Provides.mono {x : WorkerProcess ε α} {P' : α → ProvidedState ε → Prop}
    (hx : w.Provides ports u x P) (hP : ∀ a v, P a v → P' a v) : w.Provides ports u x P' := by
  intro s hs
  refine (hx s hs).mono fun r t h => ?_
  obtain ⟨tr, v, hpath, hv, hreturned⟩ := h
  exact ⟨tr, v, hpath, hv, fun a ha => hP a v (hreturned a ha)⟩

/-- One step of the workers for one transaction. -/
theorem provides_transact {action : RuntimeAction ε} {result : RuntimeState ε → Outcome α}
    (h : ∀ runtime, u.runtime.exec w.hooks action = .ok runtime → ∃ a v,
      u.exec w.hooks ports a = .ok v ∧ v.runtime = runtime ∧
        ∀ b, result u.runtime = .ok b → P b v) :
    w.Provides ports u (w.transact action result) P := by
  intro s hs
  unfold Process.Wp transact
  split
  · rename_i runtime hexec
    rw [hs] at hexec
    obtain ⟨a, v, hstep, hv, hP⟩ := h runtime hexec
    refine ⟨[⟨u, a, v⟩], v, .snoc .refl hstep, hv, fun b hb => hP b ?_⟩
    rw [hs] at hb
    exact Outcome.raised_eq_ok.mp hb
  · exact ⟨[], u, .refl, hs.symm, fun _ he => by simp at he⟩

/-- A run of the runtime without a channel. -/
theorem path_of_withoutChannel (ports : ChannelPorts) {s t : RuntimeState ε}
    {tr : List (Transition (RuntimeState ε) (RuntimeAction ε))}
    (h : ((runtime w.hooks).restrict fun _ a => a.withoutChannel = true).Path s tr t)
    (hu : u.runtime = s) :
    ∃ tr', (provided w.hooks ports).Path u tr' { u with runtime := t } := by
  induction h with
  | refl => exact ⟨[], by rw [← hu]; exact .refl⟩
  | @snoc t t' a tr _ hstep ih =>
    obtain ⟨tr', hpath⟩ := ih
    have hexec : t.exec w.hooks a = .ok t' := hstep.1
    refine ⟨_, hpath.snoc (a := .store a) ?_⟩
    show ProvidedState.exec _ _ _ _ = _
    simp only [ProvidedState.exec, bind_eq_ok, require_eq_ok, pure_eq_ok, exists_const]
    exact ⟨hstep.2, t', hexec, rfl⟩

theorem provides_of_follows (ports : ChannelPorts) (u : ProvidedState ε) {x : WorkerProcess ε α}
    {Q : α → Prop}
    (h : w.Follows (fun _ a => a.withoutChannel = true) x)
    (hQ : ∀ s a t, x s = (.ok a, t) → Q a) :
    w.Provides ports u x fun a v => Q a ∧ ∃ runtime, v = { u with runtime := runtime } := by
  intro s hs
  obtain ⟨tr, htr⟩ := (h s).path
  obtain ⟨tr', hpath⟩ := path_of_withoutChannel ports htr hs.symm
  refine ⟨tr', _, hpath, rfl, fun a ha => ⟨hQ s a (x s).2 ?_, _, rfl⟩⟩
  rw [← ha]

/-- What a worker has after it loaded a bundle. -/
structure Loads (u : ProvidedState ε) (claim : OutboxClaim) (bundle : DispatchBundle)
    (v : ProvidedState ε) : Prop where
  channels : v.channels = u.channels
  reconciliations : v.reconciliations = u.reconciliations
  held : ⟨claim, bundle⟩ ∈ v.loaded

theorem provides_loadDispatchBundle (claim : OutboxClaim) (mandateId : StableId) :
    w.Provides ports u (w.loadDispatchBundle claim mandateId) (Loads u claim) := by
  refine provides_transact fun runtime hexec => ?_
  have hbundle := hexec
  simp only [RuntimeState.exec, bind_eq_ok] at hbundle
  obtain ⟨_, _, bundle, hbundle, _⟩ := hbundle
  refine ⟨.load claim mandateId,
    { u with runtime := runtime, loaded := u.loaded ++ [⟨claim, bundle⟩] }, ?_, rfl, ?_⟩
  · simp only [ProvidedState.exec, bind_eq_ok, pure_eq_ok]
    exact ⟨runtime, hexec, bundle, hbundle, rfl⟩
  · intro b hb
    obtain rfl := Except.ok.inj (hbundle.symm.trans hb)
    exact ⟨rfl, rfl, List.mem_append_right _ (List.mem_singleton_self _)⟩

/-- The step in which a worker calls its channel for an attempt it has started. -/
theorem provides_channelApply {c : HttpJsonChannel} (hw : w.CallsChannel ports net c)
    {claim : OutboxClaim} {bundle : DispatchBundle} {started : EffectAttempt} {i : ℕ}
    (hheld : ⟨claim, bundle⟩ ∈ u.loaded) (hchannel : u.channels i = c)
    (hstarted : started.effectAttemptId = claim.effectAttemptId) :
    w.Provides ports u (do
      w.execute (.effect (.channelApply started))
      callChannel fun n => w.channelApply n ⟨bundle.proposal, started, bundle.effectIdempotencyKey⟩)
      fun outcome (v : ProvidedState ε) => ∃ made ∈ v.dispatches, made.claim = claim ∧
        made.outcome = outcome := by
  obtain ⟨n, hheld⟩ := List.mem_iff_getElem?.mp hheld
  intro s hs
  unfold Process.Wp
  rw [Process.bind_eq]
  split
  · rename_i t hexecute
    obtain ⟨runtime, hexec, _, rfl⟩ := transact_eq_ok.mp hexecute
    rw [hs] at hexec
    have hcall : callChannel (ε := ε) (fun n => w.channelApply n
        ⟨bundle.proposal, started, bundle.effectIdempotencyKey⟩) { s with runtime := runtime } =
        (.ok (c.apply ports (net s.clockReads)
          ⟨bundle.proposal, started, bundle.effectIdempotencyKey⟩).1,
          { s with runtime := runtime }) := Prod.ext (hw.apply _ _) rfl
    rw [hcall]
    have hstep : ∃ v, u.exec w.hooks ports (.apply n started i (net s.clockReads)) = .ok v ∧
        v.runtime = runtime ∧ ∃ made ∈ v.dispatches, made.claim = claim ∧ made.outcome =
          (c.apply ports (net s.clockReads)
            ⟨bundle.proposal, started, bundle.effectIdempotencyKey⟩).1 := by
      simp only [ProvidedState.exec, bind_eq_ok, orFail_eq_ok, require_eq_ok, pure_eq_ok,
        exists_const]
      refine ⟨_, ⟨_, hheld, hstarted, runtime, hexec, rfl⟩, rfl, ?_⟩
      exact ⟨_, List.mem_append_right _ (List.mem_singleton_self _), rfl, by rw [hchannel]⟩
    obtain ⟨v, hexecuted, hv, hmade⟩ := hstep
    refine ⟨_, v, .snoc .refl hexecuted, hv, fun outcome houtcome => ?_⟩
    obtain rfl := Except.ok.inj houtcome
    exact hmade
  · rename_i e t hexecute
    have herror := hexecute
    unfold execute transact at herror
    split at herror
    · simp [Outcome.raised] at herror
    · obtain ⟨_, rfl⟩ := Prod.mk.inj herror
      exact ⟨[], u, .refl, hs.symm, fun _ he => by simp at he⟩

end Worker

open Worker

theorem DispatchService.validateBundle_returns {bundle returned : DispatchBundle}
    {s t : WorkerState ε} (h : validateBundle w context bundle s = (.ok returned, t)) :
    returned = bundle := by
  simp only [validateBundle, Process.bind_eq_ok, Process.pure_apply, Prod.mk.injEq,
    Except.ok.injEq] at h
  grind

/-- A validation that returns leaves the worker with the bundle it loaded. -/
theorem DispatchService.provides_validateExactEffect (claim : OutboxClaim) :
    w.Provides ports u (validateExactEffect w context claim) (Loads u claim) := by
  refine (provides_loadDispatchBundle claim _).bind fun bundle v hv => ?_
  have hfollows : w.Follows (fun _ a => a.withoutChannel = true)
      (validateBundle w context bundle) := by
    refine (follows_read _).bind fun mandate => (follows_check _ _).bind fun _ => ?_
    refine (follows_check _ _).bind fun _ => (follows_check _ _).bind fun _ => ?_
    refine (follows_check _ _).bind fun _ => (Process.keeps_lift _).bind fun _ => ?_
    refine follows_now.bind fun evaluatedAt => (Process.keeps_lift _).bind fun _ => ?_
    refine (follows_callPort fun _ _ => rfl).bind fun _ => ?_
    exact (follows_check _ _).bind fun _ => Process.keeps_pure _
  have hprovides := provides_of_follows ports v (Q := fun b => b = bundle) hfollows
    fun _ _ _ => validateBundle_returns
  refine hprovides.mono fun b v' hb => ?_
  obtain ⟨rfl, runtime, rfl⟩ := hb
  exact ⟨hv.channels, hv.reconciliations, hv.held⟩

theorem provides_markDispatchStarted (claim : OutboxClaim) (now : Instant) :
    w.Provides ports u (w.markDispatchStarted claim now) fun started v =>
      started.effectAttemptId = claim.effectAttemptId ∧
        ∃ runtime, v = { u with runtime := runtime } := by
  have hfollows : w.Follows (fun _ a => a.withoutChannel = true)
      (w.markDispatchStarted claim now) :=
    follows_transact (fun _ => show RuntimeAction.withoutChannel _ = true from rfl) _
  refine provides_of_follows ports u hfollows fun s started t h => ?_
  obtain ⟨_, _, hresult, _⟩ := transact_eq_ok.mp h
  cases hmark : s.runtime.effects.tables.markDispatchStarted claim now with
  | error failure => simp [hmark, Except.map] at hresult
  | ok marked =>
    simp only [hmark, Except.map, Except.ok.injEq] at hresult
    exact hresult ▸ effectAttemptId_of_markDispatchStarted hmark

theorem provides_now : w.Provides ports u w.now fun _ v =>
    ∃ runtime, v = { u with runtime := runtime } := by
  have hprovides := provides_of_follows (w := w) ports u (Q := fun _ => True) follows_now
    fun _ _ _ _ => trivial
  exact hprovides.mono fun _ _ h => h.2

/-- The worker records what its channel reported. -/
theorem provides_finalizeDispatch {made : MadeDispatch} (hmade : made ∈ u.dispatches)
    (fin : Finalization) :
    w.Provides ports u (w.finalizeDispatch made.claim made.outcome fin) fun _ _ => True := by
  obtain ⟨n, hmade⟩ := List.mem_iff_getElem?.mp hmade
  refine provides_transact fun runtime hexec => ⟨.finalize n fin, { u with runtime := runtime }, ?_,
    rfl, fun _ _ => trivial⟩
  simp only [ProvidedState.exec, bind_eq_ok, orFail_eq_ok, pure_eq_ok]
  exact ⟨made, hmade, runtime, hexec, rfl⟩

/-- Whatever `dispatch_once` does with a claim is a run of the workers. -/
theorem DispatchService.provides_dispatchClaim {c : HttpJsonChannel}
    (hw : w.CallsChannel ports net c) {i : ℕ} (hchannel : u.channels i = c) (claim : OutboxClaim)
    (now : Instant) :
    w.Provides ports u (dispatchClaim w context claim now) fun _ _ => True := by
  refine (provides_validateExactEffect claim).bind fun bundle v hv => ?_
  refine (provides_markDispatchStarted claim now).bind fun started v' hstarted => ?_
  obtain ⟨hstarted, runtime, rfl⟩ := hstarted
  have hcall := provides_channelApply (u := { v with runtime := runtime }) (i := i) hw hv.held
    (hv.channels ▸ hchannel) hstarted
  -- the transaction before the call and the call are one step
  rw [← Process.bind_assoc]
  refine hcall.bind fun outcome v' hmade => ?_
  obtain ⟨made, hmade, rfl, rfl⟩ := hmade
  refine provides_now.bind fun occurredAt v'' hnow => ?_
  obtain ⟨runtime', rfl⟩ := hnow
  exact (provides_finalizeDispatch (u := { v' with runtime := runtime' }) hmade _).bind
    fun _ _ _ => provides_pure trivial

/-- The call of `reconcile`, which is no transaction. -/
theorem provides_channelReconcile {c : HttpJsonChannel} (hw : w.CallsChannel ports net c)
    {claim : OutboxClaim} {bundle : DispatchBundle} {i : ℕ}
    (hheld : ⟨claim, bundle⟩ ∈ u.loaded) (hchannel : u.channels i = c) :
    w.Provides ports u (callChannel fun n => w.channelReconcile n bundle.effectIdempotencyKey
      bundle.proposal.proposalDigest)
      fun outcome (v : ProvidedState ε) => ∃ made ∈ v.reconciliations, made.claim = claim ∧
        made.outcome = outcome := by
  obtain ⟨n, hheld⟩ := List.mem_iff_getElem?.mp hheld
  intro s hs
  have hstep : ∃ v, u.exec w.hooks ports (.ask n i (net s.clockReads)) = .ok v ∧
      v.runtime = u.runtime ∧ ∃ made ∈ v.reconciliations, made.claim = claim ∧ made.outcome =
        (c.reconcile ports (net s.clockReads) bundle.effectIdempotencyKey
          (some bundle.proposal.proposalDigest.text)).1 := by
    simp only [ProvidedState.exec, bind_eq_ok, orFail_eq_ok, pure_eq_ok]
    refine ⟨_, ⟨_, hheld, rfl⟩, rfl, ?_⟩
    exact ⟨_, List.mem_append_right _ (List.mem_singleton_self _), rfl, by rw [hchannel]⟩
  obtain ⟨v, hexecuted, hv, hmade⟩ := hstep
  refine ⟨_, v, .snoc .refl hexecuted, hv.trans hs.symm, fun outcome houtcome => ?_⟩
  have hcalled := hw.reconcile s.clockReads bundle.effectIdempotencyKey
    bundle.proposal.proposalDigest
  obtain rfl := Except.ok.inj (hcalled.symm.trans houtcome)
  exact hmade

theorem provides_reconcileAmbiguous {made : MadeReconciliation} (hmade : made ∈ u.reconciliations)
    (fin : Finalization) (next : Instant) :
    w.Provides ports u (w.reconcileAmbiguous made.claim made.outcome fin next) fun _ _ => True := by
  obtain ⟨n, hmade⟩ := List.mem_iff_getElem?.mp hmade
  refine provides_transact fun runtime hexec => ⟨.reconcile n fin (some next),
    { u with runtime := runtime }, ?_, rfl, fun _ _ => trivial⟩
  simp only [ProvidedState.exec, bind_eq_ok, orFail_eq_ok, pure_eq_ok]
  exact ⟨made, hmade, runtime, hexec, rfl⟩

theorem DispatchService.provides_requireLiveClaim (claim : OutboxClaim) :
    w.Provides ports u (requireLiveClaim w claim) fun _ v =>
      ∃ runtime, v = { u with runtime := runtime } := by
  have hprovides := provides_of_follows (w := w) ports u (Q := fun _ => True)
    (follows_requireLiveClaim claim) fun _ _ _ _ => trivial
  exact hprovides.mono fun _ _ h => h.2

/-- The validation of a retry does not forget what the provider answered. -/
theorem DispatchService.provides_reconciledRetry {made : MadeReconciliation}
    (hmade : made ∈ u.reconciliations) (claim : OutboxClaim) (outcome : ReconciliationOutcome) :
    w.Provides ports u (reconciledRetry w context claim outcome)
      fun _ (v : ProvidedState ε) => made ∈ v.reconciliations := by
  unfold reconciledRetry
  cases outcome.kind with
  | confirmedAbsent =>
    refine (provides_validateExactEffect claim).bind fun bundle v hv => provides_pure ?_
    rw [hv.reconciliations]
    exact hmade
  | _ => exact provides_pure hmade

/-- Whatever `reconcile_once` does with a claim is a run of the workers. -/
theorem DispatchService.provides_reconcileClaim {c : HttpJsonChannel}
    (hw : w.CallsChannel ports net c) {i : ℕ} (hchannel : u.channels i = c) (claim : OutboxClaim) :
    w.Provides ports u (reconcileClaim w context claim) fun _ _ => True := by
  refine (provides_requireLiveClaim claim).bind fun _ v hv => ?_
  obtain ⟨_, rfl⟩ := hv
  refine (provides_validateExactEffect claim).bind fun bundle v hv => ?_
  refine (provides_requireLiveClaim claim).bind fun _ loaded hloaded => ?_
  obtain ⟨runtime, rfl⟩ := hloaded
  have hcall := provides_channelReconcile (u := { v with runtime := runtime }) (i := i) hw hv.held
    (hv.channels ▸ hchannel)
  refine hcall.bind fun outcome asked hmade => ?_
  obtain ⟨made, hmade, rfl, rfl⟩ := hmade
  refine (provides_requireLiveClaim made.claim).bind fun _ live hlive => ?_
  obtain ⟨runtime', rfl⟩ := hlive
  have hretry : w.Provides ports { asked with runtime := runtime' }
      (reconciledRetry w context made.claim made.outcome)
      fun _ (v : ProvidedState ε) => made ∈ v.reconciliations :=
    provides_reconciledRetry (by exact hmade) _ _
  refine hretry.bind fun next v hmade => ?_
  refine (provides_requireLiveClaim made.claim).bind fun finalizedAt final hfinal => ?_
  obtain ⟨runtime'', rfl⟩ := hfinal
  refine (provides_reconcileAmbiguous (by exact hmade) _ _).bind fun _ _ _ => ?_
  exact provides_pure trivial

end Workers

/-- A worker over a channel object that is answered. -/
def answeredWorker : Worker AuthorityRecords := { unreachableWorker 50 with
  channelApply := fun _ effect =>
    .ok (HttpJsonChannel.initial.apply sampleChannelPorts (sampleExchange (.ok ())) effect).1
  channelReconcile := fun _ key digest =>
    .ok (HttpJsonChannel.initial.reconcile sampleChannelPorts (sampleExchange (.ok ())) key
      (some digest.text)).1 }

/-- An approved effect that a worker has claimed. -/
def claimedEffect {ε : Type} : List (RuntimeState ε → RuntimeAction ε) :=
  sampleApproved ++ [fun _ => .effect (.claimOutbox sampleWorker.principalId 40 140)]

end DigitalColleagues
