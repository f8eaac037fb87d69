import DigitalColleagues.Store.Agenda
import DigitalColleagues.Store.Outbox

/-!
# The runtime store of one colleague

The agenda and effect tables next to whatever else the database keeps. A store
class extends the base one by overriding hooks that run inside its transactions;
they may read everything but write only their own part.
-/

namespace DigitalColleagues

inductive SemanticOutcome
  | proposal
  | noOp
  | wait
  | escalation
deriving DecidableEq

/-- A decision with the proposal it makes; exactly the proposal outcomes make one. -/
structure SemanticDecision where
  outcome : SemanticOutcome
  decision : Decision
  proposal : Option EffectProposal
  requestId : StableId
  proposal_iff : outcome = .proposal ↔ proposal.isSome := by decide

/-- The tables of one colleague; `rest` is what the runtime operations reach
    only through the hooks. -/
structure RuntimeStore (ε : Type) where
  agenda : AgendaTables
  effects : EffectTables
  rest : ε

/-- The reads and overridden methods of a store class. -/
structure StoreHooks (ε : Type) where
  findMandate : ε → StableId → Option Mandate
  findPrincipal : ε → StableId → Option Principal
  bindEffectApprovalAuthority :
    ε → Instant → EffectProposal → HumanApprovalDecision → Principal → Outcome ε
  prepareSemanticDecision :
    RuntimeStore ε → AgendaClaim → SemanticDecision → Outcome (SemanticDecision × ε)

/-- The authority records the base store reads on approval. -/
structure AuthorityRecords where
  principals : Records Principal
  mandates : Records Mandate

def AuthorityRecords.empty : AuthorityRecords := ⟨.empty, .empty⟩

/-- `SQLiteRuntimeStore` itself: nothing is bound and decisions pass unchanged. -/
def sqliteRuntimeStore : StoreHooks AuthorityRecords where
  findMandate records := records.mandates.find?
  findPrincipal records := records.principals.find?
  bindEffectApprovalAuthority records _ _ _ _ := .ok records
  prepareSemanticDecision s _ semantic := .ok (semantic, s.rest)

namespace RuntimeStore

variable {ε : Type} (hooks : StoreHooks ε)

/-- The proposal of a decision, inserted when there is one. -/
def insertProposal (proposals : Records EffectProposal) (semantic : SemanticDecision) :
    Outcome (Records EffectProposal) :=
  match semantic.proposal with
  | none => .ok proposals
  | some proposal => do
    require (proposal.decisionId = semantic.decision.decisionId)
      (.conflict "effect proposal decision binding drifted")
    proposals.insertRecord proposal

/-- `commit_semantic_decision`. -/
def commitSemanticDecision (s : RuntimeStore ε) (claim : AgendaClaim)
    (semantic : SemanticDecision) : Outcome (RuntimeStore ε) := do
  let row ← s.agenda.requireAgendaClaim claim
  let (semantic, rest) ← hooks.prepareSemanticDecision s claim semantic
  require (semantic.decision.agendaItemId = claim.agendaItem.agendaItemId)
    (.conflict "semantic decision cites a different Agenda item")
  require (semantic.decision.wakeCycleId = claim.agendaItem.wakeCycleId)
    (.conflict "semantic decision cites a different wake cycle")
  let decisions ← s.agenda.decisions.insertRecord semantic.decision
  let proposals ← insertProposal s.effects.proposals semantic
  let agenda ← { s.agenda with decisions := decisions }.checkpointDecision claim row
    semantic.decision.wakeCycleId
  pure ⟨agenda, { s.effects with proposals := proposals }, rest⟩

/-- `commit_approval_and_attempt` with the lookups and the binding of the class. -/
def commitApprovalAndAttempt (s : RuntimeStore ε) (cmd : ApprovalCommand) :
    Outcome (ApprovalResult × RuntimeStore ε) := do
  let (result, bound, effects) ← s.effects.commitApprovalAndAttempt
    { findMandate := hooks.findMandate s.rest
      findPrincipal := hooks.findPrincipal s.rest
      bindEffectApprovalAuthority := hooks.bindEffectApprovalAuthority s.rest cmd.occurredAt }
    cmd
  pure (result, { s with effects := effects, rest := bound.getD s.rest })

/-- `load_dispatch_bundle`. -/
def loadDispatchBundle (s : RuntimeStore ε) (claim : OutboxClaim) (mandateId : StableId) :
    Outcome DispatchBundle :=
  s.effects.loadDispatchBundle (hooks.findMandate s.rest) (hooks.findPrincipal s.rest) claim
    mandateId

/-- A committed decision closes the wake its claim was issued for; the agenda
    changes as the checkpoint says, the effects at most by the proposal. -/
theorem commitSemanticDecision_eq_ok {s s' : RuntimeStore ε} {claim : AgendaClaim}
    {semantic : SemanticDecision} (h : s.commitSemanticDecision hooks claim semantic = .ok s') :
    ∃ row prepared rest decisions agenda proposals,
      s.agenda.requireAgendaClaim claim = .ok row ∧
      hooks.prepareSemanticDecision s claim semantic = .ok (prepared, rest) ∧
      prepared.decision.agendaItemId = claim.agendaItem.agendaItemId ∧
      s.agenda.decisions.insertRecord prepared.decision = .ok decisions ∧
      insertProposal s.effects.proposals prepared = .ok proposals ∧
      { s.agenda with decisions := decisions }.checkpointDecision claim row
        claim.agendaItem.wakeCycleId = .ok agenda ∧
      s' = ⟨agenda, { s.effects with proposals := proposals }, rest⟩ := by
  simp only [commitSemanticDecision, bind_eq_ok, require_eq_ok, pure_eq_ok, exists_const,
    Prod.exists] at h
  obtain ⟨row, hrow, prepared, rest, hprepared, hitem, hwake, decisions, hdecisions, proposals,
    hproposals, agenda, hagenda, rfl⟩ := h
  rw [hwake] at hagenda
  exact ⟨row, prepared, rest, decisions, agenda, proposals, hrow, hprepared, hitem, hdecisions,
    hproposals, hagenda, rfl⟩

end RuntimeStore

end DigitalColleagues
