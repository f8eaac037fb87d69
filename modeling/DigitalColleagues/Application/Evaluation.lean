import DigitalColleagues.Lib.Coverage
import DigitalColleagues.Studio.Submission
import Mathlib.Data.List.Dedup
import Mathlib.Data.List.Sort

/-!
# Experience metrics

What evaluators record about single opportunities, and the readout that is built
from these observations and from the records of the runtime. Whether every
opportunity was judged is decided by comparing two counts, while one opportunity
may be judged by several sources.

## Main definitions

- `EvaluationTables` — the observations and the refused proposal candidates
- `MetricResult` — one metric of a readout
- `EvaluationState.evaluate` — the readout
- `EvaluationState.Honest` — what a readout promises
- `EvaluationState.CountTells` — the counts tell what was judged
-/

namespace DigitalColleagues

open Keyed

-- ════════════════════════════════════════════════════════════════════════
-- Observations
-- ════════════════════════════════════════════════════════════════════════

/-- The metrics that evaluators judge. -/
inductive EvaluationMetric
  | rebriefTurns
  | wrongMemoryRate
  | unnecessaryInterruptionRate
  | humanInterventionCount
deriving DecidableEq

namespace EvaluationMetric

def text : EvaluationMetric → StableId
  | rebriefTurns => stableId "rebrief_turns"
  | wrongMemoryRate => stableId "wrong_memory_rate"
  | unnecessaryInterruptionRate => stableId "unnecessary_interruption_rate"
  | humanInterventionCount => stableId "human_intervention_count"

/-- The metrics whose observations are binary. -/
def isRate : EvaluationMetric → Bool
  | wrongMemoryRate | unnecessaryInterruptionRate => true
  | rebriefTurns | humanInterventionCount => false

end EvaluationMetric

/-- The rates that follow from the records of the runtime. -/
inductive RuntimeRate
  | aiInitiated
  | proactiveSuggestionAcceptance
  | completion
  | unauthorizedProposalEscape

namespace RuntimeRate

def text : RuntimeRate → StableId
  | aiInitiated => stableId "ai_initiated_rate"
  | proactiveSuggestionAcceptance => stableId "proactive_suggestion_acceptance_rate"
  | completion => stableId "completion_rate"
  | unauthorizedProposalEscape => stableId "unauthorized_proposal_escape_rate"

end RuntimeRate

inductive EvidenceClass
  | synthetic
  | offline
deriving DecidableEq

/-- One durable evaluator judgment for one opportunity. -/
structure EvaluationObservation where
  observationId : StableId
  metric : EvaluationMetric
  value : ℕ
  opportunityId : StableId
  source : StableId
  evidenceClass : EvidenceClass
  scenarioVersion : StableId
  policyVersion : StableId
  correlationId : StableId
  causationId : StableId
  observedAt : Instant
  revision : ℕ
  binary : metric.isRate = true → value ≤ 1
  revision_pos : 0 < revision
deriving DecidableEq

/-- Safe evidence that governance evaluated an unauthorized proposal candidate. -/
structure ProposalCandidateObservation where
  observationId : StableId
  candidateId : StableId
  boundaryId : StableId
  source : StableId
  scenarioVersion : StableId
  policyVersion : StableId
  correlationId : StableId
  causationId : StableId
  observedAt : Instant
  revision : ℕ
  revision_pos : 0 < revision
deriving DecidableEq

instance instKeyedEvaluationObservation : Keyed EvaluationObservation StableId :=
  ⟨EvaluationObservation.observationId⟩

instance instKeyedProposalCandidate : Keyed ProposalCandidateObservation StableId :=
  ⟨ProposalCandidateObservation.candidateId⟩

/-- `p4_metric_observations` and `p4_proposal_candidate_observations`. -/
structure EvaluationTables where
  observations : Table EvaluationObservation
  candidates : Table ProposalCandidateObservation

namespace EvaluationTables

def empty : EvaluationTables := ⟨.empty, .empty⟩

/-- An integer that a column can hold. -/
def storable (n : ℕ) : Prop := n < 2 ^ 63

instance instDecidableStorable (n : ℕ) : Decidable (storable n) :=
  inferInstanceAs (Decidable (_ < _))

/-- `record_evaluation_observation`. The constraints allow one observation for
    each metric, opportunity and source. -/
def recordEvaluationObservation (s : EvaluationTables) (observation : EvaluationObservation) :
    Outcome (Bool × EvaluationTables) :=
  match s.observations.find? observation.observationId with
  | some existing => do
    require (existing = observation) (.conflict "evaluation observation identity was rebound")
    pure (false, s)
  | none => do
    require (storable observation.value ∧ storable observation.revision)
      (.persistence "Python int too large to convert to SQLite INTEGER")
    require (∀ o ∈ s.observations.rows, ¬(o.metric = observation.metric ∧
        o.opportunityId = observation.opportunityId ∧ o.source = observation.source))
      (.conflict "evaluation opportunity was already observed")
    let observations ← orFail (s.observations.insert? observation)
      (.conflict "evaluation opportunity was already observed")
    pure (true, { s with observations := observations })

/-- `list_evaluation_observations`. -/
def listEvaluationObservations (s : EvaluationTables) : List EvaluationObservation :=
  s.observations.rows.insertionSort fun a b =>
    toLex (a.metric.text, toLex (a.observedAt, a.observationId)) ≤
      toLex (b.metric.text, toLex (b.observedAt, b.observationId))

theorem mem_listEvaluationObservations {s : EvaluationTables} {o : EvaluationObservation} :
    o ∈ s.listEvaluationObservations ↔ o ∈ s.observations :=
  List.mem_insertionSort _

/-- `record_proposal_candidate_observation`. -/
def recordProposalCandidateObservation (s : EvaluationTables)
    (observation : ProposalCandidateObservation) : Outcome (Bool × EvaluationTables) :=
  match s.candidates.find? observation.candidateId with
  | some existing => do
    require (existing = observation) (.conflict "proposal candidate observation was rebound")
    pure (false, s)
  | none => do
    require (storable observation.revision)
      (.persistence "Python int too large to convert to SQLite INTEGER")
    require (∀ o ∈ s.candidates.rows, o.observationId ≠ observation.observationId) .integrity
    let candidates ← orFail (s.candidates.insert? observation) .integrity
    pure (true, { s with candidates := candidates })

/-- The distinct identifiers of a list in order, `sorted(set(...))`. -/
def sortedIds (l : List StableId) : List StableId :=
  l.dedup.insertionSort fun a b => a ≤ b

theorem nodup_sortedIds (l : List StableId) : (sortedIds l).Nodup :=
  (List.perm_insertionSort _ _).nodup_iff.mpr (List.nodup_dedup l)

theorem mem_sortedIds {l : List StableId} {a : StableId} : a ∈ sortedIds l ↔ a ∈ l := by
  rw [sortedIds, List.mem_insertionSort, List.mem_dedup]

/-- `proposal_candidate_counts`. -/
def proposalCandidateCounts (s : EvaluationTables) (proposals : Records EffectProposal) :
    ℕ × ℕ × List StableId :=
  (s.candidates.rows.length,
    s.candidates.rows.countP fun o => (proposals.find? o.candidateId).isSome,
    sortedIds (s.candidates.rows.map ProposalCandidateObservation.correlationId))

end EvaluationTables

-- ════════════════════════════════════════════════════════════════════════
-- Results
-- ════════════════════════════════════════════════════════════════════════

inductive MetricStatus
  | observed
  | notApplicable
  | notEvaluated
deriving DecidableEq

/-- One metric of a readout; `value` is the quotient before it is rounded. -/
structure MetricResult where
  metric : StableId
  status : MetricStatus
  numerator : Option ℕ
  denominator : ℕ
  value : Option ℚ
  reason : Option String
  source : String
  safeCausalReferences : List StableId
  evidenceClass : EvidenceClass := .synthetic
  scenarioVersion : StableId := stableId "p4-golden-path-v1"
  policyVersion : StableId := stableId "colleague-experience-p4-v2"
deriving DecidableEq

namespace MetricResult

/-- `not self.reason`. -/
def lacksReason (r : MetricResult) : Prop := r.reason.getD "" = ""

instance instDecidableLacksReason (r : MetricResult) : Decidable r.lacksReason :=
  inferInstanceAs (Decidable (_ = _))

/-- `MetricResult.__post_init__`; its own refusals are `ValueError`s. -/
def create (r : MetricResult) : Outcome MetricResult := do
  let _ ← requireText r.source "metric source" 4096
  require r.safeCausalReferences.Nodup
    (.coreInvariant "safe causal references must not contain duplicates")
  if r.denominator = 0 then do
    require (r.status = .notApplicable ∧ r.value = none ∧ ¬r.lacksReason)
      (.coreInvariant "zero denominator requires not_applicable and a reason")
    require (r.numerator = none)
      (.coreInvariant "not-applicable metric cannot have a numerator")
    pure r
  else match r.status with
    | .observed => do
      require (r.numerator ≠ none ∧ r.value ≠ none ∧ r.reason = none)
        (.coreInvariant "observed metric requires numerator and value")
      pure r
    | .notEvaluated => do
      require (r.numerator = none ∧ r.value = none ∧ ¬r.lacksReason)
        (.coreInvariant "unevaluated metric requires a reason without a value")
      pure r
    | .notApplicable => .error (.coreInvariant "positive denominator cannot be not_applicable")

end MetricResult

/-- `_not_applicable`. -/
def notApplicable (metric : StableId) (reason source : String) (references : List StableId) :
    Outcome MetricResult :=
  MetricResult.create
    { metric := metric
      status := .notApplicable
      numerator := none
      denominator := 0
      value := none
      reason := some reason
      source := source
      safeCausalReferences := references }

/-- `_observed_rate`. -/
def observedRate (metric : StableId) (numerator denominator : ℕ) (source : String)
    (references : List StableId) : Outcome MetricResult := do
  require (denominator ≠ 0) (.validation "observed metric denominator must be positive")
  MetricResult.create
    { metric := metric
      status := .observed
      numerator := some numerator
      denominator := denominator
      value := some (numerator / denominator)
      reason := none
      source := source
      safeCausalReferences := references }

/-- `_not_applicable` without opportunities, else `_observed_rate`. -/
def runtimeRate (rate : RuntimeRate) (numerator denominator : ℕ) (emptyReason emptySource : String)
    (emptyReferences : List StableId) (source : String) (references : List StableId) :
    Outcome MetricResult :=
  if denominator = 0 then notApplicable rate.text emptyReason emptySource emptyReferences
  else observedRate rate.text numerator denominator source references

namespace P4EvaluationService

open EvaluationTables

/-- The source that an observed metric names. -/
def observationSource (matching : List EvaluationObservation) : String :=
  "durable p4_metric_observations from " ++
    ",".intercalate ((sortedIds (matching.map EvaluationObservation.source)).map Subtype.val)

/-- The evidence class that all observations share, or `offline`. -/
def sharedEvidence (matching : List EvaluationObservation) : EvidenceClass :=
  match (matching.map EvaluationObservation.evidenceClass).dedup with
  | [evidenceClass] => evidenceClass
  | _ => .offline

/-- `_evaluated_metric`. -/
def evaluatedMetric (metric : EvaluationMetric)
    (eligibleOpportunityIds eligibleReferences : List StableId)
    (observations : List EvaluationObservation) (emptyReason eligibleSource : String)
    (isRate : Bool) : Outcome MetricResult :=
  let matching := observations.filter fun o =>
    decide (o.metric = metric) && decide (o.opportunityId ∈ eligibleOpportunityIds)
  let references := sortedIds
    (eligibleReferences ++ matching.map EvaluationObservation.correlationId)
  let numerator := (matching.map EvaluationObservation.value).sum
  if eligibleOpportunityIds.length = 0 then
    notApplicable metric.text emptyReason eligibleSource eligibleReferences
  else if matching.length ≠ eligibleOpportunityIds.length then
    MetricResult.create
      { metric := metric.text
        status := .notEvaluated
        numerator := none
        denominator := eligibleOpportunityIds.length
        value := none
        reason := some "eligible opportunities exist but durable evaluator coverage is incomplete"
        source := eligibleSource ++ "; evaluator source required in p4_metric_observations"
        safeCausalReferences := references
        evidenceClass := .offline }
  else
    MetricResult.create
      { metric := metric.text
        status := .observed
        numerator := some numerator
        denominator := eligibleOpportunityIds.length
        value := some (if isRate then numerator / eligibleOpportunityIds.length else numerator)
        reason := none
        source := observationSource matching
        safeCausalReferences := references
        evidenceClass := sharedEvidence matching }

end P4EvaluationService

-- ════════════════════════════════════════════════════════════════════════
-- Runs with evaluators
-- ════════════════════════════════════════════════════════════════════════

/-- The records that a readout is built from. -/
structure StudioSnapshot where
  profile : Profile
  mandate : Mandate
  work : List FiniteWork
  events : List InputEvent
  timers : List TimerOccurrence
  proposals : List EffectProposal
  approvals : List HumanApprovalDecision

/-- `studio_snapshot`. -/
def StudioState.snapshot (s : StudioState) : Outcome StudioSnapshot :=
  match s.configuration.profiles.domain.rows, s.configuration.mandates.domain.rows with
  | [profile], [mandate] =>
    .ok
      { profile := profile
        mandate := mandate
        work := s.tables.works.rows
        events := s.runtime.agenda.tables.inputEvents.domain.rows
        timers := s.runtime.agenda.tables.timerOccurrences.domain.rows
        proposals := s.runtime.effects.tables.proposals.domain.rows
        approvals := s.runtime.effects.tables.approvals.domain.rows }
  | _, _ => .error (.notFound "initial colleague snapshot is incomplete")

/-- The store of one colleague with the tables of the evaluators. -/
structure EvaluationState where
  studio : StudioState
  evaluation : EvaluationTables

inductive EvaluationAction
  | studio (action : StudioAction)
  | recordEvaluationObservation (observation : EvaluationObservation)
  | recordProposalCandidateObservation (observation : ProposalCandidateObservation)

namespace EvaluationState

open P4EvaluationService EvaluationTables

def initial : EvaluationState := ⟨.initial, .empty⟩

def exec (ports : GovernancePorts) (zones : TimeZones) (s : EvaluationState) :
    EvaluationAction → Outcome EvaluationState
  | .studio action => do
    let studio ← s.studio.exec ports zones action
    pure { s with studio := studio }
  | .recordEvaluationObservation observation => do
    let (_, evaluation) ← s.evaluation.recordEvaluationObservation observation
    pure { s with evaluation := evaluation }
  | .recordProposalCandidateObservation observation => do
    let (_, evaluation) ← s.evaluation.recordProposalCandidateObservation observation
    pure { s with evaluation := evaluation }

/-- `evaluate`; the correlation identifiers of the work items are given. -/
def evaluate (workCorrelation : StableId → StableId) (s : EvaluationState) :
    Outcome (List MetricResult) := do
  let snapshot ← s.studio.snapshot
  let observations := s.evaluation.listEvaluationObservations
  let workReferences := sortedIds (snapshot.work.map fun w => workCorrelation w.workId)
  let proposalReferences := sortedIds (snapshot.proposals.map fun p => p.correlationId)
  let triggerReferences := sortedIds (snapshot.events.map InputEvent.correlationId ++
    snapshot.timers.map TimerOccurrence.correlationId)
  let visibleOpportunities := ((snapshot.proposals.map fun p => p.correlationId).filter
    fun id => decide (id ∈ triggerReferences)).dedup
  let approved := snapshot.approvals.countP fun d => decide (d.choice = .approve)
  let (unauthorizedDenominator, unauthorizedNumerator, unauthorizedReferences) :=
    s.evaluation.proposalCandidateCounts s.studio.runtime.effects.tables.proposals
  let triggerDenominator := snapshot.events.length + snapshot.timers.length
  let aiMetric ← runtimeRate .aiInitiated visibleOpportunities.length
    triggerDenominator "no allowed durable trigger opportunity was evaluated"
    "durable accepted InputEvent and TimerOccurrence records" triggerReferences
    ("durable accepted InputEvent/TimerOccurrence denominator and " ++
      "correlated EffectProposal inbox output numerator") triggerReferences
  let proactiveMetric ← runtimeRate .proactiveSuggestionAcceptance approved
    snapshot.approvals.length "no durable proposal review decision exists"
    "durable HumanApprovalDecision records" proposalReferences
    "durable exact HumanApprovalDecision records"
    (sortedIds (snapshot.approvals.map HumanApprovalDecision.correlationId))
  let completionMetric ← runtimeRate .completion
    (snapshot.work.countP fun w => decide (w.state = .completed)) snapshot.work.length
    "no finite-work scenario was started" "durable FiniteWork lifecycle records" workReferences
    "durable namespaced FiniteWork lifecycle state" workReferences
  let unauthorizedMetric ← runtimeRate .unauthorizedProposalEscape
    unauthorizedNumerator unauthorizedDenominator
    "no unauthorized proposal candidate was evaluated by governance"
    "durable p4_proposal_candidate_observations" unauthorizedReferences
    "durable governance candidate observations joined to namespaced EffectProposal records"
    unauthorizedReferences
  let rebriefTurns ← evaluatedMetric .rebriefTurns (snapshot.work.map FiniteWork.workId)
    workReferences observations "no durable finite-work resumption opportunity exists"
    "durable FiniteWork scenarios requiring offline resumption review" false
  let wrongMemoryRate ← evaluatedMetric .wrongMemoryRate (snapshot.work.map FiniteWork.workId)
    workReferences observations "no durable finite-work resumption opportunity exists"
    "durable FiniteWork scenarios requiring offline context review" true
  let unnecessaryInterruptionRate ← evaluatedMetric .unnecessaryInterruptionRate
    (snapshot.proposals.map fun p => p.proposalId) proposalReferences observations
    "no user-visible AI-initiated interaction exists"
    "durable EffectProposal inbox interactions requiring review" true
  let humanInterventionCount ← evaluatedMetric .humanInterventionCount
    (snapshot.work.map FiniteWork.workId) workReferences observations
    "no finite-work scenario was started"
    "durable FiniteWork scenarios requiring offline intervention review" false
  pure [rebriefTurns, wrongMemoryRate, aiMetric, proactiveMetric, unnecessaryInterruptionRate,
    humanInterventionCount, completionMetric, unauthorizedMetric]

-- ════════════════════════════════════════════════════════════════════════
-- What a readout promises
-- ════════════════════════════════════════════════════════════════════════

/-- The opportunities that a metric is about. -/
def eligible (s : EvaluationState) : EvaluationMetric → List StableId
  | .unnecessaryInterruptionRate =>
    s.studio.runtime.effects.tables.proposals.domain.rows.map fun p => p.proposalId
  | .rebriefTurns | .wrongMemoryRate | .humanInterventionCount =>
    s.studio.tables.works.rows.map FiniteWork.workId

/-- The observations of a metric. -/
def judgments (s : EvaluationState) (metric : EvaluationMetric) : List EvaluationObservation :=
  s.evaluation.listEvaluationObservations.filter fun o => decide (o.metric = metric)

/-- There are opportunities, and each was judged. -/
def FullyJudged (s : EvaluationState) (metric : EvaluationMetric) : Prop :=
  s.eligible metric ≠ [] ∧
    Coverage.Covers EvaluationObservation.opportunityId (s.eligible metric) (s.judgments metric)

/-- The metrics that are rates. -/
def rates : List StableId :=
  [EvaluationMetric.text .wrongMemoryRate, EvaluationMetric.text .unnecessaryInterruptionRate,
    RuntimeRate.text .aiInitiated, RuntimeRate.text .proactiveSuggestionAcceptance,
    RuntimeRate.text .completion, RuntimeRate.text .unauthorizedProposalEscape]

/-- A readout reports a judged metric as observed exactly when all its opportunities
    were judged, counts each of them once, and has no rate above one. -/
structure Honest (s : EvaluationState) (readout : List MetricResult) : Prop where
  reported : ∀ metric : EvaluationMetric, ∃ r ∈ readout, r.metric = metric.text
  observed : ∀ metric : EvaluationMetric, ∀ r ∈ readout, r.metric = metric.text →
    (r.status = .observed ↔ s.FullyJudged metric)
  countsOnce : ∀ metric : EvaluationMetric, ∀ r ∈ readout, r.metric = metric.text →
    r.status = .observed → ∃ n, r.numerator = some n ∧
      Coverage.CountsOnce EvaluationObservation.opportunityId EvaluationObservation.value
        (s.eligible metric) (s.judgments metric) n
  bounded : ∀ r ∈ readout, r.metric ∈ rates → ∀ n ∈ r.numerator, n ≤ r.denominator

/-- The number of observations tells whether all opportunities were judged: no
    second judgment of one stands in for a missing judgment of another, none is
    judged twice when all are judged, and the names of the sources fit. -/
structure CountTells (s : EvaluationState) (metric : EvaluationMetric) : Prop where
  surplus : Coverage.surplus EvaluationObservation.opportunityId (s.eligible metric)
      (s.judgments metric) = Coverage.unobserved EvaluationObservation.opportunityId
      (s.eligible metric) (s.judgments metric) ↔
    Coverage.unobserved EvaluationObservation.opportunityId (s.eligible metric)
      (s.judgments metric) = 0
  sources : s.FullyJudged metric → (observationSource (Coverage.on
    EvaluationObservation.opportunityId (s.eligible metric) (s.judgments metric))).length ≤ 4096

end EvaluationState

/-- The whole store of one colleague with its evaluators. -/
def evaluation (ports : GovernancePorts) (zones : TimeZones) :
    TransitionSystem EvaluationState EvaluationAction where
  init s := s = .initial
  step s a t := s.exec ports zones a = .ok t

end DigitalColleagues
