import DigitalColleagues.Core.Common
import DigitalColleagues.Lib.DepthFirst

/-!
# Declarative workflows

The finite workflow that a package describes: steps that name the steps that
may follow them. A workflow is accepted when every path from its entrypoint is
short and free of repetitions, and when these paths reach every step.

## Main definitions

- `WorkflowStep` — a step, with the fields that its type has
- `walk` — the traversal of all paths from a step
- `DeclarativeWorkflow` — a workflow that passed its checks
- `DeclarativeWorkflow.stepAfter` — its execution

## Main results

- `declarativeWorkflow_exact` — which workflows are accepted, and that they end
-/

namespace DigitalColleagues

open DepthFirst

inductive WorkflowStepType
  | instruction
  | condition
  | proposeEffect
  | complete
deriving DecidableEq

/-- `ALLOWED_PREDICATES`. -/
def allowedPredicates : List String :=
  ["work_is_pending", "approval_is_required", "effect_is_allowed"]

/-- `ALLOWED_EFFECT_KINDS`. -/
def allowedEffectKinds : List String := ["reference_message", "internal_record", "notification"]

/-- The fields that a step of each type has, and the others that it has not. -/
def StepFields (stepType : WorkflowStepType) (prompt : Option String) (nextStep : Option StableId)
    (predicate : Option String) (onTrue onFalse : Option StableId) (effectKind : Option String) :
    Prop :=
  match stepType with
  | .instruction =>
    (prompt = some "primary" ∧ nextStep ≠ none) ∧
      predicate = none ∧ onTrue = none ∧ onFalse = none ∧ effectKind = none
  | .condition =>
    ((∃ p ∈ allowedPredicates, predicate = some p) ∧ onTrue ≠ none ∧ onFalse ≠ none ∧
      onTrue ≠ onFalse) ∧ prompt = none ∧ nextStep = none ∧ effectKind = none
  | .proposeEffect =>
    ((∃ kind ∈ allowedEffectKinds, effectKind = some kind) ∧ nextStep ≠ none) ∧
      prompt = none ∧ predicate = none ∧ onTrue = none ∧ onFalse = none
  | .complete =>
    prompt = none ∧ nextStep = none ∧ predicate = none ∧ onTrue = none ∧ onFalse = none ∧
      effectKind = none

structure WorkflowStep where
  stepId : StableId
  stepType : WorkflowStepType
  prompt : Option String
  nextStep : Option StableId
  predicate : Option String
  onTrue : Option StableId
  onFalse : Option StableId
  effectKind : Option String
  fields : StepFields stepType prompt nextStep predicate onTrue onFalse effectKind
deriving DecidableEq

/-- The steps that may follow a step. -/
def WorkflowStep.outgoing (step : WorkflowStep) : List StableId :=
  match step.stepType with
  | .condition => step.onTrue.toList ++ step.onFalse.toList
  | _ => step.nextStep.toList

/-- `by_id[step_id]`. -/
def stepAt (steps : List WorkflowStep) : StableId → Option WorkflowStep := lookup (·.stepId) steps

/-- The steps on the path of a walk, and the steps that it has reached. -/
structure WalkMarks where
  visiting : List StableId
  reachable : List StableId

/-- `walk`. Unlike a search it follows every path, also through steps that it has
    reached before. -/
def walk (steps : List WorkflowStep) (m : WalkMarks) (stepId : StableId)
    (depth traversed : ℕ) : Outcome WalkMarks :=
  if depth > 8 ∨ traversed > 16 then
    .error (.coreInvariant "workflow path exceeds the fixed bound")
  else if stepId ∈ m.visiting then
    .error (.coreInvariant "workflow cycle or recursion is forbidden")
  else
    match stepAt steps stepId with
    | none => .error (.coreInvariant "workflow target is unknown")
    | some step =>
      if step.outgoing = [] ∧ step.stepType ≠ .complete then
        .error (.coreInvariant "workflow path does not terminate")
      else do
        let m ← step.outgoing.foldlM
          (fun m target => walk steps m target (depth + 1) (traversed + 1))
          { visiting := stepId :: m.visiting, reachable := m.reachable.insert stepId }
        .ok { m with visiting := m.visiting.erase stepId }
termination_by 9 - depth

/-- The checks of a workflow. -/
def checkWorkflow (entrypoint : StableId) (steps : List WorkflowStep) : Outcome Unit := do
  require (1 ≤ steps.length ∧ steps.length ≤ 32)
    (.coreInvariant "workflow node count is outside the fixed bound")
  require ((steps.map (·.stepId)).Nodup ∧ ∃ step ∈ steps, step.stepId = entrypoint)
    (.coreInvariant "workflow identities are duplicate or incomplete")
  require (∀ step ∈ steps, step.outgoing.length ≤ 2)
    (.coreInvariant "workflow branch count exceeds the fixed bound")
  require (∀ step ∈ steps, ∀ target ∈ step.outgoing, ∃ s ∈ steps, s.stepId = target)
    (.coreInvariant "workflow target is unknown")
  let m ← walk steps ⟨[], []⟩ entrypoint 1 1
  require ((∀ step ∈ steps, step.stepId ∈ m.reachable) ∧
      ∀ id ∈ m.reachable, ∃ step ∈ steps, step.stepId = id)
    (.coreInvariant "workflow contains unreachable steps")

structure DeclarativeWorkflow where
  entrypoint : StableId
  steps : List WorkflowStep
  checked : checkWorkflow entrypoint steps = .ok ()
deriving DecidableEq

theorem completeFields : StepFields .complete none none none none none none :=
  ⟨rfl, rfl, rfl, rfl, rfl, rfl⟩

/-- A step that ends its workflow. -/
def completeStep (stepId : StableId) : WorkflowStep :=
  ⟨stepId, .complete, none, none, none, none, none, none, completeFields⟩

theorem checkWorkflow_completeStep (stepId : StableId) :
    checkWorkflow stepId [completeStep stepId] = .ok () := by
  simp [checkWorkflow, walk, stepAt, DepthFirst.lookup, completeStep, WorkflowStep.outgoing,
    require, pure, Except.pure, bind, Except.bind]

-- ═══════════════════════════════════════════════════════════════════
-- Steps and what follows them
-- ═══════════════════════════════════════════════════════════════════

/-- A step is terminal exactly when it is a complete step. -/
theorem WorkflowStep.outgoing_eq_nil_iff (step : WorkflowStep) :
    step.outgoing = [] ↔ step.stepType = .complete := by
  have h := step.fields
  unfold outgoing
  unfold StepFields at h
  cases htype : step.stepType with
  | instruction => simp only [htype] at h ⊢; simp [h.1.2]
  | condition => simp only [htype] at h ⊢; simp [h.1.2.1]
  | proposeEffect => simp only [htype] at h ⊢; simp [h.1.2]
  | complete => simp only [htype] at h ⊢; simp [h.2.1]

/-- The first step may be followed by the second. -/
def StepLeads (steps : List WorkflowStep) : StableId → StableId → Prop :=
  Leads (·.stepId) (·.outgoing) steps

theorem walk_eq_ok {steps : List WorkflowStep} {m m' : WalkMarks} {stepId : StableId}
    {depth traversed : ℕ} :
    walk steps m stepId depth traversed = .ok m' ↔
      (depth ≤ 8 ∧ traversed ≤ 16) ∧ stepId ∉ m.visiting ∧ ∃ step,
        stepAt steps stepId = some step ∧ ∃ t,
          step.outgoing.foldlM
            (fun m target => walk steps m target (depth + 1) (traversed + 1))
            { visiting := stepId :: m.visiting, reachable := m.reachable.insert stepId } = .ok t ∧
          m' = { t with visiting := t.visiting.erase stepId } := by
  rw [walk]
  by_cases hbound : depth > 8 ∨ traversed > 16
  · rw [if_pos hbound]
    refine iff_of_false (by simp) fun h => ?_
    omega
  by_cases hvisiting : stepId ∈ m.visiting
  · rw [if_neg hbound, if_pos hvisiting]
    exact iff_of_false (by simp) fun h => h.2.1 hvisiting
  rw [if_neg hbound, if_neg hvisiting]
  have hle : depth ≤ 8 ∧ traversed ≤ 16 := by omega
  cases hstep : stepAt steps stepId with
  | none => simp
  | some step =>
    have hterminal : ¬(step.outgoing = [] ∧ step.stepType ≠ .complete) := fun h =>
      h.2 (step.outgoing_eq_nil_iff.mp h.1)
    dsimp only
    rw [if_neg hterminal]
    simp only [bind_eq_ok, Except.ok.injEq, Option.some.injEq, exists_eq_left', hvisiting,
      not_false_eq_true, true_and, hle, and_self, eq_comm (a := m')]

-- ═══════════════════════════════════════════════════════════════════
-- Walks
-- ═══════════════════════════════════════════════════════════════════

section Walks

variable {steps : List WorkflowStep} {m m' : WalkMarks} {stepId : StableId} {depth traversed : ℕ}

/-- What a walk from the given steps at a depth that returns has done and found. -/
structure Walked (steps : List WorkflowStep) (depth : ℕ) (starts : List StableId)
    (m m' : WalkMarks) : Prop where
  visiting : m'.visiting = m.visiting
  reachable : ∀ j, j ∈ m'.reachable ↔
    j ∈ m.reachable ∨ ∃ start ∈ starts, Relation.ReflTransGen (StepLeads steps) start j
  short : ∀ start ∈ starts, ∀ l : List StableId, (start :: l).IsChain (StepLeads steps) →
    l.length + depth ≤ 8

/-- A loop of walks walks from all of its steps. -/
theorem walked_of_foldlM {starts : List StableId}
    (hwalk : ∀ start ∈ starts, ∀ m m', walk steps m start depth traversed = .ok m' →
      Walked steps depth [start] m m')
    (h : starts.foldlM (fun m start => walk steps m start depth traversed) m = .ok m') :
    Walked steps depth starts m m' := by
  induction starts generalizing m with
  | nil =>
    obtain rfl : m = m' := Except.ok.inj h
    exact ⟨rfl, by simp, by simp⟩
  | cons start starts ih =>
    simp only [List.foldlM_cons, bind_eq_ok] at h
    obtain ⟨t, hstart, hrest⟩ := h
    have hfirst := hwalk start (List.mem_cons_self ..) m t hstart
    have hrest := ih (fun s hs => hwalk s (List.mem_cons_of_mem _ hs)) hrest
    refine ⟨hrest.visiting.trans hfirst.visiting, fun j => ?_, ?_⟩
    · rw [hrest.reachable, hfirst.reachable]
      simp only [List.mem_cons, exists_eq_or_imp, List.not_mem_nil, or_false, exists_eq_left,
        or_assoc]
    · intro s hs
      obtain rfl | hs := List.mem_cons.mp hs
      · exact hfirst.short s (List.mem_singleton_self s)
      · exact hrest.short s hs

/-- A walk that returns has followed all paths from its step. -/
theorem walked_of_walk (hnodup : (steps.map (·.stepId)).Nodup)
    (h : walk steps m stepId depth traversed = .ok m') :
    Walked steps depth [stepId] m m' := by
  induction hroom : 9 - depth generalizing m m' stepId depth traversed with
  | zero =>
    obtain ⟨⟨hdepth, -⟩, -⟩ := walk_eq_ok.mp h
    omega
  | succ room ih =>
    obtain ⟨⟨hdepth, -⟩, -, step, hstep, t, hloop, rfl⟩ := walk_eq_ok.mp h
    obtain ⟨hmem, rfl⟩ := (lookup_eq_some hnodup).mp hstep
    have hall := walked_of_foldlM (fun target _ _ _ hwalk => ih hwalk (by omega)) hloop
    have hleads : ∀ j, StepLeads steps step.stepId j ↔ j ∈ step.outgoing := by
      intro j
      constructor
      · rintro ⟨x, hx, hid, hj⟩
        obtain rfl := List.inj_on_of_nodup_map hnodup hx hmem hid
        exact hj
      · exact fun hj => ⟨step, hmem, rfl, hj⟩
    refine ⟨?_, fun j => ?_, ?_⟩
    · simp only [hall.visiting, List.erase_cons_head]
    · simp only [hall.reachable, List.mem_insert_iff, List.mem_singleton, exists_eq_left]
      rw [Relation.ReflTransGen.cases_head_iff]
      simp only [hleads, eq_comm (a := j)]
      tauto
    · intro start hstart l hl
      obtain rfl := List.mem_singleton.mp hstart
      cases l with
      | nil => simpa using hdepth
      | cons target l =>
        obtain ⟨hfirst, hl⟩ := List.isChain_cons_cons.mp hl
        have hle := hall.short target ((hleads target).mp hfirst) l hl
        rw [List.length_cons]
        omega

/-- A walk returns if its step is known, no path from it is too long, and the graph has no
    cycle. -/
theorem exists_walk_eq_ok (hnodup : (steps.map (·.stepId)).Nodup)
    (htargets : ∀ step ∈ steps, ∀ target ∈ step.outgoing, ∃ s ∈ steps, s.stepId = target)
    (hacyclic : ∀ id, ¬Relation.TransGen (StepLeads steps) id id)
    (hstep : ∃ step ∈ steps, step.stepId = stepId)
    (hshort : ∀ l : List StableId, (stepId :: l).IsChain (StepLeads steps) → l.length + depth ≤ 8)
    (htraversed : traversed = depth)
    (hpath : ∀ v ∈ m.visiting, Relation.TransGen (StepLeads steps) v stepId) :
    ∃ m', walk steps m stepId depth traversed = .ok m' ∧ m'.visiting = m.visiting := by
  induction hroom : 9 - depth generalizing m stepId depth traversed with
  | zero =>
    have hle := hshort [] (List.isChain_singleton _)
    rw [List.length_nil] at hle
    omega
  | succ room ih =>
    have hle := hshort [] (List.isChain_singleton _)
    rw [List.length_nil] at hle
    obtain ⟨step, hmem, rfl⟩ := hstep
    obtain ⟨t, hloop, ht⟩ : ∃ t, step.outgoing.foldlM
        (fun m target => walk steps m target (depth + 1) (traversed + 1))
        { visiting := step.stepId :: m.visiting, reachable := m.reachable.insert step.stepId } =
          .ok t ∧ t.visiting = step.stepId :: m.visiting := by
      refine exists_foldlM_ok (p := fun t : WalkMarks => t.visiting = step.stepId :: m.visiting)
        (fun target htarget t ht => ?_) rfl
      have hedge : StepLeads steps step.stepId target := ⟨step, hmem, rfl, htarget⟩
      have hbelow : ∀ l : List StableId, (target :: l).IsChain (StepLeads steps) →
          l.length + (depth + 1) ≤ 8 := by
        intro l hl
        have hlong := hshort (target :: l) (List.isChain_cons_cons.mpr ⟨hedge, hl⟩)
        rw [List.length_cons] at hlong
        omega
      have hlead : ∀ v ∈ t.visiting, Relation.TransGen (StepLeads steps) v target := by
        intro v hv
        rw [ht] at hv
        obtain rfl | hv := List.mem_cons.mp hv
        · exact .single hedge
        · exact (hpath v hv).tail hedge
      obtain ⟨t', ht', hvisiting⟩ : ∃ t', walk steps t target (depth + 1) (traversed + 1) =
          .ok t' ∧ t'.visiting = t.visiting :=
        ih (htargets step hmem target htarget) hbelow (by omega) hlead (by omega)
      exact ⟨t', ht', hvisiting.trans ht⟩
    refine ⟨{ t with visiting := t.visiting.erase step.stepId }, walk_eq_ok.mpr ⟨by omega, ?_,
      step, (lookup_eq_some hnodup).mpr ⟨hmem, rfl⟩, t, hloop, rfl⟩, ?_⟩
    · exact fun hvisiting => hacyclic _ (hpath _ hvisiting)
    · simp only [ht, List.erase_cons_head]

end Walks

-- ═══════════════════════════════════════════════════════════════════
-- Accepted workflows
-- ═══════════════════════════════════════════════════════════════════

/-- A bounded number of different steps that only name each other, all on paths from the
    entrypoint, none of which repeats a step or has more than eight. -/
structure WorkflowShape (entrypoint : StableId) (steps : List WorkflowStep) : Prop where
  bounded : 1 ≤ steps.length ∧ steps.length ≤ 32
  ids_nodup : (steps.map (·.stepId)).Nodup
  entry : ∃ step ∈ steps, step.stepId = entrypoint
  targets : ∀ step ∈ steps, ∀ target ∈ step.outgoing, ∃ s ∈ steps, s.stepId = target
  reachable : ∀ step ∈ steps, Relation.ReflTransGen (StepLeads steps) entrypoint step.stepId
  acyclic : ∀ id, ¬Relation.TransGen (StepLeads steps) id id
  short : ∀ path : List StableId, path.head? = some entrypoint →
    path.IsChain (StepLeads steps) → path.length ≤ 8

theorem WorkflowStep.length_outgoing_le (step : WorkflowStep) : step.outgoing.length ≤ 2 := by
  have hone : ∀ o : Option StableId, o.toList.length ≤ 1 := by
    intro o
    cases o <;> simp
  unfold outgoing
  cases step.stepType with
  | condition =>
    rw [List.length_append]
    exact Nat.add_le_add (hone _) (hone _)
  | instruction | proposeEffect | complete => exact (hone _).trans (by decide)

/-- The checks of a workflow are those of its shape. -/
theorem checkWorkflow_eq_ok {entrypoint : StableId} {steps : List WorkflowStep} :
    checkWorkflow entrypoint steps = .ok () ↔ WorkflowShape entrypoint steps := by
  simp only [checkWorkflow, bind_eq_ok, require_eq_ok, exists_const]
  constructor
  · rintro ⟨hbounded, ⟨hnodup, hentry⟩, -, htargets, m, hwalk, hreached, hknown⟩
    have hall := walked_of_walk hnodup hwalk
    have hfrom : ∀ step ∈ steps,
        Relation.ReflTransGen (StepLeads steps) entrypoint step.stepId := by
      intro step hstep
      obtain hnil | ⟨start, hstart, hleads⟩ := (hall.reachable _).mp (hreached step hstep)
      · exact absurd hnil List.not_mem_nil
      · rwa [List.mem_singleton.mp hstart] at hleads
    refine ⟨hbounded, hnodup, hentry, htargets, hfrom, ?_, ?_⟩
    · refine leads_acyclic_iff.mp fun id hid hcycle => ?_
      obtain ⟨step, hstep, rfl⟩ := List.mem_map.mp hid
      obtain ⟨l, hl, hchain⟩ := exists_path_of_cycle hcycle 8
      obtain ⟨l', hle, hchain'⟩ := exists_path_of_reflTransGen (hfrom step hstep) hchain
      have hshort := hall.short entrypoint (List.mem_singleton_self _) l' hchain'
      omega
    · intro path hhead hpath
      obtain ⟨l, rfl⟩ := List.head?_eq_some_iff.mp hhead
      have hle := hall.short entrypoint (List.mem_singleton_self _) l hpath
      rw [List.length_cons]
      omega
  · intro h
    obtain ⟨m, hwalk, -⟩ : ∃ m, walk steps ⟨[], []⟩ entrypoint 1 1 = .ok m ∧ m.visiting = [] :=
      exists_walk_eq_ok h.ids_nodup h.targets h.acyclic h.entry
        (fun l hl => h.short (entrypoint :: l) rfl hl) rfl (by simp)
    have hall := walked_of_walk h.ids_nodup hwalk
    have hreachable : ∀ j, j ∈ m.reachable ↔
        Relation.ReflTransGen (StepLeads steps) entrypoint j := by
      intro j
      simp [hall.reachable]
    refine ⟨h.bounded, ⟨h.ids_nodup, h.entry⟩, fun step _ => step.length_outgoing_le, h.targets,
      m, hwalk, fun step hstep => (hreachable _).mpr (h.reachable step hstep), fun id hid => ?_⟩
    obtain rfl | ⟨_, -, step, hstep, -, hid⟩ :=
      Relation.ReflTransGen.cases_tail ((hreachable id).mp hid)
    · exact h.entry
    · exact h.targets step hstep id hid

-- ═══════════════════════════════════════════════════════════════════
-- Executions
-- ═══════════════════════════════════════════════════════════════════

/-- The step that an execution goes to, by the answer of the predicate of a condition. -/
def WorkflowStep.follow (step : WorkflowStep) (answer : Bool) : Option StableId :=
  match step.stepType with
  | .condition => if answer then step.onTrue else step.onFalse
  | _ => step.nextStep

namespace DeclarativeWorkflow

/-- The step that an execution is at after some steps, where `answers` are the answers
    that the predicates give on the way. -/
def stepAfter (workflow : DeclarativeWorkflow) (answers : ℕ → Bool) : ℕ → Option WorkflowStep
  | 0 => stepAt workflow.steps workflow.entrypoint
  | n + 1 => do
    let step ← workflow.stepAfter answers n
    let target ← step.follow (answers n)
    stepAt workflow.steps target

end DeclarativeWorkflow

theorem WorkflowStep.follow_of_complete {step : WorkflowStep} (h : step.stepType = .complete)
    (answer : Bool) : step.follow answer = none := by
  have hfields := step.fields
  unfold StepFields at hfields
  unfold follow
  simp only [h] at hfields ⊢
  exact hfields.2.1

/-- From any other step an execution goes on, whatever the answer is. -/
theorem WorkflowStep.exists_follow {step : WorkflowStep} (h : step.stepType ≠ .complete)
    (answer : Bool) : ∃ target ∈ step.outgoing, step.follow answer = some target := by
  have hfields := step.fields
  unfold StepFields at hfields
  unfold follow outgoing
  cases htype : step.stepType with
  | complete => exact absurd htype h
  | instruction =>
    simp only [htype] at hfields ⊢
    obtain ⟨target, htarget⟩ := Option.ne_none_iff_exists'.mp hfields.1.2
    exact ⟨target, by simp [htarget], htarget⟩
  | proposeEffect =>
    simp only [htype] at hfields ⊢
    obtain ⟨target, htarget⟩ := Option.ne_none_iff_exists'.mp hfields.1.2
    exact ⟨target, by simp [htarget], htarget⟩
  | condition =>
    simp only [htype] at hfields ⊢
    obtain ⟨ifTrue, htrue⟩ := Option.ne_none_iff_exists'.mp hfields.1.2.1
    obtain ⟨ifFalse, hfalse⟩ := Option.ne_none_iff_exists'.mp hfields.1.2.2.1
    cases answer with
    | true => exact ⟨ifTrue, by simp [htrue], htrue⟩
    | false => exact ⟨ifFalse, by simp [hfalse], hfalse⟩

namespace DeclarativeWorkflow

variable {workflow : DeclarativeWorkflow} {answers : ℕ → Bool}

theorem shape (workflow : DeclarativeWorkflow) :
    WorkflowShape workflow.entrypoint workflow.steps :=
  checkWorkflow_eq_ok.mp workflow.checked

/-- An execution that is over stays over. -/
theorem stepAfter_eq_none {n k : ℕ} (h : workflow.stepAfter answers n = none) (hle : n ≤ k) :
    workflow.stepAfter answers k = none := by
  induction hle with
  | refl => exact h
  | @step k _ ih => rw [stepAfter, ih]; rfl

theorem mem_of_stepAfter {n : ℕ} {step : WorkflowStep}
    (h : workflow.stepAfter answers n = some step) : step ∈ workflow.steps := by
  cases n with
  | zero => exact ((lookup_eq_some workflow.shape.ids_nodup).mp h).1
  | succ n =>
    simp only [stepAfter, Option.bind_eq_bind, Option.bind_eq_some_iff] at h
    obtain ⟨_, -, _, -, hat⟩ := h
    exact ((lookup_eq_some workflow.shape.ids_nodup).mp hat).1

/-- An execution is over after a complete step. -/
theorem ends_of_complete {n k : ℕ} {step : WorkflowStep}
    (h : workflow.stepAfter answers n = some step) (hcomplete : step.stepType = .complete)
    (hk : n < k) : workflow.stepAfter answers k = none := by
  refine stepAfter_eq_none ?_ hk
  rw [stepAfter, h]
  simp [WorkflowStep.follow_of_complete hcomplete]

/-- After any other step comes one that the step leads to. -/
theorem exists_stepAfter {n : ℕ} {step : WorkflowStep}
    (h : workflow.stepAfter answers n = some step) (hgoes : step.stepType ≠ .complete) :
    ∃ next, workflow.stepAfter answers (n + 1) = some next ∧
      StepLeads workflow.steps step.stepId next.stepId := by
  have hmem := mem_of_stepAfter h
  obtain ⟨target, htarget, hfollow⟩ := WorkflowStep.exists_follow hgoes (answers n)
  obtain ⟨next, hnext, rfl⟩ := workflow.shape.targets step hmem target htarget
  refine ⟨next, ?_, step, hmem, rfl, htarget⟩
  rw [stepAfter, h]
  simp [hfollow, stepAt, (lookup_eq_some workflow.shape.ids_nodup).mpr ⟨hnext, rfl⟩]

/-- An execution ends at a complete step before the paths from its step do. -/
theorem exists_complete {room n : ℕ} {step : WorkflowStep}
    (h : workflow.stepAfter answers n = some step)
    (hshort : ∀ l : List StableId, (step.stepId :: l).IsChain (StepLeads workflow.steps) →
      l.length ≤ room) :
    ∃ k ≤ n + room, ∃ last, workflow.stepAfter answers k = some last ∧
      last.stepType = .complete ∧ ∀ j > k, workflow.stepAfter answers j = none := by
  induction room generalizing n step with
  | zero =>
    have hcomplete : step.stepType = .complete := by
      by_contra hgoes
      obtain ⟨next, -, hleads⟩ := exists_stepAfter h hgoes
      have hlong := hshort [next.stepId]
        (List.isChain_cons_cons.mpr ⟨hleads, List.isChain_singleton _⟩)
      exact absurd hlong (by simp)
    exact ⟨n, by omega, step, h, hcomplete, fun j hj => ends_of_complete h hcomplete hj⟩
  | succ room ih =>
    by_cases hcomplete : step.stepType = .complete
    · exact ⟨n, by omega, step, h, hcomplete, fun j hj => ends_of_complete h hcomplete hj⟩
    · obtain ⟨next, hat, hleads⟩ := exists_stepAfter h hcomplete
      have hbelow : ∀ l : List StableId, (next.stepId :: l).IsChain (StepLeads workflow.steps) →
          l.length ≤ room := by
        intro l hl
        have hlong := hshort (next.stepId :: l) (List.isChain_cons_cons.mpr ⟨hleads, hl⟩)
        rw [List.length_cons] at hlong
        omega
      obtain ⟨k, hk, hlast⟩ := ih hat hbelow
      exact ⟨k, by omega, hlast⟩

end DeclarativeWorkflow

/-- A workflow is accepted exactly when it has the required shape, and then every
    execution, whatever its predicates answer, ends at a complete step, which is one of its
    first eight steps. -/
theorem declarativeWorkflow_exact :
    (∀ (entrypoint : StableId) (steps : List WorkflowStep),
      (∃ workflow : DeclarativeWorkflow, workflow.entrypoint = entrypoint ∧
        workflow.steps = steps) ↔ WorkflowShape entrypoint steps) ∧
    ∀ (workflow : DeclarativeWorkflow) (answers : ℕ → Bool),
      ∃ n < 8, ∃ last, workflow.stepAfter answers n = some last ∧ last.stepType = .complete ∧
        ∀ k > n, workflow.stepAfter answers k = none := by
  refine ⟨fun entrypoint steps => ?_, fun workflow answers => ?_⟩
  · rw [← checkWorkflow_eq_ok]
    constructor
    · rintro ⟨workflow, rfl, rfl⟩
      exact workflow.checked
    · intro h
      exact ⟨⟨entrypoint, steps, h⟩, rfl, rfl⟩
  · obtain ⟨first, hfirst, hentry⟩ := workflow.shape.entry
    have hat : workflow.stepAfter answers 0 = some first :=
      (lookup_eq_some workflow.shape.ids_nodup).mpr ⟨hfirst, hentry⟩
    have hshort : ∀ l : List StableId,
        (first.stepId :: l).IsChain (StepLeads workflow.steps) → l.length ≤ 7 := by
      intro l hl
      have hlong := workflow.shape.short (first.stepId :: l) (congrArg some hentry) hl
      rw [List.length_cons] at hlong
      omega
    obtain ⟨n, hn, hlast⟩ := DeclarativeWorkflow.exists_complete hat hshort
    exact ⟨n, by omega, hlast⟩

end DigitalColleagues
