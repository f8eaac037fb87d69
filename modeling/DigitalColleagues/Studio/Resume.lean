import DigitalColleagues.Studio.Budget

/-!
# Leaving the stopped state

Once the durable run state is stopped it keeps its reason, whatever is confirmed
meanwhile, until a confirmation resumes explicitly. That confirmation revises
the policy it replaces, not the one under which the colleague stopped.

## Main definitions

- `AutomaticStop` — the reasons for which admission stops a colleague
- `AutomaticStop.Relaxed` — when a policy revises such a reason
- `StoppedSince` — a stretch of a run that starts with an automatic stop
-/

namespace DigitalColleagues

open Keyed BuilderTables

variable {ports : GovernancePorts} {zones : TimeZones}

/-- The reasons for which admission stops a colleague. -/
inductive AutomaticStop
  | budgetExhausted
  | outsideHours
  | repeatedFailure
  | finiteWorkTerminal
deriving DecidableEq

namespace AutomaticStop

def reason : AutomaticStop → String
  | .budgetExhausted => "budget_exhausted"
  | .outsideHours => "outside_hours_stop"
  | .repeatedFailure => "repeated_failure_stop"
  | .finiteWorkTerminal => "finite_work_terminal_stop"

/-- A policy removes the stop condition of another one or relaxes its parameters. -/
def Relaxed (current proposed : ColleaguePolicy) : AutomaticStop → Prop
  | .budgetExhausted =>
    (.budgetExhausted ∈ current.stopConditions ∧ .budgetExhausted ∉ proposed.stopConditions) ∨
      current.wakeBudget.period ≠ proposed.wakeBudget.period ∨
      current.wakeBudget.limit < proposed.wakeBudget.limit
  | .outsideHours => proposed.outsideHours ≠ .stop ∨ current.timezone ≠ proposed.timezone ∨
      current.weeklyWindows ≠ proposed.weeklyWindows
  | .repeatedFailure =>
    (.repeatedFailure ∈ current.stopConditions ∧ .repeatedFailure ∉ proposed.stopConditions) ∨
      current.failureLimit < proposed.failureLimit
  | .finiteWorkTerminal =>
    .finiteWorkTerminal ∈ current.stopConditions ∧ .finiteWorkTerminal ∉ proposed.stopConditions

instance (current proposed : ColleaguePolicy) (stop : AutomaticStop) :
    Decidable (stop.Relaxed current proposed) := by
  cases stop <;> unfold Relaxed <;> infer_instance

/-- What admission stops a colleague for is one of these reasons. -/
theorem exists_of_stopReason {policy : ColleaguePolicy} {outcome : PolicyOutcomeKind}
    {reason : String} (h : stopReason policy outcome = some reason) :
    ∃ stop : AutomaticStop, stop.reason = reason := by
  unfold stopReason at h
  split at h
  · exact ⟨.outsideHours, Option.some.inj h⟩
  · exact ⟨.repeatedFailure, Option.some.inj h⟩
  · exact ⟨.finiteWorkTerminal, Option.some.inj h⟩
  · split at h
    · exact ⟨.budgetExhausted, Option.some.inj h⟩
    · exact absurd h (by simp)
  · exact absurd h (by simp)

/-- A confirmation that may resume sets the run state, or relaxes what stopped
    the colleague. -/
theorem relaxed_of_explicitResumeChange {stop : AutomaticStop} {current proposed : ColleaguePolicy}
    (h : explicitResumeChange stop.reason current proposed ≠ none) :
    current.runState = .stopped ∧ proposed.runState = .active ∨ stop.Relaxed current proposed := by
  by_cases hset : current.runState = .stopped ∧ proposed.runState = .active
  · exact .inl hset
  · right
    by_contra hrelaxed
    apply h
    unfold explicitResumeChange
    rw [if_neg hset]
    split
    · rfl
    · cases stop with
      | budgetExhausted =>
        simp only [Relaxed, not_or] at hrelaxed
        obtain ⟨hcondition, hperiod, hlimit⟩ := hrelaxed
        rw [reason, if_pos rfl, if_neg hcondition, if_neg hperiod, if_neg hlimit]
      | outsideHours =>
        simp only [Relaxed, not_or] at hrelaxed
        obtain ⟨houtcome, hhours⟩ := hrelaxed
        rw [reason, if_neg (by decide), if_pos rfl, if_neg houtcome, if_neg (not_or.mpr hhours)]
      | repeatedFailure =>
        simp only [Relaxed, not_or] at hrelaxed
        obtain ⟨hcondition, hlimit⟩ := hrelaxed
        rw [reason, if_neg (by decide), if_neg (by decide), if_pos rfl, if_neg hcondition,
          if_neg hlimit]
      | finiteWorkTerminal =>
        rw [Relaxed] at hrelaxed
        rw [reason, if_neg (by decide), if_neg (by decide), if_neg (by decide), if_pos rfl,
          if_neg hrelaxed]

end AutomaticStop

-- ════════════════════════════════════════════════════════════════════════
-- Confirmations of a stopped colleague
-- ════════════════════════════════════════════════════════════════════════

/-- Only an active policy can resume. -/
theorem runState_of_explicitResumeChange {reason : String} {current proposed : ColleaguePolicy}
    (h : explicitResumeChange reason current proposed ≠ none) : proposed.runState = .active := by
  by_contra hstopped
  apply h
  unfold explicitResumeChange
  rw [if_neg fun hset => hstopped hset.2, if_pos hstopped]

namespace BuilderTables

/-- A row that is stopped for a reason. -/
def StoppedFor (s : BuilderTables) (reason : String) : Prop :=
  ∃ row, s.runState = some row ∧ row.state = .stopped ∧ row.reason = reason

theorem runState_recordExplicitResume {s t : BuilderTables} {draft : ColleagueDraft}
    {policy : ColleaguePolicy} {actor : Principal} {occurredAt : Instant}
    (h : s.recordExplicitResume draft policy actor occurredAt = .ok t) :
    t.runState = s.runState := by
  rcases insertPolicyOutcome_eq_ok h with ⟨_, rfl⟩ | ⟨_, _, rfl⟩
  · rfl
  · rfl

/-- A confirmation keeps a colleague stopped for the same reason, unless its draft
    asks to resume and revises that reason. -/
theorem confirmRunState_of_stopped {s t : BuilderTables} {draft : ColleagueDraft}
    {applied : AppliedConfiguration} {actor : Principal} {occurredAt : Instant} {reason : String}
    (h : s.confirmRunState draft applied actor occurredAt = .ok t) (hs : s.StoppedFor reason) :
    t.StoppedFor reason ∨ t.runState.map RunStateRow.state = some .active ∧
      draftRequestsExplicitResume draft = true ∧ ∃ current, applied.currentPolicy = some current ∧
        explicitResumeChange reason current applied.policy ≠ none := by
  obtain ⟨row, hrow, hstopped, rfl⟩ := hs
  unfold confirmRunState at h
  simp only [hrow, hstopped, bind_eq_ok, orFail_eq_ok, require_eq_ok, exists_const] at h
  obtain ⟨current, hcurrent, _, h⟩ := h
  split at h
  · rename_i hresume
    refine .inr ⟨?_, hresume.1, current, hcurrent, hresume.2.1⟩
    rw [runState_recordExplicitResume h]
    exact congrArg some (runState_of_explicitResumeChange hresume.2.1)
  · left
    split at h
    · obtain rfl := pure_eq_ok.mp h
      exact ⟨_, rfl, rfl, rfl⟩
    · obtain rfl := pure_eq_ok.mp h
      exact ⟨row, hrow, hstopped, rfl⟩

end BuilderTables

-- ════════════════════════════════════════════════════════════════════════
-- Steps of a stopped colleague
-- ════════════════════════════════════════════════════════════════════════

/-- A step confirms a draft that asks to resume and revises the reason. -/
def ResumesBy (reason : String) (e : StudioStep) : Prop :=
  ∃ colleagueId cmd draft current proposed,
    e.action = .governance (.confirmDraft colleagueId cmd) ∧
    e.source.configuration.drafts.find? cmd.draftId = some draft ∧
    draftRequestsExplicitResume draft = true ∧
    e.source.configuration.getActivePolicy = .ok (some current) ∧
    e.target.configuration.getActivePolicy = .ok (some proposed) ∧
    explicitResumeChange reason current proposed ≠ none

/-- Admission changes the run state only by stopping a running colleague. -/
theorem BuilderTables.StoppedFor.admits {s t : AdmissionTables} {builder recorded : BuilderTables}
    {cmd : AdmitTriggerCommand} {admission : PolicyAdmission} {reason : String}
    (h : AdmitsTrigger s builder cmd admission t recorded) (hstopped : builder.StoppedFor reason) :
    recorded.StoppedFor reason := by
  have hinserted : ∀ {record u}, builder.insertPolicyOutcome record = .ok u →
      u.StoppedFor reason := by
    intro record u hinsert
    rcases insertPolicyOutcome_eq_ok hinsert with ⟨_, rfl⟩ | ⟨_, _, rfl⟩
    · exact hstopped
    · exact hstopped
  cases h with
  | replayed => exact hstopped
  | refused _ _ _ _ _ hrunning hinsert =>
    unfold BuilderTables.stopFor
    split
    · exact hinserted hinsert
    · rename_i hstops
      obtain ⟨row, hrow, hstate, _⟩ := hstopped
      have hnot := (hrunning (by simp [hstops])).2
      exact absurd (.inr (by rw [hrow, Option.map_some, hstate])) hnot
  | accepted haccepts => exact hinserted haccepts.records

theorem stoppedFor_withConfiguration {s : StudioTables} {tables : BuilderTables} {reason : String}
    (hs : s.configuration.StoppedFor reason) (ht : tables.StoppedFor reason) :
    (s.withConfiguration tables).configuration.StoppedFor reason := by
  cases hc : s.governance.store.colleague with
  | none =>
    rw [StudioTables.withConfiguration_of_none hc]
    exact hs
  | some c =>
    rw [StudioTables.configuration_withConfiguration hc]
    exact ht

/-- The durable run state of the colleague. -/
def StudioState.durableState (s : StudioState) : Option PolicyRunState :=
  s.configuration.runState.map RunStateRow.state

/-- A stopped colleague stays so for the same reason, or a confirmation resumes it. -/
theorem stopped_of_step {s t : StudioState} {a : StudioAction}
    (h : s.exec ports zones a = .ok t) (hlineage : Lineage ports s.tables.governance)
    {reason : String} (hs : s.configuration.StoppedFor reason) :
    t.configuration.StoppedFor reason ∨
      t.durableState = some .active ∧ ResumesBy reason ⟨s, a, t⟩ := by
  obtain ⟨tables, ht⟩ : ∃ tables, t.tables = tables := ⟨_, rfl⟩
  have hmove := StudioState.move_of_exec h
  rw [ht] at hmove
  have htarget : t.configuration = tables.configuration := by rw [StudioState.configuration, ht]
  rw [StudioState.durableState, htarget]
  cases hmove with
  | frame hgovernance =>
    left
    rw [StudioTables.configuration, hgovernance]
    exact hs
  | admitted hadmit =>
    exact .inl (stoppedFor_withConfiguration hs (hs.admits (admitTrigger_eq_ok hadmit)))
  | record _ hinsert =>
    left
    refine stoppedFor_withConfiguration hs ?_
    rcases insertPolicyOutcome_eq_ok hinsert with ⟨_, rfl⟩ | ⟨_, _, rfl⟩
    · exact hs
    · exact hs
  | @governance action governance hexec =>
    have hs' : s.tables.governance.configuration.StoppedFor reason := hs
    cases hc : s.tables.governance.store.colleague with
    | none =>
      obtain ⟨row, hrow, _⟩ := hs'
      rw [GovernanceState.configuration, hc] at hrow
      exact absurd hrow (by simp [BuilderTables.empty])
    | some c =>
      obtain ⟨u, hu, hcase⟩ := configurationStep_of_exec hexec hlineage hc
      have hsource : s.tables.governance.configuration = c.tables := by
        rw [GovernanceState.configuration, hc]
        rfl
      have htables : governance.configuration = u := by
        rw [GovernanceState.configuration, hu]
        rfl
      rw [hsource] at hs'
      show governance.configuration.StoppedFor reason ∨
        governance.configuration.runState.map RunStateRow.state = _ ∧ _
      rw [htables]
      rcases hcase with hdrafts | ⟨cmd, draft, base, next, rfl, _, _, hconfirm, _⟩
      · left
        rw [hdrafts.frame]
        exact hs'
      · obtain ⟨applied, v, w, hcurrent, hnext, _, _, hrow, hrun, hrow'⟩ := hconfirm.runState
        have hv : v.StoppedFor reason := by
          rw [StoppedFor, hrow]
          exact hs'
        rcases confirmRunState_of_stopped hrun hv with hkept |
          ⟨hactive, hrequested, current, happlied, hchange⟩
        · left
          rw [StoppedFor, hrow']
          exact hkept
        · right
          refine ⟨by rw [hrow', hactive], c.colleagueId, cmd, draft, current, applied.policy, rfl,
            ?_, hrequested, ?_, ?_, hchange⟩
          · show s.tables.governance.configuration.drafts.find? _ = _
            rw [hsource, ← hconfirm.draftId]
            exact hconfirm.stored
          · show s.tables.governance.configuration.getActivePolicy = _
            rw [hsource, hconfirm.source.getActivePolicy, ← hcurrent, happlied]
          · rw [htarget]
            show governance.configuration.getActivePolicy = _
            rw [htables, hconfirm.target.getActivePolicy, hnext]

-- ════════════════════════════════════════════════════════════════════════
-- Runs
-- ════════════════════════════════════════════════════════════════════════

/-- A run ends with a stretch that starts with an automatic stop and stays stopped. -/
def StoppedSince (stop : AutomaticStop) (tr : List StudioStep) : Prop :=
  ∃ earlier e since, tr = earlier ++ e :: since ∧ e.source.durableState ≠ some .stopped ∧
    e.target.configuration.StoppedFor stop.reason ∧
    ∀ x ∈ since, x.source.durableState = some .stopped

theorem StudioState.stoppedFor_of_durableState {s : StudioState}
    (h : s.durableState = some .stopped) : ∃ reason, s.configuration.StoppedFor reason := by
  rw [durableState, Option.map_eq_some_iff] at h
  obtain ⟨row, hrow, hstate⟩ := h
  exact ⟨row.reason, row, hrow, hstate, rfl⟩

theorem BuilderTables.StoppedFor.unique {s : BuilderTables} {reason reason' : String}
    (h : s.StoppedFor reason) (h' : s.StoppedFor reason') : reason = reason' := by
  obtain ⟨row, hrow, _, rfl⟩ := h
  obtain ⟨row', hrow', _, rfl⟩ := h'
  rw [hrow] at hrow'
  rw [Option.some.inj hrow']

/-- The reason of a stop lasts as long as the stop. -/
theorem stoppedFor_of_path {s t : StudioState} {tr : List StudioStep}
    (h : (studio ports zones).Path s tr t) (hs : Lineage ports s.tables.governance)
    {reason : String} (hreason : s.configuration.StoppedFor reason)
    (hstopped : ∀ e ∈ tr, e.source.durableState = some .stopped)
    (ht : t.durableState = some .stopped) : t.configuration.StoppedFor reason := by
  induction h with
  | refl => exact hreason
  | @snoc t u a tr hpath hstep ih =>
    have hlast := hstopped ⟨t, a, u⟩ (by simp)
    have hbefore := ih (fun e he => hstopped e (by simp [he])) hlast
    have hlineage := hpath.invariant (lineage_studio_preserved ports zones) hs
    rcases stopped_of_step hstep hlineage hbefore with hkept | ⟨hactive, _⟩
    · exact hkept
    · exact absurd (ht.symm.trans hactive) (by simp)

/-- Every resumption is a confirmation of a draft that asks for it. After an
    automatic stop it activates the policy it replaces, or relaxes in it what the
    colleague was stopped for. -/
theorem resumptions_revise_cause {s : StudioState} {tr : List StudioStep}
    (h : (studio ports zones).Path .initial tr s) {before after : List StudioStep}
    {e : StudioStep} (hsplit : tr = before ++ e :: after)
    (hstopped : e.source.durableState = some .stopped)
    (hactive : e.target.durableState = some .active) :
    ∃ colleagueId cmd draft current proposed,
      e.action = .governance (.confirmDraft colleagueId cmd) ∧
      e.source.configuration.drafts.find? cmd.draftId = some draft ∧
      draftRequestsExplicitResume draft = true ∧
      e.source.configuration.getActivePolicy = .ok (some current) ∧
      e.target.configuration.getActivePolicy = .ok (some proposed) ∧
      ∀ stop : AutomaticStop, StoppedSince stop before →
        current.runState = .stopped ∧ proposed.runState = .active ∨
          stop.Relaxed current proposed := by
  subst hsplit
  obtain ⟨hbefore, hstep, _⟩ := h.of_append_cons
  have hlineage := hbefore.invariant (lineage_studio_preserved ports zones)
    (lineage_initial ports)
  obtain ⟨reason, hreason⟩ := StudioState.stoppedFor_of_durableState hstopped
  rcases stopped_of_step hstep hlineage hreason with hkept | ⟨_, hresumes⟩
  · obtain ⟨row, hrow, hstate, _⟩ := hkept
    rw [StudioState.durableState, hrow, Option.map_some, hstate] at hactive
    exact absurd hactive (by simp)
  · obtain ⟨colleagueId, cmd, draft, current, proposed, haction, hdraft, hrequested, hcurrent,
      hproposed, hchange⟩ := hresumes
    refine ⟨colleagueId, cmd, draft, current, proposed, haction, hdraft, hrequested, hcurrent,
      hproposed, ?_⟩
    rintro stop ⟨earlier, e₀, since, rfl, _, hentered, hsince⟩
    obtain ⟨hearlier, hstop, hpath⟩ := hbefore.of_append_cons
    have hlineage₀ := (hearlier.snoc hstop).invariant (lineage_studio_preserved ports zones)
      (lineage_initial ports)
    have hlasts := stoppedFor_of_path hpath hlineage₀ hentered hsince hstopped
    obtain rfl := hreason.unique hlasts
    exact AutomaticStop.relaxed_of_explicitResumeChange hchange

-- ════════════════════════════════════════════════════════════════════════
-- Resumptions with the cause unrevised
-- ════════════════════════════════════════════════════════════════════════

/-- The active policy of the colleague. -/
def StudioState.activePolicy (s : StudioState) : Option ColleaguePolicy :=
  s.configuration.getActivePolicy.toOption.join

/-- A confirmed policy revises a stop of another one. -/
def RevisedIn (stop : AutomaticStop) (inForce : Option ColleaguePolicy) (tr : List StudioStep) :
    Prop :=
  ∃ e ∈ tr, ∃ current ∈ inForce, ∃ proposed ∈ e.target.activePolicy, stop.Relaxed current proposed

/-- A run from an automatic stop to the resumption that ends it. -/
structure StopToResume (ports : GovernancePorts) (zones : TimeZones) (stop : AutomaticStop)
    (entered : StudioStep) (since : List StudioStep) (resumed : StudioStep) : Prop where
  path : ∃ earlier s,
    (studio ports zones).Path .initial (earlier ++ entered :: (since ++ [resumed])) s
  running : entered.source.durableState ≠ some .stopped
  entered : entered.target.configuration.StoppedFor stop.reason
  stopped : ∀ e ∈ since ++ [resumed], e.source.durableState = some .stopped
  resumed : resumed.target.durableState = some .active

/-- The steps of a run from the `n`-th one to its last. -/
def stopToResume (n : ℕ) (tr : List StudioStep) :
    Option (StudioStep × List StudioStep × StudioStep) :=
  match tr.drop n with
  | [] => none
  | entered :: rest => rest.getLast?.map fun resumed => (entered, rest.dropLast, resumed)

/-- The check of a stop by the budget and of a resumption after it. -/
def budgetStopToResume (entered : StudioStep) (since : List StudioStep) (resumed : StudioStep) :
    Bool :=
  decide (entered.source.durableState ≠ some .stopped) &&
    decide (entered.target.configuration.runState.map (fun row => (row.state, row.reason)) =
      some (.stopped, AutomaticStop.budgetExhausted.reason)) &&
    ((since ++ [resumed]).all fun e => decide (e.source.durableState = some .stopped)) &&
    decide (resumed.target.durableState = some .active)

/-- No confirmed policy revises the budget of the one in force. -/
def unrevisedIn (inForce : Option ColleaguePolicy) (tr : List StudioStep) : Bool :=
  tr.all fun e => inForce.all fun current => e.target.activePolicy.all fun proposed =>
    !decide (AutomaticStop.budgetExhausted.Relaxed current proposed)

theorem not_revisedIn {inForce : Option ColleaguePolicy} {tr : List StudioStep}
    (h : unrevisedIn inForce tr = true) : ¬RevisedIn .budgetExhausted inForce tr := by
  rintro ⟨e, he, current, hcurrent, proposed, hproposed, hrelaxed⟩
  simp only [unrevisedIn, List.all_eq_true, Option.all_eq_true, Bool.not_eq_true',
    decide_eq_false_iff_not] at h
  exact h e he current hcurrent proposed hproposed hrelaxed

theorem stopToResume_of_run (as : List (StudioState → StudioAction)) (n : ℕ)
    (p : StudioStep → List StudioStep → StudioStep → Bool)
    (h : TransitionSystem.runsTo (StudioState.exec samplePorts sampleZones) .initial as
      (fun tr _ => (stopToResume n tr).any fun (entered, since, resumed) =>
        budgetStopToResume entered since resumed && p entered since resumed) = true) :
    ∃ entered since resumed,
      StopToResume samplePorts sampleZones .budgetExhausted entered since resumed ∧
        p entered since resumed = true := by
  obtain ⟨tr, s, hpath, hp⟩ := exists_studio_path _ _ _ _ h
  rw [Option.any_eq_true] at hp
  obtain ⟨⟨entered, since, resumed⟩, hsplit, hp⟩ := hp
  simp only [budgetStopToResume, Bool.and_eq_true, decide_eq_true_eq, List.all_eq_true,
    Option.map_eq_some_iff, Prod.mk.injEq] at hp
  obtain ⟨⟨⟨⟨hrunning, row, hrow, hstate, hreason⟩, hstopped⟩, hresumed⟩, hp⟩ := hp
  have htr : tr = tr.take n ++ entered :: (since ++ [resumed]) := by
    unfold stopToResume at hsplit
    split at hsplit
    · exact absurd hsplit (by simp)
    · rename_i first rest hdrop
      rw [Option.map_eq_some_iff] at hsplit
      obtain ⟨last, hlast, hparts⟩ := hsplit
      simp only [Prod.mk.injEq] at hparts
      obtain ⟨rfl, rfl, rfl⟩ := hparts
      rw [List.dropLast_append_getLast? _ hlast, ← hdrop, List.take_append_drop]
  rw [htr] at hpath
  exact ⟨entered, since, resumed, ⟨⟨_, s, hpath⟩, hrunning, ⟨row, hrow, hstate, hreason⟩, hstopped,
    hresumed⟩, hp⟩

/-- An edit that asks to resume. -/
def resumeEdit (wakeLimit : Option ℕ) : PolicyEdit :=
  { PolicyEdit.none with
    wakeLimit := wakeLimit
    runState := some .active
    explicitResume := true
    resume_active := fun _ => rfl }

/-- An edit that sets the policy to stopped. -/
def stopEdit : PolicyEdit :=
  { PolicyEdit.none with
    runState := some .stopped
    resume_active := by decide }

/-- A colleague with a wake budget whose exhaustion stops it. -/
def sampleBudgeted (wakeLimit : ℕ) : List (StudioState → StudioAction) :=
  samplePoliced { PolicyEdit.none with
    wakeLimit := some wakeLimit
    stopConditions := some [.adminStop, .budgetExhausted] }

/-- A limit of three is tightened to one while stopped, and raised to two to resume. -/
def sampleTightened : List (StudioState → StudioAction) :=
  sampleBudgeted 3 ++
    [sampleAdmit (stableId "event-1") 200, sampleAdmit (stableId "event-2") 201,
      sampleAdmit (stableId "event-3") 202, sampleAdmit (stableId "event-4") 203] ++
    sampleGoverned
      (sampleRevision 2 (stableId "draft-2") { PolicyEdit.none with wakeLimit := some 1 } ++
        sampleRevision 3 (stableId "draft-3") (resumeEdit (some 2)))

/-- A policy that is set to stopped while stopped, and to active to resume. -/
def sampleActivated : List (StudioState → StudioAction) :=
  sampleBudgeted 1 ++
    [sampleAdmit (stableId "event-1") 200, sampleAdmit (stableId "event-2") 201] ++
    sampleGoverned
      (sampleRevision 2 (stableId "draft-2") stopEdit ++
        sampleRevision 3 (stableId "draft-3") (resumeEdit none))

set_option maxRecDepth 8000 in
theorem resumptions_revise_cause_tightened :
    ∃ entered since resumed,
      StopToResume samplePorts sampleZones .budgetExhausted entered since resumed ∧
      ∃ current proposed, resumed.source.configuration.getActivePolicy = .ok (some current) ∧
        resumed.target.configuration.getActivePolicy = .ok (some proposed) ∧
        (current.runState = .stopped ∧ proposed.runState = .active ∨
          AutomaticStop.budgetExhausted.Relaxed current proposed) := by
  obtain ⟨entered, since, resumed, hrun, _⟩ := stopToResume_of_run
    sampleTightened 22 (fun _ _ _ => true) (by decide +kernel)
  obtain ⟨earlier, s, hpath⟩ := hrun.path
  have hlast := hrun.stopped resumed (by simp)
  have hsplit : earlier ++ entered :: (since ++ [resumed]) =
      (earlier ++ entered :: since) ++ resumed :: [] := by simp
  obtain ⟨_, _, _, current, proposed, _, _, _, hcurrent, hproposed, hstop⟩ :=
    resumptions_revise_cause hpath hsplit hlast hrun.resumed
  exact ⟨entered, since, resumed, hrun, current, proposed, hcurrent, hproposed,
    hstop _ ⟨earlier, entered, since, rfl, hrun.running, hrun.entered, fun e he =>
      hrun.stopped e (by simp [he])⟩⟩

set_option maxRecDepth 8000 in
/-- A colleague can resume although no policy confirmed since its stop relaxes
    the one then in force, and although the resuming policy relaxes none. -/
theorem resumptions_revise_cause_unrevised :
    (¬∀ stop entered since resumed,
      StopToResume samplePorts sampleZones stop entered since resumed →
        RevisedIn stop entered.source.activePolicy (since ++ [resumed])) ∧
    ¬∀ stop entered since resumed,
      StopToResume samplePorts sampleZones stop entered since resumed →
        RevisedIn stop resumed.source.activePolicy [resumed] := by
  constructor
  · intro hclaim
    obtain ⟨entered, since, resumed, hrun, hp⟩ := stopToResume_of_run sampleTightened 22
      (fun entered since resumed =>
        unrevisedIn entered.source.activePolicy (since ++ [resumed])) (by decide +kernel)
    exact not_revisedIn hp (hclaim _ _ _ _ hrun)
  · intro hclaim
    obtain ⟨entered, since, resumed, hrun, hp⟩ := stopToResume_of_run sampleActivated 20
      (fun _ _ resumed => unrevisedIn resumed.source.activePolicy [resumed]) (by decide +kernel)
    exact not_revisedIn hp (hclaim _ _ _ _ hrun)

end DigitalColleagues
