import DigitalColleagues.Studio.Submission

/-!
# Submitting a trigger again

A repeated call finds the outcome and the ledger row of the first one. Ingestion
compares the record that it rebuilds with the stored one and masks the time it
occurred at, but a timer occurrence also carries the time it is due.

## Main definitions

- `Retains` — what has to stay as the first call left it
- `submissions_repeat` — when a repeated call succeeds and changes nothing
-/

namespace DigitalColleagues

open Keyed

/-- The second call starts from what the first one left: its rows, and the work
    item, the service principal and the policy that it read. -/
structure Retains (ports : RuntimePorts) (r : TriggerSubmission)
    (t u : RuntimeStore StudioTables) : Prop where
  work : u.rest.works.find? r.workId = t.rest.works.find? r.workId
  context : u.rest.resolveRuntimeContext ports = t.rest.resolveRuntimeContext ports
  policy : u.rest.configuration.getActivePolicy = t.rest.configuration.getActivePolicy
  outcomes : t.rest.configuration.policyOutcomes.Within u.rest.configuration.policyOutcomes
  inputEvents : t.agenda.inputEvents.domain.Within u.agenda.inputEvents.domain
  inputEventLedger : t.agenda.inputEventLedger.Within u.agenda.inputEventLedger
  timerOccurrences : t.agenda.timerOccurrences.domain.Within u.agenda.timerOccurrences.domain
  timerOccurrenceLedger : t.agenda.timerOccurrenceLedger.Within u.agenda.timerOccurrenceLedger

theorem Retains.refl (ports : RuntimePorts) (r : TriggerSubmission)
    (t : RuntimeStore StudioTables) : Retains ports r t t :=
  ⟨rfl, rfl, rfl, .refl _, .refl _, .refl _, .refl _, .refl _⟩

-- ════════════════════════════════════════════════════════════════════════
-- Ingestion
-- ════════════════════════════════════════════════════════════════════════

/-- After an ingestion its key leads to a record that the ingested one replays;
    any further ingestion under the key is compared with that record. -/
theorem ingestSource_again {ρ : Type} [DurableRecord ρ] {records records' : Records ρ}
    {ledger ledger' : Table (LedgerRow String)} {triggers triggers' : Table TriggerRow}
    {replayOf : ρ → ρ → Bool} {source : ρ} {idempotencyKey : String} {trigger : TriggerRow}
    {drifted conflict : String} {done : Ingested ρ}
    (h : ingestSource records ledger triggers replayOf source idempotencyKey trigger drifted
      conflict = .ok done)
    (hself : replayOf source source = true) (hrecords : done.records.domain.Within records'.domain)
    (hledger : done.ledger.Within ledger') :
    ∃ existing, replayOf source existing = true ∧ ∀ again trigger',
      ingestSource records' ledger' triggers' replayOf again idempotencyKey trigger' drifted
        conflict =
      if replayOf again existing = true then .ok ⟨existing, false, records', ledger', triggers'⟩
      else .error (.conflict drifted) := by
  have hfound : ∃ existing row, done.ledger.find? idempotencyKey = some row ∧
      done.records.find? row.recordId = some existing ∧ replayOf source existing = true := by
    unfold ingestSource at h
    split at h
    · rename_i row hrow
      simp only [bind_eq_ok, Records.getRecord_eq_ok, require_eq_ok, pure_eq_ok, exists_const] at h
      obtain ⟨existing, hexisting, hreplay, rfl⟩ := h
      exact ⟨existing, row, hrow, hexisting, hreplay⟩
    · simp only [bind_eq_ok, require_eq_ok, orFail_eq_ok, pure_eq_ok, exists_const] at h
      obtain ⟨inserted, hinsert, rows, hrows, _, _, _, rfl⟩ := h
      refine ⟨source, ⟨idempotencyKey, key source⟩, ?_, Records.find?_insertRecord_self hinsert,
        hself⟩
      exact Table.find?_of_mem ((Table.mem_insert hrows).mpr (.inr rfl))
  obtain ⟨existing, row, hrow, hexisting, hreplay⟩ := hfound
  refine ⟨existing, hreplay, fun again trigger' => ?_⟩
  have hstored : records'.find? row.recordId = some existing := hrecords _ _ hexisting
  unfold ingestSource
  rw [hledger _ _ hrow]
  simp only [Records.getRecord, hstored, orFail]
  show (require (replayOf again existing = true) (.conflict drifted) >>= fun _ =>
    (pure ⟨existing, false, records', ledger', triggers'⟩ : Outcome (Ingested ρ))) = _
  by_cases hagain : replayOf again existing = true
  · rw [require, if_pos hagain, if_pos hagain]
    rfl
  · rw [require, if_neg hagain, if_neg hagain]
    rfl

theorem FrozenJsonObject.pyEq_refl (o : FrozenJsonObject) : o.pyEq o = true :=
  Json.pyEqEntries_refl o.entries

theorem InputEvent.pyEq_refl (event : InputEvent) : event.pyEq event = true := by
  simp [pyEq, FrozenJsonObject.pyEq_refl]

theorem TimerOccurrence.pyEq_refl (occurrence : TimerOccurrence) :
    occurrence.pyEq occurrence = true := by
  simp [pyEq, FrozenJsonObject.pyEq_refl]

/-- The same event at another time replays the stored one. -/
theorem AgendaTables.ingestEvent_again {s t u : AgendaTables} {event : InputEvent}
    {idempotencyKey : String} {triggerId : StableId} {result : InputEvent × Bool}
    (h : s.ingestEvent event idempotencyKey triggerId = .ok (result, t))
    (hrecords : t.inputEvents.domain.Within u.inputEvents.domain)
    (hledger : t.inputEventLedger.Within u.inputEventLedger) (occurredAt : Instant) :
    ∃ existing, u.ingestEvent { event with occurredAt := occurredAt } idempotencyKey triggerId =
      .ok ((existing, false), u) := by
  simp only [ingestEvent, bind_eq_ok, pure_eq_ok, Prod.mk.injEq] at h
  obtain ⟨done, hdone, _, rfl⟩ := h
  obtain ⟨existing, hreplay, hagain⟩ := ingestSource_again hdone (InputEvent.pyEq_refl event)
    hrecords hledger
  refine ⟨existing, ?_⟩
  simp only [ingestEvent]
  rw [hagain]
  have hmasked : ({ { event with occurredAt := occurredAt } with
      occurredAt := existing.occurredAt } : InputEvent).pyEq existing = true := hreplay
  rw [if_pos hmasked]
  rfl

/-- The same timer occurrence replays the stored one only if it is due at the same time. -/
theorem AgendaTables.ingestTimer_again {s t u : AgendaTables} {occurrence : TimerOccurrence}
    {idempotencyKey : String} {triggerId : StableId} {result : TimerOccurrence × Bool}
    (h : s.ingestTimer occurrence idempotencyKey triggerId = .ok (result, t))
    (hrecords : t.timerOccurrences.domain.Within u.timerOccurrences.domain)
    (hledger : t.timerOccurrenceLedger.Within u.timerOccurrenceLedger)
    (dueAt occurredAt : Instant) :
    ∃ existing,
      u.ingestTimer { occurrence with dueAt := dueAt, occurredAt := occurredAt } idempotencyKey
        triggerId =
      if dueAt = occurrence.dueAt then .ok ((existing, false), u)
      else .error (.conflict "timer occurrence replay drifted") := by
  simp only [ingestTimer, bind_eq_ok, pure_eq_ok, Prod.mk.injEq] at h
  obtain ⟨done, hdone, _, rfl⟩ := h
  obtain ⟨existing, hreplay, hagain⟩ := ingestSource_again hdone
    (TimerOccurrence.pyEq_refl occurrence) hrecords hledger
  refine ⟨existing, ?_⟩
  simp only [TimerOccurrence.pyEq, Bool.and_eq_true, decide_eq_true_eq] at hreplay
  obtain ⟨⟨htimer, hid, hstate, hdue, hrest⟩, hprojection⟩ := hreplay
  simp only [ingestTimer]
  rw [hagain]
  by_cases hsame : dueAt = occurrence.dueAt
  · have hmasked : ({ { occurrence with dueAt := dueAt, occurredAt := occurredAt } with
        occurredAt := existing.occurredAt } : TimerOccurrence).pyEq existing = true := by
      simp only [TimerOccurrence.pyEq, Bool.and_eq_true, decide_eq_true_eq]
      exact ⟨⟨htimer, hid, hstate, hsame.trans hdue, hrest⟩, hprojection⟩
    rw [if_pos hmasked, if_pos hsame]
    rfl
  · have hmasked : ¬({ { occurrence with dueAt := dueAt, occurredAt := occurredAt } with
        occurredAt := existing.occurredAt } : TimerOccurrence).pyEq existing = true := by
      simp only [TimerOccurrence.pyEq, Bool.and_eq_true, decide_eq_true_eq]
      exact fun hmasked => hsame (hmasked.1.2.2.2.1.trans hdue.symm)
    rw [if_neg hmasked, if_neg hsame]
    rfl

-- ════════════════════════════════════════════════════════════════════════
-- The deterministic runtime
-- ════════════════════════════════════════════════════════════════════════

/-- When a repeated call is an event, or is due when the first one was. -/
def SameDue (r : TriggerSubmission) (clock clock' : SubmissionClock) : Prop :=
  r.triggerClass = .event ∨ clock'.dueAt = clock.dueAt

instance (r : TriggerSubmission) (clock clock' : SubmissionClock) :
    Decidable (SameDue r clock clock') :=
  inferInstanceAs (Decidable (_ ∨ _))

section Calls

variable {ports : RuntimePorts} {zones : TimeZones} {s t u : RuntimeStore StudioTables}
  {r : TriggerSubmission} {policy : Option PolicyBinding} {clock : SubmissionClock}
  {correlation : StableId}

/-- A submission leaves the tables next to the agenda alone. -/
theorem P4RuntimeController.rest_of_submitTrigger
    (h : P4RuntimeController.submitTrigger ports s r policy clock = .ok (correlation, t)) :
    t.rest = s.rest ∧ correlation = r.correlationId ports := by
  simp only [submitTrigger, bind_eq_ok] at h
  obtain ⟨_, _, work, _, service, _, h⟩ := h
  split at h
  · simp only [bind_eq_ok, pure_eq_ok, Prod.mk.injEq] at h
    obtain ⟨_, _, _, _, rfl, rfl⟩ := h
    exact ⟨rfl, rfl⟩
  · simp only [bind_eq_ok, pure_eq_ok, Prod.mk.injEq] at h
    obtain ⟨_, _, _, _, rfl, rfl⟩ := h
    exact ⟨rfl, rfl⟩

theorem P4RuntimeController.submitTrigger_again
    (h : P4RuntimeController.submitTrigger ports s r policy clock = .ok (correlation, t))
    (hu : Retains ports r t u) (clock' : SubmissionClock) :
    P4RuntimeController.submitTrigger ports u r policy clock' =
      if SameDue r clock clock' then .ok (correlation, u)
      else .error (.conflict "timer occurrence replay drifted") := by
  obtain ⟨hrest, rfl⟩ := rest_of_submitTrigger h
  simp only [submitTrigger, bind_eq_ok, orFail_eq_ok] at h
  obtain ⟨_, hrole, work, hwork, service, hservice, h⟩ := h
  have hwork' : u.rest.works.find? r.workId = some work := by rw [hu.work, hrest, hwork]
  have hservice' : u.rest.resolveRuntimeContext ports = .ok service := by
    rw [hu.context, hrest, hservice]
  simp only [submitTrigger, hwork', hservice', orFail]
  rw [hrole]
  cases hclass : r.triggerClass with
  | event =>
    rw [hclass] at h
    simp only [bind_eq_ok, require_eq_ok, pure_eq_ok, exists_const, Prod.exists,
      Prod.mk.injEq] at h
    obtain ⟨hkey, source, accepted, agenda, hingest, _, rfl⟩ := h
    obtain ⟨existing, hagain⟩ := AgendaTables.ingestEvent_again hingest hu.inputEvents
      hu.inputEventLedger clock'.occurredAt
    have hevent : u.agenda.ingestEvent (r.event ports work policy clock'.occurredAt)
        r.idempotencyKey (r.eventTriggerId ports) = .ok ((existing, false), u.agenda) := hagain
    rw [if_pos (.inl hclass)]
    show (require (r.idempotencyKey ≠ "") _ >>= fun _ =>
      u.agenda.ingestEvent _ _ _ >>= fun _ => _) = _
    rw [require, if_pos hkey, hevent]
    rfl
  | timer =>
    rw [hclass] at h
    simp only [bind_eq_ok, require_eq_ok, pure_eq_ok, exists_const, Prod.exists,
      Prod.mk.injEq] at h
    obtain ⟨hkey, source, accepted, agenda, hingest, _, rfl⟩ := h
    obtain ⟨existing, hagain⟩ := AgendaTables.ingestTimer_again hingest hu.timerOccurrences
      hu.timerOccurrenceLedger clock'.dueAt clock'.occurredAt
    have htimer : u.agenda.ingestTimer
        (r.occurrence ports work service policy clock'.dueAt clock'.occurredAt)
        r.idempotencyKey (r.timerTriggerId ports) =
          if clock'.dueAt = clock.dueAt then .ok ((existing, false), u.agenda)
          else .error (.conflict "timer occurrence replay drifted") := hagain
    have hsame : SameDue r clock clock' ↔ clock'.dueAt = clock.dueAt := by
      simp [SameDue, hclass]
    show (require (isStableId r.idempotencyKey = true) _ >>= fun _ =>
      u.agenda.ingestTimer _ _ _ >>= fun _ => _) = _
    rw [require, if_pos hkey, htimer]
    by_cases hdue : clock'.dueAt = clock.dueAt
    · rw [if_pos hdue, if_pos (hsame.mpr hdue)]
      rfl
    · rw [if_neg hdue, if_neg fun h => hdue (hsame.mp h)]
      rfl

end Calls

-- ════════════════════════════════════════════════════════════════════════
-- The governed runtime
-- ════════════════════════════════════════════════════════════════════════

/-- An accepted admission leaves an outcome that says so under its identity. -/
theorem exists_allowed_of_admitsTrigger {s t : AdmissionTables} {builder recorded : BuilderTables}
    {cmd : AdmitTriggerCommand} {admission : PolicyAdmission}
    (h : AdmitsTrigger s builder cmd admission t recorded) (haccepted : admission.accepted = true) :
    ∃ record, recorded.policyOutcomes.find? (.given cmd.outcomeId) = some record ∧
      record.outcome = .allowed := by
  cases h with
  | replayed hrecord hadmission =>
    rw [hadmission] at haccepted
    exact ⟨_, hrecord, of_decide_eq_true haccepted⟩
  | refused _ _ hrefused => exact absurd (hrefused.symm.trans haccepted) (by simp)
  | accepted haccepts =>
    refine ⟨cmd.recordFor .allowed, ?_, rfl⟩
    rcases BuilderTables.insertPolicyOutcome_eq_ok haccepts.records with ⟨hstored, rfl⟩ |
      ⟨outcomes, hinsert, rfl⟩
    · exact hstored
    · exact Table.find?_of_mem ((Table.mem_insert hinsert).mpr (.inr rfl))

section Calls

variable {ports : RuntimePorts} {zones : TimeZones} {s t u : RuntimeStore StudioTables}
  {r : TriggerSubmission} {clock : SubmissionClock} {response : SubmissionResponse}

/-- A repeated call under the same policy finds the outcome of the first one. -/
theorem P5RuntimeController.submitAdmitted_again {policy : ColleaguePolicy}
    (h : P5RuntimeController.submitAdmitted ports zones s r policy clock = .ok (.ok response, t))
    (haccepted : response.accepted = true) (hu : Retains ports r t u)
    (hcolleague : s.rest.governance.store.colleague.isSome = true) (clock' : SubmissionClock) :
    ∃ admission, P5RuntimeController.submitAdmitted ports zones u r policy clock' =
      .ok (if SameDue r clock clock' then .ok { response with admission := admission }
        else .error (.conflict "timer occurrence replay drifted"), u) := by
  obtain ⟨c, hc⟩ := Option.isSome_iff_exists.mp hcolleague
  simp only [submitAdmitted, bind_eq_ok, Prod.exists] at h
  obtain ⟨admission, admitted, configuration, hadmit, h⟩ := h
  by_cases hlet : admission.accepted = true
  · rw [if_pos hlet] at h
    split at h
    · rename_i correlation t' hinner
      simp only [pure_eq_ok, Prod.mk.injEq, Except.ok.injEq] at h
      obtain ⟨rfl, rfl⟩ := h
      obtain ⟨record, hrecord, hallowed⟩ :=
        exists_allowed_of_admitsTrigger (admitTrigger_eq_ok hadmit) hlet
      have hagain := P4RuntimeController.submitTrigger_again hinner hu clock'
      have hrest := (P4RuntimeController.rest_of_submitTrigger hinner).1
      have hconfiguration : t'.rest.configuration = configuration := by
        rw [hrest]
        exact StudioTables.configuration_withConfiguration
          (s := { s.rest with admission := admitted }) hc configuration
      have houtcome : u.rest.configuration.policyOutcomes.find?
          (.given (r.admission ports policy clock'.admittedAt).outcomeId) = some record :=
        hu.outcomes _ _ (by rw [hconfiguration]; exact hrecord)
      have hreplay : admitTrigger zones u.rest.works u.effects.results u.rest.admission
          u.rest.configuration (r.admission ports policy clock'.admittedAt) =
            .ok (u.rest.admission.replayOf (r.admission ports policy clock'.admittedAt) record,
              u.rest.admission, u.rest.configuration) := by
        rw [admitTrigger, houtcome]
      have hself : StudioTables.withConfiguration { u.rest with admission := u.rest.admission }
          u.rest.configuration = u.rest := StudioTables.withConfiguration_self _
      refine ⟨some (u.rest.admission.replayOf (r.admission ports policy clock'.admittedAt) record),
        ?_⟩
      simp only [submitAdmitted, hreplay]
      show (if decide (record.outcome = .allowed) = true then _ else _) = _
      rw [if_pos (decide_eq_true hallowed), hself, hagain]
      by_cases hdue : SameDue r clock clock'
      · rw [if_pos hdue, if_pos hdue]
        rfl
      · rw [if_neg hdue, if_neg hdue]
        rfl
    · simp at h
  · rw [if_neg hlet] at h
    simp only [pure_eq_ok, Prod.mk.injEq, Except.ok.injEq] at h
    obtain ⟨rfl, _⟩ := h
    exact absurd haccepted (by simp)

/-- An admission keeps the active policy. -/
theorem P5RuntimeController.getActivePolicy_of_submitAdmitted {policy : ColleaguePolicy}
    (h : P5RuntimeController.submitAdmitted ports zones s r policy clock = .ok (.ok response, t))
    (hcolleague : s.rest.governance.store.colleague.isSome = true) :
    t.rest.configuration.getActivePolicy = s.rest.configuration.getActivePolicy := by
  obtain ⟨c, hc⟩ := Option.isSome_iff_exists.mp hcolleague
  simp only [submitAdmitted, bind_eq_ok, Prod.exists] at h
  obtain ⟨admission, admitted, configuration, hadmit, h⟩ := h
  have hsame := BuilderTables.SameDrafting.of_admitsTrigger (admitTrigger_eq_ok hadmit)
  have hwritten : (StudioTables.withConfiguration { s.rest with admission := admitted }
      configuration).configuration = configuration :=
    StudioTables.configuration_withConfiguration (s := { s.rest with admission := admitted }) hc _
  split at h
  · split at h
    · rename_i hinner
      simp only [pure_eq_ok, Prod.mk.injEq, Except.ok.injEq] at h
      obtain ⟨_, rfl⟩ := h
      rw [(P4RuntimeController.rest_of_submitTrigger hinner).1, hwritten, hsame.getActivePolicy]
    · simp at h
  · simp only [pure_eq_ok, Prod.mk.injEq, Except.ok.injEq] at h
    obtain ⟨_, rfl⟩ := h
    rw [hwritten, hsame.getActivePolicy]

/-- Of a repeated call on a governed runtime. -/
theorem P5RuntimeController.submitTrigger_again
    (h : P5RuntimeController.submitTrigger ports zones s r clock = .ok (.ok response, t))
    (haccepted : response.accepted = true) (hu : Retains ports r t u) (clock' : SubmissionClock) :
    if SameDue r clock clock' then
      ∃ again, P5RuntimeController.submitTrigger ports zones u r clock' = .ok (.ok again, u) ∧
        again.correlationId = response.correlationId
    else ∀ again u', P5RuntimeController.submitTrigger ports zones u r clock' ≠
      .ok (.ok again, u') := by
  simp only [submitTrigger, bind_eq_ok] at h
  obtain ⟨active, hactive, h⟩ := h
  cases active with
  | none =>
    simp only [bind_eq_ok, pure_eq_ok, Prod.exists, Prod.mk.injEq, Except.ok.injEq] at h
    obtain ⟨correlation, t', hinner, rfl, rfl⟩ := h
    have hactive' : u.rest.configuration.getActivePolicy = .ok none := by
      rw [hu.policy, (P4RuntimeController.rest_of_submitTrigger hinner).1, hactive]
    have hagain := P4RuntimeController.submitTrigger_again hinner hu clock'
    have hcall : P5RuntimeController.submitTrigger ports zones u r clock' =
        (P4RuntimeController.submitTrigger ports u r none clock' >>= fun result =>
          pure (.ok ⟨true, result.1, none, none⟩, result.2)) := by
      rw [submitTrigger, hactive']
      rfl
    rw [hcall, hagain]
    by_cases hdue : SameDue r clock clock'
    · rw [if_pos hdue, if_pos hdue]
      exact ⟨_, rfl, rfl⟩
    · rw [if_neg hdue, if_neg hdue]
      intro again u' hagain
      exact absurd hagain (by simp [bind, Except.bind])
  | some policy =>
    have hcolleague : s.rest.governance.store.colleague.isSome = true := by
      rw [Option.isSome_iff_ne_none]
      intro hnone
      rw [StudioTables.configuration_of_none hnone] at hactive
      exact absurd hactive (by
        simp [BuilderTables.getActivePolicy, BuilderTables.empty, Records.empty, Table.empty])
    have hactive' : u.rest.configuration.getActivePolicy = .ok (some policy) := by
      rw [hu.policy, getActivePolicy_of_submitAdmitted h hcolleague, hactive]
    obtain ⟨admission, hagain⟩ := submitAdmitted_again h haccepted hu hcolleague clock'
    have hcall : P5RuntimeController.submitTrigger ports zones u r clock' =
        submitAdmitted ports zones u r policy clock' := by
      rw [submitTrigger, hactive']
      rfl
    rw [hcall, hagain]
    by_cases hdue : SameDue r clock clock'
    · rw [if_pos hdue, if_pos hdue]
      exact ⟨_, rfl, rfl⟩
    · rw [if_neg hdue, if_neg hdue]
      intro again u' hagain
      exact absurd hagain (by simp)

end Calls

/-- Events, timer occurrences, triggers, replay ledgers, counters and consumptions
    are as before. -/
structure Unchanged (u u' : RuntimeStore StudioTables) : Prop where
  agenda : u'.agenda = u.agenda
  admission : u'.rest.admission = u.rest.admission

/-- A submission that succeeded can be repeated without a trace exactly when it is
    an event or due at the same time; so can an accepted one of a governed runtime. -/
theorem submissions_repeat (ports : RuntimePorts) (zones : TimeZones) (r : TriggerSubmission)
    (s t u : RuntimeStore StudioTables) (clock clock' : SubmissionClock)
    (hu : Retains ports r t u) :
    (∀ policy correlation,
      P4RuntimeController.submitTrigger ports s r policy clock = .ok (correlation, t) →
      ((∃ u', P4RuntimeController.submitTrigger ports u r policy clock' = .ok (correlation, u') ∧
          Unchanged u u') ↔ SameDue r clock clock')) ∧
    ∀ response,
      P5RuntimeController.submitTrigger ports zones s r clock = .ok (.ok response, t) →
      response.accepted = true →
      ((∃ again u', P5RuntimeController.submitTrigger ports zones u r clock' =
            .ok (.ok again, u') ∧ again.correlationId = response.correlationId ∧
            Unchanged u u') ↔ SameDue r clock clock') := by
  refine ⟨fun policy correlation h => ?_, fun response h haccepted => ?_⟩
  · rw [P4RuntimeController.submitTrigger_again h hu clock']
    by_cases hdue : SameDue r clock clock'
    · rw [if_pos hdue]
      exact ⟨fun _ => hdue, fun _ => ⟨u, rfl, rfl, rfl⟩⟩
    · rw [if_neg hdue]
      simp [hdue]
  · have hagain := P5RuntimeController.submitTrigger_again h haccepted hu clock'
    by_cases hdue : SameDue r clock clock'
    · rw [if_pos hdue] at hagain
      obtain ⟨again, hcall, hcorrelation⟩ := hagain
      exact ⟨fun _ => hdue, fun _ => ⟨again, u, hcall, hcorrelation, rfl, rfl⟩⟩
    · rw [if_neg hdue] at hagain
      refine ⟨fun ⟨again, u', hcall, _⟩ => absurd hcall (hagain again u'), fun h => absurd h hdue⟩

-- ════════════════════════════════════════════════════════════════════════
-- An event and a timer
-- ════════════════════════════════════════════════════════════════════════

/-- The clock of a first call, and of a repeated one an hour later. -/
def sampleClock : SubmissionClock := ⟨200, 201, 202⟩

def sampleLaterClock : SubmissionClock := ⟨microsPerHour, microsPerHour + 1, microsPerHour + 2⟩

/-- A first call on the sample colleague is accepted. -/
def acceptsFirst (triggerClass : DurableTriggerKind) (s : StudioState) : Bool :=
  match P5RuntimeController.submitTrigger sampleRuntimePorts sampleZones s.runtime.store
    (sampleSubmission triggerClass) sampleClock with
  | .ok (.ok response, _) => response.accepted
  | _ => false

theorem exists_of_acceptsFirst {triggerClass : DurableTriggerKind} {s : StudioState}
    (h : acceptsFirst triggerClass s = true) :
    ∃ response t, P5RuntimeController.submitTrigger sampleRuntimePorts sampleZones s.runtime.store
      (sampleSubmission triggerClass) sampleClock = .ok (.ok response, t) ∧
      response.accepted = true := by
  unfold acceptsFirst at h
  split at h
  · rename_i response t hcall
    exact ⟨response, t, hcall, h⟩
  · exact absurd h (by simp)

set_option maxRecDepth 8000 in
theorem submissions_repeat_event :
    ∃ s t response, P5RuntimeController.submitTrigger sampleRuntimePorts sampleZones s
        (sampleSubmission .event) sampleClock = .ok (.ok response, t) ∧
      ∃ again u', P5RuntimeController.submitTrigger sampleRuntimePorts sampleZones t
          (sampleSubmission .event) sampleLaterClock = .ok (.ok again, u') ∧
        again.correlationId = response.correlationId ∧ Unchanged t u' := by
  obtain ⟨tr, s, _, hp⟩ := exists_studio_path samplePorts sampleZones sampleAssigned
    (fun _ s => acceptsFirst .event s) (by decide +kernel)
  obtain ⟨response, t, hcall, haccepted⟩ := exists_of_acceptsFirst hp
  have hrepeat := (submissions_repeat sampleRuntimePorts sampleZones _ _ _ _ sampleClock
    sampleLaterClock (.refl _ _ t)).2 response hcall haccepted
  exact ⟨_, t, response, hcall, hrepeat.mpr (.inl rfl)⟩

set_option maxRecDepth 8000 in
/-- A timer that is submitted again an hour later is refused as drifted. -/
theorem submissions_repeat_timer :
    ¬∀ (s t : RuntimeStore StudioTables) (r : TriggerSubmission) (clock clock' : SubmissionClock)
      (response : SubmissionResponse),
      P5RuntimeController.submitTrigger sampleRuntimePorts sampleZones s r clock =
        .ok (.ok response, t) → response.accepted = true →
      ∃ again u', P5RuntimeController.submitTrigger sampleRuntimePorts sampleZones t r clock' =
        .ok (.ok again, u') ∧ again.correlationId = response.correlationId ∧ Unchanged t u' := by
  intro hclaim
  obtain ⟨tr, s, _, hp⟩ := exists_studio_path samplePorts sampleZones sampleAssigned
    (fun _ s => acceptsFirst .timer s) (by decide +kernel)
  obtain ⟨response, t, hcall, haccepted⟩ := exists_of_acceptsFirst hp
  have hrefused := P5RuntimeController.submitTrigger_again hcall haccepted (.refl _ _ t)
    sampleLaterClock
  rw [if_neg (by decide)] at hrefused
  obtain ⟨again, u', hagain, _⟩ := hclaim _ t _ _ sampleLaterClock response hcall haccepted
  exact hrefused again u' hagain

end DigitalColleagues
