import DigitalColleagues.Application.Evaluation
import DigitalColleagues.Lib.Text

/-!
# What a readout says about its observations

A readout is returned whenever the names of the sources of a fully observed
metric fit into its text. It then says of each metric whether as many
observations were counted as there are opportunities, which is that all of them
were judged only as far as no second judgment stands in for a missing one.
-/

namespace DigitalColleagues

open Keyed

-- ════════════════════════════════════════════════════════════════════════
-- Text
-- ════════════════════════════════════════════════════════════════════════

theorem isSpace_of_isIdPart {c : Char} (h : isIdPart c = true) : isSpace c = false := by
  have hrange : 0x2d ≤ c.toNat ∧ c.toNat ≤ 0x7a := by
    simp only [isIdPart, isIdStart, Bool.or_eq_true, Bool.and_eq_true, decide_eq_true_eq,
      beq_iff_eq] at h
    have hle : ∀ a b : Char, a ≤ b → a.toNat ≤ b.toNat := fun _ _ hab => hab
    obtain ((((⟨hlo, hhi⟩ | ⟨hlo, hhi⟩) | rfl) | rfl) | rfl) | rfl := h
    · exact ⟨(by decide : 0x2d ≤ 'a'.toNat).trans (hle _ _ hlo), hle _ _ hhi⟩
    · exact ⟨(by decide : 0x2d ≤ '0'.toNat).trans (hle _ _ hlo),
        (hle _ _ hhi).trans (by decide)⟩
    all_goals decide
  unfold isSpace
  simp only [List.mem_cons, List.not_mem_nil, or_false, decide_eq_false_iff_not]
  omega

theorem isSpace_of_mem_stableId {id : StableId} {c : Char} (h : c ∈ id.val.toList) :
    isSpace c = false := by
  have hid := id.property
  unfold isStableId at hid
  split at hid
  · rename_i hnil
    exact absurd h (by rw [hnil]; exact List.not_mem_nil)
  · rename_i d ds hcons
    simp only [Bool.and_eq_true, List.all_eq_true] at hid
    rw [hcons] at h
    obtain rfl | h := List.mem_cons.mp h
    · exact isSpace_of_isIdPart (by simp only [isIdPart, hid.1.1, Bool.true_or])
    · exact isSpace_of_isIdPart (hid.1.2 c h)

theorem dropWhile_eq_self {α : Type} {p : α → Bool} {l : List α}
    (h : ∀ a ∈ l.head?, p a = false) : l.dropWhile p = l := by
  cases l with
  | nil => rfl
  | cons a l => rw [List.dropWhile_cons, if_neg (by simp [h a rfl])]

/-- Stripping leaves a text that neither starts nor ends with a space. -/
theorem strip_eq_self {s : String} (hfirst : ∀ c ∈ s.toList.head?, isSpace c = false)
    (hlast : ∀ c ∈ s.toList.getLast?, isSpace c = false) : strip s = s := by
  rw [strip, dropWhile_eq_self hfirst, dropWhile_eq_self, List.reverse_reverse,
    String.ofList_toList]
  rwa [List.head?_reverse]

theorem requireText_isOk {value field : String} {maximum : ℕ} :
    (∃ text, requireText value field maximum = .ok text) ↔
      strip value ≠ "" ∧ (strip value).length ≤ maximum := by
  unfold requireText
  split
  · rename_i h
    simp only [reduceCtorEq, exists_false, false_iff]
    rintro ⟨hne, hle⟩
    exact h.elim hne fun hlt => by omega
  · rename_i h
    simpa [not_or] using h

-- ════════════════════════════════════════════════════════════════════════
-- Results
-- ════════════════════════════════════════════════════════════════════════

/-- A source that every result may name. -/
def NamesSource (source : String) : Prop :=
  ∃ text, requireText source "metric source" 4096 = .ok text

/-- Characters without spaces around them, not too many. -/
def plainText (chars : List Char) : Bool :=
  (chars.head?.any fun c => !isSpace c) && (chars.getLast?.any fun c => !isSpace c) &&
    decide (chars.length ≤ 4096)

/-- The characters of a text say whether it is a source. -/
theorem namesSource_of_chars {source : String} {chars : List Char}
    (hchars : source = String.ofList chars) (h : plainText chars = true) : NamesSource source := by
  simp only [plainText, Bool.and_eq_true, Option.any_eq_true, Bool.not_eq_true',
    decide_eq_true_eq] at h
  obtain ⟨⟨⟨first, hfirst, hfirstSpace⟩, last, hlast, hlastSpace⟩, hlength⟩ := h
  have hlist : source.toList = chars := by rw [hchars, String.toList_ofList]
  have hstrip : strip source = source := by
    refine strip_eq_self (fun c hc => ?_) fun c hc => ?_
    · rw [hlist, hfirst] at hc
      exact Option.some.inj hc ▸ hfirstSpace
    · rw [hlist, hlast] at hc
      exact Option.some.inj hc ▸ hlastSpace
  refine requireText_isOk.mpr ⟨?_, ?_⟩
  · rw [hstrip]
    rintro rfl
    rw [← hlist] at hfirst
    exact absurd hfirst (by simp)
  · rwa [hstrip, ← String.length_toList, hlist]

/-- So do the characters of two texts about their concatenation. -/
theorem namesSource_append {first second : String} {chars rest : List Char}
    (hfirst : first = String.ofList chars) (hsecond : second = String.ofList rest)
    (h : plainText (chars ++ rest) = true) : NamesSource (first ++ second) :=
  namesSource_of_chars (by rw [hfirst, hsecond, String.ofList_append]) h

/-- The fields of a result agree with its status. -/
def MetricResult.Agrees (r : MetricResult) : Prop :=
  if r.denominator = 0 then
    r.status = .notApplicable ∧ r.value = none ∧ ¬r.lacksReason ∧ r.numerator = none
  else match r.status with
    | .observed => r.numerator ≠ none ∧ r.value ≠ none ∧ r.reason = none
    | .notEvaluated => r.numerator = none ∧ r.value = none ∧ ¬r.lacksReason
    | .notApplicable => False

theorem MetricResult.create_eq_ok {r r' : MetricResult} :
    r.create = .ok r' ↔
      r = r' ∧ NamesSource r.source ∧ r.safeCausalReferences.Nodup ∧ r.Agrees := by
  simp only [create, bind_eq_ok, require_eq_ok, exists_const, Agrees]
  rw [exists_and_right, ← NamesSource]
  split
  · simp only [bind_eq_ok, require_eq_ok, pure_eq_ok, exists_const]
    tauto
  · cases r.status with
    | observed =>
      simp only [bind_eq_ok, require_eq_ok, pure_eq_ok, exists_const]
      tauto
    | notEvaluated =>
      simp only [bind_eq_ok, require_eq_ok, pure_eq_ok, exists_const]
      tauto
    | notApplicable => simp

theorem notApplicable_isOk {metric : StableId} {reason source : String}
    {references : List StableId} (hreason : reason ≠ "") (hsource : NamesSource source)
    (hreferences : references.Nodup) :
    ∃ r, notApplicable metric reason source references = .ok r :=
  ⟨_, MetricResult.create_eq_ok.mpr ⟨rfl, hsource, hreferences, rfl, rfl, hreason, rfl⟩⟩

theorem observedRate_isOk {metric : StableId} {numerator denominator : ℕ} {source : String}
    {references : List StableId} (hdenominator : denominator ≠ 0) (hsource : NamesSource source)
    (hreferences : references.Nodup) :
    ∃ r, observedRate metric numerator denominator source references = .ok r := by
  unfold observedRate
  simp only [bind_eq_ok, require_eq_ok, exists_const, MetricResult.create_eq_ok]
  refine ⟨_, hdenominator, rfl, hsource, hreferences, ?_⟩
  rw [MetricResult.Agrees, if_neg hdenominator]
  exact ⟨by simp, by simp, rfl⟩

/-- A rate of the runtime is reported. -/
theorem runtimeRate_isOk {rate : RuntimeRate} {numerator denominator : ℕ}
    {emptyReason emptySource source : String} {emptyReferences references : List StableId}
    (hreason : emptyReason ≠ "") (hempty : NamesSource emptySource)
    (hemptyReferences : emptyReferences.Nodup) (hsource : NamesSource source)
    (hreferences : references.Nodup) :
    ∃ r, runtimeRate rate numerator denominator emptyReason emptySource emptyReferences source
      references = .ok r := by
  unfold runtimeRate
  split
  · exact notApplicable_isOk hreason hempty hemptyReferences
  · rename_i hdenominator
    exact observedRate_isOk hdenominator hsource hreferences

/-- It is at most one when its numerator counts a part of what its denominator counts. -/
theorem bounded_of_runtimeRate {rate : RuntimeRate} {numerator denominator : ℕ}
    {emptyReason emptySource source : String} {emptyReferences references : List StableId}
    {r : MetricResult} (hle : numerator ≤ denominator)
    (h : runtimeRate rate numerator denominator emptyReason emptySource emptyReferences source
      references = .ok r) : r.metric = rate.text ∧ ∀ n ∈ r.numerator, n ≤ r.denominator := by
  unfold runtimeRate at h
  split at h
  · obtain ⟨rfl, _⟩ := MetricResult.create_eq_ok.mp h
    exact ⟨rfl, fun n hn => absurd hn (by simp)⟩
  · simp only [observedRate, bind_eq_ok, require_eq_ok, exists_const] at h
    obtain ⟨rfl, _⟩ := MetricResult.create_eq_ok.mp h.2
    refine ⟨rfl, fun n hn => ?_⟩
    obtain rfl := Option.some.inj hn
    exact hle

-- ════════════════════════════════════════════════════════════════════════
-- Judged metrics
-- ════════════════════════════════════════════════════════════════════════

namespace P4EvaluationService

open EvaluationTables

variable {metric : EvaluationMetric} {ids references : List StableId}
  {observations : List EvaluationObservation} {emptyReason eligibleSource : String}
  {isRate : Bool}

/-- The observations of a metric, of those that are about eligible opportunities. -/
theorem matching_eq (metric : EvaluationMetric) (ids : List StableId)
    (observations : List EvaluationObservation) :
    (observations.filter fun o =>
        decide (o.metric = metric) && decide (o.opportunityId ∈ ids)) =
      Coverage.on EvaluationObservation.opportunityId ids
        (observations.filter fun o => decide (o.metric = metric)) := by
  rw [Coverage.on, List.filter_filter]
  refine List.filter_congr fun o _ => ?_
  rw [Bool.and_comm]
  congr

/-- What `_evaluated_metric` reports about the observations that count. -/
structure Evaluated (metric : EvaluationMetric) (ids : List StableId)
    (matching : List EvaluationObservation) (r : MetricResult) : Prop where
  metric_eq : r.metric = metric.text
  denominator_eq : r.denominator = ids.length
  observed_iff : r.status = .observed ↔ ids ≠ [] ∧ matching.length = ids.length
  numerator_eq : r.status = .observed →
    r.numerator = some (matching.map EvaluationObservation.value).sum
  unobserved : r.status ≠ .observed → r.numerator = none

/-- The text of a source list neither starts nor ends with a space. -/
theorem strip_observationSource {matching : List EvaluationObservation} (h : matching ≠ []) :
    strip (observationSource matching) = observationSource matching := by
  have hne : sortedIds (matching.map EvaluationObservation.source) ≠ [] := by
    obtain ⟨o, ho⟩ := List.exists_mem_of_ne_nil _ h
    exact List.ne_nil_of_mem (mem_sortedIds.mpr (List.mem_map_of_mem ho))
  have hchars : ∀ c ∈ (",".intercalate ((sortedIds (matching.map
      EvaluationObservation.source)).map Subtype.val)).toList, isSpace c = false := by
    intro c hc
    rw [String.toList_intercalate] at hc
    obtain rfl | ⟨part, hpart, hc⟩ := Text.mem_intercalate hc
    · decide
    · simp only [List.mem_map] at hpart
      obtain ⟨_, ⟨id, _, rfl⟩, rfl⟩ := hpart
      exact isSpace_of_mem_stableId hc
  have hnonempty : (",".intercalate ((sortedIds (matching.map
      EvaluationObservation.source)).map Subtype.val)).toList ≠ [] := by
    obtain ⟨id, rest, hcons⟩ := List.exists_cons_of_ne_nil hne
    have hid : id.val.toList ≠ [] := by
      intro hnil
      have hstable := id.property
      simp [isStableId, hnil] at hstable
    rw [hcons, String.toList_intercalate]
    cases rest with
    | nil => simpa using hid
    | cons other rest => simp [List.intercalate_cons_cons, hid]
  have hhead : "durable p4_metric_observations from ".toList.head? = some 'd' := by simp
  have htext : (observationSource matching).toList =
      "durable p4_metric_observations from ".toList ++ (",".intercalate ((sortedIds (matching.map
        EvaluationObservation.source)).map Subtype.val)).toList := String.toList_append
  refine strip_eq_self (fun c hc => ?_) fun c hc => ?_
  · rw [htext, List.head?_append, hhead, Option.some_or] at hc
    obtain rfl := Option.some.inj hc
    decide
  · rw [htext, List.getLast?_append_of_ne_nil _ hnonempty] at hc
    exact hchars c (List.mem_of_getLast? hc)

theorem namesSource_observationSource {matching : List EvaluationObservation}
    (h : matching ≠ []) :
    NamesSource (observationSource matching) ↔ (observationSource matching).length ≤ 4096 := by
  have hne : observationSource matching ≠ "" := by
    intro hempty
    have htext : (observationSource matching).toList =
        "durable p4_metric_observations from ".toList ++ (",".intercalate ((sortedIds
          (matching.map EvaluationObservation.source)).map Subtype.val)).toList :=
      String.toList_append
    rw [hempty] at htext
    have hnil := (List.append_eq_nil_iff.mp htext.symm).1
    exact absurd hnil (by simp)
  rw [NamesSource, requireText_isOk, strip_observationSource h]
  exact and_iff_right hne

/-- The names of the sources fit wherever they are reported. -/
def SourcesFit (ids : List StableId) (matching : List EvaluationObservation) : Prop :=
  ids ≠ [] → matching.length = ids.length → (observationSource matching).length ≤ 4096

theorem ne_nil_of_length {ids : List StableId} {matching : List EvaluationObservation}
    (hids : ids ≠ []) (hlength : matching.length = ids.length) : matching ≠ [] := by
  rintro rfl
  exact hids (List.eq_nil_of_length_eq_zero hlength.symm)

theorem evaluated_of_evaluatedMetric {r : MetricResult}
    (h : evaluatedMetric metric ids references observations emptyReason eligibleSource isRate =
      .ok r) :
    Evaluated metric ids (Coverage.on EvaluationObservation.opportunityId ids
        (observations.filter fun o => decide (o.metric = metric))) r ∧
      SourcesFit ids (Coverage.on EvaluationObservation.opportunityId ids
        (observations.filter fun o => decide (o.metric = metric))) := by
  simp only [evaluatedMetric, matching_eq] at h
  split at h
  · rename_i hids
    obtain rfl := List.eq_nil_of_length_eq_zero hids
    obtain ⟨rfl, _⟩ := MetricResult.create_eq_ok.mp h
    exact ⟨⟨rfl, rfl, by simp, by simp, fun _ => rfl⟩, fun hne => absurd rfl hne⟩
  · rename_i hids
    have hne : ids ≠ [] := fun hnil => hids (by rw [hnil]; rfl)
    split at h
    · rename_i hlength
      obtain ⟨rfl, _⟩ := MetricResult.create_eq_ok.mp h
      exact ⟨⟨rfl, rfl, by simp [hlength], by simp, fun _ => rfl⟩,
        fun _ heq => absurd heq hlength⟩
    · rename_i hlength
      obtain ⟨rfl, hsource, _⟩ := MetricResult.create_eq_ok.mp h
      have heq := not_not.mp hlength
      exact ⟨⟨rfl, rfl, by simp [hne, heq], fun _ => rfl, by simp⟩, fun _ _ =>
        (namesSource_observationSource (ne_nil_of_length hne heq)).mp hsource⟩

theorem evaluatedMetric_isOk (hreason : emptyReason ≠ "") (heligible : NamesSource eligibleSource)
    (hrequired : NamesSource
      (eligibleSource ++ "; evaluator source required in p4_metric_observations"))
    (hreferences : references.Nodup)
    (hfit : SourcesFit ids (Coverage.on EvaluationObservation.opportunityId ids
      (observations.filter fun o => decide (o.metric = metric)))) :
    ∃ r, evaluatedMetric metric ids references observations emptyReason eligibleSource isRate =
      .ok r := by
  simp only [evaluatedMetric, matching_eq]
  split
  · exact notApplicable_isOk hreason heligible hreferences
  · rename_i hids
    have hne : ids ≠ [] := fun hnil => hids (by rw [hnil]; rfl)
    split
    · refine ⟨_, MetricResult.create_eq_ok.mpr
        ⟨rfl, hrequired, nodup_sortedIds _, ?_⟩⟩
      rw [MetricResult.Agrees, if_neg hids]
      exact ⟨rfl, rfl, by simp [MetricResult.lacksReason]⟩
    · rename_i hlength
      have heq := not_not.mp hlength
      refine ⟨_, MetricResult.create_eq_ok.mpr ⟨rfl, (namesSource_observationSource
        (ne_nil_of_length hne heq)).mpr (hfit hne heq), nodup_sortedIds _, ?_⟩⟩
      rw [MetricResult.Agrees, if_neg hids]
      exact ⟨by simp, by simp, rfl⟩

end P4EvaluationService

-- ════════════════════════════════════════════════════════════════════════
-- Readouts
-- ════════════════════════════════════════════════════════════════════════

namespace EvaluationState

open P4EvaluationService EvaluationTables

variable {workCorrelation : StableId → StableId} {s : EvaluationState}
  {readout : List MetricResult}

/-- The observations that count for a metric. -/
def matching (s : EvaluationState) (metric : EvaluationMetric) : List EvaluationObservation :=
  Coverage.on EvaluationObservation.opportunityId (s.eligible metric) (s.judgments metric)

theorem snapshot_eq_ok {s : StudioState} {snapshot : StudioSnapshot} :
    s.snapshot = .ok snapshot ↔ s.configuration.profiles.domain.rows = [snapshot.profile] ∧
      s.configuration.mandates.domain.rows = [snapshot.mandate] ∧
      snapshot =
        { profile := snapshot.profile
          mandate := snapshot.mandate
          work := s.tables.works.rows
          events := s.runtime.agenda.tables.inputEvents.domain.rows
          timers := s.runtime.agenda.tables.timerOccurrences.domain.rows
          proposals := s.runtime.effects.tables.proposals.domain.rows
          approvals := s.runtime.effects.tables.approvals.domain.rows } := by
  constructor
  · intro h
    unfold StudioState.snapshot at h
    split at h
    · rename_i profile mandate hprofiles hmandates
      obtain rfl := Except.ok.inj h
      exact ⟨hprofiles, hmandates, rfl⟩
    · exact absurd h (by simp)
  · rintro ⟨hprofiles, hmandates, heq⟩
    rw [StudioState.snapshot, hprofiles, hmandates, heq]

/-- What every readout says, whatever was observed. -/
structure Reports (s : EvaluationState) (readout : List MetricResult) : Prop where
  judged : ∀ metric : EvaluationMetric, ∃ r ∈ readout,
    Evaluated metric (s.eligible metric) (s.matching metric) r
  only : ∀ r ∈ readout,
    (∃ metric : EvaluationMetric, Evaluated metric (s.eligible metric) (s.matching metric) r) ∨
      ((∃ rate : RuntimeRate, r.metric = rate.text) ∧ ∀ n ∈ r.numerator, n ≤ r.denominator)
  fits : ∀ metric : EvaluationMetric, SourcesFit (s.eligible metric) (s.matching metric)

/-- Correlated proposals are of triggers, one for each of their correlation identifiers. -/
theorem length_visible_le (proposals events timers : List StableId) :
    (proposals.filter fun id => decide (id ∈ sortedIds (events ++ timers))).dedup.length ≤
      events.length + timers.length := by
  have hsub : (proposals.filter fun id =>
      decide (id ∈ sortedIds (events ++ timers))).dedup ⊆ events ++ timers := by
    intro id hid
    rw [List.mem_dedup, List.mem_filter, decide_eq_true_eq] at hid
    exact mem_sortedIds.mp hid.2
  have hle := (List.subperm_of_subset (List.nodup_dedup _) hsub).length_le
  rwa [List.length_append] at hle

theorem reports_of_evaluate (h : s.evaluate workCorrelation = .ok readout) :
    s.Reports readout := by
  simp only [evaluate, bind_eq_ok, pure_eq_ok] at h
  obtain ⟨snapshot, hsnapshot, ai, hai, proactive, hproactive, completion, hcompletion,
    unauthorized, hunauthorized, rebrief, hrebrief, wrong, hwrong, unnecessary, hunnecessary,
    human, hhuman, rfl⟩ := h
  obtain ⟨_, _, heq⟩ := snapshot_eq_ok.mp hsnapshot
  rw [heq] at hai hproactive hcompletion hrebrief hwrong hunnecessary hhuman
  obtain ⟨hrebrief, hrebriefFits⟩ := evaluated_of_evaluatedMetric hrebrief
  obtain ⟨hwrong, hwrongFits⟩ := evaluated_of_evaluatedMetric hwrong
  obtain ⟨hunnecessary, hunnecessaryFits⟩ := evaluated_of_evaluatedMetric hunnecessary
  obtain ⟨hhuman, hhumanFits⟩ := evaluated_of_evaluatedMetric hhuman
  have hvisible := length_visible_le
    (s.studio.runtime.effects.tables.proposals.domain.rows.map fun p => p.correlationId)
    (s.studio.runtime.agenda.tables.inputEvents.domain.rows.map InputEvent.correlationId)
    (s.studio.runtime.agenda.tables.timerOccurrences.domain.rows.map
      TimerOccurrence.correlationId)
  rw [List.length_map, List.length_map] at hvisible
  obtain ⟨haiMetric, hai⟩ := bounded_of_runtimeRate hvisible hai
  obtain ⟨hproactiveMetric, hproactive⟩ := bounded_of_runtimeRate List.countP_le_length hproactive
  obtain ⟨hcompletionMetric, hcompletion⟩ :=
    bounded_of_runtimeRate List.countP_le_length hcompletion
  obtain ⟨hunauthorizedMetric, hunauthorized⟩ :=
    bounded_of_runtimeRate List.countP_le_length hunauthorized
  refine ⟨fun metric => ?_, fun r hr => ?_, fun metric => ?_⟩
  · cases metric with
    | rebriefTurns => exact ⟨rebrief, by simp, hrebrief⟩
    | wrongMemoryRate => exact ⟨wrong, by simp, hwrong⟩
    | unnecessaryInterruptionRate => exact ⟨unnecessary, by simp, hunnecessary⟩
    | humanInterventionCount => exact ⟨human, by simp, hhuman⟩
  · simp only [List.mem_cons, List.not_mem_nil, or_false] at hr
    obtain rfl | rfl | rfl | rfl | rfl | rfl | rfl | rfl := hr
    · exact .inl ⟨.rebriefTurns, hrebrief⟩
    · exact .inl ⟨.wrongMemoryRate, hwrong⟩
    · exact .inr ⟨⟨_, haiMetric⟩, hai⟩
    · exact .inr ⟨⟨_, hproactiveMetric⟩, hproactive⟩
    · exact .inl ⟨.unnecessaryInterruptionRate, hunnecessary⟩
    · exact .inl ⟨.humanInterventionCount, hhuman⟩
    · exact .inr ⟨⟨_, hcompletionMetric⟩, hcompletion⟩
    · exact .inr ⟨⟨_, hunauthorizedMetric⟩, hunauthorized⟩
  · cases metric with
    | rebriefTurns => exact hrebriefFits
    | wrongMemoryRate => exact hwrongFits
    | unnecessaryInterruptionRate => exact hunnecessaryFits
    | humanInterventionCount => exact hhumanFits

theorem exists_bind {α β : Type} {x : Outcome α} {f : α → Outcome β} (hx : ∃ a, x = .ok a)
    (hf : ∀ a, x = .ok a → ∃ b, f a = .ok b) : ∃ b, (x >>= f) = .ok b := by
  obtain ⟨a, ha⟩ := hx
  obtain ⟨b, hb⟩ := hf a ha
  exact ⟨b, bind_eq_ok.mpr ⟨a, ha, hb⟩⟩

/-- A readout is returned whenever the names of the sources fit. -/
theorem exists_evaluate {snapshot : StudioSnapshot} (hsnapshot : s.studio.snapshot = .ok snapshot)
    (hfits : ∀ metric : EvaluationMetric,
      SourcesFit (s.eligible metric) (s.matching metric)) :
    ∃ readout, s.evaluate workCorrelation = .ok readout := by
  obtain ⟨_, _, heq⟩ := snapshot_eq_ok.mp hsnapshot
  have hwork : snapshot.work = s.studio.tables.works.rows := by rw [heq]
  have hproposals : snapshot.proposals =
      s.studio.runtime.effects.tables.proposals.domain.rows := by rw [heq]
  have hworkFits (metric : EvaluationMetric)
      (h : s.eligible metric = s.studio.tables.works.rows.map FiniteWork.workId) :
      SourcesFit (snapshot.work.map FiniteWork.workId) (Coverage.on
        EvaluationObservation.opportunityId (snapshot.work.map FiniteWork.workId)
        (s.judgments metric)) := by
    rw [hwork, ← h]
    exact hfits metric
  have hproposalFits : SourcesFit (snapshot.proposals.map fun p => p.proposalId) (Coverage.on
      EvaluationObservation.opportunityId (snapshot.proposals.map fun p => p.proposalId)
      (s.judgments .unnecessaryInterruptionRate)) := by
    rw [hproposals]
    exact hfits .unnecessaryInterruptionRate
  unfold evaluate
  refine exists_bind ⟨snapshot, hsnapshot⟩ fun snapshot' hsnapshot' => ?_
  obtain rfl := Except.ok.inj (hsnapshot.symm.trans hsnapshot')
  refine exists_bind (runtimeRate_isOk (by decide) (namesSource_of_chars rfl (by decide))
    (nodup_sortedIds _) (namesSource_append rfl rfl (by decide)) (nodup_sortedIds _)) fun _ _ => ?_
  refine exists_bind (runtimeRate_isOk (by decide) (namesSource_of_chars rfl (by decide))
    (nodup_sortedIds _) (namesSource_of_chars rfl (by decide)) (nodup_sortedIds _)) fun _ _ => ?_
  refine exists_bind (runtimeRate_isOk (by decide) (namesSource_of_chars rfl (by decide))
    (nodup_sortedIds _) (namesSource_of_chars rfl (by decide)) (nodup_sortedIds _)) fun _ _ => ?_
  refine exists_bind (runtimeRate_isOk (by decide) (namesSource_of_chars rfl (by decide))
    (nodup_sortedIds _) (namesSource_of_chars rfl (by decide)) (nodup_sortedIds _)) fun _ _ => ?_
  refine exists_bind (evaluatedMetric_isOk (by decide) (namesSource_of_chars rfl (by decide))
    (namesSource_append rfl rfl (by decide)) (nodup_sortedIds _)
    (hworkFits _ rfl)) fun _ _ => ?_
  refine exists_bind (evaluatedMetric_isOk (by decide) (namesSource_of_chars rfl (by decide))
    (namesSource_append rfl rfl (by decide)) (nodup_sortedIds _)
    (hworkFits _ rfl)) fun _ _ => ?_
  refine exists_bind (evaluatedMetric_isOk (by decide) (namesSource_of_chars rfl (by decide))
    (namesSource_append rfl rfl (by decide)) (nodup_sortedIds _)
    hproposalFits) fun _ _ => ?_
  refine exists_bind (evaluatedMetric_isOk (by decide) (namesSource_of_chars rfl (by decide))
    (namesSource_append rfl rfl (by decide)) (nodup_sortedIds _)
    (hworkFits _ rfl)) fun _ _ => ?_
  exact ⟨_, rfl⟩

/-- Opportunities have identifiers of their own. -/
theorem nodup_eligible (s : EvaluationState) (metric : EvaluationMetric) :
    (s.eligible metric).Nodup := by
  cases metric with
  | unnecessaryInterruptionRate => exact s.studio.runtime.effects.tables.proposals.domain.nodup
  | rebriefTurns | wrongMemoryRate | humanInterventionCount => exact s.studio.tables.works.nodup

/-- The count of observations says what a readout reports. -/
def CountsJudged (s : EvaluationState) (metric : EvaluationMetric) : Prop :=
  s.eligible metric ≠ [] ∧ (s.matching metric).length = (s.eligible metric).length

theorem sum_matching_le (s : EvaluationState) {metric : EvaluationMetric}
    (h : metric.isRate = true) :
    ((s.matching metric).map EvaluationObservation.value).sum ≤ (s.matching metric).length := by
  refine Coverage.sum_le_length fun o ho => o.binary ?_
  have hjudgment := (Coverage.mem_on.mp ho).1
  rw [judgments, List.mem_filter, decide_eq_true_eq] at hjudgment
  rw [hjudgment.2, h]

theorem honest_iff (h : s.Reports readout) :
    s.Honest readout ↔
      ∀ metric : EvaluationMetric, s.CountsJudged metric ↔ s.FullyJudged metric := by
  have hof {metric : EvaluationMetric} {r : MetricResult} (hr : r ∈ readout)
      (hmetric : r.metric = metric.text) :
      Evaluated metric (s.eligible metric) (s.matching metric) r := by
    obtain ⟨other, hother⟩ | ⟨hruntime, _⟩ := h.only r hr
    · have htext : other.text = metric.text := hother.metric_eq.symm.trans hmetric
      have hinj : ∀ a b : EvaluationMetric, a.text = b.text → a = b := by
        intro a b
        cases a <;> cases b <;> decide
      rwa [hinj _ _ htext] at hother
    · obtain ⟨rate, hrate⟩ := hruntime
      have hnot : ∀ (a : EvaluationMetric) (b : RuntimeRate), a.text ≠ b.text := by
        intro a b
        cases a <;> cases b <;> decide
      exact absurd (hmetric.symm.trans hrate) (hnot metric rate)
  constructor
  · intro hhonest metric
    obtain ⟨r, hr, hevaluated⟩ := h.judged metric
    exact hevaluated.observed_iff.symm.trans (hhonest.observed metric r hr hevaluated.metric_eq)
  · intro hcounts
    refine ⟨fun metric => ?_, fun metric r hr hmetric => ?_, fun metric r hr hmetric hobserved => ?_,
      fun r hr hrate n hn => ?_⟩
    · obtain ⟨r, hr, hevaluated⟩ := h.judged metric
      exact ⟨r, hr, hevaluated.metric_eq⟩
    · exact (hof hr hmetric).observed_iff.trans (hcounts metric)
    · have hevaluated := hof hr hmetric
      have hjudged := hevaluated.observed_iff.mp hobserved
      exact ⟨_, hevaluated.numerator_eq hobserved, Coverage.countsOnce _
        ((hcounts metric).mp hjudged).2 hjudged.2 (s.nodup_eligible metric)⟩
    · obtain ⟨metric, hevaluated⟩ | ⟨_, hle⟩ := h.only r hr
      · by_cases hobserved : r.status = .observed
        · have hsum := hevaluated.numerator_eq hobserved
          rw [Option.mem_def, hsum] at hn
          obtain rfl := Option.some.inj hn
          have hisRate : metric.isRate = true := by
            rw [hevaluated.metric_eq] at hrate
            revert hrate
            cases metric <;> decide
          rw [hevaluated.denominator_eq, ← (hevaluated.observed_iff.mp hobserved).2]
          exact s.sum_matching_le hisRate
        · rw [Option.mem_def, hevaluated.unobserved hobserved] at hn
          exact absurd hn (by simp)
      · exact hle n hn

/-- The count says so where no surplus stands in for what is missing. -/
theorem countsJudged_iff (s : EvaluationState) (metric : EvaluationMetric) :
    (s.CountsJudged metric ↔ s.FullyJudged metric) ↔
      (Coverage.surplus EvaluationObservation.opportunityId (s.eligible metric)
          (s.judgments metric) = Coverage.unobserved EvaluationObservation.opportunityId
          (s.eligible metric) (s.judgments metric) ↔
        Coverage.unobserved EvaluationObservation.opportunityId (s.eligible metric)
          (s.judgments metric) = 0) := by
  rw [CountsJudged, FullyJudged, matching, Coverage.length_on_eq_iff (s.nodup_eligible metric),
    Coverage.unobserved_eq_zero]
  by_cases hempty : s.eligible metric = []
  · simp [hempty, Coverage.surplus, Coverage.unobserved, Coverage.Covers]
  · simp [hempty]

end EvaluationState

-- ════════════════════════════════════════════════════════════════════════
-- Runs
-- ════════════════════════════════════════════════════════════════════════

section Runs

variable {ports : GovernancePorts} {zones : TimeZones} {s : EvaluationState}

open P4EvaluationService

theorem studio_of_evaluation (h : (evaluation ports zones).Reachable s) :
    (studio ports zones).Reachable s.studio := by
  refine h.invariant (I := fun s => (studio ports zones).Reachable s.studio) ?_ ?_
  · rintro _ rfl
    exact .init rfl
  · intro s a t hs hstep
    have hexec : s.exec ports zones a = .ok t := hstep
    cases a with
    | studio action =>
      simp only [EvaluationState.exec, bind_eq_ok, pure_eq_ok] at hexec
      obtain ⟨_, haction, rfl⟩ := hexec
      exact hs.step haction
    | recordEvaluationObservation observation =>
      simp only [EvaluationState.exec, bind_eq_ok, pure_eq_ok] at hexec
      obtain ⟨_, _, rfl⟩ := hexec
      exact hs
    | recordProposalCandidateObservation observation =>
      simp only [EvaluationState.exec, bind_eq_ok, pure_eq_ok] at hexec
      obtain ⟨_, _, rfl⟩ := hexec
      exact hs

/-- The snapshot of a colleague is complete. -/
theorem exists_snapshot (h : (evaluation ports zones).Reachable s)
    (hcolleague : s.studio.tables.governance.store.colleague ≠ none) :
    ∃ snapshot, s.studio.snapshot = .ok snapshot := by
  obtain ⟨c, hc⟩ := Option.ne_none_iff_exists'.mp hcolleague
  obtain ⟨base, hbase⟩ := (lineage_of_studio (studio_of_evaluation h)).configured c hc
  have hconfiguration : s.studio.configuration = c.tables := by
    rw [StudioState.configuration, StudioTables.configuration, GovernanceState.configuration, hc]
    rfl
  rw [StudioState.snapshot, hconfiguration, hbase.active.profiles, hbase.active.mandates]
  exact ⟨_, rfl⟩

theorem colleague_of_snapshot {s : StudioState} {snapshot : StudioSnapshot}
    (h : s.snapshot = .ok snapshot) : s.tables.governance.store.colleague ≠ none := by
  intro hnone
  obtain ⟨hprofiles, _⟩ := EvaluationState.snapshot_eq_ok.mp h
  rw [StudioState.configuration, StudioTables.configuration, GovernanceState.configuration,
    hnone] at hprofiles
  exact absurd hprofiles (by simp [BuilderTables.empty, Records.empty, Table.empty])

/-- The readout of a colleague is honest exactly when the count of observations tells,
    for every judged metric, whether all its opportunities were judged. -/
theorem readout_honest_iff (workCorrelation : StableId → StableId)
    (h : (evaluation ports zones).Reachable s) :
    (∃ readout, s.evaluate workCorrelation = .ok readout ∧ s.Honest readout) ↔
      s.studio.tables.governance.store.colleague ≠ none ∧
        ∀ metric : EvaluationMetric, s.CountTells metric := by
  constructor
  · rintro ⟨readout, hreadout, hhonest⟩
    have hreports := EvaluationState.reports_of_evaluate hreadout
    have hcounts := (EvaluationState.honest_iff hreports).mp hhonest
    have hsnapshot := hreadout
    simp only [EvaluationState.evaluate, bind_eq_ok] at hsnapshot
    obtain ⟨snapshot, hsnapshot, _⟩ := hsnapshot
    refine ⟨colleague_of_snapshot hsnapshot, fun metric =>
      ⟨(s.countsJudged_iff metric).mp (hcounts metric), fun hjudged => ?_⟩⟩
    have hlength := ((hcounts metric).mpr hjudged).2
    exact hreports.fits metric hjudged.1 hlength
  · rintro ⟨hcolleague, htells⟩
    have hcounts (metric : EvaluationMetric) : s.CountsJudged metric ↔ s.FullyJudged metric :=
      (s.countsJudged_iff metric).mpr (htells metric).surplus
    obtain ⟨snapshot, hsnapshot⟩ := exists_snapshot h hcolleague
    obtain ⟨readout, hreadout⟩ : ∃ readout, s.evaluate workCorrelation = .ok readout :=
      EvaluationState.exists_evaluate hsnapshot fun metric hne hlength =>
        (htells metric).sources ((hcounts metric).mp ⟨hne, hlength⟩)
    exact ⟨readout, hreadout, (EvaluationState.honest_iff
      (EvaluationState.reports_of_evaluate hreadout)).mpr hcounts⟩

end Runs

theorem sampleObservation_binary :
    EvaluationMetric.wrongMemoryRate.isRate = true → 1 ≤ 1 := fun _ => le_refl 1

/-- A judgment that the memory for an opportunity was wrong. -/
def sampleObservation (observationId opportunityId source : StableId) : EvaluationObservation where
  observationId := observationId
  metric := .wrongMemoryRate
  value := 1
  opportunityId := opportunityId
  source := source
  evidenceClass := .offline
  scenarioVersion := stableId "scenario-1"
  policyVersion := stableId "policy-1"
  correlationId := stableId "review-1"
  causationId := stableId "review-1"
  observedAt := 300
  revision := 1
  binary := sampleObservation_binary
  revision_pos := Nat.one_pos

/-- The sample colleague with two work items. -/
def sampleTwoWorks : List (StudioState → StudioAction) :=
  sampleGoverned sampleEmployed ++ [fun _ => .assignWork sampleWork,
    fun _ => .assignWork ⟨stableId "work-2", "report", .ready⟩]

/-- Two judgments: one of the first item, and one of the item that is given. -/
def sampleJudged (opportunityId : StableId) : List (EvaluationState → EvaluationAction) :=
  sampleTwoWorks.map (fun f s => .studio (f s.studio)) ++
  [fun _ => .recordEvaluationObservation (sampleObservation (stableId "observation-1")
      (stableId "work-1") (stableId "reviewer-1")),
    fun _ => .recordEvaluationObservation (sampleObservation (stableId "observation-2")
      opportunityId (stableId "reviewer-2"))]

/-- A run that succeeds with a final state that meets `p`. -/
theorem exists_evaluated (as : List (EvaluationState → EvaluationAction))
    (p : EvaluationState → Bool)
    (h : TransitionSystem.runsTo (EvaluationState.exec samplePorts sampleZones) .initial as
      (fun _ s => p s) = true) :
    ∃ s, (evaluation samplePorts sampleZones).Reachable s ∧ p s = true := by
  obtain ⟨_, s, hpath, hp⟩ :=
    TransitionSystem.exists_path_of_runsTo (T := evaluation samplePorts sampleZones)
      (fun _ _ _ hs => hs) h
  exact ⟨s, hpath.reachable (.init rfl), hp⟩

/-- The counts tell what was judged. -/
def toldRightly (s : EvaluationState) : Bool :=
  decide (s.studio.tables.governance.store.colleague.isSome = true) &&
    [EvaluationMetric.rebriefTurns, .wrongMemoryRate, .unnecessaryInterruptionRate,
      .humanInterventionCount].all fun metric =>
        decide ((Coverage.surplus EvaluationObservation.opportunityId (s.eligible metric)
            (s.judgments metric) = Coverage.unobserved EvaluationObservation.opportunityId
            (s.eligible metric) (s.judgments metric) ↔
          Coverage.unobserved EvaluationObservation.opportunityId (s.eligible metric)
            (s.judgments metric) = 0) ∧
          (P4EvaluationService.observationSource (Coverage.on
            EvaluationObservation.opportunityId (s.eligible metric)
              (s.judgments metric))).length ≤ 4096)

theorem countTells_of_toldRightly {s : EvaluationState} (h : toldRightly s = true) :
    s.studio.tables.governance.store.colleague ≠ none ∧
      ∀ metric : EvaluationMetric, s.CountTells metric := by
  obtain ⟨hcolleague, hmetrics⟩ := Bool.and_eq_true_iff.mp h
  refine ⟨Option.isSome_iff_ne_none.mp (of_decide_eq_true hcolleague), fun metric => ?_⟩
  have hmem : metric ∈ [EvaluationMetric.rebriefTurns, .wrongMemoryRate,
      .unnecessaryInterruptionRate, .humanInterventionCount] := by
    cases metric <;> decide
  obtain ⟨hsurplus, hsources⟩ := of_decide_eq_true (List.all_eq_true.mp hmetrics metric hmem)
  exact ⟨hsurplus, fun _ => hsources⟩

theorem readout_honest_two_judged :
    ∃ s, (evaluation samplePorts sampleZones).Reachable s ∧
      ∃ readout, s.evaluate id = .ok readout ∧ s.Honest readout := by
  obtain ⟨s, hs, hp⟩ := exists_evaluated (sampleJudged (stableId "work-2")) toldRightly
    (by decide +kernel)
  exact ⟨s, hs, (readout_honest_iff id hs).mpr (countTells_of_toldRightly hp)⟩

/-- The second work item was not judged, but there are as many judgments as items. -/
def toldWrongly (s : EvaluationState) : Bool :=
  decide (s.studio.tables.governance.store.colleague.isSome = true) &&
    decide (stableId "work-2" ∈ s.eligible .wrongMemoryRate) &&
    decide ((s.matching .wrongMemoryRate).length = (s.eligible .wrongMemoryRate).length) &&
    (s.judgments .wrongMemoryRate).all fun o => decide (o.opportunityId ≠ stableId "work-2")

theorem not_readout_honest :
    ¬∀ (ports : GovernancePorts) (zones : TimeZones) (workCorrelation : StableId → StableId)
      (s : EvaluationState), (evaluation ports zones).Reachable s →
      s.studio.tables.governance.store.colleague ≠ none →
      ∃ readout, s.evaluate workCorrelation = .ok readout ∧ s.Honest readout := by
  intro hall
  obtain ⟨s, hs, hp⟩ := exists_evaluated (sampleJudged (stableId "work-1")) toldWrongly
    (by decide +kernel)
  obtain ⟨hp, hnone⟩ := Bool.and_eq_true_iff.mp hp
  obtain ⟨hp, hlength⟩ := Bool.and_eq_true_iff.mp hp
  obtain ⟨hcolleague, hmem⟩ := Bool.and_eq_true_iff.mp hp
  obtain ⟨readout, hok, hhonest⟩ := hall samplePorts sampleZones id s hs
    (Option.isSome_iff_ne_none.mp (of_decide_eq_true hcolleague))
  have hcounts := (EvaluationState.honest_iff (EvaluationState.reports_of_evaluate hok)).mp
    hhonest .wrongMemoryRate
  have hjudged : s.FullyJudged .wrongMemoryRate :=
    hcounts.mp ⟨List.ne_nil_of_mem (of_decide_eq_true hmem), of_decide_eq_true hlength⟩
  obtain ⟨o, ho, hopportunity⟩ := hjudged.2 _ (of_decide_eq_true hmem)
  exact of_decide_eq_true (List.all_eq_true.mp hnone o ho) hopportunity

end DigitalColleagues
